/-!
What a type asks of the generator: how a property becomes a parameter of a task, and which plugin sources
a trigger type wants. A manifest writes only what differs from the defaults here.
-/

namespace PluginForge

/-- The part of a file path that counts when a file input is compared for caching. -/
inductive PathSensitivity where
  | none | nameOnly | relative | absolute
  deriving DecidableEq, Repr

namespace PathSensitivity

def all : List PathSensitivity := [.none, .nameOnly, .relative, .absolute]

/-- The name of the constant in generated code and in manifests. -/
def constant : PathSensitivity → String
  | .none => "NONE"
  | .nameOnly => "NAME_ONLY"
  | .relative => "RELATIVE"
  | .absolute => "ABSOLUTE"

end PathSensitivity

/-- How a property becomes a task parameter. An internal one is set by plugin code and is not part of the
public interface; `directory` concerns files only. -/
structure ParameterMark where
  required : Bool := false
  defaultValue : Option String := none
  internal : Bool := false
  globalProperty : Option String := none
  directory : Bool := false
  output : Bool := false
  pathSensitivity : PathSensitivity := .absolute
  deriving DecidableEq, Repr

/-- The kinds of Gradle sources. -/
inductive ArtifactKind where
  | task | extension | specification | plugin
  deriving DecidableEq, Repr

namespace ArtifactKind

def all : List ArtifactKind := [.task, .extension, .specification, .plugin]

def word : ArtifactKind → String
  | .task => "GRADLE_TASK"
  | .extension => "GRADLE_EXTENSION"
  | .specification => "GRADLE_SPECIFICATION"
  | .plugin => "GRADLE_PLUGIN"

end ArtifactKind

/-- One task of a Gradle plugin, built from the task type `source`. -/
structure GradleTaskRequest where
  namePrefix : Option String := none
  source : String
  extensionMethodName : Option String := none
  cacheable : Bool := true
  deriving DecidableEq, Repr

structure GradleRequest where
  namePrefix : Option String := none
  tasks : List GradleTaskRequest := []
  micronautPlugin : Bool := true
  taskGroup : Option String := none
  /-- A dependency that the plugin adds to its class path configuration. -/
  dependency : Option String := none
  types : List ArtifactKind := ArtifactKind.all
  deriving DecidableEq, Repr

structure MojoRequest where
  namePrefix : Option String := none
  source : String
  micronautPlugin : Bool := true
  mavenPropertyPrefix : String := ""
  deriving DecidableEq, Repr

end PluginForge
