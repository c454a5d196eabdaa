import PluginForge.Descriptor.Error
import PluginForge.Descriptor.Request

/-! What can go wrong between a trigger type and the sources it asks for. -/

namespace PluginForge

/-- The build tools that sources are generated for. -/
inductive BuildTool where
  | gradle | maven
  deriving DecidableEq, Repr

/-- The annotation that requests sources for the tool. -/
def BuildTool.annotation : BuildTool → String
  | .gradle => "GenerateGradlePlugin"
  | .maven => "GenerateMavenMojo"

inductive GenerateError where
  | executableCount (typeName : String) (found : Nat)
  | executableHasParameters (typeName method : String)
  | executableNotVoid (typeName method : String)
  | unknownType (typeName : String)
  | unresolvedSource (trigger reference : String)
  | missingTrigger (typeName : String) (tool : BuildTool)
  | unsupportedArtifact (trigger : String) (kind : ArtifactKind)
  | noConstructor (typeName : String)
  | missingArgument (typeName property : String)
  | unsupportedDefault (typeName parameter ty : String)
  | invalidDefault (typeName parameter value ty : String)
  | javadoc (typeName : String) (cause : DescriptorError)
  /-- A definition that could not be written to a path, or that no text could be found for. -/
  | unwritable (name : String) (path : Option String)
  /-- A failure that no change of the sources mends, with the trigger that was being generated. -/
  | fatal (owner : String) (tool : BuildTool) (cause : GenerateError)
  deriving DecidableEq, Repr

namespace GenerateError

def message : GenerateError → String
  | .executableCount typeName found =>
    s!"expected exactly one task executable method on {typeName} but found {found}"
  | .executableHasParameters typeName method =>
    s!"task executable {typeName}.{method}() must not have parameters"
  | .executableNotVoid typeName method => s!"task executable {typeName}.{method}() must return void"
  | .unknownType typeName => s!"could not load type {typeName}"
  | .unresolvedSource trigger reference =>
    s!"could not load source type {reference} referenced by {trigger}"
  | .missingTrigger typeName tool => s!"{typeName} has no {tool.annotation} annotation"
  | .unsupportedArtifact trigger kind =>
    s!"building plugin sources of kind {kind.word} is not supported (requested by {trigger})"
  | .noConstructor typeName => s!"no constructor found for {typeName}"
  | .missingArgument typeName property => s!"no argument for record component {property} of {typeName}"
  | .unsupportedDefault typeName parameter ty =>
    s!"cannot create a default value of type {ty} for {typeName}.{parameter}"
  | .invalidDefault typeName parameter value ty =>
    s!"default value `{value}` of {typeName}.{parameter} is not a valid {ty}"
  | .javadoc typeName _ => s!"failed to access javadoc metadata of {typeName}"
  | .unwritable name (some path) => s!"failed to write {name} to {path}"
  | .unwritable name none => s!"failed to serialize {name}"
  | .fatal owner tool _ => s!"failed to generate {tool.annotation} sources for {owner}"

/-- Whether the sources have to change before another attempt can succeed. -/
def isValidation : GenerateError → Bool
  | .missingArgument _ _ | .javadoc _ _ | .unwritable _ _ | .fatal _ _ _ => false
  | _ => true

end GenerateError

end PluginForge
