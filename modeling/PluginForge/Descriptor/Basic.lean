import PluginForge.Descriptor.Javadoc
import PluginForge.Descriptor.Request
import PluginForge.Types.SourceType

/-! Descriptors: the shape of one source type as far as the generator looks at it. -/

namespace PluginForge

inductive ClassKind where
  | «class» | record | enum | interface
  deriving DecidableEq, Repr

inductive Visibility where
  | pub | prot | package | priv
  deriving DecidableEq, Repr

/-- Whether generated code in another package of the same build gets at it. -/
def Visibility.isAccessible : Visibility → Bool
  | .pub | .package => true
  | _ => false

structure SourceParameter where
  name : String
  ty : SourceType
  deriving Repr

structure SourceField where
  name : String
  visibility : Visibility := .priv
  deriving DecidableEq, Repr

/-- A readable bean property, with the name of its write method and its field where it has them. -/
structure Property where
  name : String
  ty : SourceType
  setter : Option String := none
  field : Option SourceField := none
  parameter : Option ParameterMark := none
  deriving Repr

namespace Property

/-- Gives the property the setter that goes with its name. -/
def addSetter (p : Property) : Property := { p with setter := some (Naming.setter p.name) }

/-- Gives the property a field of its own name. -/
def addField (p : Property) (visibility : Visibility) : Property :=
  { p with field := some { name := p.name, visibility } }

/-- The field, if generated code may assign it. -/
def accessibleField? (p : Property) : Option SourceField := p.field.filter (·.visibility.isAccessible)

end Property

structure SourceMethod where
  name : String
  parameters : List SourceParameter := []
  returns : SourceType := .void
  /-- Whether the method is marked as the one that runs the task. -/
  executable : Bool := false
  deriving Repr

structure SourceConstructor where
  parameters : List SourceParameter := []
  visibility : Visibility := .pub
  primary : Bool := false
  deriving Repr

structure Descriptor where
  name : String
  kind : ClassKind := .class
  javadoc : TypeDoc := {}
  enumConstants : List String := []
  properties : List Property := []
  methods : List SourceMethod := []
  constructors : List SourceConstructor := []
  /-- Whether the type is marked as a plugin task. -/
  pluginTask : Bool := false
  gradlePlugin : Option GradleRequest := none
  mavenMojos : List MojoRequest := []

namespace Descriptor

def simpleName (d : Descriptor) : String := Naming.simpleName d.name

def packageName (d : Descriptor) : String := Naming.packageName d.name

def isRecord (d : Descriptor) : Bool := d.kind == .record

def isEnum (d : Descriptor) : Bool := d.kind == .enum

def sourceType (d : Descriptor) : SourceType := .ofName d.name

def property? (d : Descriptor) (name : String) : Option Property := d.properties.find? (·.name == name)

def executables (d : Descriptor) : List SourceMethod := d.methods.filter (·.executable)

/-- The constructor of a type that declares none: a record's takes its components, any other nothing. -/
def implicitConstructor (d : Descriptor) : SourceConstructor where
  parameters := if d.isRecord then d.properties.map fun p => ⟨p.name, p.ty⟩ else []
  primary := true

/-- Whether a constructor takes the components of the record by name and in order. -/
def isCanonical (d : Descriptor) (c : SourceConstructor) : Bool :=
  c.parameters.map (·.name) == d.properties.map (·.name)

/-- The constructor that generated code calls. Private ones never count. One that is marked primary comes
first; a record else has its canonical one, and another type the only one there is or else the one without
parameters. -/
def primaryConstructor? (d : Descriptor) : Option SourceConstructor :=
  if d.constructors.isEmpty then some d.implicitConstructor
  else
    let candidates := d.constructors.filter (·.visibility != .priv)
    match candidates.find? (·.primary) with
    | some c => some c
    | none =>
      if d.isRecord then candidates.find? d.isCanonical
      else match candidates with
        | [only] => some only
        | _ => candidates.find? (·.parameters.isEmpty)

end Descriptor

end PluginForge
