import PluginForge.Descriptor.Basic
import PluginForge.Generation.Conversion

/-! Task parameters: a property with what its mark says and what is left to defaults. -/

namespace PluginForge

/-- Whether a default suits the type of the parameter shows only when an expression is made of it. -/
structure Parameter where
  property : Property
  required : Bool
  defaultValue : Option String
  internal : Bool
  directory : Bool
  output : Bool
  globalProperty : Option String
  javadoc : String
  /-- The type in generated code: a copy, where the source type was copied. -/
  ty : TypeRef
  conversion : Conversion
  pathSensitivity : PathSensitivity

namespace Parameter

def name (p : Parameter) : String := p.property.name

def sourceType (p : Parameter) : SourceType := p.property.ty

/-- A parameter with a default is never required. -/
def resolve (doc : TypeDoc) (property : Property) (ref : ReplicaRef) : Parameter :=
  let mark := property.parameter.getD {}
  { property
    required := mark.required && mark.defaultValue.isNone
    defaultValue := mark.defaultValue
    internal := mark.internal
    directory := mark.directory
    output := mark.output
    globalProperty := mark.globalProperty
    javadoc := (doc.element? property.name).getD s!"Configurable {property.name} parameter."
    ty := ref.ty
    conversion := ref.conversion
    pathSensitivity := mark.pathSensitivity }

end Parameter

end PluginForge
