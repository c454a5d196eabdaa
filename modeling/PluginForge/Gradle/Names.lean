import PluginForge.Generation.TriggerPlan

/-! Names of the Gradle types that are generated and of those they build on. -/

namespace PluginForge.Gradle

def action : String := "org.gradle.api.Action"

def configuration : TypeRef := .class "org.gradle.api.artifacts.Configuration"

def fileCollection : TypeRef := .class "org.gradle.api.file.ConfigurableFileCollection"

def project : TypeRef := .class "org.gradle.api.Project"

def taskTypeName (package namePrefix : String) : String := s!"{package}.{namePrefix}Task"

def taskType (package namePrefix : String) : TypeRef := .class (taskTypeName package namePrefix)

def specificationName (package namePrefix : String) : String := s!"{package}.{namePrefix}Specification"

def specificationType (package namePrefix : String) : TypeRef := .class (specificationName package namePrefix)

def extensionName (plan : GradlePlan) : String := s!"{plan.packageName}.{plan.namePrefix}Extension"

def defaultExtensionName (plan : GradlePlan) : String :=
  s!"{plan.packageName}.Default{plan.namePrefix}Extension"

def pluginName (plan : GradlePlan) : String := s!"{plan.packageName}.{plan.namePrefix}Plugin"

/-- The type that stands for a value wherever generated code takes one, as Gradle property. -/
def propertyType (p : Parameter) : TypeRef :=
  let source := p.sourceType
  if source.isFile then
    .class (if p.directory then "org.gradle.api.file.DirectoryProperty"
      else "org.gradle.api.file.RegularFileProperty")
  else if source.isMap && p.ty.args.length == 2 then
    .parameterized "org.gradle.api.provider.MapProperty" p.ty.args
  else match source.collectionKind?, p.ty.args with
    | some .list, [element] => .parameterized "org.gradle.api.provider.ListProperty" [element]
    | some .set, [element] => .parameterized "org.gradle.api.provider.SetProperty" [element]
    | _, _ => .parameterized "org.gradle.api.provider.Property" [p.ty.boxed]

def getterName (p : Parameter) : String := Naming.getter p.name

/-- Reads the Gradle property of a parameter from an object that has one. -/
def readProperty (receiver : Expr) (p : Parameter) : Expr :=
  receiver.invoke (getterName p) (propertyType p) []

/-- The abstract method that an object has for the Gradle property of a parameter. -/
def propertyGetter (p : Parameter) : MethodDef where
  name := getterName p
  modifiers := [.pub, .abstract]
  returns := propertyType p

end PluginForge.Gradle
