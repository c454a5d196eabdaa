import PluginForge.Descriptor.Basic
import PluginForge.Json.Record
import PluginForge.Types.Parser

/-! Descriptors as JSON, both ways. Writing spells every field out; reading fills in what is left out. -/

namespace PluginForge

open Json (ofOption ofList record? required defaulted optional toText? toBool? listOf?)

/-- A constant, as its word alone or as the one key of an object, with nothing under it. -/
def word? {α : Type} (all : List α) (word : α → String) : Json → Option α
  | .str text | .obj [(text, .null)] => all.find? (word · == text)
  | _ => none

def ClassKind.all : List ClassKind := [.class, .record, .enum, .interface]

def ClassKind.word : ClassKind → String
  | .class => "class"
  | .record => "record"
  | .enum => "enum"
  | .interface => "interface"

def Visibility.all : List Visibility := [.pub, .prot, .package, .priv]

def Visibility.word : Visibility → String
  | .pub => "public"
  | .prot => "protected"
  | .package => "packagePrivate"
  | .priv => "private"

def Visibility.ofJson? : Json → Option Visibility := word? Visibility.all Visibility.word

def SourceType.ofJson? (value : Json) : Option SourceType := do
  match SourceType.parse (← value.toText?) with
  | .ok ty => some ty
  | .error _ => none

def SourceType.toJson (ty : SourceType) : Json := .str ty.display

namespace TypeDoc

/-- Of two texts for one element the last counts. -/
def elements? : Json → Option (KeyMap String)
  | .obj pairs => do
    let texts ← pairs.mapM fun (pair : String × Json) => do return (pair.1, ← pair.2.toText?)
    return KeyMap.ofList texts
  | _ => none

def ofJson? (value : Json) : Option TypeDoc := do
  let pairs ← record? ["javadoc", "elements"] value
  return {
    summary := ← optional pairs "javadoc" toText?
    elements := ← defaulted pairs "elements" ∅ elements?
  }

def toJson (doc : TypeDoc) : Json :=
  .obj [("javadoc", ofOption .str doc.summary),
    ("elements", .obj (doc.elements.entries.map fun entry => (entry.1, .str entry.2)))]

end TypeDoc

namespace ParameterMark

def ofJson? (value : Json) : Option ParameterMark := do
  let pairs ← record? ["required", "defaultValue", "internal", "globalProperty", "directory", "output",
    "pathSensitivity"] value
  return {
    required := ← defaulted pairs "required" false toBool?
    defaultValue := ← optional pairs "defaultValue" toText?
    internal := ← defaulted pairs "internal" false toBool?
    globalProperty := ← optional pairs "globalProperty" toText?
    directory := ← defaulted pairs "directory" false toBool?
    output := ← defaulted pairs "output" false toBool?
    pathSensitivity := ← defaulted pairs "pathSensitivity" .absolute
      (word? PathSensitivity.all PathSensitivity.constant)
  }

def toJson (mark : ParameterMark) : Json :=
  .obj [("required", .bool mark.required), ("defaultValue", ofOption .str mark.defaultValue),
    ("internal", .bool mark.internal), ("globalProperty", ofOption .str mark.globalProperty),
    ("directory", .bool mark.directory), ("output", .bool mark.output),
    ("pathSensitivity", .str mark.pathSensitivity.constant)]

end ParameterMark

namespace GradleTaskRequest

def ofJson? (value : Json) : Option GradleTaskRequest := do
  let pairs ← record? ["namePrefix", "source", "extensionMethodName", "cacheable"] value
  return {
    namePrefix := ← optional pairs "namePrefix" toText?
    source := ← required pairs "source" toText?
    extensionMethodName := ← optional pairs "extensionMethodName" toText?
    cacheable := ← defaulted pairs "cacheable" true toBool?
  }

def toJson (r : GradleTaskRequest) : Json :=
  .obj [("namePrefix", ofOption .str r.namePrefix), ("source", .str r.source),
    ("extensionMethodName", ofOption .str r.extensionMethodName), ("cacheable", .bool r.cacheable)]

end GradleTaskRequest

namespace GradleRequest

def ofJson? (value : Json) : Option GradleRequest := do
  let pairs ← record? ["namePrefix", "tasks", "micronautPlugin", "taskGroup", "dependency", "types"] value
  return {
    namePrefix := ← optional pairs "namePrefix" toText?
    tasks := ← defaulted pairs "tasks" [] (listOf? GradleTaskRequest.ofJson?)
    micronautPlugin := ← defaulted pairs "micronautPlugin" true toBool?
    taskGroup := ← optional pairs "taskGroup" toText?
    dependency := ← optional pairs "dependency" toText?
    types := ← defaulted pairs "types" ArtifactKind.all (listOf? (word? ArtifactKind.all ArtifactKind.word))
  }

def toJson (r : GradleRequest) : Json :=
  .obj [("namePrefix", ofOption .str r.namePrefix), ("tasks", ofList GradleTaskRequest.toJson r.tasks),
    ("micronautPlugin", .bool r.micronautPlugin), ("taskGroup", ofOption .str r.taskGroup),
    ("dependency", ofOption .str r.dependency), ("types", ofList (fun kind => .str kind.word) r.types)]

end GradleRequest

namespace MojoRequest

def ofJson? (value : Json) : Option MojoRequest := do
  let pairs ← record? ["namePrefix", "source", "micronautPlugin", "mavenPropertyPrefix"] value
  return {
    namePrefix := ← optional pairs "namePrefix" toText?
    source := ← required pairs "source" toText?
    micronautPlugin := ← defaulted pairs "micronautPlugin" true toBool?
    mavenPropertyPrefix := ← defaulted pairs "mavenPropertyPrefix" "" toText?
  }

def toJson (r : MojoRequest) : Json :=
  .obj [("namePrefix", ofOption .str r.namePrefix), ("source", .str r.source),
    ("micronautPlugin", .bool r.micronautPlugin), ("mavenPropertyPrefix", .str r.mavenPropertyPrefix)]

end MojoRequest

namespace SourceParameter

def ofJson? (value : Json) : Option SourceParameter := do
  let pairs ← record? ["name", "type"] value
  return { name := ← required pairs "name" toText?, ty := ← required pairs "type" SourceType.ofJson? }

def toJson (p : SourceParameter) : Json := .obj [("name", .str p.name), ("type", p.ty.toJson)]

end SourceParameter

namespace SourceField

def ofJson? (value : Json) : Option SourceField := do
  let pairs ← record? ["name", "visibility"] value
  return {
    name := ← required pairs "name" toText?
    visibility := ← defaulted pairs "visibility" .priv Visibility.ofJson?
  }

def toJson (f : SourceField) : Json := .obj [("name", .str f.name), ("visibility", .str f.visibility.word)]

end SourceField

namespace Property

def ofJson? (value : Json) : Option Property := do
  let pairs ← record? ["name", "type", "setter", "field", "parameter"] value
  return {
    name := ← required pairs "name" toText?
    ty := ← required pairs "type" SourceType.ofJson?
    setter := ← optional pairs "setter" toText?
    field := ← optional pairs "field" SourceField.ofJson?
    parameter := ← optional pairs "parameter" ParameterMark.ofJson?
  }

def toJson (p : Property) : Json :=
  .obj [("name", .str p.name), ("type", p.ty.toJson), ("setter", ofOption .str p.setter),
    ("field", ofOption SourceField.toJson p.field), ("parameter", ofOption ParameterMark.toJson p.parameter)]

end Property

namespace SourceMethod

def ofJson? (value : Json) : Option SourceMethod := do
  let pairs ← record? ["name", "parameters", "returns", "executable"] value
  return {
    name := ← required pairs "name" toText?
    parameters := ← defaulted pairs "parameters" [] (listOf? SourceParameter.ofJson?)
    returns := ← defaulted pairs "returns" .void SourceType.ofJson?
    executable := ← defaulted pairs "executable" false toBool?
  }

def toJson (m : SourceMethod) : Json :=
  .obj [("name", .str m.name), ("parameters", ofList SourceParameter.toJson m.parameters),
    ("returns", m.returns.toJson), ("executable", .bool m.executable)]

end SourceMethod

namespace SourceConstructor

def ofJson? (value : Json) : Option SourceConstructor := do
  let pairs ← record? ["parameters", "visibility", "primary"] value
  return {
    parameters := ← defaulted pairs "parameters" [] (listOf? SourceParameter.ofJson?)
    visibility := ← defaulted pairs "visibility" .pub Visibility.ofJson?
    primary := ← defaulted pairs "primary" false toBool?
  }

def toJson (c : SourceConstructor) : Json :=
  .obj [("parameters", ofList SourceParameter.toJson c.parameters), ("visibility", .str c.visibility.word),
    ("primary", .bool c.primary)]

end SourceConstructor

namespace Descriptor

def ofJson? (value : Json) : Option Descriptor := do
  let pairs ← record? ["name", "kind", "javadoc", "enumConstants", "properties", "methods", "constructors",
    "pluginTask", "gradlePlugin", "mavenMojos"] value
  return {
    name := ← required pairs "name" toText?
    kind := ← defaulted pairs "kind" .class (word? ClassKind.all ClassKind.word)
    javadoc := ← defaulted pairs "javadoc" {} TypeDoc.ofJson?
    enumConstants := ← defaulted pairs "enumConstants" [] (listOf? toText?)
    properties := ← defaulted pairs "properties" [] (listOf? Property.ofJson?)
    methods := ← defaulted pairs "methods" [] (listOf? SourceMethod.ofJson?)
    constructors := ← defaulted pairs "constructors" [] (listOf? SourceConstructor.ofJson?)
    pluginTask := ← defaulted pairs "pluginTask" false toBool?
    gradlePlugin := ← optional pairs "gradlePlugin" GradleRequest.ofJson?
    mavenMojos := ← defaulted pairs "mavenMojos" [] (listOf? MojoRequest.ofJson?)
  }

def toJson (d : Descriptor) : Json :=
  .obj [("name", .str d.name), ("kind", .str d.kind.word), ("javadoc", d.javadoc.toJson),
    ("enumConstants", ofList .str d.enumConstants), ("properties", ofList Property.toJson d.properties),
    ("methods", ofList SourceMethod.toJson d.methods),
    ("constructors", ofList SourceConstructor.toJson d.constructors), ("pluginTask", .bool d.pluginTask),
    ("gradlePlugin", ofOption GradleRequest.toJson d.gradlePlugin),
    ("mavenMojos", ofList MojoRequest.toJson d.mavenMojos)]

end Descriptor

end PluginForge
