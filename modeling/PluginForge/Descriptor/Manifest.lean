import PluginForge.Descriptor.Catalog
import PluginForge.Descriptor.Json
import PluginForge.Json.Printer
import PluginForge.Json.Reader

/-! Manifests: JSON texts that list descriptors under the key `types`. -/

namespace PluginForge.Catalog

/-- The descriptors a manifest lists, in its order. -/
def manifestTypes? (text : String) : Option (List Descriptor) := do
  let pairs ← Json.record? ["types"] (← Json.read? text)
  Json.required pairs "types" (Json.listOf? Descriptor.ofJson?)

/-- Reads a manifest; an error names the file it comes from, if any. -/
def ofManifest (text : String) (path : Option String := none) : Except DescriptorError Catalog :=
  match manifestTypes? text with
  | none => .error (.json path)
  | some types => ofList types

/-- The manifest that lists all descriptors, every field spelled out. -/
def toManifest (catalog : Catalog) : Json := .obj [("types", Json.ofList Descriptor.toJson catalog.toList)]

end PluginForge.Catalog
