import PluginForge.Descriptor.Catalog
import PluginForge.Generation.Error

/-! What every stage of a generation pass looks things up in. -/

namespace PluginForge

structure Context where
  catalog : Catalog
  /-- Stored documentation by type name; empty where nothing is stored. -/
  storedDoc : String → Except DescriptorError TypeDoc

namespace Context

def load (cx : Context) (name : String) : Except GenerateError Descriptor :=
  match cx.catalog.load? name with
  | some d => .ok d
  | none => .error (.unknownType name)

/-- Stored documentation, or else what the descriptor itself carries. -/
def javadoc (cx : Context) (name : String) : Except GenerateError TypeDoc :=
  match cx.storedDoc name with
  | .error e => .error (.javadoc name e)
  | .ok stored =>
    if stored.isEmpty then .ok (((cx.catalog.load? name).map (·.javadoc)).getD {}) else .ok stored

end Context

end PluginForge
