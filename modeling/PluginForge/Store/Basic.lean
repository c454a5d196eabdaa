import PluginForge.Descriptor.Error
import PluginForge.Descriptor.Javadoc

/-!
Stores of documentation. What is harvested while task types are validated is kept by type name and read
back when sources are generated, even if the type itself is then no longer at hand.
-/

namespace PluginForge

/-- Operations on the state of a store. A type that nothing is stored for reads as empty documentation. -/
structure DocStore (σ : Type) where
  read : σ → String → Except DescriptorError TypeDoc
  write : σ → String → TypeDoc → Except DescriptorError Unit × σ

namespace DocStore

/-- A store in memory. -/
def memory : DocStore (KeyMap TypeDoc) where
  read docs name := .ok ((docs.get? name).getD {})
  write docs name doc := (.ok (), docs.insert name doc)

end DocStore

end PluginForge
