import PluginForge.KeyMap

/-! Documentation of one type: its own text and one for each documented property and method. -/

namespace PluginForge

/-- Properties are keyed by their name, methods by theirs followed by `()`. -/
structure TypeDoc where
  summary : Option String := none
  elements : KeyMap String := ∅
  deriving DecidableEq

namespace TypeDoc

instance : Inhabited TypeDoc := ⟨{}⟩

def isEmpty (doc : TypeDoc) : Bool := doc.summary.isNone && doc.elements.isEmpty

def element? (doc : TypeDoc) (key : String) : Option String := doc.elements.get? key

def method? (doc : TypeDoc) (name : String) : Option String := doc.element? (name ++ "()")

end TypeDoc

end PluginForge
