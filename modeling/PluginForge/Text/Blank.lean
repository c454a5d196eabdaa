import PluginForge.Text.CodeRange

/-! White space: the characters with the property White_Space, and the two ways text drops them. -/

namespace PluginForge.Text

def blankRanges : List (Nat × Nat) := [
   (0x0009, 0x000D), (0x0020, 0x0020), (0x0085, 0x0085), (0x00A0, 0x00A0), (0x1680, 0x1680),
   (0x2000, 0x200A), (0x2028, 0x2029), (0x202F, 0x202F), (0x205F, 0x205F), (0x3000, 0x3000)]

def isBlank (c : Char) : Bool := inRanges blankRanges c.toNat

def dropBlanks (cs : List Char) : List Char := cs.dropWhile isBlank

/-- Drops the blanks at both ends. -/
def trim (text : String) : String :=
  String.ofList (dropBlanks (dropBlanks text.toList).reverse).reverse

theorem dropBlanks_of_not_isBlank {c : Char} {cs : List Char} (solid : isBlank c = false) :
    dropBlanks (c :: cs) = c :: cs := by
  simp [dropBlanks, solid]

end PluginForge.Text
