/-! Sets of characters given by closed intervals of code points. -/

namespace PluginForge.Text

/-- Whether a code point lies in one of the intervals, which stand in increasing order. -/
def inRanges : List (Nat × Nat) → Nat → Bool
  | [], _ => false
  | (first, last) :: rest, code =>
    if code < first then false else if code ≤ last then true else inRanges rest code

/-- Membership needs an interval around the code point, whatever the order. -/
theorem exists_of_inRanges {ranges : List (Nat × Nat)} {code : Nat} (inside : inRanges ranges code = true) :
    ∃ range ∈ ranges, range.1 ≤ code ∧ code ≤ range.2 := by
  induction ranges with
  | nil => simp [inRanges] at inside
  | cons range rest ih =>
    obtain ⟨first, last⟩ := range
    rw [inRanges] at inside
    split at inside
    · simp at inside
    · split at inside
      · exact ⟨(first, last), by simp, by simp; omega⟩
      · obtain ⟨range, member, bounds⟩ := ih inside
        exact ⟨range, by simp [member], bounds⟩

end PluginForge.Text
