/-!
Entries whose key was not seen yet. Their number is the measure of every walk that visits a key once:
seeing the key of an entry for the first time leaves fewer of them.
-/

namespace PluginForge

variable {α : Type}

def unseen (entries : List (String × α)) (seen : List String) : List (String × α) :=
  entries.filter fun entry => !seen.contains entry.1

theorem unseen_cons_le (entries : List (String × α)) (key : String) (seen : List String) :
    (unseen entries (key :: seen)).length ≤ (unseen entries seen).length := by
  rw [unseen, unseen, ← List.countP_eq_length_filter, ← List.countP_eq_length_filter]
  exact List.countP_mono_left fun entry _ => by simp

theorem unseen_cons_lt {entries : List (String × α)} {key : String} {seen : List String} {value : α}
    (found : entries.lookup key = some value) (fresh : seen.contains key = false) :
    (unseen entries (key :: seen)).length < (unseen entries seen).length := by
  induction entries with
  | nil => simp at found
  | cons head rest ih =>
    obtain ⟨other, first⟩ := head
    rw [List.lookup_cons] at found
    by_cases same : key = other
    · subst same
      have fewer := unseen_cons_le rest key seen
      have absent : key ∉ seen := by simpa using fresh
      simpa [unseen, absent] using Nat.lt_succ_of_le fewer
    · have differs : (key == other) = false := by simpa using same
      rw [differs] at found
      have fewer := ih found
      by_cases present : other ∈ seen
      · simpa [unseen, present] using fewer
      · simpa [unseen, present, Ne.symm same] using fewer

end PluginForge
