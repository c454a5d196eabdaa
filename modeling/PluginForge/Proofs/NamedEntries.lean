import Mathlib.Data.List.Basic

/-! Entries under names, and what a search for a name finds among them. Where the names are distinct each
entry is the one found under its own. -/

namespace PluginForge.Proofs.NamedEntries

variable {α β : Type} {name : String}

section Lookup
variable {entries : List (String × α)} {value : α}

theorem mem_of_lookup (found : entries.lookup name = some value) : (name, value) ∈ entries := by
  obtain ⟨before, after, split, _⟩ := List.lookup_eq_some_iff.mp found
  simp [split]

theorem lookup_of_mem (member : name ∈ entries.map (·.1)) : ∃ value, entries.lookup name = some value := by
  obtain ⟨entry, inside, isName⟩ := List.mem_map.mp member
  exact Option.isSome_iff_exists.mp (List.lookup_isSome_iff.mpr ⟨entry, inside, by simp [isName]⟩)

theorem lookup_of_notMem (absent : name ∉ entries.map (·.1)) : entries.lookup name = none := by
  refine List.lookup_eq_none_iff.mpr fun entry member => ?_
  have different : name ≠ entry.1 := by
    rintro rfl
    exact absent (List.mem_map_of_mem member)
  simpa using different

theorem lookup_of_nodup (distinct : (entries.map (·.1)).Nodup) (member : (name, value) ∈ entries) :
    entries.lookup name = some value := by
  obtain ⟨before, after, rfl⟩ := List.append_of_mem member
  refine List.lookup_eq_some_iff.mpr ⟨before, after, rfl, fun other inside => ?_⟩
  rw [List.map_append, List.nodup_append] at distinct
  simpa using (distinct.2.2 other.1 (List.mem_map_of_mem inside) name (by simp)).symm

theorem lookup_skip {other : String} (different : other ≠ name) :
    List.lookup other ((name, value) :: entries) = entries.lookup other := by
  rw [List.lookup_cons, beq_eq_false_iff_ne.mpr different]

theorem lookup_append_of_notMem {first : List (String × α)} (absent : name ∉ first.map (·.1)) :
    (first ++ entries).lookup name = entries.lookup name := by
  rw [List.lookup_append, lookup_of_notMem absent, Option.none_or]

theorem lookup_map (f : α → β) :
    (entries.map fun entry => (entry.1, f entry.2)).lookup name = (entries.lookup name).map f := by
  induction entries with
  | nil => rfl
  | cons entry rest ih =>
    rw [List.map_cons, List.lookup_cons, List.lookup_cons, ih]
    split <;> rfl

theorem lookup_zip (items : List β) (key : β → String) (values : String → α) (member : name ∈ items.map key) :
    ((items.map key).zip (items.map fun item => values (key item))).lookup name = some (values name) := by
  have graph : (items.map key).zip (items.map fun item => values (key item)) =
      (items.map key).map fun name => (name, values name) := by
    rw [List.zip_map', List.map_map]
    rfl
  rw [graph]
  exact List.lookup_graph values member

end Lookup

section Find
variable {items : List α} {item : α}

theorem find?_of_only {holds : α → Bool} (member : item ∈ items) (has : holds item = true)
    (only : ∀ other ∈ items, holds other = true → other = item) : items.find? holds = some item := by
  obtain ⟨other, found⟩ := Option.isSome_iff_exists.mp (List.find?_isSome.mpr ⟨item, member, has⟩)
  rw [found, only other (List.mem_of_find?_eq_some found) (List.find?_some found)]

theorem find?_of_nodup {key : α → Option String} (distinct : (items.filterMap key).Nodup) (member : item ∈ items)
    (has : key item = some name) : items.find? (fun other => key other == some name) = some item := by
  induction items with
  | nil => cases member
  | cons first rest ih =>
    by_cases hit : key first = some name
    · rw [List.find?_cons_of_pos (by simp [hit])]
      rw [List.filterMap_cons_some hit, List.nodup_cons] at distinct
      rcases List.mem_cons.mp member with rfl | member
      · rfl
      · exact absurd (List.mem_filterMap.mpr ⟨item, member, has⟩) distinct.1
    · rw [List.find?_cons_of_neg (by simp [hit])]
      rcases List.mem_cons.mp member with rfl | member
      · exact absurd has hit
      · exact ih (distinct.sublist ((List.sublist_cons_self first rest).filterMap key)) member

theorem find?_of_nodup_map {key : α → String} (distinct : (items.map key).Nodup) (member : item ∈ items) :
    items.find? (fun other => key other == key item) = some item := by
  rw [← List.filterMap_eq_map'] at distinct
  exact @find?_of_nodup α (key item) items item (fun other => some (key other)) distinct member rfl

end Find

end PluginForge.Proofs.NamedEntries
