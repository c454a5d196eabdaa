import PluginForge.Generation.Registry
import PluginForge.Proofs.NamedEntries

/-! Entries of a registry under its operations, and the names that touching reaches: everything that is
pending, closed under what the copies rely on, and nothing else. -/

namespace PluginForge.Proofs.RegistryEntries
open Registry NamedEntries

/-- Each type is copied under one entry. -/
def OneEach (r : Registry) : Prop := (r.entries.map (·.1)).Nodup

theorem find?_reserve {r : Registry} {name other : String} {entry : Entry} :
    (r.reserve name entry).find? other =
      (r.find? other).or (if other = name then some entry else none) := by
  simp only [find?, reserve, List.lookup_append]
  by_cases same : other = name
  · simp [same]
  · have different : (other == name) = false := beq_eq_false_iff_ne.mpr same
    simp [List.lookup_cons, same, different]

theorem mem_of_find? {r : Registry} {name : String} {entry : Entry} (found : r.find? name = some entry) :
    (name, entry) ∈ r.entries := mem_of_lookup found

theorem find?_of_mem {r : Registry} (unique : OneEach r) {name : String} {entry : Entry}
    (member : (name, entry) ∈ r.entries) : r.find? name = some entry := lookup_of_nodup unique member

theorem notMem_of_find?_eq_none {r : Registry} {name : String} (absent : r.find? name = none) :
    name ∉ r.entries.map (·.1) := by
  intro member
  obtain ⟨entry, inside, rfl⟩ := List.mem_map.mp member
  simpa using List.lookup_eq_none_iff.mp absent entry inside

theorem reserve_unique {r : Registry} (unique : OneEach r) {name : String} {entry : Entry}
    (absent : r.find? name = none) : OneEach (r.reserve name entry) := by
  rw [OneEach, reserve, List.map_append, List.nodup_append]
  refine ⟨unique, by simp, ?_⟩
  rintro other member last inside rfl
  have isName : other = name := List.mem_singleton.mp inside
  subst isName
  exact notMem_of_find?_eq_none absent member

theorem find?_reserve_cases {r : Registry} {name other : String} {entry e : Entry}
    (found : (r.reserve name entry).find? other = some e) :
    r.find? other = some e ∨ other = name ∧ e = entry := by
  rw [find?_reserve] at found
  cases known : r.find? other with
  | some old => exact .inl (by simpa [known] using found)
  | none =>
    simp only [known, Option.none_or, Option.ite_none_right_eq_some, Option.some.injEq] at found
    exact .inr ⟨found.1, found.2.symm⟩

theorem mem_replicasOf {r : Registry} (unique : OneEach r) {names : List String} {replica : Replica} :
    replica ∈ r.replicasOf names ↔ ∃ name e, r.find? name = some e ∧ name ∈ names ∧ e.replica = some replica := by
  rw [replicasOf, List.mem_filterMap]
  constructor
  · rintro ⟨⟨name, e⟩, member, finished⟩
    obtain ⟨member, named⟩ := List.mem_filter.mp member
    exact ⟨name, e, find?_of_mem unique member, by simpa using named, finished⟩
  · rintro ⟨name, e, found, named, finished⟩
    exact ⟨(name, e), List.mem_filter.mpr ⟨mem_of_find? found, by simpa using named⟩, finished⟩

theorem complete_keys (r : Registry) (name : String) (replica : Replica) (deps : List String) :
    (r.complete name replica deps).entries.map (·.1) = r.entries.map (·.1) := by
  rw [complete, List.map_map]
  refine List.map_congr_left fun entry _ => ?_
  simp only [Function.comp_apply]
  split <;> rfl

theorem find?_complete (r : Registry) (name other : String) (replica : Replica) (deps : List String) :
    (r.complete name replica deps).find? other =
      (r.find? other).map fun e => if other = name then { e with replica := some replica, deps } else e := by
  unfold find? complete
  induction r.entries with
  | nil => rfl
  | cons entry rest ih =>
    rw [List.map_cons, List.lookup_cons, List.lookup_cons, ih]
    by_cases first : other = entry.1
    · subst first
      by_cases same : entry.1 = name <;> simp [same]
    · have different : (other == entry.1) = false := beq_eq_false_iff_ne.mpr first
      have kept : (if entry.1 = name then (entry.1, { entry.2 with replica := some replica, deps })
          else entry).1 = entry.1 := by split <;> rfl
      rw [kept, different]

theorem find?_complete_cases {r : Registry} {name other : String} {replica : Replica} {deps : List String} {e : Entry}
    (found : (r.complete name replica deps).find? other = some e) :
    r.find? other = some e ∧ other ≠ name ∨
      ∃ old, r.find? other = some old ∧ other = name ∧ e = { old with replica := some replica, deps } := by
  rw [find?_complete] at found
  obtain ⟨old, present, rfl⟩ := Option.map_eq_some_iff.mp found
  split
  next same => exact .inr ⟨old, present, same, rfl⟩
  next different => exact .inl ⟨present, different⟩

theorem complete_split {before after : List (String × Entry)} {name : String} {entry : Entry}
    (unique : OneEach ⟨before ++ (name, entry) :: after⟩) (replica : Replica) (deps : List String) :
    (complete ⟨before ++ (name, entry) :: after⟩ name replica deps).entries =
      before ++ (name, { entry with replica := some replica, deps }) :: after := by
  rw [OneEach, List.map_append, List.map_cons, List.nodup_append, List.nodup_cons] at unique
  obtain ⟨_, ⟨notAfter, _⟩, apart⟩ := unique
  have untouched {part : List (String × Entry)} (absent : name ∉ part.map (·.1)) :
      (part.map fun e => if e.1 = name then (e.1, { e.2 with replica := some replica, deps }) else e) = part := by
    refine (List.map_congr_left fun e member => ?_).trans (List.map_id part)
    have different : e.1 ≠ name := by
      rintro rfl
      exact absent (List.mem_map_of_mem member)
    exact if_neg different
  have notBefore : name ∉ before.map (·.1) := fun inside => apart name inside name (List.mem_cons_self ..) rfl
  rw [complete, List.map_append, List.map_cons, untouched notBefore, untouched notAfter]
  simp

variable {r : Registry} {pending touched : List String}

theorem touched_subset_touchAll : touched ⊆ r.touchAll pending touched := by
  fun_induction r.touchAll pending touched with
  | case1 touched => exact fun _ member => member
  | case2 touched name rest seen ih => exact ih
  | case3 touched name rest fresh absent ih => exact fun other member => ih (List.mem_cons_of_mem _ member)
  | case4 touched name rest fresh entry found fewer ih => exact fun other member => ih (List.mem_cons_of_mem _ member)

theorem pending_subset_touchAll : pending ⊆ r.touchAll pending touched := by
  fun_induction r.touchAll pending touched with
  | case1 touched => simp
  | case2 touched name rest seen ih =>
    refine List.cons_subset.mpr ⟨touched_subset_touchAll ?_, ih⟩
    simpa using seen
  | case3 touched name rest fresh absent ih =>
    exact List.cons_subset.mpr ⟨touched_subset_touchAll (List.mem_cons_self ..), ih⟩
  | case4 touched name rest fresh entry found fewer ih =>
    refine List.cons_subset.mpr ⟨touched_subset_touchAll (List.mem_cons_self ..), ?_⟩
    exact fun other member => ih (List.mem_append_right _ member)

/-- The names include what the copies under them rely on. -/
def Closed (r : Registry) (names : List String) : Prop :=
  ∀ name ∈ names, ∀ entry, r.find? name = some entry → ∀ dep ∈ entry.deps, dep ∈ names

/-- The invariant of touching: what a touched copy relies on is touched already or still pending. -/
private theorem touchAll_closes
    (covered : ∀ name ∈ touched, ∀ entry, r.find? name = some entry →
      ∀ dep ∈ entry.deps, dep ∈ touched ∨ dep ∈ pending) : Closed r (r.touchAll pending touched) := by
  fun_induction r.touchAll pending touched with
  | case1 touched =>
    intro name member entry found dep inside
    simpa using covered name member entry found dep inside
  | case2 touched name rest seen ih =>
    apply ih
    intro other member entry found dep inside
    rcases covered other member entry found dep inside with known | waiting
    · exact .inl known
    · rcases List.mem_cons.mp waiting with rfl | waiting
      · exact .inl (by simpa using seen)
      · exact .inr waiting
  | case3 touched name rest fresh absent ih =>
    apply ih
    intro other member entry found dep inside
    rcases List.mem_cons.mp member with rfl | member
    · rw [absent] at found
      cases found
    · rcases covered other member entry found dep inside with known | waiting
      · exact .inl (List.mem_cons_of_mem _ known)
      · rcases List.mem_cons.mp waiting with rfl | waiting
        · exact .inl (List.mem_cons_self ..)
        · exact .inr waiting
  | case4 touched name rest fresh entry found fewer ih =>
    apply ih
    intro other member current present dep inside
    rcases List.mem_cons.mp member with rfl | member
    · rw [found] at present
      cases present
      exact .inr (List.mem_append_left _ inside)
    · rcases covered other member current present dep inside with known | waiting
      · exact .inl (List.mem_cons_of_mem _ known)
      · rcases List.mem_cons.mp waiting with rfl | waiting
        · exact .inl (List.mem_cons_self ..)
        · exact .inr (List.mem_append_right _ waiting)

theorem touchAll_closed (closed : Closed r touched) : Closed r (r.touchAll pending touched) :=
  touchAll_closes fun name member entry found dep inside => .inl (closed name member entry found dep inside)

/-- What holds of the touched and the pending names, and passes on to what a copy relies on, holds of all
names that touching reaches. -/
theorem touchAll_forall {property : String → Prop} (known : ∀ name ∈ touched, property name)
    (waiting : ∀ name ∈ pending, property name)
    (passes : ∀ name entry, r.find? name = some entry → property name → ∀ dep ∈ entry.deps, property dep) :
    ∀ name ∈ r.touchAll pending touched, property name := by
  fun_induction r.touchAll pending touched with
  | case1 touched => exact known
  | case2 touched name rest seen ih => exact ih known (List.forall_mem_cons.mp waiting).2
  | case3 touched name rest fresh absent ih =>
    obtain ⟨first, waiting⟩ := List.forall_mem_cons.mp waiting
    exact ih (List.forall_mem_cons.mpr ⟨first, known⟩) waiting
  | case4 touched name rest fresh entry found fewer ih =>
    obtain ⟨first, waiting⟩ := List.forall_mem_cons.mp waiting
    refine ih (List.forall_mem_cons.mpr ⟨first, known⟩) (List.forall_mem_append.mpr ⟨?_, waiting⟩)
    exact passes name entry found first

end PluginForge.Proofs.RegistryEntries
