import Mathlib.Data.List.Forall2

/-! Results that may be errors. What is known of a sequence of steps that succeeded, or stopped, whatever its errors are. -/

namespace PluginForge.Proofs.Results

variable {ε α β : Type}

theorem except_bind {first : Except ε α} {next : α → Except ε β} {result : β} :
    first >>= next = .ok result ↔ ∃ value, first = .ok value ∧ next value = .ok result := by
  cases first with
  | error e =>
    constructor
    · exact fun fails => nomatch fails
    · exact fun ⟨_, same, _⟩ => nomatch same
  | ok value =>
    constructor
    · exact fun finishes => ⟨value, rfl, finishes⟩
    · rintro ⟨_, same, finishes⟩
      cases same
      exact finishes

theorem except_map {result : Except ε α} {f : α → β} {value : β} :
    result.map f = .ok value ↔ ∃ made, result = .ok made ∧ f made = value := by
  cases result with
  | error e =>
    constructor
    · exact fun fails => nomatch fails
    · exact fun ⟨_, same, _⟩ => nomatch same
  | ok made => simp [Except.map]

theorem except_bind_error {first : Except ε α} {next : α → Except ε β} {e : ε} :
    first >>= next = .error e ↔ first = .error e ∨ ∃ value, first = .ok value ∧ next value = .error e := by
  cases first with
  | error other =>
    constructor
    · intro same
      cases same
      exact .inl rfl
    · rintro (same | ⟨_, same, _⟩)
      · cases same
        rfl
      · cases same
  | ok value =>
    constructor
    · exact fun stops => .inr ⟨value, rfl, stops⟩
    · rintro (same | ⟨_, same, stops⟩)
      · cases same
      · cases same
        exact stops

theorem ok_of_isOk {result : Except ε α} (succeeds : result.isOk = true) : ∃ value, result = .ok value := by
  cases result with
  | error e => cases succeeds
  | ok value => exact ⟨value, rfl⟩

theorem forall₂_of_mapM {f : α → Except ε β} {items : List α} {results : List β}
    (made : items.mapM f = .ok results) : List.Forall₂ (fun item result => f item = .ok result) items results := by
  induction items generalizing results with
  | nil =>
    cases made
    exact .nil
  | cons item rest ih =>
    rw [List.mapM_cons] at made
    obtain ⟨first, here, made⟩ := except_bind.mp made
    obtain ⟨others, remaining, finishes⟩ := except_bind.mp made
    cases finishes
    exact .cons here (ih remaining)

theorem mem_of_mapM {f : α → Except ε β} {items : List α} {results : List β}
    (made : items.mapM f = .ok results) {result : β} (member : result ∈ results) :
    ∃ item ∈ items, f item = .ok result := by
  obtain ⟨length, each⟩ := List.forall₂_iff_get.mp (forall₂_of_mapM made)
  obtain ⟨i, inside, rfl⟩ := List.getElem_of_mem member
  have within : i < items.length := length ▸ inside
  exact ⟨items.get ⟨i, within⟩, List.get_mem .., each i within inside⟩

theorem made_of_mapM {f : α → Except ε β} {items : List α} {results : List β}
    (made : items.mapM f = .ok results) {item : α} (member : item ∈ items) : ∃ result ∈ results, f item = .ok result := by
  obtain ⟨length, each⟩ := List.forall₂_iff_get.mp (forall₂_of_mapM made)
  obtain ⟨i, inside, rfl⟩ := List.getElem_of_mem member
  have within : i < results.length := length ▸ inside
  exact ⟨results.get ⟨i, within⟩, List.get_mem .., each i inside within⟩

/-- Each item can be turned into something, so all can. -/
theorem mapM_of_forall {f : α → Except ε β} {items : List α}
    (each : ∀ item ∈ items, ∃ result, f item = .ok result) : ∃ results, items.mapM f = .ok results := by
  induction items with
  | nil => exact ⟨[], rfl⟩
  | cons item rest ih =>
    obtain ⟨first, here⟩ := each item (List.mem_cons_self ..)
    obtain ⟨others, remaining⟩ := ih fun item member => each item (List.mem_cons_of_mem _ member)
    refine ⟨first :: others, ?_⟩
    rw [List.mapM_cons, here, remaining]
    rfl

theorem mapM_stops {f : α → Except ε β} {before rest : List α} {item : α} {e : ε}
    (earlier : ∀ other ∈ before, ∃ result, f other = .ok result) (stops : f item = .error e) :
    (before ++ item :: rest).mapM f = .error e := by
  induction before with
  | nil =>
    rw [List.nil_append, List.mapM_cons, stops]
    rfl
  | cons other before ih =>
    obtain ⟨⟨result, made⟩, others⟩ := List.forall_mem_cons.mp earlier
    rw [List.cons_append, List.mapM_cons, made, ih others]
    rfl

end PluginForge.Proofs.Results
