import PluginForge.Proofs.RegistryEntries
import PluginForge.Proofs.ReplicationRule

/-! States of replication: what is kept while copies are begun, touched and completed, whatever else is known of
the entries. -/

namespace PluginForge.Proofs.ReplicationStates
open Replication RegistryEntries ReplicationRule ModelTypes

/-- Each type has one entry, whose dependencies have entries too, and what is touched is closed under them. -/
structure Tidy (fact : String → Registry.Entry → Prop) (s : ReplicationState) : Prop where
  unique : OneEach s.registry
  facts : ∀ name e, s.registry.find? name = some e → fact name e
  linked : ∀ name e, s.registry.find? name = some e → ∀ dep ∈ e.deps, (s.registry.find? dep).isSome = true
  present : ∀ name ∈ s.touched, (s.registry.find? name).isSome = true
  closed : Closed s.registry s.touched

variable {fact : String → Registry.Entry → Prop} {s : ReplicationState} {name : String}

theorem Tidy.empty : Tidy fact {} := by
  refine ⟨List.nodup_nil, ?_, ?_, ?_, ?_⟩
  · exact fun name e found => nomatch found
  · exact fun name e found => nomatch found
  · exact fun name member => nomatch member
  · exact fun name member => nomatch member

/-- A new task starts with nothing touched. -/
theorem Tidy.untouched (tidy : Tidy fact s) : Tidy fact { s with touched := [] } := by
  refine ⟨tidy.unique, tidy.facts, tidy.linked, ?_, ?_⟩
  · exact fun name member => nomatch member
  · exact fun name member => nomatch member

theorem Tidy.touch (tidy : Tidy fact s) (has : (s.registry.find? name).isSome = true) : Tidy fact (s.touch name) where
  unique := tidy.unique
  facts := tidy.facts
  linked := tidy.linked
  present := by
    apply touchAll_forall tidy.present
    · simpa using has
    · exact fun other e found _ => tidy.linked other e found
  closed := touchAll_closed tidy.closed

theorem Tidy.reserve (tidy : Tidy fact s) {entry : Registry.Entry} (absent : s.registry.find? name = none)
    (bare : entry.deps = []) (holds : fact name entry) :
    Tidy fact { s with registry := s.registry.reserve name entry } where
  unique := reserve_unique tidy.unique absent
  facts other e found := by
    rcases find?_reserve_cases found with known | ⟨rfl, rfl⟩
    · exact tidy.facts other e known
    · exact holds
  linked other e found dep inside := by
    rcases find?_reserve_cases found with known | ⟨rfl, rfl⟩
    · simp [find?_reserve, tidy.linked other e known dep inside]
    · rw [bare] at inside
      cases inside
  present other member := by simp [find?_reserve, tidy.present other member]
  closed other member e found dep inside := by
    have present := tidy.present other member
    rw [find?_reserve, Option.or_of_isSome present] at found
    exact tidy.closed other member e found dep inside

theorem Tidy.complete (tidy : Tidy fact s) {replica : Replica} {deps : List String}
    (holds : ∀ e, s.registry.find? name = some e → fact name { e with replica := some replica, deps })
    (touched : ∀ dep ∈ deps, dep ∈ s.touched) :
    Tidy fact { s with registry := s.registry.complete name replica deps } := by
  have still (other : String) : ((s.registry.complete name replica deps).find? other).isSome =
      (s.registry.find? other).isSome := by simp [find?_complete]
  constructor
  case unique =>
    rw [OneEach, complete_keys]
    exact tidy.unique
  case facts =>
    intro other e found
    rcases find?_complete_cases found with ⟨known, _⟩ | ⟨old, known, rfl, rfl⟩
    · exact tidy.facts other e known
    · exact holds old known
  case linked =>
    intro other e found dep inside
    rw [still]
    rcases find?_complete_cases found with ⟨known, _⟩ | ⟨old, known, _, rfl⟩
    · exact tidy.linked other e known dep inside
    · exact tidy.present dep (touched dep inside)
  case present =>
    intro other member
    rw [still]
    exact tidy.present other member
  case closed =>
    intro other member e found dep inside
    rcases find?_complete_cases found with ⟨known, _⟩ | ⟨old, known, _, rfl⟩
    · exact tidy.closed other member e known dep inside
    · exact touched dep inside

/-- A step adds finished entries behind the others, all of them touched, and touches only names within its reach. -/
structure Extends (reach : String → Prop) (s after : ReplicationState) : Prop where
  entries : ∃ new, after.registry.entries = s.registry.entries ++ new ∧
    ∀ entry ∈ new, entry.2.replica.isSome = true ∧ entry.1 ∈ after.touched
  keeps : s.touched ⊆ after.touched
  adds : ∀ name ∈ after.touched, name ∈ s.touched ∨ reach name

theorem Extends.refl (reach : String → Prop) (s : ReplicationState) : Extends reach s s :=
  ⟨⟨[], by simp, by simp⟩, fun _ member => member, fun _ member => .inl member⟩

variable {reach wider : String → Prop} {middle after : ReplicationState}

theorem Extends.trans (first : Extends reach s middle) (rest : Extends reach middle after) : Extends reach s after := by
  obtain ⟨early, before, done⟩ := first.entries
  obtain ⟨late, later, finished⟩ := rest.entries
  refine ⟨⟨early ++ late, by rw [later, before, List.append_assoc], ?_⟩, ?_, ?_⟩
  · exact List.forall_mem_append.mpr ⟨fun entry member => (done entry member).imp_right (rest.keeps ·), finished⟩
  · exact fun _ member => rest.keeps (first.keeps member)
  · intro name member
    rcases rest.adds name member with known | reached
    · exact first.adds name known
    · exact .inr reached

theorem Extends.mono (step : Extends reach s after) (implies : ∀ name, reach name → wider name) :
    Extends wider s after :=
  ⟨step.entries, step.keeps, fun name member => (step.adds name member).imp_right (implies name)⟩

theorem Extends.find? (step : Extends reach s after) {e : Registry.Entry} (found : s.registry.find? name = some e) :
    after.registry.find? name = some e := by
  obtain ⟨new, later, _⟩ := step.entries
  have found : List.lookup name s.registry.entries = some e := found
  rw [Registry.find?, later, List.lookup_append, found, Option.some_or]

/-- Steps that each go as far as their own type lead as far as the types together. -/
theorem each_extends {α : Type} {catalog : Catalog} {types : List SourceType} {values : List α}
    (each : Each (fun ty s _ after => Extends (Reaches catalog ty) s after) types s values after) :
    Extends (ReachesAny catalog types) s after := by
  induction each with
  | nil => exact .refl _ _
  | cons first rest ih =>
    refine (first.mono fun name reached => ?_).trans (ih.mono fun name reached => ?_)
    · exact ⟨_, List.mem_cons_self .., reached⟩
    · obtain ⟨ty, member, reached⟩ := reached
      exact ⟨ty, List.mem_cons_of_mem _ member, reached⟩

/-- Touching goes no further than what the dependencies of entries lead to. -/
theorem Tidy.touch_extends (tidy : Tidy fact s) (here : reach name)
    (passes : ∀ name e, fact name e → reach name → ∀ dep ∈ e.deps, reach dep) : Extends reach s (s.touch name) where
  entries := ⟨[], by simp [ReplicationState.touch], by simp⟩
  keeps := touched_subset_touchAll
  adds := by
    apply touchAll_forall
    · exact fun name member => .inl member
    · simpa using .inr here
    · intro name e found reached dep inside
      rcases reached with known | reached
      · exact .inl (tidy.closed name known e found dep inside)
      · exact .inr (passes name e (tidy.facts name e found) reached dep inside)

theorem mem_touch : name ∈ (s.touch name).touched := pending_subset_touchAll (List.mem_singleton_self _)

/-- Touched names include all that a type reaches as soon as they include the one it leads to, where finished
copies have all their dependencies. -/
theorem Tidy.mem_of_reaches {catalog : Catalog} {ty : SourceType} (tidy : Tidy fact s)
    (whole : ∀ name e, s.registry.find? name = some e → ∀ dep, Leads catalog name dep → dep ∈ e.deps)
    (start : ∀ name, modelOf? catalog ty = some name → name ∈ s.touched) (reached : Reaches catalog ty name) :
    name ∈ s.touched := by
  induction reached with
  | here leads => exact start _ leads
  | property _ loaded notEnum member leads ih =>
    obtain ⟨e, found⟩ := Option.isSome_iff_exists.mp (tidy.present _ ih)
    exact tidy.closed _ ih e found _ (whole _ e found _ ⟨_, loaded, notEnum, _, member, leads⟩)

section Drafts
variable {package : String} {ty : SourceType} {kind : ObjectKind}

theorem Tidy.drafted (tidy : Tidy fact s) (absent : s.registry.find? ty.name = none)
    (holds : fact ty.name (draft package ty kind)) : Tidy fact (drafted package ty kind s) :=
  (tidy.reserve absent rfl holds).touch (by simp [find?_reserve])

/-- While a copy is made its entry keeps its place, so completing it leaves the entries before it as they were. -/
theorem Extends.completed {last : ReplicationState} {replica : Replica} {deps : List String}
    (tidy : Tidy fact s) (absent : s.registry.find? ty.name = none) (holds : fact ty.name (draft package ty kind))
    (here : reach ty.name) (passes : ∀ name e, fact name e → reach name → ∀ dep ∈ e.deps, reach dep)
    (unique : OneEach last.registry) (step : Extends reach (drafted package ty kind s) last) :
    Extends reach s (completed ty replica deps last) := by
  have reserved := tidy.reserve absent rfl holds
  have whole := (reserved.touch_extends here passes).trans step
  obtain ⟨new, later, finished⟩ := whole.entries
  have split : last.registry = ⟨s.registry.entries ++ (ty.name, draft package ty kind) :: new⟩ :=
    congrArg Registry.mk (later.trans (List.append_assoc ..))
  refine ⟨⟨(ty.name, { draft package ty kind with replica := some replica, deps }) :: new, ?_, ?_⟩,
    whole.keeps, whole.adds⟩
  · simp only [ReplicationRule.completed, split]
    exact complete_split (split ▸ unique) replica deps
  · exact List.forall_mem_cons.mpr ⟨⟨rfl, step.keeps mem_touch⟩, finished⟩

end Drafts

end PluginForge.Proofs.ReplicationStates
