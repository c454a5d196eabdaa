import PluginForge.Proofs.ReplicationInvariant
import PluginForge.Proofs.ReplicationRecursion

/-! The calls that one call makes. They are nested no deeper than there are loadable names without an entry, up to one
more for each collection; no two of them copy the same type; and the recursion that they make up has one solution.
Touching, which follows the dependencies of entries, ends on cycles as well. -/

namespace PluginForge.Proofs.NestedCalls
open Replication ModelTypes RegistryEntries Results ReplicationLogic ReplicationRule ReplicationFailure
open ReplicationRecursion

/-- How a call makes another one: for the element of a collection, or for the property at an index of a class that is
being copied. -/
inductive Step where
  | element
  | property (index : Nat)
  deriving DecidableEq

/-- What a call does itself, given how the types are dealt with that it makes calls for. -/
def callWith (cx : Context) (package : String) (recur : SourceType → ReplicationM ReplicaRef) (ty : SourceType) :
    ReplicationM ReplicaRef :=
  match cx.catalog.classify ty with
  | .enum => modelWith cx package recur ty .enum
  | .plain => modelWith cx package recur ty .class
  | .collection kind element =>
    if cx.catalog.isModel element then return collectionRef ty kind element (← recur element)
    else return .passthrough ty
  | _ => return .passthrough ty

/-- The calls that a call makes itself, each with the state that it starts from. A property has its turn when those
before it are done. -/
inductive Calls (cx : Context) (package : String) (ty : SourceType) (s : ReplicationState) :
    Step → SourceType → ReplicationState → Prop where
  | element {kind : CollectionKind} {element : SourceType} (held : cx.catalog.classify ty = .collection kind element)
      (copied : cx.catalog.isModel element = true) : Calls cx package ty s .element element s
  | property {d : Descriptor} {doc : TypeDoc} {before rest : List Property} {p : Property} {refs : List ReplicaRef}
      {middle : ReplicationState} (copied : modelKind? (cx.catalog.classify ty) = some .class)
      (absent : s.registry.find? ty.name = none) (loaded : cx.catalog.load? ty.name = some d)
      (documented : cx.javadoc d.name = .ok doc) (split : d.properties = before ++ p :: rest)
      (earlier : Each (fun ty => Yields (cx.replicate package ty)) (before.map (·.ty)) (drafted package ty .class s)
        refs middle) : Calls cx package ty s (.property before.length) p.ty middle

/-- The calls made within a call at any depth, by the steps that lead to them. -/
inductive Nested (cx : Context) (package : String) :
    List Step → SourceType → ReplicationState → SourceType → ReplicationState → Prop where
  | here {ty : SourceType} {s : ReplicationState} : Nested cx package [] ty s ty s
  | within {step : Step} {path : List Step} {ty inner other : SourceType} {s middle later : ReplicationState}
      (call : Calls cx package ty s step inner middle) (rest : Nested cx package path inner middle other later) :
      Nested cx package (step :: path) ty s other later

/-- The call makes a copy of its type. -/
def Copies (catalog : Catalog) (ty : SourceType) (s : ReplicationState) : Prop :=
  catalog.isModel ty = true ∧ s.registry.find? ty.name = none

section Single
variable {cx : Context} {package : String} {ty : SourceType} {s : ReplicationState}

theorem replicate_callWith (cx : Context) (package : String) (ty : SourceType) (s : ReplicationState) :
    outcome (cx.replicate package ty) s = outcome (callWith cx package (cx.replicate package) ty) s := by
  have plain (none : modelOf? cx.catalog ty = none) : outcome (cx.replicate package ty) s = (.ok (.passthrough ty), s) :=
    replicate_passthrough none
  unfold callWith
  unfold modelOf? at plain
  cases sort : cx.catalog.classify ty with
  | enum => exact replicate_model (by rw [sort]; rfl)
  | plain => exact replicate_model (by rw [sort]; rfl)
  | collection kind element =>
    cases isModel : cx.catalog.isModel element with
    | true =>
      rw [replicate_collection sort isModel]
      simp [isModel]
    | false =>
      rw [plain (by simp [sort, isModel])]
      simp [isModel, outcome_pure]
  | void | primitive | map | passthrough => exact plain (by rw [sort])

theorem class_of_modelKind? {sort : TypeClass} {kind : ObjectKind} (copied : modelKind? sort = some kind)
    (other : kind ≠ .enum) : kind = .class := by
  unfold modelKind? at copied
  split at copied
  · exact absurd (Option.some.inj copied).symm other
  · exact (Option.some.inj copied).symm
  · cases copied

/-- A call depends on the calls that it makes and on no others. -/
theorem callWith_congr {f : SourceType → ReplicationM ReplicaRef}
    (same : ∀ step inner middle, Calls cx package ty s step inner middle →
      outcome (cx.replicate package inner) middle = outcome (f inner) middle) :
    outcome (cx.replicate package ty) s = outcome (callWith cx package f ty) s := by
  have model {kind : ObjectKind} (copied : modelKind? (cx.catalog.classify ty) = some kind) :
      outcome (modelWith cx package (cx.replicate package) ty kind) s = outcome (modelWith cx package f ty kind) s := by
    refine modelWith_congr fun d doc absent loaded other documented before p rest refs middle split each => ?_
    obtain rfl := class_of_modelKind? copied other
    exact same _ _ _ (.property copied absent loaded documented split each)
  rw [replicate_callWith]
  unfold callWith
  cases sort : cx.catalog.classify ty with
  | enum => exact model (by rw [sort]; rfl)
  | plain => exact model (by rw [sort]; rfl)
  | collection kind element =>
    dsimp only
    split
    next copied => exact outcome_bind_congr (same _ _ _ (.element sort copied))
    next => rfl
  | void | primitive | map | passthrough => rfl

end Single

section Depth
variable {cx : Context} {package : String} {ty inner other : SourceType} {s middle later : ReplicationState} {step : Step}
  {path : List Step}

theorem Calls.keeps (call : Calls cx package ty s step inner middle) : Keeps s.registry middle.registry := by
  cases call with
  | element => exact .refl _
  | property _ _ _ _ _ earlier => exact drafted_keeps.trans (replicateEach_keeps earlier)

theorem Nested.keeps (nested : Nested cx package path ty s other later) : Keeps s.registry later.registry := by
  induction nested with
  | here => exact .refl _
  | within call _ ih => exact call.keeps.trans ih

/-- A call for a property has a name less to copy: that of the class. -/
theorem Calls.unregistered_lt {index : Nat} (call : Calls cx package ty s (.property index) inner middle) :
    (unregistered cx.catalog middle.registry).length < (unregistered cx.catalog s.registry).length := by
  cases call with
  | property _ absent loaded _ _ earlier =>
    exact Nat.lt_of_le_of_lt (unregistered_sublist (replicateEach_keeps earlier)).length_le
      (drafted_unregistered loaded absent)

theorem isModel_of_property {index : Nat} (call : Calls cx package ty s (.property index) inner middle) :
    cx.catalog.isModel ty = true := by
  cases call with
  | property copied => exact isModel_iff.mpr ⟨_, copied⟩

theorem not_isModel_of_element (call : Calls cx package ty s .element inner middle) :
    cx.catalog.isModel ty = false ∧ cx.catalog.isModel inner = true ∧ middle = s := by
  cases call with
  | element held copied => exact ⟨by rw [Catalog.isModel, held]; rfl, copied, rfl⟩

/-- Calls on a path copy one after the other, and only collections stand between them. -/
theorem Nested.length_le (nested : Nested cx package path ty s other later) :
    path.length ≤ (unregistered cx.catalog s.registry).length + path.count .element := by
  induction nested with
  | here => exact Nat.zero_le _
  | @within step path ty inner other s middle later call _ ih =>
    cases step with
    | element =>
      obtain ⟨_, _, rfl⟩ := not_isModel_of_element call
      rw [List.length_cons, List.count_cons_self]
      omega
    | property index =>
      have fewer := call.unregistered_lt
      rw [List.length_cons, List.count_cons_of_ne (by simp)]
      omega

/-- What bounds the calls that are still to come: those for properties by the names that are left, and between any two
of them one for an element. -/
def allowance (catalog : Catalog) (ty : SourceType) (s : ReplicationState) : Nat :=
  2 * (unregistered catalog s.registry).length + if catalog.isModel ty then 0 else 1

theorem Calls.allowance_lt (call : Calls cx package ty s step inner middle) :
    allowance cx.catalog inner middle < allowance cx.catalog ty s := by
  unfold allowance
  cases step with
  | element =>
    obtain ⟨outer, isModel, rfl⟩ := not_isModel_of_element call
    simp [outer, isModel]
  | property index =>
    have fewer := call.unregistered_lt
    rw [isModel_of_property call]
    split <;> simp <;> omega

theorem Nested.length_le_allowance (nested : Nested cx package path ty s other later) :
    path.length ≤ allowance cx.catalog ty s := by
  induction nested with
  | here => exact Nat.zero_le _
  | within call _ ih => exact Nat.lt_of_le_of_lt ih call.allowance_lt

/-- Whatever solves the recursion is copying. -/
theorem eq_of_callWith {f : SourceType → ReplicationM ReplicaRef}
    (solves : ∀ ty s, outcome (f ty) s = outcome (callWith cx package f ty) s) (ty : SourceType) (s : ReplicationState) :
    outcome (f ty) s = outcome (cx.replicate package ty) s := by
  induction left : allowance cx.catalog ty s using Nat.strongRecOn generalizing ty s with
  | ind n ih =>
    rw [solves]
    refine (callWith_congr fun step inner middle call => ?_).symm
    exact (ih _ (left ▸ call.allowance_lt) inner middle rfl).symm

end Depth

section Once
variable {cx : Context} {package : String} {ty inner other : SourceType} {s middle later after : ReplicationState}
  {step : Step} {path : List Step} {ref : ReplicaRef}

theorem Calls.property_inv {index : Nat} (call : Calls cx package ty s (.property index) inner middle) :
    ∃ d before p rest refs, modelKind? (cx.catalog.classify ty) = some .class ∧ s.registry.find? ty.name = none ∧
      cx.catalog.load? ty.name = some d ∧ d.properties = before ++ p :: rest ∧ before.length = index ∧ p.ty = inner ∧
      Each (fun ty => Yields (cx.replicate package ty)) (before.map (·.ty)) (drafted package ty .class s) refs middle := by
  cases call with
  | property copied absent loaded _ split earlier =>
    exact ⟨_, _, _, _, _, copied, absent, loaded, split, rfl, rfl, earlier⟩

theorem Calls.unique (first : Calls cx package ty s step inner middle) (second : Calls cx package ty s step other later) :
    inner = other ∧ middle = later := by
  cases step with
  | element =>
    obtain ⟨_, _, rfl⟩ := not_isModel_of_element first
    obtain ⟨_, _, rfl⟩ := not_isModel_of_element second
    cases first with
    | element held =>
      cases second with
      | element holds =>
        cases held.symm.trans holds
        exact ⟨rfl, rfl⟩
  | property index =>
    obtain ⟨d, before, p, rest, refs, _, _, loaded, split, length, rfl, earlier⟩ := first.property_inv
    obtain ⟨_, front, q, back, values, _, _, loads, cut, size, rfl, sooner⟩ := second.property_inv
    cases loaded.symm.trans loads
    obtain ⟨rfl, same⟩ := List.append_inj (split.symm.trans cut) (length.trans size.symm)
    obtain ⟨rfl, _⟩ := List.cons.inj same
    exact ⟨rfl, (each_unique earlier sooner).2⟩

/-- When a call succeeds so do those that it makes, and what they leave stays known. -/
theorem Calls.answered (call : Calls cx package ty s step inner middle)
    (yields : Yields (cx.replicate package ty) s ref after) :
    ∃ value next, Yields (cx.replicate package inner) middle value next ∧ Keeps next.registry after.registry := by
  cases call with
  | element held copied =>
    obtain ⟨value, next, answer, finishes⟩ := yields_bind.mp ((replicate_collection held copied).symm.trans yields)
    obtain ⟨_, rfl⟩ := yields_pure.mp finishes
    exact ⟨value, next, answer, .refl _⟩
  | property copied absent loaded _ split earlier =>
    obtain ⟨refs, last, each, kept⟩ := replicate_class copied absent loaded yields
    rw [split, List.map_append, List.map_cons] at each
    obtain ⟨_, middle, value, next, _, sooner, answer, rest⟩ := each.split
    obtain ⟨_, rfl⟩ := each_unique earlier sooner
    exact ⟨value, next, answer, (replicateEach_keeps rest).trans kept⟩

/-- A property has its turn after the call for any property before it has succeeded. -/
theorem Calls.apart {i j : Nat} (first : Calls cx package ty s (.property i) inner middle)
    (second : Calls cx package ty s (.property j) other later) (before : i < j) :
    ∃ value next, Yields (cx.replicate package inner) middle value next ∧ Keeps next.registry later.registry := by
  obtain ⟨d, front, p, back, refs, _, _, loaded, split, length, rfl, earlier⟩ := first.property_inv
  obtain ⟨_, sooner, q, rest, values, _, _, loads, cut, size, rfl, each⟩ := second.property_inv
  cases loaded.symm.trans loads
  rcases List.append_eq_append_iff.mp (split.symm.trans cut) with ⟨between, longer, same⟩ | ⟨between, longer, _⟩
  · cases between with
    | nil =>
      rw [longer, List.append_nil] at size
      omega
    | cons head between =>
      obtain ⟨rfl, _⟩ := List.cons.inj same
      rw [longer, List.map_append, List.map_cons] at each
      obtain ⟨_, middle, value, next, _, start, answer, rest⟩ := each.split
      obtain ⟨_, rfl⟩ := each_unique earlier start
      exact ⟨value, next, answer, replicateEach_keeps rest⟩
  · rw [longer, List.length_append] at length
    omega

/-- Whatever a successful call copies at any depth has an entry afterwards. -/
theorem Nested.registered (nested : Nested cx package path ty s inner later)
    (yields : Yields (cx.replicate package ty) s ref after) (copies : Copies cx.catalog inner later) :
    (after.registry.find? inner.name).isSome = true := by
  induction nested generalizing ref after with
  | here =>
    obtain ⟨e, found, _⟩ := replicate_held yields copies.1
    rw [found]
    rfl
  | within call _ ih =>
    obtain ⟨value, next, answer, kept⟩ := call.answered yields
    exact kept.isSome (ih answer copies)

/-- While a class is being copied no call within copies it again. -/
theorem Calls.apart_from_outer {early : ReplicationState} (call : Calls cx package ty s step inner middle)
    (nested : Nested cx package path inner middle other early) (outer : Copies cx.catalog ty s)
    (copies : Copies cx.catalog other early) : other.name ≠ ty.name := by
  intro same
  cases step with
  | element => exact absurd outer.1 (by rw [(not_isModel_of_element call).1]; exact Bool.false_ne_true)
  | property index =>
    obtain ⟨_, _, _, _, _, _, absent, _, _, _, _, earlier⟩ := call.property_inv
    obtain ⟨e, found, _⟩ := (replicateEach_keeps earlier).trans nested.keeps _ _ (drafted_found absent)
    rw [← same, copies.2] at found
    cases found

/-- Of two properties the later one finds what was copied for the earlier one. -/
theorem Calls.apart_from_sibling {i j : Nat} {a b : SourceType} {early late : ReplicationState} {one two : List Step}
    (first : Calls cx package ty s (.property i) inner middle) (second : Calls cx package ty s (.property j) other later)
    (before : i < j) (here : Nested cx package one inner middle a early) (there : Nested cx package two other later b late)
    (copies : Copies cx.catalog a early) (also : Copies cx.catalog b late) : a.name ≠ b.name := by
  intro same
  obtain ⟨value, next, answer, kept⟩ := first.apart second before
  have found := (kept.trans there.keeps).isSome (here.registered answer copies)
  rw [same, also.2] at found
  cases found

/-- Calls that copy the same type come from the same step. -/
theorem Calls.same_step {a b : SourceType} {early late : ReplicationState} {one two : List Step} {next : Step}
    (first : Calls cx package ty s step inner middle) (second : Calls cx package ty s next other later)
    (here : Nested cx package one inner middle a early) (there : Nested cx package two other later b late)
    (copies : Copies cx.catalog a early) (also : Copies cx.catalog b late) (same : a.name = b.name) : step = next := by
  have mixed {index : Nat} {x y : SourceType} {t u : ReplicationState} (element : Calls cx package ty s .element x t)
      (property : Calls cx package ty s (.property index) y u) : False := by
    have isModel := isModel_of_property property
    rw [(not_isModel_of_element element).1] at isModel
    cases isModel
  cases step with
  | element =>
    cases next with
    | element => rfl
    | property => exact (mixed first second).elim
  | property i =>
    cases next with
    | element => exact (mixed second first).elim
    | property j =>
      rcases Nat.lt_trichotomy i j with before | equal | behind
      · exact absurd same (first.apart_from_sibling second before here there copies also)
      · rw [equal]
      · exact absurd same.symm (second.apart_from_sibling first behind there here also copies)

/-- No two of the calls that one call makes copy the same type. -/
theorem Nested.once {a b : SourceType} {early late : ReplicationState} {one two : List Step}
    (here : Nested cx package one ty s a early) (there : Nested cx package two ty s b late)
    (copies : Copies cx.catalog a early) (also : Copies cx.catalog b late) (same : a.name = b.name) : one = two := by
  induction here generalizing two with
  | here =>
    cases there with
    | here => rfl
    | within call rest => exact absurd same.symm (call.apart_from_outer rest copies also)
  | within call rest ih =>
    cases there with
    | here => exact absurd same (call.apart_from_outer rest also copies)
    | within second remaining =>
      obtain rfl := call.same_step second rest remaining copies also same
      obtain ⟨rfl, rfl⟩ := call.unique second
      rw [ih remaining copies same]

/-- After a success the same call gives the same answer and copies nothing more. -/
theorem replicate_repeated (yields : Yields (cx.replicate package ty) s ref after) (touched : List String) :
    ∃ later, Yields (cx.replicate package ty) { after with touched } ref later ∧ later.registry = after.registry := by
  have model {ty : SourceType} {s : ReplicationState} {ref : ReplicaRef} (copied : cx.catalog.isModel ty = true)
      (yields : Yields (cx.replicate package ty) s ref after) :
      ∃ later, Yields (cx.replicate package ty) { after with touched } ref later ∧ later.registry = after.registry := by
    obtain ⟨e, found, rfl⟩ := replicate_held yields copied
    obtain ⟨kind, isModel⟩ := isModel_iff.mp copied
    have again := @ReplicationInvariant.replicate_again cx package ty { after with touched } kind e isModel found
    exact ⟨_, again, rfl⟩
  have other (plain : modelOf? cx.catalog ty = none) :
      ∃ later, Yields (cx.replicate package ty) { after with touched } ref later ∧ later.registry = after.registry := by
    obtain ⟨rfl, rfl⟩ := yields_unique (replicate_passthrough plain) yields
    exact ⟨_, replicate_passthrough plain, rfl⟩
  cases sort : cx.catalog.classify ty with
  | enum => exact model (by rw [Catalog.isModel, sort]; rfl) yields
  | plain => exact model (by rw [Catalog.isModel, sort]; rfl) yields
  | collection kind element =>
    cases copied : cx.catalog.isModel element with
    | false => exact other (by simp [modelOf?, sort, copied])
    | true =>
      obtain ⟨copy, middle, inside, finishes⟩ := yields_bind.mp ((replicate_collection sort copied).symm.trans yields)
      obtain ⟨rfl, rfl⟩ := yields_pure.mp finishes
      obtain ⟨later, again, same⟩ := model copied inside
      refine ⟨later, (replicate_collection sort copied).trans ?_, same⟩
      exact yields_bind.mpr ⟨copy, later, again, yields_pure.mpr ⟨rfl, rfl⟩⟩
  | void | primitive | map | passthrough => exact other (by rw [modelOf?, sort])

end Once

section Touching
variable {r : Registry} {names more touched middle after : List String}

/-- Touching names one after the other, each with all that its copy relies on before the next. -/
inductive Touching (r : Registry) : List String → List String → List String → Prop where
  | done {touched : List String} : Touching r [] touched touched
  | seen {name : String} {names touched after : List String} (known : name ∈ touched)
      (rest : Touching r names touched after) : Touching r (name :: names) touched after
  | fresh {name : String} {names touched middle after : List String} (unknown : name ∉ touched)
      (deps : Touching r (((r.find? name).map (·.deps)).getD []) (name :: touched) middle)
      (rest : Touching r names middle after) : Touching r (name :: names) touched after

theorem Touching.unique {other : List String} (first : Touching r names touched after)
    (second : Touching r names touched other) : after = other := by
  induction first generalizing other with
  | done =>
    cases second
    rfl
  | seen known _ ih =>
    cases second with
    | seen _ rest => exact ih rest
    | fresh unknown => exact absurd known unknown
  | fresh unknown _ _ first ih =>
    cases second with
    | seen known => exact absurd known unknown
    | fresh _ deps rest =>
      obtain rfl := first deps
      exact ih rest

theorem Touching.split (touching : Touching r (names ++ more) touched after) :
    ∃ middle, Touching r names touched middle ∧ Touching r more middle after := by
  induction names generalizing touched with
  | nil => exact ⟨touched, .done, touching⟩
  | cons name names ih =>
    cases touching with
    | seen known rest =>
      obtain ⟨middle, early, late⟩ := ih rest
      exact ⟨middle, .seen known early, late⟩
    | fresh unknown deps rest =>
      obtain ⟨middle, early, late⟩ := ih rest
      exact ⟨middle, .fresh unknown deps early, late⟩

theorem touching_touchAll : Touching r names touched (r.touchAll names touched) := by
  fun_induction r.touchAll names touched with
  | case1 touched => exact .done
  | case2 touched name rest seen ih => exact .seen (by simpa using seen) ih
  | case3 touched name rest fresh absent ih =>
    refine .fresh (by simpa using fresh) ?_ ih
    rw [absent]
    exact .done
  | case4 touched name rest fresh entry found fewer ih =>
    obtain ⟨middle, deps, rest⟩ := ih.split
    refine .fresh (by simpa using fresh) ?_ rest
    rw [found]
    exact deps

end Touching

/-- Copying follows its recursion, and nothing else does: a call depends only on those that it makes. Calls are nested
no deeper than there are loadable names without an entry, and one more for each collection on the way; of these there
is at most one for each name and one at the start. Whether a call succeeds or fails, no two calls within it copy the
same type. After a success the same call gives the same answer and leaves the registry as it is. Touching follows its
recursion too, on any dependencies. -/
theorem copying_ends (cx : Context) (package : String) :
    (∀ (f : SourceType → ReplicationM ReplicaRef) ty s,
      (∀ step inner middle, Calls cx package ty s step inner middle →
        outcome (cx.replicate package inner) middle = outcome (f inner) middle) →
      outcome (cx.replicate package ty) s = outcome (callWith cx package f ty) s) ∧
    (∀ f : SourceType → ReplicationM ReplicaRef,
      (∀ ty s, outcome (f ty) s = outcome (callWith cx package f ty) s) →
      ∀ ty s, outcome (f ty) s = outcome (cx.replicate package ty) s) ∧
    (∀ path ty s inner later, Nested cx package path ty s inner later →
      path.length ≤ (unregistered cx.catalog s.registry).length + path.count .element ∧
      path.length ≤ 2 * (unregistered cx.catalog s.registry).length + 1) ∧
    (∀ one two ty s a b early late, Nested cx package one ty s a early → Nested cx package two ty s b late →
      Copies cx.catalog a early → Copies cx.catalog b late → a.name = b.name → one = two) ∧
    (∀ ty s ref after touched, Yields (cx.replicate package ty) s ref after →
      ∃ later, Yields (cx.replicate package ty) { after with touched } ref later ∧ later.registry = after.registry) ∧
    ∀ (r : Registry) names touched after, Touching r names touched after ↔ r.touchAll names touched = after := by
  refine ⟨fun f ty s => callWith_congr, fun f => eq_of_callWith, ?_, ?_, ?_, ?_⟩
  · intro path ty s inner later nested
    refine ⟨nested.length_le, Nat.le_trans nested.length_le_allowance ?_⟩
    unfold allowance
    split <;> omega
  · exact fun one two ty s a b early late here there => here.once there
  · exact fun ty s ref after touched yields => replicate_repeated yields touched
  · exact fun r names touched after => ⟨touching_touchAll.unique, fun same => same ▸ touching_touchAll⟩

/-- A class with a list of a class that refers back to it. -/
def parent : Descriptor where
  name := "com.acme.Parent"
  properties := [{ name := "children", ty := .named "java.util.List" [.named "com.acme.Child" [] 0] 0 }]

def child : Descriptor where
  name := "com.acme.Child"
  properties := [{ name := "parent", ty := .named "com.acme.Parent" [] 0 }]

def family : Context where
  catalog := (Catalog.empty.add parent).add child
  storedDoc _ := .ok {}

theorem family_nested : ∃ later,
    Nested family "gen.model" [.property 0, .element, .property 0] parent.sourceType {} parent.sourceType later := by
  have list : family.catalog.classify (.named "java.util.List" [child.sourceType] 0) = .collection .list child.sourceType := by
    rfl
  have children : Calls family "gen.model" parent.sourceType {} (.property 0) (.named "java.util.List" [child.sourceType] 0)
      (drafted "gen.model" parent.sourceType .class {}) :=
    @Calls.property _ _ _ _ parent {} [] [] _ _ _ (by decide +kernel) rfl (by rfl) (by rfl) rfl .nil
  have element := @Calls.element family "gen.model" _ (drafted "gen.model" parent.sourceType .class {}) _ _ list
    (by decide +kernel)
  have back := @Calls.property family "gen.model" child.sourceType (drafted "gen.model" parent.sourceType .class {}) child {}
    [] [] _ _ _ (by decide +kernel) (by rfl) (by rfl) (by rfl) rfl .nil
  exact ⟨_, .within children (.within element (.within back .here))⟩

theorem family_ends :
    (∃ later, Nested family "gen.model" [.property 0, .element, .property 0] parent.sourceType {} parent.sourceType later ∧
      3 ≤ (unregistered family.catalog {}).length + 1) ∧
    (∀ path later, Nested family "gen.model" path parent.sourceType {} parent.sourceType later →
      Copies family.catalog parent.sourceType later → path = []) ∧
    ∃ ref after later, Yields (family.replicate "gen.model" parent.sourceType) {} ref after ∧
      Yields (family.replicate "gen.model" parent.sourceType) { after with touched := [] } ref later ∧
      later.registry = after.registry := by
  obtain ⟨-, -, depth, once, again, -⟩ := copying_ends family "gen.model"
  refine ⟨?_, fun path later nested copies => ?_, ?_⟩
  · obtain ⟨later, nested⟩ := family_nested
    exact ⟨later, nested, (depth _ _ _ _ _ nested).1⟩
  · exact once path [] _ _ _ _ _ _ nested .here copies ⟨by decide +kernel, rfl⟩ rfl
  · obtain ⟨ref, made⟩ := @ok_of_isOk _ _ (outcome (family.replicate "gen.model" parent.sourceType) {}).1 (by decide +kernel)
    obtain ⟨later, repeated, same⟩ := again _ _ _ _ [] (Prod.ext made rfl)
    exact ⟨ref, _, later, Prod.ext made rfl, repeated, same⟩

end PluginForge.Proofs.NestedCalls
