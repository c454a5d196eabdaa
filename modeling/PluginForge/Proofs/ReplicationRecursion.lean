import PluginForge.Proofs.RegistryEntries
import PluginForge.Proofs.ReplicationFailure

/-! Copying without a bound on its depth. Each copy that is begun takes one of the loadable names that the registry has
no entry for, so as much depth as there are such names is as good as any more, and copying follows its own recursion. -/

namespace PluginForge.Proofs.ReplicationRecursion
open Replication ModelTypes RegistryEntries ReplicationLogic ReplicationRule ReplicationFailure

section Registries
variable {catalog : Catalog} {before middle after : Registry} {name : String}

/-- The names of loadable types that a registry has no entry for. -/
def unregistered (catalog : Catalog) (r : Registry) : List String :=
  catalog.classes.keys.filter fun name => (r.find? name).isNone

theorem mem_unregistered : name ∈ unregistered catalog before ↔
    (∃ d, catalog.load? name = some d) ∧ before.find? name = none := by
  rw [unregistered, List.mem_filter, Option.isNone_iff_eq_none]
  refine and_congr_left fun _ => ⟨NamedEntries.lookup_of_mem, ?_⟩
  rintro ⟨d, loaded⟩
  exact List.mem_map_of_mem (NamedEntries.mem_of_lookup loaded)

theorem unregistered_le_size : (unregistered catalog before).length ≤ catalog.size :=
  Nat.le_trans (List.length_filter_le ..) (Nat.le_of_eq (List.length_map _))

/-- What is known in one registry stays known in another, and generated code refers to it as before. -/
def Keeps (before after : Registry) : Prop :=
  ∀ name e, before.find? name = some e → ∃ later, after.find? name = some later ∧ later.reference = e.reference

theorem Keeps.refl (r : Registry) : Keeps r r := fun _ e found => ⟨e, found, rfl⟩

theorem Keeps.trans (first : Keeps before middle) (rest : Keeps middle after) : Keeps before after := by
  intro name e found
  obtain ⟨next, known, same⟩ := first name e found
  obtain ⟨last, present, equal⟩ := rest name next known
  exact ⟨last, present, equal.trans same⟩

theorem Keeps.isSome (keeps : Keeps before after) (present : (before.find? name).isSome = true) :
    (after.find? name).isSome = true := by
  obtain ⟨e, found⟩ := Option.isSome_iff_exists.mp present
  obtain ⟨later, known, _⟩ := keeps name e found
  rw [known]
  rfl

theorem unregistered_sublist (keeps : Keeps before after) :
    (unregistered catalog after).Sublist (unregistered catalog before) := by
  refine List.monotone_filter_right _ fun name absent => ?_
  rw [Option.isNone_iff_eq_none] at absent ⊢
  by_contra present
  have known := keeps.isSome (Option.isSome_iff_ne_none.mpr present)
  rw [absent] at known
  cases known

/-- A name that gets an entry is taken off the unregistered ones. -/
theorem unregistered_lt (keeps : Keeps before after) {d : Descriptor} (loaded : catalog.load? name = some d)
    (absent : before.find? name = none) (present : (after.find? name).isSome = true) :
    (unregistered catalog after).length < (unregistered catalog before).length := by
  have sublist : (unregistered catalog after).Sublist (unregistered catalog before) := unregistered_sublist keeps
  refine Nat.lt_of_le_of_ne sublist.length_le fun same => ?_
  have member : name ∈ unregistered catalog before := mem_unregistered.mpr ⟨⟨d, loaded⟩, absent⟩
  rw [← sublist.eq_of_length same] at member
  rw [(mem_unregistered.mp member).2] at present
  cases present

end Registries

section States
variable {cx : Context} {package : String} {ty : SourceType} {kind : ObjectKind} {s : ReplicationState}

theorem drafted_keeps : Keeps s.registry (drafted package ty kind s).registry := by
  intro name e found
  refine ⟨e, ?_, rfl⟩
  change (s.registry.reserve ty.name (draft package ty kind)).find? name = some e
  rw [find?_reserve, found, Option.some_or]

theorem drafted_found (absent : s.registry.find? ty.name = none) :
    (drafted package ty kind s).registry.find? ty.name = some (draft package ty kind) := by
  change (s.registry.reserve ty.name (draft package ty kind)).find? ty.name = some (draft package ty kind)
  rw [find?_reserve, absent, Option.none_or, if_pos rfl]

theorem completed_keeps {replica : Replica} {deps : List String} :
    Keeps s.registry (completed ty replica deps s).registry := by
  intro name e found
  refine ⟨_, (find?_complete ..).trans (congrArg _ found), ?_⟩
  dsimp only
  split <;> rfl

theorem each_keeps {types : List SourceType} {refs : List ReplicaRef} {after : ReplicationState}
    (each : Each (fun _ s _ after => Keeps s.registry after.registry) types s refs after) :
    Keeps s.registry after.registry := each.closed (fun _ => .refl _) Keeps.trans

/-- What a successful call leaves: the entries that were there and, for a model type, the one that it answers with. -/
structure Leaves (cx : Context) (ty : SourceType) (s : ReplicationState) (ref : ReplicaRef) (after : ReplicationState) :
    Prop where
  keeps : Keeps s.registry after.registry
  held : cx.catalog.isModel ty = true → ∃ e, after.registry.find? ty.name = some e ∧ e.reference = ref

theorem leaves_sustained (cx : Context) (package : String) : Sustained cx package (Leaves cx) where
  passthrough {ty s} plain := by
    refine ⟨.refl _, fun copied => ?_⟩
    obtain ⟨kind, isModel⟩ := isModel_iff.mp copied
    rw [modelOf?_model isModel] at plain
    cases plain
  collection held _ run := by
    refine ⟨run.keeps, fun isModel => ?_⟩
    rw [Catalog.isModel, held] at isModel
    cases isModel
  again _ _ found := ⟨.refl _, fun _ => ⟨_, found, rfl⟩⟩
  enum _ _ _ absent _ := ⟨drafted_keeps.trans completed_keeps, fun _ => completed_keeps _ _ (drafted_found absent)⟩
  plain _ _ _ absent _ inner _ := by
    have inner := each_keeps (inner.imp fun _ _ _ _ => Leaves.keeps)
    exact ⟨(drafted_keeps.trans inner).trans completed_keeps,
      fun _ => inner.trans completed_keeps _ _ (drafted_found absent)⟩

theorem drafted_unregistered {d : Descriptor} (loaded : cx.catalog.load? ty.name = some d)
    (absent : s.registry.find? ty.name = none) :
    (unregistered cx.catalog (drafted package ty kind s).registry).length <
      (unregistered cx.catalog s.registry).length :=
  unregistered_lt drafted_keeps loaded absent (by rw [drafted_found absent]; rfl)

end States

section Recursion
variable {α β : Type} {cx : Context} {package : String} {ty : SourceType} {s : ReplicationState}

/-- One level of the recursion: how a model type is copied, given how the types of its properties are dealt with. -/
def modelWith (cx : Context) (package : String) (copyType : SourceType → ReplicationM ReplicaRef) (ty : SourceType)
    (kind : ObjectKind) : ReplicationM ReplicaRef := do
  match (← get).registry.find? ty.name with
  | some entry =>
    modify (·.touch ty.name)
    return entry.reference
  | none =>
    let d ← cx.load ty.name
    modify (drafted package ty kind)
    let copy : ReplicationM ReplicaRef := do
      let (replica, deps) ← copyModel cx copyType d (replicaName package ty) kind
      modify (completed ty replica deps)
      return (draft package ty kind).reference
    tryCatch copy fun e => do
      modify (forgotten ty)
      throw e

theorem modelWithin_succ (depth : Nat) (kind : ObjectKind) : modelWithin cx package (depth + 1) ty kind =
    modelWith cx package (typeWith cx (modelWithin cx package depth)) ty kind := rfl

theorem outcome_bind_congr {step other : ReplicationM α} {next : α → ReplicationM β}
    (same : outcome step s = outcome other s) : outcome (step >>= next) s = outcome (other >>= next) s := by
  rw [outcome_bind, outcome_bind, same]

/-- Two ways to deal with the items of a list agree on the list if they agree wherever the items before one lead. -/
theorem outcome_mapM_congr {f g : α → ReplicationM β} {items : List α}
    (same : ∀ before item rest values middle, items = before ++ item :: rest →
      Each (fun item => Yields (f item)) before s values middle → outcome (f item) middle = outcome (g item) middle) :
    outcome (items.mapM f) s = outcome (items.mapM g) s := by
  induction items generalizing s with
  | nil => rfl
  | cons item rest ih =>
    rw [List.mapM_cons, List.mapM_cons, outcome_bind, outcome_bind, ← same [] item rest [] s rfl .nil]
    cases ran : outcome (f item) s with
    | mk result middle =>
      cases result with
      | error e => rfl
      | ok value =>
        refine outcome_bind_congr (ih fun before other after values last split each => ?_)
        exact same (item :: before) other after (value :: values) last (congrArg (item :: ·) split) (.cons ran each)

variable {f g : SourceType → ReplicationM ReplicaRef}

/-- The two deal alike with each property of a class, wherever the properties before it lead. -/
def AlikeFor (f g : SourceType → ReplicationM ReplicaRef) (d : Descriptor) (s : ReplicationState) : Prop :=
  ∀ before p rest refs middle, d.properties = before ++ p :: rest →
    Each (fun ty => Yields (f ty)) (before.map (·.ty)) s refs middle → outcome (f p.ty) middle = outcome (g p.ty) middle

theorem copyModel_congr {d : Descriptor} {kind : ObjectKind} {name : String}
    (alike : ∀ doc, kind ≠ .enum → cx.javadoc d.name = .ok doc → AlikeFor f g d s) :
    outcome (copyModel cx f d name kind) s = outcome (copyModel cx g d name kind) s := by
  have plain (other : kind ≠ .enum) : outcome (copyPlain cx f d name) s = outcome (copyPlain cx g d name) s := by
    unfold copyPlain
    rw [outcome_bind, outcome_bind, outcome_lift]
    cases documented : cx.javadoc d.name with
    | error e => rfl
    | ok doc =>
      refine outcome_bind_congr (outcome_mapM_congr fun before p rest refs middle split each => ?_)
      exact alike doc other documented before p rest refs middle split (each_types (yields_mapM.mpr each))
  cases kind with
  | enum => rfl
  | «class» | interface => exact plain nofun

theorem modelWith_congr {kind : ObjectKind}
    (alike : ∀ d doc, s.registry.find? ty.name = none → cx.catalog.load? ty.name = some d → kind ≠ .enum →
      cx.javadoc d.name = .ok doc → AlikeFor f g d (drafted package ty kind s)) :
    outcome (modelWith cx package f ty kind) s = outcome (modelWith cx package g ty kind) s := by
  unfold modelWith
  rw [outcome_bind, outcome_bind, outcome_get]
  dsimp only
  cases absent : s.registry.find? ty.name with
  | some entry => rfl
  | none =>
    dsimp only
    rw [outcome_bind, outcome_bind, outcome_lift]
    cases loads : cx.load ty.name with
    | error e => rfl
    | ok d =>
      have loaded : cx.catalog.load? ty.name = some d := load_eq_ok_iff.mp loads
      dsimp only
      rw [outcome_bind, outcome_bind, outcome_modify]
      dsimp only
      rw [outcome_tryCatch, outcome_tryCatch]
      rw [outcome_bind_congr (copyModel_congr fun doc => alike d doc absent loaded)]

theorem typeWith_congr {copy other : SourceType → ObjectKind → ReplicationM ReplicaRef}
    (same : ∀ ty kind, outcome (copy ty kind) s = outcome (other ty kind) s) (ty : SourceType) :
    outcome (typeWith cx copy ty) s = outcome (typeWith cx other ty) s := by
  unfold typeWith
  cases cx.catalog.classify ty with
  | enum => exact same ty .enum
  | plain => exact same ty .class
  | collection kind element =>
    dsimp only
    split
    next elementKind _ => exact outcome_bind_congr (same element elementKind)
    next => rfl
  | void | primitive | map | passthrough => rfl

/-- Depth beyond the number of unregistered names makes no difference. -/
theorem depth_irrelevant {depth other : Nat} (enough : (unregistered cx.catalog s.registry).length < depth)
    (also : (unregistered cx.catalog s.registry).length < other) (ty : SourceType) :
    outcome (typeWith cx (modelWithin cx package depth) ty) s =
      outcome (typeWith cx (modelWithin cx package other) ty) s := by
  induction depth generalizing other s ty with
  | zero => exact absurd enough (Nat.not_lt_zero _)
  | succ depth ih =>
    cases other with
    | zero => exact absurd also (Nat.not_lt_zero _)
    | succ other =>
      refine typeWith_congr (fun ty kind => ?_) ty
      rw [modelWithin_succ, modelWithin_succ]
      refine modelWith_congr fun d doc absent loaded _ _ before p rest refs middle _ each => ?_
      have leaves := leaves_sustained cx package
      have keeps := each_keeps <| each.imp fun _ _ _ _ yields =>
        (typeWith_post leaves (modelWithin_post leaves depth) yields).keeps
      have fewer : (unregistered cx.catalog middle.registry).length < (unregistered cx.catalog s.registry).length :=
        Nat.lt_of_le_of_lt (unregistered_sublist keeps).length_le (drafted_unregistered loaded absent)
      exact ih (by omega) (by omega) p.ty

end Recursion

section Unbounded
variable {cx : Context} {package : String} {ty : SourceType} {s after : ReplicationState} {ref : ReplicaRef}

theorem replicate_unfolded (cx : Context) (package : String) (ty : SourceType) (s : ReplicationState) :
    outcome (cx.replicate package ty) s =
      outcome (typeWith cx (modelWith cx package (cx.replicate package)) ty) s := by
  have size : (unregistered cx.catalog s.registry).length < cx.catalog.size + 1 :=
    Nat.lt_succ_of_le unregistered_le_size
  exact depth_irrelevant size (Nat.lt_succ_of_lt size) ty

theorem replicate_model {kind : ObjectKind} (copied : modelKind? (cx.catalog.classify ty) = some kind) :
    outcome (cx.replicate package ty) s = outcome (modelWith cx package (cx.replicate package) ty kind) s := by
  rw [replicate_unfolded]
  unfold typeWith
  cases sort : cx.catalog.classify ty with
  | enum | plain =>
    rw [sort] at copied
    cases copied
    rfl
  | void | primitive | collection | map | passthrough =>
    rw [sort] at copied
    cases copied

theorem replicate_collection {kind : CollectionKind} {element : SourceType}
    (held : cx.catalog.classify ty = .collection kind element) (copied : cx.catalog.isModel element = true) :
    outcome (cx.replicate package ty) s =
      outcome (do return collectionRef ty kind element (← cx.replicate package element)) s := by
  obtain ⟨elementKind, isModel⟩ := isModel_iff.mp copied
  rw [replicate_unfolded]
  unfold typeWith
  simp only [held, isModel]
  exact outcome_bind_congr (replicate_model isModel).symm

theorem replicate_passthrough (plain : modelOf? cx.catalog ty = none) :
    outcome (cx.replicate package ty) s = (.ok (.passthrough ty), s) := by
  rw [replicate_unfolded]
  unfold typeWith
  unfold modelOf? at plain
  cases sort : cx.catalog.classify ty with
  | enum | plain =>
    rw [sort] at plain
    cases plain
  | collection kind element =>
    simp only [sort] at plain ⊢
    cases isModel : modelKind? (cx.catalog.classify element) with
    | some elementKind => simp [isModel_iff.mpr ⟨elementKind, isModel⟩] at plain
    | none => rfl
  | void | primitive | map | passthrough => rfl

theorem replicate_keeps (yields : Yields (cx.replicate package ty) s ref after) : Keeps s.registry after.registry :=
  (replicate_post (leaves_sustained cx package) yields).keeps

theorem replicate_held (yields : Yields (cx.replicate package ty) s ref after) (copied : cx.catalog.isModel ty = true) :
    ∃ e, after.registry.find? ty.name = some e ∧ e.reference = ref :=
  (replicate_post (leaves_sustained cx package) yields).held copied

theorem replicateEach_keeps {types : List SourceType} {refs : List ReplicaRef}
    (each : Each (fun ty => Yields (cx.replicate package ty)) types s refs after) : Keeps s.registry after.registry :=
  each_keeps (each.imp fun _ _ _ _ => replicate_keeps)

/-- A class is copied by dealing with its properties in the drafted state. -/
theorem replicate_class {d : Descriptor} (copied : modelKind? (cx.catalog.classify ty) = some .class)
    (absent : s.registry.find? ty.name = none) (loaded : cx.catalog.load? ty.name = some d)
    (yields : Yields (cx.replicate package ty) s ref after) :
    ∃ refs last, Each (fun ty => Yields (cx.replicate package ty)) (d.properties.map (·.ty))
      (drafted package ty .class s) refs last ∧ Keeps last.registry after.registry := by
  have yields : Yields (modelWith cx package (cx.replicate package) ty .class) s ref after :=
    (replicate_model copied).symm.trans yields
  have loads : cx.load ty.name = .ok d := load_eq_ok_iff.mpr loaded
  unfold modelWith at yields
  rw [yields_get_bind] at yields
  simp only [absent, loads] at yields
  rw [yields_lift_bind, yields_modify_bind] at yields
  obtain ⟨⟨replica, deps⟩, last, made, yields⟩ := yields_bind.mp (yields_rethrow.mp yields)
  rw [yields_modify_bind] at yields
  obtain ⟨_, rfl⟩ := yields_pure.mp yields
  unfold copyModel copyPlain at made
  obtain ⟨doc, middle, first, made⟩ := yields_bind.mp made
  obtain ⟨_, rfl⟩ := yields_lift.mp first
  obtain ⟨refs, inner, mapped, made⟩ := yields_bind.mp made
  obtain ⟨converter, final, second, finishes⟩ := yields_bind.mp made
  obtain ⟨_, rfl⟩ := yields_lift.mp second
  obtain ⟨_, rfl⟩ := yields_pure.mp finishes
  exact ⟨refs, _, each_types mapped, completed_keeps⟩

end Unbounded

end PluginForge.Proofs.ReplicationRecursion
