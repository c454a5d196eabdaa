import PluginForge.Proofs.ModelTypes
import PluginForge.Proofs.ReplicationLogic

/-! A rule for successful replication. What every step of it sustains, from the state before to the state after
and for the reference it yields, holds of whole runs: the depth of the recursion and the recovery from failures
are dealt with here, once. -/

namespace PluginForge.Proofs.ReplicationRule
open Replication ModelTypes ReplicationLogic

/-- Steps over a list, each from the state that the one before it left. -/
inductive Each {α β : Type} (step : α → ReplicationState → β → ReplicationState → Prop) :
    List α → ReplicationState → List β → ReplicationState → Prop where
  | nil {s : ReplicationState} : Each step [] s [] s
  | cons {item : α} {items : List α} {value : β} {values : List β} {s middle after : ReplicationState}
      (first : step item s value middle) (rest : Each step items middle values after) :
      Each step (item :: items) s (value :: values) after

section Each
variable {α β : Type} {s after : ReplicationState}

theorem Each.length_eq {step : α → ReplicationState → β → ReplicationState → Prop} {items : List α} {values : List β}
    (each : Each step items s values after) : values.length = items.length := by
  induction each with
  | nil => rfl
  | cons first rest ih => simp [ih]

theorem Each.imp {step weaker : α → ReplicationState → β → ReplicationState → Prop} {items : List α} {values : List β}
    (implies : ∀ item s value after, step item s value after → weaker item s value after)
    (each : Each step items s values after) : Each weaker items s values after := by
  induction each with
  | nil => exact .nil
  | cons first rest ih => exact .cons (implies _ _ _ _ first) ih

section Accumulation
variable {step : α → ReplicationState → β → ReplicationState → Prop} {items : List α} {values : List β}

/-- What every step relates its two states by, the whole run does as well. -/
theorem Each.closed {relation : ReplicationState → ReplicationState → Prop}
    (each : Each (fun _ s _ after => relation s after) items s values after) (refl : ∀ s, relation s s)
    (trans : ∀ {s middle after}, relation s middle → relation middle after → relation s after) : relation s after := by
  induction each with
  | nil => exact refl _
  | cons first rest ih => exact trans first ih

/-- An invariant that each step relies on and hands on holds at the end, and under it every step has been taken. -/
theorem Each.thread {invariant : ReplicationState → Prop}
    (each : Each (fun item s value after => invariant s → step item s value after) items s values after)
    (hands : ∀ {item s value after}, step item s value after → invariant after) (holds : invariant s) :
    invariant after ∧ Each step items s values after := by
  induction each with
  | nil => exact ⟨holds, .nil⟩
  | cons first rest ih =>
    have taken := first holds
    obtain ⟨last, others⟩ := ih (hands taken)
    exact ⟨last, .cons taken others⟩

/-- What each step says of its item and its value holds of the two lists side by side. -/
theorem Each.forall_zip {relates : α → β → Prop} (each : Each step items s values after)
    (gives : ∀ {item s value after}, step item s value after → relates item value) :
    ∀ part ∈ items.zip values, relates part.1 part.2 := by
  induction each with
  | nil => exact nofun
  | cons first rest ih => exact List.forall_mem_cons.mpr ⟨gives first, ih⟩

theorem Each.map_eq {γ : Type} {f : α → γ} {g : β → γ} (each : Each step items s values after)
    (gives : ∀ {item s value after}, step item s value after → g value = f item) :
    values.map g = items.map f := by
  induction each with
  | nil => rfl
  | cons first rest ih => rw [List.map_cons, List.map_cons, gives first, ih]

/-- What a step brings about for its item, and no step undoes, is there for every item at the end. -/
theorem Each.forall_after {mark : α → ReplicationState → Prop} (each : Each step items s values after)
    (sets : ∀ {item s value after}, step item s value after → mark item after)
    (keeps : ∀ {item other s value after}, step item s value after → mark other s → mark other after) :
    ∀ item ∈ items, mark item after := by
  induction each with
  | nil => exact nofun
  | @cons item _ _ _ _ _ _ first rest ih =>
    have carried := rest.imp fun _ _ _ _ taken (held : mark item _) => keeps taken held
    have later := carried.closed (fun _ held => held) (fun early late held => late (early held))
    exact List.forall_mem_cons.mpr ⟨later (sets first), ih⟩

end Accumulation

/-- The step for one item of a list, between those for the items before and behind it. -/
theorem Each.split {step : α → ReplicationState → β → ReplicationState → Prop} {before rest : List α} {item : α}
    {values : List β} (each : Each step (before ++ item :: rest) s values after) :
    ∃ early middle value next late, Each step before s early middle ∧ step item middle value next ∧
      Each step rest next late after := by
  induction before generalizing s values with
  | nil =>
    cases each with
    | cons first later => exact ⟨[], s, _, _, _, .nil, first, later⟩
  | cons head before ih =>
    cases each with
    | cons first later =>
      obtain ⟨early, middle, value, next, late, sooner, here, rest⟩ := ih later
      exact ⟨_ :: early, middle, value, next, late, .cons first sooner, here, rest⟩

theorem each_unique {step : α → ReplicationM β} {items : List α} {values others : List β} {later : ReplicationState}
    (first : Each (fun item => Yields (step item)) items s values after)
    (second : Each (fun item => Yields (step item)) items s others later) : values = others ∧ after = later := by
  induction first generalizing others later with
  | nil =>
    cases second
    exact ⟨rfl, rfl⟩
  | cons here _ ih =>
    cases second with
    | cons there rest =>
      obtain ⟨rfl, rfl⟩ := yields_unique here there
      obtain ⟨rfl, rfl⟩ := ih rest
      exact ⟨rfl, rfl⟩

theorem yields_mapM {step : α → ReplicationM β} {items : List α} {values : List β} :
    Yields (items.mapM step) s values after ↔ Each (fun item => Yields (step item)) items s values after := by
  constructor
  · intro yields
    induction items generalizing s values with
    | nil =>
      rw [List.mapM_nil] at yields
      obtain ⟨rfl, rfl⟩ := yields_pure.mp yields
      exact .nil
    | cons item rest ih =>
      rw [List.mapM_cons] at yields
      obtain ⟨value, middle, first, yields⟩ := yields_bind.mp yields
      obtain ⟨others, last, remaining, finishes⟩ := yields_bind.mp yields
      obtain ⟨rfl, rfl⟩ := yields_pure.mp finishes
      exact .cons first (ih remaining)
  · intro each
    induction each with
    | nil => exact yields_pure.mpr ⟨rfl, rfl⟩
    | cons first rest ih =>
      rw [List.mapM_cons]
      exact yields_bind.mpr ⟨_, _, first, yields_bind.mpr ⟨_, _, ih, yields_pure.mpr ⟨rfl, rfl⟩⟩⟩

end Each

/-- The entry of a copy in progress. -/
def draft (package : String) (ty : SourceType) (kind : ObjectKind) : Registry.Entry :=
  { ty := .generated (replicaName package ty) kind, converter := converterName ty, source := ty.toTypeRef }

/-- The state in which the copy of a type is made. -/
def drafted (package : String) (ty : SourceType) (kind : ObjectKind) (s : ReplicationState) : ReplicationState :=
  ReplicationState.touch { s with registry := s.registry.reserve ty.name (draft package ty kind) } ty.name

def completed (ty : SourceType) (replica : Replica) (deps : List String) (s : ReplicationState) : ReplicationState :=
  { s with registry := s.registry.complete ty.name replica deps }

/-- The copy of a plain class, given what its properties refer to. -/
def plainReplica (package : String) (ty : SourceType) (d : Descriptor) (doc : TypeDoc) (refs : List ReplicaRef)
    (converter : MethodDef) : Replica where
  definition := .class
    (copyClass d doc (replicaName package ty) (copiedProperties doc (d.properties.zip refs))) []
  source := d.sourceType
  converter
  ty := .generated (replicaName package ty) .class

/-- What the steps of replication sustain. -/
structure Sustained (cx : Context) (package : String)
    (post : SourceType → ReplicationState → ReplicaRef → ReplicationState → Prop) : Prop where
  passthrough {ty : SourceType} {s : ReplicationState} (plain : modelOf? cx.catalog ty = none) :
    post ty s (.passthrough ty) s
  collection {ty element : SourceType} {kind : CollectionKind} {s after : ReplicationState} {copy : ReplicaRef}
    (held : cx.catalog.classify ty = .collection kind element) (copied : cx.catalog.isModel element = true)
    (run : post element s copy after) : post ty s (collectionRef ty kind element copy) after
  again {ty : SourceType} {d : Descriptor} {s : ReplicationState} {entry : Registry.Entry}
    (model : Model cx.catalog ty d) (copied : modelKind? (cx.catalog.classify ty) = some (copyKind d))
    (found : s.registry.find? ty.name = some entry) : post ty s entry.reference (s.touch ty.name)
  enum {ty : SourceType} {d : Descriptor} {s : ReplicationState} {replica : Replica}
    (model : Model cx.catalog ty d) (copied : modelKind? (cx.catalog.classify ty) = some .enum)
    (isEnum : d.isEnum = true) (absent : s.registry.find? ty.name = none)
    (made : copyEnum cx d (replicaName package ty) = .ok replica) :
    post ty s (draft package ty .enum).reference (completed ty replica [] (drafted package ty .enum s))
  plain {ty : SourceType} {d : Descriptor} {s last : ReplicationState} {doc : TypeDoc} {refs : List ReplicaRef}
    {converter : MethodDef} (model : Model cx.catalog ty d)
    (copied : modelKind? (cx.catalog.classify ty) = some .class) (notEnum : d.isEnum = false)
    (absent : s.registry.find? ty.name = none) (documented : cx.javadoc d.name = .ok doc)
    (inner : Each post (d.properties.map (·.ty)) (drafted package ty .class s) refs last)
    (converts : classConverter d (.generated (replicaName package ty) .class) (d.properties.zip refs) = .ok converter) :
    post ty s (draft package ty .class).reference
      (completed ty (plainReplica package ty d doc refs converter) (refs.filterMap (·.conversion.modelName?)) last)

variable {cx : Context} {package : String}
  {post : SourceType → ReplicationState → ReplicaRef → ReplicationState → Prop}

theorem typeWith_post {copy : SourceType → ObjectKind → ReplicationM ReplicaRef} (rule : Sustained cx package post)
    (copies : ∀ ty kind s ref after, modelKind? (cx.catalog.classify ty) = some kind →
      Yields (copy ty kind) s ref after → post ty s ref after)
    {ty : SourceType} {s after : ReplicationState} {ref : ReplicaRef}
    (yields : Yields (typeWith cx copy ty) s ref after) : post ty s ref after := by
  unfold typeWith at yields
  cases sort : cx.catalog.classify ty with
  | enum =>
    rw [sort] at yields
    exact copies ty .enum s ref after (by rw [sort]; rfl) yields
  | plain =>
    rw [sort] at yields
    exact copies ty .class s ref after (by rw [sort]; rfl) yields
  | collection kind element =>
    simp only [sort] at yields
    cases isModel : modelKind? (cx.catalog.classify element) with
    | some elementKind =>
      rw [isModel] at yields
      obtain ⟨inner, middle, made, finishes⟩ := yields_bind.mp yields
      obtain ⟨rfl, rfl⟩ := yields_pure.mp finishes
      exact rule.collection sort (isModel_iff.mpr ⟨elementKind, isModel⟩)
        (copies element elementKind s inner middle isModel made)
    | none =>
      rw [isModel] at yields
      obtain ⟨rfl, rfl⟩ := yields_pure.mp yields
      have other : ¬ cx.catalog.isModel element = true := by simp [isModel_iff, isModel]
      exact rule.passthrough (by simp [modelOf?, sort, other])
  | void | primitive p | map | passthrough =>
    rw [sort] at yields
    obtain ⟨rfl, rfl⟩ := yields_pure.mp yields
    exact rule.passthrough (by simp [modelOf?, sort])

/-- From a copy that is made in the drafted state to the completed one. -/
private theorem made_post {copy : SourceType → ObjectKind → ReplicationM ReplicaRef} (rule : Sustained cx package post)
    (copies : ∀ ty kind s ref after, modelKind? (cx.catalog.classify ty) = some kind →
      Yields (copy ty kind) s ref after → post ty s ref after)
    {ty : SourceType} {d : Descriptor} {s last : ReplicationState} {replica : Replica} {deps : List String}
    (model : Model cx.catalog ty d) (copied : modelKind? (cx.catalog.classify ty) = some (copyKind d))
    (absent : s.registry.find? ty.name = none)
    (made : Yields (copyModel cx (typeWith cx copy) d (replicaName package ty) (copyKind d))
      (drafted package ty (copyKind d) s) (replica, deps) last) :
    post ty s (draft package ty (copyKind d)).reference (completed ty replica deps last) := by
  cases isEnum : d.isEnum with
  | true =>
    have kind : copyKind d = .enum := by simp [copyKind, isEnum]
    rw [kind] at copied made ⊢
    unfold copyModel at made
    obtain ⟨made, middle, first, finishes⟩ := yields_bind.mp made
    obtain ⟨done, rfl⟩ := yields_lift.mp first
    obtain ⟨same, rfl⟩ := yields_pure.mp finishes
    cases same
    exact rule.enum model copied isEnum absent done
  | false =>
    have kind : copyKind d = .class := by simp [copyKind, isEnum]
    rw [kind] at copied made ⊢
    unfold copyModel copyPlain at made
    obtain ⟨doc, middle, first, made⟩ := yields_bind.mp made
    obtain ⟨documented, rfl⟩ := yields_lift.mp first
    obtain ⟨refs, inner, mapped, made⟩ := yields_bind.mp made
    obtain ⟨converter, final, second, finishes⟩ := yields_bind.mp made
    obtain ⟨converts, rfl⟩ := yields_lift.mp second
    obtain ⟨same, rfl⟩ := yields_pure.mp finishes
    cases same
    have mapped : Yields ((d.properties.map (·.ty)).mapM (typeWith cx copy)) (drafted package ty .class s) refs inner := by
      rw [List.mapM_map]
      exact mapped
    have each := (yields_mapM.mp mapped).imp fun _ _ _ _ => typeWith_post rule copies
    exact rule.plain model copied isEnum absent documented each converts

theorem modelWithin_post (rule : Sustained cx package post) (depth : Nat) (ty : SourceType) (kind : ObjectKind)
    (s : ReplicationState) (ref : ReplicaRef) (after : ReplicationState)
    (copied : modelKind? (cx.catalog.classify ty) = some kind)
    (yields : Yields (modelWithin cx package depth ty kind) s ref after) : post ty s ref after := by
  induction depth generalizing ty kind s ref after with
  | zero => exact absurd yields yields_throw
  | succ depth ih =>
    obtain ⟨d, model, rfl⟩ := model_of_classify copied
    unfold modelWithin at yields
    rw [yields_get_bind] at yields
    cases found : s.registry.find? ty.name with
    | some entry =>
      simp only [found] at yields
      rw [yields_modify_bind] at yields
      obtain ⟨rfl, rfl⟩ := yields_pure.mp yields
      exact rule.again model copied found
    | none =>
      simp only [found] at yields
      obtain ⟨other, middle, first, yields⟩ := yields_bind.mp yields
      obtain ⟨loads, rfl⟩ := yields_lift.mp first
      cases model.loads.symm.trans (load_eq_ok_iff.mp loads)
      rw [yields_modify_bind, yields_rethrow] at yields
      obtain ⟨⟨replica, deps⟩, last, made, yields⟩ := yields_bind.mp yields
      rw [yields_modify_bind] at yields
      obtain ⟨rfl, rfl⟩ := yields_pure.mp yields
      exact made_post rule ih model copied found made

/-- What every step sustains holds of each successful run. -/
theorem replicate_post (rule : Sustained cx package post) {ty : SourceType} {s after : ReplicationState}
    {ref : ReplicaRef} (yields : Yields (cx.replicate package ty) s ref after) : post ty s ref after :=
  typeWith_post rule (modelWithin_post rule _) yields

theorem replicateEach_post (rule : Sustained cx package post) {types : List SourceType} {s after : ReplicationState}
    {refs : List ReplicaRef} (yields : Yields (types.mapM (cx.replicate package)) s refs after) :
    Each post types s refs after :=
  (yields_mapM.mp yields).imp fun _ _ _ _ => replicate_post rule

end PluginForge.Proofs.ReplicationRule
