import Mathlib.Data.List.Nodup
import PluginForge.Proofs.ReplicationStates
import PluginForge.Proofs.Results

/-! A rule for replication that fails, beside the one for successful runs. A run fails because some type on the way
cannot be copied, never for want of depth: copies in progress are of different types of the catalog. -/

namespace PluginForge.Proofs.ReplicationFailure
open Replication ModelTypes RegistryEntries Results ReplicationLogic ReplicationRule

section Outcomes
variable {α β : Type} {s after : ReplicationState} {e : GenerateError}

/-- The step fails from `s` with an error and leaves the state `after`. -/
def Fails (step : ReplicationM α) (s : ReplicationState) (e : GenerateError) (after : ReplicationState) : Prop :=
  outcome step s = (.error e, after)

theorem fails_pure {value : α} : ¬ Fails (pure value) s e after := by
  simp [Fails, outcome_pure]

theorem fails_lift {given : Except GenerateError α} : Fails (liftM given) s e after ↔ given = .error e ∧ s = after := by
  simp [Fails, outcome_lift]

theorem fails_bind {step : ReplicationM α} {next : α → ReplicationM β} :
    Fails (step >>= next) s e after ↔
      Fails step s e after ∨ ∃ value middle, Yields step s value middle ∧ Fails (next value) middle e after := by
  unfold Fails Yields
  rw [outcome_bind]
  generalize outcome step s = first
  obtain ⟨result, middle⟩ := first
  cases result with
  | error stopped => simp
  | ok value =>
    constructor
    · exact fun fails => .inr ⟨value, middle, rfl, fails⟩
    · rintro (same | ⟨_, _, same, fails⟩)
      · cases same
      · cases same
        exact fails

theorem fails_get_bind {next : ReplicationState → ReplicationM β} :
    Fails (get >>= next) s e after ↔ Fails (next s) s e after := by
  unfold Fails
  rw [outcome_bind, outcome_get]

theorem fails_modify_bind {f : ReplicationState → ReplicationState} {next : Unit → ReplicationM β} :
    Fails (modify f >>= next) s e after ↔ Fails (next ()) (f s) e after := by
  unfold Fails
  rw [outcome_bind, outcome_modify]

theorem fails_rethrow {step : ReplicationM α} {f : ReplicationState → ReplicationState} :
    Fails (tryCatch step fun e => do modify f; throw e) s e after ↔ ∃ last, Fails step s e last ∧ f last = after := by
  unfold Fails
  rw [outcome_tryCatch]
  generalize outcome step s = first
  obtain ⟨result, middle⟩ := first
  cases result with
  | error stopped =>
    simp only [outcome_bind, outcome_modify, outcome_throw, Prod.mk.injEq, Except.error.injEq]
    constructor
    · rintro ⟨rfl, rfl⟩
      exact ⟨middle, ⟨rfl, rfl⟩, rfl⟩
    · rintro ⟨_, ⟨rfl, rfl⟩, rfl⟩
      exact ⟨rfl, rfl⟩
  | ok value => simp

/-- Of steps over a list all before the one that fails succeed. -/
theorem fails_mapM {step : α → ReplicationM β} {items : List α} (fails : Fails (items.mapM step) s e after) :
    ∃ before item rest values middle, items = before ++ item :: rest ∧
      Each (fun item => Yields (step item)) before s values middle ∧ Fails (step item) middle e after := by
  induction items generalizing s with
  | nil => exact absurd fails fails_pure
  | cons item items ih =>
    rw [List.mapM_cons] at fails
    rcases fails_bind.mp fails with here | ⟨value, middle, first, later⟩
    · exact ⟨[], item, items, [], s, rfl, .nil, here⟩
    · rcases fails_bind.mp later with inside | ⟨values, last, _, ended⟩
      · obtain ⟨before, failing, rest, values, last, split, each, stopped⟩ := ih inside
        exact ⟨item :: before, failing, rest, value :: values, last, congrArg (item :: ·) split, .cons first each, stopped⟩
      · exact absurd ended fails_pure

end Outcomes

section Growth
variable {s middle after : ReplicationState}

/-- A registry with the entries of another one in their places and finished ones behind them. -/
def Grows (before after : Registry) : Prop :=
  ∃ new, after.entries = before.entries ++ new ∧ ∀ entry ∈ new, entry.2.replica.isSome = true

theorem Grows.refl (r : Registry) : Grows r r := ⟨[], (List.append_nil _).symm, nofun⟩

theorem Grows.trans {first second third : Registry} (early : Grows first second) (late : Grows second third) :
    Grows first third := by
  obtain ⟨before, split, done⟩ := early
  obtain ⟨behind, later, finished⟩ := late
  refine ⟨before ++ behind, ?_, List.forall_mem_append.mpr ⟨done, finished⟩⟩
  rw [later, split, List.append_assoc]

/-- A step that keeps one entry for each type and only adds finished ones. -/
def Growing (s after : ReplicationState) : Prop :=
  OneEach s.registry → OneEach after.registry ∧ Grows s.registry after.registry

theorem each_growing {types : List SourceType} {refs : List ReplicaRef}
    (each : Each (fun _ s _ after => Growing s after) types s refs after) : Growing s after := by
  refine each.closed (fun _ unique => ⟨unique, .refl _⟩) fun first rest unique => ?_
  obtain ⟨uniqueMiddle, early⟩ := first unique
  obtain ⟨uniqueAfter, late⟩ := rest uniqueMiddle
  exact ⟨uniqueAfter, early.trans late⟩

theorem reserved_split {package : String} {ty : SourceType} {kind : ObjectKind} {new : List (String × Registry.Entry)}
    (whole : after.registry.entries = (drafted package ty kind s).registry.entries ++ new) :
    after.registry = ⟨s.registry.entries ++ (ty.name, draft package ty kind) :: new⟩ :=
  congrArg Registry.mk (whole.trans (List.append_assoc ..))

/-- The entry of a copy keeps its place when the copy is finished. -/
theorem completed_entries {package : String} {ty : SourceType} {kind : ObjectKind} {new : List (String × Registry.Entry)}
    (unique : OneEach after.registry)
    (whole : after.registry.entries = (drafted package ty kind s).registry.entries ++ new) (replica : Replica)
    (deps : List String) : (completed ty replica deps after).registry.entries =
      s.registry.entries ++ (ty.name, { draft package ty kind with replica := some replica, deps }) :: new := by
  simp only [completed, reserved_split whole]
  exact complete_split (reserved_split whole ▸ unique) replica deps

theorem completed_growing {package : String} {ty : SourceType} {kind : ObjectKind} {replica : Replica}
    {deps : List String} (absent : s.registry.find? ty.name = none)
    (step : Growing (drafted package ty kind s) after) : Growing s (completed ty replica deps after) := by
  intro unique
  obtain ⟨uniqueAfter, new, whole, finished⟩ := step (reserve_unique unique absent)
  refine ⟨?_, (ty.name, { draft package ty kind with replica := some replica, deps }) :: new, ?_, ?_⟩
  · rw [completed, OneEach, complete_keys]
    exact uniqueAfter
  · exact completed_entries uniqueAfter whole replica deps
  · exact List.forall_mem_cons.mpr ⟨rfl, finished⟩

theorem growing_sustained (cx : Context) (package : String) :
    Sustained cx package fun _ s _ after => Growing s after where
  passthrough _ unique := ⟨unique, .refl _⟩
  collection _ _ run := run
  again _ _ _ unique := ⟨unique, .refl _⟩
  enum _ _ _ absent _ := completed_growing absent fun unique => ⟨unique, .refl _⟩
  plain _ _ _ absent _ inner _ := completed_growing absent (each_growing inner)

end Growth

section Depth

/-- The types whose copies are in progress. -/
def pending (r : Registry) : List String := (r.entries.filter (·.2.replica.isNone)).map (·.1)

/-- The depth that is left suffices: with it and the copies in progress there is more than the catalog has. -/
structure Room (catalog : Catalog) (depth : Nat) (r : Registry) : Prop where
  unique : OneEach r
  known : ∀ name ∈ pending r, (catalog.load? name).isSome = true
  deep : catalog.size < depth + (pending r).length

variable {catalog : Catalog} {depth : Nat} {r later : Registry}

theorem Room.positive (room : Room catalog 0 r) : False := by
  have distinct : (pending r).Nodup := room.unique.sublist (List.filter_sublist.map _)
  have subset : pending r ⊆ catalog.classes.keys := by
    intro name member
    obtain ⟨d, loaded⟩ := Option.isSome_iff_exists.mp (room.known name member)
    exact List.mem_map_of_mem (NamedEntries.mem_of_lookup loaded)
  have bounded := distinct.length_le_of_subset subset
  have deep := room.deep
  have size : catalog.classes.keys.length = catalog.size := List.length_map _
  omega

theorem pending_grown (grows : Grows r later) : pending later = pending r := by
  obtain ⟨new, whole, finished⟩ := grows
  have none : new.filter (·.2.replica.isNone) = [] := by
    rw [List.filter_eq_nil_iff]
    intro entry member
    have done := finished entry member
    simpa [Option.isNone_iff_eq_none, Option.isSome_iff_ne_none] using done
  rw [pending, whole, List.filter_append, none, List.append_nil, pending]

theorem Room.grown (room : Room catalog depth r) (unique : OneEach later) (grows : Grows r later) :
    Room catalog depth later := by
  refine ⟨unique, ?_, ?_⟩
  · rw [pending_grown grows]
    exact room.known
  · rw [pending_grown grows]
    exact room.deep

theorem Room.drafted {package : String} {ty : SourceType} {kind : ObjectKind} {s : ReplicationState}
    (room : Room catalog (depth + 1) s.registry) (absent : s.registry.find? ty.name = none)
    (loaded : (catalog.load? ty.name).isSome = true) :
    Room catalog depth (drafted package ty kind s).registry := by
  have more : pending (ReplicationRule.drafted package ty kind s).registry = pending s.registry ++ [ty.name] := by
    change pending (s.registry.reserve ty.name (draft package ty kind)) = _
    rw [pending, Registry.reserve, List.filter_append, List.map_append]
    rfl
  refine ⟨reserve_unique room.unique absent, ?_, ?_⟩
  · rw [more]
    exact List.forall_mem_append.mpr ⟨room.known, by simpa using loaded⟩
  · have deep := room.deep
    rw [more, List.length_append, List.length_singleton]
    omega

end Depth

/-- The state after the copy of a type has been given up. -/
def forgotten (ty : SourceType) (s : ReplicationState) : ReplicationState :=
  { s with registry := s.registry.forget ty.name }

/-- Giving a copy up takes its entry out and leaves those around it as they were. -/
theorem forgotten_entries {package : String} {ty : SourceType} {kind : ObjectKind} {s after : ReplicationState}
    {new : List (String × Registry.Entry)} (absent : s.registry.find? ty.name = none) (unique : OneEach after.registry)
    (whole : after.registry.entries = (drafted package ty kind s).registry.entries ++ new) :
    (forgotten ty after).registry.entries = s.registry.entries ++ new := by
  have split := reserved_split whole
  rw [split, OneEach, List.map_append, List.map_cons, List.nodup_append, List.nodup_cons] at unique
  obtain ⟨_, ⟨notBehind, _⟩, _⟩ := unique
  have others {part : List (String × Registry.Entry)} (elsewhere : ty.name ∉ part.map (·.1)) :
      part.filter (·.1 != ty.name) = part := by
    refine List.filter_eq_self.mpr fun entry member => bne_iff_ne.mpr ?_
    rintro same
    exact elsewhere (same ▸ List.mem_map_of_mem member)
  simp only [forgotten, Registry.forget, split]
  rw [List.filter_append, others (notMem_of_find?_eq_none absent), List.filter_cons_of_neg (by simp), others notBehind]

theorem forgotten_unique {ty : SourceType} {s : ReplicationState} (unique : OneEach s.registry) :
    OneEach (forgotten ty s).registry := unique.sublist (List.filter_sublist.map _)

/-- What failing steps bring about, given what successful ones sustain. -/
structure Broken (cx : Context) (package : String)
    (post : SourceType → ReplicationState → ReplicaRef → ReplicationState → Prop)
    (fails : SourceType → ReplicationState → GenerateError → ReplicationState → Prop) : Prop where
  collection {ty element : SourceType} {kind : CollectionKind} {s after : ReplicationState} {e : GenerateError}
    (held : cx.catalog.classify ty = .collection kind element) (copied : cx.catalog.isModel element = true)
    (run : fails element s e after) : fails ty s e after
  undocumented {ty : SourceType} {d : Descriptor} {s : ReplicationState} {e : GenerateError}
    (model : Model cx.catalog ty d) (copied : modelKind? (cx.catalog.classify ty) = some (copyKind d))
    (absent : s.registry.find? ty.name = none) (unread : cx.javadoc d.name = .error e) :
    fails ty s e (forgotten ty (drafted package ty (copyKind d) s))
  property {ty : SourceType} {d : Descriptor} {s middle last : ReplicationState} {refs : List ReplicaRef}
    {before rest : List Property} {p : Property} {e : GenerateError} (model : Model cx.catalog ty d)
    (copied : modelKind? (cx.catalog.classify ty) = some .class) (notEnum : d.isEnum = false)
    (absent : s.registry.find? ty.name = none) (split : d.properties = before ++ p :: rest)
    (inner : Each post (before.map (·.ty)) (drafted package ty .class s) refs middle) (run : fails p.ty middle e last) :
    fails ty s e (forgotten ty last)
  construction {ty : SourceType} {d : Descriptor} {s last : ReplicationState} {refs : List ReplicaRef}
    (model : Model cx.catalog ty d) (copied : modelKind? (cx.catalog.classify ty) = some .class)
    (notEnum : d.isEnum = false) (absent : s.registry.find? ty.name = none)
    (inner : Each post (d.properties.map (·.ty)) (drafted package ty .class s) refs last)
    (unfit : d.primaryConstructor? = none) : fails ty s (.noConstructor d.name) (forgotten ty last)

variable {cx : Context} {package : String}
  {post : SourceType → ReplicationState → ReplicaRef → ReplicationState → Prop}
  {fails : SourceType → ReplicationState → GenerateError → ReplicationState → Prop}

section Construction
variable {α β : Type} {d : Descriptor} {e : GenerateError}

/-- With an argument for each property only a missing constructor is in the way. -/
theorem unfit_of_construct {localName : String} {arguments : Arguments}
    (given : ∀ p ∈ d.properties, ∃ value, arguments.get? p.name = some value)
    (stops : d.construct localName arguments = .error e) : d.primaryConstructor? = none ∧ e = .noConstructor d.name := by
  unfold Descriptor.construct at stops
  dsimp only at stops
  split at stops
  next missing =>
    cases stops
    exact ⟨missing, rfl⟩
  next c _ =>
    split at stops
    · obtain ⟨args, made⟩ : ∃ args, d.componentArguments arguments = .ok args := by
        refine mapM_of_forall fun p member => ?_
        obtain ⟨value, found⟩ := given p member
        exact ⟨value, by rw [found]⟩
      rcases except_bind_error.mp stops with missing | ⟨_, _, ended⟩
      · rw [made] at missing
        cases missing
      · cases ended
    · cases stops

theorem argument_of_name {arguments : Arguments} {name : String} (member : name ∈ arguments.map (·.1)) :
    ∃ value, arguments.get? name = some value := by
  obtain ⟨argument, inside, rfl⟩ := List.mem_map.mp member
  refine Option.isSome_iff_exists.mp ?_
  rw [Arguments.get?, List.lookup_isSome_iff]
  exact ⟨argument, List.mem_reverse.mpr inside, beq_self_eq_true _⟩

theorem unfit_of_classConverter {replica : TypeRef} {parts : List (Property × ReplicaRef)}
    (whole : parts.map (·.1) = d.properties) (stops : classConverter d replica parts = .error e) :
    d.primaryConstructor? = none ∧ e = .noConstructor d.name := by
  rcases except_bind_error.mp stops with unmade | ⟨_, _, ended⟩
  · refine unfit_of_construct (fun p member => ?_) unmade
    rw [← whole] at member
    obtain ⟨part, inside, rfl⟩ := List.mem_map.mp member
    refine argument_of_name ?_
    rw [List.map_map]
    exact List.mem_map_of_mem inside
  · cases ended

end Construction

theorem typeWith_breaks {copy : SourceType → ObjectKind → ReplicationM ReplicaRef} (broken : Broken cx package post fails)
    {s after : ReplicationState} {e : GenerateError}
    (copies : ∀ ty kind, modelKind? (cx.catalog.classify ty) = some kind → Fails (copy ty kind) s e after →
      fails ty s e after)
    {ty : SourceType} (stopped : Fails (typeWith cx copy ty) s e after) : fails ty s e after := by
  unfold typeWith at stopped
  cases sort : cx.catalog.classify ty with
  | enum =>
    rw [sort] at stopped
    exact copies ty .enum (by rw [sort]; rfl) stopped
  | plain =>
    rw [sort] at stopped
    exact copies ty .class (by rw [sort]; rfl) stopped
  | collection kind element =>
    simp only [sort] at stopped
    cases isModel : modelKind? (cx.catalog.classify element) with
    | some elementKind =>
      rw [isModel] at stopped
      rcases fails_bind.mp stopped with inside | ⟨_, _, _, ended⟩
      · exact broken.collection sort (isModel_iff.mpr ⟨elementKind, isModel⟩) (copies element elementKind isModel inside)
      · exact absurd ended fails_pure
    | none =>
      rw [isModel] at stopped
      exact absurd stopped fails_pure
  | void | primitive p | map | passthrough =>
    rw [sort] at stopped
    exact absurd stopped fails_pure

/-- What is known of the steps that a copy consists of. -/
structure Inner (cx : Context) (post : SourceType → ReplicationState → ReplicaRef → ReplicationState → Prop)
    (fails : SourceType → ReplicationState → GenerateError → ReplicationState → Prop) (depth : Nat)
    (copyType : SourceType → ReplicationM ReplicaRef) : Prop where
  sustains : ∀ ty s ref after, Yields (copyType ty) s ref after → post ty s ref after
  grows : ∀ ty s ref after, Yields (copyType ty) s ref after → Growing s after
  breaks : ∀ ty s e after, Room cx.catalog depth s.registry → Fails (copyType ty) s e after → fails ty s e after

theorem each_types {copyType : SourceType → ReplicationM ReplicaRef} {properties : List Property}
    {s after : ReplicationState} {refs : List ReplicaRef}
    (yields : Yields (properties.mapM fun p => copyType p.ty) s refs after) :
    Each (fun ty => Yields (copyType ty)) (properties.map (·.ty)) s refs after := by
  refine yields_mapM.mp ?_
  rw [List.mapM_map]
  exact yields

/-- From a copy that fails in the drafted state to the entry that is given up. -/
private theorem made_breaks {copyType : SourceType → ReplicationM ReplicaRef} {depth : Nat}
    (broken : Broken cx package post fails) (inner : Inner cx post fails depth copyType)
    {ty : SourceType} {d : Descriptor} {s last : ReplicationState} {e : GenerateError} (model : Model cx.catalog ty d)
    (copied : modelKind? (cx.catalog.classify ty) = some (copyKind d)) (absent : s.registry.find? ty.name = none)
    (room : Room cx.catalog depth (drafted package ty (copyKind d) s).registry)
    (stopped : Fails (copyModel cx copyType d (replicaName package ty) (copyKind d))
      (drafted package ty (copyKind d) s) e last) : fails ty s e (forgotten ty last) := by
  have undocumented : cx.javadoc d.name = .error e →
      fails ty s e (forgotten ty (drafted package ty (copyKind d) s)) := broken.undocumented model copied absent
  cases isEnum : d.isEnum with
  | true =>
    have kind : copyKind d = .enum := by simp [copyKind, isEnum]
    rw [kind] at stopped undocumented
    unfold copyModel at stopped
    rcases fails_bind.mp stopped with unmade | ⟨_, _, _, ended⟩
    · obtain ⟨cause, rfl⟩ := fails_lift.mp unmade
      rcases except_bind_error.mp cause with unread | ⟨_, _, ended⟩
      · exact undocumented unread
      · cases ended
    · exact absurd ended fails_pure
  | false =>
    have kind : copyKind d = .class := by simp [copyKind, isEnum]
    rw [kind] at stopped undocumented copied room
    unfold copyModel copyPlain at stopped
    rcases fails_bind.mp stopped with unread | ⟨doc, middle, read, remaining⟩
    · obtain ⟨cause, rfl⟩ := fails_lift.mp unread
      exact undocumented cause
    obtain ⟨_, rfl⟩ := yields_lift.mp read
    rcases fails_bind.mp remaining with inside | ⟨refs, final, mapped, converting⟩
    · obtain ⟨before, p, rest, values, middle, split, each, inside⟩ := fails_mapM inside
      have mapped := each_types (yields_mapM.mpr each)
      obtain ⟨unique, grown⟩ := each_growing (mapped.imp fun ty s ref after => inner.grows ty s ref after) room.unique
      exact broken.property model copied isEnum absent split (mapped.imp fun ty s ref after => inner.sustains ty s ref after)
        (inner.breaks p.ty middle e last (room.grown unique grown) inside)
    · have each := each_types mapped
      have whole : (d.properties.zip refs).map (·.1) = d.properties := by
        refine List.map_fst_zip (Nat.le_of_eq ?_)
        rw [each.length_eq, List.length_map]
      rcases fails_bind.mp converting with unmade | ⟨_, _, _, ended⟩
      · obtain ⟨cause, rfl⟩ := fails_lift.mp unmade
        obtain ⟨unfit, rfl⟩ := unfit_of_classConverter whole cause
        exact broken.construction model copied isEnum absent
          (each.imp fun ty s ref after => inner.sustains ty s ref after) unfit
      · exact absurd ended fails_pure

theorem modelWithin_breaks (rule : Sustained cx package post) (broken : Broken cx package post fails) (depth : Nat)
    (ty : SourceType) (kind : ObjectKind) (s : ReplicationState) (e : GenerateError) (after : ReplicationState)
    (room : Room cx.catalog depth s.registry) (copied : modelKind? (cx.catalog.classify ty) = some kind)
    (stopped : Fails (modelWithin cx package depth ty kind) s e after) : fails ty s e after := by
  induction depth generalizing ty kind s e after with
  | zero => exact absurd room Room.positive
  | succ depth ih =>
    obtain ⟨d, model, rfl⟩ := model_of_classify copied
    have inner : Inner cx post fails depth (typeWith cx (modelWithin cx package depth)) := by
      constructor
      · exact fun ty s ref after => typeWith_post rule (modelWithin_post rule depth)
      · have growing := growing_sustained cx package
        exact fun ty s ref after => typeWith_post growing (modelWithin_post growing depth)
      · exact fun ty s e after room => typeWith_breaks broken fun ty kind => ih ty kind s e after room
    unfold modelWithin at stopped
    rw [fails_get_bind] at stopped
    cases found : s.registry.find? ty.name with
    | some entry =>
      simp only [found] at stopped
      rw [fails_modify_bind] at stopped
      exact absurd stopped fails_pure
    | none =>
      have loaded : cx.load ty.name = .ok d := load_eq_ok_iff.mpr model.loads
      simp only [found] at stopped
      rcases fails_bind.mp stopped with unloaded | ⟨other, middle, first, remaining⟩
      · rw [loaded] at unloaded
        cases (fails_lift.mp unloaded).1
      obtain ⟨same, rfl⟩ := yields_lift.mp first
      obtain rfl : d = other := Except.ok.inj (loaded.symm.trans same)
      rw [fails_modify_bind, fails_rethrow] at remaining
      obtain ⟨last, copying, rfl⟩ := remaining
      rcases fails_bind.mp copying with inside | ⟨_, _, _, ended⟩
      · refine made_breaks broken inner model copied found (room.drafted found ?_) inside
        rw [model.loads]
        rfl
      · rw [fails_modify_bind] at ended
        exact absurd ended fails_pure

/-- What failing steps bring about holds of each failing run that starts with no copy in progress. -/
theorem replicate_breaks (rule : Sustained cx package post) (broken : Broken cx package post fails)
    {ty : SourceType} {s after : ReplicationState} {e : GenerateError} (unique : OneEach s.registry)
    (finished : ∀ entry ∈ s.registry.entries, entry.2.replica.isSome = true)
    (stopped : Fails (cx.replicate package ty) s e after) : fails ty s e after := by
  have none : pending s.registry = [] := pending_grown (r := ⟨[]⟩) ⟨s.registry.entries, rfl, finished⟩
  have room : Room cx.catalog (cx.catalog.size + 1) s.registry := by
    refine ⟨unique, ?_, ?_⟩
    · simp [none]
    · simp [none]
  exact typeWith_breaks broken (fun ty kind => modelWithin_breaks rule broken _ ty kind s e after room) stopped

end PluginForge.Proofs.ReplicationFailure
