import PluginForge.Proofs.ReplicationFailure

/-! What a call that fails leaves behind. The copies that it gave up are taken out of the registry again, each by the
call that began it; those that were finished before it and within it stay, in the order in which they were begun. -/

namespace PluginForge.Proofs.FailedCalls
open Replication ModelTypes RegistryEntries ReplicationLogic ReplicationRule ReplicationFailure

/-- A finished copy of a class, and the model types it relies on, whatever its properties refer to. -/
inductive Made (cx : Context) (package : String) (ty : SourceType) (d : Descriptor) : Replica → List String → Prop where
  | enum {replica : Replica} (isEnum : d.isEnum = true) (made : copyEnum cx d (replicaName package ty) = .ok replica) :
      Made cx package ty d replica []
  | plain {doc : TypeDoc} {refs : List ReplicaRef} {converter : MethodDef} (notEnum : d.isEnum = false)
      (documented : cx.javadoc d.name = .ok doc) (length : refs.length = d.properties.length)
      (converts : classConverter d (.generated (replicaName package ty) .class) (d.properties.zip refs) = .ok converter) :
      Made cx package ty d (plainReplica package ty d doc refs converter) (refs.filterMap (·.conversion.modelName?))

/-- The entry that was drafted for a model type, with a copy of that type. -/
def Whole (cx : Context) (package : String) (entry : String × Registry.Entry) : Prop :=
  ∃ ty d replica deps, Model cx.catalog ty d ∧ Made cx package ty d replica deps ∧
    entry = (ty.name, { draft package ty (copyKind d) with replica := some replica, deps })

/-- A registry with the entries of another one in their places and those of whole copies behind them. -/
structure Behind (cx : Context) (package : String) (before after : Registry) : Prop where
  unique : OneEach after
  entries : ∃ new, after.entries = before.entries ++ new ∧ ∀ entry ∈ new, Whole cx package entry

variable {cx : Context} {package : String}

section Registries
variable {before middle after : Registry}

theorem Behind.refl (unique : OneEach before) : Behind cx package before before :=
  ⟨unique, [], (List.append_nil _).symm, nofun⟩

theorem Behind.trans (first : Behind cx package before middle) (rest : Behind cx package middle after) :
    Behind cx package before after := by
  obtain ⟨early, split, done⟩ := first.entries
  obtain ⟨late, whole, finished⟩ := rest.entries
  exact ⟨rest.unique, early ++ late, by rw [whole, split, List.append_assoc], List.forall_mem_append.mpr ⟨done, finished⟩⟩

end Registries

section Copies
variable {ty : SourceType} {d : Descriptor} {kind : ObjectKind} {s last : ReplicationState}

theorem Behind.completed {replica : Replica} {deps : List String} (model : Model cx.catalog ty d)
    (isKind : copyKind d = kind) (made : Made cx package ty d replica deps)
    (behind : Behind cx package (drafted package ty kind s).registry last.registry) :
    Behind cx package s.registry (completed ty replica deps last).registry := by
  obtain ⟨new, whole, finished⟩ := behind.entries
  refine ⟨?_, _, completed_entries behind.unique whole replica deps, List.forall_mem_cons.mpr ⟨?_, finished⟩⟩
  · rw [OneEach, ReplicationRule.completed, complete_keys]
    exact behind.unique
  · exact ⟨ty, d, replica, deps, model, made, by rw [isKind]⟩

theorem Behind.forgotten (absent : s.registry.find? ty.name = none)
    (behind : Behind cx package (drafted package ty kind s).registry last.registry) :
    Behind cx package s.registry (forgotten ty last).registry := by
  obtain ⟨new, whole, finished⟩ := behind.entries
  exact ⟨forgotten_unique behind.unique, new, forgotten_entries absent behind.unique whole, finished⟩

theorem each_behind {types : List SourceType} {refs : List ReplicaRef}
    (each : Each (fun _ s _ after => OneEach s.registry → Behind cx package s.registry after.registry) types s refs last)
    (unique : OneEach s.registry) : Behind cx package s.registry last.registry :=
  each.closed (fun _ => .refl) (fun first rest one => (first one).trans (rest (first one).unique)) unique

theorem drafted_unique (unique : OneEach s.registry) (absent : s.registry.find? ty.name = none) :
    OneEach (drafted package ty kind s).registry := reserve_unique unique absent

theorem find?_forgotten (ty : SourceType) (s : ReplicationState) :
    (forgotten ty s).registry.find? ty.name = none := by
  refine List.lookup_eq_none_iff.mpr fun entry member => ?_
  have other := bne_iff_ne.mp (List.mem_filter.mp member).2
  exact bne_iff_ne.mpr other.symm

end Copies

theorem behind_sustained (cx : Context) (package : String) :
    Sustained cx package fun _ s _ after => OneEach s.registry → Behind cx package s.registry after.registry where
  passthrough _ unique := .refl unique
  collection _ _ run := run
  again _ _ _ unique := .refl unique
  enum model _ isEnum absent made unique := by
    have kind : copyKind _ = .enum := if_pos isEnum
    exact .completed model kind (.enum isEnum made) (.refl (drafted_unique unique absent))
  plain model _ notEnum absent documented inner converts unique := by
    have kind : copyKind _ = .class := if_neg (Bool.not_eq_true _ ▸ notEnum)
    have made := Made.plain notEnum documented (by simpa using inner.length_eq) converts
    exact .completed model kind made (each_behind inner (drafted_unique unique absent))

/-- What a step that fails for a type leaves. -/
structure Undone (cx : Context) (package : String) (ty : SourceType) (s after : ReplicationState) : Prop where
  behind : Behind cx package s.registry after.registry
  requested : ∃ name, modelOf? cx.catalog ty = some name ∧ after.registry.find? name = none

theorem undone_broken (cx : Context) (package : String) :
    Broken cx package (fun _ s _ after => OneEach s.registry → Behind cx package s.registry after.registry)
      fun ty s _ after => OneEach s.registry → Undone cx package ty s after where
  collection held copied run unique := by
    obtain ⟨kind, isModel⟩ := isModel_iff.mp copied
    obtain ⟨behind, name, leads, absent⟩ := run unique
    exact ⟨behind, name, by rw [modelOf?_collection held copied, ← modelOf?_model isModel, leads], absent⟩
  undocumented model copied absent _ unique := by
    exact ⟨.forgotten absent (.refl (drafted_unique unique absent)), _, modelOf?_model copied, find?_forgotten ..⟩
  property model copied _ absent _ inner run unique := by
    have early := each_behind inner (drafted_unique unique absent)
    exact ⟨.forgotten absent (early.trans (run early.unique).behind), _, modelOf?_model copied, find?_forgotten ..⟩
  construction _ copied _ absent inner _ unique :=
    ⟨.forgotten absent (each_behind inner (drafted_unique unique absent)), _, modelOf?_model copied,
      find?_forgotten ..⟩

/-- A call that fails over a registry of finished copies leaves them as they were, in their order. What it adds comes
behind them and is finished as well, and there is no entry for the model type that the call was for. -/
theorem failed_call_leaves {ty : SourceType} {s after : ReplicationState} {e : GenerateError}
    (unique : OneEach s.registry) (finished : ∀ entry ∈ s.registry.entries, entry.2.replica.isSome = true)
    (stopped : Fails (cx.replicate package ty) s e after) :
    (∃ new, after.registry.entries = s.registry.entries ++ new ∧ ∀ entry ∈ new, Whole cx package entry) ∧
    (∃ name, modelOf? cx.catalog ty = some name ∧ after.registry.find? name = none) ∧
    OneEach after.registry ∧ ∀ entry ∈ after.registry.entries, entry.2.replica.isSome = true := by
  obtain ⟨⟨unique, new, whole, made⟩, requested⟩ :=
    replicate_breaks (behind_sustained cx package) (undone_broken cx package) unique finished stopped unique
  refine ⟨⟨new, whole, made⟩, requested, unique, ?_⟩
  rw [whole]
  refine List.forall_mem_append.mpr ⟨finished, fun entry member => ?_⟩
  obtain ⟨_, _, _, _, _, _, rfl⟩ := made entry member
  rfl

def color : Descriptor where
  name := "com.acme.Color"
  kind := .enum
  enumConstants := ["RED", "GREEN"]

/-- A class that cannot be constructed, with a class that can among its properties. -/
def safe : Descriptor where
  name := "com.acme.Safe"
  properties := [{ name := "lock", ty := .named "com.acme.Lock" [] 0 }]
  constructors := [{ visibility := .priv }]

def lock : Descriptor where
  name := "com.acme.Lock"
  properties := [{ name := "color", ty := .named "com.acme.Color" [] 0 }]

def vault : Context where
  catalog := ((Catalog.empty.add color).add lock).add safe
  storedDoc _ := .ok {}

/-- The state in which the color has been copied. -/
def colored : ReplicationState := (outcome (vault.replicate "gen.model" color.sourceType) {}).2

theorem safe_undone :
    ∃ e after, Fails (vault.replicate "gen.model" safe.sourceType) colored e after ∧
      (∃ new, after.registry.entries = colored.registry.entries ++ new ∧ ∀ entry ∈ new, Whole vault "gen.model" entry) ∧
      colored.registry.entries.map (·.1) = ["com.acme.Color"] ∧
      after.registry.entries.map (·.1) = ["com.acme.Color", "com.acme.Lock"] ∧
      after.registry.find? "com.acme.Safe" = none := by
  obtain ⟨e, stopped⟩ : ∃ e, (outcome (vault.replicate "gen.model" safe.sourceType) colored).1 = .error e := by
    have stops : (outcome (vault.replicate "gen.model" safe.sourceType) colored).1.isOk = false := by decide +kernel
    cases result : (outcome (vault.replicate "gen.model" safe.sourceType) colored).1 with
    | error e => exact ⟨e, rfl⟩
    | ok ref =>
      rw [result] at stops
      cases stops
  have unique : OneEach colored.registry := by
    unfold OneEach
    decide +kernel
  have stopped : Fails (vault.replicate "gen.model" safe.sourceType) colored e _ := Prod.ext stopped rfl
  obtain ⟨added, ⟨name, leads, absent⟩, -⟩ := failed_call_leaves unique (by decide +kernel) stopped
  have same : modelOf? vault.catalog safe.sourceType = some "com.acme.Safe" := by decide +kernel
  cases same.symm.trans leads
  exact ⟨e, _, stopped, added, by decide +kernel, by decide +kernel, absent⟩

end PluginForge.Proofs.FailedCalls
