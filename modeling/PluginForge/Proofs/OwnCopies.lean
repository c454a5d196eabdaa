import PluginForge.Proofs.CallClosure
import PluginForge.Proofs.WrittenTypes

/-! Copies without regard to how they came about. Where no model type is written with type arguments, what generated
code uses for a type is read off the type alone, and the copy of a class off the class: whatever was copied before, a
registry holds nothing else. -/

namespace PluginForge.Proofs.OwnCopies
open Replication ModelTypes RegistryEntries Results ReplicationLogic ReplicationRule ReplicationFailure
open ReplicationInvariant ReplicationStates ReferenceIntegrity WrittenTypes

/-- No model type that the type mentions is written with type arguments. -/
def Bare (catalog : Catalog) (ty : SourceType) : Prop := ∀ use, Mentions catalog ty use → use.args = []

/-- No property is of a model type that is written with type arguments. -/
def Unargued (catalog : Catalog) : Prop :=
  ∀ entry ∈ catalog.classes.entries, ∀ p ∈ entry.2.properties, (written? catalog p.ty).all (·.args.isEmpty) = true

/-- What generated code uses for a type, whether or not anything was copied before. -/
def ownRef (catalog : Catalog) (package : String) (ty : SourceType) : ReplicaRef :=
  match catalog.classify ty with
  | .enum => (draft package ty .enum).reference
  | .plain => (draft package ty .class).reference
  | .collection kind element =>
    match modelKind? (catalog.classify element) with
    | some elementKind => collectionRef ty kind element (draft package element elementKind).reference
    | none => .passthrough ty
  | _ => .passthrough ty

/-- The copy of a class whose properties are of the types' own references. -/
def ownCopy (cx : Context) (package : String) (d : Descriptor) : Except GenerateError Replica :=
  if d.isEnum then copyEnum cx d (copyName package d.name)
  else do
    let doc ← cx.javadoc d.name
    let refs := d.properties.map fun p => ownRef cx.catalog package p.ty
    let converter ← classConverter d (.generated (copyName package d.name) .class) (d.properties.zip refs)
    return plainReplica package (.named d.name [] 0) d doc refs converter

section Types
variable {catalog : Catalog} {package : String} {ty : SourceType} {kind : ObjectKind} {d : Descriptor}

theorem bare_of_unargued (unargued : Unargued catalog) (plain : (written? catalog ty).all (·.args.isEmpty) = true) :
    Bare catalog ty := by
  have none {other use : SourceType} (written : written? catalog other = some use)
      (all : (written? catalog other).all (·.args.isEmpty) = true) : use.args = [] := by
    rw [written, Option.all_some, List.isEmpty_iff] at all
    exact all
  intro use mentioned
  cases mentioned with
  | here written => exact none written plain
  | property _ loaded _ member written => exact none written (unargued _ (NamedEntries.mem_of_lookup loaded) _ member)

theorem ownRef_model (copied : modelKind? (catalog.classify ty) = some kind) :
    ownRef catalog package ty = (draft package ty kind).reference := by
  unfold ownRef
  cases sort : catalog.classify ty with
  | enum | plain =>
    rw [sort] at copied
    cases copied
    rfl
  | void | primitive | collection | map | passthrough =>
    rw [sort] at copied
    cases copied

theorem ownRef_collection {collectionKind : CollectionKind} {element : SourceType}
    (held : catalog.classify ty = .collection collectionKind element) (copied : catalog.isModel element = true) :
    ownRef catalog package ty = collectionRef ty collectionKind element (ownRef catalog package element) := by
  obtain ⟨elementKind, isModel⟩ := isModel_iff.mp copied
  rw [ownRef_model isModel]
  unfold ownRef
  simp only [held, isModel]

theorem ownRef_passthrough (plain : modelOf? catalog ty = none) : ownRef catalog package ty = .passthrough ty := by
  unfold modelOf? at plain
  unfold ownRef
  cases sort : catalog.classify ty with
  | enum | plain =>
    rw [sort] at plain
    cases plain
  | collection kind element =>
    simp only [sort] at plain ⊢
    cases isModel : modelKind? (catalog.classify element) with
    | some elementKind => simp [isModel_iff.mpr ⟨elementKind, isModel⟩] at plain
    | none => rfl
  | void | primitive | map | passthrough => rfl

/-- A model type without type arguments is just the name of its class. -/
theorem eq_named (model : Model catalog ty d) (copied : modelKind? (catalog.classify ty) = some kind)
    (bare : Bare catalog ty) : ty = .named d.name [] 0 := by
  obtain ⟨args, rfl⟩ := model.shape
  have none : args = [] := bare _ (.here (written?_model copied))
  rw [none]

end Types

/-- An entry that could be that of the first copy made. -/
structure Own (cx : Context) (package name : String) (e : Registry.Entry) (d : Descriptor) : Prop where
  model : Model cx.catalog (.named name [] 0) d
  reference : e.reference = (draft package (.named name [] 0) (copyKind d)).reference
  copy : ∀ replica, e.replica = some replica → ownCopy cx package d = .ok replica

/-- Each entry is as that of the first copy would be. -/
def Owned (cx : Context) (package : String) (r : Registry) : Prop :=
  ∀ entry ∈ r.entries, ∃ d, Own cx package entry.1 entry.2 d

section Steps
variable {cx : Context} {package : String} {ty : SourceType} {d : Descriptor} {s last : ReplicationState}

theorem Own.of_model {e : Registry.Entry} {other : Descriptor} (own : Own cx package ty.name e other)
    (model : Model cx.catalog ty d) : other = d := by
  have loaded := own.model.loaded
  rw [← own.model.name_eq] at loaded
  have same := model.loaded
  rw [← model.name_eq] at same
  exact Option.some.inj (loaded.symm.trans same)

theorem Owned.drafted (owned : Owned cx package s.registry) (model : Model cx.catalog (.named d.name [] 0) d) :
    Owned cx package (drafted package (.named d.name [] 0) (copyKind d) s).registry := by
  refine List.forall_mem_append.mpr ⟨owned, List.forall_mem_singleton.mpr ⟨d, model, rfl, ?_⟩⟩
  exact fun _ finished => nomatch finished

theorem Owned.completed (owned : Owned cx package last.registry) (model : Model cx.catalog (.named d.name [] 0) d)
    {replica : Replica} {deps : List String} (made : ownCopy cx package d = .ok replica) :
    Owned cx package (completed (.named d.name [] 0) replica deps last).registry := by
  refine List.forall_mem_map.mpr fun entry member => ?_
  obtain ⟨other, own⟩ := owned entry member
  split
  next named =>
    obtain ⟨name, e⟩ := entry
    obtain rfl : name = d.name := named
    obtain rfl := (show Own cx package (SourceType.named d.name [] 0).name e other from own).of_model model
    refine ⟨other, own.model, own.reference, ?_⟩
    rintro _ ⟨⟩
    exact made
  next => exact ⟨other, own⟩

theorem each_owned {types : List SourceType} {refs : List ReplicaRef}
    (each : Each (fun ty s ref after => Bare cx.catalog ty → Owned cx package s.registry →
      ref = ownRef cx.catalog package ty ∧ Owned cx package after.registry) types s refs last)
    (bare : ∀ ty ∈ types, Bare cx.catalog ty) (owned : Owned cx package s.registry) :
    refs = types.map (ownRef cx.catalog package) ∧ Owned cx package last.registry := by
  induction each with
  | nil => exact ⟨rfl, owned⟩
  | cons first rest ih =>
    obtain ⟨here, others⟩ := List.forall_mem_cons.mp bare
    obtain ⟨rfl, ownedMiddle⟩ := first here owned
    obtain ⟨rfl, ownedLast⟩ := ih others ownedMiddle
    exact ⟨rfl, ownedLast⟩

theorem owned_sustained (cx : Context) (package : String) :
    Sustained cx package fun ty s ref after => Bare cx.catalog ty → Owned cx package s.registry →
      ref = ownRef cx.catalog package ty ∧ Owned cx package after.registry where
  passthrough plain _ owned := ⟨(ownRef_passthrough plain).symm, owned⟩
  collection {ty element kind s after copy} held copied run bare owned := by
    obtain ⟨elementKind, isModel⟩ := isModel_iff.mp copied
    have written := (written?_collection held copied).trans (written?_model isModel).symm
    obtain ⟨rfl, ownedAfter⟩ := run (fun use mentioned => bare use (mentioned.of_written written)) owned
    exact ⟨(ownRef_collection held copied).symm, ownedAfter⟩
  again {ty d s entry} model copied found bare owned := by
    obtain ⟨other, own⟩ := owned _ (mem_of_find? found)
    obtain rfl := own.of_model model
    obtain rfl := eq_named model copied bare
    exact ⟨own.reference.trans (ownRef_model copied).symm, owned⟩
  enum {ty d s replica} model copied isEnum absent made bare owned := by
    obtain rfl := eq_named model copied bare
    have kind : copyKind d = .enum := if_pos isEnum
    have own : ownCopy cx package d = .ok replica := (if_pos isEnum).trans made
    rw [← kind] at copied ⊢
    exact ⟨(ownRef_model copied).symm, (owned.drafted model).completed model own⟩
  plain {ty d s last doc refs converter} model copied notEnum absent documented inner converts bare owned := by
    have inside : ∀ ty ∈ d.properties.map (·.ty), Bare cx.catalog ty := by
      refine List.forall_mem_map.mpr fun p member use mentioned => ?_
      exact bare use (mentioned.of_property model copied notEnum member)
    obtain rfl := eq_named model copied bare
    have kind : copyKind d = .class := by simp [copyKind, notEnum]
    rw [← kind] at copied inner ⊢
    obtain ⟨rfl, ownedLast⟩ := each_owned inner inside (owned.drafted model)
    refine ⟨(ownRef_model copied).symm, ownedLast.completed model ?_⟩
    rw [List.map_map] at converts ⊢
    unfold ownCopy
    rw [if_neg (by simp [notEnum]), documented]
    exact except_bind.mpr ⟨_, rfl, except_bind.mpr ⟨_, converts, rfl⟩⟩

end Steps

/-- The states that successful calls lead to, for types that mention no model type with type arguments. What is touched
starts anew with every task. -/
inductive Past (cx : Context) (package : String) : ReplicationState → Prop where
  | fresh : Past cx package {}
  | task {s : ReplicationState} (before : Past cx package s) : Past cx package { s with touched := [] }
  | call {ty : SourceType} {s after : ReplicationState} {ref : ReplicaRef} (before : Past cx package s)
      (bare : Bare cx.catalog ty) (yields : Yields (cx.replicate package ty) s ref after) : Past cx package after

/-- Each model type that the type leads to has documentation that can be read, and a class has a constructor. -/
def Copyable (cx : Context) (ty : SourceType) : Prop :=
  ∀ name, Reaches cx.catalog ty name → ∀ e, ¬ Barred cx e name

section Pasts
variable {cx : Context} {package : String} {ty : SourceType} {s after : ReplicationState} {ref : ReplicaRef}

theorem Past.reached (past : Past cx package s) : Reached cx package s := by
  induction past with
  | fresh => exact .fresh
  | task _ ih => exact .again ih
  | call _ _ yields ih => exact .copy ih yields

theorem Past.owned (past : Past cx package s) : Owned cx package s.registry := by
  induction past with
  | fresh => exact nofun
  | task _ ih => exact ih
  | call _ bare yields ih => exact (replicate_post (owned_sustained cx package) yields bare ih).2

theorem Past.answer (past : Past cx package s) (bare : Bare cx.catalog ty)
    (yields : Yields (cx.replicate package ty) s ref after) : ref = ownRef cx.catalog package ty :=
  (replicate_post (owned_sustained cx package) yields bare past.owned).1

theorem Past.copy (past : Past cx package s) {name : String} {replica : Replica}
    (finished : s.registry.replica? name = some replica) :
    ∃ d, cx.catalog.load? name = some d ∧ ownCopy cx package d = .ok replica := by
  obtain ⟨e, found, isReplica⟩ := Option.bind_eq_some_iff.mp finished
  obtain ⟨d, own⟩ := past.owned _ (mem_of_find? found)
  refine ⟨d, ?_, own.copy replica isReplica⟩
  have loaded := own.model.loaded
  rwa [← own.model.name_eq] at loaded

/-- A copy that is finished was not in the way of itself. -/
theorem not_barred_of_copy {name : String} {d : Descriptor} {replica : Replica} {deps : List String}
    (named : d.name = name) (loaded : cx.catalog.load? name = some d) (copy : Copy cx package d replica deps)
    (e : GenerateError) : ¬ Barred cx e name := by
  rintro ⟨other, loads, unread | ⟨notEnum, unfit, _⟩⟩
  · subst named
    cases copy with
    | enum isEnum made =>
      obtain ⟨doc, documented, _⟩ := except_bind.mp made
      cases unread.symm.trans documented
    | plain _ documented => cases unread.symm.trans documented
  · cases loaded.symm.trans loads
    cases copy with
    | enum isEnum =>
      rw [isEnum] at notEnum
      cases notEnum
    | plain _ _ _ _ converts =>
      obtain ⟨constructed, made, _⟩ := except_bind.mp converts
      unfold Descriptor.construct at made
      simp only [unfit] at made
      cases made

theorem reaches_of_path {first name : String} (start : Reaches cx.catalog ty first)
    (path : Relation.ReflTransGen (Leads cx.catalog) first name) : Reaches cx.catalog ty name := by
  induction path with
  | refl => exact start
  | tail _ leads ih => exact ih.next leads

/-- Whether a type can be copied shows in the types that it leads to. -/
theorem replicate_succeeds_iff (reached : Reached cx package s) :
    (∃ ref after, Yields (cx.replicate package ty) s ref after) ↔ Copyable cx ty := by
  constructor
  · rintro ⟨ref, after, yields⟩ name within e
    have copied := replicate_copied reached.good yields
    have later := reached.copy yields
    have whole : ∀ name e, after.registry.find? name = some e → ∀ dep, Leads cx.catalog name dep → dep ∈ e.deps := by
      rintro name e found dep ⟨other, loads, leads⟩
      obtain ⟨d, fits⟩ := copied.good.fits name e found
      obtain ⟨replica, finished⟩ := later.finished found
      cases fits.loaded.symm.trans loads
      exact ((fits.copy replica finished).mem_deps_iff dep).mpr leads
    have touched := (good_iff_tidy.mp copied.good).mem_of_reaches whole copied.touched within
    obtain ⟨entry, found⟩ := Option.isSome_iff_exists.mp (copied.good.present name touched)
    obtain ⟨d, fits⟩ := copied.good.fits name entry found
    obtain ⟨replica, finished⟩ := later.finished found
    exact not_barred_of_copy fits.named fits.loaded (fits.copy replica finished) e
  · intro copyable
    cases run : outcome (cx.replicate package ty) s with
    | mk result after =>
      cases result with
      | ok ref => exact ⟨ref, after, run⟩
      | error e =>
        have sound : Sound s.registry := by
          refine ⟨reached.good.unique, fun entry member => ?_⟩
          obtain ⟨d, fits⟩ := reached.good.fits entry.1 entry.2 (find?_of_mem reached.good.unique member)
          exact fits.source
        have wrecks := replicate_breaks (lands_sustained cx package) (wrecks_broken cx package) sound.unique
          reached.all_finished run sound
        obtain ⟨name, leads, culprit, path, barred⟩ := wrecks.doomed
        exact absurd barred (copyable culprit (reaches_of_path (.here leads) path) e)

end Pasts

end PluginForge.Proofs.OwnCopies
