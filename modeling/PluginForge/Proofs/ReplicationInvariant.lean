import PluginForge.Proofs.ReplicationStates

/-! What successful replication keeps. Every entry is named after its own type and every finished copy is
made from the references of its properties; what was touched is closed under what copies rely on; and a
successful step leaves the earlier entries alone and finishes all that it began. -/

namespace PluginForge.Proofs.ReplicationInvariant
open Replication ModelTypes RegistryEntries ReplicationLogic ReplicationRule ReplicationStates

/-- A finished copy of a class, and the model types it relies on. -/
inductive Copy (cx : Context) (package : String) (d : Descriptor) : Replica → List String → Prop where
  | enum {replica : Replica} (isEnum : d.isEnum = true)
      (made : copyEnum cx d (copyName package d.name) = .ok replica) : Copy cx package d replica []
  | plain {doc : TypeDoc} {parts : List (Property × ReplicaRef)} {converter : MethodDef} (notEnum : d.isEnum = false)
      (documented : cx.javadoc d.name = .ok doc) (whole : parts.map (·.1) = d.properties)
      (refs : ∀ part ∈ parts, RefOf cx.catalog package part.1.ty part.2)
      (converts : classConverter d (.generated (copyName package d.name) .class) parts = .ok converter) :
      Copy cx package d
        { definition := .class (copyClass d doc (copyName package d.name) (copiedProperties doc parts)) []
          source := d.sourceType
          converter
          ty := .generated (copyName package d.name) .class }
        (parts.filterMap (·.2.conversion.modelName?))

theorem Copy.mem_deps_iff {cx : Context} {package : String} {d : Descriptor} {replica : Replica} {deps : List String}
    (copy : Copy cx package d replica deps) (dep : String) :
    dep ∈ deps ↔ d.isEnum = false ∧ ∃ p ∈ d.properties, modelOf? cx.catalog p.ty = some dep := by
  cases copy with
  | enum isEnum made => simp [isEnum]
  | plain notEnum documented whole refs converts =>
    rw [← whole, List.mem_filterMap]
    constructor
    · rintro ⟨part, member, named⟩
      exact ⟨notEnum, part.1, List.mem_map_of_mem member, by rw [← (refs part member).modelName?, named]⟩
    · rintro ⟨_, p, member, leads⟩
      obtain ⟨part, inside, rfl⟩ := List.mem_map.mp member
      exact ⟨part, inside, by rw [(refs part inside).modelName?, leads]⟩

/-- The entry under the name of a class. -/
structure Fits (cx : Context) (package name : String) (e : Registry.Entry) (d : Descriptor) : Prop where
  model : Model cx.catalog (.named name [] 0) d
  ty : e.ty = .generated (copyName package name) (copyKind d)
  converter : e.converter = converterOf name
  source : e.source.name? = some name
  copy : ∀ replica, e.replica = some replica → Copy cx package d replica e.deps
  pending : e.replica = none → e.deps = []

theorem Fits.named {cx : Context} {package name : String} {e : Registry.Entry} {d : Descriptor}
    (fits : Fits cx package name e d) : d.name = name := fits.model.name_eq.symm

theorem Fits.loaded {cx : Context} {package name : String} {e : Registry.Entry} {d : Descriptor}
    (fits : Fits cx package name e d) : cx.catalog.load? name = some d := by
  rw [← fits.named]
  exact fits.model.loaded

theorem Fits.of_model {cx : Context} {package : String} {ty : SourceType} {e : Registry.Entry} {d other : Descriptor}
    (fits : Fits cx package ty.name e other) (model : Model cx.catalog ty d) : other = d := by
  have loaded := fits.loaded
  rw [model.loads] at loaded
  exact (Option.some.inj loaded).symm

/-- A reference to the entry is one to the copy of the type. -/
theorem Fits.refers {cx : Context} {package : String} {ty : SourceType} {e : Registry.Entry} {d : Descriptor}
    (fits : Fits cx package ty.name e d) (copied : modelKind? (cx.catalog.classify ty) = some (copyKind d)) :
    RefOf cx.catalog package ty e.reference := by
  have reference : e.reference = ⟨.generated (replicaName package ty) (copyKind d),
      .model (converterName ty) e.source⟩ := by
    rw [Registry.Entry.reference, fits.ty, fits.converter]
    rfl
  rw [reference]
  exact .model copied fits.source

structure Good (cx : Context) (package : String) (s : ReplicationState) : Prop where
  unique : OneEach s.registry
  fits : ∀ name e, s.registry.find? name = some e → ∃ d, Fits cx package name e d
  linked : ∀ name e, s.registry.find? name = some e → ∀ dep ∈ e.deps, (s.registry.find? dep).isSome = true
  present : ∀ name ∈ s.touched, (s.registry.find? name).isSome = true
  closed : Closed s.registry s.touched

variable {cx : Context} {package : String}

theorem good_iff_tidy {s : ReplicationState} :
    Good cx package s ↔ Tidy (fun name e => ∃ d, Fits cx package name e d) s :=
  ⟨fun good => ⟨good.unique, good.fits, good.linked, good.present, good.closed⟩,
    fun tidy => ⟨tidy.unique, tidy.facts, tidy.linked, tidy.present, tidy.closed⟩⟩

theorem Good.touch {s : ReplicationState} (good : Good cx package s) {name : String}
    (has : (s.registry.find? name).isSome = true) : Good cx package (s.touch name) :=
  good_iff_tidy.mpr ((good_iff_tidy.mp good).touch has)

/-- From a model type on, dependencies follow the properties of what was copied. -/
theorem fits_passes {ty : SourceType} (name : String) (e : Registry.Entry) (fits : ∃ d, Fits cx package name e d)
    (reached : Reaches cx.catalog ty name) (dep : String) (inside : dep ∈ e.deps) : Reaches cx.catalog ty dep := by
  obtain ⟨d, fits⟩ := fits
  cases finished : e.replica with
  | none => simp [fits.pending finished] at inside
  | some replica =>
    obtain ⟨notEnum, p, member, leads⟩ := ((fits.copy replica finished).mem_deps_iff dep).mp inside
    exact .property reached fits.loaded notEnum member leads

/-- What a step that yields the reference to a type has done. -/
structure Copied (cx : Context) (package : String) (ty : SourceType) (s : ReplicationState) (ref : ReplicaRef)
    (after : ReplicationState) : Prop where
  good : Good cx package after
  step : Extends (Reaches cx.catalog ty) s after
  refers : RefOf cx.catalog package ty ref
  touched : ∀ name, modelOf? cx.catalog ty = some name → name ∈ after.touched

theorem each_copied {types : List SourceType} {s after : ReplicationState} {refs : List ReplicaRef}
    (each : Each (fun ty s ref after => Good cx package s → Copied cx package ty s ref after) types s refs after)
    (good : Good cx package s) :
    Good cx package after ∧ Extends (ReachesAny cx.catalog types) s after ∧
      ∀ part ∈ types.zip refs, RefOf cx.catalog package part.1 part.2 ∧
        ∀ name, modelOf? cx.catalog part.1 = some name → name ∈ after.touched := by
  obtain ⟨goodLast, done⟩ := each.thread Copied.good good
  have known := done.forall_after Copied.touched fun made held name leads => made.step.keeps (held name leads)
  refine ⟨goodLast, each_extends (done.imp fun _ _ _ _ => Copied.step), fun part member => ⟨?_, ?_⟩⟩
  · exact done.forall_zip Copied.refers part member
  · exact known part.1 (List.of_mem_zip member).1

variable {ty : SourceType} {d : Descriptor} {s : ReplicationState}

theorem draft_fits (model : Model cx.catalog ty d) :
    Fits cx package ty.name (draft package ty (copyKind d)) d where
  model := model.name_eq ▸ model.bare
  ty := rfl
  converter := rfl
  source := by rw [model.name_eq]; exact model.toTypeRef_name?
  copy := fun _ finished => nomatch finished
  pending := fun _ => rfl

theorem Good.drafted (good : Good cx package s) (model : Model cx.catalog ty d)
    (absent : s.registry.find? ty.name = none) : Good cx package (drafted package ty (copyKind d) s) :=
  good_iff_tidy.mpr ((good_iff_tidy.mp good).drafted absent ⟨d, draft_fits model⟩)

theorem Good.complete (good : Good cx package s) {name : String} {replica : Replica} {deps : List String}
    (copy : ∀ d, d.name = name → cx.catalog.load? name = some d → Copy cx package d replica deps)
    (touched : ∀ dep ∈ deps, dep ∈ s.touched) :
    Good cx package { s with registry := s.registry.complete name replica deps } := by
  refine good_iff_tidy.mpr ((good_iff_tidy.mp good).complete (fun old known => ?_) touched)
  obtain ⟨d, fits⟩ := good.fits name old known
  refine ⟨d, { fits with copy := ?_, pending := fun absent => nomatch absent }⟩
  intro finished same
  cases same
  exact copy d fits.named fits.loaded

private theorem again_copied (good : Good cx package s) (model : Model cx.catalog ty d)
    (copied : modelKind? (cx.catalog.classify ty) = some (copyKind d)) {entry : Registry.Entry}
    (found : s.registry.find? ty.name = some entry) :
    Copied cx package ty s entry.reference (s.touch ty.name) := by
  have leads := modelOf?_model copied
  obtain ⟨other, fits⟩ := good.fits ty.name entry found
  obtain rfl := fits.of_model model
  refine ⟨good.touch (by simp [found]), (good_iff_tidy.mp good).touch_extends (.here leads) fits_passes,
    fits.refers copied, ?_⟩
  intro name leadsTo
  cases leads.symm.trans leadsTo
  exact mem_touch

private theorem completed_copied (good : Good cx package s) (model : Model cx.catalog ty d)
    (copied : modelKind? (cx.catalog.classify ty) = some (copyKind d)) (absent : s.registry.find? ty.name = none)
    {replica : Replica} {deps : List String} {last : ReplicationState} (goodLast : Good cx package last)
    (step : Extends (Reaches cx.catalog ty) (drafted package ty (copyKind d) s) last)
    (copy : Copy cx package d replica deps) (known : ∀ dep ∈ deps, dep ∈ last.touched) :
    Copied cx package ty s (draft package ty (copyKind d)).reference (completed ty replica deps last) := by
  have leads := modelOf?_model copied
  constructor
  case good =>
    refine goodLast.complete (fun other named loaded => ?_) known
    rw [model.loads] at loaded
    cases loaded
    exact copy
  case step =>
    exact step.completed (good_iff_tidy.mp good) absent ⟨d, draft_fits model⟩ (.here leads) fits_passes goodLast.unique
  case refers =>
    exact .model copied (by rw [model.name_eq]; exact model.toTypeRef_name?)
  case touched =>
    intro name leadsTo
    cases leads.symm.trans leadsTo
    exact step.keeps mem_touch

/-- The copy of a plain class is made from the references of its properties. -/
theorem plain_copy (model : Model cx.catalog ty d) (notEnum : d.isEnum = false) {doc : TypeDoc} {refs : List ReplicaRef}
    {converter : MethodDef} (documented : cx.javadoc d.name = .ok doc) (length : refs.length = d.properties.length)
    (known : ∀ part ∈ (d.properties.map (·.ty)).zip refs, RefOf cx.catalog package part.1 part.2)
    (converts : classConverter d (.generated (replicaName package ty) .class) (d.properties.zip refs) = .ok converter) :
    Copy cx package d (plainReplica package ty d doc refs converter)
      (refs.filterMap (·.conversion.modelName?)) := by
  have name : replicaName package ty = copyName package d.name := by rw [replicaName_eq, model.name_eq]
  have whole : (d.properties.zip refs).map (·.1) = d.properties := List.map_fst_zip (Nat.le_of_eq length.symm)
  have parts : ∀ part ∈ d.properties.zip refs, RefOf cx.catalog package part.1.ty part.2 := by
    intro part member
    refine known (part.1.ty, part.2) ?_
    rw [List.zip_map_left]
    exact List.mem_map_of_mem member
  have names : (d.properties.zip refs).filterMap (·.2.conversion.modelName?) =
      refs.filterMap (·.conversion.modelName?) := by
    conv => rhs; rw [← List.map_snd_zip (Nat.le_of_eq length)]
    rw [List.filterMap_map]
    rfl
  rw [name] at converts
  have copy := Copy.plain notEnum documented whole parts converts
  rw [names] at copy
  unfold plainReplica
  rw [name]
  exact copy

private theorem plain_copied (good : Good cx package s) (model : Model cx.catalog ty d)
    (copied : modelKind? (cx.catalog.classify ty) = some .class) (notEnum : d.isEnum = false)
    (absent : s.registry.find? ty.name = none) {doc : TypeDoc} {refs : List ReplicaRef} {last : ReplicationState}
    {converter : MethodDef} (documented : cx.javadoc d.name = .ok doc)
    (inner : Each (fun ty s ref after => Good cx package s → Copied cx package ty s ref after)
      (d.properties.map (·.ty)) (drafted package ty .class s) refs last)
    (converts : classConverter d (.generated (replicaName package ty) .class) (d.properties.zip refs) = .ok converter) :
    Copied cx package ty s (draft package ty .class).reference
      (completed ty (plainReplica package ty d doc refs converter) (refs.filterMap (·.conversion.modelName?)) last) := by
  have kind : copyKind d = .class := by simp [copyKind, notEnum]
  have leads := modelOf?_model copied
  have length : refs.length = d.properties.length := by simpa using inner.length_eq
  obtain ⟨goodLast, step, known⟩ := each_copied inner (kind ▸ good.drafted model absent)
  have copy := plain_copy model notEnum documented length (fun part member => (known part member).1) converts
  rw [← kind] at copied step ⊢
  refine completed_copied good model copied absent goodLast (step.mono ?_) copy fun dep inside => ?_
  · rintro reached ⟨other, member, within⟩
    obtain ⟨p, inside, rfl⟩ := List.mem_map.mp member
    exact .through leads (model.name_eq ▸ model.loaded) notEnum inside within
  · obtain ⟨ref, member, named⟩ := List.mem_filterMap.mp inside
    have whole : ((d.properties.map (·.ty)).zip refs).map (·.2) = refs :=
      List.map_snd_zip (by simp [length])
    obtain ⟨part, together, rfl⟩ := List.mem_map.mp (whole ▸ member)
    exact (known part together).2 dep (by rw [← (known part together).1.modelName?, named])

theorem copied_sustained (cx : Context) (package : String) :
    Sustained cx package fun ty s ref after => Good cx package s → Copied cx package ty s ref after where
  passthrough plain good := ⟨good, .refl _ _, .passthrough plain, by simp [plain]⟩
  collection {ty element kind s after copy} held copied run good := by
    have leads := modelOf?_collection held copied
    obtain ⟨elementKind, isModel⟩ := isModel_iff.mp copied
    have done := run good
    refine ⟨done.good, done.step.mono fun name => ?_, .collection held copied done.refers, ?_⟩
    · exact .of_leads (by rw [leads, modelOf?_model isModel])
    · exact fun name found => done.touched name (by rw [modelOf?_model isModel, ← leads, found])
  again model copied found good := again_copied good model copied found
  enum {ty d s replica} model copied isEnum absent made good := by
    have kind : copyKind d = .enum := by simp [copyKind, isEnum]
    rw [replicaName_eq, model.name_eq] at made
    rw [← kind] at copied ⊢
    exact completed_copied good model copied absent (good.drafted model absent) (.refl _ _) (.enum isEnum made) (by simp)
  plain model copied notEnum absent documented inner converts good :=
    plain_copied good model copied notEnum absent documented inner converts

theorem replicate_copied {ref : ReplicaRef} {after : ReplicationState} (good : Good cx package s)
    (yields : Yields (cx.replicate package ty) s ref after) : Copied cx package ty s ref after :=
  replicate_post (copied_sustained cx package) yields good

/-- The states that a generation pass gets to by successful copying. Each task starts with nothing touched. -/
inductive Reached (cx : Context) (package : String) : ReplicationState → Prop where
  | fresh : Reached cx package {}
  | again {s : ReplicationState} (before : Reached cx package s) : Reached cx package { s with touched := [] }
  | copy {ty : SourceType} {s after : ReplicationState} {ref : ReplicaRef} (before : Reached cx package s)
      (yields : Yields (cx.replicate package ty) s ref after) : Reached cx package after

theorem Reached.good (reached : Reached cx package s) : Good cx package s := by
  induction reached with
  | fresh => exact good_iff_tidy.mpr .empty
  | again before ih => exact good_iff_tidy.mpr (good_iff_tidy.mp ih).untouched
  | copy before yields ih => exact (replicate_copied ih yields).good

/-- Between calls no copy is in progress. -/
theorem Reached.all_finished (reached : Reached cx package s) :
    ∀ entry ∈ s.registry.entries, entry.2.replica.isSome = true := by
  induction reached with
  | fresh => exact fun entry member => nomatch member
  | again before ih => exact ih
  | copy before yields ih =>
    obtain ⟨new, later, finished⟩ := (replicate_copied before.good yields).step.entries
    rw [later]
    exact List.forall_mem_append.mpr ⟨ih, fun entry member => (finished entry member).1⟩

theorem Reached.finished (reached : Reached cx package s) {name : String} {e : Registry.Entry}
    (found : s.registry.find? name = some e) : ∃ replica, e.replica = some replica :=
  Option.isSome_iff_exists.mp (reached.all_finished _ (mem_of_find? found))

/-- What copying one type for a fresh task has touched: all that the type leads to, and no more. -/
theorem touched_iff {ref : ReplicaRef} {after : ReplicationState} (reached : Reached cx package s)
    (untouched : s.touched = []) (yields : Yields (cx.replicate package ty) s ref after) (name : String) :
    name ∈ after.touched ↔ Reaches cx.catalog ty name := by
  have copied := replicate_copied reached.good yields
  constructor
  · intro member
    rcases copied.step.adds name member with known | leads
    · rw [untouched] at known
      cases known
    · exact leads
  · refine (good_iff_tidy.mp copied.good).mem_of_reaches (fun name e found dep leads => ?_) copied.touched
    obtain ⟨d, fits⟩ := copied.good.fits name e found
    obtain ⟨replica, finished⟩ := (reached.copy yields).finished found
    obtain ⟨other, loaded, leads⟩ := leads
    cases fits.loaded.symm.trans loaded
    exact ((fits.copy replica finished).mem_deps_iff dep).mpr leads

theorem replicate_again {kind : ObjectKind} {e : Registry.Entry} (copied : modelKind? (cx.catalog.classify ty) = some kind)
    (found : s.registry.find? ty.name = some e) :
    Yields (cx.replicate package ty) s e.reference (s.touch ty.name) := by
  have known (kind : ObjectKind) : Yields (modelWithin cx package (cx.catalog.size + 1) ty kind) s e.reference
      (s.touch ty.name) := by
    rw [modelWithin, yields_get_bind]
    simp only [found]
    exact yields_modify_bind.mpr (yields_pure.mpr ⟨rfl, rfl⟩)
  unfold Context.replicate typeWith
  cases sort : cx.catalog.classify ty with
  | enum => exact known .enum
  | plain => exact known .class
  | void | primitive | collection | map | passthrough => simp [sort, modelKind?] at copied

theorem touchAll_iff {kind : ObjectKind} {e : Registry.Entry} (reached : Reached cx package s)
    (copied : modelKind? (cx.catalog.classify ty) = some kind) (found : s.registry.find? ty.name = some e)
    (name : String) : name ∈ s.registry.touchAll [ty.name] [] ↔ Reaches cx.catalog ty name :=
  touched_iff reached.again rfl (@replicate_again _ _ ty { s with touched := [] } kind e copied found) name

end PluginForge.Proofs.ReplicationInvariant
