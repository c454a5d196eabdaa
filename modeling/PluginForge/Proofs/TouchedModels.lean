import PluginForge.Proofs.ReplicationStates
import PluginForge.Proofs.Results

/-! The model types that a task touches. Whatever package earlier copies were put into, what is touched for a task
is what its types reach: a copy that is there already passes its dependencies on, and one that is made has those
of its properties. -/

namespace PluginForge.Proofs.TouchedModels
open Replication ModelTypes RegistryEntries Results ReplicationLogic ReplicationRule ReplicationStates

/-- The dependencies of an entry are the model types that the properties lead to, all of them once it is finished. -/
structure Follows (catalog : Catalog) (name : String) (e : Registry.Entry) : Prop where
  leads : ∀ dep ∈ e.deps, Leads catalog name dep
  whole : e.replica.isSome = true → ∀ dep, Leads catalog name dep → dep ∈ e.deps
  source : e.source.name? = some name
  copies : ∀ replica, e.replica = some replica → replica.source.name = name

/-- What a step that yields the reference to a type has done, up to the names of copies. -/
structure Ran (catalog : Catalog) (ty : SourceType) (s : ReplicationState) (ref : ReplicaRef)
    (after : ReplicationState) : Prop where
  tidy : Tidy (Follows catalog) after
  step : Extends (Reaches catalog ty) s after
  refers : ref.conversion.modelName? = modelOf? catalog ty
  touched : ∀ name, modelOf? catalog ty = some name → name ∈ after.touched

theorem follows_passes {catalog : Catalog} {ty : SourceType} (name : String) (e : Registry.Entry)
    (follows : Follows catalog name e) (reached : Reaches catalog ty name) (dep : String) (inside : dep ∈ e.deps) :
    Reaches catalog ty dep := reached.next (follows.leads dep inside)

theorem each_ran {catalog : Catalog} {types : List SourceType} {s after : ReplicationState} {refs : List ReplicaRef}
    (each : Each (fun ty s ref after => Tidy (Follows catalog) s → Ran catalog ty s ref after) types s refs after)
    (tidy : Tidy (Follows catalog) s) :
    Tidy (Follows catalog) after ∧ Extends (ReachesAny catalog types) s after ∧
      refs.map (·.conversion.modelName?) = types.map (modelOf? catalog) ∧
      ∀ ty ∈ types, ∀ name, modelOf? catalog ty = some name → name ∈ after.touched := by
  obtain ⟨tidyLast, done⟩ := each.thread Ran.tidy tidy
  refine ⟨tidyLast, each_extends (done.imp fun _ _ _ _ => Ran.step), done.map_eq Ran.refers, ?_⟩
  exact done.forall_after Ran.touched fun made held name leads => made.step.keeps (held name leads)

variable {cx : Context} {package : String} {ty : SourceType} {d : Descriptor} {s last : ReplicationState}

private theorem draft_follows (model : Model cx.catalog ty d) (kind : ObjectKind) :
    Follows cx.catalog ty.name (draft package ty kind) where
  leads := fun _ inside => nomatch inside
  whole := fun finished => nomatch finished
  source := by rw [model.name_eq]; exact model.toTypeRef_name?
  copies := fun _ finished => nomatch finished

theorem leads_iff (model : Model cx.catalog ty d) (dep : String) :
    Leads cx.catalog ty.name dep ↔
      d.isEnum = false ∧ ∃ p ∈ d.properties, modelOf? cx.catalog p.ty = some dep := by
  simp [Leads, model.loads]

/-- The dependencies of the copy of a plain class are what its properties lead to. -/
theorem mem_deps_iff (model : Model cx.catalog ty d) (notEnum : d.isEnum = false) {refs : List ReplicaRef}
    (refers : refs.map (·.conversion.modelName?) = (d.properties.map (·.ty)).map (modelOf? cx.catalog)) (dep : String) :
    dep ∈ refs.filterMap (·.conversion.modelName?) ↔ Leads cx.catalog ty.name dep := by
  have split : refs.filterMap (·.conversion.modelName?) = (refs.map (·.conversion.modelName?)).filterMap id := by
    rw [List.filterMap_map]
    rfl
  rw [split, refers, leads_iff model]
  simp [notEnum]

private theorem completed_ran {kind : ObjectKind} (tidy : Tidy (Follows cx.catalog) s) (model : Model cx.catalog ty d)
    (copied : modelKind? (cx.catalog.classify ty) = some kind) (absent : s.registry.find? ty.name = none)
    {replica : Replica} {deps : List String} (tidyLast : Tidy (Follows cx.catalog) last)
    (step : Extends (Reaches cx.catalog ty) (drafted package ty kind s) last)
    (made : replica.source = d.sourceType) (whole : ∀ dep, dep ∈ deps ↔ Leads cx.catalog ty.name dep)
    (known : ∀ dep ∈ deps, dep ∈ last.touched) :
    Ran cx.catalog ty s (draft package ty kind).reference (completed ty replica deps last) := by
  have leads := modelOf?_model copied
  have source : ty.toTypeRef.name? = some ty.name := by rw [model.name_eq]; exact model.toTypeRef_name?
  constructor
  case tidy =>
    refine tidyLast.complete (fun old found => ⟨?_, ?_, (tidyLast.facts _ _ found).source, ?_⟩) known
    · exact fun dep inside => (whole dep).mp inside
    · exact fun _ dep leads => (whole dep).mpr leads
    · intro finished same
      cases same
      rw [made, model.sourceType_name]
  case step => exact step.completed tidy absent (draft_follows model kind) (.here leads) follows_passes tidyLast.unique
  case refers => rw [leads]; exact source
  case touched =>
    intro name leadsTo
    cases leads.symm.trans leadsTo
    exact step.keeps mem_touch

theorem ran_sustained (cx : Context) (package : String) :
    Sustained cx package fun ty s ref after => Tidy (Follows cx.catalog) s → Ran cx.catalog ty s ref after where
  passthrough plain tidy := ⟨tidy, .refl _ _, by rw [plain]; rfl, by simp [plain]⟩
  collection {ty element kind s after copy} held copied run tidy := by
    have leads := modelOf?_collection held copied
    obtain ⟨elementKind, isModel⟩ := isModel_iff.mp copied
    obtain ⟨d, model, _⟩ := model_of_classify isModel
    have inner := modelOf?_model isModel
    have done := run tidy
    refine ⟨done.tidy, done.step.mono fun name => .of_leads (leads.trans inner.symm), ?_, ?_⟩
    · rw [leads, model.name_eq]
      exact model.toTypeRef_name?
    · exact fun name found => done.touched name (inner.trans (leads.symm.trans found))
  again {ty d s entry} model copied found tidy := by
    have leads := modelOf?_model copied
    refine ⟨tidy.touch (by simp [found]), tidy.touch_extends (.here leads) follows_passes, ?_, ?_⟩
    · rw [leads]
      exact (tidy.facts _ _ found).source
    · intro name leadsTo
      cases leads.symm.trans leadsTo
      exact mem_touch
  enum {ty d s replica} model copied isEnum absent made tidy := by
    have none (dep : String) : dep ∈ ([] : List String) ↔ Leads cx.catalog ty.name dep := by
      simp [leads_iff model, isEnum]
    have source : replica.source = d.sourceType := by
      obtain ⟨doc, _, rest⟩ := except_bind.mp made
      cases rest
      rfl
    exact completed_ran tidy model copied absent (tidy.drafted absent (draft_follows model .enum)) (.refl _ _) source
      none (by simp)
  plain {ty d s last doc refs converter} model copied notEnum absent documented inner converts tidy := by
    obtain ⟨tidyLast, step, names, known⟩ := each_ran inner (tidy.drafted absent (draft_follows model .class))
    have whole := mem_deps_iff model notEnum names
    refine completed_ran tidy model copied absent tidyLast (step.mono ?_) rfl whole fun dep inside => ?_
    · rintro reached ⟨other, member, within⟩
      obtain ⟨p, inside, rfl⟩ := List.mem_map.mp member
      exact .through (modelOf?_model copied) (model.name_eq ▸ model.loaded) notEnum inside within
    · obtain ⟨_, p, member, leads⟩ := (leads_iff model dep).mp ((whole dep).mp inside)
      exact known p.ty (List.mem_map_of_mem member) dep leads

/-- No copy is in progress. -/
def Finished (r : Registry) : Prop := ∀ entry ∈ r.entries, entry.2.replica.isSome = true

/-- What a run over types for one task comes to. -/
structure Touches (catalog : Catalog) (types : List SourceType) (s after : ReplicationState) : Prop where
  tidy : Tidy (Follows catalog) after
  finished : Finished after.registry
  step : Extends (ReachesAny catalog types) s after
  touched_iff : ∀ name, name ∈ after.touched ↔ name ∈ s.touched ∨ ReachesAny catalog types name

theorem replicateEach_touches {types : List SourceType} {refs : List ReplicaRef} {after : ReplicationState}
    (tidy : Tidy (Follows cx.catalog) s) (finished : Finished s.registry)
    (yields : Yields (types.mapM (cx.replicate package)) s refs after) : Touches cx.catalog types s after := by
  obtain ⟨tidyLast, step, _, known⟩ := each_ran (replicateEach_post (ran_sustained cx package) yields) tidy
  have finishedLast : Finished after.registry := by
    obtain ⟨new, later, done⟩ := step.entries
    rw [Finished, later]
    exact List.forall_mem_append.mpr ⟨finished, fun entry member => (done entry member).1⟩
  refine ⟨tidyLast, finishedLast, step, fun name => ⟨step.adds name, ?_⟩⟩
  rintro (old | ⟨ty, member, reached⟩)
  · exact step.keeps old
  · refine tidyLast.mem_of_reaches (fun name e found dep leads => ?_) (known ty member) reached
    exact (tidyLast.facts name e found).whole (finishedLast _ (mem_of_find? found)) dep leads

end PluginForge.Proofs.TouchedModels
