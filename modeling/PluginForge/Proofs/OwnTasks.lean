import PluginForge.Proofs.OwnCopies

/-! Tasks without regard to what was resolved before them. Whatever registry a task source is resolved with, and in
whatever order, its parameters are those that it has on its own, and the copies it carries are those too, in the order
of the registry. -/

namespace PluginForge.Proofs.OwnTasks
open Replication ModelTypes RegistryEntries Results ReplicationLogic ReplicationRule ReplicationInvariant
open ReplicationStates TouchedModels TaskResolution OwnCopies

/-- The copies of the model types within reach, each once, as they are on their own. -/
structure OwnReplicas (cx : Context) (package : String) (within : String → Prop) (replicas : List Replica) : Prop where
  once : replicas.Nodup
  members : ∀ replica, replica ∈ replicas ↔
    ∃ name d, within name ∧ cx.catalog.load? name = some d ∧ ownCopy cx package d = .ok replica

section Replicas
variable {cx : Context} {package : String} {s after : ReplicationState}

theorem OwnReplicas.perm {within other : String → Prop} {replicas others : List Replica}
    (own : OwnReplicas cx package within replicas) (also : OwnReplicas cx package other others)
    (same : ∀ name, within name ↔ other name) : replicas.Perm others := by
  refine (List.perm_ext_iff_of_nodup own.once also.once).mpr fun replica => ?_
  rw [own.members, also.members]
  simp only [same]

/-- The copies among entries carry the names of their entries. -/
theorem source_names {entries : List (String × Registry.Entry)}
    (named : ∀ entry ∈ entries, ∀ replica, entry.2.replica = some replica → replica.source.name = entry.1) :
    ((entries.filterMap (·.2.replica)).map (·.source.name)).Sublist (entries.map (·.1)) := by
  induction entries with
  | nil => exact .slnil
  | cons entry rest ih =>
    obtain ⟨first, others⟩ := List.forall_mem_cons.mp named
    cases finished : entry.2.replica with
    | none =>
      simp only [List.filterMap_cons, finished, List.map_cons]
      exact (ih others).cons _
    | some replica =>
      simp only [List.filterMap_cons, finished, List.map_cons, first replica finished]
      exact (ih others).cons_cons _

theorem own_replicas (past : Past cx package s) (within : String → Prop) (names : List (String × Registry.Entry))
    (listed : names.Sublist s.registry.entries) (reach : ∀ entry ∈ s.registry.entries, entry ∈ names ↔ within entry.1)
    (present : ∀ name, within name → (s.registry.find? name).isSome = true) :
    OwnReplicas cx package within (names.filterMap (·.2.replica)) := by
  have unique := past.reached.good.unique
  constructor
  · refine List.Nodup.of_map (·.source.name) (List.Nodup.sublist (source_names ?_) (unique.sublist (listed.map _)))
    intro entry member replica finished
    have found := find?_of_mem unique (listed.subset member)
    obtain ⟨other, isOther, _, _, _, source⟩ := ReplicaNames.entry_holds past.reached found
    cases finished.symm.trans isOther
    exact source
  · intro replica
    rw [List.mem_filterMap]
    constructor
    · rintro ⟨entry, member, finished⟩
      have inside := listed.subset member
      have isCopy : s.registry.replica? entry.1 = some replica := by
        rw [Registry.replica?, find?_of_mem unique inside]
        exact finished
      obtain ⟨d, loaded, own⟩ := past.copy isCopy
      exact ⟨entry.1, d, (reach entry inside).mp member, loaded, own⟩
    · rintro ⟨name, d, isWithin, loaded, own⟩
      obtain ⟨e, found⟩ := Option.isSome_iff_exists.mp (present name isWithin)
      obtain ⟨other, finished⟩ := past.reached.finished found
      have isCopy : s.registry.replica? name = some other := by
        rw [Registry.replica?, found]
        exact finished
      obtain ⟨_, loads, made⟩ := past.copy isCopy
      cases loaded.symm.trans loads
      cases own.symm.trans made
      exact ⟨(name, e), (reach _ (mem_of_find? found)).mpr isWithin, finished⟩

theorem reached_tidy (reached : Reached cx package s) : Tidy (Follows cx.catalog) s := by
  induction reached with
  | fresh => exact .empty
  | again _ ih => exact ih.untouched
  | copy _ yields ih => exact (replicate_post (ran_sustained cx package) yields ih).tidy

theorem touches_each {types : List SourceType} {refs : List ReplicaRef} (past : Past cx package s)
    (yields : Yields (types.mapM (cx.replicate package)) s refs after) : Touches cx.catalog types s after :=
  replicateEach_touches (reached_tidy past.reached) past.reached.all_finished yields

end Replicas

section Parameters
variable {cx : Context} {package owner : String} {doc : TypeDoc} {p : Property} {result : Parameter}
  {s after : ReplicationState}

/-- The parameter that a property is on its own. -/
def ownParameter (cx : Context) (package : String) (doc : TypeDoc) (p : Property) : Parameter :=
  Parameter.resolve doc p (ownRef cx.catalog s!"{package}.{TaskPlan.modelPackage}" p.ty)

/-- The type of the property can be copied, and its default fits. -/
structure Suitable (cx : Context) (package owner : String) (doc : TypeDoc) (p : Property) : Prop where
  copyable : Copyable cx p.ty
  default : TaskPlan.checkEnumDefault cx owner (ownParameter cx package doc p) = .ok ()

theorem parameter_yields_iff :
    Yields (TaskPlan.parameter cx package owner doc p) s result after ↔
      ∃ ref, Yields (cx.replicate s!"{package}.{TaskPlan.modelPackage}" p.ty) s ref after ∧
        TaskPlan.checkEnumDefault cx owner (Parameter.resolve doc p ref) = .ok () ∧
        result = Parameter.resolve doc p ref := by
  unfold TaskPlan.parameter
  constructor
  · intro yields
    obtain ⟨ref, middle, made, yields⟩ := yields_bind.mp yields
    obtain ⟨_, last, check, finishes⟩ := yields_bind.mp yields
    obtain ⟨checked, rfl⟩ := yields_lift.mp check
    obtain ⟨rfl, rfl⟩ := yields_pure.mp finishes
    exact ⟨ref, made, checked, rfl⟩
  · rintro ⟨ref, made, checked, rfl⟩
    refine yields_bind.mpr ⟨ref, after, made, yields_bind.mpr ⟨(), after, ?_, yields_pure.mpr ⟨rfl, rfl⟩⟩⟩
    exact yields_lift.mpr ⟨checked, rfl⟩

theorem parameter_own (past : Past cx s!"{package}.{TaskPlan.modelPackage}" s) (bare : Bare cx.catalog p.ty)
    (yields : Yields (TaskPlan.parameter cx package owner doc p) s result after) :
    result = ownParameter cx package doc p ∧ Past cx s!"{package}.{TaskPlan.modelPackage}" after ∧
      Suitable cx package owner doc p := by
  obtain ⟨ref, made, checked, rfl⟩ := parameter_yields_iff.mp yields
  obtain rfl := past.answer bare made
  exact ⟨rfl, past.call bare made, (replicate_succeeds_iff past.reached).mp ⟨_, _, made⟩, checked⟩

theorem parameter_succeeds (past : Past cx s!"{package}.{TaskPlan.modelPackage}" s) (bare : Bare cx.catalog p.ty)
    (suitable : Suitable cx package owner doc p) :
    ∃ result after, Yields (TaskPlan.parameter cx package owner doc p) s result after := by
  obtain ⟨ref, after, made⟩ := (replicate_succeeds_iff past.reached).mpr suitable.copyable
  obtain rfl := past.answer bare made
  exact ⟨_, after, parameter_yields_iff.mpr ⟨_, made, suitable.default, rfl⟩⟩

theorem parameters_own {properties : List Property} {results : List Parameter}
    (past : Past cx s!"{package}.{TaskPlan.modelPackage}" s) (bare : ∀ p ∈ properties, Bare cx.catalog p.ty)
    (yields : Yields (properties.mapM (TaskPlan.parameter cx package owner doc)) s results after) :
    results = properties.map (ownParameter cx package doc) ∧ Past cx s!"{package}.{TaskPlan.modelPackage}" after ∧
      ∀ p ∈ properties, Suitable cx package owner doc p := by
  have each := yields_mapM.mp yields
  clear yields
  induction each with
  | nil => exact ⟨rfl, past, List.forall_mem_nil _⟩
  | cons first rest ih =>
    obtain ⟨here, others⟩ := List.forall_mem_cons.mp bare
    obtain ⟨rfl, middle, suitable⟩ := parameter_own past here first
    obtain ⟨rfl, last, remaining⟩ := ih middle others
    exact ⟨rfl, last, List.forall_mem_cons.mpr ⟨suitable, remaining⟩⟩

/-- Whether the properties can be made parameters of shows in each on its own. -/
theorem parameters_succeed_iff {properties : List Property} (past : Past cx s!"{package}.{TaskPlan.modelPackage}" s)
    (bare : ∀ p ∈ properties, Bare cx.catalog p.ty) :
    (∃ results after, Yields (properties.mapM (TaskPlan.parameter cx package owner doc)) s results after) ↔
      ∀ p ∈ properties, Suitable cx package owner doc p := by
  constructor
  · rintro ⟨results, after, yields⟩
    exact (parameters_own past bare yields).2.2
  · intro suitable
    induction properties generalizing s with
    | nil => exact ⟨[], s, yields_pure.mpr ⟨rfl, rfl⟩⟩
    | cons p rest ih =>
      obtain ⟨here, others⟩ := List.forall_mem_cons.mp bare
      obtain ⟨first, remaining⟩ := List.forall_mem_cons.mp suitable
      obtain ⟨result, middle, made⟩ := parameter_succeeds past here first
      obtain ⟨results, after, more⟩ := ih (parameter_own past here made).2.1 others remaining
      exact ⟨result :: results, after, yields_mapM.mpr (.cons made (yields_mapM.mp more))⟩

/-- The copies that a fresh task carries for some properties. -/
theorem parameters_replicas {properties : List Property} {results : List Parameter} {registry : Registry}
    (past : Past cx s!"{package}.{TaskPlan.modelPackage}" { registry }) (bare : ∀ p ∈ properties, Bare cx.catalog p.ty)
    (yields : Yields (properties.mapM (TaskPlan.parameter cx package owner doc)) { registry } results after) :
    OwnReplicas cx s!"{package}.{TaskPlan.modelPackage}" (ReachesAny cx.catalog (properties.map (·.ty)))
      after.replicas ∧
    ∀ name, (after.registry.find? name).isSome = true ↔ (registry.find? name).isSome = true ∨
      ReachesAny cx.catalog (properties.map (·.ty)) name := by
  obtain ⟨_, later, _⟩ := parameters_own past bare yields
  obtain ⟨refs, made, _⟩ := parameters_yield yields
  have touches := touches_each past made
  have touched := CarriedModels.touched_iff touches
  obtain ⟨new, whole, added⟩ := touches.step.entries
  constructor
  · refine own_replicas later _ _ List.filter_sublist (fun entry member => ?_) fun name within => ?_
    · rw [List.mem_filter, ← touched]
      simp [member]
    · exact touches.tidy.present name ((touched name).mpr within)
  · intro name
    constructor
    · intro present
      obtain ⟨e, found⟩ := Option.isSome_iff_exists.mp present
      rcases List.mem_append.mp (whole ▸ mem_of_find? found) with old | fresh
      · exact .inl (by rw [find?_of_mem past.reached.good.unique old]; rfl)
      · exact .inr ((touched name).mp (added _ fresh).2)
    · rintro (old | within)
      · obtain ⟨e, found⟩ := Option.isSome_iff_exists.mp old
        rw [touches.step.find? found]
        rfl
      · exact touches.tidy.present name ((touched name).mpr within)

end Parameters

section Tasks
variable {cx : Context} {package trigger source : String} {given : Option String} {registry last : Registry}
  {task other : TaskPlan}

/-- The properties of the source mention no model type with type arguments. -/
def BareSource (catalog : Catalog) (source : String) : Prop :=
  ∀ d, catalog.load? source = some d → ∀ p ∈ d.properties, Bare catalog p.ty

/-- The properties of the source lead to the model type. -/
def Within (catalog : Catalog) (source name : String) : Prop :=
  ∃ d, catalog.load? source = some d ∧ ReachesAny catalog (d.properties.map (·.ty)) name

/-- The source can be made a task of. -/
def Plannable (cx : Context) (package source : String) : Prop :=
  ∃ d method doc, cx.catalog.load? source = some d ∧ d.taskMethod = .ok method ∧ cx.javadoc d.name = .ok doc ∧
    ∀ p ∈ d.properties, Suitable cx package d.name doc p

/-- What a task source comes to, with its copies in some order. -/
def OwnTask (cx : Context) (package source : String) (given : Option String) (task : TaskPlan) : Prop :=
  ∃ d method doc, cx.catalog.load? source = some d ∧ d.taskMethod = .ok method ∧ cx.javadoc d.name = .ok doc ∧
    OwnReplicas cx s!"{package}.{TaskPlan.modelPackage}" (ReachesAny cx.catalog (d.properties.map (·.ty)))
      task.replicas ∧
    task = {
      source := d
      parameters := d.properties.map (ownParameter cx package doc)
      methodName := method.name
      namePrefix := TaskPlan.prefixOr given d
      javadoc := doc
      replicas := task.replicas }

/-- The tasks differ at most in the order of their copies. -/
structure Reordered (task other : TaskPlan) : Prop where
  replicas : task.replicas.Perm other.replicas
  same : task = { other with replicas := task.replicas }

theorem OwnTask.reordered (own : OwnTask cx package source given task) (also : OwnTask cx package source given other) :
    Reordered task other := by
  obtain ⟨d, method, doc, loaded, runs, documented, copies, whole⟩ := own
  obtain ⟨_, _, _, loads, run, document, others, all⟩ := also
  cases loaded.symm.trans loads
  cases runs.symm.trans run
  cases documented.symm.trans document
  refine ⟨copies.perm others fun _ => Iff.rfl, ?_⟩
  rw [all]
  exact whole

theorem resolve_own (past : Past cx s!"{package}.{TaskPlan.modelPackage}" { registry })
    (bare : BareSource cx.catalog source)
    (resolves : TaskPlan.resolve cx trigger package source given registry = .ok (task, last)) :
    OwnTask cx package source given task ∧ Plannable cx package source ∧
      Past cx s!"{package}.{TaskPlan.modelPackage}" { registry := last } ∧
      ∀ name, (last.find? name).isSome = true ↔ (registry.find? name).isSome = true ∨ Within cx.catalog source name := by
  obtain ⟨d, method, doc, parameters, after, loaded, runs, documented, made, rfl, rfl⟩ := resolve_eq_ok_iff.mp resolves
  obtain ⟨rfl, later, suitable⟩ := parameters_own past (bare d loaded) made
  obtain ⟨copies, present⟩ := parameters_replicas past (bare d loaded) made
  refine ⟨⟨d, method, doc, loaded, runs, documented, copies, rfl⟩, ⟨d, method, doc, loaded, runs, documented, suitable⟩,
    later.task, fun name => ?_⟩
  rw [present name]
  refine or_congr_right ⟨fun within => ⟨d, loaded, within⟩, ?_⟩
  rintro ⟨_, loads, within⟩
  cases loaded.symm.trans loads
  exact within

theorem resolve_succeeds_iff (trigger : String) (given : Option String)
    (past : Past cx s!"{package}.{TaskPlan.modelPackage}" { registry }) (bare : BareSource cx.catalog source) :
    (∃ task last, TaskPlan.resolve cx trigger package source given registry = .ok (task, last)) ↔
      Plannable cx package source := by
  constructor
  · rintro ⟨task, last, resolves⟩
    exact (resolve_own past bare resolves).2.1
  · rintro ⟨d, method, doc, loaded, runs, documented, suitable⟩
    obtain ⟨parameters, after, made⟩ := (parameters_succeed_iff past (bare d loaded)).mpr suitable
    exact ⟨_, _, resolve_eq_ok_iff.mpr ⟨d, method, doc, parameters, after, loaded, runs, documented, made, rfl, rfl⟩⟩

end Tasks

/-- How what a trigger asks for is made of tasks. -/
structure Adapter (cx : Context) (trigger : Descriptor) (ρ α : Type) where
  resolve : ρ → Registry → Except GenerateError (α × Registry)
  source : ρ → String
  given : ρ → Option String
  build : ρ → TaskPlan → α
  made (r : ρ) (registry : Registry) : resolve r registry = do
    let (task, last) ← TaskPlan.resolve cx trigger.name trigger.packageName (source r) (given r) registry
    return (build r task, last)

section Triggers
variable {cx : Context} {trigger : Descriptor} {ρ α : Type} {registry last : Registry}

def gradle (cx : Context) (trigger : Descriptor) : Adapter cx trigger GradleTaskRequest GradleTask where
  resolve := GradlePlan.resolveTask cx trigger
  source := (·.source)
  given := (·.namePrefix)
  build r task := {
    task
    extensionMethodName := r.extensionMethodName.getD task.methodName
    taskDoc := task.javadoc.summary.getD s!"{task.namePrefix} Gradle task."
    methodDoc := task.methodDoc?.getD s!"Main execution of {task.namePrefix} task."
    cacheable := r.cacheable }
  made _ _ := rfl

def maven (cx : Context) (trigger : Descriptor) : Adapter cx trigger MojoRequest MojoPlan where
  resolve := MavenPlan.resolveMojo cx trigger
  source := (·.source)
  given := (·.namePrefix)
  build r task := {
    task
    packageName := trigger.packageName
    micronautPlugin := r.micronautPlugin
    propertyPrefix := r.mavenPropertyPrefix
    taskDoc := task.javadoc.summary.getD s!"{task.namePrefix} Maven mojo."
    methodDoc := task.methodDoc?.getD s!"Main execution of {task.namePrefix} mojo." }
  made _ _ := rfl

/-- The item is made of the task that its source comes to. -/
def Gives (adapter : Adapter cx trigger ρ α) (r : ρ) (item : α) : Prop :=
  ∃ task, OwnTask cx trigger.packageName (adapter.source r) (adapter.given r) task ∧ item = adapter.build r task

/-- The items are made for the same request, of tasks that differ at most in the order of their copies. -/
def Matches (adapter : Adapter cx trigger ρ α) (item other : α) : Prop :=
  ∃ r task same, Reordered task same ∧ item = adapter.build r task ∧ other = adapter.build r same

variable {adapter : Adapter cx trigger ρ α} {requests others : List ρ} {items : List α}

theorem resolveAll_own (past : Past cx s!"{trigger.packageName}.{TaskPlan.modelPackage}" { registry })
    (bare : ∀ r ∈ requests, BareSource cx.catalog (adapter.source r))
    (resolves : resolveAll adapter.resolve requests registry = .ok (items, last)) :
    List.Forall₂ (Gives adapter) requests items ∧
      (∀ r ∈ requests, Plannable cx trigger.packageName (adapter.source r)) ∧
      Past cx s!"{trigger.packageName}.{TaskPlan.modelPackage}" { registry := last } ∧
      ∀ name, (last.find? name).isSome = true ↔ (registry.find? name).isSome = true ∨
        ∃ r ∈ requests, Within cx.catalog (adapter.source r) name := by
  induction requests generalizing items registry with
  | nil =>
    cases resolves
    exact ⟨.nil, List.forall_mem_nil _, past, fun name => by simp⟩
  | cons r rest ih =>
    obtain ⟨here, remaining⟩ := List.forall_mem_cons.mp bare
    obtain ⟨_, middle, items, made, rests, rfl⟩ := resolveAll_cons_eq_ok_iff.mp resolves
    rw [adapter.made] at made
    obtain ⟨⟨task, _⟩, resolved, finishes⟩ := except_bind.mp made
    cases finishes
    obtain ⟨own, plannable, later, first⟩ := resolve_own past here resolved
    obtain ⟨each, plannables, final, present⟩ := ih later remaining rests
    refine ⟨.cons ⟨task, own, rfl⟩ each, List.forall_mem_cons.mpr ⟨plannable, plannables⟩, final, fun name => ?_⟩
    rw [present name, first name, or_assoc]
    simp

theorem resolveAll_succeeds_iff (past : Past cx s!"{trigger.packageName}.{TaskPlan.modelPackage}" { registry })
    (bare : ∀ r ∈ requests, BareSource cx.catalog (adapter.source r)) :
    (∃ items last, resolveAll adapter.resolve requests registry = .ok (items, last)) ↔
      ∀ r ∈ requests, Plannable cx trigger.packageName (adapter.source r) := by
  constructor
  · rintro ⟨items, last, resolves⟩
    exact (resolveAll_own past bare resolves).2.1
  · intro plannable
    induction requests generalizing registry with
    | nil => exact ⟨[], registry, rfl⟩
    | cons r rest ih =>
      obtain ⟨here, remaining⟩ := List.forall_mem_cons.mp bare
      obtain ⟨first, others⟩ := List.forall_mem_cons.mp plannable
      obtain ⟨task, middle, resolved⟩ := (resolve_succeeds_iff trigger.name (adapter.given r) past here).mpr first
      obtain ⟨items, last, rests⟩ := ih (resolve_own past here resolved).2.2.1 remaining others
      have made : adapter.resolve r registry = .ok (adapter.build r task, middle) := by
        rw [adapter.made]
        exact except_bind.mpr ⟨_, resolved, rfl⟩
      exact ⟨_, last, resolveAll_cons_eq_ok_iff.mpr ⟨_, middle, items, made, rests, rfl⟩⟩

end Triggers

end PluginForge.Proofs.OwnTasks
