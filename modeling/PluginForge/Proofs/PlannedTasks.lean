import PluginForge.Proofs.CallClosure

/-! What a resolved trigger is made of, whichever build tool it is for: the sources of its tasks are those it asks
for, their parameters stand for the properties of the source in order, and the copies are those of the model types
within the reach of some task, each under the name of its type. -/

namespace PluginForge.Proofs.PlannedTasks
open ModelTypes RegistryEntries Results ReplicationRule ReplicationInvariant TaskResolution CarriedModels
open CallClosure

/-- Where the copies of a trigger go. -/
def modelPackageOf (trigger : Descriptor) : String := s!"{trigger.packageName}.{TaskPlan.modelPackage}"

/-- The task sources that a trigger asks a build tool for. -/
def sources (tool : BuildTool) (trigger : Descriptor) : List String :=
  match tool with
  | .gradle => (trigger.gradlePlugin.toList.flatMap (·.tasks)).map (·.source)
  | .maven => trigger.mavenMojos.map (·.source)

/-- The parameters of a task are its properties with what generated code uses for their types. -/
def Resolves (cx : Context) (package : String) (task : TaskPlan) : Prop :=
  ∃ parts : List (Property × ReplicaRef), parts.map (·.1) = task.source.properties ∧
    task.parameters = parts.map (fun part => Parameter.resolve task.javadoc part.1 part.2) ∧
    ∀ part ∈ parts, RefOf cx.catalog package part.1.ty part.2

/-- The copy of a model type within the reach of a list of types. -/
structure CopyOf (cx : Context) (package : String) (types : List SourceType) (replica : Replica) (d : Descriptor) :
    Prop where
  model : Model cx.catalog (.named d.name [] 0) d
  copy : ∃ deps, Copy cx package d replica deps
  reached : ReachesAny cx.catalog types d.name

/-- The tasks of a trigger and the copies it makes for them. -/
structure Planned {α : Type} (cx : Context) (package : String) (task : α → TaskPlan) (items : List α)
    (replicas : List Replica) : Prop where
  loaded : ∀ item ∈ items, cx.catalog.load? (task item).source.name = some (task item).source
  resolves : ∀ item ∈ items, Resolves cx package (task item)
  carried : ∀ item ∈ items, ∀ replica, replica ∈ (task item).replicas ↔
    replica ∈ replicas ∧ ∃ d, CopyOf cx package (parameterTypes (task item)) replica d
  copies : ∀ replica ∈ replicas, ∃ item ∈ items, ∃ d, CopyOf cx package (parameterTypes (task item)) replica d
  complete : ∀ item ∈ items, ∀ name, ReachesAny cx.catalog (parameterTypes (task item)) name →
    ∃ replica ∈ replicas, ∃ d, d.name = name ∧ CopyOf cx package (parameterTypes (task item)) replica d

theorem Resolves.names {cx : Context} {package : String} {task : TaskPlan} (resolves : Resolves cx package task) :
    task.parameters.map (·.name) = task.source.properties.map (·.name) := by
  obtain ⟨parts, whole, parameters, _⟩ := resolves
  rw [parameters, ← whole, List.map_map, List.map_map]
  rfl

/-- A parameter with a default is not required. -/
theorem Resolves.required_bare {cx : Context} {package : String} {task : TaskPlan} (resolves : Resolves cx package task) :
    ∀ p ∈ task.parameters, p.required = true → p.defaultValue = none := by
  obtain ⟨parts, _, parameters, _⟩ := resolves
  rw [parameters]
  refine List.forall_mem_map.mpr fun part _ required => ?_
  exact Option.isNone_iff_eq_none.mp (Bool.and_eq_true_iff.mp required).2

theorem CopyOf.source_name {cx : Context} {package : String} {types : List SourceType} {replica : Replica}
    {d : Descriptor} (is : CopyOf cx package types replica d) : replica.source.name = d.name := by
  obtain ⟨_, copy⟩ := is.copy
  rw [(ReplicaNames.copy_names copy).2.2.2, is.model.sourceType_name]
  rfl

section Resolution
variable {cx : Context} {package : String} {registry last : Registry}

theorem resolved_resolves {task : TaskPlan} (before : BuiltIn cx s!"{package}.{TaskPlan.modelPackage}" registry)
    (resolved : Resolved cx package task registry last) : Resolves cx s!"{package}.{TaskPlan.modelPackage}" task := by
  obtain ⟨refs, after, yields, length, parameters, _⟩ := resolved.run
  have whole : (task.source.properties.zip refs).map (·.1) = task.source.properties :=
    List.map_fst_zip (Nat.le_of_eq length.symm)
  exact ⟨_, whole, parameters, parts_copied before.reached.good yields⟩

/-- The registry that a chain of tasks leaves, and the tasks on the way. -/
theorem chain_resolves {α : Type} {task : α → TaskPlan} {items : List α}
    (before : BuiltIn cx s!"{package}.{TaskPlan.modelPackage}" registry)
    (chain : Chain (fun item => Resolved cx package (task item)) items registry last) :
    BuiltIn cx s!"{package}.{TaskPlan.modelPackage}" last ∧ ∀ item ∈ items,
      cx.catalog.load? (task item).source.name = some (task item).source ∧
        Resolves cx s!"{package}.{TaskPlan.modelPackage}" (task item) := by
  induction chain with
  | nil => exact ⟨before, by simp⟩
  | cons first rest ih =>
    obtain ⟨builtLast, others⟩ := ih (resolved_equipped before first).1
    exact ⟨builtLast, List.forall_mem_cons.mpr ⟨⟨first.loaded, resolved_resolves before first⟩, others⟩⟩

/-- Every copy of a registry is that of the type it is kept under. -/
theorem replica_copy (built : BuiltIn cx package registry) {replica : Replica} (member : replica ∈ registry.replicas) :
    ∃ d deps, Model cx.catalog (.named d.name [] 0) d ∧ Copy cx package d replica deps := by
  obtain ⟨⟨name, e⟩, inside, finished⟩ := List.mem_filterMap.mp member
  obtain ⟨d, fits⟩ := built.reached.good.fits name e (find?_of_mem built.reached.good.unique inside)
  exact ⟨d, e.deps, fits.named ▸ fits.model, fits.copy replica finished⟩

theorem chain_present {α : Type} {task : α → TaskPlan} {items : List α} (built : Built cx.catalog registry)
    (chain : Chain (fun item => Resolved cx package (task item)) items registry last) :
    ∀ item ∈ items, ∀ name, ReachesAny cx.catalog (parameterTypes (task item)) name →
      (last.find? name).isSome = true := by
  induction chain with
  | nil => simp
  | cons first rest ih =>
    have carries := resolved_carries built first
    obtain ⟨_, ⟨new, later⟩, _⟩ := chain_carries carries.built rest
    refine List.forall_mem_cons.mpr ⟨fun name within => ?_, ih carries.built⟩
    have present : (List.lookup name _).isSome = true := carries.present name within
    rw [Registry.find?, later, List.lookup_append, Option.isSome_or, present, Bool.true_or]

theorem chain_planned {α : Type} {task : α → TaskPlan} {items : List α}
    (chain : Chain (fun item => Resolved cx package (task item)) items {} last) :
    Planned cx s!"{package}.{TaskPlan.modelPackage}" task items last.replicas := by
  obtain ⟨built, resolved⟩ := chain_resolves ⟨.none, .fresh⟩ chain
  have shared := chain_shared chain
  obtain ⟨_, _, carried, _⟩ := chain_carries .none chain
  have known : ∀ item ∈ items, ∀ replica ∈ (task item).replicas,
      ∃ d, CopyOf cx s!"{package}.{TaskPlan.modelPackage}" (parameterTypes (task item)) replica d := by
    intro item member replica inside
    have whole := (shared.carried item member).subset inside
    obtain ⟨d, deps, model, copy⟩ := replica_copy built whole
    have reached := (shared.exactly item member replica whole).mp inside
    have source : replica.source.name = d.name := by
      rw [(ReplicaNames.copy_names copy).2.2.2, model.sourceType_name]
      rfl
    exact ⟨d, model, ⟨deps, copy⟩, source ▸ reached⟩
  refine ⟨fun item member => (resolved item member).1, fun item member => (resolved item member).2, ?_, ?_, ?_⟩
  · intro item member replica
    constructor
    · exact fun inside => ⟨(shared.carried item member).subset inside, known item member replica inside⟩
    · rintro ⟨whole, d, is⟩
      exact (shared.exactly item member replica whole).mpr (is.source_name ▸ is.reached)
  · intro replica member
    obtain ⟨item, given, inside⟩ := (shared.together replica).mp member
    exact ⟨item, given, known item given replica inside⟩
  · intro item member name within
    obtain ⟨e, found⟩ := Option.isSome_iff_exists.mp (chain_present .none chain item member name within)
    obtain ⟨replica, finished⟩ := built.reached.finished found
    obtain ⟨d, fits⟩ := built.reached.good.fits name e found
    exact ⟨replica, List.mem_filterMap.mpr ⟨_, mem_of_find? found, finished⟩, d, fits.named, fits.named ▸ fits.model,
      ⟨_, fits.copy replica finished⟩, fits.named ▸ within⟩

end Resolution

section Triggers
variable {cx : Context} {trigger : Descriptor}

theorem mem_of_resolveAll {ρ α : Type} {resolve : ρ → Registry → Except GenerateError (α × Registry)}
    {requests : List ρ} {items : List α} {registry last : Registry}
    (resolves : resolveAll resolve requests registry = .ok (items, last)) {item : α} (member : item ∈ items) :
    ∃ request ∈ requests, ∃ before after, resolve request before = .ok (item, after) := by
  induction requests generalizing items registry with
  | nil =>
    cases resolves
    cases member
  | cons request rest ih =>
    obtain ⟨_, _, _, made, remaining, rfl⟩ := resolveAll_cons_eq_ok_iff.mp resolves
    rcases List.mem_cons.mp member with rfl | member
    · exact ⟨request, List.mem_cons_self .., _, _, made⟩
    · obtain ⟨other, inside, run⟩ := ih remaining member
      exact ⟨other, List.mem_cons_of_mem _ inside, run⟩

theorem resolve_source {owner package source : String} {given : Option String} {registry last : Registry}
    {task : TaskPlan} (resolves : TaskPlan.resolve cx owner package source given registry = .ok (task, last)) :
    task.source.name = source := by
  obtain ⟨d, _, _, _, _, loaded, _, _, _, _, rfl⟩ := resolve_eq_ok_iff.mp resolves
  exact name_of_load? loaded

/-- What a Gradle plugin's plan says of the plugin itself, and the requests that its tasks are resolved for. -/
theorem gradle_requested {plan : GradlePlan} (planned : GradlePlan.ofTrigger cx trigger = .ok plan) :
    ∃ request, trigger.gradlePlugin = some request ∧ plan.packageName = trigger.packageName ∧
      plan.namePrefix = TaskPlan.prefixOr request.namePrefix trigger ∧
      ∀ t ∈ plan.tasks, ∃ r ∈ request.tasks, ∃ registry last,
        TaskPlan.resolve cx trigger.name trigger.packageName r.source r.namePrefix registry = .ok (t.task, last) := by
  obtain ⟨request, requested, tasks, last, resolved, rfl⟩ := gradle_plan_iff.mp planned
  refine ⟨request, requested, rfl, rfl, fun t member => ?_⟩
  obtain ⟨r, asked, _, _, made⟩ := mem_of_resolveAll resolved member
  obtain ⟨⟨task, _⟩, task_made, finishes⟩ := except_bind.mp made
  cases finishes
  exact ⟨r, asked, _, _, task_made⟩

theorem gradle_planned {plan : GradlePlan} (planned : GradlePlan.ofTrigger cx trigger = .ok plan) :
    Planned cx (modelPackageOf trigger) (fun t : GradleTask => t.task) plan.tasks plan.replicas ∧
      plan.packageName = trigger.packageName ∧ ∀ t ∈ plan.tasks, t.task.source.name ∈ sources .gradle trigger := by
  obtain ⟨last, chain, same⟩ := gradle_resolved planned
  obtain ⟨request, requested, package, _, made⟩ := gradle_requested planned
  refine ⟨same ▸ chain_planned chain, package, fun t member => ?_⟩
  obtain ⟨r, asked, _, _, task_made⟩ := made t member
  rw [resolve_source task_made]
  simpa [sources, requested] using ⟨r, asked, rfl⟩

theorem maven_requested {plan : MavenPlan} (planned : MavenPlan.ofTrigger cx trigger = .ok plan) :
    ∀ m ∈ plan.mojos, m.packageName = trigger.packageName ∧ ∃ r ∈ trigger.mavenMojos, ∃ registry last,
      TaskPlan.resolve cx trigger.name trigger.packageName r.source r.namePrefix registry = .ok (m.task, last) := by
  obtain ⟨_, mojos, last, resolved, rfl⟩ := maven_plan_iff.mp planned
  intro m member
  obtain ⟨r, asked, _, _, made⟩ := mem_of_resolveAll resolved member
  obtain ⟨⟨task, _⟩, task_made, finishes⟩ := except_bind.mp made
  cases finishes
  exact ⟨rfl, r, asked, _, _, task_made⟩

theorem maven_planned {plan : MavenPlan} (planned : MavenPlan.ofTrigger cx trigger = .ok plan) :
    Planned cx (modelPackageOf trigger) (fun m : MojoPlan => m.task) plan.mojos plan.replicas ∧
      ∀ m ∈ plan.mojos, m.task.source.name ∈ sources .maven trigger := by
  obtain ⟨last, chain, same⟩ := maven_resolved planned
  refine ⟨same ▸ chain_planned chain, fun m member => ?_⟩
  obtain ⟨_, r, asked, _, _, task_made⟩ := maven_requested planned m member
  rw [resolve_source task_made]
  exact List.mem_map_of_mem asked

end Triggers

end PluginForge.Proofs.PlannedTasks
