import Mathlib.Data.List.Nodup
import PluginForge.Proofs.ScopedDefinitions

/-! Methods that a generated type declares twice. Names that are made from a property, a task or a model begin in their
own way, and the fixed methods beside them are told apart by name or by what they take. Only a task type has fixed
methods that are named like the getter of a property. -/

namespace PluginForge.Proofs.MethodSignatures
open Replication ModelTypes Results ReplicationInvariant CarriedModels TaskResolution PlannedTasks CodeParts
open BuiltTypes SessionWrites ScopedDefinitions

/-- What no two methods of a type may have in common: the name and the types of the parameters. -/
def signature (m : MethodDef) : String × List TypeRef := (m.name, m.parameters.map (·.ty))

def DistinctSignatures (o : ObjectDef) : Prop := (o.methods.map signature).Nodup

theorem nodup_of_names {methods : List MethodDef} (names : (methods.map (·.name)).Nodup) :
    (methods.map signature).Nodup := by
  refine List.Nodup.of_map Prod.fst ?_
  rwa [List.map_map]

theorem nodup_append {methods others : List MethodDef} (first : (methods.map signature).Nodup)
    (second : (others.map signature).Nodup) (apart : ∀ m ∈ methods, ∀ other ∈ others, signature m ≠ signature other) :
    ((methods ++ others).map signature).Nodup := by
  rw [List.map_append, List.nodup_append]
  exact ⟨first, second, List.forall_mem_map.mpr fun m member => List.forall_mem_map.mpr (apart m member)⟩

theorem nodup_snoc {methods : List MethodDef} {last : MethodDef} (first : (methods.map signature).Nodup)
    (apart : ∀ m ∈ methods, signature m ≠ signature last) : ((methods ++ [last]).map signature).Nodup :=
  nodup_append first (List.nodup_singleton _) fun m member => List.forall_mem_singleton.mpr (apart m member)

theorem ne_of_name {m other : MethodDef} (apart : m.name ≠ other.name) : signature m ≠ signature other :=
  fun same => apart (congrArg Prod.fst same)

theorem ne_of_length {m other : MethodDef} (apart : m.parameters.length ≠ other.parameters.length) :
    signature m ≠ signature other := by
  intro same
  have types := congrArg (fun part => part.2.length) same
  simp only [signature, List.length_map] at types
  exact apart types

/-- The methods with a name that take nothing. -/
def bare (o : ObjectDef) (name : String) : List MethodDef :=
  o.methods.filter fun m => m.name == name && m.parameters.isEmpty

theorem bare_once {o : ObjectDef} (distinct : DistinctSignatures o) (name : String) : (bare o name).length ≤ 1 := by
  have kept : ((bare o name).map signature).Nodup := distinct.sublist (List.filter_sublist.map signature)
  have alike : ∀ m ∈ bare o name, signature m = (name, []) := by
    intro m member
    obtain ⟨named, none⟩ : m.name = name ∧ m.parameters = [] := by simpa using (List.mem_filter.mp member).2
    simp [signature, named, none]
  rwa [List.map_congr_left alike, List.map_const', List.nodup_replicate] at kept

section Names

theorem append_ne {start rest name : String} (apart : start.toList.isPrefixOf name.toList = false) :
    start ++ rest ≠ name := by
  rintro rfl
  rw [String.toList_append, List.isPrefixOf_iff_prefix.mpr (List.prefix_append _ _)] at apart
  cases apart

theorem append_injective (start : String) : Function.Injective (start ++ ·) := by
  intro first second same
  have chars := congrArg String.toList same
  simp only [String.toList_append, List.append_right_inj] at chars
  exact String.toList_injective chars

theorem between_injective (start ending : String) : Function.Injective fun name => start ++ name ++ ending := by
  intro first second same
  have chars := congrArg String.toList same
  simp only [String.toList_append, List.append_left_inj, List.append_right_inj] at chars
  exact String.toList_injective chars

/-- The getters of the properties have different names. -/
def DistinctGetters (d : Descriptor) : Prop := (d.properties.map fun p => Naming.getter p.name).Nodup

theorem DistinctGetters.prefixed {d : Descriptor} (distinct : DistinctGetters d) (start : String) :
    (d.properties.map fun p => start ++ Naming.capitalize p.name).Nodup := by
  have names : (d.properties.map fun p => Naming.capitalize p.name).Nodup := by
    refine List.Nodup.of_map ("get" ++ ·) ?_
    rwa [List.map_map]
  have prefixed := names.map (append_injective start)
  rwa [List.map_map] at prefixed

end Names

section Copies
variable {cx : Context} {package : String} {d : Descriptor} {replica : Replica} {deps : List String}

theorem withers_names (doc : TypeDoc) (properties : List PropertyDef) :
    (withers doc properties).map (·.name) = properties.map fun p => "with" ++ Naming.capitalize p.name := by
  refine List.ext_getElem (by simp [withers]) fun i _ _ => ?_
  simp [withers, wither]

theorem withers_apart (doc : TypeDoc) (properties : List PropertyDef) :
    ∀ m ∈ withers doc properties, m.name ≠ MethodDef.constructorName := by
  intro m member
  obtain ⟨i, within, rfl⟩ := List.mem_mapIdx.mp member
  exact append_ne (by decide)

theorem copyClass_distinct (d : Descriptor) (doc : TypeDoc) (name : String) {properties : List PropertyDef}
    (distinct : (properties.map fun p => "with" ++ Naming.capitalize p.name).Nodup) :
    DistinctSignatures (.class (copyClass d doc name properties) []) := by
  have changed : ((withers doc properties).map signature).Nodup := nodup_of_names (withers_names doc properties ▸ distinct)
  have apart := withers_apart doc properties
  have full : ((withers doc properties ++ [ClassDef.settingConstructor { name, properties } [.pub]]).map signature).Nodup :=
    nodup_snoc changed fun m member => ne_of_name (apart m member)
  unfold DistinctSignatures copyClass
  split
  · exact full
  next some =>
    refine nodup_snoc full (List.forall_mem_append.mpr ⟨fun m member => ne_of_name (apart m member), ?_⟩)
    refine List.forall_mem_singleton.mpr (ne_of_length fun same => some ?_)
    simpa [ClassDef.settingConstructor, ClassDef.settable, ClassDef.emptyConstructor] using same

/-- A copy declares no method twice, and its converter takes the value to convert alone. -/
theorem copy_distinct (copy : Copy cx package d replica deps) (distinct : d.isEnum = false → DistinctGetters d) :
    DistinctSignatures replica.definition ∧ replica.definition.inner = [] ∧ replica.converter.parameters.length = 1 := by
  cases copy with
  | enum isEnum made =>
    obtain ⟨doc, _, rest⟩ := except_bind.mp made
    cases rest
    exact ⟨.nil, rfl, rfl⟩
  | @plain doc parts converter notEnum documented whole refs converts =>
    have names := (distinct notEnum).prefixed "with"
    rw [← whole, List.map_map] at names
    have copied : ((copiedProperties doc parts).map fun p => "with" ++ Naming.capitalize p.name).Nodup := by
      rwa [copiedProperties, List.map_map]
    obtain ⟨_, _, finishes⟩ := except_bind.mp converts
    cases finishes
    exact ⟨copyClass_distinct d doc _ copied, rfl, rfl⟩

end Copies

section Tasks
open PluginForge.Gradle

variable {package : String} {t : GradleTask} {o : ObjectDef}

theorem workAction_distinct (converters : (t.task.converters.map (·.name)).Nodup)
    (single : ∀ m ∈ t.task.converters, m.parameters.length = 1) (made : workActionClass t = .ok o) :
    DistinctSignatures o := by
  obtain ⟨execute, executes, finishes⟩ := except_bind.mp made
  cases finishes
  obtain ⟨run, _, rfl⟩ := workActionExecute_built executes
  exact nodup_snoc (nodup_of_names converters) fun m member => ne_of_length (by simp [single m member])

theorem configurator_distinct (t : GradleTask) (task : TypeRef) (role : String) (target : Variable) (body : Stmt) :
    DistinctSignatures (configurator t task role target body) := by
  have names : (configurator t task role target body).methods.map (·.name) = ["<init>", "execute"] := rfl
  exact nodup_of_names (names ▸ by decide)

/-- The fixed methods of a task type that are named like getters. -/
def fixedGetters : List String := ["getClasspath", "getWorkerExecutor"]

theorem task_signatures (made : taskDefinition package t = .ok o) : o.methods.map signature =
    (t.task.parameters.map getterName ++ fixedGetters ++ ["execute"]).map fun name => (name, []) := by
  obtain ⟨_, _, made⟩ := except_bind.mp made
  obtain ⟨_, _, finishes⟩ := except_bind.mp made
  cases finishes
  simp [ObjectDef.methods, fixedGetters, signature, taskGetter, propertyGetter, taskAction]

/-- A task type declares a method twice just where a property has one of the fixed getters. -/
theorem task_distinct_iff (getters : (t.task.parameters.map getterName).Nodup) (made : taskDefinition package t = .ok o) :
    DistinctSignatures o ↔ ∀ p ∈ t.task.parameters, getterName p ∉ fixedGetters := by
  have injective : Function.Injective fun name : String => (name, ([] : List TypeRef)) := fun _ _ => congrArg Prod.fst
  rw [DistinctSignatures, task_signatures made, List.nodup_map_iff injective, List.nodup_append, List.nodup_append]
  constructor
  · rintro ⟨⟨_, _, apart⟩, _⟩ p member fixed
    exact apart _ (List.mem_map_of_mem member) _ fixed rfl
  · intro apart
    refine ⟨⟨getters, by decide, List.forall_mem_map.mpr fun p member name fixed same => ?_⟩, by decide, ?_⟩
    · exact apart p member (same ▸ fixed)
    · refine List.forall_mem_append.mpr ⟨List.forall_mem_map.mpr fun p _ => ?_, by decide⟩
      exact List.forall_mem_singleton.mpr (append_ne (by decide))

/-- Of a task type only the type itself can declare a method twice, and not one of the types nested in it. -/
theorem task_overlaps (getters : (t.task.parameters.map getterName).Nodup)
    (converters : (t.task.converters.map (·.name)).Nodup)
    (single : ∀ m ∈ t.task.converters, m.parameters.length = 1) (made : taskDefinition package t = .ok o) :
    ∀ c, Encloses o c → (¬ DistinctSignatures c → c = o ∧ ∃ p ∈ t.task.parameters, getterName p ∈ fixedGetters) := by
  obtain ⟨work, statements, worked, _, inner⟩ := task_nested made
  refine forall_encloses (fun overlaps => ⟨rfl, ?_⟩) ?_
  · by_contra none
    refine overlaps ((task_distinct_iff getters made).mpr fun p member fixed => none ⟨p, member, fixed⟩)
  · have distinct : ∀ c ∈ o.inner, DistinctSignatures c ∧ c.inner = [] := by
      obtain ⟨_, flat, _⟩ := workAction_superinterface worked
      rw [inner]
      refine List.forall_mem_cons.mpr ⟨⟨workAction_distinct converters single worked, flat ▸ rfl⟩, ?_⟩
      refine List.forall_mem_cons.mpr ⟨⟨nodup_of_names ?_, rfl⟩, ?_⟩
      · simpa [workParametersInterface, ObjectDef.methods, propertyGetter, Function.comp_def] using getters
      · refine List.forall_mem_cons.mpr ⟨⟨configurator_distinct .., rfl⟩, ?_⟩
        exact List.forall_mem_singleton.mpr ⟨configurator_distinct .., rfl⟩
    exact fun c member => ⟨fun overlaps => absurd (distinct c member).1 overlaps, (distinct c member).2⟩

theorem specification_distinct (package : String) (getters : (t.task.parameters.map getterName).Nodup) :
    DistinctSignatures (specificationDefinition package t) := by
  have shown : ((t.task.parameters.filter (!·.internal)).map getterName).Nodup :=
    getters.sublist (List.filter_sublist.map _)
  refine nodup_of_names ?_
  simpa [specificationDefinition, ObjectDef.methods, propertyGetter, Function.comp_def] using shown

end Tasks

section Extensions
open PluginForge.Gradle

variable {plan : GradlePlan} {o : ObjectDef}

structure DistinctTasks (plan : GradlePlan) : Prop where
  prefixes : (plan.tasks.map (·.task.namePrefix)).Nodup
  methods : (plan.tasks.map (·.extensionMethodName)).Nodup

/-- What the implementation of an extension declares for a task. -/
def taskSignatures (plan : GradlePlan) (t : GradleTask) : List (String × List TypeRef) :=
  [(t.extensionMethodName, [.string, specAction (specOf plan t)]),
    (createTaskName t, [.string, .parameterized action [taskOf plan t]]),
    ("configureSpec", [specOf plan t])]

theorem taskMethods_signatures {t : GradleTask} {methods : List MethodDef} (made : taskMethods plan t = .ok methods) :
    methods.map signature = taskSignatures plan t := by
  obtain ⟨configureSpec, configured, finishes⟩ := except_bind.mp made
  cases finishes
  obtain ⟨_, _, finishes⟩ := except_bind.mp configured
  cases finishes
  rfl

theorem flatten_signatures {tasks : List GradleTask} {groups : List (List MethodDef)}
    (made : List.Forall₂ (fun t methods => taskMethods plan t = .ok methods) tasks groups) :
    groups.flatten.map signature = tasks.flatMap (taskSignatures plan) := by
  induction made with
  | nil => rfl
  | cons first _ ih =>
    rw [List.flatten_cons, List.map_append, List.flatMap_cons, taskMethods_signatures first, ih]

theorem taskSignatures_nodup (plan : GradlePlan) (t : GradleTask) : (taskSignatures plan t).Nodup := by
  simp [taskSignatures, specAction, taskOf, taskType]

theorem taskSignatures_disjoint {t other : GradleTask} (prefixes : t.task.namePrefix ≠ other.task.namePrefix)
    (methods : t.extensionMethodName ≠ other.extensionMethodName) :
    List.Disjoint (taskSignatures plan t) (taskSignatures plan other) := by
  have created : createTaskName t ≠ createTaskName other := fun same => prefixes (between_injective "create" "Task" same)
  have specified : specOf plan t ≠ specOf plan other := fun same =>
    prefixes (between_injective (plan.packageName ++ ".") "Specification" (TypeRef.class.inj same))
  simp [taskSignatures, specAction, taskOf, taskType, methods.symm, created.symm, specified.symm]

theorem extension_distinct (distinct : DistinctTasks plan) (made : defaultExtension plan = .ok o) :
    ∀ c, Encloses o c → DistinctSignatures c := by
  obtain ⟨inner, _⟩ := extension_methods made
  obtain ⟨groups, built, finishes⟩ := except_bind.mp made
  cases finishes
  refine forall_encloses ?_ ?_
  · have methods := flatten_signatures (forall₂_of_mapM built)
    refine List.nodup_cons.mpr ⟨?_, ?_⟩
    · rw [methods]
      simp [taskSignatures, signature, injectedConstructor, specAction, specOf, specificationType, project, configuration]
    · rw [methods, List.nodup_flatMap]
      refine ⟨fun t _ => taskSignatures_nodup plan t, ?_⟩
      have apart := (List.pairwise_map.mp distinct.prefixes).and (List.pairwise_map.mp distinct.methods)
      exact apart.imp fun names => taskSignatures_disjoint names.1 names.2
  · rw [inner]
    refine List.forall_mem_map.mpr fun t _ => ⟨?_, rfl⟩
    have names : (taskConfigurator plan t).methods.map (·.name) = ["<init>", "execute"] := rfl
    exact nodup_of_names (names ▸ by decide)

theorem extensionInterface_distinct (distinct : DistinctTasks plan) : DistinctSignatures (extensionInterface plan) := by
  refine nodup_of_names ?_
  simpa [extensionInterface, ObjectDef.methods, Function.comp_def] using distinct.methods

theorem plugin_distinct (plan : GradlePlan) : DistinctSignatures (pluginDefinition plan) := List.nodup_singleton _

end Extensions

section Mojos

variable {m : MojoPlan} {o : ObjectDef}

theorem mojo_methods (made : m.definition = .ok o) : ∃ execute : MethodDef, execute.name = "execute" ∧
    execute.parameters = [] ∧ o.inner = [] ∧
    o.methods = (m.task.parameters.filter MojoPlan.isDeferred).map MojoPlan.deferredGetter ++
      (MojoPlan.isEnabledMethod :: m.task.converters) ++ [execute] := by
  obtain ⟨execute, executes, finishes⟩ := except_bind.mp made
  cases finishes
  obtain ⟨run, _, rfl⟩ := executeMethod_built executes
  exact ⟨_, rfl, rfl, rfl, rfl⟩

theorem mojo_distinct (getters : (m.task.parameters.map fun p => Naming.getter p.name).Nodup)
    (converters : (m.task.converters.map (·.name)).Nodup)
    (single : ∀ c ∈ m.task.converters, c.parameters.length = 1) (made : m.definition = .ok o) :
    ∀ c, Encloses o c → DistinctSignatures c := by
  obtain ⟨execute, named, bare, flat, methods⟩ := mojo_methods made
  refine forall_encloses ?_ (by rw [flat]; exact List.forall_mem_nil _)
  have deferred : (((m.task.parameters.filter MojoPlan.isDeferred).map MojoPlan.deferredGetter).map signature).Nodup := by
    have kept : ((m.task.parameters.filter MojoPlan.isDeferred).map fun p => Naming.getter p.name).Nodup :=
      getters.sublist (List.filter_sublist.map _)
    refine nodup_of_names ?_
    rwa [List.map_map]
  have enabled : ((MojoPlan.isEnabledMethod :: m.task.converters).map signature).Nodup := by
    refine List.nodup_cons.mpr ⟨?_, nodup_of_names converters⟩
    intro member
    obtain ⟨c, inside, same⟩ := List.mem_map.mp member
    exact ne_of_length (by simp [single c inside, MojoPlan.isEnabledMethod]) same
  rw [DistinctSignatures, methods]
  refine nodup_snoc (nodup_append deferred enabled ?_) ?_
  · refine List.forall_mem_map.mpr fun p _ => List.forall_mem_cons.mpr ⟨?_, fun c inside => ?_⟩
    · exact ne_of_name (append_ne (by decide))
    · exact ne_of_length (by simp [single c inside, MojoPlan.deferredGetter])
  · refine List.forall_mem_append.mpr ⟨List.forall_mem_map.mpr fun p _ => ?_, List.forall_mem_cons.mpr ⟨?_, ?_⟩⟩
    · exact ne_of_name (named ▸ append_ne (by decide))
    · exact ne_of_name (named ▸ by decide)
    · exact fun c inside => ne_of_length (by simp [single c inside, bare])

end Mojos

section Triggers
open PluginForge.Gradle

variable {α : Type} {cx : Context} {package : String} {task : α → TaskPlan} {items : List α} {replicas : List Replica}
  {tool : BuildTool} {trigger : Descriptor}

theorem planned_getters (planned : Planned cx package task items replicas)
    (asked : ∀ item ∈ items, (task item).source.name ∈ sources tool trigger)
    (distinct : ∀ d, Concerned cx tool trigger d → DistinctGetters d) :
    ∀ item ∈ items, ((task item).parameters.map fun p => Naming.getter p.name).Nodup := by
  intro item member
  have getters := distinct _ (.task (asked item member) (planned.loaded item member))
  have names := congrArg (List.map Naming.getter) (planned.resolves item member).names
  rw [List.map_map, List.map_map] at names
  exact names ▸ getters

theorem planned_copies_distinct (planned : Planned cx package task items replicas)
    (asked : ∀ item ∈ items, (task item).source.name ∈ sources tool trigger)
    (distinct : ∀ d, Concerned cx tool trigger d → DistinctGetters d) : ∀ replica ∈ replicas,
    (∀ c, Encloses replica.definition c → DistinctSignatures c) ∧ replica.converter.parameters.length = 1 := by
  intro replica member
  obtain ⟨item, given, d, is⟩ := planned.copies replica member
  obtain ⟨deps, copy⟩ := is.copy
  obtain ⟨definition, flat, single⟩ := copy_distinct copy fun notEnum =>
    distinct d (.model (asked item given) (planned.loaded item given) is.reached is.model.loaded notEnum)
  exact ⟨forall_encloses definition (by simp [flat]), single⟩

theorem planned_single (planned : Planned cx package task items replicas)
    (asked : ∀ item ∈ items, (task item).source.name ∈ sources tool trigger)
    (distinct : ∀ d, Concerned cx tool trigger d → DistinctGetters d) :
    ∀ item ∈ items, ∀ m ∈ (task item).converters, m.parameters.length = 1 := by
  intro item given m member
  obtain ⟨replica, carried, rfl⟩ := List.mem_map.mp member
  exact (planned_copies_distinct planned asked distinct replica ((planned.carried item given replica).mp carried).1).2

/-- The converters have different names. -/
def DistinctConverters (replicas : List Replica) : Prop := (replicas.map (·.converter.name)).Nodup

theorem shared_converters (shared : Shared cx.catalog task items replicas) (distinct : DistinctConverters replicas) :
    ∀ item ∈ items, ((task item).converters.map (·.name)).Nodup := by
  intro item member
  rw [TaskPlan.converters, List.map_map]
  exact distinct.sublist ((shared.carried item member).map _)

/-- The tasks of a trigger and the converters of its copies have names of their own. -/
def DistinctParts (cx : Context) (trigger : Descriptor) : BuildTool → Prop
  | .gradle => ∀ plan, GradlePlan.ofTrigger cx trigger = .ok plan → DistinctTasks plan ∧ DistinctConverters plan.replicas
  | .maven => ∀ plan, MavenPlan.ofTrigger cx trigger = .ok plan → DistinctConverters plan.replicas

/-- The definition of a Gradle task with a property whose getter the task type has for itself. -/
def Shadowed (cx : Context) (trigger : Descriptor) (c : ObjectDef) : Prop :=
  ∃ plan t, GradlePlan.ofTrigger cx trigger = .ok plan ∧ t ∈ plan.tasks ∧ taskDefinition plan.packageName t = .ok c ∧
    ∃ p ∈ t.task.parameters, getterName p ∈ fixedGetters

theorem artifact_overlaps {plan : GradlePlan} {kind : ArtifactKind} {definitions : List ObjectDef}
    (planned : GradlePlan.ofTrigger cx trigger = .ok plan) (distinct : DistinctTasks plan)
    (getters : ∀ t ∈ plan.tasks, (t.task.parameters.map getterName).Nodup)
    (converters : ∀ t ∈ plan.tasks, (t.task.converters.map (·.name)).Nodup)
    (single : ∀ t ∈ plan.tasks, ∀ m ∈ t.task.converters, m.parameters.length = 1)
    (made : plan.artifact kind = .ok definitions) :
    ∀ o ∈ definitions, ∀ c, Encloses o c → ¬ DistinctSignatures c → Shadowed cx trigger c := by
  refine forall_artifact made ?task ?interface ?implementation ?specification ?plugin
  case task =>
    intro _ t given o built c encloses overlaps
    obtain ⟨rfl, p, parameter, fixed⟩ :=
      task_overlaps (getters t given) (converters t given) (single t given) built c encloses overlaps
    exact ⟨plan, t, planned, given, built, p, parameter, fixed⟩
  case interface =>
    refine forall_encloses ?_ (List.forall_mem_nil _)
    exact fun overlaps => absurd (extensionInterface_distinct distinct) overlaps
  case implementation =>
    exact fun o built c encloses overlaps => absurd (extension_distinct distinct built c encloses) overlaps
  case specification =>
    refine fun t given => forall_encloses ?_ (List.forall_mem_nil _)
    exact fun overlaps => absurd (specification_distinct _ (getters t given)) overlaps
  case plugin =>
    refine forall_encloses ?_ (List.forall_mem_nil _)
    exact fun overlaps => absurd (plugin_distinct plan) overlaps

theorem gradle_overlaps {supported : List ArtifactKind} {owner : String} {definitions : List ObjectDef}
    (loaded : cx.catalog.load? owner = some trigger) (getters : ∀ d, Concerned cx .gradle trigger d → DistinctGetters d)
    (parts : DistinctParts cx trigger .gradle) (made : cx.gradleDefinitions supported owner = .ok definitions) :
    ∀ o ∈ definitions, ∀ c, Encloses o c → ¬ DistinctSignatures c → Shadowed cx trigger c := by
  obtain ⟨d, plan, artifacts, found, planned, rfl, built⟩ := gradle_built made
  cases loaded.symm.trans found
  obtain ⟨tasks, _, asked⟩ := gradle_planned planned
  obtain ⟨last, chain, same⟩ := gradle_resolved planned
  obtain ⟨distinct, converters⟩ := parts plan planned
  refine List.forall_mem_append.mpr ⟨List.forall_mem_map.mpr fun replica member => ?_, fun o member => ?_⟩
  · exact fun c encloses overlaps =>
      absurd ((planned_copies_distinct tasks asked getters replica member).1 c encloses) overlaps
  · obtain ⟨kind, group, made, inside⟩ := built o member
    exact artifact_overlaps planned distinct (planned_getters tasks asked getters)
      (shared_converters (same ▸ chain_shared chain) converters) (planned_single tasks asked getters) made o inside

theorem maven_distinct {owner : String} {definitions : List ObjectDef} (loaded : cx.catalog.load? owner = some trigger)
    (getters : ∀ d, Concerned cx .maven trigger d → DistinctGetters d) (parts : DistinctParts cx trigger .maven)
    (made : cx.mavenDefinitions owner = .ok definitions) : ∀ o ∈ definitions, ∀ c, Encloses o c → DistinctSignatures c := by
  obtain ⟨d, plan, mojos, found, planned, rfl, built⟩ := maven_built made
  cases loaded.symm.trans found
  obtain ⟨tasks, asked⟩ := maven_planned planned
  obtain ⟨last, chain, same⟩ := maven_resolved planned
  refine List.forall_mem_append.mpr ⟨List.forall_mem_map.mpr fun replica member => ?_, fun o member => ?_⟩
  · exact (planned_copies_distinct tasks asked getters replica member).1
  · obtain ⟨m, given, made⟩ := built o member
    have converters := shared_converters (same ▸ chain_shared chain) (parts plan planned) m given
    exact mojo_distinct (planned_getters tasks asked getters m given) converters
      (planned_single tasks asked getters m given) made

theorem shadowed_overlaps {c : ObjectDef} (getters : ∀ d, Concerned cx .gradle trigger d → DistinctGetters d)
    (shadowed : Shadowed cx trigger c) : ¬ DistinctSignatures c := by
  obtain ⟨plan, t, planned, given, made, p, member, fixed⟩ := shadowed
  obtain ⟨tasks, _, asked⟩ := gradle_planned planned
  exact fun distinct => (task_distinct_iff (planned_getters tasks asked getters t given) made).mp distinct p member fixed

end Triggers

/-- A task with a property that is named like its class path, and one of a class that is copied. -/
def deploy : Descriptor where
  name := "com.acme.Deploy"
  properties := [{ name := "classpath", ty := .ofName "java.lang.String", setter := some "setClasspath" },
    { name := "site", ty := .ofName "com.acme.Site", setter := some "setSite" }]
  methods := [{ name := "run", executable := true }]

def site : Descriptor where
  name := "com.acme.Site"
  properties := [{ name := "url", ty := .ofName "java.lang.String", setter := some "setUrl" }]

def deploying : Descriptor where
  name := "com.acme.Deploying"
  gradlePlugin := some { tasks := [{ source := "com.acme.Deploy" }] }

def deploys : Context where
  catalog := (((∅ : Catalog).add deploy).add site).add deploying
  storedDoc := fun _ => .ok {}

theorem deploys_getters : ∀ d, Concerned deploys .gradle deploying d → DistinctGetters d := by
  have all : ∀ d ∈ deploys.catalog.classes.entries.map (·.2),
      (d.properties.map fun p => Naming.getter p.name).Nodup := by decide +kernel
  exact fun d concerned => all d (concerned_mem concerned)

theorem deploys_parts : DistinctParts deploys deploying .gradle := by
  intro plan planned
  have all : ((GradlePlan.ofTrigger deploys deploying).toOption.all fun plan =>
      decide (plan.tasks.map (·.task.namePrefix)).Nodup && decide (plan.tasks.map (·.extensionMethodName)).Nodup &&
        decide (plan.replicas.map (·.converter.name)).Nodup) = true := by decide +kernel
  simp only [planned, Except.toOption, Option.all_some, Bool.and_eq_true, decide_eq_true_eq] at all
  exact ⟨⟨all.1.1, all.1.2⟩, all.2⟩

/-- With names of their own for getters, tasks and converters, the methods of every type in the definitions that are
built differ in name or parameter types, constructors and nested types included. The one exception are the task types
of Gradle tasks with a property whose getter is named like that of the class path or of the worker executor. -/
theorem overlaps_iff_shadowed {s : Session} {tool : BuildTool} {cx : Context} {owner : String} {trigger : Descriptor}
    {definitions : List ObjectDef} (loaded : cx.catalog.load? owner = some trigger)
    (getters : ∀ d, Concerned cx tool trigger d → DistinctGetters d) (parts : DistinctParts cx trigger tool)
    (built : requested s tool cx owner = .ok definitions) :
    ∀ o ∈ definitions, ∀ c, Encloses o c → (¬ DistinctSignatures c ↔ tool = .gradle ∧ Shadowed cx trigger c) := by
  intro o member c encloses
  cases tool with
  | gradle =>
    refine ⟨fun overlaps => ⟨rfl, gradle_overlaps loaded getters parts built o member c encloses overlaps⟩, ?_⟩
    exact fun ⟨_, shadowed⟩ => shadowed_overlaps getters shadowed
  | maven =>
    refine ⟨fun overlaps => absurd (maven_distinct loaded getters parts built o member c encloses) overlaps, ?_⟩
    exact fun ⟨other, _⟩ => nomatch other

theorem deploys_overlaps_iff : ∃ definitions, requested {} .gradle deploys deploying.name = .ok definitions ∧
    ∀ o ∈ definitions, ∀ c, Encloses o c → (¬ DistinctSignatures c ↔ .gradle = BuildTool.gradle ∧ Shadowed deploys deploying c) := by
  have loaded : deploys.catalog.load? deploying.name = some deploying := by rfl
  obtain ⟨definitions, built⟩ := @ok_of_isOk _ _ (requested {} .gradle deploys deploying.name) (by decide +kernel)
  exact ⟨definitions, built, overlaps_iff_shadowed loaded deploys_getters deploys_parts built⟩

/-- Names of their own for getters, tasks and converters do not keep a task type from declaring a getter twice. -/
theorem getter_repeats : ¬ ∀ (s : Session) (tool : BuildTool) (cx : Context) (owner : String) (trigger : Descriptor)
    (definitions : List ObjectDef), cx.catalog.load? owner = some trigger →
      (∀ d, Concerned cx tool trigger d → DistinctGetters d) → DistinctParts cx trigger tool →
        requested s tool cx owner = .ok definitions → ∀ o ∈ definitions, ∀ c, Encloses o c → DistinctSignatures c := by
  intro distinct
  have loaded : deploys.catalog.load? deploying.name = some deploying := by rfl
  obtain ⟨definitions, built⟩ := @ok_of_isOk _ _ (requested {} .gradle deploys deploying.name) (by decide +kernel)
  have repeats : ((requested {} .gradle deploys deploying.name).toOption.any fun definitions =>
      definitions.any fun o => decide (1 < (bare o "getClasspath").length)) = true := by decide +kernel
  rw [built] at repeats
  simp only [Except.toOption, Option.any_some, List.any_eq_true, decide_eq_true_eq] at repeats
  obtain ⟨o, member, twice⟩ := repeats
  have once := bare_once (distinct {} .gradle deploys deploying.name deploying definitions loaded deploys_getters
    deploys_parts built o member o .self) "getClasspath"
  exact absurd twice (Nat.not_lt.mpr once)

end PluginForge.Proofs.MethodSignatures
