import PluginForge.Gradle.Artifact
import PluginForge.Proofs.CarriedModels
import PluginForge.Proofs.ConverterCalls

/-! Generated task code is closed under conversion calls. A task carries the converters of what its parameters
reach, its execute method calls those of what they lead to, and a converter calls those of what the properties of
its type lead to. -/

namespace PluginForge.Proofs.CallClosure
open ModelTypes RegistryEntries Results ReplicationLogic ReplicationRule ReplicationInvariant ReplicationStates
open TouchedModels TaskResolution CarriedModels ConverterCalls BuiltTypes

/-- The converters that are called, directly or through other converters, from a method named execute. -/
inductive Called (methods : List MethodDef) : Callee → Prop where
  | execute {m : MethodDef} {callee : Callee} (member : m ∈ methods) (entry : m.name = "execute")
      (calls : callee ∈ methodCalls m) : Called methods callee
  | through {m : MethodDef} {callee : Callee} (before : Called methods (methodCallee m)) (member : m ∈ methods)
      (converts : IsConverter m.name) (calls : callee ∈ methodCalls m) : Called methods callee

/-- Every converter that a method calls is declared, and every one that is declared is called. -/
structure ClosedCalls (methods : List MethodDef) : Prop where
  declared : ∀ m ∈ methods, ∀ callee ∈ methodCalls m, ∃ converter ∈ methods, methodCallee converter = callee
  called : ∀ m ∈ methods, IsConverter m.name → Called methods (methodCallee m)

/-- The converter of a model type: it calls those of the types that its properties lead to. -/
structure Converts (catalog : Catalog) (name : String) (m : MethodDef) : Prop where
  callee : methodCallee m = calleeOf name
  calls : ∀ callee, callee ∈ methodCalls m ↔ ∃ dep, Leads catalog name dep ∧ callee = calleeOf dep

theorem Converts.isConverter {catalog : Catalog} {name : String} {m : MethodDef} (converts : Converts catalog name m) :
    IsConverter m.name := by
  have named : m.name = converterOf name := congrArg Callee.method converts.callee
  rw [named]
  exact isConverter_converterOf name

/-- A task whose parameters lead where the properties of its source do and that carries the converters of just
the model types within their reach. -/
structure Equipped (catalog : Catalog) (task : TaskPlan) : Prop where
  named : ∀ p ∈ task.parameters, Named p.conversion
  leads : ∀ name, name ∈ task.parameters.filterMap (·.conversion.modelName?) ↔
    ∃ ty ∈ parameterTypes task, modelOf? catalog ty = some name
  carries : ∀ name, ReachesAny catalog (parameterTypes task) name → ∃ m ∈ task.converters, Converts catalog name m
  only : ∀ m ∈ task.converters, ∃ name, ReachesAny catalog (parameterTypes task) name ∧ Converts catalog name m

/-- The methods of a class that runs a task: beside its converters one that executes it, and none that calls any. -/
structure Executes (task : TaskPlan) (methods : List MethodDef) : Prop where
  converters : ∀ m ∈ task.converters, m ∈ methods
  execute : ∃ m ∈ methods, m.name = "execute" ∧
    methodCalls m = (task.parameters.filterMap (·.conversion.modelName?)).map calleeOf
  others : ∀ m ∈ methods, m ∈ task.converters ∨ ¬ IsConverter m.name ∧
    (methodCalls m = (task.parameters.filterMap (·.conversion.modelName?)).map calleeOf ∨ methodCalls m = [])

section Closure
variable {catalog : Catalog} {task : TaskPlan} {methods : List MethodDef}

theorem reached_declared (equipped : Equipped catalog task) (executes : Executes task methods) {name : String}
    (within : ReachesAny catalog (parameterTypes task) name) : ∃ m ∈ methods, Converts catalog name m := by
  obtain ⟨m, member, converts⟩ := equipped.carries name within
  exact ⟨m, executes.converters m member, converts⟩

/-- Along the reach of the parameters each converter is called by the one before it. -/
theorem reached_called (equipped : Equipped catalog task) (executes : Executes task methods) {ty : SourceType}
    (member : ty ∈ parameterTypes task) {name : String} (reached : Reaches catalog ty name) :
    Called methods (calleeOf name) := by
  induction reached with
  | here leads =>
    obtain ⟨m, inside, entry, calls⟩ := executes.execute
    refine .execute inside entry ?_
    rw [calls]
    exact List.mem_map_of_mem ((equipped.leads _).mpr ⟨ty, member, leads⟩)
  | property before loaded notEnum inside leads ih =>
    obtain ⟨m, declared, converts⟩ := reached_declared equipped executes ⟨ty, member, before⟩
    refine .through (converts.callee ▸ ih) declared converts.isConverter ?_
    exact (converts.calls _).mpr ⟨_, ⟨_, loaded, notEnum, _, inside, leads⟩, rfl⟩

theorem closedCalls (equipped : Equipped catalog task) (executes : Executes task methods) : ClosedCalls methods := by
  constructor
  case declared =>
    intro m member callee inside
    have declared {name : String} (within : ReachesAny catalog (parameterTypes task) name) :
        ∃ converter ∈ methods, methodCallee converter = calleeOf name := by
      obtain ⟨converter, known, converts⟩ := reached_declared equipped executes within
      exact ⟨converter, known, converts.callee⟩
    rcases executes.others m member with converter | ⟨_, calls | none⟩
    · obtain ⟨name, ⟨ty, given, reached⟩, converts⟩ := equipped.only m converter
      obtain ⟨dep, leads, rfl⟩ := (converts.calls callee).mp inside
      exact declared ⟨ty, given, reached.next leads⟩
    · rw [calls] at inside
      obtain ⟨name, known, rfl⟩ := List.mem_map.mp inside
      obtain ⟨ty, given, leads⟩ := (equipped.leads name).mp known
      exact declared ⟨ty, given, .here leads⟩
    · rw [none] at inside
      cases inside
  case called =>
    intro m member isConverter
    rcases executes.others m member with converter | ⟨other, _⟩
    · obtain ⟨name, ⟨ty, given, reached⟩, converts⟩ := equipped.only m converter
      rw [converts.callee]
      exact reached_called equipped executes given reached
    · exact absurd isConverter other

end Closure

section Resolution
variable {cx : Context} {package : String} {registry last : Registry}

theorem reached_each {types : List SourceType} {s after : ReplicationState} {refs : List ReplicaRef}
    (reached : Reached cx package s) (each : Each (fun ty => Yields (cx.replicate package ty)) types s refs after) :
    Reached cx package after := by
  induction each with
  | nil => exact reached
  | cons first rest ih => exact ih (reached.copy first)

theorem entry_converts {s : ReplicationState} (reached : Reached cx package s) {name : String} {e : Registry.Entry}
    {replica : Replica} (found : s.registry.find? name = some e) (finished : e.replica = some replica) :
    Converts cx.catalog name replica.converter := by
  obtain ⟨d, fits⟩ := reached.good.fits name e found
  have copy := fits.copy replica finished
  obtain ⟨callee, calls⟩ := copy_calls fits.model copy
  refine ⟨by rw [callee, fits.named], fun callee => ?_⟩
  rw [calls, List.mem_map]
  simp only [copy.mem_deps_iff, Leads, fits.loaded, Option.some.injEq, exists_eq_left', and_assoc, eq_comm]

/-- A registry that was built by copying into one package. -/
structure BuiltIn (cx : Context) (package : String) (registry : Registry) : Prop where
  built : Built cx.catalog registry
  reached : Reached cx package { registry }

theorem parts_copied {properties : List Property} {refs : List ReplicaRef} {s after : ReplicationState}
    (good : Good cx package s) (yields : Yields ((properties.map (·.ty)).mapM (cx.replicate package)) s refs after) :
    ∀ part ∈ properties.zip refs, RefOf cx.catalog package part.1.ty part.2 := by
  obtain ⟨_, _, known⟩ := each_copied (replicateEach_post (copied_sustained cx package) yields) good
  intro part member
  refine (known (part.1.ty, part.2) ?_).1
  rw [List.zip_map_left]
  exact List.mem_map_of_mem member

/-- The parameters lead where the types of the properties do. -/
theorem parameters_lead {properties : List Property} {refs : List ReplicaRef} (doc : TypeDoc)
    (length : refs.length = properties.length)
    (parts : ∀ part ∈ properties.zip refs, RefOf cx.catalog package part.1.ty part.2) (name : String) :
    name ∈ ((properties.zip refs).map fun part => Parameter.resolve doc part.1 part.2).filterMap
        (·.conversion.modelName?) ↔
      ∃ ty ∈ properties.map (·.ty), modelOf? cx.catalog ty = some name := by
  rw [List.filterMap_map, List.mem_filterMap]
  constructor
  · rintro ⟨part, inside, leads⟩
    refine ⟨part.1.ty, List.mem_map_of_mem (List.of_mem_zip inside).1, ?_⟩
    rw [← (parts part inside).modelName?]
    exact leads
  · rintro ⟨ty, member, leads⟩
    have whole : (properties.zip refs).map (·.1) = properties := List.map_fst_zip (Nat.le_of_eq length.symm)
    obtain ⟨p, given, rfl⟩ := List.mem_map.mp member
    obtain ⟨part, inside, rfl⟩ := List.mem_map.mp (whole ▸ given)
    exact ⟨part, inside, (parts part inside).modelName?.trans leads⟩

theorem mem_converters {s : ReplicationState} (good : Good cx package s) (m : MethodDef) :
    m ∈ s.replicas.map (·.converter) ↔ ∃ name e replica, s.registry.find? name = some e ∧ name ∈ s.touched ∧
      e.replica = some replica ∧ replica.converter = m := by
  rw [List.mem_map]
  simp only [ReplicationState.replicas, mem_replicasOf good.unique]
  constructor
  · rintro ⟨replica, ⟨name, e, found, touched, finished⟩, rfl⟩
    exact ⟨name, e, replica, found, touched, finished, rfl⟩
  · rintro ⟨name, e, replica, found, touched, finished, rfl⟩
    exact ⟨replica, ⟨name, e, found, touched, finished⟩, rfl⟩

theorem resolved_equipped {task : TaskPlan}
    (before : BuiltIn cx s!"{package}.{TaskPlan.modelPackage}" registry)
    (resolved : Resolved cx package task registry last) :
    BuiltIn cx s!"{package}.{TaskPlan.modelPackage}" last ∧ Equipped cx.catalog task := by
  obtain ⟨refs, after, yields, length, parameters, carried, rfl⟩ := resolved.run
  have touches := before.built.touches yields
  have reached := reached_each before.reached (yields_mapM.mp yields)
  have parts := parts_copied before.reached.good yields
  have touched := touched_iff touches
  refine ⟨⟨before.built.task rfl yields, reached.again⟩, ?_⟩
  constructor
  case named =>
    intro p member
    obtain ⟨part, inside, rfl⟩ := List.mem_map.mp (parameters ▸ member)
    exact refOf_named (parts part inside)
  case leads =>
    rw [parameters]
    exact parameters_lead task.javadoc length parts
  case carries =>
    intro name within
    obtain ⟨e, found⟩ := Option.isSome_iff_exists.mp (touches.tidy.present name ((touched name).mpr within))
    obtain ⟨replica, finished⟩ := reached.finished found
    refine ⟨replica.converter, ?_, entry_converts reached found finished⟩
    rw [TaskPlan.converters, carried]
    exact (mem_converters reached.good _).mpr ⟨name, e, replica, found, (touched name).mpr within, finished, rfl⟩
  case only =>
    intro m member
    rw [TaskPlan.converters, carried] at member
    obtain ⟨name, e, replica, found, known, finished, rfl⟩ := (mem_converters reached.good m).mp member
    exact ⟨name, (touched name).mp known, entry_converts reached found finished⟩

theorem chain_equipped {α : Type} {task : α → TaskPlan} {items : List α}
    (before : BuiltIn cx s!"{package}.{TaskPlan.modelPackage}" registry)
    (chain : Chain (fun item => Resolved cx package (task item)) items registry last) :
    ∀ item ∈ items, Equipped cx.catalog (task item) := by
  induction chain with
  | nil => simp
  | cons first rest ih =>
    obtain ⟨middle, equipped⟩ := resolved_equipped before first
    exact List.forall_mem_cons.mpr ⟨equipped, ih middle⟩

end Resolution

section Classes
open Gradle

/-- A class that Gradle runs a task by. -/
def isWorkAction : ObjectDef → Bool
  | .class body _ => body.superinterfaces.any fun ty => ty.name? == some "org.gradle.workers.WorkAction"
  | _ => false

theorem workAction_executes {catalog : Catalog} {t : GradleTask} {work : ObjectDef}
    (equipped : Equipped catalog t.task) (made : workActionClass t = .ok work) : Executes t.task work.methods := by
  obtain ⟨execute, executes, finishes⟩ := except_bind.mp made
  cases finishes
  obtain ⟨named, calls⟩ := workAction_calls equipped.named executes
  have methods (m : MethodDef) : m ∈ t.task.converters ++ [execute] ↔ m ∈ t.task.converters ∨ m = execute := by simp
  refine ⟨?_, ⟨execute, (methods _).mpr (.inr rfl), named, calls⟩, fun m member => ?_⟩
  · exact fun m member => (methods m).mpr (.inl member)
  · rcases (methods m).mp member with converter | rfl
    · exact .inl converter
    · exact .inr ⟨by rw [named]; decide, .inl calls⟩

theorem mojo_executes {catalog : Catalog} {m : MojoPlan} {mojo : ObjectDef} (equipped : Equipped catalog m.task)
    (made : m.definition = .ok mojo) : Executes m.task mojo.methods := by
  obtain ⟨execute, executes, finishes⟩ := except_bind.mp made
  cases finishes
  obtain ⟨named, calls⟩ := mojo_calls equipped.named executes
  let deferred := (m.task.parameters.filter MojoPlan.isDeferred).map MojoPlan.deferredGetter
  have methods (other : MethodDef) :
      other ∈ deferred ++ MojoPlan.isEnabledMethod :: m.task.converters ++ [execute] ↔
        other ∈ m.task.converters ∨ other = execute ∨ other = MojoPlan.isEnabledMethod ∨ other ∈ deferred := by
    simp only [List.mem_append, List.mem_cons, List.not_mem_nil, or_false]
    tauto
  refine ⟨?_, ⟨execute, (methods _).mpr (.inr (.inl rfl)), named, calls⟩, fun other member => ?_⟩
  · exact fun other member => (methods other).mpr (.inl member)
  · rcases (methods other).mp member with converter | rfl | rfl | getter
    · exact .inl converter
    · exact .inr ⟨by rw [named]; decide, .inl calls⟩
    · exact .inr ⟨by decide, .inr rfl⟩
    · obtain ⟨p, _, rfl⟩ := List.mem_map.mp getter
      exact .inr ⟨not_isConverter_getter p.name, .inr rfl⟩

theorem configurator_other (t : GradleTask) (task : TypeRef) (role : String) (target : Variable) (body : Stmt) :
    isWorkAction (configurator t task role target body) = false := rfl

/-- The work action of a task stands among its inner classes, and no other of them is one. -/
theorem task_inner {package : String} {t : GradleTask} {o : ObjectDef} (made : taskDefinition package t = .ok o) :
    ∃ work ∈ o.inner, workActionClass t = .ok work ∧ isWorkAction work = true ∧
      ∀ c ∈ o.inner, isWorkAction c = true → c = work := by
  obtain ⟨work, statements, worked, _, inner⟩ := task_nested made
  have acts : isWorkAction work = true := by
    obtain ⟨body, rfl, superinterfaces⟩ := workAction_superinterface worked
    simp [isWorkAction, superinterfaces, TypeRef.name?]
  rw [inner]
  refine ⟨work, List.mem_cons_self .., worked, acts, ?_⟩
  intro c member isWork
  simp only [List.mem_cons, List.not_mem_nil, or_false] at member
  rcases member with rfl | rfl | rfl | rfl
  · rfl
  · cases isWork
  · rw [configurator_other] at isWork
    cases isWork
  · rw [classpathConfiguratorClass, configurator_other] at isWork
    cases isWork

theorem task_execute {package : String} {t : GradleTask} {o : ObjectDef} (made : taskDefinition package t = .ok o) :
    ∃ work ∈ o.inner, isWorkAction work = true ∧ ∃ execute ∈ work.methods, workActionExecute t = .ok execute := by
  obtain ⟨work, inside, worked, isWork, _⟩ := task_inner made
  obtain ⟨execute, executes, finishes⟩ := except_bind.mp worked
  cases finishes
  exact ⟨_, inside, isWork, execute, List.mem_append_right _ (List.mem_singleton_self execute), executes⟩

/-- The other kinds of Gradle sources have no work actions. -/
theorem artifact_inner {plan : GradlePlan} {kind : ArtifactKind} {definitions : List ObjectDef} (other : kind ≠ .task)
    (made : plan.artifact kind = .ok definitions) : ∀ o ∈ definitions, ∀ c ∈ o.inner, isWorkAction c = false := by
  refine forall_artifact made ?task ?interface ?implementation ?specification ?plugin
  case task => exact fun isTask => absurd isTask other
  case interface => exact List.forall_mem_nil _
  case implementation =>
    intro o built
    rw [(extension_methods built).1]
    exact List.forall_mem_map.mpr fun t _ => rfl
  case specification => exact fun t _ => List.forall_mem_nil _
  case plugin => exact List.forall_mem_nil _

end Classes

theorem gradle_closed {cx : Context} {trigger : Descriptor} {plan : GradlePlan} {kind : ArtifactKind}
    {definitions : List ObjectDef} {o c : ObjectDef} (planned : GradlePlan.ofTrigger cx trigger = .ok plan)
    (built : plan.artifact kind = .ok definitions) (member : o ∈ definitions) (inside : c ∈ o.inner)
    (runs : isWorkAction c = true) : ClosedCalls c.methods := by
  by_cases isTask : kind = .task
  · subst isTask
    obtain ⟨last, chain, _⟩ := gradle_resolved planned
    have equipped := chain_equipped ⟨.none, .fresh⟩ chain
    obtain ⟨t, given, made⟩ := mem_of_mapM built member
    obtain ⟨work, _, worked, _, only⟩ := task_inner made
    cases only c inside runs
    exact closedCalls (equipped t given) (workAction_executes (equipped t given) worked)
  · rw [artifact_inner isTask built _ member _ inside] at runs
    cases runs

theorem maven_closed {cx : Context} {trigger : Descriptor} {plan : MavenPlan} {definitions : List ObjectDef}
    {o : ObjectDef} (planned : MavenPlan.ofTrigger cx trigger = .ok plan) (built : plan.mojoDefinitions = .ok definitions)
    (member : o ∈ definitions) : ClosedCalls o.methods := by
  obtain ⟨last, chain, _⟩ := maven_resolved planned
  have equipped := chain_equipped ⟨.none, .fresh⟩ chain
  obtain ⟨m, given, made⟩ := mem_of_mapM built member
  exact closedCalls (equipped m given) (mojo_executes (equipped m given) made)

/-- In every class that runs a task, the work actions among the inner classes of Gradle sources and all mojos, each
converter that is called is declared, and each that is declared is called from the execute method on. Every Gradle
task has such a work action. -/
theorem conversions_closed (cx : Context) (trigger : Descriptor) :
    (∀ (plan : GradlePlan) (kind : ArtifactKind) (definitions : List ObjectDef),
      GradlePlan.ofTrigger cx trigger = .ok plan → plan.artifact kind = .ok definitions → ∀ o ∈ definitions,
        (kind = .task → ∃ c ∈ o.inner, isWorkAction c = true) ∧
        ∀ c ∈ o.inner, isWorkAction c = true → ClosedCalls c.methods) ∧
    (∀ (plan : MavenPlan) (definitions : List ObjectDef), MavenPlan.ofTrigger cx trigger = .ok plan →
      plan.mojoDefinitions = .ok definitions → ∀ o ∈ definitions, ClosedCalls o.methods) := by
  refine ⟨fun plan kind definitions planned built o member => ⟨?_, ?_⟩, ?_⟩
  · rintro rfl
    obtain ⟨t, _, made⟩ := mem_of_mapM built member
    obtain ⟨work, inside, _, isWork, _⟩ := task_inner made
    exact ⟨work, inside, isWork⟩
  · exact fun c inside runs => gradle_closed planned built member inside runs
  · exact fun plan definitions planned built o member => maven_closed planned built member

/-- What is called for the parameters of the sample task: a class that contains itself, and the element of a list. -/
def sampleCalls : List Callee := [calleeOf "com.acme.Node", calleeOf "com.acme.slow.Mode"]

/-- A method makes the calls of the sample task, and the converters that it calls are there. -/
def MakesSampleCalls (methods : List MethodDef) : Prop :=
  ∃ execute ∈ methods, methodCalls execute = sampleCalls ∧
    ∀ callee ∈ sampleCalls, ∃ converter ∈ methods, methodCallee converter = callee

theorem ClosedCalls.sample {execute : MethodDef} (closed : ClosedCalls methods) (member : execute ∈ methods)
    (calls : methodCalls execute = sampleCalls) : MakesSampleCalls methods :=
  ⟨execute, member, calls, fun callee called => closed.declared execute member callee (calls ▸ called)⟩

/-- The work action and the mojo of a task that uses a class that contains itself beside a list of an enum. -/
theorem builds_closed :
    (∃ plan definitions, GradlePlan.ofTrigger builds plugin = .ok plan ∧ plan.artifact .task = .ok definitions ∧
      ∃ o ∈ definitions, ∃ c ∈ o.inner, isWorkAction c = true ∧ MakesSampleCalls c.methods ∧ ClosedCalls c.methods) ∧
    ∃ plan definitions, MavenPlan.ofTrigger builds plugin = .ok plan ∧ plan.mojoDefinitions = .ok definitions ∧
      ∃ o ∈ definitions, MakesSampleCalls o.methods ∧ ClosedCalls o.methods := by
  obtain ⟨gradle, maven⟩ := conversions_closed builds plugin
  constructor
  · have calls : (GradlePlan.ofTrigger builds plugin).map (fun plan => plan.tasks.map fun t =>
        (Gradle.workActionExecute t).map methodCalls) = .ok [.ok sampleCalls] := by decide +kernel
    obtain ⟨definitions, succeeds⟩ := @ok_of_isOk _ _
      (do let plan ← GradlePlan.ofTrigger builds plugin; plan.artifact .task) (by decide +kernel)
    obtain ⟨plan, planned, built⟩ := except_bind.mp succeeds
    rw [planned] at calls
    obtain ⟨t, single, executes⟩ := List.map_eq_singleton_iff.mp (Except.ok.inj calls)
    obtain ⟨execute, is, calls⟩ := except_map.mp executes
    obtain ⟨o, member, made⟩ := made_of_mapM built (single ▸ List.mem_singleton_self t)
    obtain ⟨work, inside, isWork, _, has, same⟩ := task_execute made
    cases is.symm.trans same
    have closed := (gradle plan .task definitions planned built o member).2 work inside isWork
    exact ⟨plan, definitions, planned, built, o, member, work, inside, isWork, closed.sample has calls, closed⟩
  · have calls : (MavenPlan.ofTrigger builds plugin).map (fun plan => plan.mojos.map fun m =>
        m.executeMethod.map methodCalls) = .ok [.ok sampleCalls] := by decide +kernel
    obtain ⟨definitions, succeeds⟩ := @ok_of_isOk _ _
      (do let plan ← MavenPlan.ofTrigger builds plugin; plan.mojoDefinitions) (by decide +kernel)
    obtain ⟨plan, planned, built⟩ := except_bind.mp succeeds
    rw [planned] at calls
    obtain ⟨m, single, executes⟩ := List.map_eq_singleton_iff.mp (Except.ok.inj calls)
    obtain ⟨execute, is, calls⟩ := except_map.mp executes
    obtain ⟨o, member, made⟩ := made_of_mapM built (single ▸ List.mem_singleton_self m)
    have closed := maven plan definitions planned built o member
    obtain ⟨_, same, finishes⟩ := except_bind.mp made
    cases is.symm.trans same
    cases finishes
    exact ⟨plan, definitions, planned, built, _, member,
      closed.sample (List.mem_append_right _ (List.mem_singleton_self execute)) calls, closed⟩

end PluginForge.Proofs.CallClosure
