import PluginForge.Proofs.ConstructedCode
import PluginForge.Proofs.ModelTypes
import PluginForge.Session

/-! The types that the builders put together, taken apart again: what methods a copy has, and what a task, an
extension or a mojo that was built consists of. So are the definitions that a trigger asks for. -/

namespace PluginForge.Proofs.BuiltTypes
open Replication Results ModelTypes CodeParts

/-- A copy of a plain class has withers and constructors only. -/
theorem copyClass_methods {d : Descriptor} {doc : TypeDoc} {name : String} {properties : List PropertyDef} {m : MethodDef}
    (member : m ∈ (copyClass d doc name properties).methods) :
    (∃ i, ∃ within : i < properties.length,
      m = wither properties (doc.element? properties[i].name) i properties[i]) ∨
    m = ClassDef.settingConstructor { name, properties } [.pub] ∨ m = ClassDef.emptyConstructor [] [.pub] := by
  have apart : m ∈ withers doc properties ∨ m = ClassDef.settingConstructor { name, properties } [.pub] ∨
      m = ClassDef.emptyConstructor [] [.pub] := by
    unfold copyClass at member
    split at member
    · exact (List.mem_append.mp member).imp_right fun last => .inl (List.mem_singleton.mp last)
    · rcases List.mem_append.mp member with member | member
      · exact (List.mem_append.mp member).imp_right fun last => .inl (List.mem_singleton.mp last)
      · exact .inr (.inr (List.mem_singleton.mp member))
  refine apart.imp_left fun member => ?_
  obtain ⟨i, within, same⟩ := List.mem_mapIdx.mp member
  exact ⟨i, within, same.symm⟩

/-- Beside its methods a copy of a plain class has just the properties. -/
theorem copyClass_members (d : Descriptor) (doc : TypeDoc) (name : String) (properties : List PropertyDef) :
    (copyClass d doc name properties).properties = properties ∧ (copyClass d doc name properties).fields = [] ∧
      (copyClass d doc name properties).superclass = none ∧ (copyClass d doc name properties).annotations = [] ∧
      (copyClass d doc name properties).superinterfaces = [.class "java.io.Serializable"] := by
  unfold copyClass
  split <;> exact ⟨rfl, rfl, rfl, rfl, rfl⟩

/-- What holds of the look at the value, of the properties turned back and of the construction holds throughout the
converter of a class. -/
theorem classConverter_allBody {P : Expr → Prop} {d : Descriptor} {copy : TypeRef} {parts : List (Property × ReplicaRef)}
    {converter : MethodDef} (made : classConverter d copy parts = .ok converter)
    (asks : AllExprs P (valueParameter copy).toParam.isNull) (null : P .null) (held : ∀ v : Variable, P v.toLocal)
    (converts : ∀ part, ∀ s ∈ (convertProperty copy part).1, AllCode P s)
    (constructs : ∀ target statements,
      d.construct "result" (parts.map fun part => (part.1.name, (convertProperty copy part).2)) = .ok (target, statements) →
        ∀ s ∈ statements, AllCode P s) : AllBody P converter := by
  obtain ⟨⟨result, construction⟩, constructed, finishes⟩ := except_bind.mp made
  cases finishes
  refine .of_body rfl ((allCode_ifElse ..).mpr ⟨asks, ?_, (allCode_block _).mpr ?_⟩)
  · exact (allCode_ret _).mpr ((allExprs_literal _).mpr null)
  · have converted := List.forall_mem_flatMap.mpr fun part (_ : part ∈ parts) => converts part
    refine List.forall_mem_append.mpr ⟨List.forall_mem_append.mpr ⟨converted, constructs _ _ constructed⟩, ?_⟩
    exact List.forall_mem_singleton.mpr ((allCode_ret _).mpr ((allExprs_localVar _).mpr (held _)))

section Tasks
open Gradle

variable {package : String} {t : GradleTask} {o : ObjectDef}

/-- The types nested in a task: the work action with its parameters, and the configurators of both. -/
theorem task_nested (made : taskDefinition package t = .ok o) :
    ∃ work statements, workActionClass t = .ok work ∧
      t.task.parameters.mapM (passProperty t (taskType package t.task.namePrefix)
        ⟨"params", nestedType t workActionParameters⟩) = .ok statements ∧
      o.inner = [work, workParametersInterface t,
        configurator t (taskType package t.task.namePrefix) parameterConfigurator
          ⟨"params", nestedType t workActionParameters⟩ (.block statements),
        classpathConfiguratorClass t (taskType package t.task.namePrefix)] := by
  obtain ⟨work, worked, made⟩ := except_bind.mp made
  obtain ⟨configures, configured, finishes⟩ := except_bind.mp made
  obtain ⟨statements, passed, same⟩ := except_bind.mp configured
  cases same
  cases finishes
  exact ⟨work, statements, worked, passed, rfl⟩

/-- The methods of a task: a getter for each parameter, those of its class path and of what runs its work, and its
action. -/
theorem task_methods (made : taskDefinition package t = .ok o) :
    ∃ classpath executor, o.methods = t.task.parameters.map taskGetter ++ [classpath, executor, taskAction t] ∧
      (classpath.name = "getClasspath" ∧ classpath.isAbstract = true ∧ classpath.returns = fileCollection) ∧
      executor.name = "getWorkerExecutor" := by
  obtain ⟨_, _, made⟩ := except_bind.mp made
  obtain ⟨_, _, finishes⟩ := except_bind.mp made
  cases finishes
  exact ⟨_, _, rfl, ⟨rfl, rfl, rfl⟩, rfl⟩

theorem workAction_superinterface {work : ObjectDef} (made : workActionClass t = .ok work) :
    ∃ body, work = .class body [] ∧ body.superinterfaces =
      [.parameterized "org.gradle.workers.WorkAction" [nestedType t workActionParameters]] := by
  obtain ⟨execute, _, finishes⟩ := except_bind.mp made
  cases finishes
  exact ⟨_, rfl, rfl⟩

/-- The action of the work gets at the parameters, converts each and runs the task with what it is converted to. -/
theorem workActionExecute_built {execute : MethodDef} (made : workActionExecute t = .ok execute) :
    ∃ run, t.task.source.runTask t.task.methodName (t.task.parameters.map fun p => (p.name,
        (p.conversion.convert (p.name ++ "Param") (workValue ⟨"parameters", nestedType t workActionParameters⟩ p)).2)) =
          .ok run ∧ execute = {
      name := "execute"
      modifiers := [.pub]
      overrides := true
      body := some (.block
        (.define ⟨"parameters", nestedType t workActionParameters⟩
            (Expr.this.invoke "getParameters" (nestedType t workActionParameters) []) ::
          (t.task.parameters.flatMap fun p => (p.conversion.convert (p.name ++ "Param")
            (workValue ⟨"parameters", nestedType t workActionParameters⟩ p)).1) ++ [run])) } := by
  unfold workActionExecute at made
  dsimp only at made
  rw [List.map_map, List.flatMap_map] at made
  obtain ⟨run, ran, finishes⟩ := except_bind.mp made
  cases finishes
  exact ⟨run, ran, rfl⟩

end Tasks

section Mojos

/-- Unless it is disabled, a mojo converts its parameters and runs the task with what they are converted to. -/
theorem executeMethod_built {m : MojoPlan} {execute : MethodDef} (made : m.executeMethod = .ok execute) :
    ∃ run, m.task.source.runTask m.task.methodName (m.task.parameters.map fun p => (p.name,
        (p.conversion.convert (p.name ++ "Param") (MojoPlan.parameterValue p)).2)) = .ok run ∧ execute = {
      name := "execute"
      modifiers := [.pub]
      javadoc := some m.methodDoc
      overrides := true
      body := some (.ifElse (.not (Expr.this.invoke "isEnabled" .boolean []))
        (.expr ((Expr.this.invoke "getLog" (.class "org.apache.maven.plugin.logging.Log") []).invoke "debug" .void
          [.string s!"{m.mojo} is disabled"]))
        (.block ((m.task.parameters.flatMap fun p =>
          (p.conversion.convert (p.name ++ "Param") (MojoPlan.parameterValue p)).1) ++ [run]))) } := by
  unfold MojoPlan.executeMethod MojoPlan.runStatement at made
  dsimp only at made
  rw [List.map_map, List.flatMap_map] at made
  obtain ⟨statement, stated, finishes⟩ := except_bind.mp made
  obtain ⟨run, ran, rest⟩ := except_bind.mp stated
  cases finishes
  cases rest
  exact ⟨run, ran, rfl⟩

end Mojos

section Extensions
open Gradle

variable {plan : GradlePlan} {o : ObjectDef}

/-- The implementation of an extension: a constructor, three methods for each task, and the configurators. -/
theorem extension_methods (made : defaultExtension plan = .ok o) :
    o.inner = plan.tasks.map (taskConfigurator plan) ∧
    (∀ m ∈ o.methods, m = injectedConstructor ∨ ∃ t ∈ plan.tasks,
      m = extensionMethod plan t ∨ m = createTaskMethod plan t ∨ configureSpecMethod plan t = .ok m) ∧
    ∀ t ∈ plan.tasks, ∃ configureSpec, configureSpecMethod plan t = .ok configureSpec ∧
      ∀ m ∈ [extensionMethod plan t, createTaskMethod plan t, configureSpec], m ∈ o.methods := by
  obtain ⟨methods, built, finishes⟩ := except_bind.mp made
  cases finishes
  refine ⟨rfl, List.forall_mem_cons.mpr ⟨.inl rfl, fun m member => ?_⟩, fun t given => ?_⟩
  · obtain ⟨group, inside, member⟩ := List.mem_flatten.mp member
    obtain ⟨t, given, grouped⟩ := mem_of_mapM built inside
    obtain ⟨configureSpec, configured, finishes⟩ := except_bind.mp grouped
    cases finishes
    simp only [List.mem_cons, List.not_mem_nil, or_false] at member
    refine .inr ⟨t, given, ?_⟩
    rcases member with rfl | rfl | rfl
    · exact .inl rfl
    · exact .inr (.inl rfl)
    · exact .inr (.inr configured)
  · obtain ⟨group, inside, grouped⟩ := made_of_mapM built given
    obtain ⟨configureSpec, configured, finishes⟩ := except_bind.mp grouped
    cases finishes
    exact ⟨configureSpec, configured, fun m member => List.mem_cons_of_mem _ (List.mem_flatten.mpr ⟨_, inside, member⟩)⟩

/-- What the definitions of one kind of source are, and so what has to be shown for all of them. -/
theorem forall_artifact {P : ObjectDef → Prop} {kind : ArtifactKind} {definitions : List ObjectDef}
    (made : plan.artifact kind = .ok definitions)
    (task : kind = .task → ∀ t ∈ plan.tasks, ∀ o, taskDefinition plan.packageName t = .ok o → P o)
    (interface : P (extensionInterface plan)) (implementation : ∀ o, defaultExtension plan = .ok o → P o)
    (specification : ∀ t ∈ plan.tasks, P (specificationDefinition plan.packageName t))
    (plugin : P (pluginDefinition plan)) : ∀ o ∈ definitions, P o := by
  cases kind with
  | task =>
    intro o member
    obtain ⟨t, given, built⟩ := mem_of_mapM made member
    exact task rfl t given o built
  | extension =>
    obtain ⟨o, built, finishes⟩ := except_bind.mp made
    cases finishes
    exact List.forall_mem_cons.mpr ⟨interface, List.forall_mem_singleton.mpr (implementation o built)⟩
  | specification =>
    cases made
    exact List.forall_mem_map.mpr specification
  | plugin =>
    cases made
    exact List.forall_mem_singleton.mpr plugin

end Extensions

section Triggers
variable {cx : Context} {owner : String} {definitions : List ObjectDef}

/-- What a trigger asks of Gradle: copies, and sources of the kinds that its plugin is built of. -/
theorem gradle_built {supported : List ArtifactKind} (made : cx.gradleDefinitions supported owner = .ok definitions) :
    ∃ trigger plan artifacts, cx.catalog.load? owner = some trigger ∧ GradlePlan.ofTrigger cx trigger = .ok plan ∧
      definitions = plan.replicas.map (·.definition) ++ artifacts ∧
      ∀ o ∈ artifacts, ∃ kind group, plan.artifact kind = .ok group ∧ o ∈ group := by
  obtain ⟨trigger, loaded, made⟩ := except_bind.mp made
  obtain ⟨plan, planned, made⟩ := except_bind.mp made
  obtain ⟨groups, built, finishes⟩ := except_bind.mp made
  cases finishes
  refine ⟨trigger, plan, groups.flatten, load_eq_ok_iff.mp loaded, planned, rfl, fun o member => ?_⟩
  obtain ⟨group, inside, member⟩ := List.mem_flatten.mp member
  obtain ⟨kind, _, made⟩ := mem_of_mapM built inside
  split at made
  · exact ⟨kind, group, made, member⟩
  · cases made

/-- Whatever is built for a kind of source that the plan names is among the definitions. -/
theorem gradle_asked {trigger : Descriptor} {plan : GradlePlan} {supported : List ArtifactKind} {kind : ArtifactKind}
    (made : cx.gradleDefinitions supported owner = .ok definitions) (loaded : cx.catalog.load? owner = some trigger)
    (planned : GradlePlan.ofTrigger cx trigger = .ok plan) (asked : kind ∈ plan.kinds) :
    ∃ group, plan.artifact kind = .ok group ∧ group ⊆ definitions := by
  obtain ⟨_, same, made⟩ := except_bind.mp made
  cases loaded.symm.trans (load_eq_ok_iff.mp same)
  obtain ⟨_, same, made⟩ := except_bind.mp made
  cases planned.symm.trans same
  obtain ⟨groups, built, finishes⟩ := except_bind.mp made
  cases finishes
  obtain ⟨group, member, made⟩ := made_of_mapM built asked
  refine ⟨group, ?_, fun o inside => List.mem_append_right _ (List.mem_flatten_of_mem member inside)⟩
  split at made
  next => exact made
  next => cases made

/-- What a trigger asks of Maven: copies and mojos. -/
theorem maven_built (made : cx.mavenDefinitions owner = .ok definitions) :
    ∃ trigger plan mojos, cx.catalog.load? owner = some trigger ∧ MavenPlan.ofTrigger cx trigger = .ok plan ∧
      definitions = plan.replicas.map (·.definition) ++ mojos ∧ ∀ o ∈ mojos, ∃ m ∈ plan.mojos, m.definition = .ok o := by
  obtain ⟨trigger, loaded, made⟩ := except_bind.mp made
  obtain ⟨plan, planned, made⟩ := except_bind.mp made
  obtain ⟨mojos, built, finishes⟩ := except_bind.mp made
  cases finishes
  exact ⟨trigger, plan, mojos, load_eq_ok_iff.mp loaded, planned, rfl, fun o member => mem_of_mapM built member⟩

end Triggers

end PluginForge.Proofs.BuiltTypes
