import PluginForge.Proofs.BuiltTypes
import PluginForge.Proofs.EffectiveValues

/-! What the generated configuration code does to the properties of the objects that Gradle makes. -/

namespace PluginForge.Proofs.ConfigurationBodies
open Gradle Results BuiltTypes Evaluation EvaluationRules GradleProperties EffectiveValues

/-- The types that Gradle makes the objects of a task for. -/
def definitions (plan : GradlePlan) (t : GradleTask) (task : ObjectDef) : Role → ObjectDef
  | .specification => specificationDefinition plan.packageName t
  | .task => task
  | .parameters => workParametersInterface t

section Members
variable {plan : GradlePlan} {t : GradleTask} {task : ObjectDef} {platform : Platform} {p : Parameter}

/-- What configuration code of a task runs against. -/
def world (platform : Platform) (plan : GradlePlan) (t : GradleTask) (task : ObjectDef) : World :=
  ⟨platform, definitions plan t task⟩

theorem specification_member (member : p ∈ t.task.parameters) (isPublic : p.internal = false) :
    (world platform plan t task).member? .specification (getterName p) =
      some (platform.refer (.property .specification (getterName p))) := by
  apply member?_property
  · have kept : p ∈ t.task.parameters.filter (!·.internal) := List.mem_filter.mpr ⟨member, by simpa using isPublic⟩
    exact ⟨{ propertyGetter p with javadoc := some p.javadoc }, List.mem_map_of_mem kept, rfl, rfl⟩
  · intro m inside _ _
    obtain ⟨q, _, rfl⟩ := List.mem_map.mp inside
    exact isPropertyType_propertyType q

theorem parameters_member (member : p ∈ t.task.parameters) :
    (world platform plan t task).member? .parameters (getterName p) =
      some (platform.refer (.property .parameters (getterName p))) := by
  apply member?_property
  · exact ⟨propertyGetter p, List.mem_map_of_mem member, rfl, rfl⟩
  · intro m inside _ _
    obtain ⟨q, _, rfl⟩ := List.mem_map.mp inside
    exact isPropertyType_propertyType q

/-- The getters of a task: those of its parameters, that of its class path and that of what runs its work. -/
def taskGetters (t : GradleTask) : List String :=
  t.task.parameters.map getterName ++ ["getClasspath", "getWorkerExecutor"]

theorem getters_apart (distinct : (taskGetters t).Nodup) : (t.task.parameters.map getterName).Nodup ∧
    ∀ p ∈ t.task.parameters, getterName p ≠ "getClasspath" ∧ getterName p ≠ "getWorkerExecutor" := by
  obtain ⟨own, _, apart⟩ := List.nodup_append.mp distinct
  refine ⟨own, fun p member => ⟨?_, ?_⟩⟩
  · exact apart _ (List.mem_map_of_mem member) _ (by simp)
  · exact apart _ (List.mem_map_of_mem member) _ (by simp)

theorem task_member (built : taskDefinition plan.packageName t = .ok task) (distinct : (taskGetters t).Nodup)
    (member : p ∈ t.task.parameters) :
    (world platform plan t task).member? .task (getterName p) =
      some (platform.refer (.property .task (getterName p))) := by
  obtain ⟨_, apart⟩ := getters_apart distinct
  obtain ⟨classpath, executor, methods, ⟨isClasspath, _, _⟩, isExecutor⟩ := task_methods built
  apply member?_property
  · refine ⟨taskGetter p, ?_, rfl, rfl⟩
    change taskGetter p ∈ task.methods
    rw [methods]
    exact List.mem_append_left _ (List.mem_map_of_mem member)
  · intro m inside named isAbstract
    change m ∈ task.methods at inside
    rw [methods] at inside
    rcases List.mem_append.mp inside with getter | other
    · obtain ⟨q, _, rfl⟩ := List.mem_map.mp getter
      exact isPropertyType_propertyType q
    · -- The other methods have a name apart from the parameters' getters, or a body.
      simp only [List.mem_cons, List.not_mem_nil, or_false] at other
      rcases other with rfl | rfl | rfl
      · exact absurd (named.symm.trans isClasspath) (apart p member).1
      · exact absurd (named.symm.trans isExecutor) (apart p member).2
      · cases isAbstract

theorem classpath_member (built : taskDefinition plan.packageName t = .ok task) (distinct : (taskGetters t).Nodup) :
    (world platform plan t task).member? .task "getClasspath" = some (platform.refer (.service .task "getClasspath")) := by
  obtain ⟨_, apart⟩ := getters_apart distinct
  obtain ⟨classpath, executor, methods, ⟨named, isAbstract, returns⟩, _⟩ := task_methods built
  have others : (t.task.parameters.map taskGetter).find? (fun m => m.name == "getClasspath" && m.isAbstract) = none := by
    rw [List.find?_eq_none]
    intro m inside
    obtain ⟨q, member, rfl⟩ := List.mem_map.mp inside
    have different := (apart q member).1
    simpa [taskGetter, propertyGetter] using fun same => absurd same different
  change (task.methods.find? _).map _ = _
  rw [methods, List.find?_append, others, Option.none_or, List.find?_cons_of_pos (by simp [named, isAbstract])]
  rw [Option.map_some, returns]
  rfl

end Members

section Defaults
variable {platform : Platform} {w : World} {depth : Nat} {plan : GradlePlan} {t : GradleTask} {task : ObjectDef}
  {p : Parameter}

theorem eval_constant {e : Expr} {value : Value} (is : constantOf e = some value)
    {call : MethodDef → Value → List Value → Run State Value} {frame : Frame} {locals : Locals} {s : State} :
    Gives (evalExpr (w.library depth) call frame locals e) s value s := by
  unfold constantOf at is
  split at is
  next literal =>
    cases is
    exact eval_literal literal
  next enumName constant _ =>
    cases is
    rw [evalExpr]
    exact gives_pure _ s
  next => cases is

/-- A task that can be built has an expression for every default. -/
theorem default_made (built : taskDefinition plan.packageName t = .ok task) (member : p ∈ t.task.parameters)
    (never : p.required = true → p.defaultValue = none) (has : p.defaultValue.isSome = true) :
    ∃ e, p.defaultExpr t.task.source.name = .ok e := by
  obtain ⟨_, statements, _, passed, _⟩ := task_nested built
  obtain ⟨statement, _, passes⟩ := made_of_mapM passed member
  obtain ⟨value, valued, _⟩ := except_bind.mp passes
  have optional : p.required = false := by
    cases required : p.required with
    | false => rfl
    | true => simp [never required] at has
  simp only [taskValue, optional, has, if_true, Bool.false_eq_true, if_false] at valued
  obtain ⟨e, made, _⟩ := except_bind.mp valued
  exact ⟨e, made⟩

theorem configureSpec_made (built : taskDefinition plan.packageName t = .ok task)
    (never : ∀ p ∈ t.task.parameters, p.required = true → p.defaultValue = none) :
    ∃ m, configureSpecMethod plan t = .ok m := by
  have each : ∀ p ∈ t.task.parameters.filter fun p => !p.internal && p.defaultValue.isSome,
      ∃ statement, conventionDefault t ⟨"spec", specOf plan t⟩ p = .ok statement := by
    intro p member
    obtain ⟨inside, defaulted⟩ := List.mem_filter.mp member
    obtain ⟨e, made⟩ := default_made built inside (never p inside) (by simpa using (Bool.and_eq_true_iff.mp defaulted).2)
    exact ⟨_, except_bind.mpr ⟨e, made, rfl⟩⟩
  obtain ⟨statements, made⟩ := mapM_of_forall each
  exact ⟨_, except_bind.mpr ⟨statements, made, rfl⟩⟩

end Defaults

section Bodies
variable {platform : Platform} {plan : GradlePlan} {t : GradleTask} {task : ObjectDef} {depth budget : Nat} {s : State}
  {choices : List Choice}

theorem configureSpec_gives {m : MethodDef} (made : configureSpecMethod plan t = .ok m) (this : Value) :
    Gives (callMethod ((world platform plan t task).library depth) (budget + 1) m this
      [platform.refer (.object .specification)]) s .null
      ((t.task.parameters.filter fun p => !p.internal && p.defaultValue.isSome).foldl (declare t) s) := by
  obtain ⟨statements, conventions, finishes⟩ := except_bind.mp made
  cases finishes
  refine call_block rfl rfl (runAll_each (fun _ => True) (forall₂_of_mapM conventions) ?_ trivial).1
  intro p member statement sets now _
  obtain ⟨inside, defaulted⟩ := List.mem_filter.mp member
  obtain ⟨isPublic, has⟩ := Bool.and_eq_true_iff.mp defaulted
  obtain ⟨e, given, finishes⟩ := except_bind.mp sets
  cases finishes
  obtain ⟨value, constant, plain⟩ := @defaultExpr_constant platform _ _ _ given
  have property := @specification_member plan t task platform p inside (by simpa using isPublic)
  rw [declare, declaredDefault_of_made has given, constant, Option.map_some, ← platform.sourceOf_plain plain]
  refine ⟨run_expr (eval_invoke (eval_readProperty (eval_param ?_) property) ?_ send_convention), trivial⟩
  · rfl
  · exact evalAll_cons (eval_constant constant) evalAll_nil

/-- A configurator has one method beside its constructor. -/
theorem method?_execute {c : ClassDef} {m : MethodDef} (bare : c.methods = []) (named : m.name = "execute") :
    (ObjectDef.class ((c.addSettingConstructor [.pub]).addMethod m) []).method? "execute" = some m := by
  simp [ObjectDef.method?, ObjectDef.methods, ClassDef.addMethod, ClassDef.addSettingConstructor,
    ClassDef.settingConstructor, MethodDef.constructorName, bare, named]

theorem configureTask_gives (built : taskDefinition plan.packageName t = .ok task) (distinct : (taskGetters t).Nodup)
    {m : MethodDef} (is : (taskConfigurator plan t).method? "execute" = some m) :
    Gives (callMethod ((world platform plan t task).library depth) (budget + 1) m (platform.refer .taskConfigurator)
      [platform.refer (.object .task)]) s .null ((t.task.parameters.filter (!·.internal)).foldl inherit s) := by
  cases (method?_execute rfl rfl).symm.trans is
  let lib := (world platform plan t task).library depth
  let call := callMethod lib budget
  let frame : Frame := ⟨platform.refer .taskConfigurator, [("task", platform.refer (.object .task))]⟩
  let target : Variable := ⟨"task", taskOf plan t⟩
  have reads (now : State) : Gives (evalExpr lib call frame [] target.toParam) now (platform.refer (.object .task)) now :=
    eval_param rfl
  have label (method text : String) (labels : method = "setGroup" ∨ method = "setDescription") :
      Gives (runStmt lib call budget frame (.expr (target.toParam.invoke method .void [.string text])) []) s (.next []) s :=
    run_expr (eval_invoke (reads s) (evalAll_cons (eval_literal _) evalAll_nil) (send_label _ labels))
  have group : Gives (runAll lib call budget frame (plan.taskGroup.toList.map fun group =>
      .expr (target.toParam.invoke "setGroup" .void [.string group])) []) s (.next []) s := by
    cases plan.taskGroup with
    | none => exact runAll_nil
    | some group => exact runAll_cons (label "setGroup" group (.inl rfl)) runAll_nil
  have classpath : Gives (runStmt lib call budget frame
      (.expr ((target.toParam.invoke "getClasspath" fileCollection []).invoke "from" .void [ownClasspath])) [])
      s (.next []) s :=
    run_expr (eval_invoke (eval_invoke (reads s) evalAll_nil (send_getter (classpath_member built distinct)))
      (evalAll_cons (eval_ownField rfl rfl) evalAll_nil) send_from)
  -- What comes before the conventions touches no property.
  have labels := runAll_append group (runAll_cons classpath (runAll_cons (label "setDescription"
    s!"Configure the {t.extensionMethodName}" (.inr rfl)) runAll_nil))
  refine call_block rfl rfl (runAll_append labels (runAll_each (fun _ => True)
    (List.forall₂_map_right_iff.mpr (List.forall₂_same.mpr fun _ _ => rfl)) ?_ trivial).1)
  intro p member statement same now _
  cases same
  obtain ⟨inside, isPublic⟩ := List.mem_filter.mp member
  have property := @specification_member plan t task platform p inside (by simpa using isPublic)
  have spec : Gives (evalExpr lib call frame [] (Expr.this.field "spec" (specOf plan t))) now
      (platform.refer (.object .specification)) now := eval_ownField rfl rfl
  rw [inherit, ← platform.sourceOf_property]
  exact ⟨run_expr (eval_invoke (eval_readProperty (reads now) (task_member built distinct inside))
    (evalAll_cons (eval_readProperty spec property) evalAll_nil) send_convention), trivial⟩

theorem passProperty_gives (built : taskDefinition plan.packageName t = .ok task) (distinct : (taskGetters t).Nodup)
    (plain : ∀ c ∈ choices, platform.referent? c.value = none) (configured : Configured t choices s) {p : Parameter}
    (member : p ∈ t.task.parameters) {ownerType parametersType : TypeRef} {statement : Stmt}
    (made : passProperty t ownerType ⟨"params", parametersType⟩ p = .ok statement) :
    Gives (runStmt ((world platform plan t task).library (depth + 2))
      (callMethod ((world platform plan t task).library (depth + 2)) budget) budget
      ⟨platform.refer .parameterConfigurator, [("params", platform.refer (.object .parameters))]⟩ statement [])
      s (.next []) (handOver t choices s p) := by
  obtain ⟨value, valued, finishes⟩ := except_bind.mp made
  cases finishes
  let lib := (world platform plan t task).library (depth + 2)
  let call := callMethod lib budget
  let frame : Frame := ⟨platform.refer .parameterConfigurator, [("params", platform.refer (.object .parameters))]⟩
  have target (now : State) : Gives (evalExpr lib call frame []
      (readProperty (⟨"params", parametersType⟩ : Variable).toParam p)) now (platform.refer (.property .parameters (getterName p))) now :=
    eval_readProperty (eval_param rfl) (parameters_member member)
  have own : Gives (evalExpr lib call frame [] (readProperty (Expr.this.field "task" ownerType) p)) s
      (platform.refer (.property .task (getterName p))) s :=
    eval_readProperty (eval_ownField rfl rfl) (task_member built distinct member)
  by_cases required : p.required = true
  · simp only [taskValue, if_pos required] at valued
    cases valued
    simp only [handOver, if_pos required]
    rw [← platform.sourceOf_property]
    exact run_expr (eval_invoke (target s) (evalAll_cons own evalAll_nil) send_set)
  · simp only [taskValue, if_neg required] at valued
    by_cases has : p.defaultValue.isSome = true
    · rw [if_pos has] at valued
      obtain ⟨e, given, finishes⟩ := except_bind.mp valued
      cases finishes
      obtain ⟨default, constant, isPlain⟩ := @defaultExpr_constant platform _ _ _ given
      simp only [handOver, if_neg required, declaredDefault_of_made has given, constant]
      rw [← platform.sourceOf_fallback]
      exact run_expr (eval_invoke (target s) (evalAll_cons (eval_invoke own
        (evalAll_cons (eval_constant constant) evalAll_nil) (send_orElse isPlain)) evalAll_nil) send_set)
    · rw [if_neg has] at valued
      cases valued
      simp only [handOver, if_neg required, @declaredDefault_of_none t p (by simpa using has)]
      rw [← sourceOf_held plain]
      exact run_expr (eval_invoke (target s) (evalAll_cons (eval_invoke own evalAll_nil
        (send_getOrNull (configured.reads_task member))) evalAll_nil) send_set)

theorem configureParameters_gives (built : taskDefinition plan.packageName t = .ok task)
    (distinct : (taskGetters t).Nodup) (plain : ∀ c ∈ choices, platform.referent? c.value = none)
    (configured : Configured t choices s) {ownerType : TypeRef} {c : ObjectDef} {m : MethodDef}
    (made : parameterConfiguratorClass t ownerType = .ok c) (is : c.method? "execute" = some m) :
    Gives (callMethod ((world platform plan t task).library (depth + 2)) (budget + 1) m
        (platform.refer .parameterConfigurator) [platform.refer (.object .parameters)]) s .null
      (t.task.parameters.foldl (handOver t choices) s) ∧
    Configured t choices (t.task.parameters.foldl (handOver t choices) s) := by
  obtain ⟨statements, passed, finishes⟩ := except_bind.mp made
  cases finishes
  cases (method?_execute rfl rfl).symm.trans is
  have each := @runAll_each _ _ ((world platform plan t task).library (depth + 2))
    (callMethod ((world platform plan t task).library (depth + 2)) budget) budget
    ⟨platform.refer .parameterConfigurator, [("params", platform.refer (.object .parameters))]⟩ [] s _
    (Configured t choices) _ _ _ (forall₂_of_mapM passed)
    (fun p member statement passes now kept =>
      ⟨passProperty_gives built distinct plain kept member passes, kept.handedOver p⟩) configured
  exact ⟨call_block rfl rfl each.1, each.2⟩

/-- Sets the values one after the other, through the getters of the objects they are set on. -/
def choose (w : World) (depth : Nat) : List Choice → Run State Unit
  | [] => return
  | c :: rest => do
    let ask := send (w.library depth) (callMethod (w.library depth) 0)
    let property ← ask (w.refer (.object c.role)) (getterName c.parameter) []
    let _ ← ask property "set" [c.value]
    choose w depth rest

theorem choose_gives (built : taskDefinition plan.packageName t = .ok task) (distinct : (taskGetters t).Nodup)
    (allowed : ∀ c ∈ choices, Allowed platform t c) :
    Gives (choose (world platform plan t task) depth choices) s () (choices.foldl (apply platform) s) := by
  induction choices generalizing s with
  | nil => exact gives_pure () s
  | cons c rest ih =>
    obtain ⟨member, role, _⟩ := allowed c (List.mem_cons_self ..)
    have known : (world platform plan t task).member? c.role (getterName c.parameter) =
        some (platform.refer (.property c.role (getterName c.parameter))) := by
      rcases role with isTask | ⟨isSpecification, isPublic⟩
      · rw [isTask]
        exact task_member built distinct member
      · rw [isSpecification]
        exact specification_member member isPublic
    rw [choose]
    refine (send_getter known).bind (Gives.bind send_set ?_)
    exact ih fun other inside => allowed other (List.mem_cons_of_mem _ inside)

end Bodies

end PluginForge.Proofs.ConfigurationBodies
