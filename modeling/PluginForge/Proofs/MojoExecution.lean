import PluginForge.Proofs.InstanceBinding
import PluginForge.Proofs.LocalVariables
import PluginForge.Proofs.ObservedRuns

/-! What a mojo does when it is executed, as it is seen from outside. It asks whether it is enabled. If it is not, it logs
that; if it is, it converts the parameters that are to be converted, constructs the task, sets what the constructor leaves
and calls the task's method. -/

namespace PluginForge.Proofs.MojoExecution
open Evaluation EvaluationRules NamedEntries Results ReplicationFailure Scopes LocalVariables
open BuiltTypes PlannedTasks CalledConstructors ConstructedCode InstanceBinding ObservedRuns MojoPlan

/-- Reading a parameter: a call of its getter if it is deferred to the concrete mojo, and else a look at its field. -/
def readEvent (this : Value) (p : Parameter) : Event :=
  if isDeferred p then .call this (Naming.getter p.name) [] else .read this p.name

/-- The steps before the task is constructed that belong to a parameter. -/
def Prepared (this : Value) (converted : String → Value) (p : Parameter) (steps : Log) : Prop :=
  if p.conversion.isIdentity then steps = [] else Converted this (readEvent this p) p.conversion steps (converted p.name)

/-- The steps that give what is handed to the task under a name: a parameter is read if it needs no conversion, and has been
converted before otherwise. -/
inductive Passed (this : Value) (parameters : List Parameter) (converted : String → Value) :
    String → Log → Value → Prop where
  | read {p : Parameter} (member : p ∈ parameters) (plain : p.conversion.isIdentity = true) (value : Value) :
      Passed this parameters converted p.name [(readEvent this p, value)] value
  | held {p : Parameter} (member : p ∈ parameters) (converts : p.conversion.isIdentity = false) :
      Passed this parameters converted p.name [] (converted p.name)
  | absent {name : String} (none : name ∉ parameters.map (·.name)) : Passed this parameters converted name [] .null

/-- The steps that set a property of the task: its setter is called, or else its field is written. -/
inductive SetOn (this : Value) (parameters : List Parameter) (converted : String → Value) (task : Value) (q : Property) :
    Log → Prop where
  | setter {method : String} {steps : Log} {value : Value} (answer : Value) (has : q.setter = some method)
      (passed : Passed this parameters converted q.name steps value) :
      SetOn this parameters converted task q (steps ++ [(.call task method [value], answer)])
  | field {f : SourceField} {steps : Log} {value : Value} (answer : Value) (none : q.setter = none)
      (has : q.accessibleField? = some f) (passed : Passed this parameters converted q.name steps value) :
      SetOn this parameters converted task q (steps ++ [(.write task f.name value, answer)])

/-- The properties that the constructor of the task, which takes these names, leaves to be set. -/
def left (d : Descriptor) (names : List String) : List Property :=
  d.properties.filter fun q => !names.contains q.name && settable q

/-- The steps of an enabled mojo. The parameters are converted, the task is constructed once from what its constructor
names, each other property that can be is set, and last of all the method that runs the task is called on it. -/
inductive Ran (t : TaskPlan) (this task : Value) : Log → Prop where
  | steps {converted : String → Value} {names : List String} {prepared settings : List Log} {handed : List (Log × Value)}
      (answer : Value) (new : task ≠ .null ∧ task ≠ this) (fresh : ∀ step ∈ prepared.flatten, step.2 ≠ task)
      (called : calledNames? t.source = some names)
      (prepares : List.Forall₂ (Prepared this converted) t.parameters prepared)
      (passes : List.Forall₂ (fun name given => Passed this t.parameters converted name given.1 given.2) names handed)
      (sets : List.Forall₂ (SetOn this t.parameters converted task) (left t.source names) settings) :
      Ran t this task (prepared.flatten ++ ((handed.map (·.1)).flatten ++
        (.create t.source.instanceType (handed.map (·.2)), task) ::
          (settings.flatten ++ [(.call task t.methodName [], answer)])))

section Conversions
variable {answers : Answers} {call : MethodDef → Value → List Value → Run Log Value} {rounds : Nat} {frame : Frame}
  {this : Value} {parameters : List Parameter}

theorem parameterValue_asks (object : this ≠ .null) (self : frame.this = this) (p : Parameter) :
    Asks answers call frame (parameterValue p) (readEvent this p) := by
  intro locals log
  have own : Gives (evalExpr (library answers) call frame locals .this) log this log := self ▸ eval_this
  unfold parameterValue readEvent
  by_cases deferred : isDeferred p = true
  · rw [if_pos deferred, if_pos deferred]
    obtain ⟨value, -, sends⟩ := send_observed answers call object (Naming.getter p.name) [] log
    exact ⟨value, eval_invoke own evalAll_nil sends⟩
  · rw [if_neg deferred, if_neg deferred]
    obtain ⟨value, -, reads⟩ := gives_observe answers (.read this p.name) log
    refine ⟨value, ?_⟩
    rw [evalExpr]
    exact own.bind reads

/-- The statements that convert the parameters. -/
def conversions (parameters : List Parameter) : List Stmt :=
  parameters.flatMap fun p => (p.conversion.convert (p.name ++ "Param") (parameterValue p)).1

/-- What the variable of a converted parameter holds. -/
def held (locals : Locals) (name : String) : Value := (locals.lookup (name ++ "Param")).getD .null

/-- The variable of each converted parameter has its value. -/
def Holds (parameters : List Parameter) (converted : String → Value) (locals : Locals) : Prop :=
  ∀ p ∈ parameters, p.conversion.isIdentity = false → locals.lookup (p.name ++ "Param") = some (converted p.name)

theorem Holds.define {converted : String → Value} {locals : Locals} (holds : Holds parameters converted locals)
    (task : Value) : Holds parameters converted (("task", task) :: locals) := by
  intro p member converts
  have apart : p.name ++ "Param" ≠ "task" := by
    intro same
    have outside : "task" ∉ conversionNames (p.name ++ "Param") := ne_conversionName (by decide)
    rw [same] at outside
    exact outside (List.mem_cons_self ..)
  rw [lookup_skip apart]
  exact holds p member converts

theorem convert_identity {conversion : Conversion} (plain : conversion.isIdentity = true) (name : String) (value : Expr) :
    conversion.convert name value = ([], value) := by
  cases conversion with
  | identity => rfl
  | model => cases plain
  | collection => cases plain

theorem conversions_spare {name : String} (apart : ∀ q ∈ parameters, name ≠ q.name) :
    ∀ code ∈ conversions parameters, Spares (name ++ "Param") code := by
  intro code member
  obtain ⟨q, inside, isPart⟩ := List.mem_flatMap.mp member
  have own : name ++ "Param" ∈ conversionNames (name ++ "Param") := List.mem_cons_self ..
  have other : name ++ "Param" ∉ conversionNames (q.name ++ "Param") := by
    intro isOther
    have disjoint := conversionNames_disjoint (apart q inside)
    exact disjoint own isOther
  exact convert_spares other code isPart

theorem conversions_run (reliable : Reliable answers this rounds) (self : frame.this = this)
    (distinct : (parameters.map (·.name)).Nodup) (locals : Locals) (log : Log) :
    ∃ inner, ∃ steps : List Log, Holds parameters (held inner) inner ∧
      List.Forall₂ (Prepared this (held inner)) parameters steps ∧
      Gives (runAll (library answers) call rounds frame (conversions parameters) locals) log (.next inner)
        (log ++ steps.flatten) := by
  induction parameters generalizing locals log with
  | nil =>
    have runs : Gives (runAll (library answers) call rounds frame (conversions []) locals) log (.next locals)
        (log ++ ([] : List Log).flatten) := by
      rw [List.flatten_nil, List.append_nil]
      exact runAll_nil
    exact ⟨locals, [], List.forall_mem_nil _, .nil, runs⟩
  | cons p rest ih =>
    rw [List.map_cons, List.nodup_cons] at distinct
    obtain ⟨fresh, distinct⟩ := distinct
    by_cases plain : p.conversion.isIdentity = true
    · obtain ⟨inner, steps, holds, prepared, runs⟩ := ih distinct locals log
      have prepares : Prepared this (held inner) p [] := by rw [Prepared, if_pos plain]
      refine ⟨inner, [] :: steps, List.forall_mem_cons.mpr ⟨?_, holds⟩, .cons prepares prepared, ?_⟩
      · intro converts
        rw [plain] at converts
        cases converts
      · rw [conversions, List.flatMap_cons, convert_identity plain]
        exact runs
    · have converts := Bool.eq_false_iff.mpr plain
      obtain ⟨own, value, middle, begins, known, turned⟩ := @conversion_runs answers call rounds this (p.name ++ "Param")
        _ _ p.conversion frame reliable self (parameterValue_asks reliable.object self p) converts locals log
      obtain ⟨inner, steps, holds, prepared, runs⟩ := ih distinct middle (log ++ own)
      have apart : ∀ q ∈ rest, p.name ≠ q.name := by
        intro q member same
        apply fresh
        rw [same]
        exact List.mem_map_of_mem member
      have kept : inner.lookup (p.name ++ "Param") = some value := by
        have keeps : Keeps (p.name ++ "Param") middle inner := runAll_keeps (conversions_spare apart) runs
        rw [keeps.lookup, known]
      have isValue : held inner p.name = value := by rw [held, kept, Option.getD_some]
      have prepares : Prepared this (held inner) p own := by
        rw [Prepared, if_neg plain, isValue]
        exact turned
      refine ⟨inner, own :: steps, List.forall_mem_cons.mpr ⟨?_, holds⟩, .cons prepares prepared, ?_⟩
      · intro _
        rw [isValue, kept]
      · rw [conversions, List.flatMap_cons, List.flatten_cons, ← List.append_assoc]
        exact runAll_append begins runs

end Conversions

section Task
variable {answers : Answers} {call : MethodDef → Value → List Value → Run Log Value} {rounds : Nat} {frame : Frame}
  {locals : Locals} {this task : Value} {t : TaskPlan} {converted : String → Value}

/-- What is passed under a name is evaluated with the steps that belong to it. -/
theorem eval_passed (object : this ≠ .null) (self : frame.this = this) (holds : Holds t.parameters converted locals)
    (name : String) (log : Log) :
    ∃ steps value, Passed this t.parameters converted name steps value ∧
      Gives (evalExpr (library answers) call frame locals (passed (received t parameterValue) name)) log value
        (log ++ steps) := by
  unfold passed
  cases given : (received t parameterValue).get? name with
  | none =>
    have none : name ∉ t.parameters.map (·.name) := by
      intro member
      have named : name ∈ (received t parameterValue).map (·.1) := by
        rw [received, List.map_map]
        exact member
      obtain ⟨e, found⟩ := argument_of_name named
      rw [found] at given
      cases given
    refine ⟨[], .null, .absent none, ?_⟩
    rw [List.append_nil]
    exact eval_literal .null
  | some e =>
    obtain ⟨p, member, same⟩ := List.mem_map.mp (mem_of_get? given)
    cases same
    rw [Option.getD_some]
    by_cases plain : p.conversion.isIdentity = true
    · rw [convert_identity plain]
      obtain ⟨value, reads⟩ := parameterValue_asks object self p locals log
      exact ⟨_, value, .read member plain value, reads⟩
    · have converts := Bool.eq_false_iff.mpr plain
      refine ⟨[], converted p.name, .held member converts, ?_⟩
      rw [List.append_nil]
      exact eval_converted converts (holds p member converts)

theorem evalAll_passed (object : this ≠ .null) (self : frame.this = this) (holds : Holds t.parameters converted locals)
    (names : List String) (log : Log) :
    ∃ handed : List (Log × Value),
      List.Forall₂ (fun name given => Passed this t.parameters converted name given.1 given.2) names handed ∧
      Gives (evalAll (library answers) call frame locals (names.map (passed (received t parameterValue)))) log
        (handed.map (·.2)) (log ++ (handed.map (·.1)).flatten) := by
  induction names generalizing log with
  | nil =>
    refine ⟨[], .nil, ?_⟩
    rw [List.map_nil, List.map_nil, List.map_nil, List.flatten_nil, List.append_nil]
    exact evalAll_nil
  | cons name rest ih =>
    obtain ⟨steps, value, first, evaluates⟩ :=
      @eval_passed answers call frame locals this t converted object self holds name log
    obtain ⟨handed, others, evaluate⟩ := ih (log ++ steps)
    refine ⟨(steps, value) :: handed, .cons first others, ?_⟩
    rw [List.map_cons, List.map_cons, List.map_cons, List.flatten_cons, ← List.append_assoc]
    exact evalAll_cons evaluates evaluate

theorem setting_runs {q : Property} {setting : Stmt} {target : Variable} (object : this ≠ .null) (self : frame.this = this)
    (holds : Holds t.parameters converted locals) (made : task ≠ .null) (known : locals.lookup target.name = some task)
    (binds : Binds target (received t parameterValue) q setting) (log : Log) :
    ∃ steps, SetOn this t.parameters converted task q steps ∧
      Gives (runStmt (library answers) call rounds frame setting locals) log (.next locals) (log ++ steps) := by
  obtain ⟨steps, value, passes, evaluates⟩ :=
    @eval_passed answers call frame locals this t converted object self holds q.name log
  cases binds with
  | @setter method e given has =>
    rw [passed, given, Option.getD_some] at evaluates
    obtain ⟨answer, -, sends⟩ := send_observed answers call made method [value] (log ++ steps)
    refine ⟨_, .setter answer has passes, ?_⟩
    rw [← List.append_assoc]
    exact run_expr (eval_invoke (eval_local known) (evalAll_cons evaluates evalAll_nil) sends)
  | @field f e given none has =>
    rw [passed, given, Option.getD_some] at evaluates
    obtain ⟨answer, writes⟩ := gives_writeField answers task f.name value (log ++ steps)
    refine ⟨_, .field answer none has passes, ?_⟩
    rw [← List.append_assoc]
    exact run_assignField (eval_local known) evaluates writes

theorem settings_run {properties : List Property} {settings : List Stmt} {target : Variable} (object : this ≠ .null)
    (self : frame.this = this) (holds : Holds t.parameters converted locals) (made : task ≠ .null)
    (known : locals.lookup target.name = some task)
    (bind : List.Forall₂ (Binds target (received t parameterValue)) properties settings) (log : Log) :
    ∃ steps : List Log, List.Forall₂ (SetOn this t.parameters converted task) properties steps ∧
      Gives (runAll (library answers) call rounds frame settings locals) log (.next locals) (log ++ steps.flatten) := by
  induction bind generalizing log with
  | nil =>
    refine ⟨[], .nil, ?_⟩
    rw [List.flatten_nil, List.append_nil]
    exact runAll_nil
  | cons binds _ ih =>
    obtain ⟨own, sets, begins⟩ := @setting_runs answers call rounds frame locals this task t converted _ _ _ object self
      holds made known binds log
    obtain ⟨steps, others, runs⟩ := ih (log ++ own)
    refine ⟨own :: steps, .cons sets others, ?_⟩
    rw [List.flatten_cons, ← List.append_assoc]
    exact runAll_cons begins runs

theorem left_later {cx : Context} {package : String} (resolves : Resolves cx package t) (names : List String) :
    later t.source (received t parameterValue) names = left t.source names := by
  apply List.filter_congr
  intro q member
  obtain ⟨value, given⟩ := @received_given _ _ _ parameterValue resolves q member
  rw [given, Option.isSome_some, Bool.true_and]

/-- The task is constructed, set up and called, whatever has been done to prepare for it. -/
theorem task_runs {cx : Context} {package : String} {run : Stmt} (resolves : Resolves cx package t)
    (made : t.source.runTask t.methodName (received t parameterValue) = .ok run) (reliable : Reliable answers this rounds)
    (self : frame.this = this) (holds : Holds t.parameters converted locals) (log : Log) :
    ∃ steps task, (∀ prepared : List Log, List.Forall₂ (Prepared this converted) t.parameters prepared →
        prepared.flatten ⊆ log → Ran t this task (prepared.flatten ++ steps)) ∧
      Gives (runStmt (library answers) call rounds frame run locals) log (.next locals) (log ++ steps) := by
  obtain ⟨⟨target, statements⟩, constructed, finishes⟩ := except_bind.mp made
  cases finishes
  obtain ⟨rfl, names, bound⟩ := construct_bound constructed
  obtain ⟨settings, rfl, bind⟩ := bound.parts
  rw [left_later resolves] at bind
  obtain ⟨handed, passes, evaluates⟩ :=
    @evalAll_passed answers call frame locals this t converted reliable.object self holds names log
  obtain ⟨task, isNew, creates⟩ :=
    gives_create answers t.source.instanceType (handed.map (·.2)) (log ++ (handed.map (·.1)).flatten)
  obtain ⟨object, other, unseen⟩ := reliable.created _ _ _ _ isNew
  have known : List.lookup "task" (("task", task) :: locals) = some task := List.lookup_cons_self ..
  obtain ⟨steps, sets, runs⟩ := @settings_run answers call rounds frame (("task", task) :: locals) this task t converted _
    settings ⟨"task", t.source.instanceType⟩ reliable.object self (holds.define task) object known bind
    (log ++ (handed.map (·.1)).flatten ++ [(.create t.source.instanceType (handed.map (·.2)), task)])
  obtain ⟨answer, -, calls⟩ := send_observed answers call object t.methodName [] (log ++ (handed.map (·.1)).flatten ++
    [(.create t.source.instanceType (handed.map (·.2)), task)] ++ steps.flatten)
  have fresh (prepared : List Log) (before : prepared.flatten ⊆ log) : ∀ step ∈ prepared.flatten, step.2 ≠ task := by
    intro step member
    exact unseen step (List.mem_append_left _ (before member))
  refine ⟨_, task, fun prepared prepares before =>
    .steps answer ⟨object, other⟩ (fresh prepared before) bound.called prepares passes sets, ?_⟩
  have begins : Gives (runStmt (library answers) call rounds frame (.define ⟨"task", t.source.instanceType⟩
      (.create t.source.instanceType (names.map (passed (received t parameterValue))))) locals) _ _ _ :=
    run_define (eval_create evaluates creates)
  have ends : Gives (evalExpr (library answers) call frame (("task", task) :: locals)
      ((Variable.toLocal ⟨"task", t.source.instanceType⟩).invoke t.methodName .void [])) _ _ _ :=
    eval_invoke (eval_local known) evalAll_nil calls
  have whole := run_block (runAll_append (runAll_cons begins runs) (runAll_cons (run_expr ends) runAll_nil))
  have leaves : Ending.within locals (.next (("task", task) :: locals)) = .next locals :=
    within_pushed [("task", task)] locals
  rw [leaves] at whole
  simpa only [List.append_assoc, List.cons_append, List.nil_append] using whole

end Task

section Execution
variable {cx : Context} {package : String} {m : MojoPlan} {execute : MethodDef} {answers : Answers} {budget : Nat}
  {this : Value}

theorem executeMethod_body (made : m.executeMethod = .ok execute) :
    ∃ run, m.task.source.runTask m.task.methodName (received m.task parameterValue) = .ok run ∧ execute.parameters = [] ∧
      execute.body = some (.ifElse (.not (Expr.this.invoke "isEnabled" .boolean []))
        (.expr ((Expr.this.invoke "getLog" (.class "org.apache.maven.plugin.logging.Log") []).invoke "debug" .void
          [.string s!"{m.mojo} is disabled"]))
        (.block (conversions m.task.parameters ++ [run]))) := by
  obtain ⟨run, ran, rfl⟩ := executeMethod_built made
  exact ⟨run, ran, rfl, rfl⟩

/-- A method that takes nothing and runs to its end. -/
theorem call_plain {method : MethodDef} {body : Stmt} {inner : Locals} {s after : Log} (takes : method.parameters = [])
    (hasBody : method.body = some body)
    (runs : Gives (runStmt (library answers) (callMethod (library answers) budget) budget ⟨this, []⟩ body []) s (.next inner)
      after) :
    Gives (callMethod (library answers) (budget + 1) method this []) s .null after := by
  have count : method.parameters.length = [].length := congrArg List.length takes
  apply call_next hasBody count
  rw [takes]
  exact runs

theorem asks_enabled {call : MethodDef → Value → List Value → Run Log Value} {locals : Locals} {log : Log} {enabled : Bool}
    (object : this ≠ .null) (answered : answers log (.call this "isEnabled" []) = .literal (.boolean enabled)) :
    Gives (evalExpr (library answers) call ⟨this, []⟩ locals (.not (Expr.this.invoke "isEnabled" .boolean []))) log
      (.literal (.boolean !enabled)) (log ++ [(.call this "isEnabled" [], .literal (.boolean enabled))]) := by
  obtain ⟨answer, same, sends⟩ := send_observed answers call object "isEnabled" [] log
  rw [answered] at same
  cases same
  exact eval_not (eval_invoke eval_this evalAll_nil sends)

/-- A mojo that is not enabled asks for its log and writes to it. -/
theorem execute_disabled (made : m.executeMethod = .ok execute) (object : this ≠ .null) {log : Log} {logger : Value}
    (disabled : answers log (.call this "isEnabled" []) = .literal (.boolean false))
    (logs : answers (log ++ [(.call this "isEnabled" [], .literal (.boolean false))]) (.call this "getLog" []) = logger)
    (present : logger ≠ .null) :
    ∃ answer, Gives (callMethod (library answers) (budget + 1) execute this []) log .null
      (log ++ [(.call this "isEnabled" [], .literal (.boolean false)), (.call this "getLog" [], logger),
        (.call logger "debug" [.literal (.string s!"{m.mojo} is disabled")], answer)]) := by
  obtain ⟨run, -, takes, hasBody⟩ := executeMethod_body made
  obtain ⟨found, same, gets⟩ := send_observed answers (callMethod (library answers) budget) object "getLog" []
    (log ++ [(.call this "isEnabled" [], .literal (.boolean false))])
  rw [logs] at same
  cases same
  obtain ⟨answer, -, writes⟩ := send_observed answers (callMethod (library answers) budget) present "debug"
    [.literal (.string s!"{m.mojo} is disabled")]
    (log ++ [(.call this "isEnabled" [], .literal (.boolean false))] ++ [(.call this "getLog" [], logger)])
  refine ⟨answer, ?_⟩
  rw [List.append_cons, List.append_cons]
  have asks : Gives (evalExpr (library answers) (callMethod (library answers) budget) ⟨this, []⟩ []
      (Expr.this.invoke "getLog" (.class "org.apache.maven.plugin.logging.Log") [])) _ _ _ :=
    eval_invoke eval_this evalAll_nil gets
  exact call_plain takes hasBody (run_ifElse_true (asks_enabled object disabled)
    (run_expr (eval_invoke asks (evalAll_cons (eval_literal _) evalAll_nil) writes)))

theorem execute_enabled (resolves : Resolves cx package m.task) (distinct : (m.task.parameters.map (·.name)).Nodup)
    (made : m.executeMethod = .ok execute) (reliable : Reliable answers this budget) {log : Log}
    (enabled : answers log (.call this "isEnabled" []) = .literal (.boolean true)) :
    ∃ steps task, Ran m.task this task steps ∧ Gives (callMethod (library answers) (budget + 1) execute this []) log .null
      (log ++ (.call this "isEnabled" [], .literal (.boolean true)) :: steps) := by
  obtain ⟨run, ran, takes, hasBody⟩ := executeMethod_body made
  obtain ⟨inner, prepared, holds, prepares, converts⟩ := @conversions_run answers (callMethod (library answers) budget)
    budget ⟨this, []⟩ this m.task.parameters reliable rfl distinct []
    (log ++ [(.call this "isEnabled" [], .literal (.boolean true))])
  obtain ⟨steps, task, follows, runs⟩ := @task_runs answers (callMethod (library answers) budget) budget ⟨this, []⟩ inner
    this m.task (held inner) cx package run resolves ran reliable rfl holds
    (log ++ [(.call this "isEnabled" [], .literal (.boolean true))] ++ prepared.flatten)
  refine ⟨prepared.flatten ++ steps, task, follows prepared prepares (List.subset_append_right ..), ?_⟩
  rw [List.append_cons, ← List.append_assoc]
  exact call_plain takes hasBody (run_ifElse_false (asks_enabled reliable.object enabled)
    (run_block (runAll_append converts (runAll_cons runs runAll_nil))))

end Execution

end PluginForge.Proofs.MojoExecution
