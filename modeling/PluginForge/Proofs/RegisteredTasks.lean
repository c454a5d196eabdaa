import PluginForge.Proofs.ExtensionLibrary

/-! Tasks that an extension registers. Each call begins with an attempt to add its name to one set that all methods of the
extension share, and goes on only if the name was not in it. So a name in the set has been used by a call, a registered name
is in the set, and no name is registered twice, whatever the actions do to the extension while they are executed. -/

namespace PluginForge.Proofs.RegisteredTasks
open Gradle Evaluation EvaluationRules NamedEntries BuiltTypes Results ReplicationLogic MethodSignatures EffectiveValues
open ObservedRuns ExtensionLibrary

/-- What an extension works with. -/
structure Setting where
  plan : GradlePlan
  names : Value
  project : Value
  classpath : Value

def text (name : String) : Value := .literal (.string name)

def specClass (plan : GradlePlan) (t : GradleTask) : Value :=
  .constant (specificationName plan.packageName t.task.namePrefix) "class"

def taskClass (plan : GradlePlan) (t : GradleTask) : Value :=
  .constant (taskTypeName plan.packageName t.task.namePrefix) "class"

/-- The parameters with a default that the specification has. -/
def defaulted (t : GradleTask) : List Parameter := t.task.parameters.filter fun p => !p.internal && p.defaultValue.isSome

/-- The declared default of a parameter becomes the convention of its property on a specification. -/
def Applied (t : GradleTask) (spec : Value) (p : Parameter) (steps : Log) : Prop :=
  ∃ value property answer, declaredDefault t p = some value ∧
    steps = [(.call spec (getterName p) [], property), (.call property "convention" [value], answer)]

/-- A call with a new name up to its action: the name is taken, a specification is created, it gets the defaults, and then
the action is executed on it. -/
inductive Begun (x : Setting) (t : GradleTask) (name : String) (action : Nat) (spec : Value) : Log → Prop where
  | steps (objects : Value) {defaults : List Log} (applies : List.Forall₂ (Applied t spec) (defaulted t) defaults) :
    Begun x t name action spec ([(.call x.names "add" [text name], .literal (.boolean true)),
      (.call x.project "getObjects" [], objects), (.call objects "newInstance" [specClass x.plan t], spec)] ++
      defaults.flatten ++ [(.call (outside action) "execute" [spec], .null)])

/-- The rest of such a call: a task of the type that belongs to the method is registered under the name. -/
inductive Ended (x : Setting) (t : GradleTask) (name : String) (spec : Value) : Log → Prop where
  | steps (configurator tasks provider : Value) :
    Ended x t name spec [(.create (.class (configuratorName t)) [spec, x.classpath], configurator),
      (.call x.project "getTasks" [], tasks),
      (.call tasks "register" [text name, taskClass x.plan t, configurator], provider)]

/-- A call with a name that was used before, up to the exception that it throws. -/
inductive Refused (x : Setting) (t : GradleTask) (name : String) (exception : Value) : Log → Prop where
  | steps (message : Value) : Refused x t name exception [(.call x.names "add" [text name], .literal (.boolean false)),
      (.callStatic .string "format"
        [text s!"An {t.extensionMethodName} definition with name '%s' was already created", text name], message),
      (.create (.class "org.gradle.api.GradleException") [message], exception)]

/-- What a script does after calls with the names in `earlier`: the names of its calls, in order, and all steps. The calls
that an action makes come after the one that it was passed to. -/
inductive Performed (x : Setting) : List String → Script → List String → Log → Prop where
  | done {earlier : List String} : Performed x earlier .done [] []
  | registered {earlier nested later : List String} {t : GradleTask} {name : String} {action : Nat} {inside : Script}
      {next : Except Value Value → Script} {spec : Value} {start middle finish rest : Log} (fresh : name ∉ earlier)
      (begins : Begun x t name action spec start) (acts : Performed x (earlier ++ [name]) inside nested middle)
      (ends : Ended x t name spec finish)
      (goes : Performed x (earlier ++ name :: nested) (next (.ok .null)) later rest) :
    Performed x earlier (.call t name action inside next) (name :: nested ++ later) (start ++ middle ++ finish ++ rest)
  | refused {earlier later : List String} {t : GradleTask} {name : String} {action : Nat} {inside : Script}
      {next : Except Value Value → Script} {exception : Value} {start rest : Log} (used : name ∈ earlier)
      (refuses : Refused x t name exception start)
      (goes : Performed x (earlier ++ [name]) (next (.error exception)) later rest) :
    Performed x earlier (.call t name action inside next) (name :: later) (start ++ rest)

/-- All calls are of methods that the extension has. -/
inductive Offered (plan : GradlePlan) : Script → Prop where
  | done : Offered plan .done
  | call {t : GradleTask} {name : String} {action : Nat} {inside : Script} {next : Except Value Value → Script}
      (given : t ∈ plan.tasks) (acts : Offered plan inside) (goes : ∀ outcome, Offered plan (next outcome)) :
    Offered plan (.call t name action inside next)

section Logs
variable {x : Setting} {t : GradleTask} {name : String} {action : Nat} {spec set : Value} {log : Log}

@[simp] theorem additions_append (set : Value) (first second : Log) :
    additions set (first ++ second) = additions set first ++ additions set second := List.filterMap_append

@[simp] theorem registrations_append (first second : Log) :
    registrations (first ++ second) = registrations first ++ registrations second := List.filterMap_append

/-- Applying defaults adds to no set and registers nothing. -/
theorem applied_quiet {parameters : List Parameter} {defaults : List Log}
    (applies : List.Forall₂ (Applied t spec) parameters defaults) (set : Value) :
    additions set defaults.flatten = [] ∧ registrations defaults.flatten = [] := by
  induction applies with
  | nil => exact ⟨rfl, rfl⟩
  | cons first _ ih =>
    obtain ⟨value, property, answer, -, rfl⟩ := first
    rw [List.flatten_cons, additions_append, registrations_append, ih.1, ih.2]
    exact ⟨rfl, rfl⟩

/-- A name that is accepted is added before the action is executed, and nothing is registered until after it. -/
theorem Begun.effect (begins : Begun x t name action spec log) :
    additions x.names log = [text name] ∧ registrations log = [] := by
  cases begins with
  | steps objects applies =>
    obtain ⟨added, registered⟩ := applied_quiet applies x.names
    rw [additions_append, additions_append, registrations_append, registrations_append, added, registered]
    simp [additions, registrations, specClass]

theorem Ended.effect (ends : Ended x t name spec log) :
    additions x.names log = [] ∧ registrations log = [(name, taskClass x.plan t)] := by
  cases ends
  exact ⟨rfl, rfl⟩

theorem Refused.effect (refuses : Refused x t name spec log) :
    additions x.names log = [text name] ∧ registrations log = [] := by
  cases refuses
  simp [additions, registrations]

end Logs

section Scripts
variable {x : Setting} {earlier names : List String} {script : Script} {steps : Log}

/-- The set gets the names of all calls. -/
theorem Performed.additions (performed : Performed x earlier script names steps) :
    additions x.names steps = names.map text := by
  induction performed with
  | done => rfl
  | registered _ begins _ ends _ actIh goIh => simp [begins.effect.1, actIh, ends.effect.1, goIh]
  | refused _ refuses _ goIh => simp [refuses.effect.1, goIh]

/-- The names under which tasks are registered are those of the calls that were not used before. -/
theorem Performed.registered_iff (performed : Performed x earlier script names steps) (name : String) :
    name ∈ (registrations steps).map (·.1) ↔ name ∈ names ∧ name ∉ earlier := by
  induction performed with
  | done => simp [registrations]
  | @registered _ _ _ _ own _ _ _ _ _ _ _ _ fresh begins _ ends _ actIh goIh =>
    simp only [registrations_append, begins.effect.2, ends.effect.2, List.nil_append, List.map_append, List.mem_append,
      actIh, goIh, List.map_cons, List.map_nil, List.mem_cons]
    by_cases same : name = own
    · subst same
      simp [fresh]
    · simp only [same, false_or]
      grind
  | @refused _ _ _ own _ _ _ _ _ _ used refuses _ goIh =>
    simp only [registrations_append, refuses.effect.2, List.nil_append, goIh, List.mem_append, List.mem_cons]
    by_cases same : name = own
    · subst same
      simp [used]
    · simp [same]

/-- No name is registered twice. -/
theorem Performed.registered_once (performed : Performed x earlier script names steps) :
    ((registrations steps).map (·.1)).Nodup := by
  induction performed with
  | done => exact List.nodup_nil
  | @registered earlier nested _ _ name _ _ _ _ _ _ _ _ fresh begins acts ends goes actIh goIh =>
    simp only [registrations_append, begins.effect.2, ends.effect.2, List.nil_append, List.map_append, List.map_cons,
      List.map_nil]
    have nestedNames : ∀ other ∈ (registrations _).map (·.1), other ∈ nested ∧ other ∉ earlier ++ [name] :=
      fun other => (acts.registered_iff other).mp
    have laterNames : ∀ other ∈ (registrations _).map (·.1), other ∉ earlier ++ name :: nested :=
      fun other member => ((goes.registered_iff other).mp member).2
    refine List.nodup_append.mpr ⟨List.nodup_append.mpr ⟨actIh, List.nodup_singleton _, ?_⟩, goIh, ?_⟩
    · intro other member last isName
      obtain rfl := List.mem_singleton.mp isName
      rintro rfl
      exact (nestedNames _ member).2 (by simp)
    · intro other member last isLater
      rintro rfl
      rcases List.mem_append.mp member with isNested | isName
      · exact laterNames _ isLater (by simp [(nestedNames _ isNested).1])
      · obtain rfl := List.mem_singleton.mp isName
        exact laterNames _ isLater (by simp)
  | refused used refuses _ goIh =>
    rw [registrations_append, refuses.effect.2]
    exact goIh

end Scripts

section Methods
variable {plan : GradlePlan} {ext : Extension} {t : GradleTask} {log : Log} {m : MethodDef}

theorem methods_declared (made : defaultExtension plan = .ok (.class ext.body ext.inner)) (given : t ∈ plan.tasks) :
    ∃ configureSpec, configureSpecMethod plan t = .ok configureSpec ∧ extensionMethod plan t ∈ ext.body.methods ∧
      createTaskMethod plan t ∈ ext.body.methods ∧ configureSpec ∈ ext.body.methods := by
  obtain ⟨-, -, each⟩ := extension_methods made
  obtain ⟨configureSpec, configured, declared⟩ := each t given
  exact ⟨configureSpec, configured, declared _ (by simp), declared _ (by simp), declared _ (by simp)⟩

theorem same_task {α : Type} {key : GradleTask → α} (distinct : (plan.tasks.map key).Nodup) (given : t ∈ plan.tasks)
    {other : GradleTask} (otherGiven : other ∈ plan.tasks) (same : key other = key t) : other = t :=
  List.inj_on_of_nodup_map distinct otherGiven given same

/-- The method that the interface has for a task is the one made for it. -/
theorem implementation_found (made : defaultExtension plan = .ok (.class ext.body ext.inner)) (distinct : DistinctTasks plan)
    (given : t ∈ plan.tasks) :
    ext.implementation? t = some (extensionMethod plan t) := by
  obtain ⟨_, _, declared, -, -⟩ := methods_declared made given
  obtain ⟨-, methods, -⟩ := extension_methods made
  refine find?_of_only declared (by simp [extensionMethod]) fun m member found => ?_
  obtain ⟨overrides, named⟩ := Bool.and_eq_true_iff.mp found
  rcases methods m member with rfl | ⟨other, otherGiven, rfl | rfl | configured⟩
  · cases overrides
  · rw [same_task distinct.methods given otherGiven (by simpa [extensionMethod] using named)]
  · cases overrides
  · obtain ⟨_, _, finishes⟩ := except_bind.mp configured
    cases finishes
    cases overrides

/-- Of the methods that give a specification its defaults, its own is the one that takes it. -/
theorem configureSpec_found (made : defaultExtension plan = .ok (.class ext.body ext.inner)) (distinct : DistinctTasks plan)
    (given : t ∈ plan.tasks) (configured : configureSpecMethod plan t = .ok m) {spec : Value}
    (isSpec : className? log spec = some (specificationName plan.packageName t.task.namePrefix)) :
    ext.resolve log "configureSpec" [spec] = some m := by
  obtain ⟨configureSpec, same, -, -, declared⟩ := methods_declared made given
  cases same.symm.trans configured
  obtain ⟨-, methods, -⟩ := extension_methods made
  refine find?_of_only declared ?_ fun m member found => ?_
  · obtain ⟨_, _, finishes⟩ := except_bind.mp configured
    cases finishes
    simp [Extension.takes, Extension.fits, specOf, specificationType, isSpec]
  · obtain ⟨named, takes⟩ := Bool.and_eq_true_iff.mp found
    rcases methods m member with rfl | ⟨other, otherGiven, rfl | rfl | otherConfigured⟩
    · cases takes
    · cases takes
    · cases takes
    · obtain ⟨_, _, finishes⟩ := except_bind.mp otherConfigured
      cases finishes
      have isOther : className? log spec = some (specificationName plan.packageName other.task.namePrefix) := by
        simpa [Extension.takes, Extension.fits, specOf, specificationType] using takes
      have prefixes := between_injective (plan.packageName ++ ".") "Specification" (Option.some.inj (isOther.symm.trans isSpec))
      cases same_task distinct.prefixes given otherGiven prefixes
      cases otherConfigured.symm.trans configured
      rfl

theorem createTaskName_ne (t : GradleTask) {name : String} (apart : "create".toList.isPrefixOf name.toList = false) :
    createTaskName t ≠ name := by
  have begins : createTaskName t = "create" ++ (t.task.namePrefix ++ "Task") := String.append_assoc ..
  exact begins ▸ append_ne apart

/-- Of the methods that register a task, its own has the name, and a method of the interface takes another kind of action. -/
theorem createTask_found (made : defaultExtension plan = .ok (.class ext.body ext.inner)) (distinct : DistinctTasks plan)
    (given : t ∈ plan.tasks) (name : String) {configurator : Value}
    (isConfigurator : className? log configurator = some (configuratorName t)) :
    ext.resolve log (createTaskName t) [text name, configurator] =
      some (createTaskMethod plan t) := by
  obtain ⟨_, _, -, declared, -⟩ := methods_declared made given
  obtain ⟨nested, methods, -⟩ := extension_methods made
  have isText : className? log (text name) = some "java.lang.String" := rfl
  refine find?_of_only declared ?_ fun m member found => ?_
  · have implements : ext.implements (configuratorName t) action
        (taskTypeName plan.packageName t.task.namePrefix) = true := by
      have present : taskConfigurator plan t ∈ ext.inner := nested.symm.subst (List.mem_map_of_mem given)
      refine List.any_eq_true.mpr ⟨_, present, ?_⟩
      simp [taskConfigurator, ClassDef.addMethod, ClassDef.addSettingConstructor, taskOf, taskType]
    simp [createTaskMethod, Extension.takes, Extension.fits, nameParameter, TypeRef.string, taskOf, taskType, isText,
      isConfigurator, implements]
  · obtain ⟨named, takes⟩ := Bool.and_eq_true_iff.mp found
    have isNamed : m.name = createTaskName t := beq_iff_eq.mp named
    rcases methods m member with rfl | ⟨other, otherGiven, rfl | rfl | configured⟩
    · exact absurd isNamed.symm (createTaskName_ne t (by decide))
    · simp [Extension.takes, extensionMethod, actionParameter, specAction, Extension.fits] at takes
    · rw [same_task distinct.prefixes given otherGiven (between_injective "create" "Task" isNamed)]
    · obtain ⟨_, _, finishes⟩ := except_bind.mp configured
      cases finishes
      have same : "configureSpec" = createTaskName t := isNamed
      exact absurd same.symm (createTaskName_ne t (by decide))

end Methods

section Helpers
variable {plan : GradlePlan} {ext : Extension} {t : GradleTask} {own : String → List Value → Run World Value}
  {inside : Run World Unit} {call : MethodDef → Value → List Value → Run World Value} {rounds : Nat} {frame : Frame}
  {locals : Locals} {w : World} {m : MethodDef} {spec : Value}

theorem default_constant {p : Parameter} {owner : String} {e : Expr} (made : p.defaultExpr owner = .ok e) :
    ∃ value, constantOf e = some value := by
  rcases p.defaultExpr_forms made with ⟨literal, -, rfl⟩ | ⟨constant, -, rfl⟩ <;> exact ⟨_, rfl⟩

theorem conventions_run {v : Variable} {parameters : List Parameter} {statements : List Stmt}
    (conventions : List.Forall₂ (fun p statement => conventionDefault t v p = .ok statement) parameters statements)
    (has : ∀ p ∈ parameters, p.defaultValue.isSome = true) (held : frame.parameters.lookup v.name = some spec)
    (foreign : Foreign spec) (w : World) :
    ∃ defaults, List.Forall₂ (Applied t spec) parameters defaults ∧
      Gives (runAll (ext.libraryWith own inside) call rounds frame statements locals) w (.next locals)
        (w.after defaults.flatten) := by
  induction conventions generalizing w with
  | nil =>
    refine ⟨[], .nil, ?_⟩
    rw [List.flatten_nil, after_nil]
    exact runAll_nil
  | @cons p statement parameters statements first _ ih =>
    obtain ⟨e, given, finishes⟩ := except_bind.mp first
    cases finishes
    obtain ⟨hasDefault, others⟩ := List.forall_mem_cons.mp has
    obtain ⟨value, constant⟩ := default_constant given
    obtain ⟨property, reads⟩ := send_bare foreign (getterName p) w
    obtain ⟨answer, sets⟩ := send_convention (outside_foreign property) value
      (w.after [(.call spec (getterName p) [], outside property)])
    obtain ⟨defaults, applies, rest⟩ := ih others (w.after
      [(.call spec (getterName p) [], outside property), (.call (outside property) "convention" [value], outside answer)])
    have applied : Applied t spec p
        [(.call spec (getterName p) [], outside property), (.call (outside property) "convention" [value], outside answer)] :=
      ⟨value, _, _, (declaredDefault_of_made hasDefault given).trans constant, rfl⟩
    have sent : Gives (runStmt (ext.libraryWith own inside) call rounds frame
        (.expr ((readProperty v.toParam p).invoke "convention" (propertyType p) [e])) locals) w (.next locals) _ :=
      run_expr (eval_invoke (eval_invoke (eval_param held) evalAll_nil reads) (evalAll_cons (eval_default constant) evalAll_nil)
        sets)
    rw [after_after] at sent
    refine ⟨_ :: defaults, .cons applied applies, ?_⟩
    rw [List.flatten_cons, ← after_after]
    exact runAll_cons sent rest

/-- A specification gets the declared default of every parameter that has one. -/
theorem configureSpec_runs (configured : configureSpecMethod plan t = .ok m) (foreign : Foreign spec)
    (w : World) : ∃ defaults, List.Forall₂ (Applied t spec) (defaulted t) defaults ∧
      Gives (callMethod (ext.libraryWith own inside) 1 m self [spec]) w .null (w.after defaults.flatten) := by
  obtain ⟨statements, conventions, finishes⟩ := except_bind.mp configured
  cases finishes
  have has : ∀ p ∈ defaulted t, p.defaultValue.isSome = true :=
    fun p member => (Bool.and_eq_true_iff.mp (List.mem_filter.mp member).2).2
  obtain ⟨defaults, applies, runs⟩ := @conventions_run ext t own inside (callMethod (ext.libraryWith own inside) 0) 0
    ⟨self, [("spec", spec)]⟩ [] spec _ _ _ (forall₂_of_mapM conventions) has rfl foreign w
  exact ⟨defaults, applies, call_block rfl rfl runs⟩

/-- A task is registered with the project's tasks. -/
theorem createTask_runs {project : Value} {name : String} (known : w.fields.lookup "project" = some project)
    (foreign : Foreign project) (unused : name ∉ (registrations w.log).map (·.1))
    (configurator : Value) : ∃ tasks provider,
      Gives (callMethod (ext.libraryWith own inside) 1 (createTaskMethod plan t) self [text name, configurator]) w provider
        (w.after [(.call project "getTasks" [], tasks),
          (.call tasks "register" [text name, taskClass plan t, configurator], provider)]) := by
  obtain ⟨tasks, asks⟩ := send_bare foreign "getTasks" w
  have still : name ∉ (registrations (w.after [(.call project "getTasks" [], outside tasks)]).log).map (·.1) := by
    rwa [after_log, registrations_append, show registrations [(.call project "getTasks" [], outside tasks)] = [] from rfl,
      List.append_nil]
  obtain ⟨provider, registers⟩ := send_register (outside_foreign tasks) still (taskClass plan t) configurator
  rw [after_after] at registers
  have named : (taskOf plan t).name? = some (taskTypeName plan.packageName t.task.namePrefix) := rfl
  refine ⟨outside tasks, outside provider, call_ret rfl rfl (run_ret
    (eval_invoke (eval_invoke (eval_ownField rfl known) evalAll_nil asks) ?_ registers))⟩
  exact evalAll_cons (eval_param rfl) (evalAll_cons (eval_classRef named) (evalAll_cons (eval_param rfl) evalAll_nil))

end Helpers

/-- The state of an extension between calls. Its set has the names of the calls so far, and only under such names tasks have
been registered. -/
structure Holds (x : Setting) (earlier : List String) (w : World) : Prop where
  names : w.fields.lookup "names" = some x.names
  project : w.fields.lookup "project" = some x.project
  classpath : w.fields.lookup "classpath" = some x.classpath
  set : className? w.log x.names = some "java.util.HashSet"
  foreign : Foreign x.names ∧ Foreign x.project
  added : additions x.names w.log = earlier.map text
  registered : ∀ name ∈ (registrations w.log).map (·.1), name ∈ earlier

section Calls
variable {x : Setting} {ext : Extension} {t : GradleTask} {inside : Run World Unit}
  {own : String → List Value → Run World Value} {call : MethodDef → Value → List Value → Run World Value} {rounds : Nat}
  {frame : Frame} {locals : Locals} {earlier names : List String} {w : World} {name : String} {action : Nat} {steps : Log}

theorem Holds.extend (holds : Holds x earlier w) (added : additions x.names steps = names.map text)
    (registered : ∀ name ∈ (registrations steps).map (·.1), name ∈ names) : Holds x (earlier ++ names) (w.after steps) where
  names := holds.names
  project := holds.project
  classpath := holds.classpath
  set := className?_append holds.set
  foreign := holds.foreign
  added := by rw [after_log, additions_append, holds.added, added, List.map_append]
  registered name member := by
    rw [after_log, registrations_append, List.map_append] at member
    exact List.mem_append.mpr ((List.mem_append.mp member).imp (holds.registered name) (registered name))

theorem Holds.taken_iff (holds : Holds x earlier w) : text name ∈ additions x.names w.log ↔ name ∈ earlier := by
  rw [holds.added]
  exact List.mem_map_of_injective fun _ _ same => Literal.string.inj (Value.literal.inj same)

/-- A name is added to the set if it has not been used. -/
theorem eval_addName (holds : Holds x earlier w) (itself : frame.this = self)
    (held : frame.parameters.lookup "name" = some (text name)) :
    Gives (evalExpr (ext.libraryWith own inside) call frame locals
        ((Expr.this.field "names" namesType).invoke "add" .boolean [nameParameter.toParam])) w
      (.literal (.boolean (name ∉ earlier)))
      (w.after [(.call x.names "add" [text name], .literal (.boolean (name ∉ earlier)))]) := by
  have adds : Gives (send (ext.libraryWith own inside) call x.names "add" [text name]) w _ _ :=
    send_add holds.foreign.1 holds.set (text name)
  rw [decide_eq_decide.mpr (not_congr holds.taken_iff)] at adds
  exact eval_invoke (eval_ownField itself holds.names) (evalAll_cons (eval_param held) evalAll_nil) adds

theorem accepts (holds : Holds x earlier w) (fresh : name ∉ earlier) (itself : frame.this = self)
    (held : frame.parameters.lookup "name" = some (text name)) :
    Gives (runStmt (ext.libraryWith own inside) call rounds frame (refuseDuplicate t) locals) w (.next locals)
      (w.after [(.call x.names "add" [text name], .literal (.boolean true))]) := by
  have adds : Gives (evalExpr (ext.libraryWith own inside) call frame locals _) w _ _ := eval_addName holds itself held
  rw [decide_eq_true fresh] at adds
  exact run_ifThen_false (eval_not adds)

theorem refuses (holds : Holds x earlier w) (used : name ∈ earlier) (itself : frame.this = self)
    (held : frame.parameters.lookup "name" = some (text name)) : ∃ exception steps, Refused x t name exception steps ∧
      Throws (runStmt (ext.libraryWith own inside) call rounds frame (refuseDuplicate t) locals) w exception
        (w.after steps) := by
  have adds : Gives (evalExpr (ext.libraryWith own inside) call frame locals _) w _ _ := eval_addName holds itself held
  rw [decide_eq_false (not_not_intro used)] at adds
  obtain ⟨message, formats⟩ := gives_observe ext (.callStatic .string "format"
    [text s!"An {t.extensionMethodName} definition with name '%s' was already created", text name])
    (w.after [(.call x.names "add" [text name], .literal (.boolean false))])
  have throws : Throws (runStmt (ext.libraryWith own inside) call rounds frame (refuseDuplicate t) locals) w _ _ :=
    throws_ifThen (eval_not adds) (throws_raise (eval_new _ (evalAll_cons (eval_invokeStatic
      (evalAll_cons (eval_literal _) (evalAll_cons (eval_param held) evalAll_nil)) formats) evalAll_nil)))
  rw [after_after, after_after] at throws
  exact ⟨_, _, .steps (outside message), throws⟩

/-- Asks the project for a new specification. -/
def newSpecification (plan : GradlePlan) (t : GradleTask) : Expr :=
  (ownProject.invoke "getObjects" (.class "org.gradle.api.model.ObjectFactory") []).invoke "newInstance" (specOf plan t)
    [(specOf plan t).classRef]

/-- The statements of a method of the extension up to its action. -/
def preparation (plan : GradlePlan) (t : GradleTask) : List Stmt :=
  let spec : Variable := ⟨"spec", specOf plan t⟩
  [refuseDuplicate t, .define spec (newSpecification plan t), .expr (Expr.this.invoke "configureSpec" .void [spec.toLocal])]

/-- The statements of a method of the extension from its action on. -/
def completion (plan : GradlePlan) (t : GradleTask) : List Stmt :=
  let spec : Variable := ⟨"spec", specOf plan t⟩
  let provider := taskProvider (taskOf plan t)
  let configurator := Expr.create (.class (configuratorName t)) [spec.toLocal, ownClasspath]
  [.expr ((actionParameter spec.ty).toParam.invoke "execute" .void [spec.toLocal]),
    .define ⟨"task", provider⟩ (Expr.this.invoke (createTaskName t) provider [nameParameter.toParam, configurator])]

theorem extensionMethod_body (plan : GradlePlan) (t : GradleTask) :
    (extensionMethod plan t).body = some (.block (preparation plan t ++ completion plan t)) := rfl

theorem eval_newSpecification (plan : GradlePlan) (t : GradleTask) {project : Value}
    (known : w.fields.lookup "project" = some project) (foreign : Foreign project) (itself : frame.this = self) :
    ∃ objects spec, Foreign spec ∧
      className? (w.log ++ [(.call project "getObjects" [], objects), (.call objects "newInstance" [specClass plan t], spec)])
        spec = some (specificationName plan.packageName t.task.namePrefix) ∧
      Gives (evalExpr (ext.libraryWith own inside) call frame locals (newSpecification plan t)) w spec
        (w.after [(.call project "getObjects" [], objects), (.call objects "newInstance" [specClass plan t], spec)]) := by
  obtain ⟨objects, asks⟩ : ∃ answer, Gives (send (ext.libraryWith own inside) call project "getObjects" []) w _ _ :=
    send_bare foreign "getObjects" w
  have makes : Gives (send (ext.libraryWith own inside) call (outside objects) "newInstance" [specClass plan t]) _ _ _ :=
    send_newInstance (outside_foreign objects) _ (w.after [(.call project "getObjects" [], outside objects)])
  have classed : (specOf plan t).name? = some (specificationName plan.packageName t.task.namePrefix) := rfl
  rw [after_after] at makes
  refine ⟨outside objects, _, created_foreign _, ?_, eval_invoke (eval_invoke (eval_ownField itself known) evalAll_nil asks)
    (evalAll_cons (eval_classRef classed) evalAll_nil) makes⟩
  rw [List.append_cons]
  exact className?_created rfl

/-- A new name is taken, and a specification of the type that belongs to the method is made and gets its defaults. -/
theorem preparation_runs (made : defaultExtension x.plan = .ok (.class ext.body ext.inner)) (distinct : DistinctTasks x.plan)
    (given : t ∈ x.plan.tasks) (holds : Holds x earlier w) (fresh : name ∉ earlier) (itself : frame.this = self)
    (held : frame.parameters.lookup "name" = some (text name)) : ∃ spec start, Foreign spec ∧
      Begun x t name action spec (start ++ [(.call (outside action) "execute" [spec], .null)]) ∧
      Gives (runAll (ext.library inside 1) call rounds frame (preparation x.plan t) []) w (.next [("spec", spec)])
        (w.after start) := by
  obtain ⟨configureSpec, configured, -⟩ := methods_declared made given
  have accepted : Gives (runStmt (ext.library inside 1) call rounds frame (refuseDuplicate t) []) w (.next []) _ :=
    accepts holds fresh itself held
  obtain ⟨objects, spec, foreign, isSpec, makes⟩ := @eval_newSpecification ext inside (ext.callOwn (ext.library inside 0)) call
    frame [] (w.after [(.call x.names "add" [text name], .literal (.boolean true))]) x.plan t x.project holds.project
    holds.foreign.2 itself
  rw [after_after] at makes
  obtain ⟨defaults, applies, applied⟩ := @configureSpec_runs x.plan ext t (fun _ _ => throw .stuck) inside _ _ configured foreign
    (w.after [(.call x.names "add" [text name], .literal (.boolean true)), (.call x.project "getObjects" [], objects),
      (.call objects "newInstance" [specClass x.plan t], spec)])
  rw [after_after] at applied
  rw [after_log, List.append_assoc] at isSpec
  have configures : Gives (send (ext.library inside 1) call frame.this "configureSpec" [spec]) _ .null _ :=
    itself ▸ send_own (gives_callOwn (configureSpec_found made distinct given configured isSpec) applied)
  exact ⟨spec, _, foreign, .steps objects applies, runAll_cons accepted (runAll_cons (run_define makes) (runAll_cons (run_expr
    (eval_invoke eval_this (evalAll_cons (eval_local rfl) evalAll_nil) configures)) runAll_nil))⟩

/-- The action gets the specification, and then a task of the type that belongs to the method is registered. -/
theorem completion_runs (made : defaultExtension x.plan = .ok (.class ext.body ext.inner)) (distinct : DistinctTasks x.plan)
    (given : t ∈ x.plan.tasks) {before after : World} {spec : Value}
    (acts : Gives inside (before.after [(.call (outside action) "execute" [spec], .null)]) () after)
    (holds : Holds x earlier after) (unused : name ∉ (registrations after.log).map (·.1)) (itself : frame.this = self)
    (held : frame.parameters.lookup "name" = some (text name))
    (heldAction : frame.parameters.lookup "action" = some (outside action)) :
    ∃ locals finish, Ended x t name spec finish ∧
      Gives (runAll (ext.library inside 1) call rounds frame (completion x.plan t) [("spec", spec)]) before (.next locals)
        (after.after finish) := by
  let configurator := created after.log.length
  let creation : Step := (.create (.class (configuratorName t)) [spec, x.classpath], configurator)
  have executes : Gives (send (ext.library inside 1) call (outside action) "execute" [spec]) before .null after :=
    send_execute (outside_foreign action) acts
  have still : name ∉ (registrations (after.after [creation]).log).map (·.1) := by
    rwa [after_log, registrations_append, show registrations [creation] = [] from rfl, List.append_nil]
  obtain ⟨tasks, provider, registers⟩ := @createTask_runs x.plan ext t (fun _ _ => throw .stuck) inside
    (after.after [creation]) x.project name holds.project holds.foreign.2 still configurator
  rw [after_after] at registers
  have creates : Gives (send (ext.library inside 1) call frame.this (createTaskName t) [text name, configurator]) _ provider _ :=
    itself ▸ send_own (gives_callOwn (createTask_found made distinct given name (className?_created rfl)) registers)
  refine ⟨_, _, .steps configurator tasks provider, runAll_cons (run_expr (eval_invoke (eval_param heldAction)
    (evalAll_cons (eval_local rfl) evalAll_nil) executes)) (runAll_cons (run_define (eval_invoke eval_this
    (evalAll_cons (eval_param held) (evalAll_cons (eval_new _ ?_) evalAll_nil)) creates)) runAll_nil)⟩
  exact evalAll_cons (eval_local rfl) (evalAll_cons (eval_ownField itself holds.classpath) evalAll_nil)

variable (inside action) in
theorem enter_registers (made : defaultExtension x.plan = .ok (.class ext.body ext.inner)) (distinct : DistinctTasks x.plan)
    (given : t ∈ x.plan.tasks) (holds : Holds x earlier w) (fresh : name ∉ earlier) :
    ∃ spec start, Begun x t name action spec start ∧ ∀ middle names,
      Gives inside (w.after start) () (w.after (start ++ middle)) → Holds x names (w.after (start ++ middle)) →
      name ∉ (registrations (w.after (start ++ middle)).log).map (·.1) →
      ∃ finish, Ended x t name spec finish ∧
        Gives (ext.enter inside t name action) w .null (w.after (start ++ middle ++ finish)) := by
  let call := callMethod (ext.library inside 1) 0
  let frame : Frame := ⟨self, [("name", text name), ("action", outside action)]⟩
  obtain ⟨spec, start, foreign, begun, prepares⟩ := @preparation_runs x ext t inside call 0 frame earlier w name action made
    distinct given holds fresh rfl rfl
  refine ⟨spec, _, begun, fun middle names acts holdsAfter unused => ?_⟩
  rw [← after_after] at acts
  obtain ⟨locals, finish, ended, completes⟩ := @completion_runs x ext t inside call 0 frame names name action made distinct
    given (w.after start) _ spec acts holdsAfter unused rfl rfl rfl
  rw [after_after] at completes
  refine ⟨finish, ended, (gives_ofOption (implementation_found made distinct given) w).bind ?_⟩
  exact call_block (extensionMethod_body x.plan t) rfl (runAll_append prepares completes)

variable (inside action) in
theorem enter_refuses (made : defaultExtension x.plan = .ok (.class ext.body ext.inner)) (distinct : DistinctTasks x.plan)
    (given : t ∈ x.plan.tasks) (holds : Holds x earlier w) (used : name ∈ earlier) :
    ∃ exception steps, Refused x t name exception steps ∧
      Throws (ext.enter inside t name action) w exception (w.after steps) := by
  obtain ⟨exception, steps, refused, throws⟩ := @refuses x ext t inside (ext.callOwn (ext.library inside 0))
    (callMethod (ext.library inside 1) 0) 0 ⟨self, [("name", text name), ("action", outside action)]⟩ [] earlier w name holds
    used rfl rfl
  refine ⟨exception, steps, refused, Throws.later (gives_ofOption (implementation_found made distinct given) w) ?_⟩
  exact throws_call (extensionMethod_body x.plan t) rfl (throws_runAll throws)

end Calls

section Runs
variable {x : Setting} {ext : Extension} {earlier names : List String} {script : Script} {w : World} {steps : Log}

theorem Holds.after (holds : Holds x earlier w) (performed : Performed x earlier script names steps) :
    Holds x (earlier ++ names) (w.after steps) :=
  holds.extend performed.additions fun name member => ((performed.registered_iff name).mp member).1

theorem Holds.begun {t : GradleTask} {name : String} {action : Nat} {spec : Value} (holds : Holds x earlier w)
    (begun : Begun x t name action spec steps) : Holds x (earlier ++ [name]) (w.after steps) :=
  holds.extend begun.effect.1 (begun.effect.2 ▸ List.forall_mem_nil _)

theorem Holds.refused {t : GradleTask} {name : String} {exception : Value} (holds : Holds x earlier w)
    (refused : Refused x t name exception steps) : Holds x (earlier ++ [name]) (w.after steps) :=
  holds.extend refused.effect.1 (refused.effect.2 ▸ List.forall_mem_nil _)

/-- After a registration its name is one that was used. -/
theorem Holds.ended {t : GradleTask} {name : String} {spec : Value} (holds : Holds x earlier w) (used : name ∈ earlier)
    (ended : Ended x t name spec steps) : Holds x earlier (w.after steps) := by
  obtain ⟨added, registered⟩ := ended.effect
  exact { holds with
    set := className?_append holds.set
    added := by rw [after_log, additions_append, holds.added, added, List.append_nil]
    registered := by
      rw [after_log, registrations_append, List.map_append, registered]
      exact List.forall_mem_append.mpr ⟨holds.registered, List.forall_mem_singleton.mpr used⟩ }

/-- A script runs to its end from any state between calls. What its actions do is again such a run. -/
theorem run_performs (made : defaultExtension x.plan = .ok (.class ext.body ext.inner)) (distinct : DistinctTasks x.plan)
    (offered : Offered x.plan script) (holds : Holds x earlier w) :
    ∃ names steps, Performed x earlier script names steps ∧ Gives (ext.run script) w () (w.after steps) := by
  induction offered generalizing earlier w with
  | done =>
    refine ⟨[], [], .done, ?_⟩
    rw [after_nil]
    exact gives_pure () w
  | @call t name action inside next given acts goes actIh goIh =>
    by_cases used : name ∈ earlier
    · obtain ⟨exception, start, refused, throws⟩ := enter_refuses (ext.run inside) action made distinct given holds used
      obtain ⟨later, rest, performed, runs⟩ := goIh (.error exception) (holds.refused refused)
      rw [after_after] at runs
      exact ⟨_, _, .refused used refused performed, (attempt_throws throws).bind runs⟩
    · obtain ⟨spec, start, begun, registers⟩ := enter_registers (ext.run inside) action made distinct given holds used
      obtain ⟨nested, middle, acted, runsInside⟩ := actIh (holds.begun begun)
      have holdsInside := (holds.begun begun).after acted
      rw [after_after] at runsInside holdsInside
      have unused : name ∉ (registrations (w.after (start ++ middle)).log).map (·.1) := by
        rw [after_log, registrations_append, registrations_append, begun.effect.2, List.nil_append, List.map_append,
          List.mem_append]
        rintro (before | within)
        · exact used (holds.registered name before)
        · exact ((acted.registered_iff name).mp within).2 (by simp)
      obtain ⟨finish, ended, enters⟩ := registers middle _ runsInside holdsInside unused
      rw [List.append_assoc, List.singleton_append] at holdsInside
      obtain ⟨later, rest, performed, runs⟩ := goIh (.ok .null) (holdsInside.ended (by simp) ended)
      rw [after_after, after_after] at runs
      exact ⟨_, _, .registered used begun acted ended performed, (gives_attempt enters).bind runs⟩

/-- What an extension of a new build script works with. -/
def initialSetting (plan : GradlePlan) (project classpath : Nat) : Setting :=
  ⟨plan, created 0, outside project, outside classpath⟩

/-- A new extension has an empty set of names. -/
theorem construct_holds {plan : GradlePlan} (made : defaultExtension plan = .ok (.class ext.body ext.inner))
    (project classpath : Nat) : ∃ built, Gives (ext.construct [outside project, outside classpath]) {} self built ∧
      built.log = [(.create (.class "java.util.HashSet") [], created 0)] ∧
      Holds (initialSetting plan project classpath) [] built := by
  obtain ⟨body, inner, answers⟩ := ext
  obtain ⟨methods, _, finishes⟩ := except_bind.mp made
  cases finishes
  refine ⟨⟨[("classpath", outside classpath), ("project", outside project), ("names", created 0)],
    [(.create (.class "java.util.HashSet") [], created 0)]⟩, rfl, rfl, ?_⟩
  exact {
    names := rfl
    project := rfl
    classpath := rfl
    set := rfl
    foreign := ⟨created_foreign 0, outside_foreign project⟩
    added := rfl
    registered := List.forall_mem_nil _ }

/-- Whatever a build script and its actions do with a new extension, and whatever Gradle answers, each call registers one
task of the type that belongs to its method, after the action has been executed on a specification with the defaults, if its
name was not used by any call before, and throws an exception before there is a specification otherwise. So every name that
is used is registered, and none is registered twice. -/
theorem names_registered_once {plan : GradlePlan} (made : defaultExtension plan = .ok (.class ext.body ext.inner))
    (distinct : DistinctTasks plan) (project classpath : Nat) (offered : Offered plan script) : ∃ built names steps,
    Gives (ext.construct [outside project, outside classpath]) {} self built ∧
    Gives (ext.run script) built () (built.after steps) ∧
    Performed (initialSetting plan project classpath) [] script names steps ∧
    ((registrations (built.log ++ steps)).map (·.1)).Nodup ∧
    ∀ name, name ∈ (registrations (built.log ++ steps)).map (·.1) ↔ name ∈ names := by
  obtain ⟨built, constructs, log, holds⟩ := construct_holds made project classpath
  obtain ⟨names, steps, performed, runs⟩ := run_performs (x := initialSetting plan project classpath) made distinct offered
    holds
  have initial : registrations built.log = [] := by
    rw [log]
    rfl
  have registered : registrations (built.log ++ steps) = registrations steps := by
    rw [registrations_append, initial, List.nil_append]
  refine ⟨built, names, steps, constructs, runs, performed, registered ▸ performed.registered_once, fun name => ?_⟩
  rw [registered, performed.registered_iff]
  exact and_iff_left List.not_mem_nil

/-- The level of a publication, which is a text that has a default. -/
def level : Parameter where
  property := { name := "level", ty := .named "java.lang.String" [] 0 }
  required := false
  defaultValue := some "info"
  internal := false
  directory := false
  output := false
  globalProperty := none
  javadoc := ""
  ty := .string
  conversion := .identity
  pathSensitivity := .none

def taskNamed (namePrefix method : String) (parameters : List Parameter) : GradleTask where
  task := {
    source := { name := "com.acme." ++ namePrefix }
    parameters
    methodName := "run"
    namePrefix
    javadoc := {}
    replicas := [] }
  extensionMethodName := method
  taskDoc := ""
  methodDoc := ""
  cacheable := false

def site : GradlePlan where
  tasks := [taskNamed "Compile" "compile" [], taskNamed "Publish" "publish" [level]]
  packageName := "com.acme.gradle"
  namePrefix := "Site"
  taskGroup := none
  micronautPlugin := false
  dependency := none
  kinds := []
  replicas := []

/-- The action of a first call makes a call of another method, and after them the first name is used again. -/
def siteScript : Script :=
  .call (taskNamed "Compile" "compile" []) "main" 0
    (.call (taskNamed "Publish" "publish" [level]) "pages" 1 .done fun _ => .done)
    fun _ => .call (taskNamed "Publish" "publish" [level]) "main" 2 .done fun _ => .done

theorem site_registered : ∃ body inner, defaultExtension site = .ok (.class body inner) ∧ DistinctTasks site ∧
    Offered site siteScript ∧ ∃ built steps,
      Gives ((Extension.mk body inner fun _ _ => 0).construct [outside 0, outside 1]) {} self built ∧
      Gives ((Extension.mk body inner fun _ _ => 0).run siteScript) built () (built.after steps) ∧
      registrations steps = [("pages", taskClass site (taskNamed "Publish" "publish" [level])),
        ("main", taskClass site (taskNamed "Compile" "compile" []))] := by
  obtain ⟨body, inner, made⟩ : ∃ body inner, defaultExtension site = .ok (.class body inner) := ⟨_, _, rfl⟩
  have distinct : DistinctTasks site := ⟨by decide, by decide⟩
  have offered : Offered site siteScript := .call (by simp [site]) (.call (by simp [site]) .done fun _ => .done)
    fun _ => .call (by simp [site]) .done fun _ => .done
  obtain ⟨built, names, steps, constructs, runs, performed, -⟩ :=
    @names_registered_once ⟨body, inner, fun _ _ => 0⟩ siteScript site made distinct 0 1 offered
  refine ⟨body, inner, made, distinct, offered, built, steps, constructs, runs, ?_⟩
  cases performed with
  | refused used => cases used
  | registered _ begins acts ends goes =>
    cases acts with
    | refused used => simp at used
    | registered _ beginsInside actsInside endsInside goesInside =>
      cases actsInside
      cases goesInside
      cases goes with
      | registered fresh => simp at fresh
      | refused _ refuses goes =>
        cases goes
        simp [begins.effect.2, beginsInside.effect.2, ends.effect.2, endsInside.effect.2, refuses.effect.2, initialSetting]

end Runs

end PluginForge.Proofs.RegisteredTasks
