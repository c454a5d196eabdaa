import Mathlib.Logic.Equiv.List
import Mathlib.Tactic.DeriveEncodable
import PluginForge.Proofs.ConfigurationBodies
import PluginForge.Proofs.GradleAgreement
import PluginForge.Proofs.PlannedTasks

/-! The way of a value from where it is set to the work action. It passes the specification, the task and the
parameters of the work, by four bodies that are generated apart from each other. -/

namespace PluginForge.Proofs.ValueFlow
open Gradle Results PlannedTasks BuiltTypes Evaluation EvaluationRules GradleProperties EffectiveValues
open ConfigurationBodies
open GradleAgreement (releases release)

/-- The generated methods on the way of a value. -/
structure Bodies where
  configureSpec : MethodDef
  configureTask : MethodDef
  configureParameters : MethodDef
  execute : MethodDef

/-- Where the methods are: in the implementation of the extension, and in the types nested in it and in the task. -/
structure BodiesOf (plan : GradlePlan) (t : GradleTask) (task : ObjectDef) (b : Bodies) : Prop where
  configureSpec : configureSpecMethod plan t = .ok b.configureSpec
  configureTask : (taskConfigurator plan t).method? "execute" = some b.configureTask
  extension : ∀ extension, defaultExtension plan = .ok extension →
    b.configureSpec ∈ extension.methods ∧ taskConfigurator plan t ∈ extension.inner
  configureParameters : ∃ c ∈ task.inner, parameterConfiguratorClass t (taskOf plan t) = .ok c ∧
    c.method? "execute" = some b.configureParameters
  execute : ∃ c ∈ task.inner, workActionClass t = .ok c ∧ workActionExecute t = .ok b.execute ∧ b.execute ∈ c.methods

/-- Configures a specification, a task and the parameters of its work in turn, with values set by a build script after
either of the first two. -/
def configure (w : World) (depth budget : Nat) (b : Bodies) (early late : List Choice) : Run State Unit := do
  let call := callMethod (w.library depth) budget
  let _ ← call b.configureSpec (w.refer .extension) [w.refer (.object .specification)]
  choose w depth early
  let _ ← call b.configureTask (w.refer .taskConfigurator) [w.refer (.object .task)]
  choose w depth late
  let _ ← call b.configureParameters (w.refer .parameterConfigurator) [w.refer (.object .parameters)]
  return

section Work
variable {t : GradleTask}

def workParameters (t : GradleTask) : Variable := ⟨"parameters", nestedType t workActionParameters⟩

/-- What the work action does first. -/
def readParameters (t : GradleTask) : Stmt :=
  .define (workParameters t) (Expr.this.invoke "getParameters" (workParameters t).ty [])

/-- The conversion of a parameter by the work action, of the value as it is read from the parameters of the work. -/
def converted (t : GradleTask) (p : Parameter) : List Stmt × Expr :=
  p.conversion.convert (p.name ++ "Param") (workValue (workParameters t) p)

/-- The work action gets at the parameters of its work, converts what it reads from them and binds it to the task
source, and each read gives the value that counts. -/
structure Receives (w : World) (depth budget : Nat) (t : GradleTask) (choices : List Choice) (execute : MethodDef)
    (s : State) : Prop where
  executes : ∃ run, t.task.source.runTask t.task.methodName
      (t.task.parameters.map fun p => (p.name, (converted t p).2)) = .ok run ∧ execute.parameters = [] ∧
    execute.body = some (.block (readParameters t :: (t.task.parameters.flatMap fun p => (converted t p).1) ++ [run]))
  parameters : Gives (runStmt (w.library depth) (callMethod (w.library depth) budget) budget ⟨w.refer .workAction, []⟩
    (readParameters t) []) s (.next [("parameters", w.refer (.object .parameters))]) s
  defaults : ∀ p ∈ t.task.parameters, p.defaultValue.isSome = true → (declaredDefault t p).isSome = true
  values : ∀ p ∈ t.task.parameters, ∀ value result, effective t choices p = some value →
    delivered? w.toPlatform p value = some result →
    ∀ locals : Locals, locals.lookup "parameters" = some (w.refer (.object .parameters)) →
      Gives (evalExpr (w.library depth) (callMethod (w.library depth) budget) ⟨w.refer .workAction, []⟩ locals
        (workValue (workParameters t) p)) s result s

theorem workActionExecute_body {execute : MethodDef} (made : workActionExecute t = .ok execute) :
    ∃ run, t.task.source.runTask t.task.methodName (t.task.parameters.map fun p => (p.name, (converted t p).2)) = .ok run ∧
      execute.parameters = [] ∧ execute.body =
        some (.block (readParameters t :: (t.task.parameters.flatMap fun p => (converted t p).1) ++ [run])) := by
  obtain ⟨run, ran, rfl⟩ := workActionExecute_built made
  exact ⟨run, ran, rfl, rfl⟩

/-- Both ways of reading a property that has a value give the value, and a file location gives the file. -/
theorem workValue_gives {w : World} {depth : Nat} {call : MethodDef → Value → List Value → Run State Value}
    {frame : Frame} {locals : Locals} {s : State} {p : Parameter} {value result : Value}
    (known : w.member? .parameters (getterName p) = some (w.refer (.property .parameters (getterName p))))
    (held : locals.lookup "parameters" = some (w.refer (.object .parameters)))
    (reads : s.readWithin depth (.property .parameters (getterName p)) = some (some value))
    (plain : w.IsPlain value) (delivers : delivered? w.toPlatform p value = some result) :
    Gives (evalExpr (w.library depth) call frame locals (workValue (workParameters t) p)) s result s := by
  have property : Gives (evalExpr (w.library depth) call frame locals (readProperty (workParameters t).toLocal p)) s
      (w.refer (.property .parameters (getterName p))) s := eval_readProperty (eval_local held) known
  have read (method : String) (way : method = "getOrNull" ∨ method = "get") (ty : TypeRef) :
      Gives (evalExpr (w.library depth) call frame locals
        ((readProperty (workParameters t).toLocal p).invoke method ty [])) s value s := by
    rcases way with rfl | rfl
    · exact eval_invoke property evalAll_nil (send_getOrNull reads)
    · exact eval_invoke property evalAll_nil (send_get reads)
  have way : (if (!p.required && p.defaultValue.isNone) = true then "getOrNull" else "get") = "getOrNull" ∨
      (if (!p.required && p.defaultValue.isNone) = true then "getOrNull" else "get") = "get" := by
    split
    · exact .inl rfl
    · exact .inr rfl
  unfold delivered? at delivers
  unfold workValue
  by_cases isFile : p.sourceType.isFile = true
  · rw [if_pos isFile] at delivers
    simp only [if_pos isFile]
    exact eval_invoke (read _ way _) evalAll_nil (send_getAsFile plain delivers)
  · rw [if_neg isFile] at delivers
    cases delivers
    simp only [if_neg isFile]
    exact read _ way _

end Work

/-- A task that can be built has all methods on the way. -/
theorem bodies_built {plan : GradlePlan} {t : GradleTask} {task : ObjectDef} (given : t ∈ plan.tasks)
    (built : taskDefinition plan.packageName t = .ok task)
    (never : ∀ p ∈ t.task.parameters, p.required = true → p.defaultValue = none) : ∃ b, BodiesOf plan t task b := by
  obtain ⟨configureSpec, configured⟩ := configureSpec_made built never
  obtain ⟨work, statements, worked, passed, inner⟩ := task_nested built
  have made : parameterConfiguratorClass t (taskOf plan t) = .ok _ := except_bind.mpr ⟨statements, passed, rfl⟩
  obtain ⟨execute, executes, finishes⟩ := except_bind.mp worked
  cases finishes
  obtain ⟨configureTask, ofTask⟩ : ∃ m, (taskConfigurator plan t).method? "execute" = some m := ⟨_, method?_execute rfl rfl⟩
  obtain ⟨configureParameters, ofParameters⟩ : ∃ m, (configurator t (taskOf plan t) parameterConfigurator
      ⟨"params", nestedType t workActionParameters⟩ (.block statements)).method? "execute" = some m :=
    ⟨_, method?_execute rfl rfl⟩
  refine ⟨⟨configureSpec, configureTask, configureParameters, execute⟩, configured, ofTask, ?_,
    ⟨_, ?_, made, ofParameters⟩, ⟨_, ?_, worked, executes, ?_⟩⟩
  · intro extension implements
    obtain ⟨nested, _, specs⟩ := extension_methods implements
    obtain ⟨m, same, declared⟩ := specs t given
    cases configured.symm.trans same
    exact ⟨declared _ (by simp), nested ▸ List.mem_map_of_mem given⟩
  · rw [inner]
    exact List.mem_cons_of_mem _ (List.mem_cons_of_mem _ (List.mem_cons_self ..))
  · rw [inner]
    exact List.mem_cons_self ..
  · exact List.mem_append_right _ (List.mem_singleton_self _)

theorem handed_receives {platform : Platform} {plan : GradlePlan} {t : GradleTask} {task : ObjectDef}
    {choices : List Choice} {execute : MethodDef} {s : State} {depth budget : Nat}
    (built : taskDefinition plan.packageName t = .ok task) (executes : workActionExecute t = .ok execute)
    (never : ∀ p ∈ t.task.parameters, p.required = true → p.defaultValue = none)
    (plain : ∀ c ∈ choices, platform.referent? c.value = none) (configured : Configured t choices s)
    (handed : ∀ p ∈ t.task.parameters, Handed t choices s p) :
    Receives (world platform plan t task) (depth + 4) budget t choices execute s := by
  constructor
  case executes => exact workActionExecute_body executes
  case parameters => exact run_define (eval_invoke eval_this evalAll_nil send_getParameters)
  case defaults =>
    intro p member has
    obtain ⟨e, made⟩ := default_made built member (never p member) has
    obtain ⟨value, constant, _⟩ := @defaultExpr_constant platform _ _ _ made
    rw [declaredDefault_of_made has made, constant]
    rfl
  case values =>
    intro p member value result counts delivers locals known
    have bare : p.required = true → declaredDefault t p = none := by
      intro required
      exact declaredDefault_of_none (by rw [never p member required]; rfl)
    exact workValue_gives (parameters_member member) known ((handed p member).reads configured member bare counts)
      (effective_plain plain counts) delivers

/-- What the parameters of the work are handed when the specification, the task and they were configured in turn. -/
theorem configure_gives {plan : GradlePlan} {t : GradleTask} {task : ObjectDef} {platform : Platform}
    {early late : List Choice} (given : t ∈ plan.tasks) (built : taskDefinition plan.packageName t = .ok task)
    (never : ∀ p ∈ t.task.parameters, p.required = true → p.defaultValue = none) (distinct : (taskGetters t).Nodup)
    (allowed : ∀ c ∈ early ++ late, Allowed platform t c) (depth budget : Nat) :
    ∃ b, BodiesOf plan t task b ∧
      Gives (configure (world platform plan t task) (depth + 4) (budget + 1) b early late) {} ()
        (t.task.parameters.foldl (handOver t (early ++ late)) (settled platform t early late)) ∧
      Configured t (early ++ late) (t.task.parameters.foldl (handOver t (early ++ late)) (settled platform t early late)) ∧
      ∀ p ∈ t.task.parameters, Handed t (early ++ late)
        (t.task.parameters.foldl (handOver t (early ++ late)) (settled platform t early late)) p := by
  have plain : ∀ c ∈ early ++ late, platform.referent? c.value = none := fun c member => (allowed c member).plain
  obtain ⟨own, _⟩ := getters_apart distinct
  obtain ⟨earlyAllowed, lateAllowed⟩ := List.forall_mem_append.mp allowed
  obtain ⟨b, bodies⟩ := bodies_built given built never
  obtain ⟨c, _, made, is⟩ := bodies.configureParameters
  obtain ⟨passes, configured⟩ := @configureParameters_gives platform plan t task (depth + 2) budget _ _ built distinct plain
    (@stages_configured platform t early late own plain) _ _ _ made is
  obtain ⟨handed, _⟩ := @handOver_all t (early ++ late) t.task.parameters own (settled platform t early late)
  refine ⟨b, bodies, ?_, configured, handed⟩
  refine Gives.bind (configureSpec_gives bodies.configureSpec _) (Gives.bind (choose_gives built distinct earlyAllowed) ?_)
  refine Gives.bind (configureTask_gives built distinct bodies.configureTask) ?_
  exact Gives.bind (choose_gives built distinct lateAllowed) (Gives.bind passes (gives_pure () _))

/-- Whatever is set on the specification of a task and on the task, in whatever order: when both were configured and the
parameters of the work were set from the task, the specification has the declared defaults for conventions and the task
the properties of the specification. The work action reads the value set last on the task, or else the one on the
specification, or else the declared default. -/
theorem values_delivered {cx : Context} {trigger : Descriptor} {plan : GradlePlan} {t : GradleTask} {task : ObjectDef}
    (planned : GradlePlan.ofTrigger cx trigger = .ok plan) (given : t ∈ plan.tasks)
    (built : taskDefinition plan.packageName t = .ok task) (distinct : (taskGetters t).Nodup) {platform : Platform}
    {early late : List Choice} (allowed : ∀ c ∈ early ++ late, Allowed platform t c) (depth budget : Nat) :
    ∃ b, BodiesOf plan t task b ∧ ∃ after,
      Gives (configure (world platform plan t task) (depth + 4) (budget + 1) b early late) {} () after ∧
      Configured t (early ++ late) after ∧
      Receives (world platform plan t task) (depth + 4) budget t (early ++ late) b.execute after := by
  have plain : ∀ c ∈ early ++ late, platform.referent? c.value = none := fun c member => (allowed c member).plain
  have never := ((gradle_planned planned).1.resolves t given).required_bare
  obtain ⟨b, bodies, runs, configured, handed⟩ := configure_gives given built never distinct allowed depth budget
  obtain ⟨_, _, _, executes, _⟩ := bodies.execute
  exact ⟨b, bodies, _, runs, configured, handed_receives built executes never plain configured handed⟩

section Sample

instance encodableText : Encodable String :=
  Encodable.ofLeftInverse (fun text => text.toList.map Char.toNat) (fun codes => String.ofList (codes.map Char.ofNat))
    fun text => by simp [Function.comp_def, Char.ofNat_toNat]

deriving instance Encodable for Role, Reference

/-- Gradle objects at even addresses. At the odd ones are other objects, each location just before its file. -/
def numbered : Platform where
  address r := 2 * Encodable.encode r
  at? a := if a % 2 = 0 then Encodable.decode (a / 2) else none
  addressed r := by
    rw [if_pos (Nat.mul_mod_right 2 _), Nat.mul_div_cancel_left _ (by decide), Encodable.encodek]
  fileOf
    | .ref a => if a % 4 = 1 then some (.ref (a + 2)) else none
    | _ => none

/-- On the specification, every location and every required text is set. -/
def sampleEarly (t : GradleTask) : List Choice :=
  (t.task.parameters.filter fun p => !p.internal && (p.sourceType.isFile || p.required)).map fun p =>
    ⟨.specification, p, if p.sourceType.isFile then .ref 5 else .literal (.string "stage")⟩

/-- On the task, what is required is set again. -/
def sampleLate (t : GradleTask) : List Choice :=
  (t.task.parameters.filter (·.required)).map fun p => ⟨.task, p, .literal (.string "live")⟩

theorem samples_allowed (t : GradleTask) : ∀ c ∈ sampleEarly t ++ sampleLate t, Allowed numbered t c := by
  intro c member
  rcases List.mem_append.mp member with first | second
  · obtain ⟨p, inside, rfl⟩ := List.mem_map.mp first
    obtain ⟨known, kept⟩ := List.mem_filter.mp inside
    refine ⟨known, .inr ⟨rfl, ?_⟩, ?_⟩
    · simpa using (Bool.and_eq_true_iff.mp kept).1
    · dsimp only
      split <;> rfl
  · obtain ⟨p, inside, rfl⟩ := List.mem_map.mp second
    exact ⟨(List.mem_filter.mp inside).1, .inl rfl, rfl⟩

/-- What the work action gets for each parameter. -/
def received (platform : Platform) (t : GradleTask) (choices : List Choice) : List (String × Option Value) :=
  t.task.parameters.map fun p => (p.name, (effective t choices p).bind (delivered? platform p))

theorem sample_received : ((GradlePlan.ofTrigger releases release).toOption.any fun plan =>
    !plan.tasks.isEmpty && plan.tasks.all fun t =>
      (taskDefinition plan.packageName t).isOk && decide (taskGetters t).Nodup &&
        decide (received numbered t (sampleEarly t ++ sampleLate t) =
          [("target", some (.literal (.string "live"))), ("mode", some (.constant "com.acme.model.Mode" "ON")),
            ("token", some (.literal (.string "none"))), ("folder", some (.ref 7))])) = true := by
  decide +kernel

theorem release_values_delivered : ∃ plan t task,
    GradlePlan.ofTrigger releases release = .ok plan ∧ t ∈ plan.tasks ∧
    taskDefinition plan.packageName t = .ok task ∧ (taskGetters t).Nodup ∧
    (∀ c ∈ sampleEarly t ++ sampleLate t, Allowed numbered t c) ∧
    received numbered t (sampleEarly t ++ sampleLate t) =
      [("target", some (.literal (.string "live"))), ("mode", some (.constant "com.acme.model.Mode" "ON")),
        ("token", some (.literal (.string "none"))), ("folder", some (.ref 7))] ∧
    ∃ b, BodiesOf plan t task b ∧ ∃ after,
      Gives (configure (world numbered plan t task) 4 1 b (sampleEarly t) (sampleLate t)) {} () after ∧
      Configured t (sampleEarly t ++ sampleLate t) after ∧
      Receives (world numbered plan t task) 4 0 t (sampleEarly t ++ sampleLate t) b.execute after := by
  have sample := sample_received
  cases planned : GradlePlan.ofTrigger releases release with
  | error e =>
    rw [planned] at sample
    cases sample
  | ok plan =>
    rw [planned] at sample
    simp only [Except.toOption, Option.any_some, Bool.and_eq_true, List.all_eq_true, decide_eq_true_eq] at sample
    obtain ⟨planning, each⟩ := sample
    obtain ⟨t, given⟩ := List.exists_mem_of_ne_nil plan.tasks (by simpa using planning)
    obtain ⟨⟨isOk, distinct⟩, values⟩ := each t given
    cases built : taskDefinition plan.packageName t with
    | error e =>
      rw [built] at isOk
      cases isOk
    | ok task =>
      exact ⟨plan, t, task, rfl, given, built, distinct, samples_allowed t, values,
        values_delivered planned given built distinct (samples_allowed t) 0 0⟩

end Sample

end PluginForge.Proofs.ValueFlow
