import PluginForge.Generation.TriggerPlan
import PluginForge.Proofs.ReplicationRule
import PluginForge.Proofs.Results

/-! What a resolved task is made of: its parameters are the properties of the source with what replicating their
types one after the other refers to, and its copies are those touched on the way. The tasks of a trigger are
resolved in a chain of registries. -/

namespace PluginForge.Proofs.TaskResolution
open Results ReplicationLogic ReplicationRule TaskPlan

variable {cx : Context} {package : String}

theorem parameters_yield {owner : String} {doc : TypeDoc} {properties : List Property} {parameters : List Parameter}
    {s after : ReplicationState} (yields : Yields (properties.mapM (parameter cx package owner doc)) s parameters after) :
    ∃ refs, Yields ((properties.map (·.ty)).mapM (cx.replicate s!"{package}.{modelPackage}")) s refs after ∧
      refs.length = properties.length ∧
        parameters = (properties.zip refs).map fun part => Parameter.resolve doc part.1 part.2 := by
  have each := yields_mapM.mp yields
  clear yields
  induction each with
  | nil => exact ⟨[], yields_pure.mpr ⟨rfl, rfl⟩, rfl, rfl⟩
  | @cons p rest resolved others s middle after first _ ih =>
    obtain ⟨refs, remaining, length, rfl⟩ := ih
    unfold parameter at first
    obtain ⟨ref, next, made, first⟩ := yields_bind.mp first
    obtain ⟨checked, final, check, first⟩ := yields_bind.mp first
    obtain ⟨_, rfl⟩ := yields_lift.mp check
    obtain ⟨rfl, rfl⟩ := yields_pure.mp first
    refine ⟨ref :: refs, ?_, by simp [length], rfl⟩
    exact yields_mapM.mpr (.cons made (yields_mapM.mp remaining))

/-- A task that was resolved with a registry at hand, and the registry it left. -/
structure Resolved (cx : Context) (package : String) (task : TaskPlan) (registry last : Registry) : Prop where
  loaded : cx.catalog.load? task.source.name = some task.source
  run : ∃ refs after, Yields ((task.source.properties.map (·.ty)).mapM (cx.replicate s!"{package}.{modelPackage}"))
      { registry } refs after ∧ refs.length = task.source.properties.length ∧
    task.parameters = (task.source.properties.zip refs).map (fun part => Parameter.resolve task.javadoc part.1 part.2) ∧
    task.replicas = after.replicas ∧ last = after.registry

theorem resolve_eq_ok_iff {trigger source : String} {given : Option String} {registry last : Registry} {task : TaskPlan} :
    resolve cx trigger package source given registry = .ok (task, last) ↔
      ∃ d method doc parameters after, cx.catalog.load? source = some d ∧ d.taskMethod = .ok method ∧
        cx.javadoc d.name = .ok doc ∧
        Yields (d.properties.mapM (parameter cx package d.name doc)) { registry } parameters after ∧
        after.registry = last ∧ task = {
          source := d
          parameters
          methodName := method.name
          namePrefix := prefixOr given d
          javadoc := doc
          replicas := after.replicas } := by
  unfold resolve
  constructor
  · intro resolves
    cases loaded : cx.catalog.load? source with
    | none =>
      rw [loaded] at resolves
      cases resolves
    | some d =>
      simp only [loaded] at resolves
      obtain ⟨method, runs, resolves⟩ := except_bind.mp resolves
      obtain ⟨doc, documented, resolves⟩ := except_bind.mp resolves
      generalize made : (d.properties.mapM (parameter cx package d.name doc)).run.run { registry } = outcome at resolves
      obtain ⟨result, after⟩ := outcome
      obtain ⟨parameters, rfl, finishes⟩ := except_bind.mp resolves
      cases finishes
      exact ⟨d, method, doc, parameters, after, rfl, runs, documented, made, rfl, rfl⟩
  · rintro ⟨d, method, doc, parameters, after, loaded, runs, documented, made, rfl, rfl⟩
    have made : (d.properties.mapM (parameter cx package d.name doc)).run.run { registry } = (.ok parameters, after) := made
    simp only [loaded]
    refine except_bind.mpr ⟨method, runs, except_bind.mpr ⟨doc, documented, ?_⟩⟩
    rw [made]
    rfl

theorem resolve_resolved {trigger source : String} {given : Option String} {registry last : Registry} {task : TaskPlan}
    (resolves : resolve cx trigger package source given registry = .ok (task, last)) :
    Resolved cx package task registry last := by
  obtain ⟨d, method, doc, parameters, after, loaded, _, _, made, rfl, rfl⟩ := resolve_eq_ok_iff.mp resolves
  obtain ⟨refs, yields, length, same⟩ := parameters_yield made
  exact ⟨ModelTypes.name_of_load? loaded ▸ loaded, refs, after, yields, length, same, rfl, rfl⟩

/-- Each item is reached from the registry that the one before it left. -/
inductive Chain {α : Type} (step : α → Registry → Registry → Prop) : List α → Registry → Registry → Prop where
  | nil {registry : Registry} : Chain step [] registry registry
  | cons {item : α} {items : List α} {registry middle last : Registry} (first : step item registry middle)
      (rest : Chain step items middle last) : Chain step (item :: items) registry last

theorem resolveAll_cons_eq_ok_iff {ρ α : Type} {resolve : ρ → Registry → Except GenerateError (α × Registry)}
    {request : ρ} {rest : List ρ} {items : List α} {registry last : Registry} :
    resolveAll resolve (request :: rest) registry = .ok (items, last) ↔ ∃ item middle others,
      resolve request registry = .ok (item, middle) ∧ resolveAll resolve rest middle = .ok (others, last) ∧
        items = item :: others := by
  rw [resolveAll]
  constructor
  · intro resolves
    obtain ⟨⟨item, middle⟩, made, resolves⟩ := except_bind.mp resolves
    obtain ⟨⟨others, _⟩, remaining, finishes⟩ := except_bind.mp resolves
    cases finishes
    exact ⟨item, middle, others, made, remaining, rfl⟩
  · rintro ⟨item, middle, others, made, remaining, rfl⟩
    exact except_bind.mpr ⟨_, made, except_bind.mpr ⟨_, remaining, rfl⟩⟩

theorem resolveAll_chain {ρ α : Type} {resolve : ρ → Registry → Except GenerateError (α × Registry)}
    {step : α → Registry → Registry → Prop} {requests : List ρ} {items : List α} {registry last : Registry}
    (steps : ∀ request registry item last, resolve request registry = .ok (item, last) → step item registry last)
    (resolves : resolveAll resolve requests registry = .ok (items, last)) : Chain step items registry last := by
  induction requests generalizing items registry with
  | nil =>
    cases resolves
    exact .nil
  | cons request rest ih =>
    obtain ⟨_, _, _, made, remaining, rfl⟩ := resolveAll_cons_eq_ok_iff.mp resolves
    exact .cons (steps _ _ _ _ made) (ih remaining)

theorem resolveTask_resolved {trigger : Descriptor} {r : GradleTaskRequest} {t : GradleTask} {registry last : Registry}
    (resolves : GradlePlan.resolveTask cx trigger r registry = .ok (t, last)) :
    Resolved cx trigger.packageName t.task registry last := by
  obtain ⟨⟨task, middle⟩, made, finishes⟩ := except_bind.mp resolves
  cases finishes
  exact resolve_resolved made

theorem resolveMojo_resolved {trigger : Descriptor} {r : MojoRequest} {m : MojoPlan} {registry last : Registry}
    (resolves : MavenPlan.resolveMojo cx trigger r registry = .ok (m, last)) :
    Resolved cx trigger.packageName m.task registry last := by
  obtain ⟨⟨task, middle⟩, made, finishes⟩ := except_bind.mp resolves
  cases finishes
  exact resolve_resolved made

theorem gradle_plan_iff {trigger : Descriptor} {plan : GradlePlan} : GradlePlan.ofTrigger cx trigger = .ok plan ↔
    ∃ request, trigger.gradlePlugin = some request ∧ ∃ tasks last,
      resolveAll (GradlePlan.resolveTask cx trigger) request.tasks {} = .ok (tasks, last) ∧ plan = {
        tasks
        packageName := trigger.packageName
        namePrefix := prefixOr request.namePrefix trigger
        taskGroup := request.taskGroup
        micronautPlugin := request.micronautPlugin
        dependency := request.dependency
        kinds := request.types
        replicas := last.replicas } := by
  unfold GradlePlan.ofTrigger
  cases requested : trigger.gradlePlugin with
  | none => simp
  | some request =>
    simp only [Option.some.injEq, exists_eq_left']
    constructor
    · intro planned
      obtain ⟨⟨tasks, last⟩, resolved, finishes⟩ := except_bind.mp planned
      cases finishes
      exact ⟨tasks, last, resolved, rfl⟩
    · rintro ⟨tasks, last, resolved, rfl⟩
      exact except_bind.mpr ⟨_, resolved, rfl⟩

theorem maven_plan_iff {trigger : Descriptor} {plan : MavenPlan} : MavenPlan.ofTrigger cx trigger = .ok plan ↔
    trigger.mavenMojos ≠ [] ∧ ∃ mojos last,
      resolveAll (MavenPlan.resolveMojo cx trigger) trigger.mavenMojos {} = .ok (mojos, last) ∧
        plan = { mojos, replicas := last.replicas } := by
  unfold MavenPlan.ofTrigger
  cases asked : trigger.mavenMojos with
  | nil => simp
  | cons r rest =>
    simp only [List.isEmpty_cons, Bool.false_eq_true, if_false]
    constructor
    · intro planned
      obtain ⟨⟨mojos, last⟩, resolved, finishes⟩ := except_bind.mp planned
      cases finishes
      exact ⟨List.cons_ne_nil _ _, mojos, last, resolved, rfl⟩
    · rintro ⟨_, mojos, last, resolved, rfl⟩
      exact except_bind.mpr ⟨_, resolved, rfl⟩

theorem gradle_resolved {trigger : Descriptor} {plan : GradlePlan} (planned : GradlePlan.ofTrigger cx trigger = .ok plan) :
    ∃ last, Chain (fun t => Resolved cx trigger.packageName t.task) plan.tasks {} last ∧
      plan.replicas = last.replicas := by
  obtain ⟨_, _, tasks, last, resolved, rfl⟩ := gradle_plan_iff.mp planned
  exact ⟨last, resolveAll_chain (fun _ _ _ _ => resolveTask_resolved) resolved, rfl⟩

theorem maven_resolved {trigger : Descriptor} {plan : MavenPlan} (planned : MavenPlan.ofTrigger cx trigger = .ok plan) :
    ∃ last, Chain (fun m => Resolved cx trigger.packageName m.task) plan.mojos {} last ∧
      plan.replicas = last.replicas := by
  obtain ⟨_, mojos, last, resolved, rfl⟩ := maven_plan_iff.mp planned
  exact ⟨last, resolveAll_chain (fun _ _ _ _ => resolveMojo_resolved) resolved, rfl⟩

end PluginForge.Proofs.TaskResolution
