import PluginForge.Proofs.PlannedTasks
import PluginForge.Proofs.ReplicationFailure
import PluginForge.Proofs.ScopedDefinitions

/-! The errors that generation ends with. Building fails because the sources have to change, or because stored
documentation cannot be read; no argument is ever missing, and only the trigger itself can be unknown. What a
session reports as fatal is unreadable documentation or a refused write, and nothing else. -/

namespace PluginForge.Proofs.ReportedErrors
open Replication ModelTypes Results ReplicationLogic ReplicationRule ReplicationInvariant ReplicationFailure
open TaskResolution PlannedTasks CallClosure Session

variable {α β : Type} {cx : Context}

/-- An error of building: the sources have to change, or documentation cannot be read. No type is unknown. -/
inductive Fault (cx : Context) : GenerateError → Prop where
  | invalid {e : GenerateError} (validation : e.isValidation = true) (known : ∀ name, e ≠ .unknownType name) :
      Fault cx e
  | unread {name : String} {failure : DescriptorError} (stored : cx.storedDoc name = .error failure) :
      Fault cx (.javadoc name failure)

/-- The computation fails by such an error, if at all. -/
def Faults (cx : Context) (result : Except GenerateError α) : Prop := ∀ e, result = .error e → Fault cx e

section Rules

theorem faults_ok {value : α} : Faults cx (.ok value) := nofun

theorem faults_error {e : GenerateError} (fault : Fault cx e) : Faults cx (.error e : Except GenerateError α) := by
  rintro _ ⟨⟩
  exact fault

theorem faults_bind {first : Except GenerateError α} {next : α → Except GenerateError β} (here : Faults cx first)
    (later : ∀ value, first = .ok value → Faults cx (next value)) : Faults cx (first >>= next) := by
  intro e stops
  rcases except_bind_error.mp stops with early | ⟨value, made, late⟩
  · exact here e early
  · exact later value made e late

theorem faults_mapM {f : α → Except GenerateError β} {items : List α} (each : ∀ item ∈ items, Faults cx (f item)) :
    Faults cx (items.mapM f) := by
  induction items with
  | nil => exact faults_ok
  | cons item rest ih =>
    obtain ⟨first, others⟩ := List.forall_mem_cons.mp each
    rw [List.mapM_cons]
    exact faults_bind first fun _ _ => faults_bind (ih others) fun _ _ => faults_ok

theorem javadoc_faults (name : String) : Faults cx (cx.javadoc name) := by
  intro e stops
  unfold Context.javadoc at stops
  split at stops
  next failure stored =>
    cases stops
    exact .unread stored
  next => split at stops <;> cases stops

end Rules

section Resolution
variable {package : String} {s after : ReplicationState} {e : GenerateError}

theorem fault_broken (cx : Context) (package : String) :
    Broken cx package (fun _ s _ after => Growing s after) fun _ _ e _ => Fault cx e where
  collection _ _ run := run
  undocumented _ _ _ unread := javadoc_faults _ _ unread
  property _ _ _ _ _ _ run := run
  construction _ _ _ _ _ _ := .invalid rfl nofun

theorem replicate_fault {ty : SourceType} (reached : Reached cx package s)
    (stops : Fails (cx.replicate package ty) s e after) : Fault cx e :=
  replicate_breaks (growing_sustained cx package) (fault_broken cx package) reached.good.unique reached.all_finished
    stops

theorem checkEnumDefault_faults (owner : String) (p : Parameter) : Faults cx (TaskPlan.checkEnumDefault cx owner p) := by
  unfold TaskPlan.checkEnumDefault
  split
  · split
    · exact faults_error (.invalid rfl nofun)
    · exact faults_ok
  · exact faults_ok

theorem parameter_fault {owner : String} {doc : TypeDoc} {p : Property}
    (reached : Reached cx s!"{package}.{TaskPlan.modelPackage}" s)
    (stops : Fails (TaskPlan.parameter cx package owner doc p) s e after) : Fault cx e := by
  rcases fails_bind.mp stops with copying | ⟨ref, middle, _, stops⟩
  · exact replicate_fault reached copying
  · rcases fails_bind.mp stops with checking | ⟨_, _, _, ended⟩
    · exact checkEnumDefault_faults _ _ e (fails_lift.mp checking).1
    · exact absurd ended fails_pure

theorem parameters_fault {owner : String} {doc : TypeDoc} {properties : List Property}
    (reached : Reached cx s!"{package}.{TaskPlan.modelPackage}" s)
    (stops : Fails (properties.mapM (TaskPlan.parameter cx package owner doc)) s e after) : Fault cx e := by
  obtain ⟨before, p, rest, parameters, middle, _, each, stops⟩ := fails_mapM stops
  obtain ⟨refs, copying, _⟩ := parameters_yield (yields_mapM.mpr each)
  exact parameter_fault (reached_each reached (yields_mapM.mp copying)) stops

theorem taskMethod_faults (d : Descriptor) : Faults cx d.taskMethod := by
  unfold Descriptor.taskMethod
  split
  · split
    · exact faults_error (.invalid rfl nofun)
    · split
      · exact faults_error (.invalid rfl nofun)
      · exact faults_ok
  · exact faults_error (.invalid rfl nofun)

theorem resolve_faults {trigger source : String} {given : Option String} {registry : Registry}
    (reached : Reached cx s!"{package}.{TaskPlan.modelPackage}" { registry }) :
    Faults cx (TaskPlan.resolve cx trigger package source given registry) := by
  unfold TaskPlan.resolve
  split
  next => exact faults_error (.invalid rfl nofun)
  next d loaded =>
    refine faults_bind (taskMethod_faults d) fun method _ => ?_
    refine faults_bind (javadoc_faults d.name) fun doc _ => ?_
    generalize made : (d.properties.mapM (TaskPlan.parameter cx package d.name doc)).run.run { registry } = outcome
    obtain ⟨result, after⟩ := outcome
    refine faults_bind (fun e stops => ?_) fun _ _ => faults_ok
    exact parameters_fault reached (made.trans (congrArg (·, after) stops))

/-- Each of several tasks is resolved with what the earlier ones left. -/
theorem resolveAll_faults {ρ α : Type} {resolve : ρ → Registry → Except GenerateError (α × Registry)}
    {good : Registry → Prop} {requests : List ρ} {registry : Registry} (start : good registry)
    (faults : ∀ request registry, good registry → Faults cx (resolve request registry))
    (keeps : ∀ request registry item last, good registry → resolve request registry = .ok (item, last) → good last) :
    Faults cx (resolveAll resolve requests registry) := by
  induction requests generalizing registry with
  | nil => exact faults_ok
  | cons request rest ih =>
    unfold resolveAll
    refine faults_bind (faults request registry start) ?_
    rintro ⟨item, last⟩ made
    exact faults_bind (ih (keeps request registry item last start made)) fun _ _ => faults_ok

theorem gradlePlan_faults (trigger : Descriptor) : Faults cx (GradlePlan.ofTrigger cx trigger) := by
  unfold GradlePlan.ofTrigger
  split
  next => exact faults_error (.invalid rfl nofun)
  next request _ =>
    have fresh : BuiltIn cx (modelPackageOf trigger) {} := ⟨.none, .fresh⟩
    refine faults_bind (resolveAll_faults fresh ?_ ?_) fun _ _ => faults_ok
    · exact fun r registry built => faults_bind (resolve_faults built.reached) fun _ _ => faults_ok
    · exact fun r registry t last built made => (resolved_equipped built (resolveTask_resolved made)).1

theorem mavenPlan_faults (trigger : Descriptor) : Faults cx (MavenPlan.ofTrigger cx trigger) := by
  unfold MavenPlan.ofTrigger
  split
  next => exact faults_error (.invalid rfl nofun)
  next =>
    have fresh : BuiltIn cx (modelPackageOf trigger) {} := ⟨.none, .fresh⟩
    refine faults_bind (resolveAll_faults fresh ?_ ?_) fun _ _ => faults_ok
    · exact fun r registry built => faults_bind (resolve_faults built.reached) fun _ _ => faults_ok
    · exact fun r registry m last built made => (resolved_equipped built (resolveMojo_resolved made)).1

end Resolution

section Building
open Gradle

variable {package : String}

theorem defaultExpr_faults (owner : String) (p : Parameter) : Faults cx (p.defaultExpr owner) := by
  intro e stops
  rcases p.defaultExpr_error stops with ⟨primitive, rfl⟩ | rfl
  · exact .invalid rfl nofun
  · exact .invalid rfl nofun

/-- A task that has an argument for each property fails to be run for want of a constructor only. -/
theorem runTask_faults {d : Descriptor} {method : String} {arguments : Arguments}
    (given : arguments.map (·.1) = d.properties.map (·.name)) : Faults cx (d.runTask method arguments) := by
  refine faults_bind (fun e stops => ?_) fun _ _ => faults_ok
  obtain ⟨_, rfl⟩ := unfit_of_construct (fun p member => argument_of_name (given ▸ List.mem_map_of_mem member)) stops
  exact .invalid rfl nofun

theorem workAction_faults {t : GradleTask} (resolves : Resolves cx package t.task) : Faults cx (workActionClass t) := by
  refine faults_bind (faults_bind (runTask_faults ?_) fun _ _ => faults_ok) fun _ _ => faults_ok
  rw [List.map_map, List.map_map, ← resolves.names]
  rfl

theorem parameterConfigurator_faults (t : GradleTask) (task : TypeRef) :
    Faults cx (parameterConfiguratorClass t task) := by
  refine faults_bind (faults_mapM fun p _ => ?_) fun _ _ => faults_ok
  refine faults_bind ?_ fun _ _ => faults_ok
  unfold taskValue
  dsimp only
  split
  · exact faults_ok
  · split
    · exact faults_bind (defaultExpr_faults _ p) fun _ _ => faults_ok
    · exact faults_ok

theorem extension_faults (plan : GradlePlan) : Faults cx (extensionDefinitions plan) := by
  refine faults_bind (faults_bind (faults_mapM fun t _ => ?_) fun _ _ => faults_ok) fun _ _ => faults_ok
  refine faults_bind (faults_bind (faults_mapM fun p _ => ?_) fun _ _ => faults_ok) fun _ _ => faults_ok
  exact faults_bind (defaultExpr_faults _ p) fun _ _ => faults_ok

theorem gradle_faults {plan : GradlePlan} {trigger : String} {supported : List ArtifactKind}
    (resolves : ∀ t ∈ plan.tasks, Resolves cx package t.task) : Faults cx (plan.definitions trigger supported) := by
  refine faults_bind (faults_mapM fun kind _ => ?_) fun _ _ => faults_ok
  split
  · cases kind with
    | task =>
      refine faults_mapM fun t member => ?_
      refine faults_bind (workAction_faults (resolves t member)) fun _ _ => ?_
      exact faults_bind (parameterConfigurator_faults t _) fun _ _ => faults_ok
    | extension => exact extension_faults plan
    | specification => exact faults_ok
    | plugin => exact faults_ok
  · exact faults_error (.invalid rfl nofun)

theorem maven_faults {plan : MavenPlan} (resolves : ∀ m ∈ plan.mojos, Resolves cx package m.task) :
    Faults cx plan.definitions := by
  refine faults_bind (faults_mapM fun m member => ?_) fun _ _ => faults_ok
  refine faults_bind (faults_bind (faults_bind (runTask_faults ?_) fun _ _ => faults_ok) fun _ _ => faults_ok)
    fun _ _ => faults_ok
  rw [List.map_map, List.map_map, ← (resolves m member).names]
  rfl

end Building

section Sessions
variable {σ : Type} {emitter : Emitter σ} {trigger : String}

/-- What the definitions of a trigger cannot be built for. -/
def Unbuilt (cx : Context) (trigger : String) (e : GenerateError) : Prop :=
  Fault cx e ∨ e = .unknownType trigger ∧ cx.catalog.load? trigger = none

theorem load_unbuilt {e : GenerateError} (stops : cx.load trigger = .error e) : Unbuilt cx trigger e := by
  unfold Context.load at stops
  split at stops
  next => cases stops
  next missing =>
    cases stops
    exact .inr ⟨rfl, missing⟩

theorem gradleDefinitions_unbuilt {supported : List ArtifactKind} {e : GenerateError}
    (stops : cx.gradleDefinitions supported trigger = .error e) : Unbuilt cx trigger e := by
  rcases except_bind_error.mp stops with unloaded | ⟨d, _, stops⟩
  · exact load_unbuilt unloaded
  · refine .inl (faults_bind (gradlePlan_faults d) (fun plan planned => ?_) e stops)
    exact gradle_faults (gradle_planned planned).1.resolves

theorem mavenDefinitions_unbuilt {e : GenerateError} (stops : cx.mavenDefinitions trigger = .error e) :
    Unbuilt cx trigger e := by
  rcases except_bind_error.mp stops with unloaded | ⟨d, _, stops⟩
  · exact load_unbuilt unloaded
  · refine .inl (faults_bind (mavenPlan_faults d) (fun plan planned => ?_) e stops)
    exact maven_faults (maven_planned planned).1.resolves

/-- The emitter refuses some write with this failure. -/
def Refuses (emitter : Emitter σ) (failure : WriteFailure) : Prop :=
  ∃ state definition owner, (emitter.write state definition owner).1 = .error failure

theorem writeNew_error {owner : String} {definitions : List ObjectDef} {generated : List String} {out : σ}
    {failure : WriteFailure} (stops : (writeNew emitter owner definitions generated out).1 = .error failure) :
    Refuses emitter failure := by
  induction definitions generalizing generated out with
  | nil => cases stops
  | cons definition rest ih =>
    rw [writeNew] at stops
    split at stops
    next => exact ih stops
    next =>
      generalize written : emitter.write out definition owner = outcome at stops
      obtain ⟨result, left⟩ := outcome
      cases result with
      | error other =>
        cases stops
        exact ⟨out, definition, owner, congrArg (·.1) written⟩
      | ok done =>
        have later : (writeNew emitter owner rest (definition.name :: generated) left).1.map (· + 1) = .error failure :=
          stops
        apply @ih (definition.name :: generated) left
        generalize (writeNew emitter owner rest (definition.name :: generated) left).1 = counted at later ⊢
        cases counted with
        | error other => exact later
        | ok count => cases later

/-- What a session reports: an error that the sources are to be changed for as it is, and as fatal an error that
documentation could not be read for or a write was refused for. -/
inductive Told (cx : Context) (emitter : Emitter σ) (tool : BuildTool) (trigger : String) : GenerateError → Prop where
  | invalid {e : GenerateError} (validation : e.isValidation = true)
      (known : ∀ name, e = .unknownType name → name = trigger ∧ cx.catalog.load? trigger = none) :
      Told cx emitter tool trigger e
  | unread {name : String} {failure : DescriptorError} (stored : cx.storedDoc name = .error failure) :
      Told cx emitter tool trigger (.fatal trigger tool (.javadoc name failure))
  | refused {failure : WriteFailure} (refuses : Refuses emitter failure) :
      Told cx emitter tool trigger (.fatal trigger tool (.unwritable failure.name failure.path))

theorem told_of_unbuilt {tool : BuildTool} {e : GenerateError} (unbuilt : Unbuilt cx trigger e) :
    Told cx emitter tool trigger (report tool trigger e) := by
  rcases unbuilt with fault | ⟨rfl, missing⟩
  · cases fault with
    | invalid validation known =>
      rw [report, if_pos validation]
      exact .invalid validation fun name same => absurd same (known name)
    | unread stored => exact .unread stored
  · refine .invalid rfl fun name same => ?_
    cases same
    exact ⟨rfl, missing⟩

theorem run_told {s : Session} {tool : BuildTool} {built : Except GenerateError (List ObjectDef)} {out : σ}
    {e : GenerateError} (unbuilt : ∀ e, built = .error e → Unbuilt cx trigger e)
    (stops : (s.run tool trigger emitter built out).1 = .error e) : Told cx emitter tool trigger e := by
  rw [run] at stops
  split at stops
  next => cases stops
  next =>
    cases built with
    | error cause =>
      cases stops
      exact told_of_unbuilt (unbuilt cause rfl)
    | ok definitions =>
      dsimp only at stops
      generalize written : writeNew emitter trigger definitions (s.mark (tool, trigger)).generated out = outcome at stops
      obtain ⟨result, known, left⟩ := outcome
      cases result with
      | error failure =>
        cases stops
        exact .refused (writeNew_error (congrArg (·.1) written))
      | ok count => cases stops

/-- The errors that generating for a trigger by a build tool may end with. -/
structure Reported (cx : Context) (emitter : Emitter σ) (tool : BuildTool) (trigger : String) (e : GenerateError) :
    Prop where
  /-- The sources have to change, or else documentation cannot be read or a write is refused. -/
  classes : e.isValidation = true ∨ ∃ cause, e = .fatal trigger tool cause ∧
    ((∃ name failure, cause = .javadoc name failure ∧ cx.storedDoc name = .error failure) ∨
      ∃ failure : WriteFailure, cause = .unwritable failure.name failure.path ∧ Refuses emitter failure)
  /-- A fatal error is about this trigger, and hides neither another one nor an error of the sources. -/
  fatal : ∀ owner target cause, e = .fatal owner target cause → owner = trigger ∧ target = tool ∧
    cause.isValidation = false ∧ ∀ owner target inner, cause ≠ .fatal owner target inner
  argued : ∀ typeName property, e ≠ .missingArgument typeName property ∧
    ∀ owner target, e ≠ .fatal owner target (.missingArgument typeName property)
  known : ∀ name, e = .unknownType name → name = trigger ∧ cx.catalog.load? trigger = none

theorem Told.reported {tool : BuildTool} {e : GenerateError} (told : Told cx emitter tool trigger e) :
    Reported cx emitter tool trigger e := by
  refine ⟨?_, ?_, ?_, ?_⟩
  · cases told with
    | invalid validation known => exact .inl validation
    | unread stored => exact .inr ⟨_, rfl, .inl ⟨_, _, rfl, stored⟩⟩
    | refused refuses => exact .inr ⟨_, rfl, .inr ⟨_, rfl, refuses⟩⟩
  · rintro owner other cause rfl
    cases told with
    | invalid validation known => cases validation
    | unread stored => exact ⟨rfl, rfl, rfl, nofun⟩
    | refused refuses => exact ⟨rfl, rfl, rfl, nofun⟩
  · refine fun typeName property => ⟨?_, ?_⟩
    · rintro rfl
      cases told with
      | invalid validation known => cases validation
    · rintro owner other rfl
      cases told with
      | invalid validation known => cases validation
  · rintro name rfl
    cases told with
    | invalid validation known => exact known name rfl

/-- The errors of generation, by either build tool, in any session and with any emitter, stored documentation and
types. Either the sources have to change, or the error is fatal for the trigger and the tool, and the cause is
documentation that the store fails to give or a write that the emitter refuses. So a fatal error is never nested and
hides no error of the sources. No argument of a record is ever missing, and the only type that can be unknown is the
trigger, which there is then no type for. -/
theorem generation_errors (s : Session) (cx : Context) (trigger : String) (emitter : Emitter σ) (out : σ) :
    (∀ e, (s.generateGradle cx trigger emitter out).1 = .error e → Reported cx emitter .gradle trigger e) ∧
    ∀ e, (s.generateMaven cx trigger emitter out).1 = .error e → Reported cx emitter .maven trigger e :=
  ⟨fun _ stops => (run_told (fun _ => gradleDefinitions_unbuilt) stops).reported,
    fun _ stops => (run_told (fun _ => mavenDefinitions_unbuilt) stops).reported⟩

end Sessions

open ScopedDefinitions CarriedModels

/-- The sample world with a store that gives no documentation at all. -/
def unreadable : Context := { world with storedDoc := fun name => .error (.io name) }

def refusing : Emitter Unit where
  write out definition _ := (.error ⟨definition.name, some "out"⟩, out)

/-- A trigger that is not there, one whose task has no readable documentation, and one whose mojo is refused. -/
theorem samples_reported :
    (({} : Session).generateMaven world "com.acme.Gone" refusing ()).1 = .error (.unknownType "com.acme.Gone") ∧
    Reported world refusing .maven "com.acme.Gone" (.unknownType "com.acme.Gone") ∧
    (({} : Session).generateGradle unreadable plugin.name .recording []).1 =
      .error (.fatal plugin.name .gradle (.javadoc "com.acme.Build" (.io "com.acme.Build"))) ∧
    Reported unreadable .recording .gradle plugin.name
      (.fatal plugin.name .gradle (.javadoc "com.acme.Build" (.io "com.acme.Build"))) ∧
    (({} : Session).generateMaven world plugin.name refusing ()).1 =
      .error (.fatal plugin.name .maven (.unwritable "com.acme.model.Node" (some "out"))) ∧
    Reported world refusing .maven plugin.name
      (.fatal plugin.name .maven (.unwritable "com.acme.model.Node" (some "out"))) := by
  have gone : (({} : Session).generateMaven world "com.acme.Gone" refusing ()).1 =
      .error (.unknownType "com.acme.Gone") := by decide +kernel
  have unread : (({} : Session).generateGradle unreadable plugin.name .recording []).1 =
      .error (.fatal plugin.name .gradle (.javadoc "com.acme.Build" (.io "com.acme.Build"))) := by decide +kernel
  have refused : (({} : Session).generateMaven world plugin.name refusing ()).1 =
      .error (.fatal plugin.name .maven (.unwritable "com.acme.model.Node" (some "out"))) := by decide +kernel
  exact ⟨gone, (generation_errors _ _ _ _ _).2 _ gone, unread, (generation_errors _ _ _ _ _).1 _ unread, refused,
    (generation_errors _ _ _ _ _).2 _ refused⟩

end PluginForge.Proofs.ReportedErrors
