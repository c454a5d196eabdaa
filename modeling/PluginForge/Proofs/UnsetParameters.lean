import PluginForge.Proofs.NullableCalls

/-! Optional parameters that nobody sets, from the configuration of a task to the arguments its source is run with. Where
neither the specification nor the task has a value, the parameters of the work end up without one, and the work action
hands null to the source. A file location is the exception: it has to be there. -/

namespace PluginForge.Proofs.UnsetParameters
open Gradle Results ModelTypes PlannedTasks CarriedModels ConverterCalls CodeParts ConstructedCode Evaluation
open EvaluationRules NamedEntries Scopes LocalVariables GradleProperties EffectiveValues ConfigurationBodies ValueFlow
open BuiltTypes MissingValues NullableCalls

section Configuration
variable {platform : Platform} {plan : GradlePlan} {t : GradleTask} {task : ObjectDef} {choices early late : List Choice}
  {s : State} {p : Parameter}

/-- Neither the specification of the task nor the task has a value for the parameter. -/
structure Unset (choices : List Choice) (p : Parameter) : Prop where
  task : chosen choices .task p = none
  specification : p.internal = false → chosen choices .specification p = none

theorem held_unset (omissible : Omissible p) (unset : Unset choices p) : held t choices p = none := by
  have bare : declaredDefault t p = none := declaredDefault_of_none (by rw [omissible.bare]; rfl)
  unfold held
  rw [unset.task, Option.none_or]
  cases isInternal : p.internal with
  | true => rfl
  | false => rw [unset.specification isInternal, bare]; rfl

/-- Nothing gives the parameters of the work conventions. -/
def Conventionless (s : State) : Prop := ∀ name, (s.properties .parameters name).convention = none

theorem Conventionless.modify {role : Role} {getter : String} {change : GradleProperties.Property → GradleProperties.Property}
    (free : Conventionless s) (keeps : role = .parameters → ∀ q, (change q).convention = q.convention) :
    Conventionless (s.modify role getter change) := by
  intro name
  by_cases same : Role.parameters = role ∧ name = getter
  · obtain ⟨rfl, rfl⟩ := same
    rw [State.modify_properties, keeps rfl, free]
  · rw [State.modify_other _ _ _ _ _ _ fun isRole isName => same ⟨isRole, isName⟩, free]

theorem Conventionless.foldl {α : Type} {change : State → α → State} (free : Conventionless s)
    (step : ∀ s x, Conventionless s → Conventionless (change s x)) (items : List α) :
    Conventionless (items.foldl change s) :=
  List.foldlRecOn items change free fun s kept x _ => step s x kept

theorem settled_conventionless : Conventionless (settled platform t early late) := by
  have assign (s : State) (c : Choice) (free : Conventionless s) : Conventionless (apply platform s c) :=
    free.modify fun _ _ => rfl
  have declares (s : State) (p : Parameter) (free : Conventionless s) : Conventionless (declare t s p) :=
    free.modify fun is => (nomatch is)
  have inherits (s : State) (p : Parameter) (free : Conventionless s) : Conventionless (inherit s p) :=
    free.modify fun is => (nomatch is)
  have fresh : Conventionless {} := fun _ => rfl
  exact (((fresh.foldl declares _).foldl assign early).foldl inherits _).foldl assign late

theorem handOver_conventionless (s : State) (p : Parameter) (free : Conventionless s) :
    Conventionless (handOver t choices s p) := by
  unfold handOver
  dsimp only
  split
  · exact free.modify fun _ _ => rfl
  · split
    · exact Conventionless.modify free fun _ _ => rfl
    · exact free.modify fun _ _ => rfl

/-- A parameter that is unset is handed over as nothing. -/
theorem missing_handed (handed : Handed t choices s p) (free : Conventionless s) (omissible : Omissible p)
    (unset : Unset choices p) : Missing p s := by
  cases handed with
  | required required given => exact absurd (required.symm.trans omissible.optional) Bool.noConfusion
  | default declared given known =>
    rw [declaredDefault_of_none (by rw [omissible.bare]; rfl)] at declared
    cases declared
  | optional declared given => rw [Missing, Property.source?, given, held_unset omissible unset, free]; rfl

/-- After the configuration of a task the parameters of its work have nothing for what is unset. -/
theorem configured_missing (given : t ∈ plan.tasks) (built : taskDefinition plan.packageName t = .ok task)
    (never : ∀ p ∈ t.task.parameters, p.required = true → p.defaultValue = none) (distinct : (taskGetters t).Nodup)
    (allowed : ∀ c ∈ early ++ late, Allowed platform t c) (depth budget : Nat) :
    ∃ b, BodiesOf plan t task b ∧ ∃ after,
      Gives (configure (world platform plan t task) (depth + 4) (budget + 1) b early late) {} () after ∧
      ∀ p ∈ t.task.parameters, Omissible p → Unset (early ++ late) p → Missing p after := by
  obtain ⟨b, bodies, runs, _, handed⟩ := configure_gives given built never distinct allowed depth budget
  have free := (@settled_conventionless platform t early late).foldl
    (@handOver_conventionless t (early ++ late)) t.task.parameters
  exact ⟨b, bodies, _, runs, fun p member omissible unset => missing_handed (handed p member) free omissible unset⟩

end Configuration

section Body
variable {σ : Type} {w : World} {depth budget : Nat} {methods : List MethodDef} {lib : Library σ} {view : σ → State}
  {frame : Frame} {t : GradleTask} {p : Parameter}

/-- The statements that convert the parameters, one after the other. -/
def conversions (t : GradleTask) (parameters : List Parameter) : List Stmt := parameters.flatMap fun p => (converted t p).1

/-- However the parameters before it were converted, the parameter is converted without a change of the state. However
those after it are, and with the variable for the task or without, null is what stands for it. -/
def BindsNull (lib : Library σ) (view : σ → State) (budget : Nat) (frame : Frame) (t : GradleTask) (p : Parameter) : Prop :=
  ∀ before rest, t.task.parameters = before ++ p :: rest → (∀ q ∈ rest, q.name ≠ p.name) → ∀ s locals reached,
    Gives (runAll lib (callMethod lib budget) budget frame (readParameters t :: conversions t before) []) s
      (.next locals) reached → Missing p (view reached) →
    ∃ bound, Gives (runAll lib (callMethod lib budget) budget frame (converted t p).1 locals) reached (.next bound) reached ∧
      ∀ final middle, Gives (runAll lib (callMethod lib budget) budget frame (conversions t rest) bound) reached
        (.next final) middle →
      ∀ (task : Locals) later, (∀ v ∈ task, v.1 = "task") → Missing p (view later) →
        Gives (evalExpr lib (callMethod lib budget) frame (task ++ final) (converted t p).2) later .null later

theorem conversions_keep {items : List Parameter} {name : String} {call : MethodDef → Value → List Value → Run σ Value}
    {rounds : Nat} {locals inner : Locals} {s after : σ}
    (apart : ∀ q ∈ items, name ∉ conversionNames (q.name ++ "Param"))
    (runs : Gives (runAll lib call rounds frame (conversions t items) locals) s (.next inner) after) :
    inner.lookup name = locals.lookup name := by
  refine Keeps.lookup (runAll_keeps (fun code member => ?_) runs)
  obtain ⟨q, inside, isPart⟩ := List.mem_flatMap.mp member
  exact convert_spares (apart q inside) code isPart

theorem binds_null (hosts : Hosts w (depth + 1) methods lib view) (this : frame.this = w.refer .workAction)
    (inherited : methods.find? (·.name == "getParameters") = none) (available : Available methods p.conversion)
    (known : w.member? .parameters (getterName p) = some (w.refer (.property .parameters (getterName p))))
    (omissible : Omissible p) (isPlain : p.sourceType.isFile = false) :
    BindsNull lib view (budget + 1) frame t p := by
  intro before rest _ others s locals reached begun missing
  have untouched (q : Parameter) : "parameters" ∉ conversionNames (q.name ++ "Param") := ne_conversionName (by decide)
  have own : p.name ++ "Param" ∈ conversionNames (p.name ++ "Param") := List.mem_cons_self ..
  have isOwn : p.name ++ "Param" ≠ "task" := fun same =>
    @ne_conversionName "task" p.name (by decide) (List.mem_cons.mpr (.inl same.symm))
  have hides {task : Locals} {name : String} (only : ∀ v ∈ task, v.1 = "task") (apart : name ≠ "task") :
      name ∉ task.map (·.1) := by
    intro member
    obtain ⟨v, inside, rfl⟩ := List.mem_map.mp member
    exact apart (only v inside)
  have reads {now : Locals} {later : σ} (held : now.lookup "parameters" = some (w.refer (.object .parameters)))
      (still : Missing p (view later)) : Gives (evalExpr lib (callMethod lib (budget + 1)) frame now
        (workValue (workParameters t) p)) later .null later := by
    rw [workValue_omissible omissible isPlain]
    exact hosts.eval_missing known held still
  rw [runAll] at begun
  obtain ⟨first, middle, opens, goes⟩ := begun.split
  obtain ⟨rfl, rfl⟩ := opens.unique (hosts.run_readParameters inherited this)
  rw [Ending.andThen] at goes
  have held : locals.lookup "parameters" = some (w.refer (.object .parameters)) :=
    (conversions_keep (fun q _ => untouched q) goes).trans (List.lookup_cons_self ..)
  obtain ⟨bound, runs, binds⟩ := convert_null hosts available this (reads held missing)
  refine ⟨bound, runs, fun final last continues task later only still => binds (task ++ final) later ?_ (reads ?_ still)⟩
  · rw [lookup_append_of_notMem (hides only isOwn)]
    exact conversions_keep (fun q member isName => conversionNames_disjoint (others q member) isName own) continues
  · rw [lookup_append_of_notMem (hides only (by decide)), conversions_keep (fun q _ => untouched q) continues]
    exact (Keeps.lookup (runAll_keeps (convert_spares (untouched p)) runs)).trans held

end Body

section Classes
variable {cx : Context} {trigger : Descriptor} {plan : GradlePlan} {t : GradleTask} {work : ObjectDef} {p : Parameter}

theorem converter_passesNull (planned : GradlePlan.ofTrigger cx trigger = .ok plan) (given : t ∈ plan.tasks) :
    ∀ m ∈ t.task.converters, PassesNull m ∧ IsConverter m.name := by
  refine List.forall_mem_map.mpr fun replica member => ?_
  obtain ⟨_, d, copyOf⟩ := ((gradle_planned planned).1.carried t given replica).mp member
  obtain ⟨deps, copy⟩ := copyOf.copy
  refine ⟨copy_passesNull copy, ?_⟩
  rw [(ReplicaNames.copy_names copy).2.2.1]
  exact isConverter_converterOf _

theorem refOf_converter {package converter : String} {ty : SourceType} {ref : ReplicaRef} {source : TypeRef}
    (is : RefOf cx.catalog package ty ref) (converts : ref.conversion = .model converter source) :
    modelOf? cx.catalog ty = some ty.name ∧ converter = converterOf ty.name := by
  cases is with
  | model copied named =>
    cases converts
    exact ⟨modelOf?_model copied, rfl⟩
  | collection => cases converts
  | passthrough => cases converts

/-- The task carries the converter that the conversion of a parameter calls. -/
theorem converter_carried (planned : GradlePlan.ofTrigger cx trigger = .ok plan) (given : t ∈ plan.tasks)
    (member : p ∈ t.task.parameters) {converter : String} {source : TypeRef}
    (converts : p.conversion = .model converter source) : ∃ m ∈ t.task.converters, m.name = converter := by
  have whole := (gradle_planned planned).1
  obtain ⟨parts, same, parameters, refs⟩ := whole.resolves t given
  rw [parameters] at member
  obtain ⟨part, inside, rfl⟩ := List.mem_map.mp member
  obtain ⟨leads, rfl⟩ := refOf_converter (refs part inside) converts
  have isParameter : part.1.ty ∈ parameterTypes t.task := by
    rw [parameterTypes, ← same, List.map_map]
    exact List.mem_map_of_mem inside
  obtain ⟨replica, known, d, isNamed, copyOf⟩ := whole.complete t given part.1.ty.name ⟨_, isParameter, .here leads⟩
  obtain ⟨deps, copy⟩ := copyOf.copy
  refine ⟨replica.converter, List.mem_map_of_mem ((whole.carried t given replica).mpr ⟨known, d, copyOf⟩), ?_⟩
  rw [(ReplicaNames.copy_names copy).2.2.1, converterName_eq, copyOf.model.sourceType_name]
  exact congrArg converterOf isNamed

/-- The methods that a work action has of its own. -/
theorem work_methods (planned : GradlePlan.ofTrigger cx trigger = .ok plan) (given : t ∈ plan.tasks)
    (made : workActionClass t = .ok work) : work.methods.find? (·.name == "getParameters") = none ∧
      ∀ p ∈ t.task.parameters, Available work.methods p.conversion := by
  obtain ⟨execute, executes, finishes⟩ := except_bind.mp made
  cases finishes
  have named : execute.name = "execute" := by
    obtain ⟨_, _, rfl⟩ := workActionExecute_built executes
    rfl
  have passes := converter_passesNull planned given
  constructor
  · refine List.find?_eq_none.mpr fun m member isNamed => ?_
    rw [beq_iff_eq] at isNamed
    rcases List.mem_append.mp member with converter | isExecute
    · have isConverter := (passes m converter).2
      rw [isNamed] at isConverter
      exact absurd isConverter (by decide)
    · rw [List.mem_singleton.mp isExecute, named] at isNamed
      exact absurd isNamed (by decide)
  · intro p member
    cases converts : p.conversion with
    | identity => trivial
    | collection => trivial
    | model converter source =>
      obtain ⟨m, carried, isNamed⟩ := converter_carried planned given member converts
      have present : ((t.task.converters ++ [execute]).find? (·.name == converter)).isSome = true :=
        List.find?_isSome.mpr ⟨m, List.mem_append_left _ carried, by simp [isNamed]⟩
      obtain ⟨first, found⟩ := Option.isSome_iff_exists.mp present
      refine ⟨first, found, ?_⟩
      rcases List.mem_append.mp (List.mem_of_find?_eq_some found) with converter | isExecute
      · exact (passes first converter).1
      · have same : first.name = m.name := (by simpa using List.find?_some found : first.name = converter).trans isNamed.symm
        rw [List.mem_singleton.mp isExecute, named] at same
        exact absurd (same ▸ (passes m carried).2) (by decide)

end Classes

/-- In the body that the work action of a task executes, nothing but the file of a location is asked of what may be null.
An omissible parameter for which neither the specification nor the task has a value is left without one by configuration,
and wherever a run of the body finds it so, null stands for it, if it is no location. A location stops the work. -/
theorem unset_reach_task {cx : Context} {trigger : Descriptor} {plan : GradlePlan} {t : GradleTask} {task : ObjectDef}
    (planned : GradlePlan.ofTrigger cx trigger = .ok plan) (given : t ∈ plan.tasks)
    (built : taskDefinition plan.packageName t = .ok task) :
    ∃ work ∈ task.inner, ∃ execute ∈ work.methods, workActionClass t = .ok work ∧ workActionExecute t = .ok execute ∧
      (∃ run body, execute.body = some body ∧ execute.parameters = [] ∧
        body = .block (readParameters t :: conversions t t.task.parameters ++ [run]) ∧
        t.task.source.runTask t.task.methodName (t.task.parameters.map fun p => (p.name, (converted t p).2)) = .ok run ∧
        ∀ e ∈ body.walkExprs, AsksForFiles t e) ∧
      ∀ p ∈ t.task.parameters, Omissible p →
        (∀ (platform : Platform) (early late : List Choice), (taskGetters t).Nodup →
          (∀ c ∈ early ++ late, Allowed platform t c) → Unset (early ++ late) p → ∀ depth budget,
          ∃ b, BodiesOf plan t task b ∧ ∃ after,
            Gives (configure (world platform plan t task) (depth + 4) (budget + 1) b early late) {} () after ∧
            Missing p after) ∧
        ∀ (platform : Platform) (depth budget : Nat) (σ : Type) (lib : Library σ) (view : σ → State),
          Hosts (world platform plan t task) (depth + 1) work.methods lib view →
          (p.sourceType.isFile = false → BindsNull lib view (budget + 1) ⟨platform.refer .workAction, []⟩ t p) ∧
          (p.sourceType.isFile = true → ∀ (locals : Locals) (s : σ),
            locals.lookup "parameters" = some (platform.refer (.object .parameters)) → Missing p (view s) →
            Stops (evalExpr lib (callMethod lib (budget + 1)) ⟨platform.refer .workAction, []⟩ locals
              (workValue (workParameters t) p)) s .nullPointer) := by
  have never := ((gradle_planned planned).1.resolves t given).required_bare
  obtain ⟨b, bodies⟩ := bodies_built given built never
  obtain ⟨work, inside, made, executes, member⟩ := bodies.execute
  obtain ⟨run, ran, takes, has⟩ := workActionExecute_body executes
  obtain ⟨inherited, available⟩ := work_methods planned given made
  refine ⟨work, inside, b.execute, member, made, executes, ⟨run, _, has, takes, rfl, ran, execute_asks executes has⟩, ?_⟩
  intro p parameter omissible
  constructor
  · intro platform early late distinct allowed unset depth budget
    obtain ⟨own, bodies, after, gives, missing⟩ := configured_missing given built never distinct allowed depth budget
    exact ⟨own, bodies, after, gives, missing p parameter omissible unset⟩
  · intro platform depth budget σ lib view hosts
    have known := @parameters_member plan t task platform p parameter
    refine ⟨fun isPlain => ?_, fun isFile locals s held missing => ?_⟩
    · exact binds_null hosts rfl inherited (available p parameter) known omissible isPlain
    · exact hosts.file_stops known omissible isFile held missing

section Sample

/-- Every parameter is set on the task, and later on taken away again. -/
def setAll (t : GradleTask) : List Choice := t.task.parameters.map (⟨.task, ·, .ref 5⟩)

def takenAway (t : GradleTask) : List Choice := t.task.parameters.map (⟨.task, ·, .null⟩)

theorem choices_allowed (t : GradleTask) : ∀ c ∈ setAll t ++ takenAway t, Allowed numbered t c := by
  refine List.forall_mem_append.mpr ⟨List.forall_mem_map.mpr ?_, List.forall_mem_map.mpr ?_⟩
  · exact fun p member => ⟨member, .inl rfl, rfl⟩
  · exact fun p member => ⟨member, .inl rfl, rfl⟩

/-- A parameter of a class that refers to itself, and one that is a list of constants. -/
theorem builds_planned : ((GradlePlan.ofTrigger builds plugin).toOption.any fun plan =>
    !plan.tasks.isEmpty && plan.tasks.all fun t => (taskDefinition plan.packageName t).isOk && decide (taskGetters t).Nodup &&
      decide (t.task.parameters.map (·.name) = ["root", "modes"]) && t.task.parameters.all fun p =>
        !p.required && p.defaultValue.isNone && !p.sourceType.isFile && p.conversion.modelName?.isSome &&
          decide (chosen (setAll t ++ takenAway t) .task p = none) &&
          decide (chosen (setAll t ++ takenAway t) .specification p = none)) = true := by
  decide +kernel

/-- A plan with tasks that all pass a test. -/
theorem task_of_plans {cx : Context} {trigger : Descriptor} {test : GradlePlan → GradleTask → Bool}
    (all : ((GradlePlan.ofTrigger cx trigger).toOption.any fun plan => !plan.tasks.isEmpty && plan.tasks.all (test plan)) =
      true) : ∃ plan t, GradlePlan.ofTrigger cx trigger = .ok plan ∧ t ∈ plan.tasks ∧ test plan t = true := by
  cases planned : GradlePlan.ofTrigger cx trigger with
  | error e =>
    rw [planned] at all
    cases all
  | ok plan =>
    rw [planned] at all
    simp only [Except.toOption, Option.any_some, Bool.and_eq_true, List.all_eq_true] at all
    obtain ⟨t, given⟩ := List.exists_mem_of_ne_nil plan.tasks (by simpa using all.1)
    exact ⟨plan, t, rfl, given, all.2 t given⟩

theorem builds_unset : ∃ plan t task work, GradlePlan.ofTrigger builds plugin = .ok plan ∧ t ∈ plan.tasks ∧
    taskDefinition plan.packageName t = .ok task ∧ work ∈ task.inner ∧ workActionClass t = .ok work ∧
    (taskGetters t).Nodup ∧ (∀ c ∈ setAll t ++ takenAway t, Allowed numbered t c) ∧
    t.task.parameters.map (·.name) = ["root", "modes"] ∧ ∀ p ∈ t.task.parameters, Omissible p ∧
      p.conversion.modelName?.isSome = true ∧ Unset (setAll t ++ takenAway t) p ∧
      Hosts (world numbered plan t task) 1 work.methods (workLibrary (world numbered plan t task) 1 work.methods) id ∧
      (∃ b, BodiesOf plan t task b ∧ ∃ after,
        Gives (configure (world numbered plan t task) 4 1 b (setAll t) (takenAway t)) {} () after ∧
        Missing p after) ∧
      BindsNull (workLibrary (world numbered plan t task) 1 work.methods) id 1 ⟨numbered.refer .workAction, []⟩ t p := by
  obtain ⟨plan, t, planned, given, sample⟩ := task_of_plans builds_planned
  simp only [Bool.and_eq_true, decide_eq_true_eq, List.all_eq_true] at sample
  obtain ⟨⟨⟨isOk, distinct⟩, names⟩, each⟩ := sample
  obtain ⟨task, built⟩ := ok_of_isOk isOk
  obtain ⟨work, inside, _, _, made, _, _, unset⟩ := unset_reach_task planned given built
  refine ⟨plan, t, task, work, planned, given, built, inside, made, distinct, choices_allowed t, names, fun p member => ?_⟩
  obtain ⟨⟨⟨⟨⟨optional, bare⟩, isPlain⟩, converts⟩, bareTask⟩, bareSpecification⟩ := each p member
  have omissible : Omissible p := ⟨by simpa using optional, by simpa using bare⟩
  have isUnset : Unset (setAll t ++ takenAway t) p := ⟨bareTask, fun _ => bareSpecification⟩
  have hosts := hosts_workLibrary (world numbered plan t task) 1 work.methods
  obtain ⟨configured, reads⟩ := unset p member omissible
  refine ⟨omissible, converts, isUnset, hosts, ?_, ?_⟩
  · exact configured numbered (setAll t) (takenAway t) distinct (choices_allowed t) isUnset 0 0
  · exact (reads numbered 0 0 State _ id hosts).1 (by simpa using isPlain)

/-- A task that may be given a folder to archive. -/
def archive : Descriptor where
  name := "com.acme.Archive"
  properties := [{ name := "folder", ty := .ofName "java.io.File" }]
  constructors := [{ parameters := [⟨"folder", .ofName "java.io.File"⟩] }]
  methods := [{ name := "run", executable := true }]

def archives : Context := { ReplicaNames.modes with catalog := ReplicaNames.modes.catalog.add archive }

def archiving : Descriptor where
  name := "com.acme.Archiving"
  gradlePlugin := some { tasks := [{ source := "com.acme.Archive" }] }

theorem archives_planned : ((GradlePlan.ofTrigger archives archiving).toOption.any fun plan =>
    !plan.tasks.isEmpty && plan.tasks.all fun t => (taskDefinition plan.packageName t).isOk && decide (taskGetters t).Nodup &&
      decide (t.task.parameters.map (fun p => (p.name, p.required, p.defaultValue, p.sourceType.isFile,
        p.conversion.isIdentity)) = [("folder", false, none, true, true)]) &&
      decide (t.task.source.primaryConstructor?.map (·.parameters.map (·.name)) = some ["folder"]) &&
      !t.task.source.isRecord && (workActionExecute t).toOption.any fun m => m.body.any fun body =>
        body.walkExprs.any fun e => calledOnNullable? e == some "getAsFile") = true := by
  decide +kernel

/-- Where the folder is left out, the work stops instead of handing null to the task. -/
theorem archive_stops : ∃ plan t task work execute body p, GradlePlan.ofTrigger archives archiving = .ok plan ∧
    t ∈ plan.tasks ∧ taskDefinition plan.packageName t = .ok task ∧ work ∈ task.inner ∧ workActionClass t = .ok work ∧
    execute ∈ work.methods ∧ workActionExecute t = .ok execute ∧ execute.body = some body ∧ t.task.parameters = [p] ∧
    Omissible p ∧ Unset [] p ∧ (∃ e ∈ body.walkExprs, calledOnNullable? e = some "getAsFile") ∧ ∃ b after,
      BodiesOf plan t task b ∧ Gives (configure (world numbered plan t task) 4 1 b [] []) {} () after ∧
      Stops (callMethod (workLibrary (world numbered plan t task) 1 work.methods) 2 execute (numbered.refer .workAction) [])
        after .nullPointer := by
  obtain ⟨plan, t, planned, given, sample⟩ := task_of_plans archives_planned
  simp only [Bool.and_eq_true, decide_eq_true_eq, Bool.not_eq_true'] at sample
  obtain ⟨⟨⟨⟨⟨isOk, distinct⟩, only⟩, constructed⟩, isBean⟩, asks⟩ := sample
  obtain ⟨task, built⟩ := ok_of_isOk isOk
  obtain ⟨p, parameters, facts⟩ := List.map_eq_singleton_iff.mp only
  simp only [Prod.mk.injEq] at facts
  obtain ⟨named, optional, bare, isFile, same⟩ := facts
  obtain ⟨c, primary, takes⟩ := Option.map_eq_some_iff.mp constructed
  obtain ⟨q, single, isFolder⟩ := List.map_eq_singleton_iff.mp takes
  have omissible : Omissible p := ⟨optional, bare⟩
  have unset : Unset [] p := ⟨rfl, fun _ => rfl⟩
  have parameter : p ∈ t.task.parameters := by rw [parameters]; exact List.mem_singleton_self p
  have never := ((gradle_planned planned).1.resolves t given).required_bare
  obtain ⟨b, bodies, after, gives, missing⟩ := @configured_missing numbered plan t task [] [] given built never distinct
    (fun _ member => nomatch member) 0 0
  obtain ⟨work, inside, made, executes, member⟩ := bodies.execute
  obtain ⟨inherited, _⟩ := work_methods planned given made
  obtain ⟨run, ran, takesNothing, has⟩ := workActionExecute_body executes
  simp only [parameters, List.map_cons, List.map_nil, List.flatMap_cons, List.flatMap_nil, converted_identity same,
    List.append_nil, List.cons_append, List.nil_append] at ran has
  have supplied : Arguments.get? [(p.name, workValue (workParameters t) p)] q.name = some (workValue (workParameters t) p) := by
    simp [Arguments.get?, named, isFolder]
  have hosts := hosts_workLibrary (world numbered plan t task) 1 work.methods
  refine ⟨plan, t, task, work, b.execute, _, p, planned, given, built, inside, made, member, executes, has, parameters,
    omissible, unset, ?_, b, after, bodies, gives, ?_⟩
  · simpa [executes, has, Except.toOption] using asks
  · refine execute_stops hosts inherited takesNothing has (runTask_stops primary isBean single supplied ?_ ran)
    exact hosts.file_stops (parameters_member parameter) omissible isFile rfl (missing p parameter omissible unset)

end Sample

end PluginForge.Proofs.UnsetParameters
