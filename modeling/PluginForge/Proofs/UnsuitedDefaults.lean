import PluginForge.Gradle.TaskType
import PluginForge.Proofs.EnumDefaults
import PluginForge.Proofs.PropertyMarks

/-! Defaults of types that no default can be made of. Copying does not look at the marks of properties, so a task is
resolved as it would be without the default, and the task builder is what refuses it. The one check that is made before
looks at no more than the name of the type, where an array goes by the name of its element. -/

namespace PluginForge.Proofs.UnsuitedDefaults
open Replication ModelTypes Results ReplicationLogic PlannedTasks EnumDefaults PropertyMarks

/-- The types that a default can be made of: strings, primitives, their wrappers and enums. -/
inductive Defaultable (catalog : Catalog) : SourceType → Prop where
  | string : Defaultable catalog (.named "java.lang.String" [] 0)
  | primitive (p : Primitive) (args : List SourceType) : Defaultable catalog (.named p.keyword args 0)
  | wrapper (p : Primitive) : Defaultable catalog (.named p.wrapper [] 0)
  | enum {ty : SourceType} (isEnum : catalog.classify ty = .enum) : Defaultable catalog ty

section Emission
/-- No default can be made of a type, whatever its text. -/
theorem unsuited_default {catalog : Catalog} {package owner : String} {p : Parameter} {ref : ReplicaRef}
    (is : RefOf catalog package p.sourceType ref) (same : p.ty = ref.ty)
    (unsuited : ¬ Defaultable catalog p.sourceType) :
    p.defaultExpr owner = .error (.unsupportedDefault owner p.name p.ty.display) := by
  unfold Parameter.defaultExpr
  rw [same]
  generalize p.sourceType = ty at is unsuited
  cases is with
  | @model _ kind source copied =>
    obtain ⟨d, model, rfl⟩ := model_of_classify copied
    have sort := classify_of_modelKind? copied
    cases isEnum : d.isEnum with
    | true =>
      rw [if_pos isEnum] at sort
      exact absurd (.enum sort) unsuited
    | false => simp only [copyKind, isEnum, Bool.false_eq_true, if_false]
  | collection => rfl
  | passthrough =>
    have refers := refers_toTypeRef ty
    simp only [ReplicaRef.passthrough]
    generalize ty.toTypeRef = shown at refers
    cases refers with
    | primitive q args => exact absurd (.primitive q args) unsuited
    | «class» name =>
      have other : name ≠ "java.lang.String" := by
        rintro rfl
        exact unsuited .string
      have bare : Primitive.ofWrapper? name = none := by
        refine Option.eq_none_iff_forall_ne_some.mpr fun q wraps => ?_
        have wrapper : q.wrapper = name := by simpa using List.find?_some wraps
        exact unsuited (wrapper ▸ .wrapper q)
      simp only [if_neg other, bare]
    | parameterized | array | extending | above | void => rfl

/-- The work action is built first, then the configurator of the parameters in their order. -/
theorem taskDefinition_stops {package : String} {t : GradleTask} {before after : List Parameter} {p : Parameter}
    {work : ObjectDef} {e : GenerateError} (whole : t.task.parameters = before ++ p :: after)
    (built : Gradle.workActionClass t = .ok work)
    (earlier : ∀ q ∈ before, q.defaultValue.isSome = true → ∃ value, q.defaultExpr t.task.source.name = .ok value)
    (bare : p.required = false) (defaulted : p.defaultValue.isSome = true)
    (stops : p.defaultExpr t.task.source.name = .error e) : Gradle.taskDefinition package t = .error e := by
  have passes : ∀ task target, ∀ q ∈ before, ∃ statement, Gradle.passProperty t task target q = .ok statement := by
    intro task target q member
    unfold Gradle.passProperty Gradle.taskValue
    dsimp only
    split
    · exact ⟨_, rfl⟩
    · split
      next given =>
        obtain ⟨value, made⟩ := earlier q member given
        rw [made]
        exact ⟨_, rfl⟩
      next => exact ⟨_, rfl⟩
  have refused : ∀ task target, Gradle.passProperty t task target p = .error e := by
    intro task target
    simp only [Gradle.passProperty, Gradle.taskValue, bare, defaulted, stops, Bool.false_eq_true, if_false, if_true]
    rfl
  unfold Gradle.taskDefinition Gradle.parameterConfiguratorClass
  rw [built, whole]
  simp only [mapM_stops (passes _ _) (refused _ _)]
  rfl

end Emission

/-- A property without its default. -/
def undefaulted (p : Property) : Property :=
  { p with parameter := p.parameter.map fun mark => { mark with defaultValue := none } }

def undefaultedAt (i : Nat) (d : Descriptor) : Descriptor := { d with properties := d.properties.modify i undefaulted }

theorem unmarked_undefaultedAt (i : Nat) (d : Descriptor) : unmarked (undefaultedAt i d) = unmarked d := by
  have same (properties : List Property) :
      (properties.modify i undefaulted).map (fun p => { p with parameter := none }) =
        properties.map fun p => { p with parameter := none } := by
    induction properties generalizing i with
    | nil => rw [List.modify_nil]
    | cons p rest ih =>
      cases i with
      | zero => rfl
      | succ i => exact congrArg (_ :: ·) (ih i)
  simp only [unmarked, undefaultedAt, same]

def withoutIn (source : String) (i : Nat) (d : Descriptor) : Descriptor :=
  if d.name = source then undefaultedAt i d else d

theorem unmarked_withoutIn (source : String) (i : Nat) (d : Descriptor) :
    unmarked (withoutIn source i d) = unmarked d := by
  unfold withoutIn
  split
  · exact unmarked_undefaultedAt i d
  · rfl

/-- The same types, but for the default of one property of the source of a task. -/
def withoutDefault (cx : Context) (source : String) (i : Nat) : Context :=
  remarked (withoutIn source i) (unmarked_withoutIn source i) cx

/-- A parameter without its default; whether it is required is then up to its mark. -/
def undefaultedParameter (p : Parameter) : Parameter :=
  { p with
    property := undefaulted p.property
    required := (p.property.parameter.getD {}).required
    defaultValue := none }

def undefaultedTask (i : Nat) (t : TaskPlan) : TaskPlan :=
  { t with source := undefaultedAt i t.source, parameters := t.parameters.modify i undefaultedParameter }

/-- The name of a type is that of an enum, and a text names none of its constants. -/
def Refused (catalog : Catalog) (ty : SourceType) (text : String) : Prop :=
  ∃ d, catalog.load? ty.name = some d ∧ d.isEnum = true ∧ Text.trim text ∉ d.enumConstants

section Resolution
variable {α β : Type} {refused : Prop} {e : GenerateError}

/-- Another step ends as a step does, up to a change of its value, unless the step is refused. -/
def AgreesUnless (refused : Prop) (e : GenerateError) (change : α → α) (step other : ReplicationM α) : Prop :=
  ∀ s, outcome other s = ((outcome step s).1.map change, (outcome step s).2) ∨ refused ∧ (outcome step s).1 = .error e

theorem agrees_pure (change : α → α) (value : α) : AgreesUnless refused e change (pure value) (pure (change value)) :=
  fun _ => .inl rfl

theorem agrees_same (step : ReplicationM α) : AgreesUnless refused e id step step := by
  intro s
  left
  obtain ⟨result, after⟩ := outcome step s
  cases result <;> rfl

theorem AgreesUnless.bind {step other : ReplicationM α} {next following : α → ReplicationM β} {change : α → α}
    {wide : β → β} (first : AgreesUnless refused e change step other)
    (later : ∀ value, AgreesUnless refused e wide (next value) (following (change value))) :
    AgreesUnless refused e wide (step >>= next) (other >>= following) := by
  intro s
  rw [outcome_bind, outcome_bind]
  rcases first s with agree | ⟨refused, stops⟩
  · rw [agree]
    obtain ⟨result, middle⟩ := outcome step s
    cases result with
    | error e => exact .inl rfl
    | ok value => exact later value middle
  · right
    generalize outcome step s = made at stops
    obtain ⟨result, middle⟩ := made
    cases stops
    exact ⟨refused, rfl⟩

/-- A change of one item changes one result, unless that item is refused. -/
theorem mapM_agrees {step : α → ReplicationM β} {f : α → α} {change : β → β} {items : List α} {i : Nat}
    (here : ∀ item, items[i]? = some item → AgreesUnless refused e change (step item) (step (f item))) :
    AgreesUnless refused e (List.modify · i change) (items.mapM step) ((items.modify i f).mapM step) := by
  induction items generalizing i with
  | nil =>
    rw [List.modify_nil]
    exact fun s => .inl (by simp [outcome_pure, Except.map])
  | cons item rest ih =>
    cases i with
    | zero =>
      rw [List.modify_zero_cons, List.mapM_cons, List.mapM_cons]
      refine (here item rfl).bind fun value => (agrees_same _).bind fun others => ?_
      exact agrees_pure (List.modify · 0 change) (value :: others)
    | succ i =>
      rw [List.modify_succ_cons, List.mapM_cons, List.mapM_cons]
      refine (agrees_same _).bind fun value => (ih here).bind fun others => ?_
      exact agrees_pure (List.modify · (i + 1) change) (value :: others)

variable {cx : Context} {package : String}

/-- The check passes without a default, and with one unless the text is refused. -/
theorem check_agrees {owner text : String} {p : Parameter} (defaulted : p.defaultValue = some text) :
    AgreesUnless (Refused cx.catalog p.sourceType text) (.invalidDefault owner p.name text p.sourceType.name) id
      (liftM (TaskPlan.checkEnumDefault cx owner p))
      (liftM (TaskPlan.checkEnumDefault cx owner (undefaultedParameter p))) := by
  intro s
  have passes : TaskPlan.checkEnumDefault cx owner (undefaultedParameter p) = .ok () := rfl
  rw [passes, outcome_lift, outcome_lift]
  unfold TaskPlan.checkEnumDefault
  rw [defaulted]
  cases loaded : cx.catalog.load? p.sourceType.name with
  | none => exact .inl rfl
  | some d =>
    dsimp only
    split
    next stops =>
      obtain ⟨isEnum, unknown⟩ := Bool.and_eq_true_iff.mp stops
      exact .inr ⟨⟨d, loaded, isEnum, by simpa using unknown⟩, rfl⟩
    next => exact .inl rfl

theorem parameter_agrees {owner text : String} {doc : TypeDoc} {p : Property} {mark : ParameterMark}
    (marked : p.parameter = some mark) (defaulted : mark.defaultValue = some text) :
    AgreesUnless (Refused cx.catalog p.ty text) (.invalidDefault owner p.name text p.ty.name) undefaultedParameter
      (TaskPlan.parameter cx package owner doc p) (TaskPlan.parameter cx package owner doc (undefaulted p)) := by
  unfold TaskPlan.parameter
  refine (agrees_same _).bind fun ref => ?_
  have resolved : Parameter.resolve doc (undefaulted p) ref = undefaultedParameter (Parameter.resolve doc p ref) := by
    simp [Parameter.resolve, undefaultedParameter, undefaulted, marked]
  have value : (Parameter.resolve doc p ref).defaultValue = some text := by
    simp [Parameter.resolve, marked, defaulted]
  rw [id, resolved]
  exact (check_agrees value).bind fun _ => agrees_pure undefaultedParameter _

theorem resolve_agrees {trigger source text : String} {given : Option String} {registry : Registry} {d : Descriptor}
    {i : Nat} {p : Property} {mark : ParameterMark} (loaded : cx.catalog.load? source = some d)
    (inside : d.properties[i]? = some p) (marked : p.parameter = some mark)
    (defaulted : mark.defaultValue = some text) :
    TaskPlan.resolve (withoutDefault cx source i) trigger package source given registry =
        (TaskPlan.resolve cx trigger package source given registry).map (Prod.map (undefaultedTask i) id) ∨
      Refused cx.catalog p.ty text ∧ TaskPlan.resolve cx trigger package source given registry =
        .error (.invalidDefault d.name p.name text p.ty.name) := by
  have loads : (withoutDefault cx source i).catalog.load? source = some (undefaultedAt i d) := by
    rw [withoutDefault, load?_remarked, loaded, Option.map_some, withoutIn, if_pos (name_of_load? loaded)]
  have method : (undefaultedAt i d).taskMethod = d.taskMethod := rfl
  have name : (undefaultedAt i d).name = d.name := rfl
  have looked : (withoutDefault cx source i).javadoc = cx.javadoc := javadoc_remarked ..
  have step : TaskPlan.parameter (withoutDefault cx source i) = TaskPlan.parameter cx := parameter_remarked ..
  unfold TaskPlan.resolve
  simp only [loads, loaded, method, name, looked, step]
  cases d.taskMethod with
  | error e => exact .inl rfl
  | ok method =>
    cases cx.javadoc d.name with
    | error e => exact .inl rfl
    | ok doc =>
      have agrees := @mapM_agrees _ _ _ _ (TaskPlan.parameter cx package d.name doc) undefaulted _ d.properties i
        (fun item here => by
          cases inside.symm.trans here
          exact parameter_agrees marked defaulted) { registry }
      change outcome ((undefaultedAt i d).properties.mapM _) _ = _ ∨ _ at agrees
      unfold outcome at agrees
      simp only [bind, Except.bind]
      rcases agrees with agree | ⟨refused, stops⟩
      · left
        rw [agree]
        generalize (ExceptT.run (d.properties.mapM (TaskPlan.parameter cx package d.name doc))).run { registry } = first
        obtain ⟨parameters, state⟩ := first
        cases parameters <;> rfl
      · right
        generalize (ExceptT.run (d.properties.mapM (TaskPlan.parameter cx package d.name doc))).run { registry } = first
          at stops
        obtain ⟨parameters, state⟩ := first
        cases stops
        exact ⟨refused, rfl⟩

theorem refused_fails {trigger source text : String} {given : Option String} {registry : Registry} {d : Descriptor}
    {i : Nat} {p : Property} {mark : ParameterMark} (loaded : cx.catalog.load? source = some d)
    (inside : d.properties[i]? = some p) (marked : p.parameter = some mark) (defaulted : mark.defaultValue = some text)
    (refused : Refused cx.catalog p.ty text) :
    ∃ e, TaskPlan.resolve cx trigger package source given registry = .error e := by
  cases resolves : TaskPlan.resolve cx trigger package source given registry with
  | error e => exact ⟨e, rfl⟩
  | ok made =>
    obtain ⟨task, last⟩ := made
    have own : task.source = d := by
      have known := (TaskResolution.resolve_resolved resolves).loaded
      rw [resolve_source resolves, loaded] at known
      exact (Option.some.inj known).symm
    obtain ⟨refs, _, _, length, parameters, _⟩ := (TaskResolution.resolve_resolved resolves).run
    have whole : (task.source.properties.zip refs).map (·.1) = task.source.properties :=
      List.map_fst_zip (Nat.le_of_eq length.symm)
    have member : p ∈ (task.source.properties.zip refs).map (·.1) := by
      rw [whole, own]
      exact List.mem_of_getElem? inside
    obtain ⟨part, paired, rfl⟩ := List.mem_map.mp member
    have resolved : Parameter.resolve task.javadoc part.1 part.2 ∈ task.parameters :=
      parameters ▸ List.mem_map_of_mem paired
    obtain ⟨other, named, isEnum, unknown⟩ := refused
    have value : (Parameter.resolve task.javadoc part.1 part.2).defaultValue = some text := by
      simp [Parameter.resolve, marked, defaulted]
    exact absurd (constant_of_checked (resolve_checked resolves _ resolved) value named isEnum) unknown

end Resolution

/-- Unless the name of a parameter's type is that of an enum without the constant, a task is resolved, or fails to be,
as without the default of the parameter; otherwise it fails, with the error that there is without the default or
because the default is refused. No task type is built with a default of a type that no default can be made of: once
the work action is built and so are the defaults before, this one is an error that names the parameter. -/
theorem unsuited_defaults_rejected (cx : Context) :
    (∀ source d i p mark text, cx.catalog.load? source = some d → d.properties[i]? = some p → p.parameter = some mark →
      mark.defaultValue = some text → ∀ trigger package given registry,
        (¬ Refused cx.catalog p.ty text →
          TaskPlan.resolve (withoutDefault cx source i) trigger package source given registry =
            (TaskPlan.resolve cx trigger package source given registry).map (Prod.map (undefaultedTask i) id)) ∧
        (Refused cx.catalog p.ty text → ∃ e, TaskPlan.resolve cx trigger package source given registry = .error e ∧
          (e = .invalidDefault d.name p.name text p.ty.name ∨
            TaskPlan.resolve (withoutDefault cx source i) trigger package source given registry = .error e))) ∧
    ∀ trigger plan, GradlePlan.ofTrigger cx trigger = .ok plan → ∀ t ∈ plan.tasks, ∀ before p after work,
      t.task.parameters = before ++ p :: after → p.defaultValue.isSome = true → ¬ Defaultable cx.catalog p.sourceType →
      Gradle.workActionClass t = .ok work →
      (∀ q ∈ before, q.defaultValue.isSome = true → ∃ value, q.defaultExpr t.task.source.name = .ok value) →
        Gradle.taskDefinition plan.packageName t =
          .error (.unsupportedDefault t.task.source.name p.name p.ty.display) ∧
        ∀ earlier later, plan.tasks = earlier ++ t :: later →
          (∀ other ∈ earlier, ∃ definition, Gradle.taskDefinition plan.packageName other = .ok definition) →
            Gradle.taskDefinitions plan = .error (.unsupportedDefault t.task.source.name p.name p.ty.display) := by
  constructor
  · intro source d i p mark text loaded inside marked defaulted trigger package given registry
    have agrees := @resolve_agrees cx package trigger source text given registry d i p mark loaded inside marked
      defaulted
    constructor
    · intro accepted
      exact agrees.resolve_right fun refused => accepted refused.1
    · intro refused
      obtain ⟨e, fails⟩ := @refused_fails cx package trigger source text given registry d i p mark loaded inside marked
        defaulted refused
      refine ⟨e, fails, ?_⟩
      rw [fails] at agrees
      rcases agrees with same | ⟨_, same⟩
      · exact .inr same
      · exact .inl (Except.error.inj same)
  · intro trigger plan planned t member before p after work whole defaulted unsuited built earlier
    obtain ⟨tasks, _, _⟩ := gradle_planned planned
    have own : p ∈ t.task.parameters := by
      rw [whole]
      exact List.mem_append_right _ (List.mem_cons_self ..)
    obtain ⟨_, ref, is, resolved⟩ := resolves_part (tasks.resolves t member) own
    have bare : p.required = false := by
      refine Bool.eq_false_iff.mpr fun required => ?_
      rw [(tasks.resolves t member).required_bare p own required] at defaulted
      cases defaulted
    have stops := @taskDefinition_stops plan.packageName _ _ _ _ _ _ whole built earlier bare defaulted
      (unsuited_default is (congrArg Parameter.ty resolved) unsuited)
    refine ⟨stops, fun front later split others => ?_⟩
    rw [Gradle.taskDefinitions, split]
    exact mapM_stops others stops

/-- A task with a directory that has a default. -/
def archive : Descriptor where
  name := "com.acme.Archive"
  properties := [{
    name := "target"
    ty := .named "java.io.File" [] 0
    setter := some "setTarget"
    parameter := some { defaultValue := some "out", directory := true }
  }]
  methods := [{ name := "run", executable := true }]

def archiving : Descriptor where
  name := "com.acme.Archiving"
  gradlePlugin := some { tasks := [{ source := "com.acme.Archive" }] }

def archives : Context := { ReplicaNames.modes with catalog := ReplicaNames.modes.catalog.add archive }

theorem file_unsuited : ¬ Defaultable archives.catalog (.named "java.io.File" [] 0) := by
  intro suited
  generalize shape : SourceType.named "java.io.File" [] 0 = ty at suited
  cases suited with
  | string => simp at shape
  | primitive p => cases p <;> simp [Primitive.keyword] at shape
  | wrapper p => cases p <;> simp [Primitive.wrapper] at shape
  | enum isEnum =>
    subst shape
    cases isEnum

theorem archive_rejected :
    (∀ registry, TaskPlan.resolve (withoutDefault archives "com.acme.Archive" 0) "com.acme.Archiving" "com.acme"
        "com.acme.Archive" none registry =
      (TaskPlan.resolve archives "com.acme.Archiving" "com.acme" "com.acme.Archive" none registry).map
        (Prod.map (undefaultedTask 0) id)) ∧
    ∃ plan, GradlePlan.ofTrigger archives archiving = .ok plan ∧
      Gradle.taskDefinitions plan = .error (.unsupportedDefault "com.acme.Archive" "target" "java.io.File") := by
  obtain ⟨resolution, emission⟩ := unsuited_defaults_rejected archives
  constructor
  · intro registry
    refine (resolution "com.acme.Archive" archive 0 _ _ "out" rfl rfl rfl rfl _ _ _ registry).1 ?_
    rintro ⟨d, loaded, _⟩
    cases loaded
  · have shape : (GradlePlan.ofTrigger archives archiving).toOption.map (fun plan => plan.tasks.map fun t =>
        (t.task.source.name, (Gradle.workActionClass t).isOk, t.task.parameters.map fun p => p.ty.display)) =
        some [("com.acme.Archive", true, ["java.io.File"])] := by decide +kernel
    obtain ⟨plan, planned⟩ := @ok_of_isOk _ _ (GradlePlan.ofTrigger archives archiving) (by decide +kernel)
    rw [planned] at shape
    obtain ⟨t, given, shape⟩ := List.map_eq_singleton_iff.mp (Option.some.inj shape)
    obtain ⟨name, works, shape⟩ : _ ∧ _ ∧ _ := by simpa only [Prod.mk.injEq] using shape
    obtain ⟨p, whole, displayed⟩ := List.map_eq_singleton_iff.mp shape
    obtain ⟨work, built⟩ := ok_of_isOk works
    have member : t ∈ plan.tasks := given ▸ List.mem_singleton_self t
    obtain ⟨tasks, _, _⟩ := gradle_planned planned
    have loaded := tasks.loaded t member
    rw [name, show archives.catalog.load? "com.acme.Archive" = some archive from rfl] at loaded
    obtain ⟨own, ref, _, resolved⟩ := resolves_part (tasks.resolves t member) (whole ▸ List.mem_singleton_self p)
    rw [← Option.some.inj loaded] at own
    have target := List.mem_singleton.mp own
    have defaulted : p.defaultValue = some "out" := by rw [resolved, target]; rfl
    have unsuited : ¬ Defaultable archives.catalog p.sourceType := by
      rw [Parameter.sourceType, target]
      exact file_unsuited
    have rejected := (emission archiving plan planned t member [] p [] work whole (by rw [defaulted]; rfl) unsuited
      built (List.forall_mem_nil _)).2 [] [] given (List.forall_mem_nil _)
    rw [name, Parameter.name, target, displayed] at rejected
    exact ⟨plan, planned, rejected⟩

/-- A task with an array of an enum's constants that has a default. -/
def batch : Descriptor where
  name := "com.acme.Batch"
  properties := [{
    name := "modes"
    ty := .named "com.acme.fast.Mode" [] 1
    setter := some "setModes"
    parameter := some { defaultValue := some "ON, OFF" }
  }]
  methods := [{ name := "run", executable := true }]

def batches : Context := { ReplicaNames.modes with catalog := ReplicaNames.modes.catalog.add batch }

theorem array_default_refused :
    ¬ Defaultable batches.catalog (.named "com.acme.fast.Mode" [] 1) ∧
    (TaskPlan.resolve (withoutDefault batches "com.acme.Batch" 0) "com.acme.Batching" "com.acme" "com.acme.Batch" none
      {}).isOk = true ∧
    (TaskPlan.resolve batches "com.acme.Batching" "com.acme" "com.acme.Batch" none {}).map (fun _ => ()) =
      .error (.invalidDefault "com.acme.Batch" "modes" "ON, OFF" "com.acme.fast.Mode") := by
  refine ⟨fun suited => ?_, by decide +kernel, by decide +kernel⟩
  generalize shape : SourceType.named "com.acme.fast.Mode" [] 1 = ty at suited
  cases suited with
  | string | primitive | wrapper => simp at shape
  | enum isEnum =>
    subst shape
    cases isEnum

end PluginForge.Proofs.UnsuitedDefaults
