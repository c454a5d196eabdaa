import PluginForge.Generation.DefaultValue
import PluginForge.Proofs.PlannedTasks

/-! Defaults of enum parameters. What is accepted for a parameter when its task is resolved is a constant of the source
enum. The reference that is made of it later names the copy of the enum alone, which has the same constants. -/

namespace PluginForge.Proofs.EnumDefaults
open ModelTypes Results ReplicationLogic ReplicationRule ReplicationInvariant CarriedModels PlannedTasks

section Checks
variable {cx : Context}

theorem constant_of_checked {owner text : String} {p : Parameter} {d : Descriptor}
    (checked : TaskPlan.checkEnumDefault cx owner p = .ok ()) (defaulted : p.defaultValue = some text)
    (loaded : cx.catalog.load? p.sourceType.name = some d) (isEnum : d.isEnum = true) :
    Text.trim text ∈ d.enumConstants := by
  unfold TaskPlan.checkEnumDefault at checked
  simp only [defaulted, loaded, isEnum, Bool.true_and] at checked
  split at checked
  next => cases checked
  next known => simpa using known

theorem parameters_checked {package owner : String} {doc : TypeDoc} {properties : List Property}
    {parameters : List Parameter} {s after : ReplicationState}
    (yields : Yields (properties.mapM (TaskPlan.parameter cx package owner doc)) s parameters after) :
    ∀ p ∈ parameters, TaskPlan.checkEnumDefault cx owner p = .ok () := by
  have each := yields_mapM.mp yields
  clear yields
  induction each with
  | nil => exact List.forall_mem_nil _
  | cons first _ ih =>
    unfold TaskPlan.parameter at first
    obtain ⟨ref, next, _, first⟩ := yields_bind.mp first
    obtain ⟨_, _, check, first⟩ := yields_bind.mp first
    obtain ⟨rfl, _⟩ := yields_pure.mp first
    exact List.forall_mem_cons.mpr ⟨(yields_lift.mp check).1, ih⟩

theorem resolve_checked {trigger package source : String} {given : Option String} {registry last : Registry}
    {task : TaskPlan} (resolves : TaskPlan.resolve cx trigger package source given registry = .ok (task, last)) :
    ∀ p ∈ task.parameters, TaskPlan.checkEnumDefault cx task.source.name p = .ok () := by
  obtain ⟨d, method, doc, parameters, after, _, _, _, yields, _, rfl⟩ := TaskResolution.resolve_eq_ok_iff.mp resolves
  exact parameters_checked yields

end Checks

/-- What a type is referred to as: a primitive or the bare name of a class, and otherwise neither of them nor a type of
the same pass. -/
inductive Refers : SourceType → TypeRef → Prop where
  | primitive (p : Primitive) (args : List SourceType) : Refers (.named p.keyword args 0) (.primitive p)
  | «class» (name : String) : Refers (.named name [] 0) (.class name)
  | parameterized {ty : SourceType} (raw : String) (args : List TypeRef) : Refers ty (.parameterized raw args)
  | array {ty : SourceType} (element : TypeRef) : Refers ty (.array element)
  | extending {ty : SourceType} (bound : TypeRef) : Refers ty (.wildcardExtends bound)
  | above {ty : SourceType} (bound : TypeRef) : Refers ty (.wildcardSuper bound)
  | void {ty : SourceType} : Refers ty .void

theorem refers_toTypeRef (ty : SourceType) : Refers ty ty.toTypeRef := by
  cases ty with
  | named name args dimensions =>
    rw [SourceType.toTypeRef]
    cases dimensions with
    | succ => exact .array _
    | zero =>
      rw [SourceType.arrayOf]
      split
      · exact .void
      · split
        next p keyword =>
          have named : p.keyword = name := by simpa using List.find?_some keyword
          exact named ▸ .primitive p args
        next =>
          split
          next bare =>
            rw [List.isEmpty_iff.mp bare]
            exact .class name
          next => exact .parameterized name _
  | anything => exact .extending _
  | extending bound => exact .extending _
  | above bound => exact .above _

/-- Only the enums of the catalog are copied into enums. -/
theorem refOf_enum {catalog : Catalog} {package : String} {ty : SourceType} {ref : ReplicaRef}
    (is : RefOf catalog package ty ref) (isEnum : ref.ty.isGeneratedEnum = true) :
    ∃ d, Model catalog ty d ∧ d.isEnum = true ∧ ref.ty = .generated (copyName package d.name) .enum ∧
      modelOf? catalog ty = some d.name := by
  cases is with
  | @model _ kind source copied named =>
    obtain ⟨d, model, rfl⟩ := model_of_classify copied
    have source : d.isEnum = true := by
      cases plain : d.isEnum with
      | true => rfl
      | false => simp [copyKind, plain, TypeRef.isGeneratedEnum] at isEnum
    refine ⟨d, model, source, ?_, model.name_eq ▸ modelOf?_model copied⟩
    rw [replicaName_eq, model.name_eq, copyKind, if_pos source]
  | collection => cases isEnum
  | passthrough =>
    change ty.toTypeRef.isGeneratedEnum = true at isEnum
    have refers := refers_toTypeRef ty
    generalize ty.toTypeRef = shown at refers isEnum
    cases refers <;> cases isEnum

/-- The copy of an enum has the constants of the enum. -/
theorem copy_enum {cx : Context} {package : String} {d : Descriptor} {replica : Replica} {deps : List String}
    (copy : Copy cx package d replica deps) (isEnum : d.isEnum = true) :
    ∃ body, replica.definition = .enum body [] ∧ body.name = copyName package d.name ∧
      body.constants = d.enumConstants := by
  cases copy with
  | enum _ made =>
    obtain ⟨doc, _, finishes⟩ := except_bind.mp made
    cases finishes
    exact ⟨_, rfl, rfl, rfl⟩
  | plain notEnum =>
    rw [isEnum] at notEnum
    cases notEnum

theorem resolves_part {cx : Context} {package : String} {task : TaskPlan} (resolves : Resolves cx package task)
    {p : Parameter} (member : p ∈ task.parameters) :
    p.property ∈ task.source.properties ∧
      ∃ ref, RefOf cx.catalog package p.sourceType ref ∧ p = Parameter.resolve task.javadoc p.property ref := by
  obtain ⟨parts, whole, parameters, refs⟩ := resolves
  rw [parameters] at member
  obtain ⟨part, inside, rfl⟩ := List.mem_map.mp member
  exact ⟨whole ▸ List.mem_map_of_mem inside, part.2, refs part inside, rfl⟩

/-- A parameter of a resolved trigger whose type is the copy of an enum has as its default the constant of the copy that
its text names without the blanks around it. The copy is one of the plugin's, that of the parameter's own enum, and it
has this constant, as the enum itself does. -/
theorem enum_defaults_name_constants {cx : Context} {trigger : Descriptor} {plan : GradlePlan} {t : GradleTask}
    {p : Parameter} {text : String} (planned : GradlePlan.ofTrigger cx trigger = .ok plan) (given : t ∈ plan.tasks)
    (member : p ∈ t.task.parameters) (defaulted : p.defaultValue = some text)
    (copied : p.ty.isGeneratedEnum = true) :
    (∀ owner, p.defaultExpr owner = .ok (.staticField p.ty (Text.trim text) p.ty)) ∧
    ∃ d, cx.catalog.load? p.sourceType.name = some d ∧ d.isEnum = true ∧
      ∃ replica ∈ plan.replicas, replica.source = d.sourceType ∧ replica.ty = p.ty ∧
        ∃ body, replica.definition = .enum body [] ∧ p.ty = .generated body.name .enum ∧
          body.constants = d.enumConstants ∧ Text.trim text ∈ body.constants := by
  obtain ⟨tasks, _, _⟩ := gradle_planned planned
  obtain ⟨own, ref, is, resolved⟩ := resolves_part (tasks.resolves t given) member
  have same : p.ty = ref.ty := congrArg Parameter.ty resolved
  obtain ⟨d, model, isEnum, ty, leads⟩ := refOf_enum is (same ▸ copied)
  rw [← same] at ty
  have loaded : cx.catalog.load? p.sourceType.name = some d := model.name_eq ▸ model.loaded
  constructor
  · intro owner
    simp only [Parameter.defaultExpr, ty, defaulted, Option.getD_some]
  · have reached : ReachesAny cx.catalog (parameterTypes t.task) d.name := ⟨_, List.mem_map_of_mem own, .here leads⟩
    obtain ⟨replica, inside, other, name, copyOf⟩ := tasks.complete t given d.name reached
    have known := copyOf.model.loaded
    rw [name, model.loaded] at known
    cases known
    obtain ⟨deps, copy⟩ := copyOf.copy
    obtain ⟨replicaTy, _, _, source⟩ := ReplicaNames.copy_names copy
    obtain ⟨body, definition, named, constants⟩ := copy_enum copy isEnum
    refine ⟨d, loaded, isEnum, replica, inside, source, ?_, body, definition, ?_, constants, ?_⟩
    · rw [replicaTy, ty, copyKind, if_pos isEnum]
    · rw [ty, named]
    · rw [constants]
      obtain ⟨_, _, _, _, made⟩ := gradle_requested planned
      obtain ⟨_, _, _, _, resolves⟩ := made t given
      exact constant_of_checked (resolve_checked resolves p member) defaulted loaded isEnum

/-- A task with a setting of an enum type and blanks around its default. -/
def tuned : Descriptor where
  name := "com.acme.Tuned"
  properties := [{
    name := "mode"
    ty := .ofName "com.acme.fast.Mode"
    parameter := some { defaultValue := some " ON\n" }
  }]
  methods := [{ name := "run", executable := true }]

def tuning : Descriptor where
  name := "com.acme.Tuning"
  gradlePlugin := some { tasks := [{ source := "com.acme.Tuned" }] }

def tunes : Context := { ReplicaNames.modes with catalog := ReplicaNames.modes.catalog.add tuned }

theorem tuned_default : ∃ plan, GradlePlan.ofTrigger tunes tuning = .ok plan ∧ ∃ t ∈ plan.tasks,
    ∃ p ∈ t.task.parameters, p.defaultExpr "com.acme.Tuned" = .ok (.staticField p.ty "ON" p.ty) ∧
      ∃ replica ∈ plan.replicas, replica.ty = p.ty ∧
        ∃ body, replica.definition = .enum body [] ∧ "ON" ∈ body.constants := by
  have given : ((GradlePlan.ofTrigger tunes tuning).toOption.any fun plan => plan.tasks.any fun t =>
      t.task.parameters.any fun p => p.defaultValue == some " ON\n" && p.ty.isGeneratedEnum) = true := by decide +kernel
  obtain ⟨plan, planned, given⟩ := (Option.any_eq_true ..).mp given
  obtain ⟨t, asked, given⟩ := List.any_eq_true.mp given
  obtain ⟨p, member, given⟩ := List.any_eq_true.mp given
  obtain ⟨defaulted, copied⟩ := Bool.and_eq_true_iff.mp given
  have resolved : GradlePlan.ofTrigger tunes tuning = .ok plan := by
    cases result : GradlePlan.ofTrigger tunes tuning <;> simp_all [Except.toOption]
  have trimmed : Text.trim " ON\n" = "ON" := by decide +kernel
  obtain ⟨made, d, _, _, replica, inside, _, same, body, definition, _, _, known⟩ :=
    enum_defaults_name_constants resolved asked member (beq_iff_eq.mp defaulted) copied
  rw [trimmed] at made known
  exact ⟨plan, resolved, t, asked, p, member, made _, replica, inside, same, body, definition, known⟩

end PluginForge.Proofs.EnumDefaults
