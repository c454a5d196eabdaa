import PluginForge.Generation.DefaultValue
import PluginForge.Gradle.TaskType
import PluginForge.Proofs.GradleProperties

/-! Which value of a parameter counts for a task, and what the properties of a specification, a task and the parameters
of its work have to hold for the work to read that value. -/

namespace PluginForge.Proofs.EffectiveValues
open Gradle Evaluation GradleProperties

/-- A value that a build script sets on a specification or on a task. Null takes an earlier value away. -/
structure Choice where
  role : Role
  parameter : Parameter
  value : Value

/-- Everything can be set on a task, and on a specification what is not internal. -/
structure Allowed (platform : Platform) (t : GradleTask) (c : Choice) : Prop where
  parameter : c.parameter ∈ t.task.parameters
  role : c.role = .task ∨ c.role = .specification ∧ c.parameter.internal = false
  plain : platform.referent? c.value = none

def Choice.settle (role : Role) (getter : String) (before : Option Value) (c : Choice) : Option Value :=
  if c.role = role ∧ getterName c.parameter = getter then if c.value = .null then none else some c.value
  else before

/-- The explicit value of a parameter after the choices. -/
def chosen (choices : List Choice) (role : Role) (p : Parameter) : Option Value :=
  choices.foldl (Choice.settle role (getterName p)) none

def constantOf : Expr → Option Value
  | .literal value => some (.literal value)
  | .staticField (.generated name .enum) constant _ => some (.constant name constant)
  | _ => none

def declaredDefault (t : GradleTask) (p : Parameter) : Option Value :=
  if p.defaultValue.isSome then (p.defaultExpr t.task.source.name).toOption.bind constantOf else none

/-- The value on the specification, or else the declared default. -/
def offered (t : GradleTask) (choices : List Choice) (p : Parameter) : Option Value :=
  (if p.internal then none else chosen choices .specification p).or (declaredDefault t p)

/-- The value that counts for a task. -/
def effective (t : GradleTask) (choices : List Choice) (p : Parameter) : Option Value :=
  (chosen choices .task p).or (offered t choices p)

/-- What a value of a parameter is to the task source: for a file, the file at the location. -/
def delivered? (platform : Platform) (p : Parameter) (value : Value) : Option Value :=
  if p.sourceType.isFile then platform.fileOf value else some value

section Defaults
variable {platform : Platform} {t : GradleTask} {p : Parameter}

theorem defaultExpr_constant {owner : String} {e : Expr} (made : p.defaultExpr owner = .ok e) :
    ∃ value, constantOf e = some value ∧ platform.IsPlain value := by
  rcases p.defaultExpr_forms made with ⟨literal, present, rfl⟩ | ⟨name, _, rfl⟩
  · refine ⟨.literal literal, rfl, rfl, ?_⟩
    intro absent
    exact present (Value.literal.inj absent)
  · exact ⟨.constant name _, rfl, rfl, fun absent => nomatch absent⟩

theorem declaredDefault_of_made {e : Expr} (has : p.defaultValue.isSome = true)
    (made : p.defaultExpr t.task.source.name = .ok e) : declaredDefault t p = constantOf e := by
  rw [declaredDefault, if_pos has, made]
  rfl

theorem declaredDefault_plain {value : Value} (is : declaredDefault t p = some value) : platform.IsPlain value := by
  unfold declaredDefault at is
  split at is
  · cases made : p.defaultExpr t.task.source.name with
    | error e =>
      rw [made] at is
      cases is
    | ok e =>
      rw [made] at is
      obtain ⟨default, constant, plain⟩ := @defaultExpr_constant platform _ _ _ made
      cases constant.symm.trans is
      exact plain
  · cases is

theorem declaredDefault_of_none (absent : p.defaultValue.isSome = false) : declaredDefault t p = none := by
  rw [declaredDefault, if_neg (by simp [absent])]

end Defaults

section Choices
variable {platform : Platform} {t : GradleTask} {choices : List Choice} {role : Role} {p : Parameter}

/-- What the choices leave is what was there before, or one of them. -/
theorem foldl_settle_plain {getter : String} {before : Option Value} {value : Value}
    (plain : ∀ c ∈ choices, platform.referent? c.value = none) (had : ∀ old, before = some old → platform.IsPlain old)
    (left : choices.foldl (Choice.settle role getter) before = some value) : platform.IsPlain value := by
  induction choices generalizing before with
  | nil => exact had value left
  | cons c rest ih =>
    refine ih (fun other member => plain other (List.mem_cons_of_mem _ member)) (fun old settled => ?_) left
    unfold Choice.settle at settled
    split at settled
    · split at settled
      next => cases settled
      next present =>
        cases settled
        exact ⟨plain c (List.mem_cons_self ..), present⟩
    · exact had old settled

theorem chosen_plain {value : Value} (plain : ∀ c ∈ choices, platform.referent? c.value = none)
    (is : chosen choices role p = some value) : platform.IsPlain value := by
  refine foldl_settle_plain plain ?_ is
  intro old absent
  cases absent

def apply (platform : Platform) (s : State) (c : Choice) : State :=
  s.modify c.role (getterName c.parameter) fun q => { q with explicit := platform.sourceOf c.value }

theorem apply_properties {c : Choice} {getter : String} {s : State} {before : Option Value}
    (plain : platform.referent? c.value = none) (had : (s.properties role getter).explicit = before.map .value) :
    (apply platform s c).properties role getter =
      { s.properties role getter with explicit := (c.settle role getter before).map .value } := by
  by_cases same : c.role = role ∧ getterName c.parameter = getter
  · rw [Choice.settle, if_pos same]
    obtain ⟨rfl, rfl⟩ := same
    unfold apply
    rw [State.modify_properties]
    by_cases absent : c.value = .null
    · rw [absent, Platform.sourceOf_null, if_pos rfl, Option.map_none]
    · rw [platform.sourceOf_plain ⟨plain, absent⟩, if_neg absent, Option.map_some]
  · rw [Choice.settle, if_neg same, ← had]
    unfold apply
    rw [State.modify_other]
    intro isRole isGetter
    exact same ⟨isRole.symm, isGetter.symm⟩

theorem foldl_apply {getter : String} {s : State} {before : Option Value}
    (plain : ∀ c ∈ choices, platform.referent? c.value = none)
    (had : (s.properties role getter).explicit = before.map .value) :
    (choices.foldl (apply platform) s).properties role getter =
      { s.properties role getter with
        explicit := (choices.foldl (Choice.settle role getter) before).map .value } := by
  induction choices generalizing s before with
  | nil => rw [List.foldl_nil, List.foldl_nil, ← had]
  | cons c rest ih =>
    have first := apply_properties (plain c (List.mem_cons_self ..)) had
    have others := ih (fun other member => plain other (List.mem_cons_of_mem c member)) (congrArg (·.explicit) first)
    rw [List.foldl_cons, List.foldl_cons, others, first]

end Choices

section Reading
variable {platform : Platform} {t : GradleTask} {choices : List Choice} {s after : State} {p : Parameter} {budget : Nat}

/-- The properties of a task and of its specification after both were configured. What was chosen is explicit. The
convention of the task's property is that of the specification, where the declared default is the convention. -/
structure Configured (t : GradleTask) (choices : List Choice) (s : State) : Prop where
  task : ∀ p ∈ t.task.parameters, s.properties .task (getterName p) =
    { explicit := (chosen choices .task p).map .value
      convention := if p.internal then none else some (.provider (.property .specification (getterName p))) }
  specification : ∀ p ∈ t.task.parameters, p.internal = false → s.properties .specification (getterName p) =
    { explicit := (chosen choices .specification p).map .value
      convention := (declaredDefault t p).map .value }

/-- What a task's own property gives: what is set on it, or else what its specification has, with a default there. -/
def held (t : GradleTask) (choices : List Choice) (p : Parameter) : Option Value :=
  (chosen choices .task p).or (if p.internal then none else (chosen choices .specification p).or (declaredDefault t p))

theorem Configured.reads_specification (configured : Configured t choices s) (member : p ∈ t.task.parameters)
    (isPublic : p.internal = false) : s.readWithin (budget + 1) (.property .specification (getterName p)) =
      some ((chosen choices .specification p).or (declaredDefault t p)) := by
  have has := configured.specification p member isPublic
  cases set : chosen choices .specification p with
  | some value =>
    rw [set] at has
    exact State.read_value (by rw [has]; rfl)
  | none =>
    rw [set] at has
    cases given : declaredDefault t p with
    | some value => exact State.read_value (by rw [has, given]; rfl)
    | none => exact State.read_none (by rw [has, given]; rfl)

theorem Configured.reads_task (configured : Configured t choices s) (member : p ∈ t.task.parameters) :
    s.readWithin (budget + 2) (.property .task (getterName p)) = some (held t choices p) := by
  have has := configured.task p member
  unfold held
  cases set : chosen choices .task p with
  | some value =>
    rw [set] at has
    exact State.read_value (by rw [has]; rfl)
  | none =>
    rw [set] at has
    cases isInternal : p.internal with
    | true => exact State.read_none (by rw [has, isInternal]; rfl)
    | false =>
      rw [State.read_provider (by rw [has, isInternal]; rfl), configured.reads_specification member isInternal]
      simp

/-- What a parameter of the work was given: the task's property, that property with the default behind it, or its
value. -/
inductive Handed (t : GradleTask) (choices : List Choice) (s : State) (p : Parameter) : Prop where
  | required (required : p.required = true) (given : (s.properties .parameters (getterName p)).explicit =
      some (.provider (.property .task (getterName p)))) : Handed t choices s p
  | default {value : Value} {index : Nat} (declared : declaredDefault t p = some value)
      (given : (s.properties .parameters (getterName p)).explicit = some (.provider (.fallback index)))
      (known : s.fallbacks[index]? = some (.property .task (getterName p), value)) : Handed t choices s p
  | optional (declared : declaredDefault t p = none)
      (given : (s.properties .parameters (getterName p)).explicit = (held t choices p).map .value) :
      Handed t choices s p

theorem Handed.later (handed : Handed t choices s p)
    (same : after.properties .parameters (getterName p) = s.properties .parameters (getterName p))
    (grows : s.fallbacks <+: after.fallbacks) : Handed t choices after p := by
  cases handed with
  | required required given => exact .required required (same ▸ given)
  | default declared given known =>
    obtain ⟨new, whole⟩ := grows
    refine .default declared (same ▸ given) ?_
    rw [← whole, List.getElem?_append_left (List.getElem?_eq_some_iff.mp known).1, known]
  | optional declared given => exact .optional declared (same ▸ given)

theorem held_plain (plain : ∀ c ∈ choices, platform.referent? c.value = none) {value : Value}
    (is : held t choices p = some value) : platform.IsPlain value := by
  unfold held at is
  rcases Option.or_eq_some_iff.mp is with assigned | ⟨_, is⟩
  · exact chosen_plain plain assigned
  · split at is
    · cases is
    · rcases Option.or_eq_some_iff.mp is with specified | ⟨_, declared⟩
      · exact chosen_plain plain specified
      · exact declaredDefault_plain declared

theorem sourceOf_held (plain : ∀ c ∈ choices, platform.referent? c.value = none) (p : Parameter) :
    platform.sourceOf ((held t choices p).getD .null) = (held t choices p).map .value := by
  cases is : held t choices p with
  | none => exact platform.sourceOf_null
  | some value => exact platform.sourceOf_plain (held_plain plain is)

theorem held_or_default : (held t choices p).or (declaredDefault t p) = effective t choices p := by
  unfold held effective offered
  cases chosen choices .task p with
  | some value => rfl
  | none =>
    cases p.internal with
    | true => rfl
    | false => cases chosen choices .specification p <;> cases declaredDefault t p <;> rfl

theorem effective_plain {value : Value} (plain : ∀ c ∈ choices, platform.referent? c.value = none)
    (is : effective t choices p = some value) : platform.IsPlain value := by
  rw [← held_or_default] at is
  rcases Option.or_eq_some_iff.mp is with held | ⟨_, declared⟩
  · exact held_plain plain held
  · exact declaredDefault_plain declared

/-- The parameters of the work give the value that counts for the task. -/
theorem Handed.reads (handed : Handed t choices s p) (configured : Configured t choices s)
    (member : p ∈ t.task.parameters) (never : p.required = true → declaredDefault t p = none) {value : Value}
    (counts : effective t choices p = some value) :
    s.readWithin (budget + 4) (.property .parameters (getterName p)) = some (some value) := by
  rw [← held_or_default] at counts
  cases handed with
  | required required given =>
    -- There is no default behind it: the property of the task alone decides.
    rw [never required, Option.or_none] at counts
    rw [State.read_provider (by rw [Property.source?, given]; rfl), configured.reads_task member, counts]
  | default declared given known =>
    rw [State.read_provider (by rw [Property.source?, given]; rfl)]
    rw [State.read_fallback known (configured.reads_task member)]
    rw [declared] at counts
    cases own : held t choices p with
    | some other =>
      rw [own] at counts
      exact congrArg some counts
    | none =>
      rw [own] at counts
      exact congrArg some counts
  | optional declared given =>
    rw [declared, Option.or_none] at counts
    rw [counts] at given
    exact State.read_value (by rw [Property.source?, given]; rfl)

end Reading

section Stages
variable {platform : Platform} {t : GradleTask} {choices early late : List Choice} {s : State}

def declare (t : GradleTask) (s : State) (p : Parameter) : State :=
  s.modify .specification (getterName p) fun q => { q with convention := (declaredDefault t p).map .value }

def inherit (s : State) (p : Parameter) : State :=
  s.modify .task (getterName p) fun q =>
    { q with convention := some (.provider (.property .specification (getterName p))) }

def specified (t : GradleTask) : State :=
  (t.task.parameters.filter fun p => !p.internal && p.defaultValue.isSome).foldl (declare t) {}

def inherited (t : GradleTask) (s : State) : State := (t.task.parameters.filter (!·.internal)).foldl inherit s

theorem specified_properties (distinct : (t.task.parameters.map getterName).Nodup) :
    (∀ p ∈ t.task.parameters, p.internal = false → (specified t).properties .specification (getterName p) =
      { convention := (declaredDefault t p).map .value }) ∧
    ∀ name, (specified t).properties .task name = {} := by
  obtain ⟨each, others⟩ := @State.foldl_modify_filter _ t.task.parameters getterName
    (fun p q => { q with convention := (declaredDefault t p).map .value })
    (fun p => !p.internal && p.defaultValue.isSome) distinct {} .specification
  refine ⟨fun p member isPublic => (each p member).trans ?_, fun name => others .task name fun is => (nomatch is)⟩
  by_cases has : p.defaultValue.isSome = true
  · rw [if_pos (by simp [isPublic, has])]
  · rw [if_neg (by simp [has]), declaredDefault_of_none (by simpa using has)]
    rfl

theorem inherited_properties (distinct : (t.task.parameters.map getterName).Nodup) (s : State) :
    (∀ p ∈ t.task.parameters, (inherited t s).properties .task (getterName p) =
      if p.internal then s.properties .task (getterName p)
      else { s.properties .task (getterName p) with
        convention := some (.provider (.property .specification (getterName p))) }) ∧
    ∀ name, (inherited t s).properties .specification name = s.properties .specification name := by
  obtain ⟨each, others⟩ := @State.foldl_modify_filter _ t.task.parameters getterName
    (fun p q => { q with convention := some (.provider (.property .specification (getterName p))) })
    (!·.internal) distinct s .task
  refine ⟨fun p member => (each p member).trans ?_, fun name => others .specification name fun is => (nomatch is)⟩
  cases p.internal <;> rfl

/-- What is left when a specification and a task were configured, with values set after each. -/
def settled (platform : Platform) (t : GradleTask) (early late : List Choice) : State :=
  late.foldl (apply platform) (inherited t (early.foldl (apply platform) (specified t)))

/-- Before the work's parameters are set, a task and its specification have what was chosen, what is declared and
what one inherits from the other. -/
theorem stages_configured (distinct : (t.task.parameters.map getterName).Nodup)
    (plain : ∀ c ∈ early ++ late, platform.referent? c.value = none) :
    Configured t (early ++ late) (settled platform t early late) := by
  obtain ⟨plainEarly, plainLate⟩ := List.forall_mem_append.mp plain
  obtain ⟨declared, bare⟩ := specified_properties distinct
  obtain ⟨own, kept⟩ := inherited_properties distinct (early.foldl (apply platform) (specified t))
  have chosenLater (role : Role) (p : Parameter) : chosen (early ++ late) role p =
      late.foldl (Choice.settle role (getterName p)) (chosen early role p) := List.foldl_append ..
  constructor
  · intro p member
    -- Explicit values set before the convention are left alone by it.
    have first := @foldl_apply platform early .task (getterName p) (specified t) none plainEarly (by rw [bare]; rfl)
    rw [bare] at first
    have inherits := own p member
    rw [first] at inherits
    have had : ((inherited t (early.foldl (apply platform) (specified t))).properties .task (getterName p)).explicit =
        (chosen early .task p).map .value := by
      rw [inherits]
      cases p.internal <;> rfl
    rw [chosenLater, settled, foldl_apply plainLate had, inherits]
    cases p.internal <;> rfl
  · intro p member isPublic
    have first := @foldl_apply platform early .specification (getterName p) (specified t) none plainEarly
      (by rw [declared p member isPublic]; rfl)
    rw [declared p member isPublic] at first
    have stays := kept (getterName p)
    rw [first] at stays
    have had : ((inherited t (early.foldl (apply platform) (specified t))).properties .specification
        (getterName p)).explicit = (chosen early .specification p).map .value := by rw [stays]; rfl
    rw [chosenLater, settled, foldl_apply plainLate had, stays]

def handOver (t : GradleTask) (choices : List Choice) (s : State) (p : Parameter) : State :=
  let give (s : State) (source : Option Source) :=
    s.modify .parameters (getterName p) fun q => { q with explicit := source }
  if p.required then give s (some (.provider (.property .task (getterName p))))
  else match declaredDefault t p with
    | some value =>
      give (s.addFallback (.property .task (getterName p)) value) (some (.provider (.fallback s.fallbacks.length)))
    | none => give s ((held t choices p).map .value)

/-- What is handed over to one parameter of the work leaves everything else as it is. -/
theorem handOver_step (s : State) (p : Parameter) :
    Handed t choices (handOver t choices s p) p ∧ s.fallbacks <+: (handOver t choices s p).fallbacks ∧
      ∀ role name, (role = .parameters → name ≠ getterName p) →
        (handOver t choices s p).properties role name = s.properties role name := by
  by_cases required : p.required = true
  · simp only [handOver, if_pos required]
    refine ⟨.required required (by simp), by simp, fun role name apart => State.modify_other _ _ _ _ _ _ apart⟩
  · simp only [handOver, if_neg required]
    cases declared : declaredDefault t p with
    | some value =>
      have given := congrArg Property.explicit (State.modify_properties
        (s.addFallback (.property .task (getterName p)) value) .parameters (getterName p) fun q => { q with explicit := some (.provider (.fallback s.fallbacks.length)) })
      refine ⟨.default declared given (by simp), by simp, fun role name apart => ?_⟩
      rw [State.modify_other _ _ _ _ _ _ apart, State.addFallback_properties]
    | none => exact ⟨.optional declared (by simp), by simp, fun role name apart => State.modify_other _ _ _ _ _ _ apart⟩

theorem handOver_all {items : List Parameter} (distinct : (items.map getterName).Nodup) (s : State) :
    (∀ p ∈ items, Handed t choices (items.foldl (handOver t choices) s) p) ∧
      s.fallbacks <+: (items.foldl (handOver t choices) s).fallbacks ∧
      ∀ role name, (role = .parameters → name ∉ items.map getterName) →
        (items.foldl (handOver t choices) s).properties role name = s.properties role name := by
  induction items generalizing s with
  | nil => exact ⟨List.forall_mem_nil _, List.prefix_refl _, fun _ _ _ => rfl⟩
  | cons p rest ih =>
    obtain ⟨absent, distinct⟩ := List.nodup_cons.mp distinct
    -- Getters are distinct, so that what the first was given is still there in the end.
    obtain ⟨first, grows, same⟩ := @handOver_step t choices s p
    obtain ⟨others, last, kept⟩ := ih distinct (handOver t choices s p)
    rw [List.foldl_cons]
    refine ⟨List.forall_mem_cons.mpr ⟨first.later (kept _ _ fun _ => absent) last, others⟩, grows.trans last, ?_⟩
    intro role name apart
    rw [List.map_cons, List.mem_cons, not_or] at apart
    rw [kept role name fun is => (apart is).2, same role name fun is => (apart is).1]

theorem Configured.handedOver (configured : Configured t choices s) (p : Parameter) :
    Configured t choices (handOver t choices s p) := by
  obtain ⟨_, _, same⟩ := @handOver_step t choices s p
  constructor
  · intro q member
    rw [same .task _ fun is => (nomatch is), configured.task q member]
  · intro q member isPublic
    rw [same .specification _ fun is => (nomatch is), configured.specification q member isPublic]

end Stages

end PluginForge.Proofs.EffectiveValues
