import Mathlib.Data.List.Find
import PluginForge.Proofs.CalledConstructors

/-! What becomes of arguments when an instance is constructed. The constructor takes what it names, each property it leaves
is set by its setter or else in its field, and so every argument is handed over once or has nowhere to go. -/

namespace PluginForge.Proofs.InstanceBinding
open ReplicationLogic ReplicationFailure CalledConstructors

/-- Whether there is a way to set the property of an instance. -/
def settable (p : Property) : Bool := p.setter.isSome || p.accessibleField?.isSome

/-- The arguments that construction has a use for, by name. -/
def Received (d : Descriptor) (name : String) : Prop :=
  (∃ names, calledNames? d = some names ∧ name ∈ names) ∨ ∃ p ∈ d.properties, p.name = name ∧ settable p = true

/-- The properties that are set after the call of the constructor, which takes these names. -/
def later (d : Descriptor) (arguments : Arguments) (names : List String) : List Property :=
  d.properties.filter fun p => !names.contains p.name && ((arguments.get? p.name).isSome && settable p)

/-- The statement sets the property to its argument, by its setter or, where it has none, in its field. -/
inductive Binds (target : Variable) (arguments : Arguments) (p : Property) : Stmt → Prop where
  | setter {method : String} {value : Expr} (given : arguments.get? p.name = some value) (has : p.setter = some method) :
      Binds target arguments p (.expr (target.toLocal.invoke method .void [value]))
  | field {f : SourceField} {value : Expr} (given : arguments.get? p.name = some value) (none : p.setter = none)
      (has : p.accessibleField? = some f) :
      Binds target arguments p (.assignField target.toLocal f.name p.ty.toTypeRef value)

/-- The first component of a record that has no argument. -/
def firstLacking? (d : Descriptor) (arguments : Arguments) : Option Property :=
  d.properties.find? fun p => (arguments.get? p.name).isNone

/-- The type has no constructor to call, or is a record one of whose components has no argument. -/
inductive Refused (d : Descriptor) (arguments : Arguments) : GenerateError → Prop where
  | noConstructor (none : d.primaryConstructor? = none) : Refused d arguments (.noConstructor d.name)
  | missing {c : SourceConstructor} {p : Property} (chosen : d.primaryConstructor? = some c) (record : d.isRecord = true)
      (first : firstLacking? d arguments = some p) : Refused d arguments (.missingArgument d.name p.name)

/-- The expressions that a statement of a construction passes or assigns. -/
def handed : Stmt → List Expr
  | .define _ (.create _ args) => args
  | .expr (.invoke _ _ _ args) => args
  | .assignField _ _ _ value => [value]
  | _ => []

variable {d : Descriptor} {arguments others : Arguments} {localName : String} {target : Variable} {statements : List Stmt}
  {names : List String} {e : GenerateError} {c : SourceConstructor} {p : Property}

section Cases

theorem componentArguments_eq (d : Descriptor) (arguments : Arguments) :
    d.componentArguments arguments = match firstLacking? d arguments with
      | some p => .error (.missingArgument d.name p.name)
      | none => .ok ((d.properties.map (·.name)).map (passed arguments)) := by
  unfold Descriptor.componentArguments firstLacking?
  generalize d.properties = properties
  induction properties with
  | nil => rfl
  | cons p rest ih =>
    rw [List.mapM_cons, ih]
    cases given : arguments.get? p.name with
    | none =>
      rw [List.find?_cons_of_pos (by rw [given]; rfl)]
      rfl
    | some value =>
      rw [List.find?_cons_of_neg (by rw [given]; nofun)]
      have first : passed arguments p.name = value := by rw [passed, given, Option.getD_some]
      cases rest.find? (fun p => (arguments.get? p.name).isNone) with
      | none =>
        rw [List.map_cons, List.map_cons, first]
        rfl
      | some lacking => rfl

theorem construct_none (none : d.primaryConstructor? = none) :
    d.construct localName arguments = .error (.noConstructor d.name) := by
  unfold Descriptor.construct
  rw [none]

theorem construct_record (chosen : d.primaryConstructor? = some c) (record : d.isRecord = true) :
    d.construct localName arguments = match firstLacking? d arguments with
      | some p => .error (.missingArgument d.name p.name)
      | none => .ok (⟨localName, d.instanceType⟩, [.define ⟨localName, d.instanceType⟩
          (.create d.instanceType ((d.properties.map (·.name)).map (passed arguments)))]) := by
  unfold Descriptor.construct
  simp only [chosen]
  rw [if_pos record, componentArguments_eq]
  cases firstLacking? d arguments <;> rfl

theorem construct_bean (chosen : d.primaryConstructor? = some c) (bean : d.isRecord = false) :
    d.construct localName arguments = .ok (⟨localName, d.instanceType⟩, .define ⟨localName, d.instanceType⟩
        (.create d.instanceType ((c.parameters.map (·.name)).map (passed arguments))) ::
      (d.properties.filter fun p => !(c.parameters.map (·.name)).contains p.name).filterMap
        (Descriptor.setProperty? ⟨localName, d.instanceType⟩ arguments)) := by
  have args : (c.parameters.map (·.name)).map (passed arguments) = Descriptor.parameterArguments c arguments := by
    rw [List.map_map]
    rfl
  unfold Descriptor.construct
  simp only [chosen, args]
  rw [bean, if_neg Bool.false_ne_true]

end Cases

section Settings

theorem setProperty?_binds {statement : Stmt} (sets : Descriptor.setProperty? target arguments p = some statement) :
    Binds target arguments p statement := by
  unfold Descriptor.setProperty? at sets
  obtain ⟨value, given, sets⟩ := Option.bind_eq_some_iff.mp sets
  split at sets
  next method has =>
    cases sets
    exact .setter given has
  next f none has =>
    cases sets
    exact .field given none has
  next => cases sets

theorem setProperty?_isSome (target : Variable) (arguments : Arguments) (p : Property) :
    (Descriptor.setProperty? target arguments p).isSome = ((arguments.get? p.name).isSome && settable p) := by
  unfold Descriptor.setProperty? settable
  cases arguments.get? p.name with
  | none => rfl
  | some value => cases p.setter <;> cases p.accessibleField? <;> rfl

/-- Of the properties that are to be set, in their order, each is set that can be and has an argument. -/
theorem settings_bind (target : Variable) (arguments : Arguments) (properties : List Property) :
    List.Forall₂ (Binds target arguments)
      (properties.filter fun p => (arguments.get? p.name).isSome && settable p)
      (properties.filterMap (Descriptor.setProperty? target arguments)) := by
  induction properties with
  | nil => exact .nil
  | cons p rest ih =>
    rw [List.filter_cons, ← setProperty?_isSome target]
    cases sets : Descriptor.setProperty? target arguments p with
    | none =>
      rw [List.filterMap_cons_none sets]
      exact ih
    | some statement =>
      rw [List.filterMap_cons_some sets]
      exact .cons (setProperty?_binds sets) ih

theorem later_eq (d : Descriptor) (arguments : Arguments) (names : List String) :
    later d arguments names = (d.properties.filter fun p => !names.contains p.name).filter fun p =>
      (arguments.get? p.name).isSome && settable p := by
  rw [List.filter_filter]
  apply List.filter_congr
  intro p member
  rw [Bool.and_comm]

theorem later_components (d : Descriptor) (arguments : Arguments) :
    later d arguments (d.properties.map (·.name)) = [] := by
  apply List.filter_eq_nil_iff.mpr
  intro p member
  have taken : (d.properties.map (·.name)).contains p.name = true := List.contains_iff_mem.mpr (List.mem_map_of_mem member)
  rw [taken, Bool.not_true, Bool.false_and]
  exact Bool.false_ne_true

/-- All that construction consists of: one call of the constructor, and for each property that this leaves, has an
argument and can be set, one statement that sets it. -/
structure Bound (d : Descriptor) (arguments : Arguments) (target : Variable) (statements : List Stmt)
    (names : List String) : Prop where
  called : calledNames? d = some names
  whole : d.isRecord = true → ∀ name ∈ names, (arguments.get? name).isSome = true
  parts : ∃ settings,
    statements = .define target (.create d.instanceType (names.map (passed arguments))) :: settings ∧
    List.Forall₂ (Binds target arguments) (later d arguments names) settings

theorem construct_bound (made : d.construct localName arguments = .ok (target, statements)) :
    target = ⟨localName, d.instanceType⟩ ∧ ∃ names, Bound d arguments target statements names := by
  cases chosen : d.primaryConstructor? with
  | none =>
    rw [construct_none chosen] at made
    cases made
  | some c =>
    by_cases record : d.isRecord = true
    · rw [construct_record chosen record] at made
      cases lacking : firstLacking? d arguments with
      | some p =>
        rw [lacking] at made
        cases made
      | none =>
        rw [lacking] at made
        cases made
        refine ⟨rfl, d.properties.map (·.name), ?_, ?_, [], rfl, ?_⟩
        · rw [calledNames?, chosen, Option.map_some, if_pos record]
        · intro _ name member
          obtain ⟨p, inside, rfl⟩ := List.mem_map.mp member
          simpa [Option.isSome_iff_ne_none] using List.find?_eq_none.mp lacking p inside
        · rw [later_components]
          exact .nil
    · have bean : d.isRecord = false := Bool.eq_false_iff.mpr record
      rw [construct_bean chosen bean] at made
      cases made
      refine ⟨rfl, c.parameters.map (·.name), ?_, fun isRecord => absurd isRecord record, _, rfl, ?_⟩
      · rw [calledNames?, chosen, Option.map_some, if_neg record]
      · rw [later_eq]
        exact settings_bind ..

theorem construct_error_refused : d.construct localName arguments = .error e ↔ Refused d arguments e := by
  constructor
  · intro stops
    cases chosen : d.primaryConstructor? with
    | none =>
      rw [construct_none chosen] at stops
      cases stops
      exact .noConstructor chosen
    | some c =>
      by_cases record : d.isRecord = true
      · rw [construct_record chosen record] at stops
        cases lacking : firstLacking? d arguments with
        | some p =>
          rw [lacking] at stops
          cases stops
          exact .missing chosen record lacking
        | none =>
          rw [lacking] at stops
          cases stops
      · rw [construct_bean chosen (Bool.eq_false_iff.mpr record)] at stops
        cases stops
  · intro refused
    cases refused with
    | noConstructor none => exact construct_none none
    | missing chosen record first => rw [construct_record chosen record, first]

end Settings

section Uses

/-- What construction hands arguments over for, by name: what the constructor takes, and what is set after it. -/
def uses (d : Descriptor) (arguments : Arguments) (names : List String) : List String :=
  names ++ (later d arguments names).map (·.name)

theorem Binds.handed {statement : Stmt} (binds : Binds target arguments p statement) :
    handed statement = [passed arguments p.name] := by
  cases binds with
  | setter given has =>
    rw [passed, given]
    rfl
  | field given none has =>
    rw [passed, given]
    rfl

theorem handed_settings {properties : List Property} {settings : List Stmt}
    (each : List.Forall₂ (Binds target arguments) properties settings) :
    settings.flatMap handed = (properties.map (·.name)).map (passed arguments) := by
  induction each with
  | nil => rfl
  | cons first _ others =>
    rw [List.flatMap_cons, first.handed, others]
    rfl

theorem Bound.handed (bound : Bound d arguments target statements names) :
    statements.flatMap handed = (uses d arguments names).map (passed arguments) := by
  obtain ⟨settings, rfl, each⟩ := bound.parts
  rw [List.flatMap_cons, handed_settings each, uses, List.map_append]
  rfl

theorem called_distinct (called : calledNames? d = some names) (distinct : (d.properties.map (·.name)).Nodup)
    (parameters : ∀ c, d.primaryConstructor? = some c → (c.parameters.map (·.name)).Nodup) : names.Nodup := by
  obtain ⟨c, chosen, rfl⟩ := Option.map_eq_some_iff.mp called
  split
  · exact distinct
  · exact parameters c chosen

theorem Bound.once (bound : Bound d arguments target statements names) (distinct : (d.properties.map (·.name)).Nodup)
    (parameters : ∀ c, d.primaryConstructor? = some c → (c.parameters.map (·.name)).Nodup) :
    (uses d arguments names).Nodup := by
  have taken : names.Nodup := called_distinct bound.called distinct parameters
  have left : ((later d arguments names).map (·.name)).Nodup := distinct.sublist (List.filter_sublist.map _)
  refine List.nodup_append.mpr ⟨taken, left, ?_⟩
  intro name member other inside same
  obtain ⟨p, kept, rfl⟩ := List.mem_map.mp inside
  have untaken : names.contains p.name = false := by
    have condition := (List.mem_filter.mp kept).2
    rw [Bool.and_eq_true, Bool.not_eq_true'] at condition
    exact condition.1
  rw [← same, List.contains_iff_mem.mpr member] at untaken
  cases untaken

/-- An argument is handed over exactly if there is a use for its name. -/
theorem Bound.mem_uses_iff {name : String} {value : Expr} (bound : Bound d arguments target statements names)
    (given : arguments.get? name = some value) : name ∈ uses d arguments names ↔ Received d name := by
  rw [uses, List.mem_append]
  constructor
  · rintro (taken | set)
    · exact .inl ⟨names, bound.called, taken⟩
    · obtain ⟨p, kept, rfl⟩ := List.mem_map.mp set
      obtain ⟨member, condition⟩ := List.mem_filter.mp kept
      rw [Bool.and_eq_true, Bool.and_eq_true] at condition
      exact .inr ⟨p, member, rfl, condition.2.2⟩
  · rintro (⟨called, named, taken⟩ | ⟨p, member, rfl, can⟩)
    · rw [bound.called] at named
      cases named
      exact .inl taken
    · by_cases taken : p.name ∈ names
      · exact .inl taken
      · refine .inr (List.mem_map_of_mem (List.mem_filter.mpr ⟨member, ?_⟩))
        simp [taken, given, can]

end Uses

section Independence
variable (agree : ∀ name, Received d name → others.get? name = arguments.get? name)
include agree

theorem passed_congr {name : String} (received : Received d name) : passed others name = passed arguments name := by
  rw [passed, agree name received, passed]

theorem setProperty?_congr (member : p ∈ d.properties) (target : Variable) :
    Descriptor.setProperty? target others p = Descriptor.setProperty? target arguments p := by
  by_cases can : settable p = true
  · unfold Descriptor.setProperty?
    rw [agree p.name (.inr ⟨p, member, rfl, can⟩)]
  · have unset (given : Arguments) : Descriptor.setProperty? target given p = none := by
      rw [← Option.not_isSome_iff_eq_none, setProperty?_isSome, Bool.eq_false_iff.mpr can, Bool.and_false]
      exact Bool.false_ne_true
    rw [unset, unset]

/-- Construction looks at no argument under another name. -/
theorem construct_congr (localName : String) : d.construct localName others = d.construct localName arguments := by
  cases chosen : d.primaryConstructor? with
  | none => rw [construct_none chosen, construct_none chosen]
  | some c =>
    by_cases record : d.isRecord = true
    · have component (name : String) (member : name ∈ d.properties.map (·.name)) : Received d name :=
        .inl ⟨_, by rw [calledNames?, chosen, Option.map_some, if_pos record], member⟩
      have lacking : firstLacking? d others = firstLacking? d arguments := by
        apply List.find?_congr
        intro p member
        rw [agree p.name (component p.name (List.mem_map_of_mem member))]
      have args : (d.properties.map (·.name)).map (passed others) = (d.properties.map (·.name)).map (passed arguments) :=
        List.map_congr_left fun name member => passed_congr agree (component name member)
      rw [construct_record chosen record, construct_record chosen record, lacking, args]
    · have bean : d.isRecord = false := Bool.eq_false_iff.mpr record
      have taken (name : String) (member : name ∈ c.parameters.map (·.name)) : Received d name :=
        .inl ⟨_, by rw [calledNames?, chosen, Option.map_some, if_neg record], member⟩
      have args : (c.parameters.map (·.name)).map (passed others) = (c.parameters.map (·.name)).map (passed arguments) :=
        List.map_congr_left fun name member => passed_congr agree (taken name member)
      rw [construct_bean chosen bean, construct_bean chosen bean, args]
      rw [List.filterMap_congr fun p member => setProperty?_congr agree (List.mem_of_mem_filter member) _]

end Independence

/-- Construction binds arguments completely and once. It is refused exactly for want of a constructor or, for a record, of
an argument, that of the first component without one. Otherwise one constructor call takes what it names and a statement
for each further property that can be set, in their order, sets it to its argument. No argument is handed over twice, one
that is not handed over has a name that nothing takes, and arguments under such names make no difference. -/
theorem arguments_bound_once (d : Descriptor) (localName : String) (arguments : Arguments)
    (distinct : (d.properties.map (·.name)).Nodup)
    (parameters : ∀ c, d.primaryConstructor? = some c → (c.parameters.map (·.name)).Nodup) :
    (∀ e, d.construct localName arguments = .error e ↔ Refused d arguments e) ∧
    (∀ target statements, d.construct localName arguments = .ok (target, statements) →
      target = ⟨localName, d.instanceType⟩ ∧ ∃ names, Bound d arguments target statements names ∧
        statements.flatMap handed = (uses d arguments names).map (passed arguments) ∧ (uses d arguments names).Nodup ∧
        ∀ name value, arguments.get? name = some value → (name ∈ uses d arguments names ↔ Received d name)) ∧
    ∀ others : Arguments, (∀ name, Received d name → others.get? name = arguments.get? name) →
      d.construct localName others = d.construct localName arguments := by
  refine ⟨fun e => construct_error_refused, ?_, fun others agree => construct_congr agree localName⟩
  intro target statements made
  obtain ⟨named, names, bound⟩ := construct_bound made
  exact ⟨named, names, bound, bound.handed, bound.once distinct parameters, fun name value => bound.mem_uses_iff⟩

section Sample

/-- A class that takes one property in its constructor, has a setter for another and a field for a third. -/
def invoice : Descriptor where
  name := "com.acme.Invoice"
  properties := [
    { name := "number", ty := .named "int" [] 0 },
    { name := "title", ty := .named "java.lang.String" [] 0, setter := some "setTitle",
      field := some { name := "title", visibility := .pub } },
    { name := "paid", ty := .named "boolean" [] 0, field := some { name := "paid", visibility := .pub } },
    { name := "total", ty := .named "long" [] 0 }]
  constructors := [{ parameters := [⟨"number", .named "int" [] 0⟩, ⟨"currency", .named "java.lang.String" [] 0⟩] }]

def invoiceArguments : Arguments :=
  ["title", "paid", "total", "number", "note"].map fun name => (name, Variable.toLocal ⟨name, .string⟩)

theorem invoice_bound : ∃ statements, invoice.construct "invoice" invoiceArguments =
      .ok (⟨"invoice", invoice.instanceType⟩, statements) ∧
    Bound invoice invoiceArguments ⟨"invoice", invoice.instanceType⟩ statements ["number", "currency"] ∧
    statements.flatMap handed = ["number", "currency", "title", "paid"].map (passed invoiceArguments) ∧
    ¬ Received invoice "total" ∧ ¬ Received invoice "note" := by
  have distinct : (invoice.properties.map (·.name)).Nodup := by decide
  have parameters : ∀ c, invoice.primaryConstructor? = some c → (c.parameters.map (·.name)).Nodup := by
    rintro c ⟨⟩
    decide
  obtain ⟨-, succeeds, -⟩ := arguments_bound_once invoice "invoice" invoiceArguments distinct parameters
  obtain ⟨statements, made⟩ : ∃ statements, invoice.construct "invoice" invoiceArguments =
      .ok (⟨"invoice", invoice.instanceType⟩, statements) := ⟨_, rfl⟩
  obtain ⟨-, names, bound, handed, -, used⟩ := succeeds _ _ made
  obtain rfl : ["number", "currency"] = names := Option.some.inj bound.called
  have unused (name : String) (value : Expr) (given : invoiceArguments.get? name = some value)
      (absent : name ∉ uses invoice invoiceArguments ["number", "currency"]) : ¬ Received invoice name :=
    mt (used name value given).mpr absent
  exact ⟨statements, made, bound, handed, unused "total" _ rfl (by decide), unused "note" _ rfl (by decide)⟩

end Sample

end PluginForge.Proofs.InstanceBinding
