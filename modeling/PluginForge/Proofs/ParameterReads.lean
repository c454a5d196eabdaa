import PluginForge.Proofs.MethodSignatures
import PluginForge.Proofs.MojoExecution

/-! How often a mojo reads its parameters and runs its task. An enabled mojo reads each parameter once that its task has a
use for, and runs the task once. A disabled one reads nothing, but that a parameter may have its getter named like that of
the log. -/

namespace PluginForge.Proofs.ParameterReads
open Evaluation EvaluationRules NamedEntries Results PlannedTasks CalledConstructors InstanceBinding ObservedRuns
open BuiltTypes MojoExecution MojoPlan CodeParts ConstructedCode ReplicationInvariant Replication ModelTypes

section Counting
variable {test : Event → Bool}

/-- How many events of the log pass the test. -/
def count (test : Event → Bool) (log : Log) : Nat := log.countP fun step => test step.1

@[simp] theorem count_append (first second : Log) : count test (first ++ second) = count test first + count test second :=
  List.countP_append

@[simp] theorem count_cons (step : Step) (log : Log) :
    count test (step :: log) = count test log + if test step.1 then 1 else 0 := List.countP_cons

@[simp] theorem count_nil : count test [] = 0 := rfl

theorem count_flatten_zero {logs : List Log} (each : ∀ log ∈ logs, count test log = 0) : count test logs.flatten = 0 := by
  apply List.countP_eq_zero.mpr
  intro step member
  obtain ⟨log, inside, isStep⟩ := List.mem_flatten.mp member
  exact List.countP_eq_zero.mp (each log inside) step isStep

variable {α : Type} {R : α → Log → Prop} {items : List α} {logs : List Log}

/-- Where logs belong to names, each to one, the events that pass are those in the log of a name. -/
theorem count_flatten {key : α → String} {name : String} {times : Nat} (each : List.Forall₂ R items logs)
    (distinct : (items.map key).Nodup)
    (own : ∀ item log, item ∈ items → R item log → count test log = if key item = name then times else 0) :
    count test logs.flatten = if name ∈ items.map key then times else 0 := by
  induction each with
  | nil => rfl
  | @cons item log items logs first _ ih =>
    rw [List.map_cons, List.nodup_cons] at distinct
    have here := own item log (List.mem_cons_self ..) first
    have rest := ih distinct.2 fun other log member => own other log (List.mem_cons_of_mem _ member)
    rw [List.flatten_cons, count_append, here, rest, List.map_cons]
    by_cases same : key item = name
    · have absent : name ∉ items.map key := same ▸ distinct.1
      simp [same, absent]
    · simp [same, Ne.symm same]

theorem forall_logs {P : Log → Prop} (each : List.Forall₂ R items logs) (own : ∀ item log, R item log → P log) :
    ∀ log ∈ logs, P log := by
  induction each with
  | nil => exact List.forall_mem_nil _
  | cons first _ ih => exact List.forall_mem_cons.mpr ⟨own _ _ first, ih⟩

end Counting

section Events
variable {this : Value} {p q : Parameter} {parameters : List Parameter}

/-- Whether an event is that the parameter is read. -/
def reads (this : Value) (p : Parameter) : Event → Bool
  | .call receiver method [] => receiver == this && (isDeferred p && method == Naming.getter p.name)
  | .read receiver field => receiver == this && (!isDeferred p && field == p.name)
  | _ => false

theorem reads_iff {event : Event} : reads this p event = true ↔ event = readEvent this p := by
  unfold reads readEvent
  cases deferred : isDeferred p <;> split <;> simp_all

theorem getter_ne {name other : String} (apart : "get".toList.isPrefixOf other.toList = false) :
    Naming.getter name ≠ other := MethodSignatures.append_ne apart

/-- A call that is not of a getter is none of a parameter's. -/
theorem reads_call {receiver : Value} {method : String} (apart : "get".toList.isPrefixOf method.toList = false) :
    reads this p (.call receiver method []) = false := by
  have other : (method == Naming.getter p.name) = false := beq_eq_false_iff_ne.mpr (getter_ne apart).symm
  rw [reads, other, Bool.and_false, Bool.and_false]

@[simp] theorem reads_call_cons (receiver : Value) (method : String) (arg : Value) (args : List Value) :
    reads this p (.call receiver method (arg :: args)) = false := rfl

@[simp] theorem reads_create (ty : TypeRef) (args : List Value) : reads this p (.create ty args) = false := rfl

@[simp] theorem reads_write (receiver : Value) (field : String) (value : Value) :
    reads this p (.write receiver field value) = false := rfl

/-- Parameters whose names are capitalized differently are read by different events. -/
theorem reads_readEvent (distinct : (parameters.map fun p => Naming.capitalize p.name).Nodup) (first : p ∈ parameters)
    (second : q ∈ parameters) : reads this p (readEvent this q) = true ↔ q = p := by
  rw [reads_iff]
  constructor
  · intro same
    unfold readEvent at same
    apply List.inj_on_of_nodup_map distinct second first
    split at same <;> split at same
    · have getters : Naming.getter q.name = Naming.getter p.name := (Event.call.inj same).2.1
      exact MethodSignatures.append_injective "get" getters
    · cases same
    · cases same
    · rw [(Event.read.inj same).2]
  · intro same
    rw [same]

end Events

section Counts
variable {this task : Value} {p : Parameter} {parameters : List Parameter} {converted : String → Value} {name : String}
  {steps : Log} {value : Value}

theorem round_unread {converter : String} {target iterator : Value} (is : Round this converter target iterator steps) :
    count (reads this p) steps = 0 := by
  cases is
  have asks : reads this p (.call iterator "hasNext" []) = false := reads_call (by decide)
  have takes : reads this p (.call iterator "next" []) = false := reads_call (by decide)
  simp [asks, takes]

/-- A conversion reads what it converts, and nothing else that is a parameter. -/
theorem converted_count {source : Event} {conversion : Conversion} (is : Converted this source conversion steps value) :
    count (reads this p) steps = if reads this p source then 1 else 0 := by
  cases is with
  | model => simp
  | missing => simp
  | @filled _ _ _ _ _ copies target iterator rounds object each =>
    have unread : count (reads this p) rounds.flatten = 0 :=
      count_flatten_zero fun round member => round_unread (each round member)
    have begins : reads this p (.call copies "iterator" []) = false := reads_call (by decide)
    have ends : reads this p (.call iterator "hasNext" []) = false := reads_call (by decide)
    simp [unread, begins, ends]

/-- The steps alone that what is handed to the task comes from. -/
theorem handed_logs {names : List String} {handed : List (Log × Value)}
    (passes : List.Forall₂ (fun name given => Passed this parameters converted name given.1 given.2) names handed) :
    List.Forall₂ (fun name log => ∃ value, Passed this parameters converted name log value) names (handed.map (·.1)) :=
  List.forall₂_map_right_iff.mpr (passes.imp fun _ given is => ⟨given.2, is⟩)

section Distinct
variable (distinct : (parameters.map fun p => Naming.capitalize p.name).Nodup) (member : p ∈ parameters)
include distinct member

theorem named_same {q : Parameter} (other : q ∈ parameters) : q.name = p.name ↔ q = p := by
  constructor
  · intro same
    apply List.inj_on_of_nodup_map distinct other member
    rw [same]
  · intro same
    rw [same]

theorem prepared_count {q : Parameter} (other : q ∈ parameters) (is : Prepared this converted q steps) :
    count (reads this p) steps = if q.name = p.name then (if p.conversion.isIdentity then 0 else 1) else 0 := by
  have same := named_same distinct member other
  have read := @reads_readEvent this p q parameters distinct member other
  unfold Prepared at is
  by_cases plain : q.conversion.isIdentity = true
  · rw [if_pos plain] at is
    rw [is, count_nil]
    by_cases isOwn : q = p
    · subst isOwn
      simp [plain]
    · simp [same, isOwn]
  · rw [if_neg plain] at is
    rw [converted_count is]
    by_cases isOwn : q = p
    · subst isOwn
      simp [read, plain]
    · simp [same, read, isOwn]

theorem passed_count (is : Passed this parameters converted name steps value) :
    count (reads this p) steps = if name = p.name then (if p.conversion.isIdentity then 1 else 0) else 0 := by
  cases is with
  | @read q other plain =>
    have same := named_same distinct member other
    have read := @reads_readEvent this p q parameters distinct member other
    rw [count_cons, count_nil]
    by_cases isOwn : q = p
    · subst isOwn
      simp [read, plain]
    · simp [same, read, isOwn]
  | @held q other converts =>
    have same := named_same distinct member other
    rw [count_nil]
    by_cases isOwn : q = p
    · subst isOwn
      simp [converts]
    · simp [same, isOwn]
  | absent none =>
    have apart : name ≠ p.name := by
      intro same
      apply none
      rw [same]
      exact List.mem_map_of_mem member
    rw [count_nil, if_neg apart]

theorem setOn_count {q : Property} (is : SetOn this parameters converted task q steps) :
    count (reads this p) steps = if q.name = p.name then (if p.conversion.isIdentity then 1 else 0) else 0 := by
  cases is with
  | setter answer has passed => simp [passed_count distinct member passed]
  | field answer none has passed => simp [passed_count distinct member passed]

end Distinct

end Counts

section Calls
variable {this task : Value} {method : String} {p : Parameter} {parameters : List Parameter} {converted : String → Value}
  {name : String} {steps : Log} {value : Value}

/-- Whether an event is a call of the method on the object without arguments. -/
def calls (object : Value) (method : String) : Event → Bool
  | .call receiver name [] => receiver == object && name == method
  | _ => false

theorem calls_other {receiver : Value} (apart : receiver ≠ task) : calls task method (.call receiver name []) = false := by
  rw [calls, beq_eq_false_iff_ne.mpr apart, Bool.false_and]

@[simp] theorem calls_call_cons (receiver arg : Value) (args : List Value) :
    calls task method (.call receiver name (arg :: args)) = false := rfl

@[simp] theorem calls_create (ty : TypeRef) (args : List Value) : calls task method (.create ty args) = false := rfl

@[simp] theorem calls_write (receiver : Value) (field : String) (value : Value) :
    calls task method (.write receiver field value) = false := rfl

theorem calls_readEvent (apart : task ≠ this) : calls task method (readEvent this p) = false := by
  unfold readEvent
  split
  · exact calls_other apart.symm
  · rfl

theorem round_uncalled {converter : String} {target iterator : Value} (apart : iterator ≠ task)
    (is : Round this converter target iterator steps) : count (calls task method) steps = 0 := by
  cases is
  simp [calls_other apart]

/-- A conversion calls no object that it has not seen. -/
theorem converted_uncalled {source : Event} {conversion : Conversion} (fresh : ∀ step ∈ steps, step.2 ≠ task)
    (other : calls task method source = false) (is : Converted this source conversion steps value) :
    count (calls task method) steps = 0 := by
  cases is with
  | model => simp [other]
  | missing => simp [other]
  | @filled _ _ _ _ _ copies target iterator rounds object each =>
    have copied : copies ≠ task := fresh (source, copies) (List.mem_cons_self ..)
    have iterated : iterator ≠ task := fresh (.call copies "iterator" [], iterator) (by simp)
    have uncalled : count (calls task method) rounds.flatten = 0 :=
      count_flatten_zero fun round member => round_uncalled iterated (each round member)
    simp [other, uncalled, calls_other copied, calls_other iterated]

theorem prepared_uncalled (apart : task ≠ this) (fresh : ∀ step ∈ steps, step.2 ≠ task)
    (is : Prepared this converted p steps) : count (calls task method) steps = 0 := by
  unfold Prepared at is
  split at is
  · rw [is, count_nil]
  · exact converted_uncalled fresh (calls_readEvent apart) is

theorem passed_uncalled (apart : task ≠ this) (is : Passed this parameters converted name steps value) :
    count (calls task method) steps = 0 := by
  cases is with
  | read member plain => simp [calls_readEvent apart]
  | held => rfl
  | absent => rfl

theorem setOn_uncalled {q : Property} (apart : task ≠ this) (is : SetOn this parameters converted task q steps) :
    count (calls task method) steps = 0 := by
  cases is with
  | setter answer has passed => simp [passed_uncalled apart passed]
  | field answer none has passed => simp [passed_uncalled apart passed]

/-- An enabled mojo runs its task once. -/
theorem ran_calls {t : TaskPlan} (ran : Ran t this task steps) : count (calls task t.methodName) steps = 1 := by
  obtain @⟨converted, names, prepared, settings, handed, answer, new, fresh, called, prepares, passes, sets⟩ := ran
  have each : ∀ log ∈ prepared, (∀ step ∈ log, step.2 ≠ task) → count (calls task t.methodName) log = 0 :=
    forall_logs prepares fun p log is unseen => prepared_uncalled new.2 unseen is
  have before : count (calls task t.methodName) prepared.flatten = 0 := by
    apply count_flatten_zero
    intro log member
    apply each log member
    intro step inside
    exact fresh step (List.mem_flatten.mpr ⟨log, member, inside⟩)
  have given : count (calls task t.methodName) (handed.map (·.1)).flatten = 0 :=
    count_flatten_zero (forall_logs (handed_logs passes) fun name log ⟨value, is⟩ => passed_uncalled new.2 is)
  have after : count (calls task t.methodName) settings.flatten = 0 :=
    count_flatten_zero (forall_logs sets fun q log is => setOn_uncalled new.2 is)
  have last : calls task t.methodName (.call task t.methodName []) = true := by simp [calls]
  simp [before, given, after, last]

end Calls

section Runs
variable {this task : Value} {p : Parameter} {t : TaskPlan} {d : Descriptor} {names : List String} {name : String}
  {steps : Log}

/-- The parameter is read for the task: it is to be converted, or goes to the constructor, a setter or a field. -/
def Needed (t : TaskPlan) (p : Parameter) : Prop := p.conversion.isIdentity = false ∨ Received t.source p.name

theorem received_iff (called : calledNames? d = some names) :
    Received d name ↔ name ∈ names ∨ name ∈ (left d names).map (·.name) := by
  constructor
  · rintro (⟨others, same, taken⟩ | ⟨q, member, rfl, can⟩)
    · rw [called] at same
      cases same
      exact .inl taken
    · by_cases taken : q.name ∈ names
      · exact .inl taken
      · refine .inr (List.mem_map_of_mem (List.mem_filter.mpr ⟨member, ?_⟩))
        simp [taken, can]
  · rintro (taken | set)
    · exact .inl ⟨names, called, taken⟩
    · obtain ⟨q, kept, rfl⟩ := List.mem_map.mp set
      obtain ⟨member, condition⟩ := List.mem_filter.mp kept
      rw [Bool.and_eq_true] at condition
      exact .inr ⟨q, member, rfl, condition.2⟩

theorem left_apart (taken : name ∈ names) : name ∉ (left d names).map (·.name) := by
  intro set
  obtain ⟨q, kept, rfl⟩ := List.mem_map.mp set
  have condition := (List.mem_filter.mp kept).2
  simp [taken] at condition

/-- An enabled mojo reads what it needs once, and nothing else. -/
theorem ran_count (ran : Ran t this task steps) (member : p ∈ t.parameters)
    (capitals : (t.parameters.map fun p => Naming.capitalize p.name).Nodup)
    (distinct : (t.source.properties.map (·.name)).Nodup)
    (same : t.parameters.map (·.name) = t.source.properties.map (·.name))
    (parameters : ∀ c, t.source.primaryConstructor? = some c → (c.parameters.map (·.name)).Nodup) :
    (Needed t p → count (reads this p) steps = 1) ∧ (¬ Needed t p → count (reads this p) steps = 0) := by
  obtain @⟨converted, names, prepared, settings, handed, answer, new, -, called, prepares, passes, sets⟩ := ran
  have taken : names.Nodup := called_distinct called distinct parameters
  have others : ((left t.source names).map (·.name)).Nodup := distinct.sublist (List.filter_sublist.map _)
  have conversions := count_flatten prepares (same ▸ distinct) fun q log inside is =>
    prepared_count capitals member inside is
  have arguments := @count_flatten _ _ _ names _ id p.name _ (handed_logs passes) (by rwa [List.map_id])
    fun name log _ ⟨value, is⟩ => passed_count capitals member is
  have settings := count_flatten sets others fun q log _ is => setOn_count capitals member is
  have call : reads this p (.call task t.methodName []) = false := by simp [reads, new.2]
  have own : p.name ∈ t.parameters.map (·.name) := List.mem_map_of_mem member
  rw [count_append, count_append, count_cons, count_append, count_cons, count_nil, conversions,
    arguments, settings, call, reads_create, Needed, received_iff called, if_pos own, List.map_id]
  cases plain : p.conversion.isIdentity with
  | false => simp
  | true =>
    by_cases isTaken : p.name ∈ names
    · simp [isTaken, left_apart isTaken]
    · simp [isTaken]

end Runs

section Code
variable {field getter : String → TypeRef → Prop} {d : Descriptor} {arguments : Arguments} {localName name : String}
  {target : Variable} {statements : List Stmt} {value : Expr} {cx : Context} {package : String} {m : MojoPlan}

/-- Of the object that runs the code only these fields and these methods without parameters are read, by name and type. -/
def ReadsOnly (field getter : String → TypeRef → Prop) : Expr → Prop
  | .field .this name ty => field name ty
  | .invoke .this name ty [] => getter name ty
  | _ => True

theorem convert_reads (conversion : Conversion) (read : AllExprs (ReadsOnly field getter) value) :
    (∀ s ∈ (conversion.convert name value).1, AllCode (ReadsOnly field getter) s) ∧
      AllExprs (ReadsOnly field getter) (conversion.convert name value).2 := by
  cases conversion with
  | identity => exact ⟨List.forall_mem_nil _, read⟩
  | model converter source => simp [Conversion.convert, Variable.toLocal, ReadsOnly, read]
  | collection converter kind replica source element =>
    simp [Conversion.convert, Conversion.fill, Variable.toLocal, Expr.isNotNull, Expr.null, ReadsOnly, read]

theorem construct_reads (given : ∀ argument ∈ arguments, AllExprs (ReadsOnly field getter) argument.2)
    (made : d.construct localName arguments = .ok (target, statements)) :
    ∀ s ∈ statements, AllCode (ReadsOnly field getter) s := by
  obtain ⟨rfl, constructs⟩ := construct_constructs made
  exact constructs.allCode given trivial trivial (fun _ _ => trivial) fun _ _ => trivial

/-- Converters read nothing of the mojo that has them, and have no modifiers. -/
theorem converter_reads {replica : Replica} {deps : List String} (copy : Copy cx package d replica deps) :
    AllBody (ReadsOnly field getter) replica.converter ∧ replica.converter.modifiers = [] := by
  cases copy with
  | enum isEnum made =>
    obtain ⟨doc, _, finishes⟩ := except_bind.mp made
    cases finishes
    refine ⟨.of_body rfl ?_, rfl⟩
    simp [unlessNull, Expr.isNull, Expr.null, Variable.toParam, ReadsOnly]
  | @plain doc parts converter notEnum documented whole refs made =>
    have converted (part : Property × ReplicaRef) := @convert_reads field getter
      (Naming.capitalize part.1.name ++ "Param") ((valueParameter (.generated (copyName package d.name) .class)).toParam.invoke
        (Naming.getter part.1.name) part.2.ty []) part.2.conversion (by simp [Variable.toParam, ReadsOnly])
    refine ⟨classConverter_allBody made ?_ trivial (fun _ => trivial) (fun part => (converted part).1) fun _ _ constructed =>
      construct_reads (List.forall_mem_map.mpr fun part _ => (converted part).2) constructed, ?_⟩
    · simp [Expr.isNull, Expr.null, Variable.toParam, ReadsOnly]
    · obtain ⟨⟨_, _⟩, _, finishes⟩ := except_bind.mp made
      cases finishes
      rfl

/-- The type of the log that a mojo has from its superclass. -/
def logType : TypeRef := .class "org.apache.maven.plugin.logging.Log"

/-- A parameter is read from its own field or getter, by its type, and apart from parameters only whether the mojo is
enabled and its log are asked for. -/
def ReadsOwn (m : MojoPlan) : Expr → Prop :=
  ReadsOnly (fun name ty => ∃ p ∈ m.task.parameters, isDeferred p = false ∧ (p.name, p.ty) = (name, ty))
    fun name ty => (∃ p ∈ m.task.parameters, isDeferred p = true ∧ (Naming.getter p.name, p.ty) = (name, ty)) ∨
      (name, ty) = ("isEnabled", .boolean) ∨ (name, ty) = ("getLog", logType)

theorem parameterValue_reads {p : Parameter} (member : p ∈ m.task.parameters) :
    AllExprs (ReadsOwn m) (parameterValue p) := by
  unfold parameterValue
  split
  next deferred =>
    have own : ReadsOwn m (Expr.this.invoke (Naming.getter p.name) p.ty []) := .inl ⟨p, member, deferred, rfl⟩
    exact (allExprs_invoke ..).mpr ⟨own, allExprs_this.mpr trivial, List.forall_mem_nil _⟩
  next plain =>
    have own : ReadsOwn m (Expr.this.field p.name p.ty) := ⟨p, member, Bool.eq_false_iff.mpr plain, rfl⟩
    exact (allExprs_field ..).mpr ⟨own, allExprs_this.mpr trivial⟩

theorem run_reads {method : String} {run : Stmt}
    (given : ∀ argument ∈ arguments, AllExprs (ReadsOnly field getter) argument.2)
    (made : d.runTask method arguments = .ok run) : AllCode (ReadsOnly field getter) run := by
  obtain ⟨⟨target, statements⟩, constructed, finishes⟩ := except_bind.mp made
  cases finishes
  rw [allCode_block]
  refine List.forall_mem_append.mpr ⟨construct_reads given constructed, ?_⟩
  exact List.forall_mem_singleton.mpr (by simp [Variable.toLocal, ReadsOnly])

theorem execute_reads {execute : MethodDef} (made : m.executeMethod = .ok execute) : AllBody (ReadsOwn m) execute := by
  obtain ⟨run, ran, -, hasBody⟩ := executeMethod_body made
  have converted (p : Parameter) (member : p ∈ m.task.parameters) :=
    @convert_reads _ _ (p.name ++ "Param") _ p.conversion (parameterValue_reads member)
  have runs : AllCode (ReadsOwn m) run := run_reads (List.forall_mem_map.mpr fun p member => (converted p member).2) ran
  have converts : ∀ s ∈ conversions m.task.parameters, AllCode (ReadsOwn m) s :=
    List.forall_mem_flatMap.mpr fun p member => (converted p member).1
  refine .of_body hasBody ((allCode_ifElse ..).mpr ⟨?_, ?_, ?_⟩)
  · simp [ReadsOwn, ReadsOnly]
  · simp [ReadsOwn, ReadsOnly, Expr.string, logType]
  · exact (allCode_block _).mpr (List.forall_mem_append.mpr ⟨converts, List.forall_mem_singleton.mpr runs⟩)

end Code

section Members
variable {cx : Context} {package : String} {m : MojoPlan} {o : ObjectDef}

/-- The parameters are annotated fields of the mojo and, exactly if they are internal or output ones, abstract getters,
each in their order and with their types. -/
structure Splits (m : MojoPlan) (o : ObjectDef) : Prop where
  fields : (fieldsOf o).map (fun f => (f.name, f.ty)) =
    (m.task.parameters.filter fun p => !(p.internal || p.output)).map fun p => (p.name, p.ty)
  annotated : ∀ f ∈ fieldsOf o, f.annotations.map (·.name) = ["org.apache.maven.plugins.annotations.Parameter"]
  getters : (o.methods.filter (·.modifiers.contains .abstract)).map (fun g => (g.name, g.parameters, g.returns)) =
    ((m.task.parameters.filter fun p => p.internal || p.output).map fun p => (Naming.getter p.name, [], p.ty)) ++
      [("isEnabled", [], .boolean)]

theorem definition_splits (plain : ∀ converter ∈ m.task.converters, converter.modifiers = [])
    (made : m.definition = .ok o) :
    Splits m o ∧ ∃ execute ∈ o.methods, execute.name = "execute" ∧ m.executeMethod = .ok execute := by
  obtain ⟨execute, executes, finishes⟩ := except_bind.mp made
  cases finishes
  obtain ⟨run, _, rfl⟩ := executeMethod_built executes
  refine ⟨⟨?_, ?_, ?_⟩, _, List.mem_append_right _ (List.mem_singleton_self _), rfl, executes⟩
  · rw [fieldsOf, List.map_map]
    rfl
  · exact List.forall_mem_map.mpr fun p _ => rfl
  · have concrete : (m.task.converters.filter (·.modifiers.contains .abstract)) = [] := by
      apply List.filter_eq_nil_iff.mpr
      intro converter member
      rw [plain converter member]
      exact Bool.false_ne_true
    have deferred : ((m.task.parameters.filter isDeferred).map deferredGetter).filter (·.modifiers.contains .abstract) =
        (m.task.parameters.filter isDeferred).map deferredGetter :=
      List.filter_eq_self.mpr (List.forall_mem_map.mpr fun p _ => rfl)
    rw [ObjectDef.methods, List.filter_append, List.filter_append, deferred, List.filter_cons_of_pos rfl, concrete,
      List.filter_cons_of_neg Bool.false_ne_true, List.filter_nil, List.append_nil, List.map_append, List.map_map]
    rfl

end Members

section Execution
variable {cx : Context} {trigger : Descriptor} {plan : MavenPlan} {m : MojoPlan} {o : ObjectDef} {this : Value}

/-- The getter of the parameter is named like that of the log. -/
def LikeLog (p : Parameter) : Prop := isDeferred p = true ∧ Naming.getter p.name = "getLog"

instance (p : Parameter) : Decidable (LikeLog p) := inferInstanceAs (Decidable (_ ∧ _))

/-- That the mojo has been asked whether it is enabled. -/
def asked (this : Value) (enabled : Bool) : Step := (.call this "isEnabled" [], .literal (.boolean enabled))

/-- What the method does when it is called. A disabled mojo constructs nothing and reads no parameter, but for one that is
read by asking for the log. An enabled mojo runs its task, and reads each parameter once that is needed for it. -/
structure Executes (m : MojoPlan) (execute : MethodDef) (answers : Answers) (this : Value) (budget : Nat) (log : Log) :
    Prop where
  disabled : ∀ logger, answers log (.call this "isEnabled" []) = .literal (.boolean false) →
    answers (log ++ [asked this false]) (.call this "getLog" []) = logger → logger ≠ .null →
    ∃ steps, Gives (callMethod (library answers) (budget + 1) execute this []) log .null (log ++ steps) ∧
      (∀ step ∈ steps, ∀ ty args, step.1 ≠ .create ty args) ∧
      ∀ p ∈ m.task.parameters, count (reads this p) steps = if LikeLog p then 1 else 0
  enabled : answers log (.call this "isEnabled" []) = .literal (.boolean true) →
    ∃ steps task, Gives (callMethod (library answers) (budget + 1) execute this []) log .null
        (log ++ asked this true :: steps) ∧
      Ran m.task this task steps ∧ count (calls task m.task.methodName) steps = 1 ∧
      ∀ p ∈ m.task.parameters, (Needed m.task p → count (reads this p) steps = 1) ∧
        (¬ Needed m.task p → count (reads this p) steps = 0)

theorem disabled_count (p : Parameter) (enabled logger answer text : Value) :
    count (reads this p) [(.call this "isEnabled" [], enabled), (.call this "getLog" [], logger),
      (.call logger "debug" [text], answer)] = if LikeLog p then 1 else 0 := by
  have asks : reads this p (.call this "isEnabled" []) = false := reads_call (by decide)
  have logs : reads this p (.call this "getLog" []) = true ↔ LikeLog p := by
    rw [reads, BEq.rfl, Bool.true_and, Bool.and_eq_true, beq_iff_eq, LikeLog]
    exact and_congr_right fun _ => eq_comm
  simp [asks, logs]

theorem planned_executes (planned : MavenPlan.ofTrigger cx trigger = .ok plan) (given : m ∈ plan.mojos)
    (capitals : (m.task.source.properties.map fun p => Naming.capitalize p.name).Nodup)
    (parameters : ∀ c, m.task.source.primaryConstructor? = some c → (c.parameters.map (·.name)).Nodup) {execute : MethodDef}
    (made : m.executeMethod = .ok execute) {answers : Answers} {budget : Nat} (reliable : Reliable answers this budget)
    (log : Log) : Executes m execute answers this budget log := by
  have resolves := (maven_planned planned).1.resolves m given
  have sameCapitals : (m.task.parameters.map fun p => Naming.capitalize p.name) =
      m.task.source.properties.map fun p => Naming.capitalize p.name := by
    have names := congrArg (List.map Naming.capitalize) resolves.names
    rwa [List.map_map, List.map_map] at names
  have distinct : (m.task.source.properties.map (·.name)).Nodup := by
    rw [← Function.comp_def Naming.capitalize, ← List.map_map] at capitals
    exact capitals.of_map
  constructor
  · intro logger disabled logs present
    obtain ⟨answer, runs⟩ :=
      @execute_disabled m execute answers budget this made reliable.object log logger disabled logs present
    refine ⟨_, runs, ?_, fun p _ => disabled_count ..⟩
    simp
  · intro enabled
    obtain ⟨steps, task, ran, runs⟩ := execute_enabled resolves (resolves.names ▸ distinct) made reliable enabled
    refine ⟨steps, task, runs, ran, ran_calls ran, fun p member => ?_⟩
    exact ran_count ran member (sameCapitals ▸ capitals) distinct resolves.names parameters

theorem planned_converters (planned : MavenPlan.ofTrigger cx trigger = .ok plan) (given : m ∈ plan.mojos) :
    ∀ converter ∈ m.task.converters,
      AllBody (ReadsOnly (fun _ _ => False) fun _ _ => False) converter ∧ converter.modifiers = [] := by
  refine List.forall_mem_map.mpr fun replica carried => ?_
  obtain ⟨-, d, copied⟩ := ((maven_planned planned).1.carried m given replica).mp carried
  obtain ⟨deps, copy⟩ := copied.copy
  exact converter_reads copy

/-- The members of a mojo split the parameters of its task in order, and its method reads them and nothing else of it but
whether it is enabled, and its log. However its surroundings answer, an enabled mojo reads each parameter exactly once that
is to be converted or goes to the constructor, a setter or a field of the task, which it constructs once from what it has
read and then runs. A disabled mojo constructs nothing, and it reads a parameter just where asking for the log does. -/
theorem parameters_read_once (planned : MavenPlan.ofTrigger cx trigger = .ok plan) (given : m ∈ plan.mojos)
    (built : m.definition = .ok o) (capitals : (m.task.source.properties.map fun p => Naming.capitalize p.name).Nodup)
    (parameters : ∀ c, m.task.source.primaryConstructor? = some c → (c.parameters.map (·.name)).Nodup) :
    Splits m o ∧ (∀ converter ∈ m.task.converters, AllBody (ReadsOnly (fun _ _ => False) fun _ _ => False) converter) ∧
    ∃ execute ∈ o.methods, execute.name = "execute" ∧ AllBody (ReadsOwn m) execute ∧
      ∀ answers this budget log, Reliable answers this budget → Executes m execute answers this budget log := by
  have converters := planned_converters planned given
  obtain ⟨splits, execute, member, named, made⟩ :=
    definition_splits (fun converter member => (converters converter member).2) built
  refine ⟨splits, fun converter member => (converters converter member).1, execute, member, named, execute_reads made, ?_⟩
  exact fun answers this budget log reliable => planned_executes planned given capitals parameters made reliable log

end Execution

section Sample

/-- A task with a property of each kind: one that its constructor takes, one with a setter, one of a type that is copied,
and one that is left to the concrete mojo and has its getter named like that of the log. -/
def publish : Descriptor where
  name := "com.acme.Publish"
  properties := [
    { name := "title", ty := .ofName "java.lang.String" },
    { name := "draft", ty := .ofName "boolean", setter := some "setDraft" },
    { name := "site", ty := .ofName "com.acme.Site", setter := some "setSite" },
    { name := "log", ty := .ofName "org.apache.maven.plugin.logging.Log", setter := some "setLog",
      parameter := some { internal := true } }]
  methods := [{ name := "run", executable := true }]
  constructors := [{ parameters := [⟨"title", .ofName "java.lang.String"⟩] }]

def webSite : Descriptor where
  name := "com.acme.Site"
  properties := [{ name := "url", ty := .ofName "java.lang.String", setter := some "setUrl" }]

def publishing : Descriptor where
  name := "com.acme.Publishing"
  mavenMojos := [{ source := "com.acme.Publish" }]

def publishes : Context where
  catalog := (((∅ : Catalog).add publish).add webSite).add publishing
  storedDoc := fun _ => .ok {}

def address : Value → Nat
  | .ref address => address
  | _ => 0

/-- Above all addresses in the log. -/
def free : Log → Nat
  | [] => 1
  | step :: rest => max (address step.2 + 1) (free rest)

theorem free_pos (log : Log) : 0 < free log := by
  induction log with
  | nil => exact Nat.zero_lt_one
  | cons step rest ih =>
    rw [free]
    omega

theorem address_lt_free {log : Log} {step : Step} (member : step ∈ log) : address step.2 < free log := by
  induction log with
  | nil => cases member
  | cons first rest ih =>
    rw [free]
    rcases List.mem_cons.mp member with rfl | member
    · omega
    · have below := ih member
      omega

/-- Every object is new, and all collections are empty. -/
def calm (enabled : Bool) : Answers := fun log event =>
  match event with
  | .call _ "isEnabled" [] => .literal (.boolean enabled)
  | .call _ "hasNext" [] => .literal (.boolean false)
  | _ => .ref (free log)

theorem calm_reliable (enabled : Bool) : Reliable (calm enabled) (.ref 0) 1 where
  object := nofun
  created := by
    rintro log ty args made rfl
    refine ⟨nofun, fun same => ?_, fun step member same => ?_⟩
    · have zero : free log = 0 := Value.ref.inj same
      have positive := free_pos log
      omega
    · have isFree : address step.2 = free log := congrArg address same
      have below := address_lt_free member
      omega
  iterates := by
    rintro log copies iterator - rfl
    refine ⟨nofun, 0, Nat.zero_lt_one, fun more => ?_⟩
    simp [calm]

theorem publishing_planned : ∃ plan m o, MavenPlan.ofTrigger publishes publishing = .ok plan ∧ m ∈ plan.mojos ∧
    m.definition = .ok o ∧ m.task.source = publish ∧ ∀ p ∈ m.task.parameters, LikeLog p ↔ p.name = "log" := by
  obtain ⟨plan, planned⟩ := @ok_of_isOk _ _ (MavenPlan.ofTrigger publishes publishing) (by decide +kernel)
  have checked : ((MavenPlan.ofTrigger publishes publishing).toOption.any fun plan => plan.mojos.any fun m =>
      m.definition.isOk && decide (∀ p ∈ m.task.parameters, LikeLog p ↔ p.name = "log")) = true := by decide +kernel
  simp only [planned, Except.toOption, Option.any_some, List.any_eq_true, Bool.and_eq_true, decide_eq_true_eq] at checked
  obtain ⟨m, member, builds, logs⟩ := checked
  obtain ⟨o, made⟩ := ok_of_isOk builds
  refine ⟨plan, m, o, planned, member, made, ?_, logs⟩
  obtain ⟨is, sources⟩ := maven_planned planned
  have loaded := is.loaded m member
  have name : m.task.source.name = publish.name := List.mem_singleton.mp (sources m member)
  have known : publishes.catalog.load? publish.name = some publish := by rfl
  rw [name, known] at loaded
  exact (Option.some.inj loaded).symm

theorem publish_capitals : (publish.properties.map fun p => Naming.capitalize p.name).Nodup := by decide

theorem publish_parameters : ∀ c, publish.primaryConstructor? = some c → (c.parameters.map (·.name)).Nodup := by
  rintro c ⟨⟩
  decide

theorem publish_needed {t : TaskPlan} {cx : Context} {package : String} (resolves : Resolves cx package t)
    (source : t.source = publish) : ∀ p ∈ t.parameters, Needed t p := by
  intro p member
  have inside : p.name ∈ publish.properties.map (·.name) := source ▸ resolves.names ▸ List.mem_map_of_mem member
  refine .inr (source ▸ ?_)
  obtain ⟨q, given, same⟩ := List.mem_map.mp inside
  have taken : Received publish "title" := .inl ⟨["title"], by decide, List.mem_singleton_self _⟩
  rcases List.mem_cons.mp given with rfl | given
  · exact same ▸ taken
  · have can : ∀ q ∈ publish.properties.tail, settable q = true := by decide
    exact .inr ⟨q, List.mem_cons_of_mem _ given, same, can q given⟩

/-- The enabled mojo of the sample reads all of its parameters once, and the disabled one reads its log. -/
theorem publish_reads : ∃ plan m o, MavenPlan.ofTrigger publishes publishing = .ok plan ∧ m ∈ plan.mojos ∧
    m.definition = .ok o ∧ ∃ execute ∈ o.methods, execute.name = "execute" ∧
    (∃ steps task, Gives (callMethod (library (calm true)) 2 execute (.ref 0) []) [] .null (asked (.ref 0) true :: steps) ∧
      Ran m.task (.ref 0) task steps ∧ ∀ p ∈ m.task.parameters, count (reads (.ref 0) p) steps = 1) ∧
    ∃ steps, Gives (callMethod (library (calm false)) 2 execute (.ref 0) []) [] .null steps ∧
      ∀ p ∈ m.task.parameters, count (reads (.ref 0) p) steps = if p.name = "log" then 1 else 0 := by
  obtain ⟨plan, m, o, planned, given, built, source, logs⟩ := publishing_planned
  obtain ⟨-, -, execute, member, named, -, executes⟩ :=
    parameters_read_once planned given built (source ▸ publish_capitals) (source ▸ publish_parameters)
  refine ⟨plan, m, o, planned, given, built, execute, member, named, ?_, ?_⟩
  · obtain ⟨steps, task, runs, ran, -, counts⟩ := (executes _ _ _ [] (calm_reliable true)).enabled rfl
    refine ⟨steps, task, runs, ran, fun p inside => (counts p inside).1 ?_⟩
    exact publish_needed ((maven_planned planned).1.resolves m given) source p inside
  · obtain ⟨steps, runs, -, counts⟩ := (executes _ _ _ [] (calm_reliable false)).disabled _ rfl rfl nofun
    refine ⟨steps, runs, fun p inside => ?_⟩
    rw [counts p inside]
    simp only [logs p inside]

/-- A disabled mojo may read a parameter. -/
theorem disabled_reads_log : ¬ ∀ (cx : Context) (trigger : Descriptor) (plan : MavenPlan) (m : MojoPlan) (o : ObjectDef),
    MavenPlan.ofTrigger cx trigger = .ok plan → m ∈ plan.mojos → m.definition = .ok o →
    (m.task.source.properties.map fun p => Naming.capitalize p.name).Nodup →
    (∀ c, m.task.source.primaryConstructor? = some c → (c.parameters.map (·.name)).Nodup) →
    ∀ execute ∈ o.methods, execute.name = "execute" → ∀ answers this budget, Reliable answers this budget →
    answers [] (.call this "isEnabled" []) = .literal (.boolean false) → ∀ steps,
    Gives (callMethod (library answers) (budget + 1) execute this []) [] .null steps →
    ∀ p ∈ m.task.parameters, count (reads this p) steps = 0 := by
  intro unread
  obtain ⟨plan, m, o, planned, given, built, source, logs⟩ := publishing_planned
  have plain := fun converter member => (planned_converters planned given converter member).2
  obtain ⟨-, execute, member, named, made⟩ := definition_splits plain built
  obtain ⟨answer, runs⟩ :=
    @execute_disabled m execute (calm false) 1 (.ref 0) made (calm_reliable false).object [] _ rfl rfl nofun
  have names := ((maven_planned planned).1.resolves m given).names
  rw [source] at names
  have inside : "log" ∈ m.task.parameters.map (·.name) := names ▸ by decide
  obtain ⟨p, within, isLog⟩ := List.mem_map.mp inside
  have count := unread publishes publishing plan m o planned given built (source ▸ publish_capitals)
    (source ▸ publish_parameters) execute member named (calm false) (.ref 0) 1 (calm_reliable false) rfl _ runs p within
  rw [List.nil_append, disabled_count, if_pos ((logs p within).mpr isLog)] at count
  cases count

end Sample

end PluginForge.Proofs.ParameterReads
