import PluginForge.Generation.Conversion
import PluginForge.Proofs.PropertyConversion

/-! Runs of generated code seen from outside. Nothing is assumed of the objects that code deals with but what Java and its
collections promise: each access is recorded with the answer to it, and an answer may depend on all that happened before.
Whatever the answers, a conversion accesses its value once and calls its converter for it or for each of its elements. -/

namespace PluginForge.Proofs.ObservedRuns
open Evaluation EvaluationRules NamedEntries
open CollectionFilling (nextConverted)
open PropertyConversion (append_ne_self fill_eq run_fill_null run_filling)

/-- What code does to the objects around it. -/
inductive Event where
  | read (receiver : Value) (field : String)
  | write (receiver : Value) (field : String) (value : Value)
  | call (receiver : Value) (method : String) (args : List Value)
  | callStatic (owner : TypeRef) (method : String) (args : List Value)
  | create (ty : TypeRef) (args : List Value)
  | readStatic (owner : TypeRef) (name : String)

abbrev Step := Event × Value

/-- What has happened, in order, each event with the answer to it. -/
abbrev Log := List Step

abbrev Answers := Log → Event → Value

def observe (answers : Answers) (event : Event) : Run Log Value :=
  fun log => .ok (answers log event) (log ++ [(event, answers log event)])

def library (answers : Answers) : Library Log where
  method? _ _ _ := none
  invoke receiver method args := observe answers (.call receiver method args)
  invokeStatic owner method args := observe answers (.callStatic owner method args)
  create ty args := observe answers (.create ty args)
  readField receiver name := observe answers (.read receiver name)
  writeField receiver name value := do
    let _ ← observe answers (.write receiver name value)
  readStatic owner name := observe answers (.readStatic owner name)

def isNext (iterator : Value) (step : Step) : Bool :=
  match step.1 with
  | .call receiver method [] => receiver == iterator && method == "next"
  | _ => false

/-- How many elements have been taken from the iterator. -/
def taken (iterator : Value) (log : Log) : Nat := log.countP (isNext iterator)

/-- The iterator came about as the last step of the log and has so many elements. -/
def Iterates (answers : Answers) (log : Log) (iterator : Value) (size : Nat) : Prop :=
  ∀ more, answers (log ++ more) (.call iterator "hasNext" []) = .literal (.boolean (decide (taken iterator more < size)))

/-- What code relies on: new objects are not null and have not been seen before, and collections hand out iterators over
fewer elements than loops may have rounds. -/
structure Reliable (answers : Answers) (this : Value) (rounds : Nat) : Prop where
  object : this ≠ .null
  created : ∀ log ty args made, answers log (.create ty args) = made →
    made ≠ .null ∧ made ≠ this ∧ ∀ step ∈ log, step.2 ≠ made
  iterates : ∀ log copies iterator, copies ≠ .null → answers log (.call copies "iterator" []) = iterator →
    iterator ≠ .null ∧ ∃ size < rounds, Iterates answers (log ++ [(.call copies "iterator" [], iterator)]) iterator size

/-- One element of a collection: it is taken, converted and added. -/
inductive Round (this : Value) (converter : String) (target iterator : Value) : Log → Prop where
  | element (copy converted added : Value) : Round this converter target iterator
      [(.call iterator "hasNext" [], .literal (.boolean true)), (.call iterator "next" [], copy),
        (.call this converter [copy], converted), (.call target "add" [converted], added)]

/-- The steps of a conversion of the answer to an event, and the value it ends with. -/
inductive Converted (this : Value) (source : Event) : Conversion → Log → Value → Prop where
  | model (converter : String) (ty : TypeRef) (copy converted : Value) : Converted this source (.model converter ty)
      [(source, copy), (.call this converter [copy], converted)] converted
  | missing (converter : String) (kind : CollectionKind) (replica ty element : TypeRef) :
      Converted this source (.collection converter kind replica ty element) [(source, .null)] .null
  | filled (converter : String) (kind : CollectionKind) (replica ty element : TypeRef) {copies target iterator : Value}
      {rounds : List Log} (object : copies ≠ .null)
      (each : ∀ round ∈ rounds, Round this converter target iterator round) :
      Converted this source (.collection converter kind replica ty element)
        ((source, copies) :: (.create (.class kind.implementation) [], target) :: (.call copies "iterator" [], iterator) ::
          (rounds.flatten ++ [(.call iterator "hasNext" [], .literal (.boolean false))])) target

variable {answers : Answers} {call : MethodDef → Value → List Value → Run Log Value} {rounds : Nat} {frame : Frame}
  {locals : Locals} {log : Log} {this : Value}

section Steps

theorem gives_observe (answers : Answers) (event : Event) (log : Log) :
    ∃ answer, answers log event = answer ∧ Gives (observe answers event) log answer (log ++ [(event, answer)]) :=
  ⟨_, rfl, rfl⟩

theorem gives_create (answers : Answers) (ty : TypeRef) (args : List Value) (log : Log) :
    ∃ made, answers log (.create ty args) = made ∧
      Gives ((library answers).create ty args) log made (log ++ [(.create ty args, made)]) := gives_observe ..

theorem gives_writeField (answers : Answers) (receiver : Value) (name : String) (value : Value) (log : Log) :
    ∃ answer, Gives ((library answers).writeField receiver name value) log ()
      (log ++ [(.write receiver name value, answer)]) := by
  obtain ⟨answer, -, observed⟩ := gives_observe answers (.write receiver name value) log
  exact ⟨answer, observed.bind (gives_pure _ _)⟩

/-- A call on an object is answered in some way. -/
theorem send_observed (answers : Answers) (call : MethodDef → Value → List Value → Run Log Value) {receiver : Value}
    (object : receiver ≠ .null) (method : String) (args : List Value) (log : Log) :
    ∃ answer, answers log (.call receiver method args) = answer ∧
      Gives (send (library answers) call receiver method args) log answer
        (log ++ [(.call receiver method args, answer)]) := by
  obtain ⟨answer, same, observed⟩ := gives_observe answers (.call receiver method args) log
  exact ⟨answer, same, send_other object rfl observed⟩

theorem taken_append (iterator : Value) (first second : Log) :
    taken iterator (first ++ second) = taken iterator first + taken iterator second := List.countP_append

theorem Round.taken {converter : String} {target iterator : Value} {round : Log}
    (is : Round this converter target iterator round) : taken iterator round = 1 := by
  cases is
  simp [ObservedRuns.taken, isNext]

end Steps

section Filling
variable {iterator target : Variable} {iterates collects : Value} {converter : String} {elementRef copyRef : TypeRef}

theorem eval_hasNext (iterating : locals.lookup iterator.name = some iterates) (object : iterates ≠ .null) {size : Nat}
    {more : Log} (has : Iterates answers log iterates size) :
    Gives (test (library answers) call frame (iterator.toLocal.invoke "hasNext" .boolean []) locals) (log ++ more)
      (decide (taken iterates more < size))
      (log ++ more ++ [(.call iterates "hasNext" [], .literal (.boolean (decide (taken iterates more < size))))]) := by
  obtain ⟨answer, same, asks⟩ := send_observed answers call object "hasNext" [] (log ++ more)
  rw [has more] at same
  rw [← same] at asks
  exact gives_test (eval_invoke (eval_local iterating) evalAll_nil asks)

/-- After there turned out to be a next element, it is taken, converted and added. -/
theorem run_round (object : this ≠ .null) (self : frame.this = this)
    (iterating : locals.lookup iterator.name = some iterates) (known : iterates ≠ .null)
    (collecting : locals.lookup target.name = some collects) (made : collects ≠ .null) (log : Log) :
    ∃ round, Round this converter collects iterates round ∧
      Gives (enclosed (runStmt (library answers) call rounds frame (.expr (target.toLocal.invoke "add" .boolean
          [nextConverted converter elementRef copyRef iterator]))) locals)
        (log ++ [(.call iterates "hasNext" [], .literal (.boolean true))]) (.next locals) (log ++ round) := by
  obtain ⟨before, isBefore⟩ : ∃ before, before = log ++ [(.call iterates "hasNext" [], .literal (.boolean true))] :=
    ⟨_, rfl⟩
  obtain ⟨copy, -, takes⟩ := send_observed answers call known "next" [] before
  obtain ⟨converted, -, converts⟩ :=
    send_observed answers call object converter [copy] (before ++ [(.call iterates "next" [], copy)])
  obtain ⟨added, -, adds⟩ := send_observed answers call made "add" [converted]
    (before ++ [(.call iterates "next" [], copy)] ++ [(.call this converter [copy], converted)])
  have own : Gives (evalExpr (library answers) call frame locals .this) before this before := self ▸ eval_this
  have next : Gives (evalExpr (library answers) call frame locals (iterator.toLocal.invoke "next" copyRef [])) _ _ _ :=
    eval_invoke (eval_local iterating) evalAll_nil takes
  have element : Gives (evalExpr (library answers) call frame locals
      (nextConverted converter elementRef copyRef iterator)) _ _ _ :=
    eval_invoke own (evalAll_cons next evalAll_nil) converts
  refine ⟨_, .element copy converted added, ?_⟩
  rw [← isBefore, List.append_cons, ← isBefore, List.append_cons, List.append_cons]
  exact enclosed_expr (eval_invoke (eval_local collecting) (evalAll_cons element evalAll_nil) adds)

/-- The loop takes the elements that are left one after the other. -/
theorem fill_loop {budget left size : Nat} {more : Log} (object : this ≠ .null) (self : frame.this = this)
    (iterating : locals.lookup iterator.name = some iterates) (known : iterates ≠ .null)
    (collecting : locals.lookup target.name = some collects) (made : collects ≠ .null)
    (has : Iterates answers log iterates size) (remaining : size - taken iterates more = left) (enough : left < budget) :
    ∃ elements : List Log, (∀ round ∈ elements, Round this converter collects iterates round) ∧
      Gives (repeatWhile (test (library answers) call frame (iterator.toLocal.invoke "hasNext" .boolean []))
        (enclosed (runStmt (library answers) call rounds frame (.expr (target.toLocal.invoke "add" .boolean
          [nextConverted converter elementRef copyRef iterator])))) budget locals)
        (log ++ more) (.next locals)
        (log ++ more ++ (elements.flatten ++ [(.call iterates "hasNext" [], .literal (.boolean false))])) := by
  obtain ⟨budget, rfl⟩ := Nat.exists_eq_add_one_of_ne_zero (Nat.ne_of_gt (Nat.zero_lt_of_lt enough))
  have asks : Gives (test (library answers) call frame (iterator.toLocal.invoke "hasNext" .boolean []) locals)
      (log ++ more) _ _ := eval_hasNext iterating known has
  induction left generalizing more budget with
  | zero =>
    have ended : decide (taken iterates more < size) = false := by
      rw [decide_eq_false_iff_not]
      omega
    rw [ended] at asks
    exact ⟨[], nofun, repeatWhile_done asks⟩
  | succ left ih =>
    have goes : decide (taken iterates more < size) = true := by
      rw [decide_eq_true_iff]
      omega
    rw [goes] at asks
    obtain ⟨round, is, runs⟩ := @run_round answers call rounds frame locals this iterator target iterates collects converter
      elementRef copyRef object self iterating known collecting made (log ++ more)
    rw [List.append_assoc log more round] at runs
    have one := is.taken
    obtain ⟨budget, rfl⟩ := Nat.exists_eq_add_one_of_ne_zero (show budget ≠ 0 by omega)
    obtain ⟨elements, each, loops⟩ := @ih (more ++ round) (by rw [taken_append, one]; omega) budget (by omega)
      (eval_hasNext iterating known has)
    refine ⟨round :: elements, List.forall_mem_cons.mpr ⟨is, each⟩, ?_⟩
    rw [List.flatten_cons]
    have whole := repeatWhile_again asks runs loops
    simpa only [List.append_assoc] using whole

end Filling

section Conversions
variable {name converter : String} {ty element : TypeRef} {source : Event} {e : Expr} {conversion : Conversion}

/-- The expression asks for the answer to the event and does nothing else. -/
def Asks (answers : Answers) (call : MethodDef → Value → List Value → Run Log Value) (frame : Frame) (e : Expr)
    (source : Event) : Prop :=
  ∀ locals log, ∃ value, Gives (evalExpr (library answers) call frame locals e) log value (log ++ [(source, value)])

theorem run_fill {kind : CollectionKind} {copies target : Variable} {value : Value} {rest : Locals}
    (reliable : Reliable answers this rounds) (self : frame.this = this) (object : value ≠ .null)
    (apart : copies.name ≠ target.name) (iteratorApart : target.name ≠ name ++ "Iterator") (log : Log) :
    ∃ collects iterates, ∃ elements : List Log, (∀ round ∈ elements, Round this converter collects iterates round) ∧
      Gives (runStmt (library answers) call rounds frame (Conversion.fill name converter kind element copies target)
          ((target.name, .null) :: (copies.name, value) :: rest)) log
        (.next ((target.name, collects) :: (copies.name, value) :: rest))
        (log ++ ((.create (.class kind.implementation) [], collects) :: (.call value "iterator" [], iterates) ::
          (elements.flatten ++ [(.call iterates "hasNext" [], .literal (.boolean false))]))) := by
  obtain ⟨collects, isNew, creates⟩ := gives_create answers (.class kind.implementation) [] log
  obtain ⟨made, -⟩ := reliable.created _ _ _ _ isNew
  obtain ⟨iterates, isIterator, iterated⟩ := send_observed answers call object "iterator" []
    (log ++ [(.create (.class kind.implementation) [], collects)])
  obtain ⟨known, size, small, has⟩ := reliable.iterates _ _ _ object isIterator
  obtain ⟨iterator, copyRef, iteratorName, unfolded⟩ := @fill_eq name kind converter element copies target
  have collecting : ((iterator.name, iterates) :: (target.name, collects) :: (copies.name, value) :: rest).lookup
      target.name = some collects := by
    rw [lookup_skip (iteratorName ▸ iteratorApart), List.lookup_cons_self]
  obtain ⟨elements, each, loops⟩ := @fill_loop answers call rounds frame
    ((iterator.name, iterates) :: (target.name, collects) :: (copies.name, value) :: rest) _ this iterator target iterates
    collects converter element copyRef rounds size size [] reliable.object self (List.lookup_cons_self ..) known collecting
    made has (Nat.sub_zero size) small
  refine ⟨collects, iterates, elements, each, ?_⟩
  rw [List.append_nil] at loops
  rw [unfolded, List.append_cons, List.append_cons]
  exact run_filling object apart creates iterated (run_whileLoop loops)

/-- Whatever is answered, a conversion runs to its end, and its variable has the converted value then. -/
theorem conversion_runs {frame : Frame} (reliable : Reliable answers this rounds) (self : frame.this = this)
    (asks : Asks answers call frame e source) (converts : conversion.isIdentity = false) (locals : Locals) (log : Log) :
    ∃ steps value inner, Gives (runAll (library answers) call rounds frame (conversion.convert name e).1 locals) log
        (.next inner) (log ++ steps) ∧
      inner.lookup name = some value ∧ Converted this source conversion steps value := by
  cases conversion with
  | identity => cases converts
  | model converter ty =>
    obtain ⟨copy, reads⟩ := asks locals log
    obtain ⟨value, -, sends⟩ := send_observed answers call reliable.object converter [copy] (log ++ [(source, copy)])
    refine ⟨_, value, (name, value) :: locals, ?_, List.lookup_cons_self .., .model converter ty copy value⟩
    rw [List.append_cons]
    have own : Gives (evalExpr (library answers) call frame locals .this) log this log := self ▸ eval_this
    exact runAll_cons (run_define (eval_invoke own (evalAll_cons reads evalAll_nil) sends)) runAll_nil
  | collection converter kind replica ty element =>
    have apart : name ++ "Source" ≠ name := append_ne_self (by decide)
    have iteratorApart : name ≠ name ++ "Iterator" := (append_ne_self (by decide)).symm
    obtain ⟨value, reads⟩ := asks locals log
    have begins : Gives (runAll (library answers) call rounds frame [.define ⟨name ++ "Source", replica⟩ e,
        .define ⟨name, ty⟩ .null] locals) log (.next ((name, .null) :: (name ++ "Source", value) :: locals))
          (log ++ [(source, value)]) :=
      runAll_cons (run_define reads) (runAll_cons (run_define (eval_literal .null)) runAll_nil)
    by_cases missing : value = .null
    · subst missing
      have skips : Gives (runAll (library answers) call rounds frame [Conversion.fill name converter kind element
          ⟨name ++ "Source", replica⟩ ⟨name, ty⟩] ((name, .null) :: (name ++ "Source", .null) :: locals))
          (log ++ [(source, .null)]) _ _ :=
        runAll_cons (run_fill_null (by simp [lookup_skip apart])) runAll_nil
      exact ⟨_, .null, _, runAll_append begins skips, List.lookup_cons_self .., .missing converter kind replica ty element⟩
    · obtain ⟨collects, iterates, elements, each, fills⟩ := @run_fill answers call rounds frame this name converter element
        kind ⟨name ++ "Source", replica⟩ ⟨name, ty⟩ value locals reliable self missing apart iteratorApart
        (log ++ [(source, value)])
      refine ⟨_, collects, (name, collects) :: (name ++ "Source", value) :: locals, ?_, List.lookup_cons_self ..,
        .filled converter kind replica ty element missing each⟩
      rw [List.append_cons]
      exact runAll_append begins (runAll_cons fills runAll_nil)

/-- What a conversion leaves its value in is read without any event. -/
theorem eval_converted {value : Value} (converts : conversion.isIdentity = false)
    (known : locals.lookup name = some value) :
    Gives (evalExpr (library answers) call frame locals (conversion.convert name e).2) log value log := by
  cases conversion with
  | identity => cases converts
  | model converter ty => exact eval_local (v := ⟨name, ty⟩) known
  | collection converter kind replica ty element => exact eval_local (v := ⟨name, ty⟩) known

end Conversions

end PluginForge.Proofs.ObservedRuns
