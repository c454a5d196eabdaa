import PluginForge.Proofs.EffectiveValues
import PluginForge.Proofs.MethodSignatures
import PluginForge.Proofs.ObservedRuns

/-! What the implementation of an extension runs against. Of the objects of a build script and of Gradle nothing is known but
what they are asked, and they may answer with any of them at any time. Sets, new objects and the registration of tasks are as
Java and Gradle have them. A build script calls the extension, and the actions that it passes may do so in turn. -/

namespace PluginForge.Proofs.ExtensionLibrary
open Gradle Evaluation EvaluationRules EffectiveValues ObservedRuns

section Objects

/-- The object that is created after so many steps. -/
def created (n : Nat) : Value := .ref (2 * n)

/-- The extension. -/
def self : Value := .ref 1

/-- An object of the build script or of Gradle. -/
def outside (n : Nat) : Value := .ref (2 * n + 3)

/-- Another object than the extension. -/
def Foreign (value : Value) : Prop := value ≠ .null ∧ value ≠ self

def number? : Value → Option Nat
  | .ref address => if address % 2 = 0 then some (address / 2) else none
  | _ => none

/-- The class of what a step creates. A factory is handed the class that it is to make an instance of. -/
def createdClass? : Event → Option String
  | .create ty _ => ty.name?
  | .call _ "newInstance" [.constant name "class"] => some name
  | _ => none

def className? (log : Log) : Value → Option String
  | .literal (.string _) => some "java.lang.String"
  | value => (number? value).bind fun n => log[n]?.bind fun step => createdClass? step.1

/-- What has been added to a set. -/
def additions (set : Value) (log : Log) : List Value :=
  log.filterMap fun step =>
    match step.1 with
    | .call receiver "add" [value] => if receiver = set then some value else none
    | _ => none

/-- The tasks that have been registered, by name, with their types. -/
def registrations (log : Log) : List (String × Value) :=
  log.filterMap fun step =>
    match step.1 with
    | .call _ "register" [.literal (.string name), type, _] => some (name, type)
    | _ => none

/-- The fields of the extension and what has happened so far. -/
structure World where
  fields : List (String × Value) := []
  log : Log := []

def World.after (w : World) (steps : Log) : World := { w with log := w.log ++ steps }

def record (event : Event) (answer : Value) : Run World Value := do
  modify (·.after [(event, answer)])
  return answer

/-- Something that has a new object for answer. -/
def create (event : Event) : Run World Value := do record event (created (← get).log.length)

end Objects

/-- The class of an extension with the types nested in it, among objects that answer in some way. -/
structure Extension where
  body : ClassDef
  inner : List ObjectDef
  answers : Log → Event → Nat

/-- What a build script or an action does with an extension: it calls methods, each with an action that may do such things
itself, and goes on with what came of the call. -/
inductive Script where
  | done
  | call (task : GradleTask) (name : String) (action : Nat) (inside : Script) (next : Except Value Value → Script)

namespace Extension
variable (x : Extension)

def answer (log : Log) (event : Event) : Value := outside (x.answers log event)

/-- Whether an instance of the class is one of the interface of that one argument. -/
def implements (className raw argument : String) : Bool :=
  x.inner.any fun
    | .class body _ => body.name == className && body.superinterfaces.any fun
      | .parameterized other [.class given] => other == raw && given == argument
      | _ => false
    | _ => false

def fits (log : Log) (value : Value) : TypeRef → Bool
  | .class name => className? log value == some name
  | .parameterized raw [.class argument] => (className? log value).any fun name => x.implements name raw argument
  | _ => false

def takes (log : Log) (args : List Value) (m : MethodDef) : Bool :=
  m.parameters.length == args.length && (m.parameters.zip args).all fun given => x.fits log given.2 given.1.ty

/-- Finds a method of the extension by its name and what it takes. -/
def resolve (log : Log) (method : String) (args : List Value) : Option MethodDef :=
  x.body.methods.find? fun m => m.name == method && x.takes log args m

/-- The implementation of the method that the interface has for a task. -/
def implementation? (t : GradleTask) : Option MethodDef :=
  x.body.methods.find? fun m => m.overrides && m.name == t.extensionMethodName

/-- Something that objects outside answer. -/
def observe (event : Event) : Run World Value := do record event (x.answer (← get).log event)

section Calls
variable (own : String → List Value → Run World Value) (inside : Run World Unit)

/-- A call on another object than the extension. An action does what it does to the extension while it is executed. -/
def respond (receiver : Value) (method : String) (args : List Value) : Run World Value := do
  let log := (← get).log
  let event := Event.call receiver method args
  match args, method with
    | [value], "add" =>
      if className? log receiver = some "java.util.HashSet" then
        record event (.literal (.boolean (value ∉ additions receiver log)))
      else x.observe event
    | [.constant _ "class"], "newInstance" => create event
    | [.literal (.string name), _, _], "register" =>
      if name ∈ (registrations log).map (·.1) then throw (.thrown (x.answer log event)) else x.observe event
    | [_], "execute" => do
      let _ ← record event .null
      inside
      return .null
    | _, _ => x.observe event

def invoke (receiver : Value) (method : String) (args : List Value) : Run World Value :=
  if receiver = self then own method args else x.respond inside receiver method args

def libraryWith : Library World where
  method? _ _ _ := none
  invoke := x.invoke own inside
  invokeStatic owner method args := x.observe (.callStatic owner method args)
  create ty args := create (.create ty args)
  readField receiver name := do
    if receiver = self then ofOption ((← get).fields.lookup name) else throw .stuck
  writeField receiver name value := do
    if receiver = self then modify fun w => { w with fields := (name, value) :: w.fields } else throw .stuck
  readStatic owner name := ofOption (owner.name?.map fun owner => .constant owner name)

end Calls

/-- A call of the extension on itself. -/
def callOwn (lib : Library World) (method : String) (args : List Value) : Run World Value := do
  let m ← ofOption (x.resolve (← get).log method args)
  callMethod lib 1 m self args

/-- Methods of the extension call others of its methods so deep. -/
def library (inside : Run World Unit) : Nat → Library World
  | 0 => x.libraryWith (fun _ _ => throw .stuck) inside
  | depth + 1 => x.libraryWith (x.callOwn (library inside depth)) inside

/-- Gives a field its initial value, if it has one. -/
def setInitial (lib : Library World) (f : FieldDef) : Run World Unit := do
  match f.initializer with
  | some e => lib.writeField self f.name (← evalExpr lib (callMethod lib 0) ⟨self, []⟩ [] e)
  | none => return

/-- Makes an extension: its fields get their initial values, and then its constructor runs. -/
def construct (args : List Value) : Run World Value := do
  let lib := x.library (return) 0
  x.body.fields.forM (setInitial lib)
  let constructor ← ofOption (x.body.constructors.find? fun m => m.parameters.length == args.length)
  let _ ← callMethod lib 1 constructor self args
  return self

/-- Calls the method for a task. -/
def enter (inside : Run World Unit) (t : GradleTask) (name : String) (action : Nat) : Run World Value := do
  let m ← ofOption (x.implementation? t)
  callMethod (x.library inside 1) 1 m self [.literal (.string name), outside action]

/-- What came of a call: its value, or what it threw. -/
def attempt (step : Run World Value) : Run World (Except Value Value) := fun w =>
  match step w with
  | .ok value after => .ok (.ok value) after
  | .error (.thrown thrown) after => .ok (.error thrown) after
  | .error halt after => .error halt after

def run : Script → Run World Unit
  | .done => return
  | .call t name action inside next => do
    let outcome ← attempt (x.enter (run inside) t name action)
    run (next outcome)

end Extension

section Worlds
variable {log more : Log} {value : Value} {name : String} {w : World}

@[simp] theorem after_fields (w : World) (steps : Log) : (w.after steps).fields = w.fields := rfl

@[simp] theorem after_log (w : World) (steps : Log) : (w.after steps).log = w.log ++ steps := rfl

@[simp] theorem after_nil (w : World) : w.after [] = w := by simp [World.after]

@[simp] theorem after_after (w : World) (steps more : Log) : (w.after steps).after more = w.after (steps ++ more) := by
  simp [World.after]

theorem outside_foreign (n : Nat) : Foreign (outside n) := by
  simp [Foreign, outside, self]

theorem created_foreign (n : Nat) : Foreign (created n) := by
  simp only [Foreign, created, self, ne_eq, Value.ref.injEq]
  exact ⟨nofun, by omega⟩

theorem className?_created {step : Step} (last : createdClass? step.1 = some name) :
    className? (log ++ [step]) (created log.length) = some name := by
  simp [className?, created, number?, last]

/-- The class of an object stays the same. -/
theorem className?_append (known : className? log value = some name) : className? (log ++ more) value = some name := by
  unfold className? at *
  split at known
  next => exact known
  next =>
    obtain ⟨n, numbered, found⟩ := Option.bind_eq_some_iff.mp known
    obtain ⟨step, present, creates⟩ := Option.bind_eq_some_iff.mp found
    obtain ⟨within, -⟩ := List.getElem?_eq_some_iff.mp present
    rw [numbered, Option.bind_some, List.getElem?_append_left within, present, Option.bind_some, creates]

theorem gives_record (event : Event) (answer : Value) (w : World) :
    Gives (record event answer) w answer (w.after [(event, answer)]) := rfl

theorem gives_create (event : Event) (w : World) :
    Gives (create event) w (created w.log.length) (w.after [(event, created w.log.length)]) := rfl

end Worlds

section Exceptions
variable {σ α β : Type} {s middle after : σ} {thrown : Value}

/-- The step ends with an exception and leaves the state `after`. -/
def Throws (step : Run σ α) (s : σ) (thrown : Value) (after : σ) : Prop := step.run s = .error (.thrown thrown) after

theorem Throws.bind {step : Run σ α} {next : α → Run σ β} (first : Throws step s thrown after) :
    Throws (step >>= next) s thrown after := by
  unfold Throws EStateM.run at *
  simp only [Bind.bind, EStateM.bind, first]

theorem Throws.later {step : Run σ α} {next : α → Run σ β} {value : α} (first : Gives step s value middle)
    (rest : Throws (next value) middle thrown after) : Throws (step >>= next) s thrown after := by
  unfold Throws Gives EStateM.run at *
  simp only [Bind.bind, EStateM.bind, first, rest]

variable {lib : Library σ} {call : MethodDef → Value → List Value → Run σ Value} {rounds : Nat} {frame : Frame}
  {locals : Locals}

theorem throws_raise {e : Expr} (gives : Gives (evalExpr lib call frame locals e) s thrown after) :
    Throws (runStmt lib call rounds frame (.raise e) locals) s thrown after := by
  rw [runStmt]
  exact Throws.later gives rfl

theorem throws_ifThen {condition : Expr} {body : Stmt}
    (holds : Gives (evalExpr lib call frame locals condition) s (.literal (.boolean true)) middle)
    (throws : Throws (runStmt lib call rounds frame body locals) middle thrown after) :
    Throws (runStmt lib call rounds frame (.ifThen condition body) locals) s thrown after := by
  rw [runStmt]
  refine Throws.later (gives_test holds) ?_
  rw [if_pos rfl]
  exact throws.bind

theorem throws_runAll {statement : Stmt} {rest : List Stmt}
    (throws : Throws (runStmt lib call rounds frame statement locals) s thrown after) :
    Throws (runAll lib call rounds frame (statement :: rest) locals) s thrown after := by
  rw [runAll]
  exact throws.bind

theorem throws_call {m : MethodDef} {statements : List Stmt} {this : Value} {args : List Value} {budget : Nat}
    (hasBody : m.body = some (.block statements)) (takes : m.parameters.length = args.length)
    (throws : Throws (runAll lib (callMethod lib budget) budget ⟨this, (m.parameters.map (·.name)).zip args⟩ statements [])
      s thrown after) : Throws (callMethod lib (budget + 1) m this args) s thrown after := by
  rw [callMethod]
  simp only [hasBody]
  rw [if_neg (fun different => different takes)]
  refine Throws.bind ?_
  rw [runStmt]
  exact throws.bind

variable {step : Run World Value} {w last : World} {value : Value}

theorem gives_attempt (gives : Gives step w value last) : Gives (Extension.attempt step) w (.ok value) last := by
  unfold Gives EStateM.run Extension.attempt at *
  rw [gives]

theorem attempt_throws (throws : Throws step w thrown last) : Gives (Extension.attempt step) w (.error thrown) last := by
  unfold Throws Gives EStateM.run Extension.attempt at *
  rw [throws]

end Exceptions

section Rules
variable {x : Extension} {own : String → List Value → Run World Value} {inside : Run World Unit}
  {call : MethodDef → Value → List Value → Run World Value} {frame : Frame} {locals : Locals} {w after : World}
  {receiver value : Value} {method name : String} {args : List Value}

theorem gives_observe (x : Extension) (event : Event) (w : World) :
    ∃ n, Gives (x.observe event) w (outside n) (w.after [(event, outside n)]) := ⟨_, rfl⟩

theorem send_own (runs : Gives (own method args) w value after) :
    Gives (send (x.libraryWith own inside) call self method args) w value after := by
  refine send_other nofun rfl ?_
  change Gives (x.invoke own inside self method args) w value after
  rwa [Extension.invoke, if_pos rfl]

theorem gives_callOwn {lib : Library World} {m : MethodDef} (found : x.resolve w.log method args = some m)
    (runs : Gives (callMethod lib 1 m self args) w value after) : Gives (x.callOwn lib method args) w value after :=
  (gives_get w).bind ((gives_ofOption found w).bind runs)

theorem send_foreign (foreign : Foreign receiver)
    (responds : Gives (x.respond inside receiver method args) w value after) :
    Gives (send (x.libraryWith own inside) call receiver method args) w value after := by
  refine send_other foreign.1 rfl ?_
  change Gives (x.invoke own inside receiver method args) w value after
  rwa [Extension.invoke, if_neg foreign.2]

theorem send_bare (foreign : Foreign receiver) (method : String) (w : World) :
    ∃ n, Gives (send (x.libraryWith own inside) call receiver method []) w (outside n)
      (w.after [(.call receiver method [], outside n)]) := by
  obtain ⟨n, observed⟩ := gives_observe x (.call receiver method []) w
  exact ⟨n, send_foreign foreign ((gives_get w).bind observed)⟩

theorem send_convention (foreign : Foreign receiver) (value : Value) (w : World) :
    ∃ n, Gives (send (x.libraryWith own inside) call receiver "convention" [value]) w (outside n)
      (w.after [(.call receiver "convention" [value], outside n)]) := by
  obtain ⟨n, observed⟩ := gives_observe x (.call receiver "convention" [value]) w
  exact ⟨n, send_foreign foreign ((gives_get w).bind observed)⟩

theorem send_add (foreign : Foreign receiver) (set : className? w.log receiver = some "java.util.HashSet") (value : Value) :
    Gives (send (x.libraryWith own inside) call receiver "add" [value]) w
      (.literal (.boolean (value ∉ additions receiver w.log)))
      (w.after [(.call receiver "add" [value], .literal (.boolean (value ∉ additions receiver w.log)))]) := by
  refine send_foreign foreign ((gives_get w).bind ?_)
  simp only [if_pos set]
  exact gives_record ..

theorem send_newInstance (foreign : Foreign receiver) (name : String) (w : World) :
    Gives (send (x.libraryWith own inside) call receiver "newInstance" [.constant name "class"]) w (created w.log.length)
      (w.after [(.call receiver "newInstance" [.constant name "class"], created w.log.length)]) :=
  send_foreign foreign ((gives_get w).bind (gives_create ..))

theorem send_register (foreign : Foreign receiver)
    (unused : name ∉ (registrations w.log).map (·.1)) (type configurator : Value) :
    ∃ n, Gives (send (x.libraryWith own inside) call receiver "register" [.literal (.string name), type, configurator]) w
      (outside n) (w.after [(.call receiver "register" [.literal (.string name), type, configurator], outside n)]) := by
  obtain ⟨n, observed⟩ := gives_observe x (.call receiver "register" [.literal (.string name), type, configurator]) w
  refine ⟨n, send_foreign foreign ((gives_get w).bind ?_)⟩
  simp only [if_neg unused]
  exact observed

theorem send_execute (foreign : Foreign receiver)
    (acts : Gives inside (w.after [(.call receiver "execute" [value], .null)]) () after) :
    Gives (send (x.libraryWith own inside) call receiver "execute" [value]) w .null after :=
  send_foreign foreign ((gives_get w).bind ((gives_record ..).bind (acts.bind (gives_pure _ after))))

theorem eval_ownField {ty : TypeRef} (itself : frame.this = self) (known : w.fields.lookup name = some value) :
    Gives (evalExpr (x.libraryWith own inside) call frame locals (Expr.this.field name ty)) w value w := by
  rw [evalExpr]
  refine eval_this.bind ?_
  unfold Extension.libraryWith
  rw [itself]
  simp only [if_pos]
  exact (gives_get w).bind (gives_ofOption known w)

theorem eval_classRef {ty : TypeRef} (named : ty.name? = some name) :
    Gives (evalExpr (x.libraryWith own inside) call frame locals ty.classRef) w (.constant name "class") w := by
  rw [TypeRef.classRef, evalExpr]
  exact gives_ofOption (by rw [named, Option.map_some]) w

theorem eval_default {e : Expr} (is : constantOf e = some value) :
    Gives (evalExpr (x.libraryWith own inside) call frame locals e) w value w := by
  unfold constantOf at is
  split at is
  next =>
    cases is
    exact eval_literal _
  next =>
    cases is
    rw [evalExpr]
    exact gives_pure _ w
  next => cases is

theorem eval_new (ty : TypeRef) {args : List Expr} {values : List Value} {middle : World}
    (arguments : Gives (evalAll (x.libraryWith own inside) call frame locals args) w values middle) :
    Gives (evalExpr (x.libraryWith own inside) call frame locals (.create ty args)) w (created middle.log.length)
      (middle.after [(.create ty values, created middle.log.length)]) :=
  eval_create arguments (gives_create ..)

end Rules

end PluginForge.Proofs.ExtensionLibrary
