import PluginForge.Code.Object

/-! Big-step evaluation of generated code. What objects are and what their methods do comes from a library;
the evaluator itself settles the order of evaluation, local variables and control ending. A budget bounds the
depth of calls and the rounds of each loop. -/

namespace PluginForge.Proofs.Evaluation

/-- Null and primitives are literals; an enum constant is known by its name and any other object by its address. -/
inductive Value where
  | literal (value : Literal)
  | constant (enumName name : String)
  | ref (address : Nat)
  deriving DecidableEq, Repr

abbrev Value.null : Value := .literal .null

/-- Why evaluation ends without a value. What generated code never does is stuck. -/
inductive Halt where
  | thrown (value : Value)
  | nullPointer
  | noSuchConstant
  | stuck
  deriving DecidableEq, Repr

abbrev Run (σ : Type) := EStateM Halt σ

/-- What generated code runs against. -/
structure Library (σ : Type) where
  /-- The generated method that a call on an object runs, if it is one. -/
  method? : σ → Value → String → Option MethodDef
  invoke : Value → String → List Value → Run σ Value
  invokeStatic : TypeRef → String → List Value → Run σ Value
  create : TypeRef → List Value → Run σ Value
  readField : Value → String → Run σ Value
  writeField : Value → String → Value → Run σ Unit
  readStatic : TypeRef → String → Run σ Value

/-- Values by name, the innermost definition first. -/
abbrev Locals := List (String × Value)

namespace Locals

def assign (name : String) (value : Value) : Locals → Option Locals
  | [] => none
  | (other, old) :: rest =>
    if other = name then some ((name, value) :: rest) else (assign name value rest).map ((other, old) :: ·)

end Locals

structure Frame where
  this : Value
  parameters : Locals

def ofOption {σ α : Type} : Option α → Run σ α
  | some value => pure value
  | none => throw .stuck

/-- Generated code compares objects with null alone. -/
def compare {σ : Type} (op : Comparison) (lhs rhs : Value) : Run σ Value :=
  if lhs ≠ .null ∧ rhs ≠ .null then throw .stuck
  else match op with
    | .equal => pure (.literal (.boolean (lhs = rhs)))
    | .notEqual => pure (.literal (.boolean (lhs ≠ rhs)))
    | _ => throw .stuck

def truth {σ : Type} : Value → Run σ Bool
  | .literal (.boolean value) => pure value
  | _ => throw .stuck

section
variable {σ : Type} (lib : Library σ) (call : MethodDef → Value → List Value → Run σ Value)

/-- Calls a method on an object: a generated one by its body, any other by the library. -/
def send (receiver : Value) (method : String) (args : List Value) : Run σ Value := do
  if receiver = .null then throw .nullPointer
  match lib.method? (← get) receiver method with
  | some generated => call generated receiver args
  | none => lib.invoke receiver method args

mutual

@[simp]
def evalExpr (frame : Frame) (locals : Locals) : Expr → Run σ Value
  | .literal value => pure (.literal value)
  | .this => pure frame.this
  | .localVar v => ofOption (locals.lookup v.name)
  | .param v => ofOption (frame.parameters.lookup v.name)
  | .field receiver name _ => do lib.readField (← evalExpr frame locals receiver) name
  | .staticField owner name _ => lib.readStatic owner name
  | .invoke receiver method _ args => do
    let target ← evalExpr frame locals receiver
    send lib call target method (← evalAll frame locals args)
  | .invokeStatic owner method _ args => do lib.invokeStatic owner method (← evalAll frame locals args)
  | .create ty args => do lib.create ty (← evalAll frame locals args)
  | .compare op lhs rhs => do
    let left ← evalExpr frame locals lhs
    compare op left (← evalExpr frame locals rhs)
  | .arith _ _ _ => throw .stuck
  | .not operand => do return .literal (.boolean !(← truth (← evalExpr frame locals operand)))

@[simp]
def evalAll (frame : Frame) (locals : Locals) : List Expr → Run σ (List Value)
  | [] => pure []
  | e :: rest => do
    let value ← evalExpr frame locals e
    return value :: (← evalAll frame locals rest)

end

/-- How a statement ends: by going on with the local variables, or by returning. -/
inductive Ending where
  | next (locals : Locals)
  | ret (value : Value)

def Ending.andThen : Ending → (Locals → Run σ Ending) → Run σ Ending
  | .next locals, rest => rest locals
  | .ret value, _ => pure (.ret value)

/-- The variables that a block leaves: those from before it. -/
def Ending.within (outer : Locals) : Ending → Ending
  | .next locals => .next (locals.drop (locals.length - outer.length))
  | .ret value => .ret value

def enclosed (code : Locals → Run σ Ending) (locals : Locals) : Run σ Ending := do return (← code locals).within locals

def test (frame : Frame) (condition : Expr) (locals : Locals) : Run σ Bool := do
  truth (← evalExpr lib call frame locals condition)

def repeatWhile (condition : Locals → Run σ Bool) (body : Locals → Run σ Ending) : Nat → Locals → Run σ Ending
  | 0, _ => throw .stuck
  | rounds + 1, locals => do
    if ← condition locals then (← body locals).andThen (repeatWhile condition body rounds)
    else return .next locals

mutual

@[simp]
def runStmt (rounds : Nat) (frame : Frame) : Stmt → Locals → Run σ Ending
  | .expr e, locals => do
    let _ ← evalExpr lib call frame locals e
    return .next locals
  | .define v value, locals => do return .next ((v.name, ← evalExpr lib call frame locals value) :: locals)
  | .assign v value, locals => do
    return .next (← ofOption (locals.assign v.name (← evalExpr lib call frame locals value)))
  | .assignField receiver name _ value, locals => do
    let target ← evalExpr lib call frame locals receiver
    lib.writeField target name (← evalExpr lib call frame locals value)
    return .next locals
  | .ifThen condition body, locals => do
    if ← test lib call frame condition locals then enclosed (runStmt rounds frame body) locals
    else return .next locals
  | .ifElse condition body otherwise, locals => do
    if ← test lib call frame condition locals then enclosed (runStmt rounds frame body) locals
    else enclosed (runStmt rounds frame otherwise) locals
  | .whileLoop condition body, locals =>
    repeatWhile (test lib call frame condition) (enclosed (runStmt rounds frame body)) rounds locals
  | .ret none, _ => return .ret .null
  | .ret (some value), locals => do return .ret (← evalExpr lib call frame locals value)
  | .raise e, locals => do throw (.thrown (← evalExpr lib call frame locals e))
  | .block statements, locals => enclosed (runAll rounds frame statements) locals

@[simp]
def runAll (rounds : Nat) (frame : Frame) : List Stmt → Locals → Run σ Ending
  | [], locals => return .next locals
  | s :: rest, locals => do (← runStmt rounds frame s locals).andThen (runAll rounds frame rest)

end

end

variable {σ : Type}

/-- Runs a method on an object. A method that ends without a value gives null. -/
def callMethod (lib : Library σ) : Nat → MethodDef → Value → List Value → Run σ Value
  | 0, _, _, _ => throw .stuck
  | budget + 1, m, this, args =>
    match m.body with
    | none => throw .stuck
    | some body => do
      if m.parameters.length ≠ args.length then throw .stuck
      let frame : Frame := ⟨this, (m.parameters.map (·.name)).zip args⟩
      match ← runStmt lib (callMethod lib budget) budget frame body [] with
      | .next _ => return .null
      | .ret value => return value

end PluginForge.Proofs.Evaluation
