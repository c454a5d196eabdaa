import PluginForge.Types.TypeRef

/-!
Expressions of generated code. Constants are kept exactly: whole numbers at their width, floating-point
numbers as their bit patterns.
-/

namespace PluginForge

inductive Literal where
  | null
  | boolean (value : Bool)
  | byte (value : Int8)
  | short (value : Int16)
  | char (value : Char)
  | int (value : Int32)
  | long (value : Int64)
  | float (bits : UInt32)
  | double (bits : UInt64)
  | string (value : String)
  deriving DecidableEq, Repr

inductive Comparison where
  | equal | notEqual | lessThan | lessThanOrEqual | greaterThan | greaterThanOrEqual
  deriving DecidableEq, Repr

inductive Arithmetic where
  | add | subtract | multiply | divide
  deriving DecidableEq, Repr

/-- A typed name: a local variable or a parameter of a method. -/
structure Variable where
  name : String
  ty : TypeRef
  deriving Repr

inductive Expr where
  | literal (value : Literal)
  | this
  | localVar (v : Variable)
  | param (v : Variable)
  | field (receiver : Expr) (name : String) (ty : TypeRef)
  | staticField (owner : TypeRef) (name : String) (ty : TypeRef)
  | invoke (receiver : Expr) (method : String) (returns : TypeRef) (args : List Expr)
  | invokeStatic (owner : TypeRef) (method : String) (returns : TypeRef) (args : List Expr)
  | create (ty : TypeRef) (args : List Expr)
  | compare (op : Comparison) (lhs rhs : Expr)
  | arith (op : Arithmetic) (lhs rhs : Expr)
  | not (operand : Expr)
  deriving Repr, Inhabited

namespace Expr

def null : Expr := .literal .null

def string (value : String) : Expr := .literal (.string value)

def isNull (e : Expr) : Expr := .compare .equal e null

def isNotNull (e : Expr) : Expr := .compare .notEqual e null

mutual

/-- The expression and all inside it, each before its own parts. -/
def walk : Expr → List Expr
  | .field receiver name ty => .field receiver name ty :: receiver.walk
  | .invoke receiver method returns args =>
    .invoke receiver method returns args :: (receiver.walk ++ walkAll args)
  | .invokeStatic owner method returns args => .invokeStatic owner method returns args :: walkAll args
  | .create ty args => .create ty args :: walkAll args
  | .compare op lhs rhs => .compare op lhs rhs :: (lhs.walk ++ rhs.walk)
  | .arith op lhs rhs => .arith op lhs rhs :: (lhs.walk ++ rhs.walk)
  | .not operand => .not operand :: operand.walk
  | e => [e]

def walkAll : List Expr → List Expr
  | [] => []
  | e :: rest => e.walk ++ walkAll rest

end

theorem walkAll_eq (args : List Expr) : walkAll args = args.flatMap walk := by
  induction args with
  | nil => rfl
  | cons e rest ih => rw [walkAll, ih, List.flatMap_cons]

/-- The method that the expression itself calls. -/
def invokedMethod? : Expr → Option String
  | .invoke _ method _ _ | .invokeStatic _ method _ _ => some method
  | _ => none

end Expr

namespace TypeRef

/-- The class literal of the type. -/
def classRef (ty : TypeRef) : Expr := .staticField ty "class" classLiteral

end TypeRef

namespace Variable

def toLocal (v : Variable) : Expr := .localVar v

def toParam (v : Variable) : Expr := .param v

end Variable

end PluginForge
