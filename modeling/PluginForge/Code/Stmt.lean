import PluginForge.Code.Expr

/-! Statements of generated method bodies. -/

namespace PluginForge

inductive Stmt where
  | expr (e : Expr)
  | define (v : Variable) (value : Expr)
  | assign (v : Variable) (value : Expr)
  | assignField (receiver : Expr) (name : String) (ty : TypeRef) (value : Expr)
  | ifThen (condition : Expr) (body : Stmt)
  | ifElse (condition : Expr) (body otherwise : Stmt)
  | whileLoop (condition : Expr) (body : Stmt)
  | ret (value : Option Expr)
  | raise (e : Expr)
  | block (statements : List Stmt)
  deriving Repr, Inhabited

namespace Stmt

mutual

/-- The statement and all inside it, each before its own parts. -/
def walk : Stmt → List Stmt
  | .ifThen condition body => .ifThen condition body :: body.walk
  | .ifElse condition body otherwise => .ifElse condition body otherwise :: (body.walk ++ otherwise.walk)
  | .whileLoop condition body => .whileLoop condition body :: body.walk
  | .block statements => .block statements :: walkAll statements
  | s => [s]

def walkAll : List Stmt → List Stmt
  | [] => []
  | s :: rest => s.walk ++ walkAll rest

end

theorem walkAll_eq (statements : List Stmt) : walkAll statements = statements.flatMap walk := by
  induction statements with
  | nil => rfl
  | cons s rest ih => rw [walkAll, ih, List.flatMap_cons]

/-- The expressions that belong to the statement itself, in the order they are evaluated. -/
def operands : Stmt → List Expr
  | .expr e | .raise e | .ret (some e) => [e]
  | .define _ value | .assign _ value => [value]
  | .assignField receiver _ _ value => [receiver, value]
  | .ifThen condition _ | .ifElse condition _ _ | .whileLoop condition _ => [condition]
  | .ret none | .block _ => []

/-- All expressions anywhere in the statement. -/
def walkExprs (s : Stmt) : List Expr := s.walk.flatMap fun t => t.operands.flatMap Expr.walk

/-- The methods called anywhere in the statement, in the order of the calls' visits. -/
def invokedMethods (s : Stmt) : List String := s.walkExprs.filterMap Expr.invokedMethod?

mutual

/-- The statements of a block and of the blocks directly in it; any other statement alone. -/
def flatten : Stmt → List Stmt
  | .block statements => flattenAll statements
  | s => [s]

def flattenAll : List Stmt → List Stmt
  | [] => []
  | s :: rest => s.flatten ++ flattenAll rest

end

theorem flattenAll_eq (statements : List Stmt) : flattenAll statements = statements.flatMap flatten := by
  induction statements with
  | nil => rfl
  | cons s rest ih => rw [flattenAll, ih, List.flatMap_cons]

end Stmt

end PluginForge
