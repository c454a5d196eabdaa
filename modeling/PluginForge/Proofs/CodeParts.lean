import PluginForge.Code.Object

/-! Properties of all parts of a piece of code. What holds of every expression inside an expression, or of every
statement inside a statement, is said by one equation per form of code; a type encloses itself and the types
nested in it. -/

namespace PluginForge.Proofs.CodeParts

/-- All expressions inside the expression have the property, itself included. -/
def AllExprs (P : Expr → Prop) (e : Expr) : Prop := ∀ part ∈ e.walk, P part

section Expressions
variable {P Q : Expr → Prop}

theorem mem_walkAll {part : Expr} {args : List Expr} : part ∈ Expr.walkAll args ↔ ∃ e ∈ args, part ∈ e.walk := by
  rw [Expr.walkAll_eq, List.mem_flatMap]

theorem forall_walkAll {args : List Expr} :
    (∀ part ∈ Expr.walkAll args, P part) ↔ ∀ e ∈ args, AllExprs P e := by
  simp only [mem_walkAll, AllExprs]
  exact ⟨fun all e member part inside => all part ⟨e, member, inside⟩,
    fun all part ⟨e, member, inside⟩ => all e member part inside⟩

theorem AllExprs.imp {e : Expr} (all : AllExprs P e) (implies : ∀ part, P part → Q part) : AllExprs Q e :=
  fun part inside => implies part (all part inside)

theorem allExprs_leaf {e : Expr} (walk : e.walk = [e]) : AllExprs P e ↔ P e := by
  rw [AllExprs, walk, List.forall_mem_singleton]

theorem allExprs_node {e : Expr} {parts : List Expr} (walk : e.walk = e :: parts) :
    AllExprs P e ↔ P e ∧ ∀ part ∈ parts, P part := by
  rw [AllExprs, walk, List.forall_mem_cons]

theorem allExprs_args {e : Expr} {args : List Expr} (walk : e.walk = e :: Expr.walkAll args) :
    AllExprs P e ↔ P e ∧ ∀ arg ∈ args, AllExprs P arg := by
  rw [allExprs_node walk, forall_walkAll]

theorem allExprs_pair {e lhs rhs : Expr} (walk : e.walk = e :: (lhs.walk ++ rhs.walk)) :
    AllExprs P e ↔ P e ∧ AllExprs P lhs ∧ AllExprs P rhs := by
  rw [allExprs_node walk, List.forall_mem_append, AllExprs, AllExprs]

@[simp] theorem allExprs_literal (value : Literal) : AllExprs P (.literal value) ↔ P (.literal value) :=
  allExprs_leaf rfl

@[simp] theorem allExprs_this : AllExprs P .this ↔ P .this := allExprs_leaf rfl

@[simp] theorem allExprs_localVar (v : Variable) : AllExprs P (.localVar v) ↔ P (.localVar v) := allExprs_leaf rfl

@[simp] theorem allExprs_param (v : Variable) : AllExprs P (.param v) ↔ P (.param v) := allExprs_leaf rfl

@[simp] theorem allExprs_staticField (owner : TypeRef) (name : String) (ty : TypeRef) :
    AllExprs P (.staticField owner name ty) ↔ P (.staticField owner name ty) := allExprs_leaf rfl

@[simp] theorem allExprs_field (receiver : Expr) (name : String) (ty : TypeRef) :
    AllExprs P (.field receiver name ty) ↔ P (.field receiver name ty) ∧ AllExprs P receiver := allExprs_node rfl

@[simp] theorem allExprs_invoke (receiver : Expr) (method : String) (returns : TypeRef) (args : List Expr) :
    AllExprs P (.invoke receiver method returns args) ↔
      P (.invoke receiver method returns args) ∧ AllExprs P receiver ∧ ∀ e ∈ args, AllExprs P e := by
  rw [allExprs_node rfl, List.forall_mem_append, forall_walkAll, AllExprs]

@[simp] theorem allExprs_invokeStatic (owner : TypeRef) (method : String) (returns : TypeRef) (args : List Expr) :
    AllExprs P (.invokeStatic owner method returns args) ↔
      P (.invokeStatic owner method returns args) ∧ ∀ e ∈ args, AllExprs P e := allExprs_args rfl

@[simp] theorem allExprs_create (ty : TypeRef) (args : List Expr) :
    AllExprs P (.create ty args) ↔ P (.create ty args) ∧ ∀ e ∈ args, AllExprs P e := allExprs_args rfl

@[simp] theorem allExprs_compare (op : Comparison) (lhs rhs : Expr) :
    AllExprs P (.compare op lhs rhs) ↔ P (.compare op lhs rhs) ∧ AllExprs P lhs ∧ AllExprs P rhs :=
  allExprs_pair rfl

@[simp] theorem allExprs_arith (op : Arithmetic) (lhs rhs : Expr) :
    AllExprs P (.arith op lhs rhs) ↔ P (.arith op lhs rhs) ∧ AllExprs P lhs ∧ AllExprs P rhs := allExprs_pair rfl

@[simp] theorem allExprs_not (operand : Expr) : AllExprs P (.not operand) ↔ P (.not operand) ∧ AllExprs P operand :=
  allExprs_node rfl

end Expressions

/-- All statements inside the statement have the property, itself included. -/
def AllStmts (P : Stmt → Prop) (s : Stmt) : Prop := ∀ part ∈ s.walk, P part

section Statements
variable {P : Stmt → Prop}

theorem forall_walkAll_stmts {statements : List Stmt} :
    (∀ part ∈ Stmt.walkAll statements, P part) ↔ ∀ s ∈ statements, AllStmts P s := by
  rw [Stmt.walkAll_eq, List.forall_mem_flatMap]
  rfl

theorem allStmts_leaf {s : Stmt} (walk : s.walk = [s]) : AllStmts P s ↔ P s := by
  rw [AllStmts, walk, List.forall_mem_singleton]

theorem allStmts_node {s : Stmt} {parts : List Stmt} (walk : s.walk = s :: parts) :
    AllStmts P s ↔ P s ∧ ∀ part ∈ parts, P part := by
  rw [AllStmts, walk, List.forall_mem_cons]

@[simp] theorem allStmts_expr (e : Expr) : AllStmts P (.expr e) ↔ P (.expr e) := allStmts_leaf rfl

@[simp] theorem allStmts_define (v : Variable) (value : Expr) : AllStmts P (.define v value) ↔ P (.define v value) :=
  allStmts_leaf rfl

@[simp] theorem allStmts_assign (v : Variable) (value : Expr) : AllStmts P (.assign v value) ↔ P (.assign v value) :=
  allStmts_leaf rfl

@[simp] theorem allStmts_assignField (receiver : Expr) (name : String) (ty : TypeRef) (value : Expr) :
    AllStmts P (.assignField receiver name ty value) ↔ P (.assignField receiver name ty value) := allStmts_leaf rfl

@[simp] theorem allStmts_ret (value : Option Expr) : AllStmts P (.ret value) ↔ P (.ret value) := allStmts_leaf rfl

@[simp] theorem allStmts_raise (e : Expr) : AllStmts P (.raise e) ↔ P (.raise e) := allStmts_leaf rfl

@[simp] theorem allStmts_ifThen (condition : Expr) (body : Stmt) :
    AllStmts P (.ifThen condition body) ↔ P (.ifThen condition body) ∧ AllStmts P body := allStmts_node rfl

@[simp] theorem allStmts_ifElse (condition : Expr) (body otherwise : Stmt) :
    AllStmts P (.ifElse condition body otherwise) ↔
      P (.ifElse condition body otherwise) ∧ AllStmts P body ∧ AllStmts P otherwise := by
  rw [allStmts_node rfl, List.forall_mem_append, AllStmts, AllStmts]

@[simp] theorem allStmts_whileLoop (condition : Expr) (body : Stmt) :
    AllStmts P (.whileLoop condition body) ↔ P (.whileLoop condition body) ∧ AllStmts P body := allStmts_node rfl

@[simp] theorem allStmts_block (statements : List Stmt) :
    AllStmts P (.block statements) ↔ P (.block statements) ∧ ∀ s ∈ statements, AllStmts P s := by
  rw [allStmts_node rfl, forall_walkAll_stmts]

/-- All expressions anywhere in the statement have the property. -/
def AllCode (P : Expr → Prop) (s : Stmt) : Prop := AllStmts (fun part => ∀ e ∈ part.operands, AllExprs P e) s

variable {E : Expr → Prop}

theorem forall_walkExprs {s : Stmt} : (∀ e ∈ s.walkExprs, E e) ↔ AllCode E s := by
  simp only [Stmt.walkExprs, List.mem_flatMap, AllCode, AllStmts, AllExprs]
  exact ⟨fun all part inside e operand other within => all other ⟨part, inside, e, operand, within⟩,
    fun all e ⟨part, inside, operand, isOperand, within⟩ => all part inside operand isOperand e within⟩

@[simp] theorem allCode_expr (e : Expr) : AllCode E (.expr e) ↔ AllExprs E e := by simp [AllCode, Stmt.operands]

@[simp] theorem allCode_define (v : Variable) (value : Expr) : AllCode E (.define v value) ↔ AllExprs E value := by
  simp [AllCode, Stmt.operands]

@[simp] theorem allCode_assign (v : Variable) (value : Expr) : AllCode E (.assign v value) ↔ AllExprs E value := by
  simp [AllCode, Stmt.operands]

@[simp] theorem allCode_assignField (receiver : Expr) (name : String) (ty : TypeRef) (value : Expr) :
    AllCode E (.assignField receiver name ty value) ↔ AllExprs E receiver ∧ AllExprs E value := by
  simp [AllCode, Stmt.operands]

@[simp] theorem allCode_ret (e : Expr) : AllCode E (.ret (some e)) ↔ AllExprs E e := by simp [AllCode, Stmt.operands]

@[simp] theorem allCode_raise (e : Expr) : AllCode E (.raise e) ↔ AllExprs E e := by simp [AllCode, Stmt.operands]

@[simp] theorem allCode_ifThen (condition : Expr) (body : Stmt) :
    AllCode E (.ifThen condition body) ↔ AllExprs E condition ∧ AllCode E body := by simp [AllCode, Stmt.operands]

@[simp] theorem allCode_ifElse (condition : Expr) (body otherwise : Stmt) :
    AllCode E (.ifElse condition body otherwise) ↔ AllExprs E condition ∧ AllCode E body ∧ AllCode E otherwise := by
  simp [AllCode, Stmt.operands]

@[simp] theorem allCode_whileLoop (condition : Expr) (body : Stmt) :
    AllCode E (.whileLoop condition body) ↔ AllExprs E condition ∧ AllCode E body := by simp [AllCode, Stmt.operands]

@[simp] theorem allCode_block (statements : List Stmt) :
    AllCode E (.block statements) ↔ ∀ s ∈ statements, AllCode E s := by simp [AllCode, Stmt.operands]

end Statements

section Types

def fieldsOf : ObjectDef → List FieldDef
  | .class body _ => body.fields
  | .interface _ _ => []
  | .enum body _ => body.fields

/-- All expressions in the bodies and initial values of the type's own members. -/
def code (o : ObjectDef) : List Expr :=
  o.methods.flatMap (fun m => m.body.toList.flatMap Stmt.walkExprs) ++
    (fieldsOf o).flatMap fun f => f.initializer.toList.flatMap Expr.walk

/-- All expressions in the body of the method, if it has one, have the property. -/
def AllBody (E : Expr → Prop) (m : MethodDef) : Prop := ∀ body, m.body = some body → AllCode E body

variable {E : Expr → Prop}

theorem AllBody.of_body {m : MethodDef} {body : Stmt} (has : m.body = some body) (all : AllCode E body) : AllBody E m := by
  intro other same
  cases has.symm.trans same
  exact all

theorem AllBody.of_none {m : MethodDef} (absent : m.body = none) : AllBody E m := by
  intro body same
  rw [absent] at same
  cases same

theorem AllBody.imp {m : MethodDef} {F : Expr → Prop} (all : AllBody E m) (implies : ∀ e, E e → F e) : AllBody F m :=
  fun body has part inside e operand => (all body has part inside e operand).imp implies

theorem forall_code {o : ObjectDef} (methods : ∀ m ∈ o.methods, AllBody E m)
    (fields : ∀ f ∈ fieldsOf o, ∀ e, f.initializer = some e → AllExprs E e) : ∀ e ∈ code o, E e := by
  intro e member
  simp only [code, List.mem_append, List.mem_flatMap, Option.mem_toList] at member
  rcases member with ⟨m, inside, body, has, within⟩ | ⟨f, inside, value, has, within⟩
  · exact forall_walkExprs.mpr (methods m inside body has) e within
  · exact fields f inside value has e within

end Types

/-- The type is the definition itself or nested in it at any depth. -/
inductive Encloses (o : ObjectDef) : ObjectDef → Prop where
  | self : Encloses o o
  | nested {c inner : ObjectDef} (outer : Encloses o c) (member : inner ∈ c.inner) : Encloses o inner

/-- The generated types nest at most once. -/
theorem forall_encloses {P : ObjectDef → Prop} {o : ObjectDef} (own : P o)
    (within : ∀ c ∈ o.inner, P c ∧ c.inner = []) : ∀ c, Encloses o c → P c := by
  have flat : ∀ c, Encloses o c → c = o ∨ c ∈ o.inner := by
    intro c encloses
    induction encloses with
    | self => exact .inl rfl
    | nested outer member ih =>
      rcases ih with rfl | deep
      · exact .inr member
      · rw [(within _ deep).2] at member
        cases member
  intro c encloses
  rcases flat c encloses with rfl | member
  · exact own
  · exact (within c member).1

end PluginForge.Proofs.CodeParts
