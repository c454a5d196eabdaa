import PluginForge.Code.Json
import PluginForge.Proofs.CodeParts
import PluginForge.Proofs.JsonAgreement

/-! The encoding of types, expressions and statements as JSON loses nothing but floating-point numbers: what is encoded
as the same value is the same code. -/

namespace PluginForge.Proofs.CodeEncoding
open Json JsonPrinting JsonAgreement CodeParts

section Types

def typeTag : TypeRef → String
  | .void => "void"
  | .primitive _ => "primitive"
  | .class _ => "class"
  | .parameterized _ _ => "parameterized"
  | .wildcardSuper _ => "wildcard_super"
  | .wildcardExtends _ => "wildcard_extends"
  | .array _ => "array"
  | .generated _ _ => "generated"
  | .this => "this"

theorem hasTag_type (ty : TypeRef) (tag : String) : HasTag ty.toJson tag ↔ typeTag ty = tag := by
  cases ty
  case void | this => exact Iff.rfl
  all_goals exact hasTag_tagged

theorem primitive_eq {p q : Primitive} (same : p.keyword = q.keyword) : p = q :=
  Option.some.inj (by rw [← Primitive.ofKeyword?_keyword p, same, Primitive.ofKeyword?_keyword])

theorem kind_eq {kind kind' : ObjectKind} (same : kind.word = kind'.word) : kind = kind' := by
  cases kind <;> cases kind' <;> first | rfl | simp [ObjectKind.word] at same

mutual

theorem type_eq : ∀ {ty other : TypeRef}, Alike ty.toJson other.toJson → ty = other
  | .void, other, alike => by
    have same := tag_eq hasTag_type alike
    cases other with
    | void => rfl
    | _ => simp [typeTag] at same
  | .primitive p, other, alike => by
    have same := tag_eq hasTag_type alike
    cases other with
    | primitive q => rw [primitive_eq alike.content.str_eq]
    | _ => simp [typeTag] at same
  | .class name, other, alike => by
    have same := tag_eq hasTag_type alike
    cases other with
    | «class» name' => rw [alike.content.str_eq]
    | _ => simp [typeTag] at same
  | .parameterized raw args, other, alike => by
    have same := tag_eq hasTag_type alike
    cases other with
    | parameterized raw' args' =>
      obtain ⟨names, arguments, _⟩ := alike.content.values rfl (by simp)
      rw [names.str_eq, types_eq arguments]
    | _ => simp [typeTag] at same
  | .wildcardSuper bound, other, alike => by
    have same := tag_eq hasTag_type alike
    cases other with
    | wildcardSuper bound' => rw [type_eq alike.content]
    | _ => simp [typeTag] at same
  | .wildcardExtends bound, other, alike => by
    have same := tag_eq hasTag_type alike
    cases other with
    | wildcardExtends bound' => rw [type_eq alike.content]
    | _ => simp [typeTag] at same
  | .array element, other, alike => by
    have same := tag_eq hasTag_type alike
    cases other with
    | array element' => rw [type_eq alike.content]
    | _ => simp [typeTag] at same
  | .generated name kind, other, alike => by
    have same := tag_eq hasTag_type alike
    cases other with
    | generated name' kind' =>
      obtain ⟨names, kinds, _⟩ := alike.content.values rfl (by simp)
      rw [names.str_eq, kind_eq kinds.str_eq]
    | _ => simp [typeTag] at same
  | .this, other, alike => by
    have same := tag_eq hasTag_type alike
    cases other with
    | this => rfl
    | _ => simp [typeTag] at same

theorem types_eq : ∀ {types others : List TypeRef},
    Alike (.arr (TypeRef.toJsons types)) (.arr (TypeRef.toJsons others)) → types = others
  | [], [], _ => rfl
  | [], _ :: _, alike => nomatch alike.length_eq
  | _ :: _, [], alike => nomatch alike.length_eq
  | ty :: types, other :: others, alike => by rw [type_eq alike.head, types_eq alike.tail]

end

mutual

theorem exact_type : ∀ ty : TypeRef, Exact ty.toJson
  | .void | .this => .str _
  | .primitive _ | .class _ => exact_tagged (.str _)
  | .parameterized _ args =>
    exact_tagged (exact_cons (.str _) (exact_cons (.arr (exact_types args)) exact_nil))
  | .wildcardSuper bound | .wildcardExtends bound | .array bound => exact_tagged (exact_type bound)
  | .generated _ _ => exact_tagged (exact_cons (.str _) (exact_cons (.str _) exact_nil))

theorem exact_types : ∀ types : List TypeRef, ∀ item ∈ TypeRef.toJsons types, Exact item
  | [] => List.forall_mem_nil _
  | ty :: types => List.forall_mem_cons.mpr ⟨exact_type ty, exact_types types⟩

end

end Types

/-- The expression itself is no floating-point constant. -/
def Plain : Expr → Prop
  | .literal (.float _) => False
  | .literal (.double _) => False
  | _ => True

section Literals

def literalTag : Literal → String
  | .null => "null"
  | .boolean _ => "boolean"
  | .byte _ => "byte"
  | .short _ => "short"
  | .char _ => "char"
  | .int _ => "int"
  | .long _ => "long"
  | .float _ => "float"
  | .double _ => "double"
  | .string _ => "string"

theorem hasTag_literal (value : Literal) (tag : String) : HasTag value.toJson tag ↔ literalTag value = tag := by
  cases value
  case null => exact Iff.rfl
  all_goals exact hasTag_tagged

theorem char_eq {c d : Char} (same : c.toString = d.toString) : c = d := by
  have lists := congrArg String.toList same
  simpa using lists

theorem literal_eq {value other : Literal} (plain : Plain (.literal value)) (alike : Alike value.toJson other.toJson) :
    value = other := by
  have same := tag_eq hasTag_literal alike
  cases value with
  | null =>
    cases other with
    | null => rfl
    | _ => simp [literalTag] at same
  | boolean value =>
    cases other with
    | boolean value' => rw [alike.content.bool_eq]
    | _ => simp [literalTag] at same
  | byte value =>
    cases other with
    | byte value' => rw [Int8.toInt_inj.mp alike.content.int_eq]
    | _ => simp [literalTag] at same
  | short value =>
    cases other with
    | short value' => rw [Int16.toInt_inj.mp alike.content.int_eq]
    | _ => simp [literalTag] at same
  | char value =>
    cases other with
    | char value' => rw [char_eq alike.content.str_eq]
    | _ => simp [literalTag] at same
  | int value =>
    cases other with
    | int value' => rw [Int32.toInt_inj.mp alike.content.int_eq]
    | _ => simp [literalTag] at same
  | long value =>
    cases other with
    | long value' => rw [Int64.toInt_inj.mp alike.content.int_eq]
    | _ => simp [literalTag] at same
  | float bits => exact plain.elim
  | double bits => exact plain.elim
  | string value =>
    cases other with
    | string value' => rw [alike.content.str_eq]
    | _ => simp [literalTag] at same

theorem exact_literal {value : Literal} (plain : Plain (.literal value)) : Exact value.toJson := by
  cases value with
  | null => exact .str _
  | boolean value => exact exact_tagged (.bool _)
  | byte value | short value | int value | long value => exact exact_tagged (.int _)
  | char value | string value => exact exact_tagged (.str _)
  | float bits | double bits => exact plain.elim

end Literals

section Expressions

theorem hasTag_expr (e : Expr) (tag : String) : HasTag e.toJson tag ↔ e.tag = tag := by
  cases e
  case this => exact Iff.rfl
  all_goals exact hasTag_tagged

theorem variable_eq {v other : Variable} (alike : Alike v.toJson other.toJson) : v = other := by
  obtain ⟨name, ty⟩ := v
  obtain ⟨name', ty'⟩ := other
  obtain ⟨names, types, _⟩ := alike.values rfl (by simp)
  rw [Variable.mk.injEq]
  exact ⟨names.str_eq, type_eq types⟩

theorem comparison_eq {op other : Comparison} (same : op.word = other.word) : op = other := by
  cases op <;> cases other <;> first | rfl | simp [Comparison.word] at same

theorem arithmetic_eq {op other : Arithmetic} (same : op.word = other.word) : op = other := by
  cases op <;> cases other <;> first | rfl | simp [Arithmetic.word] at same

mutual

theorem expr_eq : ∀ {e other : Expr}, AllExprs Plain e → Alike e.toJson other.toJson → e = other
  | .literal value, other, free, alike => by
    have same := tag_eq hasTag_expr alike
    cases other with
    | literal value' => rw [literal_eq ((allExprs_literal value).mp free) alike.content]
    | _ => simp [Expr.tag] at same
  | .this, other, _, alike => by
    have same := tag_eq hasTag_expr alike
    cases other with
    | this => rfl
    | _ => simp [Expr.tag] at same
  | .localVar v, other, _, alike => by
    have same := tag_eq hasTag_expr alike
    cases other with
    | localVar v' => rw [variable_eq alike.content]
    | _ => simp [Expr.tag] at same
  | .param v, other, _, alike => by
    have same := tag_eq hasTag_expr alike
    cases other with
    | param v' => rw [variable_eq alike.content]
    | _ => simp [Expr.tag] at same
  | .field receiver name ty, other, free, alike => by
    have same := tag_eq hasTag_expr alike
    obtain ⟨_, inside⟩ := (allExprs_field receiver name ty).mp free
    cases other with
    | field receiver' name' ty' =>
      obtain ⟨receivers, names, types, _⟩ := alike.content.values rfl (by simp)
      rw [expr_eq inside receivers, names.str_eq, type_eq types]
    | _ => simp [Expr.tag] at same
  | .staticField owner name ty, other, _, alike => by
    have same := tag_eq hasTag_expr alike
    cases other with
    | staticField owner' name' ty' =>
      obtain ⟨owners, names, types, _⟩ := alike.content.values rfl (by simp)
      rw [type_eq owners, names.str_eq, type_eq types]
    | _ => simp [Expr.tag] at same
  | .invoke receiver method returns args, other, free, alike => by
    have same := tag_eq hasTag_expr alike
    obtain ⟨_, inside, each⟩ := (allExprs_invoke receiver method returns args).mp free
    cases other with
    | invoke receiver' method' returns' args' =>
      obtain ⟨receivers, methods, arguments, results, _⟩ := alike.content.values rfl (by simp)
      rw [expr_eq inside receivers, methods.str_eq, exprs_eq each arguments, type_eq results]
    | _ => simp [Expr.tag] at same
  | .invokeStatic owner method returns args, other, free, alike => by
    have same := tag_eq hasTag_expr alike
    obtain ⟨_, each⟩ := (allExprs_invokeStatic owner method returns args).mp free
    cases other with
    | invokeStatic owner' method' returns' args' =>
      obtain ⟨owners, methods, arguments, results, _⟩ := alike.content.values rfl (by simp)
      rw [type_eq owners, methods.str_eq, exprs_eq each arguments, type_eq results]
    | _ => simp [Expr.tag] at same
  | .create ty args, other, free, alike => by
    have same := tag_eq hasTag_expr alike
    obtain ⟨_, each⟩ := (allExprs_create ty args).mp free
    cases other with
    | create ty' args' =>
      obtain ⟨types, arguments, _⟩ := alike.content.values rfl (by simp)
      rw [type_eq types, exprs_eq each arguments]
    | _ => simp [Expr.tag] at same
  | .compare op lhs rhs, other, free, alike => by
    have same := tag_eq hasTag_expr alike
    obtain ⟨_, left, right⟩ := (allExprs_compare op lhs rhs).mp free
    cases other with
    | compare op' lhs' rhs' =>
      obtain ⟨ops, lefts, rights, _⟩ := alike.content.values rfl (by simp)
      rw [comparison_eq ops.str_eq, expr_eq left lefts, expr_eq right rights]
    | _ => simp [Expr.tag] at same
  | .arith op lhs rhs, other, free, alike => by
    have same := tag_eq hasTag_expr alike
    obtain ⟨_, left, right⟩ := (allExprs_arith op lhs rhs).mp free
    cases other with
    | arith op' lhs' rhs' =>
      obtain ⟨ops, lefts, rights, _⟩ := alike.content.values rfl (by simp)
      rw [arithmetic_eq ops.str_eq, expr_eq left lefts, expr_eq right rights]
    | _ => simp [Expr.tag] at same
  | .not operand, other, free, alike => by
    have same := tag_eq hasTag_expr alike
    obtain ⟨_, inside⟩ := (allExprs_not operand).mp free
    cases other with
    | not operand' => rw [expr_eq inside alike.content]
    | _ => simp [Expr.tag] at same

theorem exprs_eq : ∀ {args others : List Expr}, (∀ e ∈ args, AllExprs Plain e) →
    Alike (.arr (Expr.toJsons args)) (.arr (Expr.toJsons others)) → args = others
  | [], [], _, _ => rfl
  | [], _ :: _, _, alike => nomatch alike.length_eq
  | _ :: _, [], _, alike => nomatch alike.length_eq
  | e :: args, other :: others, free, alike => by
    obtain ⟨first, rest⟩ := List.forall_mem_cons.mp free
    rw [expr_eq first alike.head, exprs_eq rest alike.tail]

end

theorem exact_variable (v : Variable) : Exact v.toJson :=
  exact_cons (.str _) (exact_cons (exact_type v.ty) exact_nil)

mutual

theorem exact_expr : ∀ {e : Expr}, AllExprs Plain e → Exact e.toJson
  | .literal value, free => exact_tagged (exact_literal ((allExprs_literal value).mp free))
  | .this, _ => .str _
  | .localVar v, _ | .param v, _ => exact_tagged (exact_variable v)
  | .field receiver name ty, free => by
    obtain ⟨_, inside⟩ := (allExprs_field receiver name ty).mp free
    exact exact_tagged (exact_cons (exact_expr inside) (exact_cons (.str _) (exact_cons (exact_type ty) exact_nil)))
  | .staticField owner _ ty, _ =>
    exact_tagged (exact_cons (exact_type owner) (exact_cons (.str _) (exact_cons (exact_type ty) exact_nil)))
  | .invoke receiver method returns args, free => by
    obtain ⟨_, inside, each⟩ := (allExprs_invoke receiver method returns args).mp free
    exact exact_tagged (exact_cons (exact_expr inside) (exact_cons (.str _)
      (exact_cons (.arr (exact_exprs each)) (exact_cons (exact_type returns) exact_nil))))
  | .invokeStatic owner method returns args, free => by
    obtain ⟨_, each⟩ := (allExprs_invokeStatic owner method returns args).mp free
    exact exact_tagged (exact_cons (exact_type owner) (exact_cons (.str _)
      (exact_cons (.arr (exact_exprs each)) (exact_cons (exact_type returns) exact_nil))))
  | .create ty args, free => by
    obtain ⟨_, each⟩ := (allExprs_create ty args).mp free
    exact exact_tagged (exact_cons (exact_type ty) (exact_cons (.arr (exact_exprs each)) exact_nil))
  | .compare op lhs rhs, free => by
    obtain ⟨_, left, right⟩ := (allExprs_compare op lhs rhs).mp free
    exact exact_tagged (exact_cons (.str _) (exact_cons (exact_expr left) (exact_cons (exact_expr right) exact_nil)))
  | .arith op lhs rhs, free => by
    obtain ⟨_, left, right⟩ := (allExprs_arith op lhs rhs).mp free
    exact exact_tagged (exact_cons (.str _) (exact_cons (exact_expr left) (exact_cons (exact_expr right) exact_nil)))
  | .not operand, free => by
    obtain ⟨_, inside⟩ := (allExprs_not operand).mp free
    exact exact_tagged (exact_expr inside)

theorem exact_exprs : ∀ {args : List Expr}, (∀ e ∈ args, AllExprs Plain e) → ∀ item ∈ Expr.toJsons args, Exact item
  | [], _ => List.forall_mem_nil _
  | _ :: _, free => by
    obtain ⟨first, rest⟩ := List.forall_mem_cons.mp free
    exact List.forall_mem_cons.mpr ⟨exact_expr first, exact_exprs rest⟩

end

end Expressions

section Statements

theorem hasTag_stmt (s : Stmt) (tag : String) : HasTag s.toJson tag ↔ s.tag = tag := by
  cases s
  case ret value =>
    cases value
    all_goals exact hasTag_tagged
  all_goals exact hasTag_tagged

mutual

theorem stmt_eq : ∀ {s other : Stmt}, AllCode Plain s → Alike s.toJson other.toJson → s = other
  | .expr e, other, free, alike => by
    have same := tag_eq hasTag_stmt alike
    cases other with
    | expr e' => rw [expr_eq ((allCode_expr e).mp free) alike.content]
    | _ => simp [Stmt.tag] at same
  | .define v value, other, free, alike => by
    have same := tag_eq hasTag_stmt alike
    cases other with
    | define v' value' =>
      obtain ⟨locals, values, _⟩ := alike.content.values rfl (by simp)
      rw [variable_eq locals, expr_eq ((allCode_define v value).mp free) values]
    | _ => simp [Stmt.tag] at same
  | .assign v value, other, free, alike => by
    have same := tag_eq hasTag_stmt alike
    cases other with
    | assign v' value' =>
      obtain ⟨locals, values, _⟩ := alike.content.values rfl (by simp)
      rw [variable_eq locals, expr_eq ((allCode_assign v value).mp free) values]
    | _ => simp [Stmt.tag] at same
  | .assignField receiver name ty value, other, free, alike => by
    have same := tag_eq hasTag_stmt alike
    obtain ⟨inside, within⟩ := (allCode_assignField receiver name ty value).mp free
    cases other with
    | assignField receiver' name' ty' value' =>
      obtain ⟨receivers, names, types, given, _⟩ := alike.content.values rfl (by simp)
      rw [expr_eq inside receivers, names.str_eq, type_eq types, expr_eq within given]
    | _ => simp [Stmt.tag] at same
  | .ifThen condition body, other, free, alike => by
    have same := tag_eq hasTag_stmt alike
    obtain ⟨asked, inside⟩ := (allCode_ifThen condition body).mp free
    cases other with
    | ifThen condition' body' =>
      obtain ⟨conditions, bodies, _⟩ := alike.content.values rfl (by simp)
      rw [expr_eq asked conditions, stmt_eq inside bodies]
    | _ => simp [Stmt.tag] at same
  | .ifElse condition body otherwise, other, free, alike => by
    have same := tag_eq hasTag_stmt alike
    obtain ⟨asked, inside, beside⟩ := (allCode_ifElse condition body otherwise).mp free
    cases other with
    | ifElse condition' body' otherwise' =>
      obtain ⟨conditions, bodies, others, _⟩ := alike.content.values rfl (by simp)
      rw [expr_eq asked conditions, stmt_eq inside bodies, stmt_eq beside others]
    | _ => simp [Stmt.tag] at same
  | .whileLoop condition body, other, free, alike => by
    have same := tag_eq hasTag_stmt alike
    obtain ⟨asked, inside⟩ := (allCode_whileLoop condition body).mp free
    cases other with
    | whileLoop condition' body' =>
      obtain ⟨conditions, bodies, _⟩ := alike.content.values rfl (by simp)
      rw [expr_eq asked conditions, stmt_eq inside bodies]
    | _ => simp [Stmt.tag] at same
  | .ret value, other, free, alike => by
    have same := tag_eq hasTag_stmt alike
    cases other with
    | ret value' =>
      have results : Alike (ofOption Expr.toJson value) (ofOption Expr.toJson value') := by
        cases value <;> cases value' <;> exact alike.content
      rw [ofOption_eq (fun e => ⟨_, (hasTag_expr e _).mpr rfl⟩) ?_ results]
      rintro e rfl other alike
      exact expr_eq ((allCode_ret e).mp free) alike
    | _ => simp [Stmt.tag] at same
  | .raise e, other, free, alike => by
    have same := tag_eq hasTag_stmt alike
    cases other with
    | raise e' => rw [expr_eq ((allCode_raise e).mp free) alike.content]
    | _ => simp [Stmt.tag] at same
  | .block statements, other, free, alike => by
    have same := tag_eq hasTag_stmt alike
    cases other with
    | block statements' => rw [stmts_eq ((allCode_block statements).mp free) alike.content]
    | _ => simp [Stmt.tag] at same

theorem stmts_eq : ∀ {statements others : List Stmt}, (∀ s ∈ statements, AllCode Plain s) →
    Alike (.arr (Stmt.toJsons statements)) (.arr (Stmt.toJsons others)) → statements = others
  | [], [], _, _ => rfl
  | [], _ :: _, _, alike => nomatch alike.length_eq
  | _ :: _, [], _, alike => nomatch alike.length_eq
  | s :: statements, other :: others, free, alike => by
    obtain ⟨first, rest⟩ := List.forall_mem_cons.mp free
    rw [stmt_eq first alike.head, stmts_eq rest alike.tail]

end

mutual

theorem exact_stmt : ∀ {s : Stmt}, AllCode Plain s → Exact s.toJson
  | .expr e, free => exact_tagged (exact_expr ((allCode_expr e).mp free))
  | .define v value, free =>
    exact_tagged (exact_cons (exact_variable v) (exact_cons (exact_expr ((allCode_define v value).mp free)) exact_nil))
  | .assign v value, free =>
    exact_tagged (exact_cons (exact_variable v) (exact_cons (exact_expr ((allCode_assign v value).mp free)) exact_nil))
  | .assignField receiver name ty value, free => by
    obtain ⟨inside, within⟩ := (allCode_assignField receiver name ty value).mp free
    exact exact_tagged (exact_cons (exact_expr inside) (exact_cons (.str _)
      (exact_cons (exact_type ty) (exact_cons (exact_expr within) exact_nil))))
  | .ifThen condition body, free => by
    obtain ⟨asked, inside⟩ := (allCode_ifThen condition body).mp free
    exact exact_tagged (exact_cons (exact_expr asked) (exact_cons (exact_stmt inside) exact_nil))
  | .ifElse condition body otherwise, free => by
    obtain ⟨asked, inside, beside⟩ := (allCode_ifElse condition body otherwise).mp free
    exact exact_tagged (exact_cons (exact_expr asked)
      (exact_cons (exact_stmt inside) (exact_cons (exact_stmt beside) exact_nil)))
  | .whileLoop condition body, free => by
    obtain ⟨asked, inside⟩ := (allCode_whileLoop condition body).mp free
    exact exact_tagged (exact_cons (exact_expr asked) (exact_cons (exact_stmt inside) exact_nil))
  | .ret none, _ => exact_tagged .null
  | .ret (some e), free => exact_tagged (exact_expr ((allCode_ret e).mp free))
  | .raise e, free => exact_tagged (exact_expr ((allCode_raise e).mp free))
  | .block statements, free => exact_tagged (.arr (exact_stmts ((allCode_block statements).mp free)))

theorem exact_stmts : ∀ {statements : List Stmt}, (∀ s ∈ statements, AllCode Plain s) →
    ∀ item ∈ Stmt.toJsons statements, Exact item
  | [], _ => List.forall_mem_nil _
  | _ :: _, free => by
    obtain ⟨first, rest⟩ := List.forall_mem_cons.mp free
    exact List.forall_mem_cons.mpr ⟨exact_stmt first, exact_stmts rest⟩

end

end Statements

end PluginForge.Proofs.CodeEncoding
