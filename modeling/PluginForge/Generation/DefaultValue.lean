import PluginForge.Decimal.Binary
import PluginForge.Generation.Error
import PluginForge.Generation.Parameter
import PluginForge.Text.Blank

/-! Default values: the text in a parameter's mark as an expression of the parameter's type. -/

namespace PluginForge

/-- An optional sign and at least one digit. -/
def parseInt? (text : String) : Option Int :=
  let magnitude? (cs : List Char) : Option Int :=
    if cs.isEmpty || !cs.all Char.isDigit then none else some (Decimal.ofDigits cs)
  match text.toList with
  | '-' :: cs => (magnitude? cs).map (-·)
  | '+' :: cs => magnitude? cs
  | cs => magnitude? cs

/-- A number in the range of two's complement words of the given width. -/
def parseWord? (bits : Nat) (text : String) : Option Int :=
  (parseInt? text).filter fun n => -(twoTo (bits - 1) : Int) ≤ n && n < twoTo (bits - 1)

/-- The constant of a primitive type that a text denotes. Blanks around it count only for a character,
which has to be the whole text. -/
def Literal.ofText? (p : Primitive) (text : String) : Option Literal :=
  let trimmed := Text.trim text
  match p with
  | .boolean =>
    if trimmed = "true" then some (.boolean true)
    else if trimmed = "false" then some (.boolean false)
    else none
  | .byte => (parseWord? 8 trimmed).map fun n => .byte (.ofInt n)
  | .short => (parseWord? 16 trimmed).map fun n => .short (.ofInt n)
  | .char =>
    match text.toList with
    | [c] => some (.char c)
    | _ => none
  | .int => (parseWord? 32 trimmed).map fun n => .int (.ofInt n)
  | .long => (parseWord? 64 trimmed).map fun n => .long (.ofInt n)
  | .float => (binary32.ofText? trimmed).map fun bits => .float (.ofNat bits)
  | .double => (binary64.ofText? trimmed).map fun bits => .double (.ofNat bits)

namespace Parameter

private def constant (owner : String) (p : Parameter) (primitive : Primitive) (value : String) :
    Except GenerateError Expr :=
  match Literal.ofText? primitive value with
  | some literal => .ok (.literal literal)
  | none => .error (.invalidDefault owner p.name value primitive.keyword)

/-- The declared default as an expression; none counts as the empty text. Strings, primitives and their
wrappers become constants, an enum's copy a reference to one of its constants, and no other type can
have a default. -/
def defaultExpr (owner : String) (p : Parameter) : Except GenerateError Expr :=
  let value := p.defaultValue.getD ""
  let unsupported : GenerateError := .unsupportedDefault owner p.name p.ty.display
  match p.ty with
  | .primitive primitive => p.constant owner primitive value
  | .class name =>
    if name = "java.lang.String" then .ok (.string value)
    else match Primitive.ofWrapper? name with
      | some primitive => p.constant owner primitive value
      | none => .error unsupported
  | .generated name .enum =>
    .ok (.staticField (.generated name .enum) (Text.trim value) (.generated name .enum))
  | _ => .error unsupported

private theorem ofText?_ne_null {primitive : Primitive} {text : String} {literal : Literal}
    (denotes : Literal.ofText? primitive text = some literal) : literal ≠ .null := by
  intro same
  subst same
  cases primitive with
  | boolean =>
    simp only [Literal.ofText?] at denotes
    split at denotes
    · cases denotes
    · split at denotes <;> cases denotes
  | char =>
    simp only [Literal.ofText?] at denotes
    split at denotes <;> cases denotes
  | byte | short | int | long | float | double => simp [Literal.ofText?] at denotes

private theorem constant_literal {owner : String} {p : Parameter} {primitive : Primitive} {value : String} {e : Expr}
    (made : p.constant owner primitive value = .ok e) : ∃ literal, literal ≠ .null ∧ e = .literal literal := by
  unfold constant at made
  split at made
  next literal denotes =>
    cases made
    exact ⟨literal, ofText?_ne_null denotes, rfl⟩
  next => cases made

/-- A default is a constant other than null, or a constant of the enum's copy. -/
theorem defaultExpr_forms {owner : String} {p : Parameter} {e : Expr} (made : p.defaultExpr owner = .ok e) :
    (∃ literal, literal ≠ .null ∧ e = .literal literal) ∨
      ∃ name, p.ty = .generated name .enum ∧
        e = .staticField (.generated name .enum) (Text.trim (p.defaultValue.getD "")) (.generated name .enum) := by
  unfold defaultExpr at made
  dsimp only at made
  split at made
  next => exact .inl (constant_literal made)
  next =>
    split at made
    next =>
      cases made
      exact .inl ⟨.string _, Literal.noConfusion, rfl⟩
    next =>
      split at made
      next => exact .inl (constant_literal made)
      next => cases made
  next name isEnum =>
    cases made
    exact .inr ⟨name, isEnum, rfl⟩
  next => cases made

private theorem constant_error {owner : String} {p : Parameter} {primitive : Primitive} {value : String}
    {e : GenerateError} (stops : p.constant owner primitive value = .error e) :
    e = .invalidDefault owner p.name value primitive.keyword := by
  unfold constant at stops
  split at stops
  next => cases stops
  next => exact (Except.error.inj stops).symm

/-- There is no default because the text denotes none of the type's values, or because no text could. -/
theorem defaultExpr_error {owner : String} {p : Parameter} {e : GenerateError}
    (stops : p.defaultExpr owner = .error e) :
    (∃ primitive : Primitive, e = .invalidDefault owner p.name (p.defaultValue.getD "") primitive.keyword) ∨
      e = .unsupportedDefault owner p.name p.ty.display := by
  unfold defaultExpr at stops
  dsimp only at stops
  split at stops
  next => exact .inl ⟨_, constant_error stops⟩
  next =>
    split at stops
    next => cases stops
    next =>
      split at stops
      next => exact .inl ⟨_, constant_error stops⟩
      next => exact .inr (Except.error.inj stops).symm
  next => cases stops
  next => exact .inr (Except.error.inj stops).symm

end Parameter

end PluginForge
