import PluginForge.Code.Object
import PluginForge.Decimal.Shortest
import PluginForge.Json.Basic

/-!
Definitions as JSON. A choice among forms is an object whose one key names the form, or just that name
where nothing is to be added; the kind of an object definition stands among its other fields, first.
-/

namespace PluginForge

open Json (ofOption ofList)

def tagged (tag : String) (content : Json) : Json := .obj [(tag, content)]

def Primitive.toJson (p : Primitive) : Json := .str p.keyword

def ObjectKind.word : ObjectKind → String
  | .class => "class"
  | .interface => "interface"
  | .enum => "enum"

def Modifier.word : Modifier → String
  | .pub => "public"
  | .prot => "protected"
  | .priv => "private"
  | .abstract => "abstract"
  | .static => "static"
  | .final => "final"

def Comparison.word : Comparison → String
  | .equal => "equal"
  | .notEqual => "not_equal"
  | .lessThan => "less_than"
  | .lessThanOrEqual => "less_than_or_equal"
  | .greaterThan => "greater_than"
  | .greaterThanOrEqual => "greater_than_or_equal"

def Arithmetic.word : Arithmetic → String
  | .add => "add"
  | .subtract => "subtract"
  | .multiply => "multiply"
  | .divide => "divide"

namespace TypeRef

mutual

def toJson : TypeRef → Json
  | .void => .str "void"
  | .primitive p => tagged "primitive" p.toJson
  | .class name => tagged "class" (.str name)
  | .parameterized raw args => tagged "parameterized" (.obj [("raw", .str raw), ("args", .arr (toJsons args))])
  | .wildcardSuper bound => tagged "wildcard_super" bound.toJson
  | .wildcardExtends bound => tagged "wildcard_extends" bound.toJson
  | .array element => tagged "array" element.toJson
  | .generated name kind => tagged "generated" (.obj [("name", .str name), ("kind", .str kind.word)])
  | .this => .str "this"

def toJsons : List TypeRef → List Json
  | [] => []
  | ty :: rest => ty.toJson :: toJsons rest

end

end TypeRef

namespace Literal

/-- Powers of ten of the leading digit that are written out, for each of the two formats. -/
def floatLayout : Decimal.Layout := ⟨-6, 12⟩

def doubleLayout : Decimal.Layout := ⟨-5, 15⟩

/-- A floating-point number with the fewest digits that read back; null if it is not finite. -/
private def number (f : BinaryFormat) (layout : Decimal.Layout) (bits : Nat) : Json :=
  if f.isFinite bits then .decimal ((f.shortest bits).format layout) else .null

def toJson : Literal → Json
  | .null => .str "null"
  | .boolean value => tagged "boolean" (.bool value)
  | .byte value => tagged "byte" (.int value.toInt)
  | .short value => tagged "short" (.int value.toInt)
  | .char value => tagged "char" (.str value.toString)
  | .int value => tagged "int" (.int value.toInt)
  | .long value => tagged "long" (.int value.toInt)
  | .float bits => tagged "float" (number binary32 floatLayout bits.toNat)
  | .double bits => tagged "double" (number binary64 doubleLayout bits.toNat)
  | .string value => tagged "string" (.str value)

end Literal

def Variable.toJson (v : Variable) : Json := .obj [("name", .str v.name), ("ty", v.ty.toJson)]

namespace Expr

/-- The name of the form of an expression. -/
def tag : Expr → String
  | .literal _ => "literal"
  | .this => "this"
  | .localVar _ => "local"
  | .param _ => "param"
  | .field _ _ _ => "field"
  | .staticField _ _ _ => "static_field"
  | .invoke _ _ _ _ => "invoke"
  | .invokeStatic _ _ _ _ => "invoke_static"
  | .create _ _ => "new"
  | .compare _ _ _ => "compare"
  | .arith _ _ _ => "math"
  | .not _ => "not"

mutual

def toJson : Expr → Json
  | .literal value => tagged "literal" value.toJson
  | .this => .str "this"
  | .localVar v => tagged "local" v.toJson
  | .param v => tagged "param" v.toJson
  | .field receiver name ty =>
    tagged "field" (.obj [("receiver", receiver.toJson), ("name", .str name), ("ty", ty.toJson)])
  | .staticField owner name ty =>
    tagged "static_field" (.obj [("owner", owner.toJson), ("name", .str name), ("ty", ty.toJson)])
  | .invoke receiver method returns args =>
    tagged "invoke" (.obj [("receiver", receiver.toJson), ("method", .str method), ("args", .arr (toJsons args)),
      ("returns", returns.toJson)])
  | .invokeStatic owner method returns args =>
    tagged "invoke_static" (.obj [("owner", owner.toJson), ("method", .str method), ("args", .arr (toJsons args)),
      ("returns", returns.toJson)])
  | .create ty args => tagged "new" (.obj [("ty", ty.toJson), ("args", .arr (toJsons args))])
  | .compare op lhs rhs =>
    tagged "compare" (.obj [("op", .str op.word), ("lhs", lhs.toJson), ("rhs", rhs.toJson)])
  | .arith op lhs rhs =>
    tagged "math" (.obj [("op", .str op.word), ("lhs", lhs.toJson), ("rhs", rhs.toJson)])
  | .not operand => tagged "not" operand.toJson

def toJsons : List Expr → List Json
  | [] => []
  | e :: rest => e.toJson :: toJsons rest

end

end Expr

namespace Stmt

/-- The name of the form of a statement. -/
def tag : Stmt → String
  | .expr _ => "expr"
  | .define _ _ => "define_local"
  | .assign _ _ => "assign_local"
  | .assignField _ _ _ _ => "assign_field"
  | .ifThen _ _ => "if"
  | .ifElse _ _ _ => "if_else"
  | .whileLoop _ _ => "while"
  | .ret _ => "return"
  | .raise _ => "throw"
  | .block _ => "block"

mutual

def toJson : Stmt → Json
  | .expr e => tagged "expr" e.toJson
  | .define v value => tagged "define_local" (.obj [("local", v.toJson), ("init", value.toJson)])
  | .assign v value => tagged "assign_local" (.obj [("local", v.toJson), ("value", value.toJson)])
  | .assignField receiver name ty value =>
    tagged "assign_field" (.obj [("receiver", receiver.toJson), ("name", .str name), ("ty", ty.toJson),
      ("value", value.toJson)])
  | .ifThen condition body => tagged "if" (.obj [("cond", condition.toJson), ("then", body.toJson)])
  | .ifElse condition body otherwise =>
    tagged "if_else" (.obj [("cond", condition.toJson), ("then", body.toJson), ("otherwise", otherwise.toJson)])
  | .whileLoop condition body => tagged "while" (.obj [("cond", condition.toJson), ("body", body.toJson)])
  | .ret none => tagged "return" .null
  | .ret (some value) => tagged "return" value.toJson
  | .raise e => tagged "throw" e.toJson
  | .block statements => tagged "block" (.arr (toJsons statements))

def toJsons : List Stmt → List Json
  | [] => []
  | s :: rest => s.toJson :: toJsons rest

end

end Stmt

def modifiersToJson (modifiers : List Modifier) : Json := ofList (fun m => .str m.word) modifiers

def docToJson (doc : Option String) : Json := ofOption .str doc

def Annotation.toJson (a : Annotation) : Json :=
  .obj [("ty", a.ty.toJson),
    ("members", ofList (fun member => .arr [.str member.1, member.2.toJson]) a.members)]

def annotationsToJson (annotations : List Annotation) : Json := ofList Annotation.toJson annotations

def FieldDef.toJson (f : FieldDef) : Json :=
  .obj [("name", .str f.name), ("ty", f.ty.toJson), ("modifiers", modifiersToJson f.modifiers),
    ("annotations", annotationsToJson f.annotations), ("javadoc", docToJson f.javadoc),
    ("initializer", ofOption Expr.toJson f.initializer)]

def PropertyDef.toJson (p : PropertyDef) : Json :=
  .obj [("name", .str p.name), ("ty", p.ty.toJson), ("modifiers", modifiersToJson p.modifiers),
    ("annotations", annotationsToJson p.annotations), ("javadoc", docToJson p.javadoc)]

def MethodDef.toJson (m : MethodDef) : Json :=
  .obj [("name", .str m.name), ("modifiers", modifiersToJson m.modifiers),
    ("annotations", annotationsToJson m.annotations), ("javadoc", docToJson m.javadoc),
    ("parameters", ofList Variable.toJson m.parameters), ("returns", m.returns.toJson),
    ("overrides", .bool m.overrides), ("body", ofOption Stmt.toJson m.body)]

namespace ObjectDef

mutual

def toJson : ObjectDef → Json
  | .class c inner =>
    .obj [("kind", .str "class"), ("name", .str c.name), ("modifiers", modifiersToJson c.modifiers),
      ("annotations", annotationsToJson c.annotations), ("javadoc", docToJson c.javadoc),
      ("superclass", ofOption TypeRef.toJson c.superclass),
      ("superinterfaces", ofList TypeRef.toJson c.superinterfaces),
      ("fields", ofList FieldDef.toJson c.fields), ("properties", ofList PropertyDef.toJson c.properties),
      ("methods", ofList MethodDef.toJson c.methods), ("inner", .arr (toJsons inner))]
  | .interface i inner =>
    .obj [("kind", .str "interface"), ("name", .str i.name), ("modifiers", modifiersToJson i.modifiers),
      ("annotations", annotationsToJson i.annotations), ("javadoc", docToJson i.javadoc),
      ("superinterfaces", ofList TypeRef.toJson i.superinterfaces),
      ("properties", ofList PropertyDef.toJson i.properties), ("methods", ofList MethodDef.toJson i.methods),
      ("inner", .arr (toJsons inner))]
  | .enum e inner =>
    .obj [("kind", .str "enum"), ("name", .str e.name), ("modifiers", modifiersToJson e.modifiers),
      ("javadoc", docToJson e.javadoc), ("superinterfaces", ofList TypeRef.toJson e.superinterfaces),
      ("constants", ofList .str e.constants), ("fields", ofList FieldDef.toJson e.fields),
      ("methods", ofList MethodDef.toJson e.methods), ("inner", .arr (toJsons inner))]

def toJsons : List ObjectDef → List Json
  | [] => []
  | o :: rest => o.toJson :: toJsons rest

end

end ObjectDef

end PluginForge
