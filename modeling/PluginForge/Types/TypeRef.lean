import PluginForge.Naming
import PluginForge.Types.Primitive

/-! Types as generated code refers to them. -/

namespace PluginForge

inductive ObjectKind where
  | «class» | interface | enum
  deriving DecidableEq, Repr

/-- A class is named in full, or by its simple name from inside the type around it. A generated type is
defined in the same generation pass; `this` is the type being defined. -/
inductive TypeRef where
  | void
  | primitive (p : Primitive)
  | class (name : String)
  | parameterized (raw : String) (args : List TypeRef)
  | wildcardSuper (bound : TypeRef)
  | wildcardExtends (bound : TypeRef)
  | array (element : TypeRef)
  | generated (name : String) (kind : ObjectKind)
  | this
  deriving Repr, Inhabited

namespace TypeRef

def string : TypeRef := .class "java.lang.String"

def object : TypeRef := .class "java.lang.Object"

/-- The type of class literals. -/
def classLiteral : TypeRef := .class "java.lang.Class"

def file : TypeRef := .class "java.io.File"

def boolean : TypeRef := .primitive .boolean

/-- The name of the raw type. Void, primitives, arrays, wildcards and `this` have none. -/
def name? : TypeRef → Option String
  | .class name | .generated name _ => some name
  | .parameterized raw _ => some raw
  | _ => none

def simpleName? (ty : TypeRef) : Option String := ty.name?.map Naming.simpleName

def args : TypeRef → List TypeRef
  | .parameterized _ args => args
  | _ => []

def isVoid : TypeRef → Bool
  | .void => true
  | _ => false

def isGeneratedEnum : TypeRef → Bool
  | .generated _ .enum => true
  | _ => false

/-- A primitive as its wrapper class; any other type as it is. -/
def boxed : TypeRef → TypeRef
  | .primitive p => .class p.wrapper
  | ty => ty

mutual

def display : TypeRef → String
  | .void => "void"
  | .primitive p => p.keyword
  | .class name | .generated name _ => name
  | .parameterized raw args => raw ++ "<" ++ displayArgs args ++ ">"
  | .wildcardSuper bound => "? super " ++ bound.display
  | .wildcardExtends bound => "? extends " ++ bound.display
  | .array element => element.display ++ "[]"
  | .this => "this"

def displayArgs : List TypeRef → String
  | [] => ""
  | [arg] => arg.display
  | arg :: rest => arg.display ++ ", " ++ displayArgs rest

end

end TypeRef

end PluginForge
