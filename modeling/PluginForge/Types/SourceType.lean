import PluginForge.Types.TypeRef

/-! Types as descriptors write them: a raw name with type arguments and array brackets, or a wildcard. -/

namespace PluginForge

inductive SourceType where
  | named (name : String) (args : List SourceType) (dimensions : Nat)
  | anything
  | extending (bound : SourceType)
  | above (bound : SourceType)
  deriving Repr, Inhabited

inductive CollectionKind where
  | list | set
  deriving DecidableEq, Repr

namespace CollectionKind

def ofName? (raw : String) : Option CollectionKind :=
  if raw ∈ ["java.util.List", "java.util.ArrayList", "java.util.LinkedList", "java.util.Collection"] then
    some .list
  else if raw ∈ ["java.util.Set", "java.util.HashSet", "java.util.LinkedHashSet", "java.util.SortedSet",
      "java.util.TreeSet"] then
    some .set
  else none

/-- The class that generated code fills when it builds such a collection. -/
def implementation : CollectionKind → String
  | .list => "java.util.ArrayList"
  | .set => "java.util.HashSet"

end CollectionKind

namespace SourceType

def wildcardName : String := "?"

/-- The type with just this name. -/
def ofName (name : String) : SourceType :=
  if name = wildcardName then .anything else .named name [] 0

def void : SourceType := .named "void" [] 0

/-- The raw name; all wildcards share one. -/
def name : SourceType → String
  | .named name _ _ => name
  | _ => wildcardName

/-- The type arguments; a wildcard's bound is its only one. -/
def args : SourceType → List SourceType
  | .named _ args _ => args
  | .anything => []
  | .extending bound | .above bound => [bound]

def dimensions : SourceType → Nat
  | .named _ _ dimensions => dimensions
  | _ => 0

def isArray (ty : SourceType) : Bool := 0 < ty.dimensions

def isWildcard (ty : SourceType) : Bool := ty.name == wildcardName

/-- Whether the type is a wildcard with a lower bound. -/
def isLowerBound : SourceType → Bool
  | .above _ => true
  | _ => false

def isVoid (ty : SourceType) : Bool := ty.name == "void"

def primitive? (ty : SourceType) : Option Primitive :=
  if ty.isArray then none else Primitive.ofKeyword? ty.name

def isFile (ty : SourceType) : Bool := !ty.isArray && ty.name == "java.io.File"

def isString (ty : SourceType) : Bool := !ty.isArray && ty.name == "java.lang.String"

def mapNames : List String :=
  ["java.util.Map", "java.util.HashMap", "java.util.LinkedHashMap", "java.util.SortedMap", "java.util.TreeMap"]

def isMap (ty : SourceType) : Bool := !ty.isArray && mapNames.contains ty.name

def collectionKind? (ty : SourceType) : Option CollectionKind :=
  if ty.isArray then none else CollectionKind.ofName? ty.name

/-- The last segment of the name, with the names of enclosing types: `Outer$Inner`. -/
def simpleName (ty : SourceType) : String := Naming.simpleName ty.name

def packageName (ty : SourceType) : String := Naming.packageName ty.name

mutual

def display : SourceType → String
  | .named name args dimensions =>
    name ++ displayArgs args ++ String.join (List.replicate dimensions "[]")
  | .anything => "?"
  | .extending bound => "? extends " ++ bound.display
  | .above bound => "? super " ++ bound.display

/-- The arguments in angle brackets, or nothing where there are none. -/
def displayArgs : List SourceType → String
  | [] => ""
  | arg :: rest => "<" ++ arg.display ++ displayMore rest ++ ">"

def displayMore : List SourceType → String
  | [] => ""
  | arg :: rest => ", " ++ arg.display ++ displayMore rest

end

def arrayOf (element : TypeRef) : Nat → TypeRef
  | 0 => element
  | dimensions + 1 => .array (arrayOf element dimensions)

mutual

/-- The type as generated code refers to it. Void and primitives lose their arguments, and a wildcard
without a bound extends `Object`. -/
def toTypeRef : SourceType → TypeRef
  | .named name args dimensions =>
    let element : TypeRef :=
      if name = "void" then .void
      else match Primitive.ofKeyword? name with
        | some p => .primitive p
        | none => if args.isEmpty then .class name else .parameterized name (toTypeRefs args)
    arrayOf element dimensions
  | .anything => .wildcardExtends .object
  | .extending bound => .wildcardExtends bound.toTypeRef
  | .above bound => .wildcardSuper bound.toTypeRef

def toTypeRefs : List SourceType → List TypeRef
  | [] => []
  | arg :: rest => arg.toTypeRef :: toTypeRefs rest

end

end SourceType

end PluginForge
