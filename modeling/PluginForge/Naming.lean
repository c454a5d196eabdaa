import PluginForge.Text.Casing

/-! Names of beans, their accessors and the parts of qualified names. -/

namespace PluginForge.Naming

def capitalize (name : String) : String :=
  match name.toList with
  | [] => ""
  | c :: rest => String.ofList (Text.upper c ++ rest)

def decapitalize (name : String) : String :=
  match name.toList with
  | [] => ""
  | c :: rest => String.ofList (Text.lower c ++ rest)

def getter (property : String) : String := "get" ++ capitalize property

def setter (property : String) : String := "set" ++ capitalize property

/-- Every upper-case letter becomes a dot and its lower case. -/
def dotUppers : List Char → List Char
  | [] => []
  | c :: rest => if Text.isUpper c then '.' :: Text.lower c ++ dotUppers rest else c :: dotUppers rest

/-- A camel-case name as a dotted key: `outputDirectory` becomes `output.directory`. No dot is put before
the first letter. -/
def dotted (name : String) : String :=
  match name.toList with
  | [] => ""
  | c :: rest => String.ofList ((if Text.isUpper c then Text.lower c else [c]) ++ dotUppers rest)

/-- What follows the last separator, or everything where there is none. -/
def afterLast (separator : Char) (cs : List Char) : List Char :=
  (cs.reverse.takeWhile (· != separator)).reverse

/-- What precedes the last separator, or nothing where there is none. -/
def beforeLast (separator : Char) (cs : List Char) : List Char :=
  ((cs.reverse.dropWhile (· != separator)).drop 1).reverse

/-- The name of a nested type without those of the types around it: `Outer$Inner` becomes `Inner`. -/
def stripEnclosing (simple : String) : String := String.ofList (afterLast '$' simple.toList)

/-- The last segment of a qualified name. -/
def simpleName (qualified : String) : String := String.ofList (afterLast '.' qualified.toList)

/-- All but the last segment of a qualified name. -/
def packageName (qualified : String) : String := String.ofList (beforeLast '.' qualified.toList)

theorem afterLast_of_not_mem {separator : Char} {cs : List Char} (absent : separator ∉ cs) :
    afterLast separator cs = cs := by
  have keep : ∀ {rest : List Char}, separator ∉ rest → rest.takeWhile (· != separator) = rest := by
    intro rest
    induction rest with
    | nil => simp
    | cons c rest ih =>
      intro outside
      rw [List.mem_cons, not_or] at outside
      simp [Ne.symm outside.1, ih outside.2]
  rw [afterLast, keep (by simpa using absent), List.reverse_reverse]

theorem not_mem_afterLast (separator : Char) (cs : List Char) : separator ∉ afterLast separator cs := by
  rw [afterLast, List.mem_reverse]
  induction cs.reverse with
  | nil => simp
  | cons c rest ih =>
    rw [List.takeWhile_cons]
    split
    next other => simpa [List.mem_cons, Ne.symm (bne_iff_ne.1 other)] using ih
    next => simp

end PluginForge.Naming
