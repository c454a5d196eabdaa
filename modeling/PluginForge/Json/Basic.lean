/-! JSON values. An object keeps its pairs as written, in order and with repeated keys. -/

namespace PluginForge

inductive Json where
  | null
  | bool (value : Bool)
  | int (value : Int)
  /-- A number with a fraction or an exponent, as it is spelled. -/
  | decimal (spelling : String)
  | str (text : String)
  /-- A string, or an object with a key, that names half of a surrogate pair and so stands for no text. -/
  | unpaired
  | arr (items : List Json)
  | obj (pairs : List (String × Json))
  deriving Repr, Inhabited

namespace Json

def ofOption {α : Type} (encode : α → Json) : Option α → Json
  | none => .null
  | some value => encode value

def ofList {α : Type} (encode : α → Json) (items : List α) : Json := .arr (items.map encode)

/-- The value of the last pair with the key. -/
def find? (key : String) : Json → Option Json
  | .obj pairs => pairs.reverse.lookup key
  | _ => none

end Json

end PluginForge
