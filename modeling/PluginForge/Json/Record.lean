import PluginForge.Json.Basic

/-!
Records in JSON. A known field is written at most once, and fields that are not known are passed over. An
array stands for the record whose first fields, in their order, have its items as values.
-/

namespace PluginForge.Json

/-- The pairs of a record with the given fields. -/
def record? (fields : List String) : Json → Option (List (String × Json))
  | .obj pairs => if fields.all fun field => pairs.countP (·.1 == field) ≤ 1 then some pairs else none
  | .arr items => if items.length ≤ fields.length then some (fields.zip items) else none
  | _ => none

def required {α : Type} (pairs : List (String × Json)) (field : String) (decode : Json → Option α) : Option α :=
  pairs.lookup field >>= decode

/-- A field that has a value of its own when it is not written. -/
def defaulted {α : Type} (pairs : List (String × Json)) (field : String) (absent : α)
    (decode : Json → Option α) : Option α :=
  match pairs.lookup field with
  | none => some absent
  | some value => decode value

/-- A field that may be left out or null. -/
def optional {α : Type} (pairs : List (String × Json)) (field : String) (decode : Json → Option α) :
    Option (Option α) :=
  match pairs.lookup field with
  | none | some .null => some none
  | some value => (decode value).map some

def toText? : Json → Option String
  | .str text => some text
  | _ => none

def toBool? : Json → Option Bool
  | .bool value => some value
  | _ => none

def toItems? : Json → Option (List Json)
  | .arr items => some items
  | _ => none

def listOf? {α : Type} (decode : Json → Option α) (value : Json) : Option (List α) := do
  (← value.toItems?).mapM decode

end PluginForge.Json
