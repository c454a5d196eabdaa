import PluginForge.Json.Basic

/-!
JSON as text. The compact form has no blanks; the indented form puts every item and pair on a line of
its own, two spaces deeper than what holds it.
-/

namespace PluginForge.Json

def hexDigit (n : Nat) : Char := Char.ofNat (if n < 10 then 48 + n else 87 + n)

/-- A character inside a string literal: quotes, backslashes and control characters are escaped. -/
def escapeChar (c : Char) : List Char :=
  if c = '"' then ['\\', '"']
  else if c = '\\' then ['\\', '\\']
  else if c.toNat = 8 then ['\\', 'b']
  else if c.toNat = 9 then ['\\', 't']
  else if c.toNat = 10 then ['\\', 'n']
  else if c.toNat = 12 then ['\\', 'f']
  else if c.toNat = 13 then ['\\', 'r']
  else if c.toNat < 32 then ['\\', 'u', '0', '0', hexDigit (c.toNat / 16), hexDigit (c.toNat % 16)]
  else [c]

def quote (text : String) : String :=
  String.ofList ('"' :: (text.toList.flatMap escapeChar ++ ['"']))

/-- A value without inner structure; containers have their own layout. -/
def leaf : Json → String
  | .bool true => "true"
  | .bool false => "false"
  | .int value => toString value
  | .decimal spelling => spelling
  | .str text => quote text
  | _ => "null"

mutual

def compact : Json → String
  | .arr items => "[" ++ compactItems items ++ "]"
  | .obj pairs => "\x7b" ++ compactPairs pairs ++ "\x7d"
  | value => leaf value

def compactItems : List Json → String
  | [] => ""
  | [item] => item.compact
  | item :: rest => item.compact ++ "," ++ compactItems rest

def compactPairs : List (String × Json) → String
  | [] => ""
  | [(key, value)] => quote key ++ ":" ++ value.compact
  | (key, value) :: rest => quote key ++ ":" ++ value.compact ++ "," ++ compactPairs rest

end

def lineBreak (depth : Nat) : String := "\n" ++ String.ofList (List.replicate (2 * depth) ' ')

mutual

/-- The indented form of a value that starts `depth` levels deep. -/
def indented (depth : Nat) : Json → String
  | .arr [] => "[]"
  | .arr (item :: rest) =>
    "[" ++ lineBreak (depth + 1) ++ item.indented (depth + 1) ++ indentedItems (depth + 1) rest
      ++ lineBreak depth ++ "]"
  | .obj [] => "\x7b\x7d"
  | .obj ((key, value) :: rest) =>
    "\x7b" ++ lineBreak (depth + 1) ++ quote key ++ ": " ++ value.indented (depth + 1)
      ++ indentedPairs (depth + 1) rest ++ lineBreak depth ++ "\x7d"
  | value => leaf value

/-- The items after the first. -/
def indentedItems (depth : Nat) : List Json → String
  | [] => ""
  | item :: rest => "," ++ lineBreak depth ++ item.indented depth ++ indentedItems depth rest

/-- The pairs after the first. -/
def indentedPairs (depth : Nat) : List (String × Json) → String
  | [] => ""
  | (key, value) :: rest =>
    "," ++ lineBreak depth ++ quote key ++ ": " ++ value.indented depth ++ indentedPairs depth rest

end

def pretty (value : Json) : String := value.indented 0

end PluginForge.Json
