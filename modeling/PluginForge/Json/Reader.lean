import PluginForge.Decimal.Basic
import PluginForge.Json.Basic

/-!
Reading JSON text. Nothing beyond the standard is accepted: no comments, no commas before a closing
bracket, no leading zeros, no bare control characters in strings.
-/

namespace PluginForge.Json

def isBlank (c : Char) : Bool := c = ' ' || c = '\t' || c = '\n' || c = '\r'

def skipBlanks (cs : List Char) : List Char := cs.dropWhile isBlank

def hexValue? (c : Char) : Option Nat :=
  if '0' ≤ c ∧ c ≤ '9' then some (c.toNat - 48)
  else if 'a' ≤ c ∧ c ≤ 'f' then some (c.toNat - 87)
  else if 'A' ≤ c ∧ c ≤ 'F' then some (c.toNat - 55)
  else none

def unit? (a b c d : Char) : Option Nat := do
  return (← hexValue? a) * 4096 + (← hexValue? b) * 256 + (← hexValue? c) * 16 + (← hexValue? d)

def simpleEscape? (c : Char) : Option Nat :=
  match c with
  | '"' => some 34
  | '\\' => some 92
  | '/' => some 47
  | 'b' => some 8
  | 'f' => some 12
  | 'n' => some 10
  | 'r' => some 13
  | 't' => some 9
  | _ => none

/-- The rest of a string literal: the code of each character and the unit of each escape. -/
def stringUnits : List Char → Option (List Nat × List Char)
  | [] => none
  | '"' :: rest => some ([], rest)
  | '\\' :: 'u' :: a :: b :: c :: d :: rest => do
    let unit ← unit? a b c d
    let (units, rest) ← stringUnits rest
    return (unit :: units, rest)
  | '\\' :: c :: rest => do
    let unit ← simpleEscape? c
    let (units, rest) ← stringUnits rest
    return (unit :: units, rest)
  | c :: rest =>
    if c.toNat < 32 ∨ c = '\\' then none
    else do
      let (units, rest) ← stringUnits rest
      return (c.toNat :: units, rest)

def isHigh (unit : Nat) : Bool := 0xD800 ≤ unit && unit < 0xDC00

def isLow (unit : Nat) : Bool := 0xDC00 ≤ unit && unit < 0xE000

/-- The characters of a string literal, unless half of a surrogate pair stands alone. -/
def pairUnits : List Nat → Option (List Char)
  | [] => some []
  | [unit] => if isHigh unit || isLow unit then none else some [Char.ofNat unit]
  | unit :: next :: rest =>
    if isHigh unit then
      if isLow next then
        (pairUnits rest).map (Char.ofNat (0x10000 + (unit - 0xD800) * 1024 + (next - 0xDC00)) :: ·)
      else none
    else if isLow unit then none
    else (pairUnits (next :: rest)).map (Char.ofNat unit :: ·)

/-- The rest of a string literal, after its opening quote. -/
def string? (cs : List Char) : Option (Option String × List Char) := do
  let (units, rest) ← stringUnits cs
  return ((pairUnits units).map String.ofList, rest)

private def digits (cs : List Char) : List Char × List Char := cs.span Char.isDigit

private def fraction? : List Char → Option (List Char × List Char)
  | '.' :: rest =>
    let (places, rest) := digits rest
    if places.isEmpty then none else some ('.' :: places, rest)
  | cs => some ([], cs)

private def exponent? : List Char → Option (List Char × List Char)
  | e :: rest =>
    if e = 'e' ∨ e = 'E' then
      let (sign, rest) := match rest with
        | '+' :: rest => (['+'], rest)
        | '-' :: rest => (['-'], rest)
        | _ => ([], rest)
      let (power, rest) := digits rest
      if power.isEmpty then none else some (e :: sign ++ power, rest)
    else some ([], e :: rest)
  | [] => some ([], [])

/-- A number. An integer has no negative zero, so `-0` counts as a decimal. -/
def number? (cs : List Char) : Option (Json × List Char) := do
  let (negative, cs) := match cs with
    | '-' :: rest => (true, rest)
    | _ => (false, cs)
  let (whole, rest) := digits cs
  if whole.isEmpty || (whole.head? == some '0' && 1 < whole.length) then none
  else
    let (places, rest) ← fraction? rest
    let (power, rest) ← exponent? rest
    let value := Decimal.ofDigits whole
    if places.isEmpty && power.isEmpty && !(negative && value == 0) then
      return (.int (if negative then -value else value), rest)
    else
      return (.decimal (String.ofList ((if negative then ['-'] else []) ++ whole ++ places ++ power)), rest)

mutual

def valueWithin : Nat → List Char → Option (Json × List Char)
  | 0, _ => none
  | fuel + 1, cs =>
    match skipBlanks cs with
    | 'n' :: 'u' :: 'l' :: 'l' :: rest => some (.null, rest)
    | 't' :: 'r' :: 'u' :: 'e' :: rest => some (.bool true, rest)
    | 'f' :: 'a' :: 'l' :: 's' :: 'e' :: rest => some (.bool false, rest)
    | '"' :: rest => do
      let (text, rest) ← string? rest
      return (text.elim .unpaired .str, rest)
    | '[' :: rest =>
      match skipBlanks rest with
      | ']' :: rest => some (.arr [], rest)
      | rest => do
        let (items, rest) ← itemsWithin fuel rest
        return (.arr items, rest)
    | '\x7b' :: rest =>
      match skipBlanks rest with
      | '\x7d' :: rest => some (.obj [], rest)
      | rest => do
        let (pairs, rest) ← pairsWithin fuel rest
        return (pairs.elim .unpaired .obj, rest)
    | cs => number? cs

/-- The items up to the closing bracket, at least one. -/
def itemsWithin : Nat → List Char → Option (List Json × List Char)
  | 0, _ => none
  | fuel + 1, cs => do
    let (item, rest) ← valueWithin fuel cs
    match skipBlanks rest with
    | ']' :: rest => return ([item], rest)
    | ',' :: rest => do
      let (items, rest) ← itemsWithin fuel rest
      return (item :: items, rest)
    | _ => none

/-- The pairs up to the closing brace, at least one; no pairs if a key stands for no text. -/
def pairsWithin : Nat → List Char → Option (Option (List (String × Json)) × List Char)
  | 0, _ => none
  | fuel + 1, cs =>
    match skipBlanks cs with
    | '"' :: rest => do
      let (key, rest) ← string? rest
      match skipBlanks rest with
      | ':' :: rest => do
        let (value, rest) ← valueWithin fuel rest
        let pair := key.map fun key => (key, value)
        match skipBlanks rest with
        | '\x7d' :: rest => return (pair.map ([·]), rest)
        | ',' :: rest => do
          let (pairs, rest) ← pairsWithin fuel rest
          return (do return (← pair) :: (← pairs), rest)
        | _ => none
      | _ => none
    | _ => none

end

/-- The value of a whole text. Every second call takes a character, which bounds the fuel. -/
def read? (text : String) : Option Json := do
  let cs := text.toList
  let (value, rest) ← valueWithin (2 * cs.length + 2) cs
  if (skipBlanks rest).isEmpty then some value else none

end PluginForge.Json
