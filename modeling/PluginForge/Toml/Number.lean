import PluginForge.Decimal.Binary
import PluginForge.Json.Reader
import PluginForge.Toml.Basic

/-!
Numbers in TOML. An underscore may stand between two digits. Integers fit 64 bits, and a positive number
that is not written as an infinity is none.
-/

namespace PluginForge.Toml

/-- The digits at the start, without the underscores between them, and what follows. -/
def digits (isDigit : Char → Bool) : List Char → List Char × List Char
  | '_' :: c :: rest =>
    if isDigit c then
      let (more, rest) := digits isDigit rest
      (c :: more, rest)
    else ([], '_' :: c :: rest)
  | c :: rest =>
    if isDigit c then
      let (more, rest) := digits isDigit rest
      (c :: more, rest)
    else ([], c :: rest)
  | [] => ([], [])

/-- At least one digit. -/
def digits? (isDigit : Char → Bool) : List Char → Option (List Char × List Char)
  | '_' :: _ => none
  | cs =>
    let (found, rest) := digits isDigit cs
    if found.isEmpty then none else some (found, rest)

/-- The digits before the point, with no zero in front of others. -/
private def whole? : List Char → Option (List Char × List Char)
  | '0' :: rest => some (['0'], rest)
  | cs => digits? Char.isDigit cs

private def places? : List Char → Option (List Char × List Char)
  | '.' :: rest => (digits? Char.isDigit rest).map fun (found, rest) => ('.' :: found, rest)
  | cs => some ([], cs)

private def power? : List Char → Option (List Char × List Char)
  | e :: rest =>
    if e = 'e' ∨ e = 'E' then
      let (sign, rest) := match rest with
        | '+' :: rest => (['+'], rest)
        | '-' :: rest => (['-'], rest)
        | _ => ([], rest)
      (digits? Char.isDigit rest).map fun (found, rest) => (e :: sign ++ found, rest)
    else some ([], e :: rest)
  | [] => some ([], [])

private def bounded? (value : Int) : Option Toml :=
  if -(twoTo 63 : Int) ≤ value ∧ value < twoTo 63 then some (.integer value) else none

private def finite? (cs : List Char) : Option Toml := do
  if binary64.ofDecimal (← Decimal.ofChars? cs) = binary64.infinity then none else some (.float (String.ofList cs))

private def inBase? (base : Nat) (cs : List Char) : Option (Toml × List Char) := do
  let value (c : Char) := (Json.hexValue? c).getD base
  let (found, rest) ← digits? (value · < base) cs
  return (← bounded? (found.foldl (fun number c => base * number + value c) 0 : Nat), rest)

def number? : List Char → Option (Toml × List Char)
  | '0' :: 'x' :: rest => inBase? 16 rest
  | '0' :: 'o' :: rest => inBase? 8 rest
  | '0' :: 'b' :: rest => inBase? 2 rest
  | cs =>
    let (sign, rest) := match cs with
      | '+' :: rest => (['+'], rest)
      | '-' :: rest => (['-'], rest)
      | _ => ([], cs)
    match rest with
    | 'i' :: 'n' :: 'f' :: rest => some (.float (String.ofList (sign ++ ['i', 'n', 'f'])), rest)
    | 'n' :: 'a' :: 'n' :: rest => some (.float (String.ofList (sign ++ ['n', 'a', 'n'])), rest)
    | rest => do
      let (whole, rest) ← whole? rest
      let (places, rest) ← places? rest
      let (power, rest) ← power? rest
      if places.isEmpty && power.isEmpty then
        let value : Int := Decimal.ofDigits whole
        return (← bounded? (if sign = ['-'] then -value else value), rest)
      else return (← finite? (sign ++ whole ++ places ++ power), rest)

end PluginForge.Toml
