/-! Decimal numbers: a sign, digits and a power of ten, with the two ways of writing one out. -/

namespace PluginForge

/-- The number `digits * 10 ^ exponent`, with its sign kept apart so that zero has one too. -/
structure Decimal where
  negative : Bool
  digits : Nat
  exponent : Int
  deriving DecidableEq, Repr

namespace Decimal

def digitCount (n : Nat) : Nat := (Nat.toDigits 10 n).length

def digitValue (c : Char) : Nat := c.toNat - '0'.toNat

/-- The number that a run of decimal digits denotes. -/
def ofDigits (cs : List Char) : Nat := cs.foldl (fun value c => 10 * value + digitValue c) 0

/-- Moves trailing zeros of the digits into the exponent. The fuel bounds how many are moved. -/
private def stripZerosWithin : Nat → Nat → Int → Nat × Int
  | 0, digits, exponent => (digits, exponent)
  | fuel + 1, digits, exponent =>
    if digits % 10 = 0 then stripZerosWithin fuel (digits / 10) (exponent + 1) else (digits, exponent)

def stripZeros (d : Decimal) : Decimal :=
  if d.digits = 0 then { d with exponent := 0 }
  else
    let (digits, exponent) := stripZerosWithin (digitCount d.digits) d.digits d.exponent
    { d with digits, exponent }

/-- Which powers of ten of the leading digit are written with a point instead of an exponent. -/
structure Layout where
  lowest : Int
  highest : Int

private def zeros (n : Nat) : List Char := List.replicate n '0'

private def positional (digits : List Char) (exponent : Int) : List Char :=
  if 0 ≤ exponent then digits ++ zeros exponent.toNat ++ ['.', '0']
  else
    let places := (-exponent).toNat
    if places < digits.length then
      digits.take (digits.length - places) ++ '.' :: digits.drop (digits.length - places)
    else ['0', '.'] ++ zeros (places - digits.length) ++ digits

private def scientific (digits : List Char) (leading : Int) : List Char :=
  let point := match digits with
    | [] => []
    | [digit] => [digit]
    | digit :: rest => digit :: '.' :: rest
  point ++ 'e' :: (if 0 ≤ leading then '+' else '-') :: Nat.toDigits 10 leading.natAbs

/-- The number as text; a whole number that is written out ends in `.0`. -/
def format (layout : Layout) (d : Decimal) : String :=
  let d := d.stripZeros
  let sign := if d.negative then ['-'] else []
  let digits := Nat.toDigits 10 d.digits
  let leading := d.exponent + (digits.length - 1 : Nat)
  if layout.lowest ≤ leading ∧ leading ≤ layout.highest then
    String.ofList (sign ++ positional digits d.exponent)
  else String.ofList (sign ++ scientific digits leading)

private def splitDigits (cs : List Char) : List Char × List Char := cs.span Char.isDigit

/-- Reads `12`, `1.5`, `.5`, `1.` and any of these with an exponent, after an optional sign. -/
def ofChars? (cs : List Char) : Option Decimal :=
  let (negative, cs) := match cs with
    | '-' :: rest => (true, rest)
    | '+' :: rest => (false, rest)
    | _ => (false, cs)
  let (whole, cs) := splitDigits cs
  let (fraction, cs) := match cs with
    | '.' :: rest => splitDigits rest
    | _ => ([], cs)
  if whole.isEmpty && fraction.isEmpty then none
  else
    let number (exponent : Int) : Decimal :=
      ⟨negative, ofDigits (whole ++ fraction), exponent - fraction.length⟩
    match cs with
    | [] => some (number 0)
    | e :: rest =>
      if e = 'e' ∨ e = 'E' then
        let (down, rest) := match rest with
          | '-' :: rest => (true, rest)
          | '+' :: rest => (false, rest)
          | _ => (false, rest)
        match splitDigits rest with
        | ([], _) => none
        | (power, []) => some (number (if down then -(ofDigits power : Int) else ofDigits power))
        | _ => none
      else none

end Decimal

end PluginForge
