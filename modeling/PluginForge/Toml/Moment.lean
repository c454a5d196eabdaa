import PluginForge.Decimal.Basic
import PluginForge.Toml.Basic

/-! Dates and times in TOML. -/

namespace PluginForge.Toml

private def skip? (expected : Char) : List Char → Option (List Char)
  | c :: rest => if c = expected then some rest else none
  | [] => none

/-- A number of two digits between bounds. -/
private def part? (least most : Nat) : List Char → Option (Nat × List Char)
  | a :: b :: rest =>
    let value := Decimal.ofDigits [a, b]
    if a.isDigit && b.isDigit && least ≤ value && value ≤ most then some (value, rest) else none
  | _ => none

def isLeapYear (year : Nat) : Bool := year % 4 == 0 && (year % 100 != 0 || year % 400 == 0)

def daysIn (year month : Nat) : Nat :=
  if month = 2 then if isLeapYear year then 29 else 28
  else if month = 4 ∨ month = 6 ∨ month = 9 ∨ month = 11 then 30
  else 31

def date? : List Char → Option (Date × List Char)
  | a :: b :: c :: d :: rest => do
    guard ([a, b, c, d].all Char.isDigit)
    let year := Decimal.ofDigits [a, b, c, d]
    let (month, rest) ← part? 1 12 (← skip? '-' rest)
    let (day, rest) ← part? 1 (daysIn year month) (← skip? '-' rest)
    return (⟨year, month, day⟩, rest)
  | _ => none

/-- The fraction of a second, of which nine places count. -/
private def nanoseconds : List Char → Nat × List Char
  | '.' :: rest =>
    let (places, after) := rest.span Char.isDigit
    if places.isEmpty then (0, '.' :: rest)
    else (Decimal.ofDigits ((places ++ List.replicate 9 '0').take 9), after)
  | cs => (0, cs)

/-- A time of day. The second may be one that is put in after the last. -/
def time? (cs : List Char) : Option (TimeOfDay × List Char) := do
  let (hour, rest) ← part? 0 23 cs
  let (minute, rest) ← part? 0 59 (← skip? ':' rest)
  let (second, rest) ← part? 0 60 (← skip? ':' rest)
  let (nanosecond, rest) := nanoseconds rest
  return (⟨hour, minute, second, nanosecond⟩, rest)

private def distance? (cs : List Char) : Option (Int × List Char) := do
  let (hours, rest) ← part? 0 23 cs
  let (minutes, rest) ← part? 0 59 (← skip? ':' rest)
  return (hours * 60 + minutes, rest)

def offset? : List Char → Option (Int × List Char)
  | 'Z' :: rest | 'z' :: rest => some (0, rest)
  | '+' :: rest => distance? rest
  | '-' :: rest => (distance? rest).map fun (minutes, rest) => (-minutes, rest)
  | _ => none

/-- What may stand between a date and a time. -/
private def isDivider (c : Char) : Bool := c = 'T' || c = 't' || c = ' '

private def afterDate (date : Date) (cs : List Char) : Moment × List Char :=
  match cs with
  | divider :: rest =>
    match if isDivider divider then time? rest else none with
    | some (time, rest) =>
      match offset? rest with
      | some (offset, rest) => (⟨some date, some time, some offset⟩, rest)
      | none => (⟨some date, some time, none⟩, rest)
    | none => (⟨some date, none, none⟩, cs)
  | [] => (⟨some date, none, none⟩, cs)

def moment? (cs : List Char) : Option (Moment × List Char) :=
  match date? cs with
  | some (date, rest) => some (afterDate date rest)
  | none => (time? cs).map fun (time, rest) => (⟨none, some time, none⟩, rest)

end PluginForge.Toml
