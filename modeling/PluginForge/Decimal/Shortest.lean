import PluginForge.Decimal.Binary

/-!
The fewest decimal digits that read back as a given binary number and, of all numbers with that many
digits, the nearest one; of two at the same distance the one with the even last digit.
-/

namespace PluginForge.BinaryFormat

variable (f : BinaryFormat)

/-- A positive magnitude over a common denominator, with the ends of the interval that rounds to it. -/
structure Neighbourhood where
  value : Nat
  low : Nat
  high : Nat
  den : Nat
  /-- Whether the ends themselves round to the magnitude. -/
  closed : Bool

def neighbourhood (code : Nat) : Neighbourhood :=
  let (m, q) := f.significand code
  let below := if m = twoTo (f.precision - 1) ∧ f.lowest < q then 1 else 2
  let scale := twoTo (q - 2).toNat
  ⟨4 * m * scale, (4 * m - below) * scale, (4 * m + 2) * scale, twoTo (2 - q).toNat, m % 2 = 0⟩

namespace Neighbourhood

variable (n : Neighbourhood)

/-- The power of ten of the leading digit. -/
def leading : Int :=
  if n.den ≤ n.value then (Decimal.digitCount (n.value / n.den) - 1 : Nat)
  else -(Decimal.digitCount ((n.den + n.value - 1) / n.value - 1) : Int)

/-- The multiple of a power of ten that lies in the interval, the nearer one where both neighbours do. -/
def onGrid? (power : Int) : Option Nat :=
  let up := tenTo (-power).toNat
  let step := tenTo power.toNat * n.den
  let value := n.value * up
  let low := n.low * up
  let high := n.high * up
  let floor := value / step
  let inside (k : Nat) : Bool :=
    if n.closed then low ≤ k * step && k * step ≤ high else low < k * step && k * step < high
  match inside floor, inside (floor + 1) with
  | true, true =>
    let twice := 2 * (value % step)
    some (if twice < step then floor else if step < twice then floor + 1 else floor + floor % 2)
  | true, false => some floor
  | false, true => some (floor + 1)
  | false, false => none

end Neighbourhood

/-- Seventeen digits tell any two binary numbers of the formats apart. -/
def digitLimit : Nat := 17

/-- The shortest decimal of a finite bit pattern. -/
def shortest (bits : Nat) : Decimal :=
  let negative : Bool := f.signBit ≤ bits
  let code := bits % f.signBit
  if code = 0 then ⟨negative, 0, 0⟩
  else
    let n := f.neighbourhood code
    let found := (List.range digitLimit).findSome? fun (k : Nat) =>
      let power := n.leading - k
      (n.onGrid? power).map fun digits => (digits, power)
    match found with
    | some (digits, power) => Decimal.stripZeros ⟨negative, digits, power⟩
    | none => ⟨negative, n.value / n.den, 0⟩

end PluginForge.BinaryFormat
