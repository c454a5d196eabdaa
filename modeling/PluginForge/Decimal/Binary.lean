import PluginForge.Decimal.Basic
import PluginForge.Decimal.Power

/-!
Binary floating-point numbers as bit patterns. The code of a magnitude is its bit pattern without the
sign; codes count the magnitudes in increasing order, infinity after the last finite one.
-/

namespace PluginForge

structure BinaryFormat where
  /-- Bits of the significand, the leading one included. -/
  precision : Nat
  exponentBits : Nat

def binary32 : BinaryFormat := ⟨24, 8⟩

def binary64 : BinaryFormat := ⟨53, 11⟩

namespace BinaryFormat

variable (f : BinaryFormat)

/-- The power of two that the last bit of the least magnitudes stands for. -/
def lowest : Int := 3 - twoTo (f.exponentBits - 1) - f.precision

def infinity : Nat := (twoTo f.exponentBits - 1) * twoTo (f.precision - 1)

def signBit : Nat := twoTo (f.precision - 1 + f.exponentBits)

/-- A finite code as `m * 2 ^ q`. -/
def significand (code : Nat) : Nat × Int :=
  let top := twoTo (f.precision - 1)
  if code < top then (code, f.lowest) else (top + code % top, f.lowest + (code / top - 1 : Nat))

/-- The quotient rounded to the nearest whole number, a half to the even one. -/
def roundHalfEven (num den : Nat) : Nat :=
  let q := num / den
  let twice := 2 * (num % den)
  if twice < den then q else if den < twice then q + 1 else q + q % 2

/-- The code nearest to a positive quotient, the even one of two at the same distance. -/
def roundRatio (num den : Nat) : Nat :=
  let guess : Int := (num.log2 : Int) - den.log2
  let atLeast := if 0 ≤ guess then den * twoTo guess.toNat ≤ num else den ≤ num * twoTo (-guess).toNat
  let log := if atLeast then guess else guess - 1
  let q := max (log - (f.precision - 1 : Nat)) f.lowest
  let m := if 0 ≤ q then roundHalfEven num (den * twoTo q.toNat)
    else roundHalfEven (num * twoTo (-q).toNat) den
  min ((q - f.lowest).toNat * twoTo (f.precision - 1) + m) f.infinity

/-- Powers of ten beyond this are past infinity, or nearer to zero than to any other magnitude, in
both formats. -/
private def powerLimit : Int := 400

/-- The bit pattern nearest to a decimal number. -/
def ofDecimal (d : Decimal) : Nat :=
  let size : Int := d.exponent + Decimal.digitCount d.digits
  let code :=
    if d.digits = 0 ∨ size < -powerLimit then 0
    else if powerLimit < size then f.infinity
    else if 0 ≤ d.exponent then f.roundRatio (d.digits * tenTo d.exponent.toNat) 1
    else f.roundRatio d.digits (tenTo (-d.exponent).toNat)
  if d.negative then f.signBit + code else code

/-- The bit pattern of `g` nearest to a finite number of `f`. -/
def narrow (g : BinaryFormat) (bits : Nat) : Nat :=
  let code := bits % f.signBit
  let rounded :=
    if code = 0 then 0
    else if f.infinity ≤ code then g.infinity
    else
      let (m, q) := f.significand code
      if 0 ≤ q then g.roundRatio (m * twoTo q.toNat) 1 else g.roundRatio m (twoTo (-q).toNat)
  if f.signBit ≤ bits then g.signBit + rounded else rounded

def isFinite (bits : Nat) : Bool := bits % f.signBit < f.infinity

/-- A bit pattern that is no number. -/
def nan : Nat := f.infinity + twoTo (f.precision - 2)

private def lowercased (cs : List Char) : String := String.ofList (cs.map Char.toLower)

/-- Reads a decimal number, an infinity or the name of no number, in any letter case. -/
def ofText? (text : String) : Option Nat :=
  let (negative, cs) := match text.toList with
    | '-' :: rest => (true, rest)
    | '+' :: rest => (false, rest)
    | cs => (false, cs)
  let signed (code : Nat) := if negative then f.signBit + code else code
  let name := lowercased cs
  if name = "inf" ∨ name = "infinity" then some (signed f.infinity)
  else if name = "nan" then some (signed f.nan)
  else (Decimal.ofChars? text.toList).map f.ofDecimal

end BinaryFormat

end PluginForge
