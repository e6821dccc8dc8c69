/-
Reading a decimal as a double by scaling.

The first digits of the decimal, as many as a 64-bit word takes, become a double, which
one multiplication or division by a power of ten then scales.  Every step rounds to the
nearest double, so the result can be a neighbour of the double nearest to the decimal.
-/
import Colloquy.Word

namespace Colloquy
namespace Decimal

/-- A decimal as it is taken in: a significand of one word and a power of ten. -/
structure Scaled where
  significand : Nat
  exponent : Int

/-- Take digits before the point.  From the first digit that would overflow the word on,
each digit only raises the exponent. -/
def takeWhole (n : Nat) : List Nat → Scaled
  | [] => { significand := n, exponent := 0 }
  | d :: r =>
    if Word.natMax 64 < n * 10 + d then
      { significand := n, exponent := ((d :: r).length : Int) }
    else takeWhole (n * 10 + d) r

/-- Take digits after the point.  From the first digit that would overflow the word on,
all digits are dropped. -/
def takeFraction (s : Scaled) : List Nat → Scaled
  | [] => s
  | d :: r =>
    if Word.natMax 64 < s.significand * 10 + d then s
    else takeFraction { significand := s.significand * 10 + d, exponent := s.exponent - 1 } r

def powerOfTen (n : Nat) : Float := Float.ofScientific 1 false n

/-- Scale by a power of ten, in steps of 308 where the power is smaller than that;
`none` if the result is too large. -/
def scale : Nat → Float → Int → Option Float
  | 0, f, _ => some f
  | fuel + 1, f, e =>
    if e.natAbs ≤ 308 then
      if 0 ≤ e then
        let g := f * powerOfTen e.toNat
        if g.isInf then none else some g
      else some (f / powerOfTen e.natAbs)
    else if f == 0.0 then some f
    else if 0 ≤ e then none
    else scale fuel (f / powerOfTen 308) (e + 308)

/-- The double of a decimal, by its bits. -/
def Scaled.bits? (s : Scaled) (negative : Bool) : Option UInt64 :=
  (scale 4 s.significand.toUInt64.toFloat s.exponent).map fun f =>
    (if negative then -f else f).toBits

/-- The bits of the double nearest to a whole number. -/
def ofIntBits (i : Int) : UInt64 :=
  let f := i.natAbs.toUInt64.toFloat
  (if i < 0 then -f else f).toBits

end Decimal
end Colloquy
