/-
Decimals that a finite double can stand for.

A decimal rounds to a finite double if it lies below the point halfway between the
greatest double and the next power of two.  The point itself goes to the even neighbour,
which is not finite.
-/
import Colloquy.Word

namespace Colloquy
namespace Decimal

/-- The point from which on a number is too large for a double. -/
def finiteEnd : Nat := Word.size 1024 - Word.size 970

/-- How many digits follow the leading zeros. -/
def significantDigits (ds : List Nat) : Nat := (ds.dropWhile (· == 0)).length

/-- Whether the whole number with digits `ds`, times `10 ^ e`, rounds to a finite double.
`finiteEnd` has 309 digits, so only a number of as many has to be compared with it. -/
def roundsToFinite (ds : List Nat) (e : Int) : Bool :=
  let digits := significantDigits ds
  if digits = 0 ∨ digits + e < 309 then true
  else if 309 < digits + e then false
  else
    ds.foldl (fun n d => n * 10 + d) 0 * Nat.pow 10 e.toNat
      < finiteEnd * Nat.pow 10 (-e).toNat

end Decimal
end Colloquy
