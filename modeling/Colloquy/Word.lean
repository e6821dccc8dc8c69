/-
The limits of whole numbers that have to fit a word of some bits.
-/

namespace Colloquy
namespace Word

/-- How many numbers there are of some bits. -/
def size (bits : Nat) : Nat := Nat.pow 2 bits

def natMax (bits : Nat) : Nat := size bits - 1

/-- The least number of some bits, one of them for the sign. -/
def intMin (bits : Nat) : Int := -(size (bits - 1) : Int)

/-- The largest number of some bits, one of them for the sign. -/
def intMax (bits : Nat) : Int := size (bits - 1) - 1

end Word
end Colloquy
