/-
Generated identifiers.

An identifier is `01` and 24 digits in base 32, written with the digits and the lower-case
letters except i, l, o and u, so that it can stand in a topic.  Each comes from a number
of its own.
-/

namespace Colloquy
namespace Ident

def alphabet : List Char :=
  ['0', '1', '2', '3', '4', '5', '6', '7', '8', '9', 'a', 'b', 'c', 'd', 'e', 'f', 'g', 'h',
    'j', 'k', 'm', 'n', 'p', 'q', 'r', 's', 't', 'v', 'w', 'x', 'y', 'z']

def digit (n : Nat) : Char := alphabet.getD (n % 32) '0'

/-- The last `k` digits of a number, most significant first. -/
def digits : Nat → Nat → List Char
  | 0, _ => []
  | k + 1, n => digits k (n / 32) ++ [digit n]

def width : Nat := 24

def chars (n : Nat) : List Char := '0' :: '1' :: digits width n

def text (n : Nat) : String := String.ofList (chars n)

/-- Whether a row of characters has the form of an identifier. -/
def isIdent (cs : List Char) : Bool :=
  cs.length == width + 2 && cs.take 2 == ['0', '1'] && cs.all fun c => alphabet.contains c

end Ident
end Colloquy
