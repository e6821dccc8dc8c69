/-
The fewest decimal digits that still name a double.

A finite double is `m * 2 ^ q`.  The reals that round to it form an interval around it,
whose ends count when `m` is even.  `Shortest.digits` looks at coarser and finer decimal
grids in turn, starting with one digit, and stops at the first grid with a point inside
the interval; of two such points it takes the nearer.  A point of a grid inside the
interval implies that one of the value's two neighbours on that grid is inside, so the
two neighbours are all it has to look at.

`Layout` is how a row of digits is laid out as text.
-/
import Colloquy.Word

namespace Colloquy
namespace Decimal

/-- The digits of a number, most significant first. -/
def digitsOf (n : Nat) : List Nat :=
  if n < 10 then [n] else digitsOf (n / 10) ++ [n % 10]
termination_by n
decreasing_by omega

def digitChar (d : Nat) : Char := Char.ofNat (48 + d)

def natText (n : Nat) : String := String.ofList ((digitsOf n).map digitChar)

def intText (i : Int) : String :=
  if i < 0 then "-" ++ natText i.natAbs else natText i.natAbs

namespace Shortest

/-- A positive double by its parts: the value `m * 2 ^ q`, and whether `m` is the least
significand of its binade, where the gap below is half the gap above. -/
structure Parts where
  m : Nat
  q : Int
  edge : Bool

/-- The parts of a positive finite double given by its bits. -/
def parts (bits : Nat) : Parts :=
  let fraction : Nat := bits % Word.size 52
  let exponent : Nat := bits / Word.size 52 % Word.size 11
  if exponent = 0 then { m := fraction, q := -1074, edge := false }
  else
    { m := Word.size 52 + fraction, q := (exponent : Int) - 1075,
      edge := decide (fraction = 0 ∧ 1 < exponent) }

/-- The value and the ends of its interval over one denominator. -/
structure Span where
  lo : Nat
  value : Nat
  hi : Nat
  den : Nat
  closed : Bool

def span (p : Parts) : Span :=
  let up := Word.size (p.q - 2).toNat
  let down := Word.size (2 - p.q).toNat
  { lo := (4 * p.m - if p.edge then 1 else 2) * up
    value := 4 * p.m * up
    hi := (4 * p.m + 2) * up
    den := down
    closed := p.m % 2 == 0 }

/-- Whether the point `num / den'` lies in the interval. -/
def Span.holds (s : Span) (num den' : Nat) : Bool :=
  let x := num * s.den
  if s.closed then s.lo * den' ≤ x && x ≤ s.hi * den'
  else s.lo * den' < x && x < s.hi * den'

/-- A power of ten. -/
def tenTo (n : Nat) : Nat := Nat.pow 10 n

/-- The nearest point of the grid `10 ^ p` inside the interval, as a multiple of
`10 ^ p`.  A value halfway between two points goes to the even one. -/
def Span.onGrid (s : Span) (p : Int) : Option Nat :=
  let up := tenTo p.toNat
  let down := tenTo (-p).toNat
  let below := s.value * down / (s.den * up)
  let holds := fun (j : Nat) => s.holds (j * up) down
  let left := s.value * down - below * up * s.den
  let right := (below + 1) * up * s.den - s.value * down
  let nearer := left < right || (left == right && below % 2 == 0)
  if holds below && (nearer || !holds (below + 1)) then some below
  else if holds (below + 1) then some (below + 1)
  else none

/-- The exponent of the leading digit, counted down from `bound`. -/
def leading (s : Span) : Nat → Int → Int
  | 0, e => e
  | fuel + 1, e =>
    if s.den * tenTo e.toNat ≤ s.value * tenTo (-e).toNat then e else leading s fuel (e - 1)

/-- Finer and finer grids, from `10 ^ p` down. -/
def search (s : Span) : Nat → Int → Nat × Int
  | 0, p => (s.value * tenTo (-p).toNat / (s.den * tenTo p.toNat), p)
  | fuel + 1, p =>
    match s.onGrid p with
    | some j => (j, p)
    | none => search s fuel (p - 1)

def dropZeros : List Nat → List Nat
  | [] => []
  | d :: r =>
    match dropZeros r with
    | [] => if d = 0 then [] else [d]
    | r' => d :: r'

/-- The digits of a positive finite double and the exponent of the first of them. -/
def digits (bits : Nat) : List Nat × Int :=
  let s := span (parts bits)
  let (j, p) := search s 17 (leading s 640 309)
  let ds := digitsOf j
  (dropZeros ds, p + (ds.length : Int) - 1)

end Shortest

/-- How digits become text: positional for exponents from `least` to `most`, always with
a fraction, and otherwise one digit before the point and a signed exponent. -/
structure Layout where
  least : Int
  most : Int

def Layout.positional (digits : List Nat) (e : Int) : String :=
  if e < 0 then
    "0." ++ String.ofList (List.replicate (-e - 1).toNat '0' ++ digits.map digitChar)
  else
    let whole := digits.take (e.toNat + 1)
    let pad := List.replicate (e.toNat + 1 - whole.length) 0
    let tail := digits.drop (e.toNat + 1)
    String.ofList ((whole ++ pad).map digitChar) ++ "."
      ++ (if tail.isEmpty then "0" else String.ofList (tail.map digitChar))

def Layout.scientific (digits : List Nat) (e : Int) : String :=
  String.ofList ((digits.take 1).map digitChar)
    ++ (if digits.length ≤ 1 then "" else "." ++ String.ofList ((digits.drop 1).map digitChar))
    ++ "e" ++ (if e < 0 then "-" else "+") ++ natText e.natAbs

/-- The text of a finite double. -/
def Layout.text (l : Layout) (bits : UInt64) : String :=
  let magnitude := bits.toNat % Word.size 63
  let sign := if bits.toNat < Word.size 63 then "" else "-"
  if magnitude = 0 then sign ++ "0.0"
  else
    let (ds, e) := Shortest.digits magnitude
    sign ++ (if l.least ≤ e ∧ e ≤ l.most then Layout.positional ds e
      else Layout.scientific ds e)

end Decimal
end Colloquy
