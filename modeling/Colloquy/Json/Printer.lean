/-
JSON text of a value.

`render` writes no blanks.  `pretty` writes one item a line, two spaces deeper than what
holds it.  Both write fields in the order in which the object lists them.
-/
import Colloquy.Decimal.Shortest
import Colloquy.Json.Value
import Colloquy.Utf8

namespace Colloquy
namespace Json

/-- Doubles are positional from `0.00001` to `1000000000000000.0`. -/
def numberLayout : Decimal.Layout := { least := -5, most := 15 }

def hexDigit (n : Nat) : Char := if n < 10 then Char.ofNat (48 + n) else Char.ofNat (87 + n)

/-- A character inside quotes: a backslash form for the quote, the backslash and the
control characters, and else the character itself. -/
def escape (c : Char) : List Char :=
  if c = '"' then ['\\', '"']
  else if c = '\\' then ['\\', '\\']
  else if c = '\n' then ['\\', 'n']
  else if c = '\r' then ['\\', 'r']
  else if c = '\t' then ['\\', 't']
  else if c.toNat = 8 then ['\\', 'b']
  else if c.toNat = 12 then ['\\', 'f']
  else if c.toNat < 32 then
    ['\\', 'u', '0', '0', hexDigit (c.toNat / 16), hexDigit (c.toNat % 16)]
  else [c]

def quote (s : String) : List Char := '"' :: s.toList.flatMap escape ++ ['"']

namespace Value

def numberText (bits : UInt64) : List Char := (numberLayout.text bits).toList

mutual
def chars : Value → List Char
  | null => "null".toList
  | bool b => (if b then "true" else "false").toList
  | integer i => (Decimal.intText i).toList
  | double bits => numberText bits
  | text s => quote s
  | array [] => ['[', ']']
  | array (v :: r) => '[' :: chars v ++ itemsTail r
  | object [] => [Char.ofNat 0x7b, Char.ofNat 0x7d]
  | object ((k, v) :: r) => Char.ofNat 0x7b :: quote k ++ ':' :: chars v ++ fieldsTail r

def itemsTail : List Value → List Char
  | [] => [']']
  | v :: r => ',' :: chars v ++ itemsTail r

def fieldsTail : List (String × Value) → List Char
  | [] => [Char.ofNat 0x7d]
  | (k, v) :: r => ',' :: quote k ++ ':' :: chars v ++ fieldsTail r
end

/-- The compact text as bytes. -/
def render (v : Value) : Bytes := Utf8.encodeChars v.chars

def renderText (v : Value) : String := String.ofList v.chars

def newline (depth : Nat) : List Char := '\n' :: List.replicate (2 * depth) ' '

mutual
def prettyChars (depth : Nat) : Value → List Char
  | array [] => ['[', ']']
  | array (v :: r) =>
    '[' :: newline (depth + 1) ++ prettyChars (depth + 1) v ++ prettyItems depth r
  | object [] => [Char.ofNat 0x7b, Char.ofNat 0x7d]
  | object ((k, v) :: r) =>
    Char.ofNat 0x7b :: newline (depth + 1) ++ quote k ++ ':' :: ' ' ::
      prettyChars (depth + 1) v ++ prettyFields depth r
  | v => v.chars

def prettyItems (depth : Nat) : List Value → List Char
  | [] => newline depth ++ [']']
  | v :: r => ',' :: newline (depth + 1) ++ prettyChars (depth + 1) v ++ prettyItems depth r

def prettyFields (depth : Nat) : List (String × Value) → List Char
  | [] => newline depth ++ [Char.ofNat 0x7d]
  | (k, v) :: r =>
    ',' :: newline (depth + 1) ++ quote k ++ ':' :: ' ' :: prettyChars (depth + 1) v ++
      prettyFields depth r
end

def pretty (v : Value) : String := String.ofList (prettyChars 0 v)

end Value
end Json
end Colloquy
