/-
Text in quotes, for reading by people.

What would not show, or would be taken for something else, is written behind a backslash.
-/
import Colloquy.Text.Unprintable

namespace Colloquy
namespace Text

def graveAccent : Char := Char.ofNat 0x60

/-- Text between grave accents. -/
def ticked (s : String) : String :=
  String.singleton graveAccent ++ s ++ String.singleton graveAccent

/-- The code point of a character, between braces. -/
def escapeCode (c : Char) : List Char :=
  '\\' :: 'u' :: Char.ofNat 0x7b :: Nat.toDigits 16 c.toNat ++ [Char.ofNat 0x7d]

/-- A character inside quotes. -/
def escape (c : Char) : List Char :=
  if c = '"' then ['\\', '"']
  else if c = '\\' then ['\\', '\\']
  else if c = '\n' then ['\\', 'n']
  else if c = '\r' then ['\\', 'r']
  else if c = '\t' then ['\\', 't']
  else if c.toNat = 0 then ['\\', '0']
  else if isUnprintable c then escapeCode c
  else [c]

def quoted (s : String) : String := String.ofList ('"' :: s.toList.flatMap escape ++ ['"'])

end Text
end Colloquy
