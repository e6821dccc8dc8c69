/-
TOML documents as trees.

A table remembers how it came to be, because that decides what may still be added to it:
a table that only stands above another one may get a header of its own later, one that a
dotted key opened may be extended by dotted keys, and one that was written inline is
complete.
-/

namespace Colloquy
namespace Toml

/-- How a table came to be. -/
inductive Standing where
  /-- Opened by its own header. -/
  | headed
  /-- Opened on the way to a header below it. -/
  | above
  /-- Opened by a dotted key. -/
  | dotted
  /-- Written inline. -/
  | inline
  deriving BEq, DecidableEq

inductive Value where
  | text (s : String)
  | integer (i : Int)
  | float
  /-- A number that is too large to be held. -/
  | excess
  | bool (b : Bool)
  | date
  | array (items : List Value)
  | table (standing : Standing) (entries : List (String × Value))
  /-- Tables collected by double-bracket headers, the last one first. -/
  | tables (items : List (List (String × Value)))

abbrev Table := List (String × Value)

mutual
/-- Whether every number in a value can be held. -/
def Value.isHeld : Value → Bool
  | .excess => false
  | .array items => itemsHeld items
  | .table _ entries => entriesHeld entries
  | .tables items => tablesHeld items
  | _ => true

def itemsHeld : List Value → Bool
  | [] => true
  | v :: r => v.isHeld && itemsHeld r

def entriesHeld : List (String × Value) → Bool
  | [] => true
  | (_, v) :: r => v.isHeld && entriesHeld r

def tablesHeld : List (List (String × Value)) → Bool
  | [] => true
  | t :: r => entriesHeld t && tablesHeld r
end

namespace Table

def set (name : String) (v : Value) : Table → Table
  | [] => [(name, v)]
  | (k, w) :: r => if k = name then (k, v) :: r else (k, w) :: set name v r

end Table
end Toml
end Colloquy
