/-
Generic JSON values.

A number is a whole number or the bits of a double.  A value that was read has its whole
numbers between the least signed and the greatest unsigned 64-bit number and the fields
of its objects in ascending order of their names, each name once; `put` keeps that order.
-/

namespace Colloquy
namespace Json

inductive Value where
  | null
  | bool (b : Bool)
  | integer (i : Int)
  | double (bits : UInt64)
  | text (s : String)
  | array (items : List Value)
  | object (fields : List (String × Value))
  deriving BEq, Inhabited

namespace Value

def isNull : Value → Bool
  | null => true
  | _ => false

/-- Set a field, keeping the fields in ascending order.  The last value set stays. -/
def put (name : String) (v : Value) : List (String × Value) → List (String × Value)
  | [] => [(name, v)]
  | (k, w) :: r =>
    if name = k then (k, v) :: r
    else if name < k then (name, v) :: (k, w) :: r
    else (k, w) :: put name v r

/-- An object from fields in any order. -/
def ofFields (fields : List (String × Value)) : Value :=
  object (fields.foldl (fun acc f => put f.1 f.2 acc) [])

/-- The value of a field; `none` also if this is no object. -/
def field? (v : Value) (name : String) : Option Value :=
  match v with
  | object fields => fields.lookup name
  | _ => none

/-- A field that is there and not null. -/
def given? (v : Value) (name : String) : Option Value :=
  (v.field? name).filter fun w => !w.isNull

def int? : Value → Option Int
  | integer i => some i
  | _ => none

def nat? : Value → Option Nat
  | integer i => if 0 ≤ i then some i.toNat else none
  | _ => none

def text? : Value → Option String
  | text s => some s
  | _ => none

def bool? : Value → Option Bool
  | bool b => some b
  | _ => none

def items? : Value → Option (List Value)
  | array items => some items
  | _ => none

def fields? : Value → Option (List (String × Value))
  | object fields => some fields
  | _ => none

end Value
end Json
end Colloquy
