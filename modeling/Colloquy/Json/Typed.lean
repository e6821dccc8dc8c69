/-
Taking a typed value out of a generic one.

Nothing is converted, but that a whole number may stand for a double.
-/
import Colloquy.Json.Reader

namespace Colloquy
namespace Json
namespace Value

/-- A whole number from `lo` to `hi`. -/
def asInt (lo hi : Int) : Value → Except Fault Int
  | integer i => if lo ≤ i ∧ i ≤ hi then .ok i else .error .mismatched
  | _ => .error .mismatched

/-- The bits of a double. -/
def asDouble : Value → Except Fault UInt64
  | double bits => .ok bits
  | integer i => .ok (Decimal.ofIntBits i)
  | _ => .error .mismatched

def asBool : Value → Except Fault Bool
  | bool b => .ok b
  | _ => .error .mismatched

def asText : Value → Except Fault String
  | text s => .ok s
  | _ => .error .mismatched

def asItems {α : Type} (item : Value → Except Fault α) : Value → Except Fault (List α)
  | array vs => vs.mapM item
  | _ => .error .mismatched

def asFields : Value → Except Fault (List (String × Value))
  | object fields => .ok fields
  | _ => .error .mismatched

/-- A value that may be null. -/
def asOption {α : Type} (read : Value → Except Fault α) : Value → Except Fault (Option α)
  | null => .ok none
  | v => (read v).map some

end Value

end Json
end Colloquy
