/-
Saying what a value is that does not fit its place.
-/
import Colloquy.Json.Typed
import Colloquy.Json.Printer
import Colloquy.Text.Quoted

namespace Colloquy
namespace Json

namespace Value

/-- What a value is, in words. -/
def inWords : Value → String
  | null => "null"
  | bool b => "boolean " ++ Text.ticked (if b then "true" else "false")
  | integer i => "integer " ++ Text.ticked (Decimal.intText i)
  | double bits => "floating point " ++ Text.ticked (String.ofList (numberText bits))
  | text s => "string " ++ Text.quoted s
  | array _ => "sequence"
  | object _ => "map"

/-- A whole number has the right type and is out of range; anything else is of another
type. -/
def mismatch (v : Value) (expected : String) : String :=
  let kind := match v with
    | integer _ => "invalid value: "
    | _ => "invalid type: "
  kind ++ v.inWords ++ ", expected " ++ expected

end Value
end Json
end Colloquy
