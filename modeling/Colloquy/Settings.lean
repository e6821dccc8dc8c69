/-
Settings of a messaging context.

Every setting has a default.  `ofToml` reads them from TOML, where a key that is not known
is ignored if its value can be held, and `check` refuses the values that have the right
type and still make no sense.
-/
import Colloquy.Failure
import Colloquy.Text.Blank
import Colloquy.Toml.Reader

namespace Colloquy

/-- Who this service instance is.  An instance with no id gets one when it starts. -/
structure Identity where
  name : String := "msb-service"
  version : String := "0.1.0"
  instanceId : Option String := none
  deriving DecidableEq

structure Settings where
  identity : Identity := {}
  timerThreads : Nat := 2
  validateTopics : Bool := true
  responseTimeoutMs : Nat := 3000
  deriving DecidableEq

namespace Settings

def isInstanceChar (c : Char) : Bool :=
  ('a' ≤ c && c ≤ 'z') || ('0' ≤ c && c ≤ '9') || c == '-'

/-- Instance ids become segments of topics. -/
def validInstanceId (id : String) : Bool := !id.toList.isEmpty && id.toList.all isInstanceChar

def check (s : Settings) : Except Failure Unit :=
  if s.timerThreads = 0 then .error (.settings "timerThreadPoolSize must be at least 1")
  else if Text.blank s.identity.name then
    .error (.settings "serviceDetails.name must not be empty")
  else match s.identity.instanceId with
    | some id =>
      if validInstanceId id then .ok ()
      else .error (.settings
        s!"serviceDetails.instanceId '{id}' must be lowercase alphanumeric or '-'")
    | none => .ok ()

/-! ## Reading -/

def textSetting : Toml.Value → Option String
  | .text s => some s
  | _ => none

def boolSetting : Toml.Value → Option Bool
  | .bool b => some b
  | _ => none

def wordSetting : Toml.Value → Option Nat
  | .integer i => if 0 ≤ i ∧ i ≤ Word.natMax 64 then some i.toNat else none
  | _ => none

/-- The value of a key, or the default where the key is missing; `none` for a value of
the wrong type. -/
def setting {α : Type} (read : Toml.Value → Option α) (t : Toml.Table) (name : String)
    (default : α) : Option α :=
  match t.lookup name with
  | some v => read v
  | none => some default

/-- A table is looked at with all that is in it. -/
def identityOfTable (t : Toml.Table) : Option Identity := do
  let base : Identity := {}
  guard (Toml.entriesHeld t)
  let name ← setting textSetting t "name" base.name
  let version ← setting textSetting t "version" base.version
  let instanceId ← setting (fun v => (textSetting v).map some) t "instanceId" base.instanceId
  some { name, version, instanceId }

/-- The parts of an identity in the order of their declaration.  Those at the end may be
missing, and what stands behind them is not looked at. -/
def identityOfList (vs : List Toml.Value) : Option Identity := do
  let base : Identity := {}
  let part := fun (v : Option Toml.Value) (default : String) =>
    match v with
    | some v => textSetting v
    | none => some default
  let name ← part vs[0]? base.name
  let version ← part vs[1]? base.version
  let instanceId ← match vs[2]? with
    | some v => (textSetting v).map some
    | none => some base.instanceId
  some { name, version, instanceId }

/-- A date has none of the parts of an identity. -/
def identitySetting : Toml.Value → Option Identity
  | .table _ t => identityOfTable t
  | .array vs => identityOfList vs
  | .date => some {}
  | _ => none

/-- The identity decides for itself what it looks at. -/
def ofTable (t : Toml.Table) : Option Settings := do
  let base : Settings := {}
  guard (Toml.entriesHeld (t.filter fun e => e.1 != "serviceDetails"))
  let identity ← setting identitySetting t "serviceDetails" base.identity
  let timerThreads ← setting wordSetting t "timerThreadPoolSize" base.timerThreads
  let validateTopics ← setting boolSetting t "validateTopics" base.validateTopics
  let responseTimeoutMs ←
    setting wordSetting t "defaultResponseTimeoutMs" base.responseTimeoutMs
  some { identity, timerThreads, validateTopics, responseTimeoutMs }

/-- The settings written in a TOML document, checked. -/
def ofToml (document : String) : Except Failure Settings :=
  match (Toml.parse document).bind ofTable with
  | some s => (s.check).map fun _ => s
  | none => .error .unreadableSettings

end Settings
end Colloquy
