/-
Points in time, as seconds and nanoseconds since the Unix epoch.

The seconds are a signed 64-bit number, and the nanoseconds count forward also before the
epoch, so the order of two instants is the order of the pairs.  `toNanos` is the view in
which all the arithmetic is exact.
-/
import Colloquy.Json.Record
import Colloquy.Word

namespace Colloquy

def nanosPerSecond : Nat := 1000000000

structure Instant where
  seconds : Int
  nanoseconds : Nat
  nanoseconds_lt : nanoseconds < nanosPerSecond
  le_seconds : Word.intMin 64 ≤ seconds
  seconds_le : seconds ≤ Word.intMax 64
  deriving DecidableEq

namespace Instant

def epoch : Instant where
  seconds := 0
  nanoseconds := 0
  nanoseconds_lt := by decide
  le_seconds := by decide
  seconds_le := by decide

instance : Inhabited Instant := ⟨epoch⟩

def toNanos (t : Instant) : Int := t.seconds * nanosPerSecond + t.nanoseconds

/-- The instant of some seconds and nanoseconds, where nanoseconds of a second or more
carry over; `none` if the seconds leave their range. -/
def ofParts? (seconds : Int) (nanoseconds : Nat) : Option Instant :=
  let s := seconds + nanoseconds / nanosPerSecond
  if h : Word.intMin 64 ≤ s ∧ s ≤ Word.intMax 64 then
    some {
      seconds := s
      nanoseconds := nanoseconds % nanosPerSecond
      nanoseconds_lt := Nat.mod_lt _ (by decide)
      le_seconds := h.1
      seconds_le := h.2 }
  else none

/-- The instant some milliseconds later, if there is one. -/
def addMillis? (t : Instant) (ms : Nat) : Option Instant :=
  ofParts? (t.seconds + ms / 1000) (t.nanoseconds + ms % 1000 * 1000000)

/-- The instant some milliseconds earlier, if there is one. -/
def subMillis? (t : Instant) (ms : Nat) : Option Instant :=
  let n := t.toNanos - ms * 1000000
  ofParts? (n.fdiv nanosPerSecond) (n.fmod nanosPerSecond).toNat

def ble (t u : Instant) : Bool :=
  t.seconds < u.seconds || (t.seconds == u.seconds && t.nanoseconds ≤ u.nanoseconds)

/-- Nanoseconds from `t` to `u`, unless `u` is earlier. -/
def nanosUntil? (t u : Instant) : Option Nat :=
  if t.ble u then some (u.toNanos - t.toNanos).toNat else none

/-! ## Wire form -/

structure Draft where
  seconds : Option Nat := none
  nanoseconds : Option Nat := none

/-- Seconds of 64 bits and nanoseconds of 32.  No other field is allowed, and the sum has
to fit 64 bits. -/
def shape : Json.Shape Draft (Nat × Nat) where
  members := [
    Json.member "secs_since_epoch" true (fun _ => Json.natField 64) Draft.seconds
      (fun v d => { d with seconds := some v }),
    Json.member "nanos_since_epoch" true (fun _ => Json.natField 32) Draft.nanoseconds
      (fun v d => { d with nanoseconds := some v })]
  closed := true
  blank := {}
  finish := fun d => do
    let s ← Json.present d.seconds
    let n ← Json.present d.nanoseconds
    if s + n / nanosPerSecond ≤ Word.natMax 64 then .ok (s, n) else .error .mismatched

def read (depth : Nat) : Json.Reader Instant := fun bs =>
  match shape.read depth bs with
  | .error f => .error f
  | .ok ((s, n), r) =>
    match ofParts? s n with
    | some t => .ok (t, r)
    | none => .error .mismatched

/-- Only instants from the epoch on can be written. -/
def toJson? (t : Instant) : Option Json.Value :=
  if 0 ≤ t.seconds then
    some (.object [("secs_since_epoch", .integer t.seconds),
      ("nanos_since_epoch", .integer t.nanoseconds)])
  else none

end Instant
end Colloquy
