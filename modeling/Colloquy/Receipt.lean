/-
The receipt of one delivery, with which an application tells the broker what became of it.

The first settlement is the one that counts: it alone goes to the broker, and every later
call changes nothing.  A settlement that the library makes by itself counts only while the
receipt allows it.  A second delivery that is to be retried is rejected.
-/
import Colloquy.Note

namespace Colloquy

structure Receipt where
  topic : String
  redelivered : Bool
  state : Resolution := .pending
  auto : Bool := true
  deriving DecidableEq, Inhabited

namespace Receipt

inductive Call where
  /-- By the application. -/
  | explicit (s : Settlement)
  /-- By the library, after the handler. -/
  | automatic (s : Settlement)
  /-- Allow or forbid automatic settlements. -/
  | setAuto (on : Bool)
  deriving DecidableEq

/-- A receipt after a call, the settlement that goes to the broker, and what is logged. -/
structure Outcome where
  receipt : Receipt
  forward : Option Settlement
  notes : List Note

/-- Settle a delivery unless it is settled already. -/
def settle (r : Receipt) (requested : Settlement) (explicit : Bool) : Outcome :=
  let action := requested.bounded r.redelivered
  match r.state with
  | .pending =>
    { receipt := { r with state := action.resolution }
      forward := some action
      notes := if action = requested then [] else [.notRetried r.topic] }
  | state =>
    { receipt := r
      forward := none
      notes := if explicit then [.settledBefore r.topic state requested] else [] }

def call (r : Receipt) : Call → Outcome
  | .explicit s => r.settle s true
  | .automatic s =>
    if r.auto then r.settle s false else { receipt := r, forward := none, notes := [] }
  | .setAuto on => { receipt := { r with auto := on }, forward := none, notes := [] }

/-- A receipt together with the calls that reached the broker and the log. -/
structure History where
  receipt : Receipt
  forwarded : List Settlement := []
  notes : List Note := []

/-- A call on a receipt whose broker answers as `refuses` says. -/
def History.call (refuses : Settlement → Option Failure) (h : History) (c : Call) : History :=
  let o := h.receipt.call c
  match o.forward with
  | none => { h with receipt := o.receipt, notes := h.notes ++ o.notes }
  | some s =>
    let refusal := match refuses s with
      | some why => [Note.settlementRefused s o.receipt.topic why]
      | none => []
    { receipt := o.receipt
      forwarded := h.forwarded ++ [s]
      notes := h.notes ++ o.notes ++ refusal }

end Receipt
end Colloquy
