/-
Timers of conversations.

A timer fires once, at a millisecond of the clock, unless it is cancelled before.  Timers
that are stopped stay stopped, and from then on nothing can be scheduled.
-/
import Colloquy.Note

namespace Colloquy

inductive TimerKind where
  | response
  | ack
  deriving DecidableEq, Repr

def TimerKind.name : TimerKind → String
  | response => "response"
  | ack => "ack"

structure Timer where
  id : Nat
  kind : TimerKind
  owner : Nat
  due : Nat
  deriving DecidableEq

structure Timers where
  pending : List Timer := []
  next : Nat := 1
  stopped : Bool := false
  deriving Inhabited

namespace Timers

/-- Schedule a timer, and tell its number. -/
def schedule (t : Timers) (kind : TimerKind) (owner now delay : Nat) :
    Option Nat × Timers × List Note :=
  if t.stopped then (none, t, [.timerDropped kind.name delay])
  else
    (some t.next, { t with
      pending := t.pending ++ [{ id := t.next, kind, owner, due := now + delay }]
      next := t.next + 1 }, [])

def cancel (t : Timers) (id : Nat) : Timers :=
  { t with pending := t.pending.filter fun p => p.id ≠ id }

/-- Cancel a timer, if there is one. -/
def cancel? (t : Timers) : Option Nat → Timers
  | some id => t.cancel id
  | none => t

/-- The earlier of two timers; of two that are due together, the one scheduled first. -/
def earlier (p q : Timer) : Timer := if q.due < p.due then q else p

def earliestOf : List Timer → Option Timer
  | [] => none
  | p :: r =>
    match earliestOf r with
    | some q => some (earlier p q)
    | none => some p

def earliest? (t : Timers) : Option Timer := earliestOf t.pending

def stop (t : Timers) : Timers := { t with pending := [], stopped := true }

end Timers
end Colloquy
