/-
The clock of a session.

Time passes only when the application lets it: while it sleeps, or while it waits for
something.  Meanwhile the timers fire in the order in which they are due, and what follows
from one is done before the next.
-/
import Colloquy.Session.Agenda

namespace Colloquy
namespace Session

def nextTimer? (s : Session) : Option (DeskName × Timer) :=
  match s.own.timers.earliest?, s.shared.timers.earliest? with
  | some p, some q => some (if q.due < p.due then (.shared, q) else (.own, p))
  | some p, none => some (.own, p)
  | none, some q => some (.shared, q)
  | none, none => none

/-- Let the clock come to a timer, and the timer fire. -/
def letFire (s : Session) (desk : DeskName) (t : Timer) : Session :=
  let (frames, s) := { s with clock := max s.clock t.due }.fire desk t
  s.settleAll frames

/-- More timers than an application sets while it waits. -/
def timerLimit : Nat := 1000000

/-- Let the timers fire that are due until some time. -/
def fireUntil (target : Nat) : Nat → Session → Session
  | 0, s => s
  | n + 1, s =>
    match s.nextTimer? with
    | none => s
    | some (desk, t) => if t.due ≤ target then fireUntil target n (s.letFire desk t) else s

def sleep (s : Session) (ms : Nat) : Session :=
  let target := s.clock + ms
  { fireUntil target timerLimit s with clock := target }

/-- What can be told about something an application waits for. -/
inductive Status where
  | pending
  | ended (e : Ending)
  | answered (m : Message)
  | failed (why : Failure)
  /-- The conversation is gone, and its end will not be known. -/
  | closed

def correlationOf (s : Session) (n : Nat) : String :=
  ((s.exchanges.get? n).map fun x => x.conversation.correlation).getD ""

def status (s : Session) : Handle → Status
  | .failed why => .failed why
  | .ending n =>
    match s.awaited n with
    | .pending => .pending
    | .resolved e => .ended e
    | .dropped => .closed
  | .conversation n =>
    match s.awaited n with
    | .pending => .pending
    | .resolved e => .ended e
    | .dropped => .failed (.conversationAborted (s.correlationOf n))
  | .answer n =>
    match s.awaited n with
    | .pending => .pending
    | .resolved e =>
      match e.payloads with
      | m :: _ => .answered m
      | [] => .failed (.noResponse (s.correlationOf n))
    | .dropped => .failed (.conversationAborted (s.correlationOf n))

def isPending (s : Session) (h : Handle) : Bool :=
  match s.status h with
  | .pending => true
  | _ => false

/-- Let time pass until something is known, or no timer is left that could tell. -/
def awaitWithin (h : Handle) : Nat → Session → Session
  | 0, s => s
  | n + 1, s =>
    if s.isPending h then
      match s.nextTimer? with
      | none => s
      | some (desk, t) => awaitWithin h n (s.letFire desk t)
    else s

def await (s : Session) (h : Handle) : Session := awaitWithin h timerLimit s

end Session
end Colloquy
