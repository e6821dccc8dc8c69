/-
The trace of a run: everything that can be seen from outside, in order.
-/
import Colloquy.Monitor
import Colloquy.Script

namespace Colloquy

inductive Happening where
  /-- The broker took a message. -/
  | published (topic : String) (key : Option String) (body : Bytes)
  | subscribed (topic : String)
  | unsubscribed (topic : String)
  | brokerDown
  /-- The broker was told what became of a delivery. -/
  | settled (s : Settlement) (topic : String)
  | monitored (h : Hook) (topic : String)
  /-- A handler got a message. -/
  | handled (topic : String) (m : Message) (redelivered : Bool)
  /-- A subscriber that works on the broker directly got a delivery. -/
  | delivered (topic : String) (body : Bytes) (redelivered : Bool)
  /-- A callback was called. -/
  | reported (owner : Owner) (r : Report)
  /-- A server got a request. -/
  | requested (server : String) (m : Message) (redelivered : Bool)
  /-- The error handler of a server was called. -/
  | requestFailed (server reason correlation : String)

inductive Entry where
  | happening (h : Happening)
  | note (n : Note)

abbrev Trace := List Entry

namespace Trace

def happenings (t : Trace) : List Happening :=
  t.filterMap fun
    | .happening h => some h
    | .note _ => none

def notes (t : Trace) : List Note :=
  t.filterMap fun
    | .note n => some n
    | .happening _ => none

end Trace
end Colloquy
