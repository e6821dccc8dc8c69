/-
What can be done with a conversation of a session.

Each operation gives the frames that follow from it: callbacks are called after the
conversation has been brought up to date, and the end is told after everything else.
-/
import Colloquy.Session.Basic

namespace Colloquy
namespace Session

def place (s : Session) (desk : DeskName) (correlation topic : String) (terms : Terms)
    (callbacks : Callbacks) : Nat × Session :=
  let n := s.nextExchange
  let s := s.setInbox desk (s.inbox desk topic)
  (n, { s with
    exchanges := s.exchanges.put n
      { conversation := .start correlation topic s.clock terms, callbacks, desk }
    nextExchange := n + 1 })

def register (s : Session) (n : Nat) : Except Failure Unit × Session :=
  match s.exchanges.get? n with
  | none => (.ok (), s)
  | some x =>
    let topic := x.conversation.topic
    let (r, i, c) := (s.inbox x.desk topic).register x.conversation.correlation n
      (.inbox x.desk topic) s.channels
    (r, { s.setInbox x.desk i with channels := c })

def unregister (s : Session) (n : Nat) : Session :=
  match s.exchanges.get? n with
  | none => s
  | some x =>
    let (i, c) := (s.inbox x.desk x.conversation.topic).unregister
      x.conversation.correlation n s.channels
    { s.setInbox x.desk i with channels := c }

/-- Open the window for acknowledgements and listen to the answers. -/
def listen (s : Session) (n : Nat) : Except Failure Unit × Session :=
  match s.exchanges.get? n with
  | none => (.ok (), s)
  | some x =>
    let c := x.conversation.listen
    match (s.setConversation n c).register n with
    | (.ok _, s) => (.ok (), s)
    | (.error why, s) => (.error why, s.setConversation n c.refuse)

def wait (s : Session) (n : Nat) : Session :=
  match s.exchanges.get? n with
  | none => s
  | some x => s.putWatch n x.desk ((s.watch x).wait n s.clock)

def reportOf (n : Nat) (callbacks : Callbacks) (m : Message) : List Frame :=
  if m.hasPayload then [.report (some n) callbacks (.answered m)]
  else
    match m.ack with
    | some a => [.report (some n) callbacks (.acknowledged a m)]
    | none => []

def closing (n : Nat) : Option Ending → List Frame
  | some e => [.close n e]
  | none => []

def handle (s : Session) (n : Nat) (m : Message) : List Frame × Session :=
  match s.exchanges.get? n with
  | none => ([], s)
  | some x =>
    match (s.watch x).receive n s.clock m with
    | none => ([], s)
    | some (w, ending) => (reportOf n x.callbacks m ++ closing n ending, s.putWatch n x.desk w)

/-- Tear a conversation down.  Its error callback is called in any case. -/
def abort (s : Session) (n : Nat) (why : Failure) : List Frame × Session :=
  match s.exchanges.get? n with
  | none => ([], s)
  | some x =>
    let s :=
      match (s.watch x).abort with
      | (false, _) => s
      | (true, w) => (s.putWatch n x.desk w).unregister n
    ([.report (some n) x.callbacks (.failed why)], s)

/-- A timer fires.  It does nothing to a conversation that nobody can reach. -/
def fire (s : Session) (desk : DeskName) (t : Timer) : List Frame × Session :=
  let s := s.setTimers desk ((s.desk desk).timers.cancel t.id)
  match s.exchanges.get? t.owner with
  | none => ([], s)
  | some x =>
    if s.isAbandoned t.owner x then ([], s)
    else
      match t.kind with
      | .response =>
        match (s.watch x).onResponseTimer t.id with
        | none => ([], s)
        | some (w, e) => ([.close t.owner e], s.putWatch t.owner desk w)
      | .ack =>
        match (s.watch x).onAckTimer t.id with
        | none => ([], s)
        | some (w, e) => (closing t.owner e, s.putWatch t.owner desk w)

/-- Let those who wait for the end know it, unless they were told before. -/
def resolve (s : Session) (n : Nat) (e : Ending) : Session :=
  match s.exchanges.get? n with
  | none => s
  | some x =>
    match x.conversation.completion with
    | .closing => s.setConversation n { x.conversation with completion := .resolved e }
    | _ => s

inductive Awaited where
  | pending
  | resolved (e : Ending)
  | dropped

/-- An abandoned conversation will never tell its end. -/
def awaited (s : Session) (n : Nat) : Awaited :=
  match s.exchanges.get? n with
  | none => .dropped
  | some x =>
    match x.conversation.completion with
    | .resolved e => .resolved e
    | .dropped => .dropped
    | _ => if s.isAbandoned n x then .dropped else .pending

end Session
end Colloquy
