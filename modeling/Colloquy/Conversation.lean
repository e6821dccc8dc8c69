/-
Conversations: what a request waits for, and how its waiting ends.

A conversation counts the answers that are still to come, holds the deadline for them and
a window in which acknowledgements keep it open, and ends when nothing is outstanding and
the window is closed, or when a deadline passes.  Each acknowledgement may announce more
answers of its responder and ask for a later deadline.

The counts of responders add up, and the conversation waits for that sum or for what the
request itself expects, whichever is more.  A message that comes a second time is recorded
again, and may extend the deadline, but does not count again.

All times are milliseconds of one clock.
-/
import Colloquy.Ending
import Colloquy.Request.Options
import Colloquy.Table
import Colloquy.Timers
import Colloquy.Word

namespace Colloquy

/-- What the one who started a conversation can learn about its end. -/
inductive Completion where
  | waiting
  /-- The conversation has ended, and its last callback is still to be called. -/
  | closing
  | resolved (e : Ending)
  /-- It will never be known. -/
  | dropped

structure Terms where
  responseTimeoutMs : Nat
  ackTimeoutMs : Option Nat := none
  wait : Wait := .none

structure Conversation where
  correlation : String
  topic : String
  startedAt : Nat
  /-- The window for acknowledgements, from the start. -/
  ackTimeoutMs : Option Nat
  /-- Never end because of a count. -/
  untilTimeout : Bool
  /-- The deadline for answers, from the start. -/
  timeoutMs : Nat
  ackDeadline : Option Nat := none
  /-- How many answers the request still expects. -/
  outstanding : Nat
  /-- The deadline that each responder asked for last. -/
  suggested : Table String Nat := {}
  /-- How many answers each responder has announced and not sent. -/
  announced : Table String Nat := {}
  acks : List Message := []
  payloads : List Message := []
  seen : List String := []
  responseTimer : Option Nat := none
  ackTimer : Option Nat := none
  arms : Nat := 0
  ended : Bool := false
  completion : Completion := .waiting

def countLimit : Nat := Word.natMax 32

namespace Conversation

def start (correlation topic : String) (now : Nat) (terms : Terms) : Conversation where
  correlation := correlation
  topic := topic
  startedAt := now
  ackTimeoutMs := terms.ackTimeoutMs
  untilTimeout := terms.wait = .untilTimeout
  timeoutMs := terms.responseTimeoutMs
  outstanding := terms.wait.expected

def announcedTotal (c : Conversation) : Nat := c.announced.values.foldr (fun n t => n + t) 0

def remaining (c : Conversation) : Nat :=
  max c.outstanding (min c.announcedTotal countLimit)

def awaitsAnswers (c : Conversation) : Bool := c.untilTimeout || decide (0 < c.remaining)

def awaitsAcks (c : Conversation) (now : Nat) : Bool :=
  match c.ackDeadline with
  | some deadline => decide (now < deadline)
  | none => false

/-- Count what a responder announces.  Its first word counts if it is not negative, a zero
resets its count, and anything else is added to it. -/
def announce (c : Conversation) (responder : String) (n : Int) : Conversation :=
  match c.announced.get? responder with
  | none =>
    if n < 0 then c else { c with announced := c.announced.put responder n.toNat }
  | some k =>
    let k' := if n = 0 then 0 else min (k + n).toNat countLimit
    { c with announced := c.announced.put responder k' }

def suggest (c : Conversation) (responder : String) (ms : Nat) : Conversation :=
  { c with suggested := c.suggested.put responder ms }

def foldedTimeout (c : Conversation) : Nat := c.suggested.values.foldl max c.timeoutMs

/-- Record a message and, the first time it comes, count it as an answer if it is one. -/
def record (c : Conversation) (m : Message) : Conversation :=
  let first := !c.seen.contains m.id
  let c := if first then { c with seen := c.seen ++ [m.id] } else c
  if m.hasPayload then
    { c with
      payloads := c.payloads ++ [m]
      outstanding := if first then c.outstanding - 1 else c.outstanding }
  else if m.ack.isSome then { c with acks := c.acks ++ [m] }
  else c

/-- Take in what an acknowledgement announces and asks for, but for the timer. -/
def takeAck (c : Conversation) (a : Ack) (first : Bool) : Conversation :=
  let c :=
    match a.responsesRemaining with
    | some n => if first then c.announce a.responderId n else c
    | none => c
  match a.timeoutMs with
  | some ms => c.suggest a.responderId ms
  | none => c

def ending (c : Conversation) (reason : Reason) : Ending where
  correlation := c.correlation
  reason := reason
  payloads := c.payloads
  acks := c.acks

def listen (c : Conversation) : Conversation :=
  match c.ackTimeoutMs with
  | some ms => if 0 < ms then { c with ackDeadline := some (c.startedAt + ms) } else c
  | none => c

/-- The answers cannot be listened to. -/
def refuse (c : Conversation) : Conversation :=
  { c with
    ended := true
    completion := match c.completion with
      | .waiting => .dropped
      | k => k }

end Conversation

/-- A conversation with the timers that watch over it. -/
structure Watch where
  conversation : Conversation
  timers : Timers
  notes : List Note := []

namespace Watch

/-- Set the timer for answers anew, for what is left until the deadline. -/
def armResponse (w : Watch) (self now : Nat) : Watch :=
  let c := w.conversation
  let timers := w.timers.cancel? c.responseTimer
  let (id, timers, notes) :=
    timers.schedule .response self now (c.startedAt + c.timeoutMs - now)
  { conversation := { c with responseTimer := id, arms := c.arms + 1 }
    timers := timers
    notes := w.notes ++ notes }

/-- Set the timer for the window of acknowledgements unless it is set.  Says whether the
window is open. -/
def armAck (w : Watch) (self now : Nat) : Bool × Watch :=
  let c := w.conversation
  match c.ackDeadline with
  | none => (false, w)
  | some deadline =>
    if deadline ≤ now then (false, w)
    else if c.ackTimer.isSome then (true, w)
    else
      let (id, timers, notes) := w.timers.schedule .ack self now (deadline - now)
      (true, {
        conversation := { c with ackTimer := id }
        timers := timers
        notes := w.notes ++ notes })

/-- The request is out: wait for its answers, or at least for the window to close. -/
def wait (w : Watch) (self now : Nat) : Watch :=
  if w.conversation.ended then w
  else
    let w := w.armResponse self now
    if w.conversation.awaitsAnswers then w else (w.armAck self now).2

def cancelTimers (w : Watch) : Watch :=
  let c := w.conversation
  { w with
    conversation := { c with responseTimer := none, ackTimer := none }
    timers := (w.timers.cancel? c.responseTimer).cancel? c.ackTimer }

def finish (w : Watch) (reason : Reason) : Watch × Ending :=
  let e := w.conversation.ending reason
  let w := w.cancelTimers
  ({ w with conversation := { w.conversation with ended := true, completion := .closing } }, e)

/-- Take in an acknowledgement.  The timer is set anew if the deadline moves. -/
def foldAck (w : Watch) (self now : Nat) (a : Ack) (first : Bool) : Watch :=
  let c := w.conversation.takeAck a first
  let timeout := c.foldedTimeout
  if timeout = c.timeoutMs then { w with conversation := c }
  else { w with conversation := { c with timeoutMs := timeout } }.armResponse self now

def takeIn (w : Watch) (self now : Nat) (m : Message) : Watch :=
  let first := !w.conversation.seen.contains m.id
  let w := { w with conversation := w.conversation.record m }
  match m.ack with
  | some a => w.foldAck self now a first
  | none => w

/-- Handle a message; `none` if the conversation has ended.  With the last answer the
conversation ends, unless the window for acknowledgements is open. -/
def receive (w : Watch) (self now : Nat) (m : Message) : Option (Watch × Option Ending) :=
  if w.conversation.ended then none
  else
    let w := w.takeIn self now m
    if w.conversation.awaitsAnswers then some (w, none)
    else
      match w.armAck self now with
      | (true, w) => some (w, none)
      | (false, w) =>
        let (w, e) := w.finish .allResponsesReceived
        some (w, some e)

/-- A timer for answers fires; `none` if it is not the one that was set last. -/
def onResponseTimer (w : Watch) (id : Nat) : Option (Watch × Ending) :=
  let c := w.conversation
  if c.ended || c.responseTimer ≠ some id then none
  else some ({ w with conversation := { c with responseTimer := none } }.finish .responseTimeout)

/-- A timer for the window of acknowledgements fires.  The conversation stays open if more
answers were announced meanwhile. -/
def onAckTimer (w : Watch) (id : Nat) : Option (Watch × Option Ending) :=
  let c := w.conversation
  if c.ended || c.ackTimer ≠ some id then none
  else
    let w := { w with conversation := { c with ackTimer := none } }
    if w.conversation.awaitsAnswers then some (w, none)
    else
      let (w, e) := w.finish .ackTimeout
      some (w, some e)

/-- Tear the conversation down.  Says whether it was still open. -/
def abort (w : Watch) : Bool × Watch :=
  if w.conversation.ended then (false, w)
  else
    let w := w.cancelTimers
    (true, { w with conversation := { w.conversation with ended := true, completion := .dropped } })

end Watch
end Colloquy
