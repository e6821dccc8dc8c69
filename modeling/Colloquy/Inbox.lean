/-
Inboxes: one topic for the answers of many conversations.

The conversations that take their answers on one topic share one subscription to it, and
each message goes to the conversation with its correlation.  The first member subscribes
the topic, and the last one to leave takes the subscription along.
-/
import Colloquy.Channels

namespace Colloquy

structure Inbox where
  topic : String
  /-- The conversation of each correlation, by number. -/
  members : Table String Nat := {}
  live : Nat := 0
  subscribed : Bool := false

namespace Inbox

def enter (i : Inbox) (correlation : String) (self : Nat) : Inbox :=
  { i with
    members := i.members.put correlation self
    live := if i.members.contains correlation then i.live else i.live + 1 }

/-- Strike a conversation out, if it is the one that is entered. -/
def strike (i : Inbox) (correlation : String) (self : Nat) : Inbox :=
  if i.members.get? correlation = some self then
    { i with members := i.members.erase correlation, live := i.live - 1 }
  else i

def displacement (i : Inbox) (correlation : String) (self : Nat) : Trace :=
  match i.members.get? correlation with
  | some other => if other = self then [] else [.note (.displaced correlation i.topic)]
  | none => []

variable {η : Type}

/-- Register a conversation, and subscribe the topic if it is not.  If that fails the
conversation is struck out again. -/
def register (i : Inbox) (correlation : String) (self : Nat) (handler : η) (c : Channels η) :
    Except Failure Unit × Inbox × Channels η :=
  let c := c.record (i.displacement correlation self)
  let i := i.enter correlation self
  if i.subscribed then (.ok (), i, c)
  else
    match c.subscribe i.topic handler with
    | (.ok _, c) => (.ok (), { i with subscribed := true }, c)
    | (.error why, c) =>
      (.error why, i.strike correlation self, c.note (.inboxNotSubscribed i.topic why))

/-- Unregister a conversation.  The last one to leave unsubscribes the topic. -/
def unregister (i : Inbox) (correlation : String) (self : Nat) (c : Channels η) :
    Inbox × Channels η :=
  if i.members.get? correlation = some self then
    let i := i.strike correlation self
    if i.live = 0 && i.subscribed then
      match c.unsubscribe i.topic with
      | (.ok _, c) => ({ i with subscribed := false }, c)
      | (.error why, c) =>
        ({ i with subscribed := false }, c.note (.inboxNotUnsubscribed i.topic why))
    else (i, c)
  else (i, c)

end Inbox
end Colloquy
