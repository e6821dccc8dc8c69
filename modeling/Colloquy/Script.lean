/-
Scripts: what the callbacks and handlers of an application do.

A script is a list of actions that are taken in order.  An action that fails ends its
script, and so does a panic; who called the script decides what follows from that.
-/
import Colloquy.Ending
import Colloquy.Receipt
import Colloquy.Request.Options

namespace Colloquy

/-- A message an application is going to send or hand over.  `age` says how many
milliseconds earlier than now it was made, where that is not left to the stamp. -/
structure Draft where
  message : Message
  age : Option Int := none

def Draft.at (d : Draft) (now : Instant) : Message :=
  match d.age with
  | none => d.message
  | some age =>
    let made := if 0 ≤ age then now.subMillis? age.toNat else now.addMillis? (-age).toNat
    { d.message with stamp := { d.message.stamp with createdAt := made.getD now } }

inductive Action where
  /-- A call on the receipt of the delivery at hand. -/
  | settle (call : Receipt.Call)
  /-- Keep the receipt for later. -/
  | hold
  | fail (reason : String)
  | failUnlessRedelivered (reason : String)
  /-- Panic, with a text or with something else. -/
  | panic (reason : Option String)
  | unsubscribe (topic : String)
  | publish (topic : String) (draft : Draft)
  | handle (conversation : String) (draft : Draft)
  | abort (conversation reason : String)
  | listen (conversation : String)
  | acknowledge (timeoutMs : Option Nat) (remaining : Option Int)
  | answer (payload : Json.Value)
  | echo
  /-- Answer with the payload of the request and a number that tells the answers apart. -/
  | echoNumbered (index : Nat)
  /-- Answer with twice the number in the payload of the request. -/
  | double
  | holdResponder (name : String)
  /-- Send a request, in a conversation of its own. -/
  | request (requester : String) (payload : Json.Value)
  /-- Send a request in the conversation of the message at hand. -/
  | chain (requester : String) (payload : Json.Value)
  | shutdown

inductive Outcome where
  | done
  | failed (reason : String)
  | panicked (reason : Option String)
  deriving DecidableEq

/-- What a subscriber that works on the broker directly does with each delivery. -/
inductive RawAction where
  | settle (s : Settlement)
  /-- Confirm a second delivery and have a first one delivered again. -/
  | retryOnce
  | unsubscribe (topic : String)
  | publish (topic text : String)
  | hold

/-- Whom the callbacks of a conversation belong to. -/
inductive Owner where
  | conversation (name : String)
  | requester (name : String)
  deriving DecidableEq

structure Callbacks where
  owner : Owner
  acknowledged : Option (List Action) := none
  answered : Option (List Action) := none
  ended : Option (List Action) := none
  failed : Option (List Action) := none

inductive Report where
  | acknowledged (ack : Ack) (message : Message)
  | answered (message : Message)
  | ended (ending : Ending)
  | failed (why : Failure)

namespace Report

def callback : Report → String
  | acknowledged _ _ => "acknowledge"
  | answered _ => "response"
  | ended _ => "end"
  | failed _ => "error"

def message? : Report → Option Message
  | acknowledged _ m => some m
  | answered m => some m
  | _ => none

end Report

/-- The message at hand in a callback.  Only the callbacks of a requester go on from what
they are told about. -/
def Callbacks.message? (c : Callbacks) (r : Report) : Option Message :=
  match c.owner with
  | .conversation _ => none
  | .requester _ => r.message?

def Callbacks.script? (c : Callbacks) : Report → Option (List Action)
  | .acknowledged _ _ => c.acknowledged
  | .answered _ => c.answered
  | .ended _ => c.ended
  | .failed _ => c.failed

end Colloquy
