/-
The message: what requests, acknowledgements and answers have in common.

Every message carries the correlation of one conversation.  An answer repeats the
correlation of the request it answers, and that is how it finds the conversation that
waits for it.
-/
import Colloquy.Instant

namespace Colloquy

/-- Where a message goes and where what follows from it is to go. -/
structure Route where
  destination : String
  response : Option String := none
  forward : Option String := none
  routingKey : Option String := none
  deriving DecidableEq, Inhabited

structure Origin where
  name : String
  version : String
  instanceId : String
  hostname : String
  pid : Nat
  deriving DecidableEq, Inhabited

/-- When a message was made, for how long it is good, and by whom. -/
structure Stamp where
  ttl : Option Nat := none
  createdAt : Instant
  publishedAt : Option Instant := none
  durationMs : Option Nat := none
  origin : Origin
  deriving DecidableEq, Inhabited

/-- What a responder tells the requester apart from answers: how many more answers of
this responder to expect, and a deadline counted from the request. -/
structure Ack where
  responderId : String
  responsesRemaining : Option Int := none
  timeoutMs : Option Nat := none
  deriving DecidableEq, Inhabited

structure Message where
  id : String
  correlation : String
  tags : List String := []
  route : Route
  stamp : Stamp
  ack : Option Ack := none
  payload : Option Json.Value := none
  deriving BEq, Inhabited

namespace Message

/-- A null payload counts as none. -/
def hasPayload (m : Message) : Bool :=
  match m.payload with
  | some v => !v.isNull
  | none => false

def content? (m : Message) : Option Json.Value := m.payload.filter fun v => !v.isNull

/-- Whether the time of creation plus the time to live has come.  A message with no time
to live never expires, nor does one whose end cannot be represented. -/
def isExpired (m : Message) (now : Instant) : Bool :=
  match m.stamp.ttl with
  | none => false
  | some ttl =>
    match m.stamp.createdAt.addMillis? ttl with
    | some last => last.ble now
    | none => false

/-- Note the time of publication, and for how many whole milliseconds the message existed
until then, in 64 bits. -/
def markPublished (m : Message) (now : Instant) : Message :=
  { m with stamp := { m.stamp with
      publishedAt := some now
      durationMs := (m.stamp.createdAt.nanosUntil? now).map fun n =>
        n / 1000000 % Word.size 64 } }

end Message
end Colloquy
