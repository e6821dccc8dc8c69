/-
How a conversation ends, and what it had collected by then.
-/
import Colloquy.Message.Wire

namespace Colloquy

inductive Reason where
  /-- Every answer that was expected came, and no window for acknowledgements was open. -/
  | allResponsesReceived
  /-- The deadline for answers passed. -/
  | responseTimeout
  /-- The window for acknowledgements closed and no more answers were expected. -/
  | ackTimeout
  deriving DecidableEq, Repr

def Reason.name : Reason → String
  | allResponsesReceived => "allResponsesReceived"
  | responseTimeout => "responseTimeout"
  | ackTimeout => "ackTimeout"

structure Ending where
  correlation : String
  reason : Reason
  /-- The messages with a payload, in the order of their arrival. -/
  payloads : List Message
  /-- The messages with an acknowledgement and no payload, in the order of their arrival. -/
  acks : List Message
  deriving BEq

/-- A report of the ending, with its messages in their wire form. -/
def Ending.toJson? (e : Ending) : Option Json.Value := do
  let payloads ← e.payloads.mapM Message.toJson?
  let acks ← e.acks.mapM Message.toJson?
  some (.object [("correlationId", .text e.correlation), ("reason", .text e.reason.name),
    ("payloads", .array payloads), ("acks", .array acks)])

end Colloquy
