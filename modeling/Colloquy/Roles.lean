/-
The parts that take turns in a conversation: requesters, responders and servers.
-/
import Colloquy.Request
import Colloquy.Script

namespace Colloquy

/-- Sends requests to one namespace.  A requester that joins a message sends them in the
conversation of that message instead of starting one for each. -/
structure Requester where
  namesp : String
  options : Options
  joins : Option Message := none
  callbacks : Callbacks

/-- Answers one request.  All its acknowledgements carry the same id. -/
structure Responder where
  id : String
  request : Message
  template : Template

namespace Responder

/-- Announces more answers and asks for a deadline; one answer if nothing is said. -/
def announcement (r : Responder) (timeoutMs : Option Nat) (remaining : Option Int) : Ack where
  responderId := r.id
  responsesRemaining := some (remaining.getD 1)
  timeoutMs := timeoutMs

/-- Goes with each answer, and uses up one that was announced. -/
def deduction (r : Responder) : Ack where
  responderId := r.id
  responsesRemaining := some (-1)

end Responder

/-- Answers the requests to a namespace with a script.  Without an error handler a failed
request is answered with a report of the failure. -/
structure Server where
  name : String
  namesp : String
  template : Template
  actions : List Action
  recovery : Option (List Action) := none

end Colloquy
