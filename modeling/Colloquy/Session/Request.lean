/-
Sending requests and answers.

A request that opens a conversation is listened for before it goes out, so that even the
fastest answer finds its conversation.  If it cannot go out, the conversation is aborted.
-/
import Colloquy.Session.Exchange

namespace Colloquy
namespace Session

/-- Where the requests of a context come from; without a context from nowhere. -/
def origin (s : Session) : Origin :=
  match s.context with
  | some x => x.origin
  | none => default

def terms (s : Session) (o : Options) : Terms where
  responseTimeoutMs :=
    match o.responseTimeoutMs with
    | some ms => ms
    | none => (s.context.map Context.responseTimeoutMs).getD 0
  ackTimeoutMs := o.ackTimeoutMs
  wait := o.wait

/-- The message of a request.  A null payload is none. -/
def requestMessage (s : Session) (r : Requester) (payload : Json.Value) : Message × Session :=
  let (correlation, s) :=
    match r.joins with
    | some m => (m.correlation, s)
    | none => s.fresh
  let (id, s) := s.fresh
  let payload := if payload.isNull then none else some payload
  (s.origin.request s.now id correlation r.namesp r.options payload, s)

def converse (s : Session) (r : Requester) (m : Message) :
    Except Failure (Option Nat) × List Frame × Session :=
  let (n, s) := s.place .shared m.correlation (s.origin.responseTopic r.namesp)
    (s.terms r.options) r.callbacks
  match s.listen n with
  | (.error why, s) => (.error why, [.report none r.callbacks (.failed why)], s)
  | (.ok _, s) =>
    match s.channels.send s.now r.namesp m with
    | (.error why, c) =>
      let (frames, s) := { s with channels := c }.abort n why
      (.error why, frames, s)
    | (.ok _, c) => (.ok (some n), [], { s with channels := c }.wait n)

/-- Send a request.  What is opened is the conversation, if the request asks for one.  The
error callback is told why a request cannot be sent. -/
def publish (s : Session) (r : Requester) (payload : Json.Value) :
    Except Failure (Option Nat) × List Frame × Session :=
  let (m, s) := s.requestMessage r payload
  match s.channels.producer r.namesp with
  | (.error why, c) =>
    (.error why, [.report none r.callbacks (.failed why)], { s with channels := c })
  | (.ok _, c) =>
    let s := { s with channels := c }
    if r.options.opensConversation then s.converse r m
    else
      match s.channels.send s.now r.namesp m with
      | (.error why, c) =>
        (.error why, [.report none r.callbacks (.failed why)], { s with channels := c })
      | (.ok _, c) => (.ok none, [], { s with channels := c })

/-- Send a request with what the application hands over.  A value that cannot be turned into a
payload is a failure before anything is done. -/
def offer (s : Session) (r : Requester) (value : Except (Json.Fault × String) Json.Value) :
    Except Failure (Option Nat) × List Frame × Session :=
  match value with
  | .ok payload => s.publish r payload
  | .error (fault, detail) =>
    let why := Failure.serialization fault detail
    (.error why, [.report none r.callbacks (.failed why)], s)

def single (r : Requester) : Requester :=
  { r with options := { r.options with wait := .exactly 1 } }

/-- Send an answer.  A request that names no topic for answers gets none. -/
def respond (s : Session) (r : Responder) (ack : Ack) (payload : Option Json.Value) :
    Except Failure Unit × Session :=
  match r.request.route.response with
  | none => (.ok (), s)
  | some topic =>
    let (id, s) := s.fresh
    match s.origin.answer s.now id r.request r.template (some ack) payload with
    | .error why => (.error why, s)
    | .ok m =>
      let (result, c) := s.channels.publish s.now topic m
      (result, { s with channels := c })

def responder (s : Session) (request : Message) (template : Template) : Responder × Session :=
  let (id, s) := s.fresh
  ({ id, request, template }, s)

end Session
end Colloquy
