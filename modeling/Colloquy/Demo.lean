/-
A conversation to look at.

One session both serves and requests, over a broker in memory.  The server announces how
many answers it will send and then sends them, and the result tells how the conversation
ended.
-/
import Colloquy.Session.Command

namespace Colloquy

structure Demo where
  namesp : String := "demo:echo"
  /-- How many answers the server sends. -/
  responses : Nat := 1
  /-- How many answers the requester waits for: 0 for none, and a negative number until
  the deadline. -/
  wait : Int := 1
  responseTimeoutMs : Option Nat := none
  ackTimeoutMs : Option Nat := none
  deriving DecidableEq

/-- What a program finds around it. -/
structure Surroundings where
  now : Instant
  hostname : String
  pid : Nat
  /-- The number of the first identifier. -/
  firstIdent : Nat := 0

namespace Demo

/-- The most answers that an acknowledgement can announce. -/
def mostAnnounced : Int := Word.intMax 32

def name : String := "demo"

def actions (d : Demo) : List Action :=
  if mostAnnounced < d.responses then [.fail "number too large to fit in target type"]
  else .acknowledge none (some d.responses) :: (List.range d.responses).map .echoNumbered

def server (d : Demo) : Server where
  name := name
  namesp := d.namesp
  template := {}
  actions := d.actions

def requester (d : Demo) : Requester where
  namesp := d.namesp
  options := {
    wait := .ofInt d.wait
    responseTimeoutMs := d.responseTimeoutMs
    ackTimeoutMs := d.ackTimeoutMs }
  callbacks := { owner := .requester name }

def payload : Json.Value := .object [("hello", .text "world")]

inductive Result where
  | ended (e : Ending)
  /-- The request was sent, and nothing was waited for. -/
  | sent
  | failed (why : Failure)

/-- What came of waiting for the end of the conversation. -/
def resultOf (correlation : String) : Session.Status → Result
  | .ended e => .ended e
  | .failed why => .failed why
  | _ => .failed (.conversationAborted correlation)

/-- Send the request, and wait for the end of the conversation if it opens one. -/
def converse (d : Demo) (s : Session) : Result × Session :=
  let (_, s) := s.run (.requester name d.requester none)
  match s.run (.send name name payload) with
  | (.sent (some correlation), s) =>
    match s.run (.await name) with
    | (.status status, s) => (resultOf correlation status, s)
    | (_, s) => (.failed (.conversationAborted correlation), s)
  | (.failed why, s) => (.failed why, s)
  | (_, s) => (.sent, s)

/-- Serve, converse and shut down. -/
def play (d : Demo) (s : Session) : Result × Session :=
  let (_, s) := s.run (.server d.server)
  match s.run (.serve name) with
  | (.failed why, s) => (.failed why, s)
  | (_, s) =>
    let (result, s) := d.converse s
    (result, (s.run .shutdown).2)

/-- The result, and the milliseconds until then. -/
def run (d : Demo) (settings : Settings) (around : Surroundings) : Result × Nat :=
  let s := { Session.plain around.now (.memory {}) settings.validateTopics with
    nextIdent := around.firstIdent }
  match s.withSettings settings around.hostname around.pid with
  | .error why => (.failed why, 0)
  | .ok s =>
    let (result, s) := d.play s
    (result, s.clock)

end Demo
end Colloquy
