/-
Sessions: one run of an application on a broker.

A session has the channels to the broker, the conversations that were started, and the
things the application keeps.  Two desks hold conversations: the application's own, on
which it places conversations by hand, and the one of the messaging context, which its
requesters use.

What happens is put down as frames.  A frame is one thing to do without a break; what
follows from it is done before the frames that wait below.
-/
import Colloquy.Inbox
import Colloquy.Conversation
import Colloquy.Roles
import Colloquy.Ident
import Colloquy.Settings

namespace Colloquy

inductive DeskName where
  | own
  | shared
  deriving DecidableEq

inductive Handler where
  | script (topic : String) (actions : List Action)
  | inbox (desk : DeskName) (topic : String)
  | server (s : Server)

structure Desk where
  inboxes : Table String Inbox := {}
  timers : Timers := {}

/-- A conversation, the callbacks that follow it, and the desk it lies on. -/
structure Exchange where
  conversation : Conversation
  callbacks : Callbacks
  desk : DeskName

/-- A delivery with its receipt.  One that has no body did not come from the broker. -/
structure Delivery where
  receipt : Receipt
  body : Option Bytes

structure Context where
  origin : Origin
  responseTimeoutMs : Nat
  shutDown : Bool := false

/-- What an application waits for by name. -/
inductive Handle where
  /-- The end of a conversation placed by hand. -/
  | ending (exchange : Nat)
  /-- The end of the conversation of a request. -/
  | conversation (exchange : Nat)
  /-- The first answer to a request. -/
  | answer (exchange : Nat)
  | failed (why : Failure)

structure Session where
  channels : Channels Handler
  /-- The time at which the clock stood at zero. -/
  start : Instant
  /-- Milliseconds since then. -/
  clock : Nat := 0
  nextIdent : Nat := 0
  own : Desk := {}
  shared : Desk := {}
  context : Option Context := none
  exchanges : Table Nat Exchange := {}
  nextExchange : Nat := 0
  deliveries : Table Nat Delivery := {}
  nextDelivery : Nat := 0
  held : List Nat := []
  /-- The deliveries that a raw subscriber kept. -/
  heldRaw : List (String × Bytes) := []
  conversations : Table String Nat := {}
  requesters : Table String Requester := {}
  servers : Table String Server := {}
  responders : Table String Responder := {}
  handles : Table String Handle := {}
  consumers : Table String Nat := {}
  producers : Table String Nat := {}
  /-- The inboxes that were looked at, by topic. -/
  inboxes : List String := []

/-- What the actions of a script can refer to. -/
structure Scope where
  delivery : Option Nat := none
  responder : Option Responder := none
  message : Option Message := none

/-- Who called a script. -/
inductive Guard where
  | delivery (id : Nat) (messageId : String)
  | callback (name : String)
  /-- A server, for the request of a delivery. -/
  | request (s : Server) (r : Responder) (delivery : Nat)
  | recovery (s : Server) (delivery : Nat)

inductive Frame where
  | script (scope : Scope) (todo : List Action) (guard : Guard)
  /-- A script has come out. -/
  | verdict (outcome : Outcome) (guard : Guard)
  /-- Call a callback: one of a conversation, or of a request that opened none. -/
  | report (exchange : Option Nat) (callbacks : Callbacks) (r : Report)
  /-- A conversation has ended: unregister it and tell about it. -/
  | close (exchange : Nat) (e : Ending)
  /-- Let those who wait know how a conversation ended. -/
  | resolve (exchange : Nat) (e : Ending)
  | abortInboxes (desk : DeskName) (topics : List String) (why : Failure)
  | abortAll (exchanges : List Nat) (why : Failure)
  | stopTimers (desk : DeskName)
  | closeChannels
  /-- The subscriber is done with the delivery of a worker. -/
  | release (worker : Nat)

namespace Session

def now (s : Session) : Instant := (s.start.addMillis? s.clock).getD s.start

def fresh (s : Session) : String × Session :=
  (Ident.text s.nextIdent, { s with nextIdent := s.nextIdent + 1 })

def record (s : Session) (t : Trace) : Session := { s with channels := s.channels.record t }

def happen (s : Session) (h : Happening) : Session := s.record [.happening h]

def note (s : Session) (n : Note) : Session := s.record [.note n]

def desk (s : Session) : DeskName → Desk
  | .own => s.own
  | .shared => s.shared

def setDesk (s : Session) (d : Desk) : DeskName → Session
  | .own => { s with own := d }
  | .shared => { s with shared := d }

def setTimers (s : Session) (name : DeskName) (t : Timers) : Session :=
  s.setDesk { s.desk name with timers := t } name

/-- The inbox of a topic, made if need be. -/
def inbox (s : Session) (name : DeskName) (topic : String) : Inbox :=
  (s.desk name).inboxes.getD topic { topic }

def setInbox (s : Session) (name : DeskName) (i : Inbox) : Session :=
  s.setDesk { s.desk name with inboxes := (s.desk name).inboxes.put i.topic i } name

def setConversation (s : Session) (n : Nat) (c : Conversation) : Session :=
  { s with exchanges := s.exchanges.update n fun x => { x with conversation := c } }

def watch (s : Session) (x : Exchange) : Watch where
  conversation := x.conversation
  timers := (s.desk x.desk).timers

def putWatch (s : Session) (n : Nat) (desk : DeskName) (w : Watch) : Session :=
  ((s.setConversation n w.conversation).setTimers desk w.timers).record (w.notes.map .note)

def isRegistered (s : Session) (n : Nat) (x : Exchange) : Bool :=
  (s.inbox x.desk x.conversation.topic).members.get? x.conversation.correlation == some n

/-- Whether nobody can reach a conversation any more: it is neither registered nor kept
under a name. -/
def isAbandoned (s : Session) (n : Nat) (x : Exchange) : Bool :=
  !s.isRegistered n x && !s.conversations.values.contains n

/-- Whether a consumer is still there: the one of its topic, or one that was kept. -/
def hasConsumer (s : Session) (n : Nat) : Bool :=
  s.channels.consumers.values.contains n || s.consumers.values.contains n

end Session
end Colloquy
