/-
What a session does with deliveries of the broker, and how it settles them.
-/
import Colloquy.Session.Request

namespace Colloquy
namespace Session

/-- Tell the broker what became of a delivery that has a receipt.  A delivery with no body
did not come from the broker, and telling it changes nothing there. -/
def forward (s : Session) (d : Delivery) (x : Settlement) : Session :=
  match d.body with
  | none =>
    let s := s.happen (.settled x d.receipt.topic)
    match s.channels.broker.refusal? d.receipt.topic with
    | some why => s.note (.settlementRefused x d.receipt.topic why)
    | none => s
  | some body =>
    match s.channels.broker.settle x d.receipt.topic body with
    | (.ok b, t) => { s with channels := { s.channels with broker := b } }.record t
    | (.error why, t) => (s.record t).note (.settlementRefused x d.receipt.topic why)

def settle (s : Session) (n : Nat) (call : Receipt.Call) : Session :=
  match s.deliveries.get? n with
  | none => s
  | some d =>
    let o := d.receipt.call call
    let d := { d with receipt := o.receipt }
    let s := { s with deliveries := s.deliveries.put n d }.record (o.notes.map .note)
    match o.forward with
    | some x => s.forward d x
    | none => s

def accept (s : Session) (receipt : Receipt) (body : Option Bytes) : Nat × Session :=
  let n := s.nextDelivery
  (n, { s with deliveries := s.deliveries.put n { receipt, body }, nextDelivery := n + 1 })

/-- The message of a delivery comes to its inbox.  If no conversation waits for it, it is
rejected. -/
def arrive (s : Session) (desk : DeskName) (topic : String) (delivery : Nat) (m : Message) :
    List Frame × Session :=
  match (s.inbox desk topic).members.get? m.correlation with
  | some n => s.handle n m
  | none =>
    ([], (s.note (.noConversation m.correlation topic m.id)).settle delivery (.automatic .reject))

def dispatch (s : Session) (h : Handler) (delivery : Nat) (redelivered : Bool) (m : Message) :
    List Frame × Session :=
  let guard := Guard.delivery delivery m.id
  match h with
  | .script topic actions =>
    ([.script { delivery := some delivery } actions guard],
      s.happen (.handled topic m redelivered))
  | .inbox desk topic =>
    let (frames, s) := s.arrive desk topic delivery m
    (frames ++ [.verdict .done guard], s)
  | .server sv =>
    let (r, s) := s.responder m sv.template
    ([.script { delivery := some delivery, responder := some r, message := some m } sv.actions
        (.request sv r delivery), .verdict .done guard],
      s.happen (.requested sv.name m redelivered))

def consume (s : Session) (k : Consumer Handler) (e : Envelope) : List Frame × Session :=
  let (n, s) := s.accept { topic := k.topic, redelivered := e.redelivered } (some e.body)
  let s := { s with channels := s.channels.monitor .received k.topic }
  let drop := fun (why : Note) => ([], (s.note why).settle n (.automatic .reject))
  match k.admit s.now e.body with
  | .undecodable why => drop (.undecodable k.topic why)
  | .expired m => drop (.expired m.correlation m.id k.topic)
  | .unhandled m => drop (.unhandled k.topic m.id)
  | .admitted m h => s.dispatch h n e.redelivered m

/-- Settle a delivery that has no receipt. -/
def settleRaw (s : Session) (topic : String) (body : Bytes) (x : Settlement) :
    Except Failure Unit × Session :=
  match s.channels.broker.settle x topic body with
  | (.ok b, t) => (.ok (), { s with channels := { s.channels with broker := b } }.record t)
  | (.error why, t) => (.error why, s.record t)

def publishRaw (s : Session) (topic : String) (key : Option String) (body : Bytes) :
    Except Failure Unit × Session :=
  match s.channels.broker.publish topic key body with
  | .ok (b, t) => (.ok (), { s with channels := { s.channels with broker := b } }.record t)
  | .error why => (.error why, s)

def subscribeRaw (s : Session) (topic : String) (actions : List RawAction) :
    Except Failure Unit × Session :=
  match s.channels.broker.subscribe topic (.raw topic actions) with
  | .ok (b, t) => (.ok (), { s with channels := { s.channels with broker := b } }.record t)
  | .error why => (.error why, s)

def unsubscribeRaw (s : Session) (topic : String) : Except Failure Unit × Session :=
  match s.channels.broker.unsubscribe topic with
  | .ok (b, t) => (.ok (), { s with channels := { s.channels with broker := b } }.record t)
  | .error why => (.error why, s)

/-- One action of a raw subscriber.  Whether it fails makes no difference. -/
def actRaw (s : Session) (topic : String) (e : Envelope) : RawAction → Session
  | .settle x => (s.settleRaw topic e.body x).2
  | .retryOnce => (s.settleRaw topic e.body (if e.redelivered then .confirm else .retry)).2
  | .unsubscribe t => (s.unsubscribeRaw t).2
  | .publish t text => (s.publishRaw t none (Utf8.encode text)).2
  | .hold => { s with heldRaw := s.heldRaw ++ [(topic, e.body)] }

/-- A delivery of the broker.  A consumer that is gone rejects it. -/
def deliver (s : Session) (subscriber : Subscriber) (topic : String) (e : Envelope) :
    List Frame × Session :=
  match subscriber with
  | .raw topic actions =>
    ([], actions.foldl (fun s a => s.actRaw topic e a)
      (s.happen (.delivered topic e.body e.redelivered)))
  | .consumer n =>
    match (if s.hasConsumer n then s.channels.made.get? n else none) with
    | some k => s.consume k e
    | none => ([], (s.settleRaw topic e.body .reject).2)

end Session
end Colloquy
