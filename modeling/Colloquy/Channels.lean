/-
Channels: the producers and consumers of topics.

There is one producer and one consumer a topic, each made when it is first asked for.  A
consumer has one handler at most, and only while it has one does the broker deliver to it.
A consumer that lost its handler is closed for good; the next subscription to its topic
makes a new one.

`η` is what handles messages, and `β` is the broker, of which nothing is known here but what
`BrokerAdapter` asks of it.  `subscribe` and `unsubscribe` are the two operations that change
which handler a topic has.
-/
import Colloquy.Broker
import Colloquy.Message.Wire

namespace Colloquy

inductive Subscriber where
  | consumer (id : Nat)
  | raw (topic : String) (actions : List RawAction)

/-- What the channels ask of a broker.  An operation that fails leaves it as it was, and one that
does not is reported with what can be seen of it. -/
class BrokerAdapter (β : Type) where
  publish (b : β) (topic : String) (key : Option String) (body : Bytes) :
    Except Failure (β × Trace)
  subscribe (b : β) (topic : String) (subscriber : Subscriber) : Except Failure (β × Trace)
  unsubscribe (b : β) (topic : String) : Except Failure (β × Trace)
  shutdown (b : β) : β × Trace

instance : BrokerAdapter (Broker Subscriber) where
  publish := Broker.publish
  subscribe := Broker.subscribe
  unsubscribe := Broker.unsubscribe
  shutdown := Broker.shutdown

namespace Broker

variable (b : Broker Subscriber) (topic : String)

@[simp] theorem adapter_publish (key : Option String) (body : Bytes) :
    BrokerAdapter.publish b topic key body = b.publish topic key body := rfl

@[simp] theorem adapter_subscribe (subscriber : Subscriber) :
    BrokerAdapter.subscribe b topic subscriber = b.subscribe topic subscriber := rfl

@[simp] theorem adapter_unsubscribe :
    BrokerAdapter.unsubscribe b topic = b.unsubscribe topic := rfl

@[simp] theorem adapter_shutdown : BrokerAdapter.shutdown b = b.shutdown := rfl

end Broker

structure Consumer (η : Type) where
  topic : String
  handler : Option η := none
  closed : Bool := false

inductive Admission (η : Type) where
  | undecodable (why : Failure)
  | expired (m : Message)
  | unhandled (m : Message)
  | admitted (m : Message) (handler : η)

/-- Only messages that can be read and have not expired come to a handler. -/
def Consumer.admit {η : Type} (c : Consumer η) (now : Instant) (body : Bytes) : Admission η :=
  match Message.decode body with
  | .error f => .undecodable (.ofFault f)
  | .ok m =>
    if m.isExpired now then .expired m
    else
      match c.handler with
      | none => .unhandled m
      | some h => .admitted m h

structure Channels (η : Type) (β : Type := Broker Subscriber) where
  broker : β
  validateTopics : Bool := true
  /-- The producer of each topic, by number. -/
  producers : Table String Nat := {}
  /-- The consumer of each topic, by number. -/
  consumers : Table String Nat := {}
  /-- Every consumer ever made. -/
  made : Table Nat (Consumer η) := {}
  nextNumber : Nat := 0
  shutDown : Bool := false
  agent : Agent := .silent
  stats : Stats := {}
  trace : Trace := []

namespace Channels

variable {η β : Type}

def record (c : Channels η β) (t : Trace) : Channels η β := { c with trace := c.trace ++ t }

def note (c : Channels η β) (n : Note) : Channels η β := c.record [.note n]

def monitor (c : Channels η β) (h : Hook) (topic : String) : Channels η β :=
  match c.agent with
  | .silent => c
  | .log => c.record [.happening (.monitored h topic)]
  | .stats => { c with stats := c.stats.note h topic }

def checkNew (c : Channels η β) (topic : String) : Except Failure Unit :=
  if c.validateTopics then Topic.check topic else .ok ()

/-- The producer of a topic, made if need be. -/
def producer (c : Channels η β) (topic : String) : Except Failure Nat × Channels η β :=
  if c.shutDown then (.error .shutDown, c)
  else
    match c.producers.get? topic with
    | some n => (.ok n, c)
    | none =>
      match c.checkNew topic with
      | .error why => (.error why, c)
      | .ok _ =>
        let n := c.nextNumber
        (.ok n, { c with
          producers := c.producers.put topic n
          nextNumber := n + 1 }.monitor .producerCreated topic)

/-- The consumer of a topic, made if need be.  A new one has no handler. -/
def consumer (c : Channels η β) (topic : String) : Except Failure Nat × Channels η β :=
  if c.shutDown then (.error .shutDown, c)
  else
    match c.consumers.get? topic with
    | some n => (.ok n, c)
    | none =>
      match c.checkNew topic with
      | .error why => (.error why, c)
      | .ok _ =>
        let n := c.nextNumber
        (.ok n, { c with
          consumers := c.consumers.put topic n
          made := c.made.put n { topic }
          nextNumber := n + 1 }.monitor .consumerCreated topic)

def handler? (c : Channels η β) (topic : String) : Option η := do
  let n ← c.consumers.get? topic
  let k ← c.made.get? n
  k.handler

def isSubscribed (c : Channels η β) (topic : String) : Bool := (c.handler? topic).isSome

/-- Forget the consumer of a topic if it is this one. -/
def forget (c : Channels η β) (topic : String) (n : Nat) : Channels η β :=
  if c.consumers.get? topic = some n then { c with consumers := c.consumers.erase topic } else c

def dropProducer (c : Channels η β) (topic : String) : Channels η β :=
  { c with producers := c.producers.erase topic }.monitor .producerRemoved topic

/-! ## On the broker -/

variable [BrokerAdapter β]

/-- Give a consumer its handler; `false` if the consumer is closed. -/
def attach (c : Channels η β) (n : Nat) (handler : η) : Except Failure Bool × Channels η β :=
  match c.made.get? n with
  | none => (.ok false, c)
  | some k =>
    if k.closed then (.ok false, c)
    else if k.handler.isSome then (.error (.alreadySubscribed k.topic), c)
    else
      match BrokerAdapter.subscribe c.broker k.topic (.consumer n) with
      | .error why => (.error why, c)
      | .ok (b, t) =>
        (.ok true, { c with
          broker := b
          made := c.made.put n { k with handler := some handler } }.record t)

def trySubscribe (c : Channels η β) (topic : String) (handler : η) :
    Except Failure Bool × Channels η β :=
  match c.consumer topic with
  | (.error why, c) => (.error why, c)
  | (.ok n, c) =>
    match c.attach n handler with
    | (.ok false, c) => (.ok false, c.forget topic n)
    | (r, c) => (r, c)

/-- Give a topic its handler.  A closed consumer gives way to a new one. -/
def subscribe (c : Channels η β) (topic : String) (handler : η) :
    Except Failure Unit × Channels η β :=
  match c.trySubscribe topic handler with
  | (.ok false, c) =>
    match c.trySubscribe topic handler with
    | (r, c) => (r.map fun _ => (), c)
  | (r, c) => (r.map fun _ => (), c)

/-- Close a consumer.  It loses its handler even if the broker refuses to let go. -/
def close (c : Channels η β) (n : Nat) : Except Failure Unit × Channels η β :=
  match c.made.get? n with
  | none => (.ok (), c)
  | some k =>
    let c := { c with made := c.made.put n { k with handler := none, closed := true } }
    if k.handler.isNone then (.ok (), c)
    else
      match BrokerAdapter.unsubscribe c.broker k.topic with
      | .error why => (.error why, c)
      | .ok (b, t) => (.ok (), { c with broker := b }.record t)

/-- Take a topic its handler and its consumer.  Nothing happens if it has none. -/
def unsubscribe (c : Channels η β) (topic : String) : Except Failure Unit × Channels η β :=
  match c.consumers.get? topic with
  | none => (.ok (), c)
  | some n =>
    match { c with consumers := c.consumers.erase topic }.close n with
    | (r, c) => (r, c.monitor .consumerRemoved topic)

/-- Publish with the producer of a topic: the message gets its time of publication. -/
def send (c : Channels η β) (now : Instant) (topic : String) (m : Message) :
    Except Failure Unit × Channels η β :=
  let m := m.markPublished now
  match m.encode with
  | .error why => (.error why, c)
  | .ok body =>
    match BrokerAdapter.publish c.broker topic m.route.routingKey body with
    | .error why => (.error why, c.note (.publishFailed m.id topic why))
    | .ok (b, t) => (.ok (), ({ c with broker := b }.record t).monitor .sent topic)

def publish (c : Channels η β) (now : Instant) (topic : String) (m : Message) :
    Except Failure Unit × Channels η β :=
  match c.producer topic with
  | (.error why, c) => (.error why, c)
  | (.ok _, c) => c.send now topic m

/-- Take a topic its handler, and only log it if that fails. -/
def release (c : Channels η β) (topic : String) : Channels η β :=
  match c.unsubscribe topic with
  | (.ok _, c) => c
  | (.error why, c) => c.note (.unsubscribeFailed topic why)

def stopBroker (c : Channels η β) : Channels η β :=
  match BrokerAdapter.shutdown c.broker with
  | (b, t) => { c with broker := b }.record t

def shutdown (c : Channels η β) : Channels η β :=
  if c.shutDown then c
  else
    let c := { c with shutDown := true }.note .channelsClosing
    let c := c.consumers.keys.foldl release c
    let c := c.producers.keys.foldl dropProducer c
    c.stopBroker

end Channels
end Colloquy
