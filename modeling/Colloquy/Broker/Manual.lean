/-
A broker that delivers by hand.

Everything published stays in one queue, in order, until `take?` picks the next delivery.
Switches make it refuse what it is asked to do, so that a program can be tried on a broker
that fails.
-/
import Colloquy.Broker.Memory

namespace Colloquy

structure Refusals where
  publish : Bool := false
  subscribe : Bool := false
  unsubscribe : Bool := false
  settle : Bool := false
  deriving DecidableEq, Inhabited

structure ManualBroker (σ : Type) where
  queue : List (String × Envelope) := []
  subscribers : Table String σ := {}
  refuses : Refusals := {}
  down : Bool := false

namespace ManualBroker

variable {σ : Type}

def push (b : ManualBroker σ) (topic : String) (e : Envelope) : ManualBroker σ :=
  { b with queue := b.queue ++ [(topic, e)] }

def publish (b : ManualBroker σ) (topic : String) (body : Bytes) :
    Except Failure (ManualBroker σ) :=
  if b.down then .error (.transport topic "script broker is down")
  else if b.refuses.publish then .error (.transport topic "publish refused")
  else .ok (b.push topic { body, redelivered := false })

/-- The last subscriber of a topic is the one that counts. -/
def subscribe (b : ManualBroker σ) (topic : String) (subscriber : σ) :
    Except Failure (ManualBroker σ) :=
  if b.refuses.subscribe then .error (.transport topic "subscribe refused")
  else .ok { b with subscribers := b.subscribers.put topic subscriber }

def unsubscribe (b : ManualBroker σ) (topic : String) : Except Failure (ManualBroker σ) :=
  if b.refuses.unsubscribe then .error (.transport topic "unsubscribe refused")
  else .ok { b with subscribers := b.subscribers.erase topic }

def shutdown (b : ManualBroker σ) : ManualBroker σ :=
  { b with subscribers := {}, down := true }

/-- Why no settlement is taken, if none is. -/
def refusal? (b : ManualBroker σ) (topic : String) : Option Failure :=
  if b.refuses.settle then some (.transport topic "ack refused") else none

/-- What becomes of a delivery of `body` on `topic`.  A retry puts it behind the rest. -/
def settle (b : ManualBroker σ) (s : Settlement) (topic : String) (body : Bytes) :
    Except Failure (ManualBroker σ) :=
  match b.refusal? topic with
  | some why => .error why
  | none => .ok (match s with
    | .retry => b.push topic { body, redelivered := true }
    | _ => b)

/-- Whether an item of the queue can be delivered, on `only` if that is given. -/
def deliverable (b : ManualBroker σ) (only : Option String) (item : String × Envelope) : Bool :=
  (match only with
    | some topic => item.1 == topic
    | none => true) && b.subscribers.contains item.1

/-- Take the oldest item that can be delivered off the queue. -/
def take? (b : ManualBroker σ) (only : Option String) :
    Option (σ × String × Envelope × ManualBroker σ) := do
  let item ← b.queue.find? (b.deliverable only)
  let subscriber ← b.subscribers.get? item.1
  some (subscriber, item.1, item.2,
    { b with queue := b.queue.eraseP (b.deliverable only) })

end ManualBroker
end Colloquy
