/-
The broker a program talks to: one in memory, or one that delivers by hand.

What the broker by hand is told can be seen from outside, so it is reported with the
result.  An operation that fails leaves the broker as it was.
-/
import Colloquy.Broker.Manual
import Colloquy.Trace

namespace Colloquy

inductive Broker (σ : Type) where
  | memory (b : MemoryBroker σ)
  | manual (b : ManualBroker σ)

namespace Broker

variable {σ : Type}

def publish (b : Broker σ) (topic : String) (key : Option String) (body : Bytes) :
    Except Failure (Broker σ × Trace) :=
  match b with
  | memory m => (m.publish topic body).map fun m => (memory m, [])
  | manual m =>
    (m.publish topic body).map fun m => (manual m, [.happening (.published topic key body)])

def subscribe (b : Broker σ) (topic : String) (subscriber : σ) :
    Except Failure (Broker σ × Trace) :=
  match b with
  | memory m => (m.subscribe topic subscriber).map fun m => (memory m, [])
  | manual m =>
    (m.subscribe topic subscriber).map fun m => (manual m, [.happening (.subscribed topic)])

def unsubscribe (b : Broker σ) (topic : String) : Except Failure (Broker σ × Trace) :=
  match b with
  | memory m => .ok (memory (m.unsubscribe topic), [])
  | manual m => (m.unsubscribe topic).map fun m => (manual m, [.happening (.unsubscribed topic)])

def shutdown : Broker σ → Broker σ × Trace
  | memory m => (memory m.shutdown, if m.down then [] else [.note .brokerStopped])
  | manual m => (manual m.shutdown, [.happening .brokerDown])

/-- Why the broker takes no settlement, if it takes none. -/
def refusal? (b : Broker σ) (topic : String) : Option Failure :=
  match b with
  | memory _ => none
  | manual m => m.refusal? topic

/-- Tell the broker what became of a delivery.  It is seen even if it is refused. -/
def settle (b : Broker σ) (s : Settlement) (topic : String) (body : Bytes) :
    Except Failure (Broker σ) × Trace :=
  match b with
  | memory m => (.ok (memory (m.settle s topic body)), [])
  | manual m => ((m.settle s topic body).map manual, [.happening (.settled s topic)])

end Broker
end Colloquy
