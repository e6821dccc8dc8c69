/-
A broker that lives in memory.

Each topic keeps a backlog while nobody is subscribed.  A subscription starts a worker
with a queue of its own: the backlog moves there, and so does what is published later.  To
unsubscribe only cancels the worker.  A cancelled worker takes no further delivery; as
soon as it is not in the middle of one it hands its queue back to the topic and stops.

`σ` is what a subscription delivers to.  Workers take turns: `turn?` starts the next
delivery, and `finish` tells that the subscriber is done with it.

A turn is one step.  A worker that runs beside the application locks its topic once for each
envelope it hands back, so a subscription could come and go between two of them.  Here `stop`
hands the queue back whole, as a worker does that nobody interrupts.
-/
import Colloquy.Failure
import Colloquy.Settlement
import Colloquy.Table

namespace Colloquy

/-- One copy of a message on its way to a subscriber. -/
structure Envelope where
  body : Bytes
  redelivered : Bool
  deriving DecidableEq, Inhabited

namespace MemoryBroker

structure Worker (σ : Type) where
  topic : String
  subscriber : σ
  queue : List Envelope := []
  cancelled : Bool := false
  /-- A delivery has been started and not finished. -/
  busy : Bool := false

structure Lane where
  worker : Option Nat := none
  backlog : List Envelope := []
  deriving Inhabited

end MemoryBroker

open MemoryBroker in
structure MemoryBroker (σ : Type) where
  lanes : Table String Lane := {}
  workers : Table Nat (Worker σ) := {}
  nextWorker : Nat := 0
  subscribes : Table String Nat := {}
  unsubscribes : Table String Nat := {}
  published : Nat := 0
  confirmed : Nat := 0
  rejected : Nat := 0
  retried : Nat := 0
  down : Bool := false

namespace MemoryBroker

variable {σ : Type}

def lane (b : MemoryBroker σ) (topic : String) : Lane := b.lanes.getD topic {}

def isSubscribed (b : MemoryBroker σ) (topic : String) : Bool := (b.lane topic).worker.isSome

def Worker.push (w : Worker σ) (e : Envelope) : Worker σ := { w with queue := w.queue ++ [e] }

/-- Hand an envelope to the subscription of a topic, or keep it in the backlog. -/
def enqueue (b : MemoryBroker σ) (topic : String) (e : Envelope) : MemoryBroker σ :=
  let lane := b.lane topic
  match lane.worker with
  | some w =>
    { b with lanes := b.lanes.put topic lane, workers := b.workers.update w (·.push e) }
  | none =>
    { b with lanes := b.lanes.put topic { lane with backlog := lane.backlog ++ [e] } }

def checkRunning (b : MemoryBroker σ) (topic : String) : Except Failure Unit :=
  if b.down then .error (.transport topic "memory broker is shut down") else .ok ()

def publish (b : MemoryBroker σ) (topic : String) (body : Bytes) :
    Except Failure (MemoryBroker σ) := do
  b.checkRunning topic
  .ok ({ b with published := b.published + 1 }.enqueue topic { body, redelivered := false })

def count (t : Table String Nat) (topic : String) : Table String Nat :=
  t.put topic (t.getD topic 0 + 1)

/-- Start a worker, which takes the backlog over.  A topic has one subscription at most. -/
def subscribe (b : MemoryBroker σ) (topic : String) (subscriber : σ) :
    Except Failure (MemoryBroker σ) := do
  b.checkRunning topic
  let lane := b.lane topic
  if lane.worker.isSome then .error (.transport topic "topic is already subscribed")
  else .ok { b with
    lanes := b.lanes.put topic { worker := some b.nextWorker, backlog := [] }
    workers := b.workers.put b.nextWorker { topic, subscriber, queue := lane.backlog }
    nextWorker := b.nextWorker + 1
    subscribes := count b.subscribes topic }

def Worker.cancel (w : Worker σ) : Worker σ := { w with cancelled := true }

/-- Cancel the worker of a topic.  Nothing happens if there is none. -/
def unsubscribe (b : MemoryBroker σ) (topic : String) : MemoryBroker σ :=
  let lane := b.lane topic
  match lane.worker with
  | some w =>
    { b with
      lanes := b.lanes.put topic { lane with worker := none }
      workers := b.workers.update w Worker.cancel
      unsubscribes := count b.unsubscribes topic }
  | none => b

/-- Cancel every worker for good. -/
def shutdown (b : MemoryBroker σ) : MemoryBroker σ :=
  if b.down then b
  else { b with
    down := true
    lanes := { entries := b.lanes.entries.map fun (k, l) => (k, { l with worker := none }) }
    workers := { entries := b.workers.entries.map fun (k, w) => (k, w.cancel) } }

/-- What becomes of a delivery of `body` on `topic`. -/
def settle (b : MemoryBroker σ) (s : Settlement) (topic : String) (body : Bytes) :
    MemoryBroker σ :=
  match s with
  | .confirm => { b with confirmed := b.confirmed + 1 }
  | .reject => { b with rejected := b.rejected + 1 }
  | .retry => { b with retried := b.retried + 1 }.enqueue topic { body, redelivered := true }

/-! ## The turns of the workers -/

/-- Whether a worker that is not busy has something to do. -/
def Worker.ready (w : Worker σ) : Bool := !w.busy && (w.cancelled || !w.queue.isEmpty)

/-- Stop a worker.  What it has not delivered goes back to its topic, unless the broker is
shut down. -/
def stop (b : MemoryBroker σ) (id : Nat) (w : Worker σ) : MemoryBroker σ :=
  let b := { b with workers := b.workers.erase id }
  if b.down then b else w.queue.foldl (fun b e => b.enqueue w.topic e) b

inductive Turn (σ : Type) where
  | stopped (broker : MemoryBroker σ)
  | delivery (worker : Nat) (subscriber : σ) (topic : String) (envelope : Envelope)
      (broker : MemoryBroker σ)

def turnOf? (b : MemoryBroker σ) (id : Nat) : Option (Turn σ) :=
  match b.workers.get? id with
  | none => none
  | some w =>
    if w.busy then none
    else if w.cancelled then some (.stopped (b.stop id w))
    else
      match w.queue with
      | [] => none
      | e :: r =>
        some (.delivery id w.subscriber w.topic e
          { b with workers := b.workers.put id { w with queue := r, busy := true } })

/-- The turn of the first worker that has something to do. -/
def turn? (b : MemoryBroker σ) : Option (Turn σ) :=
  (b.workers.entries.find? fun e => e.2.ready).bind fun e => b.turnOf? e.1

/-- The subscriber is done with the delivery that a worker started. -/
def finish (b : MemoryBroker σ) (id : Nat) : MemoryBroker σ :=
  match b.workers.get? id with
  | none => b
  | some w =>
    let w := { w with busy := false }
    if w.cancelled then b.stop id w else { b with workers := b.workers.put id w }

end MemoryBroker
end Colloquy
