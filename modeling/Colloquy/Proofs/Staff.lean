/-
Two workers of a broker in memory.

With two workers it is always clear whose turn it is: the first worker goes first as long as it has
something to do, and then the second.  The second one serves a topic here.  What is published there
gets behind what its queue has, and the settlements and turns of either leave the other alone.
-/
import Colloquy.Proofs.Custody

namespace Colloquy
namespace MemoryBroker

variable {σ : Type} {b : MemoryBroker σ} {topic : String} {i j : Nat} {v w : Worker σ}
  {e : Envelope} {rest : List Envelope}

/-- A broker that runs and has two workers, of which the second serves a topic. -/
structure Staffed (b : MemoryBroker σ) (topic : String) (i j : Nat) (v w : Worker σ) : Prop where
  workers : b.workers.entries = [(i, v), (j, w)]
  apart : i ≠ j
  served : (b.lane topic).worker = some j
  running : b.down = false

/-- A worker that takes the first envelope of its queue. -/
def Worker.taking (w : Worker σ) (rest : List Envelope) : Worker σ :=
  { w with queue := rest, busy := true }

/-- A worker whose subscriber is done with a delivery. -/
def Worker.done (w : Worker σ) : Worker σ := { w with busy := false }

/-- A worker with some envelopes more at the end of its queue. -/
def Worker.pushAll (w : Worker σ) (es : List Envelope) : Worker σ :=
  { w with queue := w.queue ++ es }

/-- A worker that is neither cancelled nor busy, with what waits for it. -/
structure Worker.Free (w : Worker σ) (es : List Envelope) : Prop where
  queue : w.queue = es
  cancelled : w.cancelled = false
  busy : w.busy = false

namespace Worker.Free

theorem ready (h : w.Free (e :: rest)) : w.ready = true := by
  simp only [Worker.ready, h.busy, h.queue, List.isEmpty_cons, Bool.not_false, Bool.or_true,
    Bool.and_self]

theorem not_ready (h : w.Free []) : w.ready = false := by
  simp only [Worker.ready, h.cancelled, h.queue, List.isEmpty_nil, Bool.not_true, Bool.or_self,
    Bool.and_false]

theorem done (h : w.Free (e :: rest)) : (w.taking rest).done.Free rest := ⟨rfl, h.cancelled, rfl⟩

theorem pushAll {es : List Envelope} (h : w.Free es) (later : List Envelope) :
    (w.pushAll later).Free (es ++ later) :=
  ⟨congrArg (· ++ later) h.queue, h.cancelled, h.busy⟩

end Worker.Free

theorem Worker.pushAll_nil (w : Worker σ) : w.pushAll [] = w := by
  rw [pushAll, List.append_nil]

theorem Worker.push_pushAll (w : Worker σ) (e : Envelope) (es : List Envelope) :
    (w.push e).pushAll es = w.pushAll (e :: es) := by
  simp only [push, pushAll, List.append_assoc, List.singleton_append]

namespace Staffed

variable (h : b.Staffed topic i j v w)

include h

theorem first : b.workers.get? i = some v := by
  rw [Table.get?, h.workers, List.lookup_cons_self]

theorem second : b.workers.get? j = some w := by
  have hne : (j == i) = false := beq_eq_false_iff_ne.mpr h.apart.symm
  rw [Table.get?, h.workers, List.lookup_cons, hne, List.lookup_cons_self]

/-- The first worker is changed. -/
theorem put_first (v' : Worker σ) :
    ({ b with workers := b.workers.put i v' } : MemoryBroker σ).Staffed topic i j v' w where
  workers := by
    show Table.putIn i v' b.workers.entries = _
    rw [h.workers, Table.putIn, if_pos rfl]
  apart := h.apart
  served := h.served
  running := h.running

/-- The second worker is changed. -/
theorem put_second (w' : Worker σ) :
    ({ b with workers := b.workers.put j w' } : MemoryBroker σ).Staffed topic i j v w' where
  workers := by
    show Table.putIn j w' b.workers.entries = _
    rw [h.workers, Table.putIn, if_neg h.apart, Table.putIn, if_pos rfl]
  apart := h.apart
  served := h.served
  running := h.running

/-- How much was published does not matter. -/
theorem counted (n : Nat) :
    ({ b with published := n } : MemoryBroker σ).Staffed topic i j v w :=
  ⟨h.workers, h.apart, h.served, h.running⟩

/-! ## Turns -/

theorem turn_first (hv : v.Free (e :: rest)) :
    ∃ b', b.turn? = some (.delivery i v.subscriber v.topic e b') ∧
      b'.Staffed topic i j (v.taking rest) w := by
  refine ⟨_, ?_, h.put_first (v.taking rest)⟩
  have hfind : b.workers.entries.find? (fun x => x.2.ready) = some (i, v) := by
    simp only [h.workers, List.find?_cons, hv.ready]
  rw [turn?, hfind, Option.bind_some]
  simp only [turnOf?, h.first, hv.busy, hv.cancelled, hv.queue, Worker.taking, Bool.false_eq_true,
    if_false]

theorem turn_second (hv : v.ready = false) (hw : w.Free (e :: rest)) :
    ∃ b', b.turn? = some (.delivery j w.subscriber w.topic e b') ∧
      b'.Staffed topic i j v (w.taking rest) := by
  refine ⟨_, ?_, h.put_second (w.taking rest)⟩
  have hfind : b.workers.entries.find? (fun x => x.2.ready) = some (j, w) := by
    simp only [h.workers, List.find?_cons, hv, hw.ready]
  rw [turn?, hfind, Option.bind_some]
  simp only [turnOf?, h.second, hw.busy, hw.cancelled, hw.queue, Worker.taking, Bool.false_eq_true,
    if_false]

theorem turn_none (hv : v.ready = false) (hw : w.ready = false) : b.turn? = none := by
  have hfind : b.workers.entries.find? (fun x => x.2.ready) = none := by
    simp only [h.workers, List.find?_cons, hv, hw, List.find?_nil]
  rw [turn?, hfind, Option.bind_none]

/-! ## What the subscribers do -/

theorem finish_first (hc : v.cancelled = false) : (b.finish i).Staffed topic i j v.done w := by
  have hfinish : b.finish i = { b with workers := b.workers.put i v.done } := by
    simp only [finish, h.first, hc, Worker.done, Bool.false_eq_true, if_false]
  rw [hfinish]
  exact h.put_first v.done

theorem finish_second (hc : w.cancelled = false) : (b.finish j).Staffed topic i j v w.done := by
  have hfinish : b.finish j = { b with workers := b.workers.put j w.done } := by
    simp only [finish, h.second, hc, Worker.done, Bool.false_eq_true, if_false]
  rw [hfinish]
  exact h.put_second w.done

theorem enqueue (e : Envelope) : (b.enqueue topic e).Staffed topic i j v (w.push e) := by
  have henqueue : b.enqueue topic e = { b with
      lanes := b.lanes.put topic (b.lane topic)
      workers := b.workers.put j (w.push e) } := by
    simp only [MemoryBroker.enqueue, h.served, Table.update, h.second]
  have hput := h.put_second (w.push e)
  rw [henqueue]
  refine ⟨hput.workers, h.apart, ?_, h.running⟩
  exact (congrArg Lane.worker ((lane_put b topic _ topic).trans (if_pos rfl))).trans h.served

theorem publish {b' : MemoryBroker σ} {body : Bytes} (hp : b.publish topic body = .ok b') :
    b'.Staffed topic i j v (w.push { body, redelivered := false }) := by
  obtain ⟨-, rfl⟩ := publish_eq_ok hp
  exact (h.counted (b.published + 1)).enqueue _

/-- A settlement that has nothing delivered again leaves the workers alone. -/
theorem settle {x : Settlement} (hx : x ≠ .retry) (t : String) (body : Bytes) :
    (b.settle x t body).Staffed topic i j v w := by
  cases x with
  | confirm => exact ⟨h.workers, h.apart, h.served, h.running⟩
  | reject => exact ⟨h.workers, h.apart, h.served, h.running⟩
  | retry => exact absurd rfl hx

/-- What is sent on a topic of the first worker gets behind what that has. -/
theorem enqueue_first {t : String} (ht : (b.lane t).worker = some i) (e : Envelope) :
    (b.enqueue t e).Staffed topic i j (v.push e) w := by
  have henqueue : b.enqueue t e = { b with
      lanes := b.lanes.put t (b.lane t)
      workers := b.workers.put i (v.push e) } := by
    simp only [MemoryBroker.enqueue, ht, Table.update, h.first]
  have hput := h.put_first (v.push e)
  rw [henqueue]
  refine ⟨hput.workers, h.apart, ?_, h.running⟩
  refine (congrArg Lane.worker (lane_put b t _ topic)).trans ?_
  split_ifs with htopic
  · rw [← htopic]
    exact h.served
  · exact h.served

theorem publish_first {b' : MemoryBroker σ} {t : String} {body : Bytes}
    (ht : (b.lane t).worker = some i) (hp : b.publish t body = .ok b') :
    b'.Staffed topic i j (v.push { body, redelivered := false }) w := by
  obtain ⟨-, rfl⟩ := publish_eq_ok hp
  exact (h.counted (b.published + 1)).enqueue_first ht _

end Staffed

/-- A broker that runs and has one worker, for one topic, and nothing for any other topic. -/
structure Lone (b : MemoryBroker σ) (topic : String) (i : Nat) (v : Worker σ) : Prop where
  workers : b.workers.entries = [(i, v)]
  numbered : i < b.nextWorker
  served : (b.lane topic).worker = some i
  others : ∀ t, t ≠ topic → b.lane t = {}
  running : b.down = false

namespace Lone

theorem start (topic : String) (x : σ) :
    ∃ b', ({} : MemoryBroker σ).subscribe topic x = .ok b' ∧
      b'.Lone topic 0 { topic, subscriber := x } := by
  refine ⟨_, rfl, rfl, Nat.zero_lt_one, ?_, fun t ht => ?_, rfl⟩
  · exact congrArg Lane.worker ((lane_put {} topic _ topic).trans (if_pos rfl))
  · exact (lane_put {} topic _ t).trans (if_neg ht)

theorem turn_none (h : b.Lone topic i v) (hv : v.ready = false) : b.turn? = none := by
  have hfind : b.workers.entries.find? (fun x => x.2.ready) = none := by
    simp only [h.workers, List.find?_cons, hv, List.find?_nil]
  rw [turn?, hfind, Option.bind_none]

/-- A second worker starts. -/
theorem subscribe (h : b.Lone topic i v) {t : String} (ht : t ≠ topic) (x : σ) :
    ∃ b', b.subscribe t x = .ok b' ∧
      b'.Staffed t i b.nextWorker v { topic := t, subscriber := x } ∧
      (b'.lane topic).worker = some i := by
  have hlane := h.others t ht
  have hne : i ≠ b.nextWorker := Nat.ne_of_lt h.numbered
  refine ⟨{ b with
    lanes := b.lanes.put t { worker := some b.nextWorker, backlog := [] }
    workers := b.workers.put b.nextWorker { topic := t, subscriber := x }
    nextWorker := b.nextWorker + 1
    subscribes := count b.subscribes t }, ?_, ⟨?_, hne, ?_, h.running⟩, ?_⟩
  · simp [MemoryBroker.subscribe, checkRunning, h.running, hlane, bind, Except.bind]
  · show Table.putIn _ _ b.workers.entries = _
    rw [h.workers, Table.putIn, if_neg hne, Table.putIn]
  · exact congrArg Lane.worker ((lane_put b t _ t).trans (if_pos rfl))
  · exact (congrArg Lane.worker ((lane_put b t _ topic).trans (if_neg ht.symm))).trans h.served

end Lone
end MemoryBroker
end Colloquy
