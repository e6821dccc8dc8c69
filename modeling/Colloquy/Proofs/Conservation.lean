/-
A broker in memory neither loses nor duplicates a message.

`Runs` is any run before a shutdown: publications, subscriptions, cancellations and settlements at
any time, and turns of the workers in any order.  So whatever a subscriber does while it has a
delivery is there, done between the start of the delivery and its end.  `Kept` is what holds all
the time: the envelopes that were made have been delivered, or wait.  When the workers are idle,
the only ones that wait are in the backlogs.
-/
import Colloquy.Proofs.Custody

namespace Colloquy
namespace MemoryBroker

variable {σ : Type} {b b' : MemoryBroker σ} {topic : String}

/-! ## Runs -/

/-- What can be seen of a broker. -/
inductive Event where
  | published (topic : String) (body : Bytes)
  | retried (topic : String) (body : Bytes)
  | delivered (topic : String) (e : Envelope)

/-- What is seen of a settlement. -/
def settling (x : Settlement) (topic : String) (body : Bytes) : List Event :=
  match x with
  | .retry => [.retried topic body]
  | _ => []

/-- The broker has come to `b`, with all that was seen of it. -/
inductive Runs : List Event → MemoryBroker σ → Prop where
  | start : Runs [] {}
  | publish {log : List Event} {b b' : MemoryBroker σ} {topic : String} {body : Bytes} :
      Runs log b → b.publish topic body = .ok b' → Runs (log ++ [.published topic body]) b'
  | subscribe {log : List Event} {b b' : MemoryBroker σ} {topic : String} {subscriber : σ} :
      Runs log b → b.subscribe topic subscriber = .ok b' → Runs log b'
  /-- A subscription that is refused leaves the broker as it is. -/
  | refused {log : List Event} {b : MemoryBroker σ} {topic : String} {subscriber : σ}
      {why : Failure} : Runs log b → b.subscribe topic subscriber = .error why → Runs log b
  | unsubscribe {log : List Event} {b : MemoryBroker σ} (topic : String) : Runs log b →
      Runs log (b.unsubscribe topic)
  | settle {log : List Event} {b : MemoryBroker σ} (x : Settlement) (topic : String)
      (body : Bytes) : Runs log b → Runs (log ++ settling x topic body) (b.settle x topic body)
  | deliver {log : List Event} {b b' : MemoryBroker σ} {id worker : Nat} {subscriber : σ}
      {topic : String} {e : Envelope} : Runs log b →
      b.turnOf? id = some (.delivery worker subscriber topic e b') →
      Runs (log ++ [.delivered topic e]) b'
  | stop {log : List Event} {b b' : MemoryBroker σ} {id : Nat} : Runs log b →
      b.turnOf? id = some (.stopped b') → Runs log b'
  | finish {log : List Event} {b : MemoryBroker σ} (id : Nat) : Runs log b →
      Runs log (b.finish id)

/-! ## Accounts -/

/-- The bodies that were published on a topic. -/
def publishedOn (topic : String) (log : List Event) : List Bytes :=
  log.filterMap fun
    | .published t body => if t = topic then some body else none
    | _ => none

/-- The bodies that were to be delivered again on a topic. -/
def retriedOn (topic : String) (log : List Event) : List Bytes :=
  log.filterMap fun
    | .retried t body => if t = topic then some body else none
    | _ => none

/-- What was delivered on a topic. -/
def deliveredOn (topic : String) (log : List Event) : List Envelope :=
  log.filterMap fun
    | .delivered t e => if t = topic then some e else none
    | _ => none

/-- The envelopes that were made for a topic: one for each publication and for each retry. -/
def madeFor (topic : String) (log : List Event) : Multiset Envelope :=
  (publishedOn topic log : Multiset Bytes).map (⟨·, false⟩) +
    (retriedOn topic log : Multiset Bytes).map (⟨·, true⟩)

/-- The envelopes among `ps` that are for a topic. -/
def onTopic (topic : String) (ps : Multiset (String × Envelope)) : Multiset Envelope :=
  (ps.filter fun p => p.1 = topic).map Prod.snd

@[simp] theorem onTopic_zero (topic : String) : onTopic topic 0 = 0 := rfl

@[simp] theorem onTopic_add (topic : String) (ps qs : Multiset (String × Envelope)) :
    onTopic topic (ps + qs) = onTopic topic ps + onTopic topic qs := by
  simp [onTopic]

@[simp] theorem onTopic_singleton (topic t : String) (e : Envelope) :
    onTopic topic {(t, e)} = if t = topic then {e} else 0 := by
  unfold onTopic
  rw [Multiset.filter_singleton]
  split_ifs <;> rfl

@[simp] theorem onTopic_parcels (topic t : String) (es : List Envelope) :
    onTopic topic (parcels t es) = if t = topic then (es : Multiset Envelope) else 0 := by
  induction es with
  | nil => simp [onTopic]
  | cons e es ih =>
    rw [parcels_cons, ← Multiset.singleton_add, onTopic_add, onTopic_singleton, ih]
    split_ifs <;> rfl

theorem madeFor_append (topic : String) (log log' : List Event) :
    madeFor topic (log ++ log') = madeFor topic log + madeFor topic log' := by
  simp only [madeFor, publishedOn, retriedOn, List.filterMap_append, ← Multiset.coe_add,
    Multiset.map_add]
  ac_rfl

theorem deliveredOn_append (topic : String) (log log' : List Event) :
    deliveredOn topic (log ++ log') = deliveredOn topic log ++ deliveredOn topic log' :=
  List.filterMap_append

theorem madeFor_published (topic t : String) (body : Bytes) :
    madeFor topic [.published t body] = onTopic topic {(t, { body, redelivered := false })} := by
  rw [onTopic_singleton]
  unfold madeFor publishedOn retriedOn
  split_ifs with ht <;> simp [ht]

theorem madeFor_settling (topic t : String) (x : Settlement) (body : Bytes) :
    madeFor topic (settling x t body) = onTopic topic (again x t body) := by
  cases x with
  | confirm => rfl
  | reject => rfl
  | retry =>
    unfold again settling madeFor publishedOn retriedOn
    rw [onTopic_singleton]
    split_ifs with ht <;> simp [ht]

theorem deliveredOn_settling (topic t : String) (x : Settlement) (body : Bytes) :
    deliveredOn topic (settling x t body) = [] := by
  cases x <;> rfl

theorem madeFor_delivered (topic t : String) (e : Envelope) :
    madeFor topic [.delivered t e] = 0 := rfl

theorem deliveredOn_delivered (topic t : String) (e : Envelope) :
    (deliveredOn topic [.delivered t e] : Multiset Envelope) = onTopic topic {(t, e)} := by
  rw [onTopic_singleton]
  unfold deliveredOn
  split_ifs with ht <;> simp [ht]

/-- What holds of a broker and what was seen of it, all the time before a shutdown. -/
structure Kept (log : List Event) (b : MemoryBroker σ) : Prop where
  sound : b.Sound
  running : b.down = false
  counted : b.Counted
  balance : ∀ topic, madeFor topic log =
    (deliveredOn topic log : Multiset Envelope) + onTopic topic b.waiting

namespace Kept

variable {log : List Event} {es : Multiset (String × Envelope)}

theorem start : Kept [] ({} : MemoryBroker σ) where
  sound := .start
  running := rfl
  counted := fun _ => rfl
  balance := fun _ => rfl

/-- What is seen made as many envelopes as now wait besides. -/
theorem adds (h : Kept log b) (hadds : b.Adds b' es) {seen : List Event}
    (hmade : ∀ topic, madeFor topic seen = onTopic topic es)
    (hdelivered : ∀ topic, deliveredOn topic seen = []) : Kept (log ++ seen) b' where
  sound := hadds.sound
  running := hadds.steady.down.trans h.running
  counted := hadds.steady.counted h.counted
  balance := fun topic => by
    rw [madeFor_append, deliveredOn_append, hdelivered, List.append_nil, hmade, hadds.waiting,
      onTopic_add, h.balance, add_assoc]

/-- Nothing is seen, and what waits only changes its place. -/
theorem moves (h : Kept log b) (hadds : b.Adds b' 0) : Kept log b' := by
  rw [← List.append_nil log]
  exact h.adds hadds (fun _ => rfl) fun _ => rfl

theorem delivered (h : Kept log b) {e : Envelope} (hgives : b.Gives b' topic e) :
    Kept (log ++ [.delivered topic e]) b' where
  sound := hgives.sound
  running := hgives.steady.down.trans h.running
  counted := hgives.steady.counted h.counted
  balance := fun t => by
    rw [madeFor_append, madeFor_delivered, add_zero, deliveredOn_append, ← Multiset.coe_add,
      deliveredOn_delivered, h.balance, hgives.waiting, onTopic_add]
    ac_rfl

theorem subscribed (h : Kept log b) {subscriber : σ}
    (hb : b.subscribe topic subscriber = .ok b') : Kept log b' where
  sound := subscribe_sound h.sound hb
  running := by
    obtain ⟨hdown, -, rfl⟩ := subscribe_eq_ok hb
    exact hdown
  counted := subscribe_counted h.counted hb
  balance := fun t => by
    rw [subscribe_waiting h.sound hb]
    exact h.balance t

theorem unsubscribed (h : Kept log b) (topic : String) : Kept log (b.unsubscribe topic) where
  sound := unsubscribe_sound h.sound topic
  running := by
    unfold unsubscribe
    simp only
    split
    · exact h.running
    · exact h.running
  counted := unsubscribe_counted h.sound h.counted topic
  balance := fun t => by
    rw [unsubscribe_waiting h.sound]
    exact h.balance t

end Kept

theorem Runs.kept {log : List Event} (h : Runs log b) : Kept log b := by
  induction h with
  | start => exact .start
  | publish _ hb ih =>
    exact ih.adds (publish_adds ih.sound hb) (fun t => madeFor_published t _ _) fun _ => rfl
  | subscribe _ hb ih => exact ih.subscribed hb
  | refused _ _ ih => exact ih
  | unsubscribe topic _ ih => exact ih.unsubscribed topic
  | settle x topic body _ ih =>
    exact ih.adds (settle_adds ih.sound x topic body) (fun t => madeFor_settling t _ _ _)
      fun t => deliveredOn_settling t _ _ _
  | deliver _ hb ih => exact ih.delivered (turnOf?_gives ih.sound hb)
  | stop _ hb ih =>
    obtain ⟨w, hw, -, ⟨hc, hturn⟩ | ⟨e, r, -, -, hturn⟩⟩ := turnOf?_eq_some hb
    · cases hturn
      exact ih.moves (stop_adds ih.sound hw hc ih.running)
    · cases hturn
  | finish id _ ih => exact ih.moves (finish_adds ih.sound ih.running id)

/-! ## At rest -/

/-- No worker is in the middle of a delivery, and none has anything to do. -/
def Idle (b : MemoryBroker σ) : Prop :=
  ∀ id w, b.workers.get? id = some w → w.busy = false ∧ w.ready = false

theorem idle_of_all (h : (b.workers.values.all fun w => !w.busy && !w.ready) = true) : b.Idle := by
  intro id w hw
  have hw' := List.all_eq_true.mp h w (Table.mem_values_of_get? hw)
  simpa using hw'

theorem Idle.queued (hidle : b.Idle) (hb : b.Sound) : b.queued = 0 := by
  refine List.sum_eq_zero fun p hp => ?_
  obtain ⟨⟨id, w⟩, he, rfl⟩ := List.mem_map.mp hp
  obtain ⟨hbusy, hready⟩ := hidle id w (Table.lookup_of_mem hb.workers he)
  have hempty : w.queue = [] := by
    unfold Worker.ready at hready
    simp_all
  simp only [hempty, parcels_nil]

/-- The backlogs of all topics have of one topic what its backlog has. -/
theorem onTopic_heldBack (hb : b.Sound) (topic : String) :
    onTopic topic b.heldBack = ((b.lane topic).backlog : Multiset Envelope) := by
  let ofTopic : Multiset (String × Envelope) →+ Multiset Envelope :=
    ⟨⟨onTopic topic, onTopic_zero topic⟩, onTopic_add topic⟩
  have hparts : onTopic topic b.heldBack =
      b.lanes.total fun t l => onTopic topic (parcels t l.backlog) :=
    (map_list_sum ofTopic _).trans (congrArg List.sum (List.map_map ..))
  rw [hparts]
  simp only [onTopic_parcels]
  refine (Table.total_single hb.lanes topic _).trans ?_
  unfold lane Table.getD
  cases b.lanes.get? topic <;> rfl

/-- When the workers of a broker are idle, then on every topic as many messages were published or
retried as were delivered or are in the backlog, and they are the same messages.  The backlog of a
subscribed topic is empty; the topic was subscribed to once more than it was unsubscribed from,
and nobody else can subscribe to it. -/
theorem Runs.at_rest {log : List Event} (h : Runs log b) (hidle : b.Idle) (topic : String) :
    (publishedOn topic log).length + (retriedOn topic log).length =
        (deliveredOn topic log).length + (b.lane topic).backlog.length ∧
      madeFor topic log = (deliveredOn topic log : Multiset Envelope) + (b.lane topic).backlog ∧
      (b.isSubscribed topic = true → (b.lane topic).backlog = []) ∧
      b.subscribes.getD topic 0 =
        b.unsubscribes.getD topic 0 + (if b.isSubscribed topic then 1 else 0) ∧
      ∀ (subscriber : σ) (why : Failure), b.subscribe topic subscriber = .error why ↔
        b.isSubscribed topic = true ∧ why = .transport topic "topic is already subscribed" := by
  have hkept := h.kept
  have hbalance : madeFor topic log =
      (deliveredOn topic log : Multiset Envelope) + (b.lane topic).backlog := by
    rw [hkept.balance topic, waiting, hidle.queued hkept.sound, add_zero,
      onTopic_heldBack hkept.sound]
  refine ⟨?_, hbalance, fun hs => ?_, hkept.counted topic, fun subscriber why => ?_⟩
  · simpa [madeFor] using congrArg Multiset.card hbalance
  · exact hkept.sound.drained topic (Option.isSome_iff_ne_none.mp hs)
  · exact subscribe_eq_error_iff hkept.running

/-- During its first delivery a subscriber has the message delivered again, unsubscribes and
subscribes anew, and is refused a second subscription.  The queue of its first worker goes to
the second. -/
theorem Runs.at_rest_after_handover :
    ∃ (log : List Event) (b : MemoryBroker Unit), Runs log b ∧ b.Idle ∧
      publishedOn "a" log = [[1], [2]] ∧ retriedOn "a" log = [[1]] ∧
      deliveredOn "a" log = [⟨[1], false⟩, ⟨[2], false⟩, ⟨[1], true⟩] ∧
      2 + 1 = 3 + (b.lane "a").backlog.length ∧
      madeFor "a" log =
        (deliveredOn "a" log : Multiset Envelope) + (b.lane "a").backlog ∧
      (b.lane "a").backlog = [] ∧
      b.subscribes.getD "a" 0 = b.unsubscribes.getD "a" 0 + 1 ∧
      b.subscribe "a" () = .error (.transport "a" "topic is already subscribed") := by
  -- the first worker is in the middle of its first delivery
  have hbusy : Runs [.published "a" [1], .published "a" [2], .delivered "a" ⟨[1], false⟩]
      ({ lanes := ⟨[("a", { worker := some 0 })]⟩
         workers := ⟨[
          (0, { topic := "a", subscriber := (), queue := [⟨[2], false⟩], busy := true })]⟩
         nextWorker := 1
         subscribes := ⟨[("a", 1)]⟩
         published := 2 } : MemoryBroker Unit) := by
    have hfirst := (Runs.start (σ := Unit)).publish
      (show MemoryBroker.publish _ "a" [1] = _ from rfl)
    have hsecond := hfirst.publish (show MemoryBroker.publish _ "a" [2] = _ from rfl)
    have hsubscribed := hsecond.subscribe (show MemoryBroker.subscribe _ "a" () = _ from rfl)
    exact hsubscribed.deliver (show MemoryBroker.turnOf? _ 0 = _ from rfl)
  -- it is cancelled, and there is a second one
  have hreplaced : Runs [.published "a" [1], .published "a" [2], .delivered "a" ⟨[1], false⟩,
      .retried "a" [1]]
      ({ lanes := ⟨[("a", { worker := some 1 })]⟩
         workers := ⟨[
          (0, { topic := "a", subscriber := (), queue := [⟨[2], false⟩, ⟨[1], true⟩],
                cancelled := true, busy := true }),
          (1, { topic := "a", subscriber := () })]⟩
         nextWorker := 2
         subscribes := ⟨[("a", 2)]⟩
         unsubscribes := ⟨[("a", 1)]⟩
         published := 2
         retried := 1 } : MemoryBroker Unit) := by
    have hcancelled := (hbusy.settle .retry "a" [1]).unsubscribe "a"
    have hagain := hcancelled.subscribe (show MemoryBroker.subscribe _ "a" () = _ from rfl)
    exact hagain.refused (show MemoryBroker.subscribe _ "a" () = _ from rfl)
  have hend : Runs [.published "a" [1], .published "a" [2], .delivered "a" ⟨[1], false⟩,
      .retried "a" [1], .delivered "a" ⟨[2], false⟩, .delivered "a" ⟨[1], true⟩]
      ({ lanes := ⟨[("a", { worker := some 1 })]⟩
         workers := ⟨[(1, { topic := "a", subscriber := () })]⟩
         nextWorker := 2
         subscribes := ⟨[("a", 2)]⟩
         unsubscribes := ⟨[("a", 1)]⟩
         published := 2
         retried := 1 } : MemoryBroker Unit) := by
    have hsecond := (hreplaced.finish 0).deliver (show MemoryBroker.turnOf? _ 1 = _ from rfl)
    exact ((hsecond.finish 1).deliver (show MemoryBroker.turnOf? _ 1 = _ from rfl)).finish 1
  obtain ⟨hcount, hmade, hdrained, hsubscribes, hrefuses⟩ := hend.at_rest (idle_of_all rfl) "a"
  exact ⟨_, _, hend, idle_of_all rfl, rfl, rfl, rfl, hcount, hmade, hdrained rfl, hsubscribes,
    (hrefuses () _).mpr ⟨rfl, rfl⟩⟩

end MemoryBroker
end Colloquy
