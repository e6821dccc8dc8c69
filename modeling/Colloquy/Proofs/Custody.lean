/-
Where the envelopes of a broker in memory are.

An envelope waits in the backlog of its topic, in the queue of the worker that serves the topic,
or in the queue of a worker that was cancelled and has not handed it back.  `waiting` is all of
them, each with its topic and as often as it is there.  To enqueue adds one envelope, a delivery
takes one away, and nothing else changes them as long as the broker is not shut down: not a
subscription, which moves a backlog, and not the stop of a worker, which hands a queue back.

That depends on the lanes and the workers being in order, which is `Sound`: a lane has exactly the
worker of its topic that is not cancelled, and a lane that has a worker has no backlog.
-/
import Colloquy.Broker.Memory
import Colloquy.Proofs.Table
import Mathlib.Data.Multiset.Filter
import Mathlib.Algebra.Order.Group.Multiset

namespace Colloquy
namespace MemoryBroker

variable {σ : Type} {b b' b'' : MemoryBroker σ} {topic : String} {id : Nat} {w : Worker σ}

/-! ## Order -/

/-- The topic of a worker, and whether it is cancelled. -/
def badge (b : MemoryBroker σ) (id : Nat) : Option (String × Bool) :=
  (b.workers.get? id).map fun w => (w.topic, w.cancelled)

/-- The topic of a worker, and what it delivers to. -/
def post (b : MemoryBroker σ) (id : Nat) : Option (String × σ) :=
  (b.workers.get? id).map fun w => (w.topic, w.subscriber)

structure Sound (b : MemoryBroker σ) : Prop where
  lanes : b.lanes.keys.Nodup
  workers : b.workers.keys.Nodup
  numbered : ∀ id, b.nextWorker ≤ id → b.badge id = none
  serves : ∀ t id, (b.lane t).worker = some id ↔ b.badge id = some (t, false)
  drained : ∀ t, (b.lane t).worker ≠ none → (b.lane t).backlog = []

theorem Sound.start : Sound ({} : MemoryBroker σ) where
  lanes := List.nodup_nil
  workers := List.nodup_nil
  numbered := fun _ _ => rfl
  serves := fun _ _ => by constructor <;> rintro ⟨⟩
  drained := fun _ h => absurd rfl h

/-- The worker that serves a topic. -/
theorem Sound.worker (hb : b.Sound) (h : (b.lane topic).worker = some id) :
    ∃ w, b.workers.get? id = some w ∧ w.topic = topic ∧ w.cancelled = false := by
  obtain ⟨w, hw, hbadge⟩ := Option.map_eq_some_iff.mp ((hb.serves topic id).mp h)
  obtain ⟨ht, hc⟩ := Prod.mk.inj hbadge
  exact ⟨w, hw, ht, hc⟩

/-- The subscriptions and the counts of them are the same.  No worker is new. -/
structure Steady (b b' : MemoryBroker σ) : Prop where
  lane : ∀ t, (b'.lane t).worker = (b.lane t).worker
  posts : ∀ id p, b'.post id = some p → b.post id = some p
  subscribes : b'.subscribes = b.subscribes
  unsubscribes : b'.unsubscribes = b.unsubscribes
  down : b'.down = b.down

theorem Steady.refl (b : MemoryBroker σ) : b.Steady b :=
  ⟨fun _ => rfl, fun _ _ => id, rfl, rfl, rfl⟩

theorem Steady.trans (h : b.Steady b') (h' : b'.Steady b'') : b.Steady b'' where
  lane := fun t => (h'.lane t).trans (h.lane t)
  posts := fun id p hp => h.posts id p (h'.posts id p hp)
  subscribes := h'.subscribes.trans h.subscribes
  unsubscribes := h'.unsubscribes.trans h.unsubscribes
  down := h'.down.trans h.down

/-- Apart from what waits where, `b'` is as `b`. -/
structure Alike (b b' : MemoryBroker σ) : Prop extends b.Steady b' where
  badge : ∀ id, b'.badge id = b.badge id
  nextWorker : b'.nextWorker = b.nextWorker

theorem Alike.sound (h : b.Alike b') (hb : b.Sound) (hlanes : b'.lanes.keys.Nodup)
    (hworkers : b'.workers.keys.Nodup)
    (hdrained : ∀ t, (b.lane t).worker ≠ none → (b'.lane t).backlog = []) : b'.Sound where
  lanes := hlanes
  workers := hworkers
  numbered := fun id hid => (h.badge id).trans (hb.numbered id (h.nextWorker ▸ hid))
  serves := fun t id => by
    rw [h.lane, h.badge]
    exact hb.serves t id
  drained := fun t ht => hdrained t (h.lane t ▸ ht)

theorem lane_put (b : MemoryBroker σ) (topic : String) (l : Lane) (t : String) :
    ({ b with lanes := b.lanes.put topic l } : MemoryBroker σ).lane t =
      if t = topic then l else b.lane t :=
  Table.getD_put _ _ _ _ _

theorem badge_put (b : MemoryBroker σ) (id : Nat) (w : Worker σ) (k : Nat) :
    ({ b with workers := b.workers.put id w } : MemoryBroker σ).badge k =
      if k = id then some (w.topic, w.cancelled) else b.badge k := by
  simp only [badge, Table.get?_put]
  split_ifs <;> rfl

theorem post_put (b : MemoryBroker σ) (id : Nat) (w : Worker σ) (k : Nat) :
    ({ b with workers := b.workers.put id w } : MemoryBroker σ).post k =
      if k = id then some (w.topic, w.subscriber) else b.post k := by
  simp only [post, Table.get?_put]
  split_ifs <;> rfl

theorem post_erase (b : MemoryBroker σ) (id k : Nat) :
    ({ b with workers := b.workers.erase id } : MemoryBroker σ).post k =
      if k = id then none else b.post k := by
  simp only [post, Table.get?_erase]
  split_ifs <;> rfl

theorem badge_erase (b : MemoryBroker σ) (id k : Nat) :
    ({ b with workers := b.workers.erase id } : MemoryBroker σ).badge k =
      if k = id then none else b.badge k := by
  simp only [badge, Table.get?_erase]
  split_ifs <;> rfl

/-- Another backlog for a topic that has no worker. -/
theorem backlog_alike (h : (b.lane topic).worker = none) (es : List Envelope) :
    b.Alike { b with lanes := b.lanes.put topic { backlog := es } } where
  lane := fun t => by
    rw [lane_put]
    split_ifs with ht
    · rw [ht, h]
    · rfl
  posts := fun _ _ => id
  badge := fun _ => rfl
  nextWorker := rfl
  subscribes := rfl
  unsubscribes := rfl
  down := rfl

/-- Another queue for a worker, which may be busy or not. -/
theorem queue_alike (h : b.workers.get? id = some w) (es : List Envelope) (busy : Bool) :
    b.Alike { b with workers := b.workers.put id { w with queue := es, busy } } where
  lane := fun _ => rfl
  posts := fun k p hp => by
    rw [post_put] at hp
    split_ifs at hp with hk
    · rw [hk, post, h]
      exact hp
    · exact hp
  badge := fun k => by
    rw [badge_put]
    split_ifs with hk
    · rw [hk, badge, h]
      rfl
    · rfl
  nextWorker := rfl
  subscribes := rfl
  unsubscribes := rfl
  down := rfl

theorem Sound.backlog (hb : b.Sound) (h : (b.lane topic).worker = none) (es : List Envelope) :
    Sound { b with lanes := b.lanes.put topic { backlog := es } } := by
  refine (backlog_alike h es).sound hb (Table.nodup_keys_put hb.lanes _ _) hb.workers
    fun t ht => ?_
  have hne : t ≠ topic := by
    rintro rfl
    exact ht h
  rw [lane_put, if_neg hne]
  exact hb.drained t ht

theorem Sound.queue (hb : b.Sound) (h : b.workers.get? id = some w) (es : List Envelope)
    (busy : Bool) : Sound { b with workers := b.workers.put id { w with queue := es, busy } } :=
  (queue_alike h es busy).sound hb hb.lanes (Table.nodup_keys_put hb.workers _ _) hb.drained

/-! ## What waits -/

/-- Envelopes together with their topic. -/
def parcels (topic : String) (es : List Envelope) : Multiset (String × Envelope) :=
  (es : Multiset Envelope).map (Prod.mk topic)

@[simp] theorem parcels_nil (topic : String) : parcels topic [] = 0 := rfl

@[simp] theorem parcels_cons (topic : String) (e : Envelope) (es : List Envelope) :
    parcels topic (e :: es) = (topic, e) ::ₘ parcels topic es := rfl

@[simp] theorem parcels_append (topic : String) (es ds : List Envelope) :
    parcels topic (es ++ ds) = parcels topic es + parcels topic ds := by
  simp [parcels, ← Multiset.coe_add]

def heldBack (b : MemoryBroker σ) : Multiset (String × Envelope) :=
  b.lanes.total fun t l => parcels t l.backlog

def queued (b : MemoryBroker σ) : Multiset (String × Envelope) :=
  b.workers.total fun _ w => parcels w.topic w.queue

/-- The envelopes that wait, each with its topic. -/
def waiting (b : MemoryBroker σ) : Multiset (String × Envelope) := b.heldBack + b.queued

theorem heldBack_put (b : MemoryBroker σ) (topic : String) (l : Lane) :
    ({ b with lanes := b.lanes.put topic l } : MemoryBroker σ).heldBack +
      parcels topic (b.lane topic).backlog = b.heldBack + parcels topic l.backlog := by
  have h := Table.total_put (fun t (l : Lane) => parcels t l.backlog) b.lanes topic l
  have hold : ((b.lanes.get? topic).map fun l => parcels topic l.backlog).getD 0 =
      parcels topic (b.lane topic).backlog := by
    unfold lane Table.getD
    cases b.lanes.get? topic <;> rfl
  rw [hold] at h
  exact h

theorem queued_put (h : b.workers.get? id = some w) (v : Worker σ) :
    ({ b with workers := b.workers.put id v } : MemoryBroker σ).queued +
      parcels w.topic w.queue = b.queued + parcels v.topic v.queue := by
  have ht := Table.total_put (fun _ (w : Worker σ) => parcels w.topic w.queue) b.workers id v
  rw [h] at ht
  exact ht

theorem queued_put_new (h : b.workers.get? id = none) (v : Worker σ) :
    ({ b with workers := b.workers.put id v } : MemoryBroker σ).queued =
      b.queued + parcels v.topic v.queue := by
  have ht := Table.total_put (fun _ (w : Worker σ) => parcels w.topic w.queue) b.workers id v
  rw [h, Option.map_none, Option.getD_none, add_zero] at ht
  exact ht

theorem queued_erase (hb : b.Sound) (h : b.workers.get? id = some w) :
    ({ b with workers := b.workers.erase id } : MemoryBroker σ).queued + parcels w.topic w.queue =
      b.queued := by
  have ht := Table.total_erase (fun _ (w : Worker σ) => parcels w.topic w.queue) hb.workers id
  rw [h] at ht
  exact ht

/-! ## Operations -/

/-- `b'` is in order and has the subscriptions of `b`, and `es` wait besides. -/
structure Adds (b b' : MemoryBroker σ) (es : Multiset (String × Envelope)) : Prop where
  sound : b'.Sound
  steady : b.Steady b'
  waiting : b'.waiting = b.waiting + es

namespace Adds

variable {es ds : Multiset (String × Envelope)}

theorem refl (hb : b.Sound) : b.Adds b 0 := ⟨hb, .refl b, (add_zero _).symm⟩

theorem trans (h : b.Adds b' es) (h' : b'.Adds b'' ds) : b.Adds b'' (es + ds) where
  sound := h'.sound
  steady := h.steady.trans h'.steady
  waiting := by rw [h'.waiting, h.waiting, add_assoc]

end Adds

theorem tally_adds (hb : b.Sound) (published confirmed rejected retried : Nat) :
    b.Adds { b with published, confirmed, rejected, retried } 0 :=
  ⟨⟨hb.lanes, hb.workers, hb.numbered, hb.serves, hb.drained⟩,
    ⟨fun _ => rfl, fun _ _ => id, rfl, rfl, rfl⟩, (add_zero _).symm⟩

/-- To write the lane of a topic as it is changes nothing. -/
theorem rewrite_adds (hb : b.Sound) (topic : String) :
    b.Adds { b with lanes := b.lanes.put topic (b.lane topic) } 0 := by
  have hlane : ∀ t, ({ b with lanes := b.lanes.put topic (b.lane topic) } : MemoryBroker σ).lane t =
      b.lane t := by
    intro t
    rw [lane_put]
    split_ifs with ht
    · rw [ht]
    · rfl
  have halike : b.Alike { b with lanes := b.lanes.put topic (b.lane topic) } :=
    ⟨⟨fun t => by rw [hlane], fun _ _ => id, rfl, rfl, rfl⟩, fun _ => rfl, rfl⟩
  refine ⟨halike.sound hb (Table.nodup_keys_put hb.lanes _ _) hb.workers fun t ht => ?_,
    halike.toSteady, ?_⟩
  · rw [hlane]
    exact hb.drained t ht
  · have hheld := add_right_cancel (heldBack_put b topic (b.lane topic))
    rw [add_zero]
    exact congrArg (· + b.queued) hheld

theorem backlog_adds (hb : b.Sound) (h : (b.lane topic).worker = none) (e : Envelope) :
    b.Adds { b with lanes := b.lanes.put topic { backlog := (b.lane topic).backlog ++ [e] } }
      {(topic, e)} := by
  refine ⟨hb.backlog h _, (backlog_alike h _).toSteady, ?_⟩
  have hheld := heldBack_put b topic { backlog := (b.lane topic).backlog ++ [e] }
  rw [parcels_append, ← add_assoc, add_right_comm] at hheld
  show _ + b.queued = _
  rw [add_right_cancel hheld]
  exact add_right_comm _ _ _

theorem queue_adds (hb : b.Sound) (h : b.workers.get? id = some w) (e : Envelope) :
    b.Adds { b with workers := b.workers.put id (w.push e) } {(w.topic, e)} := by
  refine ⟨hb.queue h _ w.busy, (queue_alike h _ w.busy).toSteady, ?_⟩
  have hqueued := queued_put h (w.push e)
  unfold Worker.push at hqueued ⊢
  rw [parcels_append, ← add_assoc, add_right_comm] at hqueued
  show b.heldBack + _ = _
  rw [add_right_cancel hqueued, waiting, add_assoc]
  rfl

/-- An envelope goes to the worker of its topic, or else into the backlog. -/
theorem enqueue_adds (hb : b.Sound) (topic : String) (e : Envelope) :
    b.Adds (b.enqueue topic e) {(topic, e)} := by
  cases hlane : (b.lane topic).worker with
  | none =>
    have heq : b.enqueue topic e = { b with
        lanes := b.lanes.put topic { backlog := (b.lane topic).backlog ++ [e] } } := by
      simp only [enqueue, hlane]
    rw [heq]
    exact backlog_adds hb hlane e
  | some id =>
    obtain ⟨w, hw, rfl, -⟩ := hb.worker hlane
    have hsame := rewrite_adds hb w.topic
    have heq : b.enqueue w.topic e = { b with
        lanes := b.lanes.put w.topic (b.lane w.topic)
        workers := b.workers.put id (w.push e) } := by
      simp only [enqueue, hlane, Table.update, hw]
    rw [heq, ← zero_add {(w.topic, e)}]
    exact hsame.trans (queue_adds hsame.sound hw e)

theorem foldl_enqueue_adds (hb : b.Sound) (topic : String) (es : List Envelope) :
    b.Adds (es.foldl (fun b e => b.enqueue topic e) b) (parcels topic es) := by
  induction es generalizing b with
  | nil => exact .refl hb
  | cons e es ih =>
    have hfirst := enqueue_adds hb topic e
    exact hfirst.trans (ih hfirst.sound)

/-- What a broker is told about a delivery adds an envelope if it is to be delivered again. -/
def again (x : Settlement) (topic : String) (body : Bytes) : Multiset (String × Envelope) :=
  match x with
  | .retry => {(topic, { body, redelivered := true })}
  | _ => 0

theorem settle_adds (hb : b.Sound) (x : Settlement) (topic : String) (body : Bytes) :
    b.Adds (b.settle x topic body) (again x topic body) := by
  cases x with
  | confirm => exact tally_adds hb _ _ _ _
  | reject => exact tally_adds hb _ _ _ _
  | retry =>
    have hcount := tally_adds hb b.published b.confirmed b.rejected (b.retried + 1)
    exact zero_add (again .retry topic body) ▸ hcount.trans (enqueue_adds hcount.sound topic _)

theorem publish_eq_ok {body : Bytes} (h : b.publish topic body = .ok b') :
    b.down = false ∧ b' = { b with published := b.published + 1 }.enqueue topic
      { body, redelivered := false } := by
  unfold publish checkRunning at h
  cases hdown : b.down with
  | true =>
    rw [hdown] at h
    cases h
  | false =>
    rw [hdown] at h
    cases h
    exact ⟨rfl, rfl⟩

theorem publish_adds (hb : b.Sound) {body : Bytes} (h : b.publish topic body = .ok b') :
    b.Adds b' {(topic, { body, redelivered := false })} := by
  obtain ⟨-, rfl⟩ := publish_eq_ok h
  have hcount := tally_adds hb (b.published + 1) b.confirmed b.rejected b.retried
  exact zero_add ({_} : Multiset _) ▸ hcount.trans (enqueue_adds hcount.sound topic _)

/-! ### Workers -/

/-- A cancelled worker can be taken away, with what waits in its queue. -/
theorem Sound.dismiss (hb : b.Sound) (h : b.workers.get? id = some w) (hc : w.cancelled = true) :
    Sound { b with workers := b.workers.erase id } where
  lanes := hb.lanes
  workers := Table.nodup_keys_erase hb.workers id
  numbered := fun k hk => by
    rw [badge_erase]
    split_ifs
    · rfl
    · exact hb.numbered k hk
  serves := fun t k => by
    refine (hb.serves t k).trans ?_
    rw [badge_erase]
    split_ifs with hk
    · simp [hk, badge, h, hc]
    · rfl
  drained := hb.drained

theorem dismiss_steady (b : MemoryBroker σ) (id : Nat) :
    b.Steady { b with workers := b.workers.erase id } where
  lane := fun _ => rfl
  posts := fun k p hp => by
    rw [post_erase] at hp
    split_ifs at hp
    exact hp
  subscribes := rfl
  unsubscribes := rfl
  down := rfl

/-- A worker that stops hands its queue back, unless the broker is shut down. -/
theorem stop_adds (hb : b.Sound) (h : b.workers.get? id = some w) (hc : w.cancelled = true)
    (hdown : b.down = false) : b.Adds (b.stop id w) 0 := by
  have hstop : b.stop id w = w.queue.foldl (fun b e => b.enqueue w.topic e)
      { b with workers := b.workers.erase id } := by
    simp [stop, hdown]
  have hback := foldl_enqueue_adds (hb.dismiss h hc) w.topic w.queue
  rw [← hstop] at hback
  refine ⟨hback.sound, (dismiss_steady b id).trans hback.steady, ?_⟩
  rw [hback.waiting, add_zero, waiting, add_assoc]
  exact congrArg (b.heldBack + ·) (queued_erase hb h)

/-- Whether the broker is shut down or not, nothing is added when a worker stops. -/
theorem stop_loses (hb : b.Sound) (h : b.workers.get? id = some w) (hc : w.cancelled = true) :
    (b.stop id w).Sound ∧ b.Steady (b.stop id w) ∧ (b.stop id w).waiting ≤ b.waiting := by
  cases hdown : b.down with
  | false =>
    have hstop := stop_adds hb h hc hdown
    exact ⟨hstop.sound, hstop.steady, le_of_eq (hstop.waiting.trans (add_zero _))⟩
  | true =>
    have hstop : b.stop id w = { b with workers := b.workers.erase id } := by
      simp [stop, hdown]
    rw [hstop]
    refine ⟨hb.dismiss h hc, dismiss_steady b id, ?_⟩
    exact add_le_add_right (α := Multiset _) (queued_erase hb h ▸ Multiset.le_add_right _ _) _

/-- What the end of a delivery comes to: nothing, or the stop of a worker that was cancelled
meanwhile, or that the worker is free again. -/
theorem finish_cases (b : MemoryBroker σ) (id : Nat) :
    b.finish id = b ∨ (∃ w, b.workers.get? id = some w ∧ w.cancelled = true ∧
      b.finish id = b.stop id w) ∨
    ∃ w, b.workers.get? id = some w ∧
      b.finish id = { b with workers := b.workers.put id { w with busy := false } } := by
  unfold finish
  cases hw : b.workers.get? id with
  | none => exact .inl rfl
  | some w =>
    cases hc : w.cancelled with
    | true => exact .inr (.inl ⟨w, rfl, hc, by simp only [hc, if_true]; rfl⟩)
    | false => exact .inr (.inr ⟨w, rfl, by simp [hc]⟩)

theorem free_adds (hb : b.Sound) (h : b.workers.get? id = some w) (busy : Bool) :
    b.Adds { b with workers := b.workers.put id { w with busy } } 0 := by
  refine ⟨hb.queue h w.queue busy, (queue_alike h w.queue busy).toSteady, ?_⟩
  have hqueued := add_right_cancel (queued_put h { w with busy })
  rw [add_zero]
  exact congrArg (b.heldBack + ·) hqueued

theorem finish_adds (hb : b.Sound) (hdown : b.down = false) (id : Nat) :
    b.Adds (b.finish id) 0 := by
  obtain hsame | ⟨w, hw, hc, hstop⟩ | ⟨w, hw, hfree⟩ := b.finish_cases id
  · rw [hsame]
    exact .refl hb
  · rw [hstop]
    exact stop_adds hb hw hc hdown
  · rw [hfree]
    exact free_adds hb hw false

theorem finish_loses (hb : b.Sound) (id : Nat) :
    (b.finish id).Sound ∧ b.Steady (b.finish id) ∧ (b.finish id).waiting ≤ b.waiting := by
  obtain hsame | ⟨w, hw, hc, hstop⟩ | ⟨w, hw, hfree⟩ := b.finish_cases id
  · rw [hsame]
    exact ⟨hb, .refl b, le_refl _⟩
  · rw [hstop]
    exact stop_loses hb hw hc
  · rw [hfree]
    have hadds := free_adds hb hw false
    exact ⟨hadds.sound, hadds.steady, le_of_eq (hadds.waiting.trans (add_zero _))⟩

/-- The turn of a worker: one that was cancelled stops, and any other delivers the first envelope
of its queue. -/
theorem turnOf?_eq_some {turn : Turn σ} (h : b.turnOf? id = some turn) :
    ∃ w, b.workers.get? id = some w ∧ w.busy = false ∧
      ((w.cancelled = true ∧ turn = .stopped (b.stop id w)) ∨
        ∃ e r, w.cancelled = false ∧ w.queue = e :: r ∧ turn = .delivery id w.subscriber w.topic e
          { b with workers := b.workers.put id { w with queue := r, busy := true } }) := by
  unfold turnOf? at h
  split at h
  · cases h
  · rename_i w hw
    split at h
    · cases h
    · rename_i hbusy
      refine ⟨w, hw, Bool.eq_false_iff.mpr hbusy, ?_⟩
      split at h
      · rename_i hc
        exact .inl ⟨hc, (Option.some.inj h).symm⟩
      · rename_i hc
        split at h
        · cases h
        · rename_i e r hqueue
          exact .inr ⟨e, r, Bool.eq_false_iff.mpr hc, hqueue, (Option.some.inj h).symm⟩

/-- What is delivered waited before. -/
structure Gives (b b' : MemoryBroker σ) (topic : String) (e : Envelope) : Prop where
  sound : b'.Sound
  steady : b.Steady b'
  waiting : b.waiting = b'.waiting + {(topic, e)}

theorem turnOf?_gives (hb : b.Sound) {k : Nat} {subscriber : σ} {e : Envelope}
    (h : b.turnOf? id = some (.delivery k subscriber topic e b')) : b.Gives b' topic e := by
  obtain ⟨w, hw, -, ⟨-, hturn⟩ | ⟨e, r, -, hqueue, hturn⟩⟩ := turnOf?_eq_some h
  · cases hturn
  · cases hturn
    refine ⟨hb.queue hw r true, (queue_alike hw r true).toSteady, ?_⟩
    have hqueued := queued_put hw { w with queue := r, busy := true }
    rw [hqueue, parcels_cons, ← Multiset.singleton_add, ← add_assoc] at hqueued
    have hgiven := add_right_cancel hqueued
    show b.heldBack + b.queued = b.heldBack + _ + _
    rw [← hgiven, add_assoc]

theorem turnOf?_post {k : Nat} {subscriber : σ} {e : Envelope}
    (h : b.turnOf? id = some (.delivery k subscriber topic e b')) :
    b.post id = some (topic, subscriber) := by
  obtain ⟨w, hw, -, ⟨-, hturn⟩ | ⟨e, r, -, -, hturn⟩⟩ := turnOf?_eq_some h
  · cases hturn
  · cases hturn
    rw [post, hw]
    rfl

/-! ### Subscriptions -/

theorem subscribe_eq_ok {subscriber : σ} (h : b.subscribe topic subscriber = .ok b') :
    b.down = false ∧ (b.lane topic).worker = none ∧ b' = { b with
      lanes := b.lanes.put topic { worker := some b.nextWorker, backlog := [] }
      workers := b.workers.put b.nextWorker
        { topic, subscriber, queue := (b.lane topic).backlog }
      nextWorker := b.nextWorker + 1
      subscribes := count b.subscribes topic } := by
  unfold subscribe checkRunning at h
  cases hdown : b.down with
  | true =>
    rw [hdown] at h
    cases h
  | false =>
    cases hlane : (b.lane topic).worker with
    | some id =>
      simp only [hdown, hlane] at h
      cases h
    | none =>
      simp only [hdown, hlane] at h
      cases h
      exact ⟨rfl, rfl, rfl⟩

/-- Only a topic that has a subscription refuses another. -/
theorem subscribe_eq_error_iff {subscriber : σ} (hdown : b.down = false) {why : Failure} :
    b.subscribe topic subscriber = .error why ↔
      b.isSubscribed topic = true ∧ why = .transport topic "topic is already subscribed" := by
  unfold subscribe checkRunning isSubscribed
  cases hlane : (b.lane topic).worker <;>
    simp [hdown, hlane, bind, Except.bind, eq_comm]

/-- A new worker takes over what its topic kept. -/
theorem Sound.engage (hb : b.Sound) (h : (b.lane topic).worker = none) (subscriber : σ)
    (es : List Envelope) (subscribes : Table String Nat) : Sound { b with
      lanes := b.lanes.put topic { worker := some b.nextWorker, backlog := [] }
      workers := b.workers.put b.nextWorker { topic, subscriber, queue := es }
      nextWorker := b.nextWorker + 1
      subscribes } where
  lanes := Table.nodup_keys_put hb.lanes _ _
  workers := Table.nodup_keys_put hb.workers _ _
  numbered := fun k hk => by
    have hne : k ≠ b.nextWorker := Nat.ne_of_gt hk
    exact (badge_put b _ _ k).trans ((if_neg hne).trans (hb.numbered k (Nat.le_of_lt hk)))
  serves := fun t k => by
    refine (Eq.congr_left (congrArg Lane.worker (lane_put b topic _ t))).trans
      (Iff.trans ?_ (Eq.congr_left (badge_put b _ _ k)).symm)
    have hunserved : b.badge k ≠ some (topic, false) := fun hbadge =>
      nomatch h.symm.trans ((hb.serves topic k).mpr hbadge)
    have hnew : (b.lane t).worker ≠ some b.nextWorker := fun hlane =>
      nomatch (hb.numbered _ (le_refl _)).symm.trans ((hb.serves t _).mp hlane)
    split_ifs with ht hk hk
    · simp [ht, hk]
    · simp [ht, Ne.symm hk, hunserved]
    · simp [hk, hnew, Ne.symm ht]
    · exact hb.serves t k
  drained := fun t ht => by
    have hlane := lane_put b topic { worker := some b.nextWorker, backlog := [] } t
    refine (congrArg Lane.backlog hlane).trans ?_
    replace ht := (congrArg Lane.worker hlane) ▸ ht
    split_ifs at ht ⊢
    · rfl
    · exact hb.drained t ht

/-- The worker of a topic can be cancelled. -/
theorem Sound.release (hb : b.Sound) (h : (b.lane w.topic).worker = some id)
    (unsubscribes : Table String Nat) : Sound { b with
      lanes := b.lanes.put w.topic { backlog := (b.lane w.topic).backlog }
      workers := b.workers.put id w.cancel
      unsubscribes } := by
  have hbadge := (hb.serves w.topic id).mp h
  refine ⟨Table.nodup_keys_put hb.lanes _ _, Table.nodup_keys_put hb.workers _ _,
    fun k hk => ?_, fun t k => ?_, fun t ht => ?_⟩
  · have hne : k ≠ id := by
      rintro rfl
      exact nomatch hbadge.symm.trans (hb.numbered k hk)
    exact (badge_put b _ _ k).trans ((if_neg hne).trans (hb.numbered k hk))
  · refine (Eq.congr_left (congrArg Lane.worker (lane_put b w.topic _ t))).trans
      (Iff.trans ?_ (Eq.congr_left (badge_put b _ _ k)).symm)
    have hserves := hb.serves t k
    split_ifs with ht hk hk
    · simp [Worker.cancel]
    · have hother : b.badge k ≠ some (t, false) := fun hk' =>
        hk (Option.some.inj ((hserves.mpr hk').symm.trans (ht ▸ h)))
      simp [hother]
    · have hother : (b.lane t).worker ≠ some k := fun hk' =>
        ht (Prod.mk.inj (Option.some.inj ((hserves.mp hk').symm.trans (hk ▸ hbadge)))).1
      simp [hother, Worker.cancel]
    · exact hserves
  · have hlane := lane_put b w.topic { backlog := (b.lane w.topic).backlog } t
    refine (congrArg Lane.backlog hlane).trans ?_
    replace ht := (congrArg Lane.worker hlane) ▸ ht
    split_ifs at ht ⊢
    · exact absurd rfl ht
    · exact hb.drained t ht

theorem subscribe_sound (hb : b.Sound) {subscriber : σ}
    (h : b.subscribe topic subscriber = .ok b') : b'.Sound := by
  obtain ⟨-, hlane, rfl⟩ := subscribe_eq_ok h
  exact hb.engage hlane subscriber _ _

/-- A subscription moves the backlog of its topic to a worker, and so nothing is lost. -/
theorem subscribe_waiting (hb : b.Sound) {subscriber : σ}
    (h : b.subscribe topic subscriber = .ok b') : b'.waiting = b.waiting := by
  obtain ⟨-, hlane, rfl⟩ := subscribe_eq_ok h
  have hfresh : b.workers.get? b.nextWorker = none :=
    Option.map_eq_none_iff.mp (hb.numbered _ (le_refl _))
  have hheld := heldBack_put b topic { worker := some b.nextWorker, backlog := [] }
  have hqueued := queued_put_new hfresh { topic, subscriber, queue := (b.lane topic).backlog }
  rw [parcels_nil, add_zero] at hheld
  show _ + _ = b.heldBack + b.queued
  rw [← hheld, add_assoc, add_comm (parcels _ _) b.queued]
  exact congrArg (_ + ·) hqueued

theorem subscribe_post {subscriber : σ} (h : b.subscribe topic subscriber = .ok b') {k : Nat}
    {p : String × σ} (hp : b'.post k = some p) : b.post k = some p ∨ p = (topic, subscriber) := by
  obtain ⟨-, -, rfl⟩ := subscribe_eq_ok h
  replace hp := (post_put b _ _ k).symm.trans hp
  split_ifs at hp
  · exact .inr (Option.some.inj hp).symm
  · exact .inl hp

theorem unsubscribe_of_none (h : (b.lane topic).worker = none) : b.unsubscribe topic = b := by
  simp only [unsubscribe, h]

theorem unsubscribe_of_some (h : (b.lane topic).worker = some id)
    (hw : b.workers.get? id = some w) : b.unsubscribe topic = { b with
      lanes := b.lanes.put topic { backlog := (b.lane topic).backlog }
      workers := b.workers.put id w.cancel
      unsubscribes := count b.unsubscribes topic } := by
  simp only [unsubscribe, h, Table.update, hw]

theorem unsubscribe_sound (hb : b.Sound) (topic : String) : (b.unsubscribe topic).Sound := by
  cases hlane : (b.lane topic).worker with
  | none =>
    rw [unsubscribe_of_none hlane]
    exact hb
  | some id =>
    obtain ⟨w, hw, rfl, -⟩ := hb.worker hlane
    rw [unsubscribe_of_some hlane hw]
    exact hb.release hlane _

theorem unsubscribe_post (hb : b.Sound) (topic : String) {k : Nat} {p : String × σ}
    (hp : (b.unsubscribe topic).post k = some p) : b.post k = some p := by
  cases hlane : (b.lane topic).worker with
  | none => rwa [unsubscribe_of_none hlane] at hp
  | some id =>
    obtain ⟨w, hw, rfl, -⟩ := hb.worker hlane
    rw [unsubscribe_of_some hlane hw] at hp
    replace hp := (post_put b _ _ k).symm.trans hp
    split_ifs at hp with hk
    · rw [hk, post, hw]
      exact hp
    · exact hp

theorem unsubscribe_waiting (hb : b.Sound) (topic : String) :
    (b.unsubscribe topic).waiting = b.waiting := by
  cases hlane : (b.lane topic).worker with
  | none => rw [unsubscribe_of_none hlane]
  | some id =>
    obtain ⟨w, hw, rfl, hc⟩ := hb.worker hlane
    rw [unsubscribe_of_some hlane hw]
    have hheld := add_right_cancel (heldBack_put b w.topic { backlog := (b.lane w.topic).backlog })
    have hqueued := add_right_cancel (queued_put hw w.cancel)
    exact congrArg₂ (· + ·) hheld hqueued

/-! ### Counts of subscriptions -/

/-- A topic has been subscribed to as often as unsubscribed from, and once more if it is
subscribed. -/
def Counted (b : MemoryBroker σ) : Prop :=
  ∀ t, b.subscribes.getD t 0 = b.unsubscribes.getD t 0 + if b.isSubscribed t then 1 else 0

theorem Steady.counted (h : b.Steady b') (hc : b.Counted) : b'.Counted := by
  intro t
  unfold isSubscribed
  rw [h.lane, h.subscribes, h.unsubscribes]
  exact hc t

theorem getD_count (t : Table String Nat) (topic u : String) :
    (count t topic).getD u 0 = t.getD u 0 + if u = topic then 1 else 0 := by
  unfold count
  rw [Table.getD_put]
  split_ifs with hu
  · rw [hu]
  · rfl

theorem subscribe_counted (hc : b.Counted) {subscriber : σ}
    (h : b.subscribe topic subscriber = .ok b') : b'.Counted := by
  obtain ⟨-, hlane, rfl⟩ := subscribe_eq_ok h
  intro t
  have hworker := congrArg Lane.worker
    (lane_put b topic { worker := some b.nextWorker, backlog := [] } t)
  have hold := hc t
  unfold isSubscribed at hold ⊢
  refine (getD_count _ _ _).trans ?_
  rw [hold, add_assoc]
  congr 1
  refine Eq.trans ?_ (congrArg (fun o => if o.isSome = true then 1 else 0) hworker.symm)
  split_ifs with ht <;> simp_all

theorem unsubscribe_counted (hb : b.Sound) (hc : b.Counted) (topic : String) :
    (b.unsubscribe topic).Counted := by
  cases hlane : (b.lane topic).worker with
  | none =>
    rw [unsubscribe_of_none hlane]
    exact hc
  | some id =>
    obtain ⟨w, hw, rfl, -⟩ := hb.worker hlane
    rw [unsubscribe_of_some hlane hw]
    intro t
    have hworker := congrArg Lane.worker
      (lane_put b w.topic { backlog := (b.lane w.topic).backlog } t)
    have hold := hc t
    unfold isSubscribed at hold ⊢
    refine Eq.trans ?_ (congrArg₂ (· + ·) (getD_count b.unsubscribes w.topic t).symm
      (congrArg (fun o => if o.isSome = true then 1 else 0) hworker.symm))
    refine hold.trans ?_
    rw [add_assoc]
    congr 1
    split_ifs with ht <;> simp_all

/-! ### Shutdown -/

theorem shutdown_of_running (h : b.down = false) : b.shutdown = { b with
    down := true
    lanes := ⟨b.lanes.entries.map fun (k, l) => (k, { l with worker := none })⟩
    workers := ⟨b.workers.entries.map fun (k, w) => (k, w.cancel)⟩ } := by
  simp [shutdown, h]

theorem shutdown_lane (h : b.down = false) (t : String) :
    b.shutdown.lane t = { backlog := (b.lane t).backlog } := by
  rw [shutdown_of_running h]
  show ((Table.get? ⟨_⟩ t).getD {} : Lane) = _
  rw [Table.get?_map (fun l : Lane => ({ backlog := l.backlog } : Lane)) b.lanes t]
  unfold lane Table.getD
  cases b.lanes.get? t <;> rfl

theorem shutdown_badge (h : b.down = false) (k : Nat) :
    b.shutdown.badge k = (b.badge k).map fun p => (p.1, true) := by
  rw [shutdown_of_running h]
  show (Table.get? ⟨_⟩ k).map _ = _
  rw [Table.get?_map Worker.cancel b.workers k, badge, Option.map_map, Option.map_map]
  rfl

theorem shutdown_sound (hb : b.Sound) : b.shutdown.Sound := by
  cases hdown : b.down with
  | true =>
    have hsame : b.shutdown = b := by simp [shutdown, hdown]
    rw [hsame]
    exact hb
  | false =>
    refine ⟨?_, ?_, fun k hk => ?_, fun t k => ?_, fun t ht => ?_⟩
    · rw [shutdown_of_running hdown]
      exact (Table.keys_map (fun l : Lane => ({ backlog := l.backlog } : Lane)) b.lanes).symm ▸
        hb.lanes
    · rw [shutdown_of_running hdown]
      exact (Table.keys_map Worker.cancel b.workers).symm ▸ hb.workers
    · rw [shutdown_of_running hdown] at hk
      rw [shutdown_badge hdown, hb.numbered k hk]
      rfl
    · rw [shutdown_lane hdown, shutdown_badge hdown]
      cases b.badge k <;> simp
    · rw [shutdown_lane hdown] at ht
      exact absurd rfl ht

theorem shutdown_post (b : MemoryBroker σ) (k : Nat) : b.shutdown.post k = b.post k := by
  unfold shutdown
  split
  · rfl
  · show (Table.get? ⟨_⟩ k).map _ = _
    rw [Table.get?_map Worker.cancel b.workers k, Option.map_map]
    rfl

theorem shutdown_waiting (b : MemoryBroker σ) : b.shutdown.waiting = b.waiting := by
  unfold shutdown
  split
  · rfl
  · simp [waiting, heldBack, queued, Table.total, Worker.cancel, Function.comp_def]

end MemoryBroker
end Colloquy
