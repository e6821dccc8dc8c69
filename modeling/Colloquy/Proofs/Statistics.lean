/-
The statistics of topics.

The agent that keeps statistics is told of every producer and consumer that comes or goes, and of
every message that is sent or received.  It never looks at the channels, and yet what it has
written down is what they have: `Mirrored` says so for each topic, as one equation between the
statistics and what the channels and the traffic so far make of it.  Each operation keeps this,
however it comes out.  A cached consumer is always open, so no subscription ever drops one behind
the agent's back.

What counts as traffic is decided where it happens: `taken` asks the broker whether it takes a
message, and `reached` whether the consumer that a delivery is for is still there.
-/
import Colloquy.Proofs.Handlers
import Colloquy.Proofs.Refusals

namespace Colloquy

/-- A message that was sent on a topic, or a delivery that reached a consumer of it. -/
inductive Passage where
  | sent (topic : String)
  | received (topic : String)
  deriving DecidableEq

theorem Topic.isService_iff {topic : String} :
    isService topic = true ↔ topic.toList.head? = some '_' := by
  unfold isService
  cases topic.toList with
  | nil => simp
  | cons c cs => simp

theorem Table.contains_put {κ α : Type} [DecidableEq κ] (t : Table κ α) (k l : κ) (v : α) :
    (t.put k v).contains l = (decide (l = k) || t.contains l) := by
  unfold contains
  rw [get?_put]
  by_cases h : l = k <;> simp [h]

theorem Table.contains_erase {κ α : Type} [DecidableEq κ] (t : Table κ α) (k l : κ) :
    (t.erase k).contains l = (!decide (l = k) && t.contains l) := by
  unfold contains
  rw [get?_erase]
  by_cases h : l = k <;> simp [h]

theorem Stats.getD_note (stats : Stats) (k : Hook) {u : String} (hu : Topic.isService u = false)
    (t : String) :
    (stats.note k u).getD t {} = if t = u then (stats.getD u {}).note k else stats.getD t {} := by
  rw [note, hu, if_neg Bool.false_ne_true, Table.getD_put]

/-- A topic for internal use gets no statistics. -/
theorem Stats.get?_note_of_service {stats : Stats} {t : String} (k : Hook) (u : String)
    (ht : Topic.isService t = true) : (stats.note k u).get? t = stats.get? t := by
  unfold note
  split_ifs with hu
  · rfl
  · refine Table.get?_put_ne _ ?_ _
    rintro rfl
    exact hu ht

namespace Channels

variable {η : Type} {c d : Channels η} {topic : String} {log : List Passage} {handler : η}

/-! ## Books -/

/-- `d` is `c` with another broker and another trace. -/
def Beside (c d : Channels η) : Prop := d = { c with broker := d.broker, trace := d.trace }

theorem Beside.trans {e : Channels η} (h : c.Beside d) (h' : d.Beside e) : c.Beside e := by
  unfold Beside at h h' ⊢
  rw [h', h]

/-- The cached consumers are sound and open. -/
structure Usable (c : Channels η) : Prop where
  sound : c.Sound
  opened : ∀ t n k, c.consumers.get? t = some n → c.made.get? n = some k → k.closed = false

/-- What the statistics of a topic have to be. -/
def usage (c : Channels η) (log : List Passage) (topic : String) : TopicStats where
  producers := c.producers.contains topic
  consumers := c.consumers.contains topic
  produced := decide (Passage.sent topic ∈ log)
  consumed := decide (Passage.received topic ∈ log)

/-- The agent keeps statistics, and they are what they have to be. -/
structure Mirrored (log : List Passage) (c : Channels η) : Prop where
  agent : c.agent = .stats
  usable : c.Usable
  stats : ∀ t, Topic.isService t = false → c.stats.getD t {} = c.usage log t
  hidden : ∀ t, Topic.isService t = true → c.stats.get? t = none

namespace Usable

theorem start (broker : Broker Subscriber) (validateTopics : Bool) (agent : Agent)
    (trace : Trace) : ({ broker, validateTopics, agent, trace } : Channels η).Usable where
  sound := ⟨fun _ _ h => (nomatch h), fun _ _ h => (nomatch h)⟩
  opened := fun _ _ _ h => nomatch h

theorem of_same (h : c.Usable) (hconsumers : d.consumers = c.consumers) (hmade : d.made = c.made)
    (hnext : c.nextNumber ≤ d.nextNumber) : d.Usable where
  sound := (Agree.of_consumers (P := fun _ => True) h.sound hconsumers hmade hnext).sound
  opened := by
    rw [hconsumers, hmade]
    exact h.opened

/-- A consumer that is made anew is open. -/
theorem create (h : c.Usable) (hnone : c.consumers.get? topic = none)
    (hconsumers : d.consumers = c.consumers.put topic c.nextNumber)
    (hmade : d.made = c.made.put c.nextNumber { topic }) (hnext : d.nextNumber = c.nextNumber + 1) :
    d.Usable where
  sound := (Agree.of_new (P := fun _ => True) h.sound hnone hconsumers hmade hnext).sound
  opened := fun t n k hn hk => by
    rw [hmade, Table.get?_put] at hk
    rw [hconsumers, Table.get?_put] at hn
    split_ifs at hk hn with hnumber ht
    · cases hk
      rfl
    · cases hk
      rfl
    · exact absurd (Option.some.inj hn).symm hnumber
    · exact h.opened t n k hn hk

/-- A consumer that gets its handler stays open. -/
theorem handled (h : c.Usable) {n : Nat} {k : Consumer η} (hn : c.consumers.get? topic = some n)
    (hk : c.made.get? n = some k) (handler? : Option η) (b : Broker Subscriber) (t : Trace) :
    ({ c with
      broker := b
      made := c.made.put n { k with handler := handler? }
      trace := t } : Channels η).Usable where
  sound := by
    obtain ⟨l, hl, htopic⟩ := h.sound.made topic n hn
    cases hk.symm.trans hl
    refine Agree.sound (P := (· ≠ topic)) (c := c) ?_
    exact .of_changed h.sound (l := { k with handler := handler? }) hk htopic htopic rfl rfl rfl
  opened := fun u m l hm hl => by
    have hput : (c.made.put n { k with handler := handler? }).get? m = some l := hl
    rw [Table.get?_put] at hput
    split_ifs at hput with hmn
    · cases hput
      exact h.opened topic n k hn hk
    · exact h.opened u m l hm hput

end Usable

namespace Mirrored

theorem start (broker : Broker Subscriber) (validateTopics : Bool) (trace : Trace) :
    ({ broker, validateTopics, agent := .stats, trace } : Channels η).Mirrored [] where
  agent := rfl
  usable := .start broker validateTopics .stats trace
  stats := fun _ _ => rfl
  hidden := fun _ _ => rfl

theorem beside (h : c.Mirrored log) (hd : c.Beside d) : d.Mirrored log := by
  rw [hd]
  exact ⟨h.agent, h.usable.of_same rfl rfl (Nat.le_refl _), h.stats, h.hidden⟩

/-- The books change for one topic, and the agent is told of it. -/
theorem tell (h : c.Mirrored log) {log' : List Passage} {k : Hook} (hagent : d.agent = c.agent)
    (hstats : d.stats = c.stats) (hd : d.Usable)
    (hself : (c.usage log topic).note k = d.usage log' topic)
    (hothers : ∀ t, t ≠ topic → d.usage log' t = c.usage log t) :
    (d.monitor k topic).Mirrored log' := by
  have htold : d.monitor k topic = { d with stats := d.stats.note k topic } := by
    rw [monitor, hagent.trans h.agent]
  rw [htold]
  refine ⟨hagent.trans h.agent, hd.of_same rfl rfl (Nat.le_refl _), fun t ht => ?_, fun t ht => ?_⟩
  · show (d.stats.note k topic).getD t {} = d.usage log' t
    rw [hstats]
    by_cases hservice : Topic.isService topic = true
    · have hne : t ≠ topic := by
        rintro rfl
        rw [hservice] at ht
        cases ht
      rw [Stats.note, if_pos hservice, hothers t hne]
      exact h.stats t ht
    · rw [Bool.not_eq_true] at hservice
      rw [Stats.getD_note _ _ hservice]
      split_ifs with htopic
      · rw [htopic, ← hself, h.stats topic hservice]
      · rw [hothers t htopic]
        exact h.stats t ht
  · show (d.stats.note k topic).get? t = none
    rw [Stats.get?_note_of_service k topic ht, hstats]
    exact h.hidden t ht

end Mirrored

/-! ## Operations -/

namespace Mirrored

theorem producer (h : c.Mirrored log) (topic : String) : (c.producer topic).2.Mirrored log := by
  unfold Channels.producer
  split
  · exact h
  · split
    · exact h
    · split
      · exact h
      · refine h.tell rfl rfl (h.usable.of_same rfl rfl (Nat.le_succ _)) ?_ fun t ht => ?_
        · simp [usage, TopicStats.note, Table.contains_put]
        · simp [usage, Table.contains_put, ht]

theorem equip (h : c.Mirrored log) (hnone : c.consumers.get? topic = none) :
    (c.equip topic).Mirrored log := by
  refine h.tell rfl rfl (h.usable.create hnone rfl rfl rfl) ?_ fun t ht => ?_
  · simp [usage, TopicStats.note, Table.contains_put]
  · simp [usage, Table.contains_put, ht]

/-- The consumer that is found is the cached one. -/
theorem consumer_cases (h : c.Mirrored log) (topic : String) :
    (∃ why, c.consumer topic = (.error why, c)) ∨
      ∃ n d, c.consumer topic = (.ok n, d) ∧ d.Mirrored log ∧ d.consumers.get? topic = some n := by
  cases hrun : c.shutDown with
  | true => exact .inl ⟨.shutDown, by simp only [Channels.consumer, hrun, if_true]⟩
  | false =>
    cases hn : c.consumers.get? topic with
    | some n => exact .inr ⟨n, c, consumer_of_cached hrun hn, h, hn⟩
    | none =>
      cases hcheck : c.checkNew topic with
      | error why =>
        refine .inl ⟨why, ?_⟩
        simp only [Channels.consumer, hrun, hn, hcheck, if_false, Bool.false_eq_true]
      | ok _ =>
        refine .inr ⟨_, _, consumer_of_new hrun hn hcheck, h.equip hn, ?_⟩
        rw [equip_consumers, Table.get?_put_self]

theorem consumer (h : c.Mirrored log) (topic : String) : (c.consumer topic).2.Mirrored log := by
  obtain ⟨why, hfind⟩ | ⟨n, d, hfind, hd, -⟩ := h.consumer_cases topic
  · rw [hfind]
    exact h
  · rw [hfind]
    exact hd

/-- A cached consumer is not found closed. -/
theorem attach (h : c.Mirrored log) {n : Nat} (hn : c.consumers.get? topic = some n)
    (handler : η) :
    (∃ why, c.attach n handler = (.error why, c)) ∨
      ∃ d, c.attach n handler = (.ok true, d) ∧ d.Mirrored log := by
  obtain ⟨k, hk, -⟩ := h.usable.sound.made topic n hn
  have hopen := h.usable.opened topic n k hn hk
  simp only [Channels.attach, hk]
  rw [if_neg (Bool.eq_false_iff.mp hopen)]
  split_ifs
  · exact .inl ⟨_, rfl⟩
  · split
    · exact .inl ⟨_, rfl⟩
    · exact .inr ⟨_, rfl, h.agent, h.usable.handled hn hk _ _ _, h.stats, h.hidden⟩

theorem subscribe (h : c.Mirrored log) (topic : String) (handler : η) :
    (c.subscribe topic handler).2.Mirrored log := by
  obtain ⟨why, hfind⟩ | ⟨n, d, hfind, hd, hn⟩ := h.consumer_cases topic
  · simp only [Channels.subscribe, trySubscribe, hfind]
    exact h
  · obtain ⟨why, ha⟩ | ⟨e, ha, he⟩ := hd.attach hn handler
    · simp only [Channels.subscribe, trySubscribe, hfind, ha]
      exact hd
    · simp only [Channels.subscribe, trySubscribe, hfind, ha]
      exact he

end Mirrored

/-- Whatever the broker says, all that closing a consumer changes in the books is the consumer. -/
theorem close_eq {n : Nat} {k : Consumer η} (hk : c.made.get? n = some k) :
    ∃ b t, (c.close n).2 = { c with
      broker := b
      made := c.made.put n { k with handler := none, closed := true }
      trace := t } := by
  simp only [close, hk]
  split_ifs
  · exact ⟨_, _, rfl⟩
  · split <;> exact ⟨_, _, rfl⟩

namespace Mirrored

/-- The consumer that is closed is no longer cached, and the agent hears of it even if the broker
does not let go of the topic. -/
theorem unsubscribe (h : c.Mirrored log) (topic : String) :
    (c.unsubscribe topic).2.Mirrored log := by
  unfold Channels.unsubscribe
  split
  · exact h
  · rename_i n hn
    obtain ⟨k, hk, htopic⟩ := h.usable.sound.made topic n hn
    obtain ⟨b, t, hclose⟩ := close_eq (c := { c with consumers := c.consumers.erase topic }) hk
    have hsound : ({ c with consumers := c.consumers.erase topic } : Channels η).Sound := by
      refine Agree.sound (P := (· ≠ topic)) (c := c) ?_
      exact .of_erased h.usable.sound rfl rfl rfl
    dsimp only
    rw [hclose]
    refine h.tell rfl rfl ⟨?_, fun u m l hm hl => ?_⟩ ?_ fun u hu => ?_
    · refine Agree.sound (P := (· ≠ topic))
        (c := { c with consumers := c.consumers.erase topic }) ?_
      exact .of_changed hsound (l := { k with handler := none, closed := true }) hk htopic htopic
        rfl rfl rfl
    · rw [Table.get?_erase] at hm
      split_ifs at hm with hu
      obtain ⟨l', hl', hu'⟩ := h.usable.sound.made u m hm
      have hmn : m ≠ n := by
        rintro rfl
        cases hk.symm.trans hl'
        exact hu (hu'.symm.trans htopic)
      rw [Table.get?_put_ne _ hmn] at hl
      exact h.usable.opened u m l hm hl
    · simp [usage, TopicStats.note, Table.contains_erase]
    · simp [usage, Table.contains_erase, hu]

theorem release (h : c.Mirrored log) (topic : String) : (c.release topic).Mirrored log := by
  have hkept := h.unsubscribe topic
  unfold Channels.release
  split
  · rename_i hd
    rw [hd] at hkept
    exact hkept
  · rename_i hd
    rw [hd] at hkept
    exact hkept.beside rfl

theorem dropProducer (h : c.Mirrored log) (topic : String) :
    (c.dropProducer topic).Mirrored log := by
  refine h.tell rfl rfl (h.usable.of_same rfl rfl (Nat.le_refl _)) ?_ fun t ht => ?_
  · simp [usage, TopicStats.note, Table.contains_erase]
  · simp [usage, Table.contains_erase, ht]

theorem foldl {α : Type} {f : Channels η → α → Channels η}
    (hf : ∀ {c : Channels η}, c.Mirrored log → ∀ a, (f c a).Mirrored log) (as : List α)
    (h : c.Mirrored log) : (as.foldl f c).Mirrored log := by
  induction as generalizing c with
  | nil => exact h
  | cons a as ih => exact ih (hf h a)

theorem shutdown (h : c.Mirrored log) : c.shutdown.Mirrored log := by
  unfold Channels.shutdown
  split
  · exact h
  · have hclosing : ({ c with shutDown := true }.note .channelsClosing).Mirrored log :=
      ⟨h.agent, h.usable.of_same rfl rfl (Nat.le_refl _), h.stats, h.hidden⟩
    have hreleased := foldl release c.consumers.keys hclosing
    exact (foldl dropProducer (Table.keys _) hreleased).beside rfl

theorem operate (h : c.Mirrored log) (o : Operation η) : (c.operate o).2.Mirrored log := by
  cases o with
  | producer topic => exact h.producer topic
  | consumer topic => exact h.consumer topic
  | subscribe topic handler => exact h.subscribe topic handler
  | unsubscribe topic => exact h.unsubscribe topic
  | shutdown => exact h.shutdown

end Mirrored

/-! ## Traffic -/

/-- What comes of sending a message on a topic: nothing unless it can be written and the broker
takes it. -/
def taken (c : Channels η) (now : Instant) (topic : String) (m : Message) : List Passage :=
  match (m.markPublished now).encode with
  | .error _ => []
  | .ok body =>
    match c.broker.publish topic m.route.routingKey body with
    | .error _ => []
    | .ok _ => [.sent topic]

theorem Mirrored.send (h : c.Mirrored log) (now : Instant) (topic : String) (m : Message) :
    (c.send now topic m).2.Mirrored (log ++ c.taken now topic m) := by
  have hkey : (m.markPublished now).route = m.route := rfl
  cases he : (m.markPublished now).encode with
  | error why =>
    simp only [Channels.send, taken, he, List.append_nil]
    exact h
  | ok body =>
    cases hb : c.broker.publish topic m.route.routingKey body with
    | error why =>
      simp only [Channels.send, taken, he, hkey, Broker.adapter_publish, hb, List.append_nil]
      exact h.beside (d := c.note _) rfl
    | ok r =>
      obtain ⟨b, t⟩ := r
      simp only [Channels.send, taken, he, hkey, Broker.adapter_publish, hb]
      refine h.tell rfl rfl (h.usable.of_same rfl rfl (Nat.le_refl _)) ?_ fun u hu => ?_
      · simp [usage, TopicStats.note, record]
      · simp [usage, hu, record]

theorem Mirrored.receive (h : c.Mirrored log) (topic : String) :
    (c.monitor .received topic).Mirrored (log ++ [.received topic]) := by
  refine h.tell rfl rfl h.usable ?_ fun t ht => ?_
  · simp [usage, TopicStats.note]
  · simp [usage, ht]

end Channels

namespace Session

open Channels (Beside Mirrored Operation)

variable {s s' start : Session} {log : List Passage}

/-! ## Deliveries -/

theorem settleRaw_beside (s : Session) (topic : String) (body : Bytes) (x : Settlement) :
    s.channels.Beside (s.settleRaw topic body x).2.channels := by
  unfold settleRaw
  split <;> rfl

theorem actRaw_beside (s : Session) (topic : String) (e : Envelope) (a : RawAction) :
    s.channels.Beside (s.actRaw topic e a).channels := by
  cases a with
  | settle x => exact s.settleRaw_beside topic e.body x
  | retryOnce => exact s.settleRaw_beside topic e.body _
  | unsubscribe t =>
    simp only [actRaw, unsubscribeRaw]
    split <;> rfl
  | publish t text =>
    simp only [actRaw, publishRaw]
    split <;> rfl
  | hold => rfl

theorem foldl_actRaw_beside (s : Session) (topic : String) (e : Envelope)
    (actions : List RawAction) :
    s.channels.Beside (actions.foldl (fun s a => s.actRaw topic e a) s).channels := by
  induction actions generalizing s with
  | nil => rfl
  | cons a actions ih => exact (s.actRaw_beside topic e a).trans (ih _)

theorem forward_beside (s : Session) (d : Delivery) (x : Settlement) :
    s.channels.Beside (s.forward d x).channels := by
  unfold forward
  split
  · simp only
    split <;> rfl
  · split <;> rfl

theorem settle_beside (s : Session) (n : Nat) (call : Receipt.Call) :
    s.channels.Beside (s.settle n call).channels := by
  unfold settle
  split
  · rfl
  · simp only
    split
    · exact Beside.trans (d := s.channels.record _) rfl (forward_beside _ _ _)
    · rfl

theorem handle_beside (s : Session) (n : Nat) (m : Message) :
    s.channels.Beside (s.handle n m).2.channels := by
  unfold handle
  split
  · rfl
  · rename_i x _
    split
    · rfl
    · cases hd : x.desk <;> rfl

theorem dispatch_beside (s : Session) (h : Handler) (n : Nat) (redelivered : Bool) (m : Message) :
    s.channels.Beside (s.dispatch h n redelivered m).2.channels := by
  cases h with
  | script topic actions => rfl
  | server sv => rfl
  | inbox desk topic =>
    simp only [dispatch, arrive]
    split
    · exact s.handle_beside _ m
    · exact Beside.trans (d := s.channels.note _) rfl (settle_beside _ _ _)

/-- A delivery is reported before anything else is done with it. -/
theorem consume_mirrored (h : s.channels.Mirrored log) (k : Consumer Handler) (e : Envelope) :
    (s.consume k e).2.channels.Mirrored (log ++ [.received k.topic]) := by
  refine (h.receive k.topic).beside ?_
  unfold consume
  simp only
  split
  · exact Beside.trans (d := (s.channels.monitor .received k.topic).note _) rfl
      (settle_beside _ _ _)
  · exact Beside.trans (d := (s.channels.monitor .received k.topic).note _) rfl
      (settle_beside _ _ _)
  · exact Beside.trans (d := (s.channels.monitor .received k.topic).note _) rfl
      (settle_beside _ _ _)
  · exact dispatch_beside _ _ _ _ _

/-- What comes of a delivery: it reaches the consumer that it is for, if that is still there. -/
def reached (s : Session) : Subscriber → List Passage
  | .raw _ _ => []
  | .consumer n =>
    match (if s.hasConsumer n then s.channels.made.get? n else none) with
    | some k => [.received k.topic]
    | none => []

theorem deliver_mirrored (h : s.channels.Mirrored log) (subscriber : Subscriber) (topic : String)
    (e : Envelope) :
    (s.deliver subscriber topic e).2.channels.Mirrored (log ++ s.reached subscriber) := by
  cases subscriber with
  | raw t actions =>
    rw [reached, List.append_nil]
    exact h.beside (Beside.trans (d := s.channels.record _) rfl (foldl_actRaw_beside _ _ _ _))
  | consumer n =>
    simp only [deliver, reached]
    generalize (if s.hasConsumer n then s.channels.made.get? n else none) = k?
    cases k? with
    | some k => exact consume_mirrored h k e
    | none =>
      rw [List.append_nil]
      exact h.beside (s.settleRaw_beside _ _ _)

/-! ## Any course of things -/

/-- The session has come from `start` to `s` with this traffic.  Between any two operations
anything can happen but to the books of the channels. -/
inductive Works (start : Session) : List Passage → Session → Prop where
  | start : Works start [] start
  | operate {log : List Passage} {s : Session} (o : Operation Handler) : Works start log s →
      Works start log { s with channels := (s.channels.operate o).2 }
  | send {log : List Passage} {s : Session} (now : Instant) (topic : String) (m : Message) :
      Works start log s → Works start (log ++ s.channels.taken now topic m)
        { s with channels := (s.channels.send now topic m).2 }
  | deliver {log : List Passage} {s : Session} (subscriber : Subscriber) (topic : String)
      (e : Envelope) : Works start log s →
      Works start (log ++ s.reached subscriber) (s.deliver subscriber topic e).2
  | aside {log : List Passage} {s s' : Session} : Works start log s →
      s.channels.Beside s'.channels → Works start log s'

/-- Nothing was asked of the channels, and the agent that keeps statistics is in place. -/
inductive Watched : Session → Prop where
  | intro {s : Session} (broker : Broker Subscriber) (validateTopics : Bool) (trace : Trace) :
      s.channels = { broker, validateTopics, agent := .stats, trace } → Watched s

theorem Works.mirrored (h : start.Works log s) (hs : start.Watched) : s.channels.Mirrored log := by
  induction h with
  | start =>
    obtain ⟨broker, validateTopics, trace, hstart⟩ := hs
    rw [hstart]
    exact .start broker validateTopics trace
  | operate o _ ih => exact ih.operate o
  | send now topic m _ ih => exact ih.send now topic m
  | deliver subscriber topic e _ ih => exact deliver_mirrored ih subscriber topic e
  | aside _ hbeside ih => exact ih.beside hbeside

/-- After any operations, messages and deliveries, whether they failed or not, the statistics of a
topic say whether it has a producer and a consumer in the channels, whether the broker took a
message on it, and whether a delivery reached a consumer of it.  Topics for internal use never
appear. -/
theorem Works.statistics (h : start.Works log s) (hs : start.Watched) (topic : String) :
    (topic.toList.head? ≠ some '_' →
      (s.channels.stats.getD topic {}).producers = s.channels.producers.contains topic ∧
        (s.channels.stats.getD topic {}).consumers = s.channels.consumers.contains topic ∧
        ((s.channels.stats.getD topic {}).produced = true ↔ .sent topic ∈ log) ∧
        ((s.channels.stats.getD topic {}).consumed = true ↔ .received topic ∈ log)) ∧
      (topic.toList.head? = some '_' → s.channels.stats.get? topic = none) := by
  have hmirrored := h.mirrored hs
  rw [← Topic.isService_iff]
  refine ⟨fun hplain => ?_, hmirrored.hidden topic⟩
  rw [hmirrored.stats topic (Bool.eq_false_iff.mpr (fun hs => hplain (Topic.isService_iff.mp hs)))]
  exact ⟨rfl, rfl, decide_eq_true_iff, decide_eq_true_iff⟩

/-- A session whose agent keeps statistics, on a broker that is told what to do. -/
def observed : Session where
  channels := { broker := .manual {}, agent := .stats }
  start := .epoch

def observedSubscribed : Session :=
  { observed with
    channels := ((observed.channels.operate (.producer "_a:b")).2.operate
      (.subscribe "a:b" (.script "a:b" []))).2 }

def observedSent : Session :=
  { observedSubscribed with
    channels := (observedSubscribed.channels.send .epoch "a:b" default).2 }

def observedReached : Session :=
  (observedSent.deliver (.consumer 1) "a:b" { body := [], redelivered := false }).2

/-- A message is sent, a delivery that cannot be read comes, and everything is shut down: the
traffic is remembered, and nothing is known of the topic for internal use. -/
theorem statistics_after_shutdown :
    ∃ log, observed.Works log
        { observedReached with channels := (observedReached.channels.operate .shutdown).2 } ∧
      log = [.sent "a:b", .received "a:b"] ∧
      let stats := (observedReached.channels.operate .shutdown).2.stats
      (stats.getD "a:b" {}).consumers = false ∧ (stats.getD "a:b" {}).produced = true ∧
        (stats.getD "a:b" {}).consumed = true ∧ stats.get? "_a:b" = none := by
  have hstart : observed.Works [] observed := .start
  have hworks := ((((hstart.operate (.producer "_a:b")).operate
    (.subscribe "a:b" (.script "a:b" []))).send .epoch "a:b" default).deliver (.consumer 1) "a:b"
      { body := [], redelivered := false }).operate .shutdown
  have hlog : [] ++ observedSubscribed.channels.taken .epoch "a:b" default ++
      observedSent.reached (.consumer 1) = [.sent "a:b", .received "a:b"] := by decide +kernel
  change observed.Works ([] ++ observedSubscribed.channels.taken .epoch "a:b" default ++
    observedSent.reached (.consumer 1)) _ at hworks
  rw [hlog] at hworks
  have hwatched : observed.Watched := .intro (.manual {}) true [] rfl
  obtain ⟨-, hconsumers, hproduced, hconsumed⟩ :=
    (hworks.statistics hwatched "a:b").1 (by decide)
  refine ⟨_, hworks, rfl, hconsumers.trans (by decide +kernel), hproduced.mpr (by decide),
    hconsumed.mpr (by decide), ?_⟩
  exact (hworks.statistics hwatched "_a:b").2 (by decide)

end Session

end Colloquy
