/-
What a broker delivers to.

The channels leave it to others to make a broker.  What they rely on is `LawfulBroker`: the broker
delivers to nobody who did not subscribe.  It can refuse to start a delivery or to end one, and go
on delivering.  A `ReplacingBroker` moreover delivers a topic to one subscriber at a time, the last
one.

Both brokers that there are do this.  On each topic they have one subscriber at most: in memory the
one of the worker that serves the topic, and by hand the one in its table.  A subscription that the
broker takes replaces it, the end of one takes it away, and whatever else a broker does leaves it
alone, except that a broker that is shut down delivers to nobody.
-/
import Colloquy.Proofs.Settling
import Colloquy.Proofs.Custody

namespace Colloquy

/-! ## What the channels rely on -/

/-- A broker that delivers to those who subscribed, and to nobody else. -/
class LawfulBroker (β : Type) [BrokerAdapter β] where
  /-- What holds of the broker at all times. -/
  Sound : β → Prop
  /-- The broker delivers messages of a topic to a subscriber. -/
  Posts : β → String → Subscriber → Prop
  /-- A subscription that is taken starts this delivery and no other one. -/
  subscribe {b b' : β} {topic : String} {x : Subscriber} {t : Trace} : Sound b →
    BrokerAdapter.subscribe b topic x = .ok (b', t) →
    Sound b' ∧ ∀ u y, Posts b' u y → u = topic ∧ y = x ∨ Posts b u y
  /-- The end of a subscription is the beginning of none. -/
  unsubscribe {b b' : β} {topic : String} {t : Trace} : Sound b →
    BrokerAdapter.unsubscribe b topic = .ok (b', t) →
    Sound b' ∧ ∀ u y, Posts b' u y → Posts b u y
  /-- Nor is a shutdown. -/
  shutdown {b : β} : Sound b → Sound (BrokerAdapter.shutdown b).1 ∧
    ∀ u y, Posts (BrokerAdapter.shutdown b).1 u y → Posts b u y

/-- From a subscription on, the messages of the topic go to this subscriber. -/
class ReplacingBroker (β : Type) [BrokerAdapter β] [LawfulBroker β] : Prop where
  last {b b' : β} {topic : String} {x : Subscriber} {t : Trace} : LawfulBroker.Sound b →
    BrokerAdapter.subscribe b topic x = .ok (b', t) → ∀ y, LawfulBroker.Posts b' topic y → y = x

namespace LawfulBroker

variable {β : Type} [BrokerAdapter β] [LawfulBroker β] {b b' b'' : β} {topic : String} {t : Trace}

/-- A broker in order that delivers as before, except that it can have given up a topic. -/
structure Keeps (b b' : β) : Prop where
  sound : Sound b'
  posts : ∀ u x, Posts b' u x → Posts b u x

namespace Keeps

theorem refl (hb : Sound b) : Keeps b b := ⟨hb, fun _ _ => id⟩

theorem trans (h : Keeps b b') (h' : Keeps b' b'') : Keeps b b'' :=
  ⟨h'.sound, fun u x hx => h.posts u x (h'.posts u x hx)⟩

theorem of_unsubscribe (hb : Sound b) (h : BrokerAdapter.unsubscribe b topic = .ok (b', t)) :
    Keeps b b' := ⟨(unsubscribe hb h).1, (unsubscribe hb h).2⟩

theorem of_shutdown (hb : Sound b) : Keeps b (BrokerAdapter.shutdown b).1 :=
  ⟨(shutdown hb).1, (shutdown hb).2⟩

end Keeps
end LawfulBroker

/-! ## In memory -/

namespace MemoryBroker

variable {σ : Type} {b b' : MemoryBroker σ} {topic : String}

/-- What the worker that serves a topic delivers to. -/
def subscriber? (b : MemoryBroker σ) (topic : String) : Option σ :=
  (b.lane topic).worker.bind fun id => (b.post id).map Prod.snd

theorem Steady.subscriber? (h : b.Steady b') (hb : b'.Sound) (topic : String) :
    b'.subscriber? topic = b.subscriber? topic := by
  have hlane := h.lane topic
  unfold MemoryBroker.subscriber?
  rw [hlane]
  cases hw : (b.lane topic).worker with
  | none => rfl
  | some id =>
    obtain ⟨w, hget, -, -⟩ := hb.worker (hlane.trans hw)
    have hpost : b'.post id = some (w.topic, w.subscriber) := by rw [post, hget]; rfl
    simp only [Option.bind_some, hpost, h.posts id _ hpost]

theorem turnOf?_subscriber? (hb : b.Sound) {id worker : Nat} {subscriber : σ} {e : Envelope}
    (h : b.turnOf? id = some (.delivery worker subscriber topic e b')) :
    b.subscriber? topic = some subscriber := by
  have hpost := turnOf?_post h
  obtain ⟨w, hw, -, ⟨-, hturn⟩ | ⟨e', r, hc, -, hturn⟩⟩ := turnOf?_eq_some h
  · cases hturn
  · cases hturn
    have hserves : (b.lane w.topic).worker = some id := by
      refine (hb.serves w.topic id).mpr ?_
      rw [badge, hw, ← hc]
      rfl
    rw [subscriber?, hserves, Option.bind_some, hpost]
    rfl

theorem subscribe_subscriber? (hb : b.Sound) {subscriber : σ}
    (h : b.subscribe topic subscriber = .ok b') (u : String) :
    b'.subscriber? u = if u = topic then some subscriber else b.subscriber? u := by
  obtain ⟨-, -, rfl⟩ := subscribe_eq_ok h
  have hlane := congrArg Lane.worker
    (lane_put b topic { worker := some b.nextWorker, backlog := [] } u)
  unfold subscriber?
  refine (congrArg (Option.bind · _) hlane).trans ?_
  have hpost := post_put b b.nextWorker
    { topic, subscriber, queue := (b.lane topic).backlog }
  split_ifs with hu
  · rw [Option.bind_some]
    exact congrArg (Option.map Prod.snd) ((hpost _).trans (if_pos rfl))
  · cases hw : (b.lane u).worker with
    | none => rfl
    | some id =>
      have hne : id ≠ b.nextWorker := by
        rintro rfl
        cases (hb.numbered _ (le_refl _)).symm.trans ((hb.serves u _).mp hw)
      exact congrArg (Option.map Prod.snd) ((hpost id).trans (if_neg hne))

theorem unsubscribe_subscriber? (hb : b.Sound) (topic u : String) :
    (b.unsubscribe topic).subscriber? u = if u = topic then none else b.subscriber? u := by
  cases hlane : (b.lane topic).worker with
  | none =>
    rw [unsubscribe_of_none hlane]
    split_ifs with hu
    · rw [hu, subscriber?, hlane]
      rfl
    · rfl
  | some id =>
    obtain ⟨w, hw, rfl, -⟩ := hb.worker hlane
    rw [unsubscribe_of_some hlane hw]
    have hworker := congrArg Lane.worker
      (lane_put b w.topic { backlog := (b.lane w.topic).backlog } u)
    unfold subscriber?
    refine (congrArg (Option.bind · _) hworker).trans ?_
    split_ifs with hu
    · rfl
    · cases (b.lane u).worker with
      | none => rfl
      | some k =>
        refine congrArg (Option.map Prod.snd) ((post_put b id w.cancel k).trans ?_)
        split_ifs with hk
        · rw [hk, post, hw]
          rfl
        · rfl

theorem shutdown_subscriber? (hdown : b.down = false) (u : String) :
    b.shutdown.subscriber? u = none := by
  rw [subscriber?, shutdown_lane hdown]
  rfl

end MemoryBroker

/-! ## Both brokers -/

namespace Broker

variable {σ : Type} {b b' : Broker σ} {topic : String} {t : Trace}

/-- What a broker delivers to on a topic. -/
def subscriber? (b : Broker σ) (topic : String) : Option σ :=
  match b with
  | memory m => m.subscriber? topic
  | manual m => m.subscribers.get? topic

def Sound : Broker σ → Prop
  | memory m => m.Sound
  | manual _ => True

theorem subscribe_subscriber? (hb : b.Sound) {subscriber : σ}
    (h : b.subscribe topic subscriber = .ok (b', t)) : b'.Sound ∧
      ∀ u, b'.subscriber? u = if u = topic then some subscriber else b.subscriber? u := by
  cases b with
  | memory m =>
    obtain ⟨m', rfl, hs⟩ := subscribe_memory h
    exact ⟨MemoryBroker.subscribe_sound hb hs, MemoryBroker.subscribe_subscriber? hb hs⟩
  | manual m =>
    simp only [subscribe, ManualBroker.subscribe] at h
    split at h
    · cases h
    · cases h
      exact ⟨trivial, fun u => Table.get?_put _ _ _ _⟩

theorem unsubscribe_subscriber? (hb : b.Sound) (h : b.unsubscribe topic = .ok (b', t)) :
    b'.Sound ∧ ∀ u, b'.subscriber? u = if u = topic then none else b.subscriber? u := by
  cases b with
  | memory m =>
    cases h
    exact ⟨MemoryBroker.unsubscribe_sound hb topic, MemoryBroker.unsubscribe_subscriber? hb topic⟩
  | manual m =>
    simp only [unsubscribe, ManualBroker.unsubscribe] at h
    split at h
    · cases h
    · cases h
      exact ⟨trivial, fun u => Table.get?_erase _ _ _⟩

theorem shutdown_subscriber? (hb : b.Sound) : b.shutdown.1.Sound ∧
    ∀ u x, b.shutdown.1.subscriber? u = some x → b.subscriber? u = some x := by
  cases b with
  | memory m =>
    refine ⟨MemoryBroker.shutdown_sound hb, fun u x hx => ?_⟩
    cases hdown : m.down with
    | true =>
      have hsame : m.shutdown = m := by simp [MemoryBroker.shutdown, hdown]
      exact (congrArg (MemoryBroker.subscriber? · u) hsame).symm.trans hx
    | false => cases (MemoryBroker.shutdown_subscriber? hdown u).symm.trans hx
  | manual m => exact ⟨trivial, fun u x hx => by cases hx⟩

end Broker

instance : LawfulBroker (Broker Subscriber) where
  Sound := Broker.Sound
  Posts b topic x := b.subscriber? topic = some x
  subscribe hb h := by
    obtain ⟨hsound, hsubscriber⟩ := Broker.subscribe_subscriber? hb h
    refine ⟨hsound, fun u y hy => ?_⟩
    rw [hsubscriber u] at hy
    split_ifs at hy with hu
    · exact .inl ⟨hu, (Option.some.inj hy).symm⟩
    · exact .inr hy
  unsubscribe hb h := by
    obtain ⟨hsound, hsubscriber⟩ := Broker.unsubscribe_subscriber? hb h
    refine ⟨hsound, fun u y hy => ?_⟩
    rw [hsubscriber u] at hy
    split_ifs at hy
    exact hy
  shutdown := Broker.shutdown_subscriber?

instance : ReplacingBroker (Broker Subscriber) where
  last hb h y hy := by
    have hsubscriber := (Broker.subscribe_subscriber? hb h).2
    exact (Option.some.inj (((hsubscriber _).trans (if_pos rfl)).symm.trans hy)).symm

/-! ### What they do besides -/

namespace Broker

open LawfulBroker (Keeps)

variable {σ : Type}

variable {b b' : Broker Subscriber} {topic : String}

theorem keeps_of_steady {m m' : MemoryBroker Subscriber} (h : m.Steady m') (hm : m'.Sound) :
    Keeps (memory m) (memory m') :=
  ⟨hm, fun u _ hx => (h.subscriber? hm u).symm.trans hx⟩

theorem keeps_of_same {m m' : ManualBroker Subscriber} (h : m'.subscribers = m.subscribers) :
    Keeps (manual m) (manual m') :=
  ⟨trivial, fun u _ hx => (congrArg (Table.get? · u) h).symm.trans hx⟩

theorem take?_subscribers {m m' : ManualBroker σ} {only : Option String} {subscriber : σ}
    {e : Envelope} (h : m.take? only = some (subscriber, topic, e, m')) :
    m.subscribers.get? topic = some subscriber ∧ m'.subscribers = m.subscribers := by
  obtain ⟨item, -, h⟩ := Option.bind_eq_some_iff.mp h
  obtain ⟨x, hx, h⟩ := Option.bind_eq_some_iff.mp h
  cases h
  exact ⟨hx, rfl⟩

theorem Delivers.keeps {subscriber : Subscriber} {e : Envelope}
    (h : b.Delivers subscriber topic e b') (hb : b.Sound) :
    b.subscriber? topic = some subscriber ∧ Keeps b b' := by
  cases h with
  | turn h =>
    have hgives := MemoryBroker.turnOf?_gives hb h
    exact ⟨MemoryBroker.turnOf?_subscriber? hb h, keeps_of_steady hgives.steady hgives.sound⟩
  | queued h =>
    obtain ⟨hget, hsame⟩ := take?_subscribers h
    exact ⟨hget, keeps_of_same hsame⟩
  | byHand e h => exact ⟨h, keeps_of_same rfl⟩

/-- In memory every worker stays where it is, unless the broker is shut down. -/
theorem Aside.of_memory {m : MemoryBroker Subscriber} (h : Aside (memory m) b') (hm : m.Sound) :
    ∃ m', b' = memory m' ∧ m'.Sound ∧ (m.Steady m' ∨ m' = m.shutdown) := by
  cases h with
  | publish h =>
    obtain ⟨m', rfl, hp⟩ := publish_memory h
    have hadds := MemoryBroker.publish_adds hm hp
    exact ⟨m', rfl, hadds.sound, .inl hadds.steady⟩
  | told _ topic body x =>
    have hadds := MemoryBroker.settle_adds hm x topic body
    exact ⟨_, rfl, hadds.sound, .inl hadds.steady⟩
  | deliver h =>
    cases h with
    | turn h =>
      have hgives := MemoryBroker.turnOf?_gives hm h
      exact ⟨_, rfl, hgives.sound, .inl hgives.steady⟩
  | stop h =>
    obtain ⟨w, hw, -, ⟨hc, hturn⟩ | ⟨e, r, -, -, hturn⟩⟩ := MemoryBroker.turnOf?_eq_some h
    · cases hturn
      obtain ⟨hsound, hsteady, -⟩ := MemoryBroker.stop_loses hm hw hc
      exact ⟨_, rfl, hsound, .inl hsteady⟩
    · cases hturn
  | finish _ id =>
    obtain ⟨hsound, hsteady, -⟩ := MemoryBroker.finish_loses hm id
    exact ⟨_, rfl, hsound, .inl hsteady⟩
  | shutdown => exact ⟨_, rfl, MemoryBroker.shutdown_sound hm, .inr rfl⟩

theorem Aside.keeps (h : b.Aside b') (hb : b.Sound) : Keeps b b' := by
  cases b with
  | memory m =>
    obtain ⟨m', rfl, hsound, hsteady | rfl⟩ := h.of_memory hb
    · exact keeps_of_steady hsteady hsound
    · exact .of_shutdown hb
  | manual m =>
    cases h with
    | publish h =>
      simp only [Broker.publish, ManualBroker.publish] at h
      split at h
      · cases h
      · split at h
        · cases h
        · cases h
          exact keeps_of_same rfl
    | told _ topic body x =>
      unfold Broker.told
      simp only [settle, ManualBroker.settle]
      cases m.refusal? topic with
      | some why => exact keeps_of_same rfl
      | none => cases x <;> exact keeps_of_same rfl
    | deliver h => exact (h.keeps hb).2
    | refuse _ refuses => exact keeps_of_same rfl
    | shutdown => exact .of_shutdown hb

end Broker
end Colloquy
