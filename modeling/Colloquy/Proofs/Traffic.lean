/-
What passes between a session and its broker.

Sessions change their broker and their receipts in few ways.  The channels publish, subscribe a
consumer, unsubscribe and shut down; a receipt is settled; a worker of the broker delivers,
stops or is free again.  `Traffic` is any sequence of these with anything else in between, and
with the incidents that count: a message that was published, a handler that was invoked, a
delivery that was to come again.  Nothing is said about the order, so what the workers of a broker
do side by side is traffic too.

Whatever is done for a frame is traffic, and so is the turn of a worker.  Only in its turn does a
worker deliver: all the rest, a broker in memory `Works` without delivering anything.  And of the
channels nothing is asked but whole operations.
-/
import Colloquy.Proofs.Calls
import Colloquy.Proofs.Order
import Colloquy.Proofs.Subscription
import Colloquy.Session.Clock

namespace Colloquy

/-- What happens between an application and a broker. -/
inductive Incident where
  /-- The broker took a message. -/
  | published (topic : String) (body : Bytes)
  /-- The handler of a consumer gets the message of a delivery. -/
  | invoked (delivery : Nat) (topic : String) (body : Bytes) (redelivered : Bool)
  /-- The broker is told that a delivery is to come again. -/
  | retried (delivery : Nat)
  /-- The application worked on the broker directly. -/
  | raw
  deriving DecidableEq

/-! ## Brokers -/

namespace MemoryBroker

variable {σ : Type} {b b' b'' : MemoryBroker σ} {log log' : List Event}

/-- The broker takes some steps and delivers nothing in any of them. -/
inductive Works : MemoryBroker σ → List Event → MemoryBroker σ → Prop where
  | refl (b : MemoryBroker σ) : Works b [] b
  | step {b b' b'' : MemoryBroker σ} {log seen : List Event} : Works b log b' →
      b'.Step seen b'' → (∀ t, deliveredOn t seen = []) → Works b (log ++ seen) b''

theorem Works.trans (h : b.Works log b') (h' : b'.Works log' b'') : b.Works (log ++ log') b'' := by
  induction h' with
  | refl => exact (List.append_nil log).symm ▸ h
  | step _ hs hnone ih => exact (List.append_assoc log _ _) ▸ ih.step hs hnone

end MemoryBroker

namespace Broker

variable {σ : Type} {b b' b'' : Broker σ} {topic : String} {t : Trace}

theorem publish_memory {m : MemoryBroker σ} {key : Option String} {body : Bytes}
    (h : (memory m).publish topic key body = .ok (b', t)) :
    ∃ m', b' = memory m' ∧ m.publish topic body = .ok m' := by
  simp only [publish] at h
  cases hm : m.publish topic body with
  | error why => rw [hm] at h; cases h
  | ok m' =>
    rw [hm] at h
    cases h
    exact ⟨m', rfl, rfl⟩

theorem subscribe_memory {m : MemoryBroker σ} {x : σ}
    (h : (memory m).subscribe topic x = .ok (b', t)) :
    ∃ m', b' = memory m' ∧ m.subscribe topic x = .ok m' := by
  simp only [subscribe] at h
  cases hm : m.subscribe topic x with
  | error why => rw [hm] at h; cases h
  | ok m' =>
    rw [hm] at h
    cases h
    exact ⟨m', rfl, rfl⟩

/-- If the broker is one in memory, it works without delivering anything. -/
def Works (b b' : Broker σ) : Prop :=
  ∀ m, b = .memory m → ∃ log m', b' = .memory m' ∧ m.Works log m'

namespace Works

theorem refl (b : Broker σ) : b.Works b := fun m hm => ⟨[], m, hm, .refl m⟩

theorem trans (h : b.Works b') (h' : b'.Works b'') : b.Works b'' := by
  intro m hm
  obtain ⟨log, m', hm', hworks⟩ := h m hm
  obtain ⟨log', m'', hm'', hworks'⟩ := h' m' hm'
  exact ⟨_, m'', hm'', hworks.trans hworks'⟩

theorem of_step {m m' : MemoryBroker σ} {seen : List MemoryBroker.Event} (hs : m.Step seen m')
    (hnone : ∀ t, MemoryBroker.deliveredOn t seen = []) : Works (memory m) (memory m') := by
  rintro _ ⟨⟩
  exact ⟨_, m', rfl, (MemoryBroker.Works.refl m).step hs hnone⟩

theorem publish {key : Option String} {body : Bytes}
    (h : b.publish topic key body = .ok (b', t)) : b.Works b' := by
  cases b with
  | manual m => exact fun _ hm => by cases hm
  | memory m =>
    obtain ⟨m', rfl, hm⟩ := publish_memory h
    exact .of_step (.publish hm) fun _ => rfl

theorem subscribe {x : σ} (h : b.subscribe topic x = .ok (b', t)) : b.Works b' := by
  cases b with
  | manual m => exact fun _ hm => by cases hm
  | memory m =>
    obtain ⟨m', rfl, hm⟩ := subscribe_memory h
    exact .of_step (.subscribe hm) fun _ => rfl

theorem unsubscribe (h : b.unsubscribe topic = .ok (b', t)) : b.Works b' := by
  cases b with
  | manual m => exact fun _ hm => by cases hm
  | memory m =>
    cases h
    exact .of_step (.unsubscribe m topic) fun _ => rfl

theorem settle {x : Settlement} {body : Bytes} (h : b.settle x topic body = (.ok b', t)) :
    b.Works b' := by
  cases b with
  | manual m => exact fun _ hm => by cases hm
  | memory m =>
    cases h
    exact .of_step (.settle m x topic body) fun u =>
      MemoryBroker.deliveredOn_settling u topic x body

theorem shutdown (b : Broker σ) : b.Works b.shutdown.1 := by
  cases b with
  | manual m => exact fun _ hm => by cases hm
  | memory m => exact .of_step (.shutdown m) fun _ => rfl

end Works
end Broker

/-! ## Channels -/

namespace Channels

variable {η β : Type} {c d : Channels η β}

/-- Only numbers that were given out have a consumer. -/
def Numbered (c : Channels η β) : Prop := ∀ n, c.nextNumber ≤ n → c.made.get? n = none

/-- Every consumer keeps its topic. -/
def Lasting (c d : Channels η β) : Prop :=
  c.Numbered → d.Numbered ∧
    ∀ n k, c.made.get? n = some k → ∃ l, d.made.get? n = some l ∧ l.topic = k.topic

namespace Lasting

theorem of_same (hm : d.made = c.made) (hn : c.nextNumber ≤ d.nextNumber) : Lasting c d :=
  fun hc => by
    refine ⟨fun n h => ?_, fun n k hk => ?_⟩
    · rw [hm]
      exact hc n (Nat.le_trans hn h)
    · rw [hm]
      exact ⟨k, hk, rfl⟩

/-- A consumer with a number that was not given out. -/
theorem of_new {topic : String} (hm : d.made = c.made.put c.nextNumber { topic })
    (hn : d.nextNumber = c.nextNumber + 1) : Lasting c d := fun hc => by
  refine ⟨fun n h => ?_, fun n k hk => ?_⟩
  · have hne : n ≠ c.nextNumber := by omega
    rw [hm, Table.get?_put_ne _ hne]
    exact hc n (by omega)
  · have hne : n ≠ c.nextNumber := by
      rintro rfl
      rw [hc _ (Nat.le_refl _)] at hk
      cases hk
    exact ⟨k, by rw [hm, Table.get?_put_ne _ hne, hk], rfl⟩

/-- Another state of a consumer that was there. -/
theorem of_changed {n : Nat} {k l : Consumer η} (hk : c.made.get? n = some k)
    (hl : l.topic = k.topic) (hm : d.made = c.made.put n l) (hn : d.nextNumber = c.nextNumber) :
    Lasting c d := fun hc => by
  refine ⟨fun m h => ?_, fun m j hj => ?_⟩
  · have hne : m ≠ n := by
      rintro rfl
      rw [hc m (by omega)] at hk
      cases hk
    rw [hm, Table.get?_put_ne _ hne]
    exact hc m (by omega)
  · by_cases hmn : m = n
    · subst hmn
      rw [hk] at hj
      cases hj
      exact ⟨l, by rw [hm, Table.get?_put_self], hl⟩
    · exact ⟨j, by rw [hm, Table.get?_put_ne _ hmn, hj], rfl⟩

end Lasting

variable {c d e : Channels η}

/-- What the channels tell their broker. -/
inductive Traffic : Channels η → List Incident → Channels η → Prop where
  | aside {c d : Channels η} : c.Lasting d → d.broker = c.broker → Traffic c [] d
  | publish {c d : Channels η} {topic : String} {key : Option String} {body : Bytes} {t : Trace} :
      c.Lasting d → c.broker.publish topic key body = .ok (d.broker, t) →
      Traffic c [.published topic body] d
  | subscribe {c d : Channels η} {n : Nat} {k : Consumer η} {t : Trace} : c.Lasting d →
      c.made.get? n = some k → c.broker.subscribe k.topic (.consumer n) = .ok (d.broker, t) →
      Traffic c [] d
  | unsubscribe {c d : Channels η} {topic : String} {t : Trace} : c.Lasting d →
      c.broker.unsubscribe topic = .ok (d.broker, t) → Traffic c [] d
  | shutdown {c d : Channels η} : c.Lasting d → d.broker = c.broker.shutdown.1 → Traffic c [] d
  | andThen {c d e : Channels η} {log log' : List Incident} : Traffic c log d →
      Traffic d log' e → Traffic c (log ++ log') e

theorem Traffic.raw_not_mem {log : List Incident} (h : Traffic c log d) : .raw ∉ log := by
  induction h with
  | andThen _ _ ih ih' => simp [ih, ih']
  | _ => simp

theorem Traffic.works {log : List Incident} (h : Traffic c log d) : c.broker.Works d.broker := by
  induction h with
  | aside _ hb => exact hb ▸ .refl _
  | publish _ hb => exact .publish hb
  | subscribe _ _ hb => exact .subscribe hb
  | unsubscribe _ hb => exact .unsubscribe hb
  | shutdown _ hb => exact hb ▸ .shutdown _
  | andThen _ _ ih ih' => exact ih.trans ih'

/-- Some traffic leads from `c` to `d`. -/
def Trades (c d : Channels η) : Prop := ∃ log, Traffic c log d

namespace Trades

theorem of_same (hb : d.broker = c.broker) (hm : d.made = c.made)
    (hn : c.nextNumber ≤ d.nextNumber) : Trades c d := ⟨_, .aside (.of_same hm hn) hb⟩

theorem refl (c : Channels η) : Trades c c := .of_same rfl rfl (Nat.le_refl _)

theorem trans (h : Trades c d) (h' : Trades d e) : Trades c e := by
  obtain ⟨log, h⟩ := h
  obtain ⟨log', h'⟩ := h'
  exact ⟨_, .andThen h h'⟩

end Trades

theorem monitor_trades (c : Channels η) (h : Hook) (t : String) : c.Trades (c.monitor h t) := by
  obtain ⟨-, hm, hn⟩ := monitor_fields c h t
  exact .of_same (monitor_broker c h t) hm (Nat.le_of_eq hn.symm)

theorem record_trades (c : Channels η) (t : Trace) : c.Trades (c.record t) :=
  .of_same rfl rfl (Nat.le_refl _)

theorem producer_trades (c : Channels η) (t : String) : c.Trades (c.producer t).2 := by
  unfold producer
  split
  · exact .refl c
  · split
    · exact .refl c
    · split
      · exact .refl c
      · refine Trades.trans ?_ (monitor_trades _ _ _)
        exact .of_same rfl rfl (Nat.le_succ _)

theorem send_trades (c : Channels η) (now : Instant) (t : String) (m : Message) :
    c.Trades (c.send now t m).2 := by
  simp only [send]
  split
  · exact .refl c
  · split
    · exact .of_same rfl rfl (Nat.le_refl _)
    · rename_i hb
      dsimp only
      refine Trades.trans ?_ (monitor_trades _ _ _)
      exact ⟨_, .publish (.of_same rfl (Nat.le_refl _)) hb⟩

theorem publish_trades (c : Channels η) (now : Instant) (t : String) (m : Message) :
    c.Trades (c.publish now t m).2 := by
  have hp := c.producer_trades t
  unfold publish
  split
  · rename_i hd
    rw [hd] at hp
    exact hp
  · rename_i hd
    rw [hd] at hp
    exact hp.trans (send_trades _ now t m)

theorem consumer_trades (c : Channels η) (t : String) : c.Trades (c.consumer t).2 := by
  have hbroker := c.consumer_broker t
  obtain ⟨why, h⟩ | ⟨n, -, h⟩ | ⟨d, hnone, h, -, hm, hn⟩ := consumer_cases c t
  · rw [h]
    exact .refl c
  · rw [h]
    exact .refl c
  · rw [h] at hbroker ⊢
    exact ⟨_, .aside (.of_new hm hn) hbroker⟩

theorem attach_trades (c : Channels η) (n : Nat) (handler : η) :
    c.Trades (c.attach n handler).2 := by
  unfold attach
  split
  · exact .refl c
  · rename_i k hk
    split
    · exact .refl c
    · split
      · exact .refl c
      · split
        · exact .refl c
        · rename_i hb
          refine ⟨_, .subscribe ?_ hk hb⟩
          exact .of_changed (l := { k with handler := some handler }) hk rfl rfl rfl

theorem forget_trades (c : Channels η) (t : String) (n : Nat) : c.Trades (c.forget t n) := by
  unfold forget
  split
  · exact .of_same rfl rfl (Nat.le_refl _)
  · exact .refl c

theorem trySubscribe_trades (c : Channels η) (t : String) (handler : η) :
    c.Trades (c.trySubscribe t handler).2 := by
  have hconsumer := c.consumer_trades t
  unfold trySubscribe
  split
  · rename_i hd
    rw [hd] at hconsumer
    exact hconsumer
  · rename_i n d hd
    rw [hd] at hconsumer
    have hattach := d.attach_trades n handler
    split
    · rename_i he
      rw [he] at hattach
      exact (hconsumer.trans hattach).trans (forget_trades _ _ _)
    · rename_i he
      rw [he] at hattach
      exact hconsumer.trans hattach

theorem subscribe_trades (c : Channels η) (t : String) (handler : η) :
    c.Trades (c.subscribe t handler).2 := by
  have hfirst := c.trySubscribe_trades t handler
  unfold subscribe
  split
  · rename_i d hd
    rw [hd] at hfirst
    exact hfirst.trans (d.trySubscribe_trades t handler)
  · rename_i hd
    rw [hd] at hfirst
    exact hfirst

theorem close_trades (c : Channels η) (n : Nat) : c.Trades (c.close n).2 := by
  unfold close
  split
  · exact .refl c
  · rename_i k hk
    have hclosed : c.Trades { c with
        made := c.made.put n { k with handler := none, closed := true } } :=
      ⟨_, .aside (.of_changed (l := { k with handler := none, closed := true }) hk rfl rfl rfl) rfl⟩
    simp only
    split
    · exact hclosed
    · split
      · exact hclosed
      · rename_i hb
        exact hclosed.trans ⟨_, .unsubscribe (.of_same rfl (Nat.le_refl _)) hb⟩

theorem unsubscribe_trades (c : Channels η) (t : String) : c.Trades (c.unsubscribe t).2 := by
  unfold unsubscribe
  split
  · exact .refl c
  · rename_i n hn
    have hclosed := ({ c with consumers := c.consumers.erase t } : Channels η).close_trades n
    refine Trades.trans (Trades.trans ?_ hclosed) (monitor_trades _ _ _)
    exact .of_same rfl rfl (Nat.le_refl _)

theorem release_trades (c : Channels η) (t : String) : c.Trades (c.release t) := by
  have hu := c.unsubscribe_trades t
  unfold release
  split
  · rename_i hd
    rw [hd] at hu
    exact hu
  · rename_i hd
    rw [hd] at hu
    exact hu.trans (record_trades _ _)

theorem dropProducer_trades (c : Channels η) (t : String) : c.Trades (c.dropProducer t) := by
  refine Trades.trans ?_ (monitor_trades _ _ _)
  exact .of_same rfl rfl (Nat.le_refl _)

theorem foldl_trades {f : Channels η → String → Channels η}
    (hf : ∀ (c : Channels η) t, c.Trades (f c t)) (ts : List String) (c : Channels η) :
    c.Trades (ts.foldl f c) := by
  induction ts generalizing c with
  | nil => exact .refl c
  | cons t ts ih => exact (hf c t).trans (ih _)

theorem stopBroker_trades (c : Channels η) : c.Trades c.stopBroker :=
  ⟨_, .shutdown (.of_same rfl (Nat.le_refl _)) rfl⟩

theorem shutdown_trades (c : Channels η) : c.Trades c.shutdown := by
  unfold shutdown
  split
  · exact .refl c
  · have hclosing : c.Trades ({ c with shutDown := true }.note .channelsClosing) :=
      .of_same rfl rfl (Nat.le_refl _)
    exact ((hclosing.trans (foldl_trades release_trades _ _)).trans
      (foldl_trades dropProducer_trades _ _)).trans (stopBroker_trades _)

/-! ### Whole operations -/

/-- Some calls lead from `c` to `d`, and some traffic does. -/
structure Deals (c d : Channels η) : Prop where
  trades : c.Trades d
  calls : c.Calls d

theorem Deals.refl (c : Channels η) : c.Deals c := ⟨.refl c, .refl c⟩

theorem Deals.trans (h : c.Deals d) (h' : d.Deals e) : c.Deals e :=
  ⟨h.trades.trans h'.trades, h.calls.trans h'.calls⟩

/-- What channels do while their broker delivers nothing. -/
structure Goes (c d : Channels η) : Prop where
  works : c.broker.Works d.broker
  calls : c.Calls d

theorem Goes.refl (c : Channels η) : c.Goes c := ⟨.refl _, .refl c⟩

theorem Goes.trans (h : c.Goes d) (h' : d.Goes e) : c.Goes e :=
  ⟨h.works.trans h'.works, h.calls.trans h'.calls⟩

theorem Deals.goes (h : c.Deals d) : c.Goes d := by
  obtain ⟨log, htraffic⟩ := h.trades
  exact ⟨htraffic.works, h.calls⟩

theorem record_deals (c : Channels η) (t : Trace) : c.Deals (c.record t) :=
  ⟨c.record_trades t, .record c t⟩

theorem Goes.record (c : Channels η) (t : Trace) : c.Goes (c.record t) := (c.record_deals t).goes

/-- The broker is told about a delivery. -/
theorem Goes.told {c : Channels η} {b : Broker Subscriber} {x : Settlement} {topic : String}
    {body : Bytes} {t : Trace} (hb : c.broker.settle x topic body = (.ok b, t)) (u : Trace) :
    c.Goes (({ c with broker := b } : Channels η).record u) := by
  have htold : c.broker.told topic body x = b := by simp only [Broker.told, hb]
  exact ⟨.settle hb, .broker c (htold ▸ .told c.broker topic body x) u⟩

theorem producer_deals (c : Channels η) (t : String) : c.Deals (c.producer t).2 :=
  ⟨c.producer_trades t, .operate c (.producer t)⟩

theorem send_deals (c : Channels η) (now : Instant) (t : String) (m : Message) :
    c.Deals (c.send now t m).2 :=
  ⟨c.send_trades now t m, .send c now t m⟩

theorem publish_deals (c : Channels η) (now : Instant) (t : String) (m : Message) :
    c.Deals (c.publish now t m).2 :=
  ⟨c.publish_trades now t m, .publish c now t m⟩

theorem subscribe_deals (c : Channels η) (t : String) (handler : η) :
    c.Deals (c.subscribe t handler).2 :=
  ⟨c.subscribe_trades t handler, .operate c (.subscribe t handler)⟩

theorem unsubscribe_deals (c : Channels η) (t : String) : c.Deals (c.unsubscribe t).2 :=
  ⟨c.unsubscribe_trades t, .operate c (.unsubscribe t)⟩

theorem shutdown_deals (c : Channels η) : c.Deals c.shutdown :=
  ⟨c.shutdown_trades, .operate c .shutdown⟩

end Channels

namespace Inbox

variable {η : Type}

theorem register_deals (i : Inbox) (correlation : String) (self : Nat) (handler : η)
    (c : Channels η) : c.Deals (i.register correlation self handler c).2.2 := by
  have hnoted := c.record_deals (i.displacement correlation self)
  simp only [register]
  split
  · exact hnoted
  · have hsub := (c.record (i.displacement correlation self)).subscribe_deals
      (i.enter correlation self).topic handler
    split
    · rename_i hd
      rw [hd] at hsub
      exact hnoted.trans hsub
    · rename_i hd
      rw [hd] at hsub
      exact hnoted.trans (hsub.trans (Channels.record_deals _ _))

theorem unregister_deals (i : Inbox) (correlation : String) (self : Nat) (c : Channels η) :
    c.Deals (i.unregister correlation self c).2 := by
  have hun := c.unsubscribe_deals (i.strike correlation self).topic
  unfold unregister
  split
  · simp only
    split
    · split
      · rename_i hd
        rw [hd] at hun
        exact hun
      · rename_i hd
        rw [hd] at hun
        exact hun.trans (Channels.record_deals _ _)
    · exact .refl c
  · exact .refl c

end Inbox

namespace Session

def withBroker (s : Session) (b : Broker Subscriber) : Session :=
  { s with channels := { s.channels with broker := b } }

/-- Whether a call on a receipt makes the delivery come again. -/
def retries (s : Session) (n : Nat) (call : Receipt.Call) : List Incident :=
  match s.deliveries.get? n with
  | none => []
  | some d =>
    match (d.receipt.call call).forward, d.body with
    | some .retry, some _ => [.retried n]
    | _, _ => []

/-- Whether a delivery to a consumer comes to its handler. -/
def invocation (s : Session) (n : Nat) (e : Envelope) : List Incident :=
  match (if s.hasConsumer n then s.channels.made.get? n else none) with
  | none => []
  | some k =>
    match k.admit s.now e.body with
    | .admitted _ _ => [.invoked s.nextDelivery k.topic e.body e.redelivered]
    | _ => []

/-- What passes between a session and its broker, with anything else in between. -/
inductive Traffic : Session → List Incident → Session → Prop where
  | channels {s s' : Session} {log : List Incident} : s.channels.Traffic log s'.channels →
      s'.deliveries = s.deliveries → s'.nextDelivery = s.nextDelivery → Traffic s log s'
  | settle (s : Session) (n : Nat) (call : Receipt.Call) :
      Traffic s (s.retries n call) (s.settle n call)
  /-- A message is handed to an inbox that the broker did not deliver. -/
  | accept (s : Session) (receipt : Receipt) : Traffic s [] (s.accept receipt none).2
  /-- A worker delivers to a consumer. -/
  | deliver {s : Session} {b b' : MemoryBroker Subscriber} {id worker n : Nat} {topic : String}
      {e : Envelope} : s.channels.broker = .memory b →
      b.turnOf? id = some (.delivery worker (.consumer n) topic e b') →
      Traffic s (s.invocation n e) ((s.withBroker (.memory b')).deliver (.consumer n) topic e).2
  | stop {s : Session} {b b' : MemoryBroker Subscriber} {id : Nat} :
      s.channels.broker = .memory b → b.turnOf? id = some (.stopped b') →
      Traffic s [] (s.withBroker (.memory b'))
  | finish {s : Session} {b : MemoryBroker Subscriber} (id : Nat) :
      s.channels.broker = .memory b → Traffic s [] (s.withBroker (.memory (b.finish id)))
  | raw (s : Session) (b : Broker Subscriber) : Traffic s [.raw] (s.withBroker b)
  /-- Something is delivered that no worker delivers to a consumer. -/
  | byHand (s : Session) (subscriber : Subscriber) (topic : String) (e : Envelope) :
      Traffic s [.raw] (s.deliver subscriber topic e).2
  | andThen {s s' s'' : Session} {log log' : List Incident} : Traffic s log s' →
      Traffic s' log' s'' → Traffic s (log ++ log') s''

theorem Traffic.refl (s : Session) : Traffic s [] s :=
  .channels (.aside (.of_same rfl (Nat.le_refl _)) rfl) rfl rfl

/-- Some traffic leads from `s` to `s'`.  The application did not work on the broker directly, and
no worker delivered anything. -/
structure Deals (s s' : Session) : Prop where
  traffic : ∃ log, Traffic s log s' ∧ .raw ∉ log
  goes : s.channels.Goes s'.channels

namespace Deals

variable {s s' s'' : Session}

theorem of_channels (h : s.channels.Deals s'.channels) (hd : s'.deliveries = s.deliveries)
    (hn : s'.nextDelivery = s.nextDelivery) : Deals s s' := by
  obtain ⟨log, htraffic⟩ := h.trades
  exact ⟨⟨log, .channels htraffic hd hn, htraffic.raw_not_mem⟩, h.goes⟩

theorem refl (s : Session) : Deals s s := .of_channels (.refl _) rfl rfl

theorem trans (h : Deals s s') (h' : Deals s' s'') : Deals s s'' := by
  obtain ⟨log, ht, hraw⟩ := h.traffic
  obtain ⟨log', ht', hraw'⟩ := h'.traffic
  exact ⟨⟨_, .andThen ht ht', by simp [hraw, hraw']⟩, h.goes.trans h'.goes⟩

end Deals

variable (s : Session)

theorem channels_deals {c : Channels Handler} (h : s.channels.Deals c) :
    s.Deals { s with channels := c } :=
  .of_channels h rfl rfl

theorem record_deals (t : Trace) : s.Deals (s.record t) :=
  s.channels_deals (s.channels.record_deals t)

theorem note_deals (n : Note) : s.Deals (s.note n) := s.record_deals _

theorem happen_deals (h : Happening) : s.Deals (s.happen h) := s.record_deals _

/-! ## Conversations -/

theorem setDesk_deals (d : Desk) (name : DeskName) : s.Deals (s.setDesk d name) := by
  cases name <;> exact .of_channels (.refl _) rfl rfl

theorem setTimers_deals (name : DeskName) (t : Timers) : s.Deals (s.setTimers name t) :=
  s.setDesk_deals _ name

theorem setInbox_deals (name : DeskName) (i : Inbox) : s.Deals (s.setInbox name i) :=
  s.setDesk_deals _ name

theorem setConversation_deals (n : Nat) (c : Conversation) : s.Deals (s.setConversation n c) :=
  .of_channels (.refl _) rfl rfl

theorem putWatch_deals (n : Nat) (desk : DeskName) (w : Watch) : s.Deals (s.putWatch n desk w) :=
  ((s.setConversation_deals n _).trans (setTimers_deals _ desk _)).trans (record_deals _ _)

theorem place_deals (desk : DeskName) (correlation topic : String) (terms : Terms)
    (callbacks : Callbacks) : s.Deals (s.place desk correlation topic terms callbacks).2 := by
  refine (s.setInbox_deals desk (s.inbox desk topic)).trans ?_
  exact .of_channels (.refl _) rfl rfl

theorem setInbox_channels (name : DeskName) (i : Inbox) :
    (s.setInbox name i).channels = s.channels := by
  cases name <;> rfl

theorem register_deals (n : Nat) : s.Deals (s.register n).2 := by
  unfold register
  split
  · exact .refl s
  · rename_i x hx
    refine (s.setInbox_deals _ _).trans (channels_deals _ ?_)
    rw [setInbox_channels]
    exact Inbox.register_deals _ _ _ _ _

theorem unregister_deals (n : Nat) : s.Deals (s.unregister n) := by
  unfold unregister
  split
  · exact .refl s
  · rename_i x hx
    refine (s.setInbox_deals _ _).trans (channels_deals _ ?_)
    rw [setInbox_channels]
    exact Inbox.unregister_deals _ _ _ _

theorem listen_deals (n : Nat) : s.Deals (s.listen n).2 := by
  unfold listen
  split
  · exact .refl s
  · rename_i x hx
    have hregistered := (s.setConversation_deals n x.conversation.listen).trans
      (register_deals _ n)
    simp only
    split
    · rename_i hr
      rw [hr] at hregistered
      exact hregistered
    · rename_i hr
      rw [hr] at hregistered
      exact hregistered.trans (setConversation_deals _ _ _)

theorem wait_deals (n : Nat) : s.Deals (s.wait n) := by
  unfold wait
  split
  · exact .refl s
  · exact s.putWatch_deals _ _ _

theorem handle_deals (n : Nat) (m : Message) : s.Deals (s.handle n m).2 := by
  unfold handle
  split
  · exact .refl s
  · split
    · exact .refl s
    · exact s.putWatch_deals _ _ _

theorem abort_deals (n : Nat) (why : Failure) : s.Deals (s.abort n why).2 := by
  unfold abort
  split
  · exact .refl s
  · simp only
    split
    · exact .refl s
    · exact (s.putWatch_deals _ _ _).trans (unregister_deals _ _)

theorem resolve_deals (n : Nat) (e : Ending) : s.Deals (s.resolve n e) := by
  unfold resolve
  split
  · exact .refl s
  · split
    · exact s.setConversation_deals _ _
    · exact .refl s

/-! ## Requests and answers -/

theorem fresh_deals : s.Deals s.fresh.2 := .of_channels (.refl _) rfl rfl

theorem requestMessage_deals (r : Requester) (payload : Json.Value) :
    s.Deals (s.requestMessage r payload).2 := by
  unfold requestMessage
  cases r.joins with
  | none => exact s.fresh_deals.trans (fresh_deals _)
  | some m => exact s.fresh_deals

theorem converse_deals (r : Requester) (m : Message) : s.Deals (s.converse r m).2.2 := by
  have hplaced := s.place_deals .shared m.correlation (s.origin.responseTopic r.namesp)
    (s.terms r.options) r.callbacks
  unfold converse
  simp only
  generalize hs : s.place .shared m.correlation (s.origin.responseTopic r.namesp)
    (s.terms r.options) r.callbacks = placed at hplaced ⊢
  obtain ⟨n, s₁⟩ := placed
  have hlistened := s₁.listen_deals n
  split
  · rename_i why s₂ hl
    rw [hl] at hlistened
    exact hplaced.trans hlistened
  · rename_i u s₂ hl
    rw [hl] at hlistened
    have hsent := s₂.channels.send_deals s₂.now r.namesp m
    split
    · rename_i hc
      rw [hc] at hsent
      exact ((hplaced.trans hlistened).trans (channels_deals _ hsent)).trans (abort_deals _ _ _)
    · rename_i hc
      rw [hc] at hsent
      exact ((hplaced.trans hlistened).trans (channels_deals _ hsent)).trans (wait_deals _ _)

theorem publish_deals (r : Requester) (payload : Json.Value) :
    s.Deals (s.publish r payload).2.2 := by
  have hm := s.requestMessage_deals r payload
  have hfound := (s.requestMessage r payload).2.channels.producer_deals r.namesp
  unfold publish
  simp only
  split
  · rename_i hc
    rw [hc] at hfound
    exact hm.trans (channels_deals _ hfound)
  · rename_i c hc
    rw [hc] at hfound
    have hready := hm.trans (channels_deals _ hfound)
    split
    · exact hready.trans (converse_deals _ _ _)
    · have hsent := c.send_deals
        ({ (s.requestMessage r payload).2 with channels := c } : Session).now r.namesp
        (s.requestMessage r payload).1
      split
      · rename_i he
        rw [he] at hsent
        exact hready.trans (channels_deals _ hsent)
      · rename_i he
        rw [he] at hsent
        exact hready.trans (channels_deals _ hsent)

theorem respond_deals (r : Responder) (ack : Ack) (payload : Option Json.Value) :
    s.Deals (s.respond r ack payload).2 := by
  unfold respond
  split
  · exact .refl s
  · have hfresh := s.fresh_deals
    simp only
    split
    · exact hfresh
    · exact hfresh.trans (channels_deals _ (Channels.publish_deals _ _ _ _))

/-! ## Scripts -/

theorem forward_goes (d : Delivery) (x : Settlement) :
    s.channels.Goes (s.forward d x).channels := by
  unfold forward
  split
  · simp only
    split
    · exact (Channels.Goes.record s.channels _).trans (.record _ _)
    · exact .record s.channels _
  · split
    · rename_i hb
      exact .told hb _
    · exact (Channels.Goes.record s.channels _).trans (.record _ _)

theorem settle_goes (n : Nat) (call : Receipt.Call) :
    s.channels.Goes (s.settle n call).channels := by
  unfold settle
  split
  · exact .refl _
  · rename_i d hd
    have hnoted : s.channels.Goes (s.channels.record ((d.receipt.call call).notes.map .note)) :=
      .record s.channels _
    simp only
    split
    · exact hnoted.trans (forward_goes (({ s with
        deliveries := s.deliveries.put n { d with receipt := (d.receipt.call call).receipt } } :
          Session).record _) _ _)
    · exact hnoted

theorem settle_deals (n : Nat) (call : Receipt.Call) : s.Deals (s.settle n call) := by
  refine ⟨⟨_, .settle s n call, ?_⟩, s.settle_goes n call⟩
  unfold retries
  split
  · simp
  · split <;> simp

theorem send_deals (requester : String) (joins : Option Message) (payload : Json.Value) :
    s.Deals (s.send requester joins payload).session := by
  unfold send
  split
  · exact .refl s
  · exact s.publish_deals _ payload

theorem named_deals (name : String) {act : Nat → Effect} (h : ∀ n, s.Deals (act n).session) :
    s.Deals (s.named name act).session := by
  unfold named
  split
  · exact h _
  · exact .refl s

theorem answering_deals (scope : Scope) {act : Responder → Effect}
    (h : ∀ r, s.Deals (act r).session) : s.Deals (s.answering scope act).session := by
  unfold answering
  split
  · exact h _
  · exact .refl s

theorem answerDouble_deals (r : Responder) : s.Deals (s.answerDouble r).session := by
  unfold answerDouble
  split
  · exact s.respond_deals r _ _
  · split
    · exact s.respond_deals r _ _
    · exact .refl s

theorem shutdownContext_deals : s.Deals s.shutdownContext.2 := by
  unfold shutdownContext
  split
  · exact .refl s
  · split
    · exact .refl s
    · refine Deals.trans ?_ (note_deals _ _)
      exact .of_channels (.refl _) rfl rfl

theorem act_deals (scope : Scope) (a : Action) : s.Deals (s.act scope a).session := by
  cases a with
  | settle call =>
    unfold act
    cases scope.delivery with
    | none => exact .refl s
    | some n => exact s.settle_deals n call
  | hold =>
    unfold act
    cases scope.delivery with
    | none => exact .refl s
    | some n => exact .of_channels (.refl _) rfl rfl
  | fail reason => exact .refl s
  | failUnlessRedelivered reason =>
    unfold act
    simp only
    split <;> exact .refl s
  | panic reason => exact .refl s
  | unsubscribe topic => exact s.channels_deals (Channels.unsubscribe_deals _ _)
  | publish topic draft => exact s.channels_deals (Channels.publish_deals _ _ _ _)
  | handle name draft => exact s.named_deals name fun n => s.handle_deals n _
  | abort name reason => exact s.named_deals name fun n => s.abort_deals n _
  | listen name => exact s.named_deals name fun n => s.listen_deals n
  | acknowledge timeoutMs remaining =>
    exact s.answering_deals scope fun r => s.respond_deals r _ _
  | answer payload => exact s.answering_deals scope fun r => s.respond_deals r _ _
  | echo => exact s.answering_deals scope fun r => s.respond_deals r _ _
  | echoNumbered index => exact s.answering_deals scope fun r => s.respond_deals r _ _
  | double => exact s.answering_deals scope s.answerDouble_deals
  | holdResponder name =>
    exact s.answering_deals scope fun r => .of_channels (.refl _) rfl rfl
  | request requester payload => exact s.send_deals requester none payload
  | chain requester payload =>
    unfold act
    dsimp only
    split
    · exact s.send_deals requester _ payload
    · exact .refl s
  | shutdown => exact s.shutdownContext_deals

/-! ## Frames -/

theorem recover_deals (sv : Server) (r : Responder) (delivery : Nat) (reason : String) :
    s.Deals (s.recover sv r delivery reason).2 := by
  unfold recover
  split
  · exact s.happen_deals _
  · simp only
    have hanswer := (s.note_deals (.requestFailed r.request.correlation r.request.id sv.namesp
      reason)).trans (respond_deals _ r r.deduction (some (Payload.serverError reason).toJson))
    split
    · rename_i hs
      rw [hs] at hanswer
      exact hanswer.trans (settle_deals _ _ _)
    · rename_i hs
      rw [hs] at hanswer
      exact (hanswer.trans (note_deals _ _)).trans (settle_deals _ _ _)

theorem conclude_deals (o : Outcome) (g : Guard) : s.Deals (s.conclude o g).2 := by
  cases g with
  | delivery n id =>
    cases o with
    | done => exact s.settle_deals n _
    | failed reason => exact (s.note_deals _).trans (settle_deals _ n _)
    | panicked reason => exact (s.note_deals _).trans (settle_deals _ n _)
  | callback name =>
    cases o with
    | panicked reason => exact s.note_deals _
    | _ => exact .refl s
  | request sv r n =>
    cases o with
    | done => exact .refl s
    | failed reason => exact s.recover_deals sv r n reason
    | panicked reason => exact s.recover_deals sv r n _
  | recovery sv n =>
    cases o with
    | panicked reason => exact (s.note_deals _).trans (settle_deals _ n _)
    | _ => exact s.settle_deals n _

theorem advance_deals (scope : Scope) (todo : List Action) (g : Guard) :
    s.Deals (s.advance scope todo g).2 := by
  cases todo with
  | nil => exact s.conclude_deals .done g
  | cons a rest =>
    unfold advance
    simp only
    split <;> exact s.act_deals scope a

/-- Whatever is done for a frame is traffic. -/
theorem perform_deals (f : Frame) : s.Deals (s.perform f).2 := by
  cases f with
  | script scope todo g => exact s.advance_deals scope todo g
  | verdict o g => exact s.conclude_deals o g
  | report exchange callbacks r =>
    unfold perform call
    simp only
    split
    · exact .refl s
    · exact s.happen_deals _
  | close n e =>
    unfold perform
    simp only
    split
    · exact .refl s
    · exact s.unregister_deals n
  | resolve n e => exact s.resolve_deals n e
  | abortInboxes desk topics why =>
    cases topics <;> exact .refl s
  | abortAll ns why =>
    cases ns with
    | nil => exact .refl s
    | cons n rest => exact s.abort_deals n why
  | stopTimers desk =>
    unfold perform
    simp only
    split
    · exact .refl s
    · exact (s.setTimers_deals _ _).trans (note_deals _ _)
  | closeChannels => exact s.channels_deals (Channels.shutdown_deals _)
  | release worker =>
    unfold perform
    simp only
    split
    · rename_i b hb
      have haside : s.channels.broker.Aside (.memory (b.finish worker)) := hb ▸ .finish b worker
      refine ⟨⟨_, .finish worker hb, by simp⟩, ?_, .aside s.channels _ _ _ haside⟩
      rw [hb]
      exact .of_step (.finish b worker) fun _ => rfl
    · exact .refl s

/-! ## Deliveries -/

theorem publishRaw_deals (topic : String) (key : Option String) (body : Bytes) :
    s.Deals (s.publishRaw topic key body).2 := by
  unfold publishRaw
  split
  · rename_i b t hb
    exact s.channels_deals
      ⟨⟨_, .publish (.of_same rfl (Nat.le_refl _)) hb⟩, .broker s.channels (.publish hb) t⟩
  · exact .refl s

theorem unsubscribeRaw_deals (topic : String) : s.Deals (s.unsubscribeRaw topic).2 := by
  unfold unsubscribeRaw
  split
  · rename_i b t hb
    exact s.channels_deals
      ⟨⟨_, .unsubscribe (.of_same rfl (Nat.le_refl _)) hb⟩, .leave s.channels hb⟩
  · exact .refl s

theorem arrive_deals (desk : DeskName) (topic : String) (delivery : Nat) (m : Message) :
    s.Deals (s.arrive desk topic delivery m).2 := by
  unfold arrive
  split
  · exact s.handle_deals _ m
  · exact (s.note_deals _).trans (settle_deals _ _ _)

/-- In its turn a worker of a broker in memory stops, or delivers to its subscriber. -/
theorem turn_cases {s s' : Session} {frames : List Frame} (h : s.turn? = some (frames, s')) :
    ∃ b id, s.channels.broker = .memory b ∧
      ((∃ b', b.turnOf? id = some (.stopped b') ∧ s' = s.withBroker (.memory b')) ∨
        ∃ worker subscriber topic e b',
          b.turnOf? id = some (.delivery worker subscriber topic e b') ∧
            s' = ((s.withBroker (.memory b')).deliver subscriber topic e).2) := by
  unfold turn? at h
  split at h
  · cases h
  · rename_i b hb
    simp only at h
    split at h
    · cases h
    · rename_i b' hturn
      cases h
      obtain ⟨entry, -, hturn⟩ := Option.bind_eq_some_iff.mp hturn
      exact ⟨b, _, hb, .inl ⟨b', hturn, rfl⟩⟩
    · rename_i worker subscriber topic e b' hturn
      cases h
      obtain ⟨entry, -, hturn⟩ := Option.bind_eq_some_iff.mp hturn
      exact ⟨b, _, hb, .inr ⟨worker, subscriber, topic, e, b', hturn, rfl⟩⟩

theorem turn_traffic {s s' : Session} {frames : List Frame} (h : s.turn? = some (frames, s')) :
    ∃ log, s.Traffic log s' := by
  obtain ⟨b, id, hb, ⟨b', hturn, rfl⟩ | ⟨worker, subscriber, topic, e, b', hturn, rfl⟩⟩ :=
    turn_cases h
  · exact ⟨_, .stop hb hturn⟩
  · cases subscriber with
    | consumer n => exact ⟨_, .deliver hb hturn⟩
    | raw t actions => exact ⟨_, .andThen (.raw s _) (.byHand _ _ topic e)⟩

end Session

namespace Machine

theorem traffic_step {m m' : Machine} (h : m.step? = some m') :
    ∃ log, m.session.Traffic log m'.session := by
  refine step_cases (R := fun m m' => ∃ log, m.session.Traffic log m'.session) ?_ ?_ h
  · intro f _ s
    obtain ⟨log, htraffic, -⟩ := (s.perform_deals f).traffic
    exact ⟨log, htraffic⟩
  · exact Session.turn_traffic

/-- Whatever a machine does by itself is traffic. -/
theorem traffic_run (n : Nat) (m : Machine) : ∃ log, m.session.Traffic log (m.run n).session := by
  refine run_induction (R := fun m m' => ∃ log, m.session.Traffic log m'.session) ?_ ?_ n m
  · exact fun m => ⟨_, .refl m.session⟩
  · rintro m m' m'' hstep ⟨log', htraffic'⟩
    obtain ⟨log, htraffic⟩ := traffic_step hstep
    exact ⟨_, htraffic.andThen htraffic'⟩

end Machine
end Colloquy
