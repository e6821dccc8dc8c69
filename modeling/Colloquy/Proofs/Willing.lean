/-
Channels to a broker that refuses nothing.

Such a broker takes every message and lets go of every topic, and it takes a subscription to each
topic on which it delivers to nobody.  `Ready` says that the channels are in order, that they run
on a broker of this kind, and that one topic can be subscribed to whenever it has no handler.
Every call keeps this, and how it comes out does not depend on what was called before.  So an inbox
on that topic can always subscribe to it when its first member comes, however often the last one
has left.
-/
import Colloquy.Inbox
import Colloquy.Proofs.Handlers

namespace Colloquy

/-! ## Brokers -/

namespace Broker

variable {σ : Type} {b b' : Broker σ} {topic : String} {t : Trace}

/-- A broker that runs and refuses nothing. -/
def Willing : Broker σ → Prop
  | memory m => m.down = false
  | manual m => m.down = false ∧ m.refuses = {}

theorem Willing.publish (h : b.Willing) (topic : String) (key : Option String) (body : Bytes) :
    ∃ b' t, b.publish topic key body = .ok (b', t) ∧ b'.Willing := by
  cases b with
  | memory m =>
    have hdown : m.down = false := h
    refine ⟨memory ({ m with published := m.published + 1 }.enqueue topic
      { body, redelivered := false }), [], ?_, ?_⟩
    · simp [Broker.publish, MemoryBroker.publish, MemoryBroker.checkRunning, hdown, bind,
        Except.bind, Except.map]
    · show (MemoryBroker.enqueue _ topic _).down = false
      unfold MemoryBroker.enqueue
      simp only
      split <;> exact hdown
  | manual m =>
    obtain ⟨hdown, hrefuses⟩ := h
    refine ⟨manual (m.push topic { body, redelivered := false }),
      [.happening (.published topic key body)], ?_, hdown, hrefuses⟩
    simp only [Broker.publish, ManualBroker.publish, hdown, hrefuses, if_false, Bool.false_eq_true,
      Except.map]

theorem Willing.subscribe (h : b.Willing) (hb : b.Sound) (hnone : b.subscriber? topic = none)
    (x : σ) : ∃ b' t, b.subscribe topic x = .ok (b', t) := by
  cases b with
  | memory m =>
    have hdown : m.down = false := h
    have hworker : (m.lane topic).worker = none := by
      cases hw : (m.lane topic).worker with
      | none => rfl
      | some id =>
        obtain ⟨w, hget, -⟩ := MemoryBroker.Sound.worker hb hw
        have hsome : m.subscriber? topic = some w.subscriber := by
          rw [MemoryBroker.subscriber?, hw, Option.bind_some, MemoryBroker.post, hget]
          rfl
        cases hsome.symm.trans hnone
    simp [Broker.subscribe, MemoryBroker.subscribe, MemoryBroker.checkRunning, hdown, hworker, bind,
      Except.bind, Except.map]
  | manual m =>
    simp only [Broker.subscribe, ManualBroker.subscribe, h.2, if_false, Bool.false_eq_true,
      Except.map]
    exact ⟨_, _, rfl⟩

theorem Willing.of_subscribe (h : b.Willing) {x : σ} (hs : b.subscribe topic x = .ok (b', t)) :
    b'.Willing := by
  cases b with
  | memory m =>
    obtain ⟨m', rfl, hm⟩ := subscribe_memory hs
    obtain ⟨hdown, -, rfl⟩ := MemoryBroker.subscribe_eq_ok hm
    exact hdown
  | manual m =>
    simp only [Broker.subscribe, ManualBroker.subscribe, h.2, if_false, Bool.false_eq_true,
      Except.map] at hs
    cases hs
    exact ⟨h.1, rfl⟩

theorem Willing.unsubscribe (h : b.Willing) (topic : String) :
    ∃ b' t, b.unsubscribe topic = .ok (b', t) ∧ b'.Willing := by
  cases b with
  | memory m =>
    refine ⟨_, _, rfl, ?_⟩
    show (m.unsubscribe topic).down = false
    unfold MemoryBroker.unsubscribe
    simp only
    split <;> exact h
  | manual m =>
    simp only [Broker.unsubscribe, ManualBroker.unsubscribe, h.2, if_false, Bool.false_eq_true,
      Except.map]
    exact ⟨_, _, rfl, h.1, rfl⟩

theorem Willing.settle (h : b.Willing) {x : Settlement} {body : Bytes}
    (hs : b.settle x topic body = (.ok b', t)) : b'.Willing := by
  cases b with
  | memory m =>
    cases hs
    show (m.settle x topic body).down = false
    have hdown : m.down = false := h
    cases x with
    | retry =>
      simp only [MemoryBroker.settle, MemoryBroker.enqueue]
      split <;> exact hdown
    | _ => exact hdown
  | manual m =>
    simp only [Broker.settle, ManualBroker.settle, ManualBroker.refusal?, h.2, if_false,
      Bool.false_eq_true, Except.map] at hs
    cases x <;> cases hs <;> exact h

end Broker

/-! ## Channels -/

namespace Channels

variable {η : Type} {c d e : Channels η} {topic : String}

/-- What calls on channels that run leave alone, and that they leave a broker willing. -/
structure Upholds (c d : Channels η) : Prop where
  shutDown : d.shutDown = c.shutDown
  validateTopics : d.validateTopics = c.validateTopics
  producers : d.producers = c.producers
  willing : c.broker.Willing → d.broker.Willing

namespace Upholds

theorem of_broker (hs : d.shutDown = c.shutDown) (hv : d.validateTopics = c.validateTopics)
    (hp : d.producers = c.producers) (hb : d.broker = c.broker) : c.Upholds d :=
  ⟨hs, hv, hp, fun h => hb ▸ h⟩

theorem refl (c : Channels η) : c.Upholds c := .of_broker rfl rfl rfl rfl

theorem trans (h : c.Upholds d) (h' : d.Upholds e) : c.Upholds e :=
  ⟨h'.shutDown.trans h.shutDown, h'.validateTopics.trans h.validateTopics,
    h'.producers.trans h.producers, fun hc => h'.willing (h.willing hc)⟩

end Upholds

theorem monitor_upholds (c : Channels η) (h : Hook) (t : String) : c.Upholds (c.monitor h t) := by
  unfold monitor
  split <;> exact .of_broker rfl rfl rfl rfl

theorem consumer_upholds (c : Channels η) (t : String) : c.Upholds (c.consumer t).2 := by
  unfold consumer
  split
  · exact .refl c
  · split
    · exact .refl c
    · split
      · exact .refl c
      · refine .trans ?_ (monitor_upholds _ _ _)
        exact .of_broker rfl rfl rfl rfl

theorem attach_upholds (c : Channels η) (n : Nat) (handler : η) :
    c.Upholds (c.attach n handler).2 := by
  unfold attach
  split
  · exact .refl c
  · split
    · exact .refl c
    · split
      · exact .refl c
      · split
        · exact .refl c
        · rename_i hb
          exact ⟨rfl, rfl, rfl, fun h => h.of_subscribe hb⟩

theorem forget_upholds (c : Channels η) (t : String) (n : Nat) : c.Upholds (c.forget t n) := by
  unfold forget
  split <;> exact .of_broker rfl rfl rfl rfl

theorem trySubscribe_upholds (c : Channels η) (t : String) (handler : η) :
    c.Upholds (c.trySubscribe t handler).2 := by
  have hconsumer := c.consumer_upholds t
  unfold trySubscribe
  split
  · rename_i hd
    rw [hd] at hconsumer
    exact hconsumer
  · rename_i n d hd
    rw [hd] at hconsumer
    have hattach := d.attach_upholds n handler
    split
    · rename_i he
      rw [he] at hattach
      exact (hconsumer.trans hattach).trans (forget_upholds _ _ _)
    · rename_i he
      rw [he] at hattach
      exact hconsumer.trans hattach

/-- The channels are in order and run on a broker that refuses nothing, their producers passed the
check of their topics, and the broker delivers nothing on a topic that has no handler. -/
structure Ready (topic : String) (c : Channels η) : Prop where
  faithful : c.Faithful
  running : c.shutDown = false
  willing : c.broker.Willing
  valid : c.checkNew topic = .ok ()
  producers : ∀ t n, c.producers.get? t = some n → c.checkNew t = .ok ()
  free : c.handler? topic = none → c.broker.subscriber? topic = none

namespace Ready

/-- The broker did something, and there can be more producers. -/
theorem aside (h : c.Ready topic) (hbroker : LawfulBroker.Keeps c.broker d.broker)
    (hwilling : d.broker.Willing) (hconsumers : d.consumers = c.consumers) (hmade : d.made = c.made)
    (hnext : c.nextNumber ≤ d.nextNumber) (hvalidate : d.validateTopics = c.validateTopics)
    (hrunning : d.shutDown = c.shutDown)
    (hproducers : ∀ t n, d.producers.get? t = some n → c.checkNew t = .ok ()) : d.Ready topic where
  faithful := h.faithful.aside hbroker hconsumers hmade hnext hvalidate
  running := hrunning.trans h.running
  willing := hwilling
  valid := (checkNew_congr hvalidate topic).trans h.valid
  producers := fun t n hn => (checkNew_congr hvalidate t).trans (hproducers t n hn)
  free := fun hgone => by
    have hsame := (Agree.of_consumers (P := fun _ => True) h.faithful.sound hconsumers hmade
      hnext).handler topic trivial
    cases hx : d.broker.subscriber? topic with
    | none => rfl
    | some x => cases (hbroker.posts topic x hx).symm.trans (h.free (hsame.symm.trans hgone))

theorem record (h : c.Ready topic) (t : Trace) : (c.record t).Ready topic :=
  h.aside (.refl h.faithful.broker) h.willing rfl rfl (Nat.le_refl _) rfl rfl h.producers

theorem monitor (h : c.Ready topic) (k : Hook) (t : String) : (c.monitor k t).Ready topic := by
  obtain ⟨hconsumers, hmade, hnext⟩ := monitor_fields c k t
  have hupholds := c.monitor_upholds k t
  refine h.aside ?_ (hupholds.willing h.willing) hconsumers hmade hnext.ge hupholds.validateTopics
    hupholds.shutDown (hupholds.producers ▸ h.producers)
  rw [monitor_broker]
  exact .refl h.faithful.broker

/-! ### Publishing -/

theorem producer (h : c.Ready topic) (t : String) :
    (∃ why, c.checkNew t = .error why ∧ c.producer t = (.error why, c)) ∨
      ∃ n d, c.checkNew t = .ok () ∧ c.producer t = (.ok n, d) ∧ d.Ready topic ∧
        d.validateTopics = c.validateTopics ∧ Agree (fun _ => True) c d := by
  have hagree := producer_agree (P := fun _ => True) h.faithful.sound t
  unfold Channels.producer at hagree ⊢
  simp only [h.running, if_false, Bool.false_eq_true] at hagree ⊢
  cases hn : c.producers.get? t with
  | some n => exact .inr ⟨n, c, h.producers t n hn, rfl, h, rfl, .refl h.faithful.sound⟩
  | none =>
    cases hcheck : c.checkNew t with
    | error why => exact .inl ⟨why, rfl, rfl⟩
    | ok u =>
      simp only [hn, hcheck] at hagree
      refine .inr ⟨_, _, rfl, rfl, .monitor ?_ _ _, (monitor_upholds _ _ _).validateTopics, hagree⟩
      refine h.aside (.refl h.faithful.broker) h.willing rfl rfl (Nat.le_succ _) rfl
        h.running.symm fun u n hu => ?_
      have hput : (c.producers.put t c.nextNumber).get? u = some n := hu
      rw [Table.get?_put] at hput
      split_ifs at hput with ht
      · rw [ht]
        exact hcheck
      · exact h.producers u n hput

theorem send (h : c.Ready topic) (now : Instant) (t : String) (m : Message) :
    (c.send now t m).1 = (m.markPublished now).encode.map (fun _ => ()) ∧
      (c.send now t m).2.Ready topic ∧ (c.send now t m).2.validateTopics = c.validateTopics := by
  unfold Channels.send
  simp only
  cases (m.markPublished now).encode with
  | error why => exact ⟨rfl, h, rfl⟩
  | ok body =>
    obtain ⟨b, u, hb, hwilling⟩ :=
      h.willing.publish t (m.markPublished now).route.routingKey body
    simp only [Broker.adapter_publish, hb]
    refine ⟨rfl, .monitor ?_ _ _, (monitor_upholds _ _ _).validateTopics⟩
    exact h.aside ((Broker.Aside.publish hb).keeps h.faithful.broker) hwilling rfl rfl
      (Nat.le_refl _) rfl rfl h.producers

/-- Whether a message can be published depends on the topic, the message and the time. -/
theorem publish (h : c.Ready topic) (now : Instant) (t : String) (m : Message) :
    (c.publish now t m).1 = (c.checkNew t).bind (fun _ =>
        (m.markPublished now).encode.map fun _ => ()) ∧
      (c.publish now t m).2.Ready topic ∧
      (c.publish now t m).2.validateTopics = c.validateTopics ∧
      (c.publish now t m).2.handler? topic = c.handler? topic := by
  have hsame := (publish_agree (P := fun _ => True) h.faithful.sound now t m).handler topic trivial
  unfold Channels.publish at hsame ⊢
  obtain ⟨why, hcheck, hp⟩ | ⟨n, d, hcheck, hp, hd, hv, -⟩ := h.producer t
  · simp only [hp, hcheck] at hsame ⊢
    exact ⟨rfl, h, trivial, trivial⟩
  · obtain ⟨hresult, hready, hvalidate⟩ := hd.send now t m
    simp only [hp, hcheck] at hsame ⊢
    exact ⟨hresult, hready, hvalidate.trans hv, hsame⟩

/-! ### Subscribing -/

/-- The topic can be subscribed to when it has no handler. -/
theorem subscribe (h : c.Ready topic) (hgone : c.handler? topic = none) (handler : η) :
    ∃ d, c.subscribe topic handler = (.ok (), d) ∧ d.Ready topic ∧
      d.validateTopics = c.validateTopics ∧ d.handler? topic = some handler := by
  have htries := h.faithful.tries topic handler
  have hupholds := c.trySubscribe_upholds topic handler
  obtain ⟨b, t, hb⟩ := h.willing.subscribe h.faithful.broker (h.free hgone)
    (.consumer (c.nextConsumer topic))
  have hok := htries.succeeds.mpr ⟨h.running, h.valid, hgone, b, t, hb⟩
  have hsub : c.subscribe topic handler = (.ok (), (c.trySubscribe topic handler).2) := by
    rw [h.faithful.subscribe_eq, hok]
    rfl
  obtain ⟨-, hhandler⟩ := subscribe_ok h.faithful.sound hsub
  refine ⟨_, hsub, ⟨htries.faithful, hupholds.shutDown.trans h.running,
    hupholds.willing h.willing, (checkNew_congr hupholds.validateTopics topic).trans h.valid,
    fun u n hn => ?_, fun hnot => ?_⟩, hupholds.validateTopics, hhandler⟩
  · rw [hupholds.producers] at hn
    exact (checkNew_congr hupholds.validateTopics u).trans (h.producers u n hn)
  · cases hhandler.symm.trans hnot

/-- Any topic can be unsubscribed from. -/
theorem unsubscribe (h : c.Ready topic) (u : String) :
    (c.unsubscribe u).1 = .ok () ∧ (c.unsubscribe u).2.Ready topic ∧
      (c.unsubscribe u).2.validateTopics = c.validateTopics ∧
      (c.unsubscribe u).2.handler? topic = if u = topic then none else c.handler? topic := by
  have hfaithful := h.faithful.unsubscribe u
  obtain ⟨hagree, hgone⟩ := unsubscribe_agree h.faithful.sound u
  have hhandler : (c.unsubscribe u).2.handler? topic =
      if u = topic then none else c.handler? topic := by
    split_ifs with hu
    · rw [← hu]
      exact Option.not_isSome_iff_eq_none.mp (Bool.eq_false_iff.mp hgone)
    · exact hagree.handler topic (Ne.symm hu)
  suffices hbroker : (c.unsubscribe u).1 = .ok () ∧ c.Upholds (c.unsubscribe u).2 ∧
      ((c.unsubscribe u).2.handler? topic = none →
        (c.unsubscribe u).2.broker.subscriber? topic = none) by
    obtain ⟨hok, hupholds, hfree⟩ := hbroker
    refine ⟨hok, ⟨hfaithful, hupholds.shutDown.trans h.running, hupholds.willing h.willing,
      (checkNew_congr hupholds.validateTopics topic).trans h.valid, fun v n hn => ?_, hfree⟩,
      hupholds.validateTopics, hhandler⟩
    rw [hupholds.producers] at hn
    exact (checkNew_congr hupholds.validateTopics v).trans (h.producers v n hn)
  clear hfaithful hagree hgone
  unfold Channels.unsubscribe at hhandler ⊢
  cases hn : c.consumers.get? u with
  | none => exact ⟨rfl, .refl c, h.free⟩
  | some n =>
    obtain ⟨k, hk, rfl⟩ := h.faithful.sound.made u n hn
    simp only [hn, close, hk] at hhandler ⊢
    cases hx : k.handler with
    | none =>
      have hnone : c.handler? k.topic = none := by simp [handler?, hn, hk, hx]
      simp only [hx, Option.isNone_none, if_true] at hhandler ⊢
      refine ⟨trivial, Upholds.trans ?_ (monitor_upholds _ _ _), fun hgone => ?_⟩
      · exact .of_broker rfl rfl rfl rfl
      rw [monitor_broker]
      rw [hhandler] at hgone
      split_ifs at hgone with ht
      · exact h.free (ht ▸ hnone)
      · exact h.free hgone
    | some x =>
      obtain ⟨b, t, hb, hwilling⟩ := h.willing.unsubscribe k.topic
      obtain ⟨-, hsubscriber⟩ := Broker.unsubscribe_subscriber? h.faithful.broker hb
      simp only [hx, Option.isNone_some, if_false, Bool.false_eq_true,
        Broker.adapter_unsubscribe, hb] at hhandler ⊢
      refine ⟨trivial, Upholds.trans ?_ (monitor_upholds _ _ _), fun hgone => ?_⟩
      · exact ⟨rfl, rfl, rfl, fun _ => hwilling⟩
      rw [monitor_broker]
      show b.subscriber? topic = none
      rw [hsubscriber]
      split_ifs with ht
      · rfl
      · rw [hhandler, if_neg (Ne.symm ht)] at hgone
        exact h.free hgone

end Ready
end Channels

/-! ## Inboxes -/

namespace Inbox

variable {η : Type} {i : Inbox} {c : Channels η} {handler : η}

/-- The topic has the handler of the inbox while the inbox is subscribed, and none otherwise. -/
def Linked (handler : η) (i : Inbox) (c : Channels η) : Prop :=
  c.handler? i.topic = if i.subscribed then some handler else none

/-- A conversation can always be registered. -/
theorem register_ready (h : c.Ready i.topic) (hl : i.Linked handler c) (correlation : String)
    (self : Nat) : (i.register correlation self handler c).1 = .ok () ∧
      (i.register correlation self handler c).2.2.Ready i.topic ∧
      (i.register correlation self handler c).2.2.validateTopics = c.validateTopics ∧
      (i.register correlation self handler c).2.1.Linked handler
        (i.register correlation self handler c).2.2 := by
  have hrecorded := h.record (i.displacement correlation self)
  have hentered : (i.enter correlation self).subscribed = i.subscribed := rfl
  unfold Linked at hl
  unfold register
  simp only [hentered]
  cases hs : i.subscribed with
  | true =>
    rw [hs] at hl
    simp only [if_true]
    exact ⟨trivial, hrecorded, rfl, hl.trans (by rw [hentered, hs])⟩
  | false =>
    rw [hs] at hl
    obtain ⟨d, hd, hready, hvalidate, hhandler⟩ := hrecorded.subscribe hl handler
    simp only [if_false, Bool.false_eq_true,
      show (i.enter correlation self).topic = i.topic from rfl, hd]
    exact ⟨trivial, hready, hvalidate, hhandler⟩

theorem unregister_ready (h : c.Ready i.topic) (hl : i.Linked handler c) (correlation : String)
    (self : Nat) : (i.unregister correlation self c).2.Ready i.topic ∧
      (i.unregister correlation self c).2.validateTopics = c.validateTopics ∧
      (i.unregister correlation self c).1.Linked handler (i.unregister correlation self c).2 := by
  obtain ⟨hok, hready, hvalidate, hhandler⟩ := h.unsubscribe i.topic
  rw [if_pos rfl] at hhandler
  unfold Linked at hl ⊢
  unfold unregister
  by_cases hm : i.members.get? correlation = some self
  · have htopic : (i.strike correlation self).topic = i.topic := by rw [strike, if_pos hm]
    have hsub : (i.strike correlation self).subscribed = i.subscribed := by rw [strike, if_pos hm]
    rw [if_pos hm]
    simp only [htopic, hsub]
    split
    · cases hu : c.unsubscribe i.topic with
      | mk r d =>
        rw [hu] at hok hready hvalidate hhandler
        cases hok
        exact ⟨hready, hvalidate, htopic ▸ hhandler⟩
    · exact ⟨h, rfl, by simpa only [htopic, hsub] using hl⟩
  · rw [if_neg hm]
    exact ⟨h, rfl, hl⟩

end Inbox
end Colloquy
