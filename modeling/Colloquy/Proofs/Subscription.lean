/-
Which topics have a handler.

The consumer of a topic was made for that topic, so what is done to one topic is not felt by
another.  `Agree` compares the handlers before and after an operation: looking for a producer
or a consumer and publishing change none, subscribing and unsubscribing change the one of
their own topic.  A subscription that succeeds leaves its handler with the topic, one that
fails leaves the topic without one if it had none, and after unsubscribing there is none,
whatever the broker says to it.
-/
import Colloquy.Channels
import Colloquy.Proofs.Table

namespace Colloquy
namespace Channels

variable {η β : Type} {c d e : Channels η β} {topic : String} {handler : η} {why : Failure}

/-- The consumer of each topic was made for it, and has a number that was given out. -/
structure Sound (c : Channels η β) : Prop where
  made : ∀ t n, c.consumers.get? t = some n → ∃ k, c.made.get? n = some k ∧ k.topic = t
  numbered : ∀ t n, c.consumers.get? t = some n → n < c.nextNumber

theorem Sound.start (broker : β) (validateTopics : Bool) :
    ({ broker, validateTopics } : Channels η β).Sound where
  made := fun _ _ h => nomatch h
  numbered := fun _ _ h => nomatch h

/-- What comes out is sound, and some topics have the handlers that they had. -/
structure Agree (P : String → Prop) (c d : Channels η β) : Prop where
  sound : d.Sound
  handler : ∀ u, P u → d.handler? u = c.handler? u

namespace Agree

variable {P Q : String → Prop}

theorem refl (hc : c.Sound) : Agree P c c := ⟨hc, fun _ _ => rfl⟩

theorem trans (h : Agree P c d) (h' : Agree P d e) : Agree P c e :=
  ⟨h'.sound, fun u hu => (h'.handler u hu).trans (h.handler u hu)⟩

theorem mono (h : Agree Q c d) (hPQ : ∀ u, P u → Q u) : Agree P c d :=
  ⟨h.sound, fun u hu => h.handler u (hPQ u hu)⟩

theorem isSubscribed (h : Agree P c d) {u : String} (hu : P u) :
    d.isSubscribed u = c.isSubscribed u := by
  rw [Channels.isSubscribed, h.handler u hu, Channels.isSubscribed]

theorem of_consumers (hc : c.Sound) (hconsumers : d.consumers = c.consumers)
    (hmade : d.made = c.made) (hnext : c.nextNumber ≤ d.nextNumber) : Agree P c d where
  sound := by
    constructor
    · rw [hconsumers, hmade]
      exact hc.made
    · intro t n h
      rw [hconsumers] at h
      exact Nat.lt_of_lt_of_le (hc.numbered t n h) hnext
  handler := fun u _ => by rw [handler?, handler?, hconsumers, hmade]

/-- A consumer that is made anew has no handler. -/
theorem of_new (hc : c.Sound) (hnone : c.consumers.get? topic = none)
    (hconsumers : d.consumers = c.consumers.put topic c.nextNumber)
    (hmade : d.made = c.made.put c.nextNumber { topic }) (hnext : d.nextNumber = c.nextNumber + 1) :
    Agree P c d := by
  have hold : ∀ u n, c.consumers.get? u = some n → d.made.get? n = c.made.get? n := by
    intro u n h
    rw [hmade, Table.get?_put_ne _ (Nat.ne_of_lt (hc.numbered u n h))]
  refine ⟨⟨fun u n h => ?_, fun u n h => ?_⟩, fun u _ => ?_⟩
  · by_cases hu : u = topic
    · subst hu
      rw [hconsumers, Table.get?_put_self] at h
      cases h
      exact ⟨{ topic := u }, by rw [hmade, Table.get?_put_self], rfl⟩
    · rw [hconsumers, Table.get?_put_ne _ hu] at h
      rw [hold u n h]
      exact hc.made u n h
  · by_cases hu : u = topic
    · subst hu
      rw [hconsumers, Table.get?_put_self] at h
      cases h
      omega
    · rw [hconsumers, Table.get?_put_ne _ hu] at h
      have hlt := hc.numbered u n h
      omega
  · by_cases hu : u = topic
    · subst hu
      have hnew : d.consumers.get? u = some c.nextNumber := by
        rw [hconsumers, Table.get?_put_self]
      have hempty : d.made.get? c.nextNumber = some { topic := u } := by
        rw [hmade, Table.get?_put_self]
      simp only [handler?, hnew, hempty, hnone, Option.bind_eq_bind, Option.bind_some,
        Option.bind_none]
    · rw [handler?, handler?, hconsumers, Table.get?_put_ne _ hu]
      cases hn : c.consumers.get? u with
      | none => rfl
      | some n =>
        show (d.made.get? n >>= Consumer.handler) = (c.made.get? n >>= Consumer.handler)
        rw [hold u n hn]

/-- Changing the consumer of one topic is not felt by the others. -/
theorem of_changed (hc : c.Sound) {n : Nat} {k l : Consumer η} (hk : c.made.get? n = some k)
    (htopic : k.topic = topic) (hl : l.topic = topic) (hconsumers : d.consumers = c.consumers)
    (hmade : d.made = c.made.put n l) (hnext : d.nextNumber = c.nextNumber) :
    Agree (· ≠ topic) c d := by
  have hold : ∀ u m, u ≠ topic → c.consumers.get? u = some m → d.made.get? m = c.made.get? m := by
    intro u m hu h
    have hm : m ≠ n := by
      rintro rfl
      obtain ⟨k', hk', ht⟩ := hc.made u m h
      rw [hk] at hk'
      cases hk'
      exact hu (ht.symm.trans htopic)
    rw [hmade, Table.get?_put_ne _ hm]
  refine ⟨⟨fun u m h => ?_, fun u m h => ?_⟩, fun u hu => ?_⟩
  · rw [hconsumers] at h
    obtain ⟨k', hk', ht⟩ := hc.made u m h
    by_cases hm : m = n
    · subst hm
      rw [hk] at hk'
      cases hk'
      exact ⟨l, by rw [hmade, Table.get?_put_self], hl.trans (htopic.symm.trans ht)⟩
    · exact ⟨k', by rw [hmade, Table.get?_put_ne _ hm, hk'], ht⟩
  · rw [hconsumers] at h
    rw [hnext]
    exact hc.numbered u m h
  · rw [handler?, handler?, hconsumers]
    cases hm : c.consumers.get? u with
    | none => rfl
    | some m =>
      show (d.made.get? m >>= Consumer.handler) = (c.made.get? m >>= Consumer.handler)
      rw [hold u m hu hm]

/-- Forgetting the consumer of one topic is not felt by the others. -/
theorem of_erased (hc : c.Sound) (hconsumers : d.consumers = c.consumers.erase topic)
    (hmade : d.made = c.made) (hnext : d.nextNumber = c.nextNumber) :
    Agree (· ≠ topic) c d := by
  have hother : ∀ u n, d.consumers.get? u = some n → c.consumers.get? u = some n := by
    intro u n h
    have hu : u ≠ topic := by
      rintro rfl
      rw [hconsumers, Table.get?_erase_self] at h
      cases h
    rwa [hconsumers, Table.get?_erase_ne _ hu] at h
  refine ⟨⟨fun u n h => ?_, fun u n h => ?_⟩, fun u hu => ?_⟩
  · rw [hmade]
    exact hc.made u n (hother u n h)
  · rw [hnext]
    exact hc.numbered u n (hother u n h)
  · rw [handler?, handler?, hconsumers, hmade, Table.get?_erase_ne _ hu]

end Agree

/-! ## Producers -/

@[simp] theorem monitor_broker (c : Channels η β) (h : Hook) (topic : String) :
    (c.monitor h topic).broker = c.broker := by
  unfold monitor
  split <;> rfl

theorem producer_broker (c : Channels η β) (topic : String) :
    (c.producer topic).2.broker = c.broker := by
  unfold producer
  split
  · rfl
  · split
    · rfl
    · split
      · rfl
      · exact monitor_broker _ _ _

theorem consumer_broker (c : Channels η β) (t : String) : (c.consumer t).2.broker = c.broker := by
  unfold consumer
  split
  · rfl
  · split
    · rfl
    · split
      · rfl
      · exact monitor_broker _ _ _

theorem monitor_fields (c : Channels η β) (h : Hook) (t : String) :
    (c.monitor h t).consumers = c.consumers ∧ (c.monitor h t).made = c.made ∧
      (c.monitor h t).nextNumber = c.nextNumber := by
  unfold monitor
  split <;> exact ⟨rfl, rfl, rfl⟩

variable {P : String → Prop}

theorem monitor_agree (hc : c.Sound) (hconsumers : d.consumers = c.consumers)
    (hmade : d.made = c.made) (hnext : c.nextNumber ≤ d.nextNumber) (h : Hook) (t : String) :
    Agree P c (d.monitor h t) := by
  obtain ⟨h₁, h₂, h₃⟩ := monitor_fields d h t
  exact .of_consumers hc (h₁.trans hconsumers) (h₂.trans hmade) (h₃ ▸ hnext)

theorem producer_agree (hc : c.Sound) (t : String) : Agree P c (c.producer t).2 := by
  unfold producer
  split
  · exact .refl hc
  · split
    · exact .refl hc
    · split
      · exact .refl hc
      · refine monitor_agree hc ?_ ?_ ?_ _ _
        · rfl
        · rfl
        · exact Nat.le_succ _

/-! ## Consumers -/

/-- A consumer is found, or a new one is made, or there is none to be had. -/
theorem consumer_cases (c : Channels η β) (topic : String) :
    (∃ why, c.consumer topic = (.error why, c)) ∨
      (∃ n, c.consumers.get? topic = some n ∧ c.consumer topic = (.ok n, c)) ∨
      ∃ d, c.consumers.get? topic = none ∧ c.consumer topic = (.ok c.nextNumber, d) ∧
        d.consumers = c.consumers.put topic c.nextNumber ∧
        d.made = c.made.put c.nextNumber { topic } ∧ d.nextNumber = c.nextNumber + 1 := by
  unfold consumer
  split
  · exact Or.inl ⟨_, rfl⟩
  · split
    · rename_i n hn
      exact Or.inr (Or.inl ⟨n, hn, rfl⟩)
    · rename_i hnone
      split
      · exact Or.inl ⟨_, rfl⟩
      · refine Or.inr (Or.inr ⟨_, hnone, rfl, ?_⟩)
        exact monitor_fields _ _ _

theorem consumer_agree (hc : c.Sound) (t : String) : Agree P c (c.consumer t).2 := by
  obtain ⟨why, h⟩ | ⟨n, -, h⟩ | ⟨d, hnone, h, h₁, h₂, h₃⟩ := consumer_cases c t
  · rw [h]
    exact .refl hc
  · rw [h]
    exact .refl hc
  · rw [h]
    exact .of_new hc hnone h₁ h₂ h₃

/-! ## Publishing -/

variable [BrokerAdapter β]

theorem send_agree (hc : c.Sound) (now : Instant) (t : String) (m : Message) :
    Agree P c (c.send now t m).2 := by
  simp only [send]
  split
  · exact .refl hc
  · split
    · exact .of_consumers hc rfl rfl (Nat.le_refl _)
    · refine monitor_agree hc ?_ ?_ ?_ _ _
      · rfl
      · rfl
      · exact Nat.le_refl _

theorem publish_agree (hc : c.Sound) (now : Instant) (t : String) (m : Message) :
    Agree P c (c.publish now t m).2 := by
  have hp : Agree P c (c.producer t).2 := producer_agree hc t
  unfold publish
  split
  · rename_i d hd
    rw [hd] at hp
    exact hp
  · rename_i d hd
    rw [hd] at hp
    exact hp.trans (send_agree hp.sound now t m)

/-! ## Subscribing -/

/-- What giving a handler to the consumer of a topic comes to. -/
theorem attach_cases (hc : c.Sound) {n : Nat} (hn : c.consumers.get? topic = some n)
    (handler : η) :
    (∃ why, c.attach n handler = (.error why, c)) ∨
      (∃ k, c.made.get? n = some k ∧ k.closed = true ∧ c.attach n handler = (.ok false, c)) ∨
      ∃ d, c.attach n handler = (.ok true, d) ∧ Agree (· ≠ topic) c d ∧
        d.handler? topic = some handler := by
  obtain ⟨k, hk, ht⟩ := hc.made topic n hn
  unfold attach
  simp only [hk]
  split
  · rename_i hclosed
    exact Or.inr (Or.inl ⟨k, rfl, hclosed, rfl⟩)
  · split
    · exact Or.inl ⟨_, rfl⟩
    · split
      · exact Or.inl ⟨_, rfl⟩
      · refine Or.inr (Or.inr ⟨_, rfl, ?_, ?_⟩)
        · exact .of_changed hc (l := { k with handler := some handler }) hk ht ht rfl rfl rfl
        · simp only [handler?, record, hn, Table.get?_put_self, Option.bind_eq_bind,
            Option.bind_some]

/-- One try at a subscription: it fails, or finds the consumer closed and forgets it, or
succeeds. -/
theorem trySubscribe_cases (hc : c.Sound) (topic : String) (handler : η) :
    (∃ why d, c.trySubscribe topic handler = (.error why, d) ∧ Agree (fun _ => True) c d) ∨
      (∃ d, c.trySubscribe topic handler = (.ok false, d) ∧ c.consumers.get? topic ≠ none ∧
        Agree (· ≠ topic) c d ∧ d.consumers.get? topic = none) ∨
      ∃ d, c.trySubscribe topic handler = (.ok true, d) ∧ Agree (· ≠ topic) c d ∧
        d.handler? topic = some handler := by
  have hall : ∀ u, u ≠ topic → True := fun _ _ => trivial
  obtain ⟨why, h⟩ | ⟨n, hn, h⟩ | ⟨d, hnone, h, h₁, h₂, h₃⟩ := consumer_cases c topic
  · exact Or.inl ⟨why, c, by simp only [trySubscribe, h], .refl hc⟩
  · obtain ⟨why, ha⟩ | ⟨k, -, -, ha⟩ | ⟨d, ha, hagree, hd⟩ := attach_cases hc hn handler
    · exact Or.inl ⟨why, c, by simp only [trySubscribe, h, ha], .refl hc⟩
    · refine Or.inr (Or.inl ⟨c.forget topic n, by simp only [trySubscribe, h, ha], ?_, ?_, ?_⟩)
      · rw [hn]
        exact Option.some_ne_none n
      · rw [forget, if_pos hn]
        exact .of_erased hc rfl rfl rfl
      · rw [forget, if_pos hn]
        exact Table.get?_erase_self ..
    · exact Or.inr (Or.inr ⟨d, by simp only [trySubscribe, h, ha], hagree, hd⟩)
  · -- The consumer is new, so it is not closed.
    have hnew : Agree (fun _ => True) c d := .of_new hc hnone h₁ h₂ h₃
    have hn : d.consumers.get? topic = some c.nextNumber := by rw [h₁, Table.get?_put_self]
    obtain ⟨why, ha⟩ | ⟨k, hk, hclosed, -⟩ | ⟨e, ha, hagree, he⟩ :=
      attach_cases hnew.sound hn handler
    · exact Or.inl ⟨why, d, by simp only [trySubscribe, h, ha], hnew⟩
    · rw [h₂, Table.get?_put_self] at hk
      cases hk
      cases hclosed
    · have hends : c.trySubscribe topic handler = (.ok true, e) := by
        simp only [trySubscribe, h, ha]
      exact Or.inr (Or.inr ⟨e, hends, (hnew.mono hall).trans hagree, he⟩)

/-- A subscription that fails leaves a topic without a handler if it had none. -/
theorem subscribe_error (hc : c.Sound) (h : c.subscribe topic handler = (.error why, d)) :
    Agree (· ≠ topic) c d ∧ (c.isSubscribed topic = false → d.isSubscribed topic = false) := by
  have hall : ∀ u, u ≠ topic → True := fun _ _ => trivial
  obtain ⟨why', e, ht, he⟩ | ⟨e, ht, -, he, hnone⟩ | ⟨e, ht, -, -⟩ :=
    trySubscribe_cases hc topic handler
  · simp only [subscribe, ht] at h
    cases h
    exact ⟨he.mono hall, (he.isSubscribed trivial).trans⟩
  · have hempty : e.isSubscribed topic = false := by
      simp only [isSubscribed, handler?, hnone, Option.bind_eq_bind, Option.bind_none,
        Option.isSome_none]
    obtain ⟨why', f, ht', hf⟩ | ⟨f, ht', hsome, -, -⟩ | ⟨f, ht', -, -⟩ :=
      trySubscribe_cases he.sound topic handler
    · simp only [subscribe, ht, ht'] at h
      cases h
      exact ⟨he.trans (hf.mono hall), fun _ => (hf.isSubscribed trivial).trans hempty⟩
    · exact absurd hnone hsome
    · simp only [subscribe, ht, ht'] at h
      cases h
  · simp only [subscribe, ht] at h
    cases h

theorem subscribe_ok (hc : c.Sound) (h : c.subscribe topic handler = (.ok (), d)) :
    Agree (· ≠ topic) c d ∧ d.handler? topic = some handler := by
  obtain ⟨why', e, ht, -⟩ | ⟨e, ht, -, he, hnone⟩ | ⟨e, ht, he, hhandler⟩ :=
    trySubscribe_cases hc topic handler
  · simp only [subscribe, ht] at h
    cases h
  · obtain ⟨why', f, ht', -⟩ | ⟨f, ht', hsome, -, -⟩ | ⟨f, ht', hf, hhandler⟩ :=
      trySubscribe_cases he.sound topic handler
    · simp only [subscribe, ht, ht'] at h
      cases h
    · exact absurd hnone hsome
    · simp only [subscribe, ht, ht'] at h
      cases h
      exact ⟨he.trans hf, hhandler⟩
  · simp only [subscribe, ht] at h
    cases h
    exact ⟨he, hhandler⟩

theorem subscribe_agree (hc : c.Sound) (topic : String) (handler : η) :
    Agree (· ≠ topic) c (c.subscribe topic handler).2 := by
  cases h : c.subscribe topic handler with
  | mk r d =>
    cases r with
    | error why => exact (subscribe_error hc h).1
    | ok u => exact (subscribe_ok hc h).1

/-! ## Unsubscribing -/

/-- A consumer that is closed is felt by its own topic only, whatever the broker says. -/
theorem close_agree (hc : c.Sound) {n : Nat} {k : Consumer η} (hk : c.made.get? n = some k)
    (htopic : k.topic = topic) : Agree (· ≠ topic) c (c.close n).2 ∧
      (c.close n).2.consumers = c.consumers := by
  have hl : ({ k with handler := none, closed := true } : Consumer η).topic = topic := htopic
  simp only [close, hk]
  split
  · exact ⟨.of_changed hc hk htopic hl rfl rfl rfl, rfl⟩
  · split
    · exact ⟨.of_changed hc hk htopic hl rfl rfl rfl, rfl⟩
    · exact ⟨.of_changed hc hk htopic hl rfl rfl rfl, rfl⟩

/-- After unsubscribing a topic has no handler, even if the broker refuses. -/
theorem unsubscribe_agree (hc : c.Sound) (topic : String) :
    Agree (· ≠ topic) c (c.unsubscribe topic).2 ∧
      (c.unsubscribe topic).2.isSubscribed topic = false := by
  unfold unsubscribe
  cases hn : c.consumers.get? topic with
  | none =>
    refine ⟨.refl hc, ?_⟩
    simp only [isSubscribed, handler?, hn, Option.bind_eq_bind, Option.bind_none,
      Option.isSome_none]
  | some n =>
    obtain ⟨k, hk, ht⟩ := hc.made topic n hn
    have herased : Agree (· ≠ topic) c { c with consumers := c.consumers.erase topic } :=
      .of_erased hc rfl rfl rfl
    obtain ⟨hclose, hconsumers⟩ := close_agree herased.sound (n := n) hk ht
    obtain ⟨h₁, h₂, h₃⟩ := monitor_fields
      ({ c with consumers := c.consumers.erase topic }.close n).2 .consumerRemoved topic
    refine ⟨(herased.trans hclose).trans (.of_consumers hclose.sound h₁ h₂ h₃.ge), ?_⟩
    have hgone : ({ c with consumers := c.consumers.erase topic }.close n).2.consumers.get? topic =
        none := by
      rw [hconsumers]
      exact Table.get?_erase_self ..
    simp only [isSubscribed, handler?, h₁, hgone, Option.bind_eq_bind, Option.bind_none,
      Option.isSome_none]

/-! ## Others -/

variable {c d : Channels η}

/-- What others can do with the channels without giving a topic its handler or taking it, and
without shutting the channels down.  The broker can change in any way between two calls: it
delivers, and refuses what it likes. -/
inductive Elsewhere (topic : String) : Channels η → Channels η → Prop where
  | producer (c : Channels η) (t : String) : Elsewhere topic c (c.producer t).2
  | consumer (c : Channels η) (t : String) : Elsewhere topic c (c.consumer t).2
  | subscribe (c : Channels η) {t : String} (handler : η) : t ≠ topic →
      Elsewhere topic c (c.subscribe t handler).2
  | unsubscribe (c : Channels η) {t : String} : t ≠ topic →
      Elsewhere topic c (c.unsubscribe t).2
  | send (c : Channels η) (now : Instant) (t : String) (m : Message) :
      Elsewhere topic c (c.send now t m).2
  | publish (c : Channels η) (now : Instant) (t : String) (m : Message) :
      Elsewhere topic c (c.publish now t m).2
  | rest (c : Channels η) (broker : Broker Subscriber) (agent : Agent) (stats : Stats)
      (trace : Trace) : Elsewhere topic c { c with broker, agent, stats, trace }

theorem Elsewhere.agree (h : Elsewhere topic c d) (hc : c.Sound) : Agree (· = topic) c d := by
  cases h with
  | producer t => exact producer_agree hc t
  | consumer t => exact consumer_agree hc t
  | subscribe handler ht =>
    exact (subscribe_agree hc _ handler).mono fun u hu => hu ▸ ht.symm
  | unsubscribe ht => exact (unsubscribe_agree hc _).1.mono fun u hu => hu ▸ ht.symm
  | send now t m => exact send_agree hc now t m
  | publish now t m => exact publish_agree hc now t m
  | rest broker agent stats trace => exact .of_consumers hc rfl rfl (Nat.le_refl _)

end Channels
end Colloquy
