/-
The channels are a map from topics to handlers.

What a topic has as its handler is spread over the consumers that are cached, the handlers and the
marks that consumers have, and the table of the broker.  The broker can refuse what it is asked to
do, so its table can disagree: it goes on delivering to a consumer that was closed.  `Faithful` is
what holds of all these all the time, and `History.maps` says what can be seen from outside.  A
topic has the handler of the last subscription to it that succeeded, until it is unsubscribed from
or the channels are shut down, and no delivery comes to any other.
-/
import Colloquy.Proofs.Closing
import Colloquy.Proofs.Redelivery
import Colloquy.Proofs.Subscribers

namespace Colloquy

/-! ## Channels -/

namespace Channels

open LawfulBroker (Keeps Posts)

variable {η β : Type} {c d : Channels η β} {topic : String} {handler : η}

theorem handler?_eq_some : c.handler? topic = some handler ↔ ∃ n k,
    c.consumers.get? topic = some n ∧ c.made.get? n = some k ∧ k.handler = some handler := by
  simp only [handler?, Option.bind_eq_bind, Option.bind_eq_some_iff]
  constructor
  · rintro ⟨n, hn, k, hk, hhandler⟩
    exact ⟨n, k, hn, hk, hhandler⟩
  · rintro ⟨n, k, hn, hk, hhandler⟩
    exact ⟨n, hn, k, hk, hhandler⟩

theorem checkNew_congr (h : d.validateTopics = c.validateTopics) (t : String) :
    d.checkNew t = c.checkNew t := by
  unfold checkNew
  rw [h]

theorem monitor_validateTopics (c : Channels η β) (h : Hook) (t : String) :
    (c.monitor h t).validateTopics = c.validateTopics := by
  unfold monitor
  split <;> rfl

/-- The number of the consumer that a subscription to a topic finds or makes. -/
def nextConsumer (c : Channels η β) (topic : String) : Nat :=
  (c.consumers.get? topic).getD c.nextNumber

/-! ## Operations -/

/-- What an operation does to the handler of a topic. -/
def Operation.assign (topic : String) (h? : Option η) :
    Operation η × Except Failure Unit → Option η
  | (.subscribe t h, .ok _) => if t = topic then some h else h?
  | (.unsubscribe t, _) => if t = topic then none else h?
  | (.shutdown, _) => none
  | _ => h?

/-- The handler of the last subscription to a topic that succeeded, unless the topic was
unsubscribed from afterwards or the channels were shut down. -/
def assigned (log : List (Operation η × Except Failure Unit)) (topic : String) : Option η :=
  log.foldl (Operation.assign topic) none

theorem assigned_append (log : List (Operation η × Except Failure Unit))
    (r : Operation η × Except Failure Unit) (topic : String) :
    assigned (log ++ [r]) topic = Operation.assign topic (assigned log topic) r := by
  simp [assigned]

theorem consumer_onward (c : Channels η β) (t : String) : c.Onward (c.consumer t).2 := by
  cases hs : c.shutDown with
  | true =>
    have hsame : c.consumer t = (.error .shutDown, c) := by simp [consumer, hs]
    rw [hsame]
    exact .refl c
  | false => exact .of_running hs ((c.consumer_shutDown t).trans hs)

variable [BrokerAdapter β]

theorem operate_onward (c : Channels η β) (o : Operation η) : c.Onward (c.operate o).2 := by
  cases o with
  | producer topic => exact c.producer_onward topic
  | consumer topic => exact c.consumer_onward topic
  | subscribe topic handler => exact c.subscribe_onward topic handler
  | unsubscribe topic => exact c.unsubscribe_onward topic
  | shutdown => exact c.shutdown_onward

/-! ## Faithful channels -/

variable [LawfulBroker β]

/-- The cached consumers are open and passed the check of their topic, no other consumer has a
handler, and a consumer that the broker delivers to has the right topic.  If that topic has a
handler and the broker delivers to the last subscriber, the consumer has it. -/
structure Faithful (c : Channels η β) : Prop where
  sound : c.Sound
  numbered : c.Numbered
  broker : LawfulBroker.Sound c.broker
  opened : ∀ t n k, c.consumers.get? t = some n → c.made.get? n = some k → k.closed = false
  checked : ∀ t n, c.consumers.get? t = some n → c.checkNew t = .ok ()
  cached : ∀ n k, c.made.get? n = some k → k.handler ≠ none → c.consumers.get? k.topic = some n
  posts : ∀ t n, Posts c.broker t (.consumer n) → ∃ k, c.made.get? n = some k ∧ k.topic = t
  points : ∀ [ReplacingBroker β] t n, Posts c.broker t (.consumer n) → c.isSubscribed t = true →
    c.consumers.get? t = some n

namespace Faithful

theorem start {broker : β} (hb : LawfulBroker.Sound broker)
    (hnone : ∀ t n, ¬Posts broker t (.consumer n)) (validateTopics : Bool) (agent : Agent) :
    ({ broker, validateTopics, agent } : Channels η β).Faithful where
  sound := ⟨fun _ _ h => (by cases h), fun _ _ h => (by cases h)⟩
  numbered := fun _ _ => rfl
  broker := hb
  opened := fun _ _ _ h => by cases h
  checked := fun _ _ h => by cases h
  cached := fun _ _ h => by cases h
  posts := fun t n h => absurd h (hnone t n)
  points := fun t n h => absurd h (hnone t n)

theorem memory_sound {c : Channels η} (h : c.Faithful) {b : MemoryBroker Subscriber}
    (hb : c.broker = .memory b) : b.Sound := by
  have hsound : c.broker.Sound := h.broker
  rw [hb] at hsound
  exact hsound

/-- Whom the broker delivers a topic to has its handler, if it has one. -/
theorem consumer_of_handler [ReplacingBroker β] (h : c.Faithful)
    (hsome : c.handler? topic = some handler) {n : Nat} (hx : Posts c.broker topic (.consumer n)) :
    ∃ k, c.consumers.get? topic = some n ∧ c.made.get? n = some k ∧ k.topic = topic ∧
      k.handler = some handler := by
  obtain ⟨k, hk, ht⟩ := h.posts topic n hx
  have hcached := h.points topic n hx (by rw [isSubscribed, hsome]; rfl)
  obtain ⟨n', k', hn', hk', hhandler⟩ := handler?_eq_some.mp hsome
  cases hn'.symm.trans hcached
  cases hk'.symm.trans hk
  exact ⟨k, hcached, hk, ht, hhandler⟩

/-- The broker did something without subscribing a consumer, and the consumers are as they were. -/
theorem beside (h : c.Faithful) (hsound : LawfulBroker.Sound d.broker)
    (hposts : ∀ t n, Posts d.broker t (.consumer n) → Posts c.broker t (.consumer n))
    (hconsumers : d.consumers = c.consumers) (hmade : d.made = c.made)
    (hnext : c.nextNumber ≤ d.nextNumber) (hvalidate : d.validateTopics = c.validateTopics) :
    d.Faithful := by
  have hagree : Agree (fun _ => True) c d := .of_consumers h.sound hconsumers hmade hnext
  refine ⟨hagree.sound, fun n hn => ?_, hsound, ?_, ?_, ?_, fun t n hx => ?_,
    fun t n hx hs => ?_⟩
  · rw [hmade]
    exact h.numbered n (hnext.trans hn)
  · rw [hconsumers, hmade]
    exact h.opened
  · intro t n hn
    rw [checkNew_congr hvalidate]
    exact h.checked t n (hconsumers ▸ hn)
  · rw [hconsumers, hmade]
    exact h.cached
  · rw [hmade]
    exact h.posts t n (hposts t n hx)
  · rw [hconsumers]
    exact h.points t n (hposts t n hx) (hagree.isSubscribed trivial ▸ hs)

theorem aside (h : c.Faithful) (hbroker : Keeps c.broker d.broker)
    (hconsumers : d.consumers = c.consumers) (hmade : d.made = c.made)
    (hnext : c.nextNumber ≤ d.nextNumber) (hvalidate : d.validateTopics = c.validateTopics) :
    d.Faithful :=
  h.beside hbroker.sound (fun _ _ => hbroker.posts _ _) hconsumers hmade hnext hvalidate

/-- A consumer is made anew. -/
theorem made (h : c.Faithful) (hnone : c.consumers.get? topic = none)
    (hcheck : c.checkNew topic = .ok ()) (hbroker : d.broker = c.broker)
    (hconsumers : d.consumers = c.consumers.put topic c.nextNumber)
    (hmade : d.made = c.made.put c.nextNumber { topic }) (hnext : d.nextNumber = c.nextNumber + 1)
    (hvalidate : d.validateTopics = c.validateTopics) : d.Faithful := by
  have hagree : Agree (fun _ => True) c d := .of_new h.sound hnone hconsumers hmade hnext
  have hfresh : ∀ n k, c.made.get? n = some k → n ≠ c.nextNumber := by
    rintro n k hk rfl
    cases (h.numbered _ (le_refl _)).symm.trans hk
  have hget : ∀ t n, d.consumers.get? t = some n →
      (t = topic ∧ n = c.nextNumber) ∨ (t ≠ topic ∧ c.consumers.get? t = some n) := by
    intro t n hn
    rw [hconsumers, Table.get?_put] at hn
    split_ifs at hn with ht
    · exact .inl ⟨ht, (Option.some.inj hn).symm⟩
    · exact .inr ⟨ht, hn⟩
  refine ⟨hagree.sound, (Lasting.of_new hmade hnext h.numbered).1, hbroker ▸ h.broker,
    fun t n k hn hk => ?_, fun t n hn => ?_, fun n k hk hhandler => ?_, fun t n hx => ?_,
    fun t n hx hs => ?_⟩
  · rw [hmade, Table.get?_put] at hk
    split_ifs at hk with hn'
    · cases hk
      rfl
    · obtain ⟨-, rfl⟩ | ⟨-, hold⟩ := hget t n hn
      · exact absurd rfl hn'
      · exact h.opened t n k hold hk
  · rw [checkNew_congr hvalidate]
    obtain ⟨rfl, -⟩ | ⟨-, hold⟩ := hget t n hn
    · exact hcheck
    · exact h.checked t n hold
  · rw [hmade, Table.get?_put] at hk
    split_ifs at hk with hn'
    · cases hk
      exact absurd rfl hhandler
    · have hold := h.cached n k hk hhandler
      have ht : k.topic ≠ topic := fun ht => by cases (ht ▸ hold).symm.trans hnone
      rw [hconsumers, Table.get?_put_ne _ ht]
      exact hold
  · obtain ⟨k, hk, ht⟩ := h.posts t n (hbroker ▸ hx)
    exact ⟨k, by rw [hmade, Table.get?_put_ne _ (hfresh n k hk), hk], ht⟩
  · rw [hagree.isSubscribed trivial] at hs
    have hold := h.points t n (hbroker ▸ hx) hs
    have ht : t ≠ topic := fun ht => by cases (ht ▸ hold).symm.trans hnone
    rw [hconsumers, Table.get?_put_ne _ ht]
    exact hold

/-- The cached consumer of a topic gets a handler, and the broker delivers to it. -/
theorem attached (h : c.Faithful) {n : Nat} {k : Consumer η}
    (hn : c.consumers.get? topic = some n) (hk : c.made.get? n = some k) (ht : k.topic = topic)
    (hsound : LawfulBroker.Sound d.broker)
    (hposts : ∀ u x, Posts d.broker u x → u = topic ∧ x = .consumer n ∨ Posts c.broker u x)
    (hlast : ∀ [ReplacingBroker β] x, Posts d.broker topic x → x = .consumer n)
    (hconsumers : d.consumers = c.consumers)
    (hmade : d.made = c.made.put n { k with handler := some handler })
    (hnext : d.nextNumber = c.nextNumber) (hvalidate : d.validateTopics = c.validateTopics) :
    d.Faithful := by
  have hagree : Agree (· ≠ topic) c d :=
    .of_changed h.sound (l := { k with handler := some handler }) hk ht ht hconsumers hmade hnext
  refine ⟨hagree.sound, (Lasting.of_changed (l := { k with handler := some handler }) hk rfl hmade
    hnext h.numbered).1, hsound, fun t m j hm hj => ?_, fun t m hm => ?_, fun m j hj hhandler => ?_,
    fun t m hx => ?_, fun t m hx hs => ?_⟩
  · rw [hconsumers] at hm
    rw [hmade, Table.get?_put] at hj
    split_ifs at hj with hmn
    · cases hj
      exact h.opened topic n k hn hk
    · exact h.opened t m j hm hj
  · rw [checkNew_congr hvalidate]
    exact h.checked t m (hconsumers ▸ hm)
  · rw [hmade, Table.get?_put] at hj
    rw [hconsumers]
    split_ifs at hj with hmn
    · cases hj
      rw [hmn]
      exact ht ▸ hn
    · exact h.cached m j hj hhandler
  · obtain ⟨hu, heq⟩ | hold := hposts t _ hx
    · cases heq
      exact ⟨{ k with handler := some handler }, by rw [hmade, Table.get?_put_self],
        ht.trans hu.symm⟩
    · obtain ⟨j, hj, htj⟩ := h.posts t m hold
      by_cases hmn : m = n
      · subst hmn
        cases hj.symm.trans hk
        exact ⟨{ k with handler := some handler }, by rw [hmade, Table.get?_put_self], htj⟩
      · exact ⟨j, by rw [hmade, Table.get?_put_ne _ hmn, hj], htj⟩
  · rw [hconsumers]
    by_cases hu : t = topic
    · subst hu
      cases hlast _ hx
      exact hn
    · obtain ⟨heq, -⟩ | hold := hposts t _ hx
      · exact absurd heq hu
      · exact h.points t m hold (hagree.isSubscribed hu ▸ hs)

/-- The cached consumer of a topic is closed, and no longer cached.  Whether the broker lets go of
it makes no difference. -/
theorem closed (h : c.Faithful) {n : Nat} {k : Consumer η} (hn : c.consumers.get? topic = some n)
    (hk : c.made.get? n = some k) (ht : k.topic = topic) (hbroker : Keeps c.broker d.broker)
    (hconsumers : d.consumers = c.consumers.erase topic)
    (hmade : d.made = c.made.put n { k with handler := none, closed := true })
    (hnext : d.nextNumber = c.nextNumber) (hvalidate : d.validateTopics = c.validateTopics)
    (hagree : Agree (· ≠ topic) c d) : d.Faithful := by
  have hget : ∀ t m, d.consumers.get? t = some m →
      t ≠ topic ∧ m ≠ n ∧ c.consumers.get? t = some m := by
    intro t m hm
    rw [hconsumers, Table.get?_erase] at hm
    split_ifs at hm with hu
    refine ⟨hu, ?_, hm⟩
    rintro rfl
    obtain ⟨j, hj, htj⟩ := h.sound.made t m hm
    cases hj.symm.trans hk
    exact hu (htj.symm.trans ht)
  refine ⟨hagree.sound, (Lasting.of_changed (l := { k with handler := none, closed := true }) hk rfl
    hmade hnext h.numbered).1, hbroker.sound, fun t m j hm hj => ?_, fun t m hm => ?_,
    fun m j hj hhandler => ?_, fun t m hx => ?_, fun t m hx hs => ?_⟩
  · obtain ⟨-, hmn, hold⟩ := hget t m hm
    rw [hmade, Table.get?_put_ne _ hmn] at hj
    exact h.opened t m j hold hj
  · rw [checkNew_congr hvalidate]
    exact h.checked t m (hget t m hm).2.2
  · rw [hmade, Table.get?_put] at hj
    split_ifs at hj with hmn
    · cases hj
      exact absurd rfl hhandler
    · have hold := h.cached m j hj hhandler
      have hu : j.topic ≠ topic := fun hu => hmn (Option.some.inj ((hu ▸ hold).symm.trans hn))
      rw [hconsumers, Table.get?_erase_ne _ hu]
      exact hold
  · obtain ⟨j, hj, htj⟩ := h.posts t m (hbroker.posts _ _ hx)
    by_cases hmn : m = n
    · subst hmn
      cases hj.symm.trans hk
      exact ⟨{ k with handler := none, closed := true }, by rw [hmade, Table.get?_put_self], htj⟩
    · exact ⟨j, by rw [hmade, Table.get?_put_ne _ hmn, hj], htj⟩
  · have hu : t ≠ topic := by
      rintro rfl
      obtain ⟨x, hx⟩ := Option.isSome_iff_exists.mp hs
      obtain ⟨m, -, hm, -, -⟩ := handler?_eq_some.mp hx
      exact (hget t m hm).1 rfl
    have hold := h.points t m (hbroker.posts _ _ hx) (hagree.isSubscribed hu ▸ hs)
    rw [hconsumers, Table.get?_erase_ne _ hu]
    exact hold

end Faithful

/-! ## Operations keep this -/

theorem Faithful.monitor (h : c.Faithful) (k : Hook) (t : String) :
    (c.monitor k t).Faithful := by
  obtain ⟨hconsumers, hmade, hnext⟩ := monitor_fields c k t
  refine h.aside ?_ hconsumers hmade hnext.ge (monitor_validateTopics c k t)
  rw [monitor_broker]
  exact .refl h.broker

theorem Faithful.producer (h : c.Faithful) (t : String) : (c.producer t).2.Faithful := by
  unfold Channels.producer
  split
  · exact h
  · split
    · exact h
    · split
      · exact h
      · refine Faithful.monitor ?_ _ _
        exact h.aside (.refl h.broker) rfl rfl (Nat.le_succ _) rfl

theorem Faithful.consumer (h : c.Faithful) (t : String) : (c.consumer t).2.Faithful := by
  unfold Channels.consumer
  split
  · exact h
  · split
    · exact h
    · rename_i hnone
      split
      · exact h
      · rename_i hcheck
        refine Faithful.monitor ?_ _ _
        exact h.made hnone hcheck rfl rfl rfl rfl rfl

theorem Faithful.attach (h : c.Faithful) {n : Nat} (hn : c.consumers.get? topic = some n)
    (handler : η) :
    (∃ x, c.handler? topic = some x ∧
        c.attach n handler = (.error (.alreadySubscribed topic), c)) ∨
      (c.handler? topic = none ∧ ∃ why,
        BrokerAdapter.subscribe c.broker topic (.consumer n) = .error why ∧
        c.attach n handler = (.error why, c)) ∨
      ∃ b t d, c.handler? topic = none ∧
        BrokerAdapter.subscribe c.broker topic (.consumer n) = .ok (b, t) ∧
        c.attach n handler = (.ok true, d) ∧ d.Faithful ∧ d.broker = b := by
  obtain ⟨k, hk, ht⟩ := h.sound.made topic n hn
  have hhandler : c.handler? topic = k.handler := by
    simp only [handler?, hn, hk, Option.bind_eq_bind, Option.bind_some]
  have hopened := h.opened topic n k hn hk
  unfold Channels.attach
  simp only [hk, hopened, hhandler, ht, if_false, Bool.false_eq_true]
  cases hx : k.handler with
  | some x => exact .inl ⟨x, rfl, rfl⟩
  | none =>
    simp only [Option.isSome_none, if_false, Bool.false_eq_true]
    cases hb : BrokerAdapter.subscribe c.broker topic (.consumer n) with
    | error why => exact .inr (.inl ⟨trivial, why, rfl, rfl⟩)
    | ok r =>
      obtain ⟨b, t⟩ := r
      obtain ⟨hsound, hposts⟩ := LawfulBroker.subscribe h.broker hb
      have hmade : c.made.put n { topic, handler := some handler } =
          c.made.put n { k with handler := some handler } := by rw [ht, hopened]
      exact .inr (.inr ⟨b, t, _, trivial, rfl, rfl,
        h.attached hn hk ht hsound hposts (ReplacingBroker.last h.broker hb) rfl hmade rfl rfl,
        rfl⟩)

/-- A consumer is found or made as long as the channels run and the topic passes the check. -/
theorem Faithful.find (h : c.Faithful) (topic : String) :
    (∃ why, c.consumer topic = (.error why, c) ∧
        (c.shutDown = true ∨ c.checkNew topic ≠ .ok ())) ∨
      ∃ n d, c.consumer topic = (.ok n, d) ∧ c.shutDown = false ∧ c.checkNew topic = .ok () ∧
        d.Faithful ∧ Agree (fun _ => True) c d ∧ d.consumers.get? topic = some n ∧
        d.broker = c.broker ∧ (c.handler? topic ≠ none → d = c) ∧ n = c.nextConsumer topic := by
  have hfaithful := h.consumer topic
  have hagree : Agree (fun _ => True) c (c.consumer topic).2 := consumer_agree h.sound topic
  have hbroker := c.consumer_broker topic
  cases hs : c.shutDown with
  | true =>
    refine .inl ⟨.shutDown, ?_, .inl rfl⟩
    simp only [Channels.consumer, hs, if_true]
  | false =>
    cases hn : c.consumers.get? topic with
    | some n =>
      refine .inr ⟨n, c, ?_, rfl, h.checked topic n hn, h, .refl h.sound, hn, rfl, fun _ => rfl,
        ?_⟩ <;>
      simp only [Channels.consumer, nextConsumer, hs, hn, if_false, Bool.false_eq_true,
        Option.getD_some]
    | none =>
      cases hcheck : c.checkNew topic with
      | error why =>
        refine .inl ⟨why, ?_, .inr (by simp)⟩
        simp only [Channels.consumer, hs, hn, hcheck, if_false, Bool.false_eq_true]
      | ok u =>
        have hmade : ∃ d, c.consumer topic = (.ok c.nextNumber, d) ∧
            d.consumers.get? topic = some c.nextNumber := by
          simp only [Channels.consumer, hs, hn, hcheck, if_false, Bool.false_eq_true]
          refine ⟨_, rfl, ?_⟩
          rw [(monitor_fields _ _ _).1]
          exact Table.get?_put_self _ _ _
        obtain ⟨d, hd, hget⟩ := hmade
        rw [hd] at hfaithful hagree hbroker
        refine .inr ⟨_, d, hd, rfl, rfl, hfaithful, hagree, hget, hbroker, fun hsome => ?_, ?_⟩
        · exact absurd (by simp [handler?, hn]) hsome
        · rw [nextConsumer, hn, Option.getD_none]

/-- What an attempt to subscribe comes to.  It ends with the first consumer that is found. -/
structure Tries (c : Channels η β) (topic : String) (r : Except Failure Bool) (d : Channels η β) :
    Prop where
  faithful : d.Faithful
  first : r ≠ .ok false
  succeeds : r = .ok true ↔ c.shutDown = false ∧ c.checkNew topic = .ok () ∧
    c.handler? topic = none ∧ ∃ b t,
      BrokerAdapter.subscribe c.broker topic (.consumer (c.nextConsumer topic)) = .ok (b, t)
  again : c.handler? topic ≠ none → c.shutDown = false →
    r = .error (.alreadySubscribed topic) ∧ d = c

theorem Faithful.tries (h : c.Faithful) (topic : String) (handler : η) :
    c.Tries topic (c.trySubscribe topic handler).1 (c.trySubscribe topic handler).2 := by
  obtain ⟨why, hc, hwhy⟩ | ⟨_, d, hc, hs, hcheck, hd, hagree, hn, hbroker, hsame, rfl⟩ :=
    h.find topic
  · have htry : c.trySubscribe topic handler = (.error why, c) := by
      simp only [Channels.trySubscribe, hc]
    rw [htry]
    refine ⟨h, by simp, ⟨by simp, ?_⟩, fun hsome hs => ?_⟩
    · rintro ⟨hs, hcheck, -⟩
      obtain hdown | hfails := hwhy
      · cases hdown.symm.trans hs
      · exact absurd hcheck hfails
    · obtain ⟨x, hx⟩ := Option.ne_none_iff_exists'.mp hsome
      obtain ⟨n, -, hn, -, -⟩ := handler?_eq_some.mp hx
      obtain hdown | hfails := hwhy
      · cases hdown.symm.trans hs
      · exact absurd (h.checked topic n hn) hfails
  · have hhandler := hagree.handler topic trivial
    obtain ⟨x, hx, ha⟩ | ⟨hnone, why, hrefuses, ha⟩ | ⟨b, t, e, hnone, hb, ha, he, -⟩ :=
      hd.attach hn handler
    · have htry : c.trySubscribe topic handler = (.error (.alreadySubscribed topic), d) := by
        simp only [Channels.trySubscribe, hc, ha]
      have hsome : c.handler? topic = some x := hhandler.symm.trans hx
      rw [htry]
      refine ⟨hd, by simp, ⟨by simp, ?_⟩, fun hsome _ => ⟨rfl, hsame hsome⟩⟩
      rintro ⟨-, -, hnone, -⟩
      cases hsome.symm.trans hnone
    · have htry : c.trySubscribe topic handler = (.error why, d) := by
        simp only [Channels.trySubscribe, hc, ha]
      rw [htry]
      refine ⟨hd, by simp, ⟨by simp, ?_⟩, fun hsome _ => absurd (hhandler.symm.trans hnone) hsome⟩
      rintro ⟨-, -, -, b, t, hb⟩
      rw [hbroker, hb] at hrefuses
      cases hrefuses
    · have htry : c.trySubscribe topic handler = (.ok true, e) := by
        simp only [Channels.trySubscribe, hc, ha]
      rw [htry]
      refine ⟨he, by simp, ⟨fun _ => ⟨hs, hcheck, hhandler.symm.trans hnone, b, t, hbroker ▸ hb⟩,
        fun _ => rfl⟩, fun hsome _ => absurd (hhandler.symm.trans hnone) hsome⟩

/-- So no subscription tries again. -/
theorem Faithful.subscribe_eq (h : c.Faithful) (topic : String) (handler : η) :
    c.subscribe topic handler =
      ((c.trySubscribe topic handler).1.map fun _ => (), (c.trySubscribe topic handler).2) := by
  have hfirst := (h.tries topic handler).first
  unfold Channels.subscribe
  split
  · rename_i d hd
    rw [hd] at hfirst
    exact absurd rfl hfirst
  · rename_i r d _ hd
    rw [hd]

theorem Faithful.subscribe (h : c.Faithful) (topic : String) (handler : η) :
    (c.subscribe topic handler).2.Faithful := by
  rw [h.subscribe_eq]
  exact (h.tries topic handler).faithful

/-- The broker took a subscription that succeeded, and one that failed was none of its business. -/
theorem Faithful.subscribe_cases (h : c.Faithful) (topic : String) (handler : η) :
    (∃ why d, c.subscribe topic handler = (.error why, d) ∧ d.broker = c.broker) ∨
      ∃ n t d, c.subscribe topic handler = (.ok (), d) ∧
        BrokerAdapter.subscribe c.broker topic (.consumer n) = .ok (d.broker, t) := by
  rw [h.subscribe_eq]
  obtain ⟨why, hc, -⟩ | ⟨n, e, hc, -, -, he, -, hn, hbroker, -, -⟩ := h.find topic
  · exact .inl ⟨why, c, by simp only [Channels.trySubscribe, hc, Except.map], rfl⟩
  · obtain ⟨x, -, ha⟩ | ⟨-, why, -, ha⟩ | ⟨b, t, d, -, hb, ha, -, rfl⟩ := he.attach hn handler
    · exact .inl ⟨.alreadySubscribed topic, e,
        by simp only [Channels.trySubscribe, hc, ha, Except.map], hbroker⟩
    · exact .inl ⟨why, e, by simp only [Channels.trySubscribe, hc, ha, Except.map], hbroker⟩
    · exact .inr ⟨n, t, d, by simp only [Channels.trySubscribe, hc, ha, Except.map], hbroker ▸ hb⟩

theorem Faithful.unsubscribe (h : c.Faithful) (topic : String) :
    (c.unsubscribe topic).2.Faithful := by
  unfold Channels.unsubscribe
  cases hn : c.consumers.get? topic with
  | none => exact h
  | some n =>
    obtain ⟨k, hk, ht⟩ := h.sound.made topic n hn
    refine Faithful.monitor ?_ _ _
    have herased : Agree (· ≠ topic) c { c with consumers := c.consumers.erase topic } :=
      .of_erased h.sound rfl rfl rfl
    have hagree := herased.trans (close_agree herased.sound (n := n) hk ht).1
    revert hagree
    simp only [Channels.close, hk]
    split
    · exact h.closed hn hk ht (.refl h.broker) rfl rfl rfl rfl
    · split
      · exact h.closed hn hk ht (.refl h.broker) rfl rfl rfl rfl
      · rename_i b t hb
        exact h.closed hn hk ht (.of_unsubscribe h.broker hb) rfl rfl rfl rfl

theorem Faithful.unsubscribe_broker (h : c.Faithful) (topic : String) :
    (c.unsubscribe topic).2.broker = c.broker ∨
      ∃ t, BrokerAdapter.unsubscribe c.broker topic =
        .ok ((c.unsubscribe topic).2.broker, t) := by
  unfold Channels.unsubscribe
  cases hn : c.consumers.get? topic with
  | none => exact .inl rfl
  | some n =>
    obtain ⟨k, hk, rfl⟩ := h.sound.made topic n hn
    simp only [close, hk, monitor_broker]
    split
    · exact .inl rfl
    · split
      · exact .inl rfl
      · rename_i b t hb
        exact .inr ⟨t, hb⟩

/-- Channels in order, with a broker that delivers as before except that it can have given up
topics. -/
structure Sheds (c d : Channels η β) : Prop where
  faithful : d.Faithful
  broker : Keeps c.broker d.broker

namespace Sheds

theorem refl (h : c.Faithful) : c.Sheds c := ⟨h, .refl h.broker⟩

theorem trans {e : Channels η β} (h : c.Sheds d) (h' : d.Sheds e) : c.Sheds e :=
  ⟨h'.faithful, h.broker.trans h'.broker⟩

/-- The consumers are as they were. -/
theorem aside (h : c.Faithful) (hbroker : Keeps c.broker d.broker)
    (hconsumers : d.consumers = c.consumers) (hmade : d.made = c.made)
    (hnext : c.nextNumber ≤ d.nextNumber) (hvalidate : d.validateTopics = c.validateTopics) :
    c.Sheds d :=
  ⟨h.aside hbroker hconsumers hmade hnext hvalidate, hbroker⟩

theorem unsubscribe (h : c.Faithful) (topic : String) : c.Sheds (c.unsubscribe topic).2 := by
  refine ⟨h.unsubscribe topic, ?_⟩
  obtain hsame | ⟨t, ht⟩ := h.unsubscribe_broker topic
  · rw [hsame]
    exact .refl h.broker
  · exact .of_unsubscribe h.broker ht

theorem release (h : c.Faithful) (topic : String) : c.Sheds (c.release topic) := by
  have hu := unsubscribe h topic
  unfold Channels.release
  split
  · rename_i hd
    rw [hd] at hu
    exact hu
  · rename_i hd
    rw [hd] at hu
    exact hu.trans (aside hu.faithful (.refl hu.faithful.broker) rfl rfl (le_refl _) rfl)

theorem dropProducer (h : c.Faithful) (topic : String) : c.Sheds (c.dropProducer topic) := by
  refine ⟨.monitor ?_ _ _, ?_⟩
  · exact h.aside (.refl h.broker) rfl rfl (le_refl _) rfl
  · rw [Channels.dropProducer, monitor_broker]
    exact .refl h.broker

theorem foldl {f : Channels η β → String → Channels η β}
    (hf : ∀ {c : Channels η β}, c.Faithful → ∀ t, c.Sheds (f c t)) (h : c.Faithful)
    (ts : List String) : c.Sheds (ts.foldl f c) := by
  induction ts generalizing c with
  | nil => exact .refl h
  | cons t ts ih => exact (hf h t).trans (ih (hf h t).faithful)

theorem shutdown (h : c.Faithful) : c.Sheds c.shutdown := by
  unfold Channels.shutdown
  split
  · exact .refl h
  · have hclosing : c.Sheds ({ c with shutDown := true }.note .channelsClosing) :=
      aside h (.refl h.broker) rfl rfl (le_refl _) rfl
    simp only
    generalize ({ c with shutDown := true } : Channels η β).note .channelsClosing = c' at hclosing ⊢
    have hreleased := foldl release hclosing.faithful c'.consumers.keys
    have hdropped := foldl dropProducer hreleased.faithful
      (c'.consumers.keys.foldl Channels.release c').producers.keys
    exact hclosing.trans (hreleased.trans (hdropped.trans (aside hdropped.faithful
      (.of_shutdown hdropped.faithful.broker) rfl rfl (le_refl _) rfl)))

end Sheds

/-! ## Histories -/

/-- The channels have come to `c` in these operations, each with how it came out.  Between any two
the broker can do anything but start a delivery that nobody asked for. -/
inductive History : List (Operation η × Except Failure Unit) → Channels η β → Prop where
  | start {broker : β} (validateTopics : Bool) (agent : Agent) : LawfulBroker.Sound broker →
      (∀ t x, ¬Posts broker t x) → History [] { broker, validateTopics, agent }
  | operate {log : List (Operation η × Except Failure Unit)} {c : Channels η β}
      (o : Operation η) : History log c → History (log ++ [(o, (c.operate o).1)]) (c.operate o).2
  | aside {log : List (Operation η × Except Failure Unit)} {c : Channels η β} {b : β}
      (agent : Agent) (stats : Stats) (trace : Trace) : History log c → Keeps c.broker b →
      History log { c with broker := b, agent, stats, trace }

theorem operate_faithful (h : c.Faithful) (o : Operation η) : (c.operate o).2.Faithful := by
  cases o with
  | producer topic => exact h.producer topic
  | consumer topic => exact h.consumer topic
  | subscribe topic handler => exact h.subscribe topic handler
  | unsubscribe topic => exact h.unsubscribe topic
  | shutdown => exact (Sheds.shutdown h).faithful

/-- Whom an operation makes the broker deliver to is a consumer. -/
theorem operate_posts (h : c.Faithful) (o : Operation η) {x : Subscriber}
    (hx : Posts (c.operate o).2.broker topic x) :
    Posts c.broker topic x ∨ ∃ n, x = .consumer n := by
  cases o with
  | producer t =>
    rw [operate, c.producer_broker t] at hx
    exact .inl hx
  | consumer t =>
    rw [operate, c.consumer_broker t] at hx
    exact .inl hx
  | subscribe t handler =>
    obtain ⟨why, d, hs, hd⟩ | ⟨n, u, d, hs, hd⟩ := h.subscribe_cases t handler
    · rw [operate, hs, hd] at hx
      exact .inl hx
    · obtain ⟨-, hposts⟩ := LawfulBroker.subscribe h.broker hd
      rw [operate, hs] at hx
      obtain ⟨-, heq⟩ | hold := hposts topic x hx
      · exact .inr ⟨n, heq⟩
      · exact .inl hold
  | unsubscribe t => exact .inl ((Sheds.unsubscribe h t).broker.posts _ _ hx)
  | shutdown => exact .inl ((Sheds.shutdown h).broker.posts _ _ hx)

/-- A subscription that fails leaves every handler in place. -/
theorem Faithful.subscribe_error (h : c.Faithful) {why : Failure}
    (hsub : c.subscribe topic handler = (.error why, d)) : Agree (fun _ => True) c d := by
  have hfirst := (h.tries topic handler).first
  obtain ⟨why', e, he, hagree⟩ | ⟨e, he, -⟩ | ⟨e, he, -⟩ := trySubscribe_cases h.sound topic handler
  · rw [h.subscribe_eq, he] at hsub
    cases hsub
    exact hagree
  · rw [he] at hfirst
    exact absurd rfl hfirst
  · rw [h.subscribe_eq, he] at hsub
    cases hsub

/-- The channels are in order, nobody else uses the broker, and the topics have the handlers that
they should have. -/
structure Recorded (log : List (Operation η × Except Failure Unit)) (c : Channels η β) : Prop where
  faithful : c.Faithful
  tidy : c.Tidy
  alone : ∀ t x, Posts c.broker t x → ∃ n, x = .consumer n
  handler : ∀ t, c.handler? t = assigned log t

theorem operate_handler (h : c.Faithful) (o : Operation η) (htidy : o = .shutdown → c.Tidy)
    (t : String) :
    (c.operate o).2.handler? t =
      Operation.assign t (c.handler? t) (o, (c.operate o).1) := by
  cases o with
  | producer topic => exact (producer_agree (P := fun _ => True) h.sound topic).handler t trivial
  | consumer topic => exact (consumer_agree (P := fun _ => True) h.sound topic).handler t trivial
  | subscribe topic handler =>
    cases hsub : c.subscribe topic handler with
    | mk r d =>
      simp only [operate, hsub]
      cases r with
      | error why => exact (h.subscribe_error hsub).handler t trivial
      | ok u =>
        obtain ⟨hagree, hhandler⟩ := subscribe_ok h.sound hsub
        show d.handler? t = if topic = t then some handler else c.handler? t
        split_ifs with ht
        · rw [← ht, hhandler]
        · exact hagree.handler t (Ne.symm ht)
  | unsubscribe topic =>
    obtain ⟨hagree, hgone⟩ := unsubscribe_agree h.sound topic
    show (c.unsubscribe topic).2.handler? t = if topic = t then none else c.handler? t
    split_ifs with ht
    · rw [← ht]
      exact Option.not_isSome_iff_eq_none.mp (Bool.eq_false_iff.mp hgone)
    · exact hagree.handler t (Ne.symm ht)
  | shutdown =>
    have hgone := isSubscribed_of_shutDown (c.shutdown_onward.tidy (htidy rfl))
      c.shutdown_shutDown t
    exact Option.not_isSome_iff_eq_none.mp (Bool.eq_false_iff.mp hgone)

theorem History.recorded {log : List (Operation η × Except Failure Unit)} (h : History log c) :
    Recorded log c := by
  induction h with
  | start validateTopics agent hb hnone =>
    exact ⟨.start hb (fun t n => hnone t _) validateTopics agent, fun _ _ => rfl,
      fun t x hx => absurd hx (hnone t x), fun _ => rfl⟩
  | operate o _ ih =>
    refine ⟨operate_faithful ih.faithful o, (operate_onward _ o).tidy ih.tidy, fun t x hx => ?_,
      fun t => ?_⟩
    · exact (operate_posts ih.faithful o hx).elim (ih.alone t x) id
    · rw [operate_handler ih.faithful o fun _ => ih.tidy, assigned_append, ih.handler]
  | aside agent stats trace _ hkeeps ih =>
    exact ⟨ih.faithful.aside hkeeps rfl rfl (le_refl _) rfl, ih.tidy,
      fun t x hx => ih.alone t x (hkeeps.posts t x hx), ih.handler⟩

end Channels

/-! ## Deliveries -/

namespace Session

variable {s : Session} {topic : String} {subscriber : Subscriber} {e : Envelope}
  {b : Broker Subscriber} {m : Message} {handler : Handler}
  {log : List (Channels.Operation Handler × Except Failure Unit)}

/-- A delivery is given to a handler. -/
def Hands (s : Session) (subscriber : Subscriber) (topic : String) (e : Envelope) (m : Message)
    (handler : Handler) : Prop :=
  ∃ k : Consumer Handler, k.topic = topic ∧ s.deliver subscriber topic e =
    (s.received k e).dispatch handler s.nextDelivery e.redelivered m

/-- A delivery is rejected, and no handler hears of it. -/
def Rejects (s : Session) (subscriber : Subscriber) (topic : String) (e : Envelope) : Prop :=
  ∃ s', s.deliver subscriber topic e = ([], s') ∧ s.Passes topic e.body [] [.reject] s'

theorem settleRaw_passes (s : Session) (topic : String) (body : Bytes) (x : Settlement) :
    s.Passes topic body [] [x] (s.settleRaw topic body x).2 := by
  obtain ⟨hshown, hhandled⟩ := s.channels.broker.settle_shows x topic body
  have hbroker := (s.settleRaw_channels topic body x).2
  have htrace : (s.settleRaw topic body x).2.channels.trace =
      s.channels.trace ++ (s.channels.broker.settle x topic body).2 := by
    unfold settleRaw
    split <;> rename_i hb <;> rw [hb] <;> rfl
  refine ⟨hbroker, ?_, ?_⟩
  · rw [htrace, Trace.settlings_append, hshown]
  · rw [htrace, Trace.handlings_append, hhandled]

theorem dropped_passes (s : Session) (k : Consumer Handler) (e : Envelope) (why : Note) :
    s.Passes k.topic e.body [] [.reject]
      (((s.received k e).note why).settle s.nextDelivery (.automatic .reject)) := by
  have hnoted := Called.note (s.received_delivery k e) why
  exact (s.received_passes k e k.topic e.body).trans
    (hnoted.trans (.settle hnoted.delivery (.automatic .reject))).passes

/-- A message with a correlation that is not entered is rejected. -/
theorem arrive_rejects {name : DeskName} {delivery : Nat} {d : Delivery} {body : Bytes}
    (hm : (s.inbox name topic).members.get? m.correlation = none)
    (hd : s.deliveries.get? delivery = some d) (hbody : d.body = some body)
    (hpending : d.receipt.state = .pending) (hauto : d.receipt.auto = true) :
    s.Passes d.receipt.topic body [] [.reject] (s.arrive name topic delivery m).2 := by
  have hsettled := settle_passes (s := s.note (.noConversation m.correlation topic m.id)) hd hbody
    (.automatic .reject)
  have hforward : (d.receipt.call (.automatic .reject)).forward = some .reject := by
    simp only [Receipt.call, Receipt.settle, hauto, hpending, if_true]
    rfl
  rw [hforward] at hsettled
  unfold arrive
  simp only [hm]
  exact (passes_note _).trans hsettled

/-- What is delivered to a cached consumer comes to it. -/
theorem deliver_cached {n : Nat} {k : Consumer Handler}
    (hn : s.channels.consumers.get? topic = some n) (hk : s.channels.made.get? n = some k)
    (t : String) (e : Envelope) :
    s.deliver (.consumer n) t e = s.consume k e := by
  have hthere : s.hasConsumer n = true := by simp [hasConsumer, Table.mem_values_of_get? hn]
  simp only [deliver, hthere, if_true, hk]

/-- A message that can be read and has not expired is given to the handler of the consumer. -/
theorem consume_of_handler {k : Consumer Handler} (hhandler : k.handler = some handler)
    (hdecode : Message.decode e.body = .ok m) (hfresh : m.isExpired s.now = false) :
    s.consume k e = (s.received k e).dispatch handler s.nextDelivery e.redelivered m := by
  obtain ⟨m', h', hdecode', -, hh', hc⟩ | ⟨hnone, -⟩ := s.consume_cases k e
  · cases hdecode'.symm.trans hdecode
    cases hh'.symm.trans hhandler
    exact hc
  · obtain hexpired | hnone := hnone m hdecode
    · cases hexpired.symm.trans hfresh
    · cases hnone.symm.trans hhandler

/-- What a consumer drops is rejected, and so is what is delivered after it is gone. -/
theorem rejects_of_dropped {n : Nat} {k : Consumer Handler} {why : Note}
    (hk : s.channels.made.get? n = some k) (hc : s.consume k e =
      ([], ((s.received k e).note why).settle s.nextDelivery (.automatic .reject))) :
    s.Rejects (.consumer n) k.topic e := by
  cases hthere : s.hasConsumer n with
  | false =>
    refine ⟨_, ?_, s.settleRaw_passes k.topic e.body .reject⟩
    simp only [deliver, hthere, Bool.false_eq_true, if_false]
  | true =>
    have hdeliver : s.deliver (.consumer n) k.topic e = s.consume k e := by
      simp only [deliver, hthere, if_true, hk]
    exact ⟨_, hdeliver.trans hc, s.dropped_passes k e why⟩

theorem rejects_of_none {n : Nat} {k : Consumer Handler} (hk : s.channels.made.get? n = some k)
    (hnone : k.handler = none) : s.Rejects (.consumer n) k.topic e := by
  obtain ⟨m', h', -, -, hh', -⟩ | ⟨-, why, hc⟩ := s.consume_cases k e
  · cases hh'.symm.trans hnone
  · exact rejects_of_dropped hk hc

/-- A session with the consumers of some channels.  The broker of these need not be its own. -/
structure Uses {β : Type} (s : Session) (c : Channels Handler β) : Prop where
  consumers : s.channels.consumers = c.consumers
  made : s.channels.made = c.made

end Session

namespace Channels

open LawfulBroker (Posts)

variable {β : Type} [BrokerAdapter β] {c : Channels Handler β} {topic : String}
  {s : Session} {e : Envelope} {m : Message} {handler : Handler}
  {log : List (Operation Handler × Except Failure Unit)}

/-- The channels are a map from topics to handlers: a message that can be read and has not expired
is given to the handler of its topic, and is rejected if the topic has none. -/
structure Maps [LawfulBroker β] (c : Channels Handler β) (handler? : String → Option Handler) :
    Prop where
  isSubscribed : ∀ topic, c.isSubscribed topic = (handler? topic).isSome
  hands : ∀ [ReplacingBroker β] topic handler, handler? topic = some handler → ∀ subscriber,
    Posts c.broker topic subscriber → ∀ s : Session, s.Uses c → ∀ e m,
      Message.decode e.body = .ok m → m.isExpired s.now = false →
        s.Hands subscriber topic e m handler
  rejects : ∀ topic, handler? topic = none → ∀ subscriber, Posts c.broker topic subscriber →
    ∀ s : Session, s.Uses c → ∀ e, s.Rejects subscriber topic e
  /-- Whatever else a broker delivers to, the last subscriber to a topic has its handler. -/
  last : ∀ topic handler, handler? topic = some handler → ∃ n,
    c.consumers.get? topic = some n ∧ ∀ s : Session, s.Uses c → ∀ e m,
      Message.decode e.body = .ok m → m.isExpired s.now = false →
        s.Hands (.consumer n) topic e m handler
  /-- Not even a consumer that was closed, or gave way to another one, lets a handler hear of a
  message that is not the one of its topic. -/
  strays : ∀ n k, c.made.get? n = some k → ∀ s : Session, s.Uses c → ∀ e,
    (∃ m handler, handler? k.topic = some handler ∧ s.Hands (.consumer n) k.topic e m handler) ∨
      s.Rejects (.consumer n) k.topic e
  /-- When a subscription succeeds. -/
  subscribe : ∀ topic handler, (∃ d, c.subscribe topic handler = (.ok (), d)) ↔
    c.shutDown = false ∧ c.checkNew topic = .ok () ∧ handler? topic = none ∧
      ∃ b t, BrokerAdapter.subscribe c.broker topic (.consumer (c.nextConsumer topic)) = .ok (b, t)
  /-- A second subscription changes nothing. -/
  again : ∀ topic handler handler', handler? topic = some handler →
    c.subscribe topic handler' = (.error (.alreadySubscribed topic), c)
  /-- No consumer that is found is closed, so a subscription makes one attempt. -/
  once : ∀ topic handler, (∀ n k, c.consumers.get? topic = some n → c.made.get? n = some k →
      k.closed = false) ∧
    (c.trySubscribe topic handler).1 ≠ .ok false ∧
    c.subscribe topic handler =
      ((c.trySubscribe topic handler).1.map fun _ => (), (c.trySubscribe topic handler).2)

variable [LawfulBroker β]

/-- If a consumer has a handler, it is the one of its topic. -/
theorem Recorded.assigned_of_made (h : Recorded log c) {n : Nat} {k : Consumer Handler}
    (hk : c.made.get? n = some k) (hx : k.handler = some handler) :
    assigned log k.topic = some handler := by
  have hcached := h.faithful.cached n k hk (by rw [hx]; exact Option.some_ne_none _)
  rw [← h.handler]
  exact handler?_eq_some.mpr ⟨n, k, hcached, hk, hx⟩

/-- What is delivered to the consumer of a topic comes to its handler. -/
theorem Faithful.hands (h : c.Faithful) {n : Nat} {k : Consumer Handler}
    (hn : c.consumers.get? topic = some n) (hk : c.made.get? n = some k)
    (hx : k.handler = some handler) (hs : s.Uses c) (hdecode : Message.decode e.body = .ok m)
    (hfresh : m.isExpired s.now = false) : s.Hands (.consumer n) topic e m handler := by
  obtain ⟨k', hk', ht⟩ := h.sound.made topic n hn
  cases hk'.symm.trans hk
  refine ⟨k, ht, ?_⟩
  rw [Session.deliver_cached (hs.consumers ▸ hn) (hs.made ▸ hk) topic e]
  exact Session.consume_of_handler hx hdecode hfresh

theorem Recorded.hands [ReplacingBroker β] (h : Recorded log c)
    (hsome : assigned log topic = some handler) {subscriber : Subscriber}
    (hposts : Posts c.broker topic subscriber) (hs : s.Uses c)
    (hdecode : Message.decode e.body = .ok m) (hfresh : m.isExpired s.now = false) :
    s.Hands subscriber topic e m handler := by
  rw [← h.handler] at hsome
  obtain ⟨n, rfl⟩ := h.alone topic subscriber hposts
  obtain ⟨k, hn, hk, -, hx⟩ := h.faithful.consumer_of_handler hsome hposts
  exact h.faithful.hands hn hk hx hs hdecode hfresh

theorem Recorded.rejects (h : Recorded log c) (hnone : assigned log topic = none)
    {subscriber : Subscriber} (hposts : Posts c.broker topic subscriber) (hs : s.Uses c)
    (e : Envelope) : s.Rejects subscriber topic e := by
  obtain ⟨n, rfl⟩ := h.alone topic subscriber hposts
  obtain ⟨k, hk, rfl⟩ := h.faithful.posts topic n hposts
  refine Session.rejects_of_none (hs.made ▸ hk) ?_
  by_contra hhandler
  obtain ⟨x, hx⟩ := Option.ne_none_iff_exists'.mp hhandler
  cases (h.assigned_of_made hk hx).symm.trans hnone

theorem Recorded.last (h : Recorded log c) (hsome : assigned log topic = some handler) :
    ∃ n, c.consumers.get? topic = some n ∧ ∀ s : Session, s.Uses c → ∀ e m,
      Message.decode e.body = .ok m → m.isExpired s.now = false →
        s.Hands (.consumer n) topic e m handler := by
  rw [← h.handler] at hsome
  obtain ⟨n, k, hn, hk, hx⟩ := handler?_eq_some.mp hsome
  exact ⟨n, hn, fun s hs e m hdecode hfresh => h.faithful.hands hn hk hx hs hdecode hfresh⟩

theorem Recorded.strays (h : Recorded log c) {n : Nat} {k : Consumer Handler}
    (hk : c.made.get? n = some k) (hs : s.Uses c) (e : Envelope) :
    (∃ m x, assigned log k.topic = some x ∧ s.Hands (.consumer n) k.topic e m x) ∨
      s.Rejects (.consumer n) k.topic e := by
  obtain ⟨m, x, hdecode, hfresh, hx, -⟩ | ⟨-, why, hc⟩ := s.consume_cases k e
  · have hcached := h.faithful.cached n k hk (by rw [hx]; exact Option.some_ne_none _)
    exact .inl ⟨m, x, h.assigned_of_made hk hx,
      h.faithful.hands hcached hk hx hs hdecode hfresh⟩
  · exact .inr (Session.rejects_of_dropped (hs.made ▸ hk) hc)

/-- Subscriptions succeed only where there is no handler yet. -/
theorem Recorded.subscribe_iff (h : Recorded log c) (topic : String) (handler : Handler) :
    (∃ d, c.subscribe topic handler = (.ok (), d)) ↔
      c.shutDown = false ∧ c.checkNew topic = .ok () ∧ assigned log topic = none ∧
        ∃ b t, BrokerAdapter.subscribe c.broker topic (.consumer (c.nextConsumer topic)) =
          .ok (b, t) := by
  have htries := h.faithful.tries topic handler
  rw [← h.handler, ← htries.succeeds, h.faithful.subscribe_eq]
  have hfirst := htries.first
  cases hr : (c.trySubscribe topic handler).1 with
  | error why => simp [Except.map]
  | ok first =>
    cases first with
    | false => exact absurd hr hfirst
    | true => simp [Except.map]

theorem Recorded.again (h : Recorded log c) {handler' : Handler}
    (hsome : assigned log topic = some handler) :
    c.subscribe topic handler' = (.error (.alreadySubscribed topic), c) := by
  rw [← h.handler] at hsome
  have hs : c.shutDown = false := by
    by_contra hs
    have hgone := isSubscribed_of_shutDown h.tidy (Bool.eq_true_of_not_eq_false hs) topic
    rw [isSubscribed, hsome] at hgone
    cases hgone
  have hsome' : c.handler? topic ≠ none := by
    rw [hsome]
    exact Option.some_ne_none _
  obtain ⟨hr, hd⟩ := (h.faithful.tries topic handler').again hsome' hs
  rw [h.faithful.subscribe_eq, hr, hd]
  exact rfl

/-- Whatever is asked of the channels, and whatever the broker refuses: they map each topic to the
handler of the last subscription to it that succeeded and was neither followed by the end of the
subscription, even one that the broker refused, nor by the shutdown of the channels. -/
theorem History.maps (h : History log c) : c.Maps (assigned log) where
  isSubscribed topic := by rw [isSubscribed, h.recorded.handler]
  hands _ _ hsome _ hposts _ hs _ _ hdecode hfresh :=
    h.recorded.hands hsome hposts hs hdecode hfresh
  rejects _ hnone _ hposts _ hs e := h.recorded.rejects hnone hposts hs e
  last _ _ hsome := h.recorded.last hsome
  strays _ _ hk _ hs e := h.recorded.strays hk hs e
  subscribe := h.recorded.subscribe_iff
  again _ _ _ hsome := h.recorded.again hsome
  once topic handler :=
    ⟨h.recorded.faithful.opened topic, (h.recorded.faithful.tries topic handler).first,
      h.recorded.faithful.subscribe_eq topic handler⟩

/-- Channels with a broker that lets go of no topic. -/
def clung : Channels Handler where
  broker := .manual { refuses := { unsubscribe := true } }

def firstHandler : Handler := .script "a:b" []

def secondHandler : Handler := .script "a:b" [.fail "no"]

/-- A session in which the handler of a topic was to be taken away. -/
def deserted : Session where
  channels := ((clung.operate (.subscribe "a:b" firstHandler)).2.operate (.unsubscribe "a:b")).2
  start := .epoch

/-- The topic got another one. -/
def resettled : Session where
  channels := (deserted.channels.operate (.subscribe "a:b" secondHandler)).2
  start := .epoch

/-- The broker goes on delivering to a consumer that is closed.  After another subscription it
delivers to the new handler. -/
theorem History.maps_after_refusal :
    ∃ m, Message.decode Session.greeting = .ok m ∧
      History [(.subscribe "a:b" firstHandler, .ok ()),
        (.unsubscribe "a:b", .error (.transport "a:b" "unsubscribe refused"))] deserted.channels ∧
      deserted.channels.broker.Delivers (.consumer 0) "a:b" ⟨Session.greeting, false⟩
        deserted.channels.broker ∧
      deserted.Rejects (.consumer 0) "a:b" ⟨Session.greeting, false⟩ ∧
      History [(.subscribe "a:b" firstHandler, .ok ()),
        (.unsubscribe "a:b", .error (.transport "a:b" "unsubscribe refused")),
        (.subscribe "a:b" secondHandler, .ok ())] resettled.channels ∧
      resettled.Hands (.consumer 1) "a:b" ⟨Session.greeting, false⟩ m secondHandler ∧
      resettled.channels.subscribe "a:b" firstHandler =
        (.error (.alreadySubscribed "a:b"), resettled.channels) := by
  obtain ⟨m, hdecode, hfresh⟩ := Session.greeting_readable
  -- From here on the text is not to be looked into.
  generalize Session.greeting = body at hdecode ⊢
  have hstart : History [] clung := .start true .silent trivial fun _ _ hx => by cases hx
  have hdeserted : History _ deserted.channels :=
    (hstart.operate (.subscribe "a:b" firstHandler)).operate (.unsubscribe "a:b")
  have hresettled : History _ resettled.channels :=
    hdeserted.operate (.subscribe "a:b" secondHandler)
  have hdelivers : deserted.channels.broker.Delivers (.consumer 0) "a:b" ⟨body, false⟩
      deserted.channels.broker := .byHand _ rfl
  have hrejects : deserted.Rejects (.consumer 0) "a:b" ⟨body, false⟩ :=
    hdeserted.maps.rejects "a:b" rfl (.consumer 0) rfl deserted ⟨rfl, rfl⟩ ⟨body, false⟩
  have hhands : resettled.Hands (.consumer 1) "a:b" ⟨body, false⟩ m secondHandler :=
    hresettled.maps.hands "a:b" secondHandler rfl (.consumer 1) rfl resettled ⟨rfl, rfl⟩
      ⟨body, false⟩ m hdecode hfresh
  exact ⟨m, hdecode, hdeserted, hdelivers, hrejects, hresettled, hhands,
    hresettled.maps.again "a:b" secondHandler firstHandler rfl⟩

end Channels
end Colloquy
