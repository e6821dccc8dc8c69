/-
Subscriptions that fail.

A subscription fails if the channels are shut down, if its topic is no topic, if the topic has a
handler, or if the broker refuses it.  `Refuses` lists these cases with what is left of the channels
in each.  In all but one of them that is everything, just as it was: the agent was told nothing, no
consumer was made, and each topic has the handler it had.  The exception is a topic without a
consumer that the broker refuses.  Its consumer is made, and the agent told of it, before the broker
is asked, and both stay.
-/
import Colloquy.Proofs.Upkeep

namespace Colloquy
namespace Channels

variable {η : Type} {c d start : Channels η} {topic : String} {handler : η} {why : Failure}

/-- With a consumer made for a topic, of which the agent is told. -/
def equip (c : Channels η) (topic : String) : Channels η :=
  { c with
    consumers := c.consumers.put topic c.nextNumber
    made := c.made.put c.nextNumber { topic }
    nextNumber := c.nextNumber + 1 }.monitor .consumerCreated topic

theorem equip_consumers (c : Channels η) (topic : String) :
    (c.equip topic).consumers = c.consumers.put topic c.nextNumber :=
  (monitor_fields _ _ _).1

theorem equip_broker (c : Channels η) (topic : String) : (c.equip topic).broker = c.broker := by
  rw [equip, monitor_broker]

theorem equip_faithful (h : c.Faithful) (hnone : c.consumers.get? topic = none)
    (hcheck : c.checkNew topic = .ok ()) : (c.equip topic).Faithful :=
  Faithful.monitor (c := { c with
      consumers := c.consumers.put topic c.nextNumber
      made := c.made.put c.nextNumber { topic }
      nextNumber := c.nextNumber + 1 }) (h.made hnone hcheck rfl rfl rfl rfl rfl) _ _

/-- The consumer is there, and no topic has another handler. -/
theorem equip_handler? (h : c.Sound) (hnone : c.consumers.get? topic = none) (t : String) :
    (c.equip topic).handler? t = c.handler? t := by
  obtain ⟨hconsumers, hmade, hnext⟩ := monitor_fields { c with
    consumers := c.consumers.put topic c.nextNumber
    made := c.made.put c.nextNumber { topic }
    nextNumber := c.nextNumber + 1 } .consumerCreated topic
  have hagree : Agree (fun _ => True) c (c.equip topic) :=
    .of_new h hnone hconsumers hmade hnext
  exact hagree.handler t trivial

/-! ## Finding a consumer -/

theorem consumer_of_cached (hrun : c.shutDown = false) {n : Nat}
    (hn : c.consumers.get? topic = some n) : c.consumer topic = (.ok n, c) := by
  simp only [consumer, hrun, hn, if_false, Bool.false_eq_true]

theorem consumer_of_new (hrun : c.shutDown = false) (hnone : c.consumers.get? topic = none)
    (hcheck : c.checkNew topic = .ok ()) :
    c.consumer topic = (.ok c.nextNumber, c.equip topic) := by
  simp only [consumer, hrun, hnone, hcheck, if_false, Bool.false_eq_true, equip]

theorem handler?_of_not_cached (hnone : c.consumers.get? topic = none) :
    c.handler? topic = none := by
  simp only [handler?, hnone, Option.bind_eq_bind, Option.bind_none]

/-! ## Failing -/

/-- The cases in which channels do not take a subscription to a topic, with the reason that is
given and what they come to. -/
inductive Refuses (c : Channels η) (topic : String) : Failure → Channels η → Prop where
  | shutDown : c.shutDown = true → Refuses c topic .shutDown c
  | noTopic {why : Failure} : c.shutDown = false → c.consumers.get? topic = none →
      c.checkNew topic = .error why → Refuses c topic why c
  | taken {other : η} : c.shutDown = false → c.handler? topic = some other →
      Refuses c topic (.alreadySubscribed topic) c
  | refused {why : Failure} {n : Nat} : c.shutDown = false → c.handler? topic = none →
      c.consumers.get? topic = some n → c.broker.subscribe topic (.consumer n) = .error why →
      Refuses c topic why c
  | stranded {why : Failure} : c.shutDown = false → c.consumers.get? topic = none →
      c.checkNew topic = .ok () →
      c.broker.subscribe topic (.consumer c.nextNumber) = .error why →
      Refuses c topic why (c.equip topic)

/-- The consumer that was found does not get the handler. -/
theorem subscribe_of_attach_error (hc : c.Faithful) {n : Nat}
    (hfind : c.consumer topic = (.ok n, d))
    (ha : d.attach n handler = (.error why, d)) : c.subscribe topic handler = (.error why, d) := by
  rw [hc.subscribe_eq]
  simp only [trySubscribe, hfind, ha, Except.map]

/-- The consumer that was found gets the handler if the topic has none and the broker takes the
subscription. -/
theorem subscribe_of_found (hc : c.Faithful) {n : Nat} (hfind : c.consumer topic = (.ok n, d))
    (hd : d.Faithful) (hn : d.consumers.get? topic = some n) (handler : η) :
    (∃ other, d.handler? topic = some other ∧
        c.subscribe topic handler = (.error (.alreadySubscribed topic), d)) ∨
      (d.handler? topic = none ∧ ∃ why, d.broker.subscribe topic (.consumer n) = .error why ∧
        c.subscribe topic handler = (.error why, d)) ∨
      ∃ e, c.subscribe topic handler = (.ok (), e) := by
  obtain ⟨other, hother, ha⟩ | ⟨hnone, why, hb, ha⟩ | ⟨b, t, e, -, -, ha, -⟩ := hd.attach hn handler
  · exact .inl ⟨other, hother, subscribe_of_attach_error hc hfind ha⟩
  · exact .inr (.inl ⟨hnone, why, hb, subscribe_of_attach_error hc hfind ha⟩)
  · refine .inr (.inr ⟨e, ?_⟩)
    rw [hc.subscribe_eq]
    simp only [trySubscribe, hfind, ha, Except.map]

/-- Without a consumer no subscription is made. -/
theorem subscribe_of_consumer_error (hc : c.Faithful) (hfind : c.consumer topic = (.error why, c)) :
    c.subscribe topic handler = (.error why, c) := by
  rw [hc.subscribe_eq]
  simp only [trySubscribe, hfind, Except.map]

/-- A subscription succeeds, or is refused in one of the listed ways. -/
theorem Faithful.subscribe_refuses (hc : c.Faithful) (topic : String) (handler : η) :
    (∃ d, c.subscribe topic handler = (.ok (), d)) ∨
      ∃ why d, c.subscribe topic handler = (.error why, d) ∧ c.Refuses topic why d := by
  cases hrun : c.shutDown with
  | true =>
    have hfind : c.consumer topic = (.error .shutDown, c) := by
      simp only [Channels.consumer, hrun, if_true]
    exact .inr ⟨_, _, subscribe_of_consumer_error hc hfind, .shutDown hrun⟩
  | false =>
    cases hn : c.consumers.get? topic with
    | some n =>
      obtain ⟨other, hother, hs⟩ | ⟨hnone, why, hb, hs⟩ | ⟨e, hs⟩ :=
        subscribe_of_found hc (consumer_of_cached hrun hn) hc hn handler
      · exact .inr ⟨_, _, hs, .taken hrun hother⟩
      · exact .inr ⟨why, _, hs, .refused hrun hnone hn hb⟩
      · exact .inl ⟨e, hs⟩
    | none =>
      cases hcheck : c.checkNew topic with
      | error why =>
        have hfind : c.consumer topic = (.error why, c) := by
          simp only [Channels.consumer, hrun, hn, hcheck, if_false, Bool.false_eq_true]
        exact .inr ⟨why, _, subscribe_of_consumer_error hc hfind, .noTopic hrun hn hcheck⟩
      | ok u =>
        have hcached : (c.equip topic).consumers.get? topic = some c.nextNumber := by
          rw [equip_consumers, Table.get?_put_self]
        obtain ⟨other, hother, -⟩ | ⟨-, why, hb, hs⟩ | ⟨e, hs⟩ :=
          subscribe_of_found hc (consumer_of_new hrun hn hcheck)
            (equip_faithful hc hn hcheck) hcached handler
        · -- A consumer that was just made has no handler.
          rw [equip_handler? hc.sound hn, handler?_of_not_cached hn] at hother
          cases hother
        · rw [equip_broker] at hb
          exact .inr ⟨why, _, hs, .stranded hrun hn hcheck hb⟩
        · exact .inl ⟨e, hs⟩

/-- The channels run and take the topic, which has no consumer, but the broker does not. -/
def Strands (c : Channels η) (topic : String) : Prop :=
  c.shutDown = false ∧ c.consumers.get? topic = none ∧ c.checkNew topic = .ok () ∧
    ∃ x why, c.broker.subscribe topic x = .error why

theorem Refuses.handler? (h : c.Refuses topic why d) (hc : c.Sound) (t : String) :
    d.handler? t = c.handler? t := by
  cases h with
  | stranded _ hnone _ _ => exact equip_handler? hc hnone t
  | _ => rfl

theorem Refuses.broker (h : c.Refuses topic why d) : d.broker = c.broker := by
  cases h with
  | stranded _ _ _ _ => exact equip_broker c topic
  | _ => rfl

theorem Refuses.same (h : c.Refuses topic why d) (hs : ¬c.Strands topic) : d = c := by
  cases h with
  | stranded hrun hnone hcheck hb => exact absurd ⟨hrun, hnone, hcheck, _, _, hb⟩ hs
  | _ => rfl

theorem Refuses.equips (h : c.Refuses topic why d) (hs : c.Strands topic) : d = c.equip topic := by
  obtain ⟨hrun, hnone, hcheck, -⟩ := hs
  cases h with
  | shutDown hdown => cases hdown.symm.trans hrun
  | noTopic _ _ hfails => cases hfails.symm.trans hcheck
  | taken _ hother => cases (handler?_of_not_cached hnone).symm.trans hother
  | refused _ _ hn _ => cases hnone.symm.trans hn
  | stranded _ _ _ _ => rfl

/-- In every state that channels come to, whoever else uses their broker, a subscription that fails
leaves each topic its handler and the broker as it was.  It changes nothing at all, unless the
topic has no consumer and it is the broker that refuses: then the consumer that was made for it
stays, with what the agent was told, and that is all that has changed. -/
theorem Leads.failed_subscription {log : List (Call η)} (hstart : start.New)
    (hleads : start.Leads log c) (h : c.subscribe topic handler = (.error why, d)) :
    (∀ t, d.handler? t = c.handler? t) ∧ d.broker = c.broker ∧
      (¬c.Strands topic → d = c) ∧ (c.Strands topic → d = c.equip topic) := by
  have hc := hleads.faithful hstart.faithful
  obtain ⟨e, he⟩ | ⟨why', e, he, hrefuses⟩ := hc.subscribe_refuses topic handler
  · cases h.symm.trans he
  · cases h.symm.trans he
    exact ⟨hrefuses.handler? hc.sound, hrefuses.broker, hrefuses.same, hrefuses.equips⟩

/-- Channels on a broker by hand, with an agent that keeps statistics. -/
def counted : Channels Unit where
  broker := .manual {}
  agent := .stats

/-- A broker with one subscriber that takes no more. -/
def unwilling : ManualBroker Subscriber where
  subscribers := { entries := [("a:b", .consumer 0)] }
  refuses := { subscribe := true }

/-- One topic has a handler, and another one only a consumer. -/
def reserved : Channels Unit :=
  { ((counted.operate (.subscribe "a:b" ())).2.operate (.consumer "c:d")).2 with
    broker := .manual unwilling }

theorem reserved_after_failed_subscription :
    ∃ d, reserved.subscribe "c:d" () = (.error (.transport "c:d" "subscribe refused"), d) ∧
      d = reserved ∧ d.handler? "a:b" = some () := by
  have hleads : counted.Leads [.operate (.subscribe "a:b" ()), .operate (.consumer "c:d")]
      reserved :=
    .aside .stats _ _ ((Leads.start.operate (.subscribe "a:b" ())).operate (.consumer "c:d"))
      (.refuse { unwilling with refuses := {} } { subscribe := true })
  have hnew : counted.New := .intro true .stats trivial fun _ _ h => by cases h
  have hfails : reserved.subscribe "c:d" () =
      (.error (.transport "c:d" "subscribe refused"), (reserved.subscribe "c:d" ()).2) := by rfl
  obtain ⟨hhandlers, -, hsame, -⟩ := Leads.failed_subscription hnew hleads hfails
  refine ⟨_, hfails, hsame ?_, (hhandlers "a:b").trans rfl⟩
  rintro ⟨-, hnone, -⟩
  cases hnone

/-- The broker refuses the first subscription to a topic, and the agent goes on believing that the
topic has a consumer. -/
theorem consumer_left_by_failed_subscription :
    let c : Channels Unit := { counted with broker := .manual { refuses := { subscribe := true } } }
    ∃ d, c.subscribe "a:b" () = (.error (.transport "a:b" "subscribe refused"), d) ∧
      c.consumers.keys = [] ∧ d.consumers.keys = ["a:b"] ∧
      c.stats.get? "a:b" = none ∧ d.stats.get? "a:b" = some { consumers := true } := by
  intro c
  exact ⟨(c.subscribe "a:b" ()).2, rfl, rfl, rfl, rfl, rfl⟩

end Channels
end Colloquy
