/-
Calls of channels.

What is asked of channels is one whole operation after the other.  Others can use the broker in the
meantime: they subscribe to topics and unsubscribe from them, and between any two calls the broker
does what it does without anybody subscribing or unsubscribing.  `Leads` is any sequence of these.
-/
import Colloquy.Channels
import Colloquy.Proofs.Table

namespace Colloquy

/-! ## Brokers -/

namespace Broker

variable {σ : Type}

/-- A broker that was told what became of a delivery.  One that refuses to hear it is as before. -/
def told (topic : String) (body : Bytes) (b : Broker σ) (x : Settlement) : Broker σ :=
  match (b.settle x topic body).1 with
  | .ok b' => b'
  | .error _ => b

/-- A broker takes an envelope to deliver it to a subscriber: in the turn of a worker, or off its
queue, or by the hand of the application. -/
inductive Delivers : Broker σ → σ → String → Envelope → Broker σ → Prop where
  | turn {m m' : MemoryBroker σ} {id worker : Nat} {subscriber : σ} {topic : String}
      {e : Envelope} : m.turnOf? id = some (.delivery worker subscriber topic e m') →
      Delivers (memory m) subscriber topic e (memory m')
  | queued {m m' : ManualBroker σ} {only : Option String} {subscriber : σ} {topic : String}
      {e : Envelope} : m.take? only = some (subscriber, topic, e, m') →
      Delivers (manual m) subscriber topic e (manual m')
  | byHand {m : ManualBroker σ} {subscriber : σ} {topic : String} (e : Envelope) :
      m.subscribers.get? topic = some subscriber →
      Delivers (manual m) subscriber topic e (manual m)

/-- What brokers do without subscribing or unsubscribing anything.  They start and stop refusing
what they like, and shut down. -/
inductive Aside : Broker σ → Broker σ → Prop where
  | publish {b b' : Broker σ} {topic : String} {key : Option String} {body : Bytes} {t : Trace} :
      b.publish topic key body = .ok (b', t) → Aside b b'
  | told (b : Broker σ) (topic : String) (body : Bytes) (x : Settlement) :
      Aside b (b.told topic body x)
  | deliver {b b' : Broker σ} {subscriber : σ} {topic : String} {e : Envelope} :
      b.Delivers subscriber topic e b' → Aside b b'
  | stop {m m' : MemoryBroker σ} {id : Nat} : m.turnOf? id = some (.stopped m') →
      Aside (memory m) (memory m')
  | finish (m : MemoryBroker σ) (id : Nat) : Aside (memory m) (memory (m.finish id))
  | refuse (m : ManualBroker σ) (refuses : Refusals) :
      Aside (manual m) (manual { m with refuses })
  | shutdown (b : Broker σ) : Aside b b.shutdown.1

theorem Aside.refl (b : Broker σ) : b.Aside b := by
  cases b with
  | manual m => exact .refuse m m.refuses
  | memory m =>
    obtain ⟨id, hid⟩ := m.workers.exists_get?_eq_none
    have hsame : m.finish id = m := by simp only [MemoryBroker.finish, hid]
    have haside := Aside.finish m id
    rw [hsame] at haside
    exact haside

end Broker

/-! ## Channels -/

namespace Channels

variable {η β : Type}

/-- What can be asked of the channels. -/
inductive Operation (η : Type) where
  | producer (topic : String)
  | consumer (topic : String)
  | subscribe (topic : String) (handler : η)
  | unsubscribe (topic : String)
  | shutdown

/-- Do what is asked, and tell whether it failed. -/
def operate [BrokerAdapter β] (c : Channels η β) : Operation η → Except Failure Unit × Channels η β
  | .producer topic => ((c.producer topic).1.map fun _ => (), (c.producer topic).2)
  | .consumer topic => ((c.consumer topic).1.map fun _ => (), (c.consumer topic).2)
  | .subscribe topic handler => c.subscribe topic handler
  | .unsubscribe topic => c.unsubscribe topic
  | .shutdown => (.ok (), c.shutdown)

/-- What is asked of channels or of their broker. -/
inductive Call (η : Type) where
  | operate (o : Operation η)
  /-- Somebody else subscribes to a topic on the broker. -/
  | join (topic : String)
  /-- Somebody else unsubscribes from a topic on the broker. -/
  | leave (topic : String)

/-- The channels have come from `start` to `c` in these calls.  Between any two the broker can do
anything but subscribe and unsubscribe. -/
inductive Leads (start : Channels η) : List (Call η) → Channels η → Prop where
  | start : Leads start [] start
  | operate {log : List (Call η)} {c : Channels η} (o : Operation η) : Leads start log c →
      Leads start (log ++ [.operate o]) (c.operate o).2
  | join {log : List (Call η)} {c : Channels η} {topic : String} {actions : List RawAction}
      {b : Broker Subscriber} {t : Trace} : Leads start log c →
      c.broker.subscribe topic (.raw topic actions) = .ok (b, t) →
      Leads start (log ++ [.join topic]) { c with broker := b }
  | leave {log : List (Call η)} {c : Channels η} {topic : String} {b : Broker Subscriber}
      {t : Trace} : Leads start log c → c.broker.unsubscribe topic = .ok (b, t) →
      Leads start (log ++ [.leave topic]) { c with broker := b }
  | aside {log : List (Call η)} {c : Channels η} {b : Broker Subscriber} (agent : Agent)
      (stats : Stats) (trace : Trace) : Leads start log c → c.broker.Aside b →
      Leads start log { c with broker := b, agent, stats, trace }

variable {c d e : Channels η} {log log' : List (Call η)}

theorem Leads.trans (h : c.Leads log d) (h' : d.Leads log' e) : c.Leads (log ++ log') e := by
  induction h' with
  | start => exact (List.append_nil log).symm ▸ h
  | operate o _ ih => exact (List.append_assoc log _ _) ▸ ih.operate o
  | join _ hb ih => exact (List.append_assoc log _ _) ▸ ih.join hb
  | leave _ hb ih => exact (List.append_assoc log _ _) ▸ ih.leave hb
  | aside agent stats trace _ hb ih => exact ih.aside agent stats trace hb

/-- Some calls lead from `c` to `d`. -/
def Calls (c d : Channels η) : Prop := ∃ log, c.Leads log d

namespace Calls

theorem trans (h : c.Calls d) (h' : d.Calls e) : c.Calls e := by
  obtain ⟨log, h⟩ := h
  obtain ⟨log', h'⟩ := h'
  exact ⟨_, h.trans h'⟩

theorem operate (c : Channels η) (o : Operation η) : c.Calls (c.operate o).2 :=
  ⟨_, .operate o .start⟩

theorem aside (c : Channels η) {b : Broker Subscriber} (agent : Agent) (stats : Stats)
    (trace : Trace) (hb : c.broker.Aside b) : c.Calls { c with broker := b, agent, stats, trace } :=
  ⟨_, .aside agent stats trace .start hb⟩

theorem broker (c : Channels η) {b : Broker Subscriber} (hb : c.broker.Aside b) (t : Trace) :
    c.Calls (({ c with broker := b } : Channels η).record t) :=
  aside c c.agent c.stats (c.trace ++ t) hb

theorem record (c : Channels η) (t : Trace) : c.Calls (c.record t) := broker c (.refl _) t

theorem refl (c : Channels η) : c.Calls c := ⟨_, .start⟩

theorem monitor (c : Channels η) (h : Hook) (t : String) : c.Calls (c.monitor h t) := by
  unfold Channels.monitor
  split
  · exact refl c
  · exact record c _
  · exact aside c c.agent _ c.trace (.refl _)

theorem send (c : Channels η) (now : Instant) (t : String) (m : Message) :
    c.Calls (c.send now t m).2 := by
  simp only [Channels.send]
  split
  · exact refl c
  · split
    · exact record c _
    · rename_i hb
      exact (broker c (.publish hb) _).trans (monitor _ _ _)

theorem publish (c : Channels η) (now : Instant) (t : String) (m : Message) :
    c.Calls (c.publish now t m).2 := by
  have hp := operate c (.producer t)
  simp only [Channels.operate] at hp
  unfold Channels.publish
  split
  · rename_i hd
    rw [hd] at hp
    exact hp
  · rename_i hd
    rw [hd] at hp
    exact hp.trans (send _ now t m)

/-- Somebody else unsubscribes. -/
theorem leave (c : Channels η) {topic : String} {b : Broker Subscriber} {t : Trace}
    (hb : c.broker.unsubscribe topic = .ok (b, t)) :
    c.Calls (({ c with broker := b } : Channels η).record t) :=
  Calls.trans ⟨_, .leave .start hb⟩ (record _ t)

end Calls
end Channels
end Colloquy
