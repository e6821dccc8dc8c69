/-
Lines that stay up.

A line is up as long as its conversation is open and its topic is served.  A topic is served until
somebody unsubscribes from it or something is shut down: whatever else is asked of the channels, and
whoever else uses the broker, the worker stays where it is, and since nobody can subscribe to a
topic that is served, so does the handler.  And an open conversation is the one that is entered,
since the end of any other one is not awaited.

What a machine does by itself comes to its channels in calls, so all this is true of its runs.
-/
import Colloquy.Proofs.Line
import Colloquy.Proofs.Rollback
import Colloquy.Proofs.Shutdown

namespace Colloquy

/-! ## Workers that stay -/

namespace MemoryBroker

variable {σ : Type} {b b' : MemoryBroker σ} {topic t : String} {id : Nat} {x subscriber : σ}

/-- A worker serves a topic and delivers to a subscriber, unless the broker is shut down. -/
def Retains (topic : String) (id : Nat) (x : σ) (b : MemoryBroker σ) : Prop :=
  b.down = true ∨ ((b.lane topic).worker = some id ∧ b.subscriber? topic = some x)

theorem shutdown_down (b : MemoryBroker σ) : b.shutdown.down = true := by
  unfold shutdown
  split
  · assumption
  · rfl

namespace Retains

theorem steady (h : b.Retains topic id x) (hs : b.Steady b') (hb' : b'.Sound) :
    b'.Retains topic id x :=
  h.imp hs.down.trans fun ⟨hw, hx⟩ =>
    ⟨(hs.lane topic).trans hw, (hs.subscriber? hb' topic).trans hx⟩

/-- Nobody else can subscribe to the topic. -/
theorem subscribe_ne (h : b.Retains topic id x) (hs : b.subscribe t subscriber = .ok b') :
    topic ≠ t := by
  obtain ⟨hdown, hlane, -⟩ := subscribe_eq_ok hs
  rintro rfl
  obtain hd | ⟨hw, -⟩ := h
  · cases hd.symm.trans hdown
  · cases hw.symm.trans hlane

theorem subscribe (h : b.Retains topic id x) (hb : b.Sound)
    (hs : b.subscribe t subscriber = .ok b') : b'.Retains topic id x := by
  have ht := h.subscribe_ne hs
  have hsubscriber := (subscribe_subscriber? hb hs topic).trans (if_neg ht)
  obtain ⟨-, -, rfl⟩ := subscribe_eq_ok hs
  have hlane := congrArg Lane.worker
    ((lane_put b t { worker := some b.nextWorker, backlog := [] } topic).trans (if_neg ht))
  exact h.imp_right fun ⟨hw, hx⟩ => ⟨hlane.trans hw, hsubscriber.trans hx⟩

theorem unsubscribe (h : b.Retains topic id x) (hb : b.Sound) (ht : topic ≠ t) :
    (b.unsubscribe t).Retains topic id x := by
  have hsubscriber := (unsubscribe_subscriber? hb t topic).trans (if_neg ht)
  cases hlane : (b.lane t).worker with
  | none =>
    rw [unsubscribe_of_none hlane]
    exact h
  | some k =>
    obtain ⟨w, hw, -⟩ := hb.worker hlane
    have hsame := congrArg Lane.worker
      ((lane_put b t { backlog := (b.lane t).backlog } topic).trans (if_neg ht))
    rw [unsubscribe_of_some hlane hw] at hsubscriber ⊢
    exact h.imp_right fun ⟨hw, hx⟩ => ⟨hsame.trans hw, hsubscriber.trans hx⟩

end Retains
end MemoryBroker

/-! ## Topics that stay served -/

namespace Channels

variable {η : Type} {c start : Channels η} {topic t : String} {x : η} {id : Nat}
  {b : Broker Subscriber} {trace : Trace}

/-- Channels that nothing was asked of.  Others can be using the broker. -/
inductive New : Channels η → Prop where
  | intro {broker : Broker Subscriber} (validateTopics : Bool) (agent : Agent) : broker.Sound →
      (∀ t n, broker.subscriber? t ≠ some (.consumer n)) → New { broker, validateTopics, agent }

/-- Nobody unsubscribes from the topic, and the channels are not shut down. -/
def Call.Spares (topic : String) (call : Call η) : Prop :=
  call ≠ .operate (.unsubscribe topic) ∧ call ≠ .operate .shutdown ∧ call ≠ .leave topic

theorem Faithful.join (h : c.Faithful) {actions : List RawAction}
    (hb : c.broker.subscribe t (.raw t actions) = .ok (b, trace)) :
    ({ c with broker := b } : Channels η).Faithful := by
  obtain ⟨hsound, hsubscriber⟩ := Broker.subscribe_subscriber? h.broker hb
  refine h.beside hsound (fun u n hx => ?_) rfl rfl (le_refl _) rfl
  have hput := (hsubscriber u).symm.trans hx
  split_ifs at hput
  · cases hput
  · exact hput

theorem Faithful.leave (h : c.Faithful) (hb : c.broker.unsubscribe t = .ok (b, trace)) :
    ({ c with broker := b } : Channels η).Faithful :=
  h.aside (.of_unsubscribe h.broker hb) rfl rfl (le_refl _) rfl

theorem New.faithful (h : c.New) : c.Faithful := by
  obtain ⟨validateTopics, agent, hb, hnobody⟩ := h
  exact .start hb hnobody validateTopics agent

/-- Whoever else uses the broker, channels in order stay so. -/
theorem Leads.faithful {log : List (Call η)} (h : start.Leads log c) (hs : start.Faithful) :
    c.Faithful := by
  induction h with
  | start => exact hs
  | operate o _ ih => exact operate_faithful ih o
  | join _ hb ih => exact ih.join hb
  | leave _ hb ih => exact ih.leave hb
  | aside agent stats trace _ hb ih =>
    exact ih.aside (hb.keeps ih.broker) rfl rfl (le_refl _) rfl

/-- A topic has its handler, and a worker that delivers to a consumer. -/
structure Retains (topic : String) (x : η) (id : Nat) (c : Channels η) : Prop where
  faithful : c.Faithful
  handler : c.handler? topic = some x
  worker : ∃ b n, c.broker = .memory b ∧ b.Retains topic id (.consumer n)

namespace Retains

theorem operate (h : c.Retains topic x id) (o : Operation η) (ho : o ≠ .unsubscribe topic)
    (hrunning : o ≠ .shutdown) : (c.operate o).2.Retains topic x id := by
  have hfaithful := operate_faithful h.faithful o
  obtain ⟨b, n, hb, hworker⟩ := h.worker
  have hsound := h.faithful.memory_sound hb
  cases o with
  | producer t =>
    have hagree := producer_agree (P := fun _ => True) h.faithful.sound t
    exact ⟨hfaithful, (hagree.handler topic trivial).trans h.handler, b, n,
      (c.producer_broker t).trans hb, hworker⟩
  | consumer t =>
    have hagree := consumer_agree (P := fun _ => True) h.faithful.sound t
    exact ⟨hfaithful, (hagree.handler topic trivial).trans h.handler, b, n,
      (c.consumer_broker t).trans hb, hworker⟩
  | subscribe t y =>
    obtain ⟨why, d, hs, hd⟩ | ⟨m, u, d, hs, hd⟩ := h.faithful.subscribe_cases t y
    · have hagree := h.faithful.subscribe_error hs
      simp only [Channels.operate, hs] at hfaithful ⊢
      exact ⟨hfaithful, (hagree.handler topic trivial).trans h.handler, b, n, hd.trans hb, hworker⟩
    · rw [hb] at hd
      obtain ⟨b', hb', hsubscribe⟩ := Broker.subscribe_memory hd
      obtain ⟨hagree, -⟩ := subscribe_ok h.faithful.sound hs
      simp only [Channels.operate, hs] at hfaithful ⊢
      exact ⟨hfaithful, (hagree.handler topic (hworker.subscribe_ne hsubscribe)).trans h.handler,
        b', n, hb', hworker.subscribe hsound hsubscribe⟩
  | unsubscribe t =>
    have ht : topic ≠ t := fun heq => ho (heq ▸ rfl)
    obtain ⟨hagree, -⟩ := unsubscribe_agree h.faithful.sound t
    refine ⟨hfaithful, (hagree.handler topic ht).trans h.handler, ?_⟩
    obtain hsame | ⟨u, hunsubscribe⟩ := h.faithful.unsubscribe_broker t
    · exact ⟨b, n, hsame.trans hb, hworker⟩
    · rw [hb] at hunsubscribe
      obtain ⟨hb', -⟩ := Prod.mk.inj (Except.ok.inj hunsubscribe)
      exact ⟨_, n, hb'.symm, hworker.unsubscribe hsound ht⟩
  | shutdown => exact absurd rfl hrunning

theorem join (h : c.Retains topic x id) {actions : List RawAction}
    (hb : c.broker.subscribe t (.raw t actions) = .ok (b, trace)) :
    ({ c with broker := b } : Channels η).Retains topic x id := by
  refine ⟨h.faithful.join hb, h.handler, ?_⟩
  obtain ⟨m, n, hm, hworker⟩ := h.worker
  rw [hm] at hb
  obtain ⟨m', rfl, hsubscribe⟩ := Broker.subscribe_memory hb
  exact ⟨m', n, rfl, hworker.subscribe (h.faithful.memory_sound hm) hsubscribe⟩

theorem leave (h : c.Retains topic x id) (ht : topic ≠ t)
    (hb : c.broker.unsubscribe t = .ok (b, trace)) :
    ({ c with broker := b } : Channels η).Retains topic x id := by
  refine ⟨h.faithful.leave hb, h.handler, ?_⟩
  obtain ⟨m, n, hm, hworker⟩ := h.worker
  rw [hm] at hb
  obtain ⟨rfl, -⟩ := Prod.mk.inj (Except.ok.inj hb)
  exact ⟨_, n, rfl, hworker.unsubscribe (h.faithful.memory_sound hm) ht⟩

theorem aside (h : c.Retains topic x id) (hb : c.broker.Aside b) (agent : Agent) (stats : Stats)
    (trace : Trace) :
    ({ c with broker := b, agent, stats, trace } : Channels η).Retains topic x id := by
  refine ⟨h.faithful.aside (hb.keeps h.faithful.broker) rfl rfl (le_refl _) rfl, h.handler, ?_⟩
  obtain ⟨m, n, hm, hworker⟩ := h.worker
  rw [hm] at hb
  obtain ⟨m', rfl, hsound, hsteady | rfl⟩ := hb.of_memory (h.faithful.memory_sound hm)
  · exact ⟨m', n, rfl, hworker.steady hsteady hsound⟩
  · exact ⟨_, n, rfl, .inl m.shutdown_down⟩

/-- A topic is served until somebody unsubscribes from it, or the channels or the broker are shut
down. -/
theorem leads {log : List (Call η)} (h : start.Retains topic x id) (hleads : start.Leads log c)
    (hlog : ∀ call ∈ log, call.Spares topic) : c.Retains topic x id := by
  induction hleads with
  | start => exact h
  | operate o _ ih =>
    obtain ⟨hothers, hlast⟩ := List.forall_mem_append.mp hlog
    obtain ⟨ho, hrunning, -⟩ := hlast _ (List.mem_singleton_self _)
    exact (ih hothers).operate o (fun heq => ho (heq ▸ rfl)) (fun heq => hrunning (heq ▸ rfl))
  | join _ hb ih =>
    obtain ⟨hothers, -⟩ := List.forall_mem_append.mp hlog
    exact (ih hothers).join hb
  | leave _ hb ih =>
    obtain ⟨hothers, hlast⟩ := List.forall_mem_append.mp hlog
    obtain ⟨-, -, hleft⟩ := hlast _ (List.mem_singleton_self _)
    exact (ih hothers).leave (fun heq => hleft (heq ▸ rfl)) hb
  | aside agent stats trace _ hb ih => exact (ih hlog).aside hb agent stats trace

end Retains
end Channels

/-! ## Lines that stay up -/

namespace Line

variable {l : Line} {s s' : Session} {b : MemoryBroker Subscriber}
  {log : List (Channels.Call Handler)}

theorem Served.leads (h : l.Served s) (hs : s.channels.Faithful)
    (hleads : s.channels.Leads log s'.channels) (hlog : ∀ call ∈ log, call.Spares l.topic)
    (hb : s'.channels.broker = .memory b) (hup : b.down = false) : l.Served s' := by
  obtain ⟨b₀, hb₀, -⟩ := h.worker
  obtain ⟨hworker, n, hsubscriber⟩ := h.memory hb₀
  have hretains := Channels.Retains.leads ⟨hs, h.handler, b₀, n, hb₀, .inr ⟨hworker, hsubscriber⟩⟩
    hleads hlog
  obtain ⟨b', m, hb', hdown | ⟨hworker', hsubscriber'⟩⟩ := hretains.worker
  · cases hb'.symm.trans hb
    cases hdown.symm.trans hup
  · exact .of_faithful hretains.faithful hretains.handler hb' hworker' hsubscriber'

/-- The conversation of a line has not ended, and its end is still awaited. -/
structure Open (l : Line) (s : Session) : Prop where
  exchange : ∃ x, s.exchanges.get? l.exchange = some x ∧
    x.address? = some (l.topic, l.correlation) ∧ x.conversation.ended = false
  awaited : s.awaited l.exchange = .pending

/-- With the entries in order, an open conversation is the one that is entered: if another one had
taken its place, its end would not be awaited any more. -/
theorem Open.up (h : l.Open s) (hs : s.Filed) (hserved : l.Served s) : l.Up s := by
  obtain ⟨x, hx, ha, hopen⟩ := h.exchange
  obtain ⟨a, he⟩ : ∃ a, s.entry a = some l.exchange := by
    by_contra hgone
    obtain ⟨hshared, -⟩ := Exchange.shared_of_address? ha
    have hstatus := Session.status_of_not_entered hs hx hshared fun a he => hgone ⟨a, he⟩
    simp [Session.status, h.awaited] at hstatus
  cases (hs.address?_of_entry he hx).symm.trans ha
  exact ⟨⟨x, hx, ha, hopen⟩, he, hserved⟩

end Line

/-! ## Runs are calls -/

/-- In its turn a worker has its broker do something, and the delivery goes on from there. -/
theorem Session.turn_calls {s s' : Session} {frames : List Frame}
    (h : s.turn? = some (frames, s')) : s.channels.Calls s'.channels := by
  obtain ⟨b, id, hb, ⟨b', hturn, rfl⟩ | ⟨worker, subscriber, topic, e, b', hturn, rfl⟩⟩ :=
    turn_cases h
  · exact .aside s.channels _ _ _ (hb ▸ .stop hturn)
  · have hdelivers : s.channels.broker.Aside (.memory b') := hb ▸ .deliver (.turn hturn)
    exact (Channels.Calls.aside s.channels _ _ _ hdelivers).trans
      (deliver_goes (s.withBroker (.memory b')) subscriber topic e).calls

namespace Machine

theorem calls_step {m m' : Machine} (h : m.step? = some m') :
    m.session.channels.Calls m'.session.channels := by
  refine step_cases (R := fun m m' => m.session.channels.Calls m'.session.channels) ?_ ?_ h
  · exact fun f _ s => (s.perform_deals f).goes.calls
  · exact Session.turn_calls

/-- Whatever a machine does by itself, its channels get from the one to the other in calls. -/
theorem calls_run (n : Nat) (m : Machine) :
    ∃ log, m.session.channels.Leads log (m.run n).session.channels :=
  run_induction (R := fun m m' => m.session.channels.Calls m'.session.channels)
    (fun _ => Channels.Calls.refl _) (fun h h' => (calls_step h).trans h') n m

end Machine
end Colloquy
