/-
What a session does step by step, and what that leaves alone.

Here are the steps of a machine one at a time, and how many they are, for the runs that are followed
to their end.  Most of what is done on the way moves no conversation: messages go out and receipts
are settled.  And once the end of a conversation is known, it stays known, whatever the rest of the
run may be.
-/
import Colloquy.Proofs.Answers
import Colloquy.Proofs.Minding

namespace Colloquy

/-! ## Steps of a machine -/

namespace Machine

variable {m m' : Machine} {s s' : Session} {frames rest : List Frame} {f : Frame}

theorem run_succ (h : m.step? = some m') (n : Nat) : m.run (n + 1) = m'.run n := by
  simp only [run, h]

theorem run_of_rest (h : m.step? = none) (n : Nat) : m.run n = m := by
  cases n with
  | zero => rfl
  | succ n => simp only [run, h]

theorem run_add (m : Machine) (n k : Nat) : m.run (n + k) = (m.run n).run k := by
  induction n generalizing m with
  | zero => rw [Nat.zero_add, run]
  | succ n ih =>
    rw [Nat.succ_add]
    cases h : m.step? with
    | none => rw [run_of_rest h, run_of_rest h, run_of_rest h]
    | some m' => rw [run_succ h, run_succ h, ih]

theorem run_perform (h : s.perform f = (frames, s')) (n : Nat) :
    run (n + 1) ⟨f :: rest, s⟩ = run n ⟨frames ++ rest, s'⟩ :=
  run_succ (by simp only [step?, h]) n

/-- What leaves nothing to be done is over. -/
theorem run_done (h : s.perform f = ([], s')) (n : Nat) :
    run (n + 1) ⟨f :: rest, s⟩ = run n ⟨rest, s'⟩ :=
  run_perform h n

theorem run_turn (h : s.turn? = some (frames, s')) (n : Nat) :
    run (n + 1) ⟨[], s⟩ = run n ⟨frames, s'⟩ :=
  run_succ (by simp only [step?, h, Option.map_some]) n

end Machine

namespace Session

variable {s s' s'' : Session}

/-- What is done first when all is done until the session is at rest. -/
theorem settleAll_of_run {frames : List Frame} {m : Machine} {n : Nat}
    (h : Machine.run n ⟨frames, s⟩ = m) (hn : n ≤ stepLimit) :
    s.settleAll frames = (m.run (stepLimit - n)).session := by
  obtain ⟨k, hk⟩ := Nat.exists_eq_add_of_le hn
  rw [settleAll, hk, Machine.run_add, h, Nat.add_sub_cancel_left]

/-- What is done until the session is at rest. -/
theorem settleAll_of_rest {frames : List Frame} {n : Nat}
    (h : Machine.run n ⟨frames, s⟩ = ⟨[], s'⟩) (hn : n ≤ stepLimit) (hrest : s'.turn? = none) :
    s.settleAll frames = s' := by
  rw [settleAll_of_run h hn, Machine.run_of_rest]
  simp only [Machine.step?, hrest, Option.map_none]

theorem turn_of_delivery {b b' : MemoryBroker Subscriber} {worker : Nat} {subscriber : Subscriber}
    {topic : String} {e : Envelope} (hb : s.channels.broker = .memory b)
    (ht : b.turn? = some (.delivery worker subscriber topic e b')) :
    s.turn? = some (((s.withBroker (.memory b')).deliver subscriber topic e).1 ++ [.release worker],
      ((s.withBroker (.memory b')).deliver subscriber topic e).2) := by
  simp only [turn?, hb, ht]
  rfl

theorem turn_of_idle {b : MemoryBroker Subscriber} (hb : s.channels.broker = .memory b)
    (ht : b.turn? = none) : s.turn? = none := by
  simp only [turn?, hb, ht]

/-- A message that comes to the handler of a consumer in a turn. -/
theorem turn_of_handler {b b' : MemoryBroker Subscriber} {worker n : Nat}
    {topic u : String} {k : Consumer Handler} {e : Envelope} {m : Message} {handler : Handler}
    (hb : s.channels.broker = .memory b)
    (ht : b.turn? = some (.delivery worker (.consumer n) u e b'))
    (hn : s.channels.consumers.get? topic = some n) (hk : s.channels.made.get? n = some k)
    (hhandler : k.handler = some handler) (hdecode : Message.decode e.body = .ok m)
    (hfresh : m.isExpired s.now = false) :
    s.turn? = some
      ((((s.withBroker (.memory b')).received k e).dispatch handler s.nextDelivery e.redelivered
          m).1 ++ [.release worker],
        (((s.withBroker (.memory b')).received k e).dispatch handler s.nextDelivery e.redelivered
          m).2) := by
  rw [turn_of_delivery hb ht, deliver_cached (s := s.withBroker (.memory b')) hn hk,
    consume_of_handler (s := s.withBroker (.memory b')) hhandler hdecode hfresh]
  rfl

/-! ## What moves no conversation -/

/-- Messages, receipts and records aside, the session is as it was. -/
structure Unmoved (s s' : Session) : Prop where
  keeps : s.Keeps s'
  start : s'.start = s.start
  clock : s'.clock = s.clock
  context : s'.context = s.context
  own : s'.own = s.own
  shared : s'.shared = s.shared
  channels : s.channels.Steady s'.channels

namespace Unmoved

theorem of_steady (h : s.channels.Steady s'.channels) (hs : s' = { s with
      channels := s'.channels
      nextIdent := s'.nextIdent
      deliveries := s'.deliveries
      nextDelivery := s'.nextDelivery }) : s.Unmoved s' := by
  rw [hs]
  exact ⟨⟨rfl, rfl⟩, rfl, rfl, rfl, rfl, rfl, h⟩

theorem trans (h : s.Unmoved s') (h' : s'.Unmoved s'') : s.Unmoved s'' where
  keeps := h.keeps.trans h'.keeps
  start := h'.start.trans h.start
  clock := h'.clock.trans h.clock
  context := h'.context.trans h.context
  own := h'.own.trans h.own
  shared := h'.shared.trans h.shared
  channels := h.channels.trans h'.channels

theorem now (h : s.Unmoved s') : s'.now = s.now := by
  rw [Session.now, h.start, h.clock]
  rfl

theorem origin (h : s.Unmoved s') : s'.origin = s.origin := by
  rw [Session.origin, h.context]
  rfl

theorem inbox (h : s.Unmoved s') (topic : String) :
    s'.inbox .shared topic = s.inbox .shared topic := by
  rw [Session.inbox, Session.desk, h.shared]
  rfl

end Unmoved

theorem happen_unmoved (s : Session) (h : Happening) : s.Unmoved (s.happen h) :=
  .of_steady ⟨rfl, rfl, rfl, rfl⟩ rfl

theorem withBroker_unmoved (s : Session) (b : Broker Subscriber) : s.Unmoved (s.withBroker b) :=
  .of_steady ⟨rfl, rfl, rfl, rfl⟩ rfl

theorem fresh_unmoved (s : Session) : s.Unmoved s.fresh.2 := .of_steady ⟨rfl, rfl, rfl, rfl⟩ rfl

theorem received_unmoved (s : Session) (k : Consumer Handler) (e : Envelope) :
    s.Unmoved (s.received k e) :=
  .of_steady (s.channels.monitor_steady .received k.topic) rfl

theorem forward_unmoved (s : Session) (d : Delivery) (x : Settlement) :
    s.Unmoved (s.forward d x) := by
  unfold forward
  split
  · dsimp only
    split <;> exact .of_steady ⟨rfl, rfl, rfl, rfl⟩ rfl
  · split <;> exact .of_steady ⟨rfl, rfl, rfl, rfl⟩ rfl

theorem settle_unmoved (s : Session) (n : Nat) (call : Receipt.Call) :
    s.Unmoved (s.settle n call) := by
  unfold settle
  split
  · exact .of_steady ⟨rfl, rfl, rfl, rfl⟩ rfl
  · dsimp only
    split
    · refine .trans ?_ (forward_unmoved _ _ _)
      exact .of_steady ⟨rfl, rfl, rfl, rfl⟩ rfl
    · exact .of_steady ⟨rfl, rfl, rfl, rfl⟩ rfl

end Session

/-- What is confirmed by itself is confirmed, or nothing comes of it. -/
theorem Receipt.forward_of_confirm {r : Receipt} {x : Settlement}
    (h : (r.call (.automatic .confirm)).forward = some x) : x = .confirm := by
  unfold call at h
  dsimp only at h
  split at h
  · unfold settle at h
    dsimp only at h
    split at h
    · cases h
      rfl
    · cases h
  · cases h

namespace Session

variable {s : Session} {b : MemoryBroker Subscriber}

theorem settle_confirm_broker (hb : s.channels.broker = .memory b) (n : Nat) :
    ∃ b', (s.settle n (.automatic .confirm)).channels.broker = .memory b' ∧
      (b' = b ∨ ∃ topic body, b' = b.settle .confirm topic body) := by
  unfold settle
  split
  · exact ⟨b, hb, .inl rfl⟩
  · rename_i d _
    dsimp only
    split
    · rename_i x hforward
      cases Receipt.forward_of_confirm hforward
      unfold forward
      cases d.body with
      | none =>
        refine ⟨b, ?_, .inl rfl⟩
        dsimp only
        split <;> exact hb
      | some body =>
        refine ⟨_, ?_, .inr ⟨(d.receipt.call (.automatic .confirm)).receipt.topic, body, rfl⟩⟩
        simp only [record, Channels.record, hb, Broker.settle]
    · exact ⟨b, hb, .inl rfl⟩

/-- Without callbacks nothing is called. -/
theorem perform_report {callbacks : Callbacks} (hsilent : ∀ r, callbacks.script? r = none)
    (s : Session) (n : Option Nat) (r : Report) : s.perform (.report n callbacks r) = ([], s) := by
  simp only [perform, call, hsilent]

/-! ## An end that is known -/

/-- The end of a conversation can be learned. -/
structure Knows (s : Session) (n : Nat) (e : Ending) : Prop where
  numbered : n < s.nextExchange
  final : s.Final n (.resolved e)

namespace Knows

variable {s s' : Session} {n k : Nat} {e : Ending} {frames : List Frame}

theorem keeps (h : s.Knows n e) (hs : s.Keeps s') : s'.Knows n e :=
  ⟨hs.nextExchange ▸ h.numbered, h.final.keeps hs⟩

theorem meets (h : s.Knows n e) (hs : Meets s k frames s') : s'.Knows n e := by
  refine ⟨?_, h.final.meets nofun hs⟩
  cases hs with
  | absent hx hkeeps => exact hkeeps.nextExchange ▸ h.numbered
  | present o hx hw hmeet hchanged => exact hchanged.nextExchange ▸ h.numbered

theorem move (h : s.Knows n e) (hm : Move s frames s') : s'.Knows n e := by
  induction hm with
  | calm hkeeps hcalm => exact h.keeps hkeeps
  | place s desk correlation topic terms callbacks =>
    refine ⟨?_, h.final.place (Nat.ne_of_lt h.numbered) desk correlation topic terms callbacks⟩
    have hnumbered := h.numbered
    cases desk <;> exact Nat.lt_succ_of_lt hnumbered
  | listen s k => exact h.meets (s.listen_meets k)
  | wait s k => exact h.meets (s.wait_meets k)
  | handle s k m => exact h.meets (s.handle_meets k m)
  | abort s k why => exact h.meets (s.abort_meets k why)
  | fire s desk t => exact h.meets (s.fire_meets desk t)
  | andThen hm hm' ih ih' => exact ih' (ih h)
  | beneath hm hcalm ih => exact ih h

theorem perform (h : s.Knows n e) (f : Frame) : (s.perform f).2.Knows n e := by
  obtain ⟨k, e', rfl⟩ | ⟨k, e', rfl⟩ | ⟨-, hdeed⟩ := s.perform_cases f
  · unfold Session.perform
    dsimp only
    split
    · exact h
    · exact h.keeps (s.unregister_keeps k)
  · refine ⟨?_, h.final.resolve nofun k e'⟩
    have hnumbered := h.numbered
    obtain hsame | ⟨x, hx, -, hchanged⟩ := s.resolve_cases k e'
    · show n < (s.resolve k e').nextExchange
      rwa [hsame]
    · exact hchanged.nextExchange ▸ hnumbered
  · exact h.move hdeed.move

theorem run (n : Nat) {m : Machine} {k : Nat} (h : m.session.Knows k e) :
    (m.run n).session.Knows k e := by
  refine Machine.run_induction
    (R := fun m m' => m.session.Knows k e → m'.session.Knows k e) (fun _ => id) ?_ n m h
  intro m m' m'' hstep hrest h
  refine hrest (Machine.step_cases
    (R := fun m m' => m.session.Knows k e → m'.session.Knows k e) ?_ ?_ hstep h)
  · exact fun f _ _ h => h.perform f
  · exact fun hturn h => h.move (turn_deed hturn).move

theorem settled {rest : List Frame} (h : s'.Knows n e)
    (hrun : Machine.run k ⟨frames, s⟩ = ⟨rest, s'⟩) (hk : k ≤ stepLimit) :
    (s.settleAll frames).Knows n e := by
  rw [settleAll_of_run hrun hk]
  exact run (stepLimit - k) h

theorem status (h : s.Knows n e) : s.status (.conversation n) = .ended e := by
  obtain ⟨x, hx, -, hresolved⟩ := h.final
  simp only [Session.status, (awaited_eq_resolved_iff hx).mpr hresolved]

theorem not_pending (h : s.Knows n e) : s.isPending (.conversation n) = false := by
  rw [isPending, h.status]

/-- Nobody waits for an end that is known. -/
theorem await (h : s.Knows n e) : s.await (.conversation n) = s := by
  obtain ⟨k, hk⟩ := Nat.exists_eq_add_of_le' (show 1 ≤ timerLimit by decide)
  rw [Session.await, hk, awaitWithin, h.not_pending]
  rfl

/-- If it takes one timer until the end is known, that is how long it is waited for. -/
theorem await_timer {desk : DeskName} {t : Timer} (h : (s.letFire desk t).Knows n e)
    (hpending : s.isPending (.conversation n) = true) (hnext : s.nextTimer? = some (desk, t)) :
    s.await (.conversation n) = s.letFire desk t := by
  obtain ⟨k, hk⟩ := Nat.exists_eq_add_of_le' (show 2 ≤ timerLimit by decide)
  rw [Session.await, hk, awaitWithin, hpending]
  simp only [hnext, if_true]
  rw [awaitWithin, h.not_pending]
  rfl

end Knows

/-- A conversation without callbacks that has ended is closed in three steps, and then its end is
known. -/
theorem closes {s : Session} {n : Nat} {x : Exchange} (hx : s.exchanges.get? n = some x)
    (hended : x.conversation.ended = true) (hclosing : x.conversation.completion = .closing)
    (hsilent : ∀ r, x.callbacks.script? r = none) (hn : n < s.nextExchange) (e : Ending)
    (rest : List Frame) :
    ∃ s', Machine.run 3 ⟨.close n e :: rest, s⟩ = ⟨rest, s'⟩ ∧ s'.Knows n e := by
  have hkeeps := s.unregister_keeps n
  have hx' : (s.unregister n).exchanges.get? n = some x := hkeeps.exchanges ▸ hx
  have hclose : s.perform (.close n e) =
      ([.report (some n) x.callbacks (.ended e), .resolve n e], s.unregister n) := by
    simp only [perform, hx]
  have hresolve : (s.unregister n).resolve n e =
      (s.unregister n).setConversation n { x.conversation with completion := .resolved e } := by
    simp only [resolve, hx', hclosing]
  refine ⟨(s.unregister n).resolve n e, ?_, ?_, ?_⟩
  · rw [Machine.run_perform hclose, List.cons_append,
      Machine.run_perform (perform_report hsilent _ _ _), List.nil_append, List.cons_append,
      Machine.run_perform (f := .resolve n e) rfl, List.nil_append, List.nil_append, Machine.run]
  · rw [hresolve]
    exact hkeeps.nextExchange ▸ hn
  · have hchanged := (Changed.refl hx').setConversation
      { x.conversation with completion := .resolved e }
    rw [hresolve]
    exact ⟨_, hchanged.self, hended, rfl⟩

/-- The timer for answers closes the conversation that keeps it. -/
theorem fire_of_kept {s : Session} {t : Timer} {x : Exchange}
    (hx : s.exchanges.get? t.owner = some x) (hkind : t.kind = .response)
    (hthere : s.isAbandoned t.owner x = false) (hopen : x.conversation.ended = false)
    (hkept : x.conversation.responseTimer = some t.id) :
    ∃ d s', s.fire x.desk t = ([.close t.owner (x.conversation.ending .responseTimeout)], s') ∧
      Changed s t.owner x d s' ∧ d.ended = true ∧ d.completion = .closing := by
  have hcancelled : Changed s t.owner x x.conversation
      (s.setTimers x.desk ((s.desk x.desk).timers.cancel t.id)) :=
    (Changed.refl hx).keeps (s.setTimers_keeps _ _)
  have hthere' : (s.setTimers x.desk ((s.desk x.desk).timers.cancel t.id)).isAbandoned t.owner x =
      false := by
    rw [← hthere]
    cases hd : x.desk <;> simp [isAbandoned, isRegistered, setTimers, setDesk, inbox, desk, hd]
  obtain ⟨v, hfires, hended, hclosing⟩ : ∃ v,
      ((s.setTimers x.desk ((s.desk x.desk).timers.cancel t.id)).watch x).onResponseTimer t.id =
        some (v, x.conversation.ending .responseTimeout) ∧
      v.conversation.ended = true ∧ v.conversation.completion = .closing :=
    ⟨_, Watch.onResponseTimer_of_kept hopen hkept, rfl, rfl⟩
  refine ⟨_, _, ?_, hcancelled.putWatch x.desk v, hended, hclosing⟩
  simp only [fire, hcancelled.self, hthere', hkind, hfires, Bool.false_eq_true, if_false]

end Session
end Colloquy
