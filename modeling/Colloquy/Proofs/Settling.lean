/-
What the broker is told about a delivery.

A delivery whose message cannot be read or has expired is rejected, and no handler hears of it.
Any other one comes to the handler of its consumer.  Whatever calls the handler makes on the
receipt, and however it comes out, the broker is told at most once: the first call that counts,
or else what the way it came out stands for.  It is told nothing only if no call counted and the
handler forbade the library to settle.

`Passes` says what the broker was told between two sessions, and which messages came to scripts.
The broker is as these calls leave it, and if it shows what it is told, it has shown these calls and
no others.
-/
import Colloquy.Proofs.Receipts
import Colloquy.Proofs.Traffic

namespace Colloquy

namespace Trace

/-- The settlements that a broker has shown, each with its topic. -/
def settlings (t : Trace) : List (Settlement × String) :=
  t.filterMap fun
    | .happening (.settled x topic) => some (x, topic)
    | _ => none

/-- The messages that have come to scripts, each with its topic and whether it came again. -/
def handlings (t : Trace) : List (String × Message × Bool) :=
  t.filterMap fun
    | .happening (.handled topic m redelivered) => some (topic, m, redelivered)
    | _ => none

@[simp] theorem settlings_append (t u : Trace) : settlings (t ++ u) = settlings t ++ settlings u :=
  List.filterMap_append ..

@[simp] theorem handlings_append (t u : Trace) : handlings (t ++ u) = handlings t ++ handlings u :=
  List.filterMap_append ..

theorem settlings_notes (ns : List Note) : settlings (ns.map .note) = [] := by
  induction ns with
  | nil => rfl
  | cons n ns ih => exact ih

theorem handlings_notes (ns : List Note) : handlings (ns.map .note) = [] := by
  induction ns with
  | nil => rfl
  | cons n ns ih => exact ih

end Trace

namespace Broker

variable {σ : Type}

/-- What a broker shows of what it is told. -/
def shows (topic : String) : Broker σ → List Settlement → List (Settlement × String)
  | memory _, _ => []
  | manual _, xs => xs.map (·, topic)

theorem settle_shows (b : Broker σ) (x : Settlement) (topic : String) (body : Bytes) :
    Trace.settlings (b.settle x topic body).2 = b.shows topic [x] ∧
      Trace.handlings (b.settle x topic body).2 = [] := by
  cases b <;> exact ⟨rfl, rfl⟩

theorem shows_append (b : Broker σ) (topic : String) (xs ys : List Settlement) :
    b.shows topic (xs ++ ys) = b.shows topic xs ++ b.shows topic ys := by
  cases b with
  | memory m => rfl
  | manual m => exact List.map_append

theorem told_shows (b : Broker σ) (topic : String) (body : Bytes) (x : Settlement) :
    (b.told topic body x).shows topic = b.shows topic := by
  unfold told
  cases b with
  | memory m => rfl
  | manual m =>
    simp only [settle]
    cases m.settle x topic body <;> rfl

theorem foldl_told_shows (topic : String) (body : Bytes) (xs : List Settlement) (b : Broker σ) :
    (xs.foldl (told topic body) b).shows topic = b.shows topic := by
  induction xs generalizing b with
  | nil => rfl
  | cons x xs ih => exact (ih _).trans (told_shows b topic body x)

end Broker

namespace Session

/-- Between `s` and `s'` these messages came to scripts, and the broker was told this about a
delivery of `body` on `topic`, and nothing else about any delivery. -/
structure Passes (topic : String) (body : Bytes) (s : Session)
    (handled : List (String × Message × Bool)) (told : List Settlement) (s' : Session) : Prop where
  broker : s'.channels.broker = told.foldl (Broker.told topic body) s.channels.broker
  shown : s'.channels.trace.settlings =
    s.channels.trace.settlings ++ s.channels.broker.shows topic told
  handled : s'.channels.trace.handlings = s.channels.trace.handlings ++ handled

variable {topic : String} {body : Bytes} {s s' s'' : Session} {n : Nat} {d : Delivery}
  {handled handled' : List (String × Message × Bool)} {told told' : List Settlement}

theorem Passes.trans (h : Passes topic body s handled told s')
    (h' : Passes topic body s' handled' told' s'') :
    Passes topic body s (handled ++ handled') (told ++ told') s'' where
  broker := by rw [h'.broker, h.broker, List.foldl_append]
  shown := by
    rw [h'.shown, h.shown, h.broker, Broker.foldl_told_shows, Broker.shows_append,
      List.append_assoc]
  handled := by rw [h'.handled, h.handled, List.append_assoc]

/-- The broker is as it was, and nothing of this kind is in what is recorded. -/
theorem passes_record {t : Trace} (hs : t.settlings = [])
    (hb : s'.channels.broker = s.channels.broker) (ht : s'.channels.trace = s.channels.trace ++ t) :
    Passes topic body s t.handlings [] s' where
  broker := hb
  shown := by
    rw [ht, Trace.settlings_append, hs]
    cases s.channels.broker <;> rfl
  handled := by rw [ht, Trace.handlings_append]

theorem passes_of_same (hb : s'.channels.broker = s.channels.broker)
    (ht : s'.channels.trace = s.channels.trace) : Passes topic body s [] [] s' :=
  passes_record (t := []) rfl hb (ht.trans (List.append_nil _).symm)

theorem passes_note (note : Note) : Passes topic body s [] [] (s.note note) :=
  passes_record (t := [.note note]) rfl rfl rfl

/-! ## Calls on a receipt -/

theorem forward_passes (hbody : d.body = some body) (x : Settlement) :
    Passes d.receipt.topic body s [] [x] (s.forward d x) := by
  obtain ⟨hshown, hhandled⟩ := s.channels.broker.settle_shows x d.receipt.topic body
  unfold forward
  simp only [hbody]
  split
  · rename_i b t hsettle
    rw [hsettle] at hshown hhandled
    refine ⟨?_, ?_, ?_⟩
    · simp only [List.foldl_cons, List.foldl_nil, Broker.told, hsettle]
      rfl
    · simp [record, Channels.record, hshown]
    · simp [record, Channels.record, hhandled]
  · rename_i why t hsettle
    rw [hsettle] at hshown hhandled
    refine ⟨?_, ?_, ?_⟩
    · simp only [List.foldl_cons, List.foldl_nil, Broker.told, hsettle]
      rfl
    · simp [note, record, Channels.record, hshown]
      rfl
    · simp [note, record, Channels.record, hhandled]
      rfl

theorem forward_deliveries (s : Session) (d : Delivery) (x : Settlement) :
    (s.forward d x).deliveries = s.deliveries := by
  unfold forward
  split
  · simp only
    split <;> rfl
  · split <;> rfl

/-- A session in which it is written down how a call on a receipt came out. -/
def write (s : Session) (n : Nat) (d : Delivery) (o : Receipt.Outcome) : Session :=
  ({ s with deliveries := s.deliveries.put n { d with receipt := o.receipt } } : Session).record
    (o.notes.map .note)

theorem settle_eq (hd : s.deliveries.get? n = some d) (c : Receipt.Call) :
    s.settle n c = match (d.receipt.call c).forward with
      | some x => (s.write n d (d.receipt.call c)).forward
          { d with receipt := (d.receipt.call c).receipt } x
      | none => s.write n d (d.receipt.call c) := by
  simp only [settle, hd]
  rfl

theorem write_passes (s : Session) (n : Nat) (d : Delivery) (o : Receipt.Outcome) :
    Passes topic body s [] [] (s.write n d o) := by
  rw [← Trace.handlings_notes o.notes]
  exact passes_record (Trace.settlings_notes o.notes) rfl rfl

theorem settle_deliveries (hd : s.deliveries.get? n = some d) (c : Receipt.Call) :
    (s.settle n c).deliveries =
      s.deliveries.put n { d with receipt := (d.receipt.call c).receipt } := by
  rw [settle_eq hd]
  split
  · exact forward_deliveries _ _ _
  · rfl

/-- A call on a receipt passes on what the receipt forwards. -/
theorem settle_passes (hd : s.deliveries.get? n = some d) (hbody : d.body = some body)
    (c : Receipt.Call) :
    Passes d.receipt.topic body s [] (d.receipt.call c).forward.toList (s.settle n c) := by
  rw [settle_eq hd]
  cases (d.receipt.call c).forward with
  | none => exact write_passes s n d _
  | some x =>
    have htold := forward_passes (s := s.write n d (d.receipt.call c))
      (d := { d with receipt := (d.receipt.call c).receipt }) hbody x
    rw [(d.receipt.call_fields c).1] at htold
    exact (write_passes s n d _).trans htold

theorem settle_nextDelivery (s : Session) (n : Nat) (c : Receipt.Call) :
    (s.settle n c).nextDelivery = s.nextDelivery := by
  unfold settle
  split
  · rfl
  · simp only
    split
    · unfold forward
      split
      · simp only
        split <;> rfl
      · split <;> rfl
    · rfl

/-- Between `s` and `s'` these calls were made on the receipt `r` of a delivery. -/
structure Called (n : Nat) (body : Bytes) (r : Receipt) (s : Session) (cs : List Receipt.Call)
    (s' : Session) : Prop where
  passes : Passes r.topic body s [] (r.forwarded cs) s'
  delivery : s'.deliveries.get? n = some { receipt := r.after cs, body := some body }
  nextDelivery : s'.nextDelivery = s.nextDelivery

namespace Called

variable {r : Receipt} {cs ds : List Receipt.Call}

theorem trans (h : Called n body r s cs s') (h' : Called n body (r.after cs) s' ds s'') :
    Called n body r s (cs ++ ds) s'' where
  passes := by
    have hpasses := h'.passes
    rw [(r.after_fields cs).1] at hpasses
    rw [r.forwarded_append]
    exact h.passes.trans hpasses
  delivery := by
    rw [r.after_append]
    exact h'.delivery
  nextDelivery := h'.nextDelivery.trans h.nextDelivery

theorem settle (hd : s.deliveries.get? n = some { receipt := r, body := some body })
    (c : Receipt.Call) : Called n body r s [c] (s.settle n c) where
  passes := by
    rw [Receipt.forwarded, Receipt.forwarded, List.append_nil]
    exact settle_passes hd rfl c
  delivery := by
    rw [settle_deliveries hd]
    exact Table.get?_put_self _ _ _
  nextDelivery := s.settle_nextDelivery n c

/-- No call was made. -/
theorem silent (hd : s.deliveries.get? n = some { receipt := r, body := some body })
    (h : Passes r.topic body s [] [] s') (hs : s'.deliveries = s.deliveries)
    (hn : s'.nextDelivery = s.nextDelivery) : Called n body r s [] s' :=
  ⟨h, hs ▸ hd, hn⟩

theorem note (hd : s.deliveries.get? n = some { receipt := r, body := some body }) (why : Note) :
    Called n body r s [] (s.note why) :=
  silent hd (passes_note why) rfl rfl

end Called

end Session

/-! ## Handlers -/

/-- What the library tells the broker if the handler of a delivery did not. -/
def Outcome.settlement : Outcome → Settlement
  | .done => .confirm
  | .failed _ => .retry
  | .panicked _ => .reject

/-- A handler that does nothing but call its receipt, or keep it for later, and then comes out in
some way. -/
structure Conduct where
  deeds : List (Option Receipt.Call)
  outcome : Outcome

namespace Conduct

def deed : Option Receipt.Call → Action
  | some call => .settle call
  | none => .hold

def ending : Outcome → List Action
  | .done => []
  | .failed reason => [.fail reason]
  | .panicked reason => [.panic reason]

/-- The script of a handler. -/
def actions (c : Conduct) : List Action := c.deeds.map deed ++ ending c.outcome

def calls (c : Conduct) : List Receipt.Call := c.deeds.filterMap id

/-- What the broker is to be told about a delivery with a handler: the first call that counts, or
else what the outcome stands for, unless the handler forbade that in the end. -/
def due (c : Conduct) (redelivered : Bool) : List Settlement :=
  match Receipt.effective true c.calls with
  | some x => [x.bounded redelivered]
  | none =>
    if Receipt.autoAfter true c.calls then [c.outcome.settlement.bounded redelivered] else []

theorem forwarded_eq_due (c : Conduct) (topic : String) (redelivered : Bool) :
    Receipt.forwarded { topic, redelivered } (c.calls ++ [.automatic c.outcome.settlement]) =
      c.due redelivered := by
  rw [Receipt.forwarded_eq_effective rfl, Receipt.effective_append, due]
  cases Receipt.effective true c.calls with
  | some x => rfl
  | none => cases Receipt.autoAfter true c.calls <;> rfl

end Conduct

namespace Machine

/-- By itself `m` comes to `m'`. -/
def ComesTo (m m' : Machine) : Prop := ∃ n, m.run n = m'

variable {m m' m'' : Machine}

theorem ComesTo.refl (m : Machine) : m.ComesTo m := ⟨0, rfl⟩

theorem ComesTo.step (h : m.step? = some m') (h' : m'.ComesTo m'') : m.ComesTo m'' := by
  obtain ⟨n, hn⟩ := h'
  exact ⟨n + 1, by simp only [run, h, hn]⟩

theorem ComesTo.trans (h : m.ComesTo m') (h' : m'.ComesTo m'') : m.ComesTo m'' := by
  obtain ⟨n, hn⟩ := h
  induction n generalizing m with
  | zero =>
    cases hn
    exact h'
  | succ n ih =>
    unfold run at hn
    split at hn
    · rename_i hstep
      exact .step hstep (ih hn)
    · cases hn
      exact h'

end Machine

namespace Session

open Machine (ComesTo)

variable {body : Bytes} {s : Session} {n : Nat} {r : Receipt} {rest : List Frame} {scope : Scope}
  {g : Guard}

/-- The calls of a handler on its receipt are made one after the other. -/
theorem deeds_called (hscope : scope.delivery = some n) (deeds : List (Option Receipt.Call))
    (more : List Action) (hd : s.deliveries.get? n = some { receipt := r, body := some body }) :
    ∃ s', ComesTo ⟨.script scope (deeds.map Conduct.deed ++ more) g :: rest, s⟩
        ⟨.script scope more g :: rest, s'⟩ ∧ Called n body r s (deeds.filterMap id) s' := by
  induction deeds generalizing s r with
  | nil => exact ⟨s, .refl _, .silent hd (passes_of_same rfl rfl) rfl rfl⟩
  | cons a deeds ih =>
    cases a with
    | none =>
      have hheld : Called n body r s [] { s with held := s.held ++ [n] } :=
        .silent hd (passes_of_same rfl rfl) rfl rfl
      obtain ⟨s', hcomes, hcalled⟩ := ih hheld.delivery
      refine ⟨s', .step ?_ hcomes, hheld.trans hcalled⟩
      simp [Machine.step?, perform, advance, act, Conduct.deed, hscope]
    | some c =>
      have hfirst := Called.settle hd c
      obtain ⟨s', hcomes, hcalled⟩ := ih hfirst.delivery
      refine ⟨s', .step ?_ hcomes, hfirst.trans hcalled⟩
      simp [Machine.step?, perform, advance, act, Conduct.deed, hscope]

/-- After the calls of a handler comes the one that its outcome stands for. -/
theorem conduct_called (c : Conduct) (hscope : scope.delivery = some n) (id : String)
    (hd : s.deliveries.get? n = some { receipt := r, body := some body }) :
    ∃ s', ComesTo ⟨.script scope c.actions (.delivery n id) :: rest, s⟩ ⟨rest, s'⟩ ∧
      Called n body r s (c.calls ++ [.automatic c.outcome.settlement]) s' := by
  obtain ⟨s₁, hcomes, hcalled⟩ : ∃ s₁,
      ComesTo ⟨.script scope (c.deeds.map Conduct.deed ++ Conduct.ending c.outcome)
          (.delivery n id) :: rest, s⟩
        ⟨.script scope (Conduct.ending c.outcome) (.delivery n id) :: rest, s₁⟩ ∧
      Called n body r s c.calls s₁ := deeds_called hscope c.deeds _ hd
  have hlast := hcalled.delivery
  unfold Conduct.actions Conduct.calls
  cases hout : c.outcome with
  | done =>
    rw [hout] at hcomes
    exact ⟨_, hcomes.trans (.step rfl (.refl _)), hcalled.trans (.settle hlast _)⟩
  | failed reason =>
    rw [hout] at hcomes
    have hnoted := Called.note hlast (.handlerFailed
      (((s₁.deliveries.get? n).map fun d => d.receipt.topic).getD "") id reason)
    exact ⟨_, hcomes.trans (.step rfl (.step rfl (.refl _))),
      hcalled.trans (hnoted.trans (.settle hnoted.delivery (.automatic .retry)))⟩
  | panicked reason =>
    rw [hout] at hcomes
    have hnoted := Called.note hlast (.handlerPanicked
      (((s₁.deliveries.get? n).map fun d => d.receipt.topic).getD "") id)
    exact ⟨_, hcomes.trans (.step rfl (.step rfl (.refl _))),
      hcalled.trans (hnoted.trans (.settle hnoted.delivery (.automatic .reject)))⟩

/-! ## Later calls -/

/-- A delivery was made, and its receipt is settled. -/
def Settled (s : Session) (n : Nat) : Prop :=
  n < s.nextDelivery ∧ ∃ d, s.deliveries.get? n = some d ∧ d.receipt.state ≠ .pending

variable {s' : Session}

theorem Settled.of_same (h : s.Settled n) (hd : s'.deliveries = s.deliveries)
    (hn : s'.nextDelivery = s.nextDelivery) : s'.Settled n := by
  unfold Settled
  rw [hd, hn]
  exact h

theorem Settled.settle (h : s.Settled n) (k : Nat) (c : Receipt.Call) :
    (s.settle k c).Settled n := by
  obtain ⟨hlt, d, hd, hstate⟩ := h
  cases hk : s.deliveries.get? k with
  | none =>
    have hsame : s.settle k c = s := by simp only [Session.settle, hk]
    rw [hsame]
    exact ⟨hlt, d, hd, hstate⟩
  | some d' =>
    refine ⟨by rwa [settle_nextDelivery], ?_⟩
    rw [settle_deliveries hk]
    by_cases hnk : n = k
    · subst hnk
      cases hd.symm.trans hk
      refine ⟨_, Table.get?_put_self _ _ _, ?_⟩
      exact (Receipt.call_of_settled hstate c).1.symm ▸ hstate
    · exact ⟨d, by rw [Table.get?_put_ne _ hnk, hd], hstate⟩

theorem Settled.accept (h : s.Settled n) (receipt : Receipt) (body : Option Bytes) :
    (s.accept receipt body).2.Settled n := by
  obtain ⟨hlt, d, hd, hstate⟩ := h
  refine ⟨Nat.lt_succ_of_lt hlt, d, ?_, hstate⟩
  exact (Table.get?_put_ne _ (Nat.ne_of_lt hlt) _).trans hd

theorem Settled.note (h : s.Settled n) (why : Note) : (s.note why).Settled n := h.of_same rfl rfl

theorem Settled.withBroker (h : s.Settled n) (b : Broker Subscriber) :
    (s.withBroker b).Settled n :=
  h.of_same rfl rfl

theorem putWatch_deliveries (s : Session) (n : Nat) (desk : DeskName) (w : Watch) :
    (s.putWatch n desk w).deliveries = s.deliveries ∧
      (s.putWatch n desk w).nextDelivery = s.nextDelivery := by
  cases desk <;> exact ⟨rfl, rfl⟩

theorem Settled.handle (h : s.Settled n) (k : Nat) (m : Message) : (s.handle k m).2.Settled n := by
  unfold Session.handle
  split
  · exact h
  · split
    · exact h
    · exact h.of_same (putWatch_deliveries _ _ _ _).1 (putWatch_deliveries _ _ _ _).2

theorem Settled.dispatch (h : s.Settled n) (handler : Handler) (k : Nat) (redelivered : Bool)
    (m : Message) : (s.dispatch handler k redelivered m).2.Settled n := by
  cases handler with
  | script topic actions => exact h.of_same rfl rfl
  | inbox desk topic =>
    show (s.arrive desk topic k m).2.Settled n
    unfold arrive
    split
    · exact h.handle _ m
    · exact (h.note _).settle k _
  | server sv => exact h.of_same rfl rfl

/-- A session in which a delivery to a consumer was entered. -/
def received (s : Session) (k : Consumer Handler) (e : Envelope) : Session :=
  let s := (s.accept { topic := k.topic, redelivered := e.redelivered } (some e.body)).2
  { s with channels := s.channels.monitor .received k.topic }

theorem consume_eq (s : Session) (k : Consumer Handler) (e : Envelope) :
    s.consume k e = match k.admit s.now e.body with
      | .undecodable why => ([], ((s.received k e).note (.undecodable k.topic why)).settle
          s.nextDelivery (.automatic .reject))
      | .expired m => ([], ((s.received k e).note (.expired m.correlation m.id k.topic)).settle
          s.nextDelivery (.automatic .reject))
      | .unhandled m => ([], ((s.received k e).note (.unhandled k.topic m.id)).settle
          s.nextDelivery (.automatic .reject))
      | .admitted m h => (s.received k e).dispatch h s.nextDelivery e.redelivered m := rfl

/-- What becomes of a delivery to a consumer: it is dropped, or comes to the handler. -/
theorem consume_cases (s : Session) (k : Consumer Handler) (e : Envelope) :
    (∃ m h, Message.decode e.body = .ok m ∧ m.isExpired s.now = false ∧ k.handler = some h ∧
        s.consume k e = (s.received k e).dispatch h s.nextDelivery e.redelivered m) ∨
      (∀ m, Message.decode e.body = .ok m → m.isExpired s.now = true ∨ k.handler = none) ∧
        ∃ why, s.consume k e =
          ([], ((s.received k e).note why).settle s.nextDelivery (.automatic .reject)) := by
  rw [consume_eq]
  unfold Consumer.admit
  cases hdecode : Message.decode e.body with
  | error f =>
    refine .inr ⟨?_, _, rfl⟩
    rintro _ ⟨⟩
  | ok m =>
    cases hexpired : m.isExpired s.now with
    | true =>
      refine .inr ⟨?_, ?_⟩
      · rintro _ ⟨⟩
        exact .inl hexpired
      · simp only [hexpired, if_true]
        exact ⟨_, rfl⟩
    | false =>
      simp only [hexpired, if_false, Bool.false_eq_true]
      cases hhandler : k.handler with
      | none =>
        refine .inr ⟨?_, _, rfl⟩
        rintro _ ⟨⟩
        exact .inr rfl
      | some h => exact .inl ⟨m, h, rfl, hexpired, rfl, rfl⟩

theorem Settled.received (h : s.Settled n) (k : Consumer Handler) (e : Envelope) :
    (s.received k e).Settled n :=
  (h.accept _ _).of_same rfl rfl

theorem Settled.consume (h : s.Settled n) (k : Consumer Handler) (e : Envelope) :
    (s.consume k e).2.Settled n := by
  obtain ⟨m, handler, -, -, -, hc⟩ | ⟨-, why, hc⟩ := s.consume_cases k e
  · rw [hc]
    exact (h.received k e).dispatch _ _ _ _
  · rw [hc]
    exact ((h.received k e).note why).settle _ _

theorem settleRaw_deliveries (s : Session) (topic : String) (body : Bytes) (x : Settlement) :
    (s.settleRaw topic body x).2.deliveries = s.deliveries ∧
      (s.settleRaw topic body x).2.nextDelivery = s.nextDelivery := by
  unfold settleRaw
  split <;> exact ⟨rfl, rfl⟩

theorem actRaw_deliveries (s : Session) (topic : String) (e : Envelope) (a : RawAction) :
    (s.actRaw topic e a).deliveries = s.deliveries ∧
      (s.actRaw topic e a).nextDelivery = s.nextDelivery := by
  cases a with
  | settle x => exact s.settleRaw_deliveries topic e.body x
  | retryOnce => exact s.settleRaw_deliveries topic e.body _
  | unsubscribe t =>
    unfold actRaw unsubscribeRaw
    simp only
    split <;> exact ⟨rfl, rfl⟩
  | publish t text =>
    unfold actRaw publishRaw
    simp only
    split <;> exact ⟨rfl, rfl⟩
  | hold => exact ⟨rfl, rfl⟩

theorem Settled.deliver (h : s.Settled n) (subscriber : Subscriber) (topic : String)
    (e : Envelope) : (s.deliver subscriber topic e).2.Settled n := by
  cases subscriber with
  | raw t actions =>
    have hacts : ∀ s : Session, s.Settled n →
        (actions.foldl (fun s a => s.actRaw t e a) s).Settled n := by
      induction actions with
      | nil => exact fun s hs => hs
      | cons a actions ih =>
        intro s hs
        exact ih _ (hs.of_same (s.actRaw_deliveries t e a).1 (s.actRaw_deliveries t e a).2)
    exact hacts _ (h.of_same rfl rfl)
  | consumer k =>
    unfold Session.deliver
    simp only
    split
    · exact h.consume _ e
    · exact h.of_same (s.settleRaw_deliveries topic e.body _).1
        (s.settleRaw_deliveries topic e.body _).2

/-- A delivery that is settled stays so, whatever else happens. -/
theorem Settled.traffic (h : s.Settled n) {log : List Incident} (ht : s.Traffic log s') :
    s'.Settled n := by
  induction ht with
  | channels _ hd hn => exact h.of_same hd hn
  | settle s k call => exact h.settle k call
  | accept s receipt => exact h.accept receipt none
  | deliver _ _ => exact (h.withBroker _).deliver _ _ _
  | stop _ _ => exact h.withBroker _
  | finish _ _ => exact h.withBroker _
  | raw s b => exact h.withBroker b
  | byHand s subscriber topic e => exact h.deliver subscriber topic e
  | andThen _ _ ih ih' => exact ih' (ih h)

/-- No call on the receipt of a settled delivery reaches the broker. -/
theorem Settled.silent (h : s.Settled n) (topic : String) (body : Bytes) (c : Receipt.Call) :
    Passes topic body s [] [] (s.settle n c) := by
  obtain ⟨-, d, hd, hstate⟩ := h
  rw [settle_eq hd, (Receipt.call_of_settled hstate c).2]
  exact write_passes s n d _

/-! ## What the broker is told -/

theorem received_passes (k : Consumer Handler) (e : Envelope) (topic : String) (body : Bytes) :
    Passes topic body s [] [] (s.received k e) := by
  unfold received Channels.monitor
  simp only
  split
  · exact passes_of_same rfl rfl
  · exact passes_record (t := [.happening (.monitored .received k.topic)]) rfl rfl rfl
  · exact passes_of_same rfl rfl

theorem received_delivery (s : Session) (k : Consumer Handler) (e : Envelope) :
    (s.received k e).deliveries.get? s.nextDelivery =
      some { receipt := { topic := k.topic, redelivered := e.redelivered }, body := some e.body } :=
  Table.get?_put_self _ _ _

/-- A delivery whose message cannot be read or has expired is rejected without any handler, and so
is one that finds no handler.  Of any other delivery the broker is told just what is due when its
handler comes out, and if it was told something the delivery is settled.  No later call on the
receipt of a settled delivery reaches the broker. -/
theorem delivery_settled_once (s : Session) (k : Consumer Handler) (e : Envelope)
    (rest : List Frame) :
    ((∀ m, Message.decode e.body = .ok m → m.isExpired s.now = true ∨ k.handler = none) →
      (s.consume k e).1 = [] ∧ Passes k.topic e.body s [] [.reject] (s.consume k e).2) ∧
    (∀ (m : Message) (topic : String) (c : Conduct), Message.decode e.body = .ok m →
      m.isExpired s.now = false → k.handler = some (.script topic c.actions) →
      ∃ s', ComesTo ⟨(s.consume k e).1 ++ rest, (s.consume k e).2⟩ ⟨rest, s'⟩ ∧
        Passes k.topic e.body s [(topic, m, e.redelivered)] (c.due e.redelivered) s' ∧
        (c.due e.redelivered ≠ [] → s'.Settled s.nextDelivery)) ∧
    ∀ (t t' : Session) (n : Nat) (log : List Incident), t.Settled n → t.Traffic log t' →
      ∀ topic body call, Passes topic body t' [] [] (t'.settle n call) := by
  have hreceived := s.received_passes k e k.topic e.body
  have hdelivery := s.received_delivery k e
  have hlater : ∀ (t t' : Session) (n : Nat) (log : List Incident), t.Settled n →
      t.Traffic log t' → ∀ topic body call, Passes topic body t' [] [] (t'.settle n call) :=
    fun t t' n log ht htraffic topic body call => (ht.traffic htraffic).silent topic body call
  obtain ⟨m', h, hdecode', hexpired', hhandler', hc⟩ | ⟨hdropped, why, hc⟩ := s.consume_cases k e
  · refine ⟨fun hdropped => ?_, fun m topic c hdecode hexpired hhandler => ?_, hlater⟩
    · obtain hexpired | hnone := hdropped m' hdecode'
      · exact absurd (hexpired.symm.trans hexpired') (by decide)
      · exact absurd (hnone.symm.trans hhandler') (by simp)
    · cases hdecode'.symm.trans hdecode
      cases hhandler'.symm.trans hhandler
      have hhandled : Passes k.topic e.body (s.received k e) [(topic, m', e.redelivered)] []
          ((s.received k e).happen (.handled topic m' e.redelivered)) :=
        passes_record (t := [.happening (.handled topic m' e.redelivered)]) rfl rfl rfl
      have hentered : ((s.received k e).happen
          (.handled topic m' e.redelivered)).deliveries.get? s.nextDelivery = _ := hdelivery
      obtain ⟨s', hcomes, hcalled⟩ : ∃ s',
          ComesTo ⟨.script { delivery := some s.nextDelivery } c.actions
            (.delivery s.nextDelivery m'.id) :: rest, _⟩ ⟨rest, s'⟩ ∧ Called _ _ _ _ _ s' :=
        conduct_called c rfl m'.id hentered
      have hpasses := hcalled.passes
      rw [c.forwarded_eq_due] at hpasses
      refine ⟨s', hc ▸ hcomes, (hreceived.trans hhandled).trans hpasses, fun hdue => ?_⟩
      refine ⟨?_, _, hcalled.delivery, Receipt.after_settled (by rwa [c.forwarded_eq_due])⟩
      rw [hcalled.nextDelivery]
      exact Nat.lt_succ_self _
  · refine ⟨fun _ => ?_, fun m topic c hdecode hexpired hhandler => ?_, hlater⟩
    · rw [hc]
      refine ⟨rfl, ?_⟩
      have hnoted := Called.note hdelivery why
      exact hreceived.trans (hnoted.trans (.settle hnoted.delivery (.automatic .reject))).passes
    · obtain hexpired' | hnone := hdropped m hdecode
      · exact absurd (hexpired.symm.trans hexpired') (by decide)
      · exact absurd (hnone.symm.trans hhandler) (by simp)

/-- A text that can be read, as a message that has not expired. -/
theorem readable {body : Bytes} {now : Instant}
    (h : (Message.decode body).toOption.any (!·.isExpired now) = true) :
    ∃ m, Message.decode body = .ok m ∧ m.isExpired now = false := by
  cases hdecode : Message.decode body with
  | error why =>
    rw [hdecode] at h
    cases h
  | ok m =>
    rw [hdecode] at h
    exact ⟨m, rfl, by simpa [Except.toOption] using h⟩

/-- A short message. -/
def greeting : Bytes :=
  Utf8.encode "[\"m\",\"c\",[],[\"t\"],[null,[1,0],null,null,[\"\",\"\",\"\",\"\",7]],null,1]"

theorem greeting_readable :
    ∃ m, Message.decode greeting = .ok m ∧ m.isExpired .epoch = false :=
  readable (by decide +kernel)

/-- It keeps its receipt, forbids the library to settle, has it try all the same, asks twice for the
message to come again, and panics. -/
def unruly : Conduct where
  deeds := [none, some (.setAuto false), some (.automatic .confirm), some (.explicit .retry),
    some (.explicit .retry)]
  outcome := .panicked none

/-- A session with a broker that delivers by hand. -/
def byHand : Session where
  channels := { broker := .manual {} }
  start := .epoch

def unrulyConsumer : Consumer Handler where
  topic := "t"
  handler := some (.script "t" unruly.actions)

theorem unruly_delivery_settled_once :
    ∃ (m : Message) (s' : Session), Message.decode greeting = .ok m ∧
      m.isExpired byHand.now = false ∧
      ComesTo ⟨(byHand.consume unrulyConsumer ⟨greeting, true⟩).1 ++ [],
        (byHand.consume unrulyConsumer ⟨greeting, true⟩).2⟩ ⟨[], s'⟩ ∧
      Passes "t" greeting byHand [("t", m, true)] [.reject] s' ∧ s'.Settled 0 ∧
      ∀ log s'', s'.Traffic log s'' → ∀ call,
        Passes "t" greeting s'' [] [] (s''.settle 0 call) := by
  obtain ⟨m, hdecode, hexpired⟩ := greeting_readable
  -- From here on the text is not to be looked into.
  generalize greeting = body at hdecode ⊢
  have hdue : unruly.due true = [.reject] := by decide
  obtain ⟨-, hhandled, hlater⟩ := byHand.delivery_settled_once unrulyConsumer ⟨body, true⟩ []
  obtain ⟨s', hcomes, hpasses, hsettled⟩ := hhandled m "t" unruly hdecode hexpired rfl
  have hdone : s'.Settled 0 := hsettled (by simp [hdue])
  exact ⟨m, s', hdecode, hexpired, hcomes, hdue ▸ hpasses, hdone,
    fun log s'' ht call => hlater s' s'' 0 log hdone ht "t" body call⟩

end Session
end Colloquy
