/-
What only the application changes: how late it is, and what it waits for.

Nothing that a session does for a command or a delivery takes time.  Time passes only where the
application lets it, and what a timer sets going is done before the clock goes on.  Nor does a
session change the names of what is waited for.  Of each operation there is one lemma here, for both
together, and `settleAll_bearings` puts them together.
-/
import Colloquy.Session.Clock

namespace Colloquy
namespace Session

/-- The clock, and what the application waits for by name. -/
def bearings (s : Session) : Nat × Table String Handle := (s.clock, s.handles)

variable (s : Session)

/-! ## Parts -/

@[simp] theorem record_bearings (t : Trace) : (s.record t).bearings = s.bearings := rfl

@[simp] theorem note_bearings (n : Note) : (s.note n).bearings = s.bearings := rfl

@[simp] theorem setDesk_bearings (d : Desk) (name : DeskName) :
    (s.setDesk d name).bearings = s.bearings := by
  cases name <;> rfl

@[simp] theorem setTimers_bearings (name : DeskName) (t : Timers) :
    (s.setTimers name t).bearings = s.bearings :=
  s.setDesk_bearings _ name

@[simp] theorem setInbox_bearings (name : DeskName) (i : Inbox) :
    (s.setInbox name i).bearings = s.bearings :=
  s.setDesk_bearings _ name

@[simp] theorem setConversation_bearings (n : Nat) (c : Conversation) :
    (s.setConversation n c).bearings = s.bearings := rfl

@[simp] theorem putWatch_bearings (n : Nat) (name : DeskName) (w : Watch) :
    (s.putWatch n name w).bearings = s.bearings := by
  simp only [putWatch, record_bearings, setTimers_bearings, setConversation_bearings]

/-! ## Deliveries -/

@[simp] theorem forward_bearings (d : Delivery) (x : Settlement) :
    (s.forward d x).bearings = s.bearings := by
  unfold forward
  split
  · dsimp only
    split <;> rfl
  · split <;> rfl

@[simp] theorem settle_bearings (n : Nat) (call : Receipt.Call) :
    (s.settle n call).bearings = s.bearings := by
  unfold settle
  split
  · rfl
  · dsimp only
    split
    · rw [forward_bearings]
      rfl
    · rfl

@[simp] theorem settleRaw_bearings (topic : String) (body : Bytes) (x : Settlement) :
    (s.settleRaw topic body x).2.bearings = s.bearings := by
  unfold settleRaw
  split <;> rfl

@[simp] theorem publishRaw_bearings (topic : String) (key : Option String) (body : Bytes) :
    (s.publishRaw topic key body).2.bearings = s.bearings := by
  unfold publishRaw
  split <;> rfl

@[simp] theorem unsubscribeRaw_bearings (topic : String) :
    (s.unsubscribeRaw topic).2.bearings = s.bearings := by
  unfold unsubscribeRaw
  split <;> rfl

@[simp] theorem actRaw_bearings (topic : String) (e : Envelope) (a : RawAction) :
    (s.actRaw topic e a).bearings = s.bearings := by
  cases a with
  | hold => rfl
  | _ => simp only [actRaw, settleRaw_bearings, publishRaw_bearings, unsubscribeRaw_bearings]

theorem foldl_actRaw_bearings (topic : String) (e : Envelope) (actions : List RawAction) :
    (actions.foldl (fun s a => s.actRaw topic e a) s).bearings = s.bearings := by
  induction actions generalizing s with
  | nil => rfl
  | cons a rest ih => exact (ih _).trans (s.actRaw_bearings topic e a)

/-! ## Conversations -/

@[simp] theorem place_bearings (desk : DeskName) (correlation topic : String) (terms : Terms)
    (callbacks : Callbacks) :
    (s.place desk correlation topic terms callbacks).2.bearings = s.bearings :=
  s.setInbox_bearings desk _

@[simp] theorem register_bearings (n : Nat) : (s.register n).2.bearings = s.bearings := by
  unfold register
  split
  · rfl
  · exact s.setInbox_bearings _ _

@[simp] theorem unregister_bearings (n : Nat) : (s.unregister n).bearings = s.bearings := by
  unfold unregister
  split
  · rfl
  · exact s.setInbox_bearings _ _

@[simp] theorem listen_bearings (n : Nat) : (s.listen n).2.bearings = s.bearings := by
  unfold listen
  split
  · rfl
  · rename_i x _
    have hregister := register_bearings (s.setConversation n x.conversation.listen) n
    dsimp only
    split
    · rename_i h
      rw [h] at hregister
      exact hregister
    · rename_i h
      rw [h] at hregister
      exact hregister

@[simp] theorem wait_bearings (n : Nat) : (s.wait n).bearings = s.bearings := by
  unfold wait
  split
  · rfl
  · exact s.putWatch_bearings _ _ _

@[simp] theorem handle_bearings (n : Nat) (m : Message) :
    (s.handle n m).2.bearings = s.bearings := by
  unfold handle
  split
  · rfl
  · split
    · rfl
    · exact s.putWatch_bearings _ _ _

@[simp] theorem abort_bearings (n : Nat) (why : Failure) :
    (s.abort n why).2.bearings = s.bearings := by
  unfold abort
  split
  · rfl
  · dsimp only
    split
    · rfl
    · rw [unregister_bearings, putWatch_bearings]

@[simp] theorem resolve_bearings (n : Nat) (e : Ending) :
    (s.resolve n e).bearings = s.bearings := by
  unfold resolve
  split
  · rfl
  · split <;> rfl

/-- A timer that fires does not move the clock, which came to it before. -/
@[simp] theorem fire_bearings (desk : DeskName) (t : Timer) :
    (s.fire desk t).2.bearings = s.bearings := by
  unfold fire
  dsimp only
  repeat' split
  all_goals simp only [putWatch_bearings, setTimers_bearings]

/-! ## Requests and answers -/

@[simp] theorem requestMessage_bearings (r : Requester) (payload : Json.Value) :
    (s.requestMessage r payload).2.bearings = s.bearings := by
  unfold requestMessage
  cases r.joins <;> rfl

@[simp] theorem converse_bearings (r : Requester) (m : Message) :
    (s.converse r m).2.2.bearings = s.bearings := by
  unfold converse
  dsimp only
  have hplaced := s.place_bearings .shared m.correlation (s.origin.responseTopic r.namesp)
    (s.terms r.options) r.callbacks
  generalize s.place .shared m.correlation (s.origin.responseTopic r.namesp) (s.terms r.options)
    r.callbacks = p at hplaced
  obtain ⟨n, t⟩ := p
  have hlisten := (t.listen_bearings n).trans hplaced
  dsimp only
  split
  · rename_i h
    rw [h] at hlisten
    exact hlisten
  · rename_i h
    rw [h] at hlisten
    split
    · rw [abort_bearings]
      exact hlisten
    · rw [wait_bearings]
      exact hlisten

@[simp] theorem publish_bearings (r : Requester) (payload : Json.Value) :
    (s.publish r payload).2.2.bearings = s.bearings := by
  have hmessage := s.requestMessage_bearings r payload
  unfold publish
  generalize s.requestMessage r payload = p at hmessage
  obtain ⟨m, t⟩ := p
  dsimp only
  split
  · exact hmessage
  · split
    · rw [converse_bearings]
      exact hmessage
    · split <;> exact hmessage

@[simp] theorem respond_bearings (r : Responder) (ack : Ack) (payload : Option Json.Value) :
    (s.respond r ack payload).2.bearings = s.bearings := by
  unfold respond
  split
  · rfl
  · dsimp only
    split <;> rfl

/-! ## Frames -/

theorem shutdownContext_bearings : s.shutdownContext.2.bearings = s.bearings := by
  unfold shutdownContext
  split
  · rfl
  · split <;> rfl

theorem answering_bearings (scope : Scope) {act : Responder → Effect}
    (h : ∀ r, (act r).session.bearings = s.bearings) :
    (s.answering scope act).session.bearings = s.bearings := by
  unfold answering
  split
  · exact h _
  · rfl

theorem named_bearings (name : String) {act : Nat → Effect} (h : ∀ n,
    (act n).session.bearings = s.bearings) : 
    (s.named name act).session.bearings = s.bearings := by
  unfold named
  split
  · exact h _
  · rfl

theorem answer_bearings (r : Responder) (payload : Json.Value) :
    (s.answer r payload).session.bearings = s.bearings :=
  s.respond_bearings r _ _

theorem answerDouble_bearings (r : Responder) :
    (s.answerDouble r).session.bearings = s.bearings := by
  unfold answerDouble
  split
  · exact s.answer_bearings r _
  · split
    · exact s.answer_bearings r _
    · rfl

theorem send_bearings (requester : String) (joins : Option Message) (payload : Json.Value) :
    (s.send requester joins payload).session.bearings = s.bearings := by
  unfold send
  split
  · rfl
  · exact s.publish_bearings _ _

theorem act_bearings (scope : Scope) (a : Action) :
    (s.act scope a).session.bearings = s.bearings := by
  cases a with
  | settle call =>
    unfold act
    dsimp only
    split
    · exact s.settle_bearings _ _
    · rfl
  | hold =>
    unfold act
    dsimp only
    split <;> rfl
  | fail reason => rfl
  | failUnlessRedelivered reason =>
    unfold act
    dsimp only
    split <;> rfl
  | panic reason => rfl
  | unsubscribe topic => rfl
  | publish topic draft => rfl
  | handle name draft => exact s.named_bearings name fun n => s.handle_bearings n _
  | abort name reason => exact s.named_bearings name fun n => s.abort_bearings n _
  | listen name => exact s.named_bearings name fun n => s.listen_bearings n
  | acknowledge timeoutMs remaining =>
    exact s.answering_bearings scope fun r => s.respond_bearings r _ none
  | answer payload => exact s.answering_bearings scope fun r => s.answer_bearings r payload
  | echo => exact s.answering_bearings scope fun r => s.answer_bearings r _
  | echoNumbered index => exact s.answering_bearings scope fun r => s.answer_bearings r _
  | double => exact s.answering_bearings scope fun r => s.answerDouble_bearings r
  | holdResponder name => exact s.answering_bearings scope fun r => rfl
  | request requester payload => exact s.send_bearings requester none payload
  | chain requester payload =>
    unfold act
    dsimp only
    split
    · exact s.send_bearings requester _ payload
    · rfl
  | shutdown => exact s.shutdownContext_bearings

theorem recover_bearings (sv : Server) (r : Responder) (delivery : Nat) (reason : String) :
    (s.recover sv r delivery reason).2.bearings = s.bearings := by
  unfold recover
  split
  · rfl
  · have hrespond := (s.note (.requestFailed r.request.correlation r.request.id sv.namesp
      reason)).respond_bearings r r.deduction (some (Payload.serverError reason).toJson)
    dsimp only
    rw [settle_bearings]
    split
    · rename_i h
      rw [h] at hrespond
      exact hrespond
    · rename_i h
      rw [h] at hrespond
      exact hrespond

theorem conclude_bearings (o : Outcome) (g : Guard) : (s.conclude o g).2.bearings = s.bearings := by
  unfold conclude
  split <;> simp only [settle_bearings, note_bearings, recover_bearings]

theorem advance_bearings (scope : Scope) (todo : List Action) (g : Guard) :
    (s.advance scope todo g).2.bearings = s.bearings := by
  unfold advance
  split
  · exact s.conclude_bearings _ _
  · dsimp only
    split <;> exact s.act_bearings scope _

theorem perform_bearings (f : Frame) : (s.perform f).2.bearings = s.bearings := by
  cases f with
  | script scope todo guard => exact s.advance_bearings scope todo guard
  | verdict outcome guard => exact s.conclude_bearings outcome guard
  | report n callbacks r =>
    show (s.call callbacks r).2.bearings = s.bearings
    unfold call
    split <;> rfl
  | close n e =>
    unfold perform
    dsimp only
    split
    · rfl
    · exact s.unregister_bearings n
  | resolve n e => exact s.resolve_bearings n e
  | abortInboxes desk topics why => cases topics <;> rfl
  | abortAll exchanges why =>
    cases exchanges with
    | nil => rfl
    | cons n rest => exact s.abort_bearings n why
  | stopTimers desk =>
    unfold perform
    dsimp only
    split
    · rfl
    · exact s.setTimers_bearings desk _
  | closeChannels => rfl
  | release worker =>
    unfold perform
    dsimp only
    split <;> rfl

/-! ## Turns -/

theorem arrive_bearings (desk : DeskName) (topic : String) (delivery : Nat) (m : Message) :
    (s.arrive desk topic delivery m).2.bearings = s.bearings := by
  unfold arrive
  split
  · exact s.handle_bearings _ m
  · exact settle_bearings _ delivery _

theorem dispatch_bearings (h : Handler) (delivery : Nat) (redelivered : Bool) (m : Message) :
    (s.dispatch h delivery redelivered m).2.bearings = s.bearings := by
  cases h with
  | script topic actions => rfl
  | inbox desk topic => exact s.arrive_bearings desk topic delivery m
  | server sv => rfl

theorem consume_bearings (k : Consumer Handler) (e : Envelope) :
    (s.consume k e).2.bearings = s.bearings := by
  unfold consume
  dsimp only
  split
  · exact settle_bearings _ _ _
  · exact settle_bearings _ _ _
  · exact settle_bearings _ _ _
  · exact dispatch_bearings _ _ _ _ _

theorem deliver_bearings (subscriber : Subscriber) (topic : String) (e : Envelope) :
    (s.deliver subscriber topic e).2.bearings = s.bearings := by
  cases subscriber with
  | raw t actions => exact foldl_actRaw_bearings _ t e actions
  | consumer n =>
    unfold deliver
    dsimp only
    split
    · exact s.consume_bearings _ e
    · exact s.settleRaw_bearings topic e.body .reject

theorem turn_bearings {s s' : Session} {frames : List Frame} (h : s.turn? = some (frames, s')) :
    s'.bearings = s.bearings := by
  unfold turn? at h
  split at h
  · cases h
  · dsimp only at h
    split at h
    · cases h
    · cases h
      rfl
    · cases h
      exact deliver_bearings _ _ _ _

end Session

theorem Machine.step_bearings {m m' : Machine} (h : m.step? = some m') :
    m'.session.bearings = m.session.bearings := by
  refine step_cases (R := fun m m' => m'.session.bearings = m.session.bearings) ?_ ?_ h
  · exact fun f _ s => s.perform_bearings f
  · exact Session.turn_bearings

theorem Machine.run_bearings (n : Nat) (m : Machine) :
    (m.run n).session.bearings = m.session.bearings :=
  run_induction (R := fun m m' => m'.session.bearings = m.session.bearings) (fun _ => rfl)
    (fun h h' => h'.trans (step_bearings h)) n m

/-- Whatever is to be done, and whatever the workers of the broker do then, takes no time, and what
is waited for is the same. -/
theorem Session.settleAll_bearings (s : Session) (frames : List Frame) :
    (s.settleAll frames).bearings = s.bearings :=
  Machine.run_bearings stepLimit ⟨frames, s⟩

namespace Session

variable (s : Session)

theorem settleAll_clock (frames : List Frame) : (s.settleAll frames).clock = s.clock :=
  congrArg Prod.fst (s.settleAll_bearings frames)

theorem settleAll_handles (frames : List Frame) : (s.settleAll frames).handles = s.handles :=
  congrArg Prod.snd (s.settleAll_bearings frames)

/-- The clock comes to a timer that fires, if it is not past it. -/
theorem letFire_clock (desk : DeskName) (t : Timer) :
    (s.letFire desk t).clock = max s.clock t.due := by
  unfold letFire
  rw [settleAll_clock]
  exact congrArg Prod.fst (fire_bearings { s with clock := max s.clock t.due } desk t)

end Session
end Colloquy
