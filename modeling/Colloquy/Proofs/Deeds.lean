/-
What a session does, and what that leaves alone.

A `Deed` is one thing that a session does, told more exactly than a move.  Most deeds are calm:
the conversations and the inboxes of the messaging context stay as they are, and what is shut
stays shut.  `Still` says so of one operation after the other.  The others concern the
conversations, and the application gets at those of the context in few ways: it has a request
open one, messages and timers come to it, it is torn down.  To listen or to register by hand is
for conversations that have a name.

Everything that is done for a frame is a deed, apart from the frames that tell about the end of
a conversation, and every deed is a move.
-/
import Colloquy.Proofs.Closing
import Colloquy.Proofs.Moves

namespace Colloquy
namespace Session

/-- What is shut is empty. -/
structure Tidy (s : Session) : Prop where
  channels : s.channels.Tidy
  timers : ∀ name, (s.desk name).timers.Tidy

/-- What is shut stays shut. -/
structure Onward (s s' : Session) : Prop where
  tidy : s.Tidy → s'.Tidy
  shutDown : s.channels.shutDown = true → s'.channels.shutDown = true
  stopped : s.Tidy → s.shared.timers.stopped = true → s'.shared.timers.stopped = true

namespace Onward

variable {s s' s'' : Session}

theorem refl (s : Session) : s.Onward s := ⟨id, id, fun _ => id⟩

theorem trans (h : s.Onward s') (h' : s'.Onward s'') : s.Onward s'' where
  tidy := fun hs => h'.tidy (h.tidy hs)
  shutDown := fun hs => h'.shutDown (h.shutDown hs)
  stopped := fun ht hs => h'.stopped (h.tidy ht) (h.stopped ht hs)

theorem of_parts (hc : s.channels.Onward s'.channels)
    (ht : ∀ name, (s.desk name).timers.Onward (s'.desk name).timers) : s.Onward s' where
  tidy := fun h => ⟨hc.tidy h.channels, fun name => (ht name).tidy (h.timers name)⟩
  shutDown := hc.shutDown
  stopped := fun _ => (ht .shared).stopped

/-- Nothing on the desks has changed. -/
theorem of_channels (hc : s.channels.Onward s'.channels) (ho : s'.own = s.own)
    (hs : s'.shared = s.shared) : s.Onward s' :=
  of_parts hc fun name => by cases name <;> simp only [desk, ho, hs] <;> exact .refl _

end Onward

/-- Apart from the conversations, nothing of the messaging context changes but timers, and what
is shut stays shut. -/
structure Aside (s s' : Session) : Prop where
  conversations : s'.conversations = s.conversations
  inboxes : s'.shared.inboxes = s.shared.inboxes
  onward : s.Onward s'

namespace Aside

variable {s s' s'' : Session}

theorem refl (s : Session) : s.Aside s := ⟨rfl, rfl, .refl s⟩

theorem trans (h : s.Aside s') (h' : s'.Aside s'') : s.Aside s'' where
  conversations := h'.conversations.trans h.conversations
  inboxes := h'.inboxes.trans h.inboxes
  onward := h.onward.trans h'.onward

end Aside

/-- So do the conversations. -/
structure Still (s s' : Session) : Prop where
  keeps : s.Keeps s'
  aside : s.Aside s'

namespace Still

variable {s s' s'' : Session}

theorem refl (s : Session) : s.Still s := ⟨.refl s, .refl s⟩

theorem trans (h : s.Still s') (h' : s'.Still s'') : s.Still s'' :=
  ⟨h.keeps.trans h'.keeps, h.aside.trans h'.aside⟩

/-- Only the channels and what the application keeps have changed. -/
theorem of_channels (hk : s.Keeps s') (hn : s'.conversations = s.conversations)
    (hc : s.channels.Onward s'.channels) (ho : s'.own = s.own) (hs : s'.shared = s.shared) :
    s.Still s' :=
  ⟨hk, hn, by rw [hs], .of_channels hc ho hs⟩

end Still

variable (s : Session)

theorem channels_still {c : Channels Handler} (h : s.channels.Onward c) :
    s.Still { s with channels := c } :=
  .of_channels ⟨rfl, rfl⟩ rfl h rfl rfl

theorem record_still (t : Trace) : s.Still (s.record t) := s.channels_still (.of_same rfl rfl)

theorem note_still (n : Note) : s.Still (s.note n) := s.record_still _

theorem happen_still (h : Happening) : s.Still (s.happen h) := s.record_still _

theorem broker_still (b : Broker Subscriber) :
    s.Still { s with channels := { s.channels with broker := b } } :=
  s.channels_still (.of_same rfl rfl)

theorem setTimers_aside (name : DeskName) {t : Timers} (h : (s.desk name).timers.Onward t) :
    s.Aside (s.setTimers name t) := by
  cases name with
  | own => exact ⟨rfl, rfl, .of_parts (.refl _) fun | .own => h | .shared => .refl _⟩
  | shared => exact ⟨rfl, rfl, .of_parts (.refl _) fun | .own => .refl _ | .shared => h⟩

theorem stopTimers_still (name : DeskName) :
    s.Still (s.setTimers name (s.desk name).timers.stop) :=
  ⟨s.setTimers_keeps name _, s.setTimers_aside name (Timers.stop_onward _)⟩

/-! ## Deliveries -/

theorem forward_still (d : Delivery) (x : Settlement) : s.Still (s.forward d x) := by
  unfold forward
  split
  · simp only
    split
    · exact (s.happen_still _).trans (note_still _ _)
    · exact s.happen_still _
  · split
    · exact (s.broker_still _).trans (record_still _ _)
    · exact (s.record_still _).trans (note_still _ _)

theorem settle_still (n : Nat) (call : Receipt.Call) : s.Still (s.settle n call) := by
  unfold settle
  split
  · exact .refl s
  · simp only
    have hwritten : ∀ (ds : Table Nat Delivery) (t : Trace),
        s.Still (({ s with deliveries := ds } : Session).record t) :=
      fun ds t => .of_channels ⟨rfl, rfl⟩ rfl (.of_same rfl rfl) rfl rfl
    split
    · exact (hwritten _ _).trans (forward_still _ _ _)
    · exact hwritten _ _

theorem forward_context (d : Delivery) (x : Settlement) : (s.forward d x).context = s.context := by
  unfold forward
  split
  · simp only
    split <;> rfl
  · split <;> rfl

theorem settle_context (n : Nat) (call : Receipt.Call) : (s.settle n call).context = s.context := by
  unfold settle
  split
  · rfl
  · simp only
    split
    · exact forward_context _ _ _
    · rfl

theorem Still.settled {s s' : Session} (h : s.Still s') (why : Note) (n : Nat)
    (call : Receipt.Call) : s.Still ((s'.note why).settle n call) :=
  (h.trans (note_still s' why)).trans (settle_still _ n call)

theorem settleRaw_still (topic : String) (body : Bytes) (x : Settlement) :
    s.Still (s.settleRaw topic body x).2 := by
  unfold settleRaw
  split
  · exact (s.broker_still _).trans (record_still _ _)
  · exact s.record_still _

theorem unsubscribeRaw_still (topic : String) : s.Still (s.unsubscribeRaw topic).2 := by
  unfold unsubscribeRaw
  split
  · exact (s.broker_still _).trans (record_still _ _)
  · exact .refl s

theorem publishRaw_still (topic : String) (key : Option String) (body : Bytes) :
    s.Still (s.publishRaw topic key body).2 := by
  unfold publishRaw
  split
  · exact (s.broker_still _).trans (record_still _ _)
  · exact .refl s

theorem actRaw_still (topic : String) (e : Envelope) (a : RawAction) :
    s.Still (s.actRaw topic e a) := by
  cases a with
  | settle x => exact s.settleRaw_still topic e.body x
  | retryOnce => exact s.settleRaw_still topic e.body _
  | unsubscribe t => exact s.unsubscribeRaw_still t
  | publish t text => exact s.publishRaw_still t none _
  | hold => exact .of_channels ⟨rfl, rfl⟩ rfl (.refl _) rfl rfl

theorem foldl_actRaw_still (topic : String) (e : Envelope) (actions : List RawAction) :
    s.Still (actions.foldl (fun s a => s.actRaw topic e a) s) := by
  induction actions generalizing s with
  | nil => exact .refl s
  | cons a actions ih => exact (s.actRaw_still topic e a).trans (ih _)

/-! ## Answers -/

theorem fresh_still : s.Still s.fresh.2 := .of_channels ⟨rfl, rfl⟩ rfl (.refl _) rfl rfl

theorem respond_still (r : Responder) (ack : Ack) (payload : Option Json.Value) :
    s.Still (s.respond r ack payload).2 := by
  unfold respond
  split
  · exact .refl s
  · have hfresh := s.fresh_still
    simp only
    split
    · exact hfresh
    · exact hfresh.trans (channels_still _ (Channels.publish_onward _ _ _ _))

theorem respond_context (r : Responder) (ack : Ack) (payload : Option Json.Value) :
    (s.respond r ack payload).2.context = s.context := by
  unfold respond
  split
  · rfl
  · simp only
    split <;> rfl

theorem requestMessage_still (r : Requester) (payload : Json.Value) :
    s.Still (s.requestMessage r payload).2 := by
  unfold requestMessage
  cases r.joins with
  | none => exact s.fresh_still.trans (fresh_still _)
  | some m => exact s.fresh_still

/-- The correlation of the next request: that of the message it joins, or a new one. -/
def nextCorrelation (s : Session) (r : Requester) : String :=
  match r.joins with
  | some m => m.correlation
  | none => s.fresh.1

theorem requestMessage_fields (s : Session) (r : Requester) (payload : Json.Value) :
    (s.requestMessage r payload).1.correlation = s.nextCorrelation r ∧
      (s.requestMessage r payload).2.context = s.context := by
  unfold requestMessage nextCorrelation
  cases r.joins with
  | none => exact ⟨rfl, rfl⟩
  | some m =>
    constructor
    · dsimp only [Origin.request]
    · dsimp only [fresh]

/-! ## Deeds -/

/-- What a session does, and the frames that follow. -/
inductive Deed : Session → List Frame → Session → Prop where
  | calm {s s' : Session} {frames : List Frame} : s.Still s' →
      (∀ f ∈ frames, f.calm = true) → Deed s frames s'
  /-- The application places a conversation by hand. -/
  | place (s : Session) (correlation topic : String) (terms : Terms) (callbacks : Callbacks) :
      Deed s [] (s.place .own correlation topic terms callbacks).2
  /-- It gives one of its own conversations a name. -/
  | name {s : Session} {n : Nat} {x : Exchange} (name : String) :
      s.exchanges.get? n = some x → x.desk = .own →
      Deed s [] { s with conversations := s.conversations.put name n }
  | listen {s : Session} {n : Nat} : n ∈ s.conversations.values → Deed s [] (s.listen n).2
  | register {s : Session} {n : Nat} : n ∈ s.conversations.values → Deed s [] (s.register n).2
  | unregister {s : Session} {n : Nat} : n ∈ s.conversations.values →
      Deed s [] (s.unregister n)
  | wait (s : Session) (n : Nat) : Deed s [] (s.wait n)
  | handle (s : Session) (n : Nat) (m : Message) : Deed s (s.handle n m).1 (s.handle n m).2
  | abort (s : Session) (n : Nat) (why : Failure) : Deed s (s.abort n why).1 (s.abort n why).2
  | fire {s : Session} {desk : DeskName} {t : Timer} : t ∈ (s.desk desk).timers.pending →
      Deed s (s.fire desk t).1 (s.fire desk t).2
  /-- The conversation of a request is opened, and the request sent. -/
  | converse (s : Session) (r : Requester) (m : Message) :
      Deed s (s.converse r m).2.1 (s.converse r m).2.2
  /-- One after the other, if nothing follows from the first. -/
  | andThen {s s' s'' : Session} {frames : List Frame} : Deed s [] s' → Deed s' frames s'' →
      Deed s frames s''
  /-- With more to do afterwards. -/
  | beneath {s s' : Session} {frames more : List Frame} : Deed s frames s' →
      (∀ f ∈ more, f.calm = true) → Deed s (frames ++ more) s'

namespace Deed

variable {s s' : Session} {frames : List Frame}

theorem still (h : s.Still s') : Deed s [] s' := .calm h fun _ hf => nomatch hf

theorem after (h : s.Still s') {s'' : Session} (h' : Deed s' frames s'') : Deed s frames s'' :=
  .andThen (.still h) h'

theorem move (h : Deed s frames s') : Move s frames s' := by
  induction h with
  | calm hstill hcalm => exact .calm hstill.keeps hcalm
  | place s correlation topic terms callbacks => exact .place s .own _ _ _ _
  | name name hx hown => exact .still ⟨rfl, rfl⟩
  | listen hn => exact .listen _ _
  | register hn => exact .still (register_keeps _ _)
  | unregister hn => exact .still (unregister_keeps _ _)
  | wait s n => exact .wait s n
  | handle s n m => exact .handle s n m
  | abort s n why => exact .abort s n why
  | fire ht => exact .fire _ _ _
  | converse s r m => exact s.converse_move r m
  | andThen _ _ ih ih' => exact .andThen ih ih'
  | beneath _ hcalm ih => exact .beneath ih hcalm

end Deed

/-- What a script does, apart from a shutdown, and the frames that follow.  It gets at conversations
by name, or opens a new one. -/
inductive Act : Session → List Frame → Session → Prop where
  | calm {s s' : Session} {frames : List Frame} : s.Still s' → s'.context = s.context →
      (∀ f ∈ frames, f.calm = true ∧ f.aborts = false) → Act s frames s'
  | listen {s : Session} {n : Nat} : n ∈ s.conversations.values → Act s [] (s.listen n).2
  | handle {s : Session} {n : Nat} (m : Message) : n ∈ s.conversations.values →
      Act s (s.handle n m).1 (s.handle n m).2
  | abort {s : Session} {n : Nat} (why : Failure) : n ∈ s.conversations.values →
      Act s (s.abort n why).1 (s.abort n why).2
  | converse (s : Session) (r : Requester) (m : Message) :
      Act s (s.converse r m).2.1 (s.converse r m).2.2
  | after {s s' s'' : Session} {frames : List Frame} : s.Still s' → s'.context = s.context →
      Act s' frames s'' → Act s frames s''
  | beneath {s s' : Session} {frames more : List Frame} : Act s frames s' →
      (∀ f ∈ more, f.calm = true ∧ f.aborts = false) → Act s (frames ++ more) s'

namespace Act

variable {s s' : Session} {frames : List Frame}

theorem still (h : s.Still s') (hc : s'.context = s.context) : Act s [] s' :=
  .calm h hc fun _ hf => nomatch hf

theorem idle (s : Session) : Act s [] s := .still (.refl s) rfl

theorem deed (h : Act s frames s') : Deed s frames s' := by
  induction h with
  | calm hstill _ hcalm => exact .calm hstill fun f hf => (hcalm f hf).1
  | listen hn => exact .listen hn
  | handle m hn => exact .handle _ _ m
  | abort why hn => exact .abort _ _ why
  | converse s r m => exact .converse s r m
  | after hstill _ _ ih => exact .after hstill ih
  | beneath _ hcalm ih => exact .beneath ih fun f hf => (hcalm f hf).1

end Act

variable (s : Session)

theorem publish_act (r : Requester) (payload : Json.Value) :
    Act s (s.publish r payload).2.1 (s.publish r payload).2.2 := by
  have hm := s.requestMessage_still r payload
  have hcontext := (s.requestMessage_fields r payload).2
  have hfound := (s.requestMessage r payload).2.channels.producer_onward r.namesp
  have hreport : ∀ why, ∀ f ∈ [Frame.report none r.callbacks (.failed why)],
      f.calm = true ∧ f.aborts = false := by
    intro why f hf
    rw [List.mem_singleton.mp hf]
    exact ⟨rfl, rfl⟩
  unfold publish
  simp only
  split
  · rename_i hc
    rw [hc] at hfound
    exact .calm (hm.trans (channels_still _ hfound)) hcontext (hreport _)
  · rename_i c hc
    rw [hc] at hfound
    have hready := hm.trans (channels_still _ hfound)
    split
    · exact .after hready hcontext (.converse _ r _)
    · have hsent := c.send_onward
        ({ (s.requestMessage r payload).2 with channels := c } : Session).now r.namesp
        (s.requestMessage r payload).1
      split
      · rename_i he
        rw [he] at hsent
        exact .calm (hready.trans (channels_still _ hsent)) hcontext (hreport _)
      · rename_i he
        rw [he] at hsent
        exact .still (hready.trans (channels_still _ hsent)) hcontext

theorem publish_deed (r : Requester) (payload : Json.Value) :
    Deed s (s.publish r payload).2.1 (s.publish r payload).2.2 :=
  (s.publish_act r payload).deed

theorem send_act (requester : String) (joins : Option Message) (payload : Json.Value) :
    Act s (s.send requester joins payload).frames (s.send requester joins payload).session := by
  unfold send
  split
  · exact .idle s
  · exact s.publish_act _ payload

theorem named_act (name : String) {act : Nat → Effect}
    (h : ∀ n, n ∈ s.conversations.values → Act s (act n).frames (act n).session) :
    Act s (s.named name act).frames (s.named name act).session := by
  unfold named
  split
  · rename_i n hn
    exact h n (Table.mem_values_of_get? hn)
  · exact .idle s

theorem answering_act (scope : Scope) {act : Responder → Effect}
    (h : ∀ r, Act s (act r).frames (act r).session) :
    Act s (s.answering scope act).frames (s.answering scope act).session := by
  unfold answering
  split
  · exact h _
  · exact .idle s

theorem answer_act (r : Responder) (payload : Json.Value) :
    Act s (s.answer r payload).frames (s.answer r payload).session :=
  .still (s.respond_still r r.deduction (some payload)) (s.respond_context _ _ _)

theorem answerDouble_act (r : Responder) :
    Act s (s.answerDouble r).frames (s.answerDouble r).session := by
  unfold answerDouble
  split
  · exact s.answer_act r _
  · split
    · exact s.answer_act r _
    · exact .idle s

theorem shutdownContext_calm : ∀ f ∈ s.shutdownContext.1, f.calm = true := by
  unfold shutdownContext
  split
  · simp [Frame.calm]
  · split
    · exact fun f hf => nomatch hf
    · simp [Frame.calm]

theorem shutdownContext_deed : Deed s s.shutdownContext.1 s.shutdownContext.2 := by
  refine .calm ?_ s.shutdownContext_calm
  unfold shutdownContext
  split
  · exact .refl s
  · split
    · exact .refl s
    · refine .trans ?_ (note_still _ _)
      exact .of_channels ⟨rfl, rfl⟩ rfl (.refl _) rfl rfl

theorem act_act (scope : Scope) {a : Action} (h : a ≠ .shutdown) :
    Act s (s.act scope a).frames (s.act scope a).session := by
  cases a with
  | settle call =>
    unfold act
    cases scope.delivery with
    | none => exact .idle s
    | some n => exact .still (s.settle_still n call) (s.settle_context n call)
  | hold =>
    unfold act
    cases scope.delivery with
    | none => exact .idle s
    | some n => exact .still (.of_channels ⟨rfl, rfl⟩ rfl (.refl _) rfl rfl) rfl
  | fail reason => exact .idle s
  | failUnlessRedelivered reason =>
    unfold act
    simp only
    split <;> exact .idle s
  | panic reason => exact .idle s
  | unsubscribe topic => exact .still (s.channels_still (Channels.unsubscribe_onward _ _)) rfl
  | publish topic draft =>
    exact .still (s.channels_still (Channels.publish_onward _ _ _ _)) rfl
  | handle name draft => exact s.named_act name fun n hn => .handle _ hn
  | abort name reason => exact s.named_act name fun n hn => .abort _ hn
  | listen name => exact s.named_act name fun n hn => .listen hn
  | acknowledge timeoutMs remaining =>
    exact s.answering_act scope fun r => .still (s.respond_still r _ _) (s.respond_context _ _ _)
  | answer payload => exact s.answering_act scope fun r => s.answer_act r payload
  | echo => exact s.answering_act scope fun r => s.answer_act r _
  | echoNumbered index => exact s.answering_act scope fun r => s.answer_act r _
  | double => exact s.answering_act scope s.answerDouble_act
  | holdResponder name =>
    refine s.answering_act scope fun r => .still ?_ rfl
    exact .of_channels ⟨rfl, rfl⟩ rfl (.refl _) rfl rfl
  | request requester payload => exact s.send_act requester none payload
  | chain requester payload =>
    unfold act
    dsimp only
    split
    · exact s.send_act requester _ payload
    · exact .idle s
  | shutdown => exact absurd rfl h

theorem act_deed (scope : Scope) (a : Action) :
    Deed s (s.act scope a).frames (s.act scope a).session := by
  by_cases h : a = .shutdown
  · rw [h]
    exact s.shutdownContext_deed
  · exact (s.act_act scope h).deed

/-! ## Frames -/

theorem recover_act (sv : Server) (r : Responder) (delivery : Nat) (reason : String) :
    Act s (s.recover sv r delivery reason).1 (s.recover sv r delivery reason).2 := by
  unfold recover
  split
  · exact .calm (s.happen_still _) rfl (by simp [Frame.calm, Frame.aborts])
  · simp only
    have hanswer := (s.note (.requestFailed r.request.correlation r.request.id sv.namesp
      reason)).respond_still r r.deduction (some (Payload.serverError reason).toJson)
    have hcontext := (s.note (.requestFailed r.request.correlation r.request.id sv.namesp
      reason)).respond_context r r.deduction (some (Payload.serverError reason).toJson)
    split
    · rename_i u s' hs
      rw [hs] at hanswer hcontext
      exact .still (((s.note_still _).trans hanswer).trans (settle_still _ _ _))
        ((settle_context _ _ _).trans hcontext)
    · rename_i why s' hs
      rw [hs] at hanswer hcontext
      exact .still ((((s.note_still _).trans hanswer).trans (note_still _ _)).trans
        (settle_still _ _ _)) ((settle_context _ _ _).trans hcontext)

theorem conclude_act (o : Outcome) (g : Guard) : Act s (s.conclude o g).1 (s.conclude o g).2 := by
  have hsettled : ∀ (why : Note) (n : Nat) (call : Receipt.Call),
      Act s [] ((s.note why).settle n call) := fun why n call =>
    .still ((Still.refl s).settled _ n _) (settle_context _ n call)
  cases g with
  | delivery n id =>
    cases o with
    | done => exact .still (s.settle_still n _) (s.settle_context n _)
    | failed reason => exact hsettled _ n _
    | panicked reason => exact hsettled _ n _
  | callback name =>
    cases o with
    | panicked reason => exact .still (s.note_still _) rfl
    | _ => exact .idle s
  | request sv r n =>
    cases o with
    | done => exact .idle s
    | failed reason => exact s.recover_act sv r n reason
    | panicked reason => exact s.recover_act sv r n _
  | recovery sv n =>
    cases o with
    | panicked reason => exact hsettled _ n _
    | _ => exact .still (s.settle_still n _) (s.settle_context n _)

theorem advance_act {scope : Scope} {todo : List Action} {g : Guard}
    (h : (Frame.script scope todo g).shutsDown = false) :
    Act s (s.advance scope todo g).1 (s.advance scope todo g).2 := by
  cases todo with
  | nil => exact s.conclude_act .done g
  | cons a rest =>
    have ha : a ≠ .shutdown := by
      rintro rfl
      cases h
    unfold advance
    simp only
    split
    · exact .beneath (s.act_act scope ha) (by simp [Frame.calm, Frame.aborts])
    · exact .beneath (s.act_act scope ha) (by simp [Frame.calm, Frame.aborts])

theorem call_act (callbacks : Callbacks) (r : Report) :
    Act s (s.call callbacks r).1 (s.call callbacks r).2 := by
  unfold call
  split
  · exact .idle s
  · exact .calm (s.happen_still _) rfl (by simp [Frame.calm, Frame.aborts])

theorem call_deed (callbacks : Callbacks) (r : Report) :
    Deed s (s.call callbacks r).1 (s.call callbacks r).2 :=
  (s.call_act callbacks r).deed

theorem setTimers_context (name : DeskName) (t : Timers) :
    (s.setTimers name t).context = s.context := by
  cases name <;> rfl

/-- What is done for a calm frame is what a script does, unless it is to tear conversations down. -/
theorem perform_act {f : Frame} (h : f.calm = true) (haborts : f.aborts = false)
    (hshuts : f.shutsDown = false) : Act s (s.perform f).1 (s.perform f).2 := by
  cases f with
  | script scope todo g => exact s.advance_act hshuts
  | verdict o g => exact s.conclude_act o g
  | report exchange callbacks r => exact s.call_act callbacks r
  | close n e => cases h
  | resolve n e => cases h
  | abortInboxes desk topics why => cases haborts
  | abortAll ns why => cases haborts
  | stopTimers desk =>
    unfold perform
    simp only
    split
    · exact .idle s
    · exact .still ((s.stopTimers_still desk).trans (note_still _ _)) (s.setTimers_context desk _)
  | closeChannels => exact .still (s.channels_still (Channels.shutdown_onward _)) rfl
  | release worker =>
    unfold perform
    simp only
    split
    · exact .still (s.broker_still _) rfl
    · exact .idle s

/-- What is done for a calm frame is a deed. -/
theorem perform_deed {f : Frame} (h : f.calm = true) : Deed s (s.perform f).1 (s.perform f).2 := by
  by_cases hshuts : f.shutsDown = true
  · cases f with
    | script scope todo g =>
      cases todo with
      | nil => cases hshuts
      | cons a rest =>
        show Deed s (s.advance scope (a :: rest) g).1 (s.advance scope (a :: rest) g).2
        unfold advance
        simp only
        split
        · exact .beneath (s.act_deed scope a) (by simp [Frame.calm])
        · exact .beneath (s.act_deed scope a) (by simp [Frame.calm])
    | _ => cases hshuts
  · by_cases haborts : f.aborts = true
    · cases f with
      | abortInboxes desk topics why =>
        cases topics with
        | nil => exact .still (.refl s)
        | cons topic rest => exact .calm (.refl s) (by simp [perform, Frame.calm])
      | abortAll ns why =>
        cases ns with
        | nil => exact .still (.refl s)
        | cons n rest => exact .beneath (.abort s n why) (by simp [Frame.calm])
      | _ => cases haborts
    · exact (s.perform_act h (Bool.eq_false_iff.mpr haborts) (Bool.eq_false_iff.mpr hshuts)).deed

/-! ## Deliveries to conversations -/

theorem arrive_deed (desk : DeskName) (topic : String) (delivery : Nat) (m : Message) :
    Deed s (s.arrive desk topic delivery m).1 (s.arrive desk topic delivery m).2 := by
  unfold arrive
  split
  · exact .handle s _ m
  · exact .still ((Still.refl s).settled _ _ _)

theorem dispatch_deed (h : Handler) (delivery : Nat) (redelivered : Bool) (m : Message) :
    Deed s (s.dispatch h delivery redelivered m).1 (s.dispatch h delivery redelivered m).2 := by
  cases h with
  | script topic actions => exact .calm (s.happen_still _) (by simp [dispatch, Frame.calm])
  | inbox desk topic => exact .beneath (s.arrive_deed desk topic delivery m) (by simp [Frame.calm])
  | server sv =>
    exact .calm (s.fresh_still.trans (happen_still _ _)) (by simp [dispatch, Frame.calm])

theorem consume_deed (k : Consumer Handler) (e : Envelope) :
    Deed s (s.consume k e).1 (s.consume k e).2 := by
  have haccept : s.Still { (s.accept { topic := k.topic, redelivered := e.redelivered }
      (some e.body)).2 with channels := s.channels.monitor .received k.topic } :=
    .of_channels ⟨rfl, rfl⟩ rfl (Channels.monitor_onward _ _ _) rfl rfl
  unfold consume
  simp only
  split
  · exact .still (haccept.settled _ _ _)
  · exact .still (haccept.settled _ _ _)
  · exact .still (haccept.settled _ _ _)
  · exact .after haccept (dispatch_deed _ _ _ _ _)

theorem deliver_deed (subscriber : Subscriber) (topic : String) (e : Envelope) :
    Deed s (s.deliver subscriber topic e).1 (s.deliver subscriber topic e).2 := by
  cases subscriber with
  | raw t actions =>
    exact .still ((s.happen_still _).trans (foldl_actRaw_still _ t e actions))
  | consumer n =>
    unfold deliver
    simp only
    split
    · exact s.consume_deed _ e
    · exact .still (s.settleRaw_still _ _ _)

theorem turn_deed {s s' : Session} {frames : List Frame} (h : s.turn? = some (frames, s')) :
    Deed s frames s' := by
  unfold turn? at h
  split at h
  · cases h
  · simp only at h
    split at h
    · cases h
    · cases h
      exact .still (s.broker_still _)
    · cases h
      refine .after (s.broker_still _) (.beneath (deliver_deed _ _ _ _) ?_)
      simp [Frame.calm]

end Session
end Colloquy
