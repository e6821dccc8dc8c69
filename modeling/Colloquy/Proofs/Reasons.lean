/-
Why a conversation ends.

The reason for an end is given by the operation that brings it, which looks at a part of the
conversation at one time.  Here it is compared with everything that happened before, on a desk
whose timers may be stopped at any time: with the counts, with the window, and with the
deadlines that were asked for since the start.

The deadline of a conversation is no earlier than what any message asked for that it handled.
The timer for answers that is pending is due at the deadline or later; one that was set for an
earlier deadline is cancelled, or fires in vain.
-/
import Colloquy.Proofs.Closing
import Colloquy.Proofs.Window

namespace Colloquy

namespace Conversation

/-- The deadline comes to be no earlier than what an acknowledgement asks for. -/
theorem le_foldedTimeout_takeAck (c : Conversation) {a : Ack} {ms : Nat}
    (h : a.timeoutMs = some ms) (first : Bool) : ms ≤ (c.takeAck a first).foldedTimeout := by
  apply (Watch.le_foldl_max _ _).2
  show ms ∈ (c.takeAck a first).suggested.values
  simp only [takeAck, h, suggest]
  exact Table.mem_values_of_get? (Table.get?_put_self _ _ _)

theorem awaitsAnswers_of_book {c d : Conversation} (h : c.book = d.book) :
    c.awaitsAnswers = d.awaitsAnswers :=
  show c.book.awaitsAnswers = d.book.awaitsAnswers by rw [h]

theorem awaitsAnswers_eq_false_iff {c : Conversation} :
    c.awaitsAnswers = false ↔ c.untilTimeout = false ∧ c.remaining = 0 := by
  simp [awaitsAnswers]

end Conversation

namespace Watch

open Conversation

variable {w v : Watch} {self now : Nat} {o : Occurrence}

/-! ## The deadline for answers -/

theorem foldAck_timeoutMs (w : Watch) (self now : Nat) (a : Ack) (first : Bool) :
    (w.foldAck self now a first).conversation.timeoutMs =
      (w.conversation.takeAck a first).foldedTimeout := by
  simp only [foldAck]
  split
  · rename_i h
    exact h.symm
  · rfl

theorem le_takeIn_timeoutMs (w : Watch) (self now : Nat) {m : Message} {a : Ack} {ms : Nat}
    (ha : m.ack = some a) (hms : a.timeoutMs = some ms) :
    ms ≤ (w.takeIn self now m).conversation.timeoutMs := by
  simp only [takeIn, ha]
  rw [foldAck_timeoutMs]
  exact le_foldedTimeout_takeAck _ hms _

theorem armAck_timeoutMs (w : Watch) (self now : Nat) :
    (w.armAck self now).2.conversation.timeoutMs = w.conversation.timeoutMs := by
  unfold armAck
  simp only
  split
  · rfl
  · split
    · rfl
    · split <;> rfl

theorem receive_timeoutMs {m : Message} {end? : Option Ending}
    (h : w.receive self now m = some (v, end?)) :
    v.conversation.timeoutMs = (w.takeIn self now m).conversation.timeoutMs := by
  have harmed := (w.takeIn self now m).armAck_timeoutMs self now
  unfold receive at h
  split at h
  · cases h
  · simp only at h
    split at h
    · cases h
      rfl
    · split at h
      · rename_i hk
        rw [hk] at harmed
        cases h
        exact harmed
      · rename_i hk
        rw [hk] at harmed
        cases h
        exact harmed

theorem wait_timeoutMs (w : Watch) (self now : Nat) :
    (w.wait self now).conversation.timeoutMs = w.conversation.timeoutMs := by
  unfold wait
  split
  · rfl
  · simp only
    split
    · rfl
    · exact armAck_timeoutMs _ self now

/-- The deadline is never brought forward. -/
theorem le_meet_timeoutMs (w : Watch) (self : Nat) (o : Occurrence) :
    w.conversation.timeoutMs ≤ (w.meet self o).1.conversation.timeoutMs := by
  cases o with
  | listen registered =>
    have hlisten : w.conversation.listen.timeoutMs = w.conversation.timeoutMs := by
      rw [listen_eq]
    cases registered <;> exact Nat.le_of_eq hlisten.symm
  | wait now => exact Nat.le_of_eq (w.wait_timeoutMs self now).symm
  | message now m =>
    cases hr : w.receive self now m with
    | none => simp only [meet, hr, Option.getD_none, Nat.le_refl]
    | some r =>
      simp only [meet, hr, Option.getD_some]
      rw [receive_timeoutMs hr]
      exact w.takeIn_timeoutMs self now m
  | responseTimer id =>
    simp only [meet, onResponseTimer]
    split <;> exact Nat.le_refl _
  | ackTimer id =>
    simp only [meet, onAckTimer]
    split
    · exact Nat.le_refl _
    · split <;> exact Nat.le_refl _
  | abort why =>
    simp only [meet, abort]
    split <;> exact Nat.le_refl _
  | timers t => exact Nat.le_refl _

/-- Nor does it come before what is asked for. -/
theorem asked_le_meet_timeoutMs {k : Message} {a : Ack} {ms : Nat} (hk : k ∈ w.handles o)
    (ha : k.ack = some a) (hms : a.timeoutMs = some ms) :
    ms ≤ (w.meet self o).1.conversation.timeoutMs := by
  cases o with
  | message now m =>
    cases hended : w.conversation.ended with
    | true =>
      simp only [handles, hended, if_true] at hk
      cases hk
    | false =>
      simp only [handles, hended, if_false, Bool.false_eq_true] at hk
      rw [List.mem_singleton] at hk
      subst hk
      cases hr : w.receive self now k with
      | none =>
        rw [receive_eq_none_iff, hended] at hr
        cases hr
      | some r =>
        simp only [meet, hr, Option.getD_some]
        rw [receive_timeoutMs hr]
        exact w.le_takeIn_timeoutMs self now ha hms
  | _ => cases hk

theorem le_course_timeoutMs (w : Watch) (self : Nat) (os : List Occurrence) :
    w.conversation.timeoutMs ≤ (w.course self os).conversation.timeoutMs := by
  induction os generalizing w with
  | nil => exact Nat.le_refl _
  | cons o os ih => exact Nat.le_trans (w.le_meet_timeoutMs self o) (ih _)

/-- After any course the deadline is no earlier than what was asked for in it. -/
theorem asked_le_course_timeoutMs {os : List Occurrence} {k : Message} {a : Ack} {ms : Nat}
    (hk : k ∈ w.handled self os) (ha : k.ack = some a) (hms : a.timeoutMs = some ms) :
    ms ≤ (w.course self os).conversation.timeoutMs := by
  induction os generalizing w with
  | nil => cases hk
  | cons o os ih =>
    rcases List.mem_append.mp hk with hk | hk
    · exact Nat.le_trans (asked_le_meet_timeoutMs hk ha hms) (le_course_timeoutMs _ self os)
    · exact ih hk

/-! ## Ends -/

/-- Unless it is for the deadline, nothing is awaited at the end. -/
theorem idle_of_ending {e : Ending} (h : (w.meet self o).2 = some e)
    (hreason : e.reason ≠ .responseTimeout) :
    w.conversation.untilTimeout = false ∧ (w.meet self o).1.conversation.remaining = 0 := by
  have hidle := (meet_ending h).2 hreason
  rw [← awaitsAnswers_of_book (w.meet_book self o), awaitsAnswers_eq_false_iff,
    meet_untilTimeout] at hidle
  exact hidle

/-- With a message it ends only if the window is closed. -/
theorem message_ending {m : Message} {e : Ending}
    (h : (w.meet self (.message now m)).2 = some e) :
    e.reason = .allResponsesReceived ∧ w.conversation.awaitsAcks now = false := by
  cases hr : w.receive self now m with
  | none =>
    simp only [meet, hr, Option.getD_none] at h
    cases h
  | some r =>
    obtain ⟨v, end?⟩ := r
    simp only [meet, hr, Option.getD_some] at h
    subst h
    obtain ⟨-, ⟨hnone, -⟩ | ⟨hsome, -, -, hk⟩⟩ := receive_eq_some hr
    · cases hnone
    · cases hsome
      exact ⟨rfl, hk⟩

/-- Without an end it stays open, unless it is torn down. -/
theorem open_of_no_ending (hopen : w.conversation.ended = false) (hstays : o.tearsDown = false)
    (hnone : (w.meet self o).2 = none) : (w.meet self o).1.conversation.ended = false := by
  cases o with
  | listen registered =>
    cases registered with
    | true =>
      show w.conversation.listen.ended = false
      rw [listen_eq]
      exact hopen
    | false => cases hstays
  | wait now => exact (ended_of_untimed (w.wait_untimed self now)).trans hopen
  | message now m =>
    cases hr : w.receive self now m with
    | none =>
      simp only [meet, hr, Option.getD_none]
      exact hopen
    | some r =>
      obtain ⟨v, end?⟩ := r
      simp only [meet, hr, Option.getD_some] at hnone ⊢
      subst hnone
      obtain ⟨-, ⟨-, hv⟩ | ⟨hsome, -⟩⟩ := receive_eq_some hr
      · exact (ended_of_untimed hv).trans hopen
      · cases hsome
  | responseTimer id =>
    cases hr : w.onResponseTimer id with
    | none =>
      simp only [meet, hr, Option.map_none, Option.getD_none]
      exact hopen
    | some r =>
      simp only [meet, hr, Option.map_some, Option.getD_some] at hnone
      cases hnone
  | ackTimer id =>
    cases hr : w.onAckTimer id with
    | none =>
      simp only [meet, hr, Option.getD_none]
      exact hopen
    | some r =>
      obtain ⟨v, end?⟩ := r
      simp only [meet, hr, Option.getD_some] at hnone ⊢
      subst hnone
      obtain ⟨-, -, ⟨-, hv, -⟩ | ⟨hsome, -⟩⟩ := onAckTimer_eq_some hr
      · exact (ended_of_untimed hv).trans hopen
      · cases hsome
  | abort why => cases hstays
  | timers t => exact hopen

/-- Of the timers of its desk it cancels some and sets its own. -/
theorem meet_used (w : Watch) (self : Nat) (hown : o.foreign = false) :
    w.timers.Used self (w.meet self o).1.timers := by
  cases o with
  | listen registered => exact .unused
  | wait now => exact wait_used .unused now
  | message now m =>
    cases hr : w.receive self now m with
    | none =>
      simp only [meet, hr, Option.getD_none]
      exact .unused
    | some r =>
      simp only [meet, hr, Option.getD_some]
      exact receive_used hr .unused
  | responseTimer id =>
    cases hr : w.onResponseTimer id with
    | none =>
      simp only [meet, hr, Option.map_none, Option.getD_none]
      exact .unused
    | some r =>
      simp only [meet, hr, Option.map_some, Option.getD_some]
      exact onResponseTimer_used self hr .unused
  | ackTimer id =>
    cases hr : w.onAckTimer id with
    | none =>
      simp only [meet, hr, Option.getD_none]
      exact .unused
    | some r =>
      simp only [meet, hr, Option.getD_some]
      exact onAckTimer_used self hr .unused
  | abort why => exact abort_used self .unused
  | timers t => cases hown

end Watch

/-! ## Timers that are stopped -/

/-- Timers that are stopped, and none of a conversation is pending. -/
def Timers.Shut (owner : Nat) (t : Timers) : Prop :=
  t.stopped = true ∧ ∀ kind, t.of owner kind = []

theorem Timers.Used.shut {owner : Nat} {t u : Timers} (hused : t.Used owner u)
    (h : t.Shut owner) : u.Shut owner := by
  induction hused with
  | unused => exact h
  | cancelled id _ ih =>
    refine ⟨ih.1, fun kind => ?_⟩
    rw [Timers.of_cancel, ih.2 kind]
    rfl
  | scheduled kind now delay _ ih =>
    simp only [Timers.schedule, ih.1, if_true]
    exact ih

namespace Moment

open Conversation

variable {self start : Nat} {terms : Terms} {opened : Bool} {m m' : Moment}
  {os ps : List Occurrence}

/-- What happens on a desk whose timers may be stopped at any time. -/
inductive Goes (self : Nat) (m : Moment) : List Occurrence → Moment → Prop where
  | step {os : List Occurrence} {m' : Moment} : Step self m os m' → Goes self m os m'
  | stops : Goes self m [.timers m.watch.timers.stop]
      { m with watch := (m.watch.meet self (.timers m.watch.timers.stop)).1 }

inductive Spans (self : Nat) (m : Moment) : List Occurrence → Moment → Prop where
  | start : Spans self m [] m
  | goes {os ps : List Occurrence} {m' m'' : Moment} : Spans self m os m' →
      Goes self m' ps m'' → Spans self m (os ++ ps) m''

theorem Goes.course (h : Goes self m os m') : m'.watch = m.watch.course self os := by
  cases h with
  | step hstep => exact hstep.course
  | stops => rfl

theorem Spans.course (h : Spans self m os m') : m'.watch = m.watch.course self os := by
  induction h with
  | start => rfl
  | goes _ hgoes ih => rw [hgoes.course, ih, Watch.course_append]

/-- The timers of a conversation are in order, or there are none because they were stopped. -/
def Watched (owner : Nat) (m : Moment) : Prop :=
  (∃ l, Tends owner l m) ∨ m.watch.timers.Shut owner

theorem Watched.goes (h : Watched self m) (htimed : Timed start terms opened m.watch.conversation)
    (hgoes : Goes self m os m') : Watched self m' := by
  cases hgoes with
  | step hstep =>
    rcases h with ⟨l, htends⟩ | hshut
    · exact Or.inl ⟨_, htends.step htimed hstep⟩
    · refine Or.inr ?_
      cases hstep with
      | occurs o hadmits =>
        cases hown : o.foreign with
        | false => exact (m.watch.meet_used self hown).shut hshut
        | true =>
          cases o with
          | timers t =>
            have hbeside : m.watch.timers.Beside self t := hadmits
            exact ⟨hbeside.stopped.trans hshut.1,
              fun kind => (hbeside.of kind).trans (hshut.2 kind)⟩
          | _ => cases hown
      | passes later _ _ => exact hshut
      | fires p hp _ =>
        rw [hshut.2 p.kind] at hp
        cases hp
  | stops => exact Or.inr ⟨rfl, fun _ => rfl⟩

theorem Watched.spans (h : Watched self m) (htimed : Timed start terms opened m.watch.conversation)
    (hspans : Spans self m os m') : Watched self m' := by
  induction hspans with
  | start => exact h
  | @goes os ps m' m'' hspans hgoes ih =>
    have hcourse := htimed.course self os
    rw [← hspans.course] at hcourse
    exact ih.goes hcourse hgoes

/-! ## Reasons -/

/-- What the reason for an end says of a conversation, given what happened to it and which
messages it handled. -/
inductive Truthful (start : Nat) (terms : Terms) (os : List Occurrence) (handled : List Message)
    (m : Moment) : Reason → Prop where
  | complete : terms.wait ≠ .untilTimeout → m.watch.conversation.remaining = 0 →
      ¬WindowOpen start terms os m.now →
      Truthful start terms os handled m .allResponsesReceived
  | windowClosed (closing : Nat) : terms.wait ≠ .untilTimeout →
      m.watch.conversation.remaining = 0 → terms.window start = some closing →
      closing ≤ m.now → Truthful start terms os handled m .ackTimeout
  /-- The time that the terms give is over, and all that was asked for. -/
  | late : start + terms.responseTimeoutMs ≤ m.now →
      (∀ k ∈ handled, ∀ a ms, k.ack = some a → a.timeoutMs = some ms → start + ms ≤ m.now) →
      Truthful start terms os handled m .responseTimeout

/-- What is known of a conversation from what happened to it since its start. -/
structure Since (owner start : Nat) (terms : Terms) (os : List Occurrence)
    (handled : List Message) (m : Moment) : Prop where
  watched : Watched owner m
  timed : Timed start terms (os.any Occurrence.opens) m.watch.conversation
  untilTimeout : m.watch.conversation.untilTimeout = decide (terms.wait = .untilTimeout)
  deadline : terms.responseTimeoutMs ≤ m.watch.conversation.timeoutMs
  asked : ∀ k ∈ handled, ∀ a ms, k.ack = some a → a.timeoutMs = some ms →
    ms ≤ m.watch.conversation.timeoutMs

theorem Spans.since {correlation topic : String} {timers : Timers}
    (hunused : ∀ kind, timers.of self kind = [])
    (h : Spans self ⟨start, .opening correlation topic start terms timers⟩ os m) :
    Since self start terms os
      ((Watch.opening correlation topic start terms timers).handled self os) m := by
  have htimed : Timed start terms false
      (Watch.opening correlation topic start terms timers).conversation := ⟨rfl, rfl, rfl⟩
  have hcourse := htimed.course self os
  rw [Bool.false_or, ← h.course] at hcourse
  have hwatched : Watched self ⟨start, .opening correlation topic start terms timers⟩ := by
    cases hrunning : timers.stopped with
    | false => exact Or.inl ⟨_, tends_opening correlation topic start terms hrunning hunused⟩
    | true => exact Or.inr ⟨hrunning, hunused⟩
  refine ⟨hwatched.spans htimed h, hcourse, ?_, ?_, fun k hk a ms ha hms => ?_⟩
  · rw [h.course, Watch.course_untilTimeout]
    rfl
  · rw [h.course]
    exact Watch.le_course_timeoutMs (.opening correlation topic start terms timers) self os
  · rw [h.course]
    exact Watch.asked_le_course_timeoutMs hk ha hms

namespace Since

variable {handled : List Message}

theorem counts (h : Since self start terms os handled m)
    (hidle : m.watch.conversation.untilTimeout = false) : terms.wait ≠ .untilTimeout :=
  of_decide_eq_false (h.untilTimeout.symm.trans hidle)

theorem window_closed (h : Since self start terms os handled m) {now : Nat}
    (hclosed : m.watch.conversation.awaitsAcks now = false) : ¬WindowOpen start terms os now := by
  rintro ⟨hopens, ms, hms, hpos, hnow⟩
  rw [awaitsAcks, h.timed.ackDeadline, hopens, if_pos rfl] at hclosed
  simp only [Terms.window, hms, if_pos hpos] at hclosed
  exact of_decide_eq_false hclosed hnow

/-- A message brings the end. -/
theorem ending_of_message (h : Since self start terms os handled m) {k : Message} {e : Ending}
    (he : (m.watch.meet self (.message m.now k)).2 = some e) (handled' : List Message) :
    Truthful start terms (os ++ [.message m.now k]) handled'
      { m with watch := (m.watch.meet self (.message m.now k)).1 } e.reason := by
  obtain ⟨hreason, hclosed⟩ := Watch.message_ending he
  obtain ⟨hidle, hnone⟩ := Watch.idle_of_ending he (by simp [hreason])
  rw [hreason]
  refine .complete (h.counts hidle) hnone fun hwindow => ?_
  apply h.window_closed hclosed
  simpa [WindowOpen, Occurrence.opens] using hwindow

/-- A timer that is due brings the end. -/
theorem ending_of_timer (h : Since self start terms os handled m) {p : Timer} {e : Ending}
    (hp : p ∈ m.watch.timers.of self p.kind) (hdue : p.due = m.now)
    (he : ((m.without p).watch.meet self p.firing).2 = some e) (os' : List Occurrence) :
    Truthful start terms os' handled
      { m with watch := ((m.without p).watch.meet self p.firing).1 } e.reason := by
  obtain ⟨l, htends⟩ : ∃ l, Tends self l m := by
    rcases h.watched with htends | hshut
    · exact htends
    · rw [hshut.2 p.kind] at hp
      cases hp
  cases hended : m.watch.conversation.ended with
  | true =>
    have hgone : (m.without p).watch.conversation.ended = true := hended
    rw [meet_of_ended hgone self (firing_foreign p) (firing_opens p)] at he
    cases he
  | false =>
    have hfired := htends.fired hended hp
    have hidle := Watch.idle_of_ending he
    generalize (m.without p).watch.meet self p.firing = r at hfired he hidle ⊢
    cases hfired with
    | deadline _ hwhen _ =>
      cases he
      have hlate : start + m.watch.conversation.timeoutMs ≤ m.now := by
        rw [← hdue, hwhen, ← h.timed.startedAt]
        exact Nat.le_max_right _ _
      refine .late ?_ fun k hk a ms ha hms => ?_
      · show start + terms.responseTimeoutMs ≤ m.now
        have hterms := h.deadline
        omega
      · show start + ms ≤ m.now
        have hasked := h.asked k hk a ms ha hms
        omega
    | window _ hcloses _ _ =>
      cases he
      obtain ⟨huntimed, hnone⟩ := hidle (by simp [Conversation.ending])
      rw [h.timed.ackDeadline] at hcloses
      split at hcloses
      · exact .windowClosed p.due (h.counts huntimed) hnone hcloses (Nat.le_of_eq hdue)
      · cases hcloses
    | closes _ _ _ => cases he

end Since

theorem handled_firing (w : Watch) (self : Nat) (p : Timer) (t : Timers) :
    w.handled self [.timers t, p.firing] = [] := by
  unfold Timer.firing
  cases p.kind <;> rfl

theorem ends_firing (m : Moment) (self : Nat) (p : Timer) :
    m.watch.ends self [.timers (m.watch.timers.cancel p.id), p.firing] =
      ((m.without p).watch.meet self p.firing).2 :=
  (m.without p).watch.ends_singleton self p.firing

theorem firing_tearsDown (p : Timer) : p.firing.tearsDown = false := by
  unfold Timer.firing
  cases p.kind <;> rfl

/-- A conversation is over when it ended or was torn down. -/
theorem Step.ending_or_torn (hstep : Step self m os m')
    (hopen : m.watch.conversation.ended = false) (hended : m'.watch.conversation.ended = true) :
    (∃ e, m.watch.ends self os = some e) ∨ ∃ o ∈ os, o.tearsDown = true := by
  cases hstep with
  | passes later _ _ =>
    have hended' : m.watch.conversation.ended = true := hended
    rw [hopen] at hended'
    cases hended'
  | occurs o _ =>
    cases htorn : o.tearsDown with
    | true => exact Or.inr ⟨o, List.mem_singleton_self o, htorn⟩
    | false =>
      refine Or.inl (Option.isSome_iff_exists.mp ?_)
      rw [Watch.ends_singleton]
      by_contra hnone
      have hstays := Watch.open_of_no_ending hopen htorn (Option.not_isSome_iff_eq_none.mp hnone)
      have hended' : (m.watch.meet self o).1.conversation.ended = true := hended
      rw [hstays] at hended'
      cases hended'
  | fires p _ _ =>
    refine Or.inl (Option.isSome_iff_exists.mp ?_)
    rw [ends_firing]
    by_contra hnone
    have hstays := Watch.open_of_no_ending (w := (m.without p).watch) hopen (firing_tearsDown p)
      (Option.not_isSome_iff_eq_none.mp hnone)
    have hended' : ((m.without p).watch.meet self p.firing).1.conversation.ended = true := hended
    rw [hstays] at hended'
    cases hended'

/-- In every run the reason for the end is true.  With `untilTimeout` it can only be the
deadline, and without an end a conversation is over only if it was torn down. -/
theorem Spans.ends_truthfully {correlation topic : String} {timers : Timers}
    (hunused : ∀ kind, timers.of self kind = [])
    (h : Spans self ⟨start, .opening correlation topic start terms timers⟩ os m)
    (hgoes : Goes self m ps m') :
    (∀ e, m.watch.ends self ps = some e →
        Truthful start terms (os ++ ps)
          ((Watch.opening correlation topic start terms timers).handled self (os ++ ps)) m'
          e.reason) ∧
      (m.watch.conversation.ended = false → m'.watch.conversation.ended = true →
        (∃ e, m.watch.ends self ps = some e ∧
            (terms.wait = .untilTimeout → e.reason = .responseTimeout)) ∨
          ∃ o ∈ ps, o.tearsDown = true) := by
  have hsince := h.since hunused
  have htrue : ∀ e, m.watch.ends self ps = some e →
      Truthful start terms (os ++ ps)
        ((Watch.opening correlation topic start terms timers).handled self (os ++ ps)) m'
        e.reason := by
    intro e he
    cases hgoes with
    | stops => cases he
    | step hstep =>
      cases hstep with
      | passes later _ _ => cases he
      | occurs o hadmits =>
        rw [Watch.ends_singleton] at he
        cases o with
        | message now k =>
          have hnow : now = m.now := hadmits
          subst hnow
          exact hsince.ending_of_message he _
        | responseTimer id =>
          simp only [Watch.meet, Watch.onResponseTimer_of_stray hadmits, Option.map_none,
            Option.getD_none] at he
          cases he
        | ackTimer id =>
          simp only [Watch.meet, Watch.onAckTimer_of_stray hadmits, Option.getD_none] at he
          cases he
        | _ => cases he
      | fires p hp hdue =>
        rw [ends_firing] at he
        rw [Watch.handled_append, handled_firing, List.append_nil]
        exact hsince.ending_of_timer hp hdue he _
  refine ⟨htrue, fun hopen hended => ?_⟩
  cases hgoes with
  | stops =>
    have hended' : m.watch.conversation.ended = true := hended
    rw [hopen] at hended'
    cases hended'
  | step hstep =>
    refine (hstep.ending_or_torn hopen hended).imp_left ?_
    rintro ⟨e, he⟩
    refine ⟨e, he, fun huntil => ?_⟩
    have hreason := htrue e he
    generalize e.reason = reason at hreason ⊢
    cases hreason with
    | complete hcounts _ _ => exact absurd huntil hcounts
    | windowClosed _ hcounts _ _ _ => exact absurd huntil hcounts
    | late _ _ => rfl

/-- A responder asks for more time, and its answers do not come: the end comes with the time
that it asked for. -/
theorem ends_truthfully_when_late :
    let k : Message := {
      id := "later"
      correlation := "talk"
      route := { destination := "answers" }
      stamp := { createdAt := .epoch, origin := default }
      ack := some { responderId := "slow", timeoutMs := some 300 } }
    let w := Watch.opening "talk" "answers" 0 { responseTimeoutMs := 100, wait := .exactly 1 } {}
    ∃ os m ps m' e, Spans 7 ⟨0, w⟩ os m ∧ Goes 7 m ps m' ∧ .message 40 k ∈ os ∧
      m.watch.ends 7 ps = some e ∧ e.reason = .responseTimeout ∧ m'.now = 300 ∧
      Truthful 0 { responseTimeoutMs := 100, wait := .exactly 1 } (os ++ ps)
        (w.handled 7 (os ++ ps)) m' e.reason := by
  intro k w
  have hlisten : Spans 7 ⟨0, w⟩ _ _ := .goes .start (.step (.occurs (.listen true) trivial))
  have hwait := hlisten.goes (.step (.occurs (.wait 0) rfl))
  have hpass := hwait.goes (.step (.passes 40 (by decide) (by
    intro kind
    cases kind <;> decide +kernel)))
  have htold := hpass.goes (.step (.occurs (.message 40 k) rfl))
  have hlate := htold.goes (.step (.passes 300 (by decide) (by
    intro kind
    cases kind <;> decide +kernel)))
  have hgoes {os : List Occurrence} {m : Moment} (_ : Spans 7 ⟨0, w⟩ os m)
      (hp : { id := 2, kind := .response, owner := 7, due := 300 } ∈ m.watch.timers.of 7 .response)
      (hnow : m.now = 300) := Goes.step (Step.fires _ hp hnow.symm)
  have hfires := hgoes hlate (by decide +kernel) rfl
  have hends {m m' : Moment} {ps : List Occurrence} (_ : Goes 7 m ps m')
      (h : (m.watch.ends 7 ps).map Ending.reason = some .responseTimeout) :=
    Option.map_eq_some_iff.mp h
  obtain ⟨e, he, hreason⟩ := hends hfires (by decide +kernel)
  exact ⟨_, _, _, _, e, hlate, hfires, by simp, he, hreason, rfl,
    (hlate.ends_truthfully (fun kind => by cases kind <;> rfl) hfires).1 e he⟩

end Moment
end Colloquy
