/-
The window for acknowledgements, and what cuts it short.

A conversation that awaits nothing stays open for its window.  Once it has listened and
waited, the timer for the window is set whenever nothing is awaited while the window is open;
that is `Guarded`.  From then on, and as long as nothing becomes outstanding, the conversation
ends exactly when the window closes, provided that the deadline for answers comes later.

The two timers know nothing of each other.  With a deadline for answers inside the window the
first of them to fire brings the end, and the window is cut short.
-/
import Colloquy.Proofs.Lifetime

namespace Colloquy

/-- Whether an occurrence tears a conversation down. -/
def Occurrence.tearsDown : Occurrence → Bool
  | .abort _ => true
  | .listen registered => !registered
  | _ => false

namespace Watch

open Conversation

/-- The end that is brought in a course, if one is. -/
def ends (w : Watch) (self : Nat) : List Occurrence → Option Ending
  | [] => none
  | o :: os => (w.meet self o).2.or (ends (w.meet self o).1 self os)

/-- Whether nothing becomes outstanding in a course, and the conversation is not torn down. -/
def staysIdle (w : Watch) (self : Nat) : List Occurrence → Bool
  | [] => true
  | o :: os =>
    !o.tearsDown && decide ((w.meet self o).1.conversation.remaining = 0) &&
      staysIdle (w.meet self o).1 self os

theorem staysIdle_append (w : Watch) (self : Nat) (os ps : List Occurrence) :
    w.staysIdle self (os ++ ps) =
      (w.staysIdle self os && (w.course self os).staysIdle self ps) := by
  induction os generalizing w with
  | nil => rfl
  | cons o os ih =>
    simp only [List.cons_append, staysIdle, ih, course, Bool.and_assoc]

theorem ends_singleton (w : Watch) (self : Nat) (o : Occurrence) :
    w.ends self [o] = (w.meet self o).2 :=
  Option.or_none

theorem idle_of_staysIdle {w : Watch} {self : Nat} {o : Occurrence}
    (h : w.staysIdle self [o] = true) :
    o.tearsDown = false ∧ (w.meet self o).1.conversation.remaining = 0 := by
  simpa [staysIdle] using h

/-! ## What stays -/

theorem meet_untilTimeout (w : Watch) (self : Nat) (o : Occurrence) :
    (w.meet self o).1.conversation.untilTimeout = w.conversation.untilTimeout := by
  have hbook := congrArg Conversation.untilTimeout (meet_book w self o)
  refine hbook.trans ?_
  cases o with
  | message now m => cases he : w.conversation.ended <;> simp [handles, he, book, untimed, take]
  | _ => rfl

theorem course_untilTimeout (w : Watch) (self : Nat) (os : List Occurrence) :
    (w.course self os).conversation.untilTimeout = w.conversation.untilTimeout := by
  induction os generalizing w with
  | nil => rfl
  | cons o os ih => exact (ih _).trans (meet_untilTimeout w self o)

theorem takeIn_ackTimer (w : Watch) (self now : Nat) (m : Message) :
    (w.takeIn self now m).conversation.ackTimer = w.conversation.ackTimer := by
  have hrecord := (record_sameTimers w.conversation m).ackTimer
  unfold takeIn
  cases m.ack with
  | none => exact hrecord
  | some a =>
    have htake := (takeAck_sameTimers (w.conversation.record m) a
      (!w.conversation.seen.contains m.id)).ackTimer
    simp only [foldAck]
    split <;> exact htake.trans hrecord

theorem le_foldl_max (l : List Nat) (n : Nat) :
    n ≤ l.foldl max n ∧ ∀ k ∈ l, k ≤ l.foldl max n := by
  induction l generalizing n with
  | nil => exact ⟨Nat.le_refl n, fun k hk => nomatch hk⟩
  | cons j l ih =>
    obtain ⟨hmax, hall⟩ := ih (max n j)
    rw [List.foldl_cons]
    refine ⟨by omega, fun k hk => ?_⟩
    rcases List.mem_cons.mp hk with rfl | hk
    · omega
    · exact hall k hk

theorem le_foldedTimeout (c : Conversation) : c.timeoutMs ≤ c.foldedTimeout :=
  (le_foldl_max _ _).1

/-- No message brings the deadline for answers forward. -/
theorem takeIn_timeoutMs (w : Watch) (self now : Nat) (m : Message) :
    w.conversation.timeoutMs ≤ (w.takeIn self now m).conversation.timeoutMs := by
  have hrecord := record_timeoutMs w.conversation m
  unfold takeIn
  cases m.ack with
  | none => exact Nat.le_of_eq hrecord.symm
  | some a =>
    have htake := takeAck_timeoutMs (w.conversation.record m) a
      (!w.conversation.seen.contains m.id)
    have hfolded := le_foldedTimeout ((w.conversation.record m).takeAck a
      (!w.conversation.seen.contains m.id))
    simp only [foldAck]
    split
    · exact Nat.le_of_eq (htake.trans hrecord).symm
    · exact Nat.le_trans (Nat.le_of_eq (htake.trans hrecord).symm) hfolded

/-- A timer for the window that is set is left alone. -/
theorem armAck_of_kept {w : Watch} (h : w.conversation.ackTimer.isSome) (self now : Nat) :
    (w.armAck self now).2 = w := by
  cases hk : w.conversation.awaitsAcks now with
  | true => rw [armAck_of_set hk h]
  | false => rw [armAck_of_closed hk]

theorem armAck_sets {w : Watch} {now : Nat} (h : w.conversation.awaitsAcks now = true)
    (hrun : w.timers.stopped = false) (self : Nat) :
    (w.armAck self now).2.conversation.ackTimer.isSome := by
  cases hkept : w.conversation.ackTimer with
  | some id =>
    rw [armAck_of_kept (by rw [hkept]; rfl), hkept]
    rfl
  | none =>
    cases hd : w.conversation.ackDeadline with
    | none =>
      rw [awaitsAcks, hd] at h
      cases h
    | some deadline =>
      rw [awaitsAcks, hd] at h
      rw [armAck_of_unset hd (of_decide_eq_true h) hkept hrun]
      rfl

end Watch

namespace Moment

open Conversation

variable {self start : Nat} {terms : Terms} {opened : Bool} {l : Life} {m m' : Moment}
  {os : List Occurrence}

/-- What a timer that is due makes of an open conversation. -/
inductive Fired (m : Moment) (armed : Option Nat) (p : Timer) : Watch × Option Ending → Prop where
  | deadline {v : Watch} : p.kind = .response → p.due = m.watch.conversation.dueAfter armed →
      v.conversation.ended = true →
      Fired m armed p (v, some (m.watch.conversation.ending .responseTimeout))
  | window {v : Watch} : p.kind = .ack → m.watch.conversation.ackDeadline = some p.due →
      m.watch.conversation.awaitsAnswers = false → v.conversation.ended = true →
      Fired m armed p (v, some (m.watch.conversation.ending .ackTimeout))
  /-- The window closes, and answers are still to come. -/
  | closes {v : Watch} : p.kind = .ack → m.watch.conversation.awaitsAnswers = true →
      v.conversation.untimed = m.watch.conversation.untimed → Fired m armed p (v, none)

theorem Tends.fired (h : Tends self l m) (hopen : m.watch.conversation.ended = false)
    {p : Timer} (hp : p ∈ m.watch.timers.of self p.kind) :
    Fired m l.armed p ((m.without p).watch.meet self p.firing) := by
  obtain ⟨-, -, others, hminds⟩ := h.of_open hopen
  cases hk : p.kind with
  | response =>
    rw [hk] at hp
    obtain ⟨v, e, hfire, -⟩ := hminds.fires_response hopen hp
    obtain ⟨-, -, rfl, hv⟩ := Watch.onResponseTimer_eq_some hfire
    simp only [Timer.firing, hk, without, Watch.meet, hfire, Option.map_some, Option.getD_some]
    exact .deadline hk (hminds.response.eq_of_mem hp).2.1 (ended_of_untimed hv)
  | ack =>
    rw [hk] at hp
    have hkept := (hminds.ack.eq_of_mem hp).1
    have hfire := Watch.onAckTimer_of_kept (w := (m.without p).watch) hopen hkept
    simp only [Timer.firing, hk, Watch.meet]
    cases hr : (m.without p).watch.onAckTimer p.id with
    | none =>
      rw [hr] at hfire
      split at hfire <;> cases hfire
    | some r =>
      obtain ⟨v, end?⟩ := r
      simp only [Option.getD_some]
      obtain ⟨-, -, ⟨rfl, hv, ha⟩ | ⟨rfl, hv, ha⟩⟩ := Watch.onAckTimer_eq_some hr
      · exact .closes hk ha hv
      · exact .window hk (hminds.window_of_mem hp).2 ha (ended_of_untimed hv)

/-! ## Guarded windows -/

theorem listen_of_opened {c : Conversation} (h : Timed start terms true c) : c.listen = c := by
  have hd : c.listen.ackDeadline = c.ackDeadline :=
    h.listen.ackDeadline.trans h.ackDeadline.symm
  rw [listen_eq, hd]

/-- If nothing is awaited while the window is open, the timer for the window is set. -/
def Guarded (m : Moment) : Prop :=
  m.watch.conversation.ended = false → m.watch.conversation.awaitsAnswers = false →
    m.watch.conversation.awaitsAcks m.now = true → m.watch.conversation.ackTimer.isSome

theorem guarded_of_ended (h : m.watch.conversation.ended = true) : m.Guarded := by
  intro hopen
  rw [h] at hopen
  cases hopen

/-- Waiting guards the window, even if it was not guarded before. -/
theorem guarded_wait (h : Tends self l m) :
    Guarded { m with watch := m.watch.wait self m.now } := by
  cases hended : m.watch.conversation.ended with
  | true =>
    exact guarded_of_ended
      ((ended_of_untimed (Watch.wait_untimed m.watch self m.now)).trans hended)
  | false =>
    obtain ⟨-, -, others, hminds⟩ := h.of_open hended
    intro hopen hnothing hwindow
    have huntimed := Watch.wait_untimed m.watch self m.now
    have ha : m.watch.conversation.awaitsAnswers = false :=
      (awaitsAnswers_of_untimed huntimed).symm.trans hnothing
    have hk : m.watch.conversation.awaitsAcks m.now = true :=
      (awaitsAcks_of_untimed huntimed m.now).symm.trans hwindow
    have hset := Watch.armAck_sets (w := m.watch.armResponse self m.now) hk
      hminds.armResponse.running self
    show (m.watch.wait self m.now).conversation.ackTimer.isSome
    have hnot : (m.watch.armResponse self m.now).conversation.awaitsAnswers = false := ha
    simp only [Watch.wait, hended, hnot, if_false, Bool.false_eq_true]
    exact hset

theorem Guarded.message (hg : m.Guarded) (h : Tends self l m) (k : Message) :
    Guarded { m with watch := (m.watch.meet self (.message m.now k)).1 } := by
  cases hr : m.watch.receive self m.now k with
  | none =>
    simp only [Watch.meet, hr, Option.getD_none]
    exact hg
  | some r =>
    obtain ⟨v, end?⟩ := r
    simp only [Watch.meet, hr, Option.getD_some]
    obtain ⟨hended, ⟨rfl, hv⟩ | ⟨rfl, hv, -, -⟩⟩ := Watch.receive_eq_some hr
    · obtain ⟨-, -, others, hminds⟩ := h.of_open hended
      intro hopen hnothing hwindow
      have ha : (m.watch.conversation.take k).awaitsAnswers = false :=
        (awaitsAnswers_of_untimed hv).symm.trans hnothing
      have hk : m.watch.conversation.awaitsAcks m.now = true :=
        (awaitsAcks_of_untimed hv m.now).symm.trans hwindow
      have hk' : (m.watch.takeIn self m.now k).conversation.awaitsAcks m.now = true :=
        (awaitsAcks_of_untimed (Watch.takeIn_untimed m.watch self m.now k) m.now).trans hk
      rw [Watch.receive_of_awaitsAcks hended ha hk] at hr
      cases hr
      exact Watch.armAck_sets hk' (hminds.takeIn k).2.running self
    · exact guarded_of_ended (ended_of_untimed hv)

/-- A conversation that listened, on a desk whose timers run. -/
structure Listened (owner start : Nat) (terms : Terms) (m : Moment) : Prop where
  tends : ∃ l, Tends owner l m
  timed : Timed start terms true m.watch.conversation

theorem Listened.step (h : Listened self start terms m) (hstep : Step self m os m') :
    Listened self start terms m' := by
  obtain ⟨l, htends⟩ := h.tends
  have htimed := h.timed.course self os
  rw [Bool.true_or, ← hstep.course] at htimed
  exact ⟨⟨_, htends.step h.timed hstep⟩, htimed⟩

theorem Listened.lives (h : Listened self start terms m) (hlives : Lives self m os m') :
    Listened self start terms m' := by
  induction hlives with
  | start => exact h
  | step _ hstep ih => exact ih.step hstep

theorem Guarded.occurs {o : Occurrence} (hg : m.Guarded) (h : Listened self start terms m)
    (hadmits : m.Admits self o) : Guarded { m with watch := (m.watch.meet self o).1 } := by
  obtain ⟨l, htends⟩ := h.tends
  cases o with
  | listen registered =>
    cases registered with
    | true =>
      show Guarded { m with watch := { m.watch with conversation := m.watch.conversation.listen } }
      rw [listen_of_opened h.timed]
      exact hg
    | false => exact guarded_of_ended rfl
  | wait now =>
    have hnow : now = m.now := hadmits
    rw [hnow]
    exact guarded_wait htends
  | message now k =>
    have hnow : now = m.now := hadmits
    rw [hnow]
    exact hg.message htends k
  | responseTimer id =>
    simp only [Watch.meet, Watch.onResponseTimer_of_stray hadmits, Option.map_none,
      Option.getD_none]
    exact hg
  | ackTimer id =>
    simp only [Watch.meet, Watch.onAckTimer_of_stray hadmits, Option.getD_none]
    exact hg
  | abort why =>
    cases hended : m.watch.conversation.ended with
    | true =>
      simp only [Watch.meet, Watch.abort_of_ended hended]
      exact hg
    | false =>
      obtain ⟨v, hv, huntimed⟩ := Watch.abort_of_open hended
      simp only [Watch.meet, hv]
      exact guarded_of_ended (ended_of_untimed huntimed)
  | timers t => exact hg

theorem awaitsAcks_of_later {c : Conversation} {now later : Nat} (hle : now ≤ later)
    (h : c.awaitsAcks later = true) : c.awaitsAcks now = true := by
  unfold awaitsAcks at h ⊢
  cases hd : c.ackDeadline with
  | none =>
    rw [hd] at h
    cases h
  | some deadline =>
    rw [hd] at h
    exact decide_eq_true (Nat.lt_of_le_of_lt hle (of_decide_eq_true h))

theorem Guarded.step (hg : m.Guarded) (h : Listened self start terms m)
    (hstep : Step self m os m') : m'.Guarded := by
  cases hstep with
  | occurs o hadmits => exact hg.occurs h hadmits
  | passes later hlater _ =>
    exact fun hopen hnothing hwindow =>
      hg hopen hnothing (awaitsAcks_of_later hlater hwindow)
  | fires p hp hdue =>
    show Guarded { m with watch := ((m.without p).watch.meet self p.firing).1 }
    obtain ⟨l, htends⟩ := h.tends
    cases hended : m.watch.conversation.ended with
    | true =>
      have hgone : (m.without p).watch.conversation.ended = true := hended
      rw [meet_of_ended hgone self (firing_foreign p) (firing_opens p)]
      exact guarded_of_ended hgone
    | false =>
      have hfired := htends.fired hended hp
      generalize (m.without p).watch.meet self p.firing = r at hfired ⊢
      cases hfired with
      | deadline _ _ hv => exact guarded_of_ended hv
      | window _ _ _ hv => exact guarded_of_ended hv
      | closes _ ha hv =>
        intro _ hnothing _
        have hsome := (awaitsAnswers_of_untimed hv).symm.trans hnothing
        rw [ha] at hsome
        cases hsome

theorem Guarded.lives (hg : m.Guarded) (h : Listened self start terms m)
    (hlives : Lives self m os m') : m'.Guarded := by
  induction hlives with
  | start => exact hg
  | step hlives hstep ih => exact ih.step (h.lives hlives) hstep

/-! ## Until the window closes -/

/-- An idle conversation is open until its window closes. -/
inductive Honours (start window : Nat) (m : Moment) : Prop where
  | goesOn : m.watch.conversation.ended = false → m.watch.conversation.awaitsAnswers = false →
      m.watch.conversation.ackTimer.isSome → window < m.watch.conversation.timeoutMs →
      Honours start window m
  | gone : m.watch.conversation.ended = true → start + window ≤ m.now → Honours start window m

/-- The end that comes with the window.  It comes with a message if one comes at that
instant, before the timer fires. -/
def EndsOnTime (self closing : Nat) (m : Moment) (os : List Occurrence) : Prop :=
  m.now = closing ∧ ∃ e, m.watch.ends self os = some e ∧
    (e.reason = .ackTimeout ∨
      e.reason = .allResponsesReceived ∧ ∃ k, os = [.message closing k])

theorem Listened.closing {closing : Nat} (h : Listened self start terms m)
    (hwindow : terms.window start = some closing)
    (hopen : m.watch.conversation.ended = false)
    (hkept : m.watch.conversation.ackTimer.isSome) :
    m.watch.conversation.ackDeadline = some closing ∧ m.now ≤ closing := by
  obtain ⟨l, htends⟩ := h.tends
  obtain ⟨-, -, others, hminds⟩ := htends.of_open hopen
  have hd : m.watch.conversation.ackDeadline = some closing :=
    h.timed.ackDeadline.trans hwindow
  have hstage := hminds.window
  rw [hd] at hstage
  exact ⟨hd, hstage.in_time hkept⟩

theorem awaitsAnswers_of_idle {c : Conversation} (huntil : c.untilTimeout = false)
    (hnone : c.remaining = 0) : c.awaitsAnswers = false := by
  simp only [awaitsAnswers, huntil, hnone, Nat.lt_irrefl, decide_false, Bool.or_self]

/-- A message that leaves nothing outstanding brings the end if the window has just closed, and
otherwise changes nothing about it. -/
theorem Honours.message {window : Nat} {k : Message} (h : Listened self start terms m)
    (hwindow : terms.window start = some (start + window))
    (hopen : m.watch.conversation.ended = false)
    (hkept : m.watch.conversation.ackTimer.isSome)
    (hlate : window < m.watch.conversation.timeoutMs)
    (hnothing : (m.watch.meet self (.message m.now k)).1.conversation.awaitsAnswers = false) :
    Honours start window { m with watch := (m.watch.meet self (.message m.now k)).1 } ∧
      ((m.watch.meet self (.message m.now k)).1.conversation.ended = true →
        EndsOnTime self (start + window) m [.message m.now k]) := by
  obtain ⟨hd, hle⟩ := h.closing hwindow hopen hkept
  rw [EndsOnTime, Watch.ends_singleton]
  cases hr : m.watch.receive self m.now k with
  | none =>
    rw [Watch.receive_eq_none_iff, hopen] at hr
    cases hr
  | some r =>
    obtain ⟨v, end?⟩ := r
    simp only [Watch.meet, hr, Option.getD_some] at hnothing ⊢
    obtain ⟨-, ⟨rfl, hv⟩ | ⟨rfl, hv, ha, hk⟩⟩ := Watch.receive_eq_some hr
    · have hgoes : v.conversation.ended = false := (ended_of_untimed hv).trans hopen
      have ha : (m.watch.conversation.take k).awaitsAnswers = false :=
        (awaitsAnswers_of_untimed hv).symm.trans hnothing
      have hkeeps : (m.watch.takeIn self m.now k).conversation.ackTimer.isSome := by
        rw [Watch.takeIn_ackTimer]
        exact hkept
      have htaken : v = m.watch.takeIn self m.now k := by
        cases hk : m.watch.conversation.awaitsAcks m.now with
        | true =>
          rw [Watch.receive_of_awaitsAcks hopen ha hk, Watch.armAck_of_kept hkeeps] at hr
          cases hr
          rfl
        | false =>
          rw [Watch.receive_of_complete hopen ha hk] at hr
          cases hr
      have hmore := Watch.takeIn_timeoutMs m.watch self m.now k
      rw [← htaken] at hmore hkeeps
      refine ⟨.goesOn hgoes hnothing hkeeps (Nat.lt_of_lt_of_le hlate hmore), fun hv' => ?_⟩
      rw [hgoes] at hv'
      cases hv'
    · have hclosed : start + window ≤ m.now := by
        rw [awaitsAcks, hd] at hk
        exact Nat.le_of_not_lt (of_decide_eq_false hk)
      have hnow : m.now = start + window := by omega
      refine ⟨.gone (ended_of_untimed hv) hclosed, fun _ => ⟨hnow, _, rfl, Or.inr ⟨rfl, k, ?_⟩⟩⟩
      rw [hnow]

theorem Honours.occurs {window : Nat} {o : Occurrence} (h : Listened self start terms m)
    (hwindow : terms.window start = some (start + window))
    (hopen : m.watch.conversation.ended = false)
    (hidle : m.watch.conversation.awaitsAnswers = false)
    (hkept : m.watch.conversation.ackTimer.isSome)
    (hlate : window < m.watch.conversation.timeoutMs) (hadmits : m.Admits self o)
    (htears : o.tearsDown = false)
    (hnothing : (m.watch.meet self o).1.conversation.awaitsAnswers = false) :
    Honours start window { m with watch := (m.watch.meet self o).1 } ∧
      ((m.watch.meet self o).1.conversation.ended = true →
        EndsOnTime self (start + window) m [o]) := by
  have hsame (hmeet : (m.watch.meet self o).1.conversation = m.watch.conversation) :
      Honours start window { m with watch := (m.watch.meet self o).1 } ∧
        ((m.watch.meet self o).1.conversation.ended = true →
          EndsOnTime self (start + window) m [o]) := by
    refine ⟨.goesOn ?_ ?_ ?_ ?_, fun hended => ?_⟩
    · exact hmeet ▸ hopen
    · exact hmeet ▸ hidle
    · exact hmeet ▸ hkept
    · exact hmeet ▸ hlate
    · rw [hmeet, hopen] at hended
      cases hended
  cases o with
  | listen registered =>
    cases registered with
    | true => exact hsame (listen_of_opened h.timed)
    | false => cases htears
  | wait now =>
    have huntimed := Watch.wait_untimed m.watch self now
    have hstays : (m.watch.wait self now).conversation.ended = false :=
      (ended_of_untimed huntimed).trans hopen
    have hnot : (m.watch.armResponse self now).conversation.awaitsAnswers = false := hidle
    have harm : m.watch.wait self now = m.watch.armResponse self now := by
      simp only [Watch.wait, hopen, hnot, if_false, Bool.false_eq_true]
      exact Watch.armAck_of_kept (w := m.watch.armResponse self now) hkept self now
    refine ⟨.goesOn hstays hnothing ?_ ?_, fun hended => ?_⟩
    · show (m.watch.wait self now).conversation.ackTimer.isSome
      rw [harm]
      exact hkept
    · show window < (m.watch.wait self now).conversation.timeoutMs
      rw [harm]
      exact hlate
    · have hended' : (m.watch.wait self now).conversation.ended = true := hended
      rw [hstays] at hended'
      cases hended'
  | message now k =>
    have hnow : now = m.now := hadmits
    subst hnow
    exact Honours.message h hwindow hopen hkept hlate hnothing
  | responseTimer id =>
    refine hsame ?_
    simp only [Watch.meet, Watch.onResponseTimer_of_stray hadmits, Option.map_none,
      Option.getD_none]
  | ackTimer id =>
    refine hsame ?_
    simp only [Watch.meet, Watch.onAckTimer_of_stray hadmits, Option.getD_none]
  | abort why => cases htears
  | timers t => exact hsame rfl

theorem Honours.step {window : Nat} (hh : Honours start window m)
    (h : Listened self start terms m) (hwindow : terms.window start = some (start + window))
    (huntil : m.watch.conversation.untilTimeout = false) (hstep : Step self m os m')
    (hidle : m.watch.staysIdle self os = true) :
    Honours start window m' ∧
      (m.watch.conversation.ended = false → m'.watch.conversation.ended = true →
        EndsOnTime self (start + window) m os) := by
  cases hh with
  | gone hended hlate =>
    have hstays := Watch.course_ended hended self os
    rw [← hstep.course] at hstays
    have hlater : m.now ≤ m'.now := by
      cases hstep with
      | occurs o _ => exact Nat.le_refl _
      | passes later hlater _ => exact hlater
      | fires p _ _ => exact Nat.le_refl _
    refine ⟨.gone hstays (Nat.le_trans hlate hlater), fun hopen => ?_⟩
    rw [hended] at hopen
    cases hopen
  | goesOn hopen hnothing hkept hlate =>
    cases hstep with
    | occurs o hadmits =>
      obtain ⟨htears, hremaining⟩ := Watch.idle_of_staysIdle hidle
      have hafter := awaitsAnswers_of_idle
        ((Watch.meet_untilTimeout m.watch self o).trans huntil) hremaining
      have hoccurs := Honours.occurs h hwindow hopen hnothing hkept hlate hadmits htears hafter
      exact ⟨hoccurs.1, fun _ => hoccurs.2⟩
    | passes later hlater _ =>
      refine ⟨.goesOn hopen hnothing hkept hlate, fun _ hended => ?_⟩
      have hended' : m.watch.conversation.ended = true := hended
      rw [hopen] at hended'
      cases hended'
    | fires p hp hdue =>
      obtain ⟨l, htends⟩ := h.tends
      obtain ⟨hd, hle⟩ := h.closing hwindow hopen hkept
      have hfired := htends.fired hopen hp
      have hends : m.watch.ends self [.timers (m.watch.timers.cancel p.id), p.firing] =
          ((m.without p).watch.meet self p.firing).2 :=
        (m.without p).watch.ends_singleton self p.firing
      rw [EndsOnTime, hends]
      show Honours start window
          { m with watch := ((m.without p).watch.meet self p.firing).1 } ∧
        (_ → ((m.without p).watch.meet self p.firing).1.conversation.ended = true → _)
      generalize (m.without p).watch.meet self p.firing = r at hfired ⊢
      cases hfired with
      | deadline _ hwhen _ =>
        -- the deadline for answers is after the window
        have hstart := h.timed.startedAt
        have hmax : m.watch.conversation.startedAt + m.watch.conversation.timeoutMs ≤ p.due := by
          rw [hwhen]
          exact Nat.le_max_right _ _
        omega
      | window _ hcloses _ hv =>
        have hp : p.due = start + window := by
          rw [hd] at hcloses
          exact (Option.some.inj hcloses).symm
        have hnow : m.now = start + window := by omega
        exact ⟨.gone hv (Nat.le_of_eq hnow.symm), fun _ _ => ⟨hnow, _, rfl, Or.inl rfl⟩⟩
      | closes _ ha _ =>
        rw [hnothing] at ha
        cases ha

theorem Honours.lives {window : Nat} (hh : Honours start window m)
    (h : Listened self start terms m) (hwindow : terms.window start = some (start + window))
    (huntil : m.watch.conversation.untilTimeout = false) (hlives : Lives self m os m')
    (hidle : m.watch.staysIdle self os = true) : Honours start window m' := by
  induction hlives with
  | start => exact hh
  | @step os ps m' m'' hlives hstep ih =>
    rw [Watch.staysIdle_append, Bool.and_eq_true, ← hlives.course] at hidle
    have hstays := Watch.course_untilTimeout m.watch self os
    rw [← hlives.course] at hstays
    exact ((ih hidle.1).step (h.lives hlives) hwindow (hstays.trans huntil) hstep hidle.2).1

/-- Left alone, an idle conversation ends with its window. -/
theorem Honours.closes {window : Nat} (hh : Honours start window m)
    (h : Listened self start terms m) (hwindow : terms.window start = some (start + window))
    (hopen : m.watch.conversation.ended = false) :
    ∃ os m' e, Lives self m os m' ∧ m'.now = start + window ∧
      m.watch.ends self os = some e ∧ e.reason = .ackTimeout := by
  cases hh with
  | gone hended _ =>
    rw [hopen] at hended
    cases hended
  | goesOn _ hnothing hkept hlate =>
    obtain ⟨l, htends⟩ := h.tends
    obtain ⟨-, -, others, hminds⟩ := htends.of_open hopen
    obtain ⟨hd, hle⟩ := h.closing hwindow hopen hkept
    obtain ⟨id, hid⟩ := Option.isSome_iff_exists.mp hkept
    have hpending := hminds.ack.pending
    rw [hid, hd] at hpending
    have hp : { id, kind := .ack, owner := self, due := start + window } ∈
        m.watch.timers.of self .ack := by
      rw [hpending]
      exact List.mem_singleton_self _
    have hdue : ∀ kind, ∀ p ∈ m.watch.timers.of self kind, start + window ≤ p.due := by
      intro kind p hp
      cases kind with
      | response =>
        have hstart := h.timed.startedAt
        have hmax : m.watch.conversation.startedAt + m.watch.conversation.timeoutMs ≤ p.due := by
          rw [(hminds.response.eq_of_mem hp).2.1]
          exact Nat.le_max_right _ _
        omega
      | ack =>
        have hcloses := (hminds.window_of_mem hp).2
        rw [hd] at hcloses
        exact Nat.le_of_eq (Option.some.inj hcloses)
    have hpass := Lives.start.step (Step.passes (start + window) hle hdue)
    have hlater := htends.passes hle hdue
    refine ⟨_, _, m.watch.conversation.ending .ackTimeout, hpass.step (.fires _ hp rfl), rfl, ?_,
      rfl⟩
    have hfired := hlater.fired hopen hp
    refine (Watch.ends_singleton _ self _).trans ?_
    generalize hmeet : Watch.meet _ self _ = r at hfired ⊢
    cases hfired with
    | deadline hk _ _ => cases hk
    | window _ _ _ _ => exact congrArg Prod.snd hmeet
    | closes _ ha _ =>
      have ha' : m.watch.conversation.awaitsAnswers = true := ha
      rw [hnothing] at ha'
      cases ha'

/-- Once a conversation that has listened and waited awaits nothing, and as long as nothing
becomes outstanding, it is open until its window closes and ends then, if its deadline for
answers is later than that. -/
theorem Lives.ends_with_window {correlation topic : String} {start window : Nat} {terms : Terms}
    {timers : Timers} {self : Nat} {os ps qs : List Occurrence} {m₁ m m' : Moment}
    (hrunning : timers.stopped = false) (hunused : ∀ kind, timers.of self kind = [])
    (hcounts : terms.wait ≠ .untilTimeout) (hwindow : terms.ackTimeoutMs = some window)
    (hpos : 0 < window)
    (hbefore : Lives self ⟨start, .opening correlation topic start terms timers⟩ os m₁)
    (hlistened : os.any Occurrence.opens = true)
    (hwaited : Lives self { m₁ with watch := m₁.watch.wait self m₁.now } ps m)
    (hopen : m.watch.conversation.ended = false) (hnow : m.now < start + window)
    (hnothing : m.watch.conversation.remaining = 0)
    (hlate : window < m.watch.conversation.timeoutMs)
    (hlater : Lives self m qs m') (hidle : m.watch.staysIdle self qs = true) :
    (m'.now < start + window → m'.watch.conversation.ended = false) ∧
      (start + window < m'.now → m'.watch.conversation.ended = true) ∧
      (m'.watch.conversation.ended = false →
        (∀ rs m'', Step self m' rs m'' → m'.watch.staysIdle self rs = true →
          m''.watch.conversation.ended = true → EndsOnTime self (start + window) m' rs) ∧
        ∃ rs m'' e, Lives self m' rs m'' ∧ m''.now = start + window ∧
          m'.watch.ends self rs = some e ∧ e.reason = .ackTimeout) := by
  have hterms : terms.window start = some (start + window) := by
    simp only [Terms.window, hwindow, if_pos hpos]
  have htimed : Timed start terms false
      (Watch.opening correlation topic start terms timers).conversation := ⟨rfl, rfl, rfl⟩
  have htends₁ := (tends_opening correlation topic start terms hrunning
    hunused).lives htimed hbefore
  have htimed₁ := htimed.course self os
  rw [hlistened, Bool.or_true, ← hbefore.course] at htimed₁
  have hm₁ : Listened self start terms m₁ := ⟨⟨_, htends₁⟩, htimed₁⟩
  have hm : Listened self start terms m := (hm₁.step (.occurs (.wait m₁.now) rfl)).lives hwaited
  have huntil : m.watch.conversation.untilTimeout = false := by
    have hopening : (Watch.opening correlation topic start terms
        timers).conversation.untilTimeout = false := decide_eq_false hcounts
    rw [hwaited.course, Watch.course_untilTimeout]
    refine (Watch.meet_untilTimeout m₁.watch self (.wait m₁.now)).trans ?_
    rw [hbefore.course, Watch.course_untilTimeout]
    exact hopening
  have hquiet := awaitsAnswers_of_idle huntil hnothing
  have hinside : m.watch.conversation.awaitsAcks m.now = true := by
    rw [awaitsAcks, hm.timed.ackDeadline, if_pos rfl, hterms]
    exact decide_eq_true hnow
  have hguarded : m.Guarded := (guarded_wait htends₁).lives
    (hm₁.step (.occurs (.wait m₁.now) rfl)) hwaited
  have hhonours : Honours start window m :=
    .goesOn hopen hquiet (hguarded hopen hquiet hinside) hlate
  have hhonours' := hhonours.lives hm hterms huntil hlater hidle
  have hm' := hm.lives hlater
  have huntil' : m'.watch.conversation.untilTimeout = false := by
    rw [hlater.course, Watch.course_untilTimeout]
    exact huntil
  refine ⟨fun hearly => ?_, fun hover => ?_, fun hopen' => ⟨fun rs m'' hstep hrs hended => ?_, ?_⟩⟩
  · cases hhonours' with
    | goesOn hopen' _ _ _ => exact hopen'
    | gone _ hafter => omega
  · cases hhonours' with
    | gone hended _ => exact hended
    | goesOn hopen' _ hkept _ =>
      have hle := (hm'.closing hterms hopen' hkept).2
      omega
  · exact (hhonours'.step hm' hterms huntil' hstep hrs).2 hopen' hended
  · exact hhonours'.closes hm' hterms hopen'

/-- A request that nobody takes notice of is over after its window. -/
theorem ends_with_window_unnoticed :
    let w := Watch.opening "talk" "answers" 0
      { responseTimeoutMs := 500, ackTimeoutMs := some 300 } {}
    ∃ m₁ qs m' e, Lives 7 ⟨0, w⟩ [.listen true] m₁ ∧
      Lives 7 { m₁ with watch := m₁.watch.wait 7 m₁.now } qs m' ∧ m'.now = 300 ∧
      (m₁.watch.wait 7 m₁.now).ends 7 qs = some e ∧ e.reason = .ackTimeout := by
  intro w
  have hlistened : Lives 7 ⟨0, w⟩ [.listen true] _ := .step .start (.occurs (.listen true) trivial)
  have hends := hlistened.ends_with_window rfl (fun kind => by cases kind <;> rfl) (by decide)
    rfl (by decide) rfl .start (by decide +kernel) (by decide) (by decide +kernel)
    (by decide +kernel) .start rfl
  obtain ⟨qs, m', e, hlives, hnow, he, hreason⟩ := (hends.2.2 (by decide +kernel)).2
  exact ⟨_, qs, m', e, hlistened, hlives, hnow, he, hreason⟩

/-- With a deadline for answers inside the window it is over before that. -/
theorem ends_before_window :
    let w := Watch.opening "talk" "answers" 0
      { responseTimeoutMs := 100, ackTimeoutMs := some 300 } {}
    ∃ m₁ qs m' e, Lives 7 ⟨0, w⟩ [.listen true] m₁ ∧
      (m₁.watch.wait 7 m₁.now).conversation.ended = false ∧
      (m₁.watch.wait 7 m₁.now).conversation.remaining = 0 ∧
      Lives 7 { m₁ with watch := m₁.watch.wait 7 m₁.now } qs m' ∧
      (m₁.watch.wait 7 m₁.now).staysIdle 7 qs = true ∧ m'.now = 100 ∧
      m'.watch.conversation.ended = true ∧
      (m₁.watch.wait 7 m₁.now).ends 7 qs = some e ∧ e.reason = .responseTimeout := by
  intro w
  have hlistened : Lives 7 ⟨0, w⟩ [.listen true] _ := .step .start (.occurs (.listen true) trivial)
  let m : Moment := ⟨0, (w.meet 7 (.listen true)).1.wait 7 0⟩
  have hpass : Lives 7 m _ _ := .step .start (.passes 100 (by decide) (by
    intro kind
    cases kind <;> decide +kernel))
  have hfires := hpass.step (.fires { id := 1, kind := .response, owner := 7, due := 100 }
    (by decide +kernel) rfl)
  exact ⟨_, _, _, _, hlistened, by decide +kernel, by decide +kernel, hfires, by decide +kernel,
    rfl, by decide +kernel, rfl, rfl⟩

end Moment
end Colloquy
