/-
How an open conversation minds its timers.

`Minds` describes the timers of an open conversation on a desk that runs.  The timer for
answers is pending from the first time it is set, for the deadline, or for the time at which
it was set if the deadline had passed.  The one for the window is set at most once, and is
pending until the window closes.  Each operation of a conversation keeps this, and those that
bring the conversation to its end leave no timer behind.

Numbers of timers tell how many were set: a number is taken by a timer for answers, by one
for the window, or by another conversation.
-/
import Colloquy.Proofs.Pending
import Colloquy.Proofs.Watch

namespace Colloquy

namespace Conversation

/-- The timer of a kind that a conversation keeps. -/
def timer (c : Conversation) : TimerKind → Option Nat
  | .response => c.responseTimer
  | .ack => c.ackTimer

/-- When the timer for answers is due that was set at some time. -/
def dueAfter (c : Conversation) (armed : Option Nat) : Nat :=
  max (armed.getD 0) (c.startedAt + c.timeoutMs)

/-- `d` is `c` with other records or another deadline for answers. -/
structure SameTimers (c d : Conversation) : Prop where
  startedAt : d.startedAt = c.startedAt
  ackDeadline : d.ackDeadline = c.ackDeadline
  responseTimer : d.responseTimer = c.responseTimer
  ackTimer : d.ackTimer = c.ackTimer
  arms : d.arms = c.arms

theorem record_sameTimers (c : Conversation) (m : Message) : SameTimers c (c.record m) := by
  rw [record_eq]
  exact ⟨rfl, rfl, rfl, rfl, rfl⟩

theorem announce_sameTimers (c : Conversation) (responder : String) (n : Int) :
    SameTimers c (c.announce responder n) := by
  rw [announce_eq]
  exact ⟨rfl, rfl, rfl, rfl, rfl⟩

theorem SameTimers.trans {c d e : Conversation} (h : SameTimers c d) (h' : SameTimers d e) :
    SameTimers c e where
  startedAt := h'.startedAt.trans h.startedAt
  ackDeadline := h'.ackDeadline.trans h.ackDeadline
  responseTimer := h'.responseTimer.trans h.responseTimer
  ackTimer := h'.ackTimer.trans h.ackTimer
  arms := h'.arms.trans h.arms

theorem takeAck_sameTimers (c : Conversation) (a : Ack) (first : Bool) :
    SameTimers c (c.takeAck a first) := by
  have hcount : ∀ n, SameTimers c (if first then c.announce a.responderId n else c) := by
    intro n
    split
    · exact announce_sameTimers c _ _
    · exact ⟨rfl, rfl, rfl, rfl, rfl⟩
  unfold takeAck
  cases a.responsesRemaining with
  | none => cases a.timeoutMs <;> exact ⟨rfl, rfl, rfl, rfl, rfl⟩
  | some n =>
    cases a.timeoutMs with
    | none => exact hcount n
    | some ms => exact (hcount n).trans ⟨rfl, rfl, rfl, rfl, rfl⟩

theorem record_timeoutMs (c : Conversation) (m : Message) :
    (c.record m).timeoutMs = c.timeoutMs := by
  rw [record_eq]
  rfl

/-- Listening sets the end of the window, and nothing else. -/
theorem listen_eq (c : Conversation) :
    c.listen = { c with ackDeadline := c.listen.ackDeadline } := by
  unfold listen
  split
  · split <;> rfl
  · rfl

theorem takeAck_timeoutMs (c : Conversation) (a : Ack) (first : Bool) :
    (c.takeAck a first).timeoutMs = c.timeoutMs := by
  unfold takeAck
  simp only [announce_eq]
  split <;> split <;> try split
  all_goals rfl

end Conversation

namespace Watch

open Conversation

/-! ## Setting -/

theorem armResponse_of_running {w : Watch} (h : w.timers.stopped = false) (self now : Nat) :
    w.armResponse self now =
      { conversation :=
          { w.conversation with
            responseTimer := some w.timers.next
            arms := w.conversation.arms + 1 }
        timers := (w.timers.cancel? w.conversation.responseTimer).add .response self
          (w.conversation.dueAfter (some now))
        notes := w.notes } := by
  have hdue : now + (w.conversation.startedAt + w.conversation.timeoutMs - now) =
      w.conversation.dueAfter (some now) := by
    show _ = max now _
    omega
  have hrun : (w.timers.cancel? w.conversation.responseTimer).stopped = false := by
    rw [Timers.cancel?_stopped, h]
  unfold armResponse
  simp only [Timers.schedule_of_running hrun, hdue, List.append_nil, Timers.cancel?_next]

theorem armAck_of_set {w : Watch} {now : Nat} (h : w.conversation.awaitsAcks now = true)
    (hset : w.conversation.ackTimer.isSome) (self : Nat) : w.armAck self now = (true, w) := by
  unfold awaitsAcks at h
  cases hd : w.conversation.ackDeadline with
  | none =>
    rw [hd] at h
    cases h
  | some deadline =>
    rw [hd] at h
    have hlt : now < deadline := of_decide_eq_true h
    simp only [armAck, hd, if_neg (Nat.not_le_of_lt hlt), hset, if_true]

theorem armAck_of_unset {w : Watch} {now deadline : Nat}
    (hd : w.conversation.ackDeadline = some deadline) (hlt : now < deadline)
    (hunset : w.conversation.ackTimer = none) (hrun : w.timers.stopped = false) (self : Nat) :
    w.armAck self now = (true,
      { conversation := { w.conversation with ackTimer := some w.timers.next }
        timers := w.timers.add .ack self deadline
        notes := w.notes }) := by
  have hdue : now + (deadline - now) = deadline := by omega
  unfold armAck
  simp only [hd, if_neg (Nat.not_le_of_lt hlt), hunset, Option.isSome_none, if_false,
    Bool.false_eq_true, Timers.schedule_of_running hrun, hdue, List.append_nil]

theorem armAck_arms (w : Watch) (self now : Nat) :
    (w.armAck self now).2.conversation.arms = w.conversation.arms := by
  unfold armAck
  simp only
  split
  · rfl
  · split
    · rfl
    · split <;> rfl

/-! ## Firing -/

theorem onResponseTimer_of_kept {w : Watch} {id : Nat} (hopen : w.conversation.ended = false)
    (hkept : w.conversation.responseTimer = some id) :
    w.onResponseTimer id =
      some ({ w with conversation := { w.conversation with responseTimer := none } }.finish
        .responseTimeout) := by
  have hcurrent : ¬(w.conversation.ended ||
      decide (w.conversation.responseTimer ≠ some id)) = true := by
    simp [hopen, hkept]
  unfold onResponseTimer
  simp only [if_neg hcurrent]

theorem onAckTimer_of_kept {w : Watch} {id : Nat} (hopen : w.conversation.ended = false)
    (hkept : w.conversation.ackTimer = some id) :
    w.onAckTimer id =
      if w.conversation.awaitsAnswers then
        some ({ w with conversation := { w.conversation with ackTimer := none } }, none)
      else
        some (({ w with conversation := { w.conversation with ackTimer := none } }.finish
            .ackTimeout).1, some (w.conversation.ending .ackTimeout)) := by
  have hcurrent : ¬(w.conversation.ended ||
      decide (w.conversation.ackTimer ≠ some id)) = true := by
    simp [hopen, hkept]
  unfold onAckTimer
  simp only [if_neg hcurrent]
  rfl

theorem onResponseTimer_of_stray {w : Watch} {id : Nat}
    (h : w.conversation.responseTimer ≠ some id) : w.onResponseTimer id = none := by
  simp only [onResponseTimer, h, ne_eq, not_false_eq_true, decide_true, Bool.or_true, if_true]

theorem onAckTimer_of_stray {w : Watch} {id : Nat} (h : w.conversation.ackTimer ≠ some id) :
    w.onAckTimer id = none := by
  simp only [onAckTimer, h, ne_eq, not_false_eq_true, decide_true, Bool.or_true, if_true]

end Watch

/-- How it stands with the timer for the window: how many were set, the one that is kept, and
the deadline. -/
inductive WindowStage (now : Nat) : Nat → Option Nat → Option Nat → Prop where
  | unset {deadline : Option Nat} : WindowStage now 0 none deadline
  | set {id deadline : Nat} : now ≤ deadline → WindowStage now 1 (some id) (some deadline)
  | spent {deadline : Nat} : deadline ≤ now → WindowStage now 1 none (some deadline)

theorem WindowStage.count_le_one {now acks : Nat} {kept deadline : Option Nat}
    (h : WindowStage now acks kept deadline) : acks ≤ 1 := by
  cases h with
  | unset => exact Nat.zero_le 1
  | set _ => exact Nat.le_refl 1
  | spent _ => exact Nat.le_refl 1

theorem WindowStage.of_no_deadline {now acks : Nat} {kept : Option Nat}
    (h : WindowStage now acks kept none) : acks = 0 ∧ kept = none := by
  cases h
  exact ⟨rfl, rfl⟩

theorem WindowStage.in_time {now acks deadline : Nat} {kept : Option Nat}
    (h : WindowStage now acks kept (some deadline)) (hkept : kept.isSome) : now ≤ deadline := by
  cases h with
  | unset => cases hkept
  | set hle => exact hle
  | spent _ => cases hkept

/-- How an open conversation minds its timers.  The one for answers was set at `armed`, if it
was, and `acks` timers were set for the window. -/
structure Minds (owner now : Nat) (armed : Option Nat) (acks others : Nat) (w : Watch) :
    Prop where
  running : w.timers.stopped = false
  numbers : w.timers.next = others + w.conversation.arms + acks
  response :
    w.timers.Shows owner .response w.conversation.responseTimer (w.conversation.dueAfter armed)
  kept : w.conversation.responseTimer.isSome = armed.isSome
  ahead : armed.isSome → now ≤ w.conversation.dueAfter armed
  ack : w.timers.Shows owner .ack w.conversation.ackTimer (w.conversation.ackDeadline.getD 0)
  apart : ∀ id, w.conversation.ackTimer = some id → w.conversation.responseTimer ≠ some id
  window : WindowStage now acks w.conversation.ackTimer w.conversation.ackDeadline

namespace Minds

open Conversation

variable {self now acks others : Nat} {armed : Option Nat} {w : Watch}

/-- A message is recorded. -/
theorem records (h : Minds self now armed acks others w) {c : Conversation}
    (hc : SameTimers w.conversation c) (ht : c.timeoutMs = w.conversation.timeoutMs) :
    Minds self now armed acks others { w with conversation := c } := by
  have hdue : c.dueAfter armed = w.conversation.dueAfter armed := by
    rw [dueAfter, dueAfter, hc.startedAt, ht]
  constructor
  · exact h.running
  · show w.timers.next = others + c.arms + acks
    rw [hc.arms]
    exact h.numbers
  · show w.timers.Shows self .response c.responseTimer (c.dueAfter armed)
    rw [hdue, hc.responseTimer]
    exact h.response
  · show c.responseTimer.isSome = armed.isSome
    rw [hc.responseTimer]
    exact h.kept
  · show armed.isSome → now ≤ c.dueAfter armed
    rw [hdue]
    exact h.ahead
  · show w.timers.Shows self .ack c.ackTimer (c.ackDeadline.getD 0)
    rw [hc.ackTimer, hc.ackDeadline]
    exact h.ack
  · show ∀ id, c.ackTimer = some id → c.responseTimer ≠ some id
    rw [hc.ackTimer, hc.responseTimer]
    exact h.apart
  · show WindowStage now acks c.ackTimer c.ackDeadline
    rw [hc.ackTimer, hc.ackDeadline]
    exact h.window

/-- The timer for answers is set, maybe for another deadline than before. -/
theorem rearm (h : Minds self now armed acks others w) {c : Conversation}
    (hc : SameTimers w.conversation c) :
    Minds self now (some now) acks others
      ({ w with conversation := c }.armResponse self now) := by
  have hrun : ({ w with conversation := c } : Watch).timers.stopped = false := h.running
  rw [Watch.armResponse_of_running hrun]
  have hkept : c.responseTimer = w.conversation.responseTimer := hc.responseTimer
  have hack : w.timers.Shows self .ack c.ackTimer (c.ackDeadline.getD 0) := by
    rw [hc.ackTimer, hc.ackDeadline]
    exact h.ack
  have hapart : ∀ id, c.ackTimer = some id → c.responseTimer ≠ some id := by
    rw [hc.ackTimer, hc.responseTimer]
    exact h.apart
  have hcleared := h.response.cancel_kept
  rw [← hkept] at hcleared
  have hshows := hcleared.add_self (c.dueAfter (some now))
  rw [Timers.cancel?_next] at hshows
  constructor
  · show (w.timers.cancel? c.responseTimer).stopped = false
    rw [Timers.cancel?_stopped]
    exact h.running
  · show (w.timers.cancel? c.responseTimer).next + 1 = others + (c.arms + 1) + acks
    have hnumbers := h.numbers
    have harms := hc.arms
    rw [Timers.cancel?_next]
    omega
  · exact hshows
  · rfl
  · exact fun _ => Nat.le_max_left _ _
  · exact (hack.cancel_other hapart).add_other (by decide) _
  · -- the number that is taken is not that of the timer for the window
    intro id hid heq
    have hlt := hack.taken id hid
    cases heq
    exact Nat.lt_irrefl _ hlt
  · show WindowStage now acks c.ackTimer c.ackDeadline
    rw [hc.ackTimer, hc.ackDeadline]
    exact h.window

theorem armResponse (h : Minds self now armed acks others w) :
    Minds self now (some now) acks others (w.armResponse self now) :=
  h.rearm ⟨rfl, rfl, rfl, rfl, rfl⟩

/-- The timer for the window is set if the window is open and it was not set before. -/
theorem armAck (h : Minds self now armed acks others w) :
    ∃ acks', acks ≤ acks' ∧ Minds self now armed acks' others (w.armAck self now).2 := by
  cases hopen : w.conversation.awaitsAcks now with
  | false =>
    rw [Watch.armAck_of_closed hopen]
    exact ⟨acks, Nat.le_refl acks, h⟩
  | true =>
    cases hset : w.conversation.ackTimer with
    | some id =>
      rw [Watch.armAck_of_set hopen (by rw [hset]; rfl)]
      exact ⟨acks, Nat.le_refl acks, h⟩
    | none =>
      cases hd : w.conversation.ackDeadline with
      | none =>
        rw [awaitsAcks, hd] at hopen
        cases hopen
      | some deadline =>
        rw [awaitsAcks, hd] at hopen
        have hlt : now < deadline := of_decide_eq_true hopen
        -- no timer was set before: one that was has fired, and the window is closed
        have hacks : acks = 0 := by
          have hwindow := h.window
          rw [hset, hd] at hwindow
          cases hwindow with
          | unset => rfl
          | spent hle => omega
        rw [Watch.armAck_of_unset hd hlt hset h.running]
        have hack := h.ack
        rw [hset] at hack
        refine ⟨1, by omega, ?_⟩
        constructor
        · exact h.running
        · show w.timers.next + 1 = others + w.conversation.arms + 1
          have hnumbers := h.numbers
          omega
        · exact h.response.add_other (by decide) _
        · exact h.kept
        · exact h.ahead
        · show (w.timers.add .ack self deadline).Shows self .ack (some w.timers.next)
            (w.conversation.ackDeadline.getD 0)
          rw [hd]
          exact hack.add_self deadline
        · intro id hid heq
          have hlt := h.response.taken id heq
          cases hid
          exact Nat.lt_irrefl _ hlt
        · show WindowStage now 1 (some w.timers.next) w.conversation.ackDeadline
          rw [hd]
          exact .set (Nat.le_of_lt hlt)

/-! ## Other things that happen -/

/-- Opening the window again does not move it. -/
theorem listen (h : Minds self now armed acks others w)
    (hagain : ∀ d, w.conversation.ackDeadline = some d →
      w.conversation.listen.ackDeadline = some d) :
    Minds self now armed acks others { w with conversation := w.conversation.listen } := by
  rw [listen_eq]
  cases hd : w.conversation.ackDeadline with
  | some d =>
    rw [hagain d hd, ← hd]
    exact h
  | none =>
    have hwindow := h.window
    rw [hd] at hwindow
    obtain ⟨rfl, hnot⟩ := hwindow.of_no_deadline
    have hack := h.ack
    rw [hnot] at hack
    constructor
    · exact h.running
    · exact h.numbers
    · exact h.response
    · exact h.kept
    · exact h.ahead
    · show w.timers.Shows self .ack w.conversation.ackTimer _
      rw [hnot]
      exact hack.at_any _
    · exact h.apart
    · show WindowStage now 0 w.conversation.ackTimer _
      rw [hnot]
      exact .unset

/-- Other conversations schedule and cancel timers. -/
theorem beside (h : Minds self now armed acks others w) {t : Timers}
    (hb : Timers.Beside self w.timers t) :
    ∃ others', Minds self now armed acks others' { w with timers := t } := by
  refine ⟨others + (t.next - w.timers.next), ?_⟩
  constructor
  · exact hb.stopped.trans h.running
  · show t.next = others + (t.next - w.timers.next) + w.conversation.arms + acks
    have hnumbers := h.numbers
    have hnext := hb.next
    omega
  · exact h.response.beside hb
  · exact h.kept
  · exact h.ahead
  · exact h.ack.beside hb
  · exact h.apart
  · exact h.window

/-- Time passes, but not beyond what is pending. -/
theorem passes (h : Minds self now armed acks others w) {later : Nat} (hlater : now ≤ later)
    (hdue : ∀ kind, ∀ p ∈ w.timers.of self kind, later ≤ p.due) :
    Minds self later armed acks others w := by
  constructor
  · exact h.running
  · exact h.numbers
  · exact h.response
  · exact h.kept
  · intro harmed
    rw [← h.kept] at harmed
    obtain ⟨id, hid⟩ := Option.isSome_iff_exists.mp harmed
    have hpending := h.response.pending
    rw [hid] at hpending
    exact hdue .response
      { id, kind := .response, owner := self, due := w.conversation.dueAfter armed }
      (by rw [hpending]; exact List.mem_singleton_self _)
  · exact h.ack
  · exact h.apart
  · have hpending := h.ack.pending
    have hwindow := h.window
    generalize w.conversation.ackTimer = kept at hpending hwindow
    generalize w.conversation.ackDeadline = deadline at hpending hwindow
    cases hwindow with
    | unset => exact .unset
    | @set id d hle =>
      exact .set (hdue .ack { id, kind := .ack, owner := self, due := d }
        (by rw [hpending]; exact List.mem_singleton_self _))
    | spent hle => exact .spent (Nat.le_trans hle hlater)

/-- A timer for the window is the only one, and due when the window closes. -/
theorem window_of_mem (h : Minds self now armed acks others w) {p : Timer}
    (hp : p ∈ w.timers.of self .ack) :
    w.timers.of self .ack = [p] ∧ w.conversation.ackDeadline = some p.due := by
  obtain ⟨hkept, hdue, honly⟩ := h.ack.eq_of_mem hp
  have hwindow := h.window
  rw [hkept] at hwindow
  generalize w.conversation.ackDeadline = deadline at hwindow hdue ⊢
  cases hwindow with
  | set _ => exact ⟨honly, by rw [hdue]; rfl⟩

/-! ## Messages -/

/-- An acknowledgement sets the timer for answers if it moves the deadline. -/
theorem foldAck (h : Minds self now armed acks others w) {c : Conversation}
    (hc : SameTimers w.conversation c) (ht : c.timeoutMs = w.conversation.timeoutMs) (a : Ack)
    (first : Bool) :
    w.conversation.arms ≤
        (({ w with conversation := c } : Watch).foldAck self now a first).conversation.arms ∧
      Minds self now
        (if w.conversation.arms <
            (({ w with conversation := c } : Watch).foldAck self now a first).conversation.arms
          then some now else armed) acks others
        (({ w with conversation := c } : Watch).foldAck self now a first) := by
  have hboth := hc.trans (takeAck_sameTimers c a first)
  have htimeout := (takeAck_timeoutMs c a first).trans ht
  have harms := hboth.arms
  unfold Watch.foldAck
  simp only
  split
  · refine ⟨Nat.le_of_eq harms.symm, ?_⟩
    rw [if_neg (Nat.not_lt_of_le (Nat.le_of_eq harms))]
    exact h.records hboth htimeout
  · have hextended : SameTimers w.conversation
        { c.takeAck a first with timeoutMs := (c.takeAck a first).foldedTimeout } :=
      hboth.trans ⟨rfl, rfl, rfl, rfl, rfl⟩
    have hmore : w.conversation.arms < (c.takeAck a first).arms + 1 := by omega
    exact ⟨Nat.le_of_lt hmore, (if_pos hmore).symm ▸ h.rearm hextended⟩

/-- So does a message that carries one, and no other. -/
theorem takeIn (h : Minds self now armed acks others w) (m : Message) :
    w.conversation.arms ≤ (w.takeIn self now m).conversation.arms ∧
      Minds self now
        (if w.conversation.arms < (w.takeIn self now m).conversation.arms then some now
          else armed) acks others (w.takeIn self now m) := by
  have hrecord := record_sameTimers w.conversation m
  have htimeout := record_timeoutMs w.conversation m
  unfold Watch.takeIn
  cases m.ack with
  | none =>
    refine ⟨Nat.le_of_eq hrecord.arms.symm, ?_⟩
    rw [if_neg (Nat.not_lt_of_le (Nat.le_of_eq hrecord.arms))]
    exact h.records hrecord htimeout
  | some a => exact h.foldAck hrecord htimeout a _

end Minds

/-- A conversation with no timer pending, which set `acks` timers for its window. -/
structure Rests (owner acks others : Nat) (w : Watch) : Prop where
  numbers : w.timers.next = others + w.conversation.arms + acks
  idle : ∀ kind, w.timers.of owner kind = []

namespace Minds

open Conversation

variable {self now acks others : Nat} {armed : Option Nat} {w : Watch}

/-! ## The end -/

theorem cancelTimers (h : Minds self now armed acks others w) :
    Rests self acks others w.cancelTimers where
  numbers := by
    show ((w.timers.cancel? _).cancel? _).next = _
    rw [Timers.cancel?_next, Timers.cancel?_next]
    exact h.numbers
  idle := fun kind => by
    cases kind with
    | response =>
      exact (h.response.cancel_kept.cancel_other (fun _ hid => nomatch hid)).nil
    | ack =>
      exact (h.ack.cancel_other fun id hid => h.apart id hid).cancel_kept.nil

theorem finish (h : Minds self now armed acks others w) (reason : Reason) :
    Rests self acks others (w.finish reason).1 :=
  ⟨h.cancelTimers.numbers, h.cancelTimers.idle⟩

theorem abort (h : Minds self now armed acks others w) (hopen : w.conversation.ended = false) :
    Rests self acks others w.abort.2 := by
  simp only [Watch.abort, hopen, if_false, Bool.false_eq_true]
  exact ⟨h.cancelTimers.numbers, h.cancelTimers.idle⟩

/-- A message that does not bring the end. -/
theorem receive_goesOn (h : Minds self now armed acks others w) {m : Message} {v : Watch}
    (hr : w.receive self now m = some (v, none)) :
    w.conversation.arms ≤ v.conversation.arms ∧ ∃ acks', acks ≤ acks' ∧
      Minds self now (if w.conversation.arms < v.conversation.arms then some now else armed)
        acks' others v := by
  have htake := h.takeIn m
  have hopen := (Watch.receive_eq_some hr).1
  cases ha : (w.conversation.take m).awaitsAnswers with
  | true =>
    rw [Watch.receive_of_awaitsAnswers hopen ha] at hr
    cases hr
    exact ⟨htake.1, acks, Nat.le_refl acks, htake.2⟩
  | false =>
    cases hk : w.conversation.awaitsAcks now with
    | true =>
      rw [Watch.receive_of_awaitsAcks hopen ha hk] at hr
      cases hr
      rw [Watch.armAck_arms]
      exact ⟨htake.1, htake.2.armAck⟩
    | false =>
      rw [Watch.receive_of_complete hopen ha hk] at hr
      cases hr

/-- A message that brings the end. -/
theorem receive_ends (h : Minds self now armed acks others w) {m : Message} {v : Watch}
    {e : Ending} (hr : w.receive self now m = some (v, some e)) : Rests self acks others v := by
  obtain ⟨hopen, ⟨hnone, -⟩ | ⟨-, -, ha, hk⟩⟩ := Watch.receive_eq_some hr
  · cases hnone
  · rw [Watch.receive_of_complete hopen ha hk] at hr
    cases hr
    exact (h.takeIn m).2.finish _

theorem wait (h : Minds self now armed acks others w) (hopen : w.conversation.ended = false) :
    w.conversation.arms < (w.wait self now).conversation.arms ∧ ∃ acks', acks ≤ acks' ∧
      Minds self now (some now) acks' others (w.wait self now) := by
  have hset := h.armResponse
  have harms : (w.armResponse self now).conversation.arms = w.conversation.arms + 1 := rfl
  unfold Watch.wait
  simp only [hopen, if_false, Bool.false_eq_true]
  split
  · exact ⟨by omega, acks, Nat.le_refl acks, hset⟩
  · rw [Watch.armAck_arms]
    exact ⟨by omega, hset.armAck⟩

/-! ## Timers that fire -/

/-- The timer for answers that fires is the one that is kept, and brings the end. -/
theorem fires_response (h : Minds self now armed acks others w)
    (hopen : w.conversation.ended = false) {p : Timer} (hp : p ∈ w.timers.of self .response) :
    ∃ v e, ({ w with timers := w.timers.cancel p.id } : Watch).onResponseTimer p.id =
        some (v, e) ∧ Rests self acks others v := by
  obtain ⟨hkept, -⟩ := h.response.eq_of_mem hp
  have hack := h.ack.cancel_other fun id hid => h.apart id hid
  have hcleared := h.response.cancel_kept
  rw [hkept] at hack hcleared
  refine ⟨_, _, Watch.onResponseTimer_of_kept hopen hkept, ?_, ?_⟩
  · show ((w.timers.cancel p.id).cancel? w.conversation.ackTimer).next = _
    rw [Timers.cancel?_next]
    exact h.numbers
  · intro kind
    show ((w.timers.cancel p.id).cancel? w.conversation.ackTimer).of self kind = []
    cases kind with
    | response => exact (hcleared.cancel_other fun _ hid => nomatch hid).nil
    | ack => exact hack.cancel_kept.nil

/-- The timer for the window that fires is the one that is kept, and the window is closed.
The conversation ends unless it waits for answers. -/
theorem fires_ack (h : Minds self now armed acks others w)
    (hopen : w.conversation.ended = false) {p : Timer} (hp : p ∈ w.timers.of self .ack)
    (hdue : p.due = now) :
    ∃ v end?, ({ w with timers := w.timers.cancel p.id } : Watch).onAckTimer p.id =
        some (v, end?) ∧
      ((end? = none ∧ v.timers.next = w.timers.next ∧ Minds self now armed acks others v) ∨
        (end?.isSome ∧ Rests self acks others v)) := by
  obtain ⟨hkept, hwhen, -⟩ := h.ack.eq_of_mem hp
  have hcleared := h.ack.cancel_kept
  have hresponse := h.response.cancel_other fun id hid heq => h.apart id heq hid
  rw [hkept] at hcleared hresponse
  have hwindow := h.window
  rw [hkept] at hwindow
  generalize hdeadline : w.conversation.ackDeadline = deadline at hwindow
  cases hwindow with
  | @set id d hle =>
    have hspent : d ≤ now := by
      rw [hdeadline, Option.getD_some] at hwhen
      omega
    have hminds : Minds self now armed 1 others
        { w with
          conversation := { w.conversation with ackTimer := none }
          timers := w.timers.cancel p.id } := by
      constructor
      · exact h.running
      · exact h.numbers
      · exact hresponse
      · exact h.kept
      · exact h.ahead
      · exact hcleared.at_any _
      · exact fun _ hid => nomatch hid
      · show WindowStage now 1 none w.conversation.ackDeadline
        rw [hdeadline]
        exact .spent hspent
    have hfire := Watch.onAckTimer_of_kept
      (w := { w with timers := w.timers.cancel p.id }) hopen hkept
    rw [hfire]
    split
    · exact ⟨_, _, rfl, Or.inl ⟨rfl, rfl, hminds⟩⟩
    · exact ⟨_, _, rfl, Or.inr ⟨rfl, hminds.finish .ackTimeout⟩⟩

end Minds
end Colloquy
