/-
The deadline of a conversation is the latest that anyone asked for.

A conversation keeps of each responder only the deadline it asked for last, and forgets the
ones before.  They are not lost: `Folds` says that none that is kept lies beyond the deadline
of the conversation, so that folding the kept ones into it takes in what the newest message
asks for and nothing else.  By induction over any course the deadline is the maximum of the
request's own and of all that was asked for, whatever came in between, and the timer for
answers is set once for each time the request went out and once for each message with which
that maximum grew.
-/
import Mathlib.Order.Bounds.Basic
import Colloquy.Proofs.Counting
import Colloquy.Proofs.Lifetime
import Colloquy.Proofs.Reasons

namespace Colloquy

namespace History

/-- The deadline that a message asks for. -/
def asked (m : Message) : Option Nat := m.ack.bind Ack.timeoutMs

/-- The deadline that a message asks for in the name of a responder. -/
def askedBy (responder : String) (m : Message) : Option Nat :=
  m.ack.bind fun a => if a.responderId = responder then a.timeoutMs else none

/-- What a responder asked for last. -/
def suggestion (responder : String) (ms : List Message) : Option Nat :=
  (ms.filterMap (askedBy responder)).getLast?

/-- The latest deadline among the first one and those that were asked for. -/
def deadline (first : Nat) (ms : List Message) : Nat := (ms.filterMap asked).foldl max first

/-- At how many messages the latest deadline moved. -/
def rises (first : Nat) (ms : List Message) : Nat :=
  (List.range ms.length).countP fun i =>
    deadline first (ms.take i) < deadline first (ms.take (i + 1))

/-! ## Histories -/

theorem asked_of_ack {m : Message} {a : Ack} (h : m.ack = some a) : asked m = a.timeoutMs := by
  simp only [asked, h, Option.bind_some]

theorem asked_of_no_ack {m : Message} (h : m.ack = none) : asked m = none := by
  simp only [asked, h, Option.bind_none]

theorem deadline_append_singleton (first : Nat) (ms : List Message) (m : Message) :
    deadline first (ms ++ [m]) = max (deadline first ms) ((asked m).getD 0) := by
  unfold deadline
  rw [List.filterMap_append, List.foldl_append]
  cases hm : asked m with
  | none => simp [hm]
  | some t => simp [hm]

theorem suggestion_append_singleton (responder : String) (ms : List Message) (m : Message) :
    suggestion responder (ms ++ [m]) = (askedBy responder m).or (suggestion responder ms) := by
  unfold suggestion
  rw [List.filterMap_append, List.getLast?_append]
  cases hm : askedBy responder m with
  | none => simp [hm]
  | some t => simp [hm]

theorem rises_append_singleton (first : Nat) (ms : List Message) (m : Message) :
    rises first (ms ++ [m]) = rises first ms +
      if deadline first ms < deadline first (ms ++ [m]) then 1 else 0 := by
  have hlast : (ms ++ [m]).take (ms.length + 1) = ms ++ [m] := List.take_of_length_le (by simp)
  have hbefore : (List.range ms.length).countP (fun i =>
      decide (deadline first ((ms ++ [m]).take i) < deadline first ((ms ++ [m]).take (i + 1)))) =
      rises first ms := by
    apply List.countP_congr
    intro i hi
    have hlt : i < ms.length := List.mem_range.mp hi
    rw [List.take_append_of_le_length (Nat.le_of_lt hlt), List.take_append_of_le_length hlt]
  unfold rises at hbefore ⊢
  rw [List.length_append, List.length_singleton, List.range_succ, List.countP_append, hbefore,
    List.countP_singleton, hlast, List.take_left']
  · simp only [decide_eq_true_eq]
  · rfl

/-- The latest deadline is one of them, and none of them is later. -/
theorem isGreatest_deadline (first : Nat) (ms : List Message) :
    IsGreatest {t | t = first ∨ ∃ m ∈ ms, asked m = some t} (deadline first ms) := by
  induction ms using List.reverseRecOn with
  | nil =>
    constructor
    · exact Or.inl rfl
    · rintro t (rfl | ⟨m, hm, -⟩)
      · exact Nat.le_refl _
      · cases hm
  | append_singleton ms m ih =>
    obtain ⟨hmem, hbound⟩ := ih
    rw [deadline_append_singleton]
    constructor
    · rcases Nat.le_total ((asked m).getD 0) (deadline first ms) with hle | hle
      · rw [Nat.max_eq_left hle]
        rcases hmem with hfirst | ⟨k, hk, hasked⟩
        · exact Or.inl hfirst
        · exact Or.inr ⟨k, List.mem_append_left _ hk, hasked⟩
      · rw [Nat.max_eq_right hle]
        cases ha : asked m with
        | none =>
          -- Nothing is asked for, and the latest deadline is the start of time.
          rw [ha] at hle
          have hzero : deadline first ms = 0 := Nat.le_zero.mp hle
          rw [hzero] at hmem
          rcases hmem with hfirst | ⟨k, hk, hasked⟩
          · exact Or.inl hfirst
          · exact Or.inr ⟨k, List.mem_append_left _ hk, hasked⟩
        | some t => exact Or.inr ⟨m, by simp, ha⟩
    · rintro t (rfl | ⟨k, hk, hasked⟩)
      · exact Nat.le_trans (hbound (Or.inl rfl)) (Nat.le_max_left _ _)
      · rcases List.mem_append.mp hk with hk | hk
        · exact Nat.le_trans (hbound (Or.inr ⟨k, hk, hasked⟩)) (Nat.le_max_left _ _)
        · rw [List.mem_singleton] at hk
          subst hk
          rw [hasked]
          exact Nat.le_max_right _ _

/-- It does not matter in which order messages come, nor how often. -/
theorem deadline_congr {first : Nat} {ms ns : List Message} (h : ∀ m, m ∈ ms ↔ m ∈ ns) :
    deadline first ms = deadline first ns := by
  have hms := isGreatest_deadline first ms
  simp only [h] at hms
  exact hms.unique (isGreatest_deadline first ns)

end History

open History (asked askedBy suggestion deadline rises)

/-! ## One message -/

/-- A maximum stays within what bounds all that is folded into it. -/
theorem foldl_max_le {l : List Nat} {n bound : Nat} (hn : n ≤ bound) (hl : ∀ k ∈ l, k ≤ bound) :
    l.foldl max n ≤ bound := by
  induction l generalizing n with
  | nil => exact hn
  | cons j l ih =>
    rw [List.foldl_cons]
    apply ih
    · exact Nat.max_le.mpr ⟨hn, hl j (List.mem_cons_self ..)⟩
    · exact fun k hk => hl k (List.mem_cons_of_mem j hk)

namespace Conversation

/-- `d` is `c` with other records or other timers, but for the number of those for answers. -/
structure SameDeadlines (c d : Conversation) : Prop where
  timeoutMs : d.timeoutMs = c.timeoutMs
  suggested : d.suggested = c.suggested
  arms : d.arms = c.arms

theorem SameDeadlines.trans {c d e : Conversation} (h : SameDeadlines c d)
    (h' : SameDeadlines d e) : SameDeadlines c e where
  timeoutMs := h'.timeoutMs.trans h.timeoutMs
  suggested := h'.suggested.trans h.suggested
  arms := h'.arms.trans h.arms

theorem record_sameDeadlines (c : Conversation) (m : Message) : SameDeadlines c (c.record m) := by
  rw [record_eq]
  exact ⟨rfl, rfl, rfl⟩

theorem takeAck_suggested (c : Conversation) (a : Ack) (first : Bool) :
    (c.takeAck a first).suggested =
      match a.timeoutMs with
      | some t => c.suggested.put a.responderId t
      | none => c.suggested := by
  unfold takeAck
  simp only [announce_eq]
  cases a.responsesRemaining with
  | none => cases a.timeoutMs <;> rfl
  | some n => cases a.timeoutMs <;> cases first <;> rfl

/-- If none of the deadlines that are kept lies beyond the one that holds, what all of them
agree with after an acknowledgement is the later one of that and the one it asks for. -/
theorem foldedTimeout_takeAck {c : Conversation} (h : ∀ t ∈ c.suggested.values, t ≤ c.timeoutMs)
    (a : Ack) (first : Bool) :
    (c.takeAck a first).foldedTimeout = max c.timeoutMs (a.timeoutMs.getD 0) := by
  apply Nat.le_antisymm
  · apply foldl_max_le
    · rw [takeAck_timeoutMs]
      exact Nat.le_max_left _ _
    · intro t ht
      rw [takeAck_suggested] at ht
      cases ha : a.timeoutMs with
      | none =>
        rw [ha] at ht
        exact Nat.le_trans (h t ht) (Nat.le_max_left _ _)
      | some t' =>
        rw [ha] at ht
        rcases Table.mem_values_put ht with rfl | ht
        · exact Nat.le_max_right _ _
        · exact Nat.le_trans (h t ht) (Nat.le_max_left _ _)
  · apply Nat.max_le.mpr
    constructor
    · rw [← c.takeAck_timeoutMs a first]
      exact Watch.le_foldedTimeout _
    · cases ha : a.timeoutMs with
      | none => exact Nat.zero_le _
      | some t => exact le_foldedTimeout_takeAck c ha first

end Conversation

/-- The deadlines of a conversation that has handled `ms` and whose request went out `waits`
times. -/
structure Folds (first waits : Nat) (ms : List Message) (c : Conversation) : Prop where
  timeoutMs : c.timeoutMs = deadline first ms
  suggested : ∀ r, c.suggested.get? r = suggestion r ms
  /-- What was asked for is in the deadline already. -/
  within : ∀ t ∈ c.suggested.values, t ≤ c.timeoutMs
  arms : c.arms = waits + rises first ms

namespace Folds

open Conversation

variable {first waits self now : Nat} {ms : List Message} {c d : Conversation} {w : Watch}

theorem start (correlation topic : String) (now : Nat) (terms : Terms) :
    Folds terms.responseTimeoutMs 0 [] (.start correlation topic now terms) where
  timeoutMs := rfl
  suggested := fun _ => rfl
  within := fun _ ht => nomatch ht
  arms := rfl

theorem of_same (h : Folds first waits ms c) (hs : SameDeadlines c d) : Folds first waits ms d where
  timeoutMs := hs.timeoutMs.trans h.timeoutMs
  suggested := by
    rw [hs.suggested]
    exact h.suggested
  within := by
    rw [hs.suggested, hs.timeoutMs]
    exact h.within
  arms := hs.arms.trans h.arms

/-- A message that acknowledges nothing asks for nothing. -/
theorem silent (h : Folds first waits ms c) {m : Message} (hm : m.ack = none) :
    Folds first waits (ms ++ [m]) c := by
  have hsame : deadline first (ms ++ [m]) = deadline first ms := by
    rw [History.deadline_append_singleton, History.asked_of_no_ack hm, Option.getD_none]
    exact Nat.max_zero _
  refine ⟨?_, ?_, h.within, ?_⟩
  · rw [hsame]
    exact h.timeoutMs
  · intro r
    have hby : askedBy r m = none := by simp only [askedBy, hm, Option.bind_none]
    rw [History.suggestion_append_singleton, hby, Option.none_or]
    exact h.suggested r
  · rw [History.rises_append_singleton, hsame, if_neg (Nat.lt_irrefl _)]
    exact h.arms

/-- With an acknowledgement the timer for answers is set if the latest deadline moves. -/
theorem foldAck (h : Folds first waits ms w.conversation) (self now : Nat) {m : Message} {a : Ack}
    (hm : m.ack = some a) (fresh : Bool) :
    Folds first waits (ms ++ [m]) (w.foldAck self now a fresh).conversation := by
  have hfolded := foldedTimeout_takeAck h.within a fresh
  have hdeadline : deadline first (ms ++ [m]) =
      max w.conversation.timeoutMs (a.timeoutMs.getD 0) := by
    rw [History.deadline_append_singleton, History.asked_of_ack hm, h.timeoutMs]
  have htimeout : (w.foldAck self now a fresh).conversation.timeoutMs =
      max w.conversation.timeoutMs (a.timeoutMs.getD 0) := by
    rw [Watch.foldAck_timeoutMs, hfolded]
  have hsuggested : (w.foldAck self now a fresh).conversation.suggested =
      (w.conversation.takeAck a fresh).suggested := by
    simp only [Watch.foldAck]
    split <;> rfl
  refine ⟨htimeout.trans hdeadline.symm, ?_, ?_, ?_⟩
  · intro r
    rw [hsuggested, takeAck_suggested, History.suggestion_append_singleton]
    have hby : askedBy r m = if a.responderId = r then a.timeoutMs else none := by
      simp only [askedBy, hm, Option.bind_some]
    rw [hby]
    cases ha : a.timeoutMs with
    | none =>
      rw [ite_self, Option.none_or]
      exact h.suggested r
    | some t =>
      simp only [Table.get?_put]
      by_cases hr : r = a.responderId
      · rw [if_pos hr, if_pos hr.symm]
        rfl
      · rw [if_neg hr, if_neg (fun hr' => hr hr'.symm), Option.none_or]
        exact h.suggested r
  · intro t ht
    rw [hsuggested] at ht
    rw [htimeout, ← hfolded]
    exact (Watch.le_foldl_max _ _).2 t ht
  · rw [History.rises_append_singleton, hdeadline, ← h.timeoutMs]
    have harms := (takeAck_sameTimers w.conversation a fresh).arms
    have hkeep := w.conversation.takeAck_timeoutMs a fresh
    have hafter : (w.foldAck self now a fresh).conversation.arms =
        w.conversation.arms +
          if w.conversation.timeoutMs < max w.conversation.timeoutMs (a.timeoutMs.getD 0)
          then 1 else 0 := by
      simp only [Watch.foldAck, hfolded, hkeep]
      by_cases hle : max w.conversation.timeoutMs (a.timeoutMs.getD 0) = w.conversation.timeoutMs
      · rw [if_pos hle, if_neg (by omega)]
        exact harms
      · rw [if_neg hle, if_pos (by omega)]
        show (w.conversation.takeAck a fresh).arms + 1 = _
        rw [harms]
    rw [hafter, h.arms]
    omega

theorem takeIn (h : Folds first waits ms w.conversation) (self now : Nat) (m : Message) :
    Folds first waits (ms ++ [m]) (w.takeIn self now m).conversation := by
  have hrecord := h.of_same (record_sameDeadlines w.conversation m)
  unfold Watch.takeIn
  cases hm : m.ack with
  | none => exact hrecord.silent hm
  | some a =>
    exact foldAck (w := { w with conversation := w.conversation.record m }) hrecord self now hm _

end Folds

/-! ## Any course -/

namespace Watch

open Conversation

variable {w : Watch} {self : Nat}

theorem armAck_sameDeadlines (w : Watch) (self now : Nat) :
    SameDeadlines w.conversation (w.armAck self now).2.conversation := by
  unfold armAck
  simp only
  split
  · exact ⟨rfl, rfl, rfl⟩
  · split
    · exact ⟨rfl, rfl, rfl⟩
    · split <;> exact ⟨rfl, rfl, rfl⟩

/-- Whether an occurrence is that the request of an open conversation is out. -/
def awaits (w : Watch) (o : Occurrence) : Bool := o.waits && !w.conversation.ended

/-- How many times the request went out in a course, before the end. -/
def awaited (w : Watch) (self : Nat) : List Occurrence → Nat
  | [] => 0
  | o :: os => (w.awaits o).toNat + awaited (w.meet self o).1 self os

theorem receive_sameDeadlines {v : Watch} {now : Nat} {m : Message} {end? : Option Ending}
    (h : w.receive self now m = some (v, end?)) :
    SameDeadlines (w.takeIn self now m).conversation v.conversation := by
  obtain ⟨hopen, -⟩ := receive_eq_some h
  have harmed := (w.takeIn self now m).armAck_sameDeadlines self now
  cases ha : (w.conversation.take m).awaitsAnswers with
  | true =>
    rw [receive_of_awaitsAnswers hopen ha] at h
    cases h
    exact ⟨rfl, rfl, rfl⟩
  | false =>
    cases hk : w.conversation.awaitsAcks now with
    | true =>
      rw [receive_of_awaitsAcks hopen ha hk] at h
      cases h
      exact harmed
    | false =>
      rw [receive_of_complete hopen ha hk] at h
      cases h
      exact ⟨rfl, rfl, rfl⟩

end Watch

namespace Folds

open Conversation

variable {first waits self : Nat} {ms : List Message} {w : Watch}

theorem wait (h : Folds first waits ms w.conversation) (hopen : w.conversation.ended = false)
    (self now : Nat) : Folds first (waits + 1) ms (w.wait self now).conversation := by
  have hset : Folds first (waits + 1) ms (w.armResponse self now).conversation := by
    refine ⟨h.timeoutMs, h.suggested, h.within, ?_⟩
    show w.conversation.arms + 1 = _
    rw [h.arms]
    omega
  simp only [Watch.wait, hopen, if_false, Bool.false_eq_true]
  split
  · exact hset
  · exact hset.of_same (Watch.armAck_sameDeadlines _ self now)

/-- Only the request and messages that are handled have to do with the deadline. -/
theorem meet (h : Folds first waits ms w.conversation) (self : Nat) (o : Occurrence) :
    Folds first (waits + (w.awaits o).toNat) (ms ++ w.handles o)
      (w.meet self o).1.conversation := by
  cases o with
  | listen registered =>
    simp only [Watch.handles, Watch.awaits, Occurrence.waits, List.append_nil]
    apply h.of_same
    have hlisten : SameDeadlines w.conversation w.conversation.listen := by
      rw [listen_eq]
      exact ⟨rfl, rfl, rfl⟩
    cases registered with
    | true => exact hlisten
    | false => exact hlisten.trans ⟨rfl, rfl, rfl⟩
  | wait now =>
    simp only [Watch.handles, Watch.awaits, Occurrence.waits, List.append_nil, Bool.true_and]
    cases hopen : w.conversation.ended with
    | true =>
      simp only [Watch.meet, Watch.wait, hopen, if_true]
      exact h
    | false => exact h.wait hopen self now
  | message now m =>
    cases hr : w.receive self now m with
    | none =>
      have hended : w.conversation.ended = true := Watch.receive_eq_none_iff.mp hr
      simp only [Watch.meet, hr, Option.getD_none, Watch.handles, hended, if_true,
        List.append_nil]
      exact h
    | some r =>
      obtain ⟨v, end?⟩ := r
      obtain ⟨hopen, -⟩ := Watch.receive_eq_some hr
      simp only [Watch.meet, hr, Option.getD_some, Watch.handles, hopen, if_false,
        Bool.false_eq_true]
      exact (h.takeIn self now m).of_same (Watch.receive_sameDeadlines hr)
  | responseTimer id =>
    simp only [Watch.handles, Watch.awaits, Occurrence.waits, List.append_nil]
    apply h.of_same
    simp only [Watch.meet, Watch.onResponseTimer]
    split <;> exact ⟨rfl, rfl, rfl⟩
  | ackTimer id =>
    simp only [Watch.handles, Watch.awaits, Occurrence.waits, List.append_nil]
    apply h.of_same
    simp only [Watch.meet, Watch.onAckTimer]
    split
    · exact ⟨rfl, rfl, rfl⟩
    · split <;> exact ⟨rfl, rfl, rfl⟩
  | abort why =>
    simp only [Watch.handles, Watch.awaits, Occurrence.waits, List.append_nil]
    apply h.of_same
    simp only [Watch.meet, Watch.abort]
    split <;> exact ⟨rfl, rfl, rfl⟩
  | timers t =>
    simp only [Watch.handles, Watch.awaits, Occurrence.waits, List.append_nil]
    exact h

theorem course (h : Folds first waits ms w.conversation) (self : Nat) (os : List Occurrence) :
    Folds first (waits + w.awaited self os) (ms ++ w.handled self os)
      (w.course self os).conversation := by
  induction os generalizing w waits ms with
  | nil =>
    rw [Watch.handled, List.append_nil]
    exact h
  | cons o os ih =>
    rw [Watch.handled, Watch.awaited, Watch.course, ← List.append_assoc, ← Nat.add_assoc]
    exact ih (h.meet self o)

end Folds

namespace Watch

variable {w : Watch} {self : Nat}

theorem open_of_course_cons {o : Occurrence} {os : List Occurrence}
    (h : (w.course self (o :: os)).conversation.ended = false) :
    w.conversation.ended = false := by
  have h' : (w.course self ([] ++ o :: os)).conversation.ended = false := h
  exact open_of_course_append h'

/-- Up to its end a conversation handles all messages that come. -/
theorem handled_of_open {os : List Occurrence}
    (h : (w.course self os).conversation.ended = false) :
    w.handled self os = Occurrence.messages os := by
  induction os generalizing w with
  | nil => rfl
  | cons o os ih =>
    have hopen : w.conversation.ended = false := open_of_course_cons h
    have hrest := ih h
    cases o with
    | message now m =>
      simp only [handled, handles, hopen, if_false, Bool.false_eq_true, Occurrence.messages, hrest,
        List.singleton_append]
    | _ => exact hrest

theorem awaited_of_open {os : List Occurrence}
    (h : (w.course self os).conversation.ended = false) :
    w.awaited self os = os.countP Occurrence.waits := by
  induction os generalizing w with
  | nil => rfl
  | cons o os ih =>
    have hopen : w.conversation.ended = false := open_of_course_cons h
    rw [awaited, ih h, List.countP_cons, awaits, hopen]
    cases o.waits
    · simp
    · simp [Nat.add_comm]

/-- After any course the deadline is the latest of the request's own and of all that was asked
for in messages that were handled, though only what each responder asked for last is kept.
It does not depend on the order of these messages, nor on how often each came.  The timer for
answers was set once for each time the request went out, and once for each message at which
the latest deadline moved.  Up to the end all messages are handled, and the request goes out
each time it is to. -/
theorem deadline_is_latest (correlation topic : String) (start : Nat) (terms : Terms)
    (timers : Timers) (self : Nat) (os : List Occurrence) :
    let w := opening correlation topic start terms timers
    let c := (w.course self os).conversation
    let ms := w.handled self os
    IsGreatest {t | t = terms.responseTimeoutMs ∨ ∃ m ∈ ms, asked m = some t} c.timeoutMs ∧
      (∀ r, c.suggested.get? r = suggestion r ms) ∧
      (∀ os', (∀ m, m ∈ w.handled self os' ↔ m ∈ ms) →
        (w.course self os').conversation.timeoutMs = c.timeoutMs) ∧
      c.arms = w.awaited self os + rises terms.responseTimeoutMs ms ∧
      (c.ended = false →
        ms = Occurrence.messages os ∧ w.awaited self os = os.countP Occurrence.waits) := by
  intro w c ms
  have hstart : Folds terms.responseTimeoutMs 0 [] w.conversation :=
    Folds.start correlation topic start terms
  have hfolds := hstart.course self os
  rw [List.nil_append, Nat.zero_add] at hfolds
  refine ⟨?_, hfolds.suggested, ?_, hfolds.arms, ?_⟩
  · rw [hfolds.timeoutMs]
    exact History.isGreatest_deadline _ _
  · intro os' hsame
    have hfolds' := hstart.course self os'
    rw [List.nil_append] at hfolds'
    rw [hfolds.timeoutMs, hfolds'.timeoutMs]
    exact History.deadline_congr hsame
  · intro hopen
    exact ⟨handled_of_open hopen, awaited_of_open hopen⟩

/-- An acknowledgement of a responder that asks for a deadline. -/
def asking (id responder : String) (ms : Nat) : Message where
  id := id
  correlation := "talk"
  route := { destination := "answers" }
  stamp := { createdAt := .epoch, origin := default }
  ack := some { responderId := responder, timeoutMs := some ms }
  payload := none

/-- A responder that asks for less is taken at its word, and the deadline stays. -/
example :
    let terms : Terms := { responseTimeoutMs := 1000, wait := .exactly 1 }
    let c := ((opening "talk" "answers" 0 terms {}).course 0
      [.wait 0, .message 1 (asking "more" "a" 5000), .message 2 (asking "less" "a" 50),
        .message 3 (asking "other" "b" 4000)]).conversation
    c.suggested.get? "a" = some 50 ∧ c.timeoutMs = 5000 ∧ c.arms = 2 := by
  decide +kernel

end Watch

end Colloquy
