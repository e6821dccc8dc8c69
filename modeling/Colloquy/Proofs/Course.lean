/-
The course of a conversation: any sequence of what can happen to it.

Messages come at any time, timers fire or do not, other conversations set and cancel timers
on the same desk.  Through all of that a conversation records the messages it handles, one
after the other, and nothing else has an effect on its records: `course_book` says that they
are the fold of `take` over the messages that were handled.
-/
import Colloquy.Proofs.Watch

namespace Colloquy

/-- What can happen to a conversation. -/
inductive Occurrence where
  /-- It opens its window for acknowledgements.  Its topic can be listened to or not. -/
  | listen (registered : Bool)
  /-- Its request is out. -/
  | wait (now : Nat)
  | message (now : Nat) (m : Message)
  | responseTimer (id : Nat)
  | ackTimer (id : Nat)
  | abort (why : Failure)
  /-- Something else sets, cancels or stops timers. -/
  | timers (t : Timers)

def Occurrence.opens : Occurrence → Bool
  | .listen _ => true
  | _ => false

/-- The messages that come, whether they are handled or not. -/
def Occurrence.messages : List Occurrence → List Message
  | [] => []
  | .message _ m :: os => m :: messages os
  | _ :: os => messages os

namespace Conversation

/-- What a conversation has recorded of the messages that came. -/
def book (c : Conversation) : Conversation :=
  { c.untimed with ackDeadline := none, ended := false, completion := .waiting }

theorem book_of_untimed {c d : Conversation} (h : c.untimed = d.untimed) : c.book = d.book := by
  unfold book
  rw [h]

theorem take_book {c d : Conversation} (h : c.book = d.book) (m : Message) :
    (c.take m).book = (d.take m).book :=
  show (c.book.take m).book = (d.book.take m).book by rw [h]

theorem foldl_take_book (ms : List Message) {c d : Conversation} (h : c.book = d.book) :
    (ms.foldl take c).book = (ms.foldl take d).book := by
  induction ms generalizing c d with
  | nil => exact h
  | cons m ms ih => exact ih (take_book h m)

theorem listen_book (c : Conversation) : c.listen.book = c.book := by
  unfold listen
  split
  · split <;> rfl
  · rfl

/-- `d` is `c` with other timers, or `c` at its end. -/
structure Continues (c d : Conversation) : Prop where
  book : d.book = c.book
  ackDeadline : d.ackDeadline = c.ackDeadline
  ended : c.ended = true → d.ended = true

namespace Continues

variable {c d : Conversation}

theorem of_untimed (h : d.untimed = c.untimed) : Continues c d where
  book := book_of_untimed h
  ackDeadline := show d.untimed.ackDeadline = c.untimed.ackDeadline by rw [h]
  ended := fun he => (ended_of_untimed h).trans he

theorem of_concluded (h : d.untimed = c.concluded.untimed) : Continues c d where
  book := (of_untimed h).book
  ackDeadline := (of_untimed h).ackDeadline
  ended := fun _ => (of_untimed h).ended rfl

theorem of_dropped (h : d.untimed = c.dropped.untimed) : Continues c d where
  book := (of_untimed h).book
  ackDeadline := (of_untimed h).ackDeadline
  ended := fun _ => (of_untimed h).ended rfl

end Continues

end Conversation

namespace Watch

open Conversation

/-- A conversation at its start, with the timers of its desk. -/
def opening (correlation topic : String) (start : Nat) (terms : Terms) (timers : Timers) :
    Watch :=
  { conversation := .start correlation topic start terms, timers }

/-- What an occurrence makes of a conversation, and the end if that is what it makes. -/
def meet (w : Watch) (self : Nat) : Occurrence → Watch × Option Ending
  | .listen registered =>
    let c := w.conversation.listen
    ({ w with conversation := if registered then c else c.refuse }, none)
  | .wait now => (w.wait self now, none)
  | .message now m => (w.receive self now m).getD (w, none)
  | .responseTimer id => ((w.onResponseTimer id).map fun r => (r.1, some r.2)).getD (w, none)
  | .ackTimer id => (w.onAckTimer id).getD (w, none)
  | .abort _ => (w.abort.2, none)
  | .timers t => ({ w with timers := t }, none)

def course (w : Watch) (self : Nat) : List Occurrence → Watch
  | [] => w
  | o :: os => course (w.meet self o).1 self os

/-- The message of an occurrence, if there is one and the conversation handles it. -/
def handles (w : Watch) : Occurrence → List Message
  | .message _ m => if w.conversation.ended then [] else [m]
  | _ => []

/-- The messages that a conversation handles in its course. -/
def handled (w : Watch) (self : Nat) : List Occurrence → List Message
  | [] => []
  | o :: os => w.handles o ++ handled (w.meet self o).1 self os

theorem course_append (w : Watch) (self : Nat) (os ps : List Occurrence) :
    w.course self (os ++ ps) = (w.course self os).course self ps := by
  induction os generalizing w with
  | nil => rfl
  | cons o os ih => exact ih (w.meet self o).1

theorem handled_append (w : Watch) (self : Nat) (os ps : List Occurrence) :
    w.handled self (os ++ ps) = w.handled self os ++ (w.course self os).handled self ps := by
  induction os generalizing w with
  | nil => rfl
  | cons o os ih =>
    simp only [List.cons_append, handled, course, ih, List.append_assoc]

/-! ## Records -/

/-- A conversation with what an occurrence adds to it. -/
def joined (w : Watch) : Occurrence → Conversation
  | .listen _ => w.conversation.listen
  | .message _ m => if w.conversation.ended then w.conversation else w.conversation.take m
  | _ => w.conversation

/-- What becomes of a conversation when something happens to it.  With what is added, it goes
on, or ends, or is dropped. -/
inductive Outcome (w : Watch) (o : Occurrence) : Conversation → Option Ending → Prop where
  | goesOn {d : Conversation} : d.untimed = (w.joined o).untimed → Outcome w o d none
  | ends {d : Conversation} (reason : Reason) : w.conversation.ended = false →
      d.untimed = (w.joined o).concluded.untimed →
      (reason ≠ .responseTimeout → (w.joined o).awaitsAnswers = false) →
      Outcome w o d (some ((w.joined o).ending reason))
  | drops {d : Conversation} : w.conversation.ended = false →
      d.untimed = (w.joined o).dropped.untimed → Outcome w o d none
  | refuses {d : Conversation} : d = (w.joined o).refuse → Outcome w o d none

theorem meet_outcome (w : Watch) (self : Nat) (o : Occurrence) :
    Outcome w o (w.meet self o).1.conversation (w.meet self o).2 := by
  cases o with
  | listen registered =>
    cases registered with
    | true => exact .goesOn rfl
    | false => exact .refuses rfl
  | wait now => exact .goesOn (wait_untimed w self now)
  | message now m =>
    cases hr : w.receive self now m with
    | none =>
      have hended : w.conversation.ended = true := receive_eq_none_iff.mp hr
      have hj : w.joined (.message now m) = w.conversation := by
        simp only [joined, hended, if_true]
      simp only [meet, hr, Option.getD_none]
      exact .goesOn (by rw [hj])
    | some r =>
      obtain ⟨v, end?⟩ := r
      obtain ⟨hopen, hcases⟩ := receive_eq_some hr
      have hj : w.joined (.message now m) = w.conversation.take m := by
        simp only [joined, hopen, if_false, Bool.false_eq_true]
      simp only [meet, hr, Option.getD_some]
      rw [← hj] at hcases
      obtain ⟨rfl, hv⟩ | ⟨rfl, hv, ha, -⟩ := hcases
      · exact .goesOn hv
      · exact .ends .allResponsesReceived hopen hv fun _ => ha
  | responseTimer id =>
    cases hr : w.onResponseTimer id with
    | none =>
      simp only [meet, hr, Option.map_none, Option.getD_none]
      exact .goesOn rfl
    | some r =>
      obtain ⟨v, e⟩ := r
      obtain ⟨hopen, -, rfl, hv⟩ := onResponseTimer_eq_some hr
      simp only [meet, hr, Option.map_some, Option.getD_some]
      exact .ends .responseTimeout hopen hv fun h => absurd rfl h
  | ackTimer id =>
    cases hr : w.onAckTimer id with
    | none =>
      simp only [meet, hr, Option.getD_none]
      exact .goesOn rfl
    | some r =>
      obtain ⟨v, end?⟩ := r
      simp only [meet, hr, Option.getD_some]
      obtain ⟨hopen, -, ⟨rfl, hv, -⟩ | ⟨rfl, hv, ha⟩⟩ := onAckTimer_eq_some hr
      · exact .goesOn hv
      · exact .ends .ackTimeout hopen hv fun _ => ha
  | abort why =>
    cases hopen : w.conversation.ended with
    | true =>
      simp only [meet, abort_of_ended hopen]
      exact .goesOn rfl
    | false =>
      obtain ⟨v, hw, hv⟩ := abort_of_open hopen
      simp only [meet, hw]
      exact .drops hopen hv
  | timers t => exact .goesOn rfl

/-- Apart from what is added, an occurrence changes timers or brings the end. -/
theorem meet_continues (w : Watch) (self : Nat) (o : Occurrence) :
    Continues (w.joined o) (w.meet self o).1.conversation := by
  have houtcome := meet_outcome w self o
  generalize w.meet self o = r at houtcome ⊢
  obtain ⟨v, end?⟩ := r
  cases houtcome with
  | goesOn hd => exact .of_untimed hd
  | ends reason hopen hd ha => exact .of_concluded hd
  | drops hopen hd => exact .of_dropped hd
  | refuses hd =>
    rw [hd]
    exact ⟨rfl, rfl, fun _ => rfl⟩

theorem meet_book (w : Watch) (self : Nat) (o : Occurrence) :
    (w.meet self o).1.conversation.book =
      ((w.handles o).foldl Conversation.take w.conversation).book := by
  refine (meet_continues w self o).book.trans ?_
  cases o with
  | listen registered => exact listen_book w.conversation
  | message now m => cases he : w.conversation.ended <;> simp [joined, handles, he]
  | _ => rfl

/-- The records of a conversation are those of the messages it handled, one after the
other. -/
theorem course_book (w : Watch) (self : Nat) (os : List Occurrence) :
    (w.course self os).conversation.book =
      ((w.handled self os).foldl Conversation.take w.conversation).book := by
  induction os generalizing w with
  | nil => rfl
  | cons o os ih =>
    rw [course, handled, List.foldl_append, ih]
    exact foldl_take_book _ (meet_book w self o)

/-- In an open conversation, what an occurrence adds is the message that is handled. -/
theorem joined_of_open {w : Watch} (h : w.conversation.ended = false) {o : Occurrence}
    (ho : o.opens = false) : w.joined o = (w.handles o).foldl Conversation.take w.conversation := by
  cases o with
  | listen registered => cases ho
  | message now m => simp [joined, handles, h]
  | _ => rfl

/-- The end that an occurrence brings is that of what was recorded with it.  Unless it comes
with the deadline for answers, none of them is awaited. -/
theorem meet_ending {w : Watch} {self : Nat} {o : Occurrence} {e : Ending}
    (h : (w.meet self o).2 = some e) :
    e = ((w.handles o).foldl Conversation.take w.conversation).ending e.reason ∧
      (e.reason ≠ .responseTimeout →
        ((w.handles o).foldl Conversation.take w.conversation).awaitsAnswers = false) := by
  have hopens : o.opens = false := by
    cases o with
    | listen registered => cases h
    | _ => rfl
  have houtcome := meet_outcome w self o
  generalize w.meet self o = r at houtcome h
  obtain ⟨v, end?⟩ := r
  subst h
  cases houtcome with
  | ends reason hopen hd ha =>
    rw [joined_of_open hopen hopens] at ha ⊢
    exact ⟨rfl, ha⟩

/-! ## The end and the window -/

theorem course_ended {w : Watch} (h : w.conversation.ended = true) (self : Nat)
    (os : List Occurrence) : (w.course self os).conversation.ended = true := by
  induction os generalizing w with
  | nil => exact h
  | cons o os ih =>
    refine ih ((meet_continues w self o).ended ?_)
    cases o with
    | listen registered =>
      show w.conversation.listen.ended = true
      unfold Conversation.listen
      split
      · split <;> exact h
      · exact h
    | message now m => simp [joined, h]
    | _ => exact h

theorem open_of_course_append {w : Watch} {self : Nat} {os ps : List Occurrence}
    (h : (w.course self (os ++ ps)).conversation.ended = false) :
    (w.course self os).conversation.ended = false := by
  cases he : (w.course self os).conversation.ended with
  | false => rfl
  | true =>
    rw [course_append, course_ended he] at h
    cases h

theorem handled_of_ended {w : Watch} (h : w.conversation.ended = true) (self : Nat)
    (os : List Occurrence) : w.handled self os = [] := by
  induction os generalizing w with
  | nil => rfl
  | cons o os ih =>
    have hnone : w.handles o = [] := by
      cases o with
      | message now m => simp only [handles, h, if_true]
      | _ => rfl
    have hended : (w.meet self o).1.conversation.ended = true := course_ended h self [o]
    rw [handled, hnone, List.nil_append, ih hended]

theorem handled_isPrefix (w : Watch) (self : Nat) (os : List Occurrence) :
    w.handled self os <+: Occurrence.messages os := by
  induction os generalizing w with
  | nil => exact List.prefix_rfl
  | cons o os ih =>
    cases he : w.conversation.ended with
    | true =>
      rw [handled_of_ended he]
      exact List.nil_prefix
    | false =>
      cases o with
      | message now m =>
        simp only [handled, handles, he, if_false, Bool.false_eq_true, Occurrence.messages]
        exact (List.prefix_append_right_inj [m]).mpr (ih _)
      | _ => exact ih _

end Watch

/-- Whether the window for acknowledgements is open at some time: listening opens it, until
the time that the terms say. -/
def WindowOpen (start : Nat) (terms : Terms) (os : List Occurrence) (now : Nat) : Prop :=
  os.any Occurrence.opens = true ∧
    ∃ ms, terms.ackTimeoutMs = some ms ∧ 0 < ms ∧ now < start + ms

/-- The end of the window for acknowledgements, if there is to be one. -/
def Terms.window (terms : Terms) (start : Nat) : Option Nat :=
  match terms.ackTimeoutMs with
  | some ms => if 0 < ms then some (start + ms) else none
  | none => none

/-- A conversation with the times of these terms, its window opened or not. -/
structure Timed (start : Nat) (terms : Terms) (opened : Bool) (c : Conversation) : Prop where
  startedAt : c.startedAt = start
  ackTimeoutMs : c.ackTimeoutMs = terms.ackTimeoutMs
  ackDeadline : c.ackDeadline = if opened then terms.window start else none

namespace Timed

variable {start : Nat} {terms : Terms} {opened : Bool} {c : Conversation}

theorem listen (h : Timed start terms opened c) : Timed start terms true c.listen := by
  have hs := h.startedAt
  have ha := h.ackTimeoutMs
  have hd := h.ackDeadline
  cases hms : terms.ackTimeoutMs with
  | none =>
    have hw : terms.window start = none := by simp only [Terms.window, hms]
    rw [hms] at ha
    rw [hw, ite_self] at hd
    have hl : c.listen = c := by simp only [Conversation.listen, ha]
    rw [hl]
    exact ⟨hs, ha.trans hms.symm, by rw [hd, hw, ite_self]⟩
  | some ms =>
    rw [hms] at ha
    by_cases hpos : 0 < ms
    · have hl : c.listen = { c with ackDeadline := some (c.startedAt + ms) } := by
        simp only [Conversation.listen, ha, if_pos hpos]
      rw [hl]
      refine ⟨hs, ha.trans hms.symm, ?_⟩
      simp only [Terms.window, hms, hs, if_pos hpos, if_true]
    · have hw : terms.window start = none := by simp only [Terms.window, hms, if_neg hpos]
      rw [hw, ite_self] at hd
      have hl : c.listen = c := by simp only [Conversation.listen, ha, if_neg hpos]
      rw [hl]
      exact ⟨hs, ha.trans hms.symm, by rw [hd, hw, ite_self]⟩

theorem meet {w : Watch} (h : Timed start terms opened w.conversation) (self : Nat)
    (o : Occurrence) :
    Timed start terms (opened || o.opens) (w.meet self o).1.conversation := by
  have hjoined : Timed start terms (opened || o.opens) (w.joined o) := by
    cases o with
    | listen registered =>
      show Timed start terms (opened || true) _
      rw [Bool.or_true]
      exact h.listen
    | message now m =>
      show Timed start terms (opened || false) _
      rw [Bool.or_false]
      cases he : w.conversation.ended with
      | true =>
        simp only [Watch.joined, he, if_true]
        exact h
      | false =>
        simp only [Watch.joined, he, if_false, Bool.false_eq_true]
        exact ⟨h.startedAt, h.ackTimeoutMs, h.ackDeadline⟩
    | _ =>
      show Timed start terms (opened || false) _
      rw [Bool.or_false]
      exact h
  have hc := Watch.meet_continues w self o
  refine ⟨?_, ?_, hc.ackDeadline.trans hjoined.ackDeadline⟩
  · exact (congrArg Conversation.startedAt hc.book).trans hjoined.startedAt
  · exact (congrArg Conversation.ackTimeoutMs hc.book).trans hjoined.ackTimeoutMs

theorem course {w : Watch} (h : Timed start terms opened w.conversation) (self : Nat)
    (os : List Occurrence) :
    Timed start terms (opened || os.any Occurrence.opens) (w.course self os).conversation := by
  induction os generalizing w opened with
  | nil =>
    rw [List.any_nil, Bool.or_false]
    exact h
  | cons o os ih =>
    rw [List.any_cons, ← Bool.or_assoc]
    exact ih (h.meet self o)

end Timed

theorem Watch.awaitsAcks_course_iff {correlation topic : String} {start : Nat} {terms : Terms}
    {timers : Timers} {self : Nat} {os : List Occurrence} {now : Nat} :
    ((opening correlation topic start terms timers).course self os).conversation.awaitsAcks now =
      true ↔ WindowOpen start terms os now := by
  have hstart : Timed start terms false
      (opening correlation topic start terms timers).conversation := ⟨rfl, rfl, rfl⟩
  have hd := (hstart.course self os).ackDeadline
  rw [Conversation.awaitsAcks, hd, Bool.false_or, WindowOpen, Terms.window]
  cases os.any Occurrence.opens with
  | false => simp
  | true =>
    cases terms.ackTimeoutMs with
    | none => simp
    | some ms =>
      by_cases hpos : 0 < ms
      · simp [hpos]
      · simp [hpos]

end Colloquy
