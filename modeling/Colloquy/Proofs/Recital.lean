/-
A responder that announces its answers and sends them all, in their order.

A `Recital` is what comes of it: one message announces the answers, and each of the others is one
of them.  With every answer one less is to come, both of those that the request expects and of those
that were announced, and so what is to come after some of them is the larger of two differences.

None of these messages asks for a deadline.  A conversation that hears them goes on with its timer
as it was, until nothing is to come.
-/
import Colloquy.Proofs.Counting

namespace Colloquy

/-! ## The messages -/

/-- The message tells that a responder has some more answers, and asks for no deadline. -/
def Message.Tells (responder : String) (n : Int) (m : Message) : Prop :=
  m.ack = some { responderId := responder, responsesRemaining := some n }

/-- A message that announces the answers of a responder, and the answers that came so far. -/
structure Recital (responder : String) (n : Nat) (first : Message) (answers : List Message) :
    Prop where
  announces : first.hasPayload = false ∧ first.Tells responder n
  deducts : ∀ m ∈ answers, m.hasPayload = true ∧ m.Tells responder (-1)
  apart : ((first :: answers).map Message.id).Nodup

namespace Recital

variable {responder : String} {n : Nat} {first m : Message} {answers more : List Message}

theorem of_append (h : Recital responder n first (answers ++ more)) :
    Recital responder n first answers where
  announces := h.announces
  deducts := fun m hm => h.deducts m (List.mem_append_left more hm)
  apart := h.apart.sublist
    (((List.sublist_append_left answers more).cons_cons first).map Message.id)

theorem last (h : Recital responder n first (answers ++ [m])) :
    m.hasPayload = true ∧ m.Tells responder (-1) ∧ m.id ∉ (first :: answers).map Message.id := by
  obtain ⟨hpayload, htells⟩ := h.deducts m (List.mem_append_right answers List.mem_cons_self)
  refine ⟨hpayload, htells, fun hm => ?_⟩
  have hapart := h.apart
  rw [← List.cons_append, List.map_append] at hapart
  exact (List.nodup_append.mp hapart).2.2 m.id hm m.id List.mem_cons_self rfl

theorem untimed (h : Recital responder n first answers) (hm : m ∈ first :: answers) :
    ∃ a, m.ack = some a ∧ a.timeoutMs = none := by
  obtain rfl | hm := List.mem_cons.mp hm
  · exact ⟨_, h.announces.2, rfl⟩
  · exact ⟨_, (h.deducts m hm).2, rfl⟩

/-! ## What is to come -/

theorem answers_eq (h : Recital responder n first answers) :
    History.answers (first :: answers) = answers.length := by
  induction answers using List.reverseRecOn with
  | nil =>
    have hnew : first.id ∉ ([] : List Message).map Message.id := List.not_mem_nil
    have hfirst := History.answers_of_not_mem hnew
    rw [h.announces.1] at hfirst
    exact hfirst
  | append_singleton answers m ih =>
    obtain ⟨hpayload, -, hnew⟩ := h.last
    rw [← List.cons_append, History.answers_of_not_mem hnew, ih h.of_append, hpayload, if_pos rfl,
      List.length_append, List.length_singleton]

theorem announcedBy_eq (h : Recital responder n first answers) (hn : n ≤ countLimit)
    (other : String) : History.announcedBy other (first :: answers) =
      if responder = other then some (n - answers.length) else none := by
  induction answers using List.reverseRecOn with
  | nil =>
    have hnew : first.id ∉ ([] : List Message).map Message.id := List.not_mem_nil
    have hfirst := History.announcedBy_of_not_mem hnew other
    refine hfirst.trans ?_
    rw [History.tally_of_ack h.announces.2 rfl]
    refine if_congr Iff.rfl ?_ rfl
    show (if (n : Int) < 0 then none else some (n : Int).toNat) = some n
    rw [if_neg (by omega), Int.toNat_natCast]
  | append_singleton answers m ih =>
    obtain ⟨-, htells, hnew⟩ := h.last
    rw [← List.cons_append, History.announcedBy_of_not_mem hnew, ih h.of_append,
      History.tally_of_ack htells rfl]
    split_ifs with ho
    · rw [History.tallied, if_neg (by decide), List.length_append, List.length_singleton]
      congr 1
      omega
    · rfl

/-- What is to come after some of the answers. -/
theorem remaining_eq (h : Recital responder n first answers) (hn : n ≤ countLimit) (wait : Wait) :
    History.remaining wait (first :: answers) =
      max (wait.expected - answers.length) (n - answers.length) := by
  have hself := (h.announcedBy_eq hn responder).trans (if_pos rfl)
  have hsum : ∑ r ∈ History.responders (first :: answers),
      (History.announcedBy r (first :: answers)).getD 0 = n - answers.length := by
    rw [Finset.sum_eq_single responder, hself, Option.getD_some]
    · intro other _ ho
      rw [h.announcedBy_eq hn, if_neg ho.symm, Option.getD_none]
    · intro hnot
      exact absurd (History.mem_responders hself) hnot
  rw [History.remaining, h.answers_eq, hsum, min_eq_left (by omega)]

theorem remaining_take (h : Recital responder n first answers) (hn : n ≤ countLimit) {k : Nat}
    (hk : k ≤ answers.length) (wait : Wait) :
    History.remaining wait ((first :: answers).take (k + 1)) =
      max (wait.expected - k) (n - k) := by
  rw [← List.take_append_drop k answers] at h
  rw [List.take_succ_cons, h.of_append.remaining_eq hn, List.length_take_of_le hk]

theorem filter_hasPayload (h : Recital responder n first answers) :
    (first :: answers).filter Message.hasPayload = answers := by
  rw [List.filter_cons_of_neg (by rw [h.announces.1]; decide), List.filter_eq_self]
  exact fun m hm => (h.deducts m hm).1

/-- Of all these messages the first one is the only acknowledgement without a payload. -/
theorem filter_ack (h : Recital responder n first answers) :
    (first :: answers).filter (fun m => !m.hasPayload && m.ack.isSome) = [first] := by
  rw [List.filter_cons_of_pos, List.filter_eq_nil_iff.mpr]
  · intro m hm
    rw [(h.deducts m hm).1]
    exact Bool.false_ne_true
  · rw [h.announces.1, h.announces.2]
    rfl

end Recital

/-! ## Hearing them -/

/-- A conversation that is open after some messages, for which nobody asked for another deadline and
which has no window for acknowledgements. -/
structure Conversation.Hears (wait : Wait) (ms : List Message) (c : Conversation) : Prop where
  counted : Counted wait ms c
  ended : c.ended = false
  suggested : c.suggested = {}
  ackDeadline : c.ackDeadline = none

namespace Watch

open Conversation

variable {w : Watch} {wait : Wait} {ms : List Message} {m : Message}

/-- A message that asks for no deadline is recorded and counted, and nothing else changes. -/
theorem takeIn_eq (hm : ∀ a ∈ m.ack, a.timeoutMs = none)
    (hsuggested : w.conversation.suggested = {}) (self now : Nat) :
    w.takeIn self now m = { w with conversation := w.conversation.take m } := by
  cases ha : m.ack with
  | none => simp only [takeIn, ha, record_of_no_ack _ ha]
  | some a =>
    have hfolded : (w.conversation.take m).foldedTimeout = (w.conversation.take m).timeoutMs := by
      show w.conversation.suggested.values.foldl max _ = _
      rw [hsuggested]
      rfl
    simp only [takeIn, ha, foldAck, takeAck_record _ ha, hm a ha, hfolded, if_true]

/-- As long as something is to come the conversation goes on. -/
theorem receive_of_hears (h : w.conversation.Hears wait ms) (hm : ∀ a ∈ m.ack, a.timeoutMs = none)
    (hcome : wait = .untilTimeout ∨ 0 < History.remaining wait (ms ++ [m])) (self now : Nat) :
    w.receive self now m = some ({ w with conversation := w.conversation.take m }, none) ∧
      (w.conversation.take m).Hears wait (ms ++ [m]) := by
  have hcounted := h.counted.take m
  have hawaits : (w.conversation.take m).awaitsAnswers = true := by
    rw [← Bool.not_eq_false, hcounted.awaitsAnswers_eq_false_iff]
    rintro ⟨hwait, hzero⟩
    obtain hwait' | hpos := hcome
    · exact hwait hwait'
    · omega
  rw [receive_of_awaitsAnswers h.ended hawaits, takeIn_eq hm h.suggested]
  exact ⟨rfl, hcounted, h.ended, h.suggested, h.ackDeadline⟩

/-- It ends with the last message. -/
theorem receive_of_last (h : w.conversation.Hears wait ms) (hwait : wait ≠ .untilTimeout)
    (hlast : History.remaining wait (ms ++ [m]) = 0) (self now : Nat) :
    ∃ v, w.receive self now m =
        some (v, some ((w.conversation.take m).ending .allResponsesReceived)) ∧
      v.conversation.ended = true ∧ v.conversation.completion = .closing := by
  have hawaits := (h.counted.take m).awaitsAnswers_eq_false_iff.mpr ⟨hwait, hlast⟩
  have hclosed : w.conversation.awaitsAcks now = false := by
    simp only [awaitsAcks, h.ackDeadline]
  rw [receive_of_complete h.ended hawaits hclosed,
    ending_of_untimed (takeIn_untimed w self now m) _]
  exact ⟨_, rfl, rfl, rfl⟩

end Watch
end Colloquy
