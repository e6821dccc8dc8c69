/-
What the operations on a conversation leave alone.

Timers come and go while a conversation lasts, and none of that touches what it has recorded
and counted.  `untimed` is the conversation without its timers and deadlines for answers, and
each operation of a watch is described by what it does to `untimed`: arming and cancelling
change nothing there, a message is recorded and what it announces is counted, and the end of
the conversation is set down.

`receive` has three outcomes for a conversation that has not ended, and there is one theorem
for each: it goes on for the sake of answers, or of acknowledgements, or it ends.
-/
import Colloquy.Conversation

namespace Colloquy

namespace Conversation

/-- A conversation without its timers and its deadline for answers. -/
def untimed (c : Conversation) : Conversation :=
  { c with
    timeoutMs := 0
    suggested := {}
    responseTimer := none
    ackTimer := none
    arms := 0 }

/-- A conversation that has ended, and is to tell it. -/
def concluded (c : Conversation) : Conversation :=
  { c with ended := true, completion := .closing }

/-- A conversation that will never tell its end. -/
def dropped (c : Conversation) : Conversation :=
  { c with ended := true, completion := .dropped }

/-- The counts of the responders after one of them has announced `n` answers. -/
def countIn (counts : Table String Nat) (responder : String) (n : Int) : Table String Nat :=
  match counts.get? responder with
  | none => if n < 0 then counts else counts.put responder n.toNat
  | some k => counts.put responder (if n = 0 then 0 else min (k + n).toNat countLimit)

/-- The counts of the responders after a message.  One that came before counts no more. -/
def countsAfter (c : Conversation) (m : Message) : Table String Nat :=
  match m.ack with
  | none => c.announced
  | some a =>
    match a.responsesRemaining with
    | none => c.announced
    | some n => if c.seen.contains m.id then c.announced else countIn c.announced a.responderId n

/-- A message recorded, and what it announces counted. -/
def take (c : Conversation) (m : Message) : Conversation :=
  { c with
    seen := if c.seen.contains m.id then c.seen else c.seen ++ [m.id]
    outstanding :=
      if m.hasPayload && !c.seen.contains m.id then c.outstanding - 1 else c.outstanding
    payloads := if m.hasPayload then c.payloads ++ [m] else c.payloads
    acks := if !m.hasPayload && m.ack.isSome then c.acks ++ [m] else c.acks
    announced := c.countsAfter m }

theorem ended_of_untimed {c d : Conversation} (h : c.untimed = d.untimed) : c.ended = d.ended :=
  show c.untimed.ended = d.untimed.ended by rw [h]

theorem completion_of_untimed {c d : Conversation} (h : c.untimed = d.untimed) :
    c.completion = d.completion :=
  show c.untimed.completion = d.untimed.completion by rw [h]

theorem payloads_of_untimed {c d : Conversation} (h : c.untimed = d.untimed) :
    c.payloads = d.payloads :=
  show c.untimed.payloads = d.untimed.payloads by rw [h]

theorem acks_of_untimed {c d : Conversation} (h : c.untimed = d.untimed) : c.acks = d.acks :=
  show c.untimed.acks = d.untimed.acks by rw [h]

theorem awaitsAnswers_of_untimed {c d : Conversation} (h : c.untimed = d.untimed) :
    c.awaitsAnswers = d.awaitsAnswers :=
  show c.untimed.awaitsAnswers = d.untimed.awaitsAnswers by rw [h]

theorem awaitsAcks_of_untimed {c d : Conversation} (h : c.untimed = d.untimed) (now : Nat) :
    c.awaitsAcks now = d.awaitsAcks now :=
  show c.untimed.awaitsAcks now = d.untimed.awaitsAcks now by rw [h]

theorem ending_of_untimed {c d : Conversation} (h : c.untimed = d.untimed) (reason : Reason) :
    c.ending reason = d.ending reason :=
  show c.untimed.ending reason = d.untimed.ending reason by rw [h]

theorem concluded_untimed {c d : Conversation} (h : c.untimed = d.untimed) :
    c.concluded.untimed = d.concluded.untimed :=
  show c.untimed.concluded = d.untimed.concluded by rw [h]

/-! ## Recording -/

theorem announce_eq (c : Conversation) (responder : String) (n : Int) :
    c.announce responder n = { c with announced := countIn c.announced responder n } := by
  unfold announce countIn
  cases c.announced.get? responder with
  | none =>
    by_cases h : n < 0
    · simp only [if_pos h]
    · simp only [if_neg h]
  | some k => rfl

theorem record_eq (c : Conversation) (m : Message) :
    c.record m = { c.take m with announced := c.announced } := by
  unfold record take
  cases hs : c.seen.contains m.id <;> cases hp : m.hasPayload <;> cases ha : m.ack.isSome <;>
    simp only [Bool.not_true, Bool.not_false, Bool.and_true, Bool.and_false, if_true,
      if_false, Bool.false_eq_true]

theorem record_of_no_ack (c : Conversation) {m : Message} (h : m.ack = none) :
    c.record m = c.take m := by
  have hc : c.countsAfter m = c.announced := by simp only [countsAfter, h]
  rw [record_eq]
  simp only [take, hc]

/-- Recording a message and taking in its acknowledgement is `take`, and the deadline that is asked
for. -/
theorem takeAck_record (c : Conversation) {m : Message} {a : Ack} (h : m.ack = some a) :
    (c.record m).takeAck a (!c.seen.contains m.id) =
      match a.timeoutMs with
      | some ms => (c.take m).suggest a.responderId ms
      | none => c.take m := by
  unfold takeAck
  rw [record_eq]
  cases hn : a.responsesRemaining with
  | none =>
    have hc : c.countsAfter m = c.announced := by simp only [countsAfter, h, hn]
    cases a.timeoutMs <;> simp only [take, hc]
  | some n =>
    by_cases hs : c.seen.contains m.id
    · have hc : c.countsAfter m = c.announced := by simp only [countsAfter, h, hn, hs, if_true]
      cases a.timeoutMs <;>
        simp only [take, hc, hs, Bool.not_true, Bool.false_eq_true, if_false]
    · have hc : c.countsAfter m = countIn c.announced a.responderId n := by
        simp only [countsAfter, h, hn, hs, if_false, Bool.false_eq_true]
      cases a.timeoutMs <;> simp only [announce_eq, take, hc, hs, Bool.not_false, if_true]

theorem takeAck_record_untimed (c : Conversation) {m : Message} {a : Ack} (h : m.ack = some a) :
    ((c.record m).takeAck a (!c.seen.contains m.id)).untimed = (c.take m).untimed := by
  rw [takeAck_record c h]
  cases a.timeoutMs <;> rfl

end Conversation

namespace Watch

open Conversation

/-! ## Timers -/

theorem armResponse_untimed (w : Watch) (self now : Nat) :
    (w.armResponse self now).conversation.untimed = w.conversation.untimed := rfl

/-- `armAck` tells whether the window is open, and changes nothing if it is not. -/
theorem armAck_of_closed {w : Watch} {now : Nat} (h : w.conversation.awaitsAcks now = false)
    (self : Nat) : w.armAck self now = (false, w) := by
  unfold awaitsAcks at h
  cases hd : w.conversation.ackDeadline with
  | none => simp only [armAck, hd]
  | some deadline =>
    rw [hd] at h
    have hle : deadline ≤ now := Nat.le_of_not_lt (of_decide_eq_false h)
    simp only [armAck, hd, if_pos hle]

theorem armAck_of_open {w : Watch} {now : Nat} (h : w.conversation.awaitsAcks now = true)
    (self : Nat) : (w.armAck self now).1 = true := by
  unfold awaitsAcks at h
  cases hd : w.conversation.ackDeadline with
  | none =>
    rw [hd] at h
    cases h
  | some deadline =>
    rw [hd] at h
    have hlt : now < deadline := of_decide_eq_true h
    simp only [armAck, hd, if_neg (Nat.not_le_of_lt hlt)]
    split <;> rfl

theorem armAck_untimed (w : Watch) (self now : Nat) :
    (w.armAck self now).2.conversation.untimed = w.conversation.untimed := by
  cases h : w.conversation.awaitsAcks now with
  | false => rw [armAck_of_closed h]
  | true =>
    unfold armAck
    simp only
    split
    · rfl
    · split
      · rfl
      · split <;> rfl

theorem wait_untimed (w : Watch) (self now : Nat) :
    (w.wait self now).conversation.untimed = w.conversation.untimed := by
  unfold wait
  split
  · rfl
  · simp only
    split
    · exact armResponse_untimed w self now
    · exact (armAck_untimed _ self now).trans (armResponse_untimed w self now)

/-! ## Messages -/

theorem foldAck_untimed (w : Watch) (self now : Nat) (a : Ack) (first : Bool) :
    (w.foldAck self now a first).conversation.untimed =
      (w.conversation.takeAck a first).untimed := by
  unfold foldAck
  simp only
  split <;> rfl

theorem takeIn_untimed (w : Watch) (self now : Nat) (m : Message) :
    (w.takeIn self now m).conversation.untimed = (w.conversation.take m).untimed := by
  unfold takeIn
  cases h : m.ack with
  | none => exact congrArg untimed (record_of_no_ack w.conversation h)
  | some a => exact (foldAck_untimed _ self now a _).trans (takeAck_record_untimed _ h)

theorem receive_of_awaitsAnswers {w : Watch} {m : Message} (hopen : w.conversation.ended = false)
    (h : (w.conversation.take m).awaitsAnswers = true) (self now : Nat) :
    w.receive self now m = some (w.takeIn self now m, none) := by
  have ha : (w.takeIn self now m).conversation.awaitsAnswers = true :=
    (awaitsAnswers_of_untimed (takeIn_untimed w self now m)).trans h
  simp only [receive, hopen, ha, if_true, if_false, Bool.false_eq_true]

theorem receive_of_awaitsAcks {w : Watch} {m : Message} {now : Nat}
    (hopen : w.conversation.ended = false)
    (h : (w.conversation.take m).awaitsAnswers = false)
    (hwin : w.conversation.awaitsAcks now = true) (self : Nat) :
    w.receive self now m = some (((w.takeIn self now m).armAck self now).2, none) := by
  have ha : (w.takeIn self now m).conversation.awaitsAnswers = false :=
    (awaitsAnswers_of_untimed (takeIn_untimed w self now m)).trans h
  have hk : (w.takeIn self now m).conversation.awaitsAcks now = true :=
    (awaitsAcks_of_untimed (takeIn_untimed w self now m) now).trans hwin
  have harm : (w.takeIn self now m).armAck self now =
      (true, ((w.takeIn self now m).armAck self now).2) := by
    rw [← armAck_of_open hk self]
  simp only [receive, hopen, ha, if_false, Bool.false_eq_true]
  rw [harm]

theorem receive_of_complete {w : Watch} {m : Message} {now : Nat}
    (hopen : w.conversation.ended = false)
    (h : (w.conversation.take m).awaitsAnswers = false)
    (hwin : w.conversation.awaitsAcks now = false) (self : Nat) :
    w.receive self now m =
      some (((w.takeIn self now m).finish .allResponsesReceived).1,
        some ((w.takeIn self now m).conversation.ending .allResponsesReceived)) := by
  have ha : (w.takeIn self now m).conversation.awaitsAnswers = false :=
    (awaitsAnswers_of_untimed (takeIn_untimed w self now m)).trans h
  have hk : (w.takeIn self now m).conversation.awaitsAcks now = false :=
    (awaitsAcks_of_untimed (takeIn_untimed w self now m) now).trans hwin
  simp only [receive, hopen, ha, if_false, Bool.false_eq_true]
  rw [armAck_of_closed hk]
  rfl

theorem receive_of_ended {w : Watch} (h : w.conversation.ended = true) (self now : Nat)
    (m : Message) : w.receive self now m = none := by
  simp only [receive, h, if_true]

theorem receive_eq_none_iff {w : Watch} {self now : Nat} {m : Message} :
    w.receive self now m = none ↔ w.conversation.ended = true := by
  constructor
  · intro h
    cases hopen : w.conversation.ended with
    | true => rfl
    | false =>
      cases ha : (w.conversation.take m).awaitsAnswers with
      | true =>
        rw [receive_of_awaitsAnswers hopen ha] at h
        cases h
      | false =>
        cases hk : w.conversation.awaitsAcks now with
        | true =>
          rw [receive_of_awaitsAcks hopen ha hk] at h
          cases h
        | false =>
          rw [receive_of_complete hopen ha hk] at h
          cases h
  · exact fun h => receive_of_ended h self now m

theorem finish_untimed (w : Watch) (reason : Reason) :
    (w.finish reason).1.conversation.untimed = w.conversation.concluded.untimed := rfl

/-- A message that is handled is taken; with it the conversation goes on as it is, or ends. -/
theorem receive_eq_some {w v : Watch} {self now : Nat} {m : Message} {end? : Option Ending}
    (h : w.receive self now m = some (v, end?)) :
    w.conversation.ended = false ∧
      ((end? = none ∧ v.conversation.untimed = (w.conversation.take m).untimed) ∨
        (end? = some ((w.conversation.take m).ending .allResponsesReceived) ∧
          v.conversation.untimed = (w.conversation.take m).concluded.untimed ∧
          (w.conversation.take m).awaitsAnswers = false ∧
          w.conversation.awaitsAcks now = false)) := by
  cases hopen : w.conversation.ended with
  | true =>
    rw [receive_of_ended hopen] at h
    cases h
  | false =>
    refine ⟨rfl, ?_⟩
    cases ha : (w.conversation.take m).awaitsAnswers with
    | true =>
      rw [receive_of_awaitsAnswers hopen ha] at h
      cases h
      exact Or.inl ⟨rfl, takeIn_untimed w self now m⟩
    | false =>
      cases hk : w.conversation.awaitsAcks now with
      | true =>
        rw [receive_of_awaitsAcks hopen ha hk] at h
        cases h
        exact Or.inl ⟨rfl, (armAck_untimed _ self now).trans (takeIn_untimed w self now m)⟩
      | false =>
        rw [receive_of_complete hopen ha hk] at h
        cases h
        refine Or.inr ⟨congrArg some ?_, ?_, rfl, rfl⟩
        · exact ending_of_untimed (takeIn_untimed w self now m) _
        · exact (finish_untimed _ _).trans (concluded_untimed (takeIn_untimed w self now m))

/-! ## Ends -/

/-- The timer for answers ends the conversation, if it is the one that was set. -/
theorem onResponseTimer_eq_some {w v : Watch} {id : Nat} {e : Ending}
    (h : w.onResponseTimer id = some (v, e)) :
    w.conversation.ended = false ∧ w.conversation.responseTimer = some id ∧
      e = w.conversation.ending .responseTimeout ∧
      v.conversation.untimed = w.conversation.concluded.untimed := by
  unfold onResponseTimer at h
  simp only at h
  split at h
  · cases h
  · rename_i hc
    cases h
    simp only [Bool.or_eq_true, decide_eq_true_eq, not_or, Bool.not_eq_true, ne_eq,
      Decidable.not_not] at hc
    exact ⟨hc.1, hc.2, rfl, rfl⟩

/-- The timer for acknowledgements ends the conversation, if it is the one that was set and
nothing is outstanding. -/
theorem onAckTimer_eq_some {w v : Watch} {id : Nat} {end? : Option Ending}
    (h : w.onAckTimer id = some (v, end?)) :
    w.conversation.ended = false ∧ w.conversation.ackTimer = some id ∧
      ((end? = none ∧ v.conversation.untimed = w.conversation.untimed ∧
          w.conversation.awaitsAnswers = true) ∨
        (end? = some (w.conversation.ending .ackTimeout) ∧
          v.conversation.untimed = w.conversation.concluded.untimed ∧
          w.conversation.awaitsAnswers = false)) := by
  unfold onAckTimer at h
  simp only at h
  split at h
  · cases h
  · rename_i hc
    simp only [Bool.or_eq_true, decide_eq_true_eq, not_or, Bool.not_eq_true, ne_eq,
      Decidable.not_not] at hc
    refine ⟨hc.1, hc.2, ?_⟩
    split at h
    · rename_i ha
      cases h
      exact Or.inl ⟨rfl, rfl, ha⟩
    · rename_i ha
      cases h
      exact Or.inr ⟨rfl, rfl, Bool.not_eq_true _ ▸ ha⟩

theorem abort_of_ended {w : Watch} (h : w.conversation.ended = true) : w.abort = (false, w) := by
  simp only [abort, h, if_true]

theorem abort_of_open {w : Watch} (h : w.conversation.ended = false) :
    ∃ v, w.abort = (true, v) ∧ v.conversation.untimed = w.conversation.dropped.untimed := by
  simp only [abort, h, if_false, Bool.false_eq_true]
  exact ⟨_, rfl, rfl⟩

end Watch
end Colloquy
