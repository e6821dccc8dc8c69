/-
What is to be counted in a history of messages, without looking at a conversation.

Only the first message of each id counts.  An answer uses up one that the request expects,
and each responder has a count of its own, which its announcements change.  `remaining` puts
these together, as a function of the history.
-/
import Colloquy.Proofs.Table
import Colloquy.Conversation

namespace Colloquy
namespace History

/-- The messages with an id that is neither in `seen` nor came before. -/
def firstsAfter (seen : List String) : List Message → List Message
  | [] => []
  | m :: ms => if m.id ∈ seen then firstsAfter seen ms else m :: firstsAfter (m.id :: seen) ms

/-- The first message of each id. -/
def firsts (ms : List Message) : List Message := firstsAfter [] ms

/-- How many ids came first with a payload. -/
def answers (ms : List Message) : Nat := (firsts ms).countP Message.hasPayload

/-- The count of a responder that announces `n` answers.  Its first word counts if it is not
negative, a zero resets the count, and anything else is added to it within 32 bits. -/
def tallied : Option Nat → Int → Option Nat
  | none, n => if n < 0 then none else some n.toNat
  | some k, n => some (if n = 0 then 0 else min (k + n).toNat countLimit)

/-- The count of a responder after a message. -/
def tally (responder : String) (count : Option Nat) (m : Message) : Option Nat :=
  match m.ack with
  | none => count
  | some a =>
    match a.responsesRemaining with
    | none => count
    | some n => if a.responderId = responder then tallied count n else count

/-- The count of a responder after a history. -/
def announcedBy (responder : String) (ms : List Message) : Option Nat :=
  (firsts ms).foldl (tally responder) none

/-- The responders that said something in a history. -/
def responders (ms : List Message) : Finset String :=
  ((firsts ms).filterMap fun m => m.ack.map Ack.responderId).toFinset

/-- How many answers are to come after a history. -/
def remaining (wait : Wait) (ms : List Message) : Nat :=
  max (wait.expected - answers ms)
    (min (∑ r ∈ responders ms, (announcedBy r ms).getD 0) countLimit)

/-! ## One message more -/

theorem firstsAfter_append_singleton (seen : List String) (ms : List Message) (m : Message) :
    firstsAfter seen (ms ++ [m]) =
      firstsAfter seen ms ++
        (if m.id ∈ seen ∨ m.id ∈ ms.map Message.id then [] else [m]) := by
  induction ms generalizing seen with
  | nil => by_cases h : m.id ∈ seen <;> simp [firstsAfter, h]
  | cons k ms ih =>
    rw [List.cons_append, firstsAfter, firstsAfter]
    by_cases hk : k.id ∈ seen
    · have hiff : (m.id ∈ seen ∨ m.id ∈ ms.map Message.id) ↔
          (m.id ∈ seen ∨ m.id ∈ (k :: ms).map Message.id) := by
        rw [List.map_cons, List.mem_cons]
        constructor
        · exact fun h => h.imp_right Or.inr
        · rintro (h | h | h)
          · exact Or.inl h
          · exact Or.inl (h ▸ hk)
          · exact Or.inr h
      rw [if_pos hk, if_pos hk, ih]
      simp only [hiff]
    · have hiff : (m.id ∈ k.id :: seen ∨ m.id ∈ ms.map Message.id) ↔
          (m.id ∈ seen ∨ m.id ∈ (k :: ms).map Message.id) := by
        rw [List.map_cons, List.mem_cons, List.mem_cons]
        tauto
      rw [if_neg hk, if_neg hk, ih]
      simp only [hiff, List.cons_append]

theorem firsts_of_mem {ms : List Message} {m : Message} (h : m.id ∈ ms.map Message.id) :
    firsts (ms ++ [m]) = firsts ms := by
  rw [firsts, firstsAfter_append_singleton, if_pos (Or.inr h), List.append_nil, firsts]

theorem firsts_of_not_mem {ms : List Message} {m : Message} (h : m.id ∉ ms.map Message.id) :
    firsts (ms ++ [m]) = firsts ms ++ [m] := by
  have hnot : ¬(m.id ∈ ([] : List String) ∨ m.id ∈ ms.map Message.id) := by
    rintro (h' | h')
    · cases h'
    · exact h h'
  rw [firsts, firstsAfter_append_singleton, if_neg hnot, firsts]

theorem answers_of_mem {ms : List Message} {m : Message} (h : m.id ∈ ms.map Message.id) :
    answers (ms ++ [m]) = answers ms := by
  rw [answers, firsts_of_mem h, answers]

theorem answers_of_not_mem {ms : List Message} {m : Message} (h : m.id ∉ ms.map Message.id) :
    answers (ms ++ [m]) = answers ms + if m.hasPayload then 1 else 0 := by
  rw [answers, firsts_of_not_mem h, List.countP_append, List.countP_singleton, answers]

/-- A copy announces nothing. -/
theorem announcedBy_of_mem {ms : List Message} {m : Message} (h : m.id ∈ ms.map Message.id)
    (responder : String) : announcedBy responder (ms ++ [m]) = announcedBy responder ms := by
  rw [announcedBy, firsts_of_mem h, announcedBy]

theorem announcedBy_of_not_mem {ms : List Message} {m : Message}
    (h : m.id ∉ ms.map Message.id) (responder : String) :
    announcedBy responder (ms ++ [m]) = tally responder (announcedBy responder ms) m := by
  rw [announcedBy, firsts_of_not_mem h, List.foldl_append, announcedBy]
  rfl

theorem tally_of_ack {m : Message} {a : Ack} {n : Int} (h : m.ack = some a)
    (hn : a.responsesRemaining = some n) (responder : String) (count : Option Nat) :
    tally responder count m =
      if a.responderId = responder then tallied count n else count := by
  simp only [tally, h, hn]

theorem tally_of_silent {m : Message}
    (h : ∀ a, m.ack = some a → a.responsesRemaining = none) (responder : String)
    (count : Option Nat) : tally responder count m = count := by
  unfold tally
  cases ha : m.ack with
  | none => rfl
  | some a => simp only [h a ha]

theorem tally_of_other {responder : String} {m : Message}
    (h : ∀ a, m.ack = some a → a.responderId ≠ responder) (count : Option Nat) :
    tally responder count m = count := by
  cases ha : m.ack with
  | none => simp only [tally, ha]
  | some a =>
    cases hn : a.responsesRemaining with
    | none =>
      refine tally_of_silent (fun b hb => ?_) responder count
      rw [ha] at hb
      cases hb
      exact hn
    | some n => rw [tally_of_ack ha hn, if_neg (h a ha)]

theorem foldl_tally_of_other {responder : String} {ms : List Message}
    (h : ∀ m ∈ ms, ∀ a, m.ack = some a → a.responderId ≠ responder) (count : Option Nat) :
    ms.foldl (tally responder) count = count := by
  induction ms generalizing count with
  | nil => rfl
  | cons m ms ih =>
    rw [List.foldl_cons, tally_of_other (h m List.mem_cons_self)]
    exact ih (fun k hk => h k (List.mem_cons_of_mem _ hk)) count

theorem mem_responders {responder : String} {ms : List Message} {k : Nat}
    (h : announcedBy responder ms = some k) : responder ∈ responders ms := by
  by_contra hnot
  have hnone : announcedBy responder ms = none := by
    refine foldl_tally_of_other (fun m hm a ha hr => hnot ?_) none
    rw [responders, List.mem_toFinset, List.mem_filterMap]
    exact ⟨m, hm, by rw [ha, Option.map_some, hr]⟩
  rw [hnone] at h
  cases h

end History
end Colloquy
