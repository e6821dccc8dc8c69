/-
A conversation counts what its history says.

The counts of a conversation are kept message by message.  `Counted` says that they are the
ones of the whole history that was handled, in whatever course, and a conversation is ended
by a message as soon as, by that history, nothing is to come and no window for
acknowledgements is open.
-/
import Colloquy.Proofs.Course
import Colloquy.Proofs.History

namespace Colloquy

open History (answers announcedBy tallied tally responders)

/-- The records of a conversation that expects what `wait` says and has handled `ms`. -/
structure Counted (wait : Wait) (ms : List Message) (c : Conversation) : Prop where
  untilTimeout : c.untilTimeout = decide (wait = .untilTimeout)
  seen : ∀ id, id ∈ c.seen ↔ id ∈ ms.map Message.id
  outstanding : c.outstanding = wait.expected - answers ms
  announced : ∀ r, c.announced.get? r = announcedBy r ms
  apart : c.announced.keys.Nodup
  payloads : c.payloads = ms.filter Message.hasPayload
  acks : c.acks = ms.filter fun m => !m.hasPayload && m.ack.isSome

namespace Conversation

/-- `countIn` is `tallied` for one responder and changes no other. -/
theorem get?_countIn (counts : Table String Nat) (responder r : String) (n : Int) :
    (countIn counts responder n).get? r =
      if responder = r then tallied (counts.get? r) n else counts.get? r := by
  by_cases hr : responder = r
  · subst hr
    rw [if_pos rfl]
    cases hk : counts.get? responder with
    | none =>
      by_cases hn : n < 0
      · simp only [countIn, hk, tallied, if_pos hn]
      · simp only [countIn, hk, tallied, if_neg hn, Table.get?_put_self]
    | some k => simp only [countIn, hk, tallied, Table.get?_put_self]
  · have hr' : r ≠ responder := fun h => hr h.symm
    rw [if_neg hr]
    cases hk : counts.get? responder with
    | none =>
      by_cases hn : n < 0
      · simp only [countIn, hk, if_pos hn]
      · simp only [countIn, hk, if_neg hn, Table.get?_put_ne counts hr']
    | some k => simp only [countIn, hk, Table.get?_put_ne counts hr']

theorem nodup_keys_countIn {counts : Table String Nat} (h : counts.keys.Nodup)
    (responder : String) (n : Int) : (countIn counts responder n).keys.Nodup := by
  unfold countIn
  split
  · split
    · exact h
    · exact Table.nodup_keys_put h responder _
  · exact Table.nodup_keys_put h responder _

theorem countsAfter_of_seen {c : Conversation} {m : Message} (h : m.id ∈ c.seen) :
    c.countsAfter m = c.announced := by
  have hs : c.seen.contains m.id = true := List.contains_iff_mem.mpr h
  unfold countsAfter
  split
  · rfl
  · split
    · rfl
    · rw [if_pos hs]

theorem get?_countsAfter_of_new {c : Conversation} {m : Message} (h : m.id ∉ c.seen)
    (r : String) : (c.countsAfter m).get? r = tally r (c.announced.get? r) m := by
  have hs : c.seen.contains m.id = false :=
    Bool.eq_false_iff.mpr fun h' => h (List.contains_iff_mem.mp h')
  cases ha : m.ack with
  | none => simp only [countsAfter, tally, ha]
  | some a =>
    cases hn : a.responsesRemaining with
    | none => simp only [countsAfter, tally, ha, hn]
    | some n =>
      simp only [countsAfter, tally, ha, hn, hs, if_false, Bool.false_eq_true, get?_countIn]

theorem nodup_keys_countsAfter {c : Conversation} (h : c.announced.keys.Nodup) (m : Message) :
    (c.countsAfter m).keys.Nodup := by
  unfold countsAfter
  split
  · exact h
  · split
    · exact h
    · split
      · exact h
      · exact nodup_keys_countIn h _ _

end Conversation

namespace Counted

open Conversation

variable {wait : Wait} {ms : List Message} {c : Conversation}

theorem start (correlation topic : String) (now : Nat) (terms : Terms) :
    Counted terms.wait [] (.start correlation topic now terms) where
  untilTimeout := rfl
  seen := fun _ => Iff.rfl
  outstanding := rfl
  announced := fun _ => rfl
  apart := List.nodup_nil
  payloads := rfl
  acks := rfl

theorem of_book {d : Conversation} (h : Counted wait ms c) (hb : c.book = d.book) :
    Counted wait ms d := by
  have hc : Counted wait ms c.book :=
    ⟨h.untilTimeout, h.seen, h.outstanding, h.announced, h.apart, h.payloads, h.acks⟩
  rw [hb] at hc
  exact ⟨hc.untilTimeout, hc.seen, hc.outstanding, hc.announced, hc.apart, hc.payloads, hc.acks⟩

theorem take (h : Counted wait ms c) (m : Message) : Counted wait (ms ++ [m]) (c.take m) := by
  have hpay : (c.take m).payloads = (ms ++ [m]).filter Message.hasPayload := by
    rw [List.filter_append, ← h.payloads]
    cases hp : m.hasPayload <;> simp [Conversation.take, hp]
  have hack : (c.take m).acks =
      (ms ++ [m]).filter fun m => !m.hasPayload && m.ack.isSome := by
    rw [List.filter_append, ← h.acks]
    cases hp : (!m.hasPayload && m.ack.isSome) <;> simp [Conversation.take, hp]
  have hapart : (c.take m).announced.keys.Nodup := nodup_keys_countsAfter h.apart m
  by_cases hs : m.id ∈ c.seen
  · -- The message came before: nothing is counted.
    have hm : m.id ∈ ms.map Message.id := (h.seen m.id).mp hs
    have hc : c.seen.contains m.id = true := List.contains_iff_mem.mpr hs
    refine ⟨h.untilTimeout, fun id => ?_, ?_, fun r => ?_, hapart, hpay, hack⟩
    · simp only [Conversation.take, hc, if_true, List.map_append, List.map_cons, List.map_nil,
        List.mem_append, List.mem_singleton, h.seen id]
      constructor
      · exact Or.inl
      · rintro (hid | rfl)
        · exact hid
        · exact hm
    · rw [History.answers_of_mem hm, ← h.outstanding]
      simp only [Conversation.take, hc, Bool.not_true, Bool.and_false, if_false,
        Bool.false_eq_true]
    · rw [History.announcedBy_of_mem hm, ← h.announced r]
      exact congrArg (fun t => Table.get? t r) (countsAfter_of_seen hs)
  · have hm : m.id ∉ ms.map Message.id := fun hm => hs ((h.seen m.id).mpr hm)
    have hc : c.seen.contains m.id = false :=
      Bool.eq_false_iff.mpr fun h' => hs (List.contains_iff_mem.mp h')
    refine ⟨h.untilTimeout, fun id => ?_, ?_, fun r => ?_, hapart, hpay, hack⟩
    · simp only [Conversation.take, hc, if_false, Bool.false_eq_true, List.map_append,
        List.map_cons, List.map_nil, List.mem_append, List.mem_singleton, h.seen id]
    · have ho := h.outstanding
      rw [History.answers_of_not_mem hm]
      cases hp : m.hasPayload <;>
        simp only [Conversation.take, hc, hp, Bool.not_false, Bool.and_true, if_true, if_false,
          Bool.false_eq_true] <;> omega
    · rw [History.announcedBy_of_not_mem hm, ← h.announced r]
      exact get?_countsAfter_of_new hs r

theorem fold (h : Counted wait ms c) (ks : List Message) :
    Counted wait (ms ++ ks) (ks.foldl Conversation.take c) := by
  induction ks using List.reverseRecOn with
  | nil => simpa using h
  | append_singleton ks m ih =>
    rw [List.foldl_append, ← List.append_assoc]
    exact ih.take m

theorem remaining_eq (h : Counted wait ms c) : c.remaining = History.remaining wait ms := by
  have hkeys : ∀ r ∈ c.announced.keys, r ∈ responders ms := by
    intro r hr
    cases hk : c.announced.get? r with
    | none => exact absurd hr (Table.get?_eq_none_iff.mp hk)
    | some k => exact History.mem_responders ((h.announced r).symm.trans hk)
  have hsum : c.announcedTotal = ∑ r ∈ responders ms, (announcedBy r ms).getD 0 := by
    rw [Finset.sum_congr rfl fun r _ => by rw [← h.announced r],
      ← Table.sum_values h.apart hkeys]
    rfl
  rw [Conversation.remaining, History.remaining, h.outstanding, hsum]

theorem awaitsAnswers_eq_false_iff (h : Counted wait ms c) :
    c.awaitsAnswers = false ↔ wait ≠ .untilTimeout ∧ History.remaining wait ms = 0 := by
  rw [Conversation.awaitsAnswers, h.untilTimeout, h.remaining_eq, Bool.or_eq_false_iff,
    decide_eq_false_iff_not, decide_eq_false_iff_not, Nat.pos_iff_ne_zero, not_not]

/-- The records after any course are those of the messages that were handled. -/
theorem course (correlation topic : String) (start : Nat) (terms : Terms) (timers : Timers)
    (self : Nat) (os : List Occurrence) :
    Counted terms.wait
      ((Watch.opening correlation topic start terms timers).handled self os)
      ((Watch.opening correlation topic start terms timers).course self os).conversation :=
  ((Counted.start correlation topic start terms).fold _).of_book
    (Watch.course_book (.opening correlation topic start terms timers) self os).symm

end Counted

/-- Whether a history of messages is complete at some time of a course: the number of answers
matters, none is to come, and no window for acknowledgements is open. -/
def Complete (start : Nat) (terms : Terms) (os : List Occurrence) (now : Nat)
    (ms : List Message) : Prop :=
  terms.wait ≠ .untilTimeout ∧ History.remaining terms.wait ms = 0 ∧
    ¬WindowOpen start terms os now

namespace Watch

variable {correlation topic : String} {start : Nat} {terms : Terms} {timers : Timers}
  {self : Nat} {os : List Occurrence}

theorem receive_of_complete_history
    (hopen : ((opening correlation topic start terms timers).course self os).conversation.ended =
      false) {now : Nat} {m : Message}
    (h : Complete start terms os now
      ((opening correlation topic start terms timers).handled self os ++ [m])) :
    ∃ v e, ((opening correlation topic start terms timers).course self os).receive self now m =
        some (v, some e) ∧
      e.reason = .allResponsesReceived ∧ v.conversation.ended = true := by
  obtain ⟨hwait, hzero, hwin⟩ := h
  have hc := (Counted.course correlation topic start terms timers self os).take m
  have ha := hc.awaitsAnswers_eq_false_iff.mpr ⟨hwait, hzero⟩
  have hk : ((opening correlation topic start terms timers).course self os).conversation.awaitsAcks
      now = false := by
    rw [← Bool.not_eq_true, awaitsAcks_course_iff]
    exact hwin
  exact ⟨_, _, receive_of_complete hopen ha hk self, rfl, rfl⟩

theorem receive_of_incomplete_history
    (hopen : ((opening correlation topic start terms timers).course self os).conversation.ended =
      false) {now : Nat} {m : Message}
    (h : ¬Complete start terms os now
      ((opening correlation topic start terms timers).handled self os ++ [m])) :
    ∃ v, ((opening correlation topic start terms timers).course self os).receive self now m =
        some (v, none) ∧
      v.conversation.ended = false := by
  have hc := (Counted.course correlation topic start terms timers self os).take m
  cases hr : ((opening correlation topic start terms timers).course self os).receive self now m with
  | none =>
    rw [receive_eq_none_iff.mp hr] at hopen
    cases hopen
  | some r =>
    obtain ⟨v, end?⟩ := r
    obtain ⟨-, ⟨rfl, hv⟩ | ⟨-, -, ha, hk⟩⟩ := receive_eq_some hr
    · exact ⟨v, rfl, (Conversation.ended_of_untimed hv).trans hopen⟩
    · obtain ⟨hwait, hzero⟩ := hc.awaitsAnswers_eq_false_iff.mp ha
      refine absurd ⟨hwait, hzero, fun hwin => ?_⟩ h
      rw [awaitsAcks_course_iff.mpr hwin] at hk
      cases hk

end Watch

/-- As long as a conversation has not ended, what it expects is what its history says, and no
message has completed the history; and the first message that does ends it. -/
theorem Watch.ends_with_first_complete_history (correlation topic : String) (start : Nat)
    (terms : Terms) (timers : Timers) (self : Nat) (os : List Occurrence) :
    let w := opening correlation topic start terms timers
    (w.course self os).conversation.ended = false →
      (w.course self os).conversation.remaining =
          History.remaining terms.wait (w.handled self os) ∧
        (∀ pre now m post, os = pre ++ .message now m :: post →
          ¬Complete start terms pre now (w.handled self pre ++ [m])) ∧
        ∀ now m,
          (Complete start terms os now (w.handled self os ++ [m]) →
            ∃ v e, (w.course self os).receive self now m = some (v, some e) ∧
              e.reason = .allResponsesReceived ∧ v.conversation.ended = true) ∧
          (¬Complete start terms os now (w.handled self os ++ [m]) →
            ∃ v, (w.course self os).receive self now m = some (v, none) ∧
              v.conversation.ended = false) := by
  intro w hopen
  refine ⟨(Counted.course ..).remaining_eq, ?_, fun now m =>
    ⟨receive_of_complete_history hopen, receive_of_incomplete_history hopen⟩⟩
  rintro pre now m post rfl hcomplete
  -- The message would have ended the conversation, and it would not be open now.
  have hpre : (w.course self pre).conversation.ended = false := open_of_course_append hopen
  obtain ⟨v, e, hr, -, hended⟩ := receive_of_complete_history hpre hcomplete
  have hmeet : ((w.course self pre).meet self (.message now m)).1 = v :=
    congrArg (fun r => (r.getD (w.course self pre, none)).1) hr
  have hlater : (w.course self (pre ++ .message now m :: post)).conversation.ended = true := by
    rw [course_append, course, hmeet]
    exact course_ended hended self post
  rw [hlater] at hopen
  cases hopen

/-- A message of a responder that announces answers or uses them up. -/
def Message.spoken (id : String) (remaining : Int) (payload : Option Json.Value) : Message where
  id := id
  correlation := "talk"
  route := { destination := "answers" }
  stamp := { createdAt := .epoch, origin := default }
  ack := some { responderId := "responder", responsesRemaining := some remaining }
  payload := payload

/-- Two answers are announced, and one of them comes twice. -/
def Occurrence.halfway : List Occurrence :=
  [.listen true, .wait 0, .message 1 (.spoken "announcement" 2 none),
    .message 2 (.spoken "first" (-1) (some (.bool true))),
    .message 3 (.spoken "first" (-1) (some (.bool true)))]

def Terms.forOne : Terms := { responseTimeoutMs := 1000, wait := .exactly 1 }

theorem Watch.halfway_ends_with_second :
    let w := opening "talk" "answers" 0 .forOne {}
    (w.course 0 Occurrence.halfway).conversation.ended = false ∧
      (w.course 0 Occurrence.halfway).conversation.remaining = 1 ∧
      ∃ v e, (w.course 0 Occurrence.halfway).receive 0 4
          (.spoken "second" (-1) (some (.bool false))) = some (v, some e) ∧
        e.reason = .allResponsesReceived ∧ v.conversation.ended = true := by
  have hopen : ((opening "talk" "answers" 0 .forOne {}).course 0
      Occurrence.halfway).conversation.ended = false := by decide +kernel
  obtain ⟨hremaining, -, hends⟩ := ends_with_first_complete_history "talk" "answers" 0 .forOne {}
    0 Occurrence.halfway hopen
  refine ⟨hopen, hremaining.trans (by decide +kernel), (hends 4 _).1 ⟨by decide, ?_, ?_⟩⟩
  · decide +kernel
  · rintro ⟨-, ms, hms, -⟩
    cases hms
end Colloquy
