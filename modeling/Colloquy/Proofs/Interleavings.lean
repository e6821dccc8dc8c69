/-
Responders do not get in each other's way.

Each responder sends its messages in an order of its own, and what comes to a conversation is
some interleaving of these streams.  `Interleaves` says so by projection: what one responder
said, taken out of all that came, is its stream.  The messages of one responder do not commute,
as a count that is reset and then raised is not one that is raised and then reset.  But what a
conversation keeps of one responder depends on that responder's stream alone, and all that it
keeps of the responders together is a sum or a maximum.  So after two interleavings of the same
streams a conversation that is still open awaits the same, whatever else happened to it.
-/
import Colloquy.Proofs.Deadlines

namespace Colloquy

/-- In whose name a message acknowledges something. -/
def Message.speaker (m : Message) : Option String := m.ack.map Ack.responderId

/-- Whether a message is one of a responder. -/
def Message.isOf (responder : String) (m : Message) : Bool := m.speaker = some responder

/-- `ms` is the streams of the responders, each in its own order and nothing else. -/
structure Interleaves (streams : String → List Message) (ms : List Message) : Prop where
  spoken : ∀ m ∈ ms, m.speaker.isSome
  order : ∀ r, ms.filter (Message.isOf r) = streams r

/-- Two responders never use the same id. -/
def OwnIds (streams : String → List Message) : Prop :=
  ∀ r s, r ≠ s → ∀ m ∈ streams r, ∀ k ∈ streams s, m.id ≠ k.id

theorem Message.isOf_iff {responder : String} {m : Message} :
    m.isOf responder = true ↔ ∃ a, m.ack = some a ∧ a.responderId = responder := by
  rw [Message.isOf, decide_eq_true_iff, Message.speaker, Option.map_eq_some_iff]

/-! ## What one responder said -/

namespace History

theorem firstsAfter_subset (seen : List String) (ms : List Message) :
    firstsAfter seen ms ⊆ ms := by
  induction ms generalizing seen with
  | nil => exact List.Subset.refl _
  | cons m ms ih =>
    rw [firstsAfter]
    split
    · exact List.subset_cons_of_subset m (ih seen)
    · exact List.cons_subset_cons m (ih _)

theorem firstsAfter_append (seen : List String) (ms ns : List Message) :
    firstsAfter seen (ms ++ ns) =
      firstsAfter seen ms ++ firstsAfter (seen ++ ms.map Message.id) ns := by
  induction ns using List.reverseRecOn with
  | nil => rw [List.append_nil, firstsAfter, List.append_nil]
  | append_singleton ns m ih =>
    have hiff : (m.id ∈ seen ∨ m.id ∈ (ms ++ ns).map Message.id) ↔
        (m.id ∈ seen ++ ms.map Message.id ∨ m.id ∈ ns.map Message.id) := by
      rw [List.map_append, List.mem_append, List.mem_append, or_assoc]
    rw [← List.append_assoc, firstsAfter_append_singleton, firstsAfter_append_singleton, ih,
      List.append_assoc]
    simp only [hiff]

theorem firsts_append (ms ns : List Message) :
    firsts (ms ++ ns) = firsts ms ++ firstsAfter (ms.map Message.id) ns :=
  firstsAfter_append [] ms ns

/-- If messages that differ in some respect differ in their ids, then which of them come first
is settled among those that are alike. -/
theorem filter_firstsAfter {p : Message → Bool} (seen : List String) {ms : List Message}
    (h : ∀ m ∈ ms, ∀ k ∈ ms, p m = true → p k = false → m.id ≠ k.id) :
    (firstsAfter seen ms).filter p = firstsAfter seen (ms.filter p) := by
  induction ms using List.reverseRecOn with
  | nil => rfl
  | append_singleton ms m ih =>
    have hrest := ih fun k hk l hl =>
      h k (List.mem_append_left _ hk) l (List.mem_append_left _ hl)
    have hlast : m ∈ ms ++ [m] := List.mem_append_right _ (List.mem_singleton_self m)
    rw [firstsAfter_append_singleton, List.filter_append, List.filter_append, hrest]
    cases hm : p m with
    | false =>
      have hnone : [m].filter p = [] := by simp only [List.filter, hm]
      rw [hnone, List.append_nil]
      split
      · exact List.append_nil _
      · rw [hnone, List.append_nil]
    | true =>
      have hone : [m].filter p = [m] := by simp only [List.filter, hm]
      have hiff : (m.id ∈ seen ∨ m.id ∈ ms.map Message.id) ↔
          (m.id ∈ seen ∨ m.id ∈ (ms.filter p).map Message.id) := by
        apply or_congr_right
        rw [List.mem_map, List.mem_map]
        constructor
        · rintro ⟨k, hk, hid⟩
          cases hpk : p k with
          | true => exact ⟨k, List.mem_filter.mpr ⟨hk, hpk⟩, hid⟩
          | false => exact absurd hid.symm (h m hlast k (List.mem_append_left _ hk) hm hpk)
        · rintro ⟨k, hk, hid⟩
          exact ⟨k, (List.mem_filter.mp hk).1, hid⟩
      rw [hone, firstsAfter_append_singleton]
      simp only [hiff]
      split
      · rfl
      · rw [hone]

/-- Only what a responder said changes its count. -/
theorem foldl_tally_filter (responder : String) (ms : List Message) (count : Option Nat) :
    ms.foldl (tally responder) count =
      (ms.filter (Message.isOf responder)).foldl (tally responder) count := by
  induction ms generalizing count with
  | nil => rfl
  | cons m ms ih =>
    cases hm : m.isOf responder with
    | true =>
      rw [List.filter_cons_of_pos hm]
      exact ih _
    | false =>
      have hother : ∀ a, m.ack = some a → a.responderId ≠ responder := by
        intro a ha hr
        rw [Message.isOf_iff.mpr ⟨a, ha, hr⟩] at hm
        cases hm
      rw [List.filter_cons_of_neg (by rw [hm]; exact Bool.false_ne_true), List.foldl_cons,
        tally_of_other hother]
      exact ih _

theorem filterMap_askedBy_filter (responder : String) (ms : List Message) :
    ms.filterMap (askedBy responder) =
      (ms.filter (Message.isOf responder)).filterMap (askedBy responder) := by
  rw [List.filterMap_filter]
  apply List.filterMap_congr
  intro m _
  cases hm : m.isOf responder with
  | true => rfl
  | false =>
    cases ha : m.ack with
    | none => simp only [askedBy, ha, Option.bind_none, Bool.false_eq_true, if_false]
    | some a =>
      have hr : a.responderId ≠ responder := by
        intro hr
        rw [Message.isOf_iff.mpr ⟨a, ha, hr⟩] at hm
        cases hm
      simp only [askedBy, ha, Option.bind_some, hr, if_false, Bool.false_eq_true]

end History

/-! ## Two interleavings of the same streams -/

namespace Interleaves

open History (firsts firstsAfter answers announcedBy responders suggestion deadline)

variable {streams : String → List Message} {ms ns : List Message}

theorem apart (h : Interleaves streams ms) (hapart : OwnIds streams) (r : String) :
    ∀ m ∈ ms, ∀ k ∈ ms, m.isOf r = true → k.isOf r = false → m.id ≠ k.id := by
  intro m hm k hk hmr hkr
  obtain ⟨s, hs⟩ := Option.isSome_iff_exists.mp (h.spoken k hk)
  have hks : k.isOf s = true := decide_eq_true_iff.mpr hs
  have hrs : r ≠ s := by
    rintro rfl
    rw [hks] at hkr
    cases hkr
  apply hapart r s hrs m _ k
  · rw [← h.order s]
    exact List.mem_filter.mpr ⟨hk, hks⟩
  · rw [← h.order r]
    exact List.mem_filter.mpr ⟨hm, hmr⟩

/-- Lists of spoken messages that say the same of every responder are permutations. -/
theorem perm_of_projections (hms : ∀ m ∈ ms, m.speaker.isSome)
    (hns : ∀ m ∈ ns, m.speaker.isSome)
    (h : ∀ r, ms.filter (Message.isOf r) = ns.filter (Message.isOf r)) : ms.Perm ns := by
  -- Messages are compared by `=` here, not by the comparison that they have.
  let _ : DecidableEq Message := Classical.decEq Message
  let _ : BEq Message := instBEqOfDecidableEq
  rw [List.perm_iff_count]
  intro m
  cases hm : m.speaker with
  | none =>
    have hnot : ∀ ks : List Message, (∀ k ∈ ks, k.speaker.isSome) → ks.count m = 0 := by
      intro ks hks
      apply List.count_eq_zero.mpr
      intro hmem
      have hsome := hks m hmem
      rw [hm] at hsome
      cases hsome
    rw [hnot ms hms, hnot ns hns]
  | some r =>
    have hr : m.isOf r = true := decide_eq_true_iff.mpr hm
    rw [← List.count_filter (l := ms) hr, h r, List.count_filter hr]

variable (hms : Interleaves streams ms) (hns : Interleaves streams ns)
include hms hns

theorem perm : ms.Perm ns :=
  perm_of_projections hms.spoken hns.spoken fun r => (hms.order r).trans (hns.order r).symm

section
variable (hapart : OwnIds streams)
include hapart

/-- Of each responder the same messages come first. -/
theorem filter_firstsAfter_eq (seen : List String) (r : String) :
    (firstsAfter seen ms).filter (Message.isOf r) =
      (firstsAfter seen ns).filter (Message.isOf r) := by
  rw [History.filter_firstsAfter seen (hms.apart hapart r),
    History.filter_firstsAfter seen (hns.apart hapart r), hms.order, hns.order]

theorem perm_firsts (base : List Message) : (firsts (base ++ ms)).Perm (firsts (base ++ ns)) := by
  rw [History.firsts_append, History.firsts_append]
  apply List.Perm.append_left
  apply perm_of_projections
  · exact fun m hm => hms.spoken m (History.firstsAfter_subset _ _ hm)
  · exact fun m hm => hns.spoken m (History.firstsAfter_subset _ _ hm)
  · exact filter_firstsAfter_eq hms hns hapart _

theorem announcedBy_eq (base : List Message) (r : String) :
    announcedBy r (base ++ ms) = announcedBy r (base ++ ns) := by
  unfold announcedBy
  rw [History.firsts_append, History.firsts_append, List.foldl_append, List.foldl_append,
    History.foldl_tally_filter r (firstsAfter _ ms),
    History.foldl_tally_filter r (firstsAfter _ ns), filter_firstsAfter_eq hms hns hapart]

theorem answers_eq (base : List Message) : answers (base ++ ms) = answers (base ++ ns) :=
  (perm_firsts hms hns hapart base).countP_eq Message.hasPayload

theorem responders_eq (base : List Message) :
    responders (base ++ ms) = responders (base ++ ns) :=
  List.toFinset_eq_of_perm _ _ ((perm_firsts hms hns hapart base).filterMap _)

theorem remaining_eq (wait : Wait) (base : List Message) :
    History.remaining wait (base ++ ms) = History.remaining wait (base ++ ns) := by
  unfold History.remaining
  rw [answers_eq hms hns hapart base, responders_eq hms hns hapart base]
  simp only [announcedBy_eq hms hns hapart base]

end

theorem suggestion_eq (base : List Message) (r : String) :
    suggestion r (base ++ ms) = suggestion r (base ++ ns) := by
  unfold suggestion
  rw [List.filterMap_append, List.filterMap_append, History.filterMap_askedBy_filter r ms,
    History.filterMap_askedBy_filter r ns, hms.order, hns.order]

theorem deadline_eq (first : Nat) (base : List Message) :
    deadline first (base ++ ms) = deadline first (base ++ ns) :=
  History.deadline_congr fun _ => ((perm hms hns).append_left base).mem_iff

end Interleaves

/-! ## Two courses of a conversation -/

/-- Two conversations await the same and have the same deadlines, and have recorded the same
messages, in whatever order. -/
structure Conversation.Agrees (c d : Conversation) : Prop where
  announced : ∀ r, c.announced.get? r = d.announced.get? r
  outstanding : c.outstanding = d.outstanding
  remaining : c.remaining = d.remaining
  suggested : ∀ r, c.suggested.get? r = d.suggested.get? r
  timeoutMs : c.timeoutMs = d.timeoutMs
  seen : ∀ id, id ∈ c.seen ↔ id ∈ d.seen
  awaitsAnswers : c.awaitsAnswers = d.awaitsAnswers
  payloads : c.payloads.Perm d.payloads
  acks : c.acks.Perm d.acks

/-- From any state that a conversation comes to, two courses in which the same streams of the
responders are interleaved agree in the end, if they leave it open. -/
theorem Watch.responders_commute (correlation topic : String) (start : Nat) (terms : Terms)
    (timers : Timers) (self : Nat) (before : List Occurrence) (streams : String → List Message)
    (hapart : OwnIds streams) (os ps : List Occurrence)
    (hos : Interleaves streams (Occurrence.messages os))
    (hps : Interleaves streams (Occurrence.messages ps)) :
    let w := (opening correlation topic start terms timers).course self before
    (w.course self os).conversation.ended = false →
      (w.course self ps).conversation.ended = false →
      (w.course self os).conversation.Agrees (w.course self ps).conversation := by
  intro w ho hp
  let base := (opening correlation topic start terms timers).handled self before
  -- What is known of the common state, carried on through what was handled after it.
  have hcounted : Counted terms.wait base w.conversation := Counted.course ..
  have hfolds := (Folds.start correlation topic start terms).course
    (w := opening correlation topic start terms timers) self before
  have hc := (hcounted.fold (w.handled self os)).of_book (w.course_book self os).symm
  have hd := (hcounted.fold (w.handled self ps)).of_book (w.course_book self ps).symm
  have hf := hfolds.course self os
  have hg := hfolds.course self ps
  rw [List.nil_append] at hf hg
  rw [handled_of_open ho] at hc hf
  rw [handled_of_open hp] at hd hg
  have hrecorded := (hos.perm hps).append_left base
  have hremaining := hos.remaining_eq hps hapart terms.wait base
  refine ⟨fun r => ?_, ?_, ?_, fun r => ?_, ?_, fun id => ?_, ?_, ?_, ?_⟩
  · rw [hc.announced, hd.announced, hos.announcedBy_eq hps hapart]
  · rw [hc.outstanding, hd.outstanding, hos.answers_eq hps hapart]
  · rw [hc.remaining_eq, hd.remaining_eq, hremaining]
  · rw [hf.suggested, hg.suggested, hos.suggestion_eq hps]
  · rw [hf.timeoutMs, hg.timeoutMs, hos.deadline_eq hps]
  · rw [hc.seen, hd.seen]
    exact (hrecorded.map Message.id).mem_iff
  · apply Bool.eq_iff_iff.mpr
    rw [← not_iff_not, Bool.not_eq_true, Bool.not_eq_true, hc.awaitsAnswers_eq_false_iff,
      hd.awaitsAnswers_eq_false_iff, hremaining]
  · rw [hc.payloads, hd.payloads]
    exact hrecorded.filter _
  · rw [hc.acks, hd.acks]
    exact hrecorded.filter _

/-- A message of a responder that asks for a deadline, announces answers and may be one. -/
def Message.from (responder id : String) (ms : Nat) (remaining : Int)
    (payload : Option Json.Value) : Message where
  id := id
  correlation := "talk"
  route := { destination := "answers" }
  stamp := { createdAt := .epoch, origin := default }
  ack := some
    { responderId := responder, timeoutMs := some ms, responsesRemaining := some remaining }
  payload := payload

/-- Its topic is listened to, and its request is out. -/
def Occurrence.underWay : List Occurrence := [.listen true, .wait 0]

/-- One responder announces two answers and takes one back, and another announces one and sends
it twice. -/
def Occurrence.oneByOne : List Occurrence :=
  [.message 1 (.from "a" "a1" 4000 2 none), .message 2 (.from "a" "a2" 10 (-1) none),
    .message 3 (.from "b" "b1" 3000 1 none), .message 4 (.from "b" "b2" 20 (-1) (some .null)),
    .message 5 (.from "b" "b2" 20 (-1) (some .null))]

/-- The same, with the responders taking turns. -/
def Occurrence.inTurns : List Occurrence :=
  [.message 1 (.from "b" "b1" 3000 1 none), .message 2 (.from "a" "a1" 4000 2 none),
    .responseTimer 7, .message 3 (.from "b" "b2" 20 (-1) (some .null)),
    .message 6 (.from "a" "a2" 10 (-1) none), .message 8 (.from "b" "b2" 20 (-1) (some .null))]

/-- The two messages of one responder, the other way round, leave another count. -/
example :
    History.announcedBy "a" [.from "a" "a1" 4000 2 none, .from "a" "a2" 10 (-1) none] = some 1 ∧
      History.announcedBy "a" [.from "a" "a2" 10 (-1) none, .from "a" "a1" 4000 2 none] =
        some 2 := by
  decide

theorem Watch.oneByOne_agrees_inTurns :
    let streams r := (Occurrence.messages Occurrence.oneByOne).filter (Message.isOf r)
    OwnIds streams ∧ Interleaves streams (Occurrence.messages Occurrence.oneByOne) ∧
      Interleaves streams (Occurrence.messages Occurrence.inTurns) ∧
      (((opening "talk" "answers" 0 .forOne {}).course 0 Occurrence.underWay).course 0
        Occurrence.oneByOne).conversation.ended = false ∧
      (((opening "talk" "answers" 0 .forOne {}).course 0 Occurrence.underWay).course 0
        Occurrence.inTurns).conversation.ended = false ∧
      (((opening "talk" "answers" 0 .forOne {}).course 0 Occurrence.underWay).course 0
        Occurrence.oneByOne).conversation.Agrees
      (((opening "talk" "answers" 0 .forOne {}).course 0 Occurrence.underWay).course 0
        Occurrence.inTurns).conversation := by
  intro streams
  have hids : ∀ m ∈ Occurrence.messages Occurrence.oneByOne,
      ∀ k ∈ Occurrence.messages Occurrence.oneByOne, m.id = k.id → m.speaker = k.speaker := by
    decide
  have hapart : OwnIds streams := by
    intro r s hrs m hm k hk hid
    obtain ⟨hm, hmr⟩ := List.mem_filter.mp hm
    obtain ⟨hk, hks⟩ := List.mem_filter.mp hk
    have hspeaker := hids m hm k hk hid
    rw [decide_eq_true_iff.mp hmr, decide_eq_true_iff.mp hks] at hspeaker
    exact hrs (Option.some.inj hspeaker)
  have hos : Interleaves streams (Occurrence.messages Occurrence.oneByOne) :=
    ⟨by decide, fun _ => rfl⟩
  have hps : Interleaves streams (Occurrence.messages Occurrence.inTurns) := by
    refine ⟨by decide, fun r => ?_⟩
    by_cases ha : r = "a"
    · subst ha
      rfl
    · by_cases hb : r = "b"
      · subst hb
        rfl
      · simp [streams, Occurrence.oneByOne, Occurrence.inTurns, Occurrence.messages,
          Message.isOf, Message.speaker, Message.from, Ne.symm ha, Ne.symm hb]
  have ho : (((opening "talk" "answers" 0 .forOne {}).course 0 Occurrence.underWay).course 0
      Occurrence.oneByOne).conversation.ended = false := by decide +kernel
  have hp : (((opening "talk" "answers" 0 .forOne {}).course 0 Occurrence.underWay).course 0
      Occurrence.inTurns).conversation.ended = false := by decide +kernel
  exact ⟨hapart, hos, hps, ho, hp,
    responders_commute "talk" "answers" 0 .forOne {} 0 Occurrence.underWay streams hapart _ _
      hos hps ho hp⟩

end Colloquy
