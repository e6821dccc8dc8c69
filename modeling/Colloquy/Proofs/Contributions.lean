/-
What responders contribute to a conversation.

A responder announces how many answers it is going to send, and sends them.  The messages of
all responders come in any order that keeps the one of each, and copies of what came may come
again at any time.  Whatever the order, the count of a responder is what it has announced
less the answers of it that came, and the conversation ends by its counts only when all
answers came of every responder whose announcement came.
-/
import Colloquy.Proofs.Counting
import Colloquy.Proofs.Subscription
import Colloquy.Session.Request

namespace Colloquy

/-! ## What a responder sends -/

/-- A message that a responder sends with some acknowledgement and payload. -/
def Responder.Sends (r : Responder) (ack : Ack) (payload : Option Json.Value) (m : Message) :
    Prop :=
  ∃ (origin : Origin) (made published : Instant) (id : String) (k : Message),
    origin.answer made id r.request r.template (some ack) payload = .ok k ∧
      m = k.markPublished published

namespace Responder.Sends

variable {r : Responder} {ack : Ack} {payload : Option Json.Value} {m : Message}

theorem fields (h : r.Sends ack payload m) :
    m.ack = some ack ∧ m.payload = payload ∧ m.correlation = r.request.correlation := by
  obtain ⟨origin, made, published, id, k, hk, rfl⟩ := h
  unfold Origin.answer at hk
  split at hk
  · cases hk
  · cases hk
    exact ⟨rfl, rfl, rfl⟩

end Responder.Sends

namespace Channels

variable {η : Type}

theorem send_eq_ok {c d : Channels η} {now : Instant} {topic : String} {m : Message}
    (h : c.send now topic m = (.ok (), d)) :
    ∃ body t, (m.markPublished now).encode = .ok body ∧
      c.broker.publish topic m.route.routingKey body = .ok (d.broker, t) := by
  simp only [send] at h
  split at h
  · cases h
  · rename_i body henc
    split at h
    · cases h
    · rename_i b t hpub
      cases h
      refine ⟨body, t, henc, hpub.trans ?_⟩
      rw [monitor_broker]
      rfl

end Channels

/-- The part of one responder: it announces its answers, one at least and as many as a number
of 32 bits can say, and sends them. -/
structure Contribution where
  responder : Responder
  announcement : Message
  answers : List Message
  announces : ∃ timeoutMs,
    responder.Sends (responder.announcement timeoutMs (some answers.length)) none announcement
  sends : ∀ m ∈ answers, ∃ payload, payload.isNull = false ∧
    responder.Sends responder.deduction (some payload) m
  nonempty : answers ≠ []
  bounded : (answers.length : Int) ≤ Word.intMax 32

namespace Contribution

def messages (p : Contribution) : List Message := p.announcement :: p.answers

/-- How many answers of a part came in a history, not counting copies. -/
def came (p : Contribution) (ms : List Message) : Nat :=
  ((ms.map Message.id).toFinset ∩ (p.answers.map Message.id).toFinset).card

theorem announcement_ack (p : Contribution) : ∃ a, p.announcement.ack = some a ∧
    a.responderId = p.responder.id ∧ a.responsesRemaining = some (p.answers.length : Int) := by
  obtain ⟨timeoutMs, h⟩ := p.announces
  exact ⟨_, h.fields.1, rfl, rfl⟩

theorem answer_ack (p : Contribution) {m : Message} (h : m ∈ p.answers) : ∃ a, m.ack = some a ∧
    a.responderId = p.responder.id ∧ a.responsesRemaining = some (-1) := by
  obtain ⟨payload, -, hs⟩ := p.sends m h
  exact ⟨_, hs.fields.1, rfl, rfl⟩

theorem message_ack (p : Contribution) {m : Message} (h : m ∈ p.messages) :
    ∃ a, m.ack = some a ∧ a.responderId = p.responder.id := by
  rcases List.mem_cons.mp h with rfl | h
  · obtain ⟨a, ha, hr, -⟩ := p.announcement_ack
    exact ⟨a, ha, hr⟩
  · obtain ⟨a, ha, hr, -⟩ := p.answer_ack h
    exact ⟨a, ha, hr⟩

theorem answer_hasPayload (p : Contribution) {m : Message} (h : m ∈ p.answers) :
    m.hasPayload = true := by
  obtain ⟨payload, hnull, hs⟩ := p.sends m h
  simp only [Message.hasPayload, hs.fields.2.1, hnull, Bool.not_false]

theorem length_le_countLimit (p : Contribution) : p.answers.length ≤ countLimit := by
  have h := p.bounded
  have hword : (Word.intMax 32 : Int) ≤ countLimit := by decide
  omega

end Contribution

/-- Parts whose responders and messages have different ids. -/
structure Apart (parts : List Contribution) : Prop where
  responders : (parts.map fun p => p.responder.id).Nodup
  ids : ((parts.flatMap Contribution.messages).map Message.id).Nodup

namespace Apart

variable {parts : List Contribution} {p q : Contribution} {m k : Message}

theorem eq_of_id (h : Apart parts) (hp : p ∈ parts) (hm : m ∈ p.messages) (hq : q ∈ parts)
    (hk : k ∈ q.messages) (hid : m.id = k.id) : m = k :=
  List.inj_on_of_nodup_map h.ids (List.mem_flatMap.mpr ⟨p, hp, hm⟩)
    (List.mem_flatMap.mpr ⟨q, hq, hk⟩) hid

theorem eq_of_responder (h : Apart parts) (hp : p ∈ parts) (hq : q ∈ parts)
    (hr : p.responder.id = q.responder.id) : p = q :=
  List.inj_on_of_nodup_map h.responders hp hq hr

theorem nodup_messages (h : Apart parts) (hp : p ∈ parts) :
    (p.messages.map Message.id).Nodup := by
  have hids := h.ids
  rw [List.map_flatMap] at hids
  exact (List.nodup_flatMap.mp hids).1 p hp

theorem nodup_answers (h : Apart parts) (hp : p ∈ parts) :
    (p.answers.map Message.id).Nodup :=
  (List.nodup_cons.mp (h.nodup_messages hp)).2

theorem announcement_not_answer (h : Apart parts) (hp : p ∈ parts) :
    p.announcement.id ∉ p.answers.map Message.id :=
  (List.nodup_cons.mp (h.nodup_messages hp)).1

theorem nodup_flatMap_answers (h : Apart parts) :
    (parts.flatMap Contribution.answers).Nodup := by
  refine (List.Nodup.of_map Message.id h.ids).sublist ?_
  exact List.Sublist.flatMap_right _ fun p _ => List.sublist_cons_self p.announcement p.answers

end Apart

/-- The messages of all parts in some order: the announcement of a part comes before its
answers, the answers come in their order, and copies of what came may come at any time. -/
inductive Interleaved (parts : List Contribution) : List Message → Prop where
  | start : Interleaved parts []
  | announcement {ms : List Message} {p : Contribution} : Interleaved parts ms → p ∈ parts →
      Interleaved parts (ms ++ [p.announcement])
  | answer {ms : List Message} {p : Contribution} {before later : List Message} {m : Message} :
      Interleaved parts ms → p ∈ parts → p.answers = before ++ m :: later →
      p.announcement ∈ ms → (∀ k ∈ before, k ∈ ms) → Interleaved parts (ms ++ [m])
  | copy {ms : List Message} {m : Message} : Interleaved parts ms → m ∈ ms →
      Interleaved parts (ms ++ [m])

namespace Interleaved

variable {parts : List Contribution} {ms ks : List Message} {p q : Contribution} {m : Message}

theorem of_prefix (h : Interleaved parts ms) (hk : ks <+: ms) : Interleaved parts ks := by
  induction h with
  | start =>
    rw [List.prefix_nil.mp hk]
    exact .start
  | announcement h hp ih =>
    rcases List.prefix_concat_iff.mp hk with rfl | hk
    · exact .announcement h hp
    · exact ih hk
  | answer h hp ha hann hbefore ih =>
    rcases List.prefix_concat_iff.mp hk with rfl | hk
    · exact .answer h hp ha hann hbefore
    · exact ih hk
  | copy h hm ih =>
    rcases List.prefix_concat_iff.mp hk with rfl | hk
    · exact .copy h hm
    · exact ih hk

theorem mem_messages (h : Interleaved parts ms) (hm : m ∈ ms) :
    ∃ p ∈ parts, m ∈ p.messages := by
  induction h with
  | start => cases hm
  | @announcement ms p h hp ih =>
    rcases List.mem_append.mp hm with hm | hm
    · exact ih hm
    · rw [List.mem_singleton] at hm
      exact ⟨p, hp, hm ▸ List.mem_cons_self⟩
  | @answer ms p before later k h hp ha hann hbefore ih =>
    rcases List.mem_append.mp hm with hm | hm
    · exact ih hm
    · rw [List.mem_singleton] at hm
      have hk : k ∈ p.answers := ha ▸ List.mem_append_right _ List.mem_cons_self
      exact ⟨p, hp, hm ▸ List.mem_cons_of_mem _ hk⟩
  | copy h hk ih =>
    rcases List.mem_append.mp hm with hm | hm
    · exact ih hm
    · rw [List.mem_singleton] at hm
      exact ih (hm ▸ hk)

theorem mem_iff (h : Interleaved parts ms) (hapart : Apart parts) (hp : p ∈ parts)
    (hm : m ∈ p.messages) : m.id ∈ ms.map Message.id ↔ m ∈ ms := by
  refine ⟨fun hid => ?_, List.mem_map_of_mem⟩
  obtain ⟨k, hk, hid⟩ := List.mem_map.mp hid
  obtain ⟨q, hq, hkq⟩ := h.mem_messages hk
  rw [hapart.eq_of_id hp hm hq hkq hid.symm]
  exact hk

end Interleaved

/-! ## How many came -/

namespace Contribution

variable {p : Contribution} {ms : List Message} {m : Message}

theorem came_le_length (p : Contribution) (ms : List Message) : p.came ms ≤ p.answers.length := by
  refine (Finset.card_le_card Finset.inter_subset_right).trans ?_
  refine (List.toFinset_card_le _).trans ?_
  rw [List.length_map]

theorem came_eq_zero (h : ∀ m ∈ p.answers, m.id ∉ ms.map Message.id) : p.came ms = 0 := by
  rw [came, Finset.card_eq_zero, ← Finset.disjoint_iff_inter_eq_empty,
    List.disjoint_toFinset_iff_disjoint]
  intro id hid hp
  obtain ⟨m, hm, rfl⟩ := List.mem_map.mp hp
  exact h m hm hid

theorem mem_of_came_eq_length (hn : (p.answers.map Message.id).Nodup)
    (h : p.came ms = p.answers.length) (hm : m ∈ p.answers) : m.id ∈ ms.map Message.id := by
  have hcard : (p.answers.map Message.id).toFinset.card = p.answers.length := by
    rw [List.toFinset_card_of_nodup hn, List.length_map]
  have hall : (ms.map Message.id).toFinset ∩ (p.answers.map Message.id).toFinset =
      (p.answers.map Message.id).toFinset :=
    Finset.eq_of_subset_of_card_le Finset.inter_subset_right (by rw [hcard, ← h, came])
  have hid : m.id ∈ (p.answers.map Message.id).toFinset :=
    List.mem_toFinset.mpr (List.mem_map_of_mem hm)
  rw [← hall] at hid
  exact List.mem_toFinset.mp (Finset.mem_inter.mp hid).1

theorem toFinset_ids_append_singleton (ms : List Message) (m : Message) :
    ((ms ++ [m]).map Message.id).toFinset = insert m.id (ms.map Message.id).toFinset := by
  ext id
  simp only [List.map_append, List.map_cons, List.map_nil, List.mem_toFinset, List.mem_append,
    List.mem_singleton, Finset.mem_insert]
  exact or_comm

theorem came_of_mem (p : Contribution) (h : m.id ∈ ms.map Message.id) :
    p.came (ms ++ [m]) = p.came ms := by
  rw [came, toFinset_ids_append_singleton, Finset.insert_eq_of_mem (List.mem_toFinset.mpr h), came]

theorem came_of_not_answer (h : m.id ∉ p.answers.map Message.id) (ms : List Message) :
    p.came (ms ++ [m]) = p.came ms := by
  rw [came, toFinset_ids_append_singleton,
    Finset.insert_inter_of_notMem fun hm => h (List.mem_toFinset.mp hm), came]

theorem came_of_answer (hm : m ∈ p.answers) (h : m.id ∉ ms.map Message.id) :
    p.came (ms ++ [m]) = p.came ms + 1 := by
  have hid : m.id ∈ (p.answers.map Message.id).toFinset :=
    List.mem_toFinset.mpr (List.mem_map_of_mem hm)
  rw [came, toFinset_ids_append_singleton, Finset.insert_inter_of_mem hid,
    Finset.card_insert_of_notMem, came]
  exact fun hin => h (List.mem_toFinset.mp (Finset.mem_inter.mp hin).1)

end Contribution

/-! ## The count of a responder -/

/-- What a history says of a contribution: nothing until the announcement comes, and then how
many answers are still to come. -/
structure Contribution.Told (p : Contribution) (ms : List Message) : Prop where
  before : p.announcement ∉ ms →
    (∀ m ∈ p.answers, m ∉ ms) ∧ History.announcedBy p.responder.id ms = none
  after : p.announcement ∈ ms →
    History.announcedBy p.responder.id ms = some (p.answers.length - p.came ms)

namespace Contribution.Told

variable {parts : List Contribution} {p q : Contribution} {ms : List Message} {m : Message}

theorem start (p : Contribution) : p.Told [] where
  before := fun _ => ⟨fun _ _ => List.not_mem_nil, rfl⟩
  after := fun h => nomatch h

/-- A message that came before changes nothing. -/
theorem copy (h : p.Told ms) (hm : m ∈ ms) : p.Told (ms ++ [m]) := by
  have hid : m.id ∈ ms.map Message.id := List.mem_map_of_mem hm
  have hiff : ∀ k, k ∈ ms ++ [m] ↔ k ∈ ms := by
    intro k
    rw [List.mem_append, List.mem_singleton]
    constructor
    · rintro (hk | rfl)
      · exact hk
      · exact hm
    · exact Or.inl
  constructor
  · intro hann
    obtain ⟨hnone, hcount⟩ := h.before fun hk => hann ((hiff _).mpr hk)
    refine ⟨fun k hk hin => hnone k hk ((hiff k).mp hin), ?_⟩
    rw [History.announcedBy_of_mem hid, hcount]
  · intro hann
    rw [History.announcedBy_of_mem hid, h.after ((hiff _).mp hann), p.came_of_mem hid]

/-- A message of another contribution changes nothing. -/
theorem other (h : p.Told ms) (hapart : Apart parts) (hp : p ∈ parts) (hq : q ∈ parts)
    (hne : p ≠ q) (hm : m ∈ q.messages) (hnew : m.id ∉ ms.map Message.id) :
    p.Told (ms ++ [m]) := by
  have hother : ∀ k ∈ p.messages, k ≠ m := by
    rintro k hk rfl
    obtain ⟨a, ha, hrp⟩ := p.message_ack hk
    obtain ⟨b, hb, hrq⟩ := q.message_ack hm
    rw [ha] at hb
    cases hb
    exact hne (hapart.eq_of_responder hp hq (hrp.symm.trans hrq))
  have hiff : ∀ k ∈ p.messages, k ∈ ms ++ [m] ↔ k ∈ ms := by
    intro k hk
    rw [List.mem_append, List.mem_singleton, or_iff_left (hother k hk)]
  have hcount : History.announcedBy p.responder.id (ms ++ [m]) =
      History.announcedBy p.responder.id ms := by
    rw [History.announcedBy_of_not_mem hnew]
    refine History.tally_of_other (fun a ha hr => ?_) _
    obtain ⟨b, hb, hrq⟩ := q.message_ack hm
    rw [ha] at hb
    cases hb
    exact hne (hapart.eq_of_responder hp hq (hr.symm.trans hrq))
  have hcame : p.came (ms ++ [m]) = p.came ms := by
    refine came_of_not_answer (fun hid => ?_) ms
    obtain ⟨k, hk, hid⟩ := List.mem_map.mp hid
    have hkp : k ∈ p.messages := List.mem_cons_of_mem _ hk
    exact hother k hkp (hapart.eq_of_id hp hkp hq hm hid)
  constructor
  · intro hann
    obtain ⟨hnone, hsilent⟩ := h.before fun hk =>
      hann ((hiff _ List.mem_cons_self).mpr hk)
    refine ⟨fun k hk hin => hnone k hk ?_, hcount.trans hsilent⟩
    exact (hiff k (List.mem_cons_of_mem _ hk)).mp hin
  · intro hann
    rw [hcount, hcame]
    exact h.after ((hiff _ List.mem_cons_self).mp hann)

/-- The announcement says how many answers are to come, and none came yet. -/
theorem announcement (h : p.Told ms) (hall : Interleaved parts ms) (hapart : Apart parts)
    (hp : p ∈ parts) (hnew : p.announcement.id ∉ ms.map Message.id) :
    p.Told (ms ++ [p.announcement]) := by
  have hann : p.announcement ∉ ms := fun hk => hnew (List.mem_map_of_mem hk)
  obtain ⟨hnone, hsilent⟩ := h.before hann
  obtain ⟨a, ha, hr, hn⟩ := p.announcement_ack
  have hcame : p.came (ms ++ [p.announcement]) = 0 := by
    rw [came_of_not_answer (hapart.announcement_not_answer hp) ms]
    refine came_eq_zero fun m hm hid => hnone m hm ?_
    exact (hall.mem_iff hapart hp (List.mem_cons_of_mem _ hm)).mp hid
  constructor
  · exact fun hk => absurd (List.mem_append_right _ (List.mem_singleton_self _)) hk
  · intro _
    rw [History.announcedBy_of_not_mem hnew, History.tally_of_ack ha hn, if_pos hr, hsilent,
      hcame, Nat.sub_zero]
    simp [History.tallied]

/-- An answer that did not come before uses up one that was announced. -/
theorem answer (h : p.Told ms) (hann : p.announcement ∈ ms) (hm : m ∈ p.answers)
    (hnew : m.id ∉ ms.map Message.id) : p.Told (ms ++ [m]) := by
  obtain ⟨a, ha, hr, hn⟩ := p.answer_ack hm
  have hcame : p.came (ms ++ [m]) = p.came ms + 1 := came_of_answer hm hnew
  have hle := p.came_le_length (ms ++ [m])
  have hlimit := p.length_le_countLimit
  constructor
  · exact fun hk => absurd (List.mem_append_left _ hann) hk
  · intro _
    rw [History.announcedBy_of_not_mem hnew, History.tally_of_ack ha hn, if_pos hr, h.after hann,
      hcame, History.tallied, if_neg (by decide)]
    congr 1
    omega

theorem of_interleaved (h : Interleaved parts ms) (hapart : Apart parts) (hp : p ∈ parts) :
    p.Told ms := by
  -- The induction is on how the history came about.  Each message is new or a copy, and a new one
  -- is of this contribution or of another.
  induction h with
  | start => exact start p
  | @announcement ms q h hq ih =>
    by_cases hin : q.announcement ∈ ms
    · exact ih.copy hin
    · have hnew : q.announcement.id ∉ ms.map Message.id := fun hid =>
        hin ((h.mem_iff hapart hq List.mem_cons_self).mp hid)
      by_cases hpq : p = q
      · subst hpq
        exact ih.announcement h hapart hp hnew
      · exact ih.other hapart hp hq hpq List.mem_cons_self hnew
  | @answer ms q before later m h hq ha hann hbefore ih =>
    have hm : m ∈ q.answers := ha ▸ List.mem_append_right _ List.mem_cons_self
    have hmq : m ∈ q.messages := List.mem_cons_of_mem _ hm
    by_cases hin : m ∈ ms
    · exact ih.copy hin
    · have hnew : m.id ∉ ms.map Message.id := fun hid =>
        hin ((h.mem_iff hapart hq hmq).mp hid)
      by_cases hpq : p = q
      · subst hpq
        exact ih.answer hann hm hnew
      · exact ih.other hapart hp hq hpq hmq hnew
  | copy h hm ih => exact ih.copy hm

end Contribution.Told

/-! ## Ends -/

/-- When nothing is to come, every answer came that was announced. -/
theorem Interleaved.all_came {parts : List Contribution} {ms : List Message} {wait : Wait}
    (h : Interleaved parts ms) (hapart : Apart parts) (hzero : History.remaining wait ms = 0)
    {p : Contribution} (hp : p ∈ parts) (hann : p.announcement ∈ ms) {m : Message}
    (hm : m ∈ p.answers) : m ∈ ms := by
  have hcount := (Contribution.Told.of_interleaved h hapart hp).after hann
  have hsum : ∑ r ∈ History.responders ms, (History.announcedBy r ms).getD 0 = 0 := by
    -- The sum is cut off above zero, and so it is zero only if it was.
    have hlimit : 0 < countLimit := by decide
    rw [History.remaining] at hzero
    omega
  have hself := Finset.sum_eq_zero_iff.mp hsum _ (History.mem_responders hcount)
  rw [hcount, Option.getD_some] at hself
  have hlength : p.came ms = p.answers.length := by
    have hle := p.came_le_length ms
    omega
  have hid := Contribution.mem_of_came_eq_length (hapart.nodup_answers hp) hlength hm
  exact (h.mem_iff hapart hp (List.mem_cons_of_mem _ hm)).mp hid

/-- A conversation that expects a number of answers, and gets its messages from responders that
announce how many they send: the count of each is what it announced less the answers of it that
came, and an end that is not due to the deadline comes when all that were announced came, and
as many as the request expects. -/
theorem Watch.ends_with_all_that_was_announced (correlation topic : String) (start : Nat)
    (terms : Terms) (timers : Timers) (self : Nat) (os : List Occurrence)
    (parts : List Contribution) (n : Nat) (hwait : terms.wait = .exactly n)
    (hapart : Apart parts) (hcome : Interleaved parts (Occurrence.messages os)) :
    let w := opening correlation topic start terms timers
    (∀ p ∈ parts, p.announcement ∈ w.handled self os →
        (w.course self os).conversation.announced.get? p.responder.id =
          some (p.answers.length - p.came (w.handled self os))) ∧
      ∀ pre o post e, os = pre ++ o :: post → ((w.course self pre).meet self o).2 = some e →
        e.reason = .allResponsesReceived ∨ e.reason = .ackTimeout →
        let ms := w.handled self (pre ++ [o])
        (∀ p ∈ parts, p.announcement ∈ ms → ∀ m ∈ p.answers, m ∈ ms) ∧
          n ≤ History.answers ms ∧
          ((∀ p ∈ parts, p.announcement ∈ ms) →
            (parts.flatMap Contribution.answers).Subperm e.payloads) := by
  intro w
  constructor
  · intro p hp hann
    have hall := hcome.of_prefix (w.handled_isPrefix self os)
    rw [(Counted.course correlation topic start terms timers self os).announced]
    exact (Contribution.Told.of_interleaved hall hapart hp).after hann
  · intro pre o post e hos he hreason ms
    have hprefix : ms <+: Occurrence.messages os := by
      refine List.IsPrefix.trans ?_ (w.handled_isPrefix self os)
      rw [hos, List.append_cons, handled_append w self (pre ++ [o])]
      exact List.prefix_append ms _
    have hall : Interleaved parts ms := hcome.of_prefix hprefix
    have hms : ms = w.handled self pre ++ (w.course self pre).handles o := by
      rw [show ms = _ from handled_append w self pre [o]]
      exact congrArg (w.handled self pre ++ ·) (List.append_nil _)
    obtain ⟨hend, hnone⟩ := meet_ending he
    have hc := (Counted.course correlation topic start terms timers self pre).fold
      ((w.course self pre).handles o)
    rw [← hms] at hc
    have hcounts : e.reason ≠ .responseTimeout := by
      rcases hreason with h | h <;> rw [h] <;> decide
    obtain ⟨-, hzero⟩ := hc.awaitsAnswers_eq_false_iff.mp (hnone hcounts)
    have hcame : ∀ p ∈ parts, p.announcement ∈ ms → ∀ m ∈ p.answers, m ∈ ms :=
      fun p hp hann m hm => hall.all_came hapart hzero hp hann hm
    refine ⟨hcame, ?_, fun hann => List.subperm_of_subset ?_ ?_⟩
    · have hexpected : terms.wait.expected = n := by rw [hwait]; rfl
      rw [History.remaining, hexpected] at hzero
      omega
    · exact hapart.nodup_flatMap_answers
    · intro m hm
      obtain ⟨p, hp, hm⟩ := List.mem_flatMap.mp hm
      have hpay : e.payloads = ms.filter Message.hasPayload := by rw [hend]; exact hc.payloads
      rw [hpay, List.mem_filter]
      exact ⟨hcame p hp (hann p hp) m hm, p.answer_hasPayload hm⟩

namespace Contribution

/-- Answers a question that asks for answers on some topic. -/
def pairResponder : Responder where
  id := "responder"
  request := {
    id := "question"
    correlation := "talk"
    route := { destination := "service", response := some "answers" }
    stamp := { createdAt := .epoch, origin := default } }
  template := {}

def pairMessage (id : String) (ack : Ack) (payload : Option Json.Value) : Message :=
  { id := id
    correlation := "talk"
    route := { destination := "answers" }
    stamp := { createdAt := .epoch, origin := default }
    ack := some ack
    payload := payload : Message }.markPublished .epoch

/-- Two answers and their announcement. -/
def pair : Contribution where
  responder := pairResponder
  announcement := pairMessage "announcement" (pairResponder.announcement none (some 2)) none
  answers := [pairMessage "first" pairResponder.deduction (some (.bool true)),
    pairMessage "second" pairResponder.deduction (some (.bool false))]
  announces := ⟨none, default, .epoch, .epoch, "announcement", _, rfl, rfl⟩
  sends := by
    intro m hm
    rcases List.mem_pair.mp hm with rfl | rfl
    · exact ⟨.bool true, rfl, default, .epoch, .epoch, "first", _, rfl, rfl⟩
    · exact ⟨.bool false, rfl, default, .epoch, .epoch, "second", _, rfl, rfl⟩
  nonempty := by simp
  bounded := by decide

/-- The first answer comes twice before the second one. -/
def pairCourse : List Occurrence :=
  [.listen true, .wait 0, .message 1 pair.announcement,
    .message 2 (pairMessage "first" pairResponder.deduction (some (.bool true))),
    .message 3 (pairMessage "first" pairResponder.deduction (some (.bool true)))]

def pairEnd : Occurrence :=
  .message 4 (pairMessage "second" pairResponder.deduction (some (.bool false)))

end Contribution

/-- A request for one answer gets both of them. -/
theorem Watch.ends_with_pair :
    let w := opening "talk" "answers" 0 .forOne {}
    let os := Contribution.pairCourse ++ [Contribution.pairEnd]
    Apart [.pair] ∧ Interleaved [.pair] (Occurrence.messages os) ∧
      ∃ e, ((w.course 0 Contribution.pairCourse).meet 0 Contribution.pairEnd).2 = some e ∧
        e.reason = .allResponsesReceived ∧ Contribution.pair.answers.Subperm e.payloads := by
  have hapart : Apart [.pair] := ⟨by decide, by decide +kernel⟩
  have hcome : Interleaved [.pair]
      (Occurrence.messages (Contribution.pairCourse ++ [Contribution.pairEnd])) := by
    have hself : Contribution.pair ∈ [Contribution.pair] := List.mem_cons_self
    have hann := Interleaved.start.announcement hself
    have hfirst := hann.answer hself (show Contribution.pair.answers = [] ++ _ :: _ from rfl)
      (by simp) (by simp)
    have hcopy := hfirst.copy (List.mem_append_right _ (List.mem_singleton_self _))
    exact hcopy.answer hself (show Contribution.pair.answers = [_] ++ _ :: [] from rfl)
      (by simp) (by simp)
  obtain ⟨e, he⟩ : ∃ e, (((opening "talk" "answers" 0 .forOne {}).course 0
      Contribution.pairCourse).meet 0 Contribution.pairEnd).2 = some e :=
    Option.isSome_iff_exists.mp (by decide +kernel)
  have hreason : e.reason = .allResponsesReceived := by
    have hmap : (((opening "talk" "answers" 0 .forOne {}).course 0
        Contribution.pairCourse).meet 0 Contribution.pairEnd).2.map Ending.reason =
          some .allResponsesReceived := by decide +kernel
    rw [he] at hmap
    exact Option.some.inj hmap
  have hends := (ends_with_all_that_was_announced "talk" "answers" 0 .forOne {} 0 _ [.pair] 1 rfl
    hapart hcome).2 _ _ [] e rfl he (Or.inl hreason)
  refine ⟨hapart, hcome, e, he, hreason, ?_⟩
  have hall := hends.2.2 fun p hp => ?_
  · simpa using hall
  · rw [List.mem_singleton.mp hp]
    have hhandled := hcome.of_prefix (handled_isPrefix (opening "talk" "answers" 0 .forOne {}) 0 _)
    exact (hhandled.mem_iff hapart List.mem_cons_self List.mem_cons_self).mp (by decide +kernel)

end Colloquy
