/-
What is told about a conversation agrees with what it has recorded.

A message is recorded before it is reported, and reported before anything else is done.  So the
messages that the callbacks were told are the recorded ones at any time, if the report that is
next is counted in.  The end is told in two more frames: one that closes the conversation, and
one that lets those who wait know.  `Stage` says how the conversation, what was told and what is
still due go together at each stage of that, and every move of a session keeps it.
-/
import Colloquy.Proofs.Meeting

namespace Colloquy

namespace Report

def answer? : Report → Option Message
  | answered m => some m
  | _ => none

def acknowledgement? : Report → Option Message
  | acknowledged _ m => some m
  | _ => none

def ending? : Report → Option Ending
  | ended e => some e
  | _ => none

end Report

/-- What is still to be done about the end of a conversation. -/
inductive Due where
  | close (e : Ending)
  | resolve (e : Ending)

namespace Frame

/-- What a frame tells the callbacks of a conversation. -/
def told? (n : Nat) : Frame → Option (Callbacks × Report)
  | report (some k) callbacks r => if k = n then some (callbacks, r) else none
  | _ => none

def due? (n : Nat) : Frame → Option Due
  | close k e => if k = n then some (.close e) else none
  | resolve k e => if k = n then some (.resolve e) else none
  | _ => none

def tells : Frame → Bool
  | report (some _) _ _ => true
  | _ => false

def tellsEnd : Frame → Bool
  | report (some _) _ (.ended _) => true
  | _ => false

theorem told?_of_calm {f : Frame} (h : f.calm = true) (n : Nat) : f.told? n = none := by
  cases f with
  | report exchange callbacks r =>
    cases exchange with
    | none => rfl
    | some k => cases h
  | _ => rfl

theorem due?_of_calm {f : Frame} (h : f.calm = true) (n : Nat) : f.due? n = none := by
  cases f with
  | close k e => cases h
  | resolve k e => cases h
  | _ => rfl

theorem told?_of_not_tells {f : Frame} (h : f.tells = false) (n : Nat) : f.told? n = none := by
  cases f with
  | report exchange callbacks r =>
    cases exchange with
    | none => rfl
    | some k => cases h
  | _ => rfl

theorem tells_of_calm {f : Frame} (h : f.calm = true) : f.tells = false := by
  cases f with
  | report exchange callbacks r =>
    cases exchange with
    | none => rfl
    | some k => cases h
  | _ => rfl

theorem tellsEnd_of_not_tells {f : Frame} (h : f.tells = false) : f.tellsEnd = false := by
  cases f with
  | report exchange callbacks r =>
    cases exchange with
    | none => rfl
    | some k => cases h
  | _ => rfl

end Frame

/-! ## Stages -/

/-- No end was told. -/
def Silent (told : List Report) : Prop := ∀ e, .ended e ∉ told

/-- The end was told once, and nothing but failures after it. -/
def EndsWith (e : Ending) (told : List Report) : Prop :=
  ∃ pre post, told = pre ++ .ended e :: post ∧ Silent pre ∧ ∀ r ∈ post, ∃ why, r = .failed why

/-- The end has the messages that were recorded. -/
structure Ending.Of (e : Ending) (c : Conversation) : Prop where
  payloads : e.payloads = c.payloads
  acks : e.acks = c.acks

/-- How far the end of a conversation has come, by what was told and what is due. -/
inductive Stage (c : Conversation) (told : List Report) : List Due → Prop where
  | lasting : c.ended = false → c.completion = .waiting → Silent told → Stage c told []
  | closing (e : Ending) : c.ended = true → c.completion = .closing → Silent told → e.Of c →
      Stage c told [.close e]
  | telling (e : Ending) : c.ended = true → c.completion = .closing → EndsWith e told → e.Of c →
      Stage c told [.resolve e]
  | resolved (e : Ending) : c.ended = true → c.completion = .resolved e → EndsWith e told →
      e.Of c → Stage c told []
  | dropped : c.ended = true → c.completion = .dropped → Silent told → Stage c told []

theorem Silent.append {told more : List Report} (h : Silent told) (hmore : Silent more) :
    Silent (told ++ more) := fun e he =>
  (List.mem_append.mp he).elim (h e) (hmore e)

theorem EndsWith.append {e : Ending} {told more : List Report} (h : EndsWith e told)
    (hmore : ∀ r ∈ more, ∃ why, r = .failed why) : EndsWith e (told ++ more) := by
  obtain ⟨pre, post, rfl, hpre, hpost⟩ := h
  refine ⟨pre, post ++ more, by rw [List.append_assoc, List.cons_append], hpre, fun r hr => ?_⟩
  exact (List.mem_append.mp hr).elim (hpost r) (hmore r)

theorem EndsWith.split {e e' : Ending} {told pre post : List Report} (h : EndsWith e told)
    (hsplit : told = pre ++ .ended e' :: post) :
    e' = e ∧ Silent pre ∧ ∀ r ∈ post, ∃ why, r = .failed why := by
  obtain ⟨pre', post', rfl, hpre, hpost⟩ := h
  rcases List.append_eq_append_iff.mp hsplit with ⟨between, rfl, hrest⟩ | ⟨between, rfl, hrest⟩
  · cases between with
    | nil =>
      rw [List.nil_append] at hrest
      cases hrest
      exact ⟨rfl, by rwa [List.append_nil], hpost⟩
    | cons r between =>
      rw [List.cons_append] at hrest
      cases hrest
      obtain ⟨why, hwhy⟩ := hpost _ (List.mem_append_right _ List.mem_cons_self)
      cases hwhy
  · cases between with
    | nil =>
      rw [List.nil_append] at hrest
      cases hrest
      exact ⟨rfl, by rwa [List.append_nil] at hpre, hpost⟩
    | cons r between =>
      rw [List.cons_append] at hrest
      cases hrest
      exact absurd (List.mem_append_right _ List.mem_cons_self) (hpre _)

theorem EndsWith.mem {e : Ending} {told : List Report} (h : EndsWith e told) :
    .ended e ∈ told := by
  obtain ⟨pre, post, rfl, -, -⟩ := h
  exact List.mem_append_right _ List.mem_cons_self

theorem Silent.endings {told : List Report} (h : Silent told) :
    told.filterMap Report.ending? = [] := by
  rw [List.filterMap_eq_nil_iff]
  intro r hr
  cases r with
  | ended e => exact absurd hr (h e)
  | _ => rfl

theorem EndsWith.endings {e : Ending} {told : List Report} (h : EndsWith e told) :
    told.filterMap Report.ending? = [e] := by
  obtain ⟨pre, post, rfl, hpre, hpost⟩ := h
  have hfailures : Silent post := fun e' he' => by
    obtain ⟨why, hwhy⟩ := hpost _ he'
    cases hwhy
  rw [List.filterMap_append, hpre.endings, List.nil_append,
    List.filterMap_cons_some (show Report.ending? (.ended e) = some e from rfl),
    hfailures.endings]

/-- A conversation with what is added to it, when that is reported.  The last field is for one
that has ended: nothing is added, and only failures are reported. -/
structure Adds (c : Conversation) (more : List Report) (d : Conversation) : Prop where
  payloads : d.payloads = c.payloads ++ more.filterMap Report.answer?
  acks : d.acks = c.acks ++ more.filterMap Report.acknowledgement?
  completion : d.completion = c.completion
  ended : d.ended = c.ended
  silent : Silent more
  failures : c.ended = true → ∀ r ∈ more, ∃ why, r = .failed why

theorem Message.reports_silent (m : Message) : Silent m.reports := by
  intro e he
  unfold reports at he
  cases hp : m.hasPayload <;> cases ha : m.ack <;> simp [hp, ha] at he

theorem Message.reports_tail (m : Message) : m.reports.tail = [] := by
  unfold reports
  cases hp : m.hasPayload <;> cases ha : m.ack <;> rfl

theorem Message.take_adds {c : Conversation} (h : c.ended = false) (m : Message) :
    Adds c m.reports (c.take m) where
  payloads := by
    cases hp : m.hasPayload <;> cases ha : m.ack <;>
      simp [Conversation.take, reports, hp, ha, Report.answer?]
  acks := by
    cases hp : m.hasPayload <;> cases ha : m.ack <;>
      simp [Conversation.take, reports, hp, ha, Report.acknowledgement?]
  completion := rfl
  ended := rfl
  silent := m.reports_silent
  failures := fun he => by rw [h] at he; cases he

/-- What an occurrence adds to a conversation is what it reports. -/
theorem Watch.joined_adds (w : Watch) (o : Occurrence) :
    Adds w.conversation (w.tells o) (w.joined o) := by
  have hsame : Adds w.conversation [] w.conversation :=
    ⟨(List.append_nil _).symm, (List.append_nil _).symm, rfl, rfl,
      fun _ he => absurd he List.not_mem_nil, fun _ _ hr => absurd hr List.not_mem_nil⟩
  cases o with
  | listen registered =>
    have hl : Adds w.conversation [] w.conversation.listen := by
      unfold Conversation.listen
      split
      · split
        · exact ⟨hsame.1, hsame.2, rfl, rfl, hsame.silent, hsame.failures⟩
        · exact hsame
      · exact hsame
    exact hl
  | message now m =>
    cases hended : w.conversation.ended with
    | true =>
      simp only [Watch.tells, Watch.joined, hended, if_true]
      exact hsame
    | false =>
      simp only [Watch.tells, Watch.joined, hended, if_false, Bool.false_eq_true]
      exact Message.take_adds hended m
  | abort why =>
    refine ⟨(List.append_nil _).symm, (List.append_nil _).symm, rfl, rfl, fun e he => ?_,
      fun _ r hr => ⟨why, List.mem_singleton.mp hr⟩⟩
    cases List.mem_singleton.mp he
  | _ => exact hsame

theorem Adds.of_ended {c d : Conversation} {more : List Report} (h : Adds c more d)
    (he : c.ended = true) : d.payloads = c.payloads ∧ d.acks = c.acks := by
  have hanswers : more.filterMap Report.answer? = [] := by
    rw [List.filterMap_eq_nil_iff]
    intro r hr
    obtain ⟨why, rfl⟩ := h.failures he r hr
    rfl
  have hacks : more.filterMap Report.acknowledgement? = [] := by
    rw [List.filterMap_eq_nil_iff]
    intro r hr
    obtain ⟨why, rfl⟩ := h.failures he r hr
    rfl
  rw [h.payloads, h.acks, hanswers, hacks, List.append_nil, List.append_nil]
  exact ⟨rfl, rfl⟩

namespace Stage

variable {c d : Conversation} {told more : List Report} {due : List Due}

/-- Before the end nothing is due. -/
theorem of_open (h : Stage c told due) (hopen : c.ended = false) :
    due = [] ∧ Silent told ∧ c.completion = .waiting := by
  cases h with
  | lasting he hc hs => exact ⟨rfl, hs, hc⟩
  | closing e he => rw [hopen] at he; cases he
  | telling e he => rw [hopen] at he; cases he
  | resolved e he => rw [hopen] at he; cases he
  | dropped he => rw [hopen] at he; cases he

/-- Once the end was told, it is still to be resolved or is resolved. -/
theorem of_told {e : Ending} (h : Stage c told due) (ht : .ended e ∈ told) :
    EndsWith e told ∧ e.Of c ∧ (due = [] → c.completion = .resolved e) := by
  cases h with
  | lasting he hc hs => exact absurd ht (hs e)
  | closing e' he hc hs ho => exact absurd ht (hs e)
  | telling e' he hc hends ho =>
    obtain ⟨pre, post, hsplit⟩ := List.append_of_mem ht
    obtain ⟨rfl, -, -⟩ := hends.split hsplit
    exact ⟨hends, ho, fun h => nomatch h⟩
  | resolved e' he hc hends ho =>
    obtain ⟨pre, post, hsplit⟩ := List.append_of_mem ht
    obtain ⟨rfl, -, -⟩ := hends.split hsplit
    exact ⟨hends, ho, fun _ => hc⟩
  | dropped he hc hs => exact absurd ht (hs e)

theorem of_resolved {e : Ending} (h : Stage c told due) (hc : c.completion = .resolved e) :
    due = [] ∧ EndsWith e told := by
  cases h with
  | lasting he hc' => rw [hc] at hc'; cases hc'
  | closing e' he hc' => rw [hc] at hc'; cases hc'
  | telling e' he hc' => rw [hc] at hc'; cases hc'
  | resolved e' he hc' hends =>
    rw [hc] at hc'
    cases hc'
    exact ⟨rfl, hends⟩
  | dropped he hc' => rw [hc] at hc'; cases hc'

theorem of_dropped (h : Stage c told due) (hc : c.completion = .dropped) : Silent told := by
  cases h with
  | lasting he hc' hs => exact hs
  | closing e he hc' hs => exact hs
  | telling e he hc' => rw [hc] at hc'; cases hc'
  | resolved e he hc' => rw [hc] at hc'; cases hc'
  | dropped he hc' hs => exact hs

/-- A conversation that goes on stays at its stage. -/
theorem goesOn (h : Stage c told due) (ha : Adds c more d) : Stage d (told ++ more) due := by
  have hof : ∀ e : Ending, c.ended = true → e.Of c → e.Of d := fun e he ho =>
    ⟨ho.payloads.trans (ha.of_ended he).1.symm, ho.acks.trans (ha.of_ended he).2.symm⟩
  cases h with
  | lasting he hc hs =>
    exact .lasting (ha.ended.trans he) (ha.completion.trans hc) (hs.append ha.silent)
  | closing e he hc hs ho =>
    exact .closing e (ha.ended.trans he) (ha.completion.trans hc) (hs.append ha.silent)
      (hof e he ho)
  | telling e he hc hs ho =>
    exact .telling e (ha.ended.trans he) (ha.completion.trans hc) (hs.append (ha.failures he))
      (hof e he ho)
  | resolved e he hc hs ho =>
    exact .resolved e (ha.ended.trans he) (ha.completion.trans hc) (hs.append (ha.failures he))
      (hof e he ho)
  | dropped he hc hs =>
    exact .dropped (ha.ended.trans he) (ha.completion.trans hc) (hs.append ha.silent)

/-- Refusing to listen ends a conversation that has not ended. -/
theorem refuse (h : Stage c told due) : Stage c.refuse told due := by
  cases h with
  | lasting he hc hs => exact .dropped rfl (by simp only [Conversation.refuse, hc]) hs
  | closing e he hc hs ho =>
    exact .closing e rfl (by simp only [Conversation.refuse, hc]) hs ⟨ho.1, ho.2⟩
  | telling e he hc hs ho =>
    exact .telling e rfl (by simp only [Conversation.refuse, hc]) hs ⟨ho.1, ho.2⟩
  | resolved e he hc hs ho =>
    exact .resolved e rfl (by simp only [Conversation.refuse, hc]) hs ⟨ho.1, ho.2⟩
  | dropped he hc hs => exact .dropped rfl (by simp only [Conversation.refuse, hc]) hs

/-- Whatever happens to a conversation, it comes to the right stage. -/
theorem meet {w v : Watch} {self : Nat} {o : Occurrence} {end? : Option Ending}
    (h : Stage w.conversation told due) (hmeet : w.meet self o = (v, end?)) :
    Stage v.conversation (told ++ w.tells o) ((end?.map Due.close).toList ++ due) := by
  have hadds := w.joined_adds o
  have houtcome := w.meet_outcome self o
  rw [hmeet] at houtcome
  obtain ⟨d, timers, notes⟩ := v
  cases houtcome with
  | goesOn hd =>
    refine h.goesOn ⟨?_, ?_, ?_, ?_, hadds.silent, hadds.failures⟩
    · exact (Conversation.payloads_of_untimed hd).trans hadds.payloads
    · exact (Conversation.acks_of_untimed hd).trans hadds.acks
    · exact (Conversation.completion_of_untimed hd).trans hadds.completion
    · exact (Conversation.ended_of_untimed hd).trans hadds.ended
  | ends reason hopen hd ha =>
    obtain ⟨rfl, hs, -⟩ := h.of_open hopen
    refine .closing _ ?_ ?_ (hs.append hadds.silent) ⟨?_, ?_⟩
    · exact Conversation.ended_of_untimed hd
    · exact Conversation.completion_of_untimed hd
    · exact (Conversation.payloads_of_untimed hd).symm
    · exact (Conversation.acks_of_untimed hd).symm
  | drops hopen hd =>
    obtain ⟨rfl, hs, -⟩ := h.of_open hopen
    refine .dropped ?_ ?_ (hs.append hadds.silent)
    · exact Conversation.ended_of_untimed hd
    · exact Conversation.completion_of_untimed hd
  | refuses hd =>
    subst hd
    exact (h.goesOn hadds).refuse

end Stage

/-- What a conversation has recorded when something happened to it. -/
theorem Watch.meet_records {w v : Watch} {self : Nat} {o : Occurrence} {end? : Option Ending}
    (hmeet : w.meet self o = (v, end?)) :
    v.conversation.payloads =
        w.conversation.payloads ++ (w.tells o).filterMap Report.answer? ∧
      v.conversation.acks =
        w.conversation.acks ++ (w.tells o).filterMap Report.acknowledgement? := by
  have hadds := w.joined_adds o
  have hbook : v.conversation.book = (w.joined o).book := by
    rw [show v = (w.meet self o).1 by rw [hmeet]]
    exact (w.meet_continues self o).book
  have hp : v.conversation.payloads = (w.joined o).payloads :=
    show v.conversation.book.payloads = (w.joined o).book.payloads by rw [hbook]
  have ha : v.conversation.acks = (w.joined o).acks :=
    show v.conversation.book.acks = (w.joined o).book.acks by rw [hbook]
  exact ⟨hp.trans hadds.payloads, ha.trans hadds.acks⟩

/-- What can be learned about a conversation that has ended stays as it is, unless it is nothing
yet. -/
theorem Watch.meet_of_ended {w v : Watch} {self : Nat} {o : Occurrence} {end? : Option Ending}
    (hended : w.conversation.ended = true) (hknown : w.conversation.completion ≠ .waiting)
    (hmeet : w.meet self o = (v, end?)) :
    v.conversation.ended = true ∧ v.conversation.completion = w.conversation.completion := by
  have hadds := w.joined_adds o
  have houtcome := w.meet_outcome self o
  rw [hmeet] at houtcome
  obtain ⟨d, timers, notes⟩ := v
  cases houtcome with
  | goesOn hd =>
    constructor
    · exact (Conversation.ended_of_untimed hd).trans (hadds.ended.trans hended)
    · exact (Conversation.completion_of_untimed hd).trans hadds.completion
  | ends reason hopen hd ha =>
    rw [hended] at hopen
    cases hopen
  | drops hopen hd =>
    rw [hended] at hopen
    cases hopen
  | refuses hd =>
    subst hd
    refine ⟨rfl, ?_⟩
    rw [← hadds.completion] at hknown ⊢
    unfold Conversation.refuse
    split
    · rename_i hwaiting
      exact absurd hwaiting hknown
    · rfl

/-! ## Accounts -/

/-- A conversation with what its callbacks were told and what is due.  Nothing is told about a
conversation that is not there. -/
inductive Account : Option Exchange → List (Callbacks × Report) → List Due → Prop where
  | absent : Account none [] []
  | present {x : Exchange} {told : List (Callbacks × Report)} {due : List Due} :
      (∀ t ∈ told, t.1 = x.callbacks) →
      x.conversation.payloads = (told.map Prod.snd).filterMap Report.answer? →
      x.conversation.acks = (told.map Prod.snd).filterMap Report.acknowledgement? →
      Stage x.conversation (told.map Prod.snd) due → Account (some x) told due

theorem Account.meet {x : Exchange} {told : List (Callbacks × Report)} {due : List Due}
    {w v : Watch} {self : Nat} {o : Occurrence} {end? : Option Ending}
    (h : Account (some x) told due) (hw : w.conversation = x.conversation)
    (hmeet : w.meet self o = (v, end?)) :
    Account (some { x with conversation := v.conversation })
      (told ++ (w.tells o).map (Prod.mk x.callbacks)) ((end?.map Due.close).toList ++ due) := by
  have hsnd : (told ++ (w.tells o).map (Prod.mk x.callbacks)).map Prod.snd =
      told.map Prod.snd ++ w.tells o := by
    rw [List.map_append, List.map_map]
    exact congrArg _ (List.map_id _)
  cases h with
  | present hc hp ha hs =>
    obtain ⟨hpayloads, hacks⟩ := Watch.meet_records hmeet
    rw [hw] at hpayloads hacks
    refine .present ?_ ?_ ?_ ?_
    · intro t ht
      rcases List.mem_append.mp ht with ht | ht
      · exact hc t ht
      · obtain ⟨r, -, rfl⟩ := List.mem_map.mp ht
        rfl
    · rw [hsnd, List.filterMap_append, ← hp]
      exact hpayloads
    · rw [hsnd, List.filterMap_append, ← ha]
      exact hacks
    · rw [hsnd]
      rw [← hw] at hs
      exact hs.meet hmeet

theorem Account.close {x? : Option Exchange} {told : List (Callbacks × Report)} {due : List Due}
    {e : Ending} (h : Account x? told (.close e :: due)) :
    ∃ x, x? = some x ∧
      Account (some x) (told ++ [(x.callbacks, .ended e)]) (.resolve e :: due) := by
  cases h with
  | @present x told due hc hp ha hs =>
    refine ⟨x, rfl, .present ?_ ?_ ?_ ?_⟩
    · intro t ht
      rcases List.mem_append.mp ht with ht | ht
      · exact hc t ht
      · rw [List.mem_singleton.mp ht]
    · rw [hp, List.map_append, List.filterMap_append]
      exact (List.append_nil _).symm
    · rw [ha, List.map_append, List.filterMap_append]
      exact (List.append_nil _).symm
    · cases hs with
      | closing e he hk hsilent ho =>
        refine .telling e he hk ⟨told.map Prod.snd, [], ?_, hsilent, fun r hr => nomatch hr⟩ ho
        rw [List.map_append]
        rfl

theorem Account.resolve {x? : Option Exchange} {told : List (Callbacks × Report)}
    {due : List Due} {e : Ending} (h : Account x? told (.resolve e :: due)) :
    ∃ x, x? = some x ∧ x.conversation.completion = .closing ∧
      Account (some { x with conversation := { x.conversation with completion := .resolved e } })
        told due := by
  cases h with
  | @present x told due hc hp ha hs =>
    cases hs with
    | telling e he hk hends ho =>
      exact ⟨x, rfl, hk, .present hc hp ha (.resolved e he rfl hends ⟨ho.1, ho.2⟩)⟩

namespace Session

/-- The accounts of all conversations of a session. -/
structure Accounted (s : Session) (told : Nat → List (Callbacks × Report))
    (due : Nat → List Due) : Prop where
  account : ∀ n, Account (s.exchanges.get? n) (told n) (due n)
  fresh : ∀ n, s.nextExchange ≤ n → s.exchanges.get? n = none

theorem told_of_meeting (n k : Nat) (callbacks : Callbacks) (rs : List Report)
    (end? : Option Ending) :
    (rs.map (Frame.report (some n) callbacks) ++ closing n end?).filterMap (Frame.told? k) =
      if n = k then rs.map (Prod.mk callbacks) else [] := by
  have hclosing : (closing n end?).filterMap (Frame.told? k) = [] := by cases end? <;> rfl
  rw [List.filterMap_append, hclosing, List.append_nil, List.filterMap_map]
  by_cases hk : n = k
  · rw [if_pos hk, ← List.filterMap_eq_map]
    exact List.filterMap_congr fun r _ => if_pos hk
  · rw [if_neg hk, List.filterMap_eq_nil_iff]
    exact fun r _ => if_neg hk

theorem due_of_meeting (n k : Nat) (callbacks : Callbacks) (rs : List Report)
    (end? : Option Ending) :
    (rs.map (Frame.report (some n) callbacks) ++ closing n end?).filterMap (Frame.due? k) =
      if n = k then (end?.map Due.close).toList else [] := by
  have hreports : (rs.map (Frame.report (some n) callbacks)).filterMap (Frame.due? k) = [] := by
    rw [List.filterMap_map, List.filterMap_eq_nil_iff]
    exact fun r _ => rfl
  rw [List.filterMap_append, hreports, List.nil_append]
  cases end? with
  | none => by_cases hk : n = k <;> simp [closing, hk]
  | some e => by_cases hk : n = k <;> simp [closing, Frame.due?, hk]

namespace Accounted

variable {s s' : Session} {told : Nat → List (Callbacks × Report)} {due : Nat → List Due}
  {frames : List Frame}

theorem keeps (h : Accounted s told due) (hs : s.Keeps s') : Accounted s' told due where
  account := fun n => hs.exchanges ▸ h.account n
  fresh := fun n hn => hs.exchanges ▸ h.fresh n (hs.nextExchange ▸ hn)

theorem meets {n : Nat} (h : Accounted s told due) (hs : Meets s n frames s') :
    Accounted s' (fun k => told k ++ frames.filterMap (Frame.told? k))
      (fun k => frames.filterMap (Frame.due? k) ++ due k) := by
  cases hs with
  | absent hx hkeeps =>
    simp only [List.filterMap_nil, List.append_nil, List.nil_append]
    exact h.keeps hkeeps
  | @present _ x w v end? o hx hw hmeet hchanged =>
    refine ⟨fun k => ?_, fun k hk => ?_⟩
    · rw [told_of_meeting, due_of_meeting]
      by_cases hk : n = k
      · subst hk
        have hn := h.account n
        rw [hx] at hn
        rw [if_pos rfl, if_pos rfl, hchanged.self]
        exact hn.meet hw hmeet
      · rw [if_neg hk, if_neg hk, List.append_nil, List.nil_append,
          hchanged.others k fun h => hk h.symm]
        exact h.account k
    · have hnone := h.fresh k (hchanged.nextExchange ▸ hk)
      have hne : k ≠ n := by
        rintro rfl
        rw [hx] at hnone
        cases hnone
      rw [hchanged.others k hne, hnone]

theorem place (h : Accounted s told due) (desk : DeskName) (correlation topic : String)
    (terms : Terms) (callbacks : Callbacks) :
    Accounted (s.place desk correlation topic terms callbacks).2 told due := by
  have hexchanges : (s.place desk correlation topic terms callbacks).2.exchanges =
      s.exchanges.put s.nextExchange
        { conversation := .start correlation topic s.clock terms, callbacks, desk } := by
    cases desk <;> rfl
  have hnext : (s.place desk correlation topic terms callbacks).2.nextExchange =
      s.nextExchange + 1 := by
    cases desk <;> rfl
  refine ⟨fun n => ?_, fun n hn => ?_⟩
  · rw [hexchanges]
    by_cases hk : n = s.nextExchange
    · subst hk
      have hnone := h.account s.nextExchange
      rw [h.fresh _ (Nat.le_refl _)] at hnone
      rw [Table.get?_put_self]
      generalize told s.nextExchange = t at hnone ⊢
      generalize due s.nextExchange = d at hnone ⊢
      cases hnone with
      | absent =>
        exact .present (fun t ht => nomatch ht) rfl rfl
          (.lasting rfl rfl fun e he => nomatch he)
    · rw [Table.get?_put_ne _ hk]
      exact h.account n
  · rw [hexchanges, Table.get?_put_ne _ (by omega)]
    exact h.fresh n (by omega)

/-- Every move keeps the accounts. -/
theorem move (h : Accounted s told due) (hm : Move s frames s') :
    Accounted s' (fun n => told n ++ frames.filterMap (Frame.told? n))
      (fun n => frames.filterMap (Frame.due? n) ++ due n) := by
  induction hm generalizing told due with
  | @calm s s' frames hkeeps hcalm =>
    have htold : ∀ n, frames.filterMap (Frame.told? n) = [] := fun n =>
      List.filterMap_eq_nil_iff.mpr fun f hf => Frame.told?_of_calm (hcalm f hf) n
    have hdue : ∀ n, frames.filterMap (Frame.due? n) = [] := fun n =>
      List.filterMap_eq_nil_iff.mpr fun f hf => Frame.due?_of_calm (hcalm f hf) n
    simp only [htold, hdue, List.append_nil, List.nil_append]
    exact h.keeps hkeeps
  | place s desk correlation topic terms callbacks =>
    simp only [List.filterMap_nil, List.append_nil, List.nil_append]
    exact h.place desk correlation topic terms callbacks
  | listen s n => exact h.meets (s.listen_meets n)
  | wait s n => exact h.meets (s.wait_meets n)
  | handle s n m => exact h.meets (s.handle_meets n m)
  | abort s n why => exact h.meets (s.abort_meets n why)
  | fire s desk t => exact h.meets (s.fire_meets desk t)
  | andThen hm hm' ih ih' =>
    have hfirst := ih h
    simp only [List.filterMap_nil, List.append_nil, List.nil_append] at hfirst
    exact ih' hfirst
  | @beneath s s' frames more hm hcalm ih =>
    have htold : ∀ n, more.filterMap (Frame.told? n) = [] := fun n =>
      List.filterMap_eq_nil_iff.mpr fun f hf => Frame.told?_of_calm (hcalm f hf) n
    have hdue : ∀ n, more.filterMap (Frame.due? n) = [] := fun n =>
      List.filterMap_eq_nil_iff.mpr fun f hf => Frame.due?_of_calm (hcalm f hf) n
    simp only [List.filterMap_append, htold, hdue, List.append_nil]
    exact ih h

/-- The frame that closes a conversation tells its end and keeps the accounts. -/
theorem close {k : Nat} {e : Ending} {rest : List Frame}
    (h : Accounted s told fun n => (Frame.close k e :: rest).filterMap (Frame.due? n)) :
    ∃ callbacks,
      s.perform (.close k e) =
        ([.report (some k) callbacks (.ended e), .resolve k e], s.unregister k) ∧
      Accounted (s.unregister k)
        (fun n => told n ++
          [.report (some k) callbacks (.ended e), .resolve k e].filterMap (Frame.told? n))
        (fun n => [.report (some k) callbacks (.ended e), .resolve k e].filterMap (Frame.due? n) ++
          rest.filterMap (Frame.due? n)) := by
  have hdue : (Frame.close k e :: rest).filterMap (Frame.due? k) =
      .close e :: rest.filterMap (Frame.due? k) :=
    List.filterMap_cons_some (if_pos rfl)
  have hself := h.account k
  rw [hdue] at hself
  obtain ⟨x, hx, hclosed⟩ := hself.close
  refine ⟨x.callbacks, by simp only [perform, hx], fun n => ?_, fun n hn => ?_⟩
  · rw [(s.unregister_keeps k).exchanges]
    by_cases hk : k = n
    · subst hk
      rw [hx]
      simpa [Frame.told?, Frame.due?, List.filterMap_cons] using hclosed
    · have hn := h.account n
      simpa [Frame.told?, Frame.due?, List.filterMap_cons, hk] using hn
  · rw [(s.unregister_keeps k).exchanges]
    exact h.fresh n ((s.unregister_keeps k).nextExchange ▸ hn)

/-- The frame that lets others know the end keeps the accounts. -/
theorem resolve {k : Nat} {e : Ending} {rest : List Frame}
    (h : Accounted s told fun n => (Frame.resolve k e :: rest).filterMap (Frame.due? n)) :
    Accounted (s.resolve k e) told (fun n => rest.filterMap (Frame.due? n)) := by
  have hdue : (Frame.resolve k e :: rest).filterMap (Frame.due? k) =
      .resolve e :: rest.filterMap (Frame.due? k) :=
    List.filterMap_cons_some (if_pos rfl)
  have hself := h.account k
  rw [hdue] at hself
  obtain ⟨x, hx, hclosing, hresolved⟩ := hself.resolve
  have hresolve : s.resolve k e =
      s.setConversation k { x.conversation with completion := .resolved e } := by
    simp only [Session.resolve, hx, hclosing]
  have hchanged := (Changed.refl hx).setConversation
    { x.conversation with completion := .resolved e }
  rw [hresolve]
  refine ⟨fun n => ?_, fun n hn => ?_⟩
  · by_cases hk : k = n
    · subst hk
      rw [hchanged.self]
      exact hresolved
    · rw [hchanged.others n fun h => hk h.symm]
      have hn := h.account n
      simpa [Frame.due?, hk] using hn
  · have hnone := h.fresh n (hchanged.nextExchange ▸ hn)
    have hne : n ≠ k := by
      rintro rfl
      rw [hx] at hnone
      cases hnone
    rw [hchanged.others n hne, hnone]

end Accounted
end Session
end Colloquy
