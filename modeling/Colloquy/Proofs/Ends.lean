/-
A conversation tells its end once, and last.

`Leads` is a run of a session: the frames of the agenda are done one after the other, and while
there are none anything can be done with the session from outside.  Scripts are among the frames,
so a callback that hands messages to its own conversation, aborts it or panics is part of a run
like everything else.  The run keeps the accounts of all conversations, and what the callbacks of
a conversation get to see of its end follows from its account.
-/
import Colloquy.Proofs.Deeds
import Colloquy.Proofs.Telling

namespace Colloquy

namespace Session

/-! ## Frames that tell something come first -/

/-- Only the first frame tells a conversation something, and it does not tell it its end. -/
structure Prompt (frames : List Frame) : Prop where
  first : ∀ f ∈ frames.tail, f.tells = false
  noEnd : ∀ f ∈ frames, f.tellsEnd = false

theorem Prompt.nil : Prompt [] := ⟨fun _ hf => (nomatch hf), fun _ hf => nomatch hf⟩

theorem tail_append_silent {frames more : List Frame} (h : ∀ f ∈ frames.tail, f.tells = false)
    (hmore : ∀ f ∈ more, f.tells = false) : ∀ f ∈ (frames ++ more).tail, f.tells = false := by
  intro f hf
  cases frames with
  | nil => exact hmore f (List.mem_of_mem_tail hf)
  | cons g frames =>
    rw [List.cons_append, List.tail_cons, List.mem_append] at hf
    exact hf.elim (h f) (hmore f)

theorem Prompt.append {frames more : List Frame} (h : Prompt frames)
    (hmore : ∀ f ∈ more, f.tells = false) : Prompt (frames ++ more) where
  first := tail_append_silent h.first hmore
  noEnd := fun f hf => (List.mem_append.mp hf).elim (h.noEnd f) fun hf =>
    Frame.tellsEnd_of_not_tells (hmore f hf)

theorem Meets.prompt {s s' : Session} {n : Nat} {frames : List Frame}
    (h : Meets s n frames s') : Prompt frames := by
  cases h with
  | absent hx hkeeps => exact .nil
  | @present _ x w v end? o hx hw hmeet hchanged =>
    refine Prompt.append ⟨fun f hf => ?_, fun f hf => ?_⟩ fun f hf => ?_
    · -- An occurrence is reported once at most.
      have hone : (w.tells o).tail = [] := by
        cases o with
        | message now m =>
          simp only [Watch.tells]
          split
          · rfl
          · exact m.reports_tail
        | _ => rfl
      rw [← List.map_tail, hone] at hf
      cases hf
    · obtain ⟨r, hr, rfl⟩ := List.mem_map.mp hf
      cases r with
      | ended e => exact absurd hr ((w.joined_adds o).silent e)
      | _ => rfl
    · cases end? with
      | none => cases hf
      | some e =>
        rw [List.mem_singleton.mp hf]
        rfl

theorem Move.prompt {s s' : Session} {frames : List Frame} (h : Move s frames s') :
    Prompt frames := by
  induction h with
  | calm hkeeps hcalm =>
    exact Prompt.nil.append fun f hf => Frame.tells_of_calm (hcalm f hf)
  | place s desk correlation topic terms callbacks => exact .nil
  | listen s n => exact .nil
  | wait s n => exact .nil
  | handle s n m => exact (s.handle_meets n m).prompt
  | abort s n why => exact (s.abort_meets n why).prompt
  | fire s desk t => exact (s.fire_meets desk t).prompt
  | andThen hm hm' ih ih' => exact ih'
  | beneath hm hcalm ih => exact ih.append fun f hf => Frame.tells_of_calm (hcalm f hf)

/-- Apart from the two kinds of frames that bring the end, a frame is done by a deed. -/
theorem perform_cases (s : Session) (f : Frame) :
    (∃ k e, f = .close k e) ∨ (∃ k e, f = .resolve k e) ∨
      ((∀ n, f.due? n = none) ∧ Deed s (s.perform f).1 (s.perform f).2) := by
  cases f with
  | close k e => exact Or.inl ⟨k, e, rfl⟩
  | resolve k e => exact Or.inr (Or.inl ⟨k, e, rfl⟩)
  | report exchange callbacks r =>
    exact Or.inr (Or.inr ⟨fun n => rfl, s.call_deed callbacks r⟩)
  | _ => exact Or.inr (Or.inr ⟨fun n => rfl, s.perform_deed rfl⟩)

/-- To let others know an end does nothing, or changes what can be learned about one
conversation. -/
theorem resolve_cases (s : Session) (n : Nat) (e : Ending) :
    s.resolve n e = s ∨ ∃ x, s.exchanges.get? n = some x ∧
      x.conversation.completion = .closing ∧
      Changed s n x { x.conversation with completion := .resolved e } (s.resolve n e) := by
  unfold resolve
  split
  · exact Or.inl rfl
  · rename_i x hx
    split
    · rename_i hclosing
      exact Or.inr ⟨x, hx, hclosing, (Changed.refl hx).setConversation _⟩
    · exact Or.inl rfl

/-! ## Conversations whose end is known -/

/-- A conversation that has ended, with what can be learned about its end. -/
def Final (s : Session) (n : Nat) (k : Completion) : Prop :=
  ∃ x, s.exchanges.get? n = some x ∧ x.conversation.ended = true ∧
    x.conversation.completion = k

namespace Final

variable {s s' : Session} {n k : Nat} {known : Completion} {frames : List Frame}

theorem keeps (h : s.Final n known) (hs : s.Keeps s') : s'.Final n known := by
  obtain ⟨x, hx, hknown⟩ := h
  exact ⟨x, hs.exchanges ▸ hx, hknown⟩

theorem meets (h : s.Final n known) (hknown : known ≠ .waiting) (hs : Meets s k frames s') :
    s'.Final n known := by
  cases hs with
  | absent hx hkeeps => exact h.keeps hkeeps
  | @present _ x w v end? o hx hw hmeet hchanged =>
    obtain ⟨y, hy, hended, rfl⟩ := h
    by_cases hk : n = k
    · subst hk
      rw [hx] at hy
      cases hy
      rw [← hw] at hended hknown ⊢
      exact ⟨_, hchanged.self, Watch.meet_of_ended hended hknown hmeet⟩
    · exact ⟨y, (hchanged.others n hk).trans hy, hended, rfl⟩

theorem place (h : s.Final n known) (hne : n ≠ s.nextExchange) (desk : DeskName)
    (correlation topic : String) (terms : Terms) (callbacks : Callbacks) :
    (s.place desk correlation topic terms callbacks).2.Final n known := by
  obtain ⟨x, hx, hknown⟩ := h
  have hexchanges : (s.place desk correlation topic terms callbacks).2.exchanges.get? n =
      s.exchanges.get? n := by
    cases desk <;> exact Table.get?_put_ne _ hne _
  exact ⟨x, hexchanges.trans hx, hknown⟩

theorem resolve (h : s.Final n known) (hknown : known ≠ .closing) (k : Nat) (e : Ending) :
    (s.resolve k e).Final n known := by
  rcases s.resolve_cases k e with hsame | ⟨y, hy, hclosing, hc⟩
  · rwa [hsame]
  · obtain ⟨x, hx, hended, rfl⟩ := h
    have hne : n ≠ k := by
      rintro rfl
      rw [hx] at hy
      cases hy
      exact hknown hclosing
    exact ⟨x, (hc.others n hne).trans hx, hended, rfl⟩

end Final

/-- A conversation that is there and will never tell its end. -/
def Dropped (s : Session) (n : Nat) : Prop :=
  ∃ x, s.exchanges.get? n = some x ∧ x.conversation.ended = true ∧
    x.conversation.completion = .dropped

namespace Dropped

variable {s s' : Session} {n k : Nat} {frames : List Frame}

theorem keeps (h : s.Dropped n) (hs : s.Keeps s') : s'.Dropped n := Final.keeps h hs

theorem meets (h : s.Dropped n) (hs : Meets s k frames s') : s'.Dropped n :=
  Final.meets h nofun hs

theorem place (h : s.Dropped n) (hfresh : ∀ k, s.nextExchange ≤ k → s.exchanges.get? k = none)
    (desk : DeskName) (correlation topic : String) (terms : Terms) (callbacks : Callbacks) :
    (s.place desk correlation topic terms callbacks).2.Dropped n := by
  have hne : n ≠ s.nextExchange := by
    obtain ⟨x, hx, -⟩ := h
    rintro rfl
    rw [hfresh _ (Nat.le_refl _)] at hx
    cases hx
  exact Final.place h hne desk correlation topic terms callbacks

theorem move {told : Nat → List (Callbacks × Report)} {due : Nat → List Due}
    (h : s.Dropped n) (hacc : Accounted s told due) (hm : Move s frames s') : s'.Dropped n := by
  induction hm generalizing told due with
  | calm hkeeps hcalm => exact h.keeps hkeeps
  | place s desk correlation topic terms callbacks =>
    exact h.place hacc.fresh desk correlation topic terms callbacks
  | listen s k => exact h.meets (s.listen_meets k)
  | wait s k => exact h.meets (s.wait_meets k)
  | handle s k m => exact h.meets (s.handle_meets k m)
  | abort s k why => exact h.meets (s.abort_meets k why)
  | fire s desk t => exact h.meets (s.fire_meets desk t)
  | andThen hm hm' ih ih' => exact ih' (ih h hacc) (hacc.move hm)
  | beneath hm hcalm ih => exact ih h hacc

theorem resolve (h : s.Dropped n) (k : Nat) (e : Ending) : (s.resolve k e).Dropped n :=
  Final.resolve h nofun k e

/-- A conversation that is torn down before its end is dropped. -/
theorem of_abort {x : Exchange} (hx : s.exchanges.get? n = some x)
    (hopen : x.conversation.ended = false) (why : Failure) : (s.abort n why).2.Dropped n := by
  obtain ⟨v, ha, hv⟩ := Watch.abort_of_open (w := s.watch x) hopen
  have hchanged := ((Changed.refl hx).putWatch x.desk v).keeps (unregister_keeps _ n)
  have habort : (s.abort n why).2 = (s.putWatch n x.desk v).unregister n := by
    simp only [Session.abort, hx, ha]
  rw [habort]
  exact ⟨_, hchanged.self, Conversation.ended_of_untimed hv,
    Conversation.completion_of_untimed hv⟩

end Dropped
end Session

/-! ## Runs -/

namespace Machine

open Session (Move tail_append_silent)

/-- A run from one machine to another, and the frames that were done in it, in their order. -/
inductive Leads (start : Machine) : Machine → List Frame → Prop where
  | refl : Leads start start []
  /-- The first frame of the agenda is done. -/
  | perform {f : Frame} {rest : List Frame} {s : Session} {done : List Frame} :
      Leads start { agenda := f :: rest, session := s } done →
      Leads start { agenda := (s.perform f).1 ++ rest, session := (s.perform f).2 } (done ++ [f])
  /-- With nothing left to do, something is done from outside, or it is a worker's turn. -/
  | outside {s s' : Session} {frames done : List Frame} :
      Leads start { agenda := [], session := s } done → Move s frames s' →
      Leads start { agenda := frames, session := s' } done

/-- The frames that are done in some steps. -/
def performed : Nat → Machine → List Frame
  | 0, _ => []
  | n + 1, m =>
    match m.step? with
    | some m' => m.agenda.take 1 ++ performed n m'
    | none => []

theorem leads_step {m m' : Machine} (h : m.step? = some m') : m.Leads m' (m.agenda.take 1) := by
  refine step_cases (R := fun m m' => m.Leads m' (m.agenda.take 1)) ?_ ?_ h
  · exact fun _ _ _ => .perform .refl
  · exact fun h => .outside .refl (Session.turn_deed h).move

theorem Leads.trans {m m' m'' : Machine} {done done' : List Frame} (h : m.Leads m' done)
    (h' : m'.Leads m'' done') : m.Leads m'' (done ++ done') := by
  induction h' with
  | refl =>
    rw [List.append_nil]
    exact h
  | perform h' ih =>
    rw [← List.append_assoc]
    exact ih.perform
  | outside h' hm ih => exact ih.outside hm

/-- What a machine does by itself is a run. -/
theorem leads_run (n : Nat) (m : Machine) : m.Leads (m.run n) (m.performed n) := by
  induction n generalizing m with
  | zero => exact .refl
  | succ n ih =>
    unfold run performed
    cases hstep : m.step? with
    | none => exact .refl
    | some m' => exact (leads_step hstep).trans (ih m')

/-- The accounts of a machine that has done some frames: what was told and what is next to be
told, and the ends that are on the agenda. -/
structure Kept (m : Machine) (done : List Frame) : Prop where
  accounts : m.session.Accounted (fun n => (done ++ m.agenda).filterMap (Frame.told? n))
    (fun n => m.agenda.filterMap (Frame.due? n))
  first : ∀ f ∈ m.agenda.tail, f.tells = false
  /-- An end that is told next is resolved afterwards. -/
  pending : ∀ n callbacks e, .report (some n) callbacks (.ended e) ∈ m.agenda →
    m.agenda.filterMap (Frame.due? n) ≠ []

namespace Kept

variable {s : Session} {done rest : List Frame} {f : Frame}

theorem start (h : s.exchanges = {}) : Kept { agenda := [], session := s } [] where
  accounts := ⟨fun n => by rw [h]; exact .absent, fun n _ => by rw [h]; rfl⟩
  first := fun f hf => nomatch hf
  pending := fun n callbacks e hf => nomatch hf

/-- What is told by then was told when the first frame is done. -/
theorem told_perform (hrest : ∀ g ∈ rest, g.tells = false) (n : Nat) :
    (done ++ f :: rest).filterMap (Frame.told? n) = (done ++ [f]).filterMap (Frame.told? n) := by
  have hnone : rest.filterMap (Frame.told? n) = [] :=
    List.filterMap_eq_nil_iff.mpr fun g hg => Frame.told?_of_not_tells (hrest g hg) n
  rw [List.append_cons, List.filterMap_append, hnone, List.append_nil]

/-- The accounts when the frames that follow are put in front of the rest. -/
theorem accounts_perform {s' : Session} {frames : List Frame}
    (hrest : ∀ g ∈ rest, g.tells = false)
    (h : s'.Accounted
      (fun n => (done ++ [f]).filterMap (Frame.told? n) ++ frames.filterMap (Frame.told? n))
      (fun n => frames.filterMap (Frame.due? n) ++ rest.filterMap (Frame.due? n))) :
    s'.Accounted (fun n => (done ++ [f] ++ (frames ++ rest)).filterMap (Frame.told? n))
      (fun n => (frames ++ rest).filterMap (Frame.due? n)) := by
  have hnone : ∀ n, rest.filterMap (Frame.told? n) = [] := fun n =>
    List.filterMap_eq_nil_iff.mpr fun g hg => Frame.told?_of_not_tells (hrest g hg) n
  simpa only [List.filterMap_append, hnone, List.append_nil] using h

theorem perform (h : Kept { agenda := f :: rest, session := s } done) :
    Kept { agenda := (s.perform f).1 ++ rest, session := (s.perform f).2 } (done ++ [f]) := by
  have hrest : ∀ g ∈ rest, g.tells = false := h.first
  have hnoEnd : ∀ {n callbacks e}, .report (some n) callbacks (.ended e) ∉ rest :=
    fun hf => Bool.noConfusion (hrest _ hf)
  have haccounts : s.Accounted (fun n => (done ++ [f]).filterMap (Frame.told? n))
      (fun n => (f :: rest).filterMap (Frame.due? n)) := by
    have hacc := h.accounts
    simp only [told_perform hrest] at hacc
    exact hacc
  -- Closing tells the end, resolving makes it known, and everything else is a move.
  obtain ⟨k, e, rfl⟩ | ⟨k, e, rfl⟩ | ⟨hnone, hm⟩ := s.perform_cases f
  · obtain ⟨callbacks, hperform, hacc⟩ := haccounts.close
    rw [hperform]
    refine ⟨accounts_perform hrest hacc, tail_append_silent ?_ hrest, fun n cb e' hf => ?_⟩
    · intro g hg
      rw [List.mem_singleton.mp hg]
      rfl
    · rcases List.mem_append.mp hf with hf | hf
      · have hk : n = k := by
          rcases List.mem_pair.mp hf with hf | hf
          · cases hf
            rfl
          · cases hf
        subst hk
        refine List.ne_nil_of_mem (List.mem_filterMap.mpr ⟨.resolve n e, ?_, if_pos rfl⟩)
        exact List.mem_append_left _ (List.mem_cons_of_mem _ List.mem_cons_self)
      · exact absurd hf hnoEnd
  · refine ⟨accounts_perform hrest ?_, fun g hg => hrest g (List.mem_of_mem_tail hg),
      fun n callbacks e hf => absurd hf hnoEnd⟩
    show (s.resolve k e).Accounted (fun n => _ ++ [].filterMap _) (fun n => [].filterMap _ ++ _)
    simpa only [List.filterMap_nil, List.append_nil, List.nil_append] using haccounts.resolve
  · have hdue : ∀ n, (f :: rest).filterMap (Frame.due? n) = rest.filterMap (Frame.due? n) :=
      fun n => List.filterMap_cons_none (hnone n)
    simp only [hdue] at haccounts
    have hprompt := hm.move.prompt.append hrest
    exact ⟨accounts_perform hrest (haccounts.move hm.move), hprompt.first,
      fun n callbacks e hf => Bool.noConfusion (hprompt.noEnd _ hf)⟩

theorem outside {s' : Session} {frames : List Frame}
    (h : Kept { agenda := [], session := s } done) (hm : Move s frames s') :
    Kept { agenda := frames, session := s' } done := by
  refine ⟨?_, hm.prompt.first, fun n callbacks e hf => Bool.noConfusion (hm.prompt.noEnd _ hf)⟩
  have hacc := h.accounts.move hm
  simpa only [List.append_nil, List.filterMap_nil, List.filterMap_append] using hacc

end Kept

variable {start m : Machine} {done before : List Frame} {n : Nat}

theorem Leads.kept (h : start.Leads m done) (hk : start.Kept before) :
    m.Kept (before ++ done) := by
  induction h with
  | refl =>
    rw [List.append_nil]
    exact hk
  | perform h ih =>
    rw [← List.append_assoc]
    exact ih.perform
  | outside h hm ih => exact ih.outside hm

theorem Leads.dropped (h : start.Leads m done) (hk : start.Kept before)
    (hd : start.session.Dropped n) : m.session.Dropped n := by
  induction h with
  | refl => exact hd
  | @perform f rest s done h ih =>
    obtain ⟨k, e, rfl⟩ | ⟨k, e, rfl⟩ | ⟨-, hm⟩ := s.perform_cases f
    · simp only [Session.perform]
      split
      · exact ih
      · exact ih.keeps (s.unregister_keeps k)
    · exact ih.resolve k e
    · exact ih.move (h.kept hk).accounts hm.move
  | outside h hm ih => exact ih.move (h.kept hk).accounts hm

end Machine

/-! ## What callbacks see of the end -/

def Callbacks.has (c : Callbacks) (r : Report) : Bool := (c.script? r).isSome

/-- The callback of a conversation that a frame calls, with what it is told. -/
def Frame.called? (n : Nat) : Frame → Option Report
  | .report (some k) callbacks r => if k = n ∧ callbacks.has r = true then some r else none
  | _ => none

/-- What the callbacks of a conversation and those who wait for it see of its end, by the calls
so far and what can be told about the end.  `atRest` says that nothing is left to do. -/
structure EndSeen (x : Exchange) (calls : List Report) (awaited : Session.Awaited)
    (atRest : Prop) : Prop where
  once : (calls.filterMap Report.ending?).length ≤ 1
  payloads : ∀ pre e post, calls = pre ++ .ended e :: post →
    x.callbacks.answered.isSome = true → e.payloads = pre.filterMap Report.answer?
  acks : ∀ pre e post, calls = pre ++ .ended e :: post →
    x.callbacks.acknowledged.isSome = true → e.acks = pre.filterMap Report.acknowledgement?
  last : ∀ pre e post, calls = pre ++ .ended e :: post → ∀ r ∈ post, ∃ why, r = .failed why
  same : ∀ e e', .ended e ∈ calls → awaited = .resolved e' → e' = e
  resolves : ∀ e, .ended e ∈ calls → atRest → awaited = .resolved e
  told : ∀ e, awaited = .resolved e → x.callbacks.ended.isSome = true → .ended e ∈ calls

theorem Frame.called?_eq (n : Nat) (f : Frame) :
    f.called? n = (f.told? n).bind fun t => if t.1.has t.2 = true then some t.2 else none := by
  cases f with
  | report exchange callbacks r =>
    cases exchange with
    | none => rfl
    | some k => by_cases hk : k = n <;> simp [called?, told?, hk]
  | _ => rfl

theorem calls_eq_filter {n : Nat} {callbacks : Callbacks} {done : List Frame}
    (h : ∀ t ∈ done.filterMap (Frame.told? n), t.1 = callbacks) :
    done.filterMap (Frame.called? n) =
      ((done.filterMap (Frame.told? n)).map Prod.snd).filter callbacks.has := by
  induction done with
  | nil => rfl
  | cons f done ih =>
    cases ht : f.told? n with
    | none =>
      have hc : f.called? n = none := by rw [Frame.called?_eq, ht, Option.bind_none]
      rw [List.filterMap_cons_none ht] at h ⊢
      rw [List.filterMap_cons_none hc]
      exact ih h
    | some t =>
      rw [List.filterMap_cons_some ht] at h ⊢
      have hcallbacks := h t List.mem_cons_self
      have hrest := ih fun t ht => h t (List.mem_cons_of_mem _ ht)
      rw [List.map_cons]
      by_cases hs : callbacks.has t.2 = true
      · have hc : f.called? n = some t.2 := by
          rw [Frame.called?_eq, ht, Option.bind_some, hcallbacks, if_pos hs]
        rw [List.filterMap_cons_some hc, hrest, List.filter_cons_of_pos hs]
      · have hc : f.called? n = none := by
          rw [Frame.called?_eq, ht, Option.bind_some, hcallbacks, if_neg hs]
        rw [List.filterMap_cons_none hc, hrest, List.filter_cons_of_neg hs]

theorem filterMap_answer?_filter_has {callbacks : Callbacks}
    (h : callbacks.answered.isSome = true) (told : List Report) :
    (told.filter callbacks.has).filterMap Report.answer? = told.filterMap Report.answer? := by
  rw [List.filterMap_filter]
  refine List.filterMap_congr fun r _ => ?_
  cases r with
  | answered m => exact if_pos h
  | _ => exact ite_self _

theorem filterMap_acknowledgement?_filter_has {callbacks : Callbacks}
    (h : callbacks.acknowledged.isSome = true) (told : List Report) :
    (told.filter callbacks.has).filterMap Report.acknowledgement? =
      told.filterMap Report.acknowledgement? := by
  rw [List.filterMap_filter]
  refine List.filterMap_congr fun r _ => ?_
  cases r with
  | acknowledged a m => exact if_pos h
  | _ => exact ite_self _

theorem filter_split {told pre post : List Report} {p : Report → Bool} {r : Report}
    (h : told.filter p = pre ++ r :: post) :
    ∃ before later, told = before ++ r :: later ∧ before.filter p = pre ∧
      later.filter p = post := by
  obtain ⟨l₁, l₂, rfl, h₁, h₂⟩ := List.filter_eq_append_iff.mp h
  obtain ⟨l₃, l₄, rfl, hnone, -, h₄⟩ := List.filter_eq_cons_iff.mp h₂
  refine ⟨l₁ ++ l₃, l₄, by rw [List.append_assoc], ?_, h₄⟩
  rw [List.filter_append, h₁, List.filter_eq_nil_iff.mpr hnone, List.append_nil]

theorem Session.awaited_eq_resolved_iff {s : Session} {n : Nat} {x : Exchange} {e : Ending}
    (hx : s.exchanges.get? n = some x) :
    s.awaited n = .resolved e ↔ x.conversation.completion = .resolved e := by
  simp only [awaited, hx]
  cases x.conversation.completion with
  | resolved e' => simp
  | dropped => simp
  | waiting => cases s.isAbandoned n x <;> simp
  | closing => cases s.isAbandoned n x <;> simp

namespace Machine

variable {start m : Machine} {done before : List Frame} {n : Nat} {x : Exchange}

/-- What was told of a conversation, what is told next, and what is due. -/
theorem Kept.stage (h : m.Kept done) (hx : m.session.exchanges.get? n = some x) :
    (∀ t ∈ (done ++ m.agenda).filterMap (Frame.told? n), t.1 = x.callbacks) ∧
      x.conversation.payloads = (((done ++ m.agenda).filterMap (Frame.told? n)).map
        Prod.snd).filterMap Report.answer? ∧
      x.conversation.acks = (((done ++ m.agenda).filterMap (Frame.told? n)).map
        Prod.snd).filterMap Report.acknowledgement? ∧
      Stage x.conversation (((done ++ m.agenda).filterMap (Frame.told? n)).map Prod.snd)
        (m.agenda.filterMap (Frame.due? n)) := by
  have hacc := h.accounts.account n
  rw [hx] at hacc
  cases hacc with
  | present hc hp ha hs => exact ⟨hc, hp, ha, hs⟩

/-- Where a call tells the end, what was told before has the messages of the end, and nothing
but failures were told after. -/
theorem Kept.called_end (h : m.Kept done) (hx : m.session.exchanges.get? n = some x)
    {pre post : List Report} {e : Ending}
    (hcalls : done.filterMap (Frame.called? n) = pre ++ .ended e :: post) :
    ∃ told : List Report, told.filter x.callbacks.has = pre ∧
      e.payloads = told.filterMap Report.answer? ∧
      e.acks = told.filterMap Report.acknowledgement? ∧ Silent pre ∧
      (∀ r ∈ post, ∃ why, r = .failed why) ∧
      (m.agenda.filterMap (Frame.due? n) = [] → x.conversation.completion = .resolved e) := by
  obtain ⟨hc, hp, ha, hs⟩ := h.stage hx
  rw [List.filterMap_append] at hc
  rw [calls_eq_filter fun t ht => hc t (List.mem_append_left _ ht)] at hcalls
  obtain ⟨told, later, hsplit, hpre, hpost⟩ := filter_split hcalls
  rw [List.filterMap_append, List.map_append, hsplit, List.append_assoc, List.cons_append]
    at hp ha hs
  obtain ⟨hends, hof, hresolved⟩ := hs.of_told (List.mem_append_right _ List.mem_cons_self)
  obtain ⟨-, hsilent, hfailures⟩ := hends.split rfl
  have hanswers : ∀ r ∈ later ++ (m.agenda.filterMap (Frame.told? n)).map Prod.snd,
      Report.answer? r = none ∧ Report.acknowledgement? r = none := by
    intro r hr
    obtain ⟨why, rfl⟩ := hfailures r hr
    exact ⟨rfl, rfl⟩
  refine ⟨told, hpre, ?_, ?_, ?_, ?_, hresolved⟩
  · rw [hof.payloads, hp, List.filterMap_append, List.filterMap_cons_none rfl,
      List.filterMap_eq_nil_iff.mpr fun r hr => (hanswers r hr).1, List.append_nil]
  · rw [hof.acks, ha, List.filterMap_append, List.filterMap_cons_none rfl,
      List.filterMap_eq_nil_iff.mpr fun r hr => (hanswers r hr).2, List.append_nil]
  · intro e' he'
    rw [← hpre] at he'
    exact hsilent e' (List.mem_filter.mp he').1
  · intro r hr
    rw [← hpost] at hr
    exact hfailures r (List.mem_append_left _ (List.mem_filter.mp hr).1)

/-- When the end can be known, it was told. -/
theorem Kept.told_of_resolved (h : m.Kept done) (hx : m.session.exchanges.get? n = some x)
    {e : Ending} (he : x.conversation.completion = .resolved e) :
    .ended e ∈ (done.filterMap (Frame.told? n)).map Prod.snd := by
  obtain ⟨-, -, -, hs⟩ := h.stage hx
  obtain ⟨hnone, hends⟩ := hs.of_resolved he
  have hmem := hends.mem
  rw [List.filterMap_append, List.map_append, List.mem_append] at hmem
  rcases hmem with hmem | hmem
  · exact hmem
  · -- An end that is only told next is not resolved yet.
    obtain ⟨t, ht, hend⟩ := List.mem_map.mp hmem
    obtain ⟨f, hf, htold⟩ := List.mem_filterMap.mp ht
    cases f with
    | report exchange callbacks r =>
      cases exchange with
      | none => cases htold
      | some k =>
        by_cases hk : k = n
        · simp only [Frame.told?, if_pos hk, Option.some.injEq] at htold
          rw [← htold] at hend
          rw [show r = .ended e from hend, hk] at hf
          exact absurd hnone (h.pending n callbacks e hf)
        · simp only [Frame.told?, if_neg hk] at htold
          cases htold
    | _ => cases htold

theorem Kept.endSeen (h : m.Kept done) (hx : m.session.exchanges.get? n = some x) :
    EndSeen x (done.filterMap (Frame.called? n)) (m.session.awaited n) (m.agenda = []) where
  once := by
    cases hcases : (done.filterMap (Frame.called? n)).filterMap Report.ending? with
    | nil => exact Nat.zero_le 1
    | cons e es =>
      have he : e ∈ (done.filterMap (Frame.called? n)).filterMap Report.ending? := by
        rw [hcases]
        exact List.mem_cons_self
      obtain ⟨r, hr, hre⟩ := List.mem_filterMap.mp he
      cases r with
      | ended e' =>
        obtain ⟨pre, post, hcalls⟩ := List.append_of_mem hr
        obtain ⟨-, -, -, -, hsilent, hfailures, -⟩ := h.called_end hx hcalls
        have hends : EndsWith e' (done.filterMap (Frame.called? n)) :=
          ⟨pre, post, hcalls, hsilent, hfailures⟩
        rw [← hcases, hends.endings]
        exact Nat.le_refl 1
      | _ => cases hre
  payloads := fun pre e post hcalls hanswered => by
    obtain ⟨told, rfl, hpayloads, -⟩ := h.called_end hx hcalls
    rw [hpayloads, filterMap_answer?_filter_has hanswered]
  acks := fun pre e post hcalls hacknowledged => by
    obtain ⟨told, rfl, -, hacks, -⟩ := h.called_end hx hcalls
    rw [hacks, filterMap_acknowledgement?_filter_has hacknowledged]
  last := fun pre e post hcalls => by
    obtain ⟨-, -, -, -, -, hfailures, -⟩ := h.called_end hx hcalls
    exact hfailures
  same := fun e e' he he' => by
    have hcompletion := (Session.awaited_eq_resolved_iff hx).mp he'
    obtain ⟨-, -, -, hs⟩ := h.stage hx
    obtain ⟨pre, post, hcalls⟩ := List.append_of_mem he
    obtain ⟨-, -, -, -, -, -, hresolved⟩ := h.called_end hx hcalls
    have heq := hresolved (hs.of_resolved hcompletion).1
    rw [hcompletion] at heq
    cases heq
    rfl
  resolves := fun e he hrest => by
    obtain ⟨pre, post, hcalls⟩ := List.append_of_mem he
    obtain ⟨-, -, -, -, -, -, hresolved⟩ := h.called_end hx hcalls
    exact (Session.awaited_eq_resolved_iff hx).mpr (hresolved (by rw [hrest]; rfl))
  told := fun e he hended => by
    have hcompletion := (Session.awaited_eq_resolved_iff hx).mp he
    obtain ⟨hc, -, -, -⟩ := h.stage hx
    rw [List.filterMap_append] at hc
    rw [calls_eq_filter fun t ht => hc t (List.mem_append_left _ ht)]
    exact List.mem_filter.mpr ⟨h.told_of_resolved hx hcompletion, hended⟩

theorem Kept.no_end_of_dropped (h : m.Kept done) (hd : m.session.Dropped n) :
    (∀ e, .ended e ∉ done.filterMap (Frame.called? n)) ∧
      ∀ e, m.session.awaited n ≠ .resolved e := by
  obtain ⟨x, hx, -, hdropped⟩ := hd
  obtain ⟨hc, -, -, hs⟩ := h.stage hx
  constructor
  · intro e he
    rw [List.filterMap_append] at hc
    rw [calls_eq_filter fun t ht => hc t (List.mem_append_left _ ht)] at he
    refine hs.of_dropped hdropped e ?_
    rw [List.filterMap_append, List.map_append]
    exact List.mem_append_left _ (List.mem_filter.mp he).1
  · intro e he
    rw [Session.awaited_eq_resolved_iff hx, hdropped] at he
    cases he

/-- In every run a conversation tells its end once at most, with the messages that its callbacks
were told, and nothing but failures after it; those who wait learn the same end.  If it is torn
down before its end, the end is never told. -/
theorem Leads.end_seen_once {s : Session} (h : Leads { agenda := [], session := s } m done)
    (hs : s.exchanges = {}) (hx : m.session.exchanges.get? n = some x) :
    EndSeen x (done.filterMap (Frame.called? n)) (m.session.awaited n) (m.agenda = []) ∧
      ∀ (t : Session) (y : Exchange) (why : Failure) (rest : List Frame),
        t.exchanges.get? n = some y → y.conversation.ended = false →
        m = { agenda := (t.abort n why).1 ++ rest, session := (t.abort n why).2 } →
        ∀ m' done', m.Leads m' done' →
          (∀ e, .ended e ∉ (done ++ done').filterMap (Frame.called? n)) ∧
            ∀ e, m'.session.awaited n ≠ .resolved e := by
  have hk : m.Kept done := h.kept (.start hs)
  refine ⟨hk.endSeen hx, fun t y why rest hy hopen hm m' done' h' => ?_⟩
  have hd : m.session.Dropped n := by
    rw [hm]
    exact .of_abort hy hopen why
  exact (h'.kept hk).no_end_of_dropped (h'.dropped hk hd)

/-! ### An answer within the callback of another -/

def nestedMessage (id : String) : Message where
  id := id
  correlation := "talk"
  route := { destination := "talk:answers" }
  stamp := { createdAt := .epoch, origin := default }
  payload := some (.bool true)

/-- The callback for answers hands a second answer to the conversation, and the one for the end
panics. -/
def nestedCallbacks : Callbacks where
  owner := .conversation "talk"
  answered := some [.handle "talk" { message := nestedMessage "second" }]
  ended := some [.panic none]

def emptySession : Session where
  channels := { broker := .manual {} }
  start := .epoch

/-- A session with a conversation that waits for two answers. -/
def nestedSession : Session :=
  { (emptySession.place .own "talk" "talk:answers"
      { responseTimeoutMs := 1000, wait := .exactly 2 } nestedCallbacks).2 with
    conversations := ({} : Table String Nat).put "talk" 0 }

/-- The first answer comes. -/
def nested : Machine where
  agenda := (nestedSession.handle 0 (nestedMessage "first")).1
  session := (nestedSession.handle 0 (nestedMessage "first")).2

theorem end_seen_after_nested :
    ∃ x, (nested.run 20).session.exchanges.get? 0 = some x ∧
      (nested.run 20).agenda.length = 0 ∧
      ((nested.performed 20).filterMap (Frame.called? 0)).map Report.callback =
        ["response", "response", "end"] ∧
      EndSeen x ((nested.performed 20).filterMap (Frame.called? 0))
        ((nested.run 20).session.awaited 0) ((nested.run 20).agenda = []) := by
  have hplaced : Session.Move emptySession [] nestedSession :=
    .andThen (.place _ _ _ _ _ _) (.still ⟨rfl, rfl⟩)
  have hfirst : Leads { agenda := [], session := emptySession } nested [] :=
    (Leads.refl.outside hplaced).outside (.handle nestedSession 0 _)
  have hrun := hfirst.trans (leads_run 20 nested)
  obtain ⟨x, hx⟩ : ∃ x, (nested.run 20).session.exchanges.get? 0 = some x :=
    Option.isSome_iff_exists.mp (by decide +kernel)
  exact ⟨x, hx, by decide +kernel, by decide +kernel, (hrun.end_seen_once rfl hx).1⟩

end Machine
end Colloquy
