/-
The last word on a conversation.

The callbacks of a conversation are told its end, or that it has failed.  A conversation that is
torn down while it is open is dropped, and its end is never told.  So there is one last word, as
long as no conversation is torn down that has ended.
-/
import Colloquy.Proofs.Shutdown

namespace Colloquy

/-- Whether a report is the last word on a conversation. -/
def Report.isLast : Report → Bool
  | .ended _ => true
  | .failed _ => true
  | _ => false

/-- Whether a frame tells the callbacks of a conversation that it has failed. -/
def Frame.fails (n : Nat) : Frame → Bool
  | .report (some k) _ (.failed _) => k = n
  | _ => false

theorem Frame.fails_of_calm {f : Frame} (h : f.calm = true) (n : Nat) : f.fails n = false := by
  cases f with
  | report exchange callbacks r =>
    cases exchange with
    | none => cases r <;> rfl
    | some k => cases h
  | _ => rfl

theorem Conversation.refuse_of_waiting {c : Conversation} (h : c.completion = .waiting) :
    c.refuse.completion = .dropped := by
  simp only [refuse, h]

/-- Only a conversation that is torn down fails. -/
theorem Watch.abort_of_tells_failed {w : Watch} {o : Occurrence} {why : Failure}
    (h : .failed why ∈ w.tells o) : ∃ why, o = .abort why := by
  cases o with
  | abort why => exact ⟨why, rfl⟩
  | message now m =>
    simp only [tells] at h
    split at h
    · cases h
    · unfold Message.reports at h
      cases hp : m.hasPayload <;> cases ha : m.ack <;> simp [hp, ha] at h
  | _ => cases h

theorem Watch.meet_abort_ended {w v : Watch} {self : Nat} {why : Failure} {end? : Option Ending}
    (h : w.meet self (.abort why) = (v, end?)) : v.conversation.ended = true := by
  obtain ⟨rfl, -⟩ := Prod.mk.inj h
  unfold Watch.abort
  split
  · assumption
  · rfl

namespace Session

variable {s s' : Session} {n k : Nat} {frames : List Frame}

/-- Either a conversation is open, or nothing will be told of its end. -/
def Untold (s : Session) (n : Nat) : Prop := s.Over n → s.Dropped n

/-- What becomes of a conversation whose end is not told.  If it fails, it does so once and is
dropped, and it is not going to be told its end unless it is to be closed. -/
structure Falls (n : Nat) (frames : List Frame) (s' : Session) : Prop where
  fails : (∀ f ∈ frames, f.fails n = false) ∨
    frames.countP (Frame.fails n) = 1 ∧ s'.Dropped n
  untold : (∀ e, .close n e ∉ frames) → s'.Untold n

variable {told : Nat → List (Callbacks × Report)} {due : Nat → List Due}

theorem Untold.keeps (h : s.Untold n) (hs : s.Keeps s') : s'.Untold n := fun ⟨x, hx, hended⟩ =>
  (h ⟨x, hs.exchanges ▸ hx, hended⟩).keeps hs

theorem Untold.falls_of_calm (h : s'.Untold n) (hcalm : ∀ f ∈ frames, f.calm = true) :
    Falls n frames s' :=
  ⟨Or.inl fun f hf => Frame.fails_of_calm (hcalm f hf) n, fun _ => h⟩

theorem fails_closing (n k : Nat) (end? : Option Ending) :
    ∀ f ∈ closing k end?, f.fails n = false := by
  intro f hf
  cases end? with
  | none => cases hf
  | some e =>
    rw [List.mem_singleton.mp hf]
    rfl

/-- What happens to another conversation makes no difference. -/
theorem Untold.meets_ne (h : s.Untold n) (hs : Meets s k frames s') (hk : k ≠ n) :
    Falls n frames s' := by
  cases hs with
  | absent hx hkeeps => exact (h.keeps hkeeps).falls_of_calm (List.forall_mem_nil _)
  | @present _ x w v end? o hx hw hmeet hchanged =>
    have hsame := hchanged.others n hk.symm
    refine ⟨Or.inl fun f hf => ?_, fun _ ⟨y, hy, hended⟩ => ?_⟩
    · rcases List.mem_append.mp hf with hf | hf
      · obtain ⟨r, -, rfl⟩ := List.mem_map.mp hf
        cases r <;> simp [Frame.fails, hk]
      · exact fails_closing n k end? f hf
    · exact (h ⟨y, hsame.symm.trans hy, hended⟩).imp fun z hz => ⟨hsame.trans hz.1, hz.2⟩

theorem Untold.meets (h : s.Untold n) (hacc : s.Accounted told due) (hs : Meets s k frames s') :
    Falls n frames s' := by
  by_cases hk : k = n
  · subst hk
    have hdropped : s.Dropped k → s'.Dropped k := fun hd => hd.meets hs
    cases hs with
    | absent hx hkeeps => exact (h.keeps hkeeps).falls_of_calm (List.forall_mem_nil _)
    | @present _ x w v end? o hx hw hmeet hchanged =>
      have hover : w.conversation.ended = true → s'.Dropped k := fun hended =>
        hdropped (h ⟨x, hx, hw ▸ hended⟩)
      have hself : v.conversation.ended = true → v.conversation.completion = .dropped →
          s'.Dropped k := fun hended hc => ⟨_, hchanged.self, hended, hc⟩
      have huntold : end? = none → v.conversation.ended = true → s'.Dropped k := by
        rintro rfl hended
        have hadds := w.joined_adds o
        have houtcome := w.meet_outcome k o
        rw [hmeet] at houtcome
        generalize hc : v.conversation = c at houtcome hself hended
        cases houtcome with
        | goesOn hd =>
          exact hover (hadds.ended.symm.trans ((Conversation.ended_of_untimed hd).symm.trans
            hended))
        | drops hopen hd => exact hself hended (Conversation.completion_of_untimed hd)
        | refuses hd =>
          cases hopen : w.conversation.ended with
          | true => exact hover hopen
          | false =>
            have haccount := hacc.account k
            rw [hx] at haccount
            cases haccount with
            | present hcb hp ha hs =>
              obtain ⟨-, -, hwaiting⟩ := hs.of_open (hw ▸ hopen)
              refine hself hended ?_
              rw [hd]
              exact Conversation.refuse_of_waiting (hadds.completion.trans (hw ▸ hwaiting))
      refine ⟨?_, fun hclose ⟨y, hy, hended⟩ => ?_⟩
      · by_cases habort : ∃ why, o = .abort why
        · obtain ⟨why, rfl⟩ := habort
          have hnone : end? = none := (Prod.mk.inj hmeet).2.symm
          refine Or.inr ⟨?_, huntold hnone (Watch.meet_abort_ended hmeet)⟩
          simp [hnone, Watch.tells, closing, Frame.fails]
        · refine Or.inl fun f hf => ?_
          rcases List.mem_append.mp hf with hf | hf
          · obtain ⟨r, hr, rfl⟩ := List.mem_map.mp hf
            cases r with
            | failed why => exact absurd (Watch.abort_of_tells_failed hr) habort
            | _ => rfl
          · exact fails_closing k k end? f hf
      · cases hend : end? with
        | none =>
          rw [hchanged.self] at hy
          cases hy
          exact huntold hend hended
        | some e =>
          refine absurd ?_ (hclose e)
          rw [hend]
          exact List.mem_append_right _ List.mem_cons_self
  · exact h.meets_ne hs hk

theorem Untold.place (h : s.Untold n) (hacc : s.Accounted told due) (desk : DeskName)
    (correlation topic : String) (terms : Terms) (callbacks : Callbacks) :
    (s.place desk correlation topic terms callbacks).2.Untold n := by
  have hexchanges : (s.place desk correlation topic terms callbacks).2.exchanges =
      s.exchanges.put s.nextExchange
        { conversation := .start correlation topic s.clock terms, callbacks, desk } := by
    cases desk <;> rfl
  rintro ⟨x, hx, hended⟩
  rw [hexchanges] at hx
  by_cases hn : n = s.nextExchange
  · rw [hn, Table.get?_put_self] at hx
    cases hx
    cases hended
  · rw [Table.get?_put_ne _ hn] at hx
    exact (h ⟨x, hx, hended⟩).place hacc.fresh desk correlation topic terms callbacks

theorem Untold.move (h : s.Untold n) (hacc : s.Accounted told due) (hm : Move s frames s') :
    Falls n frames s' := by
  have hnil : ∀ {t : Session}, t.Untold n → Falls n [] t := fun ht =>
    ht.falls_of_calm (List.forall_mem_nil _)
  induction hm generalizing told due with
  | calm hkeeps hcalm => exact (h.keeps hkeeps).falls_of_calm hcalm
  | place s desk correlation topic terms callbacks =>
    exact hnil (h.place hacc desk correlation topic terms callbacks)
  | listen s k => exact h.meets hacc (s.listen_meets k)
  | wait s k => exact h.meets hacc (s.wait_meets k)
  | handle s k m => exact h.meets hacc (s.handle_meets k m)
  | abort s k why => exact h.meets hacc (s.abort_meets k why)
  | fire s desk t => exact h.meets hacc (s.fire_meets desk t)
  | andThen hm hm' ih ih' =>
    exact ih' ((ih h hacc).untold fun e he => nomatch he) (hacc.move hm)
  | @beneath s s' frames more hm hcalm ih =>
    have hfalls := ih h hacc
    have hmore : ∀ f ∈ more, f.fails n = false := fun f hf => Frame.fails_of_calm (hcalm f hf) n
    refine ⟨?_, fun hclose => hfalls.untold fun e he => hclose e (List.mem_append_left _ he)⟩
    rcases hfalls.fails with hnone | ⟨hone, hd⟩
    · exact Or.inl fun f hf => (List.mem_append.mp hf).elim (hnone f) (hmore f)
    · refine Or.inr ⟨?_, hd⟩
      rw [List.countP_append, hone, List.countP_eq_zero.mpr fun f hf => by simp [hmore f hf]]

end Session

namespace Machine

open Session (Move)

variable {start m : Machine} {f : Frame} {rest frames done : List Frame} {s s' : Session}
  {n : Nat} {x : Exchange}

/-- A conversation has not failed, or once and then it is dropped. -/
def Failed (n : Nat) (m : Machine) (done : List Frame) : Prop :=
  (∀ f ∈ done ++ m.agenda, f.fails n = false) ∨
    (done ++ m.agenda).countP (Frame.fails n) = 1 ∧ m.session.Dropped n

/-- The failures stay in order when frames are put in front of the rest, if a conversation that has
ended is not among those that fail. -/
theorem Failed.onward (h : Failed n { agenda := rest, session := s } done)
    (hfalls : ¬s.Over n → (∀ g ∈ frames, g.fails n = false) ∨
      frames.countP (Frame.fails n) = 1 ∧ s'.Dropped n)
    (hspares : s.Over n → ∀ g ∈ frames, g.fails n = false)
    (hdropped : s.Dropped n → s'.Dropped n) :
    Failed n { agenda := frames ++ rest, session := s' } done := by
  have hcount : (done ++ (frames ++ rest)).countP (Frame.fails n) =
      frames.countP (Frame.fails n) + (done ++ rest).countP (Frame.fails n) := by
    simp only [List.countP_append]
    omega
  rcases h with hnone | ⟨hone, hd⟩
  · have hquiet : (∀ g ∈ frames, g.fails n = false) →
        Failed n { agenda := frames ++ rest, session := s' } done := by
      refine fun hframes => Or.inl fun g hg => ?_
      have hcases : g ∈ frames ∨ g ∈ done ++ rest := by
        simp only [List.mem_append] at hg ⊢
        tauto
      exact hcases.elim (hframes g) (hnone g)
    by_cases hover : s.Over n
    · exact hquiet (hspares hover)
    · rcases hfalls hover with hframes | ⟨hfails, hd⟩
      · exact hquiet hframes
      · refine Or.inr ⟨?_, hd⟩
        have hzero : (done ++ rest).countP (Frame.fails n) = 0 :=
          List.countP_eq_zero.mpr fun g hg => by simp [hnone g hg]
        rw [hcount, hfails, hzero]
  · obtain ⟨x, hx, hended, -⟩ := id hd
    have hzero : frames.countP (Frame.fails n) = 0 :=
      List.countP_eq_zero.mpr fun g hg => by simp [hspares ⟨x, hx, hended⟩ g hg]
    exact Or.inr ⟨by rw [hcount, hzero, hone], hdropped hd⟩

theorem Failed.perform (h : Failed n { agenda := f :: rest, session := s } done)
    (hk : Kept { agenda := f :: rest, session := s } done)
    (hspares : s.Over n → ∀ g ∈ (s.perform f).1, g.fails n = false) :
    Failed n { agenda := (s.perform f).1 ++ rest, session := (s.perform f).2 } (done ++ [f]) := by
  have hmoved : Failed n { agenda := rest, session := s } (done ++ [f]) := by
    unfold Failed at h ⊢
    rwa [List.append_assoc, List.singleton_append]
  have hdropped : s.Dropped n → (s.perform f).2.Dropped n := fun hd =>
    (Leads.refl.perform : Leads _ _ _).dropped hk hd
  refine hmoved.onward (fun hover => ?_) hspares hdropped
  obtain ⟨k, e, rfl⟩ | ⟨k, e, rfl⟩ | ⟨-, hd⟩ := s.perform_cases f
  · refine Or.inl fun g hg => ?_
    simp only [Session.perform] at hg
    split at hg
    · cases hg
    · rcases List.mem_pair.mp hg with rfl | rfl <;> rfl
  · exact Or.inl (List.forall_mem_nil _)
  · have huntold : s.Untold n := fun ho => absurd ho hover
    exact (huntold.move hk.accounts hd.move).fails

theorem Failed.outside (h : Failed n { agenda := [], session := s } done)
    (hk : Kept { agenda := [], session := s } done) (hm : Move s frames s')
    (hspares : s.Over n → ∀ g ∈ frames, g.fails n = false) :
    Failed n { agenda := frames, session := s' } done := by
  have honward := h.onward (fun hover => ?_) hspares fun hd => hd.move hk.accounts hm
  · rwa [List.append_nil] at honward
  · have huntold : s.Untold n := fun ho => absurd ho hover
    exact (huntold.move hk.accounts hm).fails

theorem fails_of_called {r : Failure} (h : f.called? n = some (.failed r)) :
    f.fails n = true := by
  cases f with
  | report exchange callbacks r' =>
    cases exchange with
    | none => cases h
    | some k =>
      simp only [Frame.called?] at h
      split at h
      · rename_i hk
        cases h
        exact decide_eq_true hk.1
      · cases h
  | _ => cases h

/-- What is called as the last word is an end or a failure. -/
theorem countP_isLast_le (n : Nat) (done : List Frame) :
    (done.filterMap (Frame.called? n)).countP Report.isLast ≤
      ((done.filterMap (Frame.called? n)).filterMap Report.ending?).length +
        done.countP (Frame.fails n) := by
  induction done with
  | nil => exact Nat.zero_le _
  | cons f done ih =>
    have hcons : done.countP (Frame.fails n) ≤ (f :: done).countP (Frame.fails n) :=
      (List.sublist_cons_self f done).countP_le
    cases hf : f.called? n with
    | none =>
      rw [List.filterMap_cons_none hf]
      omega
    | some r =>
      rw [List.filterMap_cons_some hf]
      cases r with
      | ended e =>
        rw [List.countP_cons_of_pos rfl,
          List.filterMap_cons_some (show Report.ending? (.ended e) = some e from rfl),
          List.length_cons]
        omega
      | failed why =>
        have hfails := fails_of_called hf
        rw [List.countP_cons_of_pos rfl, List.filterMap_cons_none rfl,
          List.countP_cons_of_pos hfails]
        omega
      | answered k =>
        rw [List.countP_cons_of_neg Bool.false_ne_true, List.filterMap_cons_none rfl]
        omega
      | acknowledged a k =>
        rw [List.countP_cons_of_neg Bool.false_ne_true, List.filterMap_cons_none rfl]
        omega

/-- There is one last word at most, and if it is a failure the conversation is dropped. -/
theorem Failed.last_word (h : Failed n m done) (hk : m.Kept done)
    (hx : m.session.exchanges.get? n = some x) :
    (done.filterMap (Frame.called? n)).countP Report.isLast ≤ 1 ∧
      ∀ why, .failed why ∈ done.filterMap (Frame.called? n) → m.session.Dropped n := by
  have hle := countP_isLast_le n done
  have hdone : done.countP (Frame.fails n) ≤ (done ++ m.agenda).countP (Frame.fails n) :=
    (List.sublist_append_left done m.agenda).countP_le
  rcases h with hnone | ⟨hone, hd⟩
  · have hzero : (done ++ m.agenda).countP (Frame.fails n) = 0 :=
      List.countP_eq_zero.mpr fun g hg => by simp [hnone g hg]
    have honce := (hk.endSeen hx).once
    refine ⟨by omega, fun why hmem => ?_⟩
    obtain ⟨g, hg, hcalled⟩ := List.mem_filterMap.mp hmem
    have hquiet := hnone g (List.mem_append_left _ hg)
    rw [fails_of_called hcalled] at hquiet
    cases hquiet
  · have hsilent : (done.filterMap (Frame.called? n)).filterMap Report.ending? = [] :=
      Silent.endings (hk.no_end_of_dropped hd).1
    rw [hsilent, List.length_nil] at hle
    exact ⟨by omega, fun _ _ => hd⟩

end Machine
end Colloquy
