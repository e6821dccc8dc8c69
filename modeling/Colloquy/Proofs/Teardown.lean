/-
Whom a shutdown tears down.

A shutdown goes through the inboxes of the messaging context and tears down what it finds in each
of them, one conversation after the other.  Callbacks run in between.  `Poised` says how a
conversation stands to what is still to be torn down: it is there once at most, and as long as it
is there it is open, unless its end was on the way when the shutdown began.  So there is one last
word on each conversation in every run that `Heeds` it.
-/
import Colloquy.Proofs.LastWord
import Colloquy.Proofs.Rollback
import Colloquy.Proofs.Scripts

namespace Colloquy

namespace Frame

/-- The conversations that a frame is going to tear down. -/
def targets : Frame → List Nat
  | abortAll ns _ => ns
  | _ => []

/-- Whether a frame is going to look into inboxes. -/
def sweeps : Frame → Bool
  | abortInboxes _ _ _ => true
  | _ => false

/-- Whether a frame is going to close a conversation. -/
def closes (n : Nat) : Frame → Bool
  | close k _ => k = n
  | _ => false

theorem targets_of_not_aborts {f : Frame} (h : f.aborts = false) : f.targets = [] := by
  cases f with
  | abortAll ns why => cases h
  | _ => rfl

theorem sweeps_of_not_aborts {f : Frame} (h : f.aborts = false) : f.sweeps = false := by
  cases f with
  | abortInboxes desk topics why => cases h
  | _ => rfl

end Frame

namespace Session

variable {s s' : Session} {n k : Nat} {x : Exchange} {frames : List Frame}

/-- A conversation that is there and open. -/
def Standing (s : Session) (n : Nat) : Prop :=
  ∃ x, s.exchanges.get? n = some x ∧ x.conversation.ended = false

theorem Standing.not_over (h : s.Standing n) : ¬s.Over n := by
  rintro ⟨y, hy, hended⟩
  obtain ⟨x, hx, hopen⟩ := h
  rw [hx] at hy
  cases hy
  rw [hopen] at hended
  cases hended

theorem Standing.resolve (h : s.Standing n) (k : Nat) (e : Ending) :
    (s.resolve k e).Standing n := by
  obtain ⟨x, hx, hopen⟩ := h
  have hsame := s.resolve_get? k e n
  rw [hx] at hsame
  obtain ⟨y, hy, heq⟩ := Option.map_eq_some_iff.mp hsame
  exact ⟨y, hy, (congrArg Prod.snd heq).trans hopen⟩

/-- The context has begun to shut down. -/
def ShuttingDown (s : Session) : Prop := ∃ x, s.context = some x ∧ x.shutDown = true

/-- A conversation stays on the desk where it was placed. -/
theorem Meets.desk (h : Meets s k frames s') (hx : s.exchanges.get? n = some x) :
    ∃ y, s'.exchanges.get? n = some y ∧ y.desk = x.desk := by
  cases h with
  | absent _ hkeeps => exact ⟨x, hkeeps.exchanges ▸ hx, rfl⟩
  | present o hx' _ _ hchanged =>
    by_cases hk : n = k
    · subst hk
      rw [hx] at hx'
      cases hx'
      exact ⟨_, hchanged.self, rfl⟩
    · exact ⟨x, (hchanged.others n hk).trans hx, rfl⟩

theorem Deed.desk (hd : Deed s frames s') (hf : s.Filed) (hx : s.exchanges.get? n = some x) :
    ∃ y, s'.exchanges.get? n = some y ∧ y.desk = x.desk := by
  induction hd generalizing x with
  | calm hstill _ => exact ⟨x, hstill.keeps.exchanges ▸ hx, rfl⟩
  | place s correlation topic terms callbacks =>
    have hne : n ≠ s.nextExchange := Nat.ne_of_lt (hf.lt_of_get? hx)
    exact ⟨x, (Table.get?_put_ne _ hne _).trans hx, rfl⟩
  | name _ _ _ => exact ⟨x, hx, rfl⟩
  | listen _ => exact (listen_meets _ _).desk hx
  | @register s k _ =>
    rw [(s.register_keeps k).exchanges]
    exact ⟨x, hx, rfl⟩
  | @unregister s k _ =>
    rw [(s.unregister_keeps k).exchanges]
    exact ⟨x, hx, rfl⟩
  | wait s k => exact (s.wait_meets k).desk hx
  | handle s k m => exact (s.handle_meets k m).desk hx
  | abort s k why => exact (s.abort_meets k why).desk hx
  | fire _ => exact (fire_meets _ _ _).desk hx
  | converse s r m =>
    obtain ⟨y, -, ho⟩ := converse_opened hf.labelled r m
    exact ⟨x, (ho.others n (Nat.ne_of_lt (hf.lt_of_get? hx))).trans hx, rfl⟩
  | andThen hd hd' ih ih' =>
    obtain ⟨y, hy, hdesk⟩ := ih hf hx
    obtain ⟨z, hz, hdesk'⟩ := ih' (hd.files hf).filed hy
    exact ⟨z, hz, hdesk'.trans hdesk⟩
  | beneath _ _ ih => exact ih hf hx

theorem perform_desk (s : Session) (f : Frame) (hf : s.Filed)
    (hx : s.exchanges.get? n = some x) :
    ∃ y, (s.perform f).2.exchanges.get? n = some y ∧ y.desk = x.desk := by
  obtain ⟨k, e, rfl⟩ | ⟨k, e, rfl⟩ | ⟨-, hd⟩ := s.perform_cases f
  · refine ⟨x, ?_, rfl⟩
    simp only [perform]
    split
    · exact hx
    · rw [(s.unregister_keeps k).exchanges]
      exact hx
  · have hsame := s.resolve_get? k e n
    rw [hx] at hsame
    obtain ⟨y, hy, heq⟩ := Option.map_eq_some_iff.mp hsame
    exact ⟨y, hy, congrArg Prod.fst heq⟩
  · exact hd.desk hf hx

end Session

theorem Session.Spares.fails {n : Nat} {f : Frame} (h : Session.Spares n f) :
    f.fails n = false := by
  cases f with
  | report exchange callbacks r =>
    cases exchange with
    | none => cases r <;> rfl
    | some k =>
      have hk : k ≠ n := fun hk => h.2.2 callbacks r (by rw [hk])
      cases r <;> simp [Frame.fails, hk]
  | _ => rfl

namespace Machine

open Session (Deed Foreign Spares)

variable {start m : Machine} {f : Frame} {rest frames done : List Frame} {s s' : Session}
  {n : Nat} {x : Exchange}

/-- How a conversation stands to what is still to be torn down. -/
structure Poised (n : Nat) (m : Machine) : Prop where
  once : (m.agenda.flatMap Frame.targets).count n ≤ 1
  /-- What is looked into later is behind what was found before. -/
  ordered : m.agenda.Pairwise fun f g => f.sweeps = true → n ∉ g.targets
  standing : n ∈ m.agenda.flatMap Frame.targets → m.session.Standing n
  shared : ∀ desk topics why, .abortInboxes desk topics why ∈ m.agenda → desk = .shared
  underway : ∀ f ∈ m.agenda, f.aborts = true →
    m.session.ShuttingDown ∧ ∀ e, .close n e ∉ m.agenda

namespace Poised

theorem of_nothing (h : ∀ f ∈ m.agenda, f.aborts = false) : Poised n m := by
  have htargets : m.agenda.flatMap Frame.targets = [] :=
    List.flatMap_eq_nil_iff.mpr fun f hf => Frame.targets_of_not_aborts (h f hf)
  refine ⟨?_, ?_, ?_, fun desk topics why hf => ?_, fun f hf haborts => ?_⟩
  · rw [htargets]
    exact Nat.zero_le 1
  · refine List.pairwise_of_forall_mem_list fun f hf g hg hsweeps => ?_
    rw [Frame.sweeps_of_not_aborts (h f hf)] at hsweeps
    cases hsweeps
  · rw [htargets]
    exact fun hn => nomatch hn
  · cases h _ hf
  · rw [h f hf] at haborts
    cases haborts

theorem tail (h : Poised n { agenda := f :: rest, session := s }) :
    Poised n { agenda := rest, session := s } where
  once := by
    have honce := h.once
    rw [List.flatMap_cons, List.count_append] at honce
    show (rest.flatMap Frame.targets).count n ≤ 1
    omega
  ordered := (List.pairwise_cons.mp h.ordered).2
  standing := fun hn => h.standing (by
    rw [List.flatMap_cons]
    exact List.mem_append_right _ hn)
  shared := fun desk topics why hf => h.shared desk topics why (List.mem_cons_of_mem _ hf)
  underway := fun g hg haborts => by
    obtain ⟨hs, hclose⟩ := h.underway g (List.mem_cons_of_mem _ hg) haborts
    exact ⟨hs, fun e he => hclose e (List.mem_cons_of_mem _ he)⟩

/-- Something is done that tears nothing down, and the conversation stays open if it was. -/
theorem push (h : Poised n { agenda := rest, session := s })
    (hframes : ∀ f ∈ frames, f.aborts = false ∧ ∀ e, f ≠ .close n e)
    (hcontext : s'.context = s.context)
    (hstanding : n ∈ rest.flatMap Frame.targets → s.Standing n → s'.Standing n) :
    Poised n { agenda := frames ++ rest, session := s' } := by
  have htargets : (frames ++ rest).flatMap Frame.targets = rest.flatMap Frame.targets := by
    rw [List.flatMap_append, List.flatMap_eq_nil_iff.mpr fun f hf =>
      Frame.targets_of_not_aborts (hframes f hf).1, List.nil_append]
  have hold : ∀ f ∈ frames ++ rest, f.aborts = true → f ∈ rest := fun f hf haborts => by
    rcases List.mem_append.mp hf with hf | hf
    · rw [(hframes f hf).1] at haborts
      cases haborts
    · exact hf
  refine ⟨?_, ?_, fun hn => ?_, fun desk topics why hf => ?_, fun f hf haborts => ?_⟩
  · rw [htargets]
    exact h.once
  · refine List.pairwise_append.mpr ⟨?_, h.ordered, fun f hf g hg hsweeps => ?_⟩
    · refine List.pairwise_of_forall_mem_list fun f hf g hg hsweeps => ?_
      rw [Frame.sweeps_of_not_aborts (hframes f hf).1] at hsweeps
      cases hsweeps
    · rw [Frame.sweeps_of_not_aborts (hframes f hf).1] at hsweeps
      cases hsweeps
  · rw [htargets] at hn
    exact hstanding hn (h.standing hn)
  · exact h.shared desk topics why (hold _ hf rfl)
  · obtain ⟨⟨x, hx, hshut⟩, hclose⟩ := h.underway f (hold f hf haborts) haborts
    refine ⟨⟨x, hcontext.trans hx, hshut⟩, fun e he => ?_⟩
    rcases List.mem_append.mp he with he | he
    · exact (hframes _ he).2 e rfl
    · exact hclose e he

/-- The inboxes are going to be looked into, and nothing was found yet. -/
theorem sweep {topics : List String} {why : Failure} (hrest : ∀ f ∈ rest, f.aborts = false)
    (hs : s.ShuttingDown) (hclose : ∀ e, .close n e ∉ rest) :
    Poised n { agenda := .abortInboxes .shared topics why :: rest, session := s } := by
  have hnothing : Poised n { agenda := rest, session := s } := .of_nothing hrest
  refine ⟨hnothing.once, ?_, hnothing.standing, fun desk topics' why' hf => ?_,
    fun f hf haborts => ⟨hs, fun e he => ?_⟩⟩
  · refine List.pairwise_cons.mpr ⟨fun g hg _ => ?_, hnothing.ordered⟩
    rw [Frame.targets_of_not_aborts (hrest g hg)]
    exact List.not_mem_nil
  · rcases List.mem_cons.mp hf with hf | hf
    · cases hf
      rfl
    · cases hrest _ hf
  · rcases List.mem_cons.mp he with he | he
    · cases he
    · exact hclose e he

/-- A shutdown begins.  If there is one under way it does nothing. -/
theorem begin (h : Poised n { agenda := rest, session := s })
    (hclose : ∀ e, .close n e ∉ rest) :
    Poised n { agenda := s.shutdownContext.1 ++ rest, session := s.shutdownContext.2 } := by
  cases hx : s.context with
  | none =>
    simp only [Session.shutdownContext, hx]
    refine h.push (fun f hf => ?_) rfl fun _ => id
    rw [List.mem_singleton.mp hf]
    exact ⟨rfl, fun e he => by cases he⟩
  | some x =>
    cases hshut : x.shutDown with
    | true =>
      simp only [Session.shutdownContext, hx, hshut, if_true]
      exact h.push (List.forall_mem_nil _) rfl fun _ => id
    | false =>
      have hquiet : ∀ f ∈ rest, f.aborts = false := fun f hf => by
        by_contra haborts
        obtain ⟨⟨y, hy, hdone⟩, -⟩ := h.underway f hf (Bool.not_eq_false _ ▸ haborts)
        rw [show s.context = some y from hy, Option.some.injEq] at hx
        rw [hx, hshut] at hdone
        cases hdone
      have hlater : ∀ f ∈ Frame.stopTimers .shared :: .closeChannels :: rest,
          f.aborts = false ∧ ∀ e, f ≠ .close n e := fun f hf => by
        rcases List.mem_cons.mp hf with rfl | hf
        · exact ⟨rfl, fun e he => by cases he⟩
        · rcases List.mem_cons.mp hf with rfl | hf
          · exact ⟨rfl, fun e he => by cases he⟩
          · refine ⟨hquiet f hf, ?_⟩
            rintro e rfl
            exact hclose e hf
      simp only [Session.shutdownContext, hx, hshut, if_false, Bool.false_eq_true]
      refine .sweep (fun f hf => (hlater f hf).1) ⟨_, rfl, rfl⟩ fun e he => ?_
      exact (hlater _ he).2 e rfl

/-- The next inbox is looked into. -/
theorem look {desk : DeskName} {topic : String} {topics : List String} {why : Failure}
    (h : Poised n { agenda := .abortInboxes desk (topic :: topics) why :: rest, session := s })
    (ht : Tended { agenda := .abortInboxes desk (topic :: topics) why :: rest, session := s })
    (hb : s.InBalance) :
    Poised n { agenda := .abortAll (s.inbox desk topic).members.values why ::
      .abortInboxes desk topics why :: rest, session := s } := by
  have hdesk : desk = .shared := h.shared _ _ _ List.mem_cons_self
  subst hdesk
  obtain ⟨hs, hclose⟩ := h.underway _ List.mem_cons_self rfl
  have hrest : n ∉ rest.flatMap Frame.targets := fun hn => by
    obtain ⟨g, hg, hmem⟩ := List.mem_flatMap.mp hn
    exact (List.pairwise_cons.mp h.ordered).1 g hg rfl hmem
  have hkeys := (hb topic).keys
  have hone : (s.inbox .shared topic).members.values.count n ≤ 1 := by
    refine Table.count_values_le_one hkeys fun k l hk hl => ?_
    obtain ⟨x, hx, ha⟩ := ht.filed.entered (a := (topic, k)) hk
    have hb := ht.filed.address?_of_entry (a := (topic, l)) hl hx
    rw [ha, Option.some.injEq, Prod.mk.injEq] at hb
    exact hb.2
  have hstanding : n ∈ (s.inbox .shared topic).members.values → s.Standing n := fun hn => by
    obtain ⟨k, hk⟩ := Table.get?_of_mem_values hkeys hn
    obtain ⟨x, hx, -⟩ := ht.filed.entered (a := (topic, k)) hk
    refine ⟨x, hx, ?_⟩
    by_contra hended
    obtain ⟨e, he⟩ := ht.closes (a := (topic, k)) hk ⟨x, hx, Bool.not_eq_false _ ▸ hended⟩
    exact hclose e he
  refine ⟨?_, ?_, fun hn => ?_, fun d ts w hf => ?_, fun f hf haborts => ⟨hs, fun e he => ?_⟩⟩
  · show (_ ++ ([] ++ rest.flatMap Frame.targets)).count n ≤ 1
    rw [List.nil_append, List.count_append, List.count_eq_zero_of_not_mem hrest]
    exact hone
  · refine List.pairwise_cons.mpr ⟨fun g hg hsweeps => (nomatch hsweeps), ?_⟩
    exact List.pairwise_cons.mpr (List.pairwise_cons.mp h.ordered)
  · rw [List.flatMap_cons, List.flatMap_cons, List.mem_append, List.mem_append] at hn
    rcases hn with hn | hn | hn
    · exact hstanding hn
    · cases hn
    · exact absurd hn hrest
  · rcases List.mem_cons.mp hf with hf | hf
    · cases hf
    · rcases List.mem_cons.mp hf with hf | hf
      · cases hf
        rfl
      · exact h.shared d ts w (List.mem_cons_of_mem _ hf)
  · rcases List.mem_cons.mp he with he | he
    · cases he
    · rcases List.mem_cons.mp he with he | he
      · cases he
      · exact hclose e (List.mem_cons_of_mem _ he)

/-- One conversation less is to be torn down. -/
theorem next {k : Nat} {ks : List Nat} {why : Failure}
    (h : Poised n { agenda := .abortAll (k :: ks) why :: rest, session := s }) :
    Poised n { agenda := .abortAll ks why :: rest, session := s } ∧
      (k = n → n ∉ (Frame.abortAll ks why :: rest).flatMap Frame.targets) := by
  have htargets : (Frame.abortAll (k :: ks) why :: rest).flatMap Frame.targets =
      k :: (Frame.abortAll ks why :: rest).flatMap Frame.targets := rfl
  have honce := h.once
  have hstanding := h.standing
  simp only [htargets] at honce hstanding
  obtain ⟨hs, hclose⟩ := h.underway _ List.mem_cons_self rfl
  refine ⟨⟨?_, ?_, fun hn => ?_, fun d ts w hf => ?_, fun f hf haborts => ⟨hs, fun e he => ?_⟩⟩,
    ?_⟩
  · exact Nat.le_trans (List.count_le_count_cons ..) honce
  · refine List.pairwise_cons.mpr ⟨fun g hg hsweeps => (nomatch hsweeps), ?_⟩
    exact (List.pairwise_cons.mp h.ordered).2
  · exact hstanding (List.mem_cons_of_mem _ hn)
  · rcases List.mem_cons.mp hf with hf | hf
    · cases hf
    · exact h.shared d ts w (List.mem_cons_of_mem _ hf)
  · rcases List.mem_cons.mp he with he | he
    · cases he
    · exact hclose e (List.mem_cons_of_mem _ he)
  · rintro rfl hn
    rw [List.count_cons_self] at honce
    have hpos := List.count_pos_iff.mpr hn
    omega

theorem of_act (h : Poised n { agenda := rest, session := s }) (hf : s.Filed)
    (hn : s.Foreign n) (ha : Session.Act s frames s') :
    Poised n { agenda := frames ++ rest, session := s' } := by
  refine h.push (ha.closes_no_other hf hn) ha.context fun _ ⟨x, hx, hopen⟩ => ?_
  exact ⟨x, (ha.same hf hx (hn x hx)).1, hopen⟩

/-- The first frame is done. -/
theorem perform (h : Poised n { agenda := f :: rest, session := s })
    (ht : Tended { agenda := f :: rest, session := s }) (hb : s.InBalance) (hn : s.Foreign n)
    (hshuts : f.shutsDown = true → ∀ e, .close n e ∉ rest) :
    Poised n { agenda := (s.perform f).1 ++ rest, session := (s.perform f).2 } := by
  obtain ⟨scope, more, g, rfl⟩ | ⟨k, e, rfl⟩ | ⟨k, e, rfl⟩ | haborts | ha := s.perform_kinds f
  · have hpushed : Poised n { agenda := [.script scope more g] ++ rest, session := s } := by
      refine h.tail.push (fun f hf => ?_) rfl fun _ => id
      rw [List.mem_singleton.mp hf]
      exact ⟨rfl, fun e he => by cases he⟩
    have hbegun := hpushed.begin fun e he => by
      rcases List.mem_cons.mp he with he | he
      · cases he
      · exact hshuts rfl e he
    rw [← List.append_assoc] at hbegun
    exact hbegun
  · simp only [Session.perform]
    split
    · exact h.tail
    · refine h.tail.push (fun f hf => ?_) (s.unregister_context k) ?_
      · rcases List.mem_pair.mp hf with rfl | rfl
        · exact ⟨rfl, fun e he => by cases he⟩
        · exact ⟨rfl, fun e he => by cases he⟩
      · rintro - ⟨x, hx, hopen⟩
        exact ⟨x, by rw [(s.unregister_keeps k).exchanges]; exact hx, hopen⟩
  · exact h.tail.push (List.forall_mem_nil _) (s.resolve_context k e) fun _ hs =>
      hs.resolve k e
  · cases f with
    | abortInboxes desk topics why =>
      cases topics with
      | nil => exact h.tail
      | cons topic topics => exact h.look ht hb
    | abortAll ks why =>
      cases ks with
      | nil => exact h.tail
      | cons k ks =>
        obtain ⟨hnext, hlast⟩ := h.next
        rw [show (s.perform (.abortAll (k :: ks) why)).1 = (s.abort k why).1 ++
          [.abortAll ks why] from rfl, List.append_assoc]
        refine hnext.push (fun f hf => ?_) (s.abort_context k why) ?_
        · unfold Session.abort at hf
          split at hf
          · cases hf
          · rw [List.mem_singleton.mp hf]
            exact ⟨rfl, fun e he => by cases he⟩
        · rintro hmem ⟨x, hx, hopen⟩
          have hk : k ≠ n := fun hk => hlast hk hmem
          exact ⟨x, ((s.abort_meets k why).others hk).trans hx, hopen⟩
    | _ => cases haborts
  · exact h.tail.of_act ht.filed hn ha

/-- No conversation fails that has ended before. -/
theorem fails_none (h : Poised n { agenda := f :: rest, session := s }) (hf : s.Filed)
    (hn : s.Foreign n) (hover : s.Over n) :
    ∀ g ∈ (s.perform f).1, g.fails n = false := by
  obtain ⟨scope, more, g, rfl⟩ | ⟨k, e, rfl⟩ | ⟨k, e, rfl⟩ | haborts | ha := s.perform_kinds f
  · intro g' hg
    rcases List.mem_append.mp hg with hg | hg
    · exact Frame.fails_of_calm (s.shutdownContext_calm g' hg) n
    · rw [List.mem_singleton.mp hg]
      rfl
  · intro g hg
    simp only [Session.perform] at hg
    split at hg
    · cases hg
    · rcases List.mem_pair.mp hg with rfl | rfl <;> rfl
  · exact List.forall_mem_nil _
  · cases f with
    | abortInboxes desk topics why =>
      cases topics with
      | nil => exact List.forall_mem_nil _
      | cons topic topics =>
        intro g hg
        rcases List.mem_pair.mp hg with rfl | rfl <;> rfl
    | abortAll ks why =>
      cases ks with
      | nil => exact List.forall_mem_nil _
      | cons k ks =>
        have hk : k ≠ n := by
          rintro rfl
          exact (h.standing List.mem_cons_self).not_over hover
        intro g hg
        rcases List.mem_append.mp hg with hg | hg
        · exact ((s.abort_meets k why).spares hk g hg).fails
        · rw [List.mem_singleton.mp hg]
          rfl
    | _ => cases haborts
  · obtain ⟨x, hx, -⟩ := hover
    exact fun g hg => ((ha.same hf hx (hn x hx)).2 g hg).fails

end Poised
/-! ## Runs -/

/-- A run in which no shutdown begins while a conversation is to be closed.  Apart from a shutdown,
nothing that is done from outside tears the conversation down when it has ended. -/
inductive Heeds (n : Nat) (start : Machine) : Machine → List Frame → Prop where
  | refl : Heeds n start start []
  | perform {f : Frame} {rest : List Frame} {s : Session} {done : List Frame} :
      Heeds n start { agenda := f :: rest, session := s } done →
      (f.shutsDown = true → ∀ e, .close n e ∉ rest) →
      Heeds n start { agenda := (s.perform f).1 ++ rest, session := (s.perform f).2 }
        (done ++ [f])
  | outside {s s' : Session} {frames done : List Frame} :
      Heeds n start { agenda := [], session := s } done → Deed s frames s' →
      (∀ f ∈ frames, f.aborts = false ∧ (f.fails n = true → ¬s.Over n)) →
      Heeds n start { agenda := frames, session := s' } done
  | shutdown {s : Session} {done : List Frame} :
      Heeds n start { agenda := [], session := s } done →
      Heeds n start { agenda := s.shutdownContext.1, session := s.shutdownContext.2 } done

namespace Heeds

theorem leads (h : Heeds n start m done) : start.Leads m done := by
  induction h with
  | refl => exact .refl
  | perform _ _ ih => exact ih.perform
  | outside _ hd _ ih => exact ih.outside hd.move
  | shutdown _ ih => exact ih.outside (Session.shutdownContext_deed _).move

theorem reaches (h : Heeds n start m done) : start.Reaches m := by
  induction h with
  | refl => exact .refl
  | perform _ _ ih => exact ih.perform
  | outside _ hd _ ih => exact ih.outside hd
  | shutdown _ ih => exact ih.outside (Session.shutdownContext_deed _)

theorem trans {m' : Machine} {later : List Frame} (h : Heeds n start m done)
    (h' : Heeds n m m' later) : Heeds n start m' (done ++ later) := by
  induction h' with
  | refl =>
    rw [List.append_nil]
    exact h
  | perform _ hshuts ih =>
    rw [← List.append_assoc]
    exact ih.perform hshuts
  | outside _ hd hframes ih => exact ih.outside hd hframes
  | shutdown _ ih => exact ih.shutdown

/-- All through such a run, a conversation of the context that has ended is not torn down. -/
theorem poised (h : Heeds n { agenda := [], session := s } m done) (hs : s.Blank)
    (hn : m.session.Foreign n) : Poised n m ∧ Failed n m done := by
  induction h with
  | refl =>
    refine ⟨.of_nothing fun f hf => (nomatch hf), Or.inl (List.forall_mem_nil _)⟩
  | @perform f rest t done h hshuts ih =>
    have ht := h.reaches.tended (.of_blank hs)
    have hb := h.reaches.in_balance hs
    have hk : Kept { agenda := f :: rest, session := t } done := h.leads.kept (.start hs.exchanges)
    have hforeign : t.Foreign n := fun x hx => by
      obtain ⟨y, hy, hdesk⟩ := t.perform_desk f ht.filed hx
      exact hdesk.symm.trans (hn y hy)
    obtain ⟨hpoised, hfailed⟩ := ih hforeign
    refine ⟨hpoised.perform ht hb hforeign hshuts, hfailed.perform hk ?_⟩
    exact hpoised.fails_none ht.filed hforeign
  | @outside t t' frames done h hd hframes ih =>
    have ht := h.reaches.tended (.of_blank hs)
    have hk : Kept { agenda := [], session := t } done := h.leads.kept (.start hs.exchanges)
    have hforeign : t.Foreign n := fun x hx => by
      obtain ⟨y, hy, hdesk⟩ := hd.desk ht.filed hx
      exact hdesk.symm.trans (hn y hy)
    refine ⟨.of_nothing fun f hf => (hframes f hf).1,
      (ih hforeign).2.outside hk hd.move fun hover f hf => ?_⟩
    rw [← Bool.not_eq_true]
    exact fun hfails => (hframes f hf).2 hfails hover
  | @shutdown t done h ih =>
    have ht := h.reaches.tended (.of_blank hs)
    have hk : Kept { agenda := [], session := t } done := h.leads.kept (.start hs.exchanges)
    have hd := t.shutdownContext_deed
    have hforeign : t.Foreign n := fun x hx => by
      obtain ⟨y, hy, hdesk⟩ := hd.desk ht.filed hx
      exact hdesk.symm.trans (hn y hy)
    obtain ⟨hpoised, hfailed⟩ := ih hforeign
    refine ⟨?_, hfailed.outside hk hd.move fun _ f hf =>
      Frame.fails_of_calm (t.shutdownContext_calm f hf) n⟩
    have hbegun := hpoised.begin fun e he => nomatch he
    rwa [List.append_nil] at hbegun

/-- In every run in which no shutdown begins while a conversation of the context is to be closed,
its callbacks are told one last word at most, its end or a failure; and if it is a failure, whoever
waits for the end learns that the conversation was aborted. -/
theorem one_last_word (h : Heeds n { agenda := [], session := s } m done) (hs : s.Blank)
    (hx : m.session.exchanges.get? n = some x) (hshared : x.desk = .shared) :
    (done.filterMap (Frame.called? n)).countP Report.isLast ≤ 1 ∧
      ∀ why, .failed why ∈ done.filterMap (Frame.called? n) →
        m.session.status (.conversation n) =
          .failed (.conversationAborted x.conversation.correlation) := by
  have hforeign : m.session.Foreign n := fun y hy => by
    rw [hx] at hy
    cases hy
    exact hshared
  have hk : m.Kept done := h.leads.kept (.start hs.exchanges)
  obtain ⟨hone, hdropped⟩ := (h.poised hs hforeign).2.last_word hk hx
  refine ⟨hone, fun why hfailed => ?_⟩
  obtain ⟨y, hy, -, hcompletion⟩ := hdropped why hfailed
  rw [hx] at hy
  cases hy
  simp only [Session.status, Session.awaited, Session.correlationOf, hx, hcompletion,
    Option.map_some, Option.getD_some]

end Heeds

/-! ### A shutdown within a callback -/

/-- Whether no step of a run begins a shutdown while a conversation is to be closed. -/
def heedful (n : Nat) : Nat → Machine → Bool
  | 0, _ => true
  | k + 1, m =>
    match m.agenda with
    | [] => m.session.turn?.isNone
    | f :: rest =>
      (!f.shutsDown || !rest.any (Frame.closes n)) &&
        heedful n k
          { agenda := (m.session.perform f).1 ++ rest, session := (m.session.perform f).2 }

theorem heeds_run {k : Nat} (h : heedful n k m = true) : Heeds n m (m.run k) (m.performed k) := by
  induction k generalizing m with
  | zero => exact .refl
  | succ k ih =>
    obtain ⟨agenda, s⟩ := m
    cases agenda with
    | nil =>
      have hrest : s.turn? = none := Option.isNone_iff_eq_none.mp h
      have hstep : step? { agenda := [], session := s } = none := by
        simp only [step?, hrest, Option.map_none]
      unfold run performed
      rw [hstep]
      exact .refl
    | cons f rest =>
      obtain ⟨hf, hk⟩ := Bool.and_eq_true_iff.mp h
      refine (Heeds.refl.perform fun hshuts e he => ?_ : Heeds n _ _ ([] ++ [f])).trans (ih hk)
      rw [hshuts] at hf
      have hany := List.any_eq_false.mp (Bool.not_eq_true' _ ▸ hf) _ he
      exact hany (decide_eq_true rfl)

/-- A requester that shuts the context down as soon as something comes. -/
def leaving : Requester :=
  { joining with callbacks := {
    owner := .requester "leaving"
    acknowledged := some [.shutdown]
    answered := some [.shutdown]
    ended := some []
    failed := some [] } }

def beforeLeaving : Session := (contextSession.publish leaving (.bool true)).2.2

/-- A message comes to the conversation of the requester. -/
def arriving (m : Message) : Machine :=
  let r := beforeLeaving.arrive .shared "clerk:questions:response:i" 0 m
  { agenda := r.1, session := r.2 }

def word : Message :=
  { nestedMessage "word" with payload := none, ack := some { responderId := "clerk" } }

theorem heeds_arriving {m : Message}
    (h : (arriving m).agenda.all (fun f => !f.aborts && !f.fails 0) = true) :
    Heeds 0 { agenda := [], session := contextSession } (arriving m) [] := by
  have hframes : (contextSession.publish leaving (.bool true)).2.1 = [] :=
    List.length_eq_zero_iff.mp (by decide +kernel)
  have hd := contextSession.publish_deed leaving (.bool true)
  rw [hframes] at hd
  have hasked : Heeds 0 { agenda := [], session := contextSession }
      { agenda := [], session := beforeLeaving } [] :=
    Heeds.refl.outside hd (List.forall_mem_nil _)
  refine hasked.outside (beforeLeaving.arrive_deed .shared _ 0 m) fun f hf => ?_
  obtain ⟨haborts, hfails⟩ := Bool.and_eq_true_iff.mp (List.all_eq_true.mp h f hf)
  refine ⟨Bool.not_eq_true' _ ▸ haborts, fun hf => ?_⟩
  rw [hf] at hfails
  cases hfails

/-- The context is shut down within the callback for an acknowledgement: the conversation is open,
so it fails. -/
theorem one_last_word_when_leaving :
    ∃ x done, Heeds 0 { agenda := [], session := contextSession } ((arriving word).run 30) done ∧
      (contextSession.publish leaving (.bool true)).1.toOption = some (some 0) ∧
      ((arriving word).run 30).session.exchanges.get? 0 = some x ∧ x.desk = .shared ∧
      (done.filterMap (Frame.called? 0)).map Report.callback = ["acknowledge", "error"] ∧
      (done.filterMap (Frame.called? 0)).countP Report.isLast ≤ 1 ∧
      ((arriving word).run 30).session.status (.conversation 0) =
        .failed (.conversationAborted x.conversation.correlation) := by
  have hrun := (heeds_arriving (m := word) (by decide +kernel)).trans
    (heeds_run (k := 30) (by decide +kernel))
  have hdesk : (((arriving word).run 30).session.exchanges.get? 0).map Exchange.desk =
      some .shared := by decide +kernel
  obtain ⟨x, hx, hshared⟩ := Option.map_eq_some_iff.mp hdesk
  have hcalls : ((([] ++ (arriving word).performed 30).filterMap (Frame.called? 0)).map
      Report.callback) = ["acknowledge", "error"] := by decide +kernel
  obtain ⟨hone, haborted⟩ := hrun.one_last_word contextSession_blank hx hshared
  refine ⟨x, _, hrun, by decide +kernel, hx, hshared, hcalls, hone, ?_⟩
  have hmem : "error" ∈ ((([] ++ (arriving word).performed 30).filterMap
      (Frame.called? 0)).map Report.callback) := by
    rw [hcalls]
    decide
  obtain ⟨r, hr, herror⟩ := List.mem_map.mp hmem
  obtain ⟨why, rfl⟩ : ∃ why, r = .failed why := by
    cases r <;> simp [Report.callback] at herror ⊢
  exact haborted why hr

/-- It is shut down within the callback for the last answer: the conversation fails, and then it
tells its end. -/
theorem two_last_words :
    ∃ x e, Leads { agenda := [], session := contextSession }
        ((arriving (nestedMessage "answer")).run 30)
        ((arriving (nestedMessage "answer")).performed 30) ∧
      (contextSession.publish leaving (.bool true)).1.toOption = some (some 0) ∧
      ((arriving (nestedMessage "answer")).run 30).agenda = [] ∧
      ((arriving (nestedMessage "answer")).run 30).session.exchanges.get? 0 = some x ∧
      x.desk = .shared ∧
      (((arriving (nestedMessage "answer")).performed 30).filterMap (Frame.called? 0)).map
        Report.callback = ["response", "error", "end"] ∧
      ((arriving (nestedMessage "answer")).run 30).session.status (.conversation 0) = .ended e := by
  have htold := (heeds_arriving (m := nestedMessage "answer") (by decide +kernel)).leads
  have hrun := htold.trans (leads_run 30 _)
  have hdesk : (((arriving (nestedMessage "answer")).run 30).session.exchanges.get? 0).map
      Exchange.desk = some .shared := by decide +kernel
  obtain ⟨x, hx, hshared⟩ := Option.map_eq_some_iff.mp hdesk
  have hended : (match ((arriving (nestedMessage "answer")).run 30).session.status
      (.conversation 0) with | .ended _ => true | _ => false) = true := by decide +kernel
  split at hended
  · rename_i e he
    exact ⟨x, e, hrun, by decide +kernel, List.length_eq_zero_iff.mp (by decide +kernel), hx,
      hshared, by decide +kernel, he⟩
  · cases hended

end Machine
end Colloquy
