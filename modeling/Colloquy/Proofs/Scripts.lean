/-
What a script leaves alone.

A script gets at the conversations of the application by name, and a request in it opens a new
one.  Every other conversation of the messaging context stays as it is while scripts run: none of
them ends, fails or is closed by what a script does.  Only a shutdown is different, and it comes
once: what it sets is never taken back.
-/
import Colloquy.Proofs.Filing

namespace Colloquy

namespace Session

variable {s s' : Session} {n k : Nat} {x : Exchange} {frames : List Frame}

/-! ## The context -/

theorem setDesk_context (s : Session) (d : Desk) (name : DeskName) :
    (s.setDesk d name).context = s.context := by
  cases name <;> rfl

theorem putWatch_context (s : Session) (n : Nat) (name : DeskName) (w : Watch) :
    (s.putWatch n name w).context = s.context :=
  (s.setConversation n w.conversation).setDesk_context _ name

theorem register_context (s : Session) (n : Nat) : (s.register n).2.context = s.context := by
  unfold register
  split
  · rfl
  · exact s.setDesk_context _ _

theorem unregister_context (s : Session) (n : Nat) : (s.unregister n).context = s.context := by
  unfold unregister
  split
  · rfl
  · exact s.setDesk_context _ _

theorem listen_context (s : Session) (n : Nat) : (s.listen n).2.context = s.context := by
  unfold listen
  split
  · rfl
  · rename_i x hx
    have hregister := (s.setConversation n x.conversation.listen).register_context n
    simp only
    split
    · rename_i hr
      rw [hr] at hregister
      exact hregister
    · rename_i hr
      rw [hr] at hregister
      exact hregister

theorem handle_context (s : Session) (n : Nat) (m : Message) :
    (s.handle n m).2.context = s.context := by
  unfold handle
  split
  · rfl
  · split
    · rfl
    · exact s.putWatch_context _ _ _

theorem abort_context (s : Session) (n : Nat) (why : Failure) :
    (s.abort n why).2.context = s.context := by
  unfold abort
  split
  · rfl
  · simp only
    split
    · rfl
    · exact (unregister_context _ _).trans (s.putWatch_context _ _ _)

theorem wait_context (s : Session) (n : Nat) : (s.wait n).context = s.context := by
  unfold wait
  split
  · rfl
  · exact s.putWatch_context _ _ _

theorem resolve_context (s : Session) (n : Nat) (e : Ending) :
    (s.resolve n e).context = s.context := by
  unfold resolve
  split
  · rfl
  · split <;> rfl

theorem converse_context (s : Session) (r : Requester) (m : Message) :
    (s.converse r m).2.2.context = s.context := by
  have hplace : (s.place .shared m.correlation (s.origin.responseTopic r.namesp)
      (s.terms r.options) r.callbacks).2.context = s.context := rfl
  have hlisten := (listen_context _ s.nextExchange).trans hplace
  unfold converse
  simp only
  split
  · rename_i hl
    rw [show (s.place ..).2.listen s.nextExchange = _ from hl] at hlisten
    exact hlisten
  · rename_i t hl
    rw [show (s.place ..).2.listen s.nextExchange = _ from hl] at hlisten
    split
    · exact (abort_context _ _ _).trans hlisten
    · exact (wait_context _ _).trans hlisten

theorem Act.context (h : Act s frames s') : s'.context = s.context := by
  induction h with
  | calm _ hc _ => exact hc
  | listen _ => exact listen_context _ _
  | handle m _ => exact handle_context _ _ m
  | abort why _ => exact abort_context _ _ why
  | converse s r m => exact s.converse_context r m
  | after _ hc _ ih => exact ih.trans hc
  | beneath _ _ ih => exact ih

/-! ## Other conversations -/

/-- A conversation that is not one of the application. -/
def Foreign (s : Session) (n : Nat) : Prop := ∀ x, s.exchanges.get? n = some x → x.desk = .shared

theorem Foreign.ne_of_named (h : s.Foreign n) (hf : s.Filed) (hk : k ∈ s.conversations.values) :
    k ≠ n := by
  rintro rfl
  obtain ⟨x, hx, hown⟩ := hf.named k hk
  rw [h x hx] at hown
  cases hown

theorem Meets.others (h : Meets s k frames s') (hk : k ≠ n) :
    s'.exchanges.get? n = s.exchanges.get? n := by
  cases h with
  | absent _ hkeeps => rw [hkeeps.exchanges]
  | present _ _ _ _ hchanged => exact hchanged.others n hk.symm

/-- Whether a frame is none that tears down, and not about one conversation. -/
def Spares (n : Nat) (f : Frame) : Prop :=
  f.aborts = false ∧ (∀ e, f ≠ .close n e) ∧ ∀ callbacks r, f ≠ .report (some n) callbacks r

theorem spares_of_calm {f : Frame} (hcalm : f.calm = true) (haborts : f.aborts = false) :
    Spares n f := by
  refine ⟨haborts, ?_, ?_⟩
  · rintro e rfl
    cases hcalm
  · rintro callbacks r rfl
    cases hcalm

theorem Meets.spares (h : Meets s k frames s') (hk : k ≠ n) : ∀ f ∈ frames, Spares n f := by
  intro f hf
  cases h with
  | absent _ _ => cases hf
  | @present _ x w v end? o _ _ _ _ =>
    rcases List.mem_append.mp hf with hf | hf
    · obtain ⟨r, -, rfl⟩ := List.mem_map.mp hf
      refine ⟨rfl, fun e h => (nomatch h), ?_⟩
      rintro callbacks r' h
      cases h
      exact hk rfl
    · cases end? with
      | none => cases hf
      | some e =>
        rw [List.mem_singleton.mp hf]
        refine ⟨rfl, ?_, fun _ _ h => nomatch h⟩
        rintro e' h
        cases h
        exact hk rfl

/-- When a conversation is opened, nothing follows but reports, and none about another one. -/
theorem converse_frames (s : Session) (r : Requester) (m : Message) :
    ∀ f ∈ (s.converse r m).2.1, ∃ exchange callbacks report,
      f = .report exchange callbacks report ∧
        (exchange = none ∨ exchange = some s.nextExchange) := by
  unfold converse
  simp only
  split
  · intro f hf
    rw [List.mem_singleton.mp hf]
    exact ⟨none, _, _, rfl, Or.inl rfl⟩
  · split
    · intro f hf
      unfold abort at hf
      split at hf
      · cases hf
      · rw [List.mem_singleton.mp hf]
        exact ⟨_, _, _, rfl, Or.inr rfl⟩
    · exact List.forall_mem_nil _

theorem converse_spares (s : Session) (r : Requester) (m : Message) (hn : n ≠ s.nextExchange) :
    ∀ f ∈ (s.converse r m).2.1, Spares n f := by
  intro f hf
  obtain ⟨exchange, callbacks, report, rfl, hexchange⟩ := s.converse_frames r m f hf
  refine ⟨rfl, fun e h => (nomatch h), ?_⟩
  rintro callbacks' r' h
  cases h
  rcases hexchange with h | h
  · cases h
  · exact hn (Option.some.inj h)

/-- A script tears nothing down, and closes no conversation that is not the application's own. -/
theorem Act.closes_no_other (h : Act s frames s') (hf : s.Filed) (hn : s.Foreign n) :
    ∀ f ∈ frames, f.aborts = false ∧ ∀ e, f ≠ .close n e := by
  have hspares : ∀ {fs : List Frame}, (∀ f ∈ fs, Spares n f) →
      ∀ f ∈ fs, f.aborts = false ∧ ∀ e, f ≠ .close n e :=
    fun hs f hf => ⟨(hs f hf).1, (hs f hf).2.1⟩
  induction h with
  | calm _ _ hcalm =>
    exact hspares fun f hmem => spares_of_calm (hcalm f hmem).1 (hcalm f hmem).2
  | listen _ => exact List.forall_mem_nil _
  | @handle s k m hk => exact hspares ((s.handle_meets k m).spares (hn.ne_of_named hf hk))
  | @abort s k why hk => exact hspares ((s.abort_meets k why).spares (hn.ne_of_named hf hk))
  | converse s r m =>
    intro f hmem
    obtain ⟨exchange, callbacks, report, rfl, -⟩ := s.converse_frames r m f hmem
    exact ⟨rfl, fun e h => nomatch h⟩
  | after hstill _ _ ih =>
    have ha := hstill.aside
    refine ih (hf.of_same hstill.keeps ha.conversations ha.inboxes) fun x hx => ?_
    exact hn x (hstill.keeps.exchanges ▸ hx)
  | beneath _ hcalm ih =>
    intro f hmem
    rcases List.mem_append.mp hmem with hmem | hmem
    · exact ih hf hn f hmem
    · have hs : Spares n f := spares_of_calm (hcalm f hmem).1 (hcalm f hmem).2
      exact ⟨hs.1, hs.2.1⟩

/-- A script leaves a conversation of the context as it is, and tells it nothing. -/
theorem Act.same (h : Act s frames s') (hf : s.Filed) (hx : s.exchanges.get? n = some x)
    (hshared : x.desk = .shared) :
    s'.exchanges.get? n = some x ∧ ∀ f ∈ frames, Spares n f := by
  have hforeign : ∀ {t : Session}, t.exchanges.get? n = some x → t.Foreign n := fun ht y hy => by
    rw [ht] at hy
    cases hy
    exact hshared
  induction h with
  | calm hstill _ hcalm =>
    rw [hstill.keeps.exchanges]
    exact ⟨hx, fun f hmem => spares_of_calm (hcalm f hmem).1 (hcalm f hmem).2⟩
  | @listen s k hk =>
    have hmeets := s.listen_meets k
    have hne := (hforeign hx).ne_of_named hf hk
    exact ⟨(hmeets.others hne).trans hx, hmeets.spares hne⟩
  | @handle s k m hk =>
    have hmeets := s.handle_meets k m
    have hne := (hforeign hx).ne_of_named hf hk
    exact ⟨(hmeets.others hne).trans hx, hmeets.spares hne⟩
  | @abort s k why hk =>
    have hmeets := s.abort_meets k why
    have hne := (hforeign hx).ne_of_named hf hk
    exact ⟨(hmeets.others hne).trans hx, hmeets.spares hne⟩
  | converse s r m =>
    obtain ⟨y, -, ho⟩ := converse_opened hf.labelled r m
    have hne : n ≠ s.nextExchange := Nat.ne_of_lt (hf.lt_of_get? hx)
    exact ⟨(ho.others n hne).trans hx, s.converse_spares r m hne⟩
  | after hstill _ _ ih =>
    have ha := hstill.aside
    refine ih (hf.of_same hstill.keeps ha.conversations ha.inboxes) ?_
    rw [hstill.keeps.exchanges]
    exact hx
  | beneath _ hcalm ih =>
    obtain ⟨hsame, hspares⟩ := ih hf hx
    refine ⟨hsame, fun f hmem => ?_⟩
    rcases List.mem_append.mp hmem with hmem | hmem
    · exact hspares f hmem
    · exact spares_of_calm (hcalm f hmem).1 (hcalm f hmem).2

/-- A frame begins a shutdown, brings an end, tears conversations down, or does what a script
does. -/
theorem perform_kinds (s : Session) (f : Frame) :
    (∃ scope more g, f = .script scope (.shutdown :: more) g) ∨ (∃ k e, f = .close k e) ∨
      (∃ k e, f = .resolve k e) ∨ f.aborts = true ∨ Act s (s.perform f).1 (s.perform f).2 := by
  by_cases haborts : f.aborts = true
  · exact Or.inr (Or.inr (Or.inr (Or.inl haborts)))
  have hother : f.aborts = false := Bool.eq_false_iff.mpr haborts
  cases f with
  | close k e => exact Or.inr (Or.inl ⟨k, e, rfl⟩)
  | resolve k e => exact Or.inr (Or.inr (Or.inl ⟨k, e, rfl⟩))
  | report exchange callbacks r =>
    exact Or.inr (Or.inr (Or.inr (Or.inr (s.call_act callbacks r))))
  | script scope todo g =>
    by_cases hshuts : (Frame.script scope todo g).shutsDown = true
    · refine Or.inl ⟨scope, todo.tail, g, ?_⟩
      unfold Frame.shutsDown at hshuts
      split at hshuts
      · rename_i heq
        cases heq
        rfl
      · cases hshuts
    · have hadvance := s.advance_act (Bool.eq_false_iff.mpr hshuts)
      exact Or.inr (Or.inr (Or.inr (Or.inr hadvance)))
  | _ => exact Or.inr (Or.inr (Or.inr (Or.inr (s.perform_act rfl hother rfl))))

end Session
end Colloquy
