/-
What deeds make of the entries.

The deeds that touch entries are few.  A request that opens a conversation enters it, and the end
strikes it out.  The application gets at conversations by name, but the named ones are not those
of the context.  `Files` says what comes of it: the entries stay in order, only new conversations
are entered, and one that ends while it is entered is to be closed.
-/
import Colloquy.Proofs.Deeds
import Colloquy.Proofs.Entries

namespace Colloquy

open Conversation (Later)

namespace Session

variable {s s' : Session} {n k : Nat} {a b : String × String} {x : Exchange}

/-! ## Conversations that go on -/

theorem setConversation_aside (s : Session) (n : Nat) (c : Conversation) :
    s.Aside (s.setConversation n c) :=
  ⟨rfl, rfl, .of_channels (.refl _) rfl rfl⟩

theorem putWatch_aside (s : Session) (n : Nat) (name : DeskName) {w : Watch}
    (h : (s.desk name).timers.Onward w.timers) : s.Aside (s.putWatch n name w) :=
  ((s.setConversation_aside n w.conversation).trans (setTimers_aside _ name h)).trans
    (record_still _ _).aside

theorem handle_aside (s : Session) (n : Nat) (m : Message) : s.Aside (s.handle n m).2 := by
  unfold handle
  split
  · exact .refl s
  · rename_i x hx
    split
    · exact .refl s
    · rename_i hr
      exact s.putWatch_aside n x.desk (Watch.receive_used (w := s.watch x) hr .unused).onward

theorem wait_aside (s : Session) (n : Nat) : s.Aside (s.wait n) := by
  unfold wait
  split
  · exact .refl s
  · exact s.putWatch_aside n _ (Watch.wait_used (w := s.watch _) .unused s.clock).onward

theorem resolve_aside (s : Session) (n : Nat) (e : Ending) : s.Aside (s.resolve n e) := by
  unfold resolve
  split
  · exact .refl s
  · split
    · exact s.setConversation_aside n _
    · exact .refl s

theorem putWatch_timers (s : Session) (n : Nat) (name : DeskName) (w : Watch) :
    ((s.putWatch n name w).desk name).timers = w.timers := by
  cases name <;> rfl

theorem putWatch_others (s : Session) (n : Nat) {name other : DeskName} (w : Watch)
    (h : other ≠ name) : ((s.putWatch n name w).desk other).timers = (s.desk other).timers := by
  cases name <;> cases other <;> first | rfl | exact absurd rfl h

theorem setTimers_others (s : Session) {name other : DeskName} (t : Timers) (h : other ≠ name) :
    ((s.setTimers name t).desk other).timers = (s.desk other).timers := by
  cases name <;> cases other <;> first | rfl | exact absurd rfl h

/-- On a desk with a pending timer, the timers are not stopped. -/
theorem Onward.of_pending {name : DeskName} (hc : s.channels.Onward s'.channels)
    (hpending : (s.desk name).timers.pending ≠ [])
    (hself : s.Tidy → (s'.desk name).timers.Tidy)
    (hothers : ∀ other, other ≠ name → (s'.desk other).timers = (s.desk other).timers) :
    s.Onward s' where
  tidy := fun hs => ⟨hc.tidy hs.channels, fun other => by
    by_cases ho : other = name
    · rw [ho]
      exact hself hs
    · rw [hothers other ho]
      exact hs.timers other⟩
  shutDown := hc.shutDown
  stopped := fun hs hstop => by
    by_cases ho : .shared = name
    · exact absurd (hs.timers name (ho ▸ hstop)) hpending
    · rw [show s'.shared.timers = s.shared.timers from hothers .shared ho]
      exact hstop

/-- A pending timer fires. -/
theorem fire_aside (s : Session) {name : DeskName} {t : Timer}
    (ht : t ∈ (s.desk name).timers.pending) : s.Aside (s.fire name t).2 := by
  have hcancel := s.setTimers_aside name ((s.desk name).timers.cancel_onward t.id)
  have hput : ∀ (x : Exchange) (w : Watch),
      ((s.setTimers name ((s.desk name).timers.cancel t.id)).watch x).timers.Onward w.timers →
      s.Aside ((s.setTimers name ((s.desk name).timers.cancel t.id)).putWatch t.owner name w) := by
    intro x w hw
    refine ⟨by cases name <;> rfl, by cases name <;> rfl,
      .of_pending (by cases name <;> exact .of_same rfl rfl) (List.ne_nil_of_mem ht)
        (fun hs => ?_) fun other ho => ?_⟩
    · rw [putWatch_timers]
      exact hw.tidy ((hcancel.onward.tidy hs).timers x.desk)
    · rw [putWatch_others _ _ _ ho, setTimers_others _ _ ho]
  unfold fire
  simp only
  split
  · exact hcancel
  · split
    · exact hcancel
    · split
      · split
        · exact hcancel
        · rename_i hr
          exact hput _ _ (Watch.onResponseTimer_used t.owner hr .unused).onward
      · split
        · exact hcancel
        · rename_i hr
          exact hput _ _ (Watch.onAckTimer_used t.owner hr .unused).onward

/-! ## What deeds make of the entries -/

/-- A conversation that is there and has ended. -/
def Over (s : Session) (n : Nat) : Prop :=
  ∃ x, s.exchanges.get? n = some x ∧ x.conversation.ended = true

/-- The entries stay in order.  Only conversations that are new are entered, and one that ends
while it is entered is to be closed. -/
structure Files (s : Session) (frames : List Frame) (s' : Session) : Prop where
  filed : s'.Filed
  grows : s.nextExchange ≤ s'.nextExchange
  entries : ∀ {a n}, s'.entry a = some n → s.entry a = some n ∨ s.nextExchange ≤ n
  closes : ∀ {a n}, s'.entry a = some n → s'.Over n →
    (∃ e, .close n e ∈ frames) ∨ s.entry a = some n ∧ s.Over n

namespace Files

variable {s'' : Session} {frames more : List Frame}

theorem of_same (h : s.Filed) (hk : s.Keeps s') (hn : s'.conversations = s.conversations)
    (hi : s'.shared.inboxes = s.shared.inboxes) : Files s frames s' where
  filed := h.of_same hk hn hi
  grows := Nat.le_of_eq hk.nextExchange.symm
  entries := fun he => Or.inl (entry_congr hi ▸ he)
  closes := fun he ⟨x, hx, hended⟩ =>
    Or.inr ⟨entry_congr hi ▸ he, x, hk.exchanges ▸ hx, hended⟩

theorem andThen (h : Files s [] s') (h' : Files s' frames s'') : Files s frames s'' where
  filed := h'.filed
  grows := Nat.le_trans h.grows h'.grows
  entries := fun he => by
    rcases h'.entries he with he' | hn
    · exact h.entries he'
    · exact Or.inr (Nat.le_trans h.grows hn)
  closes := fun he ho => by
    rcases h'.closes he ho with hclose | ⟨he', ho'⟩
    · exact Or.inl hclose
    · rcases h.closes he' ho' with ⟨e, hmem⟩ | hold
      · cases hmem
      · exact Or.inr hold

theorem beneath (h : Files s frames s') : Files s (frames ++ more) s' :=
  ⟨h.filed, h.grows, h.entries, fun he ho =>
    (h.closes he ho).imp_left fun ⟨e, hmem⟩ => ⟨e, List.mem_append_left _ hmem⟩⟩

/-- Something happens to one conversation.  If it ends while it is entered, it is to be
closed. -/
theorem met (h : s.Filed) (hm : Meets s n frames s') (hn : s'.conversations = s.conversations)
    (hi : s'.shared.inboxes = s.shared.inboxes)
    (hends : ∀ a, s.entry a = some n → s'.Over n → (∃ e, .close n e ∈ frames) ∨ s.Over n) :
    Files s frames s' := by
  cases hm with
  | absent hx hkeeps => exact .of_same h hkeeps hn hi
  | @present _ x w v end? o hx hw hmeet hc =>
    have hl : Later x.conversation v.conversation := by
      have := w.meet_later n o
      rw [hmeet, hw] at this
      exact this
    refine ⟨h.changed hx hl hc hn hi, Nat.le_of_eq hc.nextExchange.symm,
      fun he => Or.inl (entry_congr hi ▸ he), fun {a k} he ho => ?_⟩
    rw [entry_congr hi] at he
    by_cases hk : k = n
    · subst hk
      exact (hends a he ho).imp_right fun ho => ⟨he, ho⟩
    · obtain ⟨y, hy, hended⟩ := ho
      exact Or.inr ⟨he, y, (hc.others k hk).symm.trans hy, hended⟩

/-- Something happens to a conversation that is not one of the context. -/
theorem met_own (h : s.Filed) (hown : ∃ x, s.exchanges.get? n = some x ∧ x.desk = .own)
    (hm : Meets s n frames s') (hn : s'.conversations = s.conversations)
    (hi : s'.shared.inboxes = s.shared.inboxes) : Files s frames s' :=
  .met h hm hn hi fun a he _ => by
    obtain ⟨x, hx, hd⟩ := hown
    have ha := h.address?_of_entry he hx
    rw [Exchange.address?, hd] at ha
    cases ha

theorem opened (h : s.Filed) (ho : s.Opened x (s.entered x) s') : Files s frames s' := by
  refine ⟨h.opened ho, by rw [ho.nextExchange]; omega, fun {a k} he => ?_, fun {a k} he hover => ?_⟩
  · obtain ⟨rfl, -⟩ | ⟨-, he⟩ := ho.entry_cases he
    · exact Or.inr (Nat.le_refl _)
    · exact Or.inl he
  · obtain ⟨y, hy, hended⟩ := hover
    obtain ⟨rfl, -, hopen⟩ | ⟨-, he⟩ := ho.entry_cases he
    · rw [ho.self] at hy
      cases hy
      rw [hopen] at hended
      cases hended
    · obtain ⟨z, hz, -⟩ := h.entered he
      rw [ho.others k (Nat.ne_of_lt (h.lt_of_get? hz))] at hy
      exact Or.inr ⟨he, y, hy, hended⟩

end Files

/-! ### Messages and timers -/

theorem over_putWatch {name : DeskName} {w : Watch} (hx : s.exchanges.get? n = some x)
    (h : (s.putWatch n name w).Over n) : w.conversation.ended = true := by
  obtain ⟨y, hy, hended⟩ := h
  rw [((Changed.refl hx).putWatch name w).self] at hy
  cases hy
  exact hended

theorem wait_over (h : (s.wait n).Over n) : s.Over n := by
  unfold wait at h
  split at h
  · exact h
  · rename_i x hx
    have hw := Conversation.ended_of_untimed ((s.watch x).wait_untimed n s.clock)
    exact ⟨x, hx, hw.symm.trans (over_putWatch hx h)⟩

theorem handle_over {m : Message} (h : (s.handle n m).2.Over n) :
    (∃ e, .close n e ∈ (s.handle n m).1) ∨ s.Over n := by
  unfold handle at h ⊢
  split at h
  · exact Or.inr h
  · rename_i x hx
    split at h
    · exact Or.inr h
    · rename_i v end? hr
      obtain ⟨hopen, ⟨rfl, hv⟩ | ⟨rfl, -⟩⟩ := Watch.receive_eq_some hr
      · have hended := (Conversation.ended_of_untimed hv).symm.trans (over_putWatch hx h)
        rw [show ((s.watch x).conversation.take m).ended = false from hopen] at hended
        cases hended
      · exact Or.inl ⟨_, List.mem_append_right _ List.mem_cons_self⟩

theorem fire_over {name : DeskName} {t : Timer} (h : (s.fire name t).2.Over t.owner) :
    (∃ e, .close t.owner e ∈ (s.fire name t).1) ∨ s.Over t.owner := by
  have hcancel := s.setTimers_keeps name ((s.desk name).timers.cancel t.id)
  have hsame : (s.setTimers name ((s.desk name).timers.cancel t.id)).Over t.owner →
      s.Over t.owner := fun ⟨x, hx, hended⟩ => ⟨x, hcancel.exchanges ▸ hx, hended⟩
  unfold fire at h ⊢
  simp only at h ⊢
  split at h
  · exact Or.inr (hsame h)
  · rename_i x hx
    split at h
    · exact Or.inr (hsame h)
    · rename_i ha
      simp only [ha, if_false, Bool.false_eq_true]
      split at h
      · split at h
        · exact Or.inr (hsame h)
        · rename_i v e hr
          exact Or.inl ⟨e, List.mem_cons_self⟩
      · split at h
        · exact Or.inr (hsame h)
        · rename_i v end? hr
          obtain ⟨hopen, -, ⟨rfl, hv, -⟩ | ⟨rfl, -⟩⟩ := Watch.onAckTimer_eq_some hr
          · have hended := (Conversation.ended_of_untimed hv).symm.trans (over_putWatch hx h)
            rw [hopen] at hended
            cases hended
          · exact Or.inl ⟨_, List.mem_cons_self⟩

/-! ### The end of a conversation -/

/-- Whoever is unregistered is entered nowhere, and nobody else is entered instead. -/
theorem entry_unregister (h : s.Filed) (he : (s.unregister n).entry a = some k) :
    s.entry a = some k ∧ k ≠ n := by
  cases hx : s.exchanges.get? n with
  | none =>
    have hsame : s.unregister n = s := by simp only [unregister, hx]
    rw [hsame] at he
    refine ⟨he, ?_⟩
    rintro rfl
    obtain ⟨y, hy, -⟩ := h.entered he
    rw [hx] at hy
    cases hy
  | some x =>
    -- Where `n` does not have its address, it is not entered before either.
    have hself : s.entry a = some n → x.address? = some a := fun he => h.address?_of_entry he hx
    cases hb : x.address? with
    | none =>
      rw [entry_congr (unregister_own hx (Exchange.own_of_address? hb)).2] at he
      refine ⟨he, ?_⟩
      rintro rfl
      exact Option.some_ne_none a ((hself he).symm.trans hb)
    | some b =>
      have hr := unregister_refiled h.labelled hx hb
      by_cases hab : a = b
      · rw [hab, hr.self] at he
        split at he
        · cases he
        · rename_i hnot
          refine ⟨hab ▸ he, ?_⟩
          rintro rfl
          exact hnot he
      · rw [hr.others hab] at he
        refine ⟨he, ?_⟩
        rintro rfl
        exact hab (Option.some.inj ((hself he).symm.trans hb))

/-- A conversation that has ended can be unregistered. -/
theorem Filed.unregister (h : s.Filed) (ho : s.Over n) : (s.unregister n).Filed := by
  obtain ⟨x, hx, hended⟩ := ho
  cases ha : x.address? with
  | none =>
    obtain ⟨hn, hi⟩ := unregister_own hx (Exchange.own_of_address? ha)
    exact h.of_same (s.unregister_keeps n) hn hi
  | some a => exact h.strike hx hended (unregister_refiled h.labelled hx ha)

theorem Files.unregister {frames : List Frame} (h : s.Filed) (ho : s.Over n) :
    Files s frames (s.unregister n) where
  filed := h.unregister ho
  grows := Nat.le_of_eq (s.unregister_keeps n).nextExchange.symm
  entries := fun he => Or.inl (entry_unregister h he).1
  closes := fun he ⟨y, hy, hended⟩ =>
    Or.inr ⟨(entry_unregister h he).1, y, (s.unregister_keeps n).exchanges ▸ hy, hended⟩

/-- A conversation that is torn down while it is open. -/
theorem abort_of_open (hx : s.exchanges.get? n = some x) (hopen : x.conversation.ended = false)
    (why : Failure) :
    ∃ w, (s.abort n why).2 = (s.putWatch n x.desk w).unregister n ∧
      (s.desk x.desk).timers.Onward w.timers ∧
      w.conversation.untimed = x.conversation.dropped.untimed := by
  obtain ⟨w, ha, hw⟩ := Watch.abort_of_open (w := s.watch x) hopen
  have honward := (Watch.abort_used (w := s.watch x) n .unused).onward
  rw [ha] at honward
  exact ⟨w, by simp only [abort, hx, ha], honward, hw⟩

/-- To tear a conversation down does nothing if it has ended, and otherwise it ends and is
unregistered. -/
theorem abort_cases (h : s.Filed) (n : Nat) (why : Failure) :
    ((s.abort n why).2 = s ∧ (s.exchanges.get? n = none ∨ s.Over n)) ∨
      ∃ t, (s.abort n why).2 = t.unregister n ∧ t.Filed ∧ t.Over n ∧ s.Aside t ∧
        t.nextExchange = s.nextExchange ∧
        ∀ k, k ≠ n → t.exchanges.get? k = s.exchanges.get? k := by
  cases hx : s.exchanges.get? n with
  | none => exact Or.inl ⟨by simp only [abort, hx], Or.inl rfl⟩
  | some x =>
    cases hopen : x.conversation.ended with
    | true =>
      have ha : (s.watch x).abort = (false, s.watch x) := Watch.abort_of_ended hopen
      exact Or.inl ⟨by simp only [abort, hx, ha], Or.inr ⟨x, hx, hopen⟩⟩
    | false =>
      obtain ⟨w, hw, honward, hv⟩ := abort_of_open hx hopen why
      have hl : Later x.conversation w.conversation := .of_continues (.of_dropped hv)
      have hc := (Changed.refl hx).putWatch x.desk w
      have ha := s.putWatch_aside n x.desk honward
      exact Or.inr ⟨_, hw, h.changed hx hl hc ha.conversations ha.inboxes,
        ⟨_, hc.self, Conversation.ended_of_untimed hv⟩, ha, hc.nextExchange, hc.others⟩

theorem abort_files {frames : List Frame} (h : s.Filed) (n : Nat) (why : Failure) :
    Files s frames (s.abort n why).2 := by
  obtain ⟨hsame, -⟩ | ⟨t, ht, hfiled, hover, ha, hnext, hothers⟩ := abort_cases h n why
  · rw [hsame]
    exact .of_same h (.refl s) rfl rfl
  · rw [ht]
    refine ⟨hfiled.unregister hover,
      Nat.le_of_eq (hnext.symm.trans (t.unregister_keeps n).nextExchange.symm), fun he => ?_,
      fun {a k} he ho => ?_⟩
    · exact Or.inl (entry_congr ha.inboxes ▸ (entry_unregister hfiled he).1)
    · obtain ⟨he, hne⟩ := entry_unregister hfiled he
      obtain ⟨y, hy, hended⟩ := ho
      rw [(t.unregister_keeps n).exchanges, hothers k hne] at hy
      exact Or.inr ⟨entry_congr ha.inboxes ▸ he, y, hy, hended⟩

/-- Who is still entered when it was torn down had ended before. -/
theorem over_of_abort (h : s.Filed) {why : Failure}
    (he : (s.abort n why).2.entry a = some n) : s.Over n := by
  obtain ⟨hsame, hnone | hover⟩ | ⟨t, ht, hfiled, -⟩ := abort_cases h n why
  · rw [hsame] at he
    obtain ⟨x, hx, -⟩ := h.entered he
    rw [hnone] at hx
    cases hx
  · exact hover
  · rw [ht] at he
    exact absurd rfl (entry_unregister hfiled he).2

/-! ### Opening a conversation -/

namespace Opened

variable {s'' : Session} {member? : Option Nat}

theorem same (h : s.Opened x member? s') (hk : s'.Keeps s'')
    (hn : s''.conversations = s'.conversations) (hi : s''.shared.inboxes = s'.shared.inboxes) :
    s.Opened x member? s'' where
  self := hk.exchanges ▸ h.self
  others := fun k hne => hk.exchanges ▸ h.others k hne
  nextExchange := hk.nextExchange.trans h.nextExchange
  conversations := hn.trans h.conversations
  labelled := h.labelled.congr hi
  entries := fun hb => (entry_congr hi).trans (h.entries hb)
  entry := fun ha => (entry_congr hi).trans (h.entry ha)

theorem changed {c : Conversation} (h : s.Opened x member? s') (hl : Later x.conversation c)
    (hc : Changed s' s.nextExchange x c s'') (hn : s''.conversations = s'.conversations)
    (hi : s''.shared.inboxes = s'.shared.inboxes) :
    s.Opened { x with conversation := c } member? s'' where
  self := hc.self
  others := fun k hne => (hc.others k hne).trans (h.others k hne)
  nextExchange := hc.nextExchange.trans h.nextExchange
  conversations := hn.trans h.conversations
  labelled := h.labelled.congr hi
  entries := fun hb => by
    rw [Exchange.address?_later hl] at hb
    exact (entry_congr hi).trans (h.entries hb)
  entry := fun ha => by
    rw [Exchange.address?_later hl] at ha
    exact (entry_congr hi).trans (h.entry ha)

theorem refiled {new? : Option Nat} (h : s.Opened x member? s') (ha : x.address? = some a)
    (hr : s'.Refiled a new? s'') : s.Opened x new? s'' where
  self := hr.keeps.exchanges ▸ h.self
  others := fun k hne => hr.keeps.exchanges ▸ h.others k hne
  nextExchange := hr.keeps.nextExchange.trans h.nextExchange
  conversations := hr.conversations.trans h.conversations
  labelled := hr.labelled
  entries := fun {b} hb => by
    have hne : b ≠ a := fun hba => hb (hba ▸ ha)
    exact (hr.others hne).trans (h.entries hb)
  entry := fun hb => by
    rw [ha] at hb
    cases hb
    exact hr.self

theorem wait (h : s.Opened x member? s') (hopen : x.conversation.ended = false) :
    ∃ y, y.address? = x.address? ∧ y.conversation.ended = false ∧
      s.Opened y member? (s'.wait s.nextExchange) := by
  have hw := (s'.watch x).wait_untimed s.nextExchange s'.clock
  have hl : Later x.conversation ((s'.watch x).wait s.nextExchange s'.clock).conversation :=
    .of_continues (.of_untimed hw)
  have ha := s'.wait_aside s.nextExchange
  have hwait : s'.wait s.nextExchange =
      s'.putWatch s.nextExchange x.desk ((s'.watch x).wait s.nextExchange s'.clock) := by
    simp only [Session.wait, h.self]
  refine ⟨_, Exchange.address?_later hl, (Conversation.ended_of_untimed hw).trans hopen,
    h.changed hl ?_ ha.conversations ha.inboxes⟩
  rw [hwait]
  exact (Changed.refl h.self).putWatch _ _

/-- A conversation that was entered is struck out when it is torn down. -/
theorem abort (h : s.Opened x (some s.nextExchange) s') (ha : x.address? = some a)
    (hopen : x.conversation.ended = false) (why : Failure) :
    ∃ y, y.address? = some a ∧ y.conversation.ended = true ∧
      s.Opened y none (s'.abort s.nextExchange why).2 := by
  obtain ⟨w, hw, honward, hv⟩ := abort_of_open h.self hopen why
  have hl : Later x.conversation w.conversation := .of_continues (.of_dropped hv)
  have haside := s'.putWatch_aside s.nextExchange x.desk honward
  have hput := h.changed hl ((Changed.refl h.self).putWatch x.desk w) haside.conversations
    haside.inboxes
  have hy : ({ x with conversation := w.conversation } : Exchange).address? = some a :=
    (Exchange.address?_later hl).trans ha
  have hr := unregister_refiled hput.labelled hput.self hy
  rw [hput.entry hy, if_pos rfl] at hr
  rw [hw]
  exact ⟨_, hy, Conversation.ended_of_untimed hv, hput.refiled hy hr⟩

/-- A conversation that is listened to is entered, and one that cannot be is refused. -/
theorem listen (h : s.Opened x member? s') (ha : x.address? = some a)
    (hopen : x.conversation.ended = false) :
    ∃ y, y.address? = some a ∧
      (match (s'.listen s.nextExchange).1 with
        | .ok _ => y.conversation.ended = false
        | .error _ => y.conversation.ended = true) ∧
      s.Opened y (s.entered y) (s'.listen s.nextExchange).2 := by
  have hl := x.conversation.listen_later
  have hset := h.changed hl ((Changed.refl h.self).setConversation x.conversation.listen) rfl rfl
  have hy : ({ x with conversation := x.conversation.listen } : Exchange).address? = some a :=
    (Exchange.address?_later hl).trans ha
  have hlopen : x.conversation.listen.ended = false := by
    rw [Conversation.listen_eq]
    exact hopen
  have hr := hset.refiled hy (register_refiled hset.labelled hset.self hy)
  simp only [Session.listen, h.self]
  cases hreg : (s'.setConversation s.nextExchange x.conversation.listen).register
    s.nextExchange with
  | mk result t =>
    rw [hreg] at hr
    cases result with
    | ok u =>
      refine ⟨_, hy, hlopen, ?_⟩
      rw [Session.entered, hlopen]
      exact hr
    | error why =>
      have hrefuse : Later x.conversation.listen x.conversation.listen.refuse :=
        ⟨rfl, rfl, fun _ => rfl⟩
      refine ⟨_, (Exchange.address?_later hrefuse).trans hy, rfl, ?_⟩
      exact hr.changed hrefuse ((Changed.refl hr.self).setConversation _) rfl rfl

end Opened

/-- To make an inbox leaves the entries as they are. -/
theorem entry_place (h : s.Labelled) (desk : DeskName) (correlation topic : String)
    (terms : Terms) (callbacks : Callbacks) (a : String × String) :
    (s.place desk correlation topic terms callbacks).2.entry a = s.entry a := by
  cases desk with
  | own => rfl
  | shared =>
    refine (s.entry_setInbox (s.inbox .shared topic) a).trans ?_
    rw [h topic]
    by_cases ha : a.1 = topic
    · rw [if_pos ha, ← ha]
      rfl
    · rw [if_neg ha]

theorem place_opened (h : s.Labelled) (desk : DeskName) (correlation topic : String)
    (terms : Terms) (callbacks : Callbacks) :
    s.Opened { conversation := .start correlation topic s.clock terms, callbacks, desk }
      (s.entry (topic, correlation)) (s.place desk correlation topic terms callbacks).2 where
  self := by cases desk <;> exact Table.get?_put_self _ _ _
  others := fun k hne => by cases desk <;> exact Table.get?_put_ne _ hne _
  nextExchange := by cases desk <;> rfl
  conversations := by cases desk <;> rfl
  labelled := by
    cases desk with
    | own => exact h
    | shared => exact h.setInbox _
  entries := fun _ => entry_place h desk correlation topic terms callbacks _
  entry := fun ha => by
    obtain ⟨-, rfl⟩ := Exchange.shared_of_address? ha
    exact entry_place h desk correlation topic terms callbacks _

/-- A request opens a conversation on the topic for its answers, with the correlation of its
message. -/
theorem converse_opened (h : s.Labelled) (r : Requester) (m : Message) :
    ∃ x, x.address? = some (s.origin.responseTopic r.namesp, m.correlation) ∧
      s.Opened x (s.entered x) (s.converse r m).2.2 := by
  obtain ⟨x, hx, hopen, hlisten⟩ := (place_opened h .shared m.correlation
    (s.origin.responseTopic r.namesp) (s.terms r.options) r.callbacks).listen rfl rfl
  generalize hl : (s.place .shared m.correlation (s.origin.responseTopic r.namesp)
    (s.terms r.options) r.callbacks).2.listen s.nextExchange = l at hopen hlisten
  obtain ⟨result, t⟩ := l
  unfold converse
  simp only
  rw [show (s.place .shared m.correlation (s.origin.responseTopic r.namesp)
    (s.terms r.options) r.callbacks).1 = s.nextExchange from rfl, hl]
  cases result with
  | error why => exact ⟨x, hx, hlisten⟩
  | ok u =>
    rw [entered, show x.conversation.ended = false from hopen] at hlisten
    have hsend : ∀ c : Channels Handler,
        s.Opened x (some s.nextExchange) { t with channels := c } := fun c =>
      hlisten.same (t.channels_keeps c) rfl rfl
    dsimp only
    split
    · rename_i why c hc
      obtain ⟨y, hy, hended, hab⟩ := (hsend c).abort hx hopen why
      refine ⟨y, hy, ?_⟩
      rw [entered, hended]
      exact hab
    · rename_i c hc
      obtain ⟨y, hy, hyopen, hwait⟩ := (hsend c).wait hopen
      refine ⟨y, hy.trans hx, ?_⟩
      rw [entered, hyopen]
      exact hwait

/-! ### Deeds -/

theorem Deed.files {frames : List Frame} (hd : Deed s frames s') (h : s.Filed) :
    Files s frames s' := by
  induction hd with
  | calm hstill hcalm =>
    exact .of_same h hstill.keeps hstill.aside.conversations hstill.aside.inboxes
  | place s correlation topic terms callbacks =>
    have ho := place_opened h.labelled .own correlation topic terms callbacks
    exact .opened h { ho with entry := fun ha => nomatch ha }
  | @name s n x name hx hown =>
    have hsame : Files s [] s := .of_same h (.refl s) rfl rfl
    exact { hsame with filed := { h with
      named := fun k hmem => by
        obtain rfl | hk := Table.mem_values_put hmem
        · exact ⟨x, hx, hown⟩
        · exact h.named k hk } }
  | @listen s n hn =>
    obtain ⟨x, hx, hown⟩ := h.named n hn
    obtain ⟨hc, hi⟩ := listen_own hx hown
    exact .met_own h ⟨x, hx, hown⟩ (s.listen_meets n) hc hi
  | @register s n hn =>
    obtain ⟨x, hx, hown⟩ := h.named n hn
    obtain ⟨hc, hi⟩ := register_own hx hown
    exact .of_same h (s.register_keeps n) hc hi
  | @unregister s n hn =>
    obtain ⟨x, hx, hown⟩ := h.named n hn
    obtain ⟨hc, hi⟩ := unregister_own hx hown
    exact .of_same h (s.unregister_keeps n) hc hi
  | wait s n =>
    have ha := s.wait_aside n
    exact .met h (s.wait_meets n) ha.conversations ha.inboxes fun a he ho => Or.inr (wait_over ho)
  | handle s n m =>
    have ha := s.handle_aside n m
    exact .met h (s.handle_meets n m) ha.conversations ha.inboxes fun a he ho => handle_over ho
  | abort s n why => exact abort_files h n why
  | @fire s name t ht =>
    have ha := s.fire_aside ht
    exact .met h (s.fire_meets name t) ha.conversations ha.inboxes fun a he ho => fire_over ho
  | converse s r m =>
    obtain ⟨x, -, ho⟩ := converse_opened h.labelled r m
    exact .opened h ho
  | andThen hd hd' ih ih' =>
    have hfirst := ih h
    exact hfirst.andThen (ih' hfirst.filed)
  | beneath hd hcalm ih => exact (ih h).beneath

end Session
end Colloquy
