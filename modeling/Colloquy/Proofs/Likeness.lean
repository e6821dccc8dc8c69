/-
Conversations that are alike but for the numbers of their timers.

The conversations of a desk draw the numbers of their timers from one counter, so which numbers a
conversation gets depends on the others.  Nothing else about it does.  `Watch.Alike` says that two
conversations are the same except for these numbers: of each kind both keep a timer or neither
does, and it is pending for the same time in both, or in neither.  Every operation on the two keeps
this and comes out the same.  What an operation does to the timers of the desk is `Timers.Spent`,
and it leaves those of other conversations alone.
-/
import Colloquy.Proofs.Minding

namespace Colloquy

/-! ## Numbers -/

namespace Conversation

/-- A conversation without the numbers of its timers. -/
def unnumbered (c : Conversation) : Conversation :=
  { c with responseTimer := none, ackTimer := none }

/-- A conversation that keeps another timer of a kind. -/
def setTimer (c : Conversation) (kind : TimerKind) (id? : Option Nat) : Conversation :=
  match kind with
  | .response => { c with responseTimer := id? }
  | .ack => { c with ackTimer := id? }

variable {c d : Conversation} {kind other : TimerKind} {id? : Option Nat}

@[simp] theorem timer_setTimer_self (c : Conversation) (kind : TimerKind) (id? : Option Nat) :
    (c.setTimer kind id?).timer kind = id? := by
  cases kind <;> rfl

@[simp] theorem timer_setTimer_ne (c : Conversation) (id? : Option Nat) (h : other ≠ kind) :
    (c.setTimer kind id?).timer other = c.timer other := by
  cases kind <;> cases other <;> first | rfl | exact absurd rfl h

@[simp] theorem unnumbered_setTimer (c : Conversation) (kind : TimerKind) (id? : Option Nat) :
    (c.setTimer kind id?).unnumbered = c.unnumbered := by
  cases kind <;> rfl

theorem SameTimers.timer (h : SameTimers c d) (kind : TimerKind) :
    d.timer kind = c.timer kind := by
  cases kind with
  | response => exact h.responseTimer
  | ack => exact h.ackTimer

theorem record_unnumbered (c : Conversation) (m : Message) :
    (c.record m).unnumbered = c.unnumbered.record m := by
  rw [record_eq, record_eq]
  rfl

theorem announce_unnumbered (c : Conversation) (responder : String) (n : Int) :
    (c.announce responder n).unnumbered = c.unnumbered.announce responder n := by
  rw [announce_eq, announce_eq]
  rfl

theorem takeAck_unnumbered (c : Conversation) (a : Ack) (first : Bool) :
    (c.takeAck a first).unnumbered = c.unnumbered.takeAck a first := by
  have hcount : ∀ n, (if first then c.announce a.responderId n else c).unnumbered =
      if first then c.unnumbered.announce a.responderId n else c.unnumbered := by
    intro n
    split
    · exact c.announce_unnumbered _ _
    · rfl
  unfold takeAck
  cases a.responsesRemaining with
  | none => cases a.timeoutMs <;> rfl
  | some n =>
    simp only
    rw [← hcount]
    cases a.timeoutMs <;> rfl

theorem listen_unnumbered (c : Conversation) : c.listen.unnumbered = c.unnumbered.listen := by
  have hms : c.unnumbered.ackTimeoutMs = c.ackTimeoutMs := rfl
  unfold listen
  rw [hms]
  split
  · split <;> rfl
  · rfl

end Conversation

/-! ## Timers of one conversation -/

namespace Timers

/-- What a conversation made of the timers of its desk: it cancelled some of its own and set new
ones. -/
structure Spent (owner : Nat) (t u : Timers) : Prop where
  others : u.pending.filter (fun p => decide (p.owner ≠ owner)) =
    t.pending.filter fun p => decide (p.owner ≠ owner)
  pending : ∀ p ∈ u.pending, p ∈ t.pending ∨ t.next ≤ p.id ∧ p.owner = owner
  next : t.next ≤ u.next
  stopped : u.stopped = t.stopped

/-- Of one kind, two conversations keep a timer each or none, and it is pending for the same time
in both, or in neither. -/
inductive Match (owner : Nat) (kind : TimerKind) :
    Option Nat → List Timer → Option Nat → List Timer → Prop where
  | unset : Match owner kind none [] none []
  | gone (i j : Nat) : Match owner kind (some i) [] (some j) []
  | set (i j due : Nat) : Match owner kind
      (some i) [{ id := i, kind, owner, due }]
      (some j) [{ id := j, kind, owner, due }]

variable {self other : Nat} {t u v : Timers} {kind : TimerKind} {id : Nat}

namespace Spent

theorem refl (self : Nat) (t : Timers) : t.Spent self t :=
  ⟨rfl, fun _ hp => .inl hp, Nat.le_refl _, rfl⟩

theorem trans (h : t.Spent self u) (h' : u.Spent self v) : t.Spent self v where
  others := h'.others.trans h.others
  pending := fun p hp => (h'.pending p hp).elim (h.pending p) fun hnew =>
    .inr ⟨Nat.le_trans h.next hnew.1, hnew.2⟩
  next := Nat.le_trans h.next h'.next
  stopped := h'.stopped.trans h.stopped

theorem of_other (h : t.Spent self u) (hne : other ≠ self) (kind : TimerKind) :
    u.of other kind = t.of other kind := by
  have hsub : ∀ l : List Timer, l.filter (fun p => decide (p.owner = other ∧ p.kind = kind)) =
      (l.filter fun p => decide (p.owner ≠ self)).filter
        fun p => decide (p.owner = other ∧ p.kind = kind) := by
    intro l
    rw [List.filter_filter]
    refine List.filter_congr fun p _ => ?_
    by_cases ho : p.owner = other
    · simp [ho, hne]
    · simp [ho]
  rw [of, of, hsub, h.others, ← hsub]

theorem add (t : Timers) (kind : TimerKind) (self due : Nat) :
    t.Spent self (t.add kind self due) where
  others := by simp [Timers.add, List.filter_append]
  pending := fun p hp => by
    obtain hold | hnew := List.mem_append.mp hp
    · exact .inl hold
    · cases List.mem_singleton.mp hnew
      exact .inr ⟨Nat.le_refl _, rfl⟩
  next := Nat.le_succ _
  stopped := rfl

/-- A conversation can cancel any timer that is its own. -/
theorem cancel (hown : ∀ p ∈ t.pending, p.id = id → p.owner = self) :
    t.Spent self (t.cancel id) where
  others := by
    show (t.pending.filter _).filter _ = _
    rw [List.filter_filter]
    refine List.filter_congr fun p hp => ?_
    by_cases hid : p.id = id
    · simp [hown p hp hid]
    · simp [hid]
  pending := fun p hp => .inl (List.mem_of_mem_filter hp)
  next := Nat.le_refl _
  stopped := rfl

end Spent

theorem mem_cancel? {id? : Option Nat} {p : Timer} (hp : p ∈ (t.cancel? id?).pending) :
    p ∈ t.pending := by
  cases id? with
  | none => exact hp
  | some id => exact List.mem_of_mem_filter hp

/-- To cancel a timer of the other kind, or one of another conversation, changes nothing. -/
theorem of_cancel?_of_ne {id? : Option Nat}
    (hown : ∀ id, id? = some id → ∀ p ∈ t.pending, p.id = id → ¬(p.owner = self ∧ p.kind = kind)) :
    (t.cancel? id?).of self kind = t.of self kind := by
  cases id? with
  | none => rfl
  | some id =>
    refine (of_cancel t id self kind).trans (List.filter_eq_self.mpr fun p hp => ?_)
    obtain ⟨hmem, hself⟩ := List.mem_filter.mp hp
    exact decide_eq_true fun hid => hown id rfl p hmem hid (of_decide_eq_true hself)

namespace Match

variable {i? j? : Option Nat} {l r : List Timer}

theorem isSome (h : Match self kind i? l j? r) : i?.isSome = j?.isSome := by
  cases h <;> rfl

theorem symm (h : Match self kind i? l j? r) : Match self kind j? r i? l := by
  cases h with
  | unset => exact .unset
  | gone i j => exact .gone j i
  | set i j due => exact .set j i due

theorem diag (h : Match self kind i? l j? r) : Match self kind i? l i? l := by
  cases h with
  | unset => exact .unset
  | gone i j => exact .gone i i
  | set i j due => exact .set i i due

theorem due (h : Match self kind i? l j? r) : l.map Timer.due = r.map Timer.due := by
  cases h <;> rfl

/-- Both timers are cancelled, and both numbers forgotten. -/
theorem cancelled (h : Match self kind i? (t.of self kind) j? (u.of self kind)) :
    (t.cancel? i?).of self kind = [] ∧ (u.cancel? j?).of self kind = [] := by
  generalize hl : t.of self kind = l at h
  generalize hr : u.of self kind = r at h
  cases h with
  | unset => exact ⟨hl, hr⟩
  | gone i j => exact ⟨(of_cancel t i self kind).trans (by rw [hl]; rfl),
      (of_cancel u j self kind).trans (by rw [hr]; rfl)⟩
  | set i j due => exact ⟨(of_cancel t i self kind).trans (by rw [hl]; simp),
      (of_cancel u j self kind).trans (by rw [hr]; simp)⟩

end Match
end Timers

/-! ## Likeness -/

namespace Watch

open Conversation Timers

/-- The timers that a conversation keeps are its own, and the counter of the desk is ahead of
all. -/
structure Owns (owner : Nat) (w : Watch) : Prop where
  below : ∀ p ∈ w.timers.pending, p.id < w.timers.next
  taken : ∀ kind id, w.conversation.timer kind = some id → id < w.timers.next
  own : ∀ kind id, w.conversation.timer kind = some id →
    ∀ p ∈ w.timers.pending, p.id = id → p.owner = owner ∧ p.kind = kind

/-- Two conversations are the same except for the numbers of their timers.  The first has made its
timers of `t`. -/
structure Alike (owner : Nat) (t : Timers) (w w' : Watch) : Prop where
  left : w.Owns owner
  right : w'.Owns owner
  same : w.conversation.unnumbered = w'.conversation.unnumbered
  stopped : w.timers.stopped = w'.timers.stopped
  timers : ∀ kind, Match owner kind (w.conversation.timer kind) (w.timers.of owner kind)
    (w'.conversation.timer kind) (w'.timers.of owner kind)
  spent : t.Spent owner w.timers

/-- Set a timer of a kind anew. -/
def set (w : Watch) (kind : TimerKind) (self now delay : Nat) : Watch :=
  let timers := w.timers.cancel? (w.conversation.timer kind)
  let (id, timers, notes) := timers.schedule kind self now delay
  { conversation := w.conversation.setTimer kind id
    timers := timers
    notes := w.notes ++ notes }

/-- Cancel the timer of a kind. -/
def drop (w : Watch) (kind : TimerKind) : Watch :=
  { w with
    conversation := w.conversation.setTimer kind none
    timers := w.timers.cancel? (w.conversation.timer kind) }

variable {self other now : Nat} {t u : Timers} {w w' : Watch} {kind : TimerKind}

theorem armAck_eq_set {deadline : Nat} (hd : w.conversation.ackDeadline = some deadline)
    (hlt : now < deadline) (hunset : w.conversation.ackTimer = none) :
    w.armAck self now = (true, w.set .ack self now (deadline - now)) := by
  have htimer : w.conversation.timer .ack = none := hunset
  unfold armAck set
  simp only [hd, if_neg (Nat.not_le_of_lt hlt), hunset, Option.isSome_none, if_false,
    Bool.false_eq_true, htimer, cancel?, setTimer]

namespace Owns

theorem put (h : w.Owns self) {c : Conversation}
    (hc : ∀ kind, c.timer kind = w.conversation.timer kind) :
    ({ w with conversation := c } : Watch).Owns self :=
  ⟨h.below, fun kind id hid => h.taken kind id (hc kind ▸ hid),
    fun kind id hid => h.own kind id (hc kind ▸ hid)⟩

/-- A timer that is kept can be cancelled. -/
theorem spent (h : w.Owns self) (kind : TimerKind) :
    w.timers.Spent self (w.timers.cancel? (w.conversation.timer kind)) := by
  cases hid : w.conversation.timer kind with
  | none => exact .refl self _
  | some id => exact .cancel fun p hp hpid => (h.own kind id hid p hp hpid).1

/-- Cancelling timers does no harm. -/
theorem cancel (h : w.Owns self) (id? : Option Nat) :
    ({ w with timers := w.timers.cancel? id? } : Watch).Owns self where
  below := fun p hp => (cancel?_next w.timers id?).symm ▸ h.below p (mem_cancel? hp)
  taken := fun kind id hid => (cancel?_next w.timers id?).symm ▸ h.taken kind id hid
  own := fun kind id hid p hp => h.own kind id hid p (mem_cancel? hp)

theorem forget (h : w.Owns self) (kind : TimerKind) :
    ({ w with conversation := w.conversation.setTimer kind none } : Watch).Owns self := by
  have hkept : ∀ other id, (w.conversation.setTimer kind none).timer other = some id →
      w.conversation.timer other = some id := by
    intro other id hid
    by_cases ho : other = kind
    · subst ho
      rw [timer_setTimer_self] at hid
      cases hid
    · rwa [timer_setTimer_ne _ _ ho] at hid
  exact ⟨h.below, fun other id hid => h.taken other id (hkept other id hid),
    fun other id hid => h.own other id (hkept other id hid)⟩

theorem drop (h : w.Owns self) (kind : TimerKind) : (w.drop kind).Owns self :=
  (h.cancel (w.conversation.timer kind)).forget kind

theorem add (h : w.Owns self) (kind : TimerKind) (due : Nat) (notes : List Note) :
    Owns self
      { conversation := w.conversation.setTimer kind (some w.timers.next)
        timers := w.timers.add kind self due
        notes } where
  below := fun p hp => by
    obtain hold | hnew := List.mem_append.mp hp
    · exact Nat.lt_succ_of_lt (h.below p hold)
    · cases List.mem_singleton.mp hnew
      exact Nat.lt_succ_self _
  taken := fun other id hid => by
    by_cases ho : other = kind
    · subst ho
      cases (timer_setTimer_self _ _ _).symm.trans hid
      exact Nat.lt_succ_self _
    · exact Nat.lt_succ_of_lt (h.taken other id ((timer_setTimer_ne _ _ ho).symm.trans hid))
  own := fun other id hid p hp hpid => by
    by_cases ho : other = kind
    · subst ho
      cases (timer_setTimer_self _ _ _).symm.trans hid
      obtain hold | hnew := List.mem_append.mp hp
      · exact absurd hpid (Nat.ne_of_lt (h.below p hold))
      · cases List.mem_singleton.mp hnew
        exact ⟨rfl, rfl⟩
    · have hkept := (timer_setTimer_ne _ _ ho).symm.trans hid
      obtain hold | hnew := List.mem_append.mp hp
      · exact h.own other id hkept p hold hpid
      · cases List.mem_singleton.mp hnew
        exact absurd hpid (Nat.ne_of_gt (h.taken other id hkept))

/-- Another conversation uses the timers of the desk. -/
theorem beside (h : w.Owns self) (hs : w.timers.Spent other u)
    (hbelow : ∀ p ∈ u.pending, p.id < u.next) :
    ({ w with timers := u } : Watch).Owns self where
  below := hbelow
  taken := fun kind id hid => Nat.lt_of_lt_of_le (h.taken kind id hid) hs.next
  own := fun kind id hid p hp hpid => by
    obtain hold | ⟨hnew, -⟩ := hs.pending p hp
    · exact h.own kind id hid p hold hpid
    · exact absurd (h.taken kind id hid) (by omega)

end Owns

namespace Alike

theorem begin (h : Alike self t w w') : Alike self w.timers w w' :=
  { h with spent := .refl self _ }

theorem symm (h : Alike self t w w') : Alike self w'.timers w' w :=
  ⟨h.right, h.left, h.same.symm, h.stopped.symm, fun kind => (h.timers kind).symm, .refl self _⟩

theorem diag (h : Alike self t w w') : Alike self w.timers w w :=
  ⟨h.left, h.left, rfl, rfl, fun kind => (h.timers kind).diag, .refl self _⟩

/-- The conversations go on the same way, and keep their timers. -/
theorem put (h : Alike self t w w') {c c' : Conversation}
    (hsame : c.unnumbered = c'.unnumbered)
    (hc : ∀ kind, c.timer kind = w.conversation.timer kind)
    (hc' : ∀ kind, c'.timer kind = w'.conversation.timer kind) :
    Alike self t { w with conversation := c } { w' with conversation := c' } where
  left := h.left.put hc
  right := h.right.put hc'
  same := hsame
  stopped := h.stopped
  timers := fun kind => by
    show Match self kind (c.timer kind) _ (c'.timer kind) _
    rw [hc, hc']
    exact h.timers kind
  spent := h.spent

/-- The timer of the other kind has another number. -/
theorem of_other (h : w.Owns self) {other : TimerKind} (hne : other ≠ kind) :
    (w.timers.cancel? (w.conversation.timer kind)).of self other = w.timers.of self other :=
  of_cancel?_of_ne fun id hid p hp hpid hother =>
    hne (hother.2.symm.trans (h.own kind id hid p hp hpid).2)

theorem drop (h : Alike self t w w') (kind : TimerKind) :
    Alike self t (w.drop kind) (w'.drop kind) where
  left := h.left.drop kind
  right := h.right.drop kind
  same := by simpa only [Watch.drop, unnumbered_setTimer] using h.same
  stopped := by simpa only [Watch.drop, cancel?_stopped] using h.stopped
  timers := fun other => by
    by_cases ho : other = kind
    · subst ho
      obtain ⟨hl, hr⟩ := (h.timers other).cancelled
      simp only [Watch.drop, timer_setTimer_self, hl, hr]
      exact .unset
    · simp only [Watch.drop, timer_setTimer_ne _ _ ho, of_other h.left ho, of_other h.right ho]
      exact h.timers other
  spent := h.spent.trans (h.left.spent kind)

theorem add (h : Alike self t w w') (kind : TimerKind) (due : Nat) (notes notes' : List Note)
    (hnone : w.timers.of self kind = []) (hnone' : w'.timers.of self kind = []) :
    Alike self t
      { conversation := w.conversation.setTimer kind (some w.timers.next)
        timers := w.timers.add kind self due
        notes }
      { conversation := w'.conversation.setTimer kind (some w'.timers.next)
        timers := w'.timers.add kind self due
        notes := notes' } where
  left := h.left.add kind due notes
  right := h.right.add kind due notes'
  same := by simpa only [unnumbered_setTimer] using h.same
  stopped := h.stopped
  timers := fun other => by
    by_cases ho : other = kind
    · subst ho
      simp only [timer_setTimer_self, of_add_self, hnone, hnone', List.nil_append]
      exact .set _ _ _
    · simp only [timer_setTimer_ne _ _ ho, of_add_of_ne _ (Ne.symm ho)]
      exact h.timers other
  spent := h.spent.trans (.add _ kind self due)

theorem noting (h : Alike self t w w') (notes notes' : List Note) :
    Alike self t { w with notes } { w' with notes := notes' } where
  left := ⟨h.left.below, h.left.taken, h.left.own⟩
  right := ⟨h.right.below, h.right.taken, h.right.own⟩
  same := h.same
  stopped := h.stopped
  timers := h.timers
  spent := h.spent

/-- Setting a timer anew is cancelling the old one and adding one, on a desk that runs. -/
theorem set (h : Alike self t w w') (kind : TimerKind) (now delay : Nat) :
    Alike self t (w.set kind self now delay) (w'.set kind self now delay) := by
  have hdropped := h.drop kind
  obtain ⟨hl, hr⟩ := (h.timers kind).cancelled
  unfold Watch.set
  cases hs : w.timers.stopped with
  | true =>
    have hs' : w'.timers.stopped = true := h.stopped ▸ hs
    simp only [schedule, cancel?_stopped, hs, hs', if_true]
    exact hdropped.noting _ _
  | false =>
    have hs' : w'.timers.stopped = false := h.stopped ▸ hs
    simp only [schedule_of_running ((cancel?_stopped _ _).trans hs),
      schedule_of_running ((cancel?_stopped _ _).trans hs')]
    have hadded := hdropped.add kind (now + delay) (w.notes ++ []) (w'.notes ++ []) hl hr
    cases kind <;> exact hadded

/-! ### Operations -/

variable {m : Message}

theorem awaitsAnswers (h : Alike self t w w') :
    w.conversation.awaitsAnswers = w'.conversation.awaitsAnswers :=
  show w.conversation.unnumbered.awaitsAnswers = w'.conversation.unnumbered.awaitsAnswers by
    rw [h.same]

theorem awaitsAcks (h : Alike self t w w') (now : Nat) :
    w.conversation.awaitsAcks now = w'.conversation.awaitsAcks now :=
  show w.conversation.unnumbered.awaitsAcks now = w'.conversation.unnumbered.awaitsAcks now by
    rw [h.same]

theorem ended (h : Alike self t w w') : w.conversation.ended = w'.conversation.ended :=
  show w.conversation.unnumbered.ended = w'.conversation.unnumbered.ended by rw [h.same]

theorem ending (h : Alike self t w w') (reason : Reason) :
    w.conversation.ending reason = w'.conversation.ending reason :=
  show w.conversation.unnumbered.ending reason = w'.conversation.unnumbered.ending reason by
    rw [h.same]

theorem armResponse (h : Alike self t w w') (now : Nat) :
    Alike self t (w.armResponse self now) (w'.armResponse self now) := by
  have hmore : ({ w.conversation with arms := w.conversation.arms + 1 } : Conversation).unnumbered =
      ({ w'.conversation with arms := w'.conversation.arms + 1 } : Conversation).unnumbered :=
    show ({ w.conversation.unnumbered with arms := w.conversation.unnumbered.arms + 1 } :
      Conversation) = { w'.conversation.unnumbered with
        arms := w'.conversation.unnumbered.arms + 1 } by rw [h.same]
  have hdelay : w.conversation.startedAt + w.conversation.timeoutMs - now =
      w'.conversation.startedAt + w'.conversation.timeoutMs - now :=
    show w.conversation.unnumbered.startedAt + w.conversation.unnumbered.timeoutMs - now =
      w'.conversation.unnumbered.startedAt + w'.conversation.unnumbered.timeoutMs - now by
        rw [h.same]
  have hput := h.put hmore (fun kind => by cases kind <;> rfl) fun kind => by cases kind <;> rfl
  have hset := hput.set .response now (w.conversation.startedAt + w.conversation.timeoutMs - now)
  rw [show w'.armResponse self now = Watch.set { w' with conversation := { w'.conversation with
    arms := w'.conversation.arms + 1 } } .response self now
      (w'.conversation.startedAt + w'.conversation.timeoutMs - now) from rfl, ← hdelay]
  exact hset

theorem armAck (h : Alike self t w w') (now : Nat) :
    (w.armAck self now).1 = (w'.armAck self now).1 ∧
      Alike self t (w.armAck self now).2 (w'.armAck self now).2 := by
  have hdeadline : w.conversation.ackDeadline = w'.conversation.ackDeadline :=
    show w.conversation.unnumbered.ackDeadline = w'.conversation.unnumbered.ackDeadline by
      rw [h.same]
  have hkept : w.conversation.ackTimer.isSome = w'.conversation.ackTimer.isSome :=
    (h.timers .ack).isSome
  cases hopen : w.conversation.awaitsAcks now with
  | false =>
    rw [armAck_of_closed hopen, armAck_of_closed (h.awaitsAcks now ▸ hopen)]
    exact ⟨rfl, h⟩
  | true =>
    have hopen' := h.awaitsAcks now ▸ hopen
    cases hset : w.conversation.ackTimer with
    | some id =>
      rw [armAck_of_set hopen (by rw [hset]; rfl),
        armAck_of_set hopen' (by rw [← hkept, hset]; rfl)]
      exact ⟨rfl, h⟩
    | none =>
      have hset' : w'.conversation.ackTimer = none := by
        rw [hset] at hkept
        exact Option.not_isSome_iff_eq_none.mp (Bool.eq_false_iff.mp hkept.symm)
      cases hd : w.conversation.ackDeadline with
      | none =>
        rw [Conversation.awaitsAcks, hd] at hopen
        cases hopen
      | some deadline =>
        rw [Conversation.awaitsAcks, hd] at hopen
        have hlt : now < deadline := of_decide_eq_true hopen
        rw [armAck_eq_set hd hlt hset, armAck_eq_set (hdeadline ▸ hd) hlt hset']
        exact ⟨rfl, h.set .ack now (deadline - now)⟩

theorem wait (h : Alike self t w w') (now : Nat) :
    Alike self t (w.wait self now) (w'.wait self now) := by
  have harmed := h.armResponse now
  unfold Watch.wait
  rw [h.ended]
  split
  · exact h
  · simp only [harmed.awaitsAnswers]
    split
    · exact harmed
    · exact (harmed.armAck now).2

theorem cancelTimers (h : Alike self t w w') : Alike self t w.cancelTimers w'.cancelTimers :=
  (h.drop .response).drop .ack

theorem finish (h : Alike self t w w') (reason : Reason) :
    Alike self t (w.finish reason).1 (w'.finish reason).1 := by
  have hc := h.cancelTimers
  refine hc.put ?_ (fun kind => by cases kind <;> rfl) fun kind => by cases kind <;> rfl
  show w.cancelTimers.conversation.unnumbered.concluded =
    w'.cancelTimers.conversation.unnumbered.concluded
  rw [hc.same]

theorem foldAck (h : Alike self t w w') (now : Nat) (a : Ack) (first : Bool) :
    Alike self t (w.foldAck self now a first) (w'.foldAck self now a first) := by
  have htaken : (w.conversation.takeAck a first).unnumbered =
      (w'.conversation.takeAck a first).unnumbered := by
    rw [takeAck_unnumbered, takeAck_unnumbered, h.same]
  have hkept := (takeAck_sameTimers w.conversation a first).timer
  have hkept' := (takeAck_sameTimers w'.conversation a first).timer
  have hfolded : (w.conversation.takeAck a first).foldedTimeout =
      (w'.conversation.takeAck a first).foldedTimeout :=
    show (w.conversation.takeAck a first).unnumbered.foldedTimeout =
      (w'.conversation.takeAck a first).unnumbered.foldedTimeout by rw [htaken]
  have htimeout : (w.conversation.takeAck a first).timeoutMs =
      (w'.conversation.takeAck a first).timeoutMs :=
    show (w.conversation.takeAck a first).unnumbered.timeoutMs =
      (w'.conversation.takeAck a first).unnumbered.timeoutMs by rw [htaken]
  unfold Watch.foldAck
  simp only [← hfolded, ← htimeout]
  split
  · exact h.put htaken hkept hkept'
  · refine (h.put ?_ (fun kind => ?_) fun kind => ?_).armResponse now
    · exact congrArg (fun c : Conversation => { c with
        timeoutMs := (w.conversation.takeAck a first).foldedTimeout }) htaken
    · exact (show _ = (w.conversation.takeAck a first).timer kind by cases kind <;> rfl).trans
        (hkept kind)
    · exact (show _ = (w'.conversation.takeAck a first).timer kind by cases kind <;> rfl).trans
        (hkept' kind)

theorem takeIn (h : Alike self t w w') (now : Nat) (m : Message) :
    Alike self t (w.takeIn self now m) (w'.takeIn self now m) := by
  have hseen : w.conversation.seen = w'.conversation.seen :=
    show w.conversation.unnumbered.seen = w'.conversation.unnumbered.seen by rw [h.same]
  have hrecorded :
      (w.conversation.record m).unnumbered = (w'.conversation.record m).unnumbered := by
    rw [record_unnumbered, record_unnumbered, h.same]
  have hput := h.put hrecorded (record_sameTimers w.conversation m).timer
    (record_sameTimers w'.conversation m).timer
  unfold Watch.takeIn
  rw [hseen]
  cases m.ack with
  | none => exact hput
  | some a => exact hput.foldAck now a _

theorem receive (h : Alike self t w w') (now : Nat) (m : Message) :
    (w.receive self now m = none ∧ w'.receive self now m = none) ∨
      ∃ v v' end?, w.receive self now m = some (v, end?) ∧
        w'.receive self now m = some (v', end?) ∧ Alike self t v v' := by
  have htaken := h.takeIn now m
  obtain ⟨hopen, harmed⟩ := htaken.armAck now
  unfold Watch.receive
  simp only [h.ended, htaken.awaitsAnswers]
  split
  · exact .inl ⟨rfl, rfl⟩
  · split
    · exact .inr ⟨_, _, none, rfl, rfl, htaken⟩
    · revert hopen harmed
      cases (w.takeIn self now m).armAck self now with
      | mk b v =>
        cases (w'.takeIn self now m).armAck self now with
        | mk b' v' =>
          rintro rfl hv
          cases b with
          | true => exact .inr ⟨v, v', none, rfl, rfl, hv⟩
          | false =>
            refine .inr ⟨_, _, some (v.conversation.ending .allResponsesReceived), rfl, ?_,
              hv.finish .allResponsesReceived⟩
            rw [hv.ending]
            rfl

theorem abort (h : Alike self t w w') :
    w.abort.1 = w'.abort.1 ∧ Alike self t w.abort.2 w'.abort.2 := by
  have hc := h.cancelTimers
  unfold Watch.abort
  rw [h.ended]
  split
  · exact ⟨rfl, h⟩
  · refine ⟨rfl, hc.put ?_ (fun kind => by cases kind <;> rfl) fun kind => by cases kind <;> rfl⟩
    show w.cancelTimers.conversation.unnumbered.dropped =
      w'.cancelTimers.conversation.unnumbered.dropped
    rw [hc.same]

/-! ### Timers that fire -/

variable {i j : Nat}

/-- The timers of a kind fire: they are no longer pending. -/
theorem fired (h : Alike self t w w') (hi : w.conversation.timer kind = some i)
    (hj : w'.conversation.timer kind = some j) :
    Alike self t { w with timers := w.timers.cancel i }
      { w' with timers := w'.timers.cancel j } := by
  have hmatch := h.timers kind
  rw [hi, hj] at hmatch
  obtain ⟨hl, hr⟩ := hmatch.cancelled
  have hspent := h.left.spent kind
  rw [hi] at hspent
  refine ⟨h.left.cancel (some i), h.right.cancel (some j), h.same, h.stopped, fun other => ?_,
    h.spent.trans hspent⟩
  by_cases ho : other = kind
  · subst ho
    show Match self other (w.conversation.timer other) ((w.timers.cancel? (some i)).of self other)
      (w'.conversation.timer other) ((w'.timers.cancel? (some j)).of self other)
    rw [hi, hj, hl, hr]
    exact .gone i j
  · show Match self other _ ((w.timers.cancel? (some i)).of self other) _
      ((w'.timers.cancel? (some j)).of self other)
    rw [← hi, ← hj, of_other h.left ho, of_other h.right ho]
    exact h.timers other

/-- The conversations forget a timer that has fired. -/
theorem forget (h : Alike self t w w') (hl : w.timers.of self kind = [])
    (hr : w'.timers.of self kind = []) :
    Alike self t { w with conversation := w.conversation.setTimer kind none }
      { w' with conversation := w'.conversation.setTimer kind none } where
  left := h.left.forget kind
  right := h.right.forget kind
  same := by simpa only [unnumbered_setTimer] using h.same
  stopped := h.stopped
  timers := fun other => by
    by_cases ho : other = kind
    · subst ho
      simp only [timer_setTimer_self, hl, hr]
      exact .unset
    · simp only [timer_setTimer_ne _ _ ho]
      exact h.timers other
  spent := h.spent

theorem onResponseTimer (h : Alike self t w w') (hi : w.conversation.responseTimer = some i)
    (hj : w'.conversation.responseTimer = some j) (hl : w.timers.of self .response = [])
    (hr : w'.timers.of self .response = []) :
    (w.onResponseTimer i = none ∧ w'.onResponseTimer j = none) ∨
      ∃ v v' e, w.onResponseTimer i = some (v, e) ∧ w'.onResponseTimer j = some (v', e) ∧
        Alike self t v v' := by
  have hforgot := h.forget hl hr
  cases hended : w.conversation.ended with
  | true =>
    have hended' : w'.conversation.ended = true := h.ended ▸ hended
    exact .inl ⟨by simp [Watch.onResponseTimer, hended], by simp [Watch.onResponseTimer, hended']⟩
  | false =>
    have hended' : w'.conversation.ended = false := h.ended ▸ hended
    refine .inr ⟨_, _, _, onResponseTimer_of_kept hended hi, ?_, hforgot.finish .responseTimeout⟩
    rw [onResponseTimer_of_kept hended' hj]
    exact congrArg some (Prod.ext rfl (hforgot.ending .responseTimeout).symm)

theorem onAckTimer (h : Alike self t w w') (hi : w.conversation.ackTimer = some i)
    (hj : w'.conversation.ackTimer = some j) (hl : w.timers.of self .ack = [])
    (hr : w'.timers.of self .ack = []) :
    (w.onAckTimer i = none ∧ w'.onAckTimer j = none) ∨
      ∃ v v' end?, w.onAckTimer i = some (v, end?) ∧ w'.onAckTimer j = some (v', end?) ∧
        Alike self t v v' := by
  have hforgot := h.forget hl hr
  cases hended : w.conversation.ended with
  | true =>
    have hended' : w'.conversation.ended = true := h.ended ▸ hended
    exact .inl ⟨by simp [Watch.onAckTimer, hended], by simp [Watch.onAckTimer, hended']⟩
  | false =>
    have hended' : w'.conversation.ended = false := h.ended ▸ hended
    rw [onAckTimer_of_kept hended hi, onAckTimer_of_kept hended' hj, h.awaitsAnswers, h.ending]
    split
    · exact .inr ⟨_, _, none, rfl, rfl, hforgot⟩
    · exact .inr ⟨_, _, some _, rfl, rfl, hforgot.finish .ackTimeout⟩

/-! ### Other conversations -/

/-- Another conversation uses the timers of the desk. -/
theorem beside (h : Alike self t w w') (hne : self ≠ other) (hs : w.timers.Spent other u)
    (hbelow : ∀ p ∈ u.pending, p.id < u.next) :
    Alike self u { w with timers := u } w' where
  left := h.left.beside hs hbelow
  right := h.right
  same := h.same
  stopped := hs.stopped.trans h.stopped
  timers := fun kind => by
    show Match self kind _ (u.of self kind) _ _
    rw [hs.of_other hne kind]
    exact h.timers kind
  spent := .refl self u

end Alike
end Watch
end Colloquy
