/-
The life of a conversation on a desk whose timers run.

Time passes up to the first timer of the conversation that is due, which then fires.  Between
that anything can happen: the conversation listens and waits, messages come, it is aborted,
other conversations set and cancel timers, and timers that were cancelled fire all the same.
What is remembered of a life is whether the request went out, when timers were set and how
many, and how it came to its end.

The main result is that the timers are in order at every moment of every life: the one for
answers is pending, for the deadline that was asked for last, from the time at which the
request went out until the end; there is at most one for the window in the whole life; after
the end there is none; and a timer that is not kept fires in vain.  Only a conversation that could
not listen ends without giving up its timers.  They go on running, and fire in vain.
-/
import Colloquy.Proofs.Course
import Colloquy.Proofs.Minding
import Colloquy.Proofs.Moves

namespace Colloquy

/-- What happens to a conversation when a timer of it fires. -/
def Timer.firing (p : Timer) : Occurrence :=
  match p.kind with
  | .response => .responseTimer p.id
  | .ack => .ackTimer p.id

namespace Occurrence

def waits : Occurrence → Bool
  | .wait _ => true
  | _ => false

def refuses : Occurrence → Bool
  | .listen registered => !registered
  | _ => false

/-- Whether it is the doing of other conversations. -/
def foreign : Occurrence → Bool
  | .timers _ => true
  | _ => false

def time? : Occurrence → Option Nat
  | .wait now => some now
  | .message now _ => some now
  | _ => none

end Occurrence

/-! ## What is remembered -/

structure Life where
  /-- Whether its request went out. -/
  waited : Bool := false
  /-- When the timer for answers was set last. -/
  armed : Option Nat := none
  /-- How many timers were set for the window. -/
  acks : Nat := 0
  /-- Whether it ended, or was aborted while it was open. -/
  closed : Bool := false
  /-- Whether its topic could not be listened to. -/
  refused : Bool := false

namespace Watch

/-- How many timers for answers an occurrence sets. -/
def setsAnswer (w : Watch) (self : Nat) (o : Occurrence) : Nat :=
  (w.meet self o).1.conversation.arms - w.conversation.arms

/-- How many timers for the window an occurrence sets.  Each timer that a conversation sets
takes a number, and the others are for answers. -/
def setsWindow (w : Watch) (self : Nat) (o : Occurrence) : Nat :=
  if o.foreign then 0
  else (w.meet self o).1.timers.next - w.timers.next - w.setsAnswer self o

/-- Whether an occurrence brings the end, or tears an open conversation down. -/
def closes (w : Watch) (self : Nat) : Occurrence → Bool
  | .abort _ => !w.conversation.ended
  | o => (w.meet self o).2.isSome

end Watch

def Life.after (l : Life) (w : Watch) (self : Nat) (o : Occurrence) : Life where
  waited := l.waited || o.waits
  armed := if 0 < w.setsAnswer self o then o.time? else l.armed
  acks := l.acks + w.setsWindow self o
  closed := l.closed || w.closes self o
  refused := l.refused || o.refuses

/-- A life that goes on. -/
def Watch.lifeFrom (w : Watch) (self : Nat) (l : Life) : List Occurrence → Life
  | [] => l
  | o :: os => (w.meet self o).1.lifeFrom self (l.after w self o) os

def Watch.life (w : Watch) (self : Nat) (os : List Occurrence) : Life := w.lifeFrom self {} os

theorem Watch.lifeFrom_append (w : Watch) (self : Nat) (l : Life) (os ps : List Occurrence) :
    w.lifeFrom self l (os ++ ps) = (w.course self os).lifeFrom self (w.lifeFrom self l os) ps := by
  induction os generalizing w l with
  | nil => rfl
  | cons o os ih => exact ih (w.meet self o).1 (l.after w self o)

/-! ## Lives -/

/-- A conversation at some time. -/
structure Moment where
  now : Nat
  watch : Watch

namespace Moment

/-- What can happen to a conversation at a moment, but for its own timers that are due.
Others leave its timers alone, and a timer that was cancelled has another number than the one
that is kept. -/
def Admits (m : Moment) (self : Nat) : Occurrence → Prop
  | .listen _ => True
  | .wait now => now = m.now
  | .message now _ => now = m.now
  | .responseTimer id => m.watch.conversation.responseTimer ≠ some id
  | .ackTimer id => m.watch.conversation.ackTimer ≠ some id
  | .abort _ => True
  | .timers t => m.watch.timers.Beside self t

inductive Step (self : Nat) (m : Moment) : List Occurrence → Moment → Prop where
  | occurs (o : Occurrence) : m.Admits self o →
      Step self m [o] { m with watch := (m.watch.meet self o).1 }
  /-- No timer of the conversation is passed over. -/
  | passes (later : Nat) : m.now ≤ later →
      (∀ kind, ∀ p ∈ m.watch.timers.of self kind, later ≤ p.due) →
      Step self m [] { m with now := later }
  /-- A timer that is due is taken from those pending, and fires. -/
  | fires (p : Timer) : p ∈ m.watch.timers.of self p.kind → p.due = m.now →
      Step self m [.timers (m.watch.timers.cancel p.id), p.firing]
        { m with
          watch := m.watch.course self [.timers (m.watch.timers.cancel p.id), p.firing] }

/-- Any number of steps, with what happens in them. -/
inductive Lives (self : Nat) (m : Moment) : List Occurrence → Moment → Prop where
  | start : Lives self m [] m
  | step {os ps : List Occurrence} {m' m'' : Moment} : Lives self m os m' →
      Step self m' ps m'' → Lives self m (os ++ ps) m''

theorem Step.course {self : Nat} {m m' : Moment} {os : List Occurrence}
    (h : Step self m os m') : m'.watch = m.watch.course self os := by
  cases h with
  | occurs o _ => rfl
  | passes later _ _ => rfl
  | fires p _ _ => rfl

theorem Lives.course {self : Nat} {m m' : Moment} {os : List Occurrence}
    (h : Lives self m os m') : m'.watch = m.watch.course self os := by
  induction h with
  | start => rfl
  | step _ hstep ih => rw [hstep.course, ih, Watch.course_append]

/-! ## Open and closed -/

/-- How it stands with the timers at a moment.  A conversation that could not listen keeps
those that were set before. -/
inductive Tends (self : Nat) (l : Life) (m : Moment) : Prop where
  | goesOn (others : Nat) : m.watch.conversation.ended = false → l.closed = false →
      (l.waited = true → l.armed.isSome) →
      Minds self m.now l.armed l.acks others m.watch → Tends self l m
  | gone : m.watch.conversation.ended = true → l.closed = true → l.acks ≤ 1 →
      (∀ kind, m.watch.timers.of self kind = []) → Tends self l m
  | refused : m.watch.conversation.ended = true → l.closed = false → l.refused = true →
      l.acks ≤ 1 →
      (∀ p ∈ m.watch.timers.of self .ack, m.watch.timers.of self .ack = [p] ∧
        m.watch.conversation.ackDeadline = some p.due) → Tends self l m

variable {self : Nat} {l : Life} {m : Moment} {w v : Watch} {o : Occurrence}

theorem after_timers (l : Life) (w : Watch) (self : Nat) (t : Timers) :
    l.after w self (.timers t) = l := by
  have hnone : w.setsAnswer self (.timers t) = 0 := Nat.sub_self _
  simp only [Life.after, Watch.setsWindow, Watch.closes, Watch.meet, Occurrence.waits,
    Occurrence.refuses, Occurrence.foreign, hnone, Bool.or_false, if_true, Nat.add_zero,
    Nat.lt_irrefl, if_false, Option.isSome_none]

/-- The conversation stays open, and may set timers. -/
theorem tends_of_open {others : Nat} (hmeet : m.watch.meet self o = (v, none))
    (hown : o.foreign = false) (hcloses : m.watch.closes self o = false)
    (hopen : v.conversation.ended = false) (hclosed : l.closed = false)
    (hwaited : l.waited = true → l.armed.isSome)
    (hwaits : o.waits = true → m.watch.conversation.arms < v.conversation.arms)
    (htime : m.watch.conversation.arms < v.conversation.arms → o.time? = some m.now)
    (hn : m.watch.timers.next = others + m.watch.conversation.arms + l.acks)
    (hv : m.watch.conversation.arms ≤ v.conversation.arms ∧ ∃ acks', l.acks ≤ acks' ∧
      Minds self m.now
        (if m.watch.conversation.arms < v.conversation.arms then some m.now else l.armed)
        acks' others v) :
    Tends self (l.after m.watch self o) { m with watch := v } := by
  obtain ⟨harms, acks', hacks, hminds⟩ := hv
  have hwatch : (m.watch.meet self o).1 = v := by rw [hmeet]
  have hcount : m.watch.setsWindow self o = acks' - l.acks := by
    have hn' := hminds.numbers
    simp only [Watch.setsWindow, Watch.setsAnswer, hown, hwatch, if_false, Bool.false_eq_true]
    omega
  have harmed : (l.after m.watch self o).armed =
      if m.watch.conversation.arms < v.conversation.arms then some m.now else l.armed := by
    simp only [Life.after, Watch.setsAnswer, hwatch, Nat.sub_pos_iff_lt]
    by_cases hlt : m.watch.conversation.arms < v.conversation.arms
    · rw [if_pos hlt, if_pos hlt, htime hlt]
    · rw [if_neg hlt, if_neg hlt]
  have hnumber : (l.after m.watch self o).acks = acks' := by
    show l.acks + m.watch.setsWindow self o = acks'
    rw [hcount]
    omega
  refine .goesOn others hopen ?_ ?_ ?_
  · show (l.closed || m.watch.closes self o) = false
    rw [hclosed, hcloses]
    rfl
  · intro hafter
    have hor : (l.waited || o.waits) = true := hafter
    rw [harmed]
    split
    · rfl
    · rename_i hlt
      cases hw : o.waits with
      | true => exact absurd (hwaits hw) hlt
      | false =>
        rw [hw, Bool.or_false] at hor
        exact hwaited hor
  · rw [harmed, hnumber]
    exact hminds

/-- The conversation stays open, and sets no timer. -/
theorem tends_of_still {others : Nat} (hmeet : m.watch.meet self o = (v, none))
    (hown : o.foreign = false) (hcloses : m.watch.closes self o = false)
    (hopen : v.conversation.ended = false) (hclosed : l.closed = false)
    (hwaited : l.waited = true → l.armed.isSome) (hwaits : o.waits = false)
    (hnext : v.timers.next = m.watch.timers.next)
    (hn : m.watch.timers.next = others + m.watch.conversation.arms + l.acks)
    (hv : Minds self m.now l.armed l.acks others v) :
    Tends self (l.after m.watch self o) { m with watch := v } := by
  have harms : v.conversation.arms = m.watch.conversation.arms := by
    have hn' := hv.numbers
    omega
  have hnot : ¬m.watch.conversation.arms < v.conversation.arms := by omega
  refine tends_of_open hmeet hown hcloses hopen hclosed hwaited ?_ ?_ hn
    ⟨Nat.le_of_eq harms.symm, l.acks, Nat.le_refl _, ?_⟩
  · intro hw
    rw [hwaits] at hw
    cases hw
  · exact fun hlt => absurd hlt hnot
  · rw [if_neg hnot]
    exact hv

/-- The conversation comes to its end. -/
theorem tends_of_closing {others : Nat} (hwatch : (m.watch.meet self o).1 = v)
    (hown : o.foreign = false) (hcloses : m.watch.closes self o = true)
    (hended : v.conversation.ended = true) (hone : l.acks ≤ 1)
    (hn : m.watch.timers.next = others + m.watch.conversation.arms + l.acks)
    (hv : Rests self l.acks others v) :
    Tends self (l.after m.watch self o) { m with watch := v } := by
  have hcount : m.watch.setsWindow self o = 0 := by
    have hn' := hv.numbers
    simp only [Watch.setsWindow, Watch.setsAnswer, hown, hwatch, if_false, Bool.false_eq_true]
    omega
  refine .gone hended ?_ ?_ hv.idle
  · show (l.closed || m.watch.closes self o) = true
    rw [hcloses, Bool.or_true]
  · show l.acks + m.watch.setsWindow self o ≤ 1
    omega

/-- Nothing that happens after the end touches a timer. -/
theorem meet_of_ended (h : w.conversation.ended = true) (self : Nat) (hown : o.foreign = false)
    (hopens : o.opens = false) : w.meet self o = (w, none) := by
  cases o with
  | listen registered => cases hopens
  | wait now => simp only [Watch.meet, Watch.wait, h, if_true]
  | message now m => simp only [Watch.meet, Watch.receive_of_ended h, Option.getD_none]
  | responseTimer id =>
    simp only [Watch.meet, Watch.onResponseTimer, h, Bool.true_or, if_true, Option.map_none,
      Option.getD_none]
  | ackTimer id =>
    simp only [Watch.meet, Watch.onAckTimer, h, Bool.true_or, if_true, Option.getD_none]
  | abort why => simp only [Watch.meet, Watch.abort_of_ended h]
  | timers t => cases hown

theorem closes_of_ended (h : w.conversation.ended = true) (self : Nat) (o : Occurrence) :
    w.closes self o = false := by
  have hmeet : (w.meet self o).2 = none := by
    cases hown : o.foreign with
    | true =>
      cases o with
      | timers t => rfl
      | _ => cases hown
    | false =>
      cases hopens : o.opens with
      | true =>
        cases o with
        | listen registered => rfl
        | _ => cases hopens
      | false => rw [meet_of_ended h self hown hopens]
  cases o with
  | abort why => simp only [Watch.closes, h, Bool.not_true]
  | _ => simp only [Watch.closes, hmeet, Option.isSome_none]

theorem listen_ended (c : Conversation) : c.listen.ended = c.ended := by
  rw [Conversation.listen_eq]

/-- Opening the window once more leaves it where it was. -/
theorem listen_again {start : Nat} {terms : Terms} {opened : Bool} {c : Conversation}
    (h : Timed start terms opened c) {d : Nat} (hd : c.ackDeadline = some d) :
    c.listen.ackDeadline = some d := by
  have hdeadline := h.ackDeadline
  rw [hd] at hdeadline
  cases opened with
  | false => cases hdeadline
  | true =>
    rw [h.listen.ackDeadline]
    exact hdeadline.symm

/-! ## Steps -/

/-- After the end timers can only go. -/
theorem Tends.idle (h : Tends self l m) (hended : m.watch.conversation.ended = true)
    (hwatch : (m.watch.meet self o).1 = v)
    (hnext : o.foreign = true ∨ v.timers.next = m.watch.timers.next)
    (hof : ∀ kind, (v.timers.of self kind).Sublist (m.watch.timers.of self kind))
    (hstill : v.conversation.ended = true)
    (hdeadline : ∀ d, m.watch.conversation.ackDeadline = some d →
      v.conversation.ackDeadline = some d) :
    Tends self (l.after m.watch self o) { m with watch := v } := by
  have hnone : m.watch.setsWindow self o = 0 := by
    rcases hnext with hforeign | hnext
    · simp only [Watch.setsWindow, hforeign, if_true]
    · simp only [Watch.setsWindow, hwatch, hnext, Nat.sub_self, Nat.zero_sub, ite_self]
  have hacks : (l.after m.watch self o).acks = l.acks := by
    show l.acks + m.watch.setsWindow self o = l.acks
    rw [hnone, Nat.add_zero]
  have hclosed : (l.after m.watch self o).closed = l.closed := by
    show (l.closed || m.watch.closes self o) = l.closed
    rw [closes_of_ended hended, Bool.or_false]
  cases h with
  | goesOn others hopen _ _ _ =>
    rw [hended] at hopen
    cases hopen
  | gone _ hc hone hidle =>
    refine .gone hstill (hclosed.trans hc) (by rw [hacks]; exact hone) fun kind => ?_
    have hsub := hof kind
    rw [hidle kind] at hsub
    exact List.sublist_nil.mp hsub
  | refused _ hc hrefused hone hwindow =>
    refine .refused hstill (hclosed.trans hc) ?_ (by rw [hacks]; exact hone) fun p hp => ?_
    · show (l.refused || o.refuses) = true
      rw [hrefused, Bool.true_or]
    · obtain ⟨honly, hd⟩ := hwindow p ((hof .ack).subset hp)
      have hsub := hof .ack
      rw [honly] at hsub
      refine ⟨hsub.eq_of_length_le ?_, hdeadline _ hd⟩
      exact List.length_pos_of_mem hp

theorem Tends.of_open (h : Tends self l m) (hopen : m.watch.conversation.ended = false) :
    l.closed = false ∧ (l.waited = true → l.armed.isSome) ∧
      ∃ others, Minds self m.now l.armed l.acks others m.watch := by
  cases h with
  | goesOn others _ hclosed hwaited hminds => exact ⟨hclosed, hwaited, others, hminds⟩
  | gone he _ _ _ =>
    rw [hopen] at he
    cases he
  | refused he _ _ _ _ =>
    rw [hopen] at he
    cases he

theorem Tends.listen {start : Nat} {terms : Terms} {opened : Bool} (h : Tends self l m)
    (htimed : Timed start terms opened m.watch.conversation) (registered : Bool) :
    Tends self (l.after m.watch self (.listen registered))
      { m with watch := (m.watch.meet self (.listen registered)).1 } := by
  cases hended : m.watch.conversation.ended with
  | true =>
    refine h.idle hended rfl (Or.inr rfl) (fun _ => .refl _) ?_ ?_
    · cases registered with
      | true => exact (listen_ended _).trans hended
      | false => rfl
    · cases registered <;> exact fun d hd => listen_again htimed hd
  | false =>
    obtain ⟨hclosed, hwaited, others, hminds⟩ := h.of_open hended
    have hlistened := hminds.listen fun d hd => listen_again htimed hd
    cases registered with
    | true =>
      exact tends_of_still rfl rfl rfl ((listen_ended _).trans hended) hclosed hwaited rfl rfl
        hminds.numbers hlistened
    | false =>
      refine .refused rfl ?_ ?_ ?_ fun p hp => hlistened.window_of_mem hp
      · show (l.closed || false) = false
        rw [hclosed]
        rfl
      · show (l.refused || true) = true
        exact Bool.or_true _
      · show l.acks + (m.watch.timers.next - m.watch.timers.next - _) ≤ 1
        have hone := hminds.window.count_le_one
        omega

/-- Whatever else happens to a conversation that has ended. -/
theorem Tends.own_of_ended (h : Tends self l m) (hended : m.watch.conversation.ended = true)
    (hown : o.foreign = false) (hopens : o.opens = false) :
    Tends self (l.after m.watch self o) { m with watch := (m.watch.meet self o).1 } := by
  have hmeet := meet_of_ended hended self hown hopens
  refine h.idle hended rfl (Or.inr ?_) (fun kind => ?_) ?_ ?_ <;> rw [hmeet]
  · exact hended
  · exact fun d hd => hd

theorem Tends.wait (h : Tends self l m) :
    Tends self (l.after m.watch self (.wait m.now))
      { m with watch := (m.watch.meet self (.wait m.now)).1 } := by
  cases hended : m.watch.conversation.ended with
  | true => exact h.own_of_ended hended rfl rfl
  | false =>
    obtain ⟨hclosed, hwaited, others, hminds⟩ := h.of_open hended
    obtain ⟨harms, acks', hacks, hset⟩ := hminds.wait hended
    have hopen : (m.watch.wait self m.now).conversation.ended = false :=
      (Conversation.ended_of_untimed (Watch.wait_untimed m.watch self m.now)).trans hended
    refine tends_of_open rfl rfl rfl hopen hclosed hwaited (fun _ => harms) (fun _ => rfl)
      hminds.numbers ⟨Nat.le_of_lt harms, acks', hacks, ?_⟩
    exact (if_pos harms).symm ▸ hset

theorem Tends.message (h : Tends self l m) (k : Message) :
    Tends self (l.after m.watch self (.message m.now k))
      { m with watch := (m.watch.meet self (.message m.now k)).1 } := by
  cases hended : m.watch.conversation.ended with
  | true => exact h.own_of_ended hended rfl rfl
  | false =>
    obtain ⟨hclosed, hwaited, others, hminds⟩ := h.of_open hended
    cases hr : m.watch.receive self m.now k with
    | none =>
      rw [Watch.receive_eq_none_iff, hended] at hr
      cases hr
    | some r =>
      obtain ⟨v, end?⟩ := r
      have hmeet : m.watch.meet self (.message m.now k) = (v, end?) := by
        simp only [Watch.meet, hr, Option.getD_some]
      have hwatch : (m.watch.meet self (.message m.now k)).1 = v := by rw [hmeet]
      have hcloses : m.watch.closes self (.message m.now k) = end?.isSome := by
        simp only [Watch.closes, hmeet]
      rw [hwatch]
      obtain ⟨-, ⟨rfl, hv⟩ | ⟨rfl, hv, -, -⟩⟩ := Watch.receive_eq_some hr
      · exact tends_of_open hmeet rfl hcloses
          ((Conversation.ended_of_untimed hv).trans hended) hclosed hwaited
          (fun hw => absurd hw Bool.false_ne_true) (fun _ => rfl) hminds.numbers
          (hminds.receive_goesOn hr)
      · exact tends_of_closing hwatch rfl hcloses (Conversation.ended_of_untimed hv)
          hminds.window.count_le_one hminds.numbers (hminds.receive_ends hr)

theorem Tends.abort (h : Tends self l m) (why : Failure) :
    Tends self (l.after m.watch self (.abort why))
      { m with watch := (m.watch.meet self (.abort why)).1 } := by
  cases hended : m.watch.conversation.ended with
  | true => exact h.own_of_ended hended rfl rfl
  | false =>
    obtain ⟨hclosed, hwaited, others, hminds⟩ := h.of_open hended
    obtain ⟨v, hv, huntimed⟩ := Watch.abort_of_open hended
    have hrests := hminds.abort hended
    rw [hv] at hrests
    have hwatch : (m.watch.meet self (.abort why)).1 = v := by simp only [Watch.meet, hv]
    rw [hwatch]
    refine tends_of_closing hwatch rfl ?_ (Conversation.ended_of_untimed huntimed)
      hminds.window.count_le_one hminds.numbers hrests
    simp only [Watch.closes, hended, Bool.not_false]

/-- A timer that is not kept fires in vain. -/
theorem meet_firing_of_stray {p : Timer} (h : w.conversation.timer p.kind ≠ some p.id)
    (self : Nat) : w.meet self p.firing = (w, none) := by
  unfold Timer.firing
  cases hk : p.kind with
  | response =>
    rw [hk] at h
    simp only [Watch.meet, Watch.onResponseTimer_of_stray h, Option.map_none, Option.getD_none]
  | ack =>
    rw [hk] at h
    simp only [Watch.meet, Watch.onAckTimer_of_stray h, Option.getD_none]

theorem firing_foreign (p : Timer) : p.firing.foreign = false := by
  unfold Timer.firing
  cases p.kind <;> rfl

theorem firing_opens (p : Timer) : p.firing.opens = false := by
  unfold Timer.firing
  cases p.kind <;> rfl

theorem firing_waits (p : Timer) : p.firing.waits = false := by
  unfold Timer.firing
  cases p.kind <;> rfl

theorem closes_firing (w : Watch) (self : Nat) (p : Timer) :
    w.closes self p.firing = (w.meet self p.firing).2.isSome := by
  unfold Timer.firing
  cases p.kind <;> rfl

theorem Tends.stray (h : Tends self l m) {p : Timer}
    (hstray : m.watch.conversation.timer p.kind ≠ some p.id) :
    Tends self (l.after m.watch self p.firing)
      { m with watch := (m.watch.meet self p.firing).1 } := by
  have hmeet := meet_firing_of_stray hstray self
  cases hended : m.watch.conversation.ended with
  | true => exact h.own_of_ended hended (firing_foreign p) (firing_opens p)
  | false =>
    obtain ⟨hclosed, hwaited, others, hminds⟩ := h.of_open hended
    have hcloses : m.watch.closes self p.firing = false := by
      rw [closes_firing, hmeet]
      rfl
    rw [hmeet]
    exact tends_of_still hmeet (firing_foreign p) hcloses hended hclosed hwaited
      (firing_waits p) rfl hminds.numbers hminds

theorem Tends.beside (h : Tends self l m) {t : Timers} (hb : m.watch.timers.Beside self t) :
    Tends self (l.after m.watch self (.timers t))
      { m with watch := (m.watch.meet self (.timers t)).1 } := by
  cases hended : m.watch.conversation.ended with
  | true =>
    refine h.idle hended rfl (Or.inl rfl) (fun kind => ?_) hended (fun d hd => hd)
    show (t.of self kind).Sublist _
    rw [hb.of kind]
  | false =>
    obtain ⟨hclosed, hwaited, others, hminds⟩ := h.of_open hended
    obtain ⟨others', hbeside⟩ := hminds.beside hb
    rw [after_timers]
    exact .goesOn others' hended hclosed hwaited hbeside

theorem Tends.passes (h : Tends self l m) {later : Nat} (hlater : m.now ≤ later)
    (hdue : ∀ kind, ∀ p ∈ m.watch.timers.of self kind, later ≤ p.due) :
    Tends self l { m with now := later } := by
  cases h with
  | goesOn others hopen hclosed hwaited hminds =>
    exact .goesOn others hopen hclosed hwaited (hminds.passes hlater hdue)
  | gone he hclosed hone hidle => exact .gone he hclosed hone hidle
  | refused he hclosed hrefused hone hwindow => exact .refused he hclosed hrefused hone hwindow

/-- A conversation from whose pending timers one was taken. -/
def without (m : Moment) (p : Timer) : Moment :=
  { m with watch := { m.watch with timers := m.watch.timers.cancel p.id } }

theorem Tends.fires (h : Tends self l m) {p : Timer} (hp : p ∈ m.watch.timers.of self p.kind)
    (hdue : p.due = m.now) :
    Tends self (l.after (m.without p).watch self p.firing)
      { m with watch := ((m.without p).watch.meet self p.firing).1 } := by
  cases hended : m.watch.conversation.ended with
  | true =>
    have hgone : Tends self l (m.without p) := by
      rw [← after_timers l m.watch self (m.watch.timers.cancel p.id)]
      refine h.idle hended rfl (Or.inl rfl) (fun kind => ?_) hended (fun d hd => hd)
      rw [Timers.of_cancel]
      exact List.filter_sublist
    exact hgone.own_of_ended hended (firing_foreign p) (firing_opens p)
  | false =>
    obtain ⟨hclosed, hwaited, others, hminds⟩ := h.of_open hended
    have hone := hminds.window.count_le_one
    cases hk : p.kind with
    | response =>
      rw [hk] at hp
      obtain ⟨v, e, hfire, hrests⟩ := hminds.fires_response hended hp
      have hmeet : (m.without p).watch.meet self p.firing = (v, some e) := by
        simp only [Timer.firing, hk, without, Watch.meet, hfire, Option.map_some,
          Option.getD_some]
      have hcloses : (m.without p).watch.closes self p.firing = true := by
        rw [closes_firing, hmeet]
        rfl
      have hstill := (Watch.onResponseTimer_eq_some hfire).2.2.2
      rw [hmeet]
      exact tends_of_closing (m := m.without p) (by rw [hmeet]) (firing_foreign p) hcloses
        (Conversation.ended_of_untimed hstill) hone hminds.numbers hrests
    | ack =>
      rw [hk] at hp
      obtain ⟨v, end?, hfire, hcases⟩ := hminds.fires_ack hended hp hdue
      have hmeet : (m.without p).watch.meet self p.firing = (v, end?) := by
        simp only [Timer.firing, hk, without, Watch.meet, hfire, Option.getD_some]
      have hcloses : (m.without p).watch.closes self p.firing = end?.isSome := by
        rw [closes_firing, hmeet]
      obtain ⟨-, -, ⟨rfl, hstill, -⟩ | ⟨rfl, hstill, -⟩⟩ := Watch.onAckTimer_eq_some hfire
      · rw [hmeet]
        obtain ⟨-, hnext, hv⟩ | ⟨hsome, -⟩ := hcases
        · exact tends_of_still (m := m.without p) hmeet (firing_foreign p) hcloses
            ((Conversation.ended_of_untimed hstill).trans hended) hclosed hwaited
            (firing_waits p) hnext hminds.numbers hv
        · cases hsome
      · rw [hmeet]
        obtain ⟨hnone, -⟩ | ⟨-, hv⟩ := hcases
        · cases hnone
        · exact tends_of_closing (m := m.without p) (by rw [hmeet]) (firing_foreign p) hcloses
            (Conversation.ended_of_untimed hstill) hone hminds.numbers hv

/-! ## Runs -/

theorem Tends.occurs {start : Nat} {terms : Terms} {opened : Bool} (h : Tends self l m)
    (htimed : Timed start terms opened m.watch.conversation) (hadmits : m.Admits self o) :
    Tends self (l.after m.watch self o) { m with watch := (m.watch.meet self o).1 } := by
  cases o with
  | listen registered => exact h.listen htimed registered
  | wait now =>
    have hnow : now = m.now := hadmits
    rw [hnow]
    exact h.wait
  | message now k =>
    have hnow : now = m.now := hadmits
    rw [hnow]
    exact h.message k
  | responseTimer id =>
    exact h.stray (p := { id, kind := .response, owner := self, due := m.now }) hadmits
  | ackTimer id =>
    exact h.stray (p := { id, kind := .ack, owner := self, due := m.now }) hadmits
  | abort why => exact h.abort why
  | timers t => exact h.beside hadmits

theorem Tends.step {start : Nat} {terms : Terms} {opened : Bool} {m' : Moment}
    {os : List Occurrence} (h : Tends self l m)
    (htimed : Timed start terms opened m.watch.conversation) (hstep : Step self m os m') :
    Tends self (m.watch.lifeFrom self l os) m' := by
  cases hstep with
  | occurs o hadmits => exact h.occurs htimed hadmits
  | passes later hlater hdue => exact h.passes hlater hdue
  | fires p hp hdue =>
    have hfired := h.fires hp hdue
    rw [Watch.lifeFrom, Watch.lifeFrom, Watch.lifeFrom, after_timers]
    exact hfired

theorem Tends.lives {start : Nat} {terms : Terms} {opened : Bool} {m' : Moment}
    {os : List Occurrence} (h : Tends self l m)
    (htimed : Timed start terms opened m.watch.conversation) (hlives : Lives self m os m') :
    Tends self (m.watch.lifeFrom self l os) m' := by
  induction hlives with
  | start => exact h
  | @step os ps m' m'' hlives hstep ih =>
    have hcourse := htimed.course self os
    rw [← hlives.course] at hcourse
    rw [Watch.lifeFrom_append, ← hlives.course]
    exact ih.step hcourse hstep

theorem tends_opening (correlation topic : String) (start : Nat) (terms : Terms)
    {timers : Timers} (hrunning : timers.stopped = false)
    (hnone : ∀ kind, timers.of self kind = []) :
    Tends self {} ⟨start, .opening correlation topic start terms timers⟩ := by
  refine .goesOn timers.next rfl rfl (fun hw => nomatch hw) ?_
  constructor
  · exact hrunning
  · rfl
  · exact .of_none (hnone .response) _
  · rfl
  · exact fun harmed => nomatch harmed
  · exact .of_none (hnone .ack) _
  · exact fun _ hid => nomatch hid
  · exact .unset

/-- The timers of a conversation are in order. -/
structure InOrder (owner : Nat) (l : Life) (m : Moment) : Prop where
  /-- From the time the request went out until the end, the timer for answers is pending that
  is kept, and no other one. -/
  answers : l.waited = true → m.watch.conversation.ended = false →
    ∃ id armed, m.watch.conversation.responseTimer = some id ∧ l.armed = some armed ∧
      m.watch.timers.of owner .response = [{
        id
        kind := .response
        owner
        due := max armed
          (m.watch.conversation.startedAt + m.watch.conversation.timeoutMs) }]
  /-- At most one timer for the window is pending, and it is due when the window closes. -/
  window : ∀ p ∈ m.watch.timers.of owner .ack, m.watch.timers.of owner .ack = [p] ∧
    m.watch.conversation.ackDeadline = some p.due
  once : l.acks ≤ 1
  closed : l.closed = true → ∀ kind, m.watch.timers.of owner kind = []
  /-- It is ended because it came to an end, or was torn down, or could not be listened to. -/
  ended : m.watch.conversation.ended = true → l.closed = true ∨ l.refused = true
  /-- After that, whatever is still pending fires in vain. -/
  vain : m.watch.conversation.ended = true → ∀ p : Timer,
    m.watch.meet owner p.firing = (m.watch, none)
  /-- A timer that is not kept fires in vain. -/
  stray : ∀ p : Timer, m.watch.conversation.timer p.kind ≠ some p.id →
    m.watch.meet owner p.firing = (m.watch, none)
  /-- In a session nothing follows, and only the timer itself is gone. -/
  strayInSession : ∀ (s : Session) (desk : DeskName) (p : Timer) (x : Exchange),
    s.exchanges.get? p.owner = some x → x.conversation = m.watch.conversation →
    m.watch.conversation.timer p.kind ≠ some p.id →
    s.fire desk p = ([], s.setTimers desk ((s.desk desk).timers.cancel p.id))

theorem fire_of_stray {s : Session} {desk : DeskName} {p : Timer} {x : Exchange}
    (hx : s.exchanges.get? p.owner = some x)
    (hstray : x.conversation.timer p.kind ≠ some p.id) :
    s.fire desk p = ([], s.setTimers desk ((s.desk desk).timers.cancel p.id)) := by
  have hx' : (s.setTimers desk ((s.desk desk).timers.cancel p.id)).exchanges.get? p.owner =
      some x := by
    rw [(s.setTimers_keeps desk _).exchanges]
    exact hx
  unfold Session.fire
  simp only [hx']
  split
  · rfl
  · cases hk : p.kind with
    | response =>
      rw [hk] at hstray
      simp only [Watch.onResponseTimer_of_stray
        (w := (s.setTimers desk ((s.desk desk).timers.cancel p.id)).watch x) hstray]
    | ack =>
      rw [hk] at hstray
      simp only [Watch.onAckTimer_of_stray
        (w := (s.setTimers desk ((s.desk desk).timers.cancel p.id)).watch x) hstray]

theorem Tends.inOrder (h : Tends self l m) : m.InOrder self l where
  answers := fun hw hopen => by
    obtain ⟨hclosed, hwaited, others, hminds⟩ := h.of_open hopen
    obtain ⟨armed, harmed⟩ := Option.isSome_iff_exists.mp (hwaited hw)
    have hkept := hminds.kept
    have hpending := hminds.response.pending
    rw [harmed, Option.isSome_some] at hkept
    obtain ⟨id, hid⟩ := Option.isSome_iff_exists.mp hkept
    rw [hid, harmed] at hpending
    exact ⟨id, armed, hid, harmed, hpending⟩
  window := by
    cases h with
    | goesOn others hopen hclosed hwaited hminds => exact fun p hp => hminds.window_of_mem hp
    | gone _ _ _ hidle =>
      intro p hp
      rw [hidle .ack] at hp
      cases hp
    | refused _ _ _ _ hwindow => exact hwindow
  once := by
    cases h with
    | goesOn others hopen hclosed hwaited hminds => exact hminds.window.count_le_one
    | gone _ _ hone _ => exact hone
    | refused _ _ _ hone _ => exact hone
  closed := by
    intro hclosed
    cases h with
    | gone _ _ _ hidle => exact hidle
    | goesOn others _ hnot _ _ =>
      rw [hclosed] at hnot
      cases hnot
    | refused _ hnot _ _ _ =>
      rw [hclosed] at hnot
      cases hnot
  ended := by
    intro hended
    cases h with
    | gone _ hclosed _ _ => exact Or.inl hclosed
    | refused _ _ hrefused _ _ => exact Or.inr hrefused
    | goesOn others hopen _ _ _ =>
      rw [hended] at hopen
      cases hopen
  vain := fun hended p => meet_of_ended hended self (firing_foreign p) (firing_opens p)
  stray := fun p hstray => meet_firing_of_stray hstray self
  strayInSession := fun s desk p x hx hsame hstray =>
    fire_of_stray hx (by rw [hsame]; exact hstray)

/-- The timers of a conversation are in order at every moment of its life. -/
theorem Lives.timers_in_order {correlation topic : String} {start : Nat} {terms : Terms}
    {timers : Timers} {self : Nat} {os : List Occurrence} {m : Moment}
    (hrunning : timers.stopped = false) (hnone : ∀ kind, timers.of self kind = [])
    (h : Lives self ⟨start, .opening correlation topic start terms timers⟩ os m) :
    m.InOrder self ((Watch.opening correlation topic start terms timers).life self os) := by
  have hopening := tends_opening correlation topic start terms hrunning hnone
  have htimed : Timed start terms false
      (Watch.opening correlation topic start terms timers).conversation := ⟨rfl, rfl, rfl⟩
  exact (hopening.lives htimed h).inOrder

/-- A responder asks for more time, and its answers do not come. -/
theorem timers_in_order_until_late :
    let k : Message := {
      id := "later"
      correlation := "talk"
      route := { destination := "answers" }
      stamp := { createdAt := .epoch, origin := default }
      ack := some { responderId := "slow", timeoutMs := some 300 } }
    let w := Watch.opening "talk" "answers" 0 { responseTimeoutMs := 100, wait := .exactly 1 } {}
    ∃ os m, Lives 7 ⟨0, w⟩ os m ∧ .message 40 k ∈ os ∧ m.now = 300 ∧
      m.watch.conversation.ended = false ∧
      (w.life 7 os).waited = true ∧ (w.life 7 os).armed = some 40 ∧
      m.InOrder 7 (w.life 7 os) := by
  intro k w
  have hlisten : Lives 7 ⟨0, w⟩ _ _ := .step .start (.occurs (.listen true) trivial)
  have hwait := hlisten.step (.occurs (.wait 0) rfl)
  have hpass := hwait.step (.passes 40 (by decide) (by
    intro kind
    cases kind <;> decide +kernel))
  have htold := hpass.step (.occurs (.message 40 k) rfl)
  have hlate := htold.step (.passes 300 (by decide) (by
    intro kind
    cases kind <;> decide +kernel))
  exact ⟨_, _, hlate, by simp, rfl, by decide +kernel, by decide +kernel, by decide +kernel,
    hlate.timers_in_order rfl fun kind => by cases kind <;> rfl⟩

/-- A responder asks for more time before the conversation listens, and then the conversation
cannot listen.  It has ended, and its timer is pending. -/
theorem timer_left_by_refusal :
    let k : Message := {
      id := "early"
      correlation := "talk"
      route := { destination := "answers" }
      stamp := { createdAt := .epoch, origin := default }
      ack := some { responderId := "slow", timeoutMs := some 300 } }
    let w := Watch.opening "talk" "answers" 0 { responseTimeoutMs := 100, wait := .exactly 1 } {}
    ∃ m, Lives 7 ⟨0, w⟩ [.message 0 k, .listen false] m ∧ m.watch.conversation.ended = true ∧
      (m.watch.timers.of 7 .response).map Timer.due = [300] := by
  intro k w
  have htold : Lives 7 ⟨0, w⟩ _ _ := .step .start (.occurs (.message 0 k) rfl)
  have hrefused := htold.step (.occurs (.listen false) trivial)
  exact ⟨_, hrefused, by decide +kernel, by decide +kernel⟩

end Moment
end Colloquy
