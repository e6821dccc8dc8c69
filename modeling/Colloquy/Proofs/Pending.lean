/-
Which timers of a conversation are pending.

A conversation keeps the number of the timer for answers and of the one for its window.
`Shows` says that this is a true picture: of one kind, the timer with the number that is
kept is pending, set for some time, and no other one.
-/
import Mathlib.Data.List.Basic
import Colloquy.Timers

namespace Colloquy
namespace Timers

/-- The pending timers of one kind that belong to a conversation. -/
def of (t : Timers) (owner : Nat) (kind : TimerKind) : List Timer :=
  t.pending.filter fun p => decide (p.owner = owner ∧ p.kind = kind)

/-- One timer more. -/
def add (t : Timers) (kind : TimerKind) (owner due : Nat) : Timers :=
  { t with
    pending := t.pending ++ [{ id := t.next, kind, owner, due }]
    next := t.next + 1 }

theorem schedule_of_running {t : Timers} (h : t.stopped = false) (kind : TimerKind)
    (owner now delay : Nat) :
    t.schedule kind owner now delay = (some t.next, t.add kind owner (now + delay), []) := by
  simp only [schedule, h, if_false, Bool.false_eq_true, add]

theorem of_add_self (t : Timers) (kind : TimerKind) (owner due : Nat) :
    (t.add kind owner due).of owner kind =
      t.of owner kind ++ [{ id := t.next, kind, owner, due }] := by
  simp [of, add, List.filter_append]

theorem of_add_of_ne (t : Timers) {kind kind' : TimerKind} (h : kind' ≠ kind)
    (owner due : Nat) : (t.add kind' owner due).of owner kind = t.of owner kind := by
  simp [of, add, List.filter_append, h]

theorem of_cancel (t : Timers) (id owner : Nat) (kind : TimerKind) :
    (t.cancel id).of owner kind = (t.of owner kind).filter fun p => decide (p.id ≠ id) :=
  List.filter_comm _ _ _

/-! ## Cancelling what is kept -/

@[simp] theorem cancel?_next (t : Timers) (id? : Option Nat) : (t.cancel? id?).next = t.next := by
  cases id? <;> rfl

@[simp] theorem cancel?_stopped (t : Timers) (id? : Option Nat) :
    (t.cancel? id?).stopped = t.stopped := by
  cases id? <;> rfl

/-- Of one kind, a conversation has the timer pending that it keeps, set for `due`, and no
other. -/
structure Shows (t : Timers) (owner : Nat) (kind : TimerKind) (kept : Option Nat) (due : Nat) :
    Prop where
  pending : t.of owner kind = (kept.map fun id => { id, kind, owner, due }).toList
  taken : ∀ id, kept = some id → id < t.next

/-- What other conversations do to the timers of a desk: they schedule and cancel their own. -/
structure Beside (owner : Nat) (t t' : Timers) : Prop where
  of : ∀ kind, t'.of owner kind = t.of owner kind
  next : t.next ≤ t'.next
  stopped : t'.stopped = t.stopped

namespace Shows

variable {t t' : Timers} {owner due : Nat} {kind kind' : TimerKind} {kept : Option Nat}

theorem beside (h : t.Shows owner kind kept due) (hb : Beside owner t t') :
    t'.Shows owner kind kept due where
  pending := (hb.of kind).trans h.pending
  taken := fun id hid => Nat.lt_of_lt_of_le (h.taken id hid) hb.next

theorem of_none (h : t.of owner kind = []) (due : Nat) : t.Shows owner kind none due where
  pending := h
  taken := fun _ hid => nomatch hid

theorem nil (h : t.Shows owner kind none due) : t.of owner kind = [] := h.pending

/-- With nothing kept there is no time to be told. -/
theorem at_any (h : t.Shows owner kind none due) (due' : Nat) : t.Shows owner kind none due' :=
  .of_none h.nil due'

theorem eq_of_mem (h : t.Shows owner kind kept due) {p : Timer} (hp : p ∈ t.of owner kind) :
    kept = some p.id ∧ p.due = due ∧ t.of owner kind = [p] := by
  rw [h.pending] at hp ⊢
  cases kept with
  | none => cases hp
  | some id =>
    cases List.mem_singleton.mp hp
    exact ⟨rfl, rfl, rfl⟩

theorem cancel_kept (h : t.Shows owner kind kept due) :
    (t.cancel? kept).Shows owner kind none due := by
  refine .of_none ?_ due
  cases kept with
  | none => exact h.pending
  | some id =>
    show (t.cancel id).of owner kind = []
    rw [of_cancel, h.pending]
    simp

/-- The timer of the other kind has another number. -/
theorem cancel_other {other : Option Nat} (h : t.Shows owner kind kept due)
    (hne : ∀ id, kept = some id → other ≠ some id) :
    (t.cancel? other).Shows owner kind kept due where
  pending := by
    cases other with
    | none => exact h.pending
    | some j =>
      show (t.cancel j).of owner kind = _
      rw [of_cancel, h.pending]
      cases kept with
      | none => rfl
      | some i =>
        have hij : i ≠ j := fun hij => hne i rfl (by rw [hij])
        simp [hij]
  taken := fun id hid => by
    rw [cancel?_next]
    exact h.taken id hid

theorem add_self (h : t.Shows owner kind none due) (due' : Nat) :
    (t.add kind owner due').Shows owner kind (some t.next) due' where
  pending := by
    rw [of_add_self, h.nil]
    rfl
  taken := fun id hid => by
    cases hid
    exact Nat.lt_succ_self _

theorem add_other (h : t.Shows owner kind kept due) (hne : kind' ≠ kind) (due' : Nat) :
    (t.add kind' owner due').Shows owner kind kept due where
  pending := (of_add_of_ne t hne owner due').trans h.pending
  taken := fun id hid => Nat.lt_succ_of_lt (h.taken id hid)

end Shows
end Timers
end Colloquy
