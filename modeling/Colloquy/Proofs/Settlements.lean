/-
The history of one receipt.

However the application and the library call on a receipt, and whatever the broker answers, the
first effective call settles it.  Before that call nothing has come of any other: the receipt is
pending, the broker has heard nothing and the log is empty.  From that call on the receipt stays
settled, the broker hears no more, and the log gets one warning for each later call by the
application.  So the history of a receipt is known from the first effective call and the calls
after it.
-/
import Colloquy.Proofs.Receipts

namespace Colloquy
namespace Receipt

/-- A call, and why the broker would refuse each settlement at the time, if it would. -/
structure Occasion where
  call : Call
  refuses : Settlement → Option Failure := fun _ => none

/-- What the log gets of a call on a receipt that is settled already. -/
def Call.late? (topic : String) (state : Resolution) : Call → Option Note
  | .explicit x => some (.settledBefore topic state x)
  | .automatic _ => none
  | .setAuto _ => none

namespace History

def calls (h : History) (os : List Occasion) : History :=
  os.foldl (fun h o => h.call o.refuses o.call) h

/-- A delivery that nobody has settled, with automatic settlements allowed. -/
def fresh (topic : String) (redelivered : Bool) : History :=
  { receipt := { topic, redelivered } }

variable {h : History} {c : Call} {x : Settlement} {refuses : Settlement → Option Failure}

theorem calls_append (h : History) (os ps : List Occasion) :
    h.calls (os ++ ps) = (h.calls os).calls ps :=
  List.foldl_append

/-! ## One call -/

theorem call_of_none (hf : (h.receipt.call c).forward = none) :
    h.call refuses c =
      { h with receipt := (h.receipt.call c).receipt
               notes := h.notes ++ (h.receipt.call c).notes } := by
  simp only [call, hf]

theorem call_of_some {y : Settlement} (hf : (h.receipt.call c).forward = some y) :
    h.call refuses c = {
      receipt := (h.receipt.call c).receipt
      forwarded := h.forwarded ++ [y]
      notes := h.notes ++ (h.receipt.call c).notes ++
        ((refuses y).map (.settlementRefused y (h.receipt.call c).receipt.topic)).toList } := by
  simp only [call, hf]
  cases refuses y <;> rfl

/-- A call that does not count may forbid or allow automatic settlements, and that is all. -/
theorem call_of_ineffective (hc : effective h.receipt.auto [c] = none) :
    h.call refuses c =
      { h with receipt := { h.receipt with auto := autoAfter h.receipt.auto [c] } } := by
  cases c with
  | explicit x => cases hc
  | automatic x =>
    have hauto : ¬ h.receipt.auto = true := by
      intro hauto
      rw [effective, if_pos hauto] at hc
      cases hc
    have hcall : h.receipt.call (.automatic x) = ⟨h.receipt, none, []⟩ := if_neg hauto
    rw [call_of_none (by rw [hcall]), hcall, List.append_nil]
    rfl
  | setAuto on =>
    rw [call_of_none rfl]
    show { h with receipt := _, notes := h.notes ++ [] } = _
    rw [List.append_nil]
    rfl

theorem autoAfter_of_effective {auto : Bool} (hc : effective auto [c] = some x) :
    autoAfter auto [c] = auto := by
  cases c with
  | explicit y => rfl
  | automatic y => rfl
  | setAuto on => cases hc

/-- An effective call settles a pending receipt and goes to the broker, whatever that says. -/
theorem call_of_effective (hr : h.receipt.state = .pending)
    (hc : effective h.receipt.auto [c] = some x) :
    h.call refuses c = {
      receipt := { h.receipt with state := (x.bounded h.receipt.redelivered).resolution }
      forwarded := h.forwarded ++ [x.bounded h.receipt.redelivered]
      notes := h.notes ++
        (if x.bounded h.receipt.redelivered = x then [] else [.notRetried h.receipt.topic]) ++
        ((refuses (x.bounded h.receipt.redelivered)).map
          (.settlementRefused (x.bounded h.receipt.redelivered) h.receipt.topic)).toList } := by
  have hcall : ∃ explicit, h.receipt.call c = h.receipt.settle x explicit := by
    cases c with
    | explicit y =>
      cases hc
      exact ⟨true, rfl⟩
    | automatic y =>
      by_cases hauto : h.receipt.auto = true
      · rw [effective, if_pos hauto] at hc
        cases hc
        exact ⟨false, if_pos hauto⟩
      · rw [effective, if_neg hauto] at hc
        cases hc
    | setAuto on => cases hc
  obtain ⟨explicit, hcall⟩ := hcall
  rw [settle_of_pending hr] at hcall
  rw [call_of_some (by rw [hcall]), hcall]

/-- A call on a settled receipt is noted if the application makes it, and nothing comes of it. -/
theorem call_of_late (hr : h.receipt.state ≠ .pending) :
    h.call refuses c =
      { h with receipt := { h.receipt with auto := autoAfter h.receipt.auto [c] }
               notes := h.notes ++ (c.late? h.receipt.topic h.receipt.state).toList } := by
  rw [call_of_none (call_of_settled hr c).2]
  cases c with
  | explicit y =>
    have hcall : h.receipt.call (.explicit y) =
        ⟨h.receipt, none, [.settledBefore h.receipt.topic h.receipt.state y]⟩ :=
      settle_of_settled hr y true
    rw [hcall]
    rfl
  | automatic y =>
    by_cases hauto : h.receipt.auto = true
    · have hcall : h.receipt.call (.automatic y) = ⟨h.receipt, none, []⟩ :=
        (if_pos hauto).trans (settle_of_settled hr y false)
      rw [hcall]
      rfl
    · have hcall : h.receipt.call (.automatic y) = ⟨h.receipt, none, []⟩ := if_neg hauto
      rw [hcall]
      rfl
  | setAuto on => rfl

/-! ## Many calls -/

def made (os : List Occasion) : List Call := os.map Occasion.call

/-- Calls that do not count leave nothing behind but who may settle. -/
theorem calls_of_ineffective {os : List Occasion}
    (hos : effective h.receipt.auto (made os) = none) :
    h.calls os =
      { h with receipt := { h.receipt with auto := autoAfter h.receipt.auto (made os) } } := by
  induction os generalizing h with
  | nil => rfl
  | cons o os ih =>
    have hsplit : effective h.receipt.auto ([o.call] ++ made os) = none := hos
    rw [effective_append, Option.or_eq_none_iff] at hsplit
    obtain ⟨hone, hrest⟩ := hsplit
    have hauto := autoAfter_append h.receipt.auto [o.call] (made os)
    show (h.call o.refuses o.call).calls os = _
    rw [call_of_ineffective hone, ih hrest, ← hauto]
    rfl

/-- Of calls on a settled receipt the log gets those that the application makes. -/
theorem calls_of_late (hr : h.receipt.state ≠ .pending) (os : List Occasion) :
    h.calls os =
      { h with receipt := { h.receipt with auto := autoAfter h.receipt.auto (made os) }
               notes := h.notes ++
                 (made os).filterMap (Call.late? h.receipt.topic h.receipt.state) } := by
  induction os generalizing h with
  | nil =>
    show h = { h with receipt := h.receipt, notes := h.notes ++ [] }
    rw [List.append_nil]
  | cons o os ih =>
    have hauto := autoAfter_append h.receipt.auto [o.call] (made os)
    have hnotes : ∀ f : Call → Option Note,
        (made (o :: os)).filterMap f = (f o.call).toList ++ (made os).filterMap f := by
      intro f
      show (o.call :: made os).filterMap f = _
      rw [List.filterMap_cons]
      cases f o.call <;> rfl
    have hsettled : (h.call o.refuses o.call).receipt.state ≠ .pending := by
      rw [call_of_late hr]
      exact hr
    show (h.call o.refuses o.call).calls os = _
    rw [ih hsettled, call_of_late hr, hnotes, ← List.append_assoc]
    show { h with receipt := { h.receipt with auto := _ }, notes := _ } = _
    rw [← hauto]
    rfl

/-- Where some call counts, there is a first one. -/
theorem exists_effective {auto : Bool} {os : List Occasion}
    (hos : effective auto (made os) = some x) :
    ∃ before o after, os = before ++ o :: after ∧ effective auto (made before) = none ∧
      effective (autoAfter auto (made before)) [o.call] = some x := by
  induction os generalizing auto with
  | nil => cases hos
  | cons o os ih =>
    have hsplit : effective auto ([o.call] ++ made os) = some x := hos
    rw [effective_append] at hsplit
    cases hone : effective auto [o.call] with
    | some y =>
      rw [hone] at hsplit
      cases hsplit
      exact ⟨[], o, os, rfl, rfl, hone⟩
    | none =>
      rw [hone, Option.none_or] at hsplit
      obtain ⟨before, p, after, rfl, hbefore, hp⟩ := ih hsplit
      have hquiet : effective auto ([o.call] ++ made before) = none := by
        rw [effective_append, hone, Option.none_or]
        exact hbefore
      have hauto := autoAfter_append auto [o.call] (made before)
      refine ⟨o :: before, p, after, rfl, hquiet, ?_⟩
      exact (congrArg (effective · [p.call]) hauto).trans hp

/-- Either no call on a receipt counts, and then it is pending and nothing has come of any of them.
Or there is a first one that counts.  Until then the receipt is pending and nothing has come of any
call.  From then on it is settled as that call asks, with a rejection for the retry of a second
delivery, whether the broker refuses to hear it or not.  However many calls come later, the broker
has heard of that one and no other, and of the later ones those by the application, and only those,
have been warned of, each of them once. -/
theorem first_effective_call_settles (topic : String) (redelivered : Bool) (os : List Occasion) :
    (effective true (made os) = none ∧
      (fresh topic redelivered).calls os =
        { receipt := { topic, redelivered, state := .pending, auto := autoAfter true (made os) }
          forwarded := []
          notes := [] }) ∨
    ∃ before o after x, os = before ++ o :: after ∧
      effective true (made before) = none ∧
      effective (autoAfter true (made before)) [o.call] = some x ∧
      (fresh topic redelivered).calls before =
        { receipt := { topic, redelivered, state := .pending, auto := autoAfter true (made before) }
          forwarded := []
          notes := [] } ∧
      ∀ later, (fresh topic redelivered).calls (before ++ o :: later) =
        { receipt := { topic, redelivered, state := (x.bounded redelivered).resolution
                       auto := autoAfter true (made (before ++ o :: later)) }
          forwarded := [x.bounded redelivered]
          notes := (if x.bounded redelivered = x then [] else [.notRetried topic]) ++
            ((o.refuses (x.bounded redelivered)).map
              (.settlementRefused (x.bounded redelivered) topic)).toList ++
            (made later).filterMap (Call.late? topic (x.bounded redelivered).resolution) } := by
  cases hos : effective true (made os) with
  | none => exact .inl ⟨rfl, calls_of_ineffective (h := fresh topic redelivered) hos⟩
  | some x =>
    obtain ⟨before, o, after, rfl, hbefore, ho⟩ := exists_effective hos
    have hquiet := calls_of_ineffective (h := fresh topic redelivered) hbefore
    refine .inr ⟨before, o, after, x, rfl, hbefore, ho, hquiet, ?_⟩
    intro later
    have hpending : ((fresh topic redelivered).calls before).receipt.state = .pending := by
      rw [hquiet]
      rfl
    have hcounts : call o.refuses ((fresh topic redelivered).calls before) o.call = _ :=
      call_of_effective hpending (by rw [hquiet]; exact ho)
    rw [hquiet] at hcounts
    rw [calls_append, hquiet]
    show calls (call o.refuses _ o.call) later = _
    rw [hcounts]
    refine (calls_of_late ?_ later).trans ?_
    · exact (x.bounded redelivered).resolution_ne_pending
    · have hauto : autoAfter true (made (before ++ o :: later)) =
          autoAfter (autoAfter true (made before)) (made later) := by
        calc autoAfter true (made (before ++ o :: later))
            = autoAfter (autoAfter true (made before)) ([o.call] ++ made later) := by
              rw [made, List.map_append, autoAfter_append]
              rfl
          _ = autoAfter (autoAfter (autoAfter true (made before)) [o.call]) (made later) :=
              autoAfter_append _ _ _
          _ = autoAfter (autoAfter true (made before)) (made later) := by
              rw [autoAfter_of_effective ho]
      rw [hauto]
      rfl

/-- A retry of a second delivery, after a confirmation that did not count and before two that come
too late, to a broker that is down. -/
example :
    let os : List Occasion := [{ call := .setAuto false }, { call := .automatic .confirm },
      { call := .explicit .retry, refuses := fun _ => some .shutDown },
      { call := .automatic .confirm }, { call := .explicit .confirm }]
    ((fresh "a:b" true).calls os).forwarded = [.reject] ∧
      ((fresh "a:b" true).calls os).notes = [.notRetried "a:b",
        .settlementRefused .reject "a:b" .shutDown, .settledBefore "a:b" .rejected .confirm] :=
  ⟨rfl, rfl⟩

end History
end Receipt
end Colloquy
