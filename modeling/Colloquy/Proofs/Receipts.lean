/-
What counts among the calls on a receipt.

The first effective call is the first one by the application, or the first one by the library that
comes while it is allowed.  It alone goes to the broker, with a second retry turned into a
rejection, and it settles the receipt for good.
-/
import Colloquy.Receipt

namespace Colloquy

theorem Settlement.resolution_ne_pending (x : Settlement) : x.resolution ≠ .pending := by
  cases x <;> decide

namespace Receipt

variable {r : Receipt}

/-! ## One call -/

theorem settle_of_pending (h : r.state = .pending) (x : Settlement) (explicit : Bool) :
    r.settle x explicit = {
      receipt := { r with state := (x.bounded r.redelivered).resolution }
      forward := some (x.bounded r.redelivered)
      notes := if x.bounded r.redelivered = x then [] else [.notRetried r.topic] } := by
  simp only [settle, h]

theorem settle_of_settled (h : r.state ≠ .pending) (x : Settlement) (explicit : Bool) :
    r.settle x explicit = {
      receipt := r
      forward := none
      notes := if explicit then [.settledBefore r.topic r.state x] else [] } := by
  cases hs : r.state with
  | pending => exact absurd hs h
  | _ => simp only [settle, hs]

theorem settle_fields (r : Receipt) (x : Settlement) (explicit : Bool) :
    (r.settle x explicit).receipt.topic = r.topic ∧
      (r.settle x explicit).receipt.redelivered = r.redelivered ∧
      (r.settle x explicit).receipt.auto = r.auto := by
  by_cases h : r.state = .pending
  · rw [settle_of_pending h]
    exact ⟨rfl, rfl, rfl⟩
  · rw [settle_of_settled h]
    exact ⟨rfl, rfl, rfl⟩

theorem call_fields (r : Receipt) (c : Call) :
    (r.call c).receipt.topic = r.topic ∧ (r.call c).receipt.redelivered = r.redelivered := by
  cases c with
  | explicit x => exact ⟨(r.settle_fields x true).1, (r.settle_fields x true).2.1⟩
  | automatic x =>
    unfold call
    simp only
    split
    · exact ⟨(r.settle_fields x false).1, (r.settle_fields x false).2.1⟩
    · exact ⟨rfl, rfl⟩
  | setAuto on => exact ⟨rfl, rfl⟩

/-- A receipt that is settled stays so, and nothing more goes to the broker. -/
theorem call_of_settled (h : r.state ≠ .pending) (c : Call) :
    (r.call c).receipt.state = r.state ∧ (r.call c).forward = none := by
  cases c with
  | explicit x =>
    rw [call, settle_of_settled h]
    exact ⟨rfl, rfl⟩
  | automatic x =>
    rw [call, settle_of_settled h]
    split <;> exact ⟨rfl, rfl⟩
  | setAuto on => exact ⟨rfl, rfl⟩

/-- What goes to the broker settles the receipt, and it is no second retry. -/
theorem call_forward {c : Call} {x : Settlement} (h : (r.call c).forward = some x) :
    r.state = .pending ∧ (r.call c).receipt.state = x.resolution ∧
      x.bounded r.redelivered = x := by
  have hpending : r.state = .pending := Decidable.byContradiction fun hs => by
    rw [(call_of_settled hs c).2] at h
    cases h
  have hbounded : ∀ y : Settlement, (y.bounded r.redelivered).bounded r.redelivered =
      y.bounded r.redelivered := by
    intro y
    cases y <;> cases r.redelivered <;> rfl
  cases c with
  | explicit y =>
    rw [call, settle_of_pending hpending] at h ⊢
    cases h
    exact ⟨hpending, rfl, hbounded y⟩
  | automatic y =>
    rw [call, settle_of_pending hpending] at h ⊢
    split at h
    · cases h
      rw [if_pos ‹_›]
      exact ⟨hpending, rfl, hbounded y⟩
    · cases h
  | setAuto on => cases h

/-- As long as nothing goes to the broker, a receipt is as far settled as it was. -/
theorem call_state_of_none {c : Call} (h : (r.call c).forward = none) :
    (r.call c).receipt.state = r.state := by
  by_cases hs : r.state = .pending
  · cases c with
    | explicit x =>
      rw [call, settle_of_pending hs] at h
      cases h
    | automatic x =>
      rw [call, settle_of_pending hs] at h ⊢
      split at h
      · cases h
      · rw [if_neg ‹_›]
    | setAuto on => rfl
  · exact (call_of_settled hs c).1

/-- What calls can make of a receipt: it stays the receipt of its delivery, and only one that is
pending is settled. -/
structure Revised (r r' : Receipt) : Prop where
  topic : r'.topic = r.topic
  redelivered : r'.redelivered = r.redelivered
  state : r'.state = r.state ∨ r.state = .pending

theorem call_revised (r : Receipt) (c : Call) : r.Revised (r.call c).receipt where
  topic := (r.call_fields c).1
  redelivered := (r.call_fields c).2
  state := by
    by_cases h : r.state = .pending
    · exact .inr h
    · exact .inl (call_of_settled h c).1

/-- A receipt is settled with a retry only if the broker hears of it. -/
theorem call_forward_of_retried {c : Call} (h : r.state = .pending)
    (hretried : (r.call c).receipt.state = .retried) : (r.call c).forward = some .retry := by
  cases hforward : (r.call c).forward with
  | none =>
    rw [call_state_of_none hforward, h] at hretried
    cases hretried
  | some x =>
    rw [(call_forward hforward).2.1] at hretried
    cases x with
    | retry => rfl
    | confirm => cases hretried
    | reject => cases hretried

/-- The broker hears of a retry only after a first delivery. -/
theorem call_forward_retry {c : Call} (h : (r.call c).forward = some .retry) :
    r.redelivered = false := by
  have hbounded := (call_forward h).2.2
  cases hredelivered : r.redelivered with
  | false => rfl
  | true =>
    rw [hredelivered] at hbounded
    cases hbounded

theorem call_reject_forward_ne_retry (r : Receipt) :
    (r.call (.automatic .reject)).forward ≠ some .retry := by
  unfold call
  simp only
  split
  · by_cases h : r.state = .pending
    · rw [settle_of_pending h]
      nofun
    · rw [settle_of_settled h]
      nofun
  · nofun

/-! ## Many calls -/

/-- The first call that counts, if the library may settle at the beginning or not. -/
def effective (auto : Bool) : List Call → Option Settlement
  | [] => none
  | .explicit x :: _ => some x
  | .automatic x :: cs => if auto then some x else effective auto cs
  | .setAuto on :: cs => effective on cs

/-- Whether the library may settle after some calls. -/
def autoAfter (auto : Bool) : List Call → Bool
  | [] => auto
  | .setAuto on :: cs => autoAfter on cs
  | _ :: cs => autoAfter auto cs

/-- What goes to the broker of some calls. -/
def forwarded (r : Receipt) : List Call → List Settlement
  | [] => []
  | c :: cs => (r.call c).forward.toList ++ (r.call c).receipt.forwarded cs

/-- A receipt after some calls. -/
def after (r : Receipt) (cs : List Call) : Receipt := cs.foldl (fun r c => (r.call c).receipt) r

theorem after_fields (r : Receipt) (cs : List Call) :
    (r.after cs).topic = r.topic ∧ (r.after cs).redelivered = r.redelivered := by
  induction cs generalizing r with
  | nil => exact ⟨rfl, rfl⟩
  | cons c cs ih =>
    obtain ⟨ht, hr⟩ := r.call_fields c
    exact ⟨(ih _).1.trans ht, (ih _).2.trans hr⟩

theorem after_append (r : Receipt) (cs ds : List Call) :
    r.after (cs ++ ds) = (r.after cs).after ds :=
  List.foldl_append

theorem forwarded_append (r : Receipt) (cs ds : List Call) :
    r.forwarded (cs ++ ds) = r.forwarded cs ++ (r.after cs).forwarded ds := by
  induction cs generalizing r with
  | nil => rfl
  | cons c cs ih =>
    rw [List.cons_append, forwarded, ih, ← List.append_assoc]
    rfl

/-- No call changes how far a settled receipt is settled. -/
theorem after_of_settled (h : r.state ≠ .pending) (cs : List Call) :
    (r.after cs).state = r.state := by
  induction cs generalizing r with
  | nil => rfl
  | cons c cs ih =>
    obtain ⟨hs, -⟩ := call_of_settled h c
    exact (ih (hs.symm ▸ h)).trans hs

/-- A receipt of which something went to the broker is settled. -/
theorem after_settled {cs : List Call} (h : r.forwarded cs ≠ []) :
    (r.after cs).state ≠ .pending := by
  induction cs generalizing r with
  | nil => exact absurd rfl h
  | cons c cs ih =>
    cases hf : (r.call c).forward with
    | none =>
      rw [forwarded, hf] at h
      exact ih h
    | some x =>
      have hsettled : (r.call c).receipt.state ≠ .pending := by
        rw [(call_forward hf).2.1]
        exact x.resolution_ne_pending
      exact (after_of_settled hsettled cs).symm ▸ hsettled

theorem forwarded_of_settled (h : r.state ≠ .pending) (cs : List Call) : r.forwarded cs = [] := by
  induction cs generalizing r with
  | nil => rfl
  | cons c cs ih =>
    obtain ⟨hs, hf⟩ := call_of_settled h c
    rw [forwarded, hf, ih (hs.symm ▸ h)]
    rfl

theorem forwarded_settle (h : r.state = .pending) (x : Settlement) (explicit : Bool)
    (cs : List Call) :
    (r.settle x explicit).forward.toList ++ (r.settle x explicit).receipt.forwarded cs =
      [x.bounded r.redelivered] := by
  rw [settle_of_pending h, forwarded_of_settled (x.bounded r.redelivered).resolution_ne_pending]
  rfl

/-- Of all calls on a pending receipt only the first effective one goes to the broker. -/
theorem forwarded_eq_effective (h : r.state = .pending) (cs : List Call) :
    r.forwarded cs = (effective r.auto cs).toList.map (·.bounded r.redelivered) := by
  induction cs generalizing r with
  | nil => rfl
  | cons c cs ih =>
    cases c with
    | explicit x => exact forwarded_settle h x true cs
    | automatic x =>
      cases hauto : r.auto with
      | true =>
        rw [forwarded, call, if_pos hauto]
        exact forwarded_settle h x false cs
      | false =>
        rw [forwarded, call, if_neg (by simp [hauto])]
        have hrest := ih h
        rw [hauto] at hrest
        exact hrest
    | setAuto on => exact ih (r := { r with auto := on }) h

theorem effective_append (auto : Bool) (cs ds : List Call) :
    effective auto (cs ++ ds) = (effective auto cs).or (effective (autoAfter auto cs) ds) := by
  induction cs generalizing auto with
  | nil => rfl
  | cons c cs ih =>
    cases c with
    | explicit y => rfl
    | automatic y =>
      cases auto with
      | true => rfl
      | false => exact ih false
    | setAuto on => exact ih on

theorem autoAfter_append (auto : Bool) (cs ds : List Call) :
    autoAfter auto (cs ++ ds) = autoAfter (autoAfter auto cs) ds := by
  induction cs generalizing auto with
  | nil => rfl
  | cons c cs ih => cases c <;> exact ih _

end Receipt
end Colloquy
