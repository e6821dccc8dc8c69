/-
Where the copies of a published message go.

A publication makes one copy of its message, and a retry makes another one, flagged as delivered
again.  A copy waits until it is delivered, and each delivery has the receipt of its copy.  The
bookkeeping here keeps for each delivery the publication it goes back to, as its place in the log.

`Ledger` is about the copies: a publication has one of each kind at most, the flagged one only when
the receipt of the other was settled with a retry.  `Heard` is about the receipts: only who was
invoked can settle one with a retry.  `Invoked` is about the invocations in the log, which is what
comes of both.
-/
import Colloquy.Proofs.Receipts
import Colloquy.Proofs.Traffic
import Mathlib.Data.Multiset.Filter
import Mathlib.Data.Multiset.MapFold

namespace Colloquy

/-! ## Logs that grow -/

theorem getElem?_append_of_some {α : Type} {log : List α} {i : Nat} {x : α}
    (h : log[i]? = some x) (seen : List α) : (log ++ seen)[i]? = some x := by
  rw [List.getElem?_append_left (List.getElem?_eq_some_iff.mp h).1]
  exact h

/-- What a longer log has was there before, or is among what was added. -/
theorem getElem?_append_cases {α : Type} {log seen : List α} {i : Nat} {x : α}
    (h : (log ++ seen)[i]? = some x) : log[i]? = some x ∨ log.length ≤ i ∧ x ∈ seen := by
  by_cases hi : i < log.length
  · rw [List.getElem?_append_left hi] at h
    exact .inl h
  · rw [List.getElem?_append_right (Nat.le_of_not_lt hi)] at h
    exact .inr ⟨Nat.le_of_not_lt hi, List.mem_of_getElem? h⟩

/-! ## Copies -/

/-- One copy of a message, with the place of its publication in the log. -/
inductive Copy where
  /-- It waits in the broker. -/
  | waiting (origin : Nat) (topic : String) (e : Envelope)
  /-- It was delivered. -/
  | delivered (origin : Nat) (again : Bool) (delivery : Nat)

namespace Copy

/-- The publication of a copy, and whether it is there for a retry. -/
def key : Copy → Nat × Bool
  | waiting p _ e => (p, e.redelivered)
  | delivered p again _ => (p, again)

/-- What the broker has of a copy. -/
def parcel? : Copy → Option (String × Envelope)
  | waiting _ t e => some (t, e)
  | delivered .. => none

/-- The envelopes that wait for some of the copies. -/
def parcels (copies : Multiset Copy) : Multiset (String × Envelope) := copies.filterMap parcel?

@[simp] theorem parcels_waiting (p : Nat) (t : String) (e : Envelope) (copies : Multiset Copy) :
    parcels (.waiting p t e ::ₘ copies) = (t, e) ::ₘ parcels copies :=
  Multiset.filterMap_cons_some parcel? _ copies rfl

@[simp] theorem parcels_delivered (p : Nat) (again : Bool) (n : Nat) (copies : Multiset Copy) :
    parcels (.delivered p again n ::ₘ copies) = parcels copies :=
  Multiset.filterMap_cons_none _ copies rfl

/-- What waits is a copy of a publication. -/
theorem exists_of_mem_parcels {copies : Multiset Copy} {t : String} {e : Envelope}
    (h : (t, e) ∈ parcels copies) : ∃ p rest, copies = .waiting p t e ::ₘ rest := by
  obtain ⟨c, hc, hparcel⟩ := (Multiset.mem_filterMap _ _).mp h
  cases c with
  | waiting p t' e' =>
    cases hparcel
    exact ⟨p, Multiset.exists_cons_of_mem hc⟩
  | delivered p again n => cases hparcel

end Copy

/-- The receipts of deliveries, each with the body that was delivered. -/
abbrev Receipts := Nat → Option (Receipt × Bytes)

/-! ## Where the copies are -/

/-- Every copy goes back to a publication and every receipt to a copy, and no publication has two
copies of the same kind. -/
structure Ledger (log : List Incident) (receipts : Receipts) (origin : Nat → Nat)
    (copies : Multiset Copy) : Prop where
  distinct : (copies.map Copy.key).Nodup
  waiting : ∀ p t e, .waiting p t e ∈ copies → log[p]? = some (.published t e.body)
  delivered : ∀ p again n, .delivered p again n ∈ copies →
    origin n = p ∧ ∃ r body, receipts n = some (r, body) ∧ r.redelivered = again
  entered : ∀ n r body, receipts n = some (r, body) →
    .delivered (origin n) r.redelivered n ∈ copies ∧
      log[origin n]? = some (.published r.topic body)
  retried : ∀ c ∈ copies, c.key.2 = true → ∃ n r body, receipts n = some (r, body) ∧
    r.redelivered = false ∧ r.state = .retried ∧ origin n = c.key.1

namespace Ledger

variable {log : List Incident} {receipts : Receipts} {origin : Nat → Nat} {copies : Multiset Copy}
  {n p : Nat} {r r' : Receipt} {body : Bytes} {t : String} {e : Envelope}

theorem start (origin : Nat → Nat) : Ledger [] (fun _ => none) origin 0 where
  distinct := Multiset.nodup_zero
  waiting := by simp
  delivered := by simp
  entered := by simp
  retried := by simp

theorem grow (h : Ledger log receipts origin copies) (seen : List Incident) :
    Ledger (log ++ seen) receipts origin copies where
  distinct := h.distinct
  waiting := fun p t e hc => getElem?_append_of_some (h.waiting p t e hc) seen
  delivered := h.delivered
  entered := fun n r body hn =>
    ⟨(h.entered n r body hn).1, getElem?_append_of_some (h.entered n r body hn).2 seen⟩
  retried := h.retried

/-- Two deliveries of the same kind that go back to the same publication are one. -/
theorem eq_of_origin_eq (h : Ledger log receipts origin copies) {m : Nat} {b : Bytes}
    (hn : receipts n = some (r, body)) (hm : receipts m = some (r', b))
    (hagain : r.redelivered = r'.redelivered) (horigin : origin n = origin m) : n = m := by
  have heq := Multiset.inj_on_of_nodup_map h.distinct _ (h.entered n r body hn).1 _
    (h.entered m r' b hm).1 (Prod.ext horigin hagain)
  injection heq

/-- A copy is made that its publication did not have yet. -/
theorem copied (h : Ledger log receipts origin copies)
    (hpublished : log[p]? = some (.published t e.body))
    (hnew : ∀ c ∈ copies, c.key ≠ (p, e.redelivered))
    (hretried : e.redelivered = true → ∃ n r body, receipts n = some (r, body) ∧
      r.redelivered = false ∧ r.state = .retried ∧ origin n = p) :
    Ledger log receipts origin (.waiting p t e ::ₘ copies) where
  distinct := by
    rw [Multiset.map_cons]
    refine h.distinct.cons fun hmem => ?_
    obtain ⟨c, hc, hkey⟩ := Multiset.mem_map.mp hmem
    exact hnew c hc hkey
  waiting := fun q u d hc => by
    obtain heq | hc := Multiset.mem_cons.mp hc
    · cases heq
      exact hpublished
    · exact h.waiting q u d hc
  delivered := fun q again m hc => by
    obtain heq | hc := Multiset.mem_cons.mp hc
    · cases heq
    · exact h.delivered q again m hc
  entered := fun m r body hm =>
    ⟨Multiset.mem_cons_of_mem (h.entered m r body hm).1, (h.entered m r body hm).2⟩
  retried := fun c hc hagain => by
    obtain rfl | hc := Multiset.mem_cons.mp hc
    · exact hretried hagain
    · exact h.retried c hc hagain

theorem published (h : Ledger log receipts origin copies) (t : String) (body : Bytes) :
    Ledger (log ++ [.published t body]) receipts origin
      (.waiting log.length t { body, redelivered := false } ::ₘ copies) := by
  refine (h.grow _).copied List.getElem?_concat_length (fun c hc hkey => ?_) (by simp)
  -- the copies there are go back to publications that the log had before
  have hbefore : log[c.key.1]?.isSome := by
    cases c with
    | waiting p t e =>
      have hp := h.waiting p t e hc
      simp [Copy.key, hp]
    | delivered p again n =>
      obtain ⟨rfl, r, body, hn, -⟩ := h.delivered p again n hc
      have hp := (h.entered n r body hn).2
      simp [Copy.key, hp]
  rw [hkey] at hbefore
  simp at hbefore

theorem revised (h : Ledger log receipts origin copies) (hn : receipts n = some (r, body))
    (hr : r.Revised r') :
    Ledger log (Function.update receipts n (some (r', body))) origin copies where
  distinct := h.distinct
  waiting := h.waiting
  delivered := fun p again m hc => by
    obtain ⟨horigin, r₁, b, hm, hagain⟩ := h.delivered p again m hc
    refine ⟨horigin, ?_⟩
    by_cases hmn : m = n
    · subst hmn
      cases hn.symm.trans hm
      exact ⟨r', body, Function.update_self .., hr.redelivered.trans hagain⟩
    · exact ⟨r₁, b, (Function.update_of_ne hmn ..).trans hm, hagain⟩
  entered := fun m r₁ b hm => by
    by_cases hmn : m = n
    · subst hmn
      rw [Function.update_self] at hm
      cases hm
      rw [hr.topic, hr.redelivered]
      exact h.entered m r body hn
    · rw [Function.update_of_ne hmn] at hm
      exact h.entered m r₁ b hm
  retried := fun c hc hagain => by
    obtain ⟨m, r₁, b, hm, hfirst, hstate, horigin⟩ := h.retried c hc hagain
    by_cases hmn : m = n
    · subst hmn
      cases hn.symm.trans hm
      obtain hsame | hpending := hr.state
      · exact ⟨m, r', body, Function.update_self .., hr.redelivered.trans hfirst,
          hsame.trans hstate, horigin⟩
      · exact nomatch hpending.symm.trans hstate
    · exact ⟨m, r₁, b, (Function.update_of_ne hmn ..).trans hm, hfirst, hstate, horigin⟩

/-- A receipt of a first delivery that was pending is settled with a retry. -/
theorem copiedAgain (h : Ledger log receipts origin copies) (hn : receipts n = some (r, body))
    (hpending : r.state = .pending) (hfirst : r.redelivered = false) (hr : r.Revised r')
    (hretried : r'.state = .retried) :
    Ledger log (Function.update receipts n (some (r', body))) origin
      (.waiting (origin n) r.topic { body, redelivered := true } ::ₘ copies) := by
  refine (h.revised hn hr).copied (h.entered n r body hn).2 (fun c hc hkey => ?_) fun _ => ?_
  · obtain ⟨m, r₁, b, hm, hfirst', hstate, horigin⟩ := h.retried c hc (by rw [hkey])
    rw [hkey] at horigin
    obtain rfl := h.eq_of_origin_eq hm hn (hfirst'.trans hfirst.symm) horigin
    cases hn.symm.trans hm
    exact nomatch hpending.symm.trans hstate
  · exact ⟨n, r', body, Function.update_self .., hr.redelivered.trans hfirst, hretried, rfl⟩

/-- A copy that waits is delivered. -/
theorem handedOver (h : Ledger log receipts origin (.waiting p t e ::ₘ copies))
    (hnew : receipts n = none) (ht : r.topic = t) (hagain : r.redelivered = e.redelivered) :
    Ledger log (Function.update receipts n (some (r, e.body))) (Function.update origin n p)
      (.delivered p e.redelivered n ::ₘ copies) := by
  have hother : ∀ {m r₁ b}, receipts m = some (r₁, b) →
      Function.update receipts n (some (r, e.body)) m = some (r₁, b) ∧
        Function.update origin n p m = origin m := by
    intro m r₁ b hm
    have hmn : m ≠ n := by
      rintro rfl
      cases hnew.symm.trans hm
    exact ⟨(Function.update_of_ne hmn ..).trans hm, Function.update_of_ne hmn ..⟩
  have hdistinct := h.distinct
  rw [Multiset.map_cons] at hdistinct
  refine ⟨by rwa [Multiset.map_cons], fun q u d hc => ?_, fun q again m hc => ?_,
    fun m r₁ b hm => ?_, fun c hc hflag => ?_⟩
  · obtain heq | hc := Multiset.mem_cons.mp hc
    · cases heq
    · exact h.waiting q u d (Multiset.mem_cons_of_mem hc)
  · obtain heq | hc := Multiset.mem_cons.mp hc
    · cases heq
      exact ⟨Function.update_self .., r, e.body, Function.update_self .., hagain⟩
    · obtain ⟨horigin, r₁, b, hm, hr₁⟩ := h.delivered q again m (Multiset.mem_cons_of_mem hc)
      exact ⟨(hother hm).2.trans horigin, r₁, b, (hother hm).1, hr₁⟩
  · by_cases hmn : m = n
    · subst hmn
      rw [Function.update_self] at hm ⊢
      cases hm
      rw [ht, hagain]
      exact ⟨Multiset.mem_cons_self _ _, h.waiting p t e (Multiset.mem_cons_self _ _)⟩
    · rw [Function.update_of_ne hmn] at hm ⊢
      obtain ⟨hc, hpublished⟩ := h.entered m r₁ b hm
      obtain heq | hc := Multiset.mem_cons.mp hc
      · cases heq
      · exact ⟨Multiset.mem_cons_of_mem hc, hpublished⟩
  · have hretried : ∃ c' ∈ Copy.waiting p t e ::ₘ copies, c'.key = c.key := by
      obtain rfl | hc := Multiset.mem_cons.mp hc
      · exact ⟨_, Multiset.mem_cons_self _ _, rfl⟩
      · exact ⟨c, Multiset.mem_cons_of_mem hc, rfl⟩
    obtain ⟨c', hc', hkey⟩ := hretried
    obtain ⟨m, r₁, b, hm, hfirst, hstate, horigin⟩ := h.retried c' hc' (hkey ▸ hflag)
    exact ⟨m, r₁, b, (hother hm).1, hfirst, hstate, (hother hm).2.trans (hkey ▸ horigin)⟩

end Ledger

/-! ## Who was invoked -/

/-- A receipt that is pending has been seen by a handler, and one that was settled with a retry has
been settled so in the log. -/
structure Heard (log : List Incident) (receipts : Receipts) : Prop where
  pending : ∀ n r body, receipts n = some (r, body) → r.state = .pending →
    ∃ i : Nat, log[i]? = some (.invoked n r.topic body r.redelivered)
  retried : ∀ n r body, receipts n = some (r, body) → r.state = .retried → ∃ i q : Nat, i < q ∧
    log[i]? = some (.invoked n r.topic body r.redelivered) ∧ log[q]? = some (.retried n)

namespace Heard

variable {log : List Incident} {receipts : Receipts} {n : Nat} {r r' : Receipt} {body : Bytes}

theorem start : Heard [] (fun _ => none) where
  pending := by simp
  retried := by simp

theorem grow (h : Heard log receipts) (seen : List Incident) : Heard (log ++ seen) receipts where
  pending := fun n r body hn hstate => by
    obtain ⟨i, hi⟩ := h.pending n r body hn hstate
    exact ⟨i, getElem?_append_of_some hi seen⟩
  retried := fun n r body hn hstate => by
    obtain ⟨i, q, hiq, hi, hq⟩ := h.retried n r body hn hstate
    exact ⟨i, q, hiq, getElem?_append_of_some hi seen, getElem?_append_of_some hq seen⟩

theorem revised (h : Heard log receipts) (hn : receipts n = some (r, body)) (hr : r.Revised r')
    {seen : List Incident}
    (hseen : r.state = .pending → r'.state = .retried → .retried n ∈ seen) :
    Heard (log ++ seen) (Function.update receipts n (some (r', body))) where
  pending := fun m r₁ b hm hstate => by
    by_cases hmn : m = n
    · subst hmn
      rw [Function.update_self] at hm
      cases hm
      have hpending : r.state = .pending := hr.state.elim (fun hs => hs.symm.trans hstate) id
      rw [hr.topic, hr.redelivered]
      exact (h.grow seen).pending m r body hn hpending
    · rw [Function.update_of_ne hmn] at hm
      exact (h.grow seen).pending m r₁ b hm hstate
  retried := fun m r₁ b hm hstate => by
    by_cases hmn : m = n
    · subst hmn
      rw [Function.update_self] at hm
      cases hm
      rw [hr.topic, hr.redelivered]
      by_cases hpending : r.state = .pending
      · obtain ⟨i, hi⟩ := h.pending m r body hn hpending
        obtain ⟨q, hq, hget⟩ := List.mem_iff_getElem.mp (hseen hpending hstate)
        refine ⟨i, log.length + q, ?_, getElem?_append_of_some hi seen, ?_⟩
        · exact Nat.lt_of_lt_of_le (List.getElem?_eq_some_iff.mp hi).1 (Nat.le_add_right _ _)
        · rw [List.getElem?_append_right (Nat.le_add_right _ _), Nat.add_sub_cancel_left]
          exact List.getElem?_eq_some_iff.mpr ⟨hq, hget⟩
      · have hsame := hr.state.resolve_right hpending
        exact (h.grow seen).retried m r body hn (hsame.symm.trans hstate)
    · rw [Function.update_of_ne hmn] at hm
      exact (h.grow seen).retried m r₁ b hm hstate

/-- A new delivery came to a handler, or its receipt is settled otherwise. -/
theorem entered (h : Heard log receipts) {seen : List Incident}
    (hr : r.state ≠ .retried)
    (hseen : r.state = .pending → seen = [.invoked n r.topic body r.redelivered]) :
    Heard (log ++ seen) (Function.update receipts n (some (r, body))) where
  pending := fun m r₁ b hm hstate => by
    by_cases hmn : m = n
    · subst hmn
      rw [Function.update_self] at hm
      cases hm
      rw [hseen hstate]
      exact ⟨log.length, List.getElem?_concat_length⟩
    · rw [Function.update_of_ne hmn] at hm
      exact (h.grow seen).pending m r₁ b hm hstate
  retried := fun m r₁ b hm hstate => by
    by_cases hmn : m = n
    · subst hmn
      rw [Function.update_self] at hm
      cases hm
      exact absurd hstate hr
    · rw [Function.update_of_ne hmn] at hm
      exact (h.grow seen).retried m r₁ b hm hstate

end Heard

/-! ## Invocations -/

/-- No delivery comes to a handler twice, and a flagged one only after another one that goes back to
the same publication was to come again. -/
structure Invoked (log : List Incident) (receipts : Receipts) (origin : Nat → Nat) : Prop where
  known : ∀ (i n : Nat) t body again, log[i]? = some (.invoked n t body again) → origin n < i ∧
    ∃ r, receipts n = some (r, body) ∧ r.topic = t ∧ r.redelivered = again
  once : ∀ (i j n : Nat) t t' body body' again again', log[i]? = some (.invoked n t body again) →
    log[j]? = some (.invoked n t' body' again') → i = j
  asked : ∀ (j n : Nat) t body, log[j]? = some (.invoked n t body true) →
    ∃ (i q m : Nat) (t' : String) (body' : Bytes), i < q ∧ q < j ∧
      log[i]? = some (.invoked m t' body' false) ∧ log[q]? = some (.retried m) ∧
      origin m = origin n

/-- Whether an incident is an invocation. -/
def Incident.invokes : Incident → Bool
  | .invoked .. => true
  | _ => false

namespace Invoked

variable {log seen : List Incident} {receipts : Receipts} {origin : Nat → Nat}
  {copies : Multiset Copy} {n p : Nat} {r r' : Receipt} {body : Bytes}

theorem start (origin : Nat → Nat) : Invoked [] (fun _ => none) origin where
  known := by simp
  once := by simp
  asked := by simp

theorem grow (h : Invoked log receipts origin) (hseen : ∀ x ∈ seen, x.invokes = false) :
    Invoked (log ++ seen) receipts origin := by
  have hold : ∀ {i n : Nat} {t body again}, (log ++ seen)[i]? = some (.invoked n t body again) →
      log[i]? = some (.invoked n t body again) := fun hi =>
    (getElem?_append_cases hi).resolve_right fun hnew => nomatch hseen _ hnew.2
  refine ⟨fun i n t body again hi => h.known i n t body again (hold hi),
    fun i j n t t' body body' again again' hi hj =>
      h.once i j n t t' body body' again again' (hold hi) (hold hj), fun j n t body hj => ?_⟩
  obtain ⟨i, q, m, t', body', hiq, hqj, hi, hq, horigin⟩ := h.asked j n t body (hold hj)
  exact ⟨i, q, m, t', body', hiq, hqj, getElem?_append_of_some hi seen,
    getElem?_append_of_some hq seen, horigin⟩

theorem revised (h : Invoked log receipts origin) (hn : receipts n = some (r, body))
    (hr : r.Revised r') :
    Invoked log (Function.update receipts n (some (r', body))) origin where
  known := fun i m t b again hi => by
    obtain ⟨hlt, r₁, hm, ht, hagain⟩ := h.known i m t b again hi
    refine ⟨hlt, ?_⟩
    by_cases hmn : m = n
    · subst hmn
      cases hn.symm.trans hm
      exact ⟨r', Function.update_self .., hr.topic.trans ht, hr.redelivered.trans hagain⟩
    · exact ⟨r₁, (Function.update_of_ne hmn ..).trans hm, ht, hagain⟩
  once := h.once
  asked := h.asked

/-- A new receipt does not matter to the invocations there are. -/
theorem entered (h : Invoked log receipts origin) (hnew : receipts n = none) :
    Invoked log (Function.update receipts n (some (r, body))) (Function.update origin n p) := by
  have hother : ∀ {i m : Nat} {t b again}, log[i]? = some (.invoked m t b again) → m ≠ n := by
    rintro i m t b again hi rfl
    obtain ⟨-, r₁, hm, -⟩ := h.known i m t b again hi
    cases hnew.symm.trans hm
  refine ⟨fun i m t b again hi => ?_, h.once, fun j m t b hj => ?_⟩
  · rw [Function.update_of_ne (hother hi), Function.update_of_ne (hother hi)]
    exact h.known i m t b again hi
  · obtain ⟨i, q, m', t', b', hiq, hqj, hi, hq, horigin⟩ := h.asked j m t b hj
    refine ⟨i, q, m', t', b', hiq, hqj, hi, hq, ?_⟩
    rw [Function.update_of_ne (hother hi), Function.update_of_ne (hother hj)]
    exact horigin

/-- A copy that waits is delivered and comes to a handler. -/
theorem handedOver (h : Invoked log receipts origin) (hheard : Heard log receipts) {t : String}
    {e : Envelope} (hledger : Ledger log receipts origin (.waiting p t e ::ₘ copies))
    (hnew : receipts n = none) (ht : r.topic = t) (hagain : r.redelivered = e.redelivered) :
    Invoked (log ++ [.invoked n t e.body e.redelivered])
      (Function.update receipts n (some (r, e.body))) (Function.update origin n p) := by
  have hold : Invoked log (Function.update receipts n (some (r, e.body)))
      (Function.update origin n p) := h.entered hnew
  have hcopy := Multiset.mem_cons_self (Copy.waiting p t e) copies
  have hpublished := (List.getElem?_eq_some_iff.mp (hledger.waiting p t e hcopy)).1
  have hunheard : ∀ (i : Nat) t b again, log[i]? ≠ some (.invoked n t b again) := by
    intro i t b again hi
    obtain ⟨-, r₁, hn, -⟩ := h.known i n t b again hi
    cases hnew.symm.trans hn
  -- an invocation in the longer log is an older one, or the new one
  have hcases : ∀ {i m : Nat} {u b again},
      (log ++ [.invoked n t e.body e.redelivered])[i]? = some (.invoked m u b again) →
      log[i]? = some (.invoked m u b again) ∨
        i = log.length ∧ n = m ∧ t = u ∧ e.body = b ∧ e.redelivered = again := by
    intro i m u b again hi
    obtain hi' | ⟨hle, hmem⟩ := getElem?_append_cases hi
    · exact .inl hi'
    · cases List.mem_singleton.mp hmem
      have hlt := (List.getElem?_eq_some_iff.mp hi).1
      rw [List.length_append, List.length_singleton] at hlt
      exact .inr ⟨by omega, rfl, rfl, rfl, rfl⟩
  refine ⟨fun i m u b again hi => ?_, fun i j m u u' b b' again again' hi hj => ?_,
    fun j m u b hj => ?_⟩
  · obtain hi | ⟨rfl, rfl, rfl, rfl, rfl⟩ := hcases hi
    · exact hold.known i m u b again hi
    · rw [Function.update_self, Function.update_self]
      exact ⟨hpublished, r, rfl, ht, hagain⟩
  · obtain hi | ⟨rfl, rfl, -⟩ := hcases hi
    · obtain hj | ⟨-, rfl, -⟩ := hcases hj
      · exact h.once i j m u u' b b' again again' hi hj
      · exact absurd hi (hunheard i u b again)
    · obtain hj | ⟨rfl, -⟩ := hcases hj
      · exact absurd hj (hunheard j u' b' again')
      · rfl
  · obtain hj | ⟨rfl, rfl, -, -, hflag⟩ := hcases hj
    · obtain ⟨i, q, m', u', b', hiq, hqj, hi, hq, horigin⟩ := hold.asked j m u b hj
      exact ⟨i, q, m', u', b', hiq, hqj, getElem?_append_of_some hi _,
        getElem?_append_of_some hq _, horigin⟩
    · obtain ⟨m, r₁, b₁, hm, hfirst, hstate, horigin⟩ := hledger.retried _ hcopy hflag
      obtain ⟨i, q, hiq, hi, hq⟩ := hheard.retried m r₁ b₁ hm hstate
      rw [hfirst] at hi
      have hmn : m ≠ n := by
        rintro rfl
        cases hnew.symm.trans hm
      refine ⟨i, q, m, r₁.topic, b₁, hiq, (List.getElem?_eq_some_iff.mp hq).1,
        getElem?_append_of_some hi _, getElem?_append_of_some hq _, ?_⟩
      rw [Function.update_self, Function.update_of_ne hmn]
      exact horigin

end Invoked
end Colloquy
