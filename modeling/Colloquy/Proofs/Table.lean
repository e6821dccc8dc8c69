/-
Keys, sizes and sums of tables.

`put` and `erase` keep the keys of a table apart, so that its size is the number of its
keys, and the values of a table of numbers add up to the sum of `get?` over its keys.
-/
import Colloquy.Table
import Mathlib.Algebra.BigOperators.Group.Finset.Basic
import Mathlib.Algebra.Ring.Nat
import Mathlib.Data.Fintype.EquivFin

namespace Colloquy
namespace Table

variable {κ α : Type} [DecidableEq κ]

/-- `update` changes the value of one key. -/
theorem get?_update_self (t : Table κ α) (k : κ) (f : α → α) :
    (t.update k f).get? k = (t.get? k).map f := by
  unfold update
  cases h : t.get? k with
  | none => simp [h]
  | some v => simp

theorem get?_update_ne (t : Table κ α) {k l : κ} (h : l ≠ k) (f : α → α) :
    (t.update k f).get? l = t.get? l := by
  unfold update
  cases t.get? k with
  | none => rfl
  | some v => exact get?_put_ne t h (f v)

theorem get?_put (t : Table κ α) (k l : κ) (v : α) :
    (t.put k v).get? l = if l = k then some v else t.get? l := by
  split_ifs with h
  · rw [h, get?_put_self]
  · exact get?_put_ne t h v

theorem getD_put (t : Table κ α) (k l : κ) (v d : α) :
    (t.put k v).getD l d = if l = k then v else t.getD l d := by
  unfold getD
  rw [get?_put]
  split_ifs <;> rfl

theorem get?_erase (t : Table κ α) (k l : κ) :
    (t.erase k).get? l = if l = k then none else t.get? l := by
  split_ifs with h
  · rw [h, get?_erase_self]
  · exact get?_erase_ne t h

/-! ## Keys -/

theorem lookup_eq_none_iff {k : κ} {es : List (κ × α)} :
    es.lookup k = none ↔ k ∉ es.map Prod.fst := by
  rw [List.lookup_eq_none_iff, List.mem_map]
  constructor
  · rintro h ⟨e, he, rfl⟩
    exact absurd (h e he) (by simp)
  · intro h e he
    exact bne_iff_ne.mpr fun hk => h ⟨e, he, hk.symm⟩

theorem get?_eq_none_iff {t : Table κ α} {k : κ} : t.get? k = none ↔ k ∉ t.keys :=
  lookup_eq_none_iff

/-- A table of finitely many numbers leaves one out. -/
theorem exists_get?_eq_none (t : Table Nat α) : ∃ n, t.get? n = none := by
  obtain ⟨n, hn⟩ := Infinite.exists_notMem_finset t.keys.toFinset
  exact ⟨n, get?_eq_none_iff.mpr fun hkey => hn (List.mem_toFinset.mpr hkey)⟩

theorem mem_keys_of_get? {t : Table κ α} {k : κ} {v : α} (h : t.get? k = some v) :
    k ∈ t.keys := by
  by_contra hk
  rw [get?_eq_none_iff.mpr hk] at h
  cases h

theorem mem_values_of_get? {t : Table κ α} {k : κ} {v : α} (h : t.get? k = some v) :
    v ∈ t.values := by
  have hes : ∀ es : List (κ × α), es.lookup k = some v → v ∈ es.map Prod.snd := by
    intro es
    induction es with
    | nil => exact fun h => nomatch h
    | cons e es ih =>
      intro h
      rw [List.lookup_cons] at h
      split at h
      · cases h
        exact List.mem_cons_self
      · exact List.mem_cons_of_mem _ (ih h)
  exact hes t.entries h

/-- The values of a table where one was put are those that were there, and the new one. -/
theorem lookup_of_mem {k : κ} {v : α} {es : List (κ × α)} (hn : (es.map Prod.fst).Nodup)
    (h : (k, v) ∈ es) : es.lookup k = some v := by
  induction es with
  | nil => cases h
  | cons e r ih =>
    obtain ⟨l, w⟩ := e
    rw [List.map_cons, List.nodup_cons] at hn
    rcases List.mem_cons.mp h with heq | hr
    · cases heq
      rw [List.lookup_cons, beq_self_eq_true]
    · have hne : k ≠ l := by
        rintro rfl
        exact hn.1 (List.mem_map.mpr ⟨_, hr, rfl⟩)
      rw [List.lookup_cons, beq_eq_false_iff_ne.mpr hne]
      exact ih hn.2 hr

theorem get?_of_mem_values {t : Table κ α} {v : α} (hn : t.keys.Nodup) (h : v ∈ t.values) :
    ∃ k, t.get? k = some v := by
  obtain ⟨⟨k, w⟩, hmem, rfl⟩ := List.mem_map.mp h
  exact ⟨k, lookup_of_mem hn hmem⟩

/-- What is under one key only is there once. -/
theorem count_values_le_one [DecidableEq α] {t : Table κ α} {v : α} (hn : t.keys.Nodup)
    (h : ∀ k l, t.get? k = some v → t.get? l = some v → k = l) : t.values.count v ≤ 1 := by
  have hes : ∀ es : List (κ × α), (es.map Prod.fst).Nodup →
      (∀ k l, (k, v) ∈ es → (l, v) ∈ es → k = l) → (es.map Prod.snd).count v ≤ 1 := by
    intro es
    induction es with
    | nil => exact fun _ _ => Nat.zero_le 1
    | cons e r ih =>
      intro hnodup hone
      rw [List.map_cons, List.nodup_cons] at hnodup
      by_cases hv : e.2 = v
      · have hnone : v ∉ r.map Prod.snd := by
          intro hmem
          obtain ⟨⟨k, w⟩, hr, rfl⟩ := List.mem_map.mp hmem
          have hk : e.1 = k := hone e.1 k
            (List.mem_cons.mpr (Or.inl (Prod.ext rfl hv.symm))) (List.mem_cons_of_mem _ hr)
          exact hnodup.1 (List.mem_map.mpr ⟨_, hr, hk.symm⟩)
        rw [List.map_cons, hv, List.count_cons_self, List.count_eq_zero_of_not_mem hnone]
      · rw [List.map_cons, List.count_cons_of_ne hv]
        exact ih hnodup.2 fun k l hk hl =>
          hone k l (List.mem_cons_of_mem _ hk) (List.mem_cons_of_mem _ hl)
  exact hes t.entries hn fun k l hk hl => h k l (lookup_of_mem hn hk) (lookup_of_mem hn hl)

theorem mem_values_put {t : Table κ α} {k : κ} {v w : α} (h : w ∈ (t.put k v).values) :
    w = v ∨ w ∈ t.values := by
  have hes : ∀ es : List (κ × α), w ∈ (putIn k v es).map Prod.snd →
      w = v ∨ w ∈ es.map Prod.snd := by
    intro es
    induction es with
    | nil => exact fun h => Or.inl (List.mem_singleton.mp h)
    | cons e es ih =>
      intro h
      rw [putIn] at h
      split at h
      · exact (List.mem_cons.mp h).imp_right (List.mem_cons_of_mem _)
      · rcases List.mem_cons.mp h with h | h
        · exact Or.inr (List.mem_cons.mpr (Or.inl h))
        · exact (ih h).imp_right (List.mem_cons_of_mem _)
  exact hes t.entries h

theorem contains_eq_true_iff {t : Table κ α} {k : κ} : t.contains k = true ↔ k ∈ t.keys := by
  rw [contains, ← not_iff_not, ← get?_eq_none_iff]
  cases t.get? k <;> simp

theorem contains_eq_false_iff {t : Table κ α} {k : κ} : t.contains k = false ↔ k ∉ t.keys := by
  rw [← contains_eq_true_iff, Bool.not_eq_true]

/-- A key that is there keeps its place. -/
theorem keys_putIn_of_mem {k : κ} {es : List (κ × α)} (h : k ∈ es.map Prod.fst) (v : α) :
    (putIn k v es).map Prod.fst = es.map Prod.fst := by
  induction es with
  | nil => simp at h
  | cons e r ih =>
    obtain ⟨l, w⟩ := e
    by_cases hl : l = k
    · simp [putIn, hl]
    · have hr : k ∈ r.map Prod.fst := by
        rcases List.mem_cons.mp h with rfl | hr
        · exact absurd rfl hl
        · exact hr
      simp only [putIn, if_neg hl, List.map_cons, ih hr]

theorem putIn_of_not_mem {k : κ} {es : List (κ × α)} (h : k ∉ es.map Prod.fst) (v : α) :
    putIn k v es = es ++ [(k, v)] := by
  induction es with
  | nil => rfl
  | cons e r ih =>
    obtain ⟨l, w⟩ := e
    have hl : l ≠ k := fun hl => h (by simp [hl])
    have hr : k ∉ r.map Prod.fst := fun hr => h (List.mem_cons_of_mem _ hr)
    rw [putIn, if_neg hl, ih hr, List.cons_append]

theorem keys_put_of_mem {t : Table κ α} {k : κ} (h : k ∈ t.keys) (v : α) :
    (t.put k v).keys = t.keys :=
  keys_putIn_of_mem h v

theorem keys_put_of_not_mem {t : Table κ α} {k : κ} (h : k ∉ t.keys) (v : α) :
    (t.put k v).keys = t.keys ++ [k] := by
  show (putIn k v t.entries).map Prod.fst = _
  rw [putIn_of_not_mem h, List.map_append]
  rfl

theorem nodup_keys_put {t : Table κ α} (h : t.keys.Nodup) (k : κ) (v : α) :
    (t.put k v).keys.Nodup := by
  by_cases hk : k ∈ t.keys
  · rw [keys_put_of_mem hk]
    exact h
  · rw [keys_put_of_not_mem hk]
    exact List.Nodup.append h (List.nodup_singleton k) (by simpa using hk)

theorem eraseIn_eq_filter (k : κ) (es : List (κ × α)) :
    eraseIn k es = es.filter fun e => e.1 ≠ k := by
  induction es with
  | nil => rfl
  | cons e r ih =>
    obtain ⟨l, w⟩ := e
    by_cases hl : l = k <;> simp [eraseIn, hl, ih]

theorem keys_erase (t : Table κ α) (k : κ) : (t.erase k).keys = t.keys.filter (· ≠ k) := by
  show (eraseIn k t.entries).map Prod.fst = _
  rw [eraseIn_eq_filter, keys, List.filter_map]
  rfl

theorem nodup_keys_erase {t : Table κ α} (h : t.keys.Nodup) (k : κ) :
    (t.erase k).keys.Nodup := by
  rw [keys_erase]
  exact h.filter _

/-- To put a new key and to erase it again changes nothing. -/
theorem erase_put_of_not_mem {t : Table κ α} {k : κ} (h : k ∉ t.keys) (v : α) :
    (t.put k v).erase k = t := by
  have hes : eraseIn k (putIn k v t.entries) = t.entries := by
    rw [putIn_of_not_mem h, eraseIn_eq_filter, List.filter_append]
    have hall : ∀ e ∈ t.entries, decide (e.1 ≠ k) = true := fun e he =>
      decide_eq_true fun hk => h (hk ▸ List.mem_map_of_mem he)
    rw [List.filter_eq_self.mpr hall]
    simp
  show ({ entries := eraseIn k (putIn k v t.entries) } : Table κ α) = t
  rw [hes]

/-! ## Sizes -/

omit [DecidableEq κ] in
theorem size_eq_length_keys (t : Table κ α) : t.size = t.keys.length :=
  (List.length_map ..).symm

theorem size_put_of_mem {t : Table κ α} {k : κ} (h : k ∈ t.keys) (v : α) :
    (t.put k v).size = t.size := by
  rw [size_eq_length_keys, size_eq_length_keys, keys_put_of_mem h]

theorem size_put_of_not_mem {t : Table κ α} {k : κ} (h : k ∉ t.keys) (v : α) :
    (t.put k v).size = t.size + 1 := by
  rw [size_eq_length_keys, size_eq_length_keys, keys_put_of_not_mem h, List.length_append]
  rfl

theorem size_erase {t : Table κ α} (hn : t.keys.Nodup) {k : κ} (h : k ∈ t.keys) :
    (t.erase k).size + 1 = t.size := by
  have he : (t.erase k).keys = t.keys.erase k := by
    rw [keys_erase, hn.erase_eq_filter]
    exact List.filter_congr fun l _ => by simp [bne, beq_eq_decide]
  have hpos : 0 < t.keys.length := List.length_pos_of_mem h
  rw [size_eq_length_keys, size_eq_length_keys, he, List.length_erase_of_mem h]
  omega

omit [DecidableEq κ] in
theorem size_pos_of_mem {t : Table κ α} {k : κ} (h : k ∈ t.keys) : 0 < t.size := by
  rw [size_eq_length_keys]
  exact List.length_pos_of_mem h

/-! ## Other values -/

section Map

variable {β : Type} (f : α → β) (t : Table κ α)

omit [DecidableEq κ] in
theorem keys_map : (⟨t.entries.map fun (k, v) => (k, f v)⟩ : Table κ β).keys = t.keys := by
  simp [keys, Function.comp_def]

theorem get?_map (k : κ) :
    (⟨t.entries.map fun (k, v) => (k, f v)⟩ : Table κ β).get? k = (t.get? k).map f := by
  have hes : ∀ es : List (κ × α),
      (es.map fun (k, v) => (k, f v)).lookup k = (es.lookup k).map f := by
    intro es
    induction es with
    | nil => rfl
    | cons e es ih =>
      obtain ⟨l, v⟩ := e
      simp only [List.map_cons, List.lookup_cons]
      cases k == l with
      | true => rfl
      | false => exact ih
  exact hes t.entries

end Map

/-! ## Sums -/

theorem sum_entries (es : List (κ × Nat)) (hn : (es.map Prod.fst).Nodup) :
    (es.map Prod.snd).sum = ∑ k ∈ (es.map Prod.fst).toFinset, (es.lookup k).getD 0 := by
  induction es with
  | nil => rfl
  | cons e r ih =>
    obtain ⟨l, w⟩ := e
    obtain ⟨hl, hr⟩ := List.nodup_cons.mp hn
    have hl' : l ∉ (r.map Prod.fst).toFinset := fun h => hl (List.mem_toFinset.mp h)
    have hrest : ∀ k ∈ (r.map Prod.fst).toFinset,
        (((l, w) :: r).lookup k).getD 0 = (r.lookup k).getD 0 := by
      intro k hk
      have hkl : (k == l) = false := beq_eq_false_iff_ne.mpr fun h => hl' (h ▸ hk)
      simp only [List.lookup_cons, hkl]
    rw [List.map_cons, List.map_cons, List.sum_cons, List.toFinset_cons,
      Finset.sum_insert hl', Finset.sum_congr rfl hrest, ih hr]
    simp

/-- The values of a table of numbers add up to a sum over any set that has all its keys. -/
theorem sum_values {t : Table κ Nat} (hn : t.keys.Nodup) {s : Finset κ}
    (hs : ∀ k ∈ t.keys, k ∈ s) : t.values.sum = ∑ k ∈ s, (t.get? k).getD 0 := by
  have hsub : t.keys.toFinset ⊆ s := fun k hk => hs k (List.mem_toFinset.mp hk)
  rw [← Finset.sum_subset hsub]
  · exact sum_entries t.entries hn
  · intro k _ hk
    rw [get?_eq_none_iff.mpr fun h => hk (List.mem_toFinset.mpr h)]
    rfl

/-! ## Totals -/

section Total

variable {M : Type} [AddCommMonoid M] (f : κ → α → M)

/-- What `f` makes of each entry, added up. -/
def total (t : Table κ α) : M := (t.entries.map fun e => f e.1 e.2).sum

/-- To put a value takes the old one of its key away. -/
theorem total_put (t : Table κ α) (k : κ) (v : α) :
    (t.put k v).total f + ((t.get? k).map (f k)).getD 0 = t.total f + f k v := by
  have hes : ∀ es : List (κ × α),
      ((putIn k v es).map fun e => f e.1 e.2).sum + ((es.lookup k).map (f k)).getD 0 =
        (es.map fun e => f e.1 e.2).sum + f k v := by
    intro es
    induction es with
    | nil => simp [putIn]
    | cons e es ih =>
      obtain ⟨l, w⟩ := e
      by_cases hl : l = k
      · subst hl
        simp only [putIn, if_true, List.map_cons, List.sum_cons, List.lookup_cons,
          beq_self_eq_true, Option.map_some, Option.getD_some]
        ac_rfl
      · have hkl : (k == l) = false := beq_eq_false_iff_ne.mpr fun h => hl h.symm
        simp only [putIn, hl, if_false, List.map_cons, List.sum_cons, List.lookup_cons, hkl]
        rw [add_assoc, ih, add_assoc]
  exact hes t.entries

theorem total_erase {t : Table κ α} (hn : t.keys.Nodup) (k : κ) :
    (t.erase k).total f + ((t.get? k).map (f k)).getD 0 = t.total f := by
  have hes : ∀ es : List (κ × α), (es.map Prod.fst).Nodup →
      ((eraseIn k es).map fun e => f e.1 e.2).sum + ((es.lookup k).map (f k)).getD 0 =
        (es.map fun e => f e.1 e.2).sum := by
    intro es
    induction es with
    | nil => simp [eraseIn]
    | cons e es ih =>
      obtain ⟨l, w⟩ := e
      intro hn
      obtain ⟨hnot, hn⟩ := List.nodup_cons.mp hn
      by_cases hl : l = k
      · subst hl
        have hgone : eraseIn l es = es := by
          rw [eraseIn_eq_filter]
          exact List.filter_eq_self.mpr fun e he => decide_eq_true fun h =>
            hnot (List.mem_map.mpr ⟨e, he, h⟩)
        simp only [eraseIn, if_true, hgone, List.map_cons, List.sum_cons, List.lookup_cons,
          beq_self_eq_true, Option.map_some, Option.getD_some]
        exact add_comm _ _
      · have hkl : (k == l) = false := beq_eq_false_iff_ne.mpr fun h => hl h.symm
        simp only [eraseIn, hl, if_false, List.map_cons, List.sum_cons, List.lookup_cons, hkl]
        rw [add_assoc, ih hn]
  exact hes t.entries hn

/-- A total to which only one key adds is what its value makes. -/
theorem total_single {t : Table κ α} (hn : t.keys.Nodup) (k : κ) (g : α → M) :
    (t.total fun l v => if l = k then g v else 0) = ((t.get? k).map g).getD 0 := by
  have hes : ∀ es : List (κ × α), (es.map Prod.fst).Nodup →
      (es.map fun e => if e.1 = k then g e.2 else 0).sum = ((es.lookup k).map g).getD 0 := by
    intro es
    induction es with
    | nil => exact fun _ => rfl
    | cons e es ih =>
      obtain ⟨l, v⟩ := e
      intro hn
      obtain ⟨hnot, hn⟩ := List.nodup_cons.mp hn
      rw [List.map_cons, List.sum_cons, ih hn, List.lookup_cons]
      by_cases hl : l = k
      · subst hl
        rw [lookup_eq_none_iff.mpr hnot]
        simp
      · have hkl : (k == l) = false := beq_eq_false_iff_ne.mpr fun h => hl h.symm
        simp [hl, hkl]
  exact hes t.entries hn

end Total

end Table
end Colloquy
