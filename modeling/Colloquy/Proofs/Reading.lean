/-
What a reader can make of any bytes.

`Yields read P` says that whatever `read` makes of some bytes satisfies `P`.  Lists, objects and
records yield what their parts yield: `items`, `entries` and `inOrder` keep what each of their
rounds keeps, and a record keeps what each of its members keeps of the draft.  So every value
that `value` makes out of whole numbers is plain.
-/
import Colloquy.Proofs.Rendering
import Colloquy.Json.Record

namespace Colloquy
namespace Json

variable {α β σ δ : Type}

theorem map_eq_ok {f : α → β} {x : Except Fault (α × Bytes)} {w : β} {r : Bytes}
    (h : x.map (fun (v, r) => (f v, r)) = .ok (w, r)) : ∃ v, x = .ok (v, r) ∧ f v = w := by
  cases x with
  | error why => cases h
  | ok p =>
    cases h
    exact ⟨p.1, rfl, rfl⟩

/-- Whatever `read` makes of some bytes satisfies `P`. -/
def Yields (read : Reader α) (P : α → Prop) : Prop :=
  ∀ ⦃bs : Bytes⦄ ⦃v : α⦄ ⦃r : Bytes⦄, read bs = .ok (v, r) → P v

namespace Yields

variable {read : Reader α} {P : α → Prop}

theorem trivial (read : Reader α) : Yields read fun _ => True := fun _ _ _ _ => .intro

theorem map {Q : β → Prop} (h : Yields read P) {f : α → β} (hq : ∀ v, P v → Q (f v)) :
    Yields (fun bs => (read bs).map fun (v, r) => (f v, r)) Q := by
  intro bs w r hw
  obtain ⟨v, hv, rfl⟩ := map_eq_ok hw
  exact hq v (h hv)

end Yields

/-! ## Lists and objects -/

theorem yields_items {item : σ → Reader σ} {P : σ → Prop}
    (h : ∀ s, P s → Yields (item s) P) (rounds : Bytes) (first : Bool) {s : σ} (hs : P s) :
    Yields (items item rounds first s) P := by
  induction rounds generalizing first s with
  | nil =>
    intro bs v r hv
    cases hv
  | cons _ rounds ih =>
    intro bs v r hv
    rw [items.eq_def] at hv
    dsimp only at hv
    split at hv
    · cases hv
    · split at hv
      · cases hv
      · cases hv
        exact hs
    · split at hv
      · cases hv
      · rename_i hitem
        exact ih false (h s hs hitem) hv

theorem yields_entries {entry : σ → String → Except Fault (Reader σ)} {P : σ → Prop}
    (h : ∀ s name read, P s → entry s name = .ok read → Yields read P) (rounds : Bytes)
    (first : Bool) {s : σ} (hs : P s) : Yields (entries entry rounds first s) P := by
  induction rounds generalizing first s with
  | nil =>
    intro bs v r hv
    cases hv
  | cons _ rounds ih =>
    intro bs v r hv
    rw [entries.eq_def] at hv
    dsimp only at hv
    split at hv
    · cases hv
    · cases hv
      exact hs
    · split at hv
      · cases hv
      · split at hv
        · cases hv
        · rename_i hentry
          split at hv
          · cases hv
          · split at hv
            · cases hv
            · rename_i hread
              exact ih false (h s _ _ hs hentry hread) hv

theorem Yields.gather {read : Reader α} {P : α → Prop} (h : Yields read P) {acc : List α}
    (hacc : ∀ v ∈ acc, P v) : Yields (gather read acc) fun acc => ∀ v ∈ acc, P v :=
  h.map (f := (· :: acc)) fun _ hv => List.forall_mem_cons.mpr ⟨hv, hacc⟩

/-! ## Numbers -/

namespace Value

/-- A whole number of one word, or a double. -/
inductive Numeric : Value → Prop
  | integer {i : Int} (le : Word.intMin 64 ≤ i) (ge : i ≤ Word.natMax 64) : Numeric (.integer i)
  | double (bits : UInt64) : Numeric (.double bits)

end Value

theorem yields_scaled (s : Decimal.Scaled) (negative : Bool) :
    Yields (scaled s negative) Value.Numeric := by
  intro bs v r hv
  unfold scaled at hv
  split at hv
  · cases hv
    exact .double _
  · cases hv

theorem yields_exponentPart (s : Decimal.Scaled) (negative : Bool) :
    Yields (exponentPart s negative) Value.Numeric := by
  intro bs v r hv
  unfold exponentPart at hv
  dsimp only at hv
  split at hv
  · cases hv
  · split at hv
    · exact yields_scaled _ negative hv
    · cases hv

theorem yields_fractionPart (s : Decimal.Scaled) (negative : Bool) :
    Yields (fractionPart s negative) Value.Numeric := by
  intro bs v r hv
  unfold fractionPart at hv
  dsimp only at hv
  split at hv
  · cases hv
  · split at hv
    · split at hv
      · exact yields_scaled _ negative hv
      · split at hv
        · exact yields_exponentPart _ negative hv
        · exact yields_scaled _ negative hv
    · cases hv

theorem whole_numeric {n : Nat} (h : n ≤ Word.natMax 64) (negative : Bool) :
    (whole n negative).Numeric := by
  unfold whole
  split_ifs with hpos hzero hfits
  · have hmin : Word.intMin 64 ≤ 0 := by decide
    exact .integer (by omega) (by omega)
  · exact .double _
  · exact .integer hfits (by omega)
  · exact .double _

theorem yields_numberTail {s : Decimal.Scaled} (h : s.significand ≤ Word.natMax 64)
    (negative : Bool) : Yields (numberTail s negative) Value.Numeric := by
  have hplain : ∀ bs : Bytes, ∀ v r,
      (if s.exponent = 0 then .ok (whole s.significand negative, bs)
        else scaled s negative bs : Except Fault (Value × Bytes)) = .ok (v, r) → v.Numeric := by
    intro bs v r hv
    split at hv
    · cases hv
      exact whole_numeric h negative
    · exact yields_scaled s negative hv
  intro bs v r hv
  unfold numberTail at hv
  dsimp only at hv
  split at hv
  · exact hplain _ _ _ hv
  · split at hv
    · exact yields_fractionPart s negative hv
    · split at hv
      · exact yields_exponentPart s negative hv
      · exact hplain _ _ _ hv

/-- Digits are taken in only as long as the significand fits a word. -/
theorem takeWhole_le {n : Nat} (h : n ≤ Word.natMax 64) (ds : List Nat) :
    (Decimal.takeWhole n ds).significand ≤ Word.natMax 64 := by
  induction ds generalizing n with
  | nil => exact h
  | cons d ds ih =>
    unfold Decimal.takeWhole
    split
    · exact h
    · rename_i hfits
      exact ih (Nat.le_of_not_lt hfits)

theorem yields_number (negative : Bool) : Yields (number negative) Value.Numeric := by
  have hzero : (0 : Nat) ≤ Word.natMax 64 := Nat.zero_le _
  intro bs v r hv
  unfold number at hv
  dsimp only at hv
  split at hv
  · cases hv
  · split at hv
    · split at hv
      · exact yields_numberTail hzero negative hv
      · split at hv
        · cases hv
        · exact yields_numberTail hzero negative hv
    · split at hv
      · exact yields_numberTail (takeWhole_le hzero _) negative hv
      · cases hv

/-! ## Values -/

namespace Value

mutual
/-- Whether all numbers of a value are whole.  (`-0` is read as a double.) -/
def isWhole : Value → Bool
  | double _ => false
  | array vs => areWhole vs
  | object fields => holdWhole fields
  | _ => true

def areWhole : List Value → Bool
  | [] => true
  | v :: r => isWhole v && areWhole r

def holdWhole : List (String × Value) → Bool
  | [] => true
  | (_, v) :: r => isWhole v && holdWhole r
end

theorem isWhole_of_mem {v : Value} {vs : List Value} (h : areWhole vs = true) (hv : v ∈ vs) :
    v.isWhole = true := by
  induction vs with
  | nil => cases hv
  | cons w vs ih =>
    obtain ⟨hw, hvs⟩ := Bool.and_eq_true_iff.mp h
    rcases List.mem_cons.mp hv with rfl | hv
    · exact hw
    · exact ih hvs hv

theorem isWhole_of_mem_fields {f : String × Value} {fields : List (String × Value)}
    (h : holdWhole fields = true) (hf : f ∈ fields) : f.2.isWhole = true := by
  induction fields with
  | nil => cases hf
  | cons g fields ih =>
    obtain ⟨hg, hfields⟩ := Bool.and_eq_true_iff.mp h
    rcases List.mem_cons.mp hf with rfl | hf
    · exact hg
    · exact ih hfields hf

theorem mem_put {name : String} {v : Value} {fields : List (String × Value)}
    {f : String × Value} (h : f ∈ put name v fields) : f = (name, v) ∨ f ∈ fields := by
  induction fields with
  | nil => exact Or.inl (List.mem_singleton.mp h)
  | cons g fields ih =>
    unfold put at h
    split_ifs at h with heq hlt
    · rcases List.mem_cons.mp h with rfl | h
      · exact Or.inl (by rw [heq])
      · exact Or.inr (List.mem_cons_of_mem g h)
    · rcases List.mem_cons.mp h with rfl | h
      · exact Or.inl rfl
      · exact Or.inr h
    · rcases List.mem_cons.mp h with rfl | h
      · exact Or.inr List.mem_cons_self
      · exact (ih h).imp_right (List.mem_cons_of_mem g)

/-- Fields in ascending order, with values that satisfy `P`. -/
structure Orderly (P : Value → Prop) (fields : List (String × Value)) : Prop where
  ascending : fields.Pairwise fun f g => f.1 < g.1
  values : ∀ f ∈ fields, P f.2

theorem put_ascending {name : String} {v : Value} {fields : List (String × Value)}
    (h : fields.Pairwise fun f g => f.1 < g.1) :
    (put name v fields).Pairwise fun f g => f.1 < g.1 := by
  induction fields with
  | nil => exact List.pairwise_singleton _ _
  | cons g fields ih =>
    obtain ⟨hg, hfields⟩ := List.pairwise_cons.mp h
    unfold put
    split_ifs with heq hlt
    · exact List.pairwise_cons.mpr ⟨hg, hfields⟩
    · refine List.pairwise_cons.mpr ⟨fun f hf => ?_, h⟩
      rcases List.mem_cons.mp hf with rfl | hf
      · exact hlt
      · exact hlt.trans (hg f hf)
    · refine List.pairwise_cons.mpr ⟨fun f hf => ?_, ih hfields⟩
      rcases mem_put hf with rfl | hf
      · exact lt_of_le_of_ne (not_lt.mp hlt) (Ne.symm heq)
      · exact hg f hf

theorem Orderly.put {P : Value → Prop} {fields : List (String × Value)} (h : Orderly P fields)
    (name : String) {v : Value} (hv : P v) : Orderly P (put name v fields) where
  ascending := put_ascending h.ascending
  values := fun f hf => by
    rcases mem_put hf with rfl | hf
    · exact hv
    · exact h.values f hf

end Value

theorem Yields.enter {read : Reader Value} {P : Value → Prop} (h : Yields read P)
    {acc : List (String × Value)} (hacc : Value.Orderly P acc) {name : String}
    {entry : Reader (List (String × Value))} (he : enter read acc name = .ok entry) :
    Yields entry (Value.Orderly P) := by
  cases he
  exact h.map (f := fun v => Value.put name v acc) fun _ hv => hacc.put name hv

/-- What `value` can make of some bytes.  A value is null only if its text begins as null does. -/
inductive Made (depth : Nat) (bs : Bytes) : Value → Prop
  | null {t : Bytes} (begins : skipBlanks bs = 0x6e :: t) : Made depth bs .null
  | bool (b : Bool) : Made depth bs (.bool b)
  | number {v : Value} (numeric : v.Numeric) : Made depth bs v
  | text (s : String) : Made depth bs (.text s)
  | array {d : Nat} {t r : Bytes} {acc : List Value} (inner : depth = d + 1)
      (read : items (gather (value d)) t true [] t = .ok (acc, r)) :
      Made depth bs (.array acc.reverse)
  | object {d : Nat} {t r : Bytes} {acc : List (String × Value)} (inner : depth = d + 1)
      (read : entries (enter (value d)) t true [] t = .ok (acc, r)) : Made depth bs (.object acc)

theorem made_of_value {depth : Nat} {bs r : Bytes} {v : Value}
    (h : value depth bs = .ok (v, r)) : Made depth bs v := by
  rw [value.eq_def] at h
  dsimp only at h
  split at h
  · cases h
  rename_i b t hblanks
  split at h
  · rename_i hnull
    subst hnull
    obtain ⟨-, -, rfl⟩ := map_eq_ok (f := fun _ => Value.null) h
    exact .null hblanks
  split at h
  · obtain ⟨-, -, rfl⟩ := map_eq_ok (f := fun _ => Value.bool true) h
    exact .bool true
  split at h
  · obtain ⟨-, -, rfl⟩ := map_eq_ok (f := fun _ => Value.bool false) h
    exact .bool false
  split at h
  · exact .number (yields_number true h)
  split at h
  · exact .number (yields_number false h)
  split at h
  · obtain ⟨s, -, rfl⟩ := map_eq_ok (f := Value.text) h
    exact .text s
  split at h
  · split at h
    · cases h
    · rename_i d
      obtain ⟨acc, hacc, rfl⟩ := map_eq_ok (f := fun acc => Value.array (List.reverse acc)) h
      exact .array rfl hacc
  split at h
  · split at h
    · cases h
    · rename_i d
      obtain ⟨acc, hacc, rfl⟩ := map_eq_ok (f := Value.object) h
      exact .object rfl hacc
  · cases h

/-- Whole numbers, and lists and objects of what is plain, are plain. -/
theorem yields_value (depth : Nat) :
    Yields (value depth) fun v => v.isWhole = true → v.Plain depth := by
  induction depth using Nat.strongRecOn with
  | ind depth ih =>
    intro bs v r hv hw
    cases made_of_value hv with
    | null _ => exact .null _
    | bool b => exact .bool _ b
    | number hn =>
      cases hn with
      | integer le ge => exact .integer _ le ge
      | double bits => cases hw
    | text s => exact .text _ s
    | @array d t r acc hd hacc =>
      subst hd
      have hplain := yields_items (fun _ => (ih d (Nat.lt_succ_self d)).gather) t true
        (List.forall_mem_nil _) hacc
      exact .array fun v hv => hplain v (List.mem_reverse.mp hv) (Value.isWhole_of_mem hw hv)
    | @object d t r acc hd hacc =>
      subst hd
      have hplain := yields_entries (P := Value.Orderly _)
        (fun _ _ _ hf he => (ih d (Nat.lt_succ_self d)).enter hf he) t true
        ⟨.nil, List.forall_mem_nil _⟩ hacc
      exact .object hplain.ascending fun f hf =>
        hplain.values f hf (Value.isWhole_of_mem_fields hw hf)

/-- A value whose text does not begin as null does is not null. -/
theorem ne_null_of_value {depth : Nat} {b : UInt8} {bs r : Bytes} {v : Value}
    (hblank : isBlank b = false) (hb : b ≠ 0x6e) (h : value depth (b :: bs) = .ok (v, r)) :
    v ≠ .null := by
  have hbs := skipBlanks_cons hblank bs
  cases made_of_value h with
  | null begins =>
    rw [hbs] at begins
    exact absurd (List.cons.inj begins).1 hb
  | number hn => cases hn <;> exact Value.noConfusion
  | _ => exact Value.noConfusion

/-! ## Field values -/

theorem not_isBlank_of_skipBlanks {bs r : Bytes} {b : UInt8} (h : skipBlanks bs = b :: r) :
    isBlank b = false := by
  induction bs with
  | nil => cases h
  | cons c bs ih =>
    unfold skipBlanks at h
    split at h
    · exact ih h
    · rename_i hc
      cases h
      exact Bool.eq_false_iff.mpr hc

theorem yields_intField (lo hi : Int) : Yields (intField lo hi) fun i => lo ≤ i ∧ i ≤ hi := by
  intro bs i r h
  unfold intField at h
  dsimp only at h
  -- with a sign or without one the same check is made, and it lets through only what is in range
  repeat' split at h
  all_goals cases h
  all_goals assumption

theorem yields_natField (bits : Nat) : Yields (natField bits) (· ≤ Word.natMax bits) :=
  (yields_intField 0 (Word.natMax bits)).map fun i hi => by omega

/-- What is not null is read from its first byte on, which is no blank. -/
theorem yields_optionalField {read : Reader α} {P : α → Prop}
    (hempty : ∀ v r, read [] = .ok (v, r) → P v)
    (hread : ∀ b t v r, isBlank b = false → b ≠ 0x6e → read (b :: t) = .ok (v, r) → P v) :
    Yields (optionalField read) fun o => ∀ v ∈ o, P v := by
  intro bs o r h
  unfold optionalField at h
  split at h
  · rename_i b t hblanks
    split at h
    · obtain ⟨-, -, rfl⟩ := map_eq_ok (f := fun _ => none) h
      exact fun _ hv => nomatch hv
    · rename_i hb
      obtain ⟨v, hv, rfl⟩ := map_eq_ok (f := some) h
      rintro _ ⟨⟩
      exact hread b t v r (not_isBlank_of_skipBlanks hblanks) hb hv
  · obtain ⟨v, hv, rfl⟩ := map_eq_ok (f := some) h
    rintro _ ⟨⟩
    exact hempty v r hv

theorem Yields.optionalField {read : Reader α} {P : α → Prop} (h : Yields read P) :
    Yields (optionalField read) fun o => ∀ v ∈ o, P v :=
  yields_optionalField (fun _ _ hv => h hv) fun _ _ _ _ _ _ hv => h hv

/-- A value that may be null is never null when it is there. -/
theorem yields_optionalValue (depth : Nat) :
    Yields (optionalField (value depth)) fun o =>
      ∀ v ∈ o, v ≠ .null ∧ (v.isWhole = true → v.Plain depth) := by
  refine yields_optionalField (fun v r hv => ?_) fun b t v r hblank hb hv => ?_
  · rw [value.eq_def] at hv
    cases hv
  · exact ⟨ne_null_of_value hblank hb hv, yields_value depth hv⟩

/-! ## Records -/

theorem yields_member {name : String} {required : Bool} {read : Nat → Reader β}
    {get : δ → Option β} {set : β → δ → δ} {depth : Nat} {Q : β → Prop} {D : δ → Prop} {d : δ}
    (h : Yields (read depth) Q) (hset : ∀ v, Q v → D (set v d)) :
    Yields ((member name required read get set).read depth d) D :=
  h.map (f := (set · d)) hset

theorem yields_inOrder {D : δ → Prop} {depth : Nat} {ms : List (Member δ)}
    (h : ∀ m ∈ ms, ∀ d, D d → Yields (m.read depth d) D) (first : Bool) {d : δ} (hd : D d) :
    Yields (inOrder depth ms first d) D := by
  induction ms generalizing first d with
  | nil =>
    intro bs v r hv
    cases hv
    exact hd
  | cons m ms ih =>
    obtain ⟨hm, hms⟩ := List.forall_mem_cons.mp h
    intro bs v r hv
    unfold inOrder at hv
    split at hv
    · cases hv
    · split at hv
      · cases hv
      · exact ih hms first hd hv
    · split at hv
      · cases hv
      · rename_i hread
        exact ih hms false (hm d hd hread) hv

namespace Shape

variable {s : Shape δ α} {D : δ → Prop} {P : α → Prop} {depth : Nat}

/-- Only members that are not given yet are read. -/
theorem yields_entry
    (h : ∀ m ∈ s.members, ∀ d, D d → m.given d = false → Yields (m.read depth d) D) {d : δ}
    (hd : D d) {name : String} {read : Reader δ} (he : s.entry depth d name = .ok read) :
    Yields read D := by
  unfold entry at he
  split at he
  · rename_i m hfind
    split at he
    · cases he
    · rename_i hgiven
      cases he
      exact h m (List.mem_of_find?_eq_some hfind) d hd (Bool.eq_false_iff.mpr hgiven)
  · split at he
    · cases he
    · cases he
      exact (Yields.trivial _).map fun _ _ => hd

/-- A record yields what its members keep of the draft. -/
theorem yields_read (hblank : D s.blank)
    (hmembers : ∀ inner, depth = inner + 1 → ∀ m ∈ s.members, ∀ d, D d →
      Yields (m.read inner d) D)
    (hfinish : ∀ d v, D d → s.finish d = .ok v → P v) : Yields (s.read depth) P := by
  intro bs v r hv
  unfold Shape.read at hv
  split at hv
  · cases hv
  split at hv
  · split at hv
    · cases hv
    split at hv
    · cases hv
    rename_i hdraft
    split at hv
    · cases hv
    rename_i w hfinished
    have hw := hfinish _ w (yields_inOrder (hmembers _ rfl) true hblank hdraft) hfinished
    cases hend : endList _ with
    | error why =>
      rw [hend] at hv
      cases hv
    | ok rest =>
      rw [hend] at hv
      cases hv
      exact hw
  split at hv
  · split at hv
    · cases hv
    split at hv
    · cases hv
    rename_i draft _ hdraft
    have hd := yields_entries
      (fun _ _ _ hd he => yields_entry (fun m hm d hd _ => hmembers _ rfl m hm d hd) hd he) _ true
      hblank hdraft
    cases hfinished : s.finish draft with
    | error why =>
      rw [hfinished] at hv
      cases hv
    | ok w =>
      rw [hfinished] at hv
      cases hv
      exact hfinish draft v hd hfinished
  · cases hv

end Shape

end Json
end Colloquy
