/-
What records come to.

Where a value stands makes no difference to the readers of the values of fields.  So a record that
is written as an object comes to what its fields make of the blank draft one after the other, and
one that is written as a list to what the members make of its items.
-/
import Colloquy.Proofs.Extents
import Colloquy.Proofs.Records

namespace Colloquy
namespace Json

variable {α β δ σ : Type}

/-! ## Field values -/

theorem local_textField : Local textField := by
  have hs : Skips textField := fun bs => by rw [textField, textField, skipBlanks_skipBlanks]
  refine hs.local fun v hv => ?_
  cases hv with
  | @text s h =>
    obtain ⟨o, ho⟩ := text_spelling h
    refine ⟨o, fun rest _ => ?_⟩
    rw [← ho rest, List.cons_append, List.append_assoc]
    rfl
  | unsigned h =>
    obtain ⟨b, r, rfl, hb⟩ := h.cons
    refine ⟨none, fun rest _ => ?_⟩
    rw [textField, List.cons_append, skipBlanks_cons (not_isBlank_of_isDigit hb)]
    dsimp only
    rw [if_neg (ne_of_isDigit hb rfl)]
    rfl
  | _ => exact ⟨none, fun _ _ => rfl⟩

/-- The whole number that a value is, if it is one from `lo` to `hi`. -/
def Value.within (lo hi : Int) : Value → Option Int
  | .integer i => if lo ≤ i ∧ i ≤ hi then some i else none
  | _ => none

theorem fixed_intField {lo hi : Int} (negative : Bool) {u v : Bytes} (hu : Unsigned u)
    (h : ∀ rest, (intField lo hi (v ++ rest)).toOption = (number negative (u ++ rest)).toOption.bind
      fun (w, r) => (w.within lo hi).map (·, r)) : ∃ o, Fixed (intField lo hi) v o := by
  obtain ⟨o, ho⟩ := fixed_number negative hu
  refine ⟨o.bind (Value.within lo hi), fun rest hr => ?_⟩
  rw [h rest, ho rest hr]
  cases o <;> rfl

/-- A number that has been read, where only whole ones from `lo` to `hi` are wanted. -/
def checked (lo hi : Int) : Except Fault (Value × Bytes) → Except Fault (Int × Bytes)
  | .error f => .error f
  | .ok (.integer i, r) => if lo ≤ i ∧ i ≤ hi then .ok (i, r) else .error .mismatched
  | .ok _ => .error .mismatched

theorem toOption_checked (lo hi : Int) (x : Except Fault (Value × Bytes)) :
    (checked lo hi x).toOption =
      x.toOption.bind fun (w, r) => (w.within lo hi).map (·, r) := by
  cases x with
  | error f => rfl
  | ok p =>
    obtain ⟨w, r⟩ := p
    cases w with
    | integer i =>
      show (if lo ≤ i ∧ i ≤ hi then .ok (i, r) else .error .mismatched :
        Except Fault (Int × Bytes)).toOption = (if lo ≤ i ∧ i ≤ hi then some i else none).map _
      split_ifs <;> rfl
    | _ => rfl

theorem local_intField (lo hi : Int) : Local (intField lo hi) := by
  have hs : Skips (intField lo hi) := fun bs => by rw [intField, intField, skipBlanks_skipBlanks]
  refine hs.local fun v hv => ?_
  cases hv with
  | negative h => exact fixed_intField true h fun rest => toOption_checked lo hi _
  | unsigned h =>
    refine fixed_intField false h fun rest => ?_
    obtain ⟨b, r, rfl, hb⟩ := h.cons
    rw [intField, List.cons_append, skipBlanks_cons (not_isBlank_of_isDigit hb)]
    dsimp only
    rw [if_neg (ne_of_isDigit hb rfl), if_pos hb]
    exact toOption_checked lo hi _
  | _ => exact ⟨none, fun _ _ => rfl⟩

theorem local_natField (bits : Nat) : Local (natField bits) :=
  (local_intField 0 (Word.natMax bits)).map Int.toNat

section Optional

variable {read : Reader α}

theorem optionalField_cons {b : UInt8} (hblank : isBlank b = false) (hb : b ≠ 0x6e) (r : Bytes) :
    optionalField read (b :: r) = (read (b :: r)).map fun (v, r) => (some v, r) := by
  rw [optionalField, skipBlanks_cons hblank]
  dsimp only
  rw [if_neg hb]

theorem IsValue.eq_null {r : Bytes} (h : IsValue (0x6e :: r)) : 0x6e :: r = nullBytes := by
  generalize hv : (0x6e :: r : Bytes) = v at h
  cases h with
  | null => rfl
  | unsigned h =>
    obtain ⟨b, r, rfl, hb⟩ := h.cons
    cases hv
    cases hb
  | _ => cases hv

theorem fixed_optionalField {v : Bytes} (hv : IsValue v) (hnull : v ≠ nullBytes)
    (h : Settled read v) : Fixed (optionalField read) v ((take read v).map some) := by
  obtain ⟨b, r, rfl, hblank, -⟩ := hv.cons
  have hb : b ≠ 0x6e := by
    rintro rfl
    exact hnull hv.eq_null
  intro rest hr
  rw [List.cons_append, optionalField_cons hblank hb, ← List.cons_append]
  exact h.fixed.map some rest hr

theorem take_optionalField_null : take (optionalField read) nullBytes = some none := rfl

theorem take_optionalField {v : Bytes} (hv : IsValue v) (hnull : v ≠ nullBytes)
    (h : Settled read v) : take (optionalField read) v = (take read v).map some :=
  (fixed_optionalField hv hnull h).take_eq

theorem skips_optionalField : Skips (optionalField read) := by
  intro bs
  rw [optionalField, optionalField, skipBlanks_skipBlanks]

theorem Local.optionalField (h : Local read) : Local (optionalField read) := by
  refine skips_optionalField.local fun v hv => ?_
  by_cases hnull : v = nullBytes
  · subst hnull
    exact ⟨some none, fun _ _ => rfl⟩
  · exact ⟨_, fixed_optionalField hv hnull (h v hv)⟩

theorem Local.gather (h : Local read) (acc : List α) : Local (gather read acc) :=
  h.map (· :: acc)

theorem listField_openList (depth : Nat) (r : Bytes) :
    listField read (depth + 1) (openList :: r) =
      (items (Json.gather read) r true [] r).map fun (acc, r) => (acc.reverse, r) := rfl

theorem Local.listField (h : Local read) (depth : Nat) : Local (listField read depth) := by
  have hs : Skips (Json.listField read depth) := fun bs => by
    rw [Json.listField, Json.listField, skipBlanks_skipBlanks]
  refine hs.local fun v hv => ?_
  cases hv with
  | unsigned h =>
    obtain ⟨b, r, rfl, hb⟩ := h.cons
    refine ⟨none, fun rest _ => ?_⟩
    rw [Json.listField, List.cons_append, skipBlanks_cons (not_isBlank_of_isDigit hb)]
    dsimp only
    rw [if_neg (ne_of_isDigit hb rfl)]
    rfl
  | @noItems ws hws =>
    cases depth with
    | zero => exact ⟨none, fun _ _ => rfl⟩
    | succ depth =>
      refine ⟨some [], fun rest _ => ?_⟩
      rw [List.cons_append, List.append_assoc, listField_openList, List.singleton_append,
        items_close true hws (by simp)]
      rfl
  | @list ps hspaced hvalue =>
    cases depth with
    | zero => exact ⟨none, fun _ _ => rfl⟩
    | succ depth =>
      refine ⟨(ps.foldlM (fun acc p => take (Json.gather read acc) p.text) []).map List.reverse,
        fun rest _ => ?_⟩
      rw [listBytes_append, listField_openList, toOption_map,
        items_commas hspaced hvalue (fun p hp acc => h.gather acc _ (hvalue p hp))
          (length_lt_padded hvalue rest), Option.map_map, Option.map_map]
      rfl
  | _ => exact ⟨none, fun _ _ => rfl⟩

end Optional

/-! ## Records as objects and as lists -/

theorem take_map (read : Reader α) (v : Bytes) (f : α → β) :
    take (fun bs => (read bs).map fun (x, r) => (f x, r)) v = (take read v).map f := by
  rw [take, toOption_map, take]
  cases (read v).toOption <;> rfl

/-- A value that nobody wants is passed over, and the draft stays as it is. -/
theorem makes_unknown {v : Bytes} (hv : IsValue v) (d : δ) :
    Makes (fun bs => (skip bs bs).map fun (_, r) => (d, r)) v (some d) := by
  intro ws rest hws hr
  have hlevels : v.length ≤ (ws ++ (v ++ rest)).length := by simp; omega
  have hskip := makes_skip hv hlevels ws rest hws hr
  show ((skip (ws ++ (v ++ rest)) (ws ++ (v ++ rest))).map _).toOption = _
  rw [ok_of_toOption hskip]
  rfl

namespace Shape

variable {s : Shape δ α} {depth : Nat}

/-- The members of `s` make the same of a value wherever it stands. -/
def Local (s : Shape δ α) : Prop := ∀ m ∈ s.members, ∀ depth d, Json.Local (m.read depth d)

theorem Local.settled (h : s.Local) {d : δ} {name : String} {read : Reader δ}
    (hentry : s.entry depth d name = .ok read) {v : Bytes} (hv : IsValue v) : Settled read v := by
  unfold entry at hentry
  split at hentry
  · rename_i m hfind
    split at hentry
    · cases hentry
    · cases hentry
      exact h m (List.mem_of_find?_eq_some hfind) depth d v hv
  · split at hentry
    · cases hentry
    · cases hentry
      exact (makes_unknown hv d).settled

theorem skips_read (s : Shape δ α) (depth : Nat) : Skips (s.read depth) := by
  intro bs
  rw [read, read, skipBlanks_skipBlanks]

/-- What a record comes to that is written as an object. -/
def ofFields (s : Shape δ α) (depth : Nat) (fs : List Field) : Option α :=
  (fs.foldlM (fill (s.entry depth)) s.blank).bind fun d => (s.finish d).toOption

theorem fixed_object (h : s.Local) {fs : List Field} (hspaced : ∀ f ∈ fs, f.Spaced)
    (hvalue : ∀ f ∈ fs, IsValue f.value.text) :
    Fixed (s.read (depth + 1)) (objectBytes fs) (s.ofFields depth fs) := by
  intro rest _
  have hread : ∀ f ∈ fs, ∀ d name read, s.entry depth d name = .ok read →
      Settled read f.value.text := fun f hf _ _ _ hentry => h.settled hentry (hvalue f hf)
  have hrun := entries_commas hspaced hread (length_lt_fields fs rest) s.blank rest
  rw [objectBytes_append, read_openObject, ofFields]
  obtain ⟨hfold, why, hrun⟩ | ⟨d, hfold, hrun⟩ := read_cases hrun
  · rw [hfold, hrun]
    rfl
  · rw [hfold, hrun]
    show ((s.finish d).map (·, rest)).toOption = _
    rw [toOption_map]
    rfl

/-- What a record comes to that is written as a list: the members take the items in their order,
and only members that need not be there may be left. -/
def inTurn (depth : Nat) : List (Member δ) → List Padded → δ → Option δ
  | [], [], d => some d
  | [], _ :: _, _ => none
  | m :: ms, [], d => if m.required then none else inTurn depth ms [] d
  | m :: ms, p :: ps, d => (take (m.read depth d) p.text).bind (inTurn depth ms ps)

/-- The draft of a list that ends where it has to. -/
def closing (x : Except Fault (δ × Bytes)) : Option (δ × Bytes) :=
  x.toOption.bind fun (d, r) => (endList r).toOption.map (d, ·)

theorem closing_ok (d : δ) (r : Bytes) :
    closing (.ok (d, r)) = (endList r).toOption.map (d, ·) := rfl

theorem endList_comma {ws : Bytes} (hws : Blank ws) (rest : Bytes) :
    endList (ws ++ comma :: rest) = .error .malformed := by
  rw [endList, skipBlanks_append hws, skipBlanks_cons rfl]
  exact if_neg (by decide)

theorem closing_inOrder_nil (ms : List (Member δ)) (first : Bool) {ws : Bytes} (hws : Blank ws)
    (d : δ) (rest : Bytes) :
    closing (inOrder depth ms first d (ws ++ closeList :: rest)) =
      (inTurn depth ms [] d).map (·, rest) := by
  induction ms generalizing ws with
  | nil =>
    rw [inOrder, closing_ok, endList_close hws]
    rfl
  | cons m ms ih =>
    rw [inOrder, nextItem_close first hws, inTurn]
    dsimp only
    split_ifs
    · rfl
    · exact ih blank_nil

theorem closing_inOrder_cons {m : Member δ} {ms : List (Member δ)} {first : Bool}
    {bs v after : Bytes} (hnext : nextItem first bs = .ok (some (v ++ after), v ++ after)) {d : δ}
    (hread : Settled (m.read depth d) v) (hafter : Ends after) :
    closing (inOrder depth (m :: ms) first d bs) =
      (take (m.read depth d) v).bind fun d => closing (inOrder depth ms false d after) := by
  have hv := hread.fixed after hafter
  rw [inOrder, hnext]
  dsimp only
  obtain ⟨htake, why, hv⟩ | ⟨e, htake, hv⟩ := read_cases hv
  · rw [htake, hv]
    rfl
  · rw [htake, hv]
    rfl

theorem closing_inOrder_onwards {ms : List (Member δ)} {ps : List Padded}
    (hread : ∀ m ∈ ms, ∀ depth d, Json.Local (m.read depth d)) (hspaced : ∀ p ∈ ps, p.Spaced)
    (hvalue : ∀ p ∈ ps, IsValue p.text) {ws : Bytes} (hws : Blank ws) (d : δ) (rest : Bytes) :
    closing (inOrder depth ms false d (ws ++ onwards closeList (ps.map Padded.bytes) rest)) =
      (inTurn depth ms ps d).map (·, rest) := by
  induction ms generalizing ps ws d with
  | nil =>
    cases ps with
    | nil => exact closing_inOrder_nil [] false hws d rest
    | cons p ps =>
      rw [List.map_cons, onwards_cons, inOrder, closing_ok, endList_comma hws]
      rfl
  | cons m ms ih =>
    cases ps with
    | nil => exact closing_inOrder_nil (m :: ms) false hws d rest
    | cons p ps =>
      obtain ⟨hm, hms⟩ := List.forall_mem_cons.mp hread
      obtain ⟨hp, hps⟩ := List.forall_mem_cons.mp hspaced
      obtain ⟨hpv, hpsv⟩ := List.forall_mem_cons.mp hvalue
      rw [List.map_cons, onwards_cons, closing_inOrder_cons (nextItem_comma_padded hp hpv hws _)
        (hm depth d _ hpv) ((ends_onwards ends_closeList _ rest).blanks hp.after), inTurn]
      cases take (m.read depth d) p.text with
      | none => rfl
      | some e => exact ih hms hps hpsv hp.after e

theorem closing_inOrder_commas {ms : List (Member δ)} {ps : List Padded}
    (hread : ∀ m ∈ ms, ∀ depth d, Json.Local (m.read depth d)) (hspaced : ∀ p ∈ ps, p.Spaced)
    (hvalue : ∀ p ∈ ps, IsValue p.text) (d : δ) (rest : Bytes) :
    closing (inOrder depth ms true d (commas (ps.map Padded.bytes) ++ closeList :: rest)) =
      (inTurn depth ms ps d).map (·, rest) := by
  cases ps with
  | nil => exact closing_inOrder_nil ms true blank_nil d rest
  | cons p ps =>
    obtain ⟨hp, hps⟩ := List.forall_mem_cons.mp hspaced
    obtain ⟨hpv, hpsv⟩ := List.forall_mem_cons.mp hvalue
    rw [List.map_cons, commas_cons_append]
    cases ms with
    | nil =>
      obtain ⟨b, r, hb, hblank, hclose⟩ := hpv.cons
      rw [inOrder, closing_ok, p.bytes_append, hb, endList, skipBlanks_append hp.before,
        List.cons_append, skipBlanks_cons hblank]
      dsimp only
      rw [if_neg hclose]
      rfl
    | cons m ms =>
      obtain ⟨hm, hms⟩ := List.forall_mem_cons.mp hread
      rw [closing_inOrder_cons (nextItem_first_padded hp hpv _) (hm depth d _ hpv)
        ((ends_onwards ends_closeList _ rest).blanks hp.after), inTurn]
      cases take (m.read depth d) p.text with
      | none => rfl
      | some e => exact closing_inOrder_onwards hms hps hpsv hp.after e rest

def ofItems (s : Shape δ α) (depth : Nat) (ps : List Padded) : Option α :=
  (inTurn depth s.members ps s.blank).bind fun d => (s.finish d).toOption

theorem read_openList (s : Shape δ α) (depth : Nat) (r : Bytes) :
    (s.read (depth + 1) (openList :: r)).toOption =
      (closing (inOrder depth s.members true s.blank r)).bind fun (d, r) =>
        (s.finish d).toOption.map (·, r) := by
  rw [read, skipBlanks_cons rfl]
  dsimp only
  rw [if_pos rfl]
  cases inOrder depth s.members true s.blank r with
  | error why => rfl
  | ok p =>
    obtain ⟨d, r⟩ := p
    rw [closing_ok]
    dsimp only
    cases endList r with
    | error why => cases s.finish d <;> rfl
    | ok rest =>
      show _ = (s.finish d).toOption.map (·, rest)
      cases s.finish d <;> rfl

theorem fixed_list (h : s.Local) {ps : List Padded} (hspaced : ∀ p ∈ ps, p.Spaced)
    (hvalue : ∀ p ∈ ps, IsValue p.text) :
    Fixed (s.read (depth + 1)) (listBytes ps) (s.ofItems depth ps) := by
  intro rest _
  rw [listBytes_append, read_openList, closing_inOrder_commas h hspaced hvalue, ofItems]
  cases inTurn depth s.members ps s.blank <;> rfl

theorem fixed_noItems {ws : Bytes} (hws : Blank ws) :
    Fixed (s.read (depth + 1)) (openList :: (ws ++ [closeList])) (s.ofItems depth []) := by
  intro rest _
  rw [List.cons_append, List.append_assoc, read_openList, List.singleton_append,
    closing_inOrder_nil _ _ hws, ofItems]
  cases inTurn depth s.members [] s.blank <;> rfl

theorem fixed_noFields {ws : Bytes} (hws : Blank ws) :
    Fixed (s.read (depth + 1)) (openObject :: (ws ++ [closeObject])) (s.ofFields depth []) := by
  intro rest _
  rw [List.cons_append, List.append_assoc, read_openObject, List.singleton_append,
    entries_close true hws (by simp)]
  show ((s.finish s.blank).map (·, rest)).toOption = _
  rw [toOption_map]
  rfl

theorem fixed_unsigned {u : Bytes} (hu : Unsigned u) : Fixed (s.read depth) u none := by
  obtain ⟨b, r, rfl, hb⟩ := hu.cons
  intro rest _
  rw [Shape.read, List.cons_append, skipBlanks_cons (not_isBlank_of_isDigit hb)]
  dsimp only
  rw [if_neg (ne_of_isDigit hb rfl), if_neg (ne_of_isDigit hb rfl)]
  rfl

theorem Local.read (h : s.Local) (depth : Nat) : Json.Local (s.read depth) := by
  refine (s.skips_read depth).local fun v hv => ?_
  cases hv with
  | unsigned h => exact ⟨none, fixed_unsigned h⟩
  | noItems hws =>
    cases depth with
    | zero => exact ⟨none, fun _ _ => rfl⟩
    | succ depth => exact ⟨_, fixed_noItems hws⟩
  | list hspaced hvalue =>
    cases depth with
    | zero => exact ⟨none, fun _ _ => rfl⟩
    | succ depth => exact ⟨_, fixed_list h hspaced hvalue⟩
  | noFields hws =>
    cases depth with
    | zero => exact ⟨none, fun _ _ => rfl⟩
    | succ depth => exact ⟨_, fixed_noFields hws⟩
  | object hspaced hvalue =>
    cases depth with
    | zero => exact ⟨none, fun _ _ => rfl⟩
    | succ depth => exact ⟨_, fixed_object h hspaced hvalue⟩
  | _ => exact ⟨none, fun _ _ => rfl⟩

/-- Where something is needed, a record is made from a list of items or an object of fields. -/
theorem composite_of_take (hitems : s.ofItems depth [] = none)
    (hfields : s.ofFields depth [] = none) {v : Bytes} (hv : IsValue v) {x : α}
    (hx : take (s.read (depth + 1)) v = some x) : Composite v := by
  cases hv with
  | list hspaced hvalue => exact .list fun p hp => ⟨hspaced p hp, hvalue p hp⟩
  | object hspaced hvalue => exact .object fun f hf => ⟨hspaced f hf, hvalue f hf⟩
  | unsigned h =>
    rw [(fixed_unsigned h).take_eq] at hx
    cases hx
  | noItems hws =>
    rw [(fixed_noItems hws).take_eq, hitems] at hx
    cases hx
  | noFields hws =>
    rw [(fixed_noFields hws).take_eq, hfields] at hx
    cases hx
  | _ => cases hx

end Shape

end Json
end Colloquy
