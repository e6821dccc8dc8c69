/-
Reading back records and the values of their fields.

A record is read back when its fields fill its draft one after the other and the draft is
complete.  A field that is left out when it is absent leaves its place in the draft empty.
-/
import Colloquy.Message.Wire
import Colloquy.Proofs.Rendering

namespace Colloquy
namespace Json

variable {α β γ δ : Type}

/-! ## Field values -/

theorem reads_textField (s : String) : Reads textField (Value.text s).render s := by
  intro rest _
  rw [render_text, textField, skipBlanks_cons rfl]
  dsimp only
  rw [if_pos rfl, text_quoted]

theorem reads_intField {lo hi i : Int} (hlo : lo ≤ i) (hhi : i ≤ hi)
    (hmin : Word.intMin 64 ≤ i) (hmax : i ≤ Word.natMax 64) :
    Reads (intField lo hi) (Value.integer i).render i := by
  intro rest hr
  by_cases h : i < 0
  · rw [render_neg h, List.cons_append, intField, skipBlanks_cons rfl]
    dsimp only
    rw [if_pos rfl, number_neg h hmin hr]
    exact if_pos ⟨hlo, hhi⟩
  · obtain ⟨b, r, hb, hdigit⟩ := digitBytes_digitsOf_eq_cons i.natAbs
    have hread := number_nonneg (by omega) hmax hr
    rw [render_nonneg h]
    rw [hb, List.cons_append] at hread ⊢
    rw [intField, skipBlanks_cons (not_isBlank_of_isDigit hdigit)]
    dsimp only
    rw [if_neg (ne_of_isDigit hdigit rfl), if_pos hdigit, hread]
    exact if_pos ⟨hlo, hhi⟩

theorem reads_natField {bits n : Nat} (hn : n ≤ Word.natMax bits)
    (hbits : Word.natMax bits ≤ Word.natMax 64) :
    Reads (natField bits) (Value.integer n).render n := by
  have hmin : Word.intMin 64 ≤ 0 := by decide
  have h : Reads (intField 0 (Word.natMax bits)) (Value.integer n).render n :=
    reads_intField (by omega) (by omega) (by omega) (by omega)
  exact h.map Int.toNat

theorem reads_optionalField {read : Reader α} {v : Value} {x : α} (hd : ∀ bits, v ≠ .double bits)
    (hn : v ≠ .null) (h : Reads read v.render x) :
    Reads (optionalField read) v.render (some x) := by
  intro rest hr
  have hx := h rest hr
  obtain ⟨b, r, hb, hblank, -, hnull⟩ := render_eq_cons v hd
  rw [hb, List.cons_append] at hx ⊢
  rw [optionalField, skipBlanks_cons hblank]
  dsimp only
  rw [if_neg fun h => hn (hnull h), hx]
  rfl

theorem reads_optionalField_null (read : Reader α) :
    Reads (optionalField read) Value.null.render none := fun _ _ => rfl

theorem reads_listField {read : Reader α} {f : α → Value} {xs : List α}
    (hf : ∀ x ∈ xs, ∀ bits, f x ≠ .double bits) (h : ∀ x ∈ xs, Reads read (f x).render x)
    (depth : Nat) : Reads (listField read (depth + 1)) (Value.array (xs.map f)).render xs := by
  intro rest _
  obtain ⟨r, hr, hitems⟩ := items_render hf h rest
  rw [hr, listField, skipBlanks_cons rfl]
  dsimp only
  rw [if_pos rfl]
  show (items (gather read) r true [] r).map _ = _
  rw [hitems]
  simp [Except.map]

/-! ## Members -/

namespace Shape

variable {s : Shape δ α} {name : String} {required : Bool} {read : Nat → Reader β}
  {get : δ → Option β} {set : β → δ → δ} {depth : Nat}

theorem fills_member {d e : δ} {v : Value} {x : β} {fields : List (String × Value)}
    (hfind : s.members.find? (fun m => m.name == name) =
      some (member name required read get set))
    (hget : get d = none) (hread : Reads (read depth) v.render x)
    (hfields : Fills (s.entry depth) (set x d) fields e) :
    Fills (s.entry depth) d ((name, v) :: fields) e := by
  have hentry : s.entry depth d name =
      .ok ((member name required read get set).read depth d) := by
    rw [entry, hfind]
    simp [member, hget]
  exact .cons hentry (hread.map (set · d)) hfields

/-- `put` sets the place of the member in the draft, and `none` leaves it as it is. -/
theorem fills_optional (put : Option β → δ → δ) {d e : δ} {f : γ → Value} {g : γ → β}
    {o : Option γ} {fields : List (String × Value)}
    (hfind : s.members.find? (fun m => m.name == name) =
      some (member name required read get set))
    (hget : get d = none) (hnone : put none d = d) (hsome : ∀ x, set x d = put (some x) d)
    (hread : ∀ x ∈ o, Reads (read depth) (f x).render (g x))
    (hfields : Fills (s.entry depth) (put (o.map g) d) fields e) :
    Fills (s.entry depth) d (optionalEntry name (o.map f) ++ fields) e := by
  cases o with
  | none =>
    rw [Option.map_none, hnone] at hfields
    exact hfields
  | some x =>
    rw [Option.map_some, ← hsome] at hfields
    exact fills_member hfind hget (hread x rfl) hfields

/-- A record that is written as an object, from its opening bracket on. -/
theorem read_openObject (s : Shape δ α) (depth : Nat) (r : Bytes) :
    s.read (depth + 1) (openObject :: r) =
      match entries (s.entry depth) r true s.blank r with
      | .error f => .error f
      | .ok (draft, r) => (s.finish draft).map (·, r) := by
  rw [Shape.read, skipBlanks_cons rfl]
  dsimp only
  rw [if_neg (by decide)]
  exact if_pos rfl

theorem reads_object {fields : List (String × Value)} {d : δ} {v : α}
    (h : Fills (s.entry depth) s.blank fields d) (hfinish : s.finish d = .ok v) :
    Reads (s.read (depth + 1)) (Value.object fields).render v := by
  intro rest _
  obtain ⟨r, hr, hentries⟩ := entries_render h rest
  rw [hr, read_openObject, hentries]
  simp [hfinish, Except.map]

end Shape

/-- A document that holds nothing but the text of a value. -/
theorem document_of_reads {read : Reader α} {bs : Bytes} {v : α} (h : Reads read bs v) :
    document read bs = .ok v := by
  have hread := h [] trivial
  rw [List.append_nil] at hread
  rw [document, hread]
  rfl

end Json
end Colloquy
