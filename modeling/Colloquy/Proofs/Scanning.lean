/-
Where strings and numbers end.

`Fixed read v o` says that `read` stops behind `v` with the result `o`, whatever stands there that
no number goes on into.  A string and a number are either read to their end or refused, and which
of the two it is does not depend on what stands behind them.  The other way round, what is read or
passed over has a spelling.
-/
import Colloquy.Proofs.Wording

namespace Colloquy
namespace Json

variable {α β σ δ : Type}

theorem toOption_map (f : α → β) (x : Except Fault α) : (x.map f).toOption = x.toOption.map f := by
  cases x <;> rfl

theorem error_of_toOption {x : Except Fault α} (h : x.toOption = none) : ∃ why, x = .error why := by
  cases x with
  | error why => exact ⟨why, rfl⟩
  | ok v => cases h

theorem ok_of_toOption {x : Except Fault α} {v : α} (h : x.toOption = some v) : x = .ok v := by
  cases x with
  | error why => cases h
  | ok w =>
    cases h
    rfl

/-- What has been read is known, up to the reason for which it is refused. -/
theorem read_cases {x : Except Fault (α × Bytes)} {o : Option α} {rest : Bytes}
    (h : x.toOption = o.map (·, rest)) :
    (o = none ∧ ∃ why, x = .error why) ∨ ∃ v, o = some v ∧ x = .ok (v, rest) := by
  cases o with
  | none => exact Or.inl ⟨rfl, error_of_toOption h⟩
  | some v => exact Or.inr ⟨v, rfl, ok_of_toOption h⟩

/-- What `read` comes to on `v`; `none` if it is refused. -/
def Fixed (read : Reader α) (v : Bytes) (o : Option α) : Prop :=
  ∀ rest, Ends rest → (read (v ++ rest)).toOption = o.map (·, rest)

theorem Fixed.map {read : Reader α} {v : Bytes} {o : Option α} (h : Fixed read v o) (f : α → β) :
    Fixed (fun bs => (read bs).map fun (x, r) => (f x, r)) v (o.map f) := by
  intro rest hr
  show ((read (v ++ rest)).map fun (x, r) => (f x, r)).toOption = _
  rw [toOption_map, h rest hr]
  cases o <;> rfl

/-! ## Strings -/

theorem textBytes_quote (acc rest : Bytes) :
    textBytes acc (quoteByte :: rest) = .ok (acc.reverse, rest) := by
  rw [textBytes.eq_def]
  exact if_pos rfl

theorem textBytes_unescaped {b : UInt8} (hb : Unescaped b) (acc bs : Bytes) :
    textBytes acc (b :: bs) = textBytes (b :: acc) bs := by
  obtain ⟨hquote, hslash, hcontrol⟩ := hb
  rw [textBytes.eq_def]
  dsimp only
  rw [if_neg hquote, if_neg hslash, if_neg hcontrol]

theorem textBytes_short {e x : UInt8} (he : shortEscape e = some x) (acc bs : Bytes) :
    textBytes acc (backslash :: e :: bs) = textBytes (x :: acc) bs := by
  rw [textBytes.eq_def]
  dsimp only
  rw [if_neg (by decide), if_pos rfl, he]

/-- The bytes of a string from behind the number of a high surrogate. -/
def paired (high : Nat) (acc : Bytes) : Reader Bytes
  | [] => .error .truncated
  | b :: r =>
    if b = backslash then
      match r with
      | [] => .error .truncated
      | e :: r =>
        if e = 0x75 then
          match r with
          | a :: b :: c :: d :: r =>
            match hexFour a b c d with
            | none => .error .malformed
            | some low =>
              if 0xdc00 ≤ low && low ≤ 0xdfff then
                textBytes ((Utf8.encodeChar (Char.ofNat
                  ((high - 0xd800) * 1024 + (low - 0xdc00) + 0x10000))).reverse ++ acc) r
              else .error .malformed
          | _ => .error .truncated
        else .error .malformed
    else .error .malformed

theorem textBytes_hex {a b c d : UInt8} {n : Nat} (hn : hexFour a b c d = some n)
    (acc bs : Bytes) :
    textBytes acc (backslash :: 0x75 :: a :: b :: c :: d :: bs) =
      if 0xdc00 ≤ n && n ≤ 0xdfff then .error .malformed
      else if n < 0xd800 || 0xdbff < n then
        textBytes ((Utf8.encodeChar (Char.ofNat n)).reverse ++ acc) bs
      else paired n acc bs := by
  have hu : shortEscape 0x75 = none := by decide
  rw [textBytes.eq_def]
  dsimp only
  rw [if_neg (by decide), if_pos rfl, hu]
  dsimp only
  rw [if_pos rfl, hn]
  rfl

theorem paired_hex {a b c d : UInt8} {low : Nat} (hlow : hexFour a b c d = some low) (high : Nat)
    (acc bs : Bytes) :
    paired high acc (backslash :: 0x75 :: a :: b :: c :: d :: bs) =
      if 0xdc00 ≤ low && low ≤ 0xdfff then
        textBytes ((Utf8.encodeChar (Char.ofNat
          ((high - 0xd800) * 1024 + (low - 0xdc00) + 0x10000))).reverse ++ acc) bs
      else .error .malformed := by
  rw [paired.eq_def]
  dsimp only
  rw [if_pos rfl, if_pos rfl, hlow]

theorem paired_of_ne {b : UInt8} (hb : b ≠ backslash) (high : Nat) (acc bs : Bytes) :
    paired high acc (b :: bs) = .error .malformed := if_neg hb

theorem paired_short {e x : UInt8} (he : shortEscape e = some x) (high : Nat) (acc bs : Bytes) :
    paired high acc (backslash :: e :: bs) = .error .malformed := by
  have hne : e ≠ 0x75 := by
    rintro rfl
    cases he
  rw [paired.eq_def]
  dsimp only
  rw [if_pos rfl, if_neg hne]

/-- A string is read to its closing quote or refused, whatever stands behind it. -/
theorem textBytes_spelling {s : Bytes} (hs : Spelling s) (acc : Bytes) :
    ∃ o : Option Bytes, ∀ rest,
      (textBytes acc (s ++ quoteByte :: rest)).toOption = o.map (·, rest) := by
  -- Two escapes may make one character, so the induction is on the length.
  induction hn : s.length using Nat.strongRecOn generalizing s acc with
  | ind n ih =>
    subst hn
    cases hs with
    | nil =>
      refine ⟨some acc.reverse, fun rest => ?_⟩
      rw [List.nil_append, textBytes_quote]
      rfl
    | @unescaped b ps hb hps =>
      obtain ⟨o, ho⟩ := ih _ (Nat.lt_succ_self _) hps (b :: acc) rfl
      refine ⟨o, fun rest => ?_⟩
      rw [List.cons_append, textBytes_unescaped hb, ho]
    | @short e x ps he hps =>
      obtain ⟨o, ho⟩ := ih _ (by simp only [List.length_cons]; omega) hps (x :: acc) rfl
      refine ⟨o, fun rest => ?_⟩
      rw [List.cons_append, List.cons_append, textBytes_short he, ho]
    | @hex a b c d m ps hm hps =>
      simp only [List.cons_append, textBytes_hex hm]
      split_ifs with hlow hplain
      · exact ⟨none, fun _ => rfl⟩
      · exact ih _ (by simp only [List.length_cons]; omega) hps _ rfl
      · -- only another escape with a number can follow a high surrogate
        cases hps with
        | nil => exact ⟨none, fun rest => rfl⟩
        | unescaped hb _ =>
          exact ⟨none, fun rest => by rw [List.cons_append, paired_of_ne hb.2.1]; rfl⟩
        | short he _ =>
          exact ⟨none, fun rest => by rw [List.cons_append, List.cons_append, paired_short he]; rfl⟩
        | hex hm' hps =>
          simp only [List.cons_append, paired_hex hm']
          split_ifs
          · exact ih _ (by simp only [List.length_cons]; omega) hps _ rfl
          · exact ⟨none, fun _ => rfl⟩

theorem text_spelling {s : Bytes} (hs : Spelling s) :
    ∃ o : Option String, ∀ rest, (text (s ++ quoteByte :: rest)).toOption = o.map (·, rest) := by
  obtain ⟨o, ho⟩ := textBytes_spelling hs []
  refine ⟨o.bind Utf8.decode?, fun rest => ?_⟩
  rw [text]
  obtain ⟨rfl, why, hread⟩ | ⟨bytes, rfl, hread⟩ := read_cases (ho rest)
  · rw [hread]
    rfl
  · rw [hread]
    dsimp only [Option.bind_some]
    cases Utf8.decode? bytes <;> rfl

theorem skipText_spelling {s : Bytes} (hs : Spelling s) (rest : Bytes) :
    skipText (s ++ quoteByte :: rest) = .ok rest := by
  induction hs with
  | nil =>
    rw [List.nil_append, skipText.eq_def]
    exact if_pos rfl
  | @unescaped b ps hb _ ih =>
    obtain ⟨hquote, hslash, hcontrol⟩ := hb
    rw [List.cons_append, skipText.eq_def]
    dsimp only
    rw [if_neg hquote, if_neg hslash, if_neg hcontrol, ih]
  | @short e x ps he _ ih =>
    rw [List.cons_append, List.cons_append, skipText.eq_def]
    dsimp only
    rw [if_neg (by decide), if_pos rfl, he]
    exact ih
  | @hex a b c d n ps hn _ ih =>
    have hu : shortEscape 0x75 = none := by decide
    simp only [List.cons_append]
    rw [skipText.eq_def]
    dsimp only
    rw [if_neg (by decide), if_pos rfl, hu]
    dsimp only
    rw [if_pos rfl, hn]
    exact ih

/-! ## Numbers -/

/-- No row of digits goes on into these bytes. -/
def Halts (bs : Bytes) : Prop := ∀ b ∈ bs.head?, isDigit b = false

theorem Ends.halts {bs : Bytes} (h : Ends bs) : Halts bs := by
  cases bs with
  | nil => exact nofun
  | cons b bs =>
    rintro _ ⟨⟩
    exact h.1

theorem Scale.halts {e rest : Bytes} (he : Scale e) (hr : Ends rest) : Halts (e ++ rest) := by
  cases he with
  | none => exact hr.halts
  | @exponent b e hb _ =>
    rintro _ ⟨⟩
    by_contra hdigit
    rw [Bool.not_eq_false] at hdigit
    have h₁ := ne_of_isDigit (c := 0x65) hdigit rfl
    have h₂ := ne_of_isDigit (c := 0x45) hdigit rfl
    simp [isExponentMark, h₁, h₂] at hb

theorem Trail.halts {t rest : Bytes} (ht : Trail t) (hr : Ends rest) : Halts (t ++ rest) := by
  cases ht with
  | scale h => exact h.halts hr
  | fraction => rintro _ ⟨⟩; rfl

def digitValues (ds : Bytes) : List Nat := ds.map fun b => b.toNat - 0x30

theorem spanDigits_append {ds rest : Bytes} (h : ∀ b ∈ ds, isDigit b = true) (hr : Halts rest) :
    spanDigits (ds ++ rest) = (digitValues ds, rest) := by
  induction ds with
  | nil =>
    cases rest with
    | nil => rfl
    | cons b rest =>
      have hb : ¬ isDigit b = true := by simp [hr b rfl]
      rw [List.nil_append, spanDigits, if_neg hb]
      rfl
  | cons b ds ih =>
    obtain ⟨hb, hds⟩ := List.forall_mem_cons.mp h
    rw [List.cons_append, spanDigits, if_pos hb, ih hds]
    rfl

theorem skipDigits_append {ds rest : Bytes} (h : ∀ b ∈ ds, isDigit b = true) (hr : Halts rest) :
    skipDigits (ds ++ rest) = rest := by
  induction ds with
  | nil =>
    cases rest with
    | nil => rfl
    | cons b rest =>
      have hb : ¬ isDigit b = true := by simp [hr b rfl]
      rw [List.nil_append, skipDigits, if_neg hb]
  | cons b ds ih =>
    obtain ⟨hb, hds⟩ := List.forall_mem_cons.mp h
    rw [List.cons_append, skipDigits, if_pos hb, ih hds]

theorem exponentSign_append {e : Bytes} (he : Exponent e) :
    ∃ down ds, Digits ds ∧ ∀ rest, exponentSign (e ++ rest) = (down, ds ++ rest) := by
  cases he with
  | unsigned h =>
    obtain ⟨b, r, rfl, hb⟩ := h.cons
    refine ⟨false, b :: r, h, fun rest => ?_⟩
    rw [List.cons_append, exponentSign, if_neg (ne_of_isDigit hb rfl),
      if_neg (ne_of_isDigit hb rfl)]
  | @signed b ds hb h =>
    rcases hb with rfl | rfl
    · exact ⟨false, ds, h, fun _ => rfl⟩
    · exact ⟨true, ds, h, fun _ => rfl⟩

theorem fixed_of_scaled {read : Reader Value} {v : Bytes} {s : Decimal.Scaled} {negative : Bool}
    (h : ∀ rest, Ends rest → read (v ++ rest) = scaled s negative rest) : ∃ o, Fixed read v o := by
  refine ⟨(s.bits? negative).map Value.double, fun rest hr => ?_⟩
  rw [h rest hr, scaled]
  cases s.bits? negative <;> rfl

theorem fixed_exponentPart (s : Decimal.Scaled) (negative : Bool) {e : Bytes} (he : Exponent e) :
    ∃ o, Fixed (exponentPart s negative) e o := by
  obtain ⟨down, ds, hds, hsign⟩ := exponentSign_append he
  obtain ⟨b, r, rfl, hb⟩ := hds.cons
  have hread : ∀ rest, Ends rest → exponentPart s negative (e ++ rest) =
      scaled { s with exponent := if down then s.exponent - ofDigits 0 (digitValues (b :: r))
        else s.exponent + ofDigits 0 (digitValues (b :: r)) } negative rest := by
    intro rest hr
    have hspan := spanDigits_append hds.all hr.halts
    rw [exponentPart, hsign]
    dsimp only [List.cons_append] at hspan ⊢
    rw [if_pos hb, hspan]
    rfl
  exact fixed_of_scaled hread

/-- What follows the digits behind the point. -/
theorem fixed_scale (s : Decimal.Scaled) (negative : Bool) {e : Bytes} (he : Scale e) :
    ∃ o, Fixed (fun bs =>
      match bs with
      | [] => scaled s negative []
      | c :: r => if isExponentMark c then exponentPart s negative r else scaled s negative bs)
      e o := by
  cases he with
  | none =>
    apply fixed_of_scaled
    intro rest hr
    cases rest with
    | nil => rfl
    | cons c rest => exact if_neg (by simp [hr.2.2])
  | exponent hc he =>
    obtain ⟨o, ho⟩ := fixed_exponentPart s negative he
    refine ⟨o, fun rest hr => ?_⟩
    dsimp only [List.cons_append]
    rw [if_pos hc, ho rest hr]

theorem fixed_fractionPart (s : Decimal.Scaled) (negative : Bool) {ds e : Bytes}
    (hds : Digits ds) (he : Scale e) : ∃ o, Fixed (fractionPart s negative) (ds ++ e) o := by
  obtain ⟨b, r, rfl, hb⟩ := hds.cons
  obtain ⟨o, ho⟩ := fixed_scale
    (Decimal.takeFraction s (digitValues (b :: r))) negative he
  refine ⟨o, fun rest hr => ?_⟩
  have hspan := spanDigits_append hds.all (he.halts hr)
  rw [List.append_assoc, fractionPart.eq_def]
  dsimp only [List.cons_append] at hspan ⊢
  rw [if_pos hb, hspan]
  exact ho rest hr

theorem fixed_numberTail (s : Decimal.Scaled) (negative : Bool) {t : Bytes} (ht : Trail t) :
    ∃ o, Fixed (numberTail s negative) t o := by
  cases ht with
  | fraction hds he =>
    obtain ⟨o, ho⟩ := fixed_fractionPart s negative hds he
    refine ⟨o, fun rest hr => ?_⟩
    rw [← ho rest hr]
    rfl
  | scale he =>
    cases he with
    | @exponent c e hc he =>
      obtain ⟨o, ho⟩ := fixed_exponentPart s negative he
      have hpoint : c ≠ 0x2e := by
        rintro rfl
        cases hc
      refine ⟨o, fun rest hr => ?_⟩
      rw [← ho rest hr, numberTail.eq_def]
      dsimp only [List.cons_append]
      rw [if_neg hpoint, if_pos hc]
    | none =>
      have hrest : ∀ rest, Ends rest → numberTail s negative rest =
          if s.exponent = 0 then .ok (whole s.significand negative, rest)
          else scaled s negative rest := by
        intro rest hr
        cases rest with
        | nil => rfl
        | cons c rest =>
          rw [numberTail.eq_def]
          dsimp only
          rw [if_neg hr.2.1, if_neg (by simp [hr.2.2])]
      by_cases hs : s.exponent = 0
      · refine ⟨some (whole s.significand negative), fun rest hr => ?_⟩
        rw [List.nil_append, hrest rest hr, if_pos hs]
        rfl
      · apply fixed_of_scaled
        intro rest hr
        rw [List.nil_append, hrest rest hr, if_neg hs]

theorem fixed_number (negative : Bool) {u : Bytes} (hu : Unsigned u) :
    ∃ o, Fixed (number negative) u o := by
  cases hu with
  | @mk ds t hds ht =>
    cases hds with
    | zero =>
      obtain ⟨o, ho⟩ := fixed_numberTail { significand := 0, exponent := 0 } negative ht
      refine ⟨o, fun rest hr => ?_⟩
      have hhalt := ht.halts hr
      rw [← ho rest hr, List.append_assoc, number.eq_def]
      dsimp only [List.cons_append, List.nil_append]
      rw [if_pos rfl]
      cases h : t ++ rest with
      | nil => rfl
      | cons c r =>
        rw [h] at hhalt
        dsimp only
        rw [if_neg (by simp [hhalt c rfl])]
    | @digits b ds hb hds =>
      obtain ⟨o, ho⟩ := fixed_numberTail
        (Decimal.takeWhole 0 (digitValues (b :: ds))) negative ht
      refine ⟨o, fun rest hr => ?_⟩
      have hspan := spanDigits_append hds.all (ht.halts hr)
      rw [← ho rest hr, List.append_assoc, number.eq_def]
      dsimp only [List.cons_append] at hspan ⊢
      rw [if_neg hb, if_pos (hds.all b List.mem_cons_self), hspan]

theorem skipExponent_append {e rest : Bytes} (he : Exponent e) (hr : Ends rest) :
    skipExponent (e ++ rest) = .ok rest := by
  obtain ⟨down, ds, hds, hsign⟩ := exponentSign_append he
  obtain ⟨b, r, rfl, hb⟩ := hds.cons
  have hskip := skipDigits_append (fun c hc => hds.all c (List.mem_cons_of_mem b hc)) hr.halts
  rw [skipExponent, hsign]
  dsimp only [List.cons_append]
  rw [if_pos hb, hskip]

theorem skipFraction_append {ds e rest : Bytes} (hds : Digits ds) (he : Scale e)
    (hr : Ends rest) : skipFraction (ds ++ e ++ rest) = .ok rest := by
  obtain ⟨b, r, rfl, hb⟩ := hds.cons
  have hskip := skipDigits_append (fun c hc => hds.all c (List.mem_cons_of_mem b hc))
    (he.halts hr)
  rw [List.append_assoc, skipFraction.eq_def]
  dsimp only [List.cons_append]
  rw [if_pos hb, hskip]
  cases he with
  | none =>
    cases rest with
    | nil => rfl
    | cons c rest => exact if_neg (by simp [hr.2.2])
  | exponent hc he =>
    dsimp only [List.cons_append]
    rw [if_pos hc, skipExponent_append he hr]

theorem skipNumber_append {u rest : Bytes} (hu : Unsigned u) (hr : Ends rest) :
    skipNumber (u ++ rest) = .ok rest := by
  cases hu with
  | @mk ds t hds ht =>
    have hhalt := ht.halts hr
    have htail : (match t ++ rest with
        | [] => .ok []
        | b :: r =>
          if b = 0x2e then skipFraction r
          else if isExponentMark b then skipExponent r
          else .ok (b :: r) : Except Fault Bytes) = .ok rest := by
      cases ht with
      | fraction hds he => exact skipFraction_append hds he hr
      | scale he =>
        cases he with
        | @exponent c e hc he =>
          have hpoint : c ≠ 0x2e := by
            rintro rfl
            cases hc
          dsimp only [List.cons_append]
          rw [if_neg hpoint, if_pos hc, skipExponent_append he hr]
        | none =>
          cases rest with
          | nil => rfl
          | cons c rest =>
            dsimp only [List.nil_append]
            rw [if_neg hr.2.1, if_neg (by simp [hr.2.2])]
    rw [List.append_assoc, skipNumber.eq_def]
    cases hds with
    | zero =>
      dsimp only [List.cons_append, List.nil_append]
      rw [if_pos rfl]
      cases h : t ++ rest with
      | nil =>
        rw [h] at htail
        exact htail
      | cons c r =>
        rw [h] at htail hhalt
        dsimp only at htail ⊢
        rw [if_neg (by simp [hhalt c rfl])]
        exact htail
    | @digits b ds hb hds =>
      have hskip := skipDigits_append
        (fun c hc => hds.all c (List.mem_cons_of_mem b hc)) hhalt
      dsimp only [List.cons_append]
      rw [if_neg hb, if_pos (hds.all b List.mem_cons_self), hskip]
      exact htail

/-! ## Strings that are accepted -/

theorem exists_spelling_of_skipText {bs r : Bytes} (h : skipText bs = .ok r) :
    ∃ s, Spelling s ∧ bs = s ++ quoteByte :: r := by
  fun_induction skipText bs with
  | case2 =>
    cases h
    exact ⟨[], .nil, rfl⟩
  | case4 e _ x he _ ih =>
    obtain ⟨s, hs, rfl⟩ := ih h
    exact ⟨backslash :: e :: s, .short he hs, rfl⟩
  | case6 a b c d _ n hn _ _ ih =>
    obtain ⟨s, hs, rfl⟩ := ih h
    exact ⟨backslash :: 0x75 :: a :: b :: c :: d :: s, .hex hn hs, rfl⟩
  | case10 b _ hquote hslash hcontrol ih =>
    obtain ⟨s, hs, rfl⟩ := ih h
    exact ⟨b :: s, .unescaped ⟨hquote, hslash, hcontrol⟩ hs, rfl⟩
  | _ => cases h

theorem exists_spelling_of_textBytes {acc bs x r : Bytes} (h : textBytes acc bs = .ok (x, r)) :
    ∃ s, Spelling s ∧ bs = s ++ quoteByte :: r := by
  fun_induction textBytes acc bs with
  | case2 =>
    cases h
    exact ⟨[], .nil, rfl⟩
  | case4 _ e _ _ he _ ih =>
    obtain ⟨s, hs, rfl⟩ := ih h
    exact ⟨backslash :: e :: s, .short he hs, rfl⟩
  | case7 _ a b c d _ n hn _ _ _ _ ih =>
    obtain ⟨s, hs, rfl⟩ := ih h
    exact ⟨backslash :: 0x75 :: a :: b :: c :: d :: s, .hex hn hs, rfl⟩
  | case11 _ a b c d n hn _ _ a' b' c' d' _ n' hn' _ _ _ ih =>
    obtain ⟨s, hs, rfl⟩ := ih h
    exact ⟨backslash :: 0x75 :: a :: b :: c :: d :: backslash :: 0x75 :: a' :: b' :: c' :: d' :: s,
      .hex hn (.hex hn' hs), rfl⟩
  | case19 _ b _ hquote hslash hcontrol ih =>
    obtain ⟨s, hs, rfl⟩ := ih h
    exact ⟨b :: s, .unescaped ⟨hquote, hslash, hcontrol⟩ hs, rfl⟩
  | _ => cases h

theorem exists_spelling_of_text {bs r : Bytes} {x : String} (h : text bs = .ok (x, r)) :
    ∃ s, Spelling s ∧ bs = s ++ quoteByte :: r := by
  unfold text at h
  split at h
  · cases h
  · rename_i bytes r' hread
    split at h
    · cases h
      exact exists_spelling_of_textBytes hread
    · cases h

/-! ## Numbers that are accepted -/

theorem exists_digits (bs : Bytes) :
    ∃ ds, (∀ b ∈ ds, isDigit b = true) ∧ bs = ds ++ skipDigits bs := by
  induction bs with
  | nil => exact ⟨[], List.forall_mem_nil _, rfl⟩
  | cons b bs ih =>
    rw [skipDigits]
    split_ifs with hb
    · obtain ⟨ds, hds, hbs⟩ := ih
      exact ⟨b :: ds, List.forall_mem_cons.mpr ⟨hb, hds⟩, congrArg (b :: ·) hbs⟩
    · exact ⟨[], List.forall_mem_nil _, rfl⟩

/-- A digit and all digits behind it. -/
theorem exists_digits_cons {b : UInt8} (hb : isDigit b = true) (bs : Bytes) :
    ∃ ds, Digits (b :: ds) ∧ bs = ds ++ skipDigits bs := by
  obtain ⟨ds, hds, hbs⟩ := exists_digits bs
  exact ⟨ds, ⟨List.cons_ne_nil b ds, List.forall_mem_cons.mpr ⟨hb, hds⟩⟩, hbs⟩

theorem spanDigits_snd (bs : Bytes) : (spanDigits bs).2 = skipDigits bs := by
  induction bs with
  | nil => rfl
  | cons b bs ih =>
    rw [spanDigits, skipDigits]
    split_ifs
    · exact ih
    · rfl

theorem eq_of_scaled {s : Decimal.Scaled} {negative : Bool} {bs r : Bytes} {v : Value}
    (h : scaled s negative bs = .ok (v, r)) : bs = r := by
  unfold scaled at h
  split at h
  · cases h
    rfl
  · cases h

/-- The numbers that are read can also be passed over. -/
theorem skipExponent_of_exponentPart {s : Decimal.Scaled} {negative : Bool} {bs r : Bytes}
    {v : Value} (h : exponentPart s negative bs = .ok (v, r)) : skipExponent bs = .ok r := by
  unfold exponentPart at h
  dsimp only at h
  unfold skipExponent
  split at h
  · cases h
  · rename_i b bs' hsign
    split at h
    · rename_i hb
      have hr := eq_of_scaled h
      rw [hsign, spanDigits_snd, skipDigits, if_pos hb] at hr
      rw [← hr]
      exact if_pos hb
    · cases h

theorem skipFraction_of_fractionPart {s : Decimal.Scaled} {negative : Bool} {bs r : Bytes}
    {v : Value} (h : fractionPart s negative bs = .ok (v, r)) : skipFraction bs = .ok r := by
  unfold fractionPart at h
  dsimp only at h
  split at h
  · cases h
  · rename_i b bs
    split at h
    · rename_i hb
      rw [skipFraction.eq_def]
      dsimp only
      rw [if_pos hb]
      have hskip : (spanDigits (b :: bs)).2 = skipDigits bs := by
        rw [spanDigits_snd, skipDigits, if_pos hb]
      rw [hskip] at h
      split at h
      · rw [← eq_of_scaled h]
      · rename_i c r' hrest
        split at h
        · rename_i hc
          rw [if_pos hc, skipExponent_of_exponentPart h]
        · rename_i hc
          rw [if_neg hc, ← eq_of_scaled h, hrest]
    · cases h

/-- What may follow the digits before the point. -/
def skipTrail (bs : Bytes) : Except Fault Bytes :=
  match bs with
  | [] => .ok []
  | b :: r =>
    if b = 0x2e then skipFraction r
    else if isExponentMark b then skipExponent r
    else .ok (b :: r)

theorem skipTrail_of_numberTail {s : Decimal.Scaled} {negative : Bool} {bs r : Bytes} {v : Value}
    (h : numberTail s negative bs = .ok (v, r)) : skipTrail bs = .ok r := by
  have hplain : ∀ {bs r : Bytes} {v : Value},
      (if s.exponent = 0 then .ok (whole s.significand negative, bs) else scaled s negative bs :
        Except Fault (Value × Bytes)) = .ok (v, r) → bs = r := by
    intro bs r v h
    split at h
    · cases h
      rfl
    · exact eq_of_scaled h
  unfold numberTail at h
  dsimp only at h
  split at h
  · rw [← hplain h]
    rfl
  · rename_i b bs
    rw [skipTrail.eq_def]
    dsimp only
    split at h
    · rename_i hb
      rw [if_pos hb, skipFraction_of_fractionPart h]
    · rename_i hb
      rw [if_neg hb]
      split at h
      · rename_i hmark
        rw [if_pos hmark, skipExponent_of_exponentPart h]
      · rename_i hmark
        rw [if_neg hmark, hplain h]

theorem skipNumber_of_number {negative : Bool} {bs r : Bytes} {v : Value}
    (h : number negative bs = .ok (v, r)) : skipNumber bs = .ok r := by
  unfold number at h
  split at h
  · cases h
  · rename_i b bs
    split at h
    · rename_i hb
      split at h
      · have htail := skipTrail_of_numberTail h
        cases htail
        rw [hb]
        rfl
      · rename_i d bs
        split at h
        · cases h
        · rename_i hd
          rw [skipNumber.eq_def]
          dsimp only
          rw [if_pos hb, if_neg hd]
          exact skipTrail_of_numberTail h
    · rename_i hb
      split at h
      · rename_i hdigit
        rw [skipNumber.eq_def]
        dsimp only
        rw [if_neg hb, if_pos hdigit]
        have hskip : (spanDigits (b :: bs)).2 = skipDigits bs := by
          rw [spanDigits_snd, skipDigits, if_pos hdigit]
        rw [← hskip]
        exact skipTrail_of_numberTail h
      · cases h

theorem exists_exponent {bs r : Bytes} (h : skipExponent bs = .ok r) :
    ∃ e, Exponent e ∧ bs = e ++ r := by
  unfold skipExponent at h
  split at h
  · cases h
  · rename_i b bs' hsign
    split at h
    · rename_i hb
      cases h
      obtain ⟨ds, hds, hbs⟩ := exists_digits_cons hb bs'
      cases bs with
      | nil => cases hsign
      | cons c bs =>
        rw [exponentSign] at hsign
        split_ifs at hsign with hplus hminus
        · cases hsign
          exact ⟨c :: b :: ds, .signed (Or.inl hplus) hds, congrArg (c :: b :: ·) hbs⟩
        · cases hsign
          exact ⟨c :: b :: ds, .signed (Or.inr hminus) hds, congrArg (c :: b :: ·) hbs⟩
        · cases hsign
          exact ⟨b :: ds, .unsigned hds, congrArg (b :: ·) hbs⟩
    · cases h

theorem exists_fraction {bs r : Bytes} (h : skipFraction bs = .ok r) :
    ∃ ds e, Digits ds ∧ Scale e ∧ bs = ds ++ e ++ r := by
  unfold skipFraction at h
  split at h
  · cases h
  · rename_i b bs
    split at h
    · rename_i hb
      obtain ⟨ds, hds, hbs⟩ := exists_digits_cons hb bs
      have hnone : ∀ {r}, skipDigits bs = r → b :: bs = b :: ds ++ [] ++ r := by
        rintro _ rfl
        rw [List.append_nil]
        exact congrArg (b :: ·) hbs
      split at h
      · rename_i hrest
        cases h
        exact ⟨b :: ds, [], hds, .none, hnone hrest⟩
      · rename_i c r' hrest
        split at h
        · rename_i hc
          obtain ⟨e, he, rfl⟩ := exists_exponent h
          refine ⟨b :: ds, c :: e, hds, .exponent hc he, ?_⟩
          rw [hrest] at hbs
          rw [hbs]
          simp
        · cases h
          exact ⟨b :: ds, [], hds, .none, hnone hrest⟩
    · cases h

theorem exists_trail {bs r : Bytes} (h : skipTrail bs = .ok r) : ∃ t, Trail t ∧ bs = t ++ r := by
  unfold skipTrail at h
  split at h
  · cases h
    exact ⟨[], .scale .none, rfl⟩
  · rename_i b bs
    split_ifs at h with hpoint hmark
    · obtain ⟨ds, e, hds, he, rfl⟩ := exists_fraction h
      exact ⟨b :: (ds ++ e), hpoint ▸ .fraction hds he, rfl⟩
    · obtain ⟨e, he, rfl⟩ := exists_exponent h
      exact ⟨b :: e, .scale (.exponent hmark he), rfl⟩
    · cases h
      exact ⟨[], .scale .none, rfl⟩

theorem exists_unsigned {bs r : Bytes} (h : skipNumber bs = .ok r) :
    ∃ u, Unsigned u ∧ bs = u ++ r := by
  rw [skipNumber.eq_def] at h
  dsimp only at h
  split at h
  · cases h
  · rename_i b bs
    split at h
    · rename_i hb
      subst hb
      have htrail : skipTrail bs = .ok r := by
        split at h
        · exact h
        · split at h
          · cases h
          · exact h
      obtain ⟨t, ht, rfl⟩ := exists_trail htrail
      exact ⟨[0x30] ++ t, .mk .zero ht, rfl⟩
    · rename_i hb
      split at h
      · rename_i hdigit
        obtain ⟨ds, hds, hbs⟩ := exists_digits_cons hdigit bs
        have htrail : skipTrail (skipDigits bs) = .ok r := h
        obtain ⟨t, ht, hrest⟩ := exists_trail htrail
        refine ⟨b :: ds ++ t, .mk (.digits hb hds) ht, ?_⟩
        rw [hbs, hrest]
        simp
      · cases h

end Json
end Colloquy
