/-
Reading back the strings and the whole numbers that the printer writes.

A string ends at its quote, whatever follows.  A number ends only where what follows cannot
continue it, which `Ends` says.
-/
import Colloquy.Json.Printer
import Colloquy.Json.Reader
import Colloquy.Proofs.Encoding
import Mathlib.Tactic.IntervalCases

namespace Colloquy
namespace Json

open Utf8 (encodeChar encodeChars encodeChar_of_lt)

/-! ## Strings -/

/-- A byte that stands for itself inside quotes. -/
def Unescaped (b : UInt8) : Prop := b ≠ quoteByte ∧ b ≠ backslash ∧ ¬ b < 0x20

/-- Bytes inside quotes and the bytes they stand for, with the escapes that the printer
uses. -/
inductive Spells : Bytes → Bytes → Prop
  | nil : Spells [] []
  | unescaped {b : UInt8} {ps bs : Bytes} (hb : Unescaped b) (h : Spells ps bs) :
      Spells (b :: ps) (b :: bs)
  | short {e x : UInt8} {ps bs : Bytes} (he : shortEscape e = some x) (h : Spells ps bs) :
      Spells (backslash :: e :: ps) (x :: bs)
  | hex {a b c d : UInt8} {n : Nat} {ps bs : Bytes} (hn : hexFour a b c d = some n)
      (hlt : n < 0xd800) (h : Spells ps bs) :
      Spells (backslash :: 0x75 :: a :: b :: c :: d :: ps) (encodeChar (Char.ofNat n) ++ bs)

theorem textBytes_spells {ps bs : Bytes} (h : Spells ps bs) (acc rest : Bytes) :
    textBytes acc (ps ++ quoteByte :: rest) = .ok (acc.reverse ++ bs, rest) := by
  induction h generalizing acc with
  | nil =>
    rw [List.nil_append, textBytes.eq_def]
    simp
  | @unescaped b ps bs hb _ ih =>
    obtain ⟨hq, hs, hc⟩ := hb
    rw [List.cons_append, textBytes.eq_def]
    dsimp only
    rw [if_neg hq, if_neg hs, if_neg hc, ih]
    simp
  | @short e x ps bs he _ ih =>
    rw [List.cons_append, List.cons_append, textBytes.eq_def]
    dsimp only
    rw [if_neg (by decide), if_pos rfl, he]
    dsimp only
    rw [ih]
    simp
  | @hex a b c d n ps bs hn hlt _ ih =>
    have hu : shortEscape 0x75 = none := by decide
    simp only [List.cons_append]
    rw [textBytes.eq_def]
    dsimp only
    rw [if_neg (by decide), if_pos rfl, hu]
    dsimp only
    rw [if_pos rfl, hn]
    dsimp only
    rw [if_neg (by simp; omega), if_pos (by simp; omega), ih]
    simp

/-- The escape of a control character, once the short forms are ruled out. -/
theorem hexFour_hexDigit {n : Nat} (h : n < 0x20) :
    ∃ a b : UInt8, encodeChars ['\\', 'u', '0', '0', hexDigit (n / 16), hexDigit (n % 16)] =
      [backslash, 0x75, 0x30, 0x30, a, b] ∧ hexFour 0x30 0x30 a b = some n := by
  interval_cases n <;> exact ⟨_, _, rfl, rfl⟩

theorem unescaped_of_mem_encodeChar {c : Char} (hq : c ≠ '"') (hs : c ≠ '\\')
    (hc : ¬ c.toNat < 0x20) {b : UInt8} (hb : b ∈ encodeChar c) : Unescaped b := by
  by_cases h : c.toNat < 0x80
  · have hbyte : b = c.toNat.toUInt8 := by simpa [encodeChar_of_lt h] using hb
    have hnat : b.toNat = c.toNat := by rw [hbyte]; simp; omega
    refine ⟨?_, ?_, ?_⟩
    · rintro rfl
      exact hq (Char.toNat_inj.mp hnat.symm)
    · rintro rfl
      exact hs (Char.toNat_inj.mp hnat.symm)
    · rw [UInt8.lt_iff_toNat_lt, hnat]
      exact hc
  · have hle := UInt8.le_iff_toNat_le.mp (Utf8.le_of_mem_encodeChar h hb)
    refine ⟨?_, ?_, ?_⟩
    · rintro rfl
      exact absurd hle (by decide)
    · rintro rfl
      exact absurd hle (by decide)
    · rw [UInt8.lt_iff_toNat_lt]
      simp at hle ⊢
      omega

theorem Spells.append_unescaped {ps bs cs : Bytes} (hc : ∀ b ∈ cs, Unescaped b)
    (h : Spells ps bs) : Spells (cs ++ ps) (cs ++ bs) := by
  induction cs with
  | nil => exact h
  | cons b cs ih =>
    exact .unescaped (hc b List.mem_cons_self) (ih fun x hx => hc x (List.mem_cons_of_mem b hx))

theorem spells_escape (c : Char) {ps bs : Bytes} (h : Spells ps bs) :
    Spells (encodeChars (escape c) ++ ps) (encodeChar c ++ bs) := by
  have hc : Char.ofNat c.toNat = c := Char.ofNat_toNat c
  unfold escape
  split_ifs with h₁ h₂ h₃ h₄ h₅ h₆ h₇ h₈
  · subst h₁
    exact .short rfl h
  · subst h₂
    exact .short rfl h
  · subst h₃
    exact .short rfl h
  · subst h₄
    exact .short rfl h
  · subst h₅
    exact .short rfl h
  · rw [← hc, h₆]
    exact .short rfl h
  · rw [← hc, h₇]
    exact .short rfl h
  · obtain ⟨a, b, hbytes, hhex⟩ := hexFour_hexDigit h₈
    have hspells := Spells.hex hhex (by omega) h
    rw [hc] at hspells
    rw [hbytes]
    exact hspells
  · have hb : ∀ b ∈ encodeChar c, Unescaped b := fun b =>
      unescaped_of_mem_encodeChar h₁ h₂ h₈
    simpa using h.append_unescaped hb

theorem spells_escapes (cs : List Char) :
    Spells (encodeChars (cs.flatMap escape)) (encodeChars cs) := by
  induction cs with
  | nil => exact .nil
  | cons c cs ih =>
    rw [List.flatMap_cons, Utf8.encodeChars_append, Utf8.encodeChars_cons]
    exact spells_escape c ih

/-- The bytes of a string between its quotes. -/
def escaped (s : String) : Bytes := encodeChars (s.toList.flatMap escape)

theorem encodeChars_quote (s : String) (rest : Bytes) :
    encodeChars (quote s) ++ rest = quoteByte :: (escaped s ++ quoteByte :: rest) := by
  have hq : encodeChar '"' = [quoteByte] := rfl
  simp [quote, escaped, hq]

/-- A string is read back from behind its opening quote. -/
theorem text_quoted (s : String) (rest : Bytes) :
    text (escaped s ++ quoteByte :: rest) = .ok (s, rest) := by
  have hs : Utf8.decode? (encodeChars s.toList) = some s := Utf8.decode?_encode s
  rw [text, escaped, textBytes_spells (spells_escapes s.toList), List.reverse_nil,
    List.nil_append]
  dsimp only
  rw [hs]

/-! ## Whole numbers -/

/-- No number goes on into these bytes. -/
def Ends : Bytes → Prop
  | [] => True
  | b :: _ => isDigit b = false ∧ b ≠ 0x2e ∧ isExponentMark b = false

theorem digitsOf_of_lt {n : Nat} (h : n < 10) : Decimal.digitsOf n = [n] := by
  rw [Decimal.digitsOf, if_pos h]

theorem digitsOf_of_not_lt {n : Nat} (h : ¬ n < 10) :
    Decimal.digitsOf n = Decimal.digitsOf (n / 10) ++ [n % 10] := by
  rw [Decimal.digitsOf, if_neg h]

/-- The recursion of `digitsOf`. -/
theorem digits_induction {P : Nat → Prop} (one : ∀ n, n < 10 → P n)
    (more : ∀ n, ¬ n < 10 → P (n / 10) → P n) (n : Nat) : P n := by
  induction n using Nat.strongRecOn with
  | ind n ih =>
    by_cases h : n < 10
    · exact one n h
    · exact more n h (ih (n / 10) (by omega))

theorem digitsOf_lt {n d : Nat} (h : d ∈ Decimal.digitsOf n) : d < 10 := by
  induction n using digits_induction with
  | one n hn =>
    rw [digitsOf_of_lt hn, List.mem_singleton] at h
    omega
  | more n hn ih =>
    rw [digitsOf_of_not_lt hn, List.mem_append, List.mem_singleton] at h
    rcases h with h | h
    · exact ih h
    · omega

/-- The number with the digits `ds` behind those of `n`. -/
def ofDigits (n : Nat) (ds : List Nat) : Nat := ds.foldl (fun n d => n * 10 + d) n

theorem ofDigits_digitsOf (n : Nat) : ofDigits 0 (Decimal.digitsOf n) = n := by
  induction n using digits_induction with
  | one n hn =>
    rw [digitsOf_of_lt hn]
    simp [ofDigits]
  | more n hn ih =>
    rw [digitsOf_of_not_lt hn, ofDigits, List.foldl_append]
    rw [ofDigits] at ih
    rw [ih]
    show n / 10 * 10 + n % 10 = n
    omega

/-- Only zero begins with a zero. -/
theorem digitsOf_eq_cons (n : Nat) :
    ∃ d ds, Decimal.digitsOf n = d :: ds ∧ (d = 0 → n = 0 ∧ ds = []) := by
  induction n using digits_induction with
  | one n hn =>
    rw [digitsOf_of_lt hn]
    exact ⟨n, [], rfl, fun h => ⟨h, rfl⟩⟩
  | more n hn ih =>
    obtain ⟨d, ds, hd, hz⟩ := ih
    rw [digitsOf_of_not_lt hn, hd]
    refine ⟨d, ds ++ [n % 10], rfl, fun h => ?_⟩
    have := (hz h).1
    omega

theorem le_ofDigits (n : Nat) (ds : List Nat) : n ≤ ofDigits n ds := by
  induction ds generalizing n with
  | nil => exact Nat.le_refl n
  | cons d ds ih =>
    have h : n * 10 + d ≤ ofDigits n (d :: ds) := ih (n * 10 + d)
    omega

theorem takeWhole_of_le {n : Nat} {ds : List Nat} (h : ofDigits n ds ≤ Word.natMax 64) :
    Decimal.takeWhole n ds = { significand := ofDigits n ds, exponent := 0 } := by
  induction ds generalizing n with
  | nil => rfl
  | cons d ds ih =>
    have hd : n * 10 + d ≤ ofDigits n (d :: ds) := le_ofDigits (n * 10 + d) ds
    rw [Decimal.takeWhole, if_neg (by omega)]
    exact ih h

/-- The bytes of digits. -/
def digitBytes (ds : List Nat) : Bytes := encodeChars (ds.map Decimal.digitChar)

theorem encodeChar_digitChar {d : Nat} (h : d < 10) :
    encodeChar (Decimal.digitChar d) = [(0x30 + d).toUInt8] := by
  interval_cases d <;> rfl

theorem digitBytes_cons {d : Nat} (h : d < 10) (ds : List Nat) :
    digitBytes (d :: ds) = (0x30 + d).toUInt8 :: digitBytes ds := by
  simp [digitBytes, encodeChar_digitChar h]

theorem isDigit_digitByte {d : Nat} (h : d < 10) : isDigit (0x30 + d).toUInt8 = true := by
  interval_cases d <;> rfl

theorem spanDigits_digitBytes {ds : List Nat} (h : ∀ d ∈ ds, d < 10) {rest : Bytes}
    (hr : Ends rest) : spanDigits (digitBytes ds ++ rest) = (ds, rest) := by
  induction ds with
  | nil =>
    cases rest with
    | nil => rfl
    | cons b rest => simp [digitBytes, spanDigits, hr.1]
  | cons d ds ih =>
    have hd := h d List.mem_cons_self
    have hn : (0x30 + d).toUInt8.toNat - 0x30 = d := by simp; omega
    rw [digitBytes_cons hd, List.cons_append, spanDigits, if_pos (isDigit_digitByte hd),
      ih fun x hx => h x (List.mem_cons_of_mem d hx)]
    simp only [hn]

theorem numberTail_of_ends {s : Decimal.Scaled} (hs : s.exponent = 0) (negative : Bool)
    {rest : Bytes} (hr : Ends rest) :
    numberTail s negative rest = .ok (whole s.significand negative, rest) := by
  cases rest with
  | nil => simp [numberTail, hs]
  | cons b rest =>
    obtain ⟨-, hp, he⟩ := hr
    simp [numberTail, hs, hp, he]

theorem number_digitsOf {n : Nat} (hn : n ≤ Word.natMax 64) (negative : Bool) {rest : Bytes}
    (hr : Ends rest) :
    number negative (digitBytes (Decimal.digitsOf n) ++ rest) = .ok (whole n negative, rest) := by
  have hlt : ∀ d ∈ Decimal.digitsOf n, d < 10 := fun d => digitsOf_lt
  have hspan := spanDigits_digitBytes hlt hr
  have htake : Decimal.takeWhole 0 (Decimal.digitsOf n) =
      { significand := ofDigits 0 (Decimal.digitsOf n), exponent := 0 } :=
    takeWhole_of_le (by rwa [ofDigits_digitsOf])
  rw [ofDigits_digitsOf] at htake
  obtain ⟨d, ds, hd, hz⟩ := digitsOf_eq_cons n
  have hd10 : d < 10 := hlt d (by rw [hd]; exact List.mem_cons_self)
  by_cases h0 : d = 0
  · obtain ⟨rfl, rfl⟩ := hz h0
    subst h0
    rw [hd]
    have hbytes : digitBytes [0] ++ rest = 0x30 :: rest := rfl
    have htail := numberTail_of_ends (s := { significand := 0, exponent := 0 }) rfl negative hr
    rw [hbytes, number.eq_def]
    dsimp only
    rw [if_pos rfl]
    cases rest with
    | nil => exact htail
    | cons b rest =>
      have hb : ¬ isDigit b = true := by simp [hr.1]
      simpa only [if_neg hb] using htail
  · have hbytes : digitBytes (Decimal.digitsOf n) ++ rest =
        (0x30 + d).toUInt8 :: (digitBytes ds ++ rest) := by
      rw [hd, digitBytes_cons hd10, List.cons_append]
    have hne : (0x30 + d).toUInt8 ≠ 0x30 := by
      intro h
      have := congrArg UInt8.toNat h
      simp at this
      omega
    rw [hbytes] at hspan ⊢
    rw [number.eq_def]
    dsimp only
    rw [if_neg hne, if_pos (isDigit_digitByte hd10), hspan, htake]
    exact numberTail_of_ends rfl negative hr

theorem intText_neg {i : Int} (h : i < 0) :
    encodeChars (Decimal.intText i).toList = minus :: digitBytes (Decimal.digitsOf i.natAbs) := by
  have hm : encodeChar '-' = [minus] := rfl
  simp [Decimal.intText, h, Decimal.natText, digitBytes, hm]

theorem intText_nonneg {i : Int} (h : ¬ i < 0) :
    encodeChars (Decimal.intText i).toList = digitBytes (Decimal.digitsOf i.natAbs) := by
  simp [Decimal.intText, h, Decimal.natText, digitBytes]

/-- A negative number is read back from behind its sign. -/
theorem number_neg {i : Int} (h : i < 0) (hlo : Word.intMin 64 ≤ i) {rest : Bytes}
    (hr : Ends rest) :
    number true (digitBytes (Decimal.digitsOf i.natAbs) ++ rest) = .ok (.integer i, rest) := by
  have hi : -(i.natAbs : Int) = i := by omega
  have hn : i.natAbs ≤ Word.natMax 64 := by
    have hword : Word.intMin 64 = -9223372036854775808 := by decide
    have hnat : Word.natMax 64 = 18446744073709551615 := by decide
    omega
  rw [number_digitsOf hn true hr, whole, if_neg (by simp), if_neg (by omega), hi, if_pos hlo]

theorem number_nonneg {i : Int} (h : 0 ≤ i) (hhi : i ≤ Word.natMax 64) {rest : Bytes}
    (hr : Ends rest) :
    number false (digitBytes (Decimal.digitsOf i.natAbs) ++ rest) = .ok (.integer i, rest) := by
  have hi : (i.natAbs : Int) = i := by omega
  rw [number_digitsOf (by omega) false hr, whole, if_pos (by simp), hi]

/-- The text of a number from zero on begins with a digit. -/
theorem digitBytes_digitsOf_eq_cons (n : Nat) :
    ∃ b bs, digitBytes (Decimal.digitsOf n) = b :: bs ∧ isDigit b = true := by
  obtain ⟨d, ds, hd, -⟩ := digitsOf_eq_cons n
  have hd10 : d < 10 := digitsOf_lt (n := n) (by rw [hd]; exact List.mem_cons_self)
  rw [hd, digitBytes_cons hd10]
  exact ⟨_, _, rfl, isDigit_digitByte hd10⟩

end Json
end Colloquy
