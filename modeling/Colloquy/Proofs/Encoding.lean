/-
Reading UTF-8 back.

`next` takes the bytes of one character off whatever they stand in front of, so `decode?`
undoes `encode` on every text.
-/
import Colloquy.Utf8
import Mathlib.Data.Char

namespace Colloquy
namespace Utf8

/-! ## One character

A byte is given here as a number below 256. -/

theorem next_one {x : Nat} (h : x < 0x80) (rest : Bytes) :
    next (x.toUInt8 :: rest) = .char (Char.ofNat x) rest := by
  have hx : x.toUInt8.toNat = x := by simp; omega
  simp [next, hx, h]

theorem next_two {x y : Nat} (hx : 0xc2 ≤ x) (hx' : x < 0xe0) (hy : 0x80 ≤ y)
    (hy' : y ≤ 0xbf) (rest : Bytes) :
    next (x.toUInt8 :: y.toUInt8 :: rest) =
      .char (Char.ofNat ((x - 0xc0) * 64 + (y - 0x80))) rest := by
  have hxn : x.toUInt8.toNat = x := by simp; omega
  have hyn : y.toUInt8.toNat = y := by simp; omega
  have hf : follows x y = true := by
    unfold follows
    repeat rw [if_neg (by omega)]
    simp [hy, hy']
  simp only [next, hxn, hyn, hf]
  rw [if_neg (by omega), if_neg (by simp; omega), if_neg (by simp), if_pos hx']

theorem next_three {x y z : Nat} (hx : 0xe0 ≤ x) (hx' : x < 0xf0) (hf : follows x y = true)
    (hy : y ≤ 0xbf) (hz : 0x80 ≤ z) (hz' : z ≤ 0xbf) (rest : Bytes) :
    next (x.toUInt8 :: y.toUInt8 :: z.toUInt8 :: rest) =
      .char (Char.ofNat ((x - 0xe0) * 4096 + (y - 0x80) * 64 + (z - 0x80))) rest := by
  have hxn : x.toUInt8.toNat = x := by simp; omega
  have hyn : y.toUInt8.toNat = y := by simp; omega
  have hzn : z.toUInt8.toNat = z := by simp; omega
  have hc : continues z = true := by simp [continues, hz, hz']
  simp only [next, hxn, hyn, hzn, hf, hc]
  rw [if_neg (by omega), if_neg (by simp; omega), if_neg (by simp), if_neg (by omega),
    if_neg (by simp), if_pos hx']

theorem next_four {x y z w : Nat} (hx : 0xf0 ≤ x) (hx' : x ≤ 0xf4) (hf : follows x y = true)
    (hy : y ≤ 0xbf) (hz : 0x80 ≤ z) (hz' : z ≤ 0xbf) (hw : 0x80 ≤ w) (hw' : w ≤ 0xbf)
    (rest : Bytes) :
    next (x.toUInt8 :: y.toUInt8 :: z.toUInt8 :: w.toUInt8 :: rest) =
      .char (Char.ofNat
        ((x - 0xf0) * 262144 + (y - 0x80) * 4096 + (z - 0x80) * 64 + (w - 0x80))) rest := by
  have hxn : x.toUInt8.toNat = x := by simp; omega
  have hyn : y.toUInt8.toNat = y := by simp; omega
  have hzn : z.toUInt8.toNat = z := by simp; omega
  have hwn : w.toUInt8.toNat = w := by simp; omega
  have hc : continues z = true := by simp [continues, hz, hz']
  have hc' : continues w = true := by simp [continues, hw, hw']
  simp only [next, hxn, hyn, hzn, hwn, hf, hc, hc']
  rw [if_neg (by omega), if_neg (by simp; omega), if_neg (by simp), if_neg (by omega),
    if_neg (by simp), if_neg (by omega), if_neg (by simp)]

/-- A character is no surrogate and lies below the end of the code space. -/
theorem toNat_valid (c : Char) :
    c.toNat < 0xd800 ∨ 0xdfff < c.toNat ∧ c.toNat < 0x110000 := c.valid

theorem next_encodeChar (c : Char) (rest : Bytes) :
    next (encodeChar c ++ rest) = .char c rest := by
  have hvalid := toNat_valid c
  have hc : Char.ofNat c.toNat = c := Char.ofNat_toNat c
  unfold encodeChar
  generalize c.toNat = n at hvalid hc
  -- The ranges that `follows` narrows are the ones that overlong forms and surrogates miss.
  by_cases h₁ : n < 0x80
  · simpa [h₁, hc] using next_one h₁ rest
  by_cases h₂ : n < 0x800
  · have hn : (0xc0 + n / 64 - 0xc0) * 64 + (0x80 + n % 64 - 0x80) = n := by omega
    have h : next ((0xc0 + n / 64).toUInt8 :: (0x80 + n % 64).toUInt8 :: rest) = _ :=
      next_two (by omega) (by omega) (by omega) (by omega) rest
    rw [hn, hc] at h
    simpa [h₁, h₂] using h
  by_cases h₃ : n < 0x10000
  · have hn : (0xe0 + n / 4096 - 0xe0) * 4096 + (0x80 + n / 64 % 64 - 0x80) * 64 +
        (0x80 + n % 64 - 0x80) = n := by omega
    have hf : follows (0xe0 + n / 4096) (0x80 + n / 64 % 64) = true := by
      unfold follows
      split_ifs <;> simp <;> omega
    have h : next ((0xe0 + n / 4096).toUInt8 :: (0x80 + n / 64 % 64).toUInt8 ::
        (0x80 + n % 64).toUInt8 :: rest) = _ :=
      next_three (by omega) (by omega) hf (by omega) (by omega) (by omega) rest
    rw [hn, hc] at h
    simpa [h₁, h₂, h₃] using h
  · have hn : (0xf0 + n / 262144 - 0xf0) * 262144 + (0x80 + n / 4096 % 64 - 0x80) * 4096 +
        (0x80 + n / 64 % 64 - 0x80) * 64 + (0x80 + n % 64 - 0x80) = n := by omega
    have hf : follows (0xf0 + n / 262144) (0x80 + n / 4096 % 64) = true := by
      unfold follows
      split_ifs <;> simp <;> omega
    have h : next ((0xf0 + n / 262144).toUInt8 :: (0x80 + n / 4096 % 64).toUInt8 ::
        (0x80 + n / 64 % 64).toUInt8 :: (0x80 + n % 64).toUInt8 :: rest) = _ :=
      next_four (by omega) (by omega) hf (by omega) (by omega) (by omega) (by omega) (by omega) rest
    rw [hn, hc] at h
    simpa [h₁, h₂, h₃] using h

theorem encodeChar_of_lt {c : Char} (h : c.toNat < 0x80) : encodeChar c = [c.toNat.toUInt8] := by
  simp [encodeChar, h]

theorem encodeChar_length_pos (c : Char) : 0 < (encodeChar c).length := by
  unfold encodeChar
  dsimp only
  split_ifs <;> simp

/-- All bytes of a character above 127 are above 127. -/
theorem le_of_mem_encodeChar {c : Char} (h : ¬ c.toNat < 0x80) {b : UInt8}
    (hb : b ∈ encodeChar c) : 0x80 ≤ b := by
  have hvalid := toNat_valid c
  unfold encodeChar at hb
  rw [UInt8.le_iff_toNat_le]
  dsimp only at hb
  split_ifs at hb <;> simp only [List.mem_cons, List.not_mem_nil, or_false] at hb <;>
    rcases hb with rfl | rfl | rfl | rfl <;> simp <;> omega

/-! ## Texts -/

@[simp] theorem encodeChars_nil : encodeChars [] = [] := rfl

@[simp] theorem encodeChars_cons (c : Char) (cs : List Char) :
    encodeChars (c :: cs) = encodeChar c ++ encodeChars cs := List.flatMap_cons

@[simp] theorem encodeChars_append (cs ds : List Char) :
    encodeChars (cs ++ ds) = encodeChars cs ++ encodeChars ds := List.flatMap_append

theorem decodeChars?_encodeChars {cs : List Char} {n : Nat} (h : (encodeChars cs).length ≤ n) :
    decodeChars? n (encodeChars cs) = some cs := by
  induction cs generalizing n with
  | nil => cases n <;> rfl
  | cons c cs ih =>
    have hc := encodeChar_length_pos c
    rw [encodeChars_cons, List.length_append] at h
    obtain ⟨n, rfl⟩ : ∃ m, n = m + 1 := ⟨n - 1, by omega⟩
    rw [encodeChars_cons, decodeChars?, next_encodeChar]
    simp [ih (n := n) (by omega)]

theorem decode?_encode (s : String) : decode? (encode s) = some s := by
  unfold decode? encode
  rw [decodeChars?_encodeChars (Nat.le_refl _)]
  simp

end Utf8
end Colloquy
