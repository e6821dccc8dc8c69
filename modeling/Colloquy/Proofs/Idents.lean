/-
Identifiers, and the topics that they make.

An identifier shows the last digits of its number, so two of them differ as long as their numbers
are not further apart than so many digits can tell.  Its characters are those of a segment, as are
those of every instance id that settings may name.  That is why an instance can take its answers
on a topic of its own for any namespace: the topic is valid if the namespace is.
-/
import Colloquy.Ident
import Colloquy.Settings
import Colloquy.Topic
import Mathlib.Data.List.Basic
import Mathlib.Data.Nat.ModEq

namespace Colloquy

/-! ## Identifiers -/

namespace Ident

variable {k m n : Nat}

theorem getElem?_alphabet (n : Nat) : alphabet[n % 32]? = some (digit n) := by
  have hlt : n % 32 < alphabet.length := Nat.mod_lt n (by decide)
  rw [digit, List.getD_eq_getElem?_getD, List.getElem?_eq_getElem hlt]
  rfl

theorem digit_mem (n : Nat) : digit n ∈ alphabet := List.mem_of_getElem? (getElem?_alphabet n)

theorem digit_inj (h : digit m = digit n) : m % 32 = n % 32 := by
  have hlt : m % 32 < alphabet.length := Nat.mod_lt m (by decide)
  have hnodup : alphabet.Nodup := by decide
  refine (List.getElem?_inj hlt hnodup).mp ?_
  rw [getElem?_alphabet, getElem?_alphabet, h]

theorem length_digits (k n : Nat) : (digits k n).length = k := by
  induction k generalizing n with
  | zero => rfl
  | succ k ih => simp only [digits, List.length_append, ih, List.length_singleton]

/-- The last digits tell a number up to multiples of their range. -/
theorem digits_inj (h : digits k m = digits k n) : m % 32 ^ k = n % 32 ^ k := by
  induction k generalizing m n with
  | zero => rw [Nat.pow_zero, Nat.mod_one, Nat.mod_one]
  | succ k ih =>
    obtain ⟨hfront, hlast⟩ := List.append_inj h (by rw [length_digits, length_digits])
    have hdiv := ih hfront
    have hmod := digit_inj (List.cons.inj hlast).1
    rw [Nat.pow_succ', Nat.mod_mul, Nat.mod_mul, hmod, hdiv]

theorem text_inj (h : text m = text n) : m % 32 ^ width = n % 32 ^ width := by
  have hchars : chars m = chars n := String.ofList_injective h
  rw [chars, chars] at hchars
  exact digits_inj (List.cons.inj (List.cons.inj hchars).2).2

/-- The identifiers of two numbers differ as long as one more digit is not needed to tell the
numbers apart. -/
theorem text_ne (hlt : m < n) (hnear : n < m + 32 ^ width) : text m ≠ text n := by
  intro h
  have hdvd : 32 ^ width ∣ n - m := (Nat.modEq_iff_dvd' hlt.le).mp (text_inj h)
  have hle := Nat.le_of_dvd (by omega) hdvd
  omega

theorem mem_digits {c : Char} (h : c ∈ digits k n) : c ∈ alphabet := by
  induction k generalizing n with
  | zero => cases h
  | succ k ih =>
    obtain h | h := List.mem_append.mp h
    · exact ih h
    · rw [List.mem_singleton.mp h]
      exact digit_mem n

/-- An identifier can be the id of an instance. -/
theorem validInstanceId_text (n : Nat) : Settings.validInstanceId (text n) = true := by
  have halphabet : ∀ c ∈ alphabet, Settings.isInstanceChar c = true :=
    List.all_eq_true.mp (by decide +kernel)
  have htext : (text n).toList = '0' :: '1' :: digits width n := String.toList_ofList
  rw [Settings.validInstanceId, htext, List.isEmpty_cons, Bool.not_false, Bool.true_and,
    List.all_eq_true]
  intro c hc
  obtain rfl | rfl | hc := by simpa only [List.mem_cons] using hc
  · decide
  · decide
  · exact halphabet c (mem_digits hc)

end Ident

/-! ## Topics for answers -/

namespace Topic

variable {inSegment more : Bool} {cs ds : List Char}

theorem accepts_colon (h : accepts inSegment more cs = true) (ds : List Char) :
    accepts inSegment more (cs ++ ':' :: ds) = accepts false true ds := by
  induction cs generalizing inSegment more with
  | nil =>
    rw [accepts, Bool.and_eq_true] at h
    rw [List.nil_append, accepts, if_pos rfl, h.1, Bool.true_and]
  | cons c cs ih =>
    rw [List.cons_append, accepts]
    rw [accepts] at h
    split_ifs at h ⊢ with hc
    · rw [Bool.and_eq_true] at h
      rw [h.1, Bool.true_and, ih h.2]
    · rw [Bool.and_eq_true] at h
      rw [h.1, Bool.true_and, ih h.2]

theorem accepts_segment (h : ∀ c ∈ cs, isSegmentChar c = true)
    (hsome : inSegment = true ∨ cs ≠ []) :
    accepts inSegment true cs = true := by
  induction cs generalizing inSegment with
  | nil =>
    obtain rfl | hne := hsome
    · rfl
    · exact absurd rfl hne
  | cons c cs ih =>
    have hc := h c List.mem_cons_self
    have hcolon : c ≠ ':' := by
      rintro rfl
      cases hc
    rw [accepts, if_neg hcolon, hc, Bool.true_and]
    exact ih (fun d hd => h d (List.mem_cons_of_mem c hd)) (.inl rfl)

theorem dropMark_append (h : cs ≠ []) (ds : List Char) :
    dropMark (cs ++ ds) = dropMark cs ++ ds := by
  cases cs with
  | nil => exact absurd rfl h
  | cons c cs =>
    rw [List.cons_append, dropMark, dropMark]
    split_ifs <;> rfl

/-- An instance can take the answers to its requests to any namespace. -/
theorem valid_forResponses {namesp instanceId : String} (hn : valid namesp = true)
    (hi : Settings.validInstanceId instanceId = true) :
    valid (forResponses namesp instanceId) = true := by
  have hsome : namesp.toList ≠ [] := by
    intro hnil
    rw [valid, hnil] at hn
    cases hn
  rw [Settings.validInstanceId, Bool.and_eq_true, List.all_eq_true] at hi
  obtain ⟨hne, hall⟩ := hi
  have hlist : (forResponses namesp instanceId).toList =
      namesp.toList ++ ':' :: ("response".toList ++ ':' :: instanceId.toList) := by
    rw [forResponses, String.toList_append, String.toList_append]
    simp
  rw [valid, hlist, dropMark_append hsome, accepts_colon hn, accepts_colon (by decide)]
  refine accepts_segment hall (.inr fun hnil => ?_)
  rw [hnil] at hne
  cases hne

end Topic
end Colloquy
