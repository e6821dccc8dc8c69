/-
The wording of JSON text.

A value is a bare word, a number, a string, a list or an object.  Blanks may stand around the items
of a list, and around the names of an object and their values.  Between quotes there may be any
bytes and any escapes, also such as are no text.
-/
import Colloquy.Proofs.Rendering

namespace Colloquy
namespace Json

/-! ## Blanks -/

def Blank (ws : Bytes) : Prop := ∀ b ∈ ws, isBlank b = true

theorem blank_nil : Blank [] := nofun

theorem skipBlanks_append {ws : Bytes} (h : Blank ws) (bs : Bytes) :
    skipBlanks (ws ++ bs) = skipBlanks bs := by
  induction ws with
  | nil => rfl
  | cons b ws ih =>
    obtain ⟨hb, hws⟩ := List.forall_mem_cons.mp h
    rw [List.cons_append, skipBlanks, if_pos hb, ih hws]

theorem skipBlanks_of_blank {ws : Bytes} (h : Blank ws) : skipBlanks ws = [] := by
  rw [← List.append_nil ws, skipBlanks_append h]
  rfl

theorem skipBlanks_skipBlanks (bs : Bytes) : skipBlanks (skipBlanks bs) = skipBlanks bs := by
  induction bs with
  | nil => rfl
  | cons b bs ih =>
    rw [skipBlanks]
    split
    · exact ih
    · rename_i hb
      exact skipBlanks_cons (Bool.eq_false_iff.mpr hb) bs

theorem ends_of_isBlank {b : UInt8} (h : isBlank b = true) (r : Bytes) : Ends (b :: r) := by
  simp only [isBlank, Bool.or_eq_true, beq_iff_eq] at h
  rcases h with ((rfl | rfl) | rfl) | rfl <;> exact ⟨rfl, by decide, rfl⟩

/-- No number goes on into blanks. -/
theorem Ends.blanks {ws rest : Bytes} (h : Ends rest) (hws : Blank ws) : Ends (ws ++ rest) := by
  cases ws with
  | nil => exact h
  | cons b ws => exact ends_of_isBlank (hws b List.mem_cons_self) _

/-! ## Strings and numbers -/

/-- Bytes that may stand between quotes. -/
inductive Spelling : Bytes → Prop
  | nil : Spelling []
  | unescaped {b : UInt8} {ps : Bytes} (hb : Unescaped b) (h : Spelling ps) : Spelling (b :: ps)
  | short {e x : UInt8} {ps : Bytes} (he : shortEscape e = some x) (h : Spelling ps) :
      Spelling (backslash :: e :: ps)
  | hex {a b c d : UInt8} {n : Nat} {ps : Bytes} (hn : hexFour a b c d = some n)
      (h : Spelling ps) : Spelling (backslash :: 0x75 :: a :: b :: c :: d :: ps)

structure Digits (ds : Bytes) : Prop where
  ne_nil : ds ≠ []
  all : ∀ b ∈ ds, isDigit b = true

/-- The digits before the point.  Only zero begins with a zero. -/
inductive Leading : Bytes → Prop
  | zero : Leading [0x30]
  | digits {b : UInt8} {ds : Bytes} (hb : b ≠ 0x30) (h : Digits (b :: ds)) : Leading (b :: ds)

/-- An exponent behind its mark. -/
inductive Exponent : Bytes → Prop
  | unsigned {ds : Bytes} (h : Digits ds) : Exponent ds
  | signed {b : UInt8} {ds : Bytes} (hb : b = 0x2b ∨ b = 0x2d) (h : Digits ds) :
      Exponent (b :: ds)

/-- An exponent or nothing. -/
inductive Scale : Bytes → Prop
  | none : Scale []
  | exponent {b : UInt8} {e : Bytes} (hb : isExponentMark b = true) (h : Exponent e) :
      Scale (b :: e)

/-- What may stand behind the digits before the point. -/
inductive Trail : Bytes → Prop
  | scale {e : Bytes} (h : Scale e) : Trail e
  | fraction {ds e : Bytes} (hds : Digits ds) (h : Scale e) : Trail (0x2e :: (ds ++ e))

/-- A number without a sign. -/
inductive Unsigned : Bytes → Prop
  | mk {ds t : Bytes} (hds : Leading ds) (ht : Trail t) : Unsigned (ds ++ t)

/-! ## Lists and objects -/

/-- A value with the blanks around it. -/
structure Padded where
  before : Bytes
  text : Bytes
  after : Bytes

namespace Padded

def bytes (p : Padded) : Bytes := p.before ++ (p.text ++ p.after)

/-- The same place with another value. -/
def hold (p : Padded) (v : Bytes) : Padded := { p with text := v }

structure Spaced (p : Padded) : Prop where
  before : Blank p.before
  after : Blank p.after

end Padded

/-- A field of an object: its name as it is spelled between the quotes, with the blanks in front of
it and behind it, and its value. -/
structure Field where
  before : Bytes
  spelling : Bytes
  between : Bytes
  value : Padded

namespace Field

def bytes (f : Field) : Bytes :=
  f.before ++ quoteByte :: (f.spelling ++ quoteByte :: (f.between ++ colon :: f.value.bytes))

def hold (f : Field) (v : Bytes) : Field := { f with value := f.value.hold v }

structure Spaced (f : Field) : Prop where
  before : Blank f.before
  spelling : Spelling f.spelling
  between : Blank f.between
  value : f.value.Spaced

end Field

/-- Pieces with commas between them. -/
def commas : List Bytes → Bytes
  | [] => []
  | p :: ps => p ++ ps.flatMap (comma :: ·)

def listBytes (ps : List Padded) : Bytes :=
  openList :: (commas (ps.map Padded.bytes) ++ [closeList])

def objectBytes (fs : List Field) : Bytes :=
  openObject :: (commas (fs.map Field.bytes) ++ [closeObject])

def nullBytes : Bytes := 0x6e :: nullRest

/-! ## Values -/

/-- A well-formed value, from its first byte to its last. -/
inductive IsValue : Bytes → Prop
  | null : IsValue nullBytes
  | yes : IsValue (0x74 :: trueRest)
  | no : IsValue (0x66 :: falseRest)
  | unsigned {u : Bytes} (h : Unsigned u) : IsValue u
  | negative {u : Bytes} (h : Unsigned u) : IsValue (minus :: u)
  | text {s : Bytes} (h : Spelling s) : IsValue (quoteByte :: (s ++ [quoteByte]))
  | noItems {ws : Bytes} (h : Blank ws) : IsValue (openList :: (ws ++ [closeList]))
  | list {ps : List Padded} (hspaced : ∀ p ∈ ps, p.Spaced) (h : ∀ p ∈ ps, IsValue p.text) :
      IsValue (listBytes ps)
  | noFields {ws : Bytes} (h : Blank ws) : IsValue (openObject :: (ws ++ [closeObject]))
  | object {fs : List Field} (hspaced : ∀ f ∈ fs, f.Spaced) (h : ∀ f ∈ fs, IsValue f.value.text) :
      IsValue (objectBytes fs)

structure Padded.Proper (p : Padded) : Prop extends p.Spaced where
  isValue : IsValue p.text

structure Field.Proper (f : Field) : Prop extends f.Spaced where
  isValue : IsValue f.value.text

theorem Padded.Proper.hold {p : Padded} (h : p.Proper) {v : Bytes} (hv : IsValue v) :
    (p.hold v).Proper := { h with isValue := hv }

theorem Field.Proper.hold {f : Field} (h : f.Proper) {v : Bytes} (hv : IsValue v) :
    (f.hold v).Proper := { h with value := { h.value with }, isValue := hv }

/-- A list of items or an object of fields. -/
inductive Composite : Bytes → Prop
  | list {ps : List Padded} (h : ∀ p ∈ ps, p.Proper) : Composite (listBytes ps)
  | object {fs : List Field} (h : ∀ f ∈ fs, f.Proper) : Composite (objectBytes fs)

theorem Composite.isValue {v : Bytes} (h : Composite v) : IsValue v := by
  cases h with
  | list h => exact .list (fun p hp => (h p hp).toSpaced) fun p hp => (h p hp).isValue
  | object h => exact .object (fun f hf => (h f hf).toSpaced) fun f hf => (h f hf).isValue

theorem Composite.ne_null {v : Bytes} (h : Composite v) : v ≠ nullBytes := by
  cases h <;> exact fun heq => absurd (List.cons.inj heq).1 (by decide)

theorem Digits.cons {ds : Bytes} (h : Digits ds) :
    ∃ b r, ds = b :: r ∧ isDigit b = true := by
  obtain ⟨b, r, rfl⟩ := List.exists_cons_of_ne_nil h.ne_nil
  exact ⟨b, r, rfl, h.all b List.mem_cons_self⟩

theorem Unsigned.cons {u : Bytes} (h : Unsigned u) :
    ∃ b r, u = b :: r ∧ isDigit b = true := by
  cases h with
  | @mk ds t hds ht =>
    cases hds with
    | zero => exact ⟨0x30, t, rfl, rfl⟩
    | @digits b ds hb h => exact ⟨b, ds ++ t, rfl, h.all b List.mem_cons_self⟩

/-- The first byte of a value tells that an item begins. -/
theorem IsValue.cons {v : Bytes} (h : IsValue v) :
    ∃ b r, v = b :: r ∧ isBlank b = false ∧ b ≠ closeList := by
  cases h with
  | unsigned h =>
    obtain ⟨b, r, rfl, hb⟩ := h.cons
    exact ⟨b, r, rfl, not_isBlank_of_isDigit hb, ne_of_isDigit hb rfl⟩
  | _ => exact ⟨_, _, rfl, rfl, by decide⟩

end Json
end Colloquy
