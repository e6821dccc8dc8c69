/-
Finite tables, in the order in which their keys were first put.

`get?` is the view: what an operation does to a table is said by what it does to `get?`.
-/

namespace Colloquy

structure Table (κ α : Type) where
  entries : List (κ × α) := []
  deriving Inhabited

namespace Table

variable {κ α : Type} [DecidableEq κ]

def empty : Table κ α := {}

def get? (t : Table κ α) (k : κ) : Option α := t.entries.lookup k

def getD (t : Table κ α) (k : κ) (default : α) : α := (t.get? k).getD default

def contains (t : Table κ α) (k : κ) : Bool := (t.get? k).isSome

/-- Replace the first value of a key, or put it behind all others. -/
def putIn (k : κ) (v : α) : List (κ × α) → List (κ × α)
  | [] => [(k, v)]
  | (l, w) :: r => if l = k then (k, v) :: r else (l, w) :: putIn k v r

def put (t : Table κ α) (k : κ) (v : α) : Table κ α := { entries := putIn k v t.entries }

def eraseIn (k : κ) : List (κ × α) → List (κ × α)
  | [] => []
  | (l, w) :: r => if l = k then eraseIn k r else (l, w) :: eraseIn k r

def erase (t : Table κ α) (k : κ) : Table κ α := { entries := eraseIn k t.entries }

def keys (t : Table κ α) : List κ := t.entries.map Prod.fst

def values (t : Table κ α) : List α := t.entries.map Prod.snd

def size (t : Table κ α) : Nat := t.entries.length

/-- Change the value of a key that is there. -/
def update (t : Table κ α) (k : κ) (f : α → α) : Table κ α :=
  match t.get? k with
  | some v => t.put k (f v)
  | none => t

/-! ## What the operations do to `get?` -/

@[simp] theorem get?_empty (k : κ) : (empty : Table κ α).get? k = none := rfl

theorem lookup_putIn_self (k : κ) (v : α) (es : List (κ × α)) :
    (putIn k v es).lookup k = some v := by
  induction es with
  | nil => simp [putIn]
  | cons e r ih =>
    obtain ⟨l, w⟩ := e
    by_cases h : l = k
    · simp [putIn, h]
    · have h' : (k == l) = false := by simpa using fun h' => h h'.symm
      simp [putIn, h, List.lookup_cons, h', ih]

theorem lookup_putIn_ne {k l : κ} (h : l ≠ k) (v : α) (es : List (κ × α)) :
    (putIn k v es).lookup l = es.lookup l := by
  induction es with
  | nil =>
    have h' : (l == k) = false := by simpa using h
    simp [putIn, List.lookup_cons, h']
  | cons e r ih =>
    obtain ⟨m, w⟩ := e
    by_cases hm : m = k
    · have h' : (l == k) = false := by simpa using h
      simp [putIn, hm, List.lookup_cons, h']
    · by_cases hl : l = m
      · simp [putIn, hm, hl]
      · have h' : (l == m) = false := by simpa using hl
        simp [putIn, hm, List.lookup_cons, h', ih]

@[simp] theorem get?_put_self (t : Table κ α) (k : κ) (v : α) : (t.put k v).get? k = some v :=
  lookup_putIn_self k v t.entries

theorem get?_put_ne (t : Table κ α) {k l : κ} (h : l ≠ k) (v : α) :
    (t.put k v).get? l = t.get? l :=
  lookup_putIn_ne h v t.entries

theorem lookup_eraseIn_self (k : κ) (es : List (κ × α)) : (eraseIn k es).lookup k = none := by
  induction es with
  | nil => rfl
  | cons e r ih =>
    obtain ⟨l, w⟩ := e
    by_cases h : l = k
    · simpa only [eraseIn, h, if_true] using ih
    · have h' : (k == l) = false := by simpa using fun h' => h h'.symm
      simpa only [eraseIn, h, if_false, List.lookup_cons, h'] using ih

theorem lookup_eraseIn_ne {k l : κ} (h : l ≠ k) (es : List (κ × α)) :
    (eraseIn k es).lookup l = es.lookup l := by
  induction es with
  | nil => rfl
  | cons e r ih =>
    obtain ⟨m, w⟩ := e
    by_cases hm : m = k
    · have h' : (l == m) = false := by simpa [hm] using h
      simpa only [eraseIn, hm, if_true, List.lookup_cons, hm ▸ h'] using ih
    · simp only [eraseIn, hm, if_false, List.lookup_cons, ih]

@[simp] theorem get?_erase_self (t : Table κ α) (k : κ) : (t.erase k).get? k = none :=
  lookup_eraseIn_self k t.entries

theorem get?_erase_ne (t : Table κ α) {k l : κ} (h : l ≠ k) : (t.erase k).get? l = t.get? l :=
  lookup_eraseIn_ne h t.entries

end Table
end Colloquy
