/-
Reading back the values that the printer writes.

`Reads read bs v` says that `read` takes exactly `bs` off whatever it stands in front of
and makes `v` of it.  Lists and objects are read back when their parts are: `items` collects
what its reader makes of each item, and `entries` goes through the states that `Fills`
lists.  `value` is the case where the parts are values themselves.
-/
import Colloquy.Proofs.Spelling
import Mathlib.Data.String.Basic

namespace Colloquy
namespace Json

open Utf8 (encodeChars encodeChar)

variable {α β σ : Type}

/-- `read` makes `v` of `bs`, whatever stands behind it that no number goes on into. -/
def Reads (read : Reader α) (bs : Bytes) (v : α) : Prop :=
  ∀ rest, Ends rest → read (bs ++ rest) = .ok (v, rest)

theorem Reads.map {read : Reader α} {bs : Bytes} {v : α} (h : Reads read bs v) (f : α → β) :
    Reads (fun bs => (read bs).map fun (x, r) => (f x, r)) bs (f v) := by
  intro rest hr
  simp [h rest hr, Except.map]

theorem ends_comma (r : Bytes) : Ends (comma :: r) := ⟨rfl, by decide, rfl⟩

theorem ends_closeList (r : Bytes) : Ends (closeList :: r) := ⟨rfl, by decide, rfl⟩

theorem ends_closeObject (r : Bytes) : Ends (closeObject :: r) := ⟨rfl, by decide, rfl⟩

theorem skipBlanks_cons {b : UInt8} (h : isBlank b = false) (r : Bytes) :
    skipBlanks (b :: r) = b :: r := by
  rw [skipBlanks, if_neg (by simp [h])]

/-! ## What a text begins with -/

theorem render_text (s : String) (rest : Bytes) :
    (Value.text s).render ++ rest = quoteByte :: (escaped s ++ quoteByte :: rest) :=
  encodeChars_quote s rest

theorem render_array_nil : (Value.array []).render = [openList, closeList] := rfl

theorem render_array_cons (v : Value) (vs : List Value) :
    (Value.array (v :: vs)).render =
      openList :: (v.render ++ encodeChars (Value.itemsTail vs)) := by
  have hopen : encodeChar '[' = [openList] := rfl
  show encodeChars ('[' :: v.chars ++ Value.itemsTail vs) = openList :: (encodeChars v.chars ++ _)
  simp [hopen]

theorem render_object_nil : (Value.object []).render = [openObject, closeObject] := rfl

theorem render_object_cons (name : String) (v : Value) (fields : List (String × Value))
    (rest : Bytes) :
    (Value.object ((name, v) :: fields)).render ++ rest =
      openObject :: quoteByte :: (escaped name ++ quoteByte :: colon ::
        (v.render ++ (encodeChars (Value.fieldsTail fields) ++ rest))) := by
  have hopen : encodeChar (Char.ofNat 0x7b) = [openObject] := rfl
  have hcolon : encodeChar ':' = [colon] := rfl
  show encodeChars (Char.ofNat 0x7b :: quote name ++ ':' :: v.chars ++ Value.fieldsTail fields) ++
    rest = openObject :: quoteByte :: (_ ++ quoteByte :: colon :: (encodeChars v.chars ++ _))
  simp [hopen, hcolon, encodeChars_quote]

theorem render_neg {i : Int} (h : i < 0) :
    (Value.integer i).render = minus :: digitBytes (Decimal.digitsOf i.natAbs) := intText_neg h

theorem render_nonneg {i : Int} (h : ¬ i < 0) :
    (Value.integer i).render = digitBytes (Decimal.digitsOf i.natAbs) := intText_nonneg h

theorem ne_of_isDigit {b c : UInt8} (h : isDigit b = true) (hc : isDigit c = false) : b ≠ c := by
  rintro rfl
  rw [h] at hc
  cases hc

theorem not_isBlank_of_isDigit {b : UInt8} (h : isDigit b = true) : isBlank b = false := by
  have h₁ := ne_of_isDigit (c := 0x20) h rfl
  have h₂ := ne_of_isDigit (c := 0x0a) h rfl
  have h₃ := ne_of_isDigit (c := 0x09) h rfl
  have h₄ := ne_of_isDigit (c := 0x0d) h rfl
  simp [isBlank, h₁, h₂, h₃, h₄]

/-- The first byte of a text tells that an item begins, and that it is not null. -/
theorem render_eq_cons (v : Value) (hd : ∀ bits, v ≠ .double bits) :
    ∃ b r, v.render = b :: r ∧ isBlank b = false ∧ b ≠ closeList ∧ (b = 0x6e → v = .null) := by
  cases v with
  | null => exact ⟨_, _, rfl, rfl, by decide, fun _ => rfl⟩
  | bool b => cases b <;> exact ⟨_, _, rfl, rfl, by decide, fun h => absurd h (by decide)⟩
  | integer i =>
    by_cases h : i < 0
    · exact ⟨_, _, render_neg h, rfl, by decide, fun h => absurd h (by decide)⟩
    · obtain ⟨b, r, hbytes, hb⟩ := digitBytes_digitsOf_eq_cons i.natAbs
      rw [← render_nonneg h] at hbytes
      exact ⟨b, r, hbytes, not_isBlank_of_isDigit hb, ne_of_isDigit hb rfl,
        fun h => absurd h (ne_of_isDigit hb rfl)⟩
  | double bits => exact absurd rfl (hd bits)
  | text s =>
    have h := render_text s []
    rw [List.append_nil] at h
    exact ⟨_, _, h, rfl, by decide, fun h => absurd h (by decide)⟩
  | array vs =>
    cases vs with
    | nil => exact ⟨_, _, render_array_nil, rfl, by decide, fun h => absurd h (by decide)⟩
    | cons v vs =>
      exact ⟨_, _, render_array_cons v vs, rfl, by decide, fun h => absurd h (by decide)⟩
  | object fields =>
    cases fields with
    | nil => exact ⟨_, _, render_object_nil, rfl, by decide, fun h => absurd h (by decide)⟩
    | cons f fields =>
      have h := render_object_cons f.1 f.2 fields []
      rw [List.append_nil] at h
      exact ⟨_, _, h, rfl, by decide, fun h => absurd h (by decide)⟩

/-! ## Lists -/

/-- Read one item and put it in front of those read before. -/
def gather (read : Reader α) (acc : List α) : Reader (List α) := fun bs =>
  (read bs).map fun (v, r) => (v :: acc, r)

theorem Reads.gather {read : Reader α} {bs : Bytes} {v : α} (h : Reads read bs v)
    (acc : List α) : Reads (gather read acc) bs (v :: acc) := h.map (· :: acc)

theorem itemsTail_nil (rest : Bytes) :
    encodeChars (Value.itemsTail []) ++ rest = closeList :: rest := rfl

theorem itemsTail_cons (v : Value) (vs : List Value) (rest : Bytes) :
    encodeChars (Value.itemsTail (v :: vs)) ++ rest =
      comma :: (v.render ++ (encodeChars (Value.itemsTail vs) ++ rest)) := by
  have hcomma : encodeChar ',' = [comma] := rfl
  show encodeChars (',' :: v.chars ++ Value.itemsTail vs) ++ rest =
    comma :: (encodeChars v.chars ++ _)
  simp [hcomma]

theorem length_lt_itemsTail (vs : List Value) (rest : Bytes) :
    vs.length < (encodeChars (Value.itemsTail vs) ++ rest).length := by
  induction vs with
  | nil => simp [itemsTail_nil]
  | cons v vs ih =>
    rw [itemsTail_cons, List.length_cons, List.length_cons, List.length_append]
    omega

theorem ends_itemsTail (vs : List Value) (rest : Bytes) :
    Ends (encodeChars (Value.itemsTail vs) ++ rest) := by
  cases vs with
  | nil => exact ends_closeList rest
  | cons v vs =>
    rw [itemsTail_cons]
    exact ends_comma _

theorem nextItem_first {b : UInt8} (hblank : isBlank b = false) (hclose : b ≠ closeList)
    (r : Bytes) : nextItem true (b :: r) = .ok (some (b :: r), b :: r) := by
  rw [nextItem, skipBlanks_cons hblank]
  simp only [if_neg hclose]
  rfl

theorem nextItem_comma {b : UInt8} (hblank : isBlank b = false) (hclose : b ≠ closeList)
    (r : Bytes) : nextItem false (comma :: b :: r) = .ok (some (b :: r), b :: r) := by
  have hcomma : skipBlanks (comma :: b :: r) = comma :: b :: r := skipBlanks_cons rfl _
  have hb : skipBlanks (b :: r) = b :: r := skipBlanks_cons hblank r
  rw [nextItem, hcomma]
  dsimp only
  rw [if_neg (by decide), if_neg (by decide), if_pos rfl, hb]
  simp only [if_neg hclose]

theorem items_step {item : σ → Reader σ} {first : Bool} {acc acc' : σ} {bs cs ds : Bytes}
    (hnext : nextItem first bs = .ok (some cs, cs)) (hitem : item acc cs = .ok (acc', ds))
    (w : UInt8) (rounds : Bytes) :
    items item (w :: rounds) first acc bs = items item rounds false acc' ds := by
  rw [items.eq_def]
  simp only [hnext, hitem]

section Items

variable {read : Reader α} {f : α → Value}

/-- Each round takes one item off, and there are more bytes than items. -/
theorem items_itemsTail {xs : List α} (hf : ∀ x ∈ xs, ∀ bits, f x ≠ .double bits)
    (h : ∀ x ∈ xs, Reads read (f x).render x) {rounds : Bytes} (hn : xs.length < rounds.length)
    (acc : List α) (rest : Bytes) :
    items (gather read) rounds false acc (encodeChars (Value.itemsTail (xs.map f)) ++ rest) =
      .ok (xs.reverse ++ acc, rest) := by
  induction xs generalizing rounds acc with
  | nil =>
    obtain ⟨_, rounds, rfl⟩ := List.exists_cons_of_length_pos hn
    rfl
  | cons x xs ih =>
    obtain ⟨_, rounds, rfl⟩ := List.exists_cons_of_length_pos (Nat.zero_lt_of_lt hn)
    have hx := (h x List.mem_cons_self).gather acc _ (ends_itemsTail (xs.map f) rest)
    obtain ⟨b, r, hb, hblank, hclose, -⟩ := render_eq_cons (f x) (hf x List.mem_cons_self)
    rw [hb, List.cons_append] at hx
    rw [List.map_cons, itemsTail_cons, hb, List.cons_append,
      items_step (nextItem_comma hblank hclose _) hx,
      ih (fun y hy => hf y (List.mem_cons_of_mem x hy))
        (fun y hy => h y (List.mem_cons_of_mem x hy)) (Nat.lt_of_succ_lt_succ hn)]
    simp

/-- A list is read back from behind its opening bracket. -/
theorem items_render {xs : List α} (hf : ∀ x ∈ xs, ∀ bits, f x ≠ .double bits)
    (h : ∀ x ∈ xs, Reads read (f x).render x) (rest : Bytes) :
    ∃ r, (Value.array (xs.map f)).render ++ rest = openList :: r ∧
      items (gather read) r true [] r = .ok (xs.reverse, rest) := by
  cases xs with
  | nil => exact ⟨closeList :: rest, rfl, rfl⟩
  | cons x xs =>
    have hx := (h x List.mem_cons_self).gather [] _ (ends_itemsTail (xs.map f) rest)
    obtain ⟨b, r, hb, hblank, hclose, -⟩ := render_eq_cons (f x) (hf x List.mem_cons_self)
    rw [hb, List.cons_append] at hx
    have hrounds := length_lt_itemsTail (xs.map f) rest
    rw [List.length_map] at hrounds
    refine ⟨b :: (r ++ (encodeChars (Value.itemsTail (xs.map f)) ++ rest)), ?_, ?_⟩
    · rw [List.map_cons, render_array_cons, hb]
      simp
    · rw [items_step (nextItem_first hblank hclose _) hx,
        items_itemsTail (fun y hy => hf y (List.mem_cons_of_mem x hy))
          (fun y hy => h y (List.mem_cons_of_mem x hy)) (by rw [List.length_append]; omega)]
      simp

end Items

/-! ## Objects -/

/-- `entry` takes some fields one after the other and goes from one state to another. -/
inductive Fills (entry : σ → String → Except Fault (Reader σ)) :
    σ → List (String × Value) → σ → Prop
  | nil (s : σ) : Fills entry s [] s
  | cons {s t u : σ} {name : String} {v : Value} {fields : List (String × Value)}
      {read : Reader σ} (hentry : entry s name = .ok read) (hread : Reads read v.render t)
      (hfields : Fills entry t fields u) : Fills entry s ((name, v) :: fields) u

theorem fieldsTail_nil (rest : Bytes) :
    encodeChars (Value.fieldsTail []) ++ rest = closeObject :: rest := rfl

theorem fieldsTail_cons (name : String) (v : Value) (fields : List (String × Value))
    (rest : Bytes) :
    encodeChars (Value.fieldsTail ((name, v) :: fields)) ++ rest =
      comma :: quoteByte :: (escaped name ++ quoteByte :: colon ::
        (v.render ++ (encodeChars (Value.fieldsTail fields) ++ rest))) := by
  have hcomma : encodeChar ',' = [comma] := rfl
  have hcolon : encodeChar ':' = [colon] := rfl
  show encodeChars (',' :: quote name ++ ':' :: v.chars ++ Value.fieldsTail fields) ++ rest =
    comma :: quoteByte :: (_ ++ quoteByte :: colon :: (encodeChars v.chars ++ _))
  simp [hcomma, hcolon, encodeChars_quote]

theorem length_lt_fieldsTail (fields : List (String × Value)) (rest : Bytes) :
    fields.length < (encodeChars (Value.fieldsTail fields) ++ rest).length := by
  induction fields with
  | nil => simp [fieldsTail_nil]
  | cons f fields ih =>
    obtain ⟨name, v⟩ := f
    simp only [fieldsTail_cons, List.length_cons, List.length_append] at ih ⊢
    omega

theorem ends_fieldsTail (fields : List (String × Value)) (rest : Bytes) :
    Ends (encodeChars (Value.fieldsTail fields) ++ rest) := by
  cases fields with
  | nil => exact ends_closeObject rest
  | cons f fields =>
    rw [fieldsTail_cons]
    exact ends_comma _

theorem nextName_first (r : Bytes) : nextName true (quoteByte :: r) = .ok (some r, r) := rfl

theorem nextName_comma (r : Bytes) :
    nextName false (comma :: quoteByte :: r) = .ok (some r, r) := rfl

section Entries

variable {entry : σ → String → Except Fault (Reader σ)}

theorem entries_step {first : Bool} {s t : σ} {name : String} {read : Reader σ}
    {bs cs ds : Bytes} (hentry : entry s name = .ok read)
    (hnext : nextName first bs =
      .ok (some (escaped name ++ quoteByte :: colon :: cs),
        escaped name ++ quoteByte :: colon :: cs))
    (hread : read cs = .ok (t, ds)) (w : UInt8) (rounds : Bytes) :
    entries entry (w :: rounds) first s bs = entries entry rounds false t ds := by
  have hcolon : skipColon (colon :: cs) = .ok cs := rfl
  rw [entries.eq_def]
  simp only [hnext, text_quoted, hentry, hcolon, hread]

theorem Fills.append {s t u : σ} {fields more : List (String × Value)}
    (h : Fills entry s fields t) (hmore : Fills entry t more u) :
    Fills entry s (fields ++ more) u := by
  induction h with
  | nil s => exact hmore
  | cons hentry hread _ ih => exact .cons hentry hread (ih hmore)

/-- The first fields are taken one after the other, whatever comes behind them. -/
theorem entries_fieldsTail_append {s t : σ} {fields : List (String × Value)}
    (h : Fills entry s fields t) {rounds : Bytes} (hn : fields.length < rounds.length)
    (more : List (String × Value)) (rest : Bytes) :
    ∃ left, fields.length + left.length = rounds.length ∧
      entries entry rounds false s (encodeChars (Value.fieldsTail (fields ++ more)) ++ rest) =
        entries entry left false t (encodeChars (Value.fieldsTail more) ++ rest) := by
  induction h generalizing rounds with
  | nil s => exact ⟨rounds, Nat.zero_add _, rfl⟩
  | @cons s t u name v fields read hentry hread _ ih =>
    obtain ⟨_, rounds, rfl⟩ := List.exists_cons_of_length_pos (Nat.zero_lt_of_lt hn)
    obtain ⟨left, hleft, hrun⟩ := ih (Nat.lt_of_succ_lt_succ hn)
    refine ⟨left, ?_, ?_⟩
    · rw [List.length_cons, List.length_cons, ← hleft]
      omega
    · rw [List.cons_append, fieldsTail_cons, entries_step hentry (nextName_comma _)
        (hread _ (ends_fieldsTail (fields ++ more) rest)), hrun]

/-- An object is read from behind its opening bracket.  When its first fields are taken, there are
rounds left for the others. -/
theorem entries_render_append {s t : σ} {f : String × Value} {fields : List (String × Value)}
    (h : Fills entry s (f :: fields) t) (more : List (String × Value)) (rest : Bytes) :
    ∃ r left, (Value.object (f :: fields ++ more)).render ++ rest = openObject :: r ∧
      left ≠ [] ∧ entries entry r true s r =
        entries entry left false t (encodeChars (Value.fieldsTail more) ++ rest) := by
  cases h with
  | @cons _ t _ name v fields read hentry hread hfields =>
    have hrounds := length_lt_fieldsTail (fields ++ more) rest
    rw [List.length_append] at hrounds
    have hn : fields.length < (escaped name ++ quoteByte :: colon :: (v.render ++
        (encodeChars (Value.fieldsTail (fields ++ more)) ++ rest))).length := by
      simp only [List.length_append, List.length_cons] at hrounds ⊢
      omega
    obtain ⟨left, hleft, hrun⟩ := entries_fieldsTail_append hfields hn more rest
    refine ⟨_, left, render_object_cons name v (fields ++ more) rest, ?_, ?_⟩
    · rintro rfl
      rw [List.length_nil, Nat.add_zero] at hleft
      exact absurd hn (by omega)
    · rw [entries_step hentry (nextName_first _) (hread _ (ends_fieldsTail (fields ++ more) rest)),
        hrun]

/-- An object is read back from behind its opening bracket. -/
theorem entries_render {s u : σ} {fields : List (String × Value)} (h : Fills entry s fields u)
    (rest : Bytes) :
    ∃ r, (Value.object fields).render ++ rest = openObject :: r ∧
      entries entry r true s r = .ok (u, rest) := by
  cases fields with
  | nil =>
    cases h
    exact ⟨closeObject :: rest, rfl, rfl⟩
  | cons f fields =>
    obtain ⟨r, left, hr, hleft, hrun⟩ := entries_render_append h [] rest
    obtain ⟨_, left, rfl⟩ := List.exists_cons_of_ne_nil hleft
    rw [List.append_nil] at hr
    exact ⟨r, hr, hrun⟩

end Entries

/-! ## Values -/

namespace Value

/-- A value that nests at most `depth` containers, with whole numbers of one word for its
numbers and the fields of its objects in ascending order, each once. -/
inductive Plain : Nat → Value → Prop
  | null (depth : Nat) : Plain depth .null
  | bool (depth : Nat) (b : Bool) : Plain depth (.bool b)
  | integer (depth : Nat) {i : Int} (le : Word.intMin 64 ≤ i) (ge : i ≤ Word.natMax 64) :
      Plain depth (.integer i)
  | text (depth : Nat) (s : String) : Plain depth (.text s)
  | array {depth : Nat} {vs : List Value} (items : ∀ v ∈ vs, Plain depth v) :
      Plain (depth + 1) (.array vs)
  | object {depth : Nat} {fields : List (String × Value)}
      (ascending : fields.Pairwise fun f g => f.1 < g.1)
      (values : ∀ f ∈ fields, Plain depth f.2) : Plain (depth + 1) (.object fields)

theorem Plain.ne_double {depth : Nat} {v : Value} (h : Plain depth v) (bits : UInt64) :
    v ≠ .double bits := by
  rintro rfl
  cases h

theorem put_of_forall_lt {name : String} {v : Value} {fields : List (String × Value)}
    (h : ∀ f ∈ fields, f.1 < name) : put name v fields = fields ++ [(name, v)] := by
  induction fields with
  | nil => rfl
  | cons f fields ih =>
    have hf : f.1 < name := h f List.mem_cons_self
    have hne : name ≠ f.1 := (ne_of_lt hf).symm
    have hnot : ¬ name < f.1 := lt_asymm hf
    rw [put, if_neg hne, if_neg hnot, ih fun g hg => h g (List.mem_cons_of_mem f hg)]
    rfl

end Value

/-- Set a field to what `read` makes of it. -/
def enter (read : Reader Value) (acc : List (String × Value)) (name : String) :
    Except Fault (Reader (List (String × Value))) :=
  .ok fun bs => (read bs).map fun (v, r) => (Value.put name v acc, r)

theorem fills_enter {read : Reader Value} {acc fields : List (String × Value)}
    (hasc : (acc ++ fields).Pairwise fun f g => f.1 < g.1)
    (h : ∀ f ∈ fields, Reads read f.2.render f.2) :
    Fills (enter read) acc fields (acc ++ fields) := by
  induction fields generalizing acc with
  | nil =>
    rw [List.append_nil]
    exact .nil acc
  | cons f fields ih =>
    have hlt : ∀ g ∈ acc, g.1 < f.1 := fun g hg =>
      (List.pairwise_append.mp hasc).2.2 g hg f List.mem_cons_self
    have happ : acc ++ f :: fields = acc ++ [f] ++ fields := by simp
    have hread := (h f List.mem_cons_self).map fun v => Value.put f.1 v acc
    rw [Value.put_of_forall_lt hlt] at hread
    rw [happ] at hasc ⊢
    exact .cons rfl hread (ih hasc fun g hg => h g (List.mem_cons_of_mem f hg))

theorem reads_value {depth : Nat} {v : Value} (h : v.Plain depth) :
    Reads (value depth) v.render v := by
  induction h with
  | null depth =>
    intro rest _
    rw [value.eq_def]
    rfl
  | bool depth b =>
    intro rest _
    rw [value.eq_def]
    cases b <;> rfl
  | @integer depth i le ge =>
    intro rest hr
    by_cases h : i < 0
    · rw [render_neg h, List.cons_append, value.eq_def, skipBlanks_cons rfl]
      dsimp only
      rw [if_neg (by decide), if_neg (by decide), if_neg (by decide), if_pos rfl,
        number_neg h le hr]
    · obtain ⟨b, r, hb, hdigit⟩ := digitBytes_digitsOf_eq_cons i.natAbs
      have hread := number_nonneg (by omega) ge hr
      rw [render_nonneg h]
      rw [hb, List.cons_append] at hread ⊢
      have hne {c : UInt8} (hc : isDigit c = false) : b ≠ c := ne_of_isDigit hdigit hc
      rw [value.eq_def, skipBlanks_cons (not_isBlank_of_isDigit hdigit)]
      dsimp only
      rw [if_neg (hne rfl), if_neg (hne rfl), if_neg (hne rfl), if_neg (hne rfl),
        if_pos hdigit, hread]
  | text depth s =>
    intro rest _
    rw [render_text, value.eq_def, skipBlanks_cons rfl]
    dsimp only
    rw [if_neg (by decide), if_neg (by decide), if_neg (by decide), if_neg (by decide),
      if_neg (by decide), if_pos rfl, text_quoted]
    rfl
  | @array depth vs plain ih =>
    intro rest _
    have hne : ∀ v ∈ vs, ∀ bits, id v ≠ .double bits := fun v hv => (plain v hv).ne_double
    obtain ⟨r, hr, hitems⟩ := items_render hne ih rest
    rw [List.map_id] at hr
    rw [hr, value.eq_def, skipBlanks_cons rfl]
    dsimp only
    rw [if_neg (by decide), if_neg (by decide), if_neg (by decide), if_neg (by decide),
      if_neg (by decide), if_neg (by decide), if_pos rfl]
    show (items (gather (value depth)) r true [] r).map _ = _
    rw [hitems]
    simp [Except.map]
  | @object depth fields ascending values ih =>
    intro rest _
    have hfills : Fills (enter (value depth)) [] fields fields := fills_enter ascending ih
    obtain ⟨r, hr, hentries⟩ := entries_render hfills rest
    rw [hr, value.eq_def, skipBlanks_cons rfl]
    dsimp only
    rw [if_neg (by decide), if_neg (by decide), if_neg (by decide), if_neg (by decide),
      if_neg (by decide), if_neg (by decide), if_neg (by decide), if_pos rfl]
    show (entries (enter (value depth)) r true [] r).map _ = _
    rw [hentries]
    rfl

end Json
end Colloquy
