/-
What a reader makes of a value.

Every reader makes the same of a well-formed value wherever it stands, also where it refuses it.
So a list comes to what its items come to one after the other, and an object to what its fields
come to.
-/
import Colloquy.Message.Wire
import Colloquy.Proofs.Scanning

namespace Colloquy
namespace Json

variable {α β σ δ : Type}

/-- `read` comes to `o` on `v`, whatever blanks stand in front of it. -/
def Makes (read : Reader α) (v : Bytes) (o : Option α) : Prop :=
  ∀ ws rest, Blank ws → Ends rest → (read (ws ++ (v ++ rest))).toOption = o.map (·, rest)

/-- What `read` makes of `v` alone. -/
def take (read : Reader α) (v : Bytes) : Option α := (read v).toOption.map Prod.fst

/-- `read` makes the same of `v` wherever it stands. -/
def Settled (read : Reader α) (v : Bytes) : Prop := Makes read v (take read v)

theorem Fixed.take_eq {read : Reader α} {v : Bytes} {o : Option α} (h : Fixed read v o) :
    take read v = o := by
  have hv := h [] trivial
  rw [List.append_nil] at hv
  rw [take, hv]
  cases o <;> rfl

theorem Makes.fixed {read : Reader α} {v : Bytes} {o : Option α} (h : Makes read v o) :
    Fixed read v o := fun rest hr => h [] rest blank_nil hr

theorem Makes.take_eq {read : Reader α} {v : Bytes} {o : Option α} (h : Makes read v o) :
    take read v = o := h.fixed.take_eq

theorem Makes.settled {read : Reader α} {v : Bytes} {o : Option α} (h : Makes read v o) :
    Settled read v := by
  rw [Settled, h.take_eq]
  exact h

theorem Makes.map {read : Reader α} {v : Bytes} {o : Option α} (h : Makes read v o) (f : α → β) :
    Makes (fun bs => (read bs).map fun (x, r) => (f x, r)) v (o.map f) := by
  intro ws rest hws hr
  show ((read (ws ++ (v ++ rest))).map fun (x, r) => (f x, r)).toOption = _
  rw [toOption_map, h ws rest hws hr]
  cases o <;> rfl

/-- `read` begins at the first byte that is no blank. -/
def Skips (read : Reader α) : Prop := ∀ bs, read bs = read (skipBlanks bs)

theorem Skips.makes {read : Reader α} {v : Bytes} {o : Option α} (hs : Skips read)
    (hv : IsValue v) (h : Fixed read v o) : Makes read v o := by
  obtain ⟨b, r, rfl, hb, -⟩ := hv.cons
  intro ws rest hws hr
  rw [hs, skipBlanks_append hws, List.cons_append, skipBlanks_cons hb, ← List.cons_append]
  exact h rest hr

theorem Skips.settled {read : Reader α} {v : Bytes} (hs : Skips read) (hv : IsValue v)
    (h : ∃ o, Fixed read v o) : Settled read v := by
  obtain ⟨o, ho⟩ := h
  exact (hs.makes hv ho).settled

/-- `read` makes the same of a well-formed value wherever it stands. -/
def Local (read : Reader α) : Prop := ∀ v, IsValue v → Settled read v

theorem Skips.local {read : Reader α} (hs : Skips read)
    (h : ∀ v, IsValue v → ∃ o, Fixed read v o) : Local read :=
  fun v hv => hs.settled hv (h v hv)

theorem Local.map {read : Reader α} (h : Local read) (f : α → β) :
    Local fun bs => (read bs).map fun (x, r) => (f x, r) :=
  fun v hv => ((h v hv).map f).settled

/-! ## Lists -/

/-- The pieces behind another one, up to a closing bracket and what stands behind it. -/
def onwards (close : UInt8) (ps : List Bytes) (rest : Bytes) : Bytes :=
  ps.flatMap (comma :: ·) ++ close :: rest

theorem onwards_cons (close : UInt8) (p : Bytes) (ps : List Bytes) (rest : Bytes) :
    onwards close (p :: ps) rest = comma :: (p ++ onwards close ps rest) := by
  rw [onwards, List.flatMap_cons, List.append_assoc]
  rfl

theorem commas_cons_append (close : UInt8) (p : Bytes) (ps : List Bytes) (rest : Bytes) :
    commas (p :: ps) ++ close :: rest = p ++ onwards close ps rest := List.append_assoc _ _ _

theorem ends_onwards {close : UInt8} (hclose : ∀ r, Ends (close :: r)) (ps : List Bytes)
    (rest : Bytes) : Ends (onwards close ps rest) := by
  cases ps with
  | nil => exact hclose rest
  | cons p ps =>
    rw [onwards_cons]
    exact ends_comma _

theorem length_lt_onwards (close : UInt8) (ps : List Bytes) (rest : Bytes) :
    ps.length < (onwards close ps rest).length := by
  induction ps with
  | nil => exact Nat.succ_pos _
  | cons p ps ih =>
    rw [onwards_cons, List.length_cons, List.length_cons, List.length_append]
    omega

theorem length_le_commas {p : Bytes} {ps : List Bytes} (h : p ∈ ps) :
    p.length ≤ (commas ps).length := by
  cases ps with
  | nil => cases h
  | cons q ps =>
    rw [commas, List.length_append]
    rcases List.mem_cons.mp h with rfl | h
    · exact Nat.le_add_right _ _
    · have hp : (comma :: p).length ≤ (ps.flatMap (comma :: ·)).length :=
        (List.sublist_flatten_of_mem (List.mem_map_of_mem h)).length_le
      rw [List.length_cons] at hp
      omega

theorem length_lt_commas (close : UInt8) {ps : List Bytes} (h : ∀ p ∈ ps, p ≠ []) (rest : Bytes) :
    ps.length < (commas ps ++ close :: rest).length := by
  cases ps with
  | nil => exact Nat.succ_pos _
  | cons p ps =>
    have hp := List.length_pos_iff.mpr (h p List.mem_cons_self)
    have hps := length_lt_onwards close ps rest
    rw [commas_cons_append, List.length_append, List.length_cons]
    omega

theorem length_lt_padded {ps : List Padded} (h : ∀ p ∈ ps, IsValue p.text) (rest : Bytes) :
    ps.length < (commas (ps.map Padded.bytes) ++ closeList :: rest).length := by
  have hne : ∀ b ∈ ps.map Padded.bytes, b ≠ [] := by
    refine List.forall_mem_map.mpr fun p hp => ?_
    obtain ⟨b, r, hb, -⟩ := (h p hp).cons
    simp [Padded.bytes, hb]
  have hlength := length_lt_commas closeList hne rest
  rwa [List.length_map] at hlength

theorem length_lt_fields (fs : List Field) (rest : Bytes) :
    fs.length < (commas (fs.map Field.bytes) ++ closeObject :: rest).length := by
  have hne : ∀ b ∈ fs.map Field.bytes, b ≠ [] :=
    List.forall_mem_map.mpr fun f _ => by simp [Field.bytes]
  have hlength := length_lt_commas closeObject hne rest
  rwa [List.length_map] at hlength

theorem Padded.bytes_append (p : Padded) (rest : Bytes) :
    p.bytes ++ rest = p.before ++ (p.text ++ (p.after ++ rest)) := by
  simp only [bytes, List.append_assoc]

theorem nextItem_close (first : Bool) {ws : Bytes} (hws : Blank ws) (rest : Bytes) :
    nextItem first (ws ++ closeList :: rest) = .ok (none, closeList :: rest) := by
  rw [nextItem, skipBlanks_append hws, skipBlanks_cons rfl]
  exact if_pos rfl

theorem endList_close {ws : Bytes} (hws : Blank ws) (rest : Bytes) :
    endList (ws ++ closeList :: rest) = .ok rest := by
  rw [endList, skipBlanks_append hws, skipBlanks_cons rfl]
  exact if_pos rfl

theorem nextItem_first_padded {p : Padded} (hp : p.Spaced) (hv : IsValue p.text) (rest : Bytes) :
    nextItem true (p.bytes ++ rest) =
      .ok (some (p.text ++ (p.after ++ rest)), p.text ++ (p.after ++ rest)) := by
  obtain ⟨b, r, hb, hblank, hclose⟩ := hv.cons
  rw [p.bytes_append, hb, nextItem, skipBlanks_append hp.before, List.cons_append,
    skipBlanks_cons hblank]
  dsimp only
  rw [if_neg hclose]
  rfl

theorem nextItem_comma_padded {p : Padded} (hp : p.Spaced) (hv : IsValue p.text) {ws : Bytes}
    (hws : Blank ws) (rest : Bytes) :
    nextItem false (ws ++ comma :: (p.bytes ++ rest)) =
      .ok (some (p.text ++ (p.after ++ rest)), p.text ++ (p.after ++ rest)) := by
  obtain ⟨b, r, hb, hblank, hclose⟩ := hv.cons
  rw [p.bytes_append, hb, nextItem, skipBlanks_append hws, skipBlanks_cons rfl]
  dsimp only
  rw [if_neg (by decide), if_neg (by decide), if_pos rfl, skipBlanks_append hp.before,
    List.cons_append, skipBlanks_cons hblank]
  dsimp only
  rw [if_neg hclose]

section Items

variable {item : σ → Reader σ}

theorem items_close (first : Bool) {rounds ws : Bytes} (hws : Blank ws)
    (hn : 0 < rounds.length) (rest : Bytes) (acc : σ) :
    items item rounds first acc (ws ++ closeList :: rest) = .ok (acc, rest) := by
  obtain ⟨w, rounds, rfl⟩ := List.exists_cons_of_length_pos hn
  have hend := endList_close blank_nil rest
  rw [List.nil_append] at hend
  rw [items.eq_def]
  simp only [nextItem_close first hws, hend]

theorem items_cons {first : Bool} {bs v after : Bytes}
    (hnext : nextItem first bs = .ok (some (v ++ after), v ++ after)) {acc : σ}
    (hitem : Settled (item acc) v) (hafter : Ends after) (w : UInt8) (rounds : Bytes) :
    (items item (w :: rounds) first acc bs).toOption =
      (take (item acc) v).bind fun acc => (items item rounds false acc after).toOption := by
  have hread := hitem.fixed after hafter
  rw [items.eq_def]
  simp only [hnext]
  obtain ⟨htake, why, hread⟩ | ⟨acc, htake, hread⟩ := read_cases hread
  · rw [htake, hread]
    rfl
  · rw [htake, hread]
    rfl

variable {ps : List Padded}

/-- Each item is taken in its turn. -/
theorem items_onwards (hspaced : ∀ p ∈ ps, p.Spaced) (hvalue : ∀ p ∈ ps, IsValue p.text)
    (h : ∀ p ∈ ps, ∀ acc, Settled (item acc) p.text) {rounds ws : Bytes}
    (hn : ps.length < rounds.length) (hws : Blank ws) (acc : σ) (rest : Bytes) :
    (items item rounds false acc
      (ws ++ onwards closeList (ps.map Padded.bytes) rest)).toOption =
      (ps.foldlM (fun acc p => take (item acc) p.text) acc).map (·, rest) := by
  induction ps generalizing rounds acc ws with
  | nil => exact congrArg Except.toOption (items_close false hws hn rest acc)
  | cons p ps ih =>
    obtain ⟨w, rounds, rfl⟩ := List.exists_cons_of_length_pos (Nat.zero_lt_of_lt hn)
    obtain ⟨hp, hps⟩ := List.forall_mem_cons.mp hspaced
    obtain ⟨hpv, hpsv⟩ := List.forall_mem_cons.mp hvalue
    obtain ⟨hitem, hitems⟩ := List.forall_mem_cons.mp h
    rw [List.map_cons, onwards_cons, items_cons (nextItem_comma_padded hp hpv hws _) (hitem acc)
      ((ends_onwards ends_closeList _ rest).blanks hp.after), List.foldlM_cons]
    cases take (item acc) p.text with
    | none => rfl
    | some acc => exact ih hps hpsv hitems (Nat.lt_of_succ_lt_succ hn) hp.after acc

/-- The items of a list, from behind its opening bracket. -/
theorem items_commas (hspaced : ∀ p ∈ ps, p.Spaced) (hvalue : ∀ p ∈ ps, IsValue p.text)
    (h : ∀ p ∈ ps, ∀ acc, Settled (item acc) p.text) {rounds : Bytes}
    (hn : ps.length < rounds.length) (acc : σ) (rest : Bytes) :
    (items item rounds true acc (commas (ps.map Padded.bytes) ++ closeList :: rest)).toOption =
      (ps.foldlM (fun acc p => take (item acc) p.text) acc).map (·, rest) := by
  cases ps with
  | nil => exact congrArg Except.toOption (items_close true blank_nil hn rest acc)
  | cons p ps =>
    obtain ⟨w, rounds, rfl⟩ := List.exists_cons_of_length_pos (Nat.zero_lt_of_lt hn)
    obtain ⟨hp, hps⟩ := List.forall_mem_cons.mp hspaced
    obtain ⟨hpv, hpsv⟩ := List.forall_mem_cons.mp hvalue
    obtain ⟨hitem, hitems⟩ := List.forall_mem_cons.mp h
    rw [List.map_cons, commas_cons_append, items_cons (nextItem_first_padded hp hpv _) (hitem acc)
      ((ends_onwards ends_closeList _ rest).blanks hp.after), List.foldlM_cons]
    cases take (item acc) p.text with
    | none => rfl
    | some acc =>
      exact items_onwards hps hpsv hitems (Nat.lt_of_succ_lt_succ hn) hp.after acc rest

end Items

/-! ## Objects -/

namespace Field

/-- The name of a field, if what is spelled between its quotes is text. -/
def name? (f : Field) : Option String := take text (f.spelling ++ [quoteByte])

/-- A field from behind the quote that opens its name. -/
def opened (f : Field) (rest : Bytes) : Bytes :=
  f.spelling ++ quoteByte :: (f.between ++ colon :: (f.value.bytes ++ rest))

variable {f : Field}

theorem bytes_append (f : Field) (rest : Bytes) :
    f.bytes ++ rest = f.before ++ quoteByte :: f.opened rest := by
  simp only [bytes, opened, List.append_assoc, List.cons_append]

theorem toOption_text (hf : f.Spaced) (rest : Bytes) :
    (text (f.spelling ++ quoteByte :: rest)).toOption = f.name?.map (·, rest) := by
  obtain ⟨o, ho⟩ := text_spelling hf.spelling
  have hname : f.name? = o := by
    rw [name?, take, ho]
    cases o <;> rfl
  rw [ho, hname]

end Field

theorem skipColon_append {ws : Bytes} (hws : Blank ws) (rest : Bytes) :
    skipColon (ws ++ colon :: rest) = .ok rest := by
  rw [skipColon, skipBlanks_append hws, skipBlanks_cons rfl]
  exact if_pos rfl

theorem nextName_close (first : Bool) {ws : Bytes} (hws : Blank ws) (rest : Bytes) :
    nextName first (ws ++ closeObject :: rest) = .ok (none, rest) := by
  rw [nextName, skipBlanks_append hws, skipBlanks_cons rfl]
  exact if_pos rfl

theorem nextName_first_field {f : Field} (hf : f.Spaced) (rest : Bytes) :
    nextName true (f.bytes ++ rest) = .ok (some (f.opened rest), f.opened rest) := by
  rw [f.bytes_append, nextName, skipBlanks_append hf.before, skipBlanks_cons rfl]
  rfl

theorem nextName_comma_field {f : Field} (hf : f.Spaced) {ws : Bytes} (hws : Blank ws)
    (rest : Bytes) :
    nextName false (ws ++ comma :: (f.bytes ++ rest)) =
      .ok (some (f.opened rest), f.opened rest) := by
  rw [f.bytes_append, nextName, skipBlanks_append hws, skipBlanks_cons rfl]
  dsimp only
  rw [if_neg (by decide), if_neg (by decide), if_pos rfl, skipBlanks_append hf.before,
    skipBlanks_cons rfl]
  rfl

/-- What a field makes of a state. -/
def fill (entry : σ → String → Except Fault (Reader σ)) (s : σ) (f : Field) : Option σ :=
  f.name?.bind fun name => (entry s name).toOption.bind fun read => take read f.value.text

section Entries

variable {entry : σ → String → Except Fault (Reader σ)}

theorem entries_close (first : Bool) {rounds ws : Bytes} (hws : Blank ws)
    (hn : 0 < rounds.length) (rest : Bytes) (s : σ) :
    entries entry rounds first s (ws ++ closeObject :: rest) = .ok (s, rest) := by
  obtain ⟨w, rounds, rfl⟩ := List.exists_cons_of_length_pos hn
  rw [entries.eq_def]
  simp only [nextName_close first hws]

theorem entries_cons {first : Bool} {bs rest : Bytes} {f : Field} (hf : f.Spaced)
    (hnext : nextName first bs = .ok (some (f.opened rest), f.opened rest)) {s : σ}
    (hread : ∀ name read, entry s name = .ok read → Settled read f.value.text)
    (hrest : Ends (f.value.after ++ rest)) (w : UInt8) (rounds : Bytes) :
    (entries entry (w :: rounds) first s bs).toOption =
      (fill entry s f).bind fun s =>
        (entries entry rounds false s (f.value.after ++ rest)).toOption := by
  have htext := f.toOption_text hf (f.between ++ colon :: (f.value.bytes ++ rest))
  have hcolon := skipColon_append hf.between (f.value.bytes ++ rest)
  rw [entries.eq_def]
  simp only [hnext, Field.opened]
  rw [fill]
  obtain ⟨hname, why, htext⟩ | ⟨name, hname, htext⟩ := read_cases htext
  · rw [hname, htext]
    rfl
  · rw [hname, htext]
    dsimp only [Option.bind_some]
    cases hentry : entry s name with
    | error why => rfl
    | ok read =>
      have hvalue := hread name read hentry f.value.before _ hf.value.before hrest
      rw [← f.value.bytes_append] at hvalue
      simp only [hcolon]
      show _ = (take read f.value.text).bind _
      obtain ⟨htake, why, hvalue⟩ | ⟨s, htake, hvalue⟩ := read_cases hvalue
      · rw [htake, hvalue]
        rfl
      · rw [htake, hvalue]
        rfl

variable {fs : List Field}

/-- Each field is taken in its turn. -/
theorem entries_onwards (hspaced : ∀ f ∈ fs, f.Spaced)
    (h : ∀ f ∈ fs, ∀ s name read, entry s name = .ok read → Settled read f.value.text)
    {rounds ws : Bytes} (hn : fs.length < rounds.length) (hws : Blank ws) (s : σ) (rest : Bytes) :
    (entries entry rounds false s
      (ws ++ onwards closeObject (fs.map Field.bytes) rest)).toOption =
      (fs.foldlM (fill entry) s).map (·, rest) := by
  induction fs generalizing rounds s ws with
  | nil => exact congrArg Except.toOption (entries_close false hws hn rest s)
  | cons f fs ih =>
    obtain ⟨w, rounds, rfl⟩ := List.exists_cons_of_length_pos (Nat.zero_lt_of_lt hn)
    obtain ⟨hf, hfs⟩ := List.forall_mem_cons.mp hspaced
    obtain ⟨hread, hreads⟩ := List.forall_mem_cons.mp h
    rw [List.map_cons, onwards_cons, entries_cons hf (nextName_comma_field hf hws _) (hread s)
      ((ends_onwards ends_closeObject _ rest).blanks hf.value.after), List.foldlM_cons]
    cases fill entry s f with
    | none => rfl
    | some s => exact ih hfs hreads (Nat.lt_of_succ_lt_succ hn) hf.value.after s

/-- The fields of an object, from behind its opening bracket. -/
theorem entries_commas (hspaced : ∀ f ∈ fs, f.Spaced)
    (h : ∀ f ∈ fs, ∀ s name read, entry s name = .ok read → Settled read f.value.text)
    {rounds : Bytes} (hn : fs.length < rounds.length) (s : σ) (rest : Bytes) :
    (entries entry rounds true s (commas (fs.map Field.bytes) ++ closeObject :: rest)).toOption =
      (fs.foldlM (fill entry) s).map (·, rest) := by
  cases fs with
  | nil => exact congrArg Except.toOption (entries_close true blank_nil hn rest s)
  | cons f fs =>
    obtain ⟨w, rounds, rfl⟩ := List.exists_cons_of_length_pos (Nat.zero_lt_of_lt hn)
    obtain ⟨hf, hfs⟩ := List.forall_mem_cons.mp hspaced
    obtain ⟨hread, hreads⟩ := List.forall_mem_cons.mp h
    rw [List.map_cons, commas_cons_append, entries_cons hf (nextName_first_field hf _) (hread s)
      ((ends_onwards ends_closeObject _ rest).blanks hf.value.after), List.foldlM_cons]
    cases fill entry s f with
    | none => rfl
    | some s => exact entries_onwards hfs hreads (Nat.lt_of_succ_lt_succ hn) hf.value.after s rest

end Entries

/-! ## Values -/

theorem value_openList (depth : Nat) (r : Bytes) :
    value (depth + 1) (openList :: r) =
      (items (gather (value depth)) r true [] r).map fun (acc, r) => (.array acc.reverse, r) := by
  rw [value.eq_def]
  rfl

theorem value_openObject (depth : Nat) (r : Bytes) :
    value (depth + 1) (openObject :: r) =
      (entries (enter (value depth)) r true [] r).map fun (acc, r) => (.object acc, r) := by
  rw [value.eq_def]
  rfl

theorem value_quote (depth : Nat) (r : Bytes) :
    value depth (quoteByte :: r) = (text r).map fun (s, r) => (.text s, r) := by
  rw [value.eq_def]
  rfl

theorem value_of_isDigit {b : UInt8} (hb : isDigit b = true) (depth : Nat) (r : Bytes) :
    value depth (b :: r) = number false (b :: r) := by
  rw [value.eq_def]
  dsimp only
  rw [skipBlanks_cons (not_isBlank_of_isDigit hb)]
  dsimp only
  rw [if_neg (ne_of_isDigit hb rfl), if_neg (ne_of_isDigit hb rfl), if_neg (ne_of_isDigit hb rfl),
    if_neg (ne_of_isDigit hb rfl), if_pos hb]

theorem skips_value (depth : Nat) : Skips (value depth) := by
  intro bs
  rw [value.eq_def, value.eq_def depth (skipBlanks bs), skipBlanks_skipBlanks]

theorem listBytes_append (ps : List Padded) (rest : Bytes) :
    listBytes ps ++ rest = openList :: (commas (ps.map Padded.bytes) ++ closeList :: rest) := by
  simp [listBytes]

theorem objectBytes_append (fs : List Field) (rest : Bytes) :
    objectBytes fs ++ rest =
      openObject :: (commas (fs.map Field.bytes) ++ closeObject :: rest) := by
  simp [objectBytes]

theorem local_value (depth : Nat) : Local (value depth) := by
  intro v hv
  refine (skips_value depth).settled hv ?_
  induction hv generalizing depth with
  | null => exact ⟨some .null, fun rest _ => by rw [value.eq_def]; rfl⟩
  | yes => exact ⟨some (.bool true), fun rest _ => by rw [value.eq_def]; rfl⟩
  | no => exact ⟨some (.bool false), fun rest _ => by rw [value.eq_def]; rfl⟩
  | unsigned h =>
    obtain ⟨o, ho⟩ := fixed_number false h
    obtain ⟨b, r, rfl, hb⟩ := h.cons
    refine ⟨o, fun rest hr => ?_⟩
    rw [← ho rest hr, List.cons_append, value_of_isDigit hb]
  | negative h =>
    obtain ⟨o, ho⟩ := fixed_number true h
    refine ⟨o, fun rest hr => ?_⟩
    rw [← ho rest hr, value.eq_def]
    rfl
  | @text s h =>
    obtain ⟨o, ho⟩ := text_spelling h
    refine ⟨o.map .text, fun rest _ => ?_⟩
    rw [List.cons_append, List.append_assoc, List.singleton_append, value_quote, toOption_map, ho]
    cases o <;> rfl
  | @noItems ws h =>
    cases depth with
    | zero => exact ⟨none, fun rest _ => by rw [value.eq_def]; rfl⟩
    | succ depth =>
      refine ⟨some (.array []), fun rest _ => ?_⟩
      rw [List.cons_append, List.append_assoc, value_openList, List.singleton_append,
        items_close true h (by simp)]
      rfl
  | @list ps hspaced hvalue ih =>
    cases depth with
    | zero => exact ⟨none, fun rest _ => by rw [value.eq_def]; rfl⟩
    | succ depth =>
      have hitem : ∀ p ∈ ps, ∀ acc, Settled (gather (value depth) acc) p.text :=
        fun p hp acc =>
          (((skips_value depth).settled (hvalue p hp) (ih p hp depth)).map (· :: acc)).settled
      refine ⟨(ps.foldlM (fun acc p => take (gather (value depth) acc) p.text) []).map fun acc =>
        .array acc.reverse, fun rest _ => ?_⟩
      rw [listBytes_append, value_openList, toOption_map,
        items_commas hspaced hvalue hitem (length_lt_padded hvalue rest), Option.map_map,
        Option.map_map]
      rfl
  | @noFields ws h =>
    cases depth with
    | zero => exact ⟨none, fun rest _ => by rw [value.eq_def]; rfl⟩
    | succ depth =>
      refine ⟨some (.object []), fun rest _ => ?_⟩
      rw [List.cons_append, List.append_assoc, value_openObject, List.singleton_append,
        entries_close true h (by simp)]
      rfl
  | @object fs hspaced hvalue ih =>
    cases depth with
    | zero => exact ⟨none, fun rest _ => by rw [value.eq_def]; rfl⟩
    | succ depth =>
      have hread : ∀ f ∈ fs, ∀ acc name read, enter (value depth) acc name = .ok read →
          Settled read f.value.text := by
        rintro f hf acc name _ ⟨⟩
        have hfield := (skips_value depth).settled (hvalue f hf) (ih f hf depth)
        exact (hfield.map (Value.put name · acc)).settled
      refine ⟨(fs.foldlM (fill (enter (value depth))) []).map .object, fun rest _ => ?_⟩
      rw [objectBytes_append, value_openObject, toOption_map,
        entries_commas hspaced hread (length_lt_fields fs rest), Option.map_map, Option.map_map]
      rfl

/-! ## Passing over values -/

theorem skips_skip (levels : Bytes) : Skips (skip levels) := by
  intro bs
  rw [skip.eq_def, skip.eq_def levels (skipBlanks bs), skipBlanks_skipBlanks]

theorem skip_openList (w : UInt8) (inner r : Bytes) :
    skip (w :: inner) (openList :: r) = items (fun _ bs => skip inner bs) r true () r := by
  rw [skip.eq_def]
  rfl

theorem skip_openObject (w : UInt8) (inner r : Bytes) :
    skip (w :: inner) (openObject :: r) = skip.skipEntries (skip inner) r true r := by
  rw [skip.eq_def]
  rfl

theorem skip_of_isDigit {b : UInt8} (hb : isDigit b = true) (levels r : Bytes) :
    skip levels (b :: r) = (skipNumber (b :: r)).map ((), ·) := by
  rw [skip.eq_def, skipBlanks_cons (not_isBlank_of_isDigit hb)]
  dsimp only
  rw [if_neg (ne_of_isDigit hb rfl), if_neg (ne_of_isDigit hb rfl), if_neg (ne_of_isDigit hb rfl),
    if_neg (ne_of_isDigit hb rfl), if_pos hb]

theorem skipEntries_close (read : Reader Unit) (first : Bool) {rounds ws : Bytes} (hws : Blank ws)
    (hn : 0 < rounds.length) (rest : Bytes) :
    skip.skipEntries read rounds first (ws ++ closeObject :: rest) = .ok ((), rest) := by
  obtain ⟨w, rounds, rfl⟩ := List.exists_cons_of_length_pos hn
  rw [skip.skipEntries.eq_def]
  simp only [nextName_close first hws]

theorem skipEntries_cons {read : Reader Unit} {first : Bool} {bs rest : Bytes} {f : Field}
    (hf : f.Spaced) (hnext : nextName first bs = .ok (some (f.opened rest), f.opened rest))
    (hread : Makes read f.value.text (some ())) (hrest : Ends (f.value.after ++ rest)) (w : UInt8)
    (rounds : Bytes) :
    skip.skipEntries read (w :: rounds) first bs =
      skip.skipEntries read rounds false (f.value.after ++ rest) := by
  have htext := skipText_spelling hf.spelling (f.between ++ colon :: (f.value.bytes ++ rest))
  have hcolon := skipColon_append hf.between (f.value.bytes ++ rest)
  have hvalue := ok_of_toOption (hread f.value.before _ hf.value.before hrest)
  rw [← f.value.bytes_append] at hvalue
  rw [skip.skipEntries.eq_def]
  simp only [hnext, Field.opened, htext, hcolon, hvalue]

section

variable {read : Reader Unit} {fs : List Field}

theorem skipEntries_onwards (hspaced : ∀ f ∈ fs, f.Spaced)
    (h : ∀ f ∈ fs, Makes read f.value.text (some ())) {rounds ws : Bytes}
    (hn : fs.length < rounds.length) (hws : Blank ws) (rest : Bytes) :
    skip.skipEntries read rounds false (ws ++ onwards closeObject (fs.map Field.bytes) rest) =
      .ok ((), rest) := by
  induction fs generalizing rounds ws with
  | nil => exact skipEntries_close read false hws hn rest
  | cons f fs ih =>
    obtain ⟨w, rounds, rfl⟩ := List.exists_cons_of_length_pos (Nat.zero_lt_of_lt hn)
    obtain ⟨hf, hfs⟩ := List.forall_mem_cons.mp hspaced
    obtain ⟨hread, hreads⟩ := List.forall_mem_cons.mp h
    rw [List.map_cons, onwards_cons, skipEntries_cons hf (nextName_comma_field hf hws _) hread
      ((ends_onwards ends_closeObject _ rest).blanks hf.value.after)]
    exact ih hfs hreads (Nat.lt_of_succ_lt_succ hn) hf.value.after

theorem skipEntries_commas (hspaced : ∀ f ∈ fs, f.Spaced)
    (h : ∀ f ∈ fs, Makes read f.value.text (some ())) {rounds : Bytes}
    (hn : fs.length < rounds.length) (rest : Bytes) :
    skip.skipEntries read rounds true (commas (fs.map Field.bytes) ++ closeObject :: rest) =
      .ok ((), rest) := by
  cases fs with
  | nil => exact skipEntries_close read true blank_nil hn rest
  | cons f fs =>
    obtain ⟨w, rounds, rfl⟩ := List.exists_cons_of_length_pos (Nat.zero_lt_of_lt hn)
    obtain ⟨hf, hfs⟩ := List.forall_mem_cons.mp hspaced
    obtain ⟨hread, hreads⟩ := List.forall_mem_cons.mp h
    rw [List.map_cons, commas_cons_append, skipEntries_cons hf (nextName_first_field hf _) hread
      ((ends_onwards ends_closeObject _ rest).blanks hf.value.after)]
    exact skipEntries_onwards hfs hreads (Nat.lt_of_succ_lt_succ hn) hf.value.after rest

end

theorem foldlM_eq_some {step : σ → α → Option σ} {xs : List α} {s : σ}
    (h : ∀ x ∈ xs, step s x = some s) : xs.foldlM step s = some s := by
  induction xs with
  | nil => rfl
  | cons x xs ih =>
    obtain ⟨hx, hxs⟩ := List.forall_mem_cons.mp h
    rw [List.foldlM_cons, hx]
    exact ih hxs

/-- A value is passed over if there are as many levels left as it has bytes. -/
theorem makes_skip {v : Bytes} (hv : IsValue v) {levels : Bytes} (hn : v.length ≤ levels.length) :
    Makes (skip levels) v (some ()) := by
  refine (skips_skip levels).makes hv ?_
  induction hv generalizing levels with
  | null => exact fun rest _ => by rw [skip.eq_def]; rfl
  | yes => exact fun rest _ => by rw [skip.eq_def]; rfl
  | no => exact fun rest _ => by rw [skip.eq_def]; rfl
  | unsigned h =>
    intro rest hr
    have hskip := skipNumber_append h hr
    obtain ⟨b, r, rfl, hb⟩ := h.cons
    rw [List.cons_append] at hskip ⊢
    rw [skip_of_isDigit hb, hskip]
    rfl
  | @negative u h =>
    intro rest hr
    have hread : skip levels (minus :: u ++ rest) = (skipNumber (u ++ rest)).map ((), ·) := by
      rw [skip.eq_def]
      rfl
    rw [hread, skipNumber_append h hr]
    rfl
  | @text s h =>
    intro rest _
    have hread : skip levels (quoteByte :: (s ++ [quoteByte]) ++ rest) =
        (skipText (s ++ quoteByte :: rest)).map ((), ·) := by
      rw [skip.eq_def, List.cons_append, List.append_assoc]
      rfl
    rw [hread, skipText_spelling h]
    rfl
  | @noItems ws h =>
    intro rest _
    obtain ⟨w, levels, rfl⟩ := List.exists_cons_of_length_pos (Nat.zero_lt_of_lt hn)
    rw [List.cons_append, List.append_assoc, skip_openList, List.singleton_append,
      items_close true h (by simp)]
    rfl
  | @list ps hspaced hvalue ih =>
    intro rest _
    obtain ⟨w, inner, rfl⟩ := List.exists_cons_of_length_pos (Nat.zero_lt_of_lt hn)
    have hitem : ∀ p ∈ ps, Makes (skip inner) p.text (some ()) := by
      intro p hp
      refine (skips_skip inner).makes (hvalue p hp) (ih p hp ?_)
      have hlength := length_le_commas (List.mem_map_of_mem (f := Padded.bytes) hp)
      simp only [listBytes, Padded.bytes, List.length_append, List.length_cons] at hn hlength
      omega
    rw [listBytes_append, skip_openList, items_commas hspaced hvalue
      (fun p hp _ => (hitem p hp).settled) (length_lt_padded hvalue rest),
      foldlM_eq_some fun p hp => (hitem p hp).take_eq]
  | @noFields ws h =>
    intro rest _
    obtain ⟨w, levels, rfl⟩ := List.exists_cons_of_length_pos (Nat.zero_lt_of_lt hn)
    rw [List.cons_append, List.append_assoc, skip_openObject, List.singleton_append,
      skipEntries_close _ true h (by simp)]
    rfl
  | @object fs hspaced hvalue ih =>
    intro rest _
    obtain ⟨w, inner, rfl⟩ := List.exists_cons_of_length_pos (Nat.zero_lt_of_lt hn)
    have hread : ∀ f ∈ fs, Makes (skip inner) f.value.text (some ()) := by
      intro f hf
      refine (skips_skip inner).makes (hvalue f hf) (ih f hf ?_)
      have hlength := length_le_commas (List.mem_map_of_mem (f := Field.bytes) hf)
      simp only [objectBytes, Field.bytes, Padded.bytes, List.length_append, List.length_cons]
        at hn hlength
      omega
    rw [objectBytes_append, skip_openObject,
      skipEntries_commas hspaced hread (length_lt_fields fs rest)]
    rfl

end Json
end Colloquy
