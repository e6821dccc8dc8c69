/-
What is accepted is well formed.

Whatever a reader takes off the front of some bytes is a well-formed value behind blanks.  Lists and
objects follow by what each of their rounds takes off.  With that it can be decided what is well
formed: it is what can be passed over.
-/
import Colloquy.Proofs.Fields
import Colloquy.Proofs.Reading

namespace Colloquy
namespace Json

variable {α β δ σ : Type}

/-! ## Lists -/

theorem exists_blank (bs : Bytes) : ∃ ws, Blank ws ∧ bs = ws ++ skipBlanks bs := by
  induction bs with
  | nil => exact ⟨[], blank_nil, rfl⟩
  | cons b bs ih =>
    rw [skipBlanks]
    split_ifs with hb
    · obtain ⟨ws, hws, hbs⟩ := ih
      exact ⟨b :: ws, List.forall_mem_cons.mpr ⟨hb, hws⟩, congrArg (b :: ·) hbs⟩
    · exact ⟨[], blank_nil, rfl⟩

/-- What `read` takes off the front of some bytes is a well-formed value behind blanks. -/
def Eats (read : Reader α) : Prop :=
  ∀ ⦃bs : Bytes⦄ ⦃x : α⦄ ⦃r : Bytes⦄, read bs = .ok (x, r) →
    ∃ v, IsValue v ∧ skipBlanks bs = v ++ r

theorem Eats.map {read : Reader α} (h : Eats read) (f : α → β) :
    Eats fun bs => (read bs).map fun (x, r) => (f x, r) := by
  intro bs y r hy
  obtain ⟨x, hx, -⟩ := map_eq_ok hy
  exact h hx

theorem endList_eq_ok {bs r : Bytes} (h : endList bs = .ok r) :
    skipBlanks bs = closeList :: r := by
  unfold endList at h
  split at h
  · cases h
  · rename_i hbs
    split_ifs at h with hb
    cases h
    rw [hbs, hb]

theorem nextItem_eq_none {first : Bool} {bs cs : Bytes} (h : nextItem first bs = .ok (none, cs)) :
    skipBlanks bs = cs ∧ ∃ r, cs = closeList :: r := by
  unfold nextItem at h
  split at h
  · cases h
  · rename_i b r hbs
    split at h
    · rename_i hclose
      cases h
      exact ⟨hbs, r, by rw [hclose]⟩
    · -- in all other cases there is another item
      repeat' split at h
      all_goals cases h

theorem nextItem_twice {first : Bool} {bs cs ds : Bytes}
    (h : nextItem first bs = .ok (some cs, ds)) : ds = cs := by
  unfold nextItem at h
  repeat' split at h
  all_goals cases h
  all_goals rfl

theorem nextItem_true {bs cs ds : Bytes} (h : nextItem true bs = .ok (some cs, ds)) :
    skipBlanks bs = cs := by
  unfold nextItem at h
  split at h
  · cases h
  · rename_i hbs
    split at h
    · cases h
    · cases h
      exact hbs

theorem nextItem_false {bs cs ds : Bytes} (h : nextItem false bs = .ok (some cs, ds)) :
    ∃ r, skipBlanks bs = comma :: r ∧ skipBlanks r = cs := by
  unfold nextItem at h
  split at h
  · cases h
  · rename_i b r hbs
    rw [if_neg Bool.false_ne_true] at h
    split at h
    · cases h
    · split at h
      · rename_i hcomma
        split at h
        · cases h
        · rename_i hr
          split at h
          · cases h
          · cases h
            exact ⟨r, by rw [hbs, hcomma], hr⟩
      · cases h

/-- The items that are left of a list, behind the blanks that follow the one before. -/
def ListRest (bs r : Bytes) : Prop :=
  ∃ (ws : Bytes) (ps : List Padded), Blank ws ∧ (∀ p ∈ ps, p.Proper) ∧
    bs = ws ++ onwards closeList (ps.map Padded.bytes) r

theorem listRest_close {bs r : Bytes} (h : skipBlanks bs = closeList :: r) : ListRest bs r := by
  obtain ⟨ws, hws, hbs⟩ := exists_blank bs
  rw [h] at hbs
  exact ⟨ws, [], hws, List.forall_mem_nil _, hbs⟩

/-- An item in front of what is left of a list. -/
theorem exists_padded {bs v ds r : Bytes} (hv : IsValue v) (hbs : skipBlanks bs = v ++ ds)
    (h : ListRest ds r) :
    ∃ (p : Padded) (ps : List Padded), (∀ q ∈ p :: ps, q.Proper) ∧
      bs = p.bytes ++ onwards closeList (ps.map Padded.bytes) r := by
  obtain ⟨ws, hws, hbefore⟩ := exists_blank bs
  obtain ⟨after, ps, hafter, hps, rfl⟩ := h
  refine ⟨⟨ws, v, after⟩, ps, List.forall_mem_cons.mpr ⟨⟨⟨hws, hafter⟩, hv⟩, hps⟩, ?_⟩
  rw [Padded.bytes_append, ← hbs, ← hbefore]

theorem listRest_comma {bs cs v ds r : Bytes} (hv : IsValue v) (hcs : skipBlanks cs = v ++ ds)
    (hbs : skipBlanks bs = comma :: cs) (h : ListRest ds r) : ListRest bs r := by
  obtain ⟨ws, hws, hbefore⟩ := exists_blank bs
  obtain ⟨p, ps, hps, rfl⟩ := exists_padded hv hcs h
  refine ⟨ws, p :: ps, hws, hps, ?_⟩
  rw [hbefore, hbs, List.map_cons, onwards_cons]

/-- A list with an item. -/
theorem exists_list {bs v ds r : Bytes} (hv : IsValue v) (hbs : skipBlanks bs = v ++ ds)
    (h : ListRest ds r) : ∃ w, IsValue w ∧ openList :: bs = w ++ r := by
  obtain ⟨p, ps, hps, rfl⟩ := exists_padded hv hbs h
  refine ⟨listBytes (p :: ps), .list (fun q hq => (hps q hq).toSpaced)
    fun q hq => (hps q hq).isValue, ?_⟩
  rw [listBytes_append, List.map_cons, commas_cons_append]

theorem exists_noItems {bs r : Bytes} (h : skipBlanks bs = closeList :: r) :
    ∃ w, IsValue w ∧ openList :: bs = w ++ r := by
  obtain ⟨ws, hws, hbs⟩ := exists_blank bs
  refine ⟨openList :: (ws ++ [closeList]), .noItems hws, ?_⟩
  rw [hbs, h]
  simp

/-- What is read of a list from `bs` on, up to `r` behind its closing bracket.  Each round finds the
bracket or takes an item off. -/
inductive ListRounds : Bool → Bytes → Bytes → Prop
  | close {first : Bool} {bs r : Bytes} (h : skipBlanks bs = closeList :: r) :
      ListRounds first bs r
  | item {first : Bool} {bs cs v ds r : Bytes} (hnext : nextItem first bs = .ok (some cs, cs))
      (hv : IsValue v) (hcs : skipBlanks cs = v ++ ds) (h : ListRounds false ds r) :
      ListRounds first bs r

namespace ListRounds

variable {bs r : Bytes}

theorem rest {first : Bool} (h : ListRounds first bs r) (hfirst : first = false) :
    ListRest bs r := by
  induction h with
  | close h => exact listRest_close h
  | item hnext hv hcs _ ih =>
    rw [hfirst] at hnext
    obtain ⟨t, hbs, rfl⟩ := nextItem_false hnext
    rw [skipBlanks_skipBlanks] at hcs
    exact listRest_comma hv hcs hbs (ih rfl)

/-- A list that is read from behind its opening bracket is a well-formed value. -/
theorem exists_isValue (h : ListRounds true bs r) : ∃ v, IsValue v ∧ openList :: bs = v ++ r := by
  cases h with
  | close h => exact exists_noItems h
  | item hnext hv hcs h =>
    rw [← nextItem_true hnext, skipBlanks_skipBlanks] at hcs
    exact exists_list hv hcs (h.rest rfl)

end ListRounds

theorem listRounds_items {item : σ → Reader σ} (h : ∀ acc, Eats (item acc)) {rounds bs r : Bytes}
    {first : Bool} {acc x : σ} (hrun : items item rounds first acc bs = .ok (x, r)) :
    ListRounds first bs r := by
  induction rounds generalizing first acc bs with
  | nil => cases hrun
  | cons w rounds ih =>
    rw [items.eq_def] at hrun
    dsimp only at hrun
    split at hrun
    · cases hrun
    · rename_i hnext
      obtain ⟨hbs, t, rfl⟩ := nextItem_eq_none hnext
      split at hrun
      · cases hrun
      · rename_i hend
        cases hrun
        have hclose := endList_eq_ok hend
        rw [skipBlanks_cons rfl] at hclose
        exact .close (hbs.trans hclose)
    · rename_i cs ds hnext
      split at hrun
      · cases hrun
      · rename_i hitem
        obtain ⟨v, hv, hvs⟩ := h _ hitem
        exact .item (nextItem_twice hnext ▸ hnext) hv hvs (ih hrun)

/-- Behind the last item no members are read. -/
theorem inOrder_closeList {ms : List (Member δ)} {depth : Nat} {first : Bool} {d e : δ}
    {r ds : Bytes} (h : inOrder depth ms first d (closeList :: r) = .ok (e, ds)) :
    ds = closeList :: r := by
  have hnext := nextItem_close first blank_nil r
  rw [List.nil_append] at hnext
  induction ms with
  | nil =>
    cases h
    rfl
  | cons m ms ih =>
    rw [inOrder, hnext] at h
    dsimp only at h
    split at h
    · cases h
    · exact ih h

theorem listRounds_inOrder {ms : List (Member δ)} {depth : Nat}
    (h : ∀ m ∈ ms, ∀ d, Eats (m.read depth d)) {first : Bool} {bs ds r : Bytes} {d e : δ}
    (hrun : inOrder depth ms first d bs = .ok (e, ds)) (hend : endList ds = .ok r) :
    ListRounds first bs r := by
  induction ms generalizing first d bs with
  | nil =>
    cases hrun
    exact .close (endList_eq_ok hend)
  | cons m ms ih =>
    obtain ⟨hm, hms⟩ := List.forall_mem_cons.mp h
    unfold inOrder at hrun
    split at hrun
    · cases hrun
    · rename_i hnext
      obtain ⟨hbs, t, rfl⟩ := nextItem_eq_none hnext
      split at hrun
      · cases hrun
      · rw [inOrder_closeList hrun] at hend
        have hclose := endList_eq_ok hend
        rw [skipBlanks_cons rfl] at hclose
        exact .close (hbs.trans hclose)
    · rename_i cs _ hnext
      split at hrun
      · cases hrun
      · rename_i hread
        obtain ⟨v, hv, hvs⟩ := hm _ hread
        exact .item (nextItem_twice hnext ▸ hnext) hv hvs (ih hms hrun)

/-! ## Objects -/

theorem skipColon_eq_ok {bs r : Bytes} (h : skipColon bs = .ok r) :
    skipBlanks bs = colon :: r := by
  unfold skipColon at h
  split at h
  · cases h
  · rename_i hbs
    split at h
    · rename_i hb
      cases h
      rw [hbs, hb]
    · cases h

theorem nextName_eq_none {first : Bool} {bs r : Bytes} (h : nextName first bs = .ok (none, r)) :
    skipBlanks bs = closeObject :: r := by
  unfold nextName at h
  split at h
  · cases h
  · rename_i hbs
    split at h
    · rename_i hb
      cases h
      rw [hbs, hb]
    · -- in all other cases there is another name
      repeat' split at h
      all_goals cases h

theorem nextName_true {bs cs ds : Bytes} (h : nextName true bs = .ok (some cs, ds)) :
    skipBlanks bs = quoteByte :: cs := by
  unfold nextName at h
  split at h
  · cases h
  · rename_i hbs
    rw [if_pos rfl] at h
    split at h
    · cases h
    · split at h
      · rename_i hb
        cases h
        rw [hbs, hb]
      · cases h

theorem nextName_false {bs cs ds : Bytes} (h : nextName false bs = .ok (some cs, ds)) :
    ∃ r, skipBlanks bs = comma :: r ∧ skipBlanks r = quoteByte :: cs := by
  unfold nextName at h
  split at h
  · cases h
  · rename_i b r hbs
    rw [if_neg Bool.false_ne_true] at h
    split at h
    · cases h
    · split at h
      · rename_i hcomma
        split at h
        · cases h
        · rename_i hr
          split at h
          · rename_i hb
            cases h
            exact ⟨r, by rw [hbs, hcomma], by rw [hr, hb]⟩
          · cases h
      · cases h

/-- The fields that are left of an object, behind the blanks that follow the one before. -/
def ObjectRest (bs r : Bytes) : Prop :=
  ∃ (ws : Bytes) (fs : List Field), Blank ws ∧ (∀ f ∈ fs, f.Proper) ∧
    bs = ws ++ onwards closeObject (fs.map Field.bytes) r

theorem objectRest_close {bs r : Bytes} (h : skipBlanks bs = closeObject :: r) :
    ObjectRest bs r := by
  obtain ⟨ws, hws, hbs⟩ := exists_blank bs
  rw [h] at hbs
  exact ⟨ws, [], hws, List.forall_mem_nil _, hbs⟩

/-- `cs` is a field from behind the quote that opens its name, and `ds` is what stands behind its
value. -/
def Opens (cs ds : Bytes) : Prop :=
  ∃ s es vs v, Spelling s ∧ cs = s ++ quoteByte :: es ∧ skipBlanks es = colon :: vs ∧
    IsValue v ∧ skipBlanks vs = v ++ ds

/-- A field in front of what is left of an object. -/
theorem exists_field {bs cs ds r : Bytes} (hcs : Opens cs ds)
    (hbs : skipBlanks bs = quoteByte :: cs) (h : ObjectRest ds r) :
    ∃ (f : Field) (fs : List Field), (∀ g ∈ f :: fs, g.Proper) ∧
      bs = f.bytes ++ onwards closeObject (fs.map Field.bytes) r := by
  obtain ⟨s, es, vs, v, hs, rfl, hes, hv, hvs⟩ := hcs
  obtain ⟨before, hbefore, hname⟩ := exists_blank bs
  obtain ⟨between, hbetween, hcolon⟩ := exists_blank es
  obtain ⟨front, hfront, hvalue⟩ := exists_blank vs
  obtain ⟨after, fs, hafter, hfs, rfl⟩ := h
  refine ⟨⟨before, s, between, ⟨front, v, after⟩⟩, fs, List.forall_mem_cons.mpr
    ⟨⟨⟨hbefore, hs, hbetween, ⟨hfront, hafter⟩⟩, hv⟩, hfs⟩, ?_⟩
  rw [Field.bytes_append, Field.opened, Padded.bytes_append, hname, hbs]
  dsimp only
  rw [← hvs, ← hvalue, ← hes, ← hcolon]

theorem objectRest_comma {bs t cs ds r : Bytes} (hcs : Opens cs ds)
    (ht : skipBlanks t = quoteByte :: cs) (hbs : skipBlanks bs = comma :: t)
    (h : ObjectRest ds r) : ObjectRest bs r := by
  obtain ⟨ws, hws, hbefore⟩ := exists_blank bs
  obtain ⟨f, fs, hfs, rfl⟩ := exists_field hcs ht h
  refine ⟨ws, f :: fs, hws, hfs, ?_⟩
  rw [hbefore, hbs, List.map_cons, onwards_cons]

/-- An object with a field. -/
theorem exists_object {bs cs ds r : Bytes} (hcs : Opens cs ds)
    (hbs : skipBlanks bs = quoteByte :: cs) (h : ObjectRest ds r) :
    ∃ w, IsValue w ∧ openObject :: bs = w ++ r := by
  obtain ⟨f, fs, hfs, rfl⟩ := exists_field hcs hbs h
  refine ⟨objectBytes (f :: fs), .object (fun g hg => (hfs g hg).toSpaced)
    fun g hg => (hfs g hg).isValue, ?_⟩
  rw [objectBytes_append, List.map_cons, commas_cons_append]

theorem exists_noFields {bs r : Bytes} (h : skipBlanks bs = closeObject :: r) :
    ∃ w, IsValue w ∧ openObject :: bs = w ++ r := by
  obtain ⟨ws, hws, hbs⟩ := exists_blank bs
  refine ⟨openObject :: (ws ++ [closeObject]), .noFields hws, ?_⟩
  rw [hbs, h]
  simp

/-- What is read of an object from `bs` on, up to `r` behind its closing bracket.  Each round finds
the bracket or takes a field off. -/
inductive ObjectRounds : Bool → Bytes → Bytes → Prop
  | close {first : Bool} {bs r : Bytes} (h : skipBlanks bs = closeObject :: r) :
      ObjectRounds first bs r
  | field {first : Bool} {bs cs cs' ds r : Bytes} (hnext : nextName first bs = .ok (some cs, cs'))
      (hcs : Opens cs ds) (h : ObjectRounds false ds r) : ObjectRounds first bs r

namespace ObjectRounds

variable {bs r : Bytes}

theorem rest {first : Bool} (h : ObjectRounds first bs r) (hfirst : first = false) :
    ObjectRest bs r := by
  induction h with
  | close h => exact objectRest_close h
  | field hnext hcs _ ih =>
    rw [hfirst] at hnext
    obtain ⟨t, hbs, ht⟩ := nextName_false hnext
    exact objectRest_comma hcs ht hbs (ih rfl)

/-- An object that is read from behind its opening bracket is a well-formed value. -/
theorem exists_isValue (h : ObjectRounds true bs r) :
    ∃ v, IsValue v ∧ openObject :: bs = v ++ r := by
  cases h with
  | close h => exact exists_noFields h
  | field hnext hcs h => exact exists_object hcs (nextName_true hnext) (h.rest rfl)

end ObjectRounds

theorem objectRounds_entries {entry : σ → String → Except Fault (Reader σ)}
    (h : ∀ acc name read, entry acc name = .ok read → Eats read) {rounds bs r : Bytes}
    {first : Bool} {acc x : σ} (hrun : entries entry rounds first acc bs = .ok (x, r)) :
    ObjectRounds first bs r := by
  induction rounds generalizing first acc bs with
  | nil => cases hrun
  | cons w rounds ih =>
    rw [entries.eq_def] at hrun
    dsimp only at hrun
    split at hrun
    · cases hrun
    · rename_i hnext
      cases hrun
      exact .close (nextName_eq_none hnext)
    rename_i hnext
    split at hrun
    · cases hrun
    rename_i htext
    split at hrun
    · cases hrun
    rename_i hentry
    split at hrun
    · cases hrun
    rename_i hcolon
    split at hrun
    · cases hrun
    rename_i hread
    obtain ⟨s, hs, hcs⟩ := exists_spelling_of_text htext
    obtain ⟨v, hv, hvs⟩ := h _ _ _ hentry hread
    exact .field hnext ⟨s, _, _, v, hs, hcs, skipColon_eq_ok hcolon, hv, hvs⟩ (ih hrun)

theorem objectRounds_skipEntries {read : Reader Unit} (h : Eats read) {rounds bs r : Bytes}
    {first : Bool} {x : Unit} (hrun : skip.skipEntries read rounds first bs = .ok (x, r)) :
    ObjectRounds first bs r := by
  induction rounds generalizing first bs with
  | nil => cases hrun
  | cons w rounds ih =>
    rw [skip.skipEntries.eq_def] at hrun
    dsimp only at hrun
    split at hrun
    · cases hrun
    · rename_i hnext
      cases hrun
      exact .close (nextName_eq_none hnext)
    rename_i hnext
    split at hrun
    · cases hrun
    rename_i htext
    split at hrun
    · cases hrun
    rename_i hcolon
    split at hrun
    · cases hrun
    rename_i hread
    obtain ⟨s, hs, hcs⟩ := exists_spelling_of_skipText htext
    obtain ⟨v, hv, hvs⟩ := h hread
    exact .field hnext ⟨s, _, _, v, hs, hcs, skipColon_eq_ok hcolon, hv, hvs⟩ (ih hrun)

/-! ## Values -/

theorem word_eq_ok {ws bs r : Bytes} {x : Unit} (h : word ws bs = .ok (x, r)) : bs = ws ++ r := by
  induction ws generalizing bs with
  | nil =>
    cases h
    rfl
  | cons w ws ih =>
    cases bs with
    | nil => cases h
    | cons b bs =>
      rw [word] at h
      split at h
      · rename_i hb
        rw [hb, ih h]
        rfl
      · cases h

/-- A word, from its first byte on. -/
theorem exists_word {w : UInt8} {ws bs r : Bytes} {x : Unit} (hv : IsValue (w :: ws))
    (h : word ws bs = .ok (x, r)) : ∃ v, IsValue v ∧ w :: bs = v ++ r :=
  ⟨w :: ws, hv, congrArg (w :: ·) (word_eq_ok h)⟩

theorem exists_text {bs r : Bytes} {x : String} (h : text bs = .ok (x, r)) :
    ∃ v, IsValue v ∧ quoteByte :: bs = v ++ r := by
  obtain ⟨s, hs, rfl⟩ := exists_spelling_of_text h
  exact ⟨_, .text hs, by simp⟩

theorem exists_number {bs r : Bytes} {v : Value} (h : number false bs = .ok (v, r)) :
    ∃ v, IsValue v ∧ bs = v ++ r := by
  obtain ⟨u, hu, rfl⟩ := exists_unsigned (skipNumber_of_number h)
  exact ⟨u, .unsigned hu, rfl⟩

theorem exists_negative {bs r : Bytes} {v : Value} (h : number true bs = .ok (v, r)) :
    ∃ v, IsValue v ∧ minus :: bs = v ++ r := by
  obtain ⟨u, hu, rfl⟩ := exists_unsigned (skipNumber_of_number h)
  exact ⟨minus :: u, .negative hu, rfl⟩

theorem Eats.gather {read : Reader α} (h : Eats read) (acc : List α) : Eats (gather read acc) :=
  h.map (· :: acc)

theorem eats_value (depth : Nat) : Eats (value depth) := by
  induction depth using Nat.strongRecOn with
  | ind depth ih =>
    intro bs x r h
    rw [value.eq_def] at h
    dsimp only at h
    split at h
    · cases h
    rename_i b t hbs
    rw [hbs]
    split at h
    · rename_i hb
      obtain ⟨y, hy, -⟩ := map_eq_ok (f := fun _ => Value.null) h
      exact hb ▸ exists_word .null hy
    split at h
    · rename_i hb
      obtain ⟨y, hy, -⟩ := map_eq_ok (f := fun _ => Value.bool true) h
      exact hb ▸ exists_word .yes hy
    split at h
    · rename_i hb
      obtain ⟨y, hy, -⟩ := map_eq_ok (f := fun _ => Value.bool false) h
      exact hb ▸ exists_word .no hy
    split at h
    · rename_i hb
      exact hb ▸ exists_negative h
    split at h
    · exact exists_number h
    split at h
    · rename_i hb
      obtain ⟨s, hs, -⟩ := map_eq_ok (f := Value.text) h
      exact hb ▸ exists_text hs
    split at h
    · rename_i hb
      split at h
      · cases h
      · rename_i d
        obtain ⟨acc, hacc, -⟩ := map_eq_ok (f := fun acc => Value.array (List.reverse acc)) h
        have hrounds := listRounds_items (fun acc => (ih d (Nat.lt_succ_self d)).gather acc) hacc
        exact hb ▸ hrounds.exists_isValue
    split at h
    · rename_i hb
      split at h
      · cases h
      · rename_i d
        obtain ⟨acc, hacc, -⟩ := map_eq_ok (f := Value.object) h
        have hrounds := objectRounds_entries (fun acc name read hread => by
          cases hread
          exact (ih d (Nat.lt_succ_self d)).map (Value.put name · acc)) hacc
        exact hb ▸ hrounds.exists_isValue
    · cases h

theorem exists_of_map_eq_ok {x : Except Fault α} {f : α → β} {y : β} (h : x.map f = .ok y) :
    ∃ a, x = .ok a ∧ f a = y := by
  cases x with
  | error why => cases h
  | ok a =>
    cases h
    exact ⟨a, rfl, rfl⟩

theorem eq_ok_of_map {x : Except Fault Bytes} {y : Unit} {r : Bytes}
    (h : x.map ((), ·) = .ok (y, r)) : x = .ok r := by
  obtain ⟨_, hx, ⟨⟩⟩ := exists_of_map_eq_ok h
  exact hx

theorem eats_skip_of {levels : Bytes} (h : ∀ w inner, levels = w :: inner → Eats (skip inner)) :
    Eats (skip levels) := by
  intro bs x r hrun
  rw [skip.eq_def] at hrun
  split at hrun
  · cases hrun
  rename_i b t hbs
  rw [hbs]
  split at hrun
  · rename_i hb
    exact hb ▸ exists_word .null hrun
  split at hrun
  · rename_i hb
    exact hb ▸ exists_word .yes hrun
  split at hrun
  · rename_i hb
    exact hb ▸ exists_word .no hrun
  split at hrun
  · rename_i hb
    obtain ⟨u, hu, rfl⟩ := exists_unsigned (eq_ok_of_map hrun)
    exact ⟨minus :: u, .negative hu, hb ▸ rfl⟩
  split at hrun
  · obtain ⟨u, hu, hbt⟩ := exists_unsigned (eq_ok_of_map hrun)
    exact ⟨u, .unsigned hu, hbt⟩
  split at hrun
  · rename_i hb
    obtain ⟨s, hs, rfl⟩ := exists_spelling_of_skipText (eq_ok_of_map hrun)
    exact ⟨_, .text hs, by simp [hb]⟩
  split at hrun
  · rename_i hb
    split at hrun
    · cases hrun
    · exact hb ▸ (listRounds_items (fun _ => h _ _ rfl) hrun).exists_isValue
  split at hrun
  · rename_i hb
    split at hrun
    · cases hrun
    · exact hb ▸ (objectRounds_skipEntries (h _ _ rfl) hrun).exists_isValue
  · cases hrun

theorem eats_skip (levels : Bytes) : Eats (skip levels) := by
  induction levels with
  | nil => exact eats_skip_of nofun
  | cons w levels ih =>
    refine eats_skip_of ?_
    rintro _ _ ⟨⟩
    exact ih

/-! ## Field values and records -/

theorem eats_textField : Eats textField := by
  intro bs x r h
  unfold textField at h
  split at h
  · cases h
  · rename_i hbs
    rw [hbs]
    split at h
    · rename_i hb
      exact hb ▸ exists_text h
    · cases h

theorem exists_of_checked (lo hi : Int) {i : Int} {x : Except Fault (Value × Bytes)} {r : Bytes}
    (h : checked lo hi x = .ok (i, r)) : ∃ v, x = .ok (v, r) := by
  have hsome := toOption_checked lo hi x
  rw [h] at hsome
  obtain ⟨⟨v, r'⟩, hx, hv⟩ := Option.bind_eq_some_iff.mp hsome.symm
  obtain ⟨_, -, heq⟩ := Option.map_eq_some_iff.mp hv
  cases heq
  exact ⟨v, ok_of_toOption hx⟩

theorem eats_intField (lo hi : Int) : Eats (intField lo hi) := by
  intro bs i r h
  unfold intField at h
  dsimp only at h
  split at h
  · cases h
  · rename_i hbs
    rw [hbs]
    split at h
    · rename_i hb
      obtain ⟨v, hv⟩ := exists_of_checked lo hi h
      exact hb ▸ exists_negative hv
    · split at h
      · obtain ⟨v, hv⟩ := exists_of_checked lo hi h
        exact exists_number hv
      · cases h

theorem eats_natField (bits : Nat) : Eats (natField bits) :=
  (eats_intField 0 (Word.natMax bits)).map Int.toNat

theorem Eats.optionalField {read : Reader α} (h : Eats read) : Eats (optionalField read) := by
  intro bs x r hrun
  unfold Json.optionalField at hrun
  split at hrun
  · rename_i b t hbs
    split at hrun
    · rename_i hb
      obtain ⟨y, hy, -⟩ := map_eq_ok (f := fun _ => none) hrun
      rw [hbs, hb]
      exact exists_word .null hy
    · obtain ⟨y, hy, -⟩ := map_eq_ok hrun
      obtain ⟨v, hv, hvs⟩ := h hy
      rw [← hbs, skipBlanks_skipBlanks] at hvs
      exact ⟨v, hv, hvs⟩
  · rename_i hbs
    obtain ⟨y, hy, -⟩ := map_eq_ok hrun
    obtain ⟨v, hv, hvs⟩ := h hy
    exact ⟨v, hv, hbs.trans hvs⟩

theorem Eats.listField {read : Reader α} (h : Eats read) (depth : Nat) :
    Eats (listField read depth) := by
  intro bs x r hrun
  unfold Json.listField at hrun
  split at hrun
  · cases hrun
  · rename_i hbs
    rw [hbs]
    split at hrun
    · rename_i hb
      split at hrun
      · cases hrun
      · obtain ⟨acc, hacc, -⟩ := map_eq_ok hrun
        exact hb ▸ (listRounds_items (fun acc => h.gather acc) hacc).exists_isValue
    · cases hrun

theorem Shape.eats_entry {s : Shape δ α} {depth : Nat}
    (h : ∀ m ∈ s.members, ∀ depth d, Eats (m.read depth d)) {d : δ} {name : String}
    {read : Reader δ} (hentry : s.entry depth d name = .ok read) : Eats read := by
  unfold entry at hentry
  split at hentry
  · rename_i m hfind
    split at hentry
    · cases hentry
    · cases hentry
      exact h m (List.mem_of_find?_eq_some hfind) depth d
  · split at hentry
    · cases hentry
    · cases hentry
      intro bs x r hrun
      obtain ⟨y, hy, -⟩ := map_eq_ok (f := fun _ => d) hrun
      exact eats_skip bs hy

theorem Shape.eats_read {s : Shape δ α} (h : ∀ m ∈ s.members, ∀ depth d, Eats (m.read depth d))
    (depth : Nat) : Eats (s.read depth) := by
  intro bs x r hrun
  unfold Shape.read at hrun
  split at hrun
  · cases hrun
  rename_i hbs
  rw [hbs]
  split at hrun
  · rename_i hb
    split at hrun
    · cases hrun
    split at hrun
    · cases hrun
    rename_i hdraft
    split at hrun
    · cases hrun
    obtain ⟨r', hend, hr⟩ := exists_of_map_eq_ok hrun
    cases hr
    have hrounds := listRounds_inOrder (fun m hm d => h m hm _ d) hdraft hend
    exact hb ▸ hrounds.exists_isValue
  split at hrun
  · rename_i hb
    split at hrun
    · cases hrun
    split at hrun
    · cases hrun
    rename_i hdraft
    obtain ⟨e, he, hr⟩ := exists_of_map_eq_ok hrun
    cases hr
    have hrounds := objectRounds_entries (fun _ _ _ hentry => eats_entry h hentry) hdraft
    exact hb ▸ hrounds.exists_isValue
  · cases hrun

/-! ## Readers of values -/

/-- A reader that takes well-formed values and nothing else, and makes the same of each of them
wherever it stands. -/
structure Regular (read : Reader α) : Prop where
  isLocal : Local read
  eats : Eats read

theorem Regular.map {read : Reader α} (h : Regular read) (f : α → β) :
    Regular fun bs => (read bs).map fun (x, r) => (f x, r) where
  isLocal := h.isLocal.map f
  eats := h.eats.map f

theorem regular_value (depth : Nat) : Regular (value depth) := ⟨local_value depth, eats_value depth⟩

theorem regular_textField : Regular textField := ⟨local_textField, eats_textField⟩

theorem regular_intField (lo hi : Int) : Regular (intField lo hi) :=
  ⟨local_intField lo hi, eats_intField lo hi⟩

theorem regular_natField (bits : Nat) : Regular (natField bits) :=
  ⟨local_natField bits, eats_natField bits⟩

theorem Regular.optionalField {read : Reader α} (h : Regular read) : Regular (optionalField read) :=
  ⟨h.isLocal.optionalField, h.eats.optionalField⟩

theorem Regular.listField {read : Reader α} (h : Regular read) (depth : Nat) :
    Regular (listField read depth) :=
  ⟨h.isLocal.listField depth, h.eats.listField depth⟩

/-! ## Deciding what is well formed -/

theorem spelling_iff {s : Bytes} :
    Spelling s ↔ (skipText (s ++ [quoteByte])).toOption = some [] := by
  refine ⟨fun h => ?_, fun h => ?_⟩
  · rw [skipText_spelling h []]
    rfl
  · obtain ⟨s', hs, heq⟩ := exists_spelling_of_skipText (ok_of_toOption h)
    rwa [List.append_left_injective _ heq]

theorem isValue_iff {v : Bytes} :
    IsValue v ↔ skipBlanks v = v ∧ (skip v v).toOption = some ((), []) := by
  refine ⟨fun h => ?_, fun ⟨hblank, h⟩ => ?_⟩
  · have hskip := makes_skip h (Nat.le_refl _) [] [] blank_nil trivial
    rw [List.append_nil, List.nil_append] at hskip
    obtain ⟨b, r, rfl, hb, -⟩ := h.cons
    exact ⟨skipBlanks_cons hb r, hskip⟩
  · obtain ⟨w, hw, heq⟩ := eats_skip v (ok_of_toOption h)
    rw [hblank, List.append_nil] at heq
    rwa [heq]

instance : DecidablePred Blank := fun ws => List.decidableBAll _ ws

instance : DecidablePred Spelling := fun _ => decidable_of_iff _ spelling_iff.symm

instance : DecidablePred IsValue := fun _ => decidable_of_iff _ isValue_iff.symm

instance : DecidablePred Padded.Spaced := fun p =>
  decidable_of_iff (Blank p.before ∧ Blank p.after) ⟨fun h => ⟨h.1, h.2⟩, fun h => ⟨h.1, h.2⟩⟩

instance : DecidablePred Field.Spaced := fun f =>
  decidable_of_iff (Blank f.before ∧ Spelling f.spelling ∧ Blank f.between ∧ f.value.Spaced)
    ⟨fun h => ⟨h.1, h.2.1, h.2.2.1, h.2.2.2⟩, fun h => ⟨h.1, h.2, h.3, h.4⟩⟩

instance : DecidablePred Field.Proper := fun f =>
  decidable_of_iff (f.Spaced ∧ IsValue f.value.text)
    ⟨fun h => ⟨h.1, h.2⟩, fun h => ⟨h.toSpaced, h.isValue⟩⟩

end Json
end Colloquy
