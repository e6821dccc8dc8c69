/-
Records do not depend on the order of their fields.

In a lawful shape each member marks its own place in the draft as given and leaves the places of the
others alone.  So any order of the fields comes to the same draft, a field that the shape does not
know changes nothing, and no member is read twice.
-/
import Colloquy.Proofs.Coverage
import Mathlib.Data.List.Pairwise

namespace Colloquy
namespace Json

variable {α β γ δ σ : Type}

/-! ## Members -/

namespace Member

/-- A member reads values, and is given once it has been read. -/
structure Lawful (m : Member δ) : Prop where
  regular : ∀ depth d, Regular (m.read depth d)
  marks : ∀ depth v d e, take (m.read depth d) v = some e → m.given e = true

/-- Neither of two members touches the place of the other. -/
structure Apart (m n : Member δ) : Prop where
  given_right : ∀ depth v d e, take (m.read depth d) v = some e → n.given e = n.given d
  given_left : ∀ depth v d e, take (n.read depth d) v = some e → m.given e = m.given d
  commute : ∀ depth v w d, (take (m.read depth d) v).bind (fun d => take (n.read depth d) w) =
    (take (n.read depth d) w).bind fun d => take (m.read depth d) v

theorem Apart.symm {m n : Member δ} (h : m.Apart n) : n.Apart m where
  given_right := h.given_left
  given_left := h.given_right
  commute := fun depth v w d => (h.commute depth w v d).symm

instance : Std.Symm (@Apart δ) := ⟨fun _ _ h => h.symm⟩

end Member

section

variable {name name' : String} {required required' : Bool} {read : Nat → Reader β}
  {read' : Nat → Reader γ} {get : δ → Option β} {get' : δ → Option γ} {set : β → δ → δ}
  {set' : γ → δ → δ}

theorem take_member (name : String) (required : Bool) (read : Nat → Reader β)
    (get : δ → Option β) (set : β → δ → δ) (depth : Nat) (d : δ) (v : Bytes) :
    take ((member name required read get set).read depth d) v =
      (take (read depth) v).map (set · d) := take_map (read depth) v (set · d)

theorem lawful_member (h : ∀ depth, Regular (read depth)) (hset : ∀ x d, get (set x d) = some x) :
    (member name required read get set).Lawful where
  regular := fun depth d => (h depth).map (set · d)
  marks := by
    intro depth v d e he
    rw [take_member, Option.map_eq_some_iff] at he
    obtain ⟨x, -, rfl⟩ := he
    show (get (set x d)).isSome = true
    rw [hset]
    rfl

theorem apart_member (h : ∀ x d, get' (set x d) = get' d) (h' : ∀ y d, get (set' y d) = get d)
    (hset : ∀ x y d, set' y (set x d) = set x (set' y d)) :
    (member name required read get set).Apart (member name' required' read' get' set') where
  given_right := by
    intro depth v d e he
    rw [take_member, Option.map_eq_some_iff] at he
    obtain ⟨x, -, rfl⟩ := he
    show (get' (set x d)).isSome = (get' d).isSome
    rw [h]
  given_left := by
    intro depth v d e he
    rw [take_member, Option.map_eq_some_iff] at he
    obtain ⟨y, -, rfl⟩ := he
    show (get (set' y d)).isSome = (get d).isSome
    rw [h']
  commute := by
    intro depth v w d
    simp only [take_member]
    cases take (read depth) v with
    | none => cases take (read' depth) w <;> rfl
    | some x =>
      cases take (read' depth) w with
      | none => rfl
      | some y => exact congrArg some (hset x y d)

end

/-! ## Fields in any order -/

theorem foldlM_perm {step : σ → α → Option σ} {xs ys : List α} (h : xs.Perm ys)
    (hcomm : ∀ x ∈ xs, ∀ y ∈ xs, ∀ s, (step s x).bind (step · y) = (step s y).bind (step · x))
    (s : σ) : xs.foldlM step s = ys.foldlM step s := by
  induction h generalizing s with
  | nil => rfl
  | cons x h ih =>
    rw [List.foldlM_cons, List.foldlM_cons]
    exact bind_congr fun t => ih
      (fun y hy z hz => hcomm y (List.mem_cons_of_mem x hy) z (List.mem_cons_of_mem x hz)) t
  | swap x y xs =>
    have hxy := hcomm y List.mem_cons_self x (List.mem_cons_of_mem y List.mem_cons_self) s
    simp only [List.foldlM_cons, ← bind_assoc]
    exact congrArg (· >>= fun s => xs.foldlM step s) hxy
  | trans h₁ _ ih₁ ih₂ =>
    rw [ih₁ hcomm, ih₂ fun x hx y hy => hcomm x (h₁.mem_iff.mpr hx) y (h₁.mem_iff.mpr hy)]

namespace Shape

/-- Members with different names, each of which fills in its own place. -/
structure Lawful (s : Shape δ α) : Prop where
  members : ∀ m ∈ s.members, m.Lawful
  names : (s.members.map Member.name).Nodup
  apart : s.members.Pairwise Member.Apart

variable {s : Shape δ α} {depth : Nat} {f g : Field} {m : Member δ}

theorem Lawful.isLocal (hs : s.Lawful) : s.Local :=
  fun m hm depth d => ((hs.members m hm).regular depth d).isLocal

theorem Lawful.regular (hs : s.Lawful) (depth : Nat) : Regular (s.read depth) where
  isLocal := hs.isLocal.read depth
  eats := eats_read (fun m hm depth d => ((hs.members m hm).regular depth d).eats) depth

theorem find?_name {ms : List (Member δ)} (h : (ms.map Member.name).Nodup) (hm : m ∈ ms) :
    ms.find? (fun n => n.name == m.name) = some m := by
  induction ms with
  | nil => cases hm
  | cons n ms ih =>
    rw [List.map_cons, List.nodup_cons] at h
    rcases List.mem_cons.mp hm with rfl | hm
    · exact List.find?_cons_of_pos (by simp)
    · have hne : n.name ≠ m.name := fun he => h.1 (he ▸ List.mem_map_of_mem hm)
      rw [List.find?_cons_of_neg (by simp [hne]), ih h.2 hm]

theorem fill_known (hs : s.Lawful) (hm : m ∈ s.members) (hname : f.name? = some m.name) (d : δ) :
    fill (s.entry depth) d f =
      if m.given d then none else take (m.read depth d) f.value.text := by
  rw [fill, hname, Option.bind_some, entry, find?_name hs.names hm]
  dsimp only
  split_ifs <;> rfl

theorem find?_unknown {name : String} (h : name ∉ s.members.map Member.name) :
    s.members.find? (fun m => m.name == name) = none := by
  refine List.find?_eq_none.mpr fun m hm heq => h ?_
  exact (beq_iff_eq.mp heq) ▸ List.mem_map_of_mem hm

theorem fill_unknown (hopen : s.closed = false) {name : String} (hname : f.name? = some name)
    (hunknown : name ∉ s.members.map Member.name) (hv : IsValue f.value.text) (d : δ) :
    fill (s.entry depth) d f = some d := by
  rw [fill, hname, Option.bind_some, entry, find?_unknown hunknown, hopen]
  exact (makes_unknown hv d).take_eq

/-- A field is refused, passed over or read by one of the members. -/
theorem fill_cases (hs : s.Lawful) (depth : Nat) (hv : IsValue f.value.text) :
    (∀ d, fill (s.entry depth) d f = none) ∨ (∀ d, fill (s.entry depth) d f = some d) ∨
      ∃ m ∈ s.members, ∀ d, fill (s.entry depth) d f =
        if m.given d then none else take (m.read depth d) f.value.text := by
  cases hname : f.name? with
  | none => exact Or.inl fun d => by rw [fill, hname]; rfl
  | some name =>
    by_cases hknown : name ∈ s.members.map Member.name
    · obtain ⟨m, hm, rfl⟩ := List.mem_map.mp hknown
      exact Or.inr (Or.inr ⟨m, hm, fill_known hs hm hname⟩)
    · cases hclosed : s.closed with
      | false => exact Or.inr (Or.inl (fill_unknown hclosed hname hknown hv))
      | true =>
        refine Or.inl fun d => ?_
        rw [fill, hname, Option.bind_some, entry, find?_unknown hknown, hclosed]
        rfl

/-- Whichever of two members is read first, both have to be free. -/
theorem read_commute (hs : s.Lawful) {n : Member δ} (hm : m ∈ s.members) (hn : n ∈ s.members)
    (v w : Bytes) (d : δ) :
    (if m.given d then none else take (m.read depth d) v).bind
        (fun d => if n.given d then none else take (n.read depth d) w) =
      (if n.given d then none else take (n.read depth d) w).bind
        fun d => if m.given d then none else take (m.read depth d) v := by
  by_cases hmn : m = n
  · -- the second of the two is refused
    subst hmn
    have htwice : ∀ x y, (if m.given d then none else take (m.read depth d) x).bind
        (fun e => if m.given e then none else take (m.read depth e) y) = none := by
      intro x y
      split_ifs with hgiven
      · rfl
      · cases htake : take (m.read depth d) x with
        | none => rfl
        | some e => exact if_pos ((hs.members m hm).marks depth x d e htake)
    rw [htwice, htwice]
  · have hapart : m.Apart n := hs.apart.forall hm hn hmn
    have hright : (take (m.read depth d) v).bind
        (fun e => if n.given e then none else take (n.read depth e) w) =
        if n.given d then none else (take (m.read depth d) v).bind
          fun e => take (n.read depth e) w := by
      cases htake : take (m.read depth d) v with
      | none => exact (ite_self _).symm
      | some e =>
        rw [Option.bind_some, Option.bind_some, hapart.given_right depth v d e htake]
    have hleft : (take (n.read depth d) w).bind
        (fun e => if m.given e then none else take (m.read depth e) v) =
        if m.given d then none else (take (n.read depth d) w).bind
          fun e => take (m.read depth e) v := by
      cases htake : take (n.read depth d) w with
      | none => exact (ite_self _).symm
      | some e =>
        rw [Option.bind_some, Option.bind_some, hapart.given_left depth w d e htake]
    by_cases hgm : m.given d = true <;> by_cases hgn : n.given d = true
    · rw [if_pos hgm, if_pos hgn]
      rfl
    · rw [if_pos hgm, if_neg hgn, hleft, if_pos hgm]
      rfl
    · rw [if_neg hgm, if_pos hgn, hright, if_pos hgn]
      rfl
    · rw [if_neg hgm, if_neg hgn, hright, hleft, if_neg hgm, if_neg hgn,
        hapart.commute depth v w d]

theorem fill_commute (hs : s.Lawful) (hf : IsValue f.value.text) (hg : IsValue g.value.text)
    (d : δ) :
    (fill (s.entry depth) d f).bind (fill (s.entry depth) · g) =
      (fill (s.entry depth) d g).bind (fill (s.entry depth) · f) := by
  rcases fill_cases hs depth hf with hf | hf | ⟨m, hm, hf⟩
  · simp only [hf, Option.bind_none, Option.bind_fun_none]
  · simp only [hf, Option.bind_some, Option.bind_fun_some]
  · rcases fill_cases hs depth hg with hg | hg | ⟨n, hn, hg⟩
    · simp only [hg, Option.bind_none, Option.bind_fun_none]
    · simp only [hg, Option.bind_some, Option.bind_fun_some]
    · simp only [hf, hg]
      exact read_commute hs hm hn f.value.text g.value.text d

theorem ofFields_perm (hs : s.Lawful) {fs gs : List Field} (hfs : ∀ f ∈ fs, IsValue f.value.text)
    (h : fs.Perm gs) : s.ofFields depth fs = s.ofFields depth gs := by
  rw [ofFields, foldlM_perm h fun f hf g hg => fill_commute hs (hfs f hf) (hfs g hg)]
  rfl

/-! ## One field more -/

/-- A field may as well be the last one. -/
theorem foldlM_middle (hs : s.Lawful) {fs gs : List Field}
    (h : ∀ g ∈ fs ++ f :: gs, IsValue g.value.text) (d : δ) :
    (fs ++ f :: gs).foldlM (fill (s.entry depth)) d =
      ((fs ++ gs).foldlM (fill (s.entry depth)) d).bind (fill (s.entry depth) · f) := by
  have hlast : (fs ++ f :: gs).Perm (fs ++ gs ++ [f]) :=
    List.perm_middle.trans (List.perm_append_singleton f (fs ++ gs)).symm
  rw [foldlM_perm hlast fun f hf g hg => fill_commute hs (h f hf) (h g hg), List.foldlM_append]
  simp only [List.foldlM_cons, List.foldlM_nil, bind_pure]
  rfl

theorem ofFields_middle (hs : s.Lawful) {fs gs : List Field}
    (h : ∀ g ∈ fs ++ f :: gs, IsValue g.value.text) :
    s.ofFields depth (fs ++ f :: gs) =
      ((fs ++ gs).foldlM (fill (s.entry depth)) s.blank).bind fun d =>
        (fill (s.entry depth) d f).bind fun e => (s.finish e).toOption := by
  rw [ofFields, foldlM_middle hs h, Option.bind_assoc]

/-- A field that the shape does not know changes nothing. -/
theorem ofFields_unknown (hs : s.Lawful) (hopen : s.closed = false) {name : String}
    (hname : f.name? = some name) (hunknown : name ∉ s.members.map Member.name)
    {fs gs : List Field} (h : ∀ g ∈ fs ++ f :: gs, IsValue g.value.text) :
    s.ofFields depth (fs ++ f :: gs) = s.ofFields depth (fs ++ gs) := by
  have hf := h f (List.mem_append_right fs List.mem_cons_self)
  rw [ofFields_middle hs h, ofFields]
  simp only [fill_unknown hopen hname hunknown hf, Option.bind_some]

/-- A member that has been read is given. -/
theorem given_of_foldlM (hs : s.Lawful) (hm : m ∈ s.members) (hname : g.name? = some m.name)
    {fs : List Field} (hg : g ∈ fs) (h : ∀ f ∈ fs, IsValue f.value.text) {d e : δ}
    (hfold : fs.foldlM (fill (s.entry depth)) d = some e) : m.given e = true := by
  obtain ⟨before, after, rfl⟩ := List.append_of_mem hg
  rw [foldlM_middle hs h] at hfold
  obtain ⟨d', -, hfill⟩ := Option.bind_eq_some_iff.mp hfold
  rw [fill_known hs hm hname] at hfill
  split at hfill
  · cases hfill
  · exact (hs.members m hm).marks depth _ _ _ hfill

/-- Nothing comes of a record that has one of its members twice. -/
theorem ofFields_twice (hs : s.Lawful) (hm : m ∈ s.members) (hf : f.name? = some m.name)
    {fs gs : List Field} (hg : g ∈ fs ++ gs) (hgname : g.name? = some m.name)
    (h : ∀ g ∈ fs ++ f :: gs, IsValue g.value.text) :
    s.ofFields depth (fs ++ f :: gs) = none := by
  have hrest : ∀ g ∈ fs ++ gs, IsValue g.value.text := fun g hg =>
    h g (List.perm_middle.mem_iff.mpr (List.mem_cons_of_mem f hg))
  rw [ofFields_middle hs h]
  cases hfold : (fs ++ gs).foldlM (fill (s.entry depth)) s.blank with
  | none => rfl
  | some d =>
    rw [Option.bind_some, fill_known hs hm hf,
      if_pos (given_of_foldlM hs hm hgname hg hrest hfold)]
    rfl

/-! ## Null and values inside a record -/

/-- Null in the place of `m` leaves what is made of the draft. -/
def Idle (s : Shape δ α) (m : Member δ) : Prop :=
  ∀ depth d e, m.given d = false → take (m.read depth d) nullBytes = some e →
    s.finish e = s.finish d

/-- A field with null may be dropped. -/
theorem ofFields_null (hs : s.Lawful) (hm : m ∈ s.members) (hidle : s.Idle m)
    (hname : f.name? = some m.name) (hnull : f.value.text = nullBytes) {fs gs : List Field}
    (h : ∀ g ∈ fs ++ f :: gs, IsValue g.value.text) {x : α}
    (hx : s.ofFields depth (fs ++ f :: gs) = some x) : s.ofFields depth (fs ++ gs) = some x := by
  rw [ofFields_middle hs h] at hx
  obtain ⟨d, hfold, hx⟩ := Option.bind_eq_some_iff.mp hx
  obtain ⟨e, hfill, hx⟩ := Option.bind_eq_some_iff.mp hx
  rw [fill_known hs hm hname, hnull] at hfill
  split at hfill
  · cases hfill
  · rename_i hgiven
    rw [ofFields, hfold, Option.bind_some, ← hx,
      hidle depth d e (Bool.eq_false_iff.mpr hgiven) hfill]

end Shape

/-- What `m` makes of a value that is not null depends only on what `read` makes of it. -/
def Member.Holds (m : Member δ) (read : Nat → Reader β) : Prop :=
  ∃ k : δ → β → Option δ, ∀ depth d v, IsValue v → v ≠ nullBytes →
    take (m.read depth d) v = (take (read depth) v).bind (k d)

section

variable {name : String} {required : Bool} {read : Nat → Reader β} {s : Shape δ α}

theorem holds_member {get : δ → Option β} {set : β → δ → δ} :
    (member name required read get set).Holds read := by
  refine ⟨fun d x => some (set x d), fun depth d v _ _ => ?_⟩
  rw [take_member]
  cases take (read depth) v <;> rfl

theorem holds_optional {get : δ → Option (Option β)} {set : Option β → δ → δ}
    (h : ∀ depth, Regular (read depth)) :
    (member name required (fun depth => optionalField (read depth)) get set).Holds read := by
  refine ⟨fun d x => some (set (some x) d), fun depth d v hv hnull => ?_⟩
  rw [take_member, take_optionalField hv hnull ((h depth).isLocal v hv)]
  cases take (read depth) v <;> rfl

theorem Member.Holds.trans {m : Member δ} {inner : Nat → Reader γ} (h : m.Holds read)
    {g : γ → Option β}
    (hread : ∀ depth v, IsValue v → take (read depth) v = (take (inner depth) v).bind g) :
    m.Holds inner := by
  obtain ⟨k, hk⟩ := h
  refine ⟨fun d x => (g x).bind (k d), fun depth d v hv hnull => ?_⟩
  rw [hk depth d v hv hnull, hread depth v hv, Option.bind_assoc]

theorem idle_member {get : δ → Option (Option β)} {set : Option β → δ → δ}
    (h : ∀ d, get d = none → s.finish (set none d) = s.finish d) :
    s.Idle (member name required (fun depth => optionalField (read depth)) get set) := by
  intro depth d e hgiven he
  rw [take_member, take_optionalField_null] at he
  cases he
  exact h d (Option.not_isSome_iff_eq_none.mp (Bool.eq_false_iff.mp hgiven))

variable {m : Member δ} {depth : Nat}

/-- What a record comes to depends on the value of a field through what its member reads. -/
theorem Shape.exists_bind_ofFields (hs : s.Lawful) (hm : m ∈ s.members) {f : Field}
    (hname : f.name? = some m.name) (hread : m.Holds read) (depth : Nat) (fs gs : List Field) :
    ∃ k : β → Option α, ∀ v, IsValue v → v ≠ nullBytes →
      s.ofFields depth (fs ++ f.hold v :: gs) = (take (read depth) v).bind k := by
  obtain ⟨k, hk⟩ := hread
  have hnone : ∀ v, (take (read depth) v).bind (fun _ => (none : Option α)) = none :=
    fun v => Option.bind_fun_none _
  cases hfold : fs.foldlM (fill (s.entry depth)) s.blank with
  | none =>
    refine ⟨fun _ => none, fun v hv hnull => ?_⟩
    rw [ofFields, List.foldlM_append, hfold, hnone]
    rfl
  | some d =>
    have hfill : ∀ v, fill (s.entry depth) d (f.hold v) =
        if m.given d then none else take (m.read depth d) v :=
      fun v => fill_known (f := f.hold v) hs hm hname d
    by_cases hgiven : m.given d = true
    · refine ⟨fun _ => none, fun v hv hnull => ?_⟩
      rw [ofFields, List.foldlM_append, hfold, hnone]
      show ((f.hold v :: gs).foldlM (fill (s.entry depth)) d).bind _ = none
      rw [List.foldlM_cons, hfill, if_pos hgiven]
      rfl
    · refine ⟨fun x => (k d x).bind fun e => (gs.foldlM (fill (s.entry depth)) e).bind fun d =>
        (s.finish d).toOption, fun v hv hnull => ?_⟩
      rw [ofFields, List.foldlM_append, hfold]
      show ((f.hold v :: gs).foldlM (fill (s.entry depth)) d).bind _ = _
      rw [List.foldlM_cons, hfill, if_neg hgiven, hk depth d v hv hnull]
      simp only [Option.bind_eq_bind, Option.bind_assoc]

theorem Shape.exists_bind_inTurn {ms : List (Member δ)} {x : Padded} {ps : List Padded}
    (hm : ms[ps.length]? = some m) (hread : m.Holds read) (depth : Nat) (qs : List Padded)
    (d : δ) :
    ∃ k : β → Option δ, ∀ v, IsValue v → v ≠ nullBytes →
      inTurn depth ms (ps ++ x.hold v :: qs) d = (take (read depth) v).bind k := by
  induction ps generalizing ms d with
  | nil =>
    obtain ⟨k, hk⟩ := hread
    cases ms with
    | nil => cases hm
    | cons n ms =>
      cases hm
      refine ⟨fun y => (k d y).bind (inTurn depth ms qs), fun v hv hnull => ?_⟩
      rw [List.nil_append, inTurn]
      show (take (m.read depth d) v).bind _ = _
      rw [hk depth d v hv hnull, Option.bind_assoc]
  | cons p ps ih =>
    cases ms with
    | nil => cases hm
    | cons n ms =>
      cases htake : take (n.read depth d) p.text with
      | none =>
        refine ⟨fun _ => none, fun v hv hnull => ?_⟩
        rw [List.cons_append, inTurn, htake, Option.bind_fun_none]
        rfl
      | some e =>
        obtain ⟨k, hk⟩ := ih hm e
        refine ⟨k, fun v hv hnull => ?_⟩
        rw [List.cons_append, inTurn, htake, Option.bind_some, hk v hv hnull]

theorem Shape.exists_bind_ofItems {x : Padded} {ps : List Padded}
    (hm : s.members[ps.length]? = some m) (hread : m.Holds read) (depth : Nat)
    (qs : List Padded) :
    ∃ k : β → Option α, ∀ v, IsValue v → v ≠ nullBytes →
      s.ofItems depth (ps ++ x.hold v :: qs) = (take (read depth) v).bind k := by
  obtain ⟨k, hk⟩ := exists_bind_inTurn hm hread depth qs s.blank
  refine ⟨fun y => (k y).bind fun d => (s.finish d).toOption, fun v hv hnull => ?_⟩
  rw [ofItems, hk v hv hnull, Option.bind_assoc]

end

end Json
end Colloquy
