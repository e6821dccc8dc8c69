/-
What a message is written in besides its fields.

The objects of a message may have their fields in any order, fields with unknown names, and null for
what is absent.  Only the objects for points in time allow no other fields.  None of them may have a
known field twice.
-/
import Colloquy.Proofs.Commuting
import Mathlib.Logic.Relation

namespace Colloquy

open Json (Shape Member Reader Field Padded IsValue Composite Makes Settled Regular nullBytes
  objectBytes listBytes take Blank lawful_member apart_member idle_member holds_member
  holds_optional regular_textField regular_natField regular_intField regular_value)

/-! ## The shapes are lawful

Each member of a shape sets a place of its own in the draft. -/

theorem Instant.lawful : shape.Lawful where
  members := by
    simp only [shape, List.forall_mem_cons]
    exact ⟨lawful_member (fun _ => regular_natField 64) fun _ _ => rfl,
      lawful_member (fun _ => regular_natField 32) fun _ _ => rfl, List.forall_mem_nil _⟩
  names := by decide
  apart := by
    simp only [shape, List.pairwise_cons, List.forall_mem_cons, List.not_mem_nil,
      IsEmpty.forall_iff, implies_true, List.Pairwise.nil, and_true]
    exact apart_member (fun _ _ => rfl) (fun _ _ => rfl) fun _ _ _ => rfl

theorem Instant.makes_read {depth : Nat} {v : Bytes} (h : Settled (shape.read depth) v) :
    Makes (read depth) v ((take (shape.read depth) v).bind fun p => ofParts? p.1 p.2) := by
  intro ws rest hws hr
  have hread := h ws rest hws hr
  unfold read
  obtain ⟨htake, why, hread⟩ | ⟨⟨s, n⟩, htake, hread⟩ := Json.read_cases hread
  · rw [htake, hread]
    rfl
  · rw [htake, hread]
    dsimp only [Option.bind_some]
    cases ofParts? s n <;> rfl

theorem Instant.regular_read (depth : Nat) : Regular (read depth) where
  isLocal := fun v hv => (makes_read ((lawful.regular depth).isLocal v hv)).settled
  eats := by
    intro bs t r h
    unfold read at h
    split at h
    · cases h
    · rename_i hread
      split at h
      · cases h
        exact (lawful.regular depth).eats hread
      · cases h

theorem Route.lawful : shape.Lawful where
  members := by
    have hoptional := regular_textField.optionalField
    simp only [shape, List.forall_mem_cons]
    exact ⟨lawful_member (fun _ => regular_textField) fun _ _ => rfl,
      lawful_member (fun _ => hoptional) fun _ _ => rfl,
      lawful_member (fun _ => hoptional) fun _ _ => rfl,
      lawful_member (fun _ => hoptional) fun _ _ => rfl, List.forall_mem_nil _⟩
  names := by decide
  apart := by
    simp only [shape, List.pairwise_cons, List.forall_mem_cons, List.not_mem_nil,
      IsEmpty.forall_iff, implies_true, List.Pairwise.nil, and_true]
    and_intros <;> exact apart_member (fun _ _ => rfl) (fun _ _ => rfl) fun _ _ _ => rfl

theorem Origin.lawful : shape.Lawful where
  members := by
    simp only [shape, List.forall_mem_cons]
    exact ⟨lawful_member (fun _ => regular_textField) fun _ _ => rfl,
      lawful_member (fun _ => regular_textField) fun _ _ => rfl,
      lawful_member (fun _ => regular_textField) fun _ _ => rfl,
      lawful_member (fun _ => regular_textField) fun _ _ => rfl,
      lawful_member (fun _ => regular_natField 32) fun _ _ => rfl, List.forall_mem_nil _⟩
  names := by decide
  apart := by
    simp only [shape, List.pairwise_cons, List.forall_mem_cons, List.not_mem_nil,
      IsEmpty.forall_iff, implies_true, List.Pairwise.nil, and_true]
    and_intros <;> exact apart_member (fun _ _ => rfl) (fun _ _ => rfl) fun _ _ _ => rfl

theorem Stamp.lawful : shape.Lawful where
  members := by
    have hcount := (regular_natField 64).optionalField
    have hpublished := fun depth => (Instant.regular_read depth).optionalField
    simp only [shape, List.forall_mem_cons]
    exact ⟨lawful_member (fun _ => hcount) fun _ _ => rfl,
      lawful_member Instant.regular_read fun _ _ => rfl,
      lawful_member hpublished fun _ _ => rfl,
      lawful_member (fun _ => hcount) fun _ _ => rfl,
      lawful_member Origin.lawful.regular fun _ _ => rfl, List.forall_mem_nil _⟩
  names := by decide
  apart := by
    simp only [shape, List.pairwise_cons, List.forall_mem_cons, List.not_mem_nil,
      IsEmpty.forall_iff, implies_true, List.Pairwise.nil, and_true]
    and_intros <;> exact apart_member (fun _ _ => rfl) (fun _ _ => rfl) fun _ _ _ => rfl

theorem Ack.lawful : shape.Lawful where
  members := by
    have hremaining := (regular_intField (Word.intMin 32) (Word.intMax 32)).optionalField
    have htimeout := (regular_natField 64).optionalField
    simp only [shape, List.forall_mem_cons]
    exact ⟨lawful_member (fun _ => regular_textField) fun _ _ => rfl,
      lawful_member (fun _ => hremaining) fun _ _ => rfl,
      lawful_member (fun _ => htimeout) fun _ _ => rfl, List.forall_mem_nil _⟩
  names := by decide
  apart := by
    simp only [shape, List.pairwise_cons, List.forall_mem_cons, List.not_mem_nil,
      IsEmpty.forall_iff, implies_true, List.Pairwise.nil, and_true]
    and_intros <;> exact apart_member (fun _ _ => rfl) (fun _ _ => rfl) fun _ _ _ => rfl

theorem Message.lawful : shape.Lawful where
  members := by
    have htags := regular_textField.listField
    have hack := fun depth => (Ack.lawful.regular depth).optionalField
    have hpayload := fun depth => (regular_value depth).optionalField
    simp only [shape, List.forall_mem_cons]
    exact ⟨lawful_member (fun _ => regular_textField) fun _ _ => rfl,
      lawful_member (fun _ => regular_textField) fun _ _ => rfl,
      lawful_member htags fun _ _ => rfl,
      lawful_member Route.lawful.regular fun _ _ => rfl,
      lawful_member Stamp.lawful.regular fun _ _ => rfl,
      lawful_member hack fun _ _ => rfl,
      lawful_member hpayload fun _ _ => rfl, List.forall_mem_nil _⟩
  names := by decide
  apart := by
    simp only [shape, List.pairwise_cons, List.forall_mem_cons, List.not_mem_nil,
      IsEmpty.forall_iff, implies_true, List.Pairwise.nil, and_true]
    and_intros <;> exact apart_member (fun _ _ => rfl) (fun _ _ => rfl) fun _ _ _ => rfl

/-! ## The objects of a message -/

namespace Message

inductive Part where
  | message
  | route
  | stamp
  | origin
  | ack
  | instant

/-- A field that an object knows. -/
structure Slot where
  name : String
  /-- The field may be left out, and null stands for leaving it out. -/
  optional : Bool
  /-- The object that the field holds. -/
  part : Option Part

namespace Part

/-- The fields that an object knows, in the order in which a list gives their values. -/
def slots : Part → List Slot
  | message => [
    ⟨"id", false, none⟩, ⟨"correlationId", false, none⟩, ⟨"tags", false, none⟩,
    ⟨"topics", false, route⟩, ⟨"meta", false, stamp⟩, ⟨"ack", true, ack⟩, ⟨"payload", true, none⟩]
  | route => [
    ⟨"to", false, none⟩, ⟨"response", true, none⟩, ⟨"forward", true, none⟩,
    ⟨"routingKey", true, none⟩]
  | stamp => [
    ⟨"ttl", true, none⟩, ⟨"createdAt", false, instant⟩, ⟨"publishedAt", true, instant⟩,
    ⟨"durationMs", true, none⟩, ⟨"serviceDetails", false, origin⟩]
  | origin => [
    ⟨"name", false, none⟩, ⟨"version", false, none⟩, ⟨"instanceId", false, none⟩,
    ⟨"hostname", false, none⟩, ⟨"pid", false, none⟩]
  | ack => [
    ⟨"responderId", false, none⟩, ⟨"responsesRemaining", true, none⟩, ⟨"timeoutMs", true, none⟩]
  | instant => [⟨"secs_since_epoch", false, none⟩, ⟨"nanos_since_epoch", false, none⟩]

def names (p : Part) : List String := p.slots.map Slot.name

def Draft : Part → Type
  | message => Message.Draft
  | route => Route.Draft
  | stamp => Stamp.Draft
  | origin => Origin.Draft
  | ack => Ack.Draft
  | instant => Instant.Draft

def Made : Part → Type
  | message => Message
  | route => Route
  | stamp => Stamp
  | origin => Origin
  | ack => Ack
  | instant => Nat × Nat

def shape : (p : Part) → Shape p.Draft p.Made
  | message => Message.shape
  | route => Route.shape
  | stamp => Stamp.shape
  | origin => Origin.shape
  | ack => Ack.shape
  | instant => Instant.shape

theorem lawful (p : Part) : p.shape.Lawful := by
  cases p with
  | message => exact Message.lawful
  | route => exact Route.lawful
  | stamp => exact Stamp.lawful
  | origin => exact Origin.lawful
  | ack => exact Ack.lawful
  | instant => exact Instant.lawful

/-- Only points in time allow no fields that they do not know. -/
theorem closed_eq_false {p : Part} (h : p ≠ instant) : p.shape.closed = false := by
  cases p with
  | instant => exact absurd rfl h
  | _ => rfl

/-- `m` is the member for a field. -/
structure Fits (p : Part) (slot : Slot) (m : Member p.Draft) : Prop where
  name : m.name = slot.name
  idle : slot.optional = true → p.shape.Idle m
  holds : ∀ q, slot.part = some q → m.Holds q.shape.read

theorem fits_bare {p : Part} {m : Member p.Draft} {name : String} (hname : m.name = name) :
    p.Fits ⟨name, false, none⟩ m where
  name := hname
  idle := nofun
  holds := nofun

theorem fits_optional {p : Part} {m : Member p.Draft} {name : String} (hname : m.name = name)
    (hidle : p.shape.Idle m) : p.Fits ⟨name, true, none⟩ m where
  name := hname
  idle := fun _ => hidle
  holds := nofun

theorem fits_part {p q : Part} {m : Member p.Draft} {name : String} (hname : m.name = name)
    (hholds : m.Holds q.shape.read) : p.Fits ⟨name, false, some q⟩ m where
  name := hname
  idle := nofun
  holds := by
    rintro _ ⟨⟩
    exact hholds

theorem fits_optionalPart {p q : Part} {m : Member p.Draft} {name : String} (hname : m.name = name)
    (hidle : p.shape.Idle m) (hholds : m.Holds q.shape.read) :
    p.Fits ⟨name, true, some q⟩ m where
  name := hname
  idle := fun _ => hidle
  holds := by
    rintro _ ⟨⟩
    exact hholds

theorem take_instant (depth : Nat) (v : Bytes) (hv : IsValue v) :
    take (Instant.read depth) v =
      (take (instant.shape.read depth) v).bind fun p => Instant.ofParts? p.1 p.2 :=
  (Instant.makes_read ((Instant.lawful.regular depth).isLocal v hv)).take_eq

theorem fits (p : Part) : List.Forall₂ p.Fits p.slots p.shape.members := by
  cases p with
  | message =>
    refine .cons (fits_bare rfl) <| .cons (fits_bare rfl) <| .cons (fits_bare rfl) <|
      .cons (fits_part rfl holds_member) <| .cons (fits_part rfl holds_member) <|
      .cons (fits_optionalPart rfl (idle_member fun d h => ?_) (holds_optional ?_)) <|
      .cons (fits_optional rfl (idle_member fun d h => ?_)) .nil
    · cases d
      cases h
      rfl
    · exact Ack.lawful.regular
    · cases d
      cases h
      rfl
  | route =>
    refine .cons (fits_bare rfl) <| .cons (fits_optional rfl (idle_member fun d h => ?_)) <|
      .cons (fits_optional rfl (idle_member fun d h => ?_)) <|
      .cons (fits_optional rfl (idle_member fun d h => ?_)) .nil
    all_goals
      cases d
      cases h
      rfl
  | stamp =>
    refine .cons (fits_optional rfl (idle_member fun d h => ?_)) <|
      .cons (fits_part rfl (holds_member.trans take_instant)) <|
      .cons (fits_optionalPart rfl (idle_member fun d h => ?_)
        ((holds_optional Instant.regular_read).trans take_instant)) <|
      .cons (fits_optional rfl (idle_member fun d h => ?_)) <|
      .cons (fits_part rfl holds_member) .nil
    all_goals
      cases d
      cases h
      rfl
  | origin =>
    exact .cons (fits_bare rfl) <| .cons (fits_bare rfl) <| .cons (fits_bare rfl) <|
      .cons (fits_bare rfl) <| .cons (fits_bare rfl) .nil
  | ack =>
    refine .cons (fits_bare rfl) <| .cons (fits_optional rfl (idle_member fun d h => ?_)) <|
      .cons (fits_optional rfl (idle_member fun d h => ?_)) .nil
    all_goals
      cases d
      cases h
      rfl
  | instant => exact .cons (fits_bare rfl) (.cons (fits_bare rfl) .nil)

/-- The member for the field at some place in the order of declaration. -/
theorem exists_member {p : Part} {slot : Slot} {i : Nat} (h : p.slots[i]? = some slot) :
    ∃ m, p.shape.members[i]? = some m ∧ p.Fits slot m := by
  have hfits := p.fits
  revert h hfits
  generalize p.slots = slots
  generalize p.shape.members = ms
  intro h hfits
  induction hfits generalizing i with
  | nil => cases h
  | cons hm _ ih =>
    cases i with
    | zero =>
      cases h
      exact ⟨_, rfl, hm⟩
    | succ i => exact ih h

theorem exists_mem {p : Part} {slot : Slot} (h : slot ∈ p.slots) :
    ∃ m ∈ p.shape.members, p.Fits slot m := by
  obtain ⟨i, hi⟩ := List.mem_iff_getElem?.mp h
  obtain ⟨m, hm, hfits⟩ := exists_member hi
  exact ⟨m, List.mem_of_getElem? hm, hfits⟩

theorem names_eq (p : Part) : p.shape.members.map Member.name = p.names := by
  cases p <;> rfl

end Part

/-! ## Changes -/

/-- What may be done to an object without changing what it says. -/
inductive Rearranges (p : Part) : Bytes → Bytes → Prop
  | permute {fs gs : List Field} (h : ∀ f ∈ fs, f.Proper) (hperm : fs.Perm gs) :
      Rearranges p (objectBytes fs) (objectBytes gs)
  | insert {f : Field} {fs gs : List Field} {name : String} (hp : p ≠ .instant)
      (h : ∀ g ∈ fs ++ f :: gs, g.Proper) (hname : f.name? = some name)
      (hunknown : name ∉ p.names) :
      Rearranges p (objectBytes (fs ++ gs)) (objectBytes (fs ++ f :: gs))
  | drop {slot : Slot} {f : Field} {fs gs : List Field} (hslot : slot ∈ p.slots)
      (hoptional : slot.optional = true) (h : ∀ g ∈ fs ++ f :: gs, g.Proper)
      (hname : f.name? = some slot.name) (hnull : f.value.text = nullBytes) :
      Rearranges p (objectBytes (fs ++ f :: gs)) (objectBytes (fs ++ gs))

/-- A known field is there already and put in once more. -/
inductive Repeats (p : Part) : Bytes → Bytes → Prop
  | insert {slot : Slot} {f g : Field} {fs gs : List Field} (hslot : slot ∈ p.slots)
      (h : ∀ g ∈ fs ++ f :: gs, g.Proper) (hname : f.name? = some slot.name) (hg : g ∈ fs ++ gs)
      (hgname : g.name? = some slot.name) :
      Repeats p (objectBytes (fs ++ gs)) (objectBytes (fs ++ f :: gs))

/-- A change of an object, or of an object inside it.  An object may hold its parts in its fields
or, when it is written as a list, in their places. -/
inductive Within (change : Part → Bytes → Bytes → Prop) : Part → Bytes → Bytes → Prop
  | here {p : Part} {v w : Bytes} (h : change p v w) : Within change p v w
  | field {p q : Part} {slot : Slot} {f : Field} {fs gs : List Field} {w : Bytes}
      (hslot : slot ∈ p.slots) (hpart : slot.part = some q) (h : ∀ g ∈ fs ++ f :: gs, g.Proper)
      (hname : f.name? = some slot.name) (hw : Within change q f.value.text w) :
      Within change p (objectBytes (fs ++ f :: gs)) (objectBytes (fs ++ f.hold w :: gs))
  | item {p q : Part} {slot : Slot} {x : Padded} {xs ys : List Padded} {w : Bytes}
      (hslot : p.slots[xs.length]? = some slot) (hpart : slot.part = some q)
      (h : ∀ y ∈ xs ++ x :: ys, y.Proper) (hw : Within change q x.text w) :
      Within change p (listBytes (xs ++ x :: ys)) (listBytes (xs ++ x.hold w :: ys))

/-- A change of the message in a document, which may have blanks around it. -/
def Changes (change : Part → Bytes → Bytes → Prop) (bs cs : Bytes) : Prop :=
  ∃ before v w after, Blank before ∧ Blank after ∧ bs = before ++ (v ++ after) ∧
    cs = before ++ (w ++ after) ∧ Within change .message v w

/-! ## What a change does -/

theorem forall_mem_replace {α : Type} {P : α → Prop} {xs ys : List α} {x y : α}
    (h : ∀ z ∈ xs ++ x :: ys, P z) (hy : P x → P y) : ∀ z ∈ xs ++ y :: ys, P z := by
  simp only [List.forall_mem_append, List.forall_mem_cons] at h ⊢
  exact ⟨h.1, hy h.2.1, h.2.2⟩

theorem forall_mem_remove {α : Type} {P : α → Prop} {xs ys : List α} {x : α}
    (h : ∀ z ∈ xs ++ x :: ys, P z) : ∀ z ∈ xs ++ ys, P z := by
  simp only [List.forall_mem_append, List.forall_mem_cons] at h ⊢
  exact ⟨h.1, h.2.2⟩

theorem Within.composite {change : Part → Bytes → Bytes → Prop}
    (hchange : ∀ p v w, change p v w → Composite v ∧ Composite w) {p : Part} {v w : Bytes}
    (h : Within change p v w) : Composite v ∧ Composite w := by
  induction h with
  | here h => exact hchange _ _ _ h
  | field _ _ h _ _ ih =>
    exact ⟨.object h, .object (forall_mem_replace h (·.hold ih.2.isValue))⟩
  | item _ _ h _ ih =>
    exact ⟨.list h, .list (forall_mem_replace h (·.hold ih.2.isValue))⟩

theorem Rearranges.composite (p : Part) (v w : Bytes) (h : Rearranges p v w) :
    Composite v ∧ Composite w := by
  cases h with
  | permute h hperm =>
    exact ⟨.object h, .object fun f hf => h f (hperm.mem_iff.mpr hf)⟩
  | insert _ h _ _ => exact ⟨.object (forall_mem_remove h), .object h⟩
  | drop _ _ h _ _ => exact ⟨.object h, .object (forall_mem_remove h)⟩

theorem Repeats.composite (p : Part) (v w : Bytes) (h : Repeats p v w) :
    Composite v ∧ Composite w := by
  cases h with
  | insert _ h _ _ _ => exact ⟨.object (forall_mem_remove h), .object h⟩

namespace Part

variable {p q : Part} {slot : Slot}

theorem take_object (p : Part) (depth : Nat) {fs : List Field} (h : ∀ f ∈ fs, f.Proper) :
    take (p.shape.read (depth + 1)) (objectBytes fs) = p.shape.ofFields depth fs :=
  (Shape.fixed_object p.lawful.isLocal (fun f hf => (h f hf).toSpaced)
    fun f hf => (h f hf).isValue).take_eq

theorem take_list (p : Part) (depth : Nat) {ps : List Padded} (h : ∀ x ∈ ps, x.Proper) :
    take (p.shape.read (depth + 1)) (listBytes ps) = p.shape.ofItems depth ps :=
  (Shape.fixed_list p.lawful.isLocal (fun x hx => (h x hx).toSpaced)
    fun x hx => (h x hx).isValue).take_eq

/-- What is made of an object depends on what is made of an object in one of its fields, and on
nothing else about it. -/
theorem exists_bind_field (hslot : slot ∈ p.slots) (hpart : slot.part = some q) {f : Field}
    {fs gs : List Field} (h : ∀ g ∈ fs ++ f :: gs, g.Proper) (hname : f.name? = some slot.name)
    (depth : Nat) : ∃ inner, ∃ k : q.Made → Option p.Made, ∀ v, Composite v →
      take (p.shape.read depth) (objectBytes (fs ++ f.hold v :: gs)) =
        (take (q.shape.read inner) v).bind k := by
  cases depth with
  | zero => exact ⟨0, fun _ => none, fun v _ => (Option.bind_fun_none _).symm⟩
  | succ depth =>
    obtain ⟨m, hm, hfits⟩ := exists_mem hslot
    rw [← hfits.name] at hname
    obtain ⟨k, hk⟩ := Shape.exists_bind_ofFields p.lawful hm hname (hfits.holds q hpart) depth fs gs
    refine ⟨depth, k, fun v hv => ?_⟩
    rw [take_object p depth (forall_mem_replace h (·.hold hv.isValue)), hk v hv.isValue hv.ne_null]

theorem exists_bind_item {x : Padded} {xs ys : List Padded}
    (hslot : p.slots[xs.length]? = some slot) (hpart : slot.part = some q)
    (h : ∀ y ∈ xs ++ x :: ys, y.Proper) (depth : Nat) :
    ∃ inner, ∃ k : q.Made → Option p.Made, ∀ v, Composite v →
      take (p.shape.read depth) (listBytes (xs ++ x.hold v :: ys)) =
        (take (q.shape.read inner) v).bind k := by
  cases depth with
  | zero => exact ⟨0, fun _ => none, fun v _ => (Option.bind_fun_none _).symm⟩
  | succ depth =>
    obtain ⟨m, hm, hfits⟩ := exists_member hslot
    obtain ⟨k, hk⟩ := Shape.exists_bind_ofItems hm (hfits.holds q hpart) depth ys
    refine ⟨depth, k, fun v hv => ?_⟩
    rw [take_list p depth (forall_mem_replace h (·.hold hv.isValue)), hk v hv.isValue hv.ne_null]

end Part

theorem Rearranges.take_eq {p : Part} {v w : Bytes} (h : Rearranges p v w) {depth : Nat}
    {x : p.Made} (hx : take (p.shape.read depth) v = some x) :
    take (p.shape.read depth) w = some x := by
  cases depth with
  | zero => cases h <;> cases hx
  | succ depth =>
    cases h with
    | @permute fs gs h hperm =>
      rw [p.take_object depth h] at hx
      rw [p.take_object depth fun f hf => h f (hperm.mem_iff.mpr hf), ← hx]
      exact (Shape.ofFields_perm p.lawful (fun f hf => (h f hf).isValue) hperm).symm
    | @insert f fs gs name hp h hname hunknown =>
      rw [p.take_object depth (forall_mem_remove h)] at hx
      rw [← p.names_eq] at hunknown
      rw [p.take_object depth h, ← hx]
      exact Shape.ofFields_unknown p.lawful (Part.closed_eq_false hp) hname hunknown
        fun g hg => (h g hg).isValue
    | @drop slot f fs gs hslot hoptional h hname hnull =>
      obtain ⟨m, hm, hfits⟩ := Part.exists_mem hslot
      rw [← hfits.name] at hname
      rw [p.take_object depth h] at hx
      rw [p.take_object depth (forall_mem_remove h)]
      exact Shape.ofFields_null p.lawful hm (hfits.idle hoptional) hname hnull
        (fun g hg => (h g hg).isValue) hx

theorem Repeats.take_eq {p : Part} {v w : Bytes} (h : Repeats p v w) (depth : Nat) :
    take (p.shape.read depth) w = none := by
  cases h with
  | @insert slot f g fs gs hslot h hname hg hgname =>
    cases depth with
    | zero => rfl
    | succ depth =>
      obtain ⟨m, hm, hfits⟩ := Part.exists_mem hslot
      rw [← hfits.name] at hname hgname
      rw [p.take_object depth h]
      exact Shape.ofFields_twice p.lawful hm hname hg hgname fun g hg => (h g hg).isValue

/-- An object from which something is made comes to the same when it, or an object inside it, is
rearranged. -/
theorem take_rearranged {p : Part} {v w : Bytes} (h : Within Rearranges p v w) {depth : Nat}
    {x : p.Made} (hx : take (p.shape.read depth) v = some x) :
    take (p.shape.read depth) w = some x := by
  induction h generalizing depth with
  | here h => exact h.take_eq hx
  | @field p q slot f fs gs w hslot hpart h hname hw ih =>
    obtain ⟨hv, hw⟩ := hw.composite Rearranges.composite
    obtain ⟨inner, k, hk⟩ := Part.exists_bind_field hslot hpart h hname depth
    have hvalue : f.hold f.value.text = f := rfl
    have hx' := hk _ hv
    rw [hvalue, hx] at hx'
    obtain ⟨y, hy, hky⟩ := Option.bind_eq_some_iff.mp hx'.symm
    rw [hk w hw, ih hy]
    exact hky
  | @item p q slot y xs ys w hslot hpart h hw ih =>
    obtain ⟨hv, hw⟩ := hw.composite Rearranges.composite
    obtain ⟨inner, k, hk⟩ := Part.exists_bind_item hslot hpart h depth
    have hvalue : y.hold y.text = y := rfl
    have hx' := hk _ hv
    rw [hvalue, hx] at hx'
    obtain ⟨z, hz, hkz⟩ := Option.bind_eq_some_iff.mp hx'.symm
    rw [hk w hw, ih hz]
    exact hkz

/-- Nothing is made of an object that has a known field twice, or has such an object inside it. -/
theorem take_repeated {p : Part} {v w : Bytes} (h : Within Repeats p v w) (depth : Nat) :
    take (p.shape.read depth) w = none := by
  induction h generalizing depth with
  | here h => exact h.take_eq depth
  | field hslot hpart h hname hw ih =>
    obtain ⟨inner, k, hk⟩ := Part.exists_bind_field hslot hpart h hname depth
    rw [hk _ (hw.composite Repeats.composite).2, ih]
    rfl
  | item hslot hpart h hw ih =>
    obtain ⟨inner, k, hk⟩ := Part.exists_bind_item hslot hpart h depth
    rw [hk _ (hw.composite Repeats.composite).2, ih]
    rfl

/-! ## Documents -/

/-- A document comes to what is made of its value. -/
theorem toOption_decode {before v after : Bytes} (hbefore : Blank before) (hafter : Blank after)
    (hv : IsValue v) :
    (decode (before ++ (v ++ after))).toOption = take (shape.read Json.nestingLimit) v := by
  have hread := (lawful.regular Json.nestingLimit).isLocal v hv before after hbefore
  have hends : Json.Ends after := by
    have h := Json.Ends.blanks (show Json.Ends [] from trivial) hafter
    rwa [List.append_nil] at h
  have hread := hread hends
  unfold decode Json.document
  obtain ⟨htake, why, hread⟩ | ⟨m, htake, hread⟩ := Json.read_cases hread
  · rw [htake, hread]
    rfl
  · rw [htake, hread]
    dsimp only
    rw [Json.skipBlanks_of_blank hafter]
    rfl

theorem decode_changes {bs cs : Bytes} (h : Changes Rearranges bs cs) {m : Message}
    (hm : decode bs = .ok m) : decode cs = .ok m := by
  obtain ⟨before, v, w, after, hbefore, hafter, rfl, rfl, hw⟩ := h
  obtain ⟨hvalue, hvalue'⟩ := hw.composite Rearranges.composite
  have hread := toOption_decode hbefore hafter hvalue.isValue
  rw [hm] at hread
  refine Json.ok_of_toOption ?_
  rw [toOption_decode hbefore hafter hvalue'.isValue]
  exact take_rearranged hw hread.symm

/-- A document that is accepted is one list or object with blanks around it. -/
theorem exists_composite_of_decode {bs : Bytes} {m : Message} (hm : decode bs = .ok m) :
    ∃ before v after, Blank before ∧ Blank after ∧ bs = before ++ (v ++ after) ∧ Composite v := by
  have hbytes : ∃ before v after, Blank before ∧ Blank after ∧ bs = before ++ (v ++ after) ∧
      IsValue v := by
    unfold decode Json.document at hm
    split at hm
    · cases hm
    · rename_i r hread
      split at hm
      · rename_i hend
        obtain ⟨v, hv, hvs⟩ := (lawful.regular Json.nestingLimit).eats hread
        obtain ⟨before, hbefore, hbs⟩ := Json.exists_blank bs
        obtain ⟨after, hafter, hr⟩ := Json.exists_blank r
        rw [hend, List.append_nil] at hr
        exact ⟨before, v, r, hbefore, hr ▸ hafter, hvs ▸ hbs, hv⟩
      · cases hm
  obtain ⟨before, v, after, hbefore, hafter, rfl, hv⟩ := hbytes
  have hread := toOption_decode hbefore hafter hv
  rw [hm] at hread
  exact ⟨before, v, after, hbefore, hafter, rfl,
    Shape.composite_of_take (s := shape) rfl rfl hv hread.symm⟩

/-- A document that is accepted says the same with its fields in another order, with unknown fields
put in and with nulls left out, in as many steps as one likes.  A document with a known field twice
is refused. -/
theorem decode_rearranged (bs : Bytes) :
    (∀ m, decode bs = .ok m →
      (∃ before v after, Blank before ∧ Blank after ∧ bs = before ++ (v ++ after) ∧
        Composite v) ∧
      ∀ cs, Relation.ReflTransGen (Changes Rearranges) bs cs → decode cs = .ok m) ∧
    ∀ cs, Changes Repeats bs cs → ∃ why, decode cs = .error why := by
  refine ⟨fun m hm => ⟨exists_composite_of_decode hm, fun cs h => ?_⟩, fun cs h => ?_⟩
  · induction h with
    | refl => exact hm
    | tail _ hstep ih => exact decode_changes hstep ih
  · obtain ⟨before, v, w, after, hbefore, hafter, rfl, rfl, hw⟩ := h
    refine Json.error_of_toOption ?_
    rw [toOption_decode hbefore hafter (hw.composite Repeats.composite).2.isValue]
    exact take_repeated hw Json.nestingLimit

/-! A message with the fields of a time in one order and the other, with a field that is not known,
and with a null. -/

/-- A field without blanks. -/
def bare (name : String) (v : Bytes) : Field := ⟨[], Utf8.encode name, [], ⟨[], v, []⟩⟩

def anyText : Bytes := Utf8.encode "\"text\""

def seconds : Field := bare "secs_since_epoch" (Utf8.encode "1")

def nanoseconds : Field := bare "nanos_since_epoch" (Utf8.encode "2000000000")

def sender : Field :=
  bare "serviceDetails" (objectBytes [bare "name" anyText, bare "version" anyText,
    bare "instanceId" anyText, bare "hostname" anyText, bare "pid" (Utf8.encode "7")])

/-- The stamp of a message, with the fields of its time. -/
def stamped (time : List Field) : Field :=
  bare "meta" (objectBytes [bare "createdAt" (objectBytes time), sender])

def firstFields : List Field :=
  [bare "id" anyText, bare "correlationId" anyText, bare "topics" (objectBytes [bare "to" anyText])]

/-- A field that no message knows, with a value that no field could hold. -/
def oddField : Field := bare "odd" (Utf8.encode "[1e999,\"\\ud800\"]")

/-- A document with blanks around its message. -/
def framed (v : Bytes) : Bytes := [0x20] ++ (v ++ [0x0a])

theorem changes_framed {change : Part → Bytes → Bytes → Prop} {v w : Bytes}
    (h : Within change .message v w) : Changes change (framed v) (framed w) :=
  ⟨[0x20], v, w, [0x0a], by decide, by decide, rfl, rfl, h⟩

/-- The fields of the time change places. -/
theorem changes_time (fs gs : List Field)
    (h : ∀ g ∈ fs ++ stamped [seconds, nanoseconds] :: gs, g.Proper) :
    Changes Rearranges (framed (objectBytes (fs ++ stamped [seconds, nanoseconds] :: gs)))
      (framed (objectBytes (fs ++ stamped [nanoseconds, seconds] :: gs))) := by
  have htime : Within Rearranges .instant (objectBytes [seconds, nanoseconds])
      (objectBytes [nanoseconds, seconds]) := .here (.permute (by decide +kernel) (.swap _ _ _))
  have hstamp : Within Rearranges .stamp
      (objectBytes ([] ++ bare "createdAt" (objectBytes [seconds, nanoseconds]) :: [sender]))
      (objectBytes ([] ++ bare "createdAt" (objectBytes [nanoseconds, seconds]) :: [sender])) :=
    .field (.tail _ (.head _)) rfl (by decide +kernel) (by decide +kernel) htime
  refine changes_framed ?_
  exact .field (.tail _ (.tail _ (.tail _ (.tail _ (.head _))))) rfl h (by decide +kernel) hstamp

theorem decode_rearranged_framed :
    ∃ m, decode (framed (objectBytes (firstFields ++ [stamped [seconds, nanoseconds],
        bare "ack" nullBytes]))) = .ok m ∧
      decode (framed (objectBytes (oddField :: firstFields ++ [stamped [nanoseconds, seconds]]))) =
        .ok m ∧
      ∃ why, decode (framed (objectBytes (bare "id" nullBytes :: firstFields ++
        [stamped [seconds, nanoseconds], bare "ack" nullBytes]))) = .error why := by
  have haccepted : (decode (framed (objectBytes (firstFields ++ [stamped [seconds, nanoseconds],
      bare "ack" nullBytes])))).toOption.isSome = true := by decide +kernel
  obtain ⟨m, hm⟩ := Option.isSome_iff_exists.mp haccepted
  obtain ⟨hsame, htwice⟩ := decode_rearranged (framed (objectBytes (firstFields ++
    [stamped [seconds, nanoseconds], bare "ack" nullBytes])))
  have htime := changes_time firstFields [bare "ack" nullBytes] (by decide +kernel)
  have hodd : Changes Rearranges
      (framed (objectBytes ([] ++ (firstFields ++ [stamped [nanoseconds, seconds],
        bare "ack" nullBytes]))))
      (framed (objectBytes ([] ++ oddField :: (firstFields ++ [stamped [nanoseconds, seconds],
        bare "ack" nullBytes])))) :=
    changes_framed (.here (.insert nofun (by decide +kernel) rfl (by decide)))
  have hnull : Changes Rearranges
      (framed (objectBytes (oddField :: firstFields ++ [stamped [nanoseconds, seconds]] ++
        bare "ack" nullBytes :: [])))
      (framed (objectBytes (oddField :: firstFields ++ [stamped [nanoseconds, seconds]] ++ []))) :=
    changes_framed (.here (.drop (.tail _ (.tail _ (.tail _ (.tail _ (.tail _ (.head _)))))) rfl
      (by decide +kernel) rfl rfl))
  have hid : Changes Repeats
      (framed (objectBytes ([] ++ (firstFields ++ [stamped [seconds, nanoseconds],
        bare "ack" nullBytes]))))
      (framed (objectBytes ([] ++ bare "id" nullBytes :: (firstFields ++
        [stamped [seconds, nanoseconds], bare "ack" nullBytes])))) :=
    changes_framed (.here (.insert (.head _) (by decide +kernel) rfl (.head _) rfl))
  exact ⟨m, Json.ok_of_toOption hm, (hsame m (Json.ok_of_toOption hm)).2 _
    (((Relation.ReflTransGen.single htime).tail hodd).tail hnull), htwice _ hid⟩

end Message

end Colloquy
