/-
Reading records of known fields.

A record is written as an object with its fields in any order, or as a list of its fields
in the order of their declaration.  `Shape` lists the fields of a record that is filled in
as a draft `δ` and then finished as an `α`.  In an object each field is read at most once,
and a field the shape does not know is passed over, or refused if the shape is closed.  In
a list, fields that need not be there may be left off at the end.
-/
import Colloquy.Json.Reader
import Colloquy.Word

namespace Colloquy
namespace Json

/-- One field of a record under construction.  `read` takes the number of containers that
may still be opened inside the record. -/
structure Member (δ : Type) where
  name : String
  required : Bool
  given : δ → Bool
  read : Nat → δ → Reader δ

structure Shape (δ α : Type) where
  members : List (Member δ)
  closed : Bool
  blank : δ
  finish : δ → Except Fault α

/-- The fault of a value that is not of the wanted kind.  A bare word, number or string is
read first, so a fault inside it wins. -/
def unsuitable (bs : Bytes) : Fault :=
  match bs with
  | [] => .malformed
  | b :: r =>
    let after {α : Type} : Except Fault α → Fault := fun
      | .error f => f
      | .ok _ => .mismatched
    if b = 0x6e then after (word nullRest r)
    else if b = 0x74 then after (word trueRest r)
    else if b = 0x66 then after (word falseRest r)
    else if b = minus then after (number true r)
    else if isDigit b then after (number false (b :: r))
    else if b = quoteByte then after (text r)
    else if b = openList || b = openObject then .mismatched
    else .malformed

/-! ## Field values -/

def textField : Reader String := fun bs =>
  match skipBlanks bs with
  | [] => .error .truncated
  | b :: r => if b = quoteByte then text r else .error (unsuitable (b :: r))

def intField (lo hi : Int) : Reader Int := fun bs =>
  let check : Except Fault (Value × Bytes) → Except Fault (Int × Bytes) := fun
    | .error f => .error f
    | .ok (.integer i, r) => if lo ≤ i ∧ i ≤ hi then .ok (i, r) else .error .mismatched
    | .ok _ => .error .mismatched
  match skipBlanks bs with
  | [] => .error .truncated
  | b :: r =>
    if b = minus then check (number true r)
    else if isDigit b then check (number false (b :: r))
    else .error (unsuitable (b :: r))

def natField (bits : Nat) : Reader Nat := fun bs =>
  (intField 0 (Word.natMax bits) bs).map fun (i, r) => (i.toNat, r)

def optionalField {α : Type} (read : Reader α) : Reader (Option α) := fun bs =>
  match skipBlanks bs with
  | b :: r =>
    if b = 0x6e then (word nullRest r).map fun (_, r) => (none, r)
    else (read (b :: r)).map fun (v, r) => (some v, r)
  | [] => (read []).map fun (v, r) => (some v, r)

/-- A list of field values, when `depth` more containers may be opened. -/
def listField {α : Type} (read : Reader α) (depth : Nat) : Reader (List α) := fun bs =>
  match skipBlanks bs with
  | [] => .error .truncated
  | b :: r =>
    if b = openList then
      match depth with
      | 0 => .error .malformed
      | _ + 1 =>
        (items (fun acc bs => (read bs).map fun (v, r) => (v :: acc, r))
          r true [] r).map fun (acc, r) => (acc.reverse, r)
    else .error (unsuitable (b :: r))

/-- A member from a reader of its value and the two ways it meets the draft. -/
def member {δ β : Type} (name : String) (required : Bool) (read : Nat → Reader β)
    (get : δ → Option β) (set : β → δ → δ) : Member δ where
  name := name
  required := required
  given := fun d => (get d).isSome
  read := fun depth d bs => (read depth bs).map fun (v, r) => (set v d, r)

/-! ## Records -/

/-- The members of a record that is written as a list. -/
def inOrder {δ : Type} (depth : Nat) : List (Member δ) → Bool → δ → Reader δ
  | [], _, d, bs => .ok (d, bs)
  | m :: ms, first, d, bs =>
    match nextItem first bs with
    | .error f => .error f
    | .ok (none, bs) =>
      if m.required then .error .mismatched else inOrder depth ms first d bs
    | .ok (some bs, _) =>
      match m.read depth d bs with
      | .error f => .error f
      | .ok (d, bs) => inOrder depth ms false d bs

namespace Shape

variable {δ α : Type}

/-- How to go on behind the name of a field. -/
def entry (s : Shape δ α) (depth : Nat) (d : δ) (name : String) : Except Fault (Reader δ) :=
  match s.members.find? fun m => m.name == name with
  | some m => if m.given d then .error .mismatched else .ok (m.read depth d)
  | none =>
    if s.closed then .error .mismatched
    else .ok fun bs => (skip bs bs).map fun (_, r) => (d, r)

/-- A record, when `depth` more containers may be opened. -/
def read (s : Shape δ α) (depth : Nat) : Reader α := fun bs =>
  match skipBlanks bs with
  | [] => .error .truncated
  | b :: r =>
    if b = openList then
      match depth with
      | 0 => .error .malformed
      | d + 1 =>
        match inOrder d s.members true s.blank r with
        | .error f => .error f
        | .ok (draft, r) =>
          match s.finish draft with
          | .error f => .error f
          | .ok v => (endList r).map (v, ·)
    else if b = openObject then
      match depth with
      | 0 => .error .malformed
      | d + 1 =>
        match entries (s.entry d) r true s.blank r with
        | .error f => .error f
        | .ok (draft, r) => (s.finish draft).map (·, r)
    else .error (unsuitable (b :: r))

end Shape

def present {α : Type} : Option α → Except Fault α
  | some v => .ok v
  | none => .error .mismatched

end Json
end Colloquy
