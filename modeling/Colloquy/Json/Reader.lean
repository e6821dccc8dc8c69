/-
Reading JSON from bytes.

A reader takes a value off the front of some bytes and gives back what follows.  It stops
at the first fault, which is one of three: the text is not JSON, it ends too early, or a
value has the wrong shape or is out of range for its place.

`value` reads any value.  It takes the number of containers that may still be opened, so
it recurses on that number.  `skip` passes over a value that nobody wants: there strings
need not be text, numbers may be of any size and containers may nest without limit.
-/
import Colloquy.Decimal.Scaled
import Colloquy.Json.Value
import Colloquy.Utf8
import Colloquy.Word

namespace Colloquy
namespace Json

inductive Fault where
  /-- The text is not JSON. -/
  | malformed
  /-- The text ends too early. -/
  | truncated
  /-- A value has the wrong shape or is out of range for its place. -/
  | mismatched
  deriving DecidableEq, Repr

def Fault.category : Fault → String
  | malformed => "syntax"
  | truncated => "eof"
  | mismatched => "data"

abbrev Reader (α : Type) := Bytes → Except Fault (α × Bytes)

/-! ## Characters -/

def quoteByte : UInt8 := 0x22
def backslash : UInt8 := 0x5c
def comma : UInt8 := 0x2c
def colon : UInt8 := 0x3a
def openList : UInt8 := 0x5b
def closeList : UInt8 := 0x5d
def openObject : UInt8 := 0x7b
def closeObject : UInt8 := 0x7d
def minus : UInt8 := 0x2d

def isBlank (b : UInt8) : Bool := b == 0x20 || b == 0x0a || b == 0x09 || b == 0x0d

def isDigit (b : UInt8) : Bool := 0x30 ≤ b && b ≤ 0x39

def skipBlanks : Bytes → Bytes
  | [] => []
  | b :: r => if isBlank b then skipBlanks r else b :: r

/-- The rest of a bare word. -/
def word : List UInt8 → Reader Unit
  | [], bs => .ok ((), bs)
  | _ :: _, [] => .error .truncated
  | w :: ws, b :: r => if b = w then word ws r else .error .malformed

def nullRest : List UInt8 := [0x75, 0x6c, 0x6c]
def trueRest : List UInt8 := [0x72, 0x75, 0x65]
def falseRest : List UInt8 := [0x61, 0x6c, 0x73, 0x65]

/-! ## Strings -/

def hexValue (b : UInt8) : Option Nat :=
  if 0x30 ≤ b && b ≤ 0x39 then some (b.toNat - 0x30)
  else if 0x61 ≤ b && b ≤ 0x66 then some (b.toNat - 0x61 + 10)
  else if 0x41 ≤ b && b ≤ 0x46 then some (b.toNat - 0x41 + 10)
  else none

def hexFour (a b c d : UInt8) : Option Nat :=
  match hexValue a, hexValue b, hexValue c, hexValue d with
  | some w, some x, some y, some z => some (((w * 16 + x) * 16 + y) * 16 + z)
  | _, _, _, _ => none

/-- The byte that a one-letter escape stands for. -/
def shortEscape (b : UInt8) : Option UInt8 :=
  if b = 0x22 then some 0x22
  else if b = 0x5c then some 0x5c
  else if b = 0x2f then some 0x2f
  else if b = 0x62 then some 0x08
  else if b = 0x66 then some 0x0c
  else if b = 0x6e then some 0x0a
  else if b = 0x72 then some 0x0d
  else if b = 0x74 then some 0x09
  else none

/-- The bytes of a string up to its closing quote, after `acc` in reverse.  A number in
hexadecimal below the surrogates or above them is a character by itself; a high surrogate
needs a low one right after it. -/
def textBytes (acc : Bytes) : Reader Bytes
  | [] => .error .truncated
  | b :: r =>
    if b = quoteByte then .ok (acc.reverse, r)
    else if b = backslash then
      match r with
      | [] => .error .truncated
      | e :: r =>
        match shortEscape e with
        | some x => textBytes (x :: acc) r
        | none =>
          if e = 0x75 then
            match r with
            | h₁ :: h₂ :: h₃ :: h₄ :: r =>
              match hexFour h₁ h₂ h₃ h₄ with
              | none => .error .malformed
              | some n =>
                if 0xdc00 ≤ n && n ≤ 0xdfff then .error .malformed
                else if n < 0xd800 || 0xdbff < n then
                  textBytes ((Utf8.encodeChar (Char.ofNat n)).reverse ++ acc) r
                else
                  match r with
                  | [] => .error .truncated
                  | c₁ :: r =>
                    if c₁ = backslash then
                      match r with
                      | [] => .error .truncated
                      | c₂ :: r =>
                        if c₂ = 0x75 then
                          match r with
                          | l₁ :: l₂ :: l₃ :: l₄ :: r =>
                            match hexFour l₁ l₂ l₃ l₄ with
                            | none => .error .malformed
                            | some m =>
                              if 0xdc00 ≤ m && m ≤ 0xdfff then
                                textBytes ((Utf8.encodeChar (Char.ofNat
                                  ((n - 0xd800) * 1024 + (m - 0xdc00) + 0x10000))).reverse
                                    ++ acc) r
                              else .error .malformed
                          | _ => .error .truncated
                        else .error .malformed
                    else .error .malformed
            | _ => .error .truncated
          else .error .malformed
    else if b < 0x20 then .error .malformed
    else textBytes (b :: acc) r

/-- A string after its opening quote. -/
def text : Reader String := fun bs =>
  match textBytes [] bs with
  | .error f => .error f
  | .ok (bytes, r) =>
    match Utf8.decode? bytes with
    | some s => .ok (s, r)
    | none => .error .malformed

/-- Pass over a string after its opening quote. -/
def skipText : Bytes → Except Fault Bytes
  | [] => .error .truncated
  | b :: r =>
    if b = quoteByte then .ok r
    else if b = backslash then
      match r with
      | [] => .error .truncated
      | e :: r =>
        match shortEscape e with
        | some _ => skipText r
        | none =>
          if e = 0x75 then
            match r with
            | h₁ :: h₂ :: h₃ :: h₄ :: r =>
              match hexFour h₁ h₂ h₃ h₄ with
              | none => .error .malformed
              | some _ => skipText r
            | _ => .error .truncated
          else .error .malformed
    else if b < 0x20 then .error .malformed
    else skipText r

/-! ## Numbers -/

/-- The digits at the front. -/
def spanDigits : Bytes → List Nat × Bytes
  | [] => ([], [])
  | b :: r =>
    if isDigit b then
      let (ds, rest) := spanDigits r
      ((b.toNat - 0x30) :: ds, rest)
    else ([], b :: r)

/-- The sign of an exponent and what follows it. -/
def exponentSign : Bytes → Bool × Bytes
  | [] => (false, [])
  | b :: r => if b = 0x2b then (false, r) else if b = 0x2d then (true, r) else (false, b :: r)

def isExponentMark (b : UInt8) : Bool := b == 0x65 || b == 0x45

def scaled (s : Decimal.Scaled) (negative : Bool) : Reader Value := fun bs =>
  match s.bits? negative with
  | some bits => .ok (.double bits, bs)
  | none => .error .malformed

/-- An exponent after its mark. -/
def exponentPart (s : Decimal.Scaled) (negative : Bool) : Reader Value := fun bs =>
  let (down, bs) := exponentSign bs
  match bs with
  | [] => .error .truncated
  | b :: _ =>
    if isDigit b then
      let (ds, rest) := spanDigits bs
      let e : Int := (ds.foldl (fun n d => n * 10 + d) 0 : Nat)
      scaled { s with exponent := if down then s.exponent - e else s.exponent + e } negative rest
    else .error .malformed

/-- The digits after the point. -/
def fractionPart (s : Decimal.Scaled) (negative : Bool) : Reader Value := fun bs =>
  match bs with
  | [] => .error .truncated
  | b :: _ =>
    if isDigit b then
      let (ds, rest) := spanDigits bs
      let s := Decimal.takeFraction s ds
      match rest with
      | [] => scaled s negative []
      | c :: r => if isExponentMark c then exponentPart s negative r else scaled s negative rest
    else .error .malformed

/-- A whole number of one word.  Its negative needs to fit a signed word and not be
zero, else it is a double. -/
def whole (n : Nat) (negative : Bool) : Value :=
  if !negative then .integer n
  else if n = 0 then .double (Word.size 63).toUInt64
  else if Word.intMin 64 ≤ -(n : Int) then .integer (-(n : Int))
  else .double (Decimal.ofIntBits (-(n : Int)))

/-- What follows the digits before the point. -/
def numberTail (s : Decimal.Scaled) (negative : Bool) : Reader Value := fun bs =>
  let plain : Except Fault (Value × Bytes) :=
    if s.exponent = 0 then .ok (whole s.significand negative, bs) else scaled s negative bs
  match bs with
  | [] => plain
  | b :: r =>
    if b = 0x2e then fractionPart s negative r
    else if isExponentMark b then exponentPart s negative r
    else plain

/-- A number after its sign. -/
def number (negative : Bool) : Reader Value := fun bs =>
  match bs with
  | [] => .error .truncated
  | b :: r =>
    if b = 0x30 then
      match r with
      | [] => numberTail { significand := 0, exponent := 0 } negative []
      | d :: _ =>
        if isDigit d then .error .malformed
        else numberTail { significand := 0, exponent := 0 } negative r
    else if isDigit b then
      let (ds, rest) := spanDigits bs
      numberTail (Decimal.takeWhole 0 ds) negative rest
    else .error .malformed

def skipDigits : Bytes → Bytes
  | [] => []
  | b :: r => if isDigit b then skipDigits r else b :: r

def skipExponent (bs : Bytes) : Except Fault Bytes :=
  match (exponentSign bs).2 with
  | [] => .error .malformed
  | b :: r => if isDigit b then .ok (skipDigits r) else .error .malformed

def skipFraction (bs : Bytes) : Except Fault Bytes :=
  match bs with
  | [] => .error .malformed
  | b :: r =>
    if isDigit b then
      match skipDigits r with
      | [] => .ok []
      | c :: r => if isExponentMark c then skipExponent r else .ok (c :: r)
    else .error .malformed

/-- Pass over a number after its sign. -/
def skipNumber (bs : Bytes) : Except Fault Bytes :=
  let tail := fun (bs : Bytes) =>
    match bs with
    | [] => .ok []
    | b :: r =>
      if b = 0x2e then skipFraction r
      else if isExponentMark b then skipExponent r
      else .ok (b :: r)
  match bs with
  | [] => .error .malformed
  | b :: r =>
    if b = 0x30 then
      match r with
      | [] => .ok []
      | d :: _ => if isDigit d then .error .malformed else tail r
    else if isDigit b then tail (skipDigits r)
    else .error .malformed

/-! ## Lists and objects

`nextItem` and `nextName` find out whether a list or an object goes on, from behind its
opening bracket or the item before.  `items` and `entries` run through all of it.  Each
item takes at least one byte, so there are no more rounds than bytes.  The bytes are given
twice: `items item bs true acc bs` counts its rounds on the first of the two. -/

/-- Behind an item or the opening bracket: `none` at the closing bracket, else the bytes
from the next item on. -/
def nextItem (first : Bool) (bs : Bytes) : Except Fault (Option Bytes × Bytes) :=
  match skipBlanks bs with
  | [] => .error .truncated
  | b :: r =>
    if b = closeList then .ok (none, b :: r)
    else if first then .ok (some (b :: r), b :: r)
    else if b = comma then
      match skipBlanks r with
      | [] => .error .truncated
      | c :: r' => if c = closeList then .error .malformed else .ok (some (c :: r'), c :: r')
    else .error .malformed

/-- The closing bracket of a list. -/
def endList (bs : Bytes) : Except Fault Bytes :=
  match skipBlanks bs with
  | [] => .error .truncated
  | b :: r => if b = closeList then .ok r else .error .malformed

def items {σ : Type} (item : σ → Reader σ) : Bytes → Bool → σ → Reader σ
  | [], _, _, _ => .error .truncated
  | _ :: rounds, first, acc, bs =>
    match nextItem first bs with
    | .error f => .error f
    | .ok (none, bs) =>
      match endList bs with
      | .error f => .error f
      | .ok r => .ok (acc, r)
    | .ok (some bs, _) =>
      match item acc bs with
      | .error f => .error f
      | .ok (acc, bs) => items item rounds false acc bs

/-- Behind an entry or the opening bracket: `none` and the bytes behind the closing
bracket, else the bytes behind the quote that opens the next name. -/
def nextName (first : Bool) (bs : Bytes) : Except Fault (Option Bytes × Bytes) :=
  match skipBlanks bs with
  | [] => .error .truncated
  | b :: r =>
    if b = closeObject then .ok (none, r)
    else if first then
      if b = quoteByte then .ok (some r, r) else .error .malformed
    else if b = comma then
      match skipBlanks r with
      | [] => .error .truncated
      | c :: r' => if c = quoteByte then .ok (some r', r') else .error .malformed
    else .error .malformed

def skipColon (bs : Bytes) : Except Fault Bytes :=
  match skipBlanks bs with
  | [] => .error .truncated
  | b :: r => if b = colon then .ok r else .error .malformed

/-- Read entries.  `entry` sees a name before the colon and says how to read the value. -/
def entries {σ : Type} (entry : σ → String → Except Fault (Reader σ)) :
    Bytes → Bool → σ → Reader σ
  | [], _, _, _ => .error .truncated
  | _ :: rounds, first, acc, bs =>
    match nextName first bs with
    | .error f => .error f
    | .ok (none, r) => .ok (acc, r)
    | .ok (some bs, _) =>
      match text bs with
      | .error f => .error f
      | .ok (name, bs) =>
        match entry acc name with
        | .error f => .error f
        | .ok read =>
          match skipColon bs with
          | .error f => .error f
          | .ok bs =>
            match read bs with
            | .error f => .error f
            | .ok (acc, bs) => entries entry rounds false acc bs

/-! ## Values -/

/-- The number of containers that may be open at once. -/
def nestingLimit : Nat := 127

/-- Any value, when `depth` more containers may be opened. -/
def value : Nat → Reader Value := fun depth bs =>
  match skipBlanks bs with
  | [] => .error .truncated
  | b :: r =>
    if b = 0x6e then (word nullRest r).map fun (_, r) => (.null, r)
    else if b = 0x74 then (word trueRest r).map fun (_, r) => (.bool true, r)
    else if b = 0x66 then (word falseRest r).map fun (_, r) => (.bool false, r)
    else if b = minus then number true r
    else if isDigit b then number false (b :: r)
    else if b = quoteByte then (text r).map fun (s, r) => (.text s, r)
    else if b = openList then
      match depth with
      | 0 => .error .malformed
      | d + 1 =>
        (items (fun acc bs => (value d bs).map fun (v, r) => (v :: acc, r))
          r true [] r).map fun (acc, r) => (.array acc.reverse, r)
    else if b = openObject then
      match depth with
      | 0 => .error .malformed
      | d + 1 =>
        (entries (fun acc name => .ok fun bs =>
            (value d bs).map fun (v, r) => (Value.put name v acc, r))
          r true [] r).map fun (acc, r) => (.object acc, r)
    else .error .malformed

/-- Pass over any value.  Each container takes a byte, so nothing nests deeper than there
are bytes: `skip bs bs` counts the containers that may be opened on the first of the two. -/
def skip : Bytes → Reader Unit := fun levels bs =>
  match skipBlanks bs with
  | [] => .error .truncated
  | b :: r =>
    if b = 0x6e then word nullRest r
    else if b = 0x74 then word trueRest r
    else if b = 0x66 then word falseRest r
    else if b = minus then (skipNumber r).map ((), ·)
    else if isDigit b then (skipNumber (b :: r)).map ((), ·)
    else if b = quoteByte then (skipText r).map ((), ·)
    else if b = openList then
      match levels with
      | [] => .error .truncated
      | _ :: inner => items (fun _ bs => skip inner bs) r true () r
    else if b = openObject then
      match levels with
      | [] => .error .truncated
      | _ :: inner => skipEntries (skip inner) r true r
    else .error .malformed
where
  /-- Pass over entries, whose names need not be text either. -/
  skipEntries (read : Reader Unit) : Bytes → Bool → Reader Unit
    | [], _, _ => .error .truncated
    | _ :: rounds, first, bs =>
      match nextName first bs with
      | .error f => .error f
      | .ok (none, r) => .ok ((), r)
      | .ok (some bs, _) =>
        match skipText bs with
        | .error f => .error f
        | .ok bs =>
          match skipColon bs with
          | .error f => .error f
          | .ok bs =>
            match read bs with
            | .error f => .error f
            | .ok (_, bs) => skipEntries read rounds false bs

/-- A whole document: one value with nothing but blanks after it. -/
def document {α : Type} (read : Reader α) (bs : Bytes) : Except Fault α :=
  match read bs with
  | .error f => .error f
  | .ok (v, r) =>
    match skipBlanks r with
    | [] => .ok v
    | _ => .error .malformed

def parse (bs : Bytes) : Except Fault Value := document (value nestingLimit) bs

end Json
end Colloquy
