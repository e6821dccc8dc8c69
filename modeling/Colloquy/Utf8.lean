/-
UTF-8 text as bytes.

`encode` writes a text, `decode?` reads one back and refuses bytes that are not the
encoding of any text, and `decodeLossy` reads any bytes, one replacement character for
each maximal run that begins a character and cannot be completed.  The two readers share
`next`, which takes one character off the front.
-/

namespace Colloquy

abbrev Bytes := List UInt8

namespace Utf8

/-- The bytes of one character: one below 128, else a leading byte that tells the length
and continuation bytes of six bits each. -/
def encodeChar (c : Char) : Bytes :=
  let n := c.toNat
  if n < 0x80 then [n.toUInt8]
  else if n < 0x800 then [(0xc0 + n / 64).toUInt8, (0x80 + n % 64).toUInt8]
  else if n < 0x10000 then
    [(0xe0 + n / 4096).toUInt8, (0x80 + n / 64 % 64).toUInt8, (0x80 + n % 64).toUInt8]
  else
    [(0xf0 + n / 262144).toUInt8, (0x80 + n / 4096 % 64).toUInt8,
      (0x80 + n / 64 % 64).toUInt8, (0x80 + n % 64).toUInt8]

def encodeChars (cs : List Char) : Bytes := cs.flatMap encodeChar

def encode (s : String) : Bytes := encodeChars s.toList

/-- What stands at the front of some bytes. -/
inductive Front where
  | none
  | char (c : Char) (rest : Bytes)
  | broken (rest : Bytes)

/-- Whether `b` may follow a leading byte as its first continuation.  The narrower ranges
after four of the leading bytes keep out overlong forms, surrogates and numbers above
U+10FFFF. -/
def follows (lead b : Nat) : Bool :=
  if lead = 0xe0 then 0xa0 ≤ b && b ≤ 0xbf
  else if lead = 0xed then 0x80 ≤ b && b ≤ 0x9f
  else if lead = 0xf0 then 0x90 ≤ b && b ≤ 0xbf
  else if lead = 0xf4 then 0x80 ≤ b && b ≤ 0x8f
  else 0x80 ≤ b && b ≤ 0xbf

def continues (b : Nat) : Bool := 0x80 ≤ b && b ≤ 0xbf

/-- Take the first character off some bytes. -/
def next : Bytes → Front
  | [] => .none
  | a :: r =>
    let x := a.toNat
    if x < 0x80 then .char (Char.ofNat x) r
    else if x < 0xc2 || 0xf4 < x then .broken r
    else match r with
      | [] => .broken []
      | b :: r₁ =>
        let y := b.toNat
        if !follows x y then .broken r
        else if x < 0xe0 then .char (Char.ofNat ((x - 0xc0) * 64 + (y - 0x80))) r₁
        else match r₁ with
          | [] => .broken []
          | c :: r₂ =>
            let z := c.toNat
            if !continues z then .broken r₁
            else if x < 0xf0 then
              .char (Char.ofNat ((x - 0xe0) * 4096 + (y - 0x80) * 64 + (z - 0x80))) r₂
            else match r₂ with
              | [] => .broken []
              | d :: r₃ =>
                let w := d.toNat
                if !continues w then .broken r₂
                else .char (Char.ofNat
                  ((x - 0xf0) * 262144 + (y - 0x80) * 4096 + (z - 0x80) * 64 + (w - 0x80))) r₃

/- Each character takes at least one byte, so the number of bytes bounds the number of
steps. -/
def decodeChars? : Nat → Bytes → Option (List Char)
  | 0, _ => some []
  | n + 1, bs =>
    match next bs with
    | .none => some []
    | .char c rest => (decodeChars? n rest).map (c :: ·)
    | .broken _ => none

/-- The text whose encoding these bytes are. -/
def decode? (bs : Bytes) : Option String :=
  (decodeChars? bs.length bs).map String.ofList

def decodeCharsLossy : Nat → Bytes → List Char
  | 0, _ => []
  | n + 1, bs =>
    match next bs with
    | .none => []
    | .char c rest => c :: decodeCharsLossy n rest
    | .broken rest => Char.ofNat 0xfffd :: decodeCharsLossy n rest

def decodeLossy (bs : Bytes) : String :=
  String.ofList (decodeCharsLossy bs.length bs)

end Utf8
end Colloquy
