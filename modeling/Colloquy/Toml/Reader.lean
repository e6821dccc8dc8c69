/-
Reading TOML.

`parse` gives the root table of a document, or nothing if the document is not valid.  The
scanners work on the characters that are left and give back what follows.  Documents are
read one line at a time: a header moves to a table, and a line with a key adds to the
table of the last header.
-/
import Colloquy.Decimal.Finite
import Colloquy.Toml.Value

namespace Colloquy
namespace Toml

/-! ## Characters -/

def isBareChar (c : Char) : Bool :=
  ('a' ≤ c && c ≤ 'z') || ('A' ≤ c && c ≤ 'Z') || ('0' ≤ c && c ≤ '9') || c == '-' || c == '_'

def isDecimal (c : Char) : Bool := '0' ≤ c && c ≤ '9'

/-- Characters that may not stand in comments and strings. -/
def isControl (c : Char) : Bool := (c.toNat < 0x20 && c != '\t') || c.toNat == 0x7f

def hexValue (c : Char) : Option Nat :=
  if isDecimal c then some (c.toNat - 48)
  else if 'a' ≤ c && c ≤ 'f' then some (c.toNat - 87)
  else if 'A' ≤ c && c ≤ 'F' then some (c.toNat - 55)
  else none

def skipSpaces : List Char → List Char
  | [] => []
  | c :: r => if c == ' ' || c == '\t' then skipSpaces r else c :: r

def lineEnd? : List Char → Option (List Char)
  | '\n' :: r => some r
  | '\r' :: '\n' :: r => some r
  | _ => none

def skipComment : List Char → Option (List Char)
  | [] => some []
  | '\n' :: r => some ('\n' :: r)
  | '\r' :: '\n' :: r => some ('\r' :: '\n' :: r)
  | c :: r => if isControl c then none else skipComment r

/-- Spaces and a comment, up to the line end. -/
def skipToEnd (cs : List Char) : Option (List Char) :=
  match skipSpaces cs with
  | '#' :: r => skipComment r
  | r => some r

/-- Spaces, comments and line ends. -/
def skipLines : Nat → List Char → Option (List Char)
  | 0, cs => some cs
  | n + 1, cs => do
    let cs ← skipToEnd cs
    match lineEnd? cs with
    | some r => skipLines n r
    | none => some cs

/-! ## Strings -/

def hexChar? (ds : List Char) : Option Char := do
  let n ← ds.foldlM (fun n c => (hexValue c).map fun d => n * 16 + d) 0
  if n < 0xd800 || (0xdfff < n && n < 0x110000) then some (Char.ofNat n) else none

/-- How many hexadecimal digits an escape takes. -/
def hexLength : Char → Option Nat
  | 'x' => some 2
  | 'u' => some 4
  | 'U' => some 8
  | _ => none

def escape? : List Char → Option (Char × List Char)
  | [] => none
  | 'b' :: r => some (Char.ofNat 8, r)
  | 't' :: r => some ('\t', r)
  | 'n' :: r => some ('\n', r)
  | 'f' :: r => some (Char.ofNat 12, r)
  | 'r' :: r => some ('\r', r)
  | 'e' :: r => some (Char.ofNat 27, r)
  | '"' :: r => some ('"', r)
  | '\\' :: r => some ('\\', r)
  | c :: r => do
    let n ← hexLength c
    if r.length < n then none else some (← hexChar? (r.take n), r.drop n)

def basicText : Nat → List Char → List Char → Option (String × List Char)
  | 0, _, _ => none
  | n + 1, acc, cs =>
    match cs with
    | [] => none
    | '"' :: r => some (String.ofList acc.reverse, r)
    | '\\' :: r => do
      let (c, r) ← escape? r
      basicText n (c :: acc) r
    | c :: r => if isControl c then none else basicText n (c :: acc) r

def literalText (acc : List Char) : List Char → Option (String × List Char)
  | [] => none
  | '\'' :: r => some (String.ofList acc.reverse, r)
  | c :: r => if isControl c then none else literalText (c :: acc) r

/-- Spaces and line ends, as they follow a backslash at the end of a line. -/
def skipFold : List Char → List Char
  | [] => []
  | '\r' :: '\n' :: r => skipFold r
  | c :: r => if c == ' ' || c == '\t' || c == '\n' then skipFold r else c :: r

/-- How many of the next characters are `q`. -/
def runLength (q : Char) : List Char → Nat
  | [] => 0
  | c :: r => if c == q then runLength q r + 1 else 0

/-- A string of several lines between triple quotes `q`.  Up to two quotes may stand
right before the closing ones, and line ends stay as they are written. -/
def longText (q : Char) : Nat → List Char → List Char → Option (String × List Char)
  | 0, _, _ => none
  | n + 1, acc, cs =>
    match cs with
    | [] => none
    | c :: r =>
      if c == q then
        let k := runLength q cs
        if k < 3 then longText q n (List.replicate k q ++ acc) (cs.drop k)
        else if k ≤ 5 then
          some (String.ofList (List.replicate (k - 3) q ++ acc).reverse, cs.drop k)
        else none
      else if c == '\\' && q == '"' then
        match lineEnd? (skipSpaces r) with
        | some r => longText q n acc (skipFold r)
        | none => do
          let (c, r) ← escape? r
          longText q n (c :: acc) r
      else match c, r with
        | '\r', '\n' :: r => longText q n ('\n' :: '\r' :: acc) r
        | c, r => if isControl c && c != '\n' then none else longText q n (c :: acc) r

/-- A line end right behind the opening quotes does not count. -/
def dropFirstLineEnd (cs : List Char) : List Char := (lineEnd? cs).getD cs

def text? (cs : List Char) : Option (String × List Char) :=
  match cs with
  | '"' :: '"' :: '"' :: r => longText '"' (r.length + 1) [] (dropFirstLineEnd r)
  | '\'' :: '\'' :: '\'' :: r => longText '\'' (r.length + 1) [] (dropFirstLineEnd r)
  | '"' :: r => basicText (r.length + 1) [] r
  | '\'' :: r => literalText [] r
  | _ => none

/-! ## Keys -/

def simpleKey? (cs : List Char) : Option (String × List Char) :=
  match cs with
  | '"' :: r => basicText (r.length + 1) [] r
  | '\'' :: r => literalText [] r
  | _ =>
    let name := cs.takeWhile isBareChar
    if name.isEmpty then none else some (String.ofList name, cs.dropWhile isBareChar)

def partLimit : Nat := 80

/-- A key of at least one part and at most so many, and what follows it and its spaces. -/
def keyOf? : Nat → List Char → Option (List String × List Char)
  | 0, _ => none
  | n + 1, cs => do
    let (name, r) ← simpleKey? (skipSpaces cs)
    match skipSpaces r with
    | '.' :: r =>
      let (names, r) ← keyOf? n r
      some (name :: names, r)
    | r => some ([name], r)

def key? (cs : List Char) : Option (List String × List Char) := keyOf? partLimit cs

/-! ## Numbers and dates -/

/-- Digits with single underscores between them, without the underscores. -/
def plainDigits? (digit : Char → Bool) : List Char → Option (List Char)
  | [] => none
  | [c] => if digit c then some [c] else none
  | c :: '_' :: r => if digit c then (plainDigits? digit r).map (c :: ·) else none
  | c :: r => if digit c then (plainDigits? digit r).map (c :: ·) else none

def fromDigits (base : Nat) (ds : List Char) : Nat :=
  ds.foldl (fun n c => n * base + (hexValue c).getD 0) 0

/-- A whole number, which can be held from the least of 128 bits with a sign to the
greatest without one. -/
def integer (i : Int) : Value :=
  if Word.intMin 128 ≤ i && i ≤ Word.natMax 128 then .integer i else .excess

def radix? (base : Nat) (cs : List Char) : Option Value := do
  let ds ← plainDigits? (fun c => match hexValue c with | some d => d < base | none => false) cs
  some (integer (fromDigits base ds))

def splitSign : List Char → Bool × List Char
  | '-' :: r => (true, r)
  | '+' :: r => (false, r)
  | r => (false, r)

/-- Decimal digits with no needless zero in front. -/
def canonicalDigits? (cs : List Char) : Option (List Char) := do
  let ds ← plainDigits? isDecimal cs
  match ds with
  | '0' :: _ :: _ => none
  | _ => some ds

def splitAtMark (mark : Char → Bool) (cs : List Char) : List Char × Option (List Char) :=
  match cs.dropWhile fun c => !mark c with
  | [] => (cs, none)
  | _ :: r => (cs.takeWhile fun c => !mark c, some r)

def exponent? : Option (List Char) → Option Int
  | none => some 0
  | some cs => do
    let (negative, r) := splitSign cs
    let n := fromDigits 10 (← plainDigits? isDecimal r)
    some (if negative then -(n : Int) else n)

def fractionDigits? : Option (List Char) → Option (List Char)
  | none => some []
  | some cs => plainDigits? isDecimal cs

/-- A float without its sign. -/
def float? (cs : List Char) : Option Value :=
  if cs = ['i', 'n', 'f'] || cs = ['n', 'a', 'n'] then some .float
  else
    let (mantissa, e) := splitAtMark (fun c => c == 'e' || c == 'E') cs
    let (whole, fraction) := splitAtMark (· == '.') mantissa
    match canonicalDigits? whole, fractionDigits? fraction, exponent? e with
    | some w, some f, some x =>
      if fraction.isNone && e.isNone then none
      else if Decimal.roundsToFinite ((w ++ f).map fun c => (hexValue c).getD 0) (x - f.length)
        then some .float
      else some .excess
    | _, _, _ => none

def digits? (n : Nat) (cs : List Char) : Option (Nat × List Char) :=
  let ds := cs.take n
  if ds.length = n && ds.all isDecimal then some (fromDigits 10 ds, cs.drop n) else none

def isLeap (y : Nat) : Bool := (y % 4 == 0 && y % 100 != 0) || y % 400 == 0

def daysIn (y m : Nat) : Nat :=
  if m == 2 then (if isLeap y then 29 else 28)
  else if m == 4 || m == 6 || m == 9 || m == 11 then 30
  else 31

def date? (cs : List Char) : Option (List Char) := do
  let (y, r) ← digits? 4 cs
  match r with
  | '-' :: r =>
    let (m, r) ← digits? 2 r
    match r with
    | '-' :: r =>
      let (d, r) ← digits? 2 r
      if 1 ≤ m && m ≤ 12 && 1 ≤ d && d ≤ daysIn y m then some r else none
    | _ => none
  | _ => none

def time? (cs : List Char) : Option (List Char) := do
  let (h, r) ← digits? 2 cs
  match r with
  | ':' :: r =>
    let (m, r) ← digits? 2 r
    if 23 < h || 59 < m then none
    else match r with
      | ':' :: r =>
        let (s, r) ← digits? 2 r
        if 60 < s then none
        else match r with
          | '.' :: r =>
            let ds := r.takeWhile isDecimal
            if ds.isEmpty then none else some (r.dropWhile isDecimal)
          | r => some r
      | r => some r
  | _ => none

/-- What follows the time of a date: an offset or nothing. -/
def isOffset (cs : List Char) : Bool :=
  match cs with
  | [] => true
  | [c] => c == 'Z' || c == 'z'
  | c :: r =>
    (c == '+' || c == '-') &&
      (match digits? 2 r with
      | some (h, ':' :: r) =>
        (match digits? 2 r with
        | some (m, []) => h ≤ 23 && m ≤ 59
        | _ => false)
      | _ => false)

def isDate (cs : List Char) : Bool :=
  match date? cs with
  | some [] => true
  | some (c :: r) =>
    (c == 'T' || c == 't' || c == ' ') &&
      (match time? r with
      | some r => isOffset r
      | none => false)
  | none => time? cs == some []

def scalar? (cs : List Char) : Option Value :=
  match cs with
  | ['t', 'r', 'u', 'e'] => some (.bool true)
  | ['f', 'a', 'l', 's', 'e'] => some (.bool false)
  | '0' :: 'x' :: r => radix? 16 r
  | '0' :: 'o' :: r => radix? 8 r
  | '0' :: 'b' :: r => radix? 2 r
  | _ =>
    if isDate cs then some .date
    else
      let (negative, r) := splitSign cs
      match canonicalDigits? r with
      | some ds =>
        let n := fromDigits 10 ds
        some (integer (if negative then -(n : Int) else n))
      | none => float? r

def isScalarChar (c : Char) : Bool := isBareChar c || c == '+' || c == '.' || c == ':'

/-- The characters of a scalar.  A date and its time may be separated by a space. -/
def spanScalar (cs : List Char) : List Char × List Char :=
  let a := cs.takeWhile isScalarChar
  match cs.dropWhile isScalarChar with
  | ' ' :: d :: r =>
    if isDecimal d && date? a == some [] then
      let b := (d :: r).takeWhile isScalarChar
      (a ++ ' ' :: b, (d :: r).dropWhile isScalarChar)
    else (a, ' ' :: d :: r)
  | r => (a, r)

/-! ## Tables -/

namespace Table

/-- Apply `f` to the table that a path leads to, opening the tables that are missing. -/
def below (opens : Standing) (f : Standing → Table → Option Table) :
    List String → Standing → Table → Option Table
  | [], s, t => f s t
  | name :: path, _, t =>
    match t.lookup name with
    | none => do
      let t' ← below opens f path opens []
      some (t.set name (.table opens t'))
    | some (.table s t') =>
      if s = .inline || (opens = .dotted && s = .headed) then none
      else do
        let t' ← below opens f path s t'
        some (t.set name (.table s t'))
    | some (.tables (last :: others)) =>
      if opens = .dotted then none
      else do
        let last ← below opens f path .headed last
        some (t.set name (.tables (last :: others)))
    | some _ => none

/-- Add a value under a key.  A key of one part adds to the table at hand unless dotted
keys opened it, and a longer one only to tables that dotted keys opened. -/
def add (path : List String) (v : Value) (s : Standing) (t : Table) : Option Table :=
  match path.reverse with
  | [] => none
  | name :: front =>
    below .dotted (fun s t =>
      if (s == .dotted) == front.isEmpty then none
      else match t.lookup name with
        | none => some (t.set name v)
        | some _ => none)
      front.reverse s t

def openHeader (path : List String) (t : Table) : Option Table :=
  match path.reverse with
  | [] => none
  | name :: front =>
    below .above (fun _ t =>
      match t.lookup name with
      | none => some (t.set name (.table .headed []))
      | some (.table .above t') => some (t.set name (.table .headed t'))
      | some _ => none)
      front.reverse .headed t

/-- Open the next table of a double-bracket header. -/
def openItem (path : List String) (t : Table) : Option Table :=
  match path.reverse with
  | [] => none
  | name :: front =>
    below .above (fun _ t =>
      match t.lookup name with
      | none => some (t.set name (.tables [[]]))
      | some (.tables items) => some (t.set name (.tables ([] :: items)))
      | some _ => none)
      front.reverse .headed t

def addAt (header path : List String) (v : Value) (t : Table) : Option Table :=
  below .above (add path v) header .headed t

end Table

/-! ## Values and documents -/

def nestingLimit : Nat := 80

/-- Items between brackets, with line ends and comments anywhere, separated by commas of
which the last may be left hanging. -/
def sequence? {α : Type} (close : Char) (item : List Char → Option (α × List Char)) :
    Nat → List Char → Option (List α × List Char)
  | 0, _ => none
  | n + 1, cs => do
    let cs ← skipLines cs.length cs
    match cs with
    | [] => none
    | c :: r =>
      if c == close then some ([], r)
      else
        let (v, r) ← item (c :: r)
        let r ← skipLines r.length r
        match r with
        | ',' :: r =>
          let (vs, r) ← sequence? close item n r
          some (v :: vs, r)
        | c :: r => if c == close then some ([v], r) else none
        | [] => none

def value? : Nat → List Char → Option (Value × List Char) := fun depth cs =>
  match cs with
  | [] => none
  | c :: r =>
    if c == '"' || c == '\'' then (text? cs).map fun (s, r) => (.text s, r)
    else if c == '[' then
      match depth with
      | 0 => none
      | d + 1 => (sequence? ']' (value? d) (r.length + 1) r).map fun (vs, r) => (.array vs, r)
    else if c.toNat == 0x7b then
      match depth with
      | 0 => none
      | d + 1 => do
        let (entries, r) ← sequence? (Char.ofNat 0x7d) (fun cs => do
          let (path, r) ← key? cs
          match ← skipLines r.length r with
          | '=' :: r =>
            let (v, r) ← value? d (← skipLines r.length r)
            some ((path, v), r)
          | _ => none) (r.length + 1) r
        let t ← entries.foldlM (fun t (path, v) => Table.add path v .inline t) []
        some (.table .inline t, r)
    else
      let (a, r) := spanScalar cs
      (scalar? a).map fun v => (v, r)

/-- Where the next key of a document goes. -/
structure Place where
  root : Table := []
  header : List String := []

def header? (p : Place) (cs : List Char) : Option (Place × List Char) :=
  match cs with
  | '[' :: r => do
    let (path, r) ← key? r
    match r with
    | ']' :: ']' :: r =>
      let root ← Table.openItem path p.root
      some ({ root, header := path }, r)
    | _ => none
  | _ => do
    let (path, r) ← key? cs
    match r with
    | ']' :: r =>
      let root ← Table.openHeader path p.root
      some ({ root, header := path }, r)
    | _ => none

/-- A key with its value, up to the line end. -/
def entry? (p : Place) (cs : List Char) : Option (Place × List Char) := do
  let (path, r) ← key? cs
  match r with
  | '=' :: r =>
    let (v, r) ← value? nestingLimit (skipSpaces r)
    let root ← Table.addAt p.header path v p.root
    some ({ p with root }, r)
  | _ => none

def lines? : Nat → Place → List Char → Option Place
  | 0, _, _ => none
  | n + 1, p, cs => do
    let cs ← skipLines cs.length cs
    match cs with
    | [] => some p
    | c :: r =>
      let (p, r) ← if c == '[' then header? p r else entry? p (c :: r)
      let r ← skipToEnd r
      match r with
      | [] => some p
      | _ => (lineEnd? r).bind (lines? n p)

/-- The root table of a document.  A byte order mark in front is passed over. -/
def parse (s : String) : Option Table :=
  let cs := match s.toList with
    | c :: r => if c.toNat == 0xfeff then r else c :: r
    | [] => []
  (lines? (cs.length + 1) {} cs).map Place.root

end Toml
end Colloquy
