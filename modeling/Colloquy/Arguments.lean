/-
Command-line arguments.

An option is written `--name value` or `--name=value`, and may be given once.  Words that
name a command hand the rest over to that command.  Arguments are taken from left to
right, and the first that cannot be taken decides what is answered.
-/
import Colloquy.Decimal.Shortest

namespace Colloquy
namespace Arguments

/-! ## Tokens -/

inductive Token where
  /-- Two hyphens, after which only words can follow. -/
  | separator
  | long (name : String) (value : Option String)
  /-- A hyphen and a letter.  Letters behind the first one make no difference. -/
  | short (letter : Char)
  | word
  deriving DecidableEq

def cut : List Char → List Char × Option (List Char)
  | [] => ([], none)
  | c :: r =>
    if c = '=' then ([], some r)
    else
      let (name, value) := cut r
      (c :: name, value)

def Token.ofChars : List Char → Token
  | '-' :: '-' :: [] => .separator
  | '-' :: '-' :: r =>
    let (name, value) := cut r
    .long (String.ofList name) (value.map String.ofList)
  | '-' :: letter :: _ => .short letter
  | _ => .word

def Token.ofText (s : String) : Token := ofChars s.toList

/-! ## Values -/

def digits? (cs : List Char) : Option Nat :=
  if cs.isEmpty || !cs.all Char.isDigit then none
  else some (cs.foldl (fun n c => n * 10 + (c.toNat - 48)) 0)

/-- A number in decimal digits up to a limit, maybe with a plus sign. -/
def nat? (most : Nat) (s : String) : Option Nat :=
  let n := match s.toList with
    | '+' :: r => digits? r
    | cs => digits? cs
  n.filter fun n => n ≤ most

/-- A number in decimal digits between two limits, maybe with a sign. -/
def int? (least most : Int) (s : String) : Option Int :=
  let i := match s.toList with
    | '-' :: r => (digits? r).map fun n => -(n : Int)
    | '+' :: r => (digits? r).map Int.ofNat
    | cs => (digits? cs).map Int.ofNat
  i.filter fun i => least ≤ i && i ≤ most

def nonempty? (s : String) : Option String := if s = "" then none else some s

/-! ## Options -/

/-- An option with a value, for arguments that are gathered in an `α`.  `put` refuses a
value that cannot be read, and a second one. -/
structure Flag (α : Type) where
  name : String
  about : String
  default : Option String := none
  /-- The next argument is the value whatever its form. -/
  greedy : Bool := false
  put : String → α → Option α

/-- Fill a slot that is still empty. -/
def fill {α β : Type} (read : String → Option β) (get : α → Option β) (set : β → α → α)
    (s : String) (a : α) : Option α :=
  match get a with
  | some _ => none
  | none => (read s).map fun b => set b a

/-- What a part of the command line can hold. -/
structure Grammar (α : Type) where
  flags : List (Flag α)
  commands : List String := []
  /-- Whether this part can be asked for the version. -/
  versioned : Bool := false

inductive Reading (α : Type) where
  | refused
  | help
  | version
  | complete (a : α)
  /-- A command with its arguments; no `α` if the last value before it was refused. -/
  | command (name : String) (a : Option α) (rest : List String)

namespace Grammar

def flag? {α : Type} (g : Grammar α) (name : String) : Option (Flag α) :=
  g.flags.find? fun f => f.name = name

/-- What an argument other than an option with a value comes to; `rest` follows it. -/
def readPlain {α : Type} (g : Grammar α) (a : α) (t : Token) (rest : List String) : Reading α :=
  match t with
  | .separator => if rest.isEmpty then .complete a else .refused
  | .short letter =>
    if letter = 'h' then .help
    else if letter = 'V' && g.versioned then .version
    else .refused
  | .long name none =>
    if name = "help" then .help
    else if name = "version" && g.versioned then .version
    else .refused
  | _ => .refused

/-- Read arguments.  A value that stands by itself is refused with the argument behind it,
unless that is a command. -/
def read {α : Type} (g : Grammar α) : List String → Option α → Reading α
  | [], some a => .complete a
  | [], none => .refused
  | s :: rest, gathered =>
    if g.commands.contains s then .command s gathered rest
    else
      match gathered with
      | none => .refused
      | some a =>
        let t := Token.ofText s
        match t with
        | .long name value =>
          match g.flag? name, value, rest with
          | none, _, rest => g.readPlain a t rest
          | some f, some v, rest =>
            match f.put v a with
            | some a => g.read rest (some a)
            | none => .refused
          | some _, none, [] => .refused
          | some f, none, v :: rest =>
            if f.greedy || Token.ofText v = .word then g.read rest (f.put v a) else .refused
        | t => g.readPlain a t rest

end Grammar
end Arguments
end Colloquy
