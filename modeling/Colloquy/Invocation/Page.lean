/-
Help pages.

A page says what a command is for, how it is written, and what it takes.  The text on an
option stands beside the option where there is room for that, and else below it.
-/
import Colloquy.Invocation

namespace Colloquy
namespace Page

def programName : String := "msb"

def programVersion : String := "0.1.0"

def programAbout : String := "Request/response conversations over a pub/sub broker"

/-- An entry of a list: what is explained, and the text on it. -/
structure Row where
  /-- The short form, for those options that have one. -/
  letter : Option Char := none
  term : String
  text : String

namespace Row

/-- The width of a line. -/
def lineWidth : Nat := 100

def spaces (n : Nat) : String := String.ofList (List.replicate n ' ')

def ofFlag {α : Type} (f : Arguments.Flag α) : Row where
  term :=
    let value := String.ofList (f.name.toList.map fun c => if c = '-' then '_' else c.toUpper)
    s!"--{f.name} <{value}>"
  text :=
    match f.default with
    | some d => s!"{f.about} [default: {d}]"
    | none => f.about

def helpFlag : Row := { letter := some 'h', term := "--help", text := "Print help" }

def versionFlag : Row := { letter := some 'V', term := "--version", text := "Print version" }

def width (rows : List Row) : Nat := (rows.map fun r => r.term.length).foldl max 0

/-- Whether the texts stand below the options: the options take more than two fifths of the
line, and some text does not fit into the rest. -/
def stacked (rows : List Row) : Bool :=
  let taken := width rows + 12
  taken ≤ lineWidth && 2 * lineWidth < 5 * taken
    && rows.any fun r => lineWidth - taken < r.text.length

def options (rows : List Row) : List String :=
  let entry := fun (r : Row) =>
    let mark := match r.letter with
      | some c => s!"  -{String.singleton c}, "
      | none => spaces 6
    if stacked rows then [mark ++ r.term, spaces 10 ++ r.text]
    else [mark ++ r.term ++ spaces (width rows - r.term.length + 2) ++ r.text]
  rows.flatMap entry

def commands (rows : List Row) : List String :=
  rows.map fun r => spaces 2 ++ r.term ++ spaces (width rows - r.term.length + 2) ++ r.text

end Row

def aboutCommand (name : String) : String := (Invocation.commands.lookup name).getD ""

def lines : Page → List String
  | .program =>
    [programAbout, "", s!"Usage: {programName} [OPTIONS] <COMMAND>", "", "Commands:"] ++
      Row.commands (Invocation.commands.map fun (name, about) => { term := name, text := about }) ++
      ["", "Options:"] ++
      Row.options (Invocation.commonFlags.map Row.ofFlag ++ [Row.helpFlag, Row.versionFlag])
  | .demo =>
    [aboutCommand "demo", "", s!"Usage: {programName} demo [OPTIONS]", "", "Options:"] ++
      Row.options (Invocation.demoFlags.map Row.ofFlag ++ [Row.helpFlag])
  | .help =>
    [aboutCommand "help", "", s!"Usage: {programName} help [COMMAND]...", "", "Arguments:",
      "  [COMMAND]...  Print help for the subcommand(s)"]

/-- What is written about a command line that makes no sense. -/
def complaint : List String :=
  [s!"Usage: {programName} [OPTIONS] <COMMAND>", "", "For more information, try '--help'."]

end Page
end Colloquy
