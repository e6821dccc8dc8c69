/-
The program as a function: from an invocation to what is written and how it exits.

What is written comes after the conversation has ended, so the time that takes is part of
the answer.
-/
import Colloquy.Invocation.Page

namespace Colloquy

/-- What the program leaves behind. -/
structure Output where
  stdout : String := ""
  stderr : String := ""
  exitCode : UInt8 := 0
  /-- The milliseconds until the program exits. -/
  elapsedMs : Nat := 0
  deriving DecidableEq

namespace Output

def lines (ls : List String) : String := String.join (ls.map fun l => l ++ "\n")

def failure (reason : String) (elapsedMs : Nat) : Output :=
  { stderr := lines [reason], exitCode := 1, elapsedMs }

/-- What is written about a demo. -/
def ofDemo (r : Demo.Result) (elapsedMs : Nat) : Output :=
  match r with
  | .ended e =>
    match e.toJson? with
    | some v => { stdout := lines [v.pretty], elapsedMs }
    | none =>
      let why := Failure.serialization .mismatched "a time lies before the epoch"
      failure s!"Error: {why.message}" elapsedMs
  | .sent =>
    let report := Json.Value.object [("published", .bool true), ("waited", .bool false)]
    { stdout := lines [report.renderText], elapsedMs }
  | .failed why => failure s!"Error: {why.message}" elapsedMs

end Output

namespace Invocation

/-- The settings of an invocation, or why they cannot be had.  `read` gives the text of a
file. -/
def settings (read : String → Except Failure String) (file : Option String) :
    Except String Settings :=
  match file with
  | none => .ok {}
  | some file =>
    match (read file).bind Settings.ofToml with
    | .ok s => .ok s
    | .error why => .error s!"Failed to load config from {file}: {why.message}"

def run (i : Invocation) (read : String → Except Failure String) (around : Surroundings) :
    Output :=
  match i with
  | .demo file d =>
    match settings read file with
    | .error reason => .failure reason 0
    | .ok s =>
      let (result, elapsedMs) := d.run s around
      .ofDemo result elapsedMs
  | .help p => { stdout := Output.lines p.lines }
  | .version => { stdout := Output.lines [s!"{Page.programName} {Page.programVersion}"] }
  | .refused => { stderr := Output.lines Page.complaint, exitCode := 2 }

end Invocation
end Colloquy
