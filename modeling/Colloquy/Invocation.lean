/-
What a command line asks the program to do.

The options of the program come first, then a command and the options of the command.
The settings file can be named in both places, and the name behind the command wins.
-/
import Colloquy.Arguments
import Colloquy.Demo

namespace Colloquy

open Arguments (Flag Grammar Reading fill nat? int? nonempty?)

/-- A help page, by what it is about. -/
inductive Page where
  | program
  | demo
  | help
  deriving DecidableEq

inductive Invocation where
  /-- Show a conversation, with the settings of a file if one is named. -/
  | demo (settingsFile : Option String) (d : Demo)
  | help (page : Page)
  | version
  /-- The command line makes no sense. -/
  | refused
  deriving DecidableEq

namespace Invocation

/-! ## Options of the program -/

structure Common where
  settingsFile : Option String := none

def settingsAbout : String := "TOML configuration file (defaults apply when omitted)"

def commonFlags : List (Flag Common) := [
  { name := "config", about := settingsAbout
    put := fill nonempty? Common.settingsFile fun v c => { c with settingsFile := some v } }]

def commands : List (String × String) := [
  ("demo", "Run one conversation against an in-memory responder and print how it ended"),
  ("help", "Print this message or the help of the given subcommand(s)")]

def commonGrammar : Grammar Common where
  flags := commonFlags
  commands := commands.map Prod.fst
  versioned := true

/-! ## Options of the demo -/

structure DemoArguments where
  settingsFile : Option String := none
  namesp : Option String := none
  responses : Option Nat := none
  wait : Option Int := none
  responseTimeoutMs : Option Nat := none
  ackTimeoutMs : Option Nat := none

/-- A count of 32 bits.  A minus sign is allowed in front of zero. -/
def count? (s : String) : Option Nat := (int? 0 (Word.natMax 32) s).map Int.toNat

def demoFlags : List (Flag DemoArguments) := [
  { name := "config", about := settingsAbout
    put := fill nonempty? DemoArguments.settingsFile fun v d =>
      { d with settingsFile := some v } },
  { name := "namespace", about := "Namespace the responder listens on"
    default := some ({} : Demo).namesp
    put := fill some DemoArguments.namesp fun v d => { d with namesp := some v } },
  { name := "responses", about := "Responses the responder announces in its ack and then sends"
    default := some "1"
    put := fill count? DemoArguments.responses fun v d => { d with responses := some v } },
  { name := "wait-for-responses"
    about := "Responses the requester waits for (0: none, -1: until timeout)"
    default := some "1"
    greedy := true
    put := fill (int? (Word.intMin 32) (Word.intMax 32)) DemoArguments.wait fun v d =>
      { d with wait := some v } },
  { name := "response-timeout-ms"
    about := "Response timeout (default: defaultResponseTimeoutMs from the config)"
    put := fill (nat? (Word.natMax 64)) DemoArguments.responseTimeoutMs fun v d =>
      { d with responseTimeoutMs := some v } },
  { name := "ack-timeout-ms", about := "Window during which acks keep the conversation open"
    put := fill (nat? (Word.natMax 64)) DemoArguments.ackTimeoutMs fun v d =>
      { d with ackTimeoutMs := some v } }]

def demoGrammar : Grammar DemoArguments where
  flags := demoFlags

/-- The demo that some arguments describe. -/
def DemoArguments.demo (a : DemoArguments) : Demo :=
  let base : Demo := {}
  { namesp := a.namesp.getD base.namesp
    responses := a.responses.getD base.responses
    wait := a.wait.getD base.wait
    responseTimeoutMs := a.responseTimeoutMs
    ackTimeoutMs := a.ackTimeoutMs }

/-! ## Reading -/

/-- What the arguments behind the command `demo` ask for. -/
def ofDemoArguments (common : Option Common) (args : List String) : Invocation :=
  match demoGrammar.read args (some {}), common with
  | .help, _ => .help .demo
  | .complete a, some c => .demo (a.settingsFile.or c.settingsFile) a.demo
  | _, _ => .refused

/-- What the arguments behind the command `help` ask for. -/
def ofHelpArguments : List String → Invocation
  | [] => .help .program
  | ["demo"] => .help .demo
  | ["help"] => .help .help
  | _ => .refused

def ofArguments (args : List String) : Invocation :=
  match commonGrammar.read args (some {}) with
  | .help => .help .program
  | .version => .version
  | .command "demo" common rest => ofDemoArguments common rest
  | .command "help" _ rest => ofHelpArguments rest
  | _ => .refused

/-- The settings file an invocation needs. -/
def settingsFile? : Invocation → Option String
  | .demo file _ => file
  | _ => none

end Invocation
end Colloquy
