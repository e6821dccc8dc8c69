/-
The command line.

Everything that is decided is decided by `Invocation.run`.  What stands here reads the
settings file, the clock and the names of the host and the process, waits as long as the
conversation took, and writes.
-/
import Colloquy.Program
import Std.Time.DateTime.Timestamp

namespace Colloquy
namespace CommandLine

/-- Why a file could not be read. -/
def failureOf : IO.Error → Failure
  | .noFileOrDirectory _ _ _ => .fileNotFound
  | .permissionDenied _ code details => .io s!"{details} (os error {code})"
  | .inappropriateType _ code details => .io s!"{details} (os error {code})"
  | e => .io (toString e)

def readText (path : String) : IO (Except Failure String) := do
  match ← (IO.FS.readBinFile path).toBaseIO with
  | .error e => return .error (failureOf e)
  | .ok bytes =>
    match String.fromUTF8? bytes with
    | some text => return .ok text
    | none => return .error (.io "stream did not contain valid UTF-8")

/-- The time now, to the millisecond. -/
def readClock : IO Instant := do
  let t ← Std.Time.Timestamp.now
  let ms := t.toMillisecondsSinceUnixEpoch.val
  return (Instant.epoch.addMillis? ms.toNat).getD .epoch

/-- The number of this process. -/
def readPid : IO Nat := do
  match ← (IO.FS.readFile "/proc/self/stat").toBaseIO with
  | .ok text => return (Arguments.digits? (text.toList.takeWhile Char.isDigit)).getD 0
  | .error _ => return 0

def surroundings : IO Surroundings := do
  let now ← readClock
  let hostname := (← IO.getEnv "HOSTNAME").getD "unknown"
  let pid ← readPid
  -- Two runs start their identifiers apart by their time and by their process.
  let firstIdent := (now.toNanos.toNat * Word.size 32 + pid) * Word.size 24
  return { now, hostname, pid, firstIdent }

/-- The longest that a process can be put to sleep at once. -/
def longestSleep : Nat := Word.natMax 32

def run (args : List String) : IO UInt32 := do
  let i := Invocation.ofArguments args
  let text ← match i.settingsFile? with
    | some path => readText path
    | none => pure (.ok "")
  let out := i.run (fun _ => text) (← surroundings)
  IO.sleep (min out.elapsedMs longestSleep).toUInt32
  IO.print out.stdout
  IO.eprint out.stderr
  return out.exitCode.toUInt32

end CommandLine
end Colloquy

def main (args : List String) : IO UInt32 := Colloquy.CommandLine.run args
