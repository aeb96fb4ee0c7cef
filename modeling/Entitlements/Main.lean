import Entitlements.CommandLine.Commands
import Std.Time.DateTime.Timestamp

/-!
The program. Its first argument names a command and the others are the command's own; settings come
from the process environment and the time from the system clock. The tables live in the memory of
the process, so each run starts with none of the rows of an earlier one.
-/

namespace Entitlements.Program

/-- The present as a count of microseconds; the epoch of the system clock is the start of 1970. -/
def present : IO Time.Instant := do
  let nanos := (← Std.Time.Timestamp.now).toNanosecondsSinceUnixEpoch.val
  return ⟨(Time.Instant.ofReading ⟨1970, 1, 1⟩ 0).micros + nanos / 1000⟩

def environmentSettings : IO (Schema.Checked Settings) := do
  let named ← Settings.names.filterMapM fun name => do
    return (← IO.getEnv name).map fun value => (name, value)
  return Settings.ofEnvironment named

/-- What the file of the feature table holds, if the settings name one that can be read. -/
def featureFile (settings : Settings) : IO (Option String) :=
  match settings.featureTablePath with
  | none => return none
  | some path => try return some (← IO.FS.readFile path) catch _ => return none

def report (f : Failure) : IO UInt32 := do
  IO.eprintln (f.message?.getD "the command failed")
  return 1

def runCommand (settings : Settings) (name : CommandLine.Name) (args : List String) :
    IO UInt32 := do
  let configured := settings.featureTable (← featureFile settings)
  let env : Environment :=
    { settings, features := .builtIn, configured, sink := .audit, canInvalidate := true
      hasBundles := true, isOvertaken := false }
  match ((CommandLine.run name args).outcome env (Engine.start (← present) false)).1 with
  | .ok answer => do
    IO.print answer.output
    return answer.exit.toUInt32
  | .error failure => report failure

/-- Runs the command that the first argument names. -/
def run (args : List String) : IO UInt32 := do
  match args with
  | name :: args => match CommandLine.Name.ofText? name, ← environmentSettings with
    | some name, .valid settings => runCommand settings name args
    | some _, .invalid issues => report (.invalidDocument issues)
    | none, _ => return 2
  | [] => return 2

end Entitlements.Program

def main (args : List String) : IO UInt32 := Entitlements.Program.run args
