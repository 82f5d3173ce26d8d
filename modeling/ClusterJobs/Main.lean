import Mathlib.Tactic.DeprecateTo
import ClusterJobs.CommandLine.Run

/-!
# The program

Reads the command line, the environment and files, and prints.
-/

namespace ClusterJobs.CommandLine

/-- The kind of fault that an input fault is. -/
def FileFault.ofError : IO.Error → FileFault
  | .noFileOrDirectory .. => .missing
  | .inappropriateType .. => .directory
  | .permissionDenied .. => .denied
  | .userError _ => .notText
  | _ => .missing

/-- Answers calls from the files of the machine. -/
def answerFile : (c : FileCall) → IO (FileAnswer c)
  | .read path => do
    try
      let text ← IO.FS.readFile path
      return .ok text
    catch e => return .error (.ofError e)

/-- Runs a program on the files of the machine. -/
def onMachine {α : Type} : FileProgram α → IO (Option α)
  | .done a => return some a
  | .ask c next => do
    let x ← answerFile c
    onMachine (next x)
  | .never => return none

/-- The variables that the program looks at. -/
def variableNames : List String :=
  globalOptions.filterMap OptionSpec.variable? ++
    Settings.overrides.map fun o => Settings.variableName o.name

/-- The values of variables. -/
def readEnvironment : List String → IO Settings.Environment
  | [] => return []
  | name :: rest => do
    let value ← IO.getEnv name
    let others ← readEnvironment rest
    return match value with
      | some v => Fields.put others name v
      | none => others

/-- The time. -/
def readClock : IO Instant := do
  let now ← Std.Time.Timestamp.now
  return ⟨now.toNanosecondsSinceUnixEpoch.val⟩

/-- Prints the ending of a command. -/
def report : Option (Except String Ending) → IO UInt32
  | some (.ok ending) => do
    IO.print ending.output
    return UInt32.ofNat ending.code
  | some (.error message) => do
    IO.eprintln ("Error: " ++ message)
    return 1
  | none => return 1

end ClusterJobs.CommandLine

open ClusterJobs.CommandLine in
def main (words : List String) : IO UInt32 := do
  let env ← readEnvironment variableNames
  match Invocation.parse env words with
  | .error .usage => do
    IO.eprintln ("Usage: " ++ rootLevel.usage ++ "\n\nFor more information, try '--help'.")
    return 2
  | .error stop => report (some (.ok (stop.ending env)))
  | .ok i => report (← onMachine (execute env (← readClock) i))
