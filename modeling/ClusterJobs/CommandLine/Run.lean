import ClusterJobs.CommandLine.Access
import ClusterJobs.CommandLine.Arguments
import ClusterJobs.CommandLine.Files
import ClusterJobs.Json.Pretty

/-!
# Running a command

What each command prints and how it ends. A command that fails prints nothing but the reason.
-/

namespace ClusterJobs.CommandLine

/-- What a command printed, and the code that the program exits with. -/
structure Ending where
  output : String
  code : Nat
deriving DecidableEq, Repr

/-- How long logs may drain after the outcome of a task is known, in milliseconds. -/
def drainGrace : Nat := 5000

/-- The message of any fault. -/
def told {α : Type} : Except Fault α → Except String α :=
  Except.mapError Fault.message

/-- The message of any fault of a job. -/
def toldOfJob {α : Type} : Except JobFault α → Except String α :=
  Except.mapError JobFault.message

/-- Lines, each with its end. -/
def lines (ls : List String) : String :=
  String.join (ls.map (· ++ "\n"))

/-! ## Requests -/

/-- Reads a request in the shape of its task type. -/
def readRequestFile (s : Settings) (r : RequestArgs) : FileProgram (Except String Request) := do
  match ← readDocument Request.decode r.path with
  | .error e => return .error e
  | .ok request =>
    return toldOfJob (match r.taskType with
      | some type => request.forTaskType type s.queueEnabled
      | none => request.check.map fun _ => request)

/-- Reads a request and the templates that it is compiled with. -/
def prepare (s : Settings) (r : RequestArgs) : FileProgram (Except String (Engine × Request)) := do
  match ← readRequestFile s r with
  | .error e => return .error e
  | .ok request =>
    match ← templatesOf s with
    | .error e => return .error e.message
    | .ok ts => return .ok (Engine.ofSettings ts s drainGrace .standard, request)

/-- A manifest as it is printed. -/
def printedManifest (m : Manifest) : String :=
  lines ["---", m.toYaml]

/-- Prints the manifests of a request. -/
def compile (s : Settings) (r : RequestArgs) : FileProgram (Except String Ending) := do
  match ← prepare s r with
  | .error e => return .error e
  | .ok (engine, request) =>
    return (toldOfJob (engine.compiler.compileAll request)).map fun ms =>
      ⟨String.join (ms.map printedManifest), 0⟩

/-- The code that a process exits with; only eight bits of it arrive. -/
def exitCode (o : Outcome) : Nat :=
  (o.status.exitCode % 256).toNat

/-- Runs a request to its outcome. What a run that fails leaves behind is deleted; a fault of that
stays untold. -/
def run (s : Settings) (r : RequestArgs) : FileProgram (Except String Ending) := do
  match ← prepare s r with
  | .error e => return .error e
  | .ok (engine, request) =>
    let store ← credentialsOf s
    let access : Access := ⟨.empty, store, s.batchCallback⟩
    match engine.run Access.taskHandler request ⟨none, fun _ => true⟩ ⟨0, access⟩ with
    | (some (.ok outcome), _) => return .ok ⟨lines [outcome.ordered.pretty], exitCode outcome⟩
    | (some (.error e), rest) =>
      match ((engine.cancel request).run Access.taskHandler rest).1 with
      | some _ => return .error e.message
      | none => .never
    | (none, _) => .never

/-- Deletes whatever a request may have created. -/
def cancel (s : Settings) (r : RequestArgs) : FileProgram (Except String Ending) := do
  match ← prepare s r with
  | .error e => return .error e
  | .ok (engine, request) =>
    let store ← credentialsOf s
    let access : Access := ⟨.empty, store, s.batchCallback⟩
    match ((engine.cancel request).run Access.taskHandler ⟨0, access⟩).1 with
    | some (.ok ()) => return .ok ⟨"", 0⟩
    | some (.error e) => return .error e.message
    | none => .never

/-! ## Queues -/

/-- Creates a queue in memory, and on its cluster. -/
def create (s : Settings) (q : NewQueue) (now : Instant) :
    FileProgram (Except String QueueRow) := do
  let store ← credentialsOf s
  let surroundings : QueueAccess := ⟨⟨.empty, store, s.batchCallback⟩, .empty false⟩
  let program := QueueManager.create (.ofSettings s) q now
  match (program.run QueueAccess.handler surroundings).1 with
  | some (.ok row) => return .ok row
  | some (.error e) => return .error e.message
  | none => .never

/-- Creates a queue and prints its row. -/
def createQueue (s : Settings) (path : String) (now : Instant) :
    FileProgram (Except String Ending) := do
  match ← readDocument NewQueue.decode path with
  | .error e => return .error e
  | .ok q =>
    let row ← create s q now
    return row.map fun row => ⟨lines [row.ordered.pretty], 0⟩

/-- Prints the queue that a request becomes. It is created on the cluster that never receives queues. -/
def renderQueue (s : Settings) (path : String) (now : Instant) :
    FileProgram (Except String Ending) := do
  match ← readDocument NewQueue.decode path with
  | .error e => return .error e
  | .ok q =>
    let row ← create s { q with cluster := s.localTestClusterCode } now
    return row.map fun row =>
      ⟨lines [Yaml.render (row.manifest (.ofSettings s)).ordered], 0⟩

/-! ## Commands -/

/-- Does what an action asks for, at a time. -/
def perform (s : Settings) (now : Instant) : Action → FileProgram (Except String Ending)
  | .compile r => compile s r
  | .run r => run s r
  | .cancel r => cancel s r
  | .createQueue path => createQueue s path now
  | .renderQueue path => renderQueue s path now
  | .listGpuTypes => pure (.ok ⟨lines (QueueSettings.ofSettings s).gpuTypes, 0⟩)

/-- Reads the settings and does what the action asks for. -/
def execute (env : Settings.Environment) (now : Instant) (i : Invocation) :
    FileProgram (Except String Ending) := do
  match ← readSettings i.config env with
  | .error e => return .error e.message
  | .ok s => perform s now i.action

/-- What the program prints where the command line does not lead to an action. -/
def Stop.ending (env : Fields String) : Stop → Ending
  | .usage => ⟨"", 2⟩
  | .help l full => ⟨l.help env full, 0⟩
  | .version => ⟨lines ["kubetask 0.1.0"], 0⟩

end ClusterJobs.CommandLine
