import ClusterJobs.Simulation.Script
import ClusterJobs.Task.Engine

/-!
# A rehearsal of a cluster

A cluster that answers as its script says and writes down every call. Its clock jumps to the next time
at which something happens.
-/

namespace ClusterJobs.Simulation

open Json (Value)

/-- A call that was made about an object. -/
structure Record where
  time : Nat
  call : String
  nameSpace : String
deriving DecidableEq, Repr

/-- One object: what is left of its script, whether it exists, and what happened to it. -/
structure Job where
  script : JobScript
  live : Bool
  /-- The calls, the last one first. -/
  calls : List Record
  /-- The lines of its log, the last one first. -/
  lines : List String

/-- A scripted cluster with what happened since it was last looked at. -/
structure World where
  script : WorldScript
  jobs : Fields Job
  /-- The connections that were asked for, the last one first. -/
  connections : List String
  /-- The clients that were dropped, the last one first. -/
  invalidated : List String
  /-- The results that were posted, the last ones first. -/
  published : List (List ItemResult)

namespace World

/-- A cluster at the start of its script. -/
def ofScript (script : WorldScript) : World :=
  ⟨script, [], [], [], []⟩

/-- An object as its script has it at first. -/
def firstJob (script : JobScript) : Job :=
  ⟨script, script.present, [], []⟩

def job (w : World) (name : String) : Job :=
  (w.jobs.get? name).getD (firstJob (w.script.jobScript name))

def withJob (w : World) (name : String) (j : Job) : World :=
  { w with jobs := w.jobs.put name j }

end World

/-- The first entry of a list and the rest. -/
def takeFirst {α : Type} : List α → Option α × List α
  | [] => (none, [])
  | a :: rest => (some a, rest)

namespace Job

/-- Writes a call down. -/
def record (j : Job) (now : Nat) (call nameSpace : String) : Job :=
  { j with calls := ⟨now, call, nameSpace⟩ :: j.calls }

/-- Looks whether the object exists. -/
def look (j : Job) (target : Target) : Except Fault Bool × Job :=
  match takeFirst j.script.looks with
  | (none, _) => (.ok j.live, j)
  | (some answer, rest) =>
    let j := { j with script := { j.script with looks := rest } }
    match answer with
    | .ok b => (.ok b, j)
    | .error f => (.error (f.toFault target), j)

/-- Creates the object. -/
def create (j : Job) (target : Target) : Except Fault Unit × Job :=
  let (answer, rest) := takeFirst j.script.creations
  let j := { j with script := { j.script with creations := rest } }
  match answer.join with
  | some f => (.error (f.toFault target), j)
  | none => (.ok (), { j with live := true })

/-- Deletes the object. -/
def delete (j : Job) (target : Target) : Except Fault Unit × Job :=
  let (answer, rest) := takeFirst j.script.deletions
  let j := { j with script := { j.script with deletions := rest } }
  match answer.join with
  | some f => (.error (f.toFault target), j)
  | none => (.ok (), { j with live := false })

/-- The log as its script has it. Opening takes no time, pauses are not jittered, and closing wins
every race. -/
def logSource (j : Job) (target : Target) : LogSource :=
  let opens := j.script.log.map (Except.mapError (ScriptFault.toFault · target))
  { opens := opens
    later := opens.getLast?.getD (.ok ⟨[], some 0⟩)
    opening := fun _ => some 0
    jitter := fun _ => 1.0
    closeWinsOpen := fun _ => true
    closeWinsLine := fun _ => true }

end Job

namespace World

/-- Makes a call about an object and writes it down. -/
def onJob {α : Type} (w : World) (now : Nat) (object : ObjectRef) (call : String)
    (act : Job → Target → α × Job) : α × World :=
  let (a, j) := act (w.job object.name) object.target
  (a, w.withJob object.name (j.record now call object.nameSpace))

/-- The answer to a call at a time. -/
def answer (now : Nat) : (c : Call) → World → Answer c × World
  | .now, w => (now, w)
  | .pause _, w => ((), w)
  | .connect target kind, w =>
    let w := { w with
      connections := (target.display ++ " " ++ kind.configKey) :: w.connections }
    match w.script.unreachable.get? target.display with
    | some f => (.error (f.toFault target), w)
    | none => (.ok (), w)
  | .invalidate target, w => ((), { w with invalidated := target.display :: w.invalidated })
  | .exists object, w => w.onJob now object "exists" Job.look
  | .create object _, w => w.onJob now object "create" Job.create
  | .delete object, w => w.onJob now object "delete" Job.delete
  | .watch object, w =>
    ((w.job object.name).script.watch.mapError (ScriptFault.toFault · object.target), w)
  | .follow object _, w => ((w.job object.name).logSource object.target, w)
  | .tail object container lines, w =>
    w.onJob now object ("tail " ++ container ++ " " ++ toString lines) fun j target =>
      (j.script.tail.mapError (ScriptFault.toFault · target), j)
  | .deliver name line, w =>
    let j := w.job name
    ((), w.withJob name { j with lines := line :: j.lines })
  | .publish results, w =>
    let w := { w with published := results :: w.published }
    match w.script.publishFault with
    | some message => (.error (.callback message), w)
    | none => (.ok (), w)

/-- Answers calls. A pause lets the clock go on. -/
def handler : Program.Handler Call Answer (Timed World)
  | .pause ms, s => ((), { s with now := s.now + ms })
  | c, s =>
    let (x, w) := answer s.now c s.state
    (x, { s with state := w })

/-! ## What happened -/

/-- The calls about an object, its log, and whether it exists now. -/
def showJob (j : Job) : Value :=
  .object [
    ("calls", .arr (j.calls.reverse.map fun r =>
      .arr [.int r.time, .str r.call, .str r.nameSpace])),
    ("lines", .strings j.lines.reverse),
    ("live", .bool j.live)]

/-- Something happened to the object. -/
def touched (j : Job) : Bool :=
  !j.calls.isEmpty || !j.lines.isEmpty

/-- Texts in increasing order. -/
def sorted (texts : List String) : List String :=
  texts.mergeSort fun a b => a ≤ b

/-- All that happened, and the time that it took. -/
def showAll (s : Timed World) : Value :=
  let w := s.state
  .object [
    ("jobs", .obj (Fields.mapValues showJob (w.jobs.filter fun p => touched p.2))),
    ("apis", .strings (sorted w.connections)),
    ("invalidated", .strings (sorted w.invalidated)),
    ("published", .arr (w.published.reverse.map fun rs => .arr (rs.map ItemResult.toJson))),
    ("elapsedMs", .int s.now)]

/-- The cluster with nothing written down. -/
def forget (w : World) : World :=
  { w with
    jobs := w.jobs.mapValues fun j => { j with calls := [], lines := [] }
    connections := []
    invalidated := []
    published := [] }

/-- The cluster at the start of another step. -/
def nextStep (s : Timed World) : Timed World :=
  ⟨0, s.state.forget⟩

end World

end ClusterJobs.Simulation
