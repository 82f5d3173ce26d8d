import ClusterJobs.Queue.Call
import ClusterJobs.TaskType

/-!
# Following tasks through queues

The scheduler's signals move the records of queued tasks along. A signal never fails: what goes wrong
with a record does not hold up the task.
-/

namespace ClusterJobs

open QueueProgram

namespace QueueBridge

/-- A signal of the scheduler about a task. -/
inductive Signal where
  | running
  | finished
deriving DecidableEq, Repr

namespace Signal

/-- The signal moves the records of tasks of this type. -/
def tracks : Signal → TaskType → Bool
  | running, t => t.tracksRunning
  | finished, t => t.tracksFinished

/-- The status that the signal gives. A finished task waits for the next run. -/
def status : Signal → TaskStatus
  | running => .running
  | finished => .pendingRerun

end Signal

/-- Handles a signal. Signals count only if queues are enabled. -/
def handle (queueEnabled : Bool) (signal : Signal) (code : Int) (type : TaskType)
    (now : Instant) : QueueProgram Unit := do
  if queueEnabled && signal.tracks type then
    let _ ← perform (.setStatus code signal.status now)

/-- Records a task that enters a queue. A known task keeps its status; a new one is queued. -/
def record (task : NewTask) (now : Instant) : QueueProgram (Except QueueFault QueuedTask) := do
  match ← perform (.findTask task.code) with
  | .error e => return .error e
  | .ok known =>
    let status := match known with
      | some t => t.status
      | none => .queued
    let stored : QueuedTask := ⟨task, status, now⟩
    match ← perform (.upsertTask stored) with
    | .error e => return .error e
    | .ok _ => return .ok stored

/-- Sets a status. The answer is whether the task is known. -/
def setStatus (code : Int) (status : TaskStatus) (now : Instant) :
    QueueProgram (Except QueueFault Bool) :=
  perform (.setStatus code status now)

/-- The records of a queue. -/
def list (queue : String) : QueueProgram (Except QueueFault (List QueuedTask)) :=
  perform (.listTasks queue none)

end QueueBridge

end ClusterJobs
