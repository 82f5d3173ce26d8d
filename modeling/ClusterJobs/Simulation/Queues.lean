import ClusterJobs.Queue.Bridge
import ClusterJobs.Queue.Manager
import ClusterJobs.Queue.Store

/-!
# A rehearsal of queues

Rows in memory, and clusters that hold the queues applied to them, fail where they are told to, and
report the states they are told to report. Every call to a cluster is written down. The clock stands
still, and what is shown leaves times out.
-/

namespace ClusterJobs

open Json (Value)

/-! ## What is shown -/

/-- The object without the times in it. -/
def Json.Value.withoutTimes : Value → Value
  | .obj members => .obj (members.filter fun m => m.1 != "createdAt" && m.1 != "updatedAt")
  | v => v

/-- A row as a rehearsal shows it. -/
def QueueRow.shown (row : QueueRow) : Value :=
  row.toJson.withoutTimes

/-- A record as a rehearsal shows it. -/
def QueuedTask.shown (task : QueuedTask) : Value :=
  task.toJson.withoutTimes

namespace Simulation

/-- What the clock shows in a rehearsal. -/
def rehearsed : Instant := ⟨0⟩

/-! ## Surroundings -/

/-- The surroundings of queue operations. -/
structure QueueWorld where
  rows : QueueRows
  tasks : TaskRows
  /-- The names that are being created. -/
  reserved : List String
  /-- The queues on clusters, by cluster and name. -/
  held : List ((String × String) × GangQueue)
  /-- The clusters that fail. -/
  failing : List String
  /-- The states that clusters report, by queue. -/
  states : Fields QueueState
  /-- The records of tasks cannot be read or written. -/
  tasksLocked : Bool
  /-- The calls to clusters, the last one first. -/
  calls : List Value

namespace QueueWorld

def empty (tasksLocked : Bool) : QueueWorld :=
  ⟨.empty, [], [], [], [], [], tasksLocked, []⟩

/-- Writes a call to a cluster down; a failing cluster answers with a fault. -/
def onCluster {α : Type} (w : QueueWorld) (cluster call : String) (argument : Value)
    (act : QueueWorld → α × QueueWorld) : Except Fault α × QueueWorld :=
  let w := { w with calls := .arr [.str call, .str cluster, argument] :: w.calls }
  if w.failing.contains cluster then (.error (.cluster cluster "connection refused"), w)
  else
    let (a, w) := act w
    (.ok a, w)

/-- Reads or writes the records of tasks. -/
def onTasks {α : Type} (w : QueueWorld) (act : TaskRows → α × TaskRows) :
    Except QueueFault α × QueueWorld :=
  if w.tasksLocked then (.error (.repository "database is locked"), w)
  else
    let (a, tasks) := act w.tasks
    (.ok a, { w with tasks := tasks })

/-- The queues on clusters without one of them. -/
def without (w : QueueWorld) (cluster name : String) : List ((String × String) × GangQueue) :=
  w.held.filter fun p => p.1 != (cluster, name)

/-- Answers calls. -/
def handler : Program.Handler QueueCall QueueAnswer QueueWorld
  | .reserve name, w =>
    if w.reserved.contains name then (false, w)
    else (true, { w with reserved := name :: w.reserved })
  | .release name, w => ((), { w with reserved := w.reserved.filter (· != name) })
  | .insertRow row, w =>
    match w.rows.insert row with
    | .ok (stored, rows) => (.ok stored, { w with rows := rows })
    | .error e => (.error e, w)
  | .getRow id, w => (.ok (w.rows.get? id), w)
  | .findRow name, w => (.ok (w.rows.find? name), w)
  | .updateRow row, w =>
    match w.rows.update row with
    | .ok rows => (.ok (), { w with rows := rows })
    | .error e => (.error e, w)
  | .deleteRow id, w => (.ok (), { w with rows := w.rows.delete id })
  | .listRows project page pageSize, w => (.ok (w.rows.list project page pageSize), w)
  | .findTask code, w => w.onTasks fun ts => (ts.get? code, ts)
  | .upsertTask task, w => w.onTasks fun ts => ((ts.get? task.code).isNone, ts.put task)
  | .setStatus code status now, w => w.onTasks fun ts =>
    ((ts.get? code).isSome, ts.setStatus code status now)
  | .listTasks queue status, w => w.onTasks fun ts => (ts.ofQueue queue status, ts)
  | .apply cluster queue, w => w.onCluster cluster "apply" queue.toJson fun w =>
    ((), { w with held := ((cluster, queue.name), queue) :: w.without cluster queue.name })
  | .delete cluster name, w => w.onCluster cluster "delete" (.str name) fun w =>
    ((), { w with held := w.without cluster name })
  | .state cluster name, w => w.onCluster cluster "state" (.str name) fun w =>
    (w.states.get? name, w)

/-- The calls to clusters since the last look, which are forgotten. -/
def takeCalls (w : QueueWorld) : List Value × QueueWorld :=
  (w.calls.reverse, { w with calls := [] })

/-- The call at which a creation lets another one go first. -/
def yieldsAt : QueueCall → Bool
  | .apply _ _ => true
  | _ => false

end QueueWorld

end Simulation

end ClusterJobs
