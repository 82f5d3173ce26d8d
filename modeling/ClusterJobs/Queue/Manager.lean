import ClusterJobs.Queue.Call

/-!
# Managing queues

Rows and the queues on clusters are kept in step. The cluster is written first and the row second, so
that a failed call to a cluster leaves no row behind. Queues of the local cluster never reach one. An
operation that writes a row is given the time that it reads from the clock.
-/

namespace ClusterJobs

open QueueProgram

namespace QueueRow

/-- Applies the queue of a row to its cluster. -/
def applyTo (s : QueueSettings) (row : QueueRow) : QueueProgram (Except QueueFault Unit) := do
  match ← perform (.apply row.cluster (row.manifest s)) with
  | .ok () => return .ok ()
  | .error e => return .error (.cluster row.cluster e)

/-- Applies the queue of a row unless its cluster never receives queues. -/
def applyUnlessLocal (s : QueueSettings) (row : QueueRow) :
    QueueProgram (Except QueueFault Unit) :=
  if row.isLocal s then pure (.ok ()) else row.applyTo s

end QueueRow

namespace QueueManager

/-- The row of a new queue, before it has an id. -/
def newRow (q : NewQueue) (name : String) (now : Instant) : QueueRow where
  id := 0
  name := name
  projectCode := q.projectCode
  description := q.description
  cluster := q.cluster
  weight := q.weight.getD 1
  reclaimable := q.reclaimable.getD true
  capability := q.capability
  state := .unknown
  createdAt := now
  updatedAt := now

/-- Creates a queue whose name is reserved. -/
def createReserved (s : QueueSettings) (q : NewQueue) (name : String) (now : Instant) :
    QueueProgram (Except QueueFault QueueRow) := do
  match ← perform (.findRow name) with
  | .error e => return .error e
  | .ok (some _) => return .error (.alreadyExists name)
  | .ok none =>
    let row := newRow q name now
    match ← row.applyUnlessLocal s with
    | .error e => return .error e
    | .ok () => perform (.insertRow row)

/-- Creates a queue. Its name is reserved from before it is looked up until the row is stored, so of
two creations of one name only one reaches a cluster. -/
def create (s : QueueSettings) (q : NewQueue) (now : Instant) :
    QueueProgram (Except QueueFault QueueRow) := do
  let name := Text.trim q.name
  if name.isEmpty then return .error (.validation "queue name is empty")
  match q.capability.check with
  | .error e => return .error e
  | .ok () =>
    let free : Bool ← perform (.reserve name)
    if free then
      let result ← createReserved s q name now
      perform (.release name)
      return result
    else return .error (.alreadyExists name)

/-- The row of an id. -/
def get (id : Int) : QueueProgram (Except QueueFault QueueRow) := do
  match ← perform (.getRow id) with
  | .error e => return .error e
  | .ok (some row) => return .ok row
  | .ok none => return .error (.notFound id)

/-- The update keeps the name of the row, and its capability, if it gives one, is sound. -/
def checkUpdate (row : QueueRow) (u : QueueUpdate) : Except QueueFault Unit := do
  if u.name.any fun n => Text.trim n != row.name then
    .error (.validation ("queue '" ++ row.name ++ "' cannot be renamed"))
  match u.capability with
  | some c => c.check
  | none => .ok ()

/-- Writes a changed row, after the queue on its cluster if that has to change. -/
def writeChanged (s : QueueSettings) (row : QueueRow) (changes : Changeset) :
    QueueProgram (Except QueueFault QueueRow) := do
  let applied ← if changes.affectsCluster then row.applyUnlessLocal s else pure (.ok ())
  match applied with
  | .error e => return .error e
  | .ok () =>
    match ← perform (.updateRow row) with
    | .error e => return .error e
    | .ok () => return .ok row

/-- Changes a queue. Nothing is written if nothing differs. -/
def update (s : QueueSettings) (id : Int) (u : QueueUpdate) (now : Instant) :
    QueueProgram (Except QueueFault QueueRow) := do
  match ← get id with
  | .error e => return .error e
  | .ok row =>
    match checkUpdate row u with
    | .error e => return .error e
    | .ok () =>
      let changes := Changeset.between row u
      if changes.isEmpty then return .ok row
      writeChanged s (row.update u now) changes

/-- Deletes the queue of a row from its cluster. -/
def deleteFromCluster (s : QueueSettings) (row : QueueRow) :
    QueueProgram (Except QueueFault Unit) := do
  match ← perform (.delete row.cluster (row.manifest s).name) with
  | .ok () => return .ok ()
  | .error e => return .error (.cluster row.cluster e)

/-- Deletes a queue. The row stays if its cluster fails. -/
def delete (s : QueueSettings) (id : Int) : QueueProgram (Except QueueFault Unit) := do
  match ← get id with
  | .error e => return .error e
  | .ok row =>
    let deleted ← if row.isLocal s then pure (.ok ()) else deleteFromCluster s row
    match deleted with
    | .error e => return .error e
    | .ok () => perform (.deleteRow id)

/-- Stores the state of a queue if it differs. A missing queue has an unknown state. -/
def writeState (row : QueueRow) (state : QueueState) (now : Instant) :
    QueueProgram (Except QueueFault QueueRow) := do
  if state = row.state then return .ok row
  let row := row.withState state now
  match ← perform (.updateRow row) with
  | .error e => return .error e
  | .ok () => return .ok row

/-- Reads the state of a queue from its cluster into its row. -/
def refresh (s : QueueSettings) (id : Int) (now : Instant) :
    QueueProgram (Except QueueFault QueueRow) := do
  match ← get id with
  | .error e => return .error e
  | .ok row =>
    if row.isLocal s then return .ok row
    match ← perform (.state row.cluster row.name) with
    | .error e => return .error (.cluster row.cluster e)
    | .ok state => writeState row (state.getD .unknown) now

/-- The row of a name. -/
def find (name : String) : QueueProgram (Except QueueFault (Option QueueRow)) :=
  perform (.findRow name)

/-- A page of rows. -/
def list (projectCode : Option Int) (page pageSize : Nat) :
    QueueProgram (Except QueueFault (Page QueueRow)) :=
  perform (.listRows projectCode page pageSize)

/-- The resources that the running tasks of a queue hold. -/
def usage (s : QueueSettings) (queue : String) : QueueProgram (Except QueueFault Usage) := do
  match ← perform (.listTasks queue (some .running)) with
  | .error e => return .error e
  | .ok tasks => return .ok (Usage.total s.defaultGpuType (tasks.map fun t => t.footprint))

end QueueManager

end ClusterJobs
