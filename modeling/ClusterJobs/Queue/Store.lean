import ClusterJobs.Queue.Call

/-!
# Rows in memory

Rows by id and records by code. Ids are given out in order and never again; names are unique among
rows that are inserted.
-/

namespace ClusterJobs

/-- The rows of queues. -/
structure QueueRows where
  /-- By increasing id. -/
  rows : List QueueRow
  nextId : Int

namespace QueueRows

def empty : QueueRows := ⟨[], 1⟩

/-- The row of an id. -/
def get? (q : QueueRows) (id : Int) : Option QueueRow :=
  q.rows.find? fun r => r.id == id

/-- The row of a name. -/
def find? (q : QueueRows) (name : String) : Option QueueRow :=
  q.rows.find? fun r => r.name == name

/-- Stores a row under the next id unless its name is taken. -/
def insert (q : QueueRows) (row : QueueRow) : Except QueueFault (QueueRow × QueueRows) :=
  if q.rows.any fun r => r.name == row.name then .error (.alreadyExists row.name)
  else
    let stored := { row with id := q.nextId }
    .ok (stored, ⟨q.rows ++ [stored], q.nextId + 1⟩)

/-- Replaces the row of the same id. -/
def update (q : QueueRows) (row : QueueRow) : Except QueueFault QueueRows :=
  if q.rows.any fun r => r.id == row.id then
    .ok { q with rows := q.rows.map fun r => if r.id == row.id then row else r }
  else .error (.notFound row.id)

/-- Removes the row of an id, if there is one. -/
def delete (q : QueueRows) (id : Int) : QueueRows :=
  { q with rows := q.rows.filter fun r => r.id != id }

/-- A page of the rows of a project, or of all rows. -/
def list (q : QueueRows) (projectCode : Option Int) (page pageSize : Nat) : Page QueueRow :=
  .of (q.rows.filter fun r => projectCode.isNone || r.projectCode == projectCode) page pageSize

end QueueRows

/-- The records of queued tasks, by increasing code. -/
abbrev TaskRows := List QueuedTask

namespace TaskRows

/-- The record of a code. -/
def get? (ts : TaskRows) (code : Int) : Option QueuedTask :=
  ts.find? fun t => t.code == code

/-- Stores a record in its place, over that of the same code. -/
def put : TaskRows → QueuedTask → TaskRows
  | [], task => [task]
  | t :: rest, task =>
    if t.code = task.code then task :: rest
    else if task.code < t.code then task :: t :: rest
    else t :: put rest task

/-- Gives the record of a code a status, at a time. -/
def setStatus (ts : TaskRows) (code : Int) (status : TaskStatus) (now : Instant) : TaskRows :=
  ts.map fun t => if t.code = code then { t with status := status, updatedAt := now } else t

/-- The records of a queue, in one status or in any. -/
def ofQueue (ts : TaskRows) (queue : String) (status : Option TaskStatus) : List QueuedTask :=
  ts.filter fun t => t.queue == queue && status.all fun s => t.status == s

end TaskRows

end ClusterJobs
