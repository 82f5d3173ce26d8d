import ClusterJobs.Gang.Queue
import ClusterJobs.Program
import ClusterJobs.Queue.Page
import ClusterJobs.Queue.Row
import ClusterJobs.Queue.Task

/-!
# Calls of queue operations

The calls that queue operations make to their surroundings: the rows, the names that are being created,
the records of queued tasks, and the clusters.
-/

namespace ClusterJobs

/-- The calls of queue operations. -/
inductive QueueCall where
  /-- Takes a name for one creation. The answer is whether it was free. -/
  | reserve (name : String)
  /-- Gives a name back. -/
  | release (name : String)
  /-- Stores a new row, which gets an id. -/
  | insertRow (row : QueueRow)
  | getRow (id : Int)
  | findRow (name : String)
  /-- Replaces the row of the same id. -/
  | updateRow (row : QueueRow)
  | deleteRow (id : Int)
  /-- Rows by id, of one project or of all. -/
  | listRows (projectCode : Option Int) (page pageSize : Nat)
  | findTask (code : Int)
  /-- Stores a record over that of the same code. The answer is whether the code is new. -/
  | upsertTask (task : QueuedTask)
  /-- Gives the record of a code a status, at a time. The answer is whether there is one. -/
  | setStatus (code : Int) (status : TaskStatus) (now : Instant)
  /-- Records of a queue by code, in one status or in any. -/
  | listTasks (queue : String) (status : Option TaskStatus)
  /-- Creates or replaces a queue on a cluster. -/
  | apply (cluster : String) (queue : GangQueue)
  | delete (cluster name : String)
  /-- The state of a queue on a cluster, if it exists. -/
  | state (cluster name : String)

/-- What each call is answered with. -/
def QueueAnswer : QueueCall → Type
  | .reserve _ => Bool
  | .release _ => Unit
  | .insertRow _ => Except QueueFault QueueRow
  | .getRow _ => Except QueueFault (Option QueueRow)
  | .findRow _ => Except QueueFault (Option QueueRow)
  | .updateRow _ => Except QueueFault Unit
  | .deleteRow _ => Except QueueFault Unit
  | .listRows _ _ _ => Except QueueFault (Page QueueRow)
  | .findTask _ => Except QueueFault (Option QueuedTask)
  | .upsertTask _ => Except QueueFault Bool
  | .setStatus _ _ _ => Except QueueFault Bool
  | .listTasks _ _ => Except QueueFault (List QueuedTask)
  | .apply _ _ => Except Fault Unit
  | .delete _ _ => Except Fault Unit
  | .state _ _ => Except Fault (Option QueueState)

/-- The call reaches a cluster. -/
def QueueCall.reachesCluster : QueueCall → Bool
  | .apply _ _ | .delete _ _ | .state _ _ => true
  | _ => false

/-- What a queue operation does. -/
abbrev QueueProgram := Program QueueCall QueueAnswer

namespace QueueProgram

/-- One call. -/
def perform (c : QueueCall) : QueueProgram (QueueAnswer c) :=
  Program.call c

end QueueProgram

end ClusterJobs
