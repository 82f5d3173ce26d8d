import ClusterJobs.Cluster.Collection
import ClusterJobs.Gang.Queue

/-!
# Queues by exchanges

How the calls that reach a queue on a cluster become requests. Queues belong to no namespace.
-/

namespace ClusterJobs.GangQueue

open Web

/-- The queues of a cluster. -/
def collection (catalog : Catalog) : Collection :=
  ⟨catalog.resolve .gangQueue, none⟩

/-- The queue as an object. -/
def toObject (q : GangQueue) : Except Fault ClusterObject :=
  match ClusterObject.ofJson? q.toJson with
  | some o => .ok o
  | none => .error (.serialization "the queue is no object")

/-- Creates or replaces a queue. -/
def applyTo (c : Collection) (cluster : String) (q : GangQueue) :
    ExchangeProgram (Except Fault Unit) := do
  match q.toObject with
  | .error e => return .error e
  | .ok object =>
    match ← c.apply q.name object with
    | .ok () => return .ok ()
    | .error e => return .error (.cluster cluster ("failed to apply queue: " ++ e.message))

/-- Deletes a queue. -/
def deleteFrom (c : Collection) (cluster name : String) : ExchangeProgram (Except Fault Unit) := do
  match ← c.remove name (.obj []) with
  | .ok () => return .ok ()
  | .error e => return .error (.cluster cluster ("failed to delete queue: " ++ e.message))

/-- The state of a queue, if it exists. -/
def stateIn (c : Collection) (name : String) :
    ExchangeProgram (Except Fault (Option QueueState)) := do
  match ← c.find? name with
  | .error e => return .error e
  | .ok object => return .ok (object.map fun o => QueueState.ofObject o.toJson)

end ClusterJobs.GangQueue
