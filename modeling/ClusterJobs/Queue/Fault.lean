import ClusterJobs.Fault

/-!
# Faults of queues

The ways in which a queue operation can fail.
-/

namespace ClusterJobs

/-- Why a queue operation failed. -/
inductive QueueFault where
  /-- There is a queue of this name, or one is being created. -/
  | alreadyExists (name : String)
  | invalidCapability (message : String)
  | validation (message : String)
  | notFound (id : Int)
  /-- A call to the queue's cluster failed. -/
  | cluster (cluster : String) (cause : Fault)
  /-- The rows could not be read or written. -/
  | repository (message : String)
deriving DecidableEq, Repr

/-- The message of a fault. -/
def QueueFault.message : QueueFault → String
  | .alreadyExists name => "queue '" ++ name ++ "' already exists"
  | .invalidCapability m => "invalid capability: " ++ m
  | .validation m => "validation error: " ++ m
  | .notFound id => "queue " ++ toString id ++ " not found"
  | .cluster c cause => "cluster operation on " ++ c ++ " failed: " ++ cause.message
  | .repository m => "repository error: " ++ m

end ClusterJobs
