import ClusterJobs.Fault

/-!
# Faults of jobs

The ways in which a request can fail to become a job on a cluster. What goes wrong once the job is
watched is no fault: it is part of the outcome.
-/

namespace ClusterJobs

/-- Why a job could not be compiled, submitted or cancelled. -/
inductive JobFault where
  /-- A member of the request cannot be turned into a part of the manifest. -/
  | manifestParse (field message : String)
  /-- A template cannot be read or has the wrong shape. -/
  | template (name message : String)
  /-- A call to the target cluster failed. -/
  | clusterCommunication (cluster : String) (cause : Fault)
  /-- The fan-out item has no fetch spec. -/
  | missingFetchSpec (index : Nat)
  /-- The request contradicts itself. -/
  | invalidRequest (message : String)
  /-- A manifest could not be written as text. -/
  | serialization (message : String)
  | common (cause : Fault)
  /-- The results of a fan-out could not be posted. -/
  | callback (message : String)
  /-- A template has a scalar or a list where a member is written. -/
  | memberOfScalar (key : String)
  /-- A gang job has more pods than an unsigned word of 32 bits can count. -/
  | tooManyPods
deriving DecidableEq, Repr

namespace JobFault

/-- The message of a fault. -/
def message : JobFault → String
  | manifestParse field m => "failed to parse " ++ field ++ ": " ++ m
  | template name m => "template '" ++ name ++ "' is unusable: " ++ m
  | clusterCommunication cluster cause =>
    "cluster communication failed for " ++ cluster ++ ": " ++ cause.message
  | missingFetchSpec i => "no fetch spec for fan-out item " ++ toString i
  | invalidRequest m => "invalid execution request: " ++ m
  | serialization m => "serialization error: " ++ m
  | common cause => cause.message
  | callback m => "batch callback failed: " ++ m
  | memberOfScalar key => "cannot set member " ++ key ++ " of a value that is no object"
  | tooManyPods => "attempt to add with overflow"

/-- The program breaks down: the fault is none that it answers. -/
def breaksDown : JobFault → Bool
  | memberOfScalar _ | tooManyPods => true
  | _ => false

/-- The cached client of the cluster should be dropped. -/
def isClusterFailure : JobFault → Bool
  | clusterCommunication _ _ => true
  | common cause => cause.isClusterFailure
  | _ => false

end JobFault

end ClusterJobs
