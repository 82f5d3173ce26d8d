/-!
# Faults

The ways in which talking to a cluster, reading settings or checking what a caller supplies can fail.
-/

namespace ClusterJobs

/-- Why an operation failed. -/
inductive Fault where
  /-- The cluster's interface refused a request or did not answer; `status` is the code of a refusal. -/
  | kube (status : Option Nat) (message : String)
  /-- A cluster could not be reached, or its credentials could not be used. -/
  | cluster (cluster message : String)
  /-- Settings are invalid or cannot be read. -/
  | config (message : String)
  /-- The caller supplied something invalid. -/
  | validation (message : String)
  /-- A value could not be written or read. -/
  | serialization (message : String)
deriving DecidableEq, Repr

/-- The message of a fault. -/
def Fault.message : Fault → String
  | .kube _ m => "kubernetes error: " ++ m
  | .cluster c m => "cluster communication error for " ++ c ++ ": " ++ m
  | .config m => "configuration error: " ++ m
  | .validation m => "validation error: " ++ m
  | .serialization m => "serialization error: " ++ m

/-- The fault came from talking to a cluster, so a cached client may be of no more use. -/
def Fault.isClusterFailure : Fault → Bool
  | .kube _ _ => true
  | .cluster _ _ => true
  | _ => false

end ClusterJobs
