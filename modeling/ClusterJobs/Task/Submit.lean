import ClusterJobs.Cluster.Call

/-!
# Submitting

An object that is left under the name is deleted first, and the new one is created once the old one is
gone or has been waited for long enough.
-/

namespace ClusterJobs

open TaskProgram

namespace Manifest

/-- The fault of a call for a manifest. -/
def clusterFault (m : Manifest) (cause : Fault) : JobFault :=
  .clusterCommunication m.target.display cause

/-- Deletes the object if it exists. -/
def stop (m : Manifest) : TaskProgram (Except JobFault Unit) := do
  match ← perform (.exists m.ref) with
  | .error e => return .error (m.clusterFault e)
  | .ok false => return .ok ()
  | .ok true =>
    match ← perform (.delete m.ref) with
    | .error e => return .error (m.clusterFault e)
    | .ok () => return .ok ()

/-- The time between two looks at an object that is being deleted. -/
def pollInterval : Nat := 500

/-- The number of looks at an object that is being deleted. -/
def pollAttempts : Nat := 30

/-- Waits until the object is gone, for a number of looks at most. -/
def awaitGone (m : Manifest) : Nat → TaskProgram (Except JobFault Unit)
  -- The object may still stand. The creation is tried all the same, and fails if it does.
  | 0 => return .ok ()
  | attempts + 1 => do
    match ← perform (.exists m.ref) with
    | .error e => return .error (m.clusterFault e)
    | .ok false => return .ok ()
    | .ok true =>
      pause pollInterval
      m.awaitGone attempts

/-- Replaces whatever stands under the name. -/
def submit (m : Manifest) : TaskProgram (Except JobFault Unit) := do
  match ← m.stop with
  | .error e => return .error e
  | .ok () =>
    match ← m.awaitGone pollAttempts with
    | .error e => return .error e
    | .ok () =>
      match ← perform (.create m.ref m.object) with
      | .error e => return .error (m.clusterFault e)
      | .ok () => return .ok ()

end Manifest

end ClusterJobs
