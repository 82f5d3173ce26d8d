/-!
# Cancellation

A run is cancelled when its token fires or when the scheduler no longer knows its task instance. Both
are facts of the run's surroundings, given here for all times.
-/

namespace ClusterJobs

/-- When the token of a run fires, and when its task instance is live. -/
structure Context where
  /-- The time at which the token fires, if it does. -/
  firesAt : Option Nat
  live : Nat → Bool

namespace Context

/-- The token has fired by the time `t`. -/
def fired (ctx : Context) (t : Nat) : Bool :=
  match ctx.firesAt with
  | some f => f ≤ t
  | none => false

/-- The token has fired, or the task instance is gone. -/
def cancelled (ctx : Context) (t : Nat) : Bool :=
  ctx.fired t || !ctx.live t

end Context

end ClusterJobs
