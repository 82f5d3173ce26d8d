import ClusterJobs.Cluster.Call
import ClusterJobs.Phase
import ClusterJobs.Task.Context

/-!
# Watching

A submitted object is watched until an event decides its fate, a limit passes or the token fires. The
cancellation of the run is looked at last, and a cancelled run is reported as killed whatever was seen.
-/

namespace ClusterJobs

open TaskProgram

/-- What a watch has seen of its object. -/
inductive Observed where
  | succeeded
  | failed (reason : String)
deriving DecidableEq, Repr

namespace Manifest

/-- What an event says about the fate of the object; nothing while it runs. -/
def verdict? (m : Manifest) : WatchEvent → Option Observed
  | .applied object =>
    match m.kind.phaseOf object with
    | .succeeded => some .succeeded
    | .failed => some (.failed ("job " ++ m.name ++ " failed"))
    | .running => none
  | .deleted => some (.failed ("job " ++ m.name ++ " was deleted"))
  | .failed message => some (.failed ("watch failed: " ++ message))

/-- The first event from the time `t` on that decides, and when it comes. The end of the stream
decides too; an open stream without such an event decides nothing. -/
def decided? (m : Manifest) (ends : Option Nat) :
    List (Nat × WatchEvent) → Nat → Option (Nat × Observed)
  | [], t => ends.map fun after => (t + after, .failed "watch stream closed")
  | (after, event) :: rest, t =>
    match m.verdict? event with
    | some seen => some (t + after, seen)
    | none => m.decided? ends rest (t + after)

end Manifest

/-- The earlier of two optional things; the first one if they come together. -/
def earlier {α : Type} : Option (Nat × α) → Option (Nat × α) → Option (Nat × α)
  | none, b => b
  | a, none => a
  | some a, some b => some (if a.1 ≤ b.1 then a else b)

/-- What ends a wait that begins at the time `start`: the firing of the token, the deciding event, or
the limit. -/
def waitEnd (ctx : Context) (decided : Option (Nat × Observed)) (start : Nat)
    (limit : Option Nat) : Option (Nat × Observed) :=
  let token := ctx.firesAt.map fun f => (max f start, Observed.failed "cancelled")
  let timeout := limit.map fun l =>
    (start + l, Observed.failed ("timed out after " ++ toString (l / 1000) ++ "s"))
  -- A decision that comes exactly at the limit is still in time.
  earlier (earlier decided token) timeout

namespace Manifest

/-- The reason of a failure, with the end of the log if it says anything. -/
def failureMessage (reason : String) : Except Fault String → String
  | .ok log => if Text.isBlankText log then reason else reason ++ "\n" ++ log
  | .error _ => reason

/-- Watches the object to its end. -/
def watch (m : Manifest) (tailLines : Int) (limit : Option Nat) (ctx : Context) :
    TaskProgram Outcome := do
  let start ← now
  let decided := match ← perform (.watch m.ref) with
    | .ok stream => m.decided? stream.ends stream.items start
    | .error e => some (start, .failed ("failed to start watch: " ++ e.message))
  match waitEnd ctx decided start limit with
  | none => .never
  | some (ended, seen) =>
    pause (ended - start)
    -- The task instance may have gone during the wait, which nothing reports.
    if ctx.cancelled ended then return .killed
    match seen with
    | .succeeded => return .success
    | .failed reason =>
      let log ← perform (.tail m.ref m.container tailLines)
      return .failure (failureMessage reason log)

end Manifest

end ClusterJobs
