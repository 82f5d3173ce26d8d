import ClusterJobs.Task.Relay
import ClusterJobs.Task.Submit
import ClusterJobs.Task.Watch

/-!
# Running one object

An object is submitted and then watched while its log is relayed. Only a failed submission is a fault;
everything after it is part of the outcome. After a failed submission the object is deleted again.
-/

namespace ClusterJobs

open TaskProgram

/-- How objects are followed. -/
structure ItemSettings where
  /-- Lines of log attached to a failure. -/
  tailLines : Int
  /-- How long a log may drain after the outcome is known. -/
  drainGrace : Nat
  /-- The backoff of opening a log while its container starts. -/
  openBackoff : ClockBackoff

namespace Manifest

/-- Gets access to the cluster. A client that cannot reach it is dropped. -/
def connect (m : Manifest) : TaskProgram (Except JobFault Unit) := do
  match ← perform (.connect m.target m.kind.objectKind) with
  | .ok () => return .ok ()
  | .error e =>
    if e.isClusterFailure then
      perform (.invalidate m.target)
    return .error (m.clusterFault e)

/-- Joins the relay of a log that was followed from the time `start` on: the log may drain for a while,
and what comes until it is closed is handed on. -/
def join (m : Manifest) (s : ItemSettings) (source : LogSource) (start : Nat) (r : Relaying) :
    TaskProgram Unit := do
  let r := r.tell (← now)
  let relayed := relay s.openBackoff source start (r.clock + s.drainGrace)
  let clock ← handOn m.name r.clock (relayed.lines.drop r.handed)
  pause (relayed.endedAt - clock)

/-- Watches a submitted object while its log is relayed. The relay is joined before the outcome is
returned. -/
def follow (m : Manifest) (s : ItemSettings) (limit : Option Nat) (ctx : Context) :
    TaskProgram Outcome := do
  let start ← now
  let source ← perform (.follow m.ref m.container)
  let relaying := source.relaying s.openBackoff start
  let (outcome, r) ← alongside m.name (m.watch s.tailLines limit ctx) relaying
  m.join s source start r
  return outcome

/-- Submits an object and follows it to its end. -/
def run (m : Manifest) (s : ItemSettings) (limit : Option Nat) (ctx : Context) :
    TaskProgram (Except JobFault Outcome) := do
  let start ← now
  if ctx.cancelled start then return .ok .killed
  match ← m.connect with
  | .error e => return .error e
  | .ok () =>
    match ← m.submit with
    | .ok () =>
      let outcome ← m.follow s limit ctx
      return .ok outcome
    | .error e =>
      if e.isClusterFailure then
        perform (.invalidate m.target)
      -- The creation may have had its effect although it failed.
      let _ ← m.stop
      return .error e

/-- Deletes the object if it exists. -/
def cancel (m : Manifest) : TaskProgram (Except JobFault Unit) := do
  match ← m.connect with
  | .error e => return .error e
  | .ok () => m.stop

end Manifest

end ClusterJobs
