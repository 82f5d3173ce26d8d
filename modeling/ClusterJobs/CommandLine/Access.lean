import ClusterJobs.Cluster.CredentialStore
import ClusterJobs.Simulation.Queues
import ClusterJobs.Task.Callback
import ClusterJobs.Task.Engine

/-!
# Access to clusters

The program reaches clusters through clients built from stored credentials. It checks the credentials
and opens no connections: a cluster whose client can be built does not answer.
-/

namespace ClusterJobs.CommandLine

/-- The clients of the program. -/
structure Access where
  cache : ClientCache
  store : CredentialStore
  callback : Callback

namespace Access

/-- The fault of a call to a cluster that does not answer. -/
def unanswered (t : Target) : Fault :=
  .cluster t.display "the cluster does not answer"

/-- Gets the client of a target. -/
def connect (t : Target) (a : Access) : Except Fault Unit × Access :=
  match (a.cache.client t).run CredentialStore.handler a.store with
  | (some (result, cache), store) => (result.map fun _ => (), { a with cache, store })
  | (none, store) => (.error (unanswered t), { a with store })

/-- Answers the calls of tasks. -/
def answer (now : Nat) : (c : Call) → Access → Answer c × Access
  | .now, a => (now, a)
  | .pause _, a => ((), a)
  | .connect target _, a => connect target a
  | .invalidate target, a => ((), { a with cache := a.cache.invalidate target })
  | .exists object, a => (.error (unanswered object.target), a)
  | .create object _, a => (.error (unanswered object.target), a)
  | .delete object, a => (.error (unanswered object.target), a)
  | .watch object, a => (.error (unanswered object.target), a)
  | .follow object _, a =>
    (⟨[], .error (unanswered object.target), fun _ => some 0, fun _ => 1.0, fun _ => true,
      fun _ => true⟩, a)
  | .tail object _ _, a => (.error (unanswered object.target), a)
  | .deliver _ _, a => ((), a)
  | .publish results, a =>
    match a.callback.posting? results with
    | some p => (.error p.unanswered, a)
    | none => (.ok (), a)

/-- Answers the calls of tasks. A pause lets the clock go on. -/
def taskHandler : Program.Handler Call Answer (Timed Access)
  | .pause ms, s => ((), { s with now := s.now + ms })
  | c, s =>
    let (x, a) := answer s.now c s.state
    (x, { s with state := a })

end Access

/-- The clients of the program, and queues in memory. -/
structure QueueAccess where
  access : Access
  memory : Simulation.QueueWorld

namespace QueueAccess

/-- A call about a queue on a cluster. -/
def onCluster {α : Type} (s : QueueAccess) (cluster : String) : Except Fault α × QueueAccess :=
  let target := Target.stored cluster
  let (result, access) := s.access.connect target
  (result.bind fun _ => .error (Access.unanswered target), { s with access })

/-- Answers the calls of queue operations. -/
def handler : Program.Handler QueueCall QueueAnswer QueueAccess
  | .apply cluster _, s => s.onCluster cluster
  | .delete cluster _, s => s.onCluster cluster
  | .state cluster _, s => s.onCluster cluster
  | c, s =>
    let (x, memory) := Simulation.QueueWorld.handler c s.memory
    (x, { s with memory })

end QueueAccess

end ClusterJobs.CommandLine
