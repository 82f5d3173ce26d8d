import ClusterJobs.Task.FanOut
import ClusterJobs.Task.Pool

/-!
# The engine

Compiles requests, runs them and removes what they may have left. Nothing is asked of a cluster unless
every manifest of the request compiles.
-/

namespace ClusterJobs

/-- What requests are run with. -/
structure Engine where
  compiler : Compiler
  items : ItemSettings
  /-- Items of a fan-out that run at a time. -/
  slots : Nat
  policy : FanOutPolicy

namespace Engine

variable {σ : Type}

/-- The engine of some settings. At least one item runs at a time. -/
def ofSettings (ts : Templates) (s : Settings) (drainGrace : Nat)
    (openBackoff : ClockBackoff) : Engine where
  compiler := .ofSettings ts s
  items := ⟨s.logTailLines, drainGrace, openBackoff⟩
  slots := max s.fanOutConcurrency 1
  policy := s.fanOutPolicy

/-- The limit of a request in milliseconds. -/
def limit? (r : Request) : Option Nat :=
  r.timeout.bound?.map (· * 1000)

/-- Runs the items of a fan-out and concludes it. -/
def runFanOut (h : Program.Handler Call Answer (Timed σ)) (e : Engine) (f : FanOut) (ctx : Context)
    (s : Timed σ) : Option (Except JobFault Outcome) × Timed σ :=
  let programs := f.manifests.map (FanOut.item e.items f.limit ctx)
  let (results, s) := runInSlots h e.slots programs s
  match results with
  | none => (none, s)
  | some results => (f.conclude e.policy ctx results).run h s

/-- Runs a request to its outcome. There is no result if it waits forever. -/
def run (h : Program.Handler Call Answer (Timed σ)) (e : Engine) (r : Request) (ctx : Context)
    (s : Timed σ) : Option (Except JobFault Outcome) × Timed σ :=
  if r.multiple then
    match e.compiler.compileAll r with
    | .error fault => (some (.error fault), s)
    | .ok manifests =>
      e.runFanOut h ⟨manifests, r.fetches, r.processInstanceId, limit? r⟩ ctx s
  else
    match e.compiler.compile r none with
    | .error fault => (some (.error fault), s)
    | .ok m => (m.run e.items (limit? r) ctx).run h s

/-- Cancels all manifests in order, whatever fails. The first fault is reported. -/
def cancelAll : List Manifest → TaskProgram (Except JobFault Unit)
  | [] => return .ok ()
  | m :: rest => do
    let first ← m.cancel
    let others ← cancelAll rest
    return match first with
      | .error e => .error e
      | .ok () => others

/-- Removes whatever a request may have submitted. -/
def cancel (e : Engine) (r : Request) : TaskProgram (Except JobFault Unit) :=
  match e.compiler.compileAll r with
  | .error fault => return .error fault
  | .ok manifests => cancelAll manifests

end Engine

end ClusterJobs
