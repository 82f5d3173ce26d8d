import ClusterJobs.Backoff
import ClusterJobs.Fault
import ClusterJobs.Manifest.Basic
import ClusterJobs.Outcome
import ClusterJobs.Program

/-!
# Calls to clusters

The calls that a running task makes to its surroundings. Watches and logs are streams: each item comes
some time after the one before it was taken. Times are whole milliseconds.
-/

namespace ClusterJobs

open Json (Value)

/-- An object on a cluster. -/
structure ObjectRef where
  target : Target
  kind : ObjectKind
  nameSpace : String
  name : String
deriving DecidableEq, Repr

/-- The object that a manifest becomes. -/
def Manifest.ref (m : Manifest) : ObjectRef :=
  ⟨m.target, m.kind.objectKind, m.nameSpace, m.name⟩

/-- Items that arrive one after another, each with the time since the one before it was taken. -/
structure TimedStream (α : Type) where
  items : List (Nat × α)
  /-- How long after the last item the stream ends. It may stay open instead. -/
  ends : Option Nat

/-- What a watch reports about its object. -/
inductive WatchEvent where
  /-- The object was listed, created or changed. -/
  | applied (object : Value)
  | deleted
  /-- The watch broke. -/
  | failed (message : String)

/-- What a log stream yields. -/
inductive LogItem where
  | line (text : String)
  /-- The stream broke. -/
  | broken
deriving DecidableEq, Repr

/-- The log of a container as it shows itself to someone who follows it: what each attempt to open it
yields, and the accidents of timing. -/
structure LogSource where
  /-- What the first attempts yield. -/
  opens : List (Except Fault (TimedStream LogItem))
  /-- What every later attempt yields. -/
  later : Except Fault (TimedStream LogItem)
  /-- How long each attempt takes. It may never end. -/
  opening : Nat → Option Nat
  /-- The jitter of the pause after each attempt. -/
  jitter : Nat → Float
  /-- Whether closing wins over opening where they race. -/
  closeWinsOpen : Nat → Bool
  /-- Whether closing wins over the line that comes at the same time. -/
  closeWinsLine : Nat → Bool

/-- What an attempt to open the log yields, and how long it takes. -/
def LogSource.attempt (s : LogSource) (k : Nat) : Attempt (TimedStream LogItem) Fault :=
  (s.opening k).map fun takes => (takes, (s.opens[k]?).getD s.later)

/-- One entry of the report on a fan-out. -/
structure ItemResult where
  name : String
  taskInstanceId : Int
  status : Verdict
  processInstanceId : Int
deriving DecidableEq, Repr

def ItemResult.toJson (r : ItemResult) : Value :=
  .object [
    ("name", .str r.name),
    ("taskInstanceId", .int r.taskInstanceId),
    ("status", .str r.status.name),
    ("processInstanceId", .int r.processInstanceId)]

def ItemResult.decode : Decoder ItemResult := fun w => do
  let ms ← Decode.members false ["name", "taskInstanceId", "status", "processInstanceId"] w
  some {
    name := ← ms.required "name" Decode.text
    taskInstanceId := ← ms.required "taskInstanceId" Decode.int64
    status := ← ms.required "status" (Decode.oneOf Verdict.ofName?)
    processInstanceId := ← ms.required "processInstanceId" Decode.int64 }

/-- The calls of a running task. -/
inductive Call where
  /-- The time. -/
  | now
  | pause (ms : Nat)
  /-- Gets access to the objects of a kind on a cluster. -/
  | connect (target : Target) (kind : ObjectKind)
  /-- Drops the cached client of a cluster. -/
  | invalidate (target : Target)
  | exists (object : ObjectRef)
  | create (object : ObjectRef) (body : Value)
  | delete (object : ObjectRef)
  | watch (object : ObjectRef)
  /-- Follows the log of a container. -/
  | follow (object : ObjectRef) (container : String)
  /-- The last lines of the log of a container. -/
  | tail (object : ObjectRef) (container : String) (lines : Int)
  /-- Hands a line of a job's log over. -/
  | deliver (job line : String)
  /-- Posts the results of a fan-out. -/
  | publish (results : List ItemResult)

/-- What each call is answered with. -/
def Answer : Call → Type
  | .now => Nat
  | .pause _ => Unit
  | .connect _ _ => Except Fault Unit
  | .invalidate _ => Unit
  | .exists _ => Except Fault Bool
  | .create _ _ => Except Fault Unit
  | .delete _ => Except Fault Unit
  | .watch _ => Except Fault (TimedStream WatchEvent)
  | .follow _ _ => LogSource
  | .tail _ _ _ => Except Fault String
  | .deliver _ _ => Unit
  | .publish _ => Except JobFault Unit

/-- The call reaches a cluster or its client. -/
def Call.reachesCluster : Call → Bool
  | .now | .pause _ | .deliver _ _ | .publish _ => false
  | _ => true

/-- What a running task does. -/
abbrev TaskProgram := Program Call Answer

namespace TaskProgram

/-- One call. -/
def perform (c : Call) : TaskProgram (Answer c) :=
  Program.call c

def now : TaskProgram Nat := perform .now

def pause (ms : Nat) : TaskProgram Unit := perform (.pause ms)

end TaskProgram

end ClusterJobs
