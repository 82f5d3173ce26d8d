import ClusterJobs.Decimal.Reading
import ClusterJobs.Json.Value
import ClusterJobs.Request.Basic

/-!
# Phases

Each shape of a task reports its progress in words of its own at a place of its own. A phase is what
all of them have in common.
-/

namespace ClusterJobs

open Json (Value)

/-- The progress of one observed object. -/
inductive Phase where
  | running
  | succeeded
  | failed
deriving DecidableEq, Repr

def Phase.name : Phase → String
  | running => "Running"
  | succeeded => "Succeeded"
  | failed => "Failed"

/-- The words that mean success and failure, and where they stand. -/
structure Vocabulary where
  path : List String
  success : List String
  failure : List String

namespace Phase

/-- The phase that a vocabulary reads from an object. Every other word, and none, means running. -/
def read (v : Vocabulary) (object : Value) : Phase :=
  match (object.at? v.path).bind Value.asString? with
  | some word =>
    if v.success.contains word then .succeeded
    else if v.failure.contains word then .failed
    else .running
  | none => .running

/-- A count in the status of a plain job: a whole number of 64 bits, else zero. -/
def count (object : Value) (field : String) : Int :=
  match object.at? ["status", field] with
  | some (.int n) => if Decimal.WordRange.int64.holds n then n else 0
  | _ => 0

/-- The phase of a plain job. One success is enough. -/
def ofCounts (object : Value) : Phase :=
  if count object "succeeded" ≥ 1 then .succeeded
  else if count object "failed" ≥ 1 then .failed
  else .running

end Phase

namespace WorkloadKind

/-- The words of queue-admitted jobs. -/
def gangWords : Vocabulary :=
  ⟨["status", "state", "phase"], ["Completed"], ["Failed", "Terminated", "Aborted"]⟩

/-- The words of Flink deployments. A streaming job never finishes, so one that runs has succeeded. -/
def flinkWords : Vocabulary :=
  ⟨["status", "jobStatus", "state"], ["FINISHED", "RUNNING"], ["FAILED"]⟩

/-- The words of Spark applications. -/
def sparkWords : Vocabulary :=
  ⟨["status", "applicationState", "state"], ["COMPLETED"], ["FAILED", "SUBMISSION_FAILED"]⟩

/-- The words of training jobs. -/
def trainingWords : Vocabulary :=
  ⟨["status", "jobStatus", "state"], ["FINISHED"], ["FAILED"]⟩

/-- The phase of an object of this shape. -/
def phaseOf : WorkloadKind → Value → Phase
  | plain => Phase.ofCounts
  | queueAdmitted => Phase.read gangWords
  | flink => Phase.read flinkWords
  | spark => Phase.read sparkWords
  | training => Phase.read trainingWords

end WorkloadKind

end ClusterJobs
