import ClusterJobs.Fault
import ClusterJobs.Text.Blank

/-!
# Task types

The types of task that a scheduler may hand over, and which of them move a queued task along when they
start or finish.
-/

namespace ClusterJobs

/-- The declared type of a task. -/
inductive TaskType where
  /-- A single container. -/
  | container
  /-- Distributed training, queue-admitted when queues are enabled. -/
  | training
  /-- One job for each data source. -/
  | dataSet
  | flinkOperator
  | sparkOperator
  | trainingOperator
deriving DecidableEq, Repr

namespace TaskType

/-- The scheduler's name of a type. -/
def wireName : TaskType → String
  | container => "K8S"
  | training => "PYTORCH_K8S"
  | dataSet => "DATA_SET_K8S"
  | flinkOperator => "FLINK_K8S_OPERATOR"
  | sparkOperator => "SPARK_K8S_OPERATOR"
  | trainingOperator => "PYTORCH_K8S_OPERATOR"

/-- All types. -/
def all : List TaskType :=
  [container, training, dataSet, flinkOperator, sparkOperator, trainingOperator]

/-- The type with exactly this name. -/
def ofWireName? (name : String) : Option TaskType :=
  all.find? fun t => t.wireName == name

/-- Reads a name in any case of the ASCII letters, with blanks around it. -/
def parse (text : String) : Except Fault TaskType :=
  let name := Text.upperAscii (Text.trim text)
  match ofWireName? name with
  | some t => .ok t
  | none => .error (.validation ("unknown task type '" ++ name ++ "'"))

/-- The start of such a task makes its queued task running. -/
def tracksRunning : TaskType → Bool
  | container | training => true
  | _ => false

/-- The end of such a task makes its queued task wait for the next run. -/
def tracksFinished : TaskType → Bool
  | container | training | dataSet => true
  | _ => false

theorem ofWireName?_wireName (t : TaskType) : ofWireName? t.wireName = some t := by
  cases t <;> decide

end TaskType

end ClusterJobs
