import ClusterJobs.Queue.Capability
import ClusterJobs.Instant

/-!
# Queued tasks

For each task there is one record of the queue it is in, the resources it asked for last and where it is
in its life. The usage of a queue is the sum over its running tasks.
-/

namespace ClusterJobs

/-- Where a queued task is in its life. -/
inductive TaskStatus where
  | queued
  | running
  /-- Finished, and waiting for the next run of its workflow. -/
  | pendingRerun
  | succeeded
  | failed
deriving DecidableEq, Repr

namespace TaskStatus

def name : TaskStatus → String
  | queued => "Queued"
  | running => "Running"
  | pendingRerun => "PendingRerun"
  | succeeded => "Succeeded"
  | failed => "Failed"

def ofName? (s : String) : Option TaskStatus :=
  [queued, running, pendingRerun, succeeded, failed].find? fun t => t.name == s

end TaskStatus

/-- The resources that a task asked for. Memory is in Gi. -/
structure Footprint where
  cpu : Float
  memory : Float
  gpu : Option Float
  gpuType : Option String
deriving DecidableEq

/-- No resources. -/
def Footprint.none : Footprint := ⟨0.0, 0.0, .none, .none⟩

/-- What is known of a task that enters a queue. -/
structure NewTask where
  /-- The code of the task, the same in every run. -/
  code : Int
  queue : String
  workflowName : String
  taskName : String
  priority : Int
  footprint : Footprint
deriving DecidableEq

/-- The record of a queued task. -/
structure QueuedTask extends NewTask where
  status : TaskStatus
  updatedAt : Instant
deriving DecidableEq

/-- The resources that running tasks hold together. -/
structure Usage where
  cpu : Float
  memory : Float
  /-- GPUs by resource. -/
  gpu : Fields Float

namespace Usage

def zero : Usage := ⟨0.0, 0.0, []⟩

/-- Adds to the GPUs of a resource. -/
def addGpu (table : Fields Float) (key : String) (g : Float) : Fields Float :=
  table.put key ((table.get? key).getD 0.0 + g)

/-- Adds the resources of one task. -/
def add (u : Usage) (f : Footprint) (defaultGpuType : String) : Usage where
  cpu := u.cpu + f.cpu
  memory := u.memory + f.memory
  gpu :=
    match positiveGpu? f.gpu with
    | some g => addGpu u.gpu (Capability.gpuKey f.gpuType defaultGpuType) g
    | none => u.gpu

/-- The usage of some tasks, added up in order. -/
def total (defaultGpuType : String) (footprints : List Footprint) : Usage :=
  footprints.foldl (fun u f => u.add f defaultGpuType) zero

/-- The usage after each of some tasks. -/
def running (defaultGpuType : String) : Usage → List Footprint → List Usage
  | _, [] => []
  | u, f :: rest =>
    let v := u.add f defaultGpuType
    v :: running defaultGpuType v rest

def toJson (u : Usage) : Json.Value :=
  .object [
    ("cpu", .float u.cpu),
    ("memory", .float u.memory),
    ("gpu", .obj (u.gpu.mapValues .float))]

end Usage

/-! ## On the wire -/

def Footprint.decode : Decoder Footprint := fun w => do
  let ms ← Decode.members true ["cpu", "memory", "gpu", "gpuType"] w
  some {
    cpu := ← ms.withDefault "cpu" 0.0 Decode.float
    memory := ← ms.withDefault "memory" 0.0 Decode.float
    gpu := ← ms.optional "gpu" Decode.float
    gpuType := ← ms.optional "gpuType" Decode.text }

def NewTask.names : List String :=
  ["code", "queue", "workflowName", "taskName", "priority", "footprint"]

def NewTask.decode : Decoder NewTask := fun w => do
  let ms ← Decode.members true NewTask.names w
  some {
    code := ← ms.withDefault "code" 0 Decode.int64
    queue := ← ms.withDefault "queue" "" Decode.text
    workflowName := ← ms.withDefault "workflowName" "" Decode.text
    taskName := ← ms.withDefault "taskName" "" Decode.text
    priority := ← ms.withDefault "priority" 0 Decode.int32
    footprint := ← ms.withDefault "footprint" .none Footprint.decode }

/-- A record whose time is given beside its other members. -/
def QueuedTask.decode (updatedAt : Instant) : Decoder QueuedTask := fun w => do
  let ms ← Decode.members false (NewTask.names ++ ["status"]) w
  some {
    code := ← ms.required "code" Decode.int64
    queue := ← ms.required "queue" Decode.text
    workflowName := ← ms.required "workflowName" Decode.text
    taskName := ← ms.required "taskName" Decode.text
    priority := ← ms.required "priority" Decode.int32
    footprint := ← ms.required "footprint" Footprint.decode
    status := ← ms.required "status" (Decode.oneOf TaskStatus.ofName?)
    updatedAt := updatedAt }

def Footprint.toJson (f : Footprint) : Json.Value :=
  .object [
    ("cpu", .float f.cpu),
    ("memory", .float f.memory),
    ("gpu", .orNull .float f.gpu),
    ("gpuType", .orNull .str f.gpuType)]

def QueuedTask.toJson (t : QueuedTask) : Json.Value :=
  .object [
    ("code", .int t.code),
    ("queue", .str t.queue),
    ("workflowName", .str t.workflowName),
    ("taskName", .str t.taskName),
    ("priority", .int t.priority),
    ("footprint", t.footprint.toJson),
    ("status", .str t.status.name),
    ("updatedAt", .str t.updatedAt.text)]

end ClusterJobs
