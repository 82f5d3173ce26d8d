import ClusterJobs.Catalog
import ClusterJobs.Fields
import ClusterJobs.Quantity
import ClusterJobs.Target
import ClusterJobs.Text.Blank

/-!
# Requests

A request describes one attempt at a task without saying how a cluster runs it. Its workload says in
which of five shapes it runs and holds the parameters that only that shape uses.
-/

namespace ClusterJobs

/-! ## Workloads -/

/-- The shape in which a task runs. -/
inductive WorkloadKind where
  | plain
  | queueAdmitted
  | flink
  | spark
  | training
deriving DecidableEq, Repr

namespace WorkloadKind

def all : List WorkloadKind := [plain, queueAdmitted, flink, spark, training]

/-- The name of a shape in requests and answers. -/
def wireName : WorkloadKind → String
  | plain => "plain"
  | queueAdmitted => "queueAdmitted"
  | flink => "flinkOperator"
  | spark => "sparkOperator"
  | training => "pyTorchOperator"

def ofWireName? (s : String) : Option WorkloadKind :=
  all.find? fun k => k.wireName == s

/-- The kind of object that a shape is on a cluster. -/
def objectKind : WorkloadKind → ObjectKind
  | plain => .batchJob
  | queueAdmitted => .gangJob
  | flink => .flinkDeployment
  | spark => .sparkApplication
  | training => .trainingJob

end WorkloadKind

/-- The smallest amounts of CPU and memory, in cores and Mi, and an optional number of GPUs. -/
structure Envelope where
  minCpu : Float
  minMemory : Float
  gpu : Option Float
  gpuType : Option String
deriving DecidableEq

/-- One core, one Gi, no GPU. -/
def Envelope.standard : Envelope := ⟨1.0, 1024.0, none, none⟩

/-- The GPU quantity, if a GPU is asked for. -/
def Envelope.gpuQuantity? (e : Envelope) : Option Float :=
  positiveGpu? e.gpu

/-- Masters and workers of distributed training. -/
structure MasterWorker where
  master : Nat
  worker : Nat
deriving DecidableEq, Repr

structure FlinkParams where
  masterUrl : Option String
  parallelism : Option Nat
  slots : Option Nat
  mainClass : Option String
  jobManagerMemory : Option String
  taskManagerMemory : Option String
deriving DecidableEq, Repr

structure SparkParams where
  masterUrl : Option String
  programType : Option String
  mainClass : Option String
  mainApplicationFile : Option String
  sparkVersion : Option String
  serviceAccount : Option String
  driverCores : Option Nat
  driverMemory : Option String
  numExecutors : Option Nat
  executorCores : Option Nat
  executorMemory : Option String
deriving DecidableEq, Repr

/-- The envelopes of the roles fall back to that of the request. -/
structure TrainingParams where
  masterReplicas : Nat
  workerReplicas : Nat
  masterResources : Option Envelope
  workerResources : Option Envelope
deriving DecidableEq

def FlinkParams.standard : FlinkParams := ⟨none, none, none, none, none, none⟩

def SparkParams.standard : SparkParams :=
  ⟨none, none, none, none, none, none, none, none, none, none, none⟩

def TrainingParams.standard : TrainingParams := ⟨1, 1, none, none⟩

/-- A shape with its parameters. -/
inductive Workload where
  | plain
  /-- With replicas, master and worker tasks instead of a single one. -/
  | queueAdmitted (replicas : Option MasterWorker)
  | flink (params : FlinkParams)
  | spark (params : SparkParams)
  | training (params : TrainingParams)
deriving DecidableEq

namespace Workload

def kind : Workload → WorkloadKind
  | plain => .plain
  | queueAdmitted _ => .queueAdmitted
  | flink _ => .flink
  | spark _ => .spark
  | training _ => .training

/-- The URL that Flink and Spark are reached at without credentials. A blank one counts as none. -/
def masterUrl? (w : Workload) : Option String :=
  let url := match w with
    | flink p => p.masterUrl
    | spark p => p.masterUrl
    | _ => none
  url.filter fun u => !Text.isBlankText u

end Workload

/-! ## The other parts of a request -/

/-- Directories of the host that a task sees. -/
structure Volumes where
  inputHostPath : Option String
  outputHostPath : String
  podInputPath : String
  podOutputPath : String
deriving DecidableEq, Repr

def Volumes.standard : Volumes :=
  ⟨none, "/var/lib/kubetask/output", "/data/input", "/data/output"⟩

/-- Data to fetch before a task starts. -/
structure FetchSpec where
  dirId : Option Int
  fetchId : Option Int
  /-- The name under which the item's result is reported. -/
  fetchName : String
  fetchType : String
  hostPath : String
  /-- A list of texts, as YAML. -/
  args : String
deriving DecidableEq, Repr

def FetchSpec.standard : FetchSpec := ⟨none, none, "", "", "", ""⟩

/-- What the scheduler wants done about a task that takes too long. -/
inductive TimeoutStrategy where
  | none
  | warn
  | failed
  | warnFailed
deriving DecidableEq, Repr

namespace TimeoutStrategy

def wireName : TimeoutStrategy → String
  | none => "NONE"
  | warn => "WARN"
  | failed => "FAILED"
  | warnFailed => "WARNFAILED"

def ofWireName? (s : String) : Option TimeoutStrategy :=
  [none, warn, failed, warnFailed].find? fun t => t.wireName == s

/-- A task that takes too long fails. -/
def fails : TimeoutStrategy → Bool
  | failed | warnFailed => true
  | _ => false

end TimeoutStrategy

structure TimeoutPolicy where
  strategy : TimeoutStrategy
  seconds : Nat
deriving DecidableEq, Repr

def TimeoutPolicy.standard : TimeoutPolicy := ⟨.none, 0⟩

/-- The time after which a task fails, in seconds. -/
def TimeoutPolicy.bound? (t : TimeoutPolicy) : Option Nat :=
  if t.strategy.fails && t.seconds > 0 then some t.seconds else none

/-- A condition on the nodes that may run a task. -/
structure NodeSelector where
  key : String
  operator : String
  values : Option (List String)
deriving DecidableEq, Repr

/-- One attempt at a task. -/
structure Request where
  taskName : String
  taskInstanceId : Int
  taskCode : Int
  taskAppId : String
  processInstanceId : Int
  image : String
  imagePullPolicy : Option String
  /-- A list of texts, as YAML. -/
  command : String
  /-- A list of texts, as YAML. -/
  args : String
  nameSpace : String
  cluster : String
  resources : Envelope
  queue : Option String
  labels : Fields String
  env : Fields String
  nodeSelectors : List NodeSelector
  volumes : Volumes
  fetches : List FetchSpec
  /-- One job for each fetch spec. -/
  multiple : Bool
  workload : Workload
  timeout : TimeoutPolicy
  logPath : Option String
deriving DecidableEq

namespace Request

def kind (r : Request) : WorkloadKind :=
  r.workload.kind

/-- The endpoint that a request runs against. -/
def target (r : Request) : Target :=
  match r.workload.masterUrl? with
  | some url => .masterUrl url
  | none => .stored r.cluster

/-- The number of jobs that a request stands for. -/
def itemCount (r : Request) : Nat :=
  if r.multiple then r.fetches.length else 1

end Request

end ClusterJobs
