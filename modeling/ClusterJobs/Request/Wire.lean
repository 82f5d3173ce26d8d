import ClusterJobs.Request.Basic
import ClusterJobs.Wire.Decode

/-!
# Requests on the wire

Decoding fills in the defaults of missing members. Encoding writes every member, with `null` for an
absent one.
-/

namespace ClusterJobs

/-! ## Decoding -/

def Envelope.decode : Decoder Envelope := fun w => do
  let ms ← Decode.members true ["minCpu", "minMemory", "gpu", "gpuType"] w
  let e := Envelope.standard
  some {
    minCpu := ← ms.withDefault "minCpu" e.minCpu Decode.float
    minMemory := ← ms.withDefault "minMemory" e.minMemory Decode.float
    gpu := ← ms.optional "gpu" Decode.float
    gpuType := ← ms.optional "gpuType" Decode.text }

def MasterWorker.decode : Decoder MasterWorker := fun w => do
  let ms ← Decode.members false ["master", "worker"] w
  some ⟨← ms.required "master" Decode.nat32, ← ms.required "worker" Decode.nat32⟩

def FlinkParams.decode : Decoder FlinkParams := fun w => do
  let ms ← Decode.members true
    ["masterUrl", "parallelism", "slots", "mainClass", "jobManagerMemory", "taskManagerMemory"] w
  some {
    masterUrl := ← ms.optional "masterUrl" Decode.text
    parallelism := ← ms.optional "parallelism" Decode.nat32
    slots := ← ms.optional "slots" Decode.nat32
    mainClass := ← ms.optional "mainClass" Decode.text
    jobManagerMemory := ← ms.optional "jobManagerMemory" Decode.text
    taskManagerMemory := ← ms.optional "taskManagerMemory" Decode.text }

def SparkParams.names : List String :=
  ["masterUrl", "programType", "mainClass", "mainApplicationFile", "sparkVersion",
    "serviceAccount", "driverCores", "driverMemory", "numExecutors", "executorCores",
    "executorMemory"]

def SparkParams.decode : Decoder SparkParams := fun w => do
  let ms ← Decode.members true SparkParams.names w
  some {
    masterUrl := ← ms.optional "masterUrl" Decode.text
    programType := ← ms.optional "programType" Decode.text
    mainClass := ← ms.optional "mainClass" Decode.text
    mainApplicationFile := ← ms.optional "mainApplicationFile" Decode.text
    sparkVersion := ← ms.optional "sparkVersion" Decode.text
    serviceAccount := ← ms.optional "serviceAccount" Decode.text
    driverCores := ← ms.optional "driverCores" Decode.nat32
    driverMemory := ← ms.optional "driverMemory" Decode.text
    numExecutors := ← ms.optional "numExecutors" Decode.nat32
    executorCores := ← ms.optional "executorCores" Decode.nat32
    executorMemory := ← ms.optional "executorMemory" Decode.text }

def TrainingParams.decode : Decoder TrainingParams := fun w => do
  let ms ← Decode.members true
    ["masterReplicas", "workerReplicas", "masterResources", "workerResources"] w
  let p := TrainingParams.standard
  some {
    masterReplicas := ← ms.withDefault "masterReplicas" p.masterReplicas Decode.nat32
    workerReplicas := ← ms.withDefault "workerReplicas" p.workerReplicas Decode.nat32
    masterResources := ← ms.optional "masterResources" Envelope.decode
    workerResources := ← ms.optional "workerResources" Envelope.decode }

/-- The parameters of a shape. -/
def Workload.decodeParams (kind : WorkloadKind) (params : Wire) : Option Workload :=
  match kind with
  | .plain => some .plain
  | .queueAdmitted => do
    let ms ← Decode.members true ["replicas"] params
    some (.queueAdmitted (← ms.optional "replicas" MasterWorker.decode))
  | .flink => (FlinkParams.decode params).map .flink
  | .spark => (SparkParams.decode params).map .spark
  | .training => (TrainingParams.decode params).map .training

/-- The member that names the shape, taken out of the entries; it may not occur twice. -/
def takeKind (entries : List (Wire × Wire)) : Option (Wire × List (Wire × Wire)) :=
  let isKind : Wire × Wire → Bool := fun e => Decode.text e.1 == some "kind"
  match entries.filter isKind with
  | [e] => some (e.2, entries.filter fun e => !isKind e)
  | _ => none

/-- A shape and its parameters in one record. Scalars take their own type before the shape is known,
so a number is no text here. -/
def Workload.decode : Decoder Workload := fun w =>
  match w.settle with
  | .map entries => do
    let (name, rest) ← takeKind entries
    let kind ← (Decode.text name).bind WorkloadKind.ofWireName?
    Workload.decodeParams kind (.map rest)
  | .list (name :: rest) => do
    let kind ← (Decode.text name).bind WorkloadKind.ofWireName?
    Workload.decodeParams kind (.list rest)
  | _ => none

def Volumes.decode : Decoder Volumes := fun w => do
  let ms ← Decode.members true
    ["inputHostPath", "outputHostPath", "podInputPath", "podOutputPath"] w
  let v := Volumes.standard
  some {
    inputHostPath := ← ms.optional "inputHostPath" Decode.text
    outputHostPath := ← ms.withDefault "outputHostPath" v.outputHostPath Decode.text
    podInputPath := ← ms.withDefault "podInputPath" v.podInputPath Decode.text
    podOutputPath := ← ms.withDefault "podOutputPath" v.podOutputPath Decode.text }

def FetchSpec.decode : Decoder FetchSpec := fun w => do
  let ms ← Decode.members true ["dirId", "fetchId", "fetchName", "fetchType", "hostPath", "args"] w
  some {
    dirId := ← ms.optional "dirId" Decode.int64
    fetchId := ← ms.optional "fetchId" Decode.int64
    fetchName := ← ms.withDefault "fetchName" "" Decode.text
    fetchType := ← ms.withDefault "fetchType" "" Decode.text
    hostPath := ← ms.withDefault "hostPath" "" Decode.text
    args := ← ms.withDefault "args" "" Decode.text }

def TimeoutPolicy.decode : Decoder TimeoutPolicy := fun w => do
  let ms ← Decode.members true ["strategy", "seconds"] w
  some {
    strategy := ← ms.withDefault "strategy" .none (Decode.oneOf TimeoutStrategy.ofWireName?)
    seconds := ← ms.withDefault "seconds" 0 Decode.nat64 }

/-- The operator and the key may be missing; they are empty then. -/
def NodeSelector.decode : Decoder NodeSelector := fun w =>
  match w with
  | .list _ => none
  | _ => do
    let ms ← Decode.members true ["key", "operator", "values"] w
    some {
      key := (← ms.optional "key" Decode.text).getD ""
      operator := (← ms.optional "operator" Decode.text).getD ""
      values := ← ms.optional "values" (Decode.list Decode.text) }

/-- The names of the members of a request, in order. -/
def Request.names : List String :=
  ["taskName", "taskInstanceId", "taskCode", "taskAppId", "processInstanceId", "image",
    "imagePullPolicy", "command", "args", "namespace", "cluster", "resources", "queue", "labels",
    "env", "nodeSelectors", "volumes", "fetches", "multiple", "workload", "timeout", "logPath"]

def Request.decode : Decoder Request := fun w => do
  let ms ← Decode.members true Request.names w
  some {
    taskName := ← ms.required "taskName" Decode.text
    taskInstanceId := ← ms.required "taskInstanceId" Decode.int64
    taskCode := ← ms.withDefault "taskCode" 0 Decode.int64
    taskAppId := ← ms.withDefault "taskAppId" "" Decode.text
    processInstanceId := ← ms.withDefault "processInstanceId" 0 Decode.int64
    image := ← ms.required "image" Decode.text
    imagePullPolicy := ← ms.optional "imagePullPolicy" Decode.text
    command := ← ms.withDefault "command" "" Decode.text
    args := ← ms.withDefault "args" "" Decode.text
    nameSpace := ← ms.required "namespace" Decode.text
    cluster := ← ms.required "cluster" Decode.text
    resources := ← ms.withDefault "resources" .standard Envelope.decode
    queue := ← ms.optional "queue" Decode.text
    labels := ← ms.withDefault "labels" [] (Decode.table Decode.text)
    env := ← ms.withDefault "env" [] (Decode.table Decode.text)
    nodeSelectors := ← ms.withDefault "nodeSelectors" [] (Decode.list NodeSelector.decode)
    volumes := ← ms.withDefault "volumes" .standard Volumes.decode
    fetches := ← ms.withDefault "fetches" [] (Decode.list FetchSpec.decode)
    multiple := ← ms.withDefault "multiple" false Decode.bool
    workload := ← ms.withDefault "workload" .plain Workload.decode
    timeout := ← ms.withDefault "timeout" .standard TimeoutPolicy.decode
    logPath := ← ms.optional "logPath" Decode.text }

/-! ## Encoding -/

open Json (Value)

/-- A float; one that is not finite has no JSON form. -/
def floatToJson (x : Float) : Value :=
  if x.isFinite then .float x else .null

def natToJson (n : Nat) : Value := .int n

def Envelope.toJson (e : Envelope) : Value :=
  .object [
    ("minCpu", floatToJson e.minCpu),
    ("minMemory", floatToJson e.minMemory),
    ("gpu", .orNull floatToJson e.gpu),
    ("gpuType", .orNull .str e.gpuType)]

def MasterWorker.toJson (m : MasterWorker) : Value :=
  .object [("master", natToJson m.master), ("worker", natToJson m.worker)]

/-- The name of the shape and its parameters in one object. -/
def Workload.toJson : Workload → Value
  | .plain => .object [("kind", .str "plain")]
  | .queueAdmitted replicas =>
    .objectSome [
      ("kind", some (.str "queueAdmitted")),
      ("replicas", replicas.map MasterWorker.toJson)]
  | .flink p =>
    .object [
      ("kind", .str "flinkOperator"),
      ("masterUrl", .orNull .str p.masterUrl),
      ("parallelism", .orNull natToJson p.parallelism),
      ("slots", .orNull natToJson p.slots),
      ("mainClass", .orNull .str p.mainClass),
      ("jobManagerMemory", .orNull .str p.jobManagerMemory),
      ("taskManagerMemory", .orNull .str p.taskManagerMemory)]
  | .spark p =>
    .object [
      ("kind", .str "sparkOperator"),
      ("masterUrl", .orNull .str p.masterUrl),
      ("programType", .orNull .str p.programType),
      ("mainClass", .orNull .str p.mainClass),
      ("mainApplicationFile", .orNull .str p.mainApplicationFile),
      ("sparkVersion", .orNull .str p.sparkVersion),
      ("serviceAccount", .orNull .str p.serviceAccount),
      ("driverCores", .orNull natToJson p.driverCores),
      ("driverMemory", .orNull .str p.driverMemory),
      ("numExecutors", .orNull natToJson p.numExecutors),
      ("executorCores", .orNull natToJson p.executorCores),
      ("executorMemory", .orNull .str p.executorMemory)]
  | .training p =>
    .object [
      ("kind", .str "pyTorchOperator"),
      ("masterReplicas", natToJson p.masterReplicas),
      ("workerReplicas", natToJson p.workerReplicas),
      ("masterResources", .orNull Envelope.toJson p.masterResources),
      ("workerResources", .orNull Envelope.toJson p.workerResources)]

def Volumes.toJson (v : Volumes) : Value :=
  .object [
    ("inputHostPath", .orNull .str v.inputHostPath),
    ("outputHostPath", .str v.outputHostPath),
    ("podInputPath", .str v.podInputPath),
    ("podOutputPath", .str v.podOutputPath)]

def FetchSpec.toJson (f : FetchSpec) : Value :=
  .object [
    ("dirId", .orNull .int f.dirId),
    ("fetchId", .orNull .int f.fetchId),
    ("fetchName", .str f.fetchName),
    ("fetchType", .str f.fetchType),
    ("hostPath", .str f.hostPath),
    ("args", .str f.args)]

def TimeoutPolicy.toJson (t : TimeoutPolicy) : Value :=
  .object [("strategy", .str t.strategy.wireName), ("seconds", natToJson t.seconds)]

def NodeSelector.toJson (n : NodeSelector) : Value :=
  .objectSome [
    ("key", some (.str n.key)),
    ("operator", some (.str n.operator)),
    ("values", n.values.map .strings)]

def Request.toJson (r : Request) : Value :=
  .object [
    ("taskName", .str r.taskName),
    ("taskInstanceId", .int r.taskInstanceId),
    ("taskCode", .int r.taskCode),
    ("taskAppId", .str r.taskAppId),
    ("processInstanceId", .int r.processInstanceId),
    ("image", .str r.image),
    ("imagePullPolicy", .orNull .str r.imagePullPolicy),
    ("command", .str r.command),
    ("args", .str r.args),
    ("namespace", .str r.nameSpace),
    ("cluster", .str r.cluster),
    ("resources", r.resources.toJson),
    ("queue", .orNull .str r.queue),
    ("labels", .texts r.labels),
    ("env", .texts r.env),
    ("nodeSelectors", .arr (r.nodeSelectors.map NodeSelector.toJson)),
    ("volumes", r.volumes.toJson),
    ("fetches", .arr (r.fetches.map FetchSpec.toJson)),
    ("multiple", .bool r.multiple),
    ("workload", r.workload.toJson),
    ("timeout", r.timeout.toJson),
    ("logPath", .orNull .str r.logPath)]

end ClusterJobs
