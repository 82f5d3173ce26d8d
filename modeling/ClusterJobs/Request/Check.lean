import ClusterJobs.JobFault
import ClusterJobs.Request.Basic
import ClusterJobs.TaskType

/-!
# Checking requests

What has to hold of a request before it is compiled, and the workload that a declared task type
stands for.
-/

namespace ClusterJobs

/-- CPU and memory are amounts, and the number of GPUs, if there is one, is finite. -/
def Envelope.check (e : Envelope) : Except JobFault Unit :=
  if !isAmount e.minCpu then .error (.invalidRequest (amountMessage "minCpu" e.minCpu))
  else if !isAmount e.minMemory then
    .error (.invalidRequest (amountMessage "minMemory" e.minMemory))
  else
    match e.gpu.filter fun g => !g.isFinite with
    | some g => .error (.invalidRequest ("gpu must be finite, got " ++ Decimal.plainText g))
    | none => .ok ()

namespace Request

/-- The image may be left to the template of a Spark application. -/
def needsImage (r : Request) : Bool :=
  r.kind != .spark

/-- The task has a name and an image, its envelope is sound, and a fan-out has items. -/
def check (r : Request) : Except JobFault Unit := do
  if Text.isBlankText r.taskName then .error (.invalidRequest "task name is empty")
  if r.needsImage && Text.isBlankText r.image then .error (.invalidRequest "image is empty")
  r.resources.check
  if r.multiple && r.fetches.isEmpty then
    .error (.invalidRequest "fan-out requires at least one fetch spec")

/-- The training parameters of a workload; the standard ones for any other shape. -/
def trainingParams : Workload → TrainingParams
  | .training p => p
  | _ => .standard

/-- The workload that a task type stands for. An operator keeps its own parameters, and training
goes through queues as masters and workers. -/
def workloadFor (t : TaskType) (queueEnabled : Bool) (w : Workload) : Workload :=
  match t with
  | .container | .dataSet => if queueEnabled then .queueAdmitted none else .plain
  | .training =>
    let p := trainingParams w
    if queueEnabled then .queueAdmitted (some ⟨p.masterReplicas, p.workerReplicas⟩)
    else .training p
  | .flinkOperator =>
    match w with
    | .flink p => .flink p
    | _ => .flink .standard
  | .sparkOperator =>
    match w with
    | .spark p => .spark p
    | _ => .spark .standard
  | .trainingOperator => .training (trainingParams w)

/-- The request in the shape of its task type. Only the type for data sources fans out. -/
def forTaskType (r : Request) (t : TaskType) (queueEnabled : Bool) : Except JobFault Request := do
  let shaped :=
    { r with workload := workloadFor t queueEnabled r.workload, multiple := t == .dataSet }
  shaped.check
  .ok shaped

end Request

end ClusterJobs
