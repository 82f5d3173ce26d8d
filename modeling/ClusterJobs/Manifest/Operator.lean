import ClusterJobs.Json.Overlay
import ClusterJobs.Manifest.Identity
import ClusterJobs.Manifest.Pod
import ClusterJobs.Manifest.Template

/-!
# Objects for operators

Flink, Spark and training jobs are run by operators. Their objects are templates with an overlay:
identity, image, environment, replica counts and resources are written, and all else stays as
authored.
-/

namespace ClusterJobs

open Json (Value Path Edit OverlayFault)

/-- The containers whose logs are followed. -/
def flinkContainer : String := "flink-main-container"

def sparkDriverContainer : String := "spark-kubernetes-driver"

def trainingContainer : String := "pytorch"

/-- The fault of a template that an overlay does not fit. -/
def overlayFault (name : TemplateName) : OverlayFault → JobFault
  | .memberOfScalar key => .memberOfScalar key
  | .noFirstItem path =>
    Templates.unusable name ("no container at " ++ Text.joinWith "." path)

/-- Lays edits over the object of a template. -/
def overlay (name : TemplateName) (edits : List Edit) (object : Value) : Except JobFault Value :=
  match Edit.applyAll edits object with
  | .ok v => .ok v
  | .error e => .error (overlayFault name e)

/-- Writes every label on its own, so that authored labels stay. -/
def Identity.labelEdits (id : Identity) (path : Path) : List Edit :=
  id.labels.map fun p => .set (path ++ [p.1]) (.str p.2)

/-- Writes name, namespace and labels. -/
def Identity.edits (id : Identity) : List Edit :=
  [.assign ["metadata"] "name" (.str id.name),
    .assign ["metadata"] "namespace" (.str id.nameSpace)] ++
    id.labelEdits ["metadata", "labels"]

/-! ## Flink -/

def flinkEdits (b : Blueprint) (id : Identity) (p : FlinkParams) : List Edit :=
  [.assign ["spec"] "image" (.str b.request.image),
    .assign ["spec"] "imagePullPolicy" (.str b.request.pullPolicy),
    .set ["spec", "podTemplate", "metadata", "labels"] (.texts id.podLabels),
    .extendFirst ["spec"] ["podTemplate", "spec", "containers"]
      [("env", variablesToJson b.request.variables)]] ++
    Edit.setSome ["spec", "job", "parallelism"] natToJson p.parallelism ++
    Edit.setSome ["spec", "flinkConfiguration", "taskmanager.numberOfTaskSlots"]
      (fun n : Nat => .str (toString n)) p.slots ++
    Edit.setSome ["spec", "job", "entryClass"] .str p.mainClass ++
    Edit.setSome ["spec", "jobManager", "resource", "memory"] .str p.jobManagerMemory ++
    Edit.setSome ["spec", "taskManager", "resource", "memory"] .str p.taskManagerMemory

/-- The object of a Flink deployment. -/
def renderFlink (b : Blueprint) (id : Identity) (p : FlinkParams) (template : Value) :
    Except JobFault Value :=
  overlay .flinkDeployment (id.edits ++ flinkEdits b id p) template

/-! ## Spark -/

/-- The roles of a Spark application. -/
def sparkRoles : List String := ["driver", "executor"]

def sparkEdits (b : Blueprint) (id : Identity) (p : SparkParams) (arguments : List String) :
    List Edit :=
  (if Text.isBlankText b.request.image then []
    else [.assign ["spec"] "image" (.str b.request.image)]) ++
    [.assign ["spec"] "imagePullPolicy" (.str b.request.pullPolicy)] ++
    Edit.setSome ["spec", "type"] .str p.programType ++
    Edit.setSome ["spec", "mainClass"] .str p.mainClass ++
    Edit.setSome ["spec", "mainApplicationFile"] .str p.mainApplicationFile ++
    Edit.setSome ["spec", "sparkVersion"] .str p.sparkVersion ++
    (if arguments.isEmpty then [] else [.set ["spec", "arguments"] (.strings arguments)]) ++
    (sparkRoles.flatMap fun role =>
      id.labelEdits ["spec", role, "labels"] ++
        [.set ["spec", role, "env"] (variablesToJson b.request.variables)]) ++
    Edit.setSome ["spec", "driver", "cores"] natToJson p.driverCores ++
    Edit.setSome ["spec", "driver", "memory"] .str p.driverMemory ++
    Edit.setSome ["spec", "driver", "serviceAccount"] .str p.serviceAccount ++
    Edit.setSome ["spec", "executor", "instances"] natToJson p.numExecutors ++
    Edit.setSome ["spec", "executor", "cores"] natToJson p.executorCores ++
    Edit.setSome ["spec", "executor", "memory"] .str p.executorMemory

/-- The object of a Spark application. -/
def renderSpark (b : Blueprint) (id : Identity) (p : SparkParams) (template : Value) :
    Except JobFault Value := do
  let named ← overlay .sparkApplication id.edits template
  let arguments ← parseMember "args" b.request.args
  overlay .sparkApplication (sparkEdits b id p arguments) named

/-! ## Training -/

/-- A role of a training job: its name, the number of its pods and its own envelope. -/
structure TrainingRole where
  name : String
  replicas : Nat
  resources : Option Envelope

def TrainingParams.roles (p : TrainingParams) : List TrainingRole :=
  [⟨"Master", p.masterReplicas, p.masterResources⟩, ⟨"Worker", p.workerReplicas, p.workerResources⟩]

/-- Where the roles stand in a training job. -/
def rolesPath : Path := ["spec", "pytorchReplicaSpecs"]

/-- Writes one role. A role without pods is removed. -/
def renderRole (b : Blueprint) (id : Identity) (role : TrainingRole) (object : Value) :
    Except JobFault Value :=
  if role.replicas = 0 then overlay .trainingJob [.drop rolesPath role.name] object
  else do
    let base := rolesPath ++ [role.name]
    let counted ← overlay .trainingJob
      [.assign base "replicas" (natToJson role.replicas),
        .set (base ++ ["template", "metadata", "labels"]) (.texts id.podLabels)] object
    let container ← b.mainContainer trainingContainer (role.resources.getD b.request.resources)
    overlay .trainingJob
      [.extendFirst base ["template", "spec", "containers"] container.members] counted

/-- Writes roles in order. -/
def renderRoles (b : Blueprint) (id : Identity) : List TrainingRole → Value →
    Except JobFault Value
  | [], object => .ok object
  | role :: rest, object => do
    let object ← renderRole b id role object
    renderRoles b id rest object

/-- The object of a training job. -/
def renderTraining (b : Blueprint) (id : Identity) (p : TrainingParams) (template : Value) :
    Except JobFault Value := do
  let named ← overlay .trainingJob id.edits template
  renderRoles b id p.roles named

end ClusterJobs
