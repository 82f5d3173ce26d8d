import ClusterJobs.Gang.Job
import ClusterJobs.JobFault
import ClusterJobs.Yaml.Tree

/-!
# Templates

Queue-admitted jobs and operator objects start from a template, a JSON object. Each template has a
built-in value, and a YAML text supplied under its name takes precedence.
-/

namespace ClusterJobs

open Json (Value)

/-- The templates by what they are for. -/
inductive TemplateName where
  | queueJob
  | trainingQueueJob
  | flinkDeployment
  | sparkApplication
  | trainingJob
deriving DecidableEq, Repr

namespace TemplateName

/-- All templates, in the order in which they are read. -/
def all : List TemplateName :=
  [queueJob, trainingQueueJob, flinkDeployment, sparkApplication, trainingJob]

/-- The name of a template's file, without the ending. -/
def stem : TemplateName → String
  | queueJob => "queue-job"
  | trainingQueueJob => "pytorch-queue-job"
  | flinkDeployment => "flink-deployment"
  | sparkApplication => "spark-application"
  | trainingJob => "pytorch-job"

/-! ## Built-in templates -/

/-- A queue-admitted job with one task. -/
def builtinQueueJob : Value :=
  .obj [
    ("apiVersion", .str "batch.volcano.sh/v1alpha1"),
    ("kind", .str "Job"),
    ("metadata", .obj [("name", .str "placeholder")]),
    ("spec", .obj [
      ("maxRetry", .int 0),
      ("minAvailable", .int 1),
      ("schedulerName", .str "volcano"),
      ("tasks", .arr [
        .obj [
          ("name", .str "main"),
          ("policies", .arr [
            .obj [("action", .str "CompleteJob"), ("event", .str "TaskCompleted")],
            .obj [("action", .str "AbortJob"), ("event", .str "PodFailed")]]),
          ("replicas", .int 1)]])])]

/-- A queue-admitted job with a master and workers. It leaves open how many pods start together. -/
def builtinTrainingQueueJob : Value :=
  .obj [
    ("apiVersion", .str "batch.volcano.sh/v1alpha1"),
    ("kind", .str "Job"),
    ("metadata", .obj [("name", .str "placeholder")]),
    ("spec", .obj [
      ("maxRetry", .int 0),
      ("plugins", .obj [
        ("pytorch", .arr [.str "--master=master", .str "--worker=worker", .str "--port=23456"]),
        ("svc", .arr [])]),
      ("schedulerName", .str "volcano"),
      ("tasks", .arr [
        .obj [
          ("name", .str "master"),
          ("policies", .arr [
            .obj [("action", .str "CompleteJob"), ("event", .str "TaskCompleted")],
            .obj [("action", .str "AbortJob"), ("event", .str "PodFailed")]]),
          ("replicas", .int 1)],
        .obj [
          ("name", .str "worker"),
          ("policies", .arr [.obj [("action", .str "AbortJob"), ("event", .str "PodFailed")]]),
          ("replicas", .int 1)]])])]

/-- A Flink deployment in application mode. -/
def builtinFlinkDeployment : Value :=
  .obj [
    ("apiVersion", .str "flink.apache.org/v1beta1"),
    ("kind", .str "FlinkDeployment"),
    ("metadata", .obj [("name", .str "placeholder")]),
    ("spec", .obj [
      ("flinkConfiguration", .obj [
        ("state.checkpoints.dir", .str "file:///flink-data/checkpoints"),
        ("state.savepoints.dir", .str "file:///flink-data/savepoints"),
        ("taskmanager.numberOfTaskSlots", .str "1")]),
      ("flinkVersion", .str "v1_17"),
      ("image", .str "flink:1.17"),
      ("job", .obj [
        ("jarURI", .str "local:///opt/flink/usrlib/job.jar"),
        ("parallelism", .int 1),
        ("upgradeMode", .str "stateless")]),
      ("jobManager", .obj [("resource", .obj [("cpu", .int 1), ("memory", .str "2048m")])]),
      ("podTemplate", .obj [
        ("apiVersion", .str "v1"),
        ("kind", .str "Pod"),
        ("metadata", .obj [("name", .str "pod-template")]),
        ("spec", .obj [
          ("containers", .arr [
            .obj [
              ("name", .str "flink-main-container"),
              ("volumeMounts", .arr [
                .obj [("mountPath", .str "/flink-data"), ("name", .str "flink-data")]])]]),
          ("volumes", .arr [
            .obj [
              ("hostPath", .obj [
                ("path", .str "/tmp/flink"),
                ("type", .str "DirectoryOrCreate")]),
              ("name", .str "flink-data")]])])]),
      ("serviceAccount", .str "flink"),
      ("taskManager", .obj [("resource", .obj [("cpu", .int 1), ("memory", .str "2048m")])])])]

/-- A Spark application in cluster mode. -/
def builtinSparkApplication : Value :=
  .obj [
    ("apiVersion", .str "sparkoperator.k8s.io/v1beta2"),
    ("kind", .str "SparkApplication"),
    ("metadata", .obj [("name", .str "placeholder")]),
    ("spec", .obj [
      ("driver", .obj [
        ("coreLimit", .str "1200m"),
        ("cores", .int 1),
        ("labels", .obj [("version", .str "3.5.0")]),
        ("memory", .str "512m"),
        ("serviceAccount", .str "spark"),
        ("volumeMounts", .arr [
          .obj [("mountPath", .str "/tmp/spark"), ("name", .str "spark-data")]])]),
      ("executor", .obj [
        ("cores", .int 1),
        ("instances", .int 1),
        ("labels", .obj [("version", .str "3.5.0")]),
        ("memory", .str "512m"),
        ("volumeMounts", .arr [
          .obj [("mountPath", .str "/tmp/spark"), ("name", .str "spark-data")]])]),
      ("imagePullPolicy", .str "IfNotPresent"),
      ("mode", .str "cluster"),
      ("restartPolicy", .obj [("type", .str "Never")]),
      ("sparkVersion", .str "3.5.0"),
      ("type", .str "Scala"),
      ("volumes", .arr [
        .obj [
          ("hostPath", .obj [("path", .str "/tmp/spark"), ("type", .str "DirectoryOrCreate")]),
          ("name", .str "spark-data")]])])]

/-- A training job with a master and workers. -/
def builtinTrainingJob : Value :=
  .obj [
    ("apiVersion", .str "kubeflow.org/v1"),
    ("kind", .str "PyTorchJob"),
    ("metadata", .obj [("name", .str "placeholder")]),
    ("spec", .obj [
      ("pytorchReplicaSpecs", .obj [
        ("Master", .obj [
          ("replicas", .int 1),
          ("restartPolicy", .str "OnFailure"),
          ("template", .obj [
            ("spec", .obj [
              ("containers", .arr [
                .obj [("image", .str "placeholder"), ("name", .str "pytorch")]])])])]),
        ("Worker", .obj [
          ("replicas", .int 1),
          ("restartPolicy", .str "OnFailure"),
          ("template", .obj [
            ("spec", .obj [
              ("containers", .arr [
                .obj [("image", .str "placeholder"), ("name", .str "pytorch")]])])])])])])]

/-- The built-in value of a template. -/
def builtin : TemplateName → Value
  | queueJob => builtinQueueJob
  | trainingQueueJob => builtinTrainingQueueJob
  | flinkDeployment => builtinFlinkDeployment
  | sparkApplication => builtinSparkApplication
  | trainingJob => builtinTrainingJob

end TemplateName

/-- The value of each template. -/
abbrev Templates := TemplateName → Value

namespace Templates

/-- The fault of a template that cannot be used. -/
def unusable (name : TemplateName) (message : String) : JobFault :=
  .template name.stem message

/-- Reads a template from its text. -/
def parse (name : TemplateName) (text : String) : Except JobFault Value :=
  match Yaml.parse text with
  | .error e => .error (unusable name e.message)
  | .ok (.obj ms) => .ok (.obj ms)
  | .ok _ => .error (unusable name "template must be a YAML mapping")

/-- Replaces a template by the text supplied under its name, if there is one. -/
def replace (supplied : Fields String) (ts : Templates) (name : TemplateName) :
    Except JobFault Templates :=
  match supplied.get? name.stem with
  | none => .ok ts
  | some text => (parse name text).map fun v other => if other = name then v else ts other

/-- Replaces some templates in order. -/
def replaceAll (supplied : Fields String) : List TemplateName → Templates →
    Except JobFault Templates
  | [], ts => .ok ts
  | name :: rest, ts => (replace supplied ts name).bind (replaceAll supplied rest)

/-- The built-in templates, with the texts supplied under their names taking precedence. -/
def load (supplied : Fields String) : Except JobFault Templates :=
  replaceAll supplied TemplateName.all TemplateName.builtin

/-- A queue-admitted job as its template says. -/
def gangJob (ts : Templates) (name : TemplateName) : Except JobFault GangJob :=
  match GangJob.decode (.ofJson (ts name)) with
  | some job => .ok job
  | none => .error (unusable name "not a queue-admitted job")

end Templates

end ClusterJobs
