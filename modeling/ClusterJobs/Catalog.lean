import ClusterJobs.Fields
import ClusterJobs.Text.Lowercase

/-!
# Resource coordinates

Every kind of object that is created, watched or deleted on a cluster has coordinates there: a group, a
version, a kind and a plural. Settings may override the version of a kind, for a cluster that runs
another release of an operator.
-/

namespace ClusterJobs

/-- Where the objects of a kind live on a cluster. -/
structure Coordinates where
  group : String
  version : String
  kind : String
  apiVersion : String
  plural : String
deriving DecidableEq, Repr

/-- Splits `group/version` at the first slash; a version alone has the empty group. -/
def splitApiVersion (apiVersion : String) : String × String :=
  let cs := apiVersion.toList
  match cs.dropWhile (· != '/') with
  | _ :: version => (String.ofList (cs.takeWhile (· != '/')), String.ofList version)
  | [] => ("", apiVersion)

/-- Plurals given by name. -/
def knownPlurals : List (String × String) :=
  [("job", "jobs"), ("queue", "queues"), ("flinkdeployment", "flinkdeployments"),
    ("sparkapplication", "sparkapplications"), ("pytorchjob", "pytorchjobs"),
    ("podgroup", "podgroups")]

/-- The text ends in `ending`. -/
def endsIn (ending : String) (cs : List Char) : Bool :=
  ending.toList.isSuffixOf cs

/-- The plural of a kind in lower case, by the rules of English spelling. -/
def pluralOf (kind : String) : String :=
  let low := Text.lower kind
  match knownPlurals.lookup low with
  | some plural => plural
  | none =>
    let cs := low.toList
    if endsIn "s" cs || endsIn "ch" cs || endsIn "sh" cs then low ++ "es"
    else if endsIn "y" cs && !endsIn "ay" cs && !endsIn "ey" cs then
      String.ofList cs.dropLast ++ "ies"
    else low ++ "s"

/-- The coordinates of a kind in an API version. -/
def Coordinates.ofApiVersion (apiVersion kind : String) : Coordinates :=
  let (group, version) := splitApiVersion apiVersion
  ⟨group, version, kind, apiVersion, pluralOf kind⟩

/-- The kinds of objects. -/
inductive ObjectKind where
  | batchJob
  | gangJob
  | gangQueue
  | flinkDeployment
  | sparkApplication
  | trainingJob
deriving DecidableEq, Repr

namespace ObjectKind

/-- All kinds. -/
def all : List ObjectKind :=
  [batchJob, gangJob, gangQueue, flinkDeployment, sparkApplication, trainingJob]

/-- The name of a kind in settings. -/
def configKey : ObjectKind → String
  | batchJob => "batchJob"
  | gangJob => "volcanoJob"
  | gangQueue => "volcanoQueue"
  | flinkDeployment => "flinkDeployment"
  | sparkApplication => "sparkApplication"
  | trainingJob => "pytorchJob"

/-- The kind with a name in settings. -/
def ofConfigKey? (key : String) : Option ObjectKind :=
  all.find? fun k => k.configKey == key

/-- The usual group of a kind. -/
def group : ObjectKind → String
  | batchJob => "batch"
  | gangJob => "batch.volcano.sh"
  | gangQueue => "scheduling.volcano.sh"
  | flinkDeployment => "flink.apache.org"
  | sparkApplication => "sparkoperator.k8s.io"
  | trainingJob => "kubeflow.org"

/-- The kind as objects name it. -/
def kindName : ObjectKind → String
  | batchJob | gangJob => "Job"
  | gangQueue => "Queue"
  | flinkDeployment => "FlinkDeployment"
  | sparkApplication => "SparkApplication"
  | trainingJob => "PyTorchJob"

/-- The API version unless overridden. -/
def defaultApiVersion : ObjectKind → String
  | batchJob => "batch/v1"
  | gangJob => "batch.volcano.sh/v1alpha1"
  | gangQueue => "scheduling.volcano.sh/v1beta1"
  | flinkDeployment => "flink.apache.org/v1beta1"
  | sparkApplication => "sparkoperator.k8s.io/v1beta2"
  | trainingJob => "kubeflow.org/v1"

/-- Objects of the kind live in a namespace. -/
def namespaced : ObjectKind → Bool
  | gangQueue => false
  | _ => true

end ObjectKind

/-- The API version of each kind that settings override. -/
structure Catalog where
  overrides : Fields String

namespace Catalog

/-- Every kind in its usual version. -/
def standard : Catalog := ⟨[]⟩

/-- The API version of a kind. -/
def apiVersion (c : Catalog) (kind : ObjectKind) : String :=
  (c.overrides.get? kind.configKey).getD kind.defaultApiVersion

/-- The coordinates of a kind. -/
def resolve (c : Catalog) (kind : ObjectKind) : Coordinates :=
  .ofApiVersion (c.apiVersion kind) kind.kindName

end Catalog

end ClusterJobs
