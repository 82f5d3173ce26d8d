import ClusterJobs.Request.Basic
import ClusterJobs.Text.Lowercase

/-!
# Names and labels

Every object has a name that follows from the task, its instance and its place in a fan-out, and labels
by which its pods are found again.
-/

namespace ClusterJobs

/-- The task's name in lower case without underscores, which names of objects may not hold. -/
def nameStem (taskName : String) : String :=
  String.ofList ((Text.lower taskName).toList.filter (· != '_'))

/-- The name of an object: task, instance, and index in a fan-out. -/
def derivedName (taskName : String) (instanceId : Int) (index : Option Nat) : String :=
  let base := nameStem taskName ++ "-" ++ toString instanceId
  match index with
  | some i => base ++ "-" ++ toString i
  | none => base

/-- The label of everything that is submitted. -/
def layerLabel : String := "layer"

def layerLabelValue : String := "kubetask"

/-- The label that holds the name of the object. -/
def nameLabel : String := "name"

/-- The label of pods that holds the scheduler's application. -/
def applicationLabel : String := "task-app-id"

/-- What identifies an object on a cluster. -/
structure Identity where
  name : String
  nameSpace : String
  labels : Fields String
  podLabels : Fields String
deriving DecidableEq, Repr

/-- The labels of the request with those of the engine over them; pods also name their application,
if there is one. -/
def Identity.ofRequest (r : Request) (name : String) : Identity :=
  let labels := (r.labels.put layerLabel layerLabelValue).put nameLabel name
  { name := name
    nameSpace := r.nameSpace
    labels := labels
    podLabels :=
      if r.taskAppId.isEmpty then labels else labels.put applicationLabel r.taskAppId }

end ClusterJobs
