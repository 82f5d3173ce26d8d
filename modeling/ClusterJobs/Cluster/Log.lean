import ClusterJobs.Cluster.Collection
import ClusterJobs.Text.Lines

/-!
# Logs

The pods of a job bear its name as a label, which tells them from the pods of a job whose name only
begins alike. The log of a job is that of a container in the first such pod.
-/

namespace ClusterJobs

open Json (Value)
open Web

/-- A pod as a listing shows it. -/
structure ListedPod where
  name : Option String
  labels : Fields String
deriving DecidableEq, Repr

namespace ListedPod

/-- A member that may be missing, but has to be the given text. -/
def fixedMember (ms : Members) (name value : String) : Option Unit := do
  let s ← ms.withDefault name value Decode.text
  if s == value then some () else none

def ofJson? (v : Value) : Option ListedPod := do
  let ms ← Decode.record (.ofJson v)
  fixedMember ms "apiVersion" "v1"
  fixedMember ms "kind" "Pod"
  let metadata := (← ms.optional "metadata" ObjectMeta.decode).getD .empty
  let _ ← ms.optional "spec" Decode.record
  let _ ← ms.optional "status" Decode.record
  some ⟨metadata.name, metadata.labels.getD []⟩

/-- The label that holds the name of a pod's job. -/
def jobLabel : String := "name"

/-- The pod bears the name of a job. -/
def belongsTo (job : String) (p : ListedPod) : Bool :=
  p.labels.get? jobLabel == some job

/-- The name of the first pod of a job. A pod without a name is passed over. -/
def select (job : String) (pods : List ListedPod) : Option String :=
  (pods.filter (belongsTo job)).findSome? fun p => p.name

/-- The selector of the pods of a job. -/
def selector (job : String) : String :=
  jobLabel ++ "=" ++ job

end ListedPod

namespace PodLog

/-- The pods of a namespace. -/
def pods (nameSpace : String) : Collection :=
  ⟨⟨"", "v1", "Pod", "v1", "pods"⟩, some nameSpace⟩

/-- The name of the pod of a job. -/
def findPod (nameSpace job : String) : ExchangeProgram (Except Fault String) := do
  let selection := [("labelSelector", ListedPod.selector job)]
  match ← (pods nameSpace).list ListedPod.ofJson? selection with
  | .error e => return .error e.toFault
  | .ok listing =>
    match ListedPod.select job listing.items with
    | some name => return .ok name
    | none => return .error (.validation ("no pod found for " ++ job))

/-- Reads the log in the pod of a job. -/
def read (nameSpace job : String) (options : List (String × String)) :
    ExchangeProgram (Except Fault String) := do
  match ← findPod nameSpace job with
  | .error e => return .error e
  | .ok pod =>
    let path := (pods nameSpace).path
    match ← exchange (Web.Request.named .get path pod "/log" (some options) none) with
    | .error e => return .error e.toFault
    | .ok log => return .ok log

/-- The last lines of the log of a container. -/
def tail (nameSpace job container : String) (lines : Int) :
    ExchangeProgram (Except Fault String) :=
  read nameSpace job [("container", container), ("tailLines", toString lines)]

/-- The lines of the log of a container up to its end. -/
def follow (nameSpace job container : String) :
    ExchangeProgram (Except Fault (List String)) := do
  match ← read nameSpace job [("container", container), ("follow", "true")] with
  | .error e => return .error e
  | .ok log => return .ok (Text.lines log)

end PodLog

end ClusterJobs
