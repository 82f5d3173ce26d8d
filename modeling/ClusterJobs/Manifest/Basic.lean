import ClusterJobs.Manifest.Operator
import ClusterJobs.Settings
import ClusterJobs.Yaml.Printer

/-!
# Manifests

A manifest is one object that is ready to be submitted, with what is needed to follow it afterwards.
A request compiles to one manifest, or to one for each of its fetch specs when it fans out. No cluster
is asked.
-/

namespace ClusterJobs

open Json (Value)

/-- An object that is ready to be submitted. -/
structure Manifest where
  kind : WorkloadKind
  name : String
  nameSpace : String
  /-- The container whose log is followed. -/
  container : String
  target : Target
  taskInstanceId : Int
  /-- The place in a fan-out. -/
  index : Option Nat
  object : Value

/-- The object as a YAML document. -/
def Manifest.toYaml (m : Manifest) : String :=
  Yaml.render m.object

/-- What manifests are compiled with. -/
structure Compiler where
  templates : Templates
  catalog : Catalog
  fetchImage : String
  imagePullSecret : String
  defaultGpuType : String

namespace Compiler

/-- The compiler of some settings. -/
def ofSettings (ts : Templates) (s : Settings) : Compiler :=
  ⟨ts, ⟨s.apiVersionOverrides⟩, s.fetchImage, s.imagePullSecret, s.defaultGpuType⟩

/-- The container whose log is followed. -/
def containerName (kind : WorkloadKind) (name : String) : String :=
  match kind with
  | .plain | .queueAdmitted => name
  | .flink => flinkContainer
  | .spark => sparkDriverContainer
  | .training => trainingContainer

/-- What the pod of one item is built from. -/
def blueprint (c : Compiler) (r : Request) (index : Option Nat) (container : String) : Blueprint :=
  ⟨r, index, container, c.fetchImage, c.defaultGpuType⟩

/-- The object of a plain job. Its pod is tried once. -/
def plainJob (b : Blueprint) (id : Identity) : Except JobFault Value := do
  let pod ← b.pod
  .ok (.object [
    ("metadata", .object [
      ("name", .str id.name),
      ("namespace", .str id.nameSpace),
      ("labels", .texts id.labels)]),
    ("spec", .object [
      ("backoffLimit", .int 0),
      ("template", .object [
        ("metadata", .object [("labels", .texts id.podLabels)]),
        ("spec", pod.toJson)])])])

/-- The pod template of the tasks of a queue-admitted job. Its image is pulled with the secret. -/
def gangPodTemplate (pullSecret : String) (id : Identity) (pod : Pod) : Value :=
  .object [
    ("metadata", .object [("labels", .texts id.podLabels)]),
    ("spec", pod.toJson.withMember "imagePullSecrets"
      (.arr [.object [("name", .str pullSecret)]]))]

/-- The tasks of a queue-admitted job, and the template that has their policies. -/
def gangTasks (replicas : Option MasterWorker) (pod : Value) : TemplateName × List GangTaskInput :=
  match replicas with
  | some mw => (.trainingQueueJob, [⟨"master", mw.master, pod⟩, ⟨"worker", mw.worker, pod⟩])
  | none => (.queueJob, [⟨"main", 1, pod⟩])

/-- A job over a template. -/
def overlayGang (base : GangJob) (input : GangInput) : Except JobFault Value :=
  match base.overlay input with
  | some job => .ok job.toJson
  | none => .error .tooManyPods

/-- The object of a queue-admitted job. -/
def gangJob (c : Compiler) (b : Blueprint) (id : Identity) (replicas : Option MasterWorker) :
    Except JobFault Value := do
  let pod ← b.pod
  let (template, tasks) := gangTasks replicas (gangPodTemplate c.imagePullSecret id pod)
  let base ← c.templates.gangJob template
  overlayGang base ⟨id.name, id.nameSpace, id.labels, b.request.queue, tasks⟩

/-- The object of a workload. -/
def render (c : Compiler) (b : Blueprint) (id : Identity) : Workload → Except JobFault Value
  | .plain => plainJob b id
  | .queueAdmitted replicas => c.gangJob b id replicas
  | .flink p => renderFlink b id p (c.templates .flinkDeployment)
  | .spark p => renderSpark b id p (c.templates .sparkApplication)
  | .training p => renderTraining b id p (c.templates .trainingJob)

/-- The object with the API version and kind that its cluster serves it under. -/
def stamp (place : Coordinates) (object : Value) : Value :=
  (object.withMember "apiVersion" (.str place.apiVersion)).withMember "kind" (.str place.kind)

/-- The manifest of a request, or of one item of its fan-out. -/
def compile (c : Compiler) (r : Request) (index : Option Nat) : Except JobFault Manifest := do
  r.resources.check
  let name := derivedName r.taskName r.taskInstanceId index
  let container := containerName r.kind name
  let object ← c.render (c.blueprint r index container) (.ofRequest r name) r.workload
  .ok {
    kind := r.kind
    name := name
    nameSpace := r.nameSpace
    container := container
    target := r.target
    taskInstanceId := r.taskInstanceId
    index := index
    object := stamp (c.catalog.resolve r.kind.objectKind) object }

/-- The manifests of some items of a fan-out, in order. -/
def compileItems (c : Compiler) (r : Request) : List Nat → Except JobFault (List Manifest)
  | [] => .ok []
  | i :: rest => do
    let m ← c.compile r (some i)
    let ms ← compileItems c r rest
    .ok (m :: ms)

/-- All manifests of a request. -/
def compileAll (c : Compiler) (r : Request) : Except JobFault (List Manifest) :=
  if r.multiple then c.compileItems r (List.range r.fetches.length)
  else (c.compile r none).map fun m => [m]

end Compiler

end ClusterJobs
