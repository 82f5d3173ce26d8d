import ClusterJobs.JobFault
import ClusterJobs.Json.Value
import ClusterJobs.Request.Check
import ClusterJobs.Request.Wire
import ClusterJobs.Yaml.Tree

/-!
# Pods

The parts of a pod that all shapes of a task share: resources, environment, volumes, the container
that fetches data first, and the nodes the pod may run on.
-/

namespace ClusterJobs

open Json (Value)

/-! ## Resources -/

/-- What a container asks for and what it may use at most. -/
structure Resources where
  requests : Option (Fields String)
  limits : Option (Fields String)
deriving DecidableEq, Repr

/-- The resource under which GPUs of a type are counted: the default one if none is named. -/
def gpuResource (gpuType : Option String) (defaultType : String) : String :=
  (gpuType.filter fun t => !Text.isBlankText t).getD defaultType

/-- CPU and memory at a multiple of the minimum. -/
def Envelope.atFactor (e : Envelope) (factor : Float) : Fields String :=
  [("cpu", quantity (e.minCpu * factor)), ("memory", quantity (e.minMemory * factor) ++ "Mi")]

/-- With a GPU only the GPU is limited. Without one, CPU and memory are requested, and limited to twice
the request. -/
def Envelope.render (e : Envelope) (defaultGpuType : String) : Resources :=
  match e.gpuQuantity? with
  | some g => ⟨none, some [(gpuResource e.gpuType defaultGpuType, quantity g)]⟩
  | none => ⟨some (e.atFactor 1.0), some (e.atFactor 2.0)⟩

def Resources.toJson (r : Resources) : Value :=
  .objectSome [("requests", r.requests.map .texts), ("limits", r.limits.map .texts)]

/-! ## Nodes -/

/-- The affinity that requires all conditions; nothing without conditions. -/
def nodeAffinity? (selectors : List NodeSelector) : Option Value :=
  if selectors.isEmpty then none
  else
    some (.object [("nodeAffinity", .object [
      ("requiredDuringSchedulingIgnoredDuringExecution", .object [
        ("nodeSelectorTerms", .arr [.object [
          ("matchExpressions", .arr (selectors.map NodeSelector.toJson))]])])])])

/-! ## Containers and volumes -/

/-- A variable of a container's environment. -/
structure Variable where
  name : String
  value : String
deriving DecidableEq, Repr

/-- A place where a container sees a volume. -/
structure Mount where
  name : String
  path : String
deriving DecidableEq, Repr

/-- A directory of the host. It is created if it does not exist. -/
structure Volume where
  name : String
  hostPath : String
deriving DecidableEq, Repr

structure Container where
  name : String
  image : String
  pullPolicy : String
  command : List String
  args : List String
  env : Option (List Variable)
  resources : Resources
  mounts : Option (List Mount)
deriving DecidableEq, Repr

/-- A pod that runs once. -/
structure Pod where
  container : Container
  /-- The container that fetches data first. -/
  fetcher : Option Container
  volumes : List Volume
  affinity : Option Value

def Variable.toJson (v : Variable) : Value :=
  .object [("name", .str v.name), ("value", .str v.value)]

def Mount.toJson (m : Mount) : Value :=
  .object [("name", .str m.name), ("mountPath", .str m.path)]

def Volume.toJson (v : Volume) : Value :=
  .object [
    ("name", .str v.name),
    ("hostPath", .object [("path", .str v.hostPath), ("type", .str "DirectoryOrCreate")])]

/-- Nothing for an empty list of texts. -/
def stringsUnlessEmpty (items : List String) : Option Value :=
  if items.isEmpty then none else some (.strings items)

def variablesToJson (vs : List Variable) : Value :=
  .arr (vs.map Variable.toJson)

/-- The members of a container. -/
def Container.members (c : Container) : List (String × Value) :=
  Fields.ofPairs ([
    ("name", some (.str c.name)),
    ("image", some (.str c.image)),
    ("imagePullPolicy", some (.str c.pullPolicy)),
    ("command", stringsUnlessEmpty c.command),
    ("args", stringsUnlessEmpty c.args),
    ("env", c.env.map variablesToJson),
    ("resources", some c.resources.toJson),
    ("volumeMounts", c.mounts.map fun ms => .arr (ms.map Mount.toJson))].filterMap
      fun p => p.2.map fun v => (p.1, v))

def Container.toJson (c : Container) : Value :=
  .obj c.members

/-- The specification of a pod. A pod never restarts. -/
def Pod.toJson (p : Pod) : Value :=
  .objectSome [
    ("containers", some (.arr [p.container.toJson])),
    ("initContainers", p.fetcher.map fun c => .arr [c.toJson]),
    ("volumes", some (.arr (p.volumes.map Volume.toJson))),
    ("affinity", p.affinity),
    ("restartPolicy", some (.str "Never"))]

/-! ## The pod of a request -/

/-- What the pod of one item is built from. -/
structure Blueprint where
  request : Request
  index : Option Nat
  containerName : String
  fetchImage : String
  defaultGpuType : String

/-- The pull policy of requests that name none. -/
def defaultPullPolicy : String := "IfNotPresent"

def Request.pullPolicy (r : Request) : String :=
  r.imagePullPolicy.getD defaultPullPolicy

/-- The instance id first, then the variables of the request in order. -/
def Request.variables (r : Request) : List Variable :=
  ⟨"TASK_INSTANCE_ID", toString r.taskInstanceId⟩ :: r.env.map fun p => ⟨p.1, p.2⟩

/-- A list of texts in a member of a request. -/
def parseMember (field text : String) : Except JobFault (List String) :=
  match Yaml.parseList text with
  | .ok items => .ok items
  | .error e =>
    .error (.manifestParse field ("Parse yaml-like commands and args failed: " ++ e.message))

/-- The text without the slashes at its end. -/
def withoutEndSlashes (s : String) : String :=
  String.ofList (s.toList.reverse.dropWhile (· == '/')).reverse

/-- A directory below another. -/
def joinPath (base below : String) : String :=
  withoutEndSlashes base ++ "/" ++ below

def inputVolume : String := "input-data"

def outputVolume : String := "output-data"

def fetchVolume : String := "fetch-data"

/-- Where the fetching container finds its volume. -/
def fetchMountPath : String := "/app/downloads"

/-- The container that fetches data before the task starts. -/
def fetchContainer (image : String) (fetch : FetchSpec) : Except JobFault Container := do
  let args ← parseMember "fetch args" fetch.args
  .ok {
    name := "fetch-init"
    image := image
    pullPolicy := defaultPullPolicy
    command := []
    args := args
    env := none
    resources := {
      requests := some [("cpu", "1"), ("memory", "1024Mi")]
      limits := some [("cpu", "2"), ("memory", "2048Mi")] }
    mounts := some [⟨fetchVolume, fetchMountPath⟩] }

namespace Blueprint

/-- The directory of one item: its instance, and its index in a fan-out. -/
def itemDirectory (b : Blueprint) : String :=
  match b.index with
  | some i => toString b.request.taskInstanceId ++ "/" ++ toString i
  | none => toString b.request.taskInstanceId

/-- The fetch spec of the pod: the item's own in a fan-out, else the first. -/
def fetch (b : Blueprint) : Except JobFault (Option FetchSpec) :=
  match b.request.multiple, b.index with
  | true, some i =>
    match b.request.fetches[i]? with
    | some f => .ok (some f)
    | none => .error (.missingFetchSpec i)
  | _, _ => .ok b.request.fetches.head?

/-- The input directory; each item has its own if there is something to fetch. -/
def inputHostPath? (b : Blueprint) : Option String :=
  b.request.volumes.inputHostPath.map fun base =>
    if b.request.fetches.isEmpty then base else joinPath base b.itemDirectory

/-- The output directory of an item. -/
def outputHostPath (b : Blueprint) : String :=
  joinPath b.request.volumes.outputHostPath b.itemDirectory

/-- The container of the task, without mounts. -/
def mainContainer (b : Blueprint) (name : String) (resources : Envelope) :
    Except JobFault Container := do
  let command ← parseMember "command" b.request.command
  let args ← parseMember "args" b.request.args
  .ok {
    name := name
    image := b.request.image
    pullPolicy := b.request.pullPolicy
    command := command
    args := args
    env := some b.request.variables
    resources := resources.render b.defaultGpuType
    mounts := none }

/-- The input volume, if there is one, and the output volume, with their mounts. -/
def dataVolumes (b : Blueprint) : List (Volume × Mount) :=
  let input := b.inputHostPath?.toList.map fun path =>
    (⟨inputVolume, path⟩, ⟨inputVolume, b.request.volumes.podInputPath⟩)
  input ++
    [(⟨outputVolume, b.outputHostPath⟩, ⟨outputVolume, b.request.volumes.podOutputPath⟩)]

/-- The volume that the fetching container fills. -/
def fetchVolumeOf (b : Blueprint) (f : FetchSpec) : Volume :=
  ⟨fetchVolume, joinPath f.hostPath b.itemDirectory⟩

/-- The pod of an item. -/
def pod (b : Blueprint) : Except JobFault Pod := do
  let fetch ← b.fetch
  let fetcher ← match fetch with
    | some f => (fetchContainer b.fetchImage f).map some
    | none => .ok none
  let container ← b.mainContainer b.containerName b.request.resources
  .ok {
    container := { container with mounts := some (b.dataVolumes.map Prod.snd) }
    fetcher := fetcher
    volumes := b.dataVolumes.map Prod.fst ++ fetch.toList.map b.fetchVolumeOf
    affinity := nodeAffinity? b.request.nodeSelectors }

end Blueprint

end ClusterJobs
