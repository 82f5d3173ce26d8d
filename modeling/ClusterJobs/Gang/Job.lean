import ClusterJobs.Text.Blank
import ClusterJobs.Wire.Decode

/-!
# Gang-scheduled jobs

A queue-admitted job starts all its tasks together. It is built from an authored job: identity, queue
and pods are laid over it, and all else stays as authored. Decoding fills in defaults and encoding
leaves empty members out.
-/

namespace ClusterJobs

/-- What happens to the job on an event of a task. -/
structure GangPolicy where
  event : String
  action : String
deriving DecidableEq, Repr

/-- A task of a gang job: a number of equal pods. -/
structure GangTask where
  name : String
  replicas : Nat
  /-- The pod, as JSON, so that authored members stay as they are. -/
  template : Json.Value
  policies : List GangPolicy

structure GangMetadata where
  name : String
  nameSpace : String
  labels : Fields String

structure GangSpec where
  schedulerName : String
  /-- The number of pods that have to start together. -/
  minAvailable : Option Nat
  maxRetry : Option Nat
  queue : Option String
  priorityClassName : Option String
  tasks : List GangTask
  policies : List GangPolicy
  plugins : Fields (List String)

/-- A queue-admitted job. -/
structure GangJob where
  apiVersion : String
  kind : String
  metadata : GangMetadata
  spec : GangSpec

/-! ## Decoding -/

def GangPolicy.decode : Decoder GangPolicy := fun w => do
  let ms ← Decode.members false ["event", "action"] w
  some ⟨← ms.required "event" Decode.text, ← ms.required "action" Decode.text⟩

def GangTask.decode : Decoder GangTask := fun w => do
  let ms ← Decode.members true ["name", "replicas", "template", "policies"] w
  some {
    name := ← ms.required "name" Decode.text
    replicas := ← ms.withDefault "replicas" 1 Decode.nat32
    template := ← ms.withDefault "template" .null Decode.json
    policies := ← ms.withDefault "policies" [] (Decode.list GangPolicy.decode) }

def GangMetadata.decode : Decoder GangMetadata := fun w => do
  let ms ← Decode.members true ["name", "namespace", "labels"] w
  some {
    name := ← ms.withDefault "name" "" Decode.text
    nameSpace := ← ms.withDefault "namespace" "" Decode.text
    labels := ← ms.withDefault "labels" [] (Decode.table Decode.text) }

def GangSpec.names : List String :=
  ["schedulerName", "minAvailable", "maxRetry", "queue", "priorityClassName", "tasks", "policies",
    "plugins"]

def GangSpec.decode : Decoder GangSpec := fun w => do
  let ms ← Decode.members true GangSpec.names w
  some {
    schedulerName := ← ms.withDefault "schedulerName" "volcano" Decode.text
    minAvailable := ← ms.optional "minAvailable" Decode.nat32
    maxRetry := ← ms.optional "maxRetry" Decode.nat32
    queue := ← ms.optional "queue" Decode.text
    priorityClassName := ← ms.optional "priorityClassName" Decode.text
    tasks := ← ms.withDefault "tasks" [] (Decode.list GangTask.decode)
    policies := ← ms.withDefault "policies" [] (Decode.list GangPolicy.decode)
    plugins := ← ms.withDefault "plugins" [] (Decode.table (Decode.list Decode.text)) }

def GangJob.decode : Decoder GangJob := fun w => do
  let ms ← Decode.members false ["apiVersion", "kind", "metadata", "spec"] w
  some {
    apiVersion := ← ms.required "apiVersion" Decode.text
    kind := ← ms.required "kind" Decode.text
    metadata := ← ms.required "metadata" GangMetadata.decode
    spec := ← ms.required "spec" GangSpec.decode }

/-! ## Encoding -/

/-- Nothing for an empty list. -/
def unlessEmpty {α : Type} (f : List α → Json.Value) (items : List α) : Option Json.Value :=
  if items.isEmpty then none else some (f items)

def GangPolicy.toJson (p : GangPolicy) : Json.Value :=
  .object [("event", .str p.event), ("action", .str p.action)]

def GangPolicy.listToJson (ps : List GangPolicy) : Json.Value :=
  .arr (ps.map GangPolicy.toJson)

def GangTask.toJson (t : GangTask) : Json.Value :=
  .objectSome [
    ("name", some (.str t.name)),
    ("replicas", some (.int t.replicas)),
    ("template", some t.template),
    ("policies", unlessEmpty GangPolicy.listToJson t.policies)]

def GangMetadata.toJson (m : GangMetadata) : Json.Value :=
  .objectSome [
    ("name", some (.str m.name)),
    ("namespace", if m.nameSpace.isEmpty then none else some (.str m.nameSpace)),
    ("labels", unlessEmpty Json.Value.texts m.labels)]

def GangSpec.toJson (s : GangSpec) : Json.Value :=
  .objectSome [
    ("schedulerName", some (.str s.schedulerName)),
    ("minAvailable", s.minAvailable.map fun n => .int n),
    ("maxRetry", s.maxRetry.map fun n => .int n),
    ("queue", s.queue.map .str),
    ("priorityClassName", s.priorityClassName.map .str),
    ("tasks", some (.arr (s.tasks.map GangTask.toJson))),
    ("policies", unlessEmpty GangPolicy.listToJson s.policies),
    ("plugins", unlessEmpty (fun ps => .obj (Fields.mapValues .strings ps)) s.plugins)]

def GangJob.toJson (j : GangJob) : Json.Value :=
  .object [
    ("apiVersion", .str j.apiVersion),
    ("kind", .str j.kind),
    ("metadata", j.metadata.toJson),
    ("spec", j.spec.toJson)]

/-! ## Building from an authored job -/

/-- A task to place into a job. -/
structure GangTaskInput where
  name : String
  replicas : Nat
  template : Json.Value

/-- What is laid over an authored job. -/
structure GangInput where
  name : String
  nameSpace : String
  labels : Fields String
  /-- A blank queue is the default one. -/
  queue : Option String
  tasks : List GangTaskInput

/-- The queue of jobs that name none. -/
def defaultQueue : String := "default"

/-- The policies of the first authored task of a name. -/
def GangJob.policiesOf (base : GangJob) (name : String) : List GangPolicy :=
  match base.spec.tasks.find? fun t => t.name == name with
  | some t => t.policies
  | none => []

/-- A task with the policies authored for its name. -/
def GangJob.placeTask (base : GangJob) (t : GangTaskInput) : GangTask :=
  ⟨t.name, t.replicas, t.template, base.policiesOf t.name⟩

/-- The sum of two unsigned words of 32 bits; none if a word cannot hold it. -/
def addWord (m n : Nat) : Option Nat :=
  if m + n < 4294967296 then some (m + n) else none

/-- The number of all pods, added up in a word; none if a word cannot hold it. -/
def totalReplicas (tasks : List GangTask) : Option Nat :=
  tasks.foldlM (fun n t => addWord n t.replicas) 0

/-- How many pods start together: as many as is authored, else all. -/
def GangJob.startSize (base : GangJob) (tasks : List GangTask) : Option Nat :=
  match base.spec.minAvailable with
  | some n => some n
  | none => totalReplicas tasks

/-- The job with identity, queue and tasks in place, and the number of pods that start together. -/
def GangJob.fill (base : GangJob) (input : GangInput) (minAvailable : Nat) : GangJob :=
  let queue := (input.queue.filter fun q => !Text.isBlankText q).getD defaultQueue
  { base with
    metadata := {
      name := input.name
      nameSpace := input.nameSpace
      labels := Fields.overwrite base.metadata.labels input.labels }
    spec := { base.spec with
      queue := some queue
      tasks := input.tasks.map base.placeTask
      minAvailable := some minAvailable } }

/-- Lays identity, queue and tasks over an authored job; none if there are too many pods to count.
Without an authored minimum all pods start together. -/
def GangJob.overlay (base : GangJob) (input : GangInput) : Option GangJob :=
  (base.startSize (input.tasks.map base.placeTask)).map (base.fill input)

end ClusterJobs
