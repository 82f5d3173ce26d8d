import ClusterJobs.Gang.Queue
import ClusterJobs.Queue.Capability
import ClusterJobs.Settings
import ClusterJobs.Instant

/-!
# Queue rows

A queue as it is stored, the request to create one, and the request to change one. A change is compared
with the row first, so that only what differs is written.
-/

namespace ClusterJobs

/-- A stored queue. -/
structure QueueRow where
  id : Int
  name : String
  projectCode : Option Int
  description : Option String
  /-- The cluster that has the queue. -/
  cluster : String
  weight : Nat
  reclaimable : Bool
  capability : Capability
  state : QueueState
  createdAt : Instant
  updatedAt : Instant
deriving BEq

/-- A queue that is to be created. -/
structure NewQueue where
  name : String
  projectCode : Option Int
  description : Option String
  cluster : String
  /-- One if it is missing. -/
  weight : Option Nat
  /-- True if it is missing. -/
  reclaimable : Option Bool
  capability : Capability

/-- Changes to a queue. What is missing stays as it is. -/
structure QueueUpdate where
  /-- The present name, if any: queues are not renamed. -/
  name : Option String
  description : Option String
  weight : Option Nat
  reclaimable : Option Bool
  capability : Option Capability

/-- Which members of a row an update changes. -/
structure Changeset where
  description : Bool
  weight : Bool
  reclaimable : Bool
  capability : Bool
deriving DecidableEq, Repr

namespace Changeset

/-- A member is given and differs from the present value. -/
def differs {α : Type} [BEq α] (given : Option α) (present : α) : Bool :=
  given.any fun a => !(a == present)

/-- What an update changes in a row. -/
def between (row : QueueRow) (u : QueueUpdate) : Changeset where
  description := u.description.any fun d => row.description != some d
  weight := differs u.weight row.weight
  reclaimable := differs u.reclaimable row.reclaimable
  capability := differs u.capability row.capability

/-- The queue on the cluster has to change too. -/
def affectsCluster (c : Changeset) : Bool :=
  c.weight || c.reclaimable || c.capability

def isEmpty (c : Changeset) : Bool :=
  !c.description && !c.affectsCluster

end Changeset

/-- The row with the given members written at a time. -/
def QueueRow.update (row : QueueRow) (u : QueueUpdate) (now : Instant) : QueueRow :=
  { row with
    description := u.description.or row.description
    weight := u.weight.getD row.weight
    reclaimable := u.reclaimable.getD row.reclaimable
    capability := u.capability.getD row.capability
    updatedAt := now }

/-- The row with a state that it is given at a time. -/
def QueueRow.withState (row : QueueRow) (state : QueueState) (now : Instant) : QueueRow :=
  { row with state := state, updatedAt := now }

/-- What queues are managed with. -/
structure QueueSettings where
  /-- The cluster that never receives queues. -/
  localCluster : String
  defaultGpuType : String
  /-- The GPU resources on offer. -/
  gpuTypes : List String
deriving DecidableEq, Repr

def QueueSettings.ofSettings (s : Settings) : QueueSettings :=
  ⟨s.localTestClusterCode, s.defaultGpuType, s.gpuTypeList⟩

/-- The queue object of a row. -/
def QueueRow.manifest (row : QueueRow) (s : QueueSettings) : GangQueue :=
  .build row.name row.weight row.reclaimable (row.capability.toResources s.defaultGpuType)

/-- The row's cluster never receives queues. -/
def QueueRow.isLocal (row : QueueRow) (s : QueueSettings) : Bool :=
  row.cluster == s.localCluster

/-! ## On the wire -/

def NewQueue.names : List String :=
  ["name", "projectCode", "description", "cluster", "weight", "reclaimable", "capability"]

def NewQueue.decode : Decoder NewQueue := fun w => do
  let ms ← Decode.members true NewQueue.names w
  some {
    name := ← ms.withDefault "name" "" Decode.text
    projectCode := ← ms.optional "projectCode" Decode.int64
    description := ← ms.optional "description" Decode.text
    cluster := ← ms.withDefault "cluster" "" Decode.text
    weight := ← ms.optional "weight" Decode.nat32
    reclaimable := ← ms.optional "reclaimable" Decode.bool
    capability := ← ms.withDefault "capability" .unlimited Capability.decode }

def QueueUpdate.decode : Decoder QueueUpdate := fun w => do
  let ms ← Decode.members true ["name", "description", "weight", "reclaimable", "capability"] w
  some {
    name := ← ms.optional "name" Decode.text
    description := ← ms.optional "description" Decode.text
    weight := ← ms.optional "weight" Decode.nat32
    reclaimable := ← ms.optional "reclaimable" Decode.bool
    capability := ← ms.optional "capability" Capability.decode }

def QueueRow.names : List String :=
  ["id", "name", "projectCode", "description", "cluster", "weight", "reclaimable", "capability",
    "state"]

/-- A row whose times are given beside its other members. -/
def QueueRow.decode (createdAt updatedAt : Instant) : Decoder QueueRow := fun w => do
  let ms ← Decode.members false QueueRow.names w
  some {
    id := ← ms.required "id" Decode.int64
    name := ← ms.required "name" Decode.text
    projectCode := ← ms.optional "projectCode" Decode.int64
    description := ← ms.optional "description" Decode.text
    cluster := ← ms.required "cluster" Decode.text
    weight := ← ms.required "weight" Decode.nat32
    reclaimable := ← ms.required "reclaimable" Decode.bool
    capability := ← ms.required "capability" Capability.decode
    state := ← ms.required "state" (Decode.oneOf QueueState.ofName?)
    createdAt := createdAt
    updatedAt := updatedAt }

/-- The members of the object, in the order in which readers see them. -/
def QueueRow.entries (q : QueueRow) (capability : Json.Value) : List (String × Json.Value) := [
  ("id", .int q.id),
  ("name", .str q.name),
  ("projectCode", .orNull .int q.projectCode),
  ("description", .orNull .str q.description),
  ("cluster", .str q.cluster),
  ("weight", .int q.weight),
  ("reclaimable", .bool q.reclaimable),
  ("capability", capability),
  ("state", .str q.state.name),
  ("createdAt", .str q.createdAt.text),
  ("updatedAt", .str q.updatedAt.text)]

def QueueRow.toJson (q : QueueRow) : Json.Value :=
  .object (q.entries q.capability.toJson)

/-- The row as readers see it. -/
def QueueRow.ordered (q : QueueRow) : Json.Value :=
  .obj (q.entries (.obj q.capability.entries))

end ClusterJobs
