import ClusterJobs.Gang.Job

/-!
# Queues on a cluster

The object that a cluster's gang scheduler knows a queue by, and the state that it reports for one.
-/

namespace ClusterJobs

/-- A queue as a cluster holds it. `deserved` is the share under contention. -/
structure GangQueue where
  apiVersion : String
  kind : String
  name : String
  weight : Nat
  reclaimable : Bool
  capability : Fields String
  deserved : Fields String
deriving DecidableEq, Repr

namespace GangQueue

/-- The queue object of a queue; the ceiling is also the deserved share. -/
def build (name : String) (weight : Nat) (reclaimable : Bool) (capability : Fields String) :
    GangQueue :=
  ⟨"scheduling.volcano.sh/v1beta1", "Queue", name, weight, reclaimable, capability, capability⟩

def decode : Decoder GangQueue := fun w => do
  let ms ← Decode.members false ["apiVersion", "kind", "metadata", "spec"] w
  let apiVersion ← ms.required "apiVersion" Decode.text
  let kind ← ms.required "kind" Decode.text
  let identity ← ms.required "metadata" (Decode.members false ["name"])
  let name ← identity.required "name" Decode.text
  let spec ← ms.required "spec"
    (Decode.members true ["weight", "reclaimable", "capability", "deserved"])
  some {
    apiVersion := apiVersion
    kind := kind
    name := name
    weight := ← spec.required "weight" Decode.nat32
    reclaimable := ← spec.required "reclaimable" Decode.bool
    capability := ← spec.withDefault "capability" [] (Decode.table Decode.text)
    deserved := ← spec.withDefault "deserved" [] (Decode.table Decode.text) }

/-- The members of the object in the order in which a file shows them. -/
def ordered (q : GangQueue) : Json.Value :=
  .obj [
    ("apiVersion", .str q.apiVersion),
    ("kind", .str q.kind),
    ("metadata", .obj [("name", .str q.name)]),
    ("spec", .obj ([
      ("weight", some (.int q.weight)),
      ("reclaimable", some (.bool q.reclaimable)),
      ("capability", unlessEmpty Json.Value.texts q.capability),
      ("deserved", unlessEmpty Json.Value.texts q.deserved)].filterMap
        fun p => p.2.map fun v => (p.1, v)))]

def toJson (q : GangQueue) : Json.Value :=
  .object [
    ("apiVersion", .str q.apiVersion),
    ("kind", .str q.kind),
    ("metadata", .object [("name", .str q.name)]),
    ("spec", .objectSome [
      ("weight", some (.int q.weight)),
      ("reclaimable", some (.bool q.reclaimable)),
      ("capability", unlessEmpty Json.Value.texts q.capability),
      ("deserved", unlessEmpty Json.Value.texts q.deserved)])]

end GangQueue

/-- The state that a cluster reports for a queue. -/
inductive QueueState where
  | opened
  | closed
  | closing
  | unknown
deriving DecidableEq, Repr

namespace QueueState

/-- The name of a state. -/
def name : QueueState → String
  | opened => "Open"
  | closed => "Closed"
  | closing => "Closing"
  | unknown => "Unknown"

/-- The state with exactly this name. -/
def ofName? (s : String) : Option QueueState :=
  [opened, closed, closing, unknown].find? fun q => q.name == s

/-- The state in a queue object; anything but the three known names is unknown. -/
def ofObject (object : Json.Value) : QueueState :=
  match (object.at? ["status", "state"]).bind Json.Value.asString? with
  | some s => (ofName? s).getD .unknown
  | none => .unknown

end QueueState

end ClusterJobs
