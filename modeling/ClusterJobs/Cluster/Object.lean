import ClusterJobs.Cluster.Timestamp
import ClusterJobs.Wire.Decode

/-!
# Objects on a cluster

An object as a cluster's interface exchanges it: a type, metadata with known members, and anything
else. Reading keeps all else as it is, and of the metadata only the members that are known.
-/

namespace ClusterJobs

open Json (Value)

namespace Decode

/-- The members of a record that is written as a map. -/
def record : Decoder Members
  | .map pairs => some (namedMembers pairs)
  | _ => none

/-- A moment. -/
def timestamp : Decoder Timestamp := fun w => (text w).bind Timestamp.read?

end Decode

/-- An object that another one belongs to. -/
structure Owner where
  apiVersion : String
  kind : String
  name : String
  uid : String
  controller : Option Bool
  blockOwnerDeletion : Option Bool
deriving DecidableEq, Repr

/-- What one manager wrote of an object. -/
structure ManagedPart where
  apiVersion : Option String
  fieldsType : Option String
  fields : Option Value
  manager : Option String
  operation : Option String
  subresource : Option String
  time : Option Timestamp

/-- The metadata of an object. -/
structure ObjectMeta where
  annotations : Option (Fields String)
  creationTimestamp : Option Timestamp
  deletionGracePeriodSeconds : Option Int
  deletionTimestamp : Option Timestamp
  finalizers : Option (List String)
  generateName : Option String
  generation : Option Int
  labels : Option (Fields String)
  managedFields : Option (List ManagedPart)
  name : Option String
  nameSpace : Option String
  owners : Option (List Owner)
  resourceVersion : Option String
  selfLink : Option String
  uid : Option String

/-- Metadata that says nothing. -/
def ObjectMeta.empty : ObjectMeta :=
  ⟨none, none, none, none, none, none, none, none, none, none, none, none, none, none, none⟩

/-- An object: its API version and kind, its metadata and its other members. -/
structure ClusterObject where
  type : Option (String × String)
  metadata : ObjectMeta
  others : Fields Value

/-! ## Reading -/

/-- A member that may be missing or null is empty then. -/
def textOrEmpty (ms : Members) (name : String) : Option String :=
  (ms.optional name Decode.text).map fun s => s.getD ""

def Owner.decode : Decoder Owner := fun w => do
  let ms ← Decode.record w
  some {
    apiVersion := ← textOrEmpty ms "apiVersion"
    kind := ← textOrEmpty ms "kind"
    name := ← textOrEmpty ms "name"
    uid := ← textOrEmpty ms "uid"
    controller := ← ms.optional "controller" Decode.bool
    blockOwnerDeletion := ← ms.optional "blockOwnerDeletion" Decode.bool }

def ManagedPart.decode : Decoder ManagedPart := fun w => do
  let ms ← Decode.record w
  some {
    apiVersion := ← ms.optional "apiVersion" Decode.text
    fieldsType := ← ms.optional "fieldsType" Decode.text
    fields := ← ms.optional "fieldsV1" Decode.json
    manager := ← ms.optional "manager" Decode.text
    operation := ← ms.optional "operation" Decode.text
    subresource := ← ms.optional "subresource" Decode.text
    time := ← ms.optional "time" Decode.timestamp }

def ObjectMeta.decode : Decoder ObjectMeta := fun w => do
  let ms ← Decode.record w
  some {
    annotations := ← ms.optional "annotations" (Decode.table Decode.text)
    creationTimestamp := ← ms.optional "creationTimestamp" Decode.timestamp
    deletionGracePeriodSeconds := ← ms.optional "deletionGracePeriodSeconds" Decode.int64
    deletionTimestamp := ← ms.optional "deletionTimestamp" Decode.timestamp
    finalizers := ← ms.optional "finalizers" (Decode.list Decode.text)
    generateName := ← ms.optional "generateName" Decode.text
    generation := ← ms.optional "generation" Decode.int64
    labels := ← ms.optional "labels" (Decode.table Decode.text)
    managedFields := ← ms.optional "managedFields" (Decode.list ManagedPart.decode)
    name := ← ms.optional "name" Decode.text
    nameSpace := ← ms.optional "namespace" Decode.text
    owners := ← ms.optional "ownerReferences" (Decode.list Owner.decode)
    resourceVersion := ← ms.optional "resourceVersion" Decode.text
    selfLink := ← ms.optional "selfLink" Decode.text
    uid := ← ms.optional "uid" Decode.text }

namespace ClusterObject

/-- Takes the type out of the members of an object. A type of which a part is missing or is no text is
dropped, up to the part where that shows. -/
def takeType (ms : Fields Value) : Option (String × String) × Fields Value :=
  let untyped := (ms.remove "apiVersion").remove "kind"
  match ms.get? "apiVersion", ms.get? "kind" with
  | some (.str apiVersion), some (.str kind) => (some (apiVersion, kind), untyped)
  | some (.str _), _ => (none, untyped)
  | none, _ => (none, untyped)
  | some _, _ => (none, ms.remove "apiVersion")

/-- Reads an object; missing metadata are empty. -/
def ofJson? : Value → Option ClusterObject
  | .obj ms => do
    let metadata ← match Fields.get? ms "metadata" with
      | none => some .empty
      | some v => ObjectMeta.decode (.ofJson v)
    let (type, others) := takeType (Fields.remove ms "metadata")
    some ⟨type, metadata, others⟩
  | _ => none

end ClusterObject

/-! ## Writing -/

def Owner.toJson (o : Owner) : Value :=
  .objectSome [
    ("apiVersion", some (.str o.apiVersion)),
    ("blockOwnerDeletion", o.blockOwnerDeletion.map .bool),
    ("controller", o.controller.map .bool),
    ("kind", some (.str o.kind)),
    ("name", some (.str o.name)),
    ("uid", some (.str o.uid))]

def Timestamp.toJson (t : Timestamp) : Value := .str t.render

def ManagedPart.toJson (p : ManagedPart) : Value :=
  .objectSome [
    ("apiVersion", p.apiVersion.map .str),
    ("fieldsType", p.fieldsType.map .str),
    ("fieldsV1", p.fields),
    ("manager", p.manager.map .str),
    ("operation", p.operation.map .str),
    ("subresource", p.subresource.map .str),
    ("time", p.time.map Timestamp.toJson)]

def ObjectMeta.toJson (m : ObjectMeta) : Value :=
  .objectSome [
    ("annotations", m.annotations.map Value.texts),
    ("creationTimestamp", m.creationTimestamp.map Timestamp.toJson),
    ("deletionGracePeriodSeconds", m.deletionGracePeriodSeconds.map .int),
    ("deletionTimestamp", m.deletionTimestamp.map Timestamp.toJson),
    ("finalizers", m.finalizers.map Value.strings),
    ("generateName", m.generateName.map .str),
    ("generation", m.generation.map .int),
    ("labels", m.labels.map Value.texts),
    ("managedFields", m.managedFields.map fun ps => .arr (ps.map ManagedPart.toJson)),
    ("name", m.name.map .str),
    ("namespace", m.nameSpace.map .str),
    ("ownerReferences", m.owners.map fun os => .arr (os.map Owner.toJson)),
    ("resourceVersion", m.resourceVersion.map .str),
    ("selfLink", m.selfLink.map .str),
    ("uid", m.uid.map .str)]

/-- An object as JSON. -/
def ClusterObject.toJson (o : ClusterObject) : Value :=
  let type := match o.type with
    | some (apiVersion, kind) => [("apiVersion", .str apiVersion), ("kind", .str kind)]
    | none => []
  .object (o.others ++ type ++ [("metadata", o.metadata.toJson)])

/-- The version of the object, which is empty if the cluster did not state one. -/
def ClusterObject.version (o : ClusterObject) : String :=
  o.metadata.resourceVersion.getD ""

end ClusterJobs
