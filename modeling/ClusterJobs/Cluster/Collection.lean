import ClusterJobs.Catalog
import ClusterJobs.Cluster.Object
import ClusterJobs.Web.Exchange

/-!
# Collections of objects

The objects of one kind, in one namespace or in a whole cluster, are a collection with a path of its
own. What can be done with an object is a request on that path. An object that is not there is no fault
where something is looked up or deleted.
-/

namespace ClusterJobs

open Json (Value)
open Web

/-- The objects of a kind. -/
structure Collection where
  resource : Coordinates
  /-- Objects that belong to no namespace have none. -/
  nameSpace : Option String
deriving DecidableEq, Repr

/-- A page of a collection. -/
structure Listing (α : Type) where
  items : List α
  /-- The version of the collection. -/
  version : Option String
  /-- What to ask for the next page with. -/
  more : Option String

/-! ## Replies -/

/-- Reads a page; items that are null are none. -/
def Listing.ofJson? {α : Type} (item : Value → Option α) : Value → Option (Listing α)
  | .obj ms => do
    let metadata : Members ← match Fields.get? ms "metadata" with
      | none => some []
      | some v => Decode.record (.ofJson v)
    let version ← metadata.optional "resourceVersion" Decode.text
    let more ← metadata.optional "continue" Decode.text
    let _ ← metadata.optional "remainingItemCount" Decode.int64
    let _ ← metadata.optional "selfLink" Decode.text
    match Fields.get? ms "items" with
    | some .null => some ⟨[], version, more⟩
    | some (.arr vs) => (vs.mapM item).map fun items => ⟨items, version, more⟩
    | _ => none
  | _ => none

/-- Whether a word is one of those that sum a status up. -/
def ofStatusWord? (s : String) : Option Unit :=
  if s == "Success" || s == "Failure" then some () else none

/-- A reason among the details of a status. -/
def decodeCause : Decoder Unit := fun w => do
  let ms ← Decode.members true ["reason", "message", "field"] w
  let _ ← ms.withDefault "reason" "" Decode.text
  let _ ← ms.withDefault "message" "" Decode.text
  let _ ← ms.withDefault "field" "" Decode.text
  some ()

/-- The details of a status. -/
def decodeStatusDetails : Decoder Unit := fun w => do
  let ms ← Decode.members true ["name", "group", "kind", "uid", "causes", "retryAfterSeconds"] w
  let _ ← ms.withDefault "name" "" Decode.text
  let _ ← ms.withDefault "group" "" Decode.text
  let _ ← ms.withDefault "kind" "" Decode.text
  let _ ← ms.withDefault "uid" "" Decode.text
  let _ ← ms.withDefault "causes" [] (Decode.list decodeCause)
  let _ ← ms.withDefault "retryAfterSeconds" 0 Decode.nat32
  some ()

/-- The status of an action that leaves no object to show. -/
def decodeStatus : Decoder Unit := fun w => do
  let ms ← Decode.members true ["status", "code", "message", "reason", "details"] w
  let _ ← ms.optional "status" (Decode.oneOf ofStatusWord?)
  let _ ← ms.withDefault "code" 0 Decode.nat16
  let _ ← ms.withDefault "message" "" Decode.text
  let _ ← ms.withDefault "reason" "" Decode.text
  let _ ← ms.optional "details" decodeStatusDetails
  some ()

/-- The answer to a deletion: a status, or the object that goes. -/
def readDeletion? (v : Value) : Option Unit :=
  if (v.get? "kind").bind Value.asString? == some "Status" then decodeStatus (.ofJson v)
  else (ClusterObject.ofJson? v).map fun _ => ()

/-! ## Requests -/

namespace Collection

/-- The path of the collection. -/
def path (c : Collection) : String :=
  let root := if c.resource.group.isEmpty then "/api/" else "/apis/"
  let space := match c.nameSpace with
    | some n => "namespaces/" ++ n ++ "/"
    | none => ""
  root ++ c.resource.apiVersion ++ "/" ++ space ++ c.resource.plural

/-- The object of a name, if there is one. -/
def find? (c : Collection) (name : String) :
    ExchangeProgram (Except Fault (Option ClusterObject)) := do
  match ← exchangeFor ClusterObject.ofJson? (Web.Request.named .get c.path name "" none none) with
  | .ok object => return .ok (some object)
  | .error (.refused r) =>
    return if r.reason == "NotFound" then .ok none else .error (ExchangeFault.refused r).toFault
  | .error e => return .error e.toFault

/-- Whether there is an object of a name. -/
def has (c : Collection) (name : String) : ExchangeProgram (Except Fault Bool) := do
  match ← c.find? name with
  | .ok object => return .ok object.isSome
  | .error e => return .error e

/-- Creates an object. -/
def create (c : Collection) (object : Value) : ExchangeProgram (Except Fault Unit) := do
  match ClusterObject.ofJson? object with
  | none => return .error (.serialization "not an object that a cluster can hold")
  | some o =>
    let request := Web.Request.make .post c.path (some []) (some o.toJson)
    match ← exchangeFor ClusterObject.ofJson? request with
    | .ok _ => return .ok ()
    | .error e => return .error e.toFault

/-- Creates an object or takes over the members that it sets. -/
def apply (c : Collection) (name : String) (object : ClusterObject) :
    ExchangeProgram (Except ExchangeFault Unit) := do
  let query := [("force", "true"), ("fieldManager", "kubetask")]
  let request := Web.Request.named .patch c.path name "" (some query) (some object.toJson)
  match ← exchangeFor ClusterObject.ofJson? request with
  | .ok _ => return .ok ()
  | .error e => return .error e

/-- Removes an object, as `options` say. An object that is gone already counts as removed. -/
def remove (c : Collection) (name : String) (options : Value) :
    ExchangeProgram (Except ExchangeFault Unit) := do
  let request := Web.Request.named .delete c.path name "" (some []) (some options)
  match ← exchangeFor readDeletion? request with
  | .ok () => return .ok ()
  | .error e => return if e.code? = some 404 then .ok () else .error e

/-- What an object owns is removed after it. -/
def inBackground : Value :=
  .object [("propagationPolicy", .str "Background")]

/-- Deletes an object, and after it what it owns. -/
def delete (c : Collection) (name : String) : ExchangeProgram (Except Fault Unit) := do
  match ← c.remove name inBackground with
  | .ok () => return .ok ()
  | .error e => return .error e.toFault

/-- A page of the objects that a selection keeps. -/
def list {α : Type} (item : Value → Option α) (c : Collection)
    (selection : List (String × String)) : ExchangeProgram (Except ExchangeFault (Listing α)) :=
  exchangeFor (Listing.ofJson? item) (Web.Request.make .get c.path (some selection) none)

end Collection

end ClusterJobs
