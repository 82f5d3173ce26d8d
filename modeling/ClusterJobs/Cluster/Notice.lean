import ClusterJobs.Cluster.Call
import ClusterJobs.Cluster.Object
import ClusterJobs.Web.Exchange

/-!
# Notices

What a watch over a collection reports: first a listing of what is there, with its beginning and its
end, and then every change. The objects of a listing count like changed ones, because a job that ended
before its watch began shows its end nowhere else.
-/

namespace ClusterJobs

open Json (Value)

/-- What a watch over a collection reports. -/
inductive Notice where
  /-- A listing begins. -/
  | began
  | listed (object : ClusterObject)
  /-- The listing is complete. -/
  | ended
  | changed (object : ClusterObject)
  | removed (object : ClusterObject)
  | broken (message : String)

/-- What a notice says about the object that is waited for. -/
def Notice.event? : Notice → Option WatchEvent
  | .listed o | .changed o => some (.applied o.toJson)
  | .removed _ => some .deleted
  | .broken message => some (.failed message)
  | .began | .ended => none

/-! ## Lines -/

/-- What one line of a watch says. -/
inductive WatchLine where
  | changed (object : ClusterObject)
  | removed (object : ClusterObject)
  /-- The watch has come up to a version. -/
  | bookmark (version : String)
  | refused (refusal : Web.Refusal)

namespace WatchLine

/-- Reads the version of a bookmark. -/
def bookmarkVersion? (v : Value) : Option String := do
  let ms ← Decode.record (.ofJson v)
  let _ ← ms.required "apiVersion" Decode.text
  let _ ← ms.required "kind" Decode.text
  let metadata ← ms.required "metadata"
    (Decode.members false ["resourceVersion", "annotations"])
  let _ ← metadata.withDefault "annotations" [] (Decode.table Decode.text)
  metadata.required "resourceVersion" Decode.text

/-- Reads a line from its type and its object. -/
def ofParts? (type : String) (object : Value) : Option WatchLine :=
  match type with
  | "ADDED" | "MODIFIED" => (ClusterObject.ofJson? object).map .changed
  | "DELETED" => (ClusterObject.ofJson? object).map .removed
  | "BOOKMARK" => (bookmarkVersion? object).map .bookmark
  | "ERROR" => (Web.Refusal.decode (.ofJson object)).map .refused
  | _ => none

/-- Reads a line. -/
def ofJson? : Value → Option WatchLine
  | .obj ms => do
    let type ← (Fields.get? ms "type").bind Value.asString?
    ofParts? type (← Fields.get? ms "object")
  | .arr [.str type, object] => ofParts? type object
  | _ => none

end WatchLine

/-! ## Bodies -/

/-- The brackets that a text leaves open, and whether it ends inside a quoted text. -/
def openAtEnd : Nat → Bool → List Char → Nat × Bool
  | depth, quoted, [] => (depth, quoted)
  | depth, true, '\\' :: _ :: cs => openAtEnd depth true cs
  | depth, true, c :: cs => openAtEnd depth (c != '"') cs
  | depth, false, c :: cs =>
    if c == '"' then openAtEnd depth true cs
    else if c == '[' || c == '\x7b' then openAtEnd (depth + 1) false cs
    else if c == ']' || c == '\x7d' then openAtEnd (depth - 1) false cs
    else openAtEnd depth false cs

/-- The text is blank or breaks off inside a value, as the last line of a cut connection does. -/
def isCutOff (cs : List Char) : Bool :=
  let (depth, quoted) := openAtEnd 0 false cs
  (Json.skipSpace cs).isEmpty || depth > 0 || quoted

end ClusterJobs
