import ClusterJobs.Cluster.Call

/-!
# Scripted clusters

A script says how a cluster answers the calls about one object: the first answers one by one, and after
them what follows from whether the object exists. Tasks are rehearsed against such scripts.
-/

namespace ClusterJobs.Simulation

/-- A failure that a script calls for. -/
structure ScriptFault where
  kind : String
  message : String
deriving DecidableEq, Repr

/-- The fault that a call to a target fails with. -/
def ScriptFault.toFault (f : ScriptFault) (target : Target) : Fault :=
  if f.kind == "validation" then .validation f.message
  else if f.kind == "config" then .config f.message
  else .cluster target.display f.message

/-- How a cluster answers the calls about one object. -/
structure JobScript where
  /-- The object exists before the first call. -/
  present : Bool
  /-- The answers to the first looks. -/
  looks : List (Except ScriptFault Bool)
  /-- The failures of the first creations; nothing is a success. -/
  creations : List (Option ScriptFault)
  /-- The failures of the first deletions; nothing is a success. -/
  deletions : List (Option ScriptFault)
  watch : Except ScriptFault (TimedStream WatchEvent)
  /-- What the attempts to open the log yield. The last entry repeats. -/
  log : List (Except ScriptFault (TimedStream LogItem))
  tail : Except ScriptFault String

/-- Nothing exists, nothing fails, and streams end at once. -/
def JobScript.quiet : JobScript :=
  ⟨false, [], [], [], .ok ⟨[], some 0⟩, [], .ok ""⟩

/-- Scripts of objects by name. -/
structure WorldScript where
  jobs : Fields JobScript
  /-- Clusters that cannot be reached. -/
  unreachable : Fields ScriptFault
  /-- Why the results of fan-outs cannot be posted. -/
  publishFault : Option String

def WorldScript.quiet : WorldScript := ⟨[], [], none⟩

/-- The script of an object: its own, else the one for every other name. -/
def WorldScript.jobScript (w : WorldScript) (name : String) : JobScript :=
  ((w.jobs.get? name).or (w.jobs.get? "*")).getD .quiet

/-! ## Decoding -/

def ScriptFault.decode : Decoder ScriptFault := fun w => do
  let ms ← Decode.members false ["kind", "message"] w
  some ⟨← ms.required "kind" Decode.text, ← ms.required "message" Decode.text⟩

/-- An optional member that is empty or missing. -/
def orElse {α : Type} (ms : Members) (name : String) (fallback : α) (d : Decoder α) : Option α :=
  (ms.optional name d).map fun a => a.getD fallback

/-- A truth value or a failure. -/
def decodeLook : Decoder (Except ScriptFault Bool)
  | .bool b => some (.ok b)
  | w => (ScriptFault.decode w).map .error

def decodeEvent : Decoder (Nat × WatchEvent) := fun w => do
  let ms ← Decode.members true ["afterMs", "applied", "deleted", "error"] w
  let after ← orElse ms "afterMs" 0 Decode.nat64
  let error ← ms.optional "error" Decode.text
  let applied ← ms.optional "applied" Decode.json
  some (after, match error, applied with
    | some message, _ => .failed message
    | none, some object => .applied object
    | none, none => .deleted)

def decodeWatch : Decoder (Except ScriptFault (TimedStream WatchEvent)) := fun w => do
  let ms ← Decode.members true ["fail", "events", "hang"] w
  let fault ← ms.optional "fail" ScriptFault.decode
  let events ← orElse ms "events" [] (Decode.list decodeEvent)
  let hangs ← orElse ms "hang" false Decode.bool
  some (match fault with
    | some f => .error f
    | none => .ok ⟨events, if hangs then none else some 0⟩)

def decodeLine : Decoder (Nat × LogItem) := fun w => do
  let ms ← Decode.members true ["afterMs", "text", "error"] w
  let after ← orElse ms "afterMs" 0 Decode.nat64
  let error ← ms.optional "error" Decode.text
  let text ← orElse ms "text" "" Decode.text
  some (after, match error with
    | some _ => .broken
    | none => .line text)

def decodeAttempt : Decoder (Except ScriptFault (TimedStream LogItem)) := fun w => do
  let ms ← Decode.members true ["fail", "lines", "hang"] w
  let fault ← ms.optional "fail" ScriptFault.decode
  let lines ← orElse ms "lines" [] (Decode.list decodeLine)
  let hangs ← orElse ms "hang" false Decode.bool
  some (match fault with
    | some f => .error f
    | none => .ok ⟨lines, if hangs then none else some 0⟩)

def JobScript.names : List String :=
  ["present", "exists", "create", "delete", "watch", "log", "tail", "tailFail"]

def JobScript.decode : Decoder JobScript := fun w => do
  let ms ← Decode.members true JobScript.names w
  let tail ← orElse ms "tail" "" Decode.text
  let tailFault ← ms.optional "tailFail" ScriptFault.decode
  some {
    present := ← orElse ms "present" false Decode.bool
    looks := ← orElse ms "exists" [] (Decode.list decodeLook)
    creations := ← orElse ms "create" [] (Decode.list (Decode.optional ScriptFault.decode))
    deletions := ← orElse ms "delete" [] (Decode.list (Decode.optional ScriptFault.decode))
    watch := ← orElse ms "watch" JobScript.quiet.watch decodeWatch
    log := ← orElse ms "log" [] (Decode.list decodeAttempt)
    tail := match tailFault with
      | some f => .error f
      | none => .ok tail }

def WorldScript.decode : Decoder WorldScript := fun w => do
  let ms ← Decode.members true ["jobs", "apiFail", "publishFail"] w
  some {
    jobs := ← orElse ms "jobs" [] (Decode.table JobScript.decode)
    unreachable := ← orElse ms "apiFail" [] (Decode.table ScriptFault.decode)
    publishFault := ← ms.optional "publishFail" Decode.text }

end ClusterJobs.Simulation
