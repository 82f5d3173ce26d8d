import ClusterJobs.Fault
import ClusterJobs.Text.Blank
import ClusterJobs.Wire.Yaml

/-!
# Settings

Settings come from an optional file, are overridden by environment variables, and are then checked.
-/

namespace ClusterJobs

/-- What a fan-out reports when some of its items fail. -/
inductive FanOutPolicy where
  /-- Success once every item was launched. -/
  | alwaysSucceed
  /-- Failure if an item ended in anything but success. -/
  | failOnAnyFailure
deriving DecidableEq, Repr

/-- The name of a policy in files. -/
def FanOutPolicy.wireName : FanOutPolicy → String
  | .alwaysSucceed => "alwaysSucceed"
  | .failOnAnyFailure => "failOnAnyFailure"

/-- The policy with this name in a file. -/
def FanOutPolicy.ofWireName? (s : String) : Option FanOutPolicy :=
  if s == "alwaysSucceed" then some .alwaysSucceed
  else if s == "failOnAnyFailure" then some .failOnAnyFailure
  else none

/-- Reads a policy by either of its two spellings. -/
def FanOutPolicy.parse (s : String) : Except Fault FanOutPolicy :=
  if s == "alwaysSucceed" || s == "always-succeed" then .ok .alwaysSucceed
  else if s == "failOnAnyFailure" || s == "fail-on-any-failure" then .ok .failOnAnyFailure
  else .error (.config ("unknown fan-out policy '" ++ s ++ "'"))

/-- Where the results of a fan-out are posted. -/
structure Callback where
  address : Option String
  token : Option String
deriving DecidableEq, Repr

/-- The settings of the engine and of the queues. -/
structure Settings where
  /-- Tasks go through queues, and queued tasks are recorded. -/
  queueEnabled : Bool
  /-- The cluster that never receives queues. -/
  localTestClusterCode : String
  /-- The image that fetches data before a task starts. -/
  fetchImage : String
  /-- The pull secret of queue-admitted jobs. -/
  imagePullSecret : String
  /-- The GPU resource of a request that names none. -/
  defaultGpuType : String
  /-- The GPU resources offered to queues, separated by commas. -/
  gpuTypes : String
  /-- Lines of log attached to a failure. -/
  logTailLines : Int
  /-- Items of a fan-out that run at a time. -/
  fanOutConcurrency : Nat
  fanOutPolicy : FanOutPolicy
  batchCallback : Callback
  /-- The credential file of each cluster. -/
  kubeconfigs : Fields String
  /-- A directory of templates that replace the built-in ones. -/
  templateDir : Option String
  apiVersionOverrides : Fields String
  connectTimeoutSecs : Nat
  readTimeoutSecs : Nat
deriving DecidableEq, Repr

namespace Settings

/-- The settings without a file or variables. -/
def standard : Settings where
  queueEnabled := false
  localTestClusterCode := "local-test"
  fetchImage := "kubetask/fetch:latest"
  imagePullSecret := "registry-harbor"
  defaultGpuType := "nvidia.com/gpu"
  gpuTypes := "nvidia.com/gpu"
  logTailLines := 500
  fanOutConcurrency := 5
  fanOutPolicy := .alwaysSucceed
  batchCallback := ⟨none, none⟩
  kubeconfigs := []
  templateDir := none
  apiVersionOverrides := []
  connectTimeoutSecs := 5
  readTimeoutSecs := 30

/-! ## Files -/

def decodeCallback : Decoder Callback := fun w => do
  let ms ← Decode.members true ["address", "token"] w
  some ⟨← ms.optional "address" Decode.text, ← ms.optional "token" Decode.text⟩

/-- The names of the settings in a file, in order. -/
def names : List String :=
  ["queueEnabled", "localTestClusterCode", "fetchImage", "imagePullSecret", "defaultGpuType",
    "gpuTypes", "logTailLines", "fanOutConcurrency", "fanOutPolicy", "batchCallback", "kubeconfigs",
    "templateDir", "apiVersionOverrides", "connectTimeoutSecs", "readTimeoutSecs"]

/-- Settings from a file; a missing one has its standard value. -/
def decode : Decoder Settings := fun w => do
  let ms ← Decode.members true names w
  let s := standard
  some {
    queueEnabled := ← ms.withDefault "queueEnabled" s.queueEnabled Decode.bool
    localTestClusterCode :=
      ← ms.withDefault "localTestClusterCode" s.localTestClusterCode Decode.text
    fetchImage := ← ms.withDefault "fetchImage" s.fetchImage Decode.text
    imagePullSecret := ← ms.withDefault "imagePullSecret" s.imagePullSecret Decode.text
    defaultGpuType := ← ms.withDefault "defaultGpuType" s.defaultGpuType Decode.text
    gpuTypes := ← ms.withDefault "gpuTypes" s.gpuTypes Decode.text
    logTailLines := ← ms.withDefault "logTailLines" s.logTailLines Decode.int64
    fanOutConcurrency := ← ms.withDefault "fanOutConcurrency" s.fanOutConcurrency Decode.nat64
    fanOutPolicy :=
      ← ms.withDefault "fanOutPolicy" s.fanOutPolicy (Decode.oneOf FanOutPolicy.ofWireName?)
    batchCallback := ← ms.withDefault "batchCallback" s.batchCallback decodeCallback
    kubeconfigs := ← ms.withDefault "kubeconfigs" s.kubeconfigs (Decode.table Decode.text)
    templateDir := ← ms.optional "templateDir" Decode.text
    apiVersionOverrides :=
      ← ms.withDefault "apiVersionOverrides" s.apiVersionOverrides (Decode.table Decode.text)
    connectTimeoutSecs := ← ms.withDefault "connectTimeoutSecs" s.connectTimeoutSecs Decode.nat64
    readTimeoutSecs := ← ms.withDefault "readTimeoutSecs" s.readTimeoutSecs Decode.nat64 }

/-- The settings as JSON, every one present. -/
def toJson (s : Settings) : Json.Value :=
  .object [
    ("queueEnabled", .bool s.queueEnabled),
    ("localTestClusterCode", .str s.localTestClusterCode),
    ("fetchImage", .str s.fetchImage),
    ("imagePullSecret", .str s.imagePullSecret),
    ("defaultGpuType", .str s.defaultGpuType),
    ("gpuTypes", .str s.gpuTypes),
    ("logTailLines", .int s.logTailLines),
    ("fanOutConcurrency", .int s.fanOutConcurrency),
    ("fanOutPolicy", .str s.fanOutPolicy.wireName),
    ("batchCallback", .object [
      ("address", .orNull .str s.batchCallback.address),
      ("token", .orNull .str s.batchCallback.token)]),
    ("kubeconfigs", .texts s.kubeconfigs),
    ("templateDir", .orNull .str s.templateDir),
    ("apiVersionOverrides", .texts s.apiVersionOverrides),
    ("connectTimeoutSecs", .int s.connectTimeoutSecs),
    ("readTimeoutSecs", .int s.readTimeoutSecs)]

/-- Settings from the text of a file. A blank file holds none. -/
def ofText (text : String) : Except Fault Settings :=
  if Text.isBlankText text then .ok standard
  else
    match (Wire.ofYaml? text).bind decode with
    | some s => .ok s
    | none => .error (.config "invalid config: not a settings document")

/-! ## Environment variables -/

/-- The environment: the value of each variable that is set. -/
abbrev Environment := Fields String

/-- The variable of a setting. -/
def variableName (name : String) : String :=
  "KUBETASK_" ++ name

/-- The fault of a variable whose value cannot be read. -/
def invalidVariable (name value : String) : Fault :=
  .config ("invalid value '" ++ value ++ "' for " ++ variableName name)

/-- Reads a truth value, spelled as in files. -/
def readBool? (s : String) : Option Bool :=
  if s == "true" then some true else if s == "false" then some false else none

/-- Reads a variable that is set, with blanks around its value. -/
def readVariable {α : Type} (name : String) (read : String → Option α) (value : String) :
    Except Fault α :=
  match read (Text.trim value) with
  | some a => .ok a
  | none => .error (invalidVariable name value)

/-- A setting that a variable overrides: its variable and what its value does. -/
structure Override where
  name : String
  apply : String → Settings → Except Fault Settings

/-- The overrides in the order in which they are applied. -/
def overrides : List Override := [
  ⟨"QUEUE_ENABLED", fun v s => do
    let b ← readVariable "QUEUE_ENABLED" readBool? v
    .ok { s with queueEnabled := b }⟩,
  ⟨"LOCAL_TEST_CLUSTER_CODE", fun v s => .ok { s with localTestClusterCode := v }⟩,
  ⟨"FETCH_IMAGE", fun v s => .ok { s with fetchImage := v }⟩,
  ⟨"IMAGE_PULL_SECRET", fun v s => .ok { s with imagePullSecret := v }⟩,
  ⟨"DEFAULT_GPU_TYPE", fun v s => .ok { s with defaultGpuType := v }⟩,
  ⟨"GPU_TYPES", fun v s => .ok { s with gpuTypes := v }⟩,
  ⟨"LOG_TAIL_LINES", fun v s => do
    let n ← readVariable "LOG_TAIL_LINES" (fun t => Decimal.WordRange.int64.read? 10 t.toList) v
    .ok { s with logTailLines := n }⟩,
  ⟨"FAN_OUT_CONCURRENCY", fun v s => do
    let n ← readVariable "FAN_OUT_CONCURRENCY"
      (fun t => Decimal.WordRange.uint64.read? 10 t.toList) v
    .ok { s with fanOutConcurrency := n.toNat }⟩,
  ⟨"FAN_OUT_POLICY", fun v s => do
    let p ← FanOutPolicy.parse v
    .ok { s with fanOutPolicy := p }⟩,
  ⟨"BATCH_CALLBACK_ADDRESS", fun v s =>
    .ok { s with batchCallback := { s.batchCallback with address := some v } }⟩,
  ⟨"BATCH_CALLBACK_TOKEN", fun v s =>
    .ok { s with batchCallback := { s.batchCallback with token := some v } }⟩,
  ⟨"TEMPLATE_DIR", fun v s => .ok { s with templateDir := some v }⟩]

/-- Applies the overrides whose variables are set. -/
def applyOverrides (env : Environment) : List Override → Settings → Except Fault Settings
  | [], s => .ok s
  | o :: rest, s =>
    match env.get? (variableName o.name) with
    | none => applyOverrides env rest s
    | some v =>
      match o.apply v s with
      | .ok s => applyOverrides env rest s
      | .error e => .error e

/-- At least one item runs at a time, and at least one line of log is kept. -/
def check (s : Settings) : Except Fault Unit :=
  if s.fanOutConcurrency = 0 then .error (.config "fanOutConcurrency must be at least 1")
  else if s.logTailLines ≤ 0 then .error (.config "logTailLines must be positive")
  else .ok ()

/-- Settings from the text of a file, if there is one, and the environment. -/
def load (file : Option String) (env : Environment) : Except Fault Settings := do
  let s ← match file with
    | some text => ofText text
    | none => .ok standard
  let s ← applyOverrides env overrides s
  s.check
  .ok s

/-- The GPU resources offered to queues. -/
def gpuTypeList (s : Settings) : List String :=
  ((Text.splitOnChar (· == ',') s.gpuTypes.toList).map Text.trimChars).filterMap fun cs =>
    if cs.isEmpty then none else some (String.ofList cs)

end Settings

end ClusterJobs
