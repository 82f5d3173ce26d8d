import ClusterJobs.Fields
import ClusterJobs.Quantity
import ClusterJobs.Queue.Fault
import ClusterJobs.Wire.Decode

/-!
# Capabilities

The most that the tasks of a queue may use together, in each dimension that is limited.
-/

namespace ClusterJobs

/-- The ceiling of a queue. Memory is in Gi. -/
structure Capability where
  cpu : Option Float
  memory : Option Float
  gpu : Option Float
  gpuType : Option String
deriving BEq

namespace Capability

/-- No limit in any dimension. -/
def unlimited : Capability := ⟨none, none, none, none⟩

/-- A dimension that is limited is limited to an amount. -/
def checkAmount (field : String) : Option Float → Except QueueFault Unit
  | some x => if isAmount x then .ok () else .error (.invalidCapability (amountMessage field x))
  | none => .ok ()

def check (c : Capability) : Except QueueFault Unit := do
  checkAmount "cpu" c.cpu
  checkAmount "memory" c.memory
  checkAmount "gpu" c.gpu

/-- The resource under which GPUs of a type are counted in a queue: the default one if the type is
missing or empty. -/
def gpuKey (gpuType : Option String) (defaultType : String) : String :=
  (gpuType.filter fun t => !t.isEmpty).getD defaultType

/-- Adds an entry for a dimension that is limited. -/
def putSome (table : Fields String) (key : String) : Option String → Fields String
  | some text => table.put key text
  | none => table

/-- The ceiling as a table of resources. -/
def toResources (c : Capability) (defaultGpuType : String) : Fields String :=
  let cpu := putSome [] "cpu" (c.cpu.map quantity)
  let memory := putSome cpu "memory" (c.memory.map fun m => quantity m ++ "Gi")
  putSome memory (gpuKey c.gpuType defaultGpuType) ((positiveGpu? c.gpu).map quantity)

def decode : Decoder Capability := fun w => do
  let ms ← Decode.members true ["cpu", "memory", "gpu", "gpuType"] w
  some {
    cpu := ← ms.optional "cpu" Decode.float
    memory := ← ms.optional "memory" Decode.float
    gpu := ← ms.optional "gpu" Decode.float
    gpuType := ← ms.optional "gpuType" Decode.text }

/-- The members of the object, in the order in which readers see them. -/
def entries (c : Capability) : List (String × Json.Value) := [
  ("cpu", .orNull .float c.cpu),
  ("memory", .orNull .float c.memory),
  ("gpu", .orNull .float c.gpu),
  ("gpuType", .orNull .str c.gpuType)]

def toJson (c : Capability) : Json.Value :=
  .object c.entries

end Capability

end ClusterJobs
