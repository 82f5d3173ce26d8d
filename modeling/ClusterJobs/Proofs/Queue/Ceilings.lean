import ClusterJobs.Proofs.Amounts
import ClusterJobs.Proofs.Queue.GpuKeys
import ClusterJobs.Proofs.Queue.Ledger

/-!
# Ceilings on a cluster

The ceiling of a queue becomes a table with an entry for each dimension that is limited. The key of the
GPUs is any text: if it is that of another dimension, that one is lost. Amounts that no signed word of
64 bits can hold are lost too.
-/

namespace ClusterJobs

open Decimal

/-! ## Entries -/

/-- The entry of a dimension: none without a limit, else a text that denotes it in its unit. -/
inductive LimitEntry (unit : String) : Option Float → Option String → Prop where
  | unset : LimitEntry unit none none
  | set {x : Float} {v : Rat} {number : String} : exactValue? x = some v → Denotes number v →
      LimitEntry unit (some x) (some (number ++ unit))

/-- The amount, if there is one, is less than what a signed word of 64 bits can hold. -/
def IsSmall (amount : Option Float) : Prop :=
  ∀ x v, amount = some x → exactValue? x = some v → v < 2 ^ 63

section Entries

variable {amount : Option Float} {x : Float} {unit : String}

theorem isAmount_of_checkAmount {field : String}
    (h : Capability.checkAmount field (some x) = .ok ()) : isAmount x = true := by
  rw [Capability.checkAmount] at h
  split at h
  · assumption
  · cases h

theorem entry_quantity_iff (h : ∀ x, amount = some x → isAmount x = true) :
    LimitEntry unit amount (amount.map fun x => quantity x ++ unit) ↔ IsSmall amount := by
  cases amount with
  | none => exact iff_of_true .unset (by rintro x v ⟨⟩)
  | some x =>
    obtain ⟨hfinite, hneg⟩ := isAmount_iff.1 (h x rfl)
    obtain ⟨v, hv, hle⟩ := exists_value_of_isFinite hfinite hneg
    have hdenotes := denotes_quantity_iff hv hle
    constructor
    · intro hentry
      generalize htext : (some x).map (fun x => quantity x ++ unit) = text at hentry
      cases hentry with
      | set hvalue hnumber =>
        obtain rfl := append_unit_inj (Option.some.inj htext)
        rintro _ w ⟨⟩ hw
        obtain rfl := Option.some.inj (hvalue.symm.trans hw)
        obtain rfl := Option.some.inj (hvalue.symm.trans hv)
        exact hdenotes.1 hnumber
    · intro hsmall
      exact .set hv (hdenotes.2 (hsmall x v rfl hv))

end Entries

namespace Capability

/-- The table has an entry for each dimension that is limited, one more for GPUs if there are any, and
no others. -/
structure Mirrored (c : Capability) (table : Fields String) : Prop where
  sorted : table.Sorted
  cpu : LimitEntry "" c.cpu (table.get? "cpu")
  memory : LimitEntry "Gi" c.memory (table.get? "memory")
  gpu : ∃ key, key ≠ "cpu" ∧ key ≠ "memory" ∧ LimitEntry "" (positiveGpu? c.gpu) (table.get? key) ∧
    ∀ other, other ≠ "cpu" → other ≠ "memory" → other ≠ key → table.get? other = none

/-- The GPUs are written over the entry at this key. -/
def Overwrites (c : Capability) (defaultType key : String) : Prop :=
  (positiveGpu? c.gpu).isSome = true ∧ gpuKey c.gpuType defaultType = key

/-! ## The table -/

section Table

variable {c : Capability} {table : Fields String} {defaultType key : String} {x g : Float}

theorem get?_putSome (table : Fields String) (key other : String) (entry : Option String) :
    (putSome table key entry).get? other =
      if key = other then entry.or (table.get? other) else table.get? other := by
  cases entry with
  | none => rw [putSome, Option.none_or, ite_self]
  | some text => rw [putSome, Fields.get?_put, Option.some_or]

theorem sorted_putSome (h : table.Sorted) (key : String) (entry : Option String) :
    (putSome table key entry).Sorted := by
  cases entry with
  | none => exact h
  | some text => exact h.put key text

theorem sorted_toResources (c : Capability) (defaultType : String) :
    (c.toResources defaultType).Sorted :=
  sorted_putSome (sorted_putSome (sorted_putSome .nil _ _) _ _) _ _

/-- The entries of CPU and memory. -/
def limit? (c : Capability) (key : String) : Option String :=
  if key = "cpu" then c.cpu.map quantity
  else if key = "memory" then c.memory.map fun m => quantity m ++ "Gi"
  else none

theorem get?_toResources (c : Capability) (defaultType key : String) :
    (c.toResources defaultType).get? key =
      if gpuKey c.gpuType defaultType = key then
        ((positiveGpu? c.gpu).map quantity).or (c.limit? key)
      else c.limit? key := by
  have hentry : (putSome (putSome [] "cpu" (c.cpu.map quantity)) "memory"
      (c.memory.map fun m => quantity m ++ "Gi")).get? key = c.limit? key := by
    rw [get?_putSome, get?_putSome, limit?]
    by_cases hcpu : key = "cpu"
    · subst hcpu
      rw [if_neg (by decide), if_pos rfl, if_pos rfl]
      exact Option.or_none
    · rw [if_neg (Ne.symm hcpu), if_neg hcpu]
      by_cases hmemory : key = "memory"
      · rw [if_pos hmemory.symm, if_pos hmemory]
        exact Option.or_none
      · rw [if_neg (Ne.symm hmemory), if_neg hmemory]
        rfl
  rw [toResources, get?_putSome, hentry]

theorem get?_toResources_of_not_overwrites (h : ¬ c.Overwrites defaultType key) :
    (c.toResources defaultType).get? key = c.limit? key := by
  rw [get?_toResources]
  split
  · next heq =>
    have hnone : positiveGpu? c.gpu = none := by
      by_contra hsome
      exact h ⟨Option.isSome_iff_ne_none.2 hsome, heq⟩
    rw [hnone]
    rfl
  · rfl

theorem get?_toResources_of_overwrites (h : c.Overwrites defaultType key) :
    (c.toResources defaultType).get? key = (positiveGpu? c.gpu).map quantity := by
  obtain ⟨hsome, hkey⟩ := h
  obtain ⟨g, hg⟩ := Option.isSome_iff_exists.1 hsome
  rw [get?_toResources, if_pos hkey, hg]
  rfl

end Table

/-! ## What the table says -/

section Mirrored

variable {c : Capability} {defaultType : String}

/-- Every amount that is written is small. -/
def Small (c : Capability) : Prop :=
  IsSmall c.cpu ∧ IsSmall c.memory ∧ IsSmall (positiveGpu? c.gpu)

/-- The amounts of a ceiling that was checked are finite and not negative. -/
theorem isAmount_of_check (h : c.check = .ok ()) :
    (∀ x, c.cpu = some x → isAmount x = true) ∧ (∀ x, c.memory = some x → isAmount x = true) ∧
      ∀ x, c.gpu = some x → isAmount x = true := by
  simp only [check, bind, Except.bind] at h
  split at h
  · cases h
  · next hcpu =>
    split at h
    · cases h
    · next hmemory =>
      refine ⟨fun x hx => ?_, fun x hx => ?_, fun x hx => ?_⟩
      · exact isAmount_of_checkAmount (hx ▸ hcpu)
      · exact isAmount_of_checkAmount (hx ▸ hmemory)
      · exact isAmount_of_checkAmount (hx ▸ h)

theorem entry_cpu_iff (h : c.check = .ok ()) :
    LimitEntry "" c.cpu (c.limit? "cpu") ↔ IsSmall c.cpu := by
  have hentry : c.limit? "cpu" = c.cpu.map fun x => quantity x ++ "" := by
    simp [limit?]
  rw [hentry]
  exact entry_quantity_iff (isAmount_of_check h).1

theorem entry_memory_iff (h : c.check = .ok ()) :
    LimitEntry "Gi" c.memory (c.limit? "memory") ↔ IsSmall c.memory :=
  entry_quantity_iff (isAmount_of_check h).2.1

theorem entry_gpu_iff (h : c.check = .ok ()) :
    LimitEntry "" (positiveGpu? c.gpu) ((positiveGpu? c.gpu).map quantity) ↔
      IsSmall (positiveGpu? c.gpu) := by
  have hentry : (positiveGpu? c.gpu).map quantity =
      (positiveGpu? c.gpu).map fun x => quantity x ++ "" := by
    simp
  rw [hentry]
  refine entry_quantity_iff fun x hx => ?_
  exact (isAmount_of_check h).2.2 x (Option.filter_eq_some_iff.1 hx).1

theorem limit?_of_ne {key : String} (hcpu : key ≠ "cpu") (hmemory : key ≠ "memory") :
    c.limit? key = none := by
  rw [limit?, if_neg hcpu, if_neg hmemory]

/-- An entry for GPUs that is not at the key of another dimension is at the key of their type. -/
theorem gpuKey_of_entry {key : String} (hcpu : key ≠ "cpu") (hmemory : key ≠ "memory")
    (hentry : LimitEntry "" (positiveGpu? c.gpu) ((c.toResources defaultType).get? key))
    (hsome : (positiveGpu? c.gpu).isSome = true) : gpuKey c.gpuType defaultType = key := by
  by_contra hother
  have hnot : ¬ c.Overwrites defaultType key := fun h => hother h.2
  rw [get?_toResources_of_not_overwrites hnot, limit?_of_ne hcpu hmemory] at hentry
  obtain ⟨g, hg⟩ := Option.isSome_iff_exists.1 hsome
  rw [hg] at hentry
  cases hentry

/-- Beside CPU and memory there is only what is written at the key of the GPUs. -/
theorem get?_toResources_of_ne {key : String} (hcpu : key ≠ "cpu") (hmemory : key ≠ "memory")
    (hkey : (positiveGpu? c.gpu).isSome = true → gpuKey c.gpuType defaultType = key) :
    (c.toResources defaultType).get? key = (positiveGpu? c.gpu).map quantity := by
  by_cases hover : c.Overwrites defaultType key
  · exact get?_toResources_of_overwrites hover
  · have hnone : positiveGpu? c.gpu = none := by
      by_contra hsome
      have hsome := Option.isSome_iff_ne_none.2 hsome
      exact hover ⟨hsome, hkey hsome⟩
    rw [get?_toResources_of_not_overwrites hover, limit?_of_ne hcpu hmemory, hnone]
    rfl

theorem Mirrored.not_overwrites (h : c.Mirrored (c.toResources defaultType)) :
    ¬ c.Overwrites defaultType "cpu" ∧ ¬ c.Overwrites defaultType "memory" := by
  obtain ⟨key, hcpu, hmemory, hentry, -⟩ := h.gpu
  have hkey := gpuKey_of_entry hcpu hmemory hentry
  constructor
  · rintro ⟨hsome, hother⟩
    exact hcpu ((hkey hsome).symm.trans hother)
  · rintro ⟨hsome, hother⟩
    exact hmemory ((hkey hsome).symm.trans hother)

theorem Mirrored.small (hcheck : c.check = .ok ()) (h : c.Mirrored (c.toResources defaultType)) :
    c.Small := by
  obtain ⟨hcpu, hmemory⟩ := h.not_overwrites
  refine ⟨?_, ?_, ?_⟩
  · rw [← entry_cpu_iff hcheck, ← get?_toResources_of_not_overwrites hcpu]
    exact h.cpu
  · rw [← entry_memory_iff hcheck, ← get?_toResources_of_not_overwrites hmemory]
    exact h.memory
  · obtain ⟨key, hcpu, hmemory, hentry, -⟩ := h.gpu
    have hkey := gpuKey_of_entry hcpu hmemory hentry
    rw [← entry_gpu_iff hcheck, ← get?_toResources_of_ne hcpu hmemory hkey]
    exact hentry

theorem mirrored_of_small (hcheck : c.check = .ok ()) (hcpu : ¬ c.Overwrites defaultType "cpu")
    (hmemory : ¬ c.Overwrites defaultType "memory") (hsmall : c.Small) :
    c.Mirrored (c.toResources defaultType) := by
  obtain ⟨hcpuSmall, hmemorySmall, hgpuSmall⟩ := hsmall
  -- Without GPUs any other key will do.
  obtain ⟨key, hcpu', hmemory', hkey⟩ : ∃ key, key ≠ "cpu" ∧ key ≠ "memory" ∧
      ((positiveGpu? c.gpu).isSome = true → gpuKey c.gpuType defaultType = key) := by
    by_cases hsome : (positiveGpu? c.gpu).isSome = true
    · exact ⟨_, fun h => hcpu ⟨hsome, h⟩, fun h => hmemory ⟨hsome, h⟩, fun _ => rfl⟩
    · exact ⟨"gpu", by decide, by decide, fun h => absurd h hsome⟩
  refine ⟨sorted_toResources c defaultType, ?_, ?_, key, hcpu', hmemory', ?_, ?_⟩
  · rw [get?_toResources_of_not_overwrites hcpu]
    exact (entry_cpu_iff hcheck).2 hcpuSmall
  · rw [get?_toResources_of_not_overwrites hmemory]
    exact (entry_memory_iff hcheck).2 hmemorySmall
  · rw [get?_toResources_of_ne hcpu' hmemory' hkey]
    exact (entry_gpu_iff hcheck).2 hgpuSmall
  · intro other hother hother' hne
    have hnot : ¬ c.Overwrites defaultType other := fun h =>
      hne (h.2.symm.trans (hkey h.1))
    rw [get?_toResources_of_not_overwrites hnot, limit?_of_ne hother hother']

/-- The table says what the ceiling is if no dimension is written over and all amounts are small. -/
theorem mirrored_iff (hcheck : c.check = .ok ()) : c.Mirrored (c.toResources defaultType) ↔
    (¬ c.Overwrites defaultType "cpu" ∧ ¬ c.Overwrites defaultType "memory") ∧ c.Small :=
  ⟨fun h => ⟨h.not_overwrites, h.small hcheck⟩,
    fun h => mirrored_of_small hcheck h.1.1 h.1.2 h.2⟩

end Mirrored

/-! ## Dimensions that make no difference -/

section Differences

variable {c : Capability} {defaultType : String} {x g : Float}

/-- A limit that is written over in neither table tells them apart. -/
theorem toResources_ne_of_limit? (c c' : Capability) {key : String}
    (h : ¬ c.Overwrites defaultType key) (h' : ¬ c'.Overwrites defaultType key)
    (hne : c.limit? key ≠ c'.limit? key) :
    c.toResources defaultType ≠ c'.toResources defaultType := by
  intro heq
  have hentry := congrArg (Fields.get? · key) heq
  simp only [get?_toResources_of_not_overwrites h, get?_toResources_of_not_overwrites h'] at hentry
  exact hne hentry

/-- A limit of CPU makes a difference unless the GPUs are written over it. -/
theorem toResources_cpu_iff (c : Capability) (defaultType : String) (x : Float) :
    { c with cpu := some x }.toResources defaultType =
        { c with cpu := none }.toResources defaultType ↔ c.Overwrites defaultType "cpu" := by
  constructor
  · intro heq
    by_contra hnot
    exact toResources_ne_of_limit? { c with cpu := some x } { c with cpu := none } hnot hnot
      (Option.some_ne_none (quantity x)) heq
  · rintro ⟨hsome, hkey⟩
    obtain ⟨g, hg⟩ := Option.isSome_iff_exists.1 hsome
    simp only [toResources, hg, hkey]
    cases c.memory <;> rfl

/-- A limit of memory makes a difference unless the GPUs are written over it. -/
theorem toResources_memory_iff (c : Capability) (defaultType : String) (x : Float) :
    { c with memory := some x }.toResources defaultType =
        { c with memory := none }.toResources defaultType ↔ c.Overwrites defaultType "memory" := by
  constructor
  · intro heq
    by_contra hnot
    exact toResources_ne_of_limit? { c with memory := some x } { c with memory := none } hnot hnot
      (Option.some_ne_none (quantity x ++ "Gi")) heq
  · rintro ⟨hsome, hkey⟩
    obtain ⟨g, hg⟩ := Option.isSome_iff_exists.1 hsome
    simp only [toResources, hg, hkey]
    cases c.cpu <;> rfl

theorem get?_toResources_none (c : Capability) (defaultType key : String) :
    ({ c with gpu := none }.toResources defaultType).get? key = c.limit? key :=
  get?_toResources_of_not_overwrites fun h => Bool.noConfusion h.1

/-- A number of GPUs makes a difference unless it is written over an equal number of CPUs. -/
theorem toResources_gpu_iff (hfinite : g.isFinite = true) (hpos : 0.0 < g) :
    { c with gpu := some g }.toResources defaultType =
        { c with gpu := none }.toResources defaultType ↔
      gpuKey c.gpuType defaultType = "cpu" ∧ c.cpu.map quantity = some (quantity g) := by
  have hput : { c with gpu := some g }.toResources defaultType =
      ({ c with gpu := none }.toResources defaultType).put (gpuKey c.gpuType defaultType)
        (quantity g) := toResources_of_gpu rfl hpos
  rw [hput]
  constructor
  · intro heq
    have hentry := congrArg (Fields.get? · (gpuKey c.gpuType defaultType)) heq
    simp only [Fields.get?_put_self, get?_toResources_none] at hentry
    by_cases hcpu : gpuKey c.gpuType defaultType = "cpu"
    · exact ⟨hcpu, by simpa [limit?, hcpu] using hentry.symm⟩
    · by_cases hmemory : gpuKey c.gpuType defaultType = "memory"
      · rw [hmemory, limit?, if_neg (by decide), if_pos rfl] at hentry
        obtain ⟨v, hv⟩ := exists_exactValue? hfinite
        obtain ⟨m, q, hparts, -⟩ := exists_parts_of_pos hv ((pos_iff_of_exactValue? hv).1 hpos)
        obtain ⟨x, -, htext⟩ := Option.map_eq_some_iff.1 hentry.symm
        exact absurd htext.symm (quantity_ne_append_gi hparts (quantity x))
      · rw [limit?_of_ne hcpu hmemory] at hentry
        cases hentry
  · rintro ⟨hkey, hentry⟩
    obtain ⟨x, hx, hquantity⟩ := Option.map_eq_some_iff.1 hentry
    rw [hkey, ← hquantity]
    simp only [toResources, hx]
    cases c.memory <;> rfl

/-- A number of GPUs that is not positive counts as none. -/
theorem toResources_of_not_pos (h : ¬ 0.0 < g) :
    { c with gpu := some g }.toResources defaultType =
      { c with gpu := none }.toResources defaultType := by
  have hnone : positiveGpu? (some g) = none := by
    rw [positiveGpu?, Option.filter_some, if_neg (by simpa using h)]
  rw [toResources, hnone]
  rfl

end Differences

end Capability

/-! ## Main result -/

/-- What the queue object of a row says of its ceiling. -/
structure CeilingsSpec (row : QueueRow) (s : QueueSettings) : Prop where
  deserved : (row.manifest s).deserved = (row.manifest s).capability
  /-- There is one entry for each dimension that is limited, as long as the GPUs have a key of their
  own and no amount is too large for a word. -/
  mirrored_iff : row.capability.Mirrored (row.manifest s).capability ↔
    (¬ row.capability.Overwrites s.defaultGpuType "cpu" ∧
      ¬ row.capability.Overwrites s.defaultGpuType "memory") ∧ row.capability.Small
  /-- A limit of CPU is seen in the object, unless the GPUs are written over it. -/
  cpu_seen : ∀ x,
    ({ row with capability.cpu := some x }.manifest s).capability =
        ({ row with capability.cpu := none }.manifest s).capability ↔
      row.capability.Overwrites s.defaultGpuType "cpu"
  /-- So is one of memory. -/
  memory_seen : ∀ x,
    ({ row with capability.memory := some x }.manifest s).capability =
        ({ row with capability.memory := none }.manifest s).capability ↔
      row.capability.Overwrites s.defaultGpuType "memory"
  /-- GPUs are seen too, unless they are written over an equal number of CPUs. -/
  gpu_seen : ∀ g : Float, g.isFinite = true → 0.0 < g →
    (({ row with capability.gpu := some g }.manifest s).capability =
        ({ row with capability.gpu := none }.manifest s).capability ↔
      Capability.gpuKey row.capability.gpuType s.defaultGpuType = "cpu" ∧
        row.capability.cpu.map quantity = some (quantity g))
  /-- No GPUs are the same as no limit of them. -/
  gpu_zero : ∀ g : Float, ¬ 0.0 < g → ({ row with capability.gpu := some g }.manifest s).capability =
    ({ row with capability.gpu := none }.manifest s).capability

/-- The ceiling of a checked row is on the cluster as it is in the row, unless the key of its GPUs is
that of another dimension or an amount is too large for a word. -/
theorem ceilings_spec (row : QueueRow) (s : QueueSettings) (h : row.capability.check = .ok ()) :
    CeilingsSpec row s where
  deserved := rfl
  mirrored_iff := Capability.mirrored_iff h
  cpu_seen := Capability.toResources_cpu_iff row.capability s.defaultGpuType
  memory_seen := Capability.toResources_memory_iff row.capability s.defaultGpuType
  gpu_seen _ := Capability.toResources_gpu_iff
  gpu_zero _ := Capability.toResources_of_not_pos

theorem ceilings_of_vision : QueueRow.vision.capability.check = .ok () ∧
    CeilingsSpec .vision .plain :=
  ⟨rfl, ceilings_spec .vision .plain rfl⟩

/-- A row with eight CPUs and two GPUs that are counted as CPUs. -/
def QueueRow.clashing : QueueRow :=
  { QueueRow.vision with capability := ⟨some 8.0, none, some 2.0, some "cpu"⟩ }

/-- Its object has no entry for the CPUs, just like the object of the row without a limit of CPU. -/
theorem ceilings_of_clashing : QueueRow.clashing.capability.check = .ok () ∧
    (QueueRow.clashing.manifest .plain).capability = [("cpu", "2")] ∧
    ({ QueueRow.clashing with capability.cpu := none }.manifest .plain).capability =
      [("cpu", "2")] ∧
    ¬ QueueRow.clashing.capability.Mirrored (QueueRow.clashing.manifest .plain).capability := by
  refine ⟨by decide +kernel, by decide +kernel, by decide +kernel, fun h => ?_⟩
  exact (Capability.Mirrored.not_overwrites h).1 ⟨by decide +kernel, by decide +kernel⟩

end ClusterJobs
