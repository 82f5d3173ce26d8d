import ClusterJobs.Proofs.Amounts
import ClusterJobs.Proofs.Manifest.Envelopes

/-!
# What containers ask for

A sound envelope asks for exact numbers of CPUs, of Mi and of GPUs. Its container is rendered with
texts that denote these numbers as long as a signed word of 64 bits can hold them, and twice them where
the limits are doubled. Larger numbers are rendered with a text that denotes another number, or none.
-/

namespace ClusterJobs

open Decimal

/-- How much an envelope asks for. Without a GPU it asks for none. -/
structure Envelope.Asks (e : Envelope) (cpu memory gpu : Rat) : Prop where
  cpu_eq : exactValue? e.minCpu = some cpu
  cpu_nonneg : 0 ≤ cpu
  memory_eq : exactValue? e.minMemory = some memory
  memory_nonneg : 0 ≤ memory
  gpu_eq : e.gpu.elim (some 0) exactValue? = some gpu

/-- The resources say how much is asked for: GPUs alone under their key, or CPU and memory, with
limits of twice as much. -/
inductive Resources.Say (key : String) (cpu memory gpu : Rat) : Resources → Prop where
  | gpu {amount : String} : 0 < gpu → Denotes amount gpu →
      Say key cpu memory gpu ⟨none, some [(key, amount)]⟩
  | plain {cores mebibytes maxCores maxMebibytes : String} : gpu ≤ 0 →
      Denotes cores cpu → Denotes mebibytes memory →
      Denotes maxCores (2 * cpu) → Denotes maxMebibytes (2 * memory) →
      Say key cpu memory gpu ⟨some [("cpu", cores), ("memory", mebibytes ++ "Mi")],
        some [("cpu", maxCores), ("memory", maxMebibytes ++ "Mi")]⟩

section Amounts

variable {e : Envelope} {x : Float} {v cpu memory gpu : Rat}

theorem Envelope.gpuQuantity?_of_asks (h : e.Asks cpu memory gpu) :
    (∃ g, e.gpuQuantity? = some g ∧ exactValue? g = some gpu ∧ 0 < gpu) ∨
      e.gpuQuantity? = none ∧ gpu ≤ 0 := by
  have hgpu := h.gpu_eq
  unfold Envelope.gpuQuantity? positiveGpu?
  cases hg : e.gpu with
  | none =>
    rw [hg] at hgpu
    cases hgpu
    exact .inr ⟨rfl, le_rfl⟩
  | some g =>
    rw [hg] at hgpu
    have hiff := pos_iff_of_exactValue? hgpu
    by_cases hpos : 0.0 < g
    · exact .inl ⟨g, by simp [Option.filter, hpos], hgpu, hiff.1 hpos⟩
    · exact .inr ⟨by simp [Option.filter, hpos], not_lt.1 (mt hiff.2 hpos)⟩

/-- A sound envelope asks for exact numbers. -/
theorem Envelope.exists_asks (h : e.check = .ok ()) : ∃ cpu memory gpu, e.Asks cpu memory gpu := by
  obtain ⟨hamounts, hgpu⟩ := check_eq_ok_iff.1 h
  obtain ⟨hfinite, hneg⟩ := hamounts e.minCpu (.head _)
  obtain ⟨cpu, hcpu, hcpu'⟩ := exists_value_of_isFinite hfinite hneg
  obtain ⟨hfinite, hneg⟩ := hamounts e.minMemory (.tail _ (.head _))
  obtain ⟨memory, hmemory, hmemory'⟩ := exists_value_of_isFinite hfinite hneg
  cases hg : e.gpu with
  | none => exact ⟨cpu, memory, 0, hcpu, hcpu', hmemory, hmemory', by rw [hg]; rfl⟩
  | some g =>
    obtain ⟨gpu, hgpu⟩ := exists_exactValue? (hgpu g hg)
    exact ⟨cpu, memory, gpu, hcpu, hcpu', hmemory, hmemory', by rw [hg]; exact hgpu⟩

/-- The GPUs alone are limited if there are any, CPU and memory else. -/
theorem Envelope.render_of_asks (h : e.Asks cpu memory gpu) (defaultType : String) :
    (0 < gpu ∧ ∃ g, exactValue? g = some gpu ∧ e.render defaultType =
        ⟨none, some [(gpuResource e.gpuType defaultType, quantity g)]⟩) ∨
      gpu ≤ 0 ∧ e.render defaultType = ⟨some (e.atFactor 1.0), some (e.atFactor 2.0)⟩ := by
  unfold render
  rcases gpuQuantity?_of_asks h with ⟨g, hg, hvalue, hpos⟩ | ⟨hnone, hle⟩
  · exact .inl ⟨hpos, g, hvalue, by rw [hg]⟩
  · exact .inr ⟨hle, by rw [hnone]⟩

end Amounts

/-! ## Main result -/

/-- What is rendered for an envelope that asks for so much. -/
structure Envelope.ResourcesSpec (e : Envelope) (defaultType : String) (cpu memory gpu : Rat) :
    Prop where
  /-- With a GPU, its quantity is the only limit. -/
  gpuOnly : 0 < gpu → ∃ amount, e.render defaultType =
      ⟨none, some [(gpuResource e.gpuType defaultType, amount)]⟩ ∧
    (Denotes amount gpu ↔ gpu < 2 ^ 63)
  /-- Without one, CPU and memory are requested, and limited to twice as much. -/
  plain : gpu ≤ 0 → ∃ cores mebibytes maxCores maxMebibytes, e.render defaultType =
      ⟨some [("cpu", cores), ("memory", mebibytes ++ "Mi")],
        some [("cpu", maxCores), ("memory", maxMebibytes ++ "Mi")]⟩ ∧
    (Denotes cores cpu ↔ cpu < 2 ^ 63) ∧ (Denotes mebibytes memory ↔ memory < 2 ^ 63) ∧
    (Denotes maxCores (2 * cpu) ↔ cpu < 2 ^ 62) ∧
    (Denotes maxMebibytes (2 * memory) ↔ memory < 2 ^ 62)
  /-- The resources say how much is asked for unless that is too much for a word. -/
  say_iff : (e.render defaultType).Say (gpuResource e.gpuType defaultType) cpu memory gpu ↔
    (0 < gpu → gpu < 2 ^ 63) ∧ (gpu ≤ 0 → cpu < 2 ^ 62 ∧ memory < 2 ^ 62)

section Spec

variable {e : Envelope} {cpu memory gpu : Rat}

theorem Envelope.gpuOnly_of_asks (h : e.Asks cpu memory gpu) (defaultType : String)
    (hpos : 0 < gpu) : ∃ amount, e.render defaultType =
        ⟨none, some [(gpuResource e.gpuType defaultType, amount)]⟩ ∧
      (Denotes amount gpu ↔ gpu < 2 ^ 63) := by
  rcases render_of_asks h defaultType with ⟨-, g, hg, hrender⟩ | ⟨hle, -⟩
  · exact ⟨quantity g, hrender, denotes_quantity_iff hg hpos.le⟩
  · exact absurd hpos hle.not_gt

theorem Envelope.plain_of_asks (h : e.Asks cpu memory gpu) (defaultType : String)
    (hle : gpu ≤ 0) : ∃ cores mebibytes maxCores maxMebibytes, e.render defaultType =
        ⟨some [("cpu", cores), ("memory", mebibytes ++ "Mi")],
          some [("cpu", maxCores), ("memory", maxMebibytes ++ "Mi")]⟩ ∧
      (Denotes cores cpu ↔ cpu < 2 ^ 63) ∧ (Denotes mebibytes memory ↔ memory < 2 ^ 63) ∧
      (Denotes maxCores (2 * cpu) ↔ cpu < 2 ^ 62) ∧
      (Denotes maxMebibytes (2 * memory) ↔ memory < 2 ^ 62) := by
  rcases render_of_asks h defaultType with ⟨hpos, -⟩ | ⟨-, hrender⟩
  · exact absurd hpos hle.not_gt
  · exact ⟨_, _, _, _, hrender, denotes_once_iff h.cpu_eq h.cpu_nonneg,
      denotes_once_iff h.memory_eq h.memory_nonneg, denotes_twice_iff h.cpu_eq h.cpu_nonneg,
      denotes_twice_iff h.memory_eq h.memory_nonneg⟩

theorem Envelope.say_iff_of_asks (h : e.Asks cpu memory gpu) (defaultType : String) :
    (e.render defaultType).Say (gpuResource e.gpuType defaultType) cpu memory gpu ↔
      (0 < gpu → gpu < 2 ^ 63) ∧ (gpu ≤ 0 → cpu < 2 ^ 62 ∧ memory < 2 ^ 62) := by
  rcases lt_or_ge 0 gpu with hpos | hle
  · obtain ⟨amount, hrender, hamount⟩ := gpuOnly_of_asks h defaultType hpos
    rw [hrender]
    constructor
    · intro hsay
      cases hsay with
      | gpu _ hdenotes => exact ⟨fun _ => hamount.1 hdenotes, fun hle => absurd hpos hle.not_gt⟩
    · exact fun hsmall => .gpu hpos (hamount.2 (hsmall.1 hpos))
  · obtain ⟨cores, mebibytes, maxCores, maxMebibytes, hrender, hcores, hmebibytes, hmaxCores,
      hmaxMebibytes⟩ := plain_of_asks h defaultType hle
    rw [hrender]
    constructor
    · intro hsay
      generalize hresources : (⟨some [("cpu", cores), ("memory", mebibytes ++ "Mi")],
        some [("cpu", maxCores), ("memory", maxMebibytes ++ "Mi")]⟩ : Resources) = r at hsay
      cases hsay with
      | gpu hpos _ => exact absurd hpos hle.not_gt
      | plain _ _ _ hcores' hmebibytes' =>
        simp only [Resources.mk.injEq, Option.some.injEq, List.cons.injEq, Prod.mk.injEq,
          true_and, and_true] at hresources
        obtain ⟨-, rfl, htext⟩ := hresources
        obtain rfl := append_unit_inj htext
        exact ⟨fun hpos => absurd hpos hle.not_gt,
          fun _ => ⟨hmaxCores.1 hcores', hmaxMebibytes.1 hmebibytes'⟩⟩
    · intro hsmall
      obtain ⟨hcpu, hmemory⟩ := hsmall.2 hle
      exact .plain hle (hcores.2 (by linarith)) (hmebibytes.2 (by linarith))
        (hmaxCores.2 hcpu) (hmaxMebibytes.2 hmemory)

end Spec

/-- The resources of a container are exactly what a sound envelope asks for, unless it asks for more
than a word can hold. -/
theorem containerResources_spec (e : Envelope) (defaultType : String) (h : e.check = .ok ()) :
    ∃ cpu memory gpu, e.Asks cpu memory gpu ∧ e.ResourcesSpec defaultType cpu memory gpu := by
  obtain ⟨cpu, memory, gpu, hasks⟩ := Envelope.exists_asks h
  exact ⟨cpu, memory, gpu, hasks, {
    gpuOnly := Envelope.gpuOnly_of_asks hasks defaultType
    plain := Envelope.plain_of_asks hasks defaultType
    say_iff := Envelope.say_iff_of_asks hasks defaultType }⟩

theorem containerResources_of_standard : Envelope.standard.check = .ok () ∧
    ∃ cpu memory gpu, Envelope.standard.Asks cpu memory gpu ∧
      Envelope.standard.ResourcesSpec "nvidia.com/gpu" cpu memory gpu :=
  ⟨by decide +kernel, containerResources_spec .standard "nvidia.com/gpu" (by decide +kernel)⟩

/-- Ten quintillion cores. -/
def Envelope.huge : Envelope := ⟨1e19, 1024.0, none, none⟩

theorem Envelope.asks_huge : huge.Asks (10 ^ 19) 1024 0 :=
  ⟨by decide +kernel, by norm_num, by decide +kernel, by norm_num, rfl⟩

/-- They are rendered as the largest number of a word. -/
theorem containerResources_of_huge : Envelope.huge.check = .ok () ∧
    Envelope.huge.Asks (10 ^ 19) 1024 0 ∧
    (Envelope.huge.render "nvidia.com/gpu").requests =
      some [("cpu", "9223372036854775807"), ("memory", "1024Mi")] ∧
    ¬ (Envelope.huge.render "nvidia.com/gpu").Say "nvidia.com/gpu" (10 ^ 19) 1024 0 := by
  refine ⟨by decide +kernel, Envelope.asks_huge, by decide +kernel, fun hsay => ?_⟩
  have hsmall := ((Envelope.say_iff_of_asks Envelope.asks_huge "nvidia.com/gpu").1 hsay).2 le_rfl
  norm_num at hsmall

end ClusterJobs
