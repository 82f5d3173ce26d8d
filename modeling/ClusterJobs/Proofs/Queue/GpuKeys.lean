import ClusterJobs.Manifest.Pod
import ClusterJobs.Proofs.Manifest.Members
import ClusterJobs.Queue.Task

/-!
# Resources of GPUs

The GPUs of a container, of a ceiling and of the usage of a queue are each counted under the resource
that their type names, or under the default one. Containers take a blank type for a missing one, but
queues take only the empty text for it.
-/

namespace ClusterJobs

/-! ## Keys -/

section Keys

variable {gpuType : Option String} {defaultType : String}

/-- The type is blanks, at least one, that are not the default type. -/
def IsBlankType (gpuType : Option String) (defaultType : String) : Prop :=
  ∃ t, gpuType = some t ∧ t ≠ "" ∧ Text.isBlankText t = true ∧ t ≠ defaultType

theorem isBlankText_empty : Text.isBlankText "" = true := by
  rfl

theorem gpuKey_some {t : String} (h : t ≠ "") : Capability.gpuKey (some t) defaultType = t := by
  have hne : (!t.isEmpty) = true := by simpa [String.isEmpty_iff] using h
  rw [Capability.gpuKey, Option.filter_some, if_pos hne, Option.getD_some]

theorem gpuResource_of_blank {t : String} (h : Text.isBlankText t = true) :
    gpuResource (some t) defaultType = defaultType := by
  have hblank : ¬ (!Text.isBlankText t) = true := by simp [h]
  rw [gpuResource, Option.filter_some, if_neg hblank, Option.getD_none]

theorem gpuResource_of_not_blank {t : String} (h : Text.isBlankText t = false) :
    gpuResource (some t) defaultType = t := by
  have hname : (!Text.isBlankText t) = true := by simp [h]
  rw [gpuResource, Option.filter_some, if_pos hname, Option.getD_some]

/-- Containers and queues count GPUs under different resources only if the type is blank. -/
theorem gpuResource_eq_gpuKey_iff :
    gpuResource gpuType defaultType = Capability.gpuKey gpuType defaultType ↔
      ¬ IsBlankType gpuType defaultType := by
  cases gpuType with
  | none => exact iff_of_true rfl (by rintro ⟨t, h, -⟩; cases h)
  | some t =>
    by_cases hempty : t = ""
    · subst hempty
      exact iff_of_true (gpuResource_of_blank isBlankText_empty)
        (by rintro ⟨t, h, hne, -⟩; exact hne (Option.some.inj h).symm)
    · rw [gpuKey_some hempty]
      cases hblank : Text.isBlankText t with
      | false =>
        refine iff_of_true (gpuResource_of_not_blank hblank) ?_
        rintro ⟨s, h, -, hs, -⟩
        rw [← Option.some.inj h, hblank] at hs
        cases hs
      | true =>
        rw [gpuResource_of_blank hblank]
        constructor
        · rintro heq ⟨s, h, -, -, hne⟩
          exact hne ((Option.some.inj h).symm.trans heq.symm)
        · intro h
          by_contra hne
          exact h ⟨t, rfl, hempty, hblank, Ne.symm hne⟩

end Keys

/-! ## What is counted under them -/

section Counted

variable {defaultType key : String} {g : Float}

theorem positiveGpu?_of_pos (h : 0.0 < g) : positiveGpu? (some g) = some g := by
  rw [positiveGpu?, Option.filter_some, if_pos (decide_eq_true h)]

theorem Envelope.render_of_gpu {e : Envelope} (hgpu : e.gpu = some g) (hpos : 0.0 < g) :
    e.render defaultType = ⟨none, some [(gpuResource e.gpuType defaultType, quantity g)]⟩ := by
  rw [render, gpuQuantity?, hgpu, positiveGpu?_of_pos hpos]

/-- A GPU is written into the table of the other dimensions. -/
theorem Capability.toResources_of_gpu {c : Capability} (hgpu : c.gpu = some g) (hpos : 0.0 < g) :
    c.toResources defaultType =
      ({ c with gpu := none }.toResources defaultType).put (gpuKey c.gpuType defaultType)
        (quantity g) := by
  rw [toResources, hgpu, positiveGpu?_of_pos hpos]
  rfl

theorem Usage.get?_add_of_gpu {u : Usage} {f : Footprint} (hgpu : f.gpu = some g) (hpos : 0.0 < g)
    (key : String) : (u.add f defaultType).gpu.get? key =
      if key = Capability.gpuKey f.gpuType defaultType then some ((u.gpu.get? key).getD 0.0 + g)
      else u.gpu.get? key := by
  rw [add, hgpu, positiveGpu?_of_pos hpos]
  dsimp only [addGpu]
  rw [Fields.get?_put]
  by_cases heq : Capability.gpuKey f.gpuType defaultType = key
  · rw [if_pos heq, if_pos heq.symm, heq]
  · rw [if_neg heq, if_neg (Ne.symm heq)]

/-- The GPUs that a task holds under a resource. -/
def Footprint.gpusUnder (f : Footprint) (defaultType key : String) : Option Float :=
  if key = Capability.gpuKey f.gpuType defaultType then positiveGpu? f.gpu else .none

/-- Adds GPUs to those that are counted under a resource so far. -/
def addCount (count : Option Float) (g : Float) : Option Float :=
  some (count.getD 0.0 + g)

theorem Usage.get?_add (u : Usage) (f : Footprint) (defaultType key : String) :
    (u.add f defaultType).gpu.get? key =
      (f.gpusUnder defaultType key).elim (u.gpu.get? key) (addCount (u.gpu.get? key)) := by
  unfold Footprint.gpusUnder
  cases hgpu : positiveGpu? f.gpu with
  | none =>
    rw [add, hgpu, ite_self, Option.elim_none]
  | some g =>
    obtain ⟨hsome, hpos⟩ := Option.filter_eq_some_iff.1 hgpu
    rw [get?_add_of_gpu hsome (of_decide_eq_true hpos)]
    split <;> rfl

/-- The usage of a queue counts under a resource what its tasks hold there, and nothing else. -/
theorem Usage.get?_foldl_add (u : Usage) (fs : List Footprint) (defaultType key : String) :
    (fs.foldl (fun u f => u.add f defaultType) u).gpu.get? key =
      (fs.filterMap fun f => f.gpusUnder defaultType key).foldl addCount (u.gpu.get? key) := by
  induction fs generalizing u with
  | nil => rfl
  | cons f fs ih =>
    rw [List.foldl_cons, ih, get?_add, List.filterMap_cons]
    cases f.gpusUnder defaultType key <;> rfl

end Counted

/-! ## Main result -/

/-- Under which resources the GPUs of a type are counted. -/
structure GpuKeysSpec (gpuType : Option String) (defaultType : String) : Prop where
  /-- The limit of a container. -/
  container : ∀ (e : Envelope) (g : Float), e.gpuType = gpuType → e.gpu = some g → 0.0 < g →
    e.render defaultType = ⟨none, some [(gpuResource gpuType defaultType, quantity g)]⟩
  /-- The entry of a ceiling. -/
  ceiling : ∀ (c : Capability) (g : Float), c.gpuType = gpuType → c.gpu = some g → 0.0 < g →
    c.toResources defaultType = ({ c with gpu := none }.toResources defaultType).put
      (Capability.gpuKey gpuType defaultType) (quantity g)
  /-- What a task adds to the usage of its queue. -/
  usage : ∀ (u : Usage) (f : Footprint) (g : Float), f.gpuType = gpuType → f.gpu = some g →
    0.0 < g → ∀ key, (u.add f defaultType).gpu.get? key =
      if key = Capability.gpuKey gpuType defaultType then some ((u.gpu.get? key).getD 0.0 + g)
      else u.gpu.get? key
  /-- The usage of many tasks. -/
  total : ∀ (fs : List Footprint) (key : String), (Usage.total defaultType fs).gpu.get? key =
    (fs.filterMap fun f => f.gpusUnder defaultType key).foldl addCount none
  /-- All are the same resource unless the type is blank. -/
  agree_iff : gpuResource gpuType defaultType = Capability.gpuKey gpuType defaultType ↔
    ¬ IsBlankType gpuType defaultType

/-- The GPUs of a type are counted under one resource unless the type is blank. -/
theorem gpuKeys_spec (gpuType : Option String) (defaultType : String) :
    GpuKeysSpec gpuType defaultType where
  container e _ htype hgpu hpos := htype ▸ e.render_of_gpu hgpu hpos
  ceiling c _ htype hgpu hpos := htype ▸ c.toResources_of_gpu hgpu hpos
  usage _ _ _ htype hgpu hpos := htype ▸ Usage.get?_add_of_gpu hgpu hpos
  total fs key := Usage.get?_foldl_add .zero fs defaultType key
  agree_iff := gpuResource_eq_gpuKey_iff

/-- A container with a blank type uses the default GPU, and its queue counts another one. -/
theorem gpuKeys_of_space :
    (⟨1.0, 1024.0, some 2.0, some " "⟩ : Envelope).render "nvidia.com/gpu" =
      ⟨none, some [("nvidia.com/gpu", "2")]⟩ ∧
    (⟨none, none, some 2.0, some " "⟩ : Capability).toResources "nvidia.com/gpu" = [(" ", "2")] ∧
    (Usage.zero.add ⟨1.0, 1.0, some 2.0, some " "⟩ "nvidia.com/gpu").gpu = [(" ", 2.0)] := by
  refine ⟨by decide +kernel, by decide +kernel, by decide +kernel⟩

end ClusterJobs
