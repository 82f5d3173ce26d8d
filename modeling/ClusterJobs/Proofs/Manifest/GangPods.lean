import Mathlib.Algebra.Ring.Nat
import ClusterJobs.Proofs.Faults
import ClusterJobs.Proofs.Manifest.Compiled

/-!
# How many pods a gang job has

If a template leaves open how many pods start together, all of them do. Their number is added up in an
unsigned word of 32 bits, which holds every sum on the way if it holds the whole. If it cannot, there
is no job.
-/

namespace ClusterJobs

open Json (Value)

/-! ## The sum of the replicas -/

section Sums

variable {base job : GangJob} {input : GangInput}

/-- A word holds every sum on the way if it holds the whole. -/
theorem foldlM_replicas_eq (tasks : List GangTask) {acc : Nat} (h : acc < 4294967296) :
    tasks.foldlM (fun n t => addWord n t.replicas) acc =
      if acc + (tasks.map GangTask.replicas).sum < 4294967296 then
        some (acc + (tasks.map GangTask.replicas).sum) else none := by
  induction tasks generalizing acc with
  | nil => simp [h]
  | cons t tasks ih =>
    rw [List.foldlM_cons, addWord, List.map_cons, List.sum_cons, ← Nat.add_assoc]
    by_cases hword : acc + t.replicas < 4294967296
    · rw [if_pos hword]
      exact ih hword
    · rw [if_neg hword, if_neg (by omega)]
      rfl

theorem totalReplicas_eq (tasks : List GangTask) :
    totalReplicas tasks = if (tasks.map GangTask.replicas).sum < 4294967296 then
      some (tasks.map GangTask.replicas).sum else none := by
  rw [totalReplicas, foldlM_replicas_eq tasks (by decide), Nat.zero_add]

/-- The number of pods that are laid over a job. -/
def GangInput.podCount (input : GangInput) : Nat :=
  (input.tasks.map GangTaskInput.replicas).sum

/-- Nothing says how many pods start together, and they are more than a word can count. -/
def GangJob.Overfills (base : GangJob) (pods : Nat) : Prop :=
  base.spec.minAvailable = none ∧ 2 ^ 32 ≤ pods

instance (base : GangJob) (pods : Nat) : Decidable (base.Overfills pods) :=
  inferInstanceAs (Decidable (_ ∧ _))

namespace GangJob

theorem startSize_of_some {n : Nat} (tasks : List GangTask)
    (h : base.spec.minAvailable = some n) : base.startSize tasks = some n := by
  rw [startSize, h]

theorem startSize_of_none (input : GangInput) (h : base.spec.minAvailable = none) :
    base.startSize (input.tasks.map base.placeTask) =
      if input.podCount < 4294967296 then some input.podCount else none := by
  have hsum : ((input.tasks.map base.placeTask).map GangTask.replicas).sum = input.podCount :=
    congrArg List.sum List.map_map
  rw [startSize, h]
  exact (totalReplicas_eq _).trans (by rw [hsum])

/-- There is no job exactly if there are too many pods. -/
theorem overlay_eq_none_iff : base.overlay input = none ↔ base.Overfills input.podCount := by
  rw [overlay, Option.map_eq_none_iff, Overfills]
  cases hmin : base.spec.minAvailable with
  | some n => simp [startSize_of_some _ hmin]
  | none => simp [startSize_of_none _ hmin]

theorem minAvailable_of_some {n : Nat} (hmin : base.spec.minAvailable = some n)
    (h : base.overlay input = some job) : job.spec.minAvailable = some n := by
  obtain ⟨size, hsize, rfl⟩ := overlay_eq_some_iff.1 h
  exact hsize.symm.trans (startSize_of_some _ hmin)

theorem minAvailable_of_none (hmin : base.spec.minAvailable = none)
    (h : base.overlay input = some job) : job.spec.minAvailable = some input.podCount := by
  obtain ⟨size, hsize, rfl⟩ := overlay_eq_some_iff.1 h
  rw [startSize_of_none input hmin] at hsize
  split at hsize
  · exact hsize.symm
  · cases hsize

end GangJob

theorem faultOf_overlayGang (base : GangJob) (input : GangInput) :
    faultOf (Compiler.overlayGang base input) =
      if base.Overfills input.podCount then some .tooManyPods else none := by
  rw [Compiler.overlayGang]
  cases hjob : base.overlay input with
  | none => exact (if_pos (GangJob.overlay_eq_none_iff.1 hjob)).symm
  | some job =>
    refine (if_neg fun hoverfills => ?_).symm
    rw [GangJob.overlay_eq_none_iff.2 hoverfills] at hjob
    cases hjob

end Sums

/-! ## Queue-admitted jobs -/

section QueueAdmitted

variable {c : Compiler} {replicas : Option MasterWorker}

/-- The number of pods of a queue-admitted job. -/
def gangPods (replicas : Option MasterWorker) : Nat :=
  replicas.elim 1 fun mw => mw.master + mw.worker

theorem sum_gangTasks (replicas : Option MasterWorker) (pod : Value) :
    ((Compiler.gangTasks replicas pod).2.map GangTaskInput.replicas).sum = gangPods replicas := by
  cases replicas <;> simp [Compiler.gangTasks, gangPods]

/-- The template of a queue-admitted job. -/
def gangTemplate (replicas : Option MasterWorker) : TemplateName :=
  if replicas.isSome then .trainingQueueJob else .queueJob

theorem template_gangTasks (replicas : Option MasterWorker) (pod : Value) :
    (Compiler.gangTasks replicas pod).1 = gangTemplate replicas := by
  cases replicas <;> rfl

/-- The template leaves the number of pods open, and the job has too many. -/
def Compiler.Overfills (c : Compiler) (replicas : Option MasterWorker) : Prop :=
  ∃ base, c.templates.gangJob (gangTemplate replicas) = .ok base ∧
    base.Overfills (gangPods replicas)

/-- What goes wrong with a queue-admitted job whose pod can be made. -/
def Compiler.gangFault? (c : Compiler) (replicas : Option MasterWorker) : Option JobFault :=
  match c.templates.gangJob (gangTemplate replicas) with
  | .error fault => some fault
  | .ok base => if base.Overfills (gangPods replicas) then some .tooManyPods else none

theorem faultOf_queueAdmitted (c : Compiler) (b : Blueprint) (id : Identity)
    (replicas : Option MasterWorker) :
    faultOf (c.render b id (.queueAdmitted replicas)) =
      (faultOf b.pod).or (c.gangFault? replicas) := by
  rw [Compiler.render, Compiler.gangJob]
  refine faultOf_bind fun pod _ => ?_
  have htemplate := template_gangTasks replicas (Compiler.gangPodTemplate c.imagePullSecret id pod)
  dsimp only
  rw [htemplate, Compiler.gangFault?]
  cases c.templates.gangJob (gangTemplate replicas) with
  | error fault => rfl
  | ok base =>
    rw [faultOf_ok_bind, faultOf_overlayGang, GangInput.podCount, sum_gangTasks]

theorem Templates.gangJob_ne_tooManyPods {ts : Templates} {name : TemplateName} :
    ts.gangJob name ≠ .error .tooManyPods := by
  unfold Templates.gangJob
  split <;> nofun

theorem Compiler.gangFault?_eq_tooManyPods_iff :
    c.gangFault? replicas = some .tooManyPods ↔ c.Overfills replicas := by
  unfold gangFault? Overfills
  cases hbase : c.templates.gangJob (gangTemplate replicas) with
  | error fault =>
    refine iff_of_false (fun h => ?_) nofun
    cases h
    exact Templates.gangJob_ne_tooManyPods hbase
  | ok base => simp

end QueueAdmitted

/-! ## Built-in templates -/

section Builtin

variable {c : Compiler} {ts : Templates} {base : GangJob} {replicas : Option MasterWorker}

/-- The built-in template of a training job leaves open how many pods start together. The other one
is for a single pod. -/
theorem gangJob_builtin :
    (Templates.gangJob TemplateName.builtin .trainingQueueJob).map
        (fun job => job.spec.minAvailable) = .ok none ∧
      (Templates.gangJob TemplateName.builtin .queueJob).isOk = true := by
  decide +kernel

theorem exists_gangJob_of_builtin
    (hbuiltin : ts (gangTemplate replicas) = TemplateName.builtin (gangTemplate replicas)) :
    ∃ base, ts.gangJob (gangTemplate replicas) = .ok base ∧
      (replicas ≠ none → base.spec.minAvailable = none) := by
  have hsame : ts.gangJob (gangTemplate replicas) =
      Templates.gangJob TemplateName.builtin (gangTemplate replicas) := by
    rw [Templates.gangJob, hbuiltin, Templates.gangJob]
  rw [hsame]
  cases replicas with
  | none =>
    obtain ⟨base, hbase⟩ := exists_ok_of_isOk gangJob_builtin.2
    exact ⟨base, hbase, fun h => absurd rfl h⟩
  | some mw =>
    obtain ⟨base, hbase, hopen⟩ := map_eq_ok_iff.1 gangJob_builtin.1
    exact ⟨base, hbase, fun _ => hopen⟩

theorem GangJob.overfills_gangPods_iff (h : replicas ≠ none → base.spec.minAvailable = none) :
    base.Overfills (gangPods replicas) ↔ 2 ^ 32 ≤ gangPods replicas := by
  rw [Overfills, and_iff_right_iff_imp]
  intro hmany
  refine h ?_
  rintro rfl
  exact absurd hmany (by decide)

theorem Compiler.overfills_iff_of_builtin
    (hbuiltin : c.templates (gangTemplate replicas) = TemplateName.builtin (gangTemplate replicas)) :
    c.Overfills replicas ↔ 2 ^ 32 ≤ gangPods replicas := by
  obtain ⟨base, hbase, hopen⟩ := exists_gangJob_of_builtin hbuiltin
  rw [← GangJob.overfills_gangPods_iff hopen, Overfills, hbase]
  simp

theorem Compiler.gangFault?_of_builtin
    (hbuiltin : c.templates (gangTemplate replicas) = TemplateName.builtin (gangTemplate replicas)) :
    c.gangFault? replicas = if 2 ^ 32 ≤ gangPods replicas then some .tooManyPods else none := by
  obtain ⟨base, hbase, hopen⟩ := exists_gangJob_of_builtin hbuiltin
  rw [gangFault?, hbase]
  exact if_congr (GangJob.overfills_gangPods_iff hopen) rfl rfl

end Builtin

end ClusterJobs
