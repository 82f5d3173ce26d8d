import ClusterJobs.Proofs.Manifest.FanOutItems
import ClusterJobs.Proofs.Manifest.Obstructions

/-!
# How many pods start together

The tasks of a gang job are those that are laid over its template, each with the policies that are
authored for its name. If no minimum is authored, all their pods start together, unless they are more
than a word can count: then the job is not built at all.
-/

namespace ClusterJobs

open Json (Value)

/-! ## Tasks -/

/-- The policies of the first authored task of a name; none if there is no such task. -/
inductive AuthoredPolicies (name : String) : List GangTask → List GangPolicy → Prop where
  | none : AuthoredPolicies name [] []
  | first {t : GangTask} {rest : List GangTask} : t.name = name →
      AuthoredPolicies name (t :: rest) t.policies
  | later {t : GangTask} {rest : List GangTask} {policies : List GangPolicy} : t.name ≠ name →
      AuthoredPolicies name rest policies → AuthoredPolicies name (t :: rest) policies

/-- The task is the given one, with the policies that are authored for it. -/
structure GangJob.Places (base : GangJob) (given : GangTaskInput) (placed : GangTask) : Prop where
  name : placed.name = given.name
  replicas : placed.replicas = given.replicas
  template : placed.template = given.template
  policies : AuthoredPolicies given.name base.spec.tasks placed.policies

section Tasks

variable {base job : GangJob} {input : GangInput}

theorem authoredPolicies_find (name : String) (tasks : List GangTask) :
    AuthoredPolicies name tasks
      (((tasks.find? fun t => t.name == name).map GangTask.policies).getD []) := by
  induction tasks with
  | nil => exact .none
  | cons t rest ih =>
    by_cases hname : t.name = name
    · have hfind : (t :: rest).find? (fun t => t.name == name) = some t :=
        List.find?_cons_of_pos (beq_iff_eq.2 hname)
      rw [hfind]
      exact .first hname
    · have hfind : (t :: rest).find? (fun t => t.name == name) =
          rest.find? fun t => t.name == name :=
        List.find?_cons_of_neg (by simpa using hname)
      rw [hfind]
      exact .later hname ih

theorem GangJob.policiesOf_eq (base : GangJob) (name : String) : base.policiesOf name =
    ((base.spec.tasks.find? fun t => t.name == name).map GangTask.policies).getD [] := by
  unfold policiesOf
  cases base.spec.tasks.find? fun t => t.name == name <;> rfl

theorem GangJob.places_placeTask (base : GangJob) (given : GangTaskInput) :
    base.Places given (base.placeTask given) where
  name := rfl
  replicas := rfl
  template := rfl
  policies := by
    rw [placeTask, policiesOf_eq]
    exact authoredPolicies_find given.name base.spec.tasks

theorem GangJob.forall₂_places (h : base.overlay input = some job) :
    List.Forall₂ base.Places input.tasks job.spec.tasks := by
  rw [tasks_of_overlay h, List.forall₂_map_right_iff]
  exact List.forall₂_same.2 fun given _ => base.places_placeTask given

end Tasks

/-! ## Compiled jobs -/

section Compiled

variable {c : Compiler} {r : Request} {index : Option Nat} {m : Manifest} {mw : MasterWorker}

theorem GangJob.at?_minAvailable {j : GangJob} {n : Nat} (h : j.spec.minAvailable = some n) :
    j.toJson.at? ["spec", "minAvailable"] = some (.int n) := by
  have hmember : j.spec.toJson.get? "minAvailable" = some (.int n) :=
    Value.get?_objectSome (by simp) (by simp [h])
  rw [GangJob.toJson, Value.at?_object (by simp) (.tail _ (.tail _ (.tail _ (.head _)))),
    Value.at?_cons, hmember]
  rfl

theorem GangTask.get?_replicas (t : GangTask) :
    t.toJson.get? "replicas" = some (.int t.replicas) :=
  Value.get?_objectSome (by simp) (by simp)

/-- The replicas of the tasks in an object. -/
def Json.Value.taskReplicas (object : Value) : List (Option Value) :=
  ((object.at? ["spec", "tasks"]).elim [] Value.items).map (·.get? "replicas")

theorem GangJob.taskReplicas_toJson (j : GangJob) :
    j.toJson.taskReplicas = j.spec.tasks.map fun t => some (.int t.replicas) := by
  rw [Value.taskReplicas, GangJob.at?_tasks, Option.elim_some, Value.items, List.map_map]
  exact List.map_congr_left fun t _ => t.get?_replicas

/-- The job of a master and workers is laid over its template, with their replicas. -/
theorem exists_overlay_of_compile (hworkload : r.workload = .queueAdmitted (some mw))
    (h : c.compile r index = .ok m) : ∃ base input job,
      c.templates.gangJob .trainingQueueJob = .ok base ∧ base.overlay input = some job ∧
      input.tasks.map GangTaskInput.replicas = [mw.master, mw.worker] ∧
      m.object.taskReplicas = [some (.int mw.master), some (.int mw.worker)] ∧
      m.object.at? ["spec", "minAvailable"] = job.toJson.at? ["spec", "minAvailable"] := by
  obtain ⟨-, object, hrender, rfl⟩ := Compiler.compile_eq_ok_iff.1 h
  rw [hworkload] at hrender
  obtain ⟨pod, base, job, -, hbase, hjob, rfl⟩ :=
    Compiler.render_queueAdmitted_eq_ok_iff.1 hrender
  refine ⟨base, _, job, hbase, hjob, rfl, ?_, Compiler.at?_spec_stamp ..⟩
  dsimp only
  rw [Value.taskReplicas, Compiler.at?_spec_stamp, ← Value.taskReplicas,
    GangJob.taskReplicas_toJson, GangJob.tasks_of_overlay hjob]
  rfl

/-- The template of a job with a master and workers is the one for training jobs. -/
theorem gangTemplate_of_builtin (mw : MasterWorker)
    (hbuiltin : c.templates .trainingQueueJob = TemplateName.builtin .trainingQueueJob) :
    c.templates (gangTemplate (some mw)) = TemplateName.builtin (gangTemplate (some mw)) :=
  hbuiltin

theorem minAvailable_of_compile
    (hbuiltin : c.templates .trainingQueueJob = TemplateName.builtin .trainingQueueJob)
    (hworkload : r.workload = .queueAdmitted (some mw)) (h : c.compile r index = .ok m) :
    m.object.at? ["spec", "minAvailable"] = some (.int (mw.master + mw.worker : Nat)) := by
  obtain ⟨base, input, job, hbase, hjob, hreplicas, -, hmin⟩ := exists_overlay_of_compile hworkload h
  obtain ⟨base', hbase', hopen⟩ := exists_gangJob_of_builtin (gangTemplate_of_builtin mw hbuiltin)
  obtain rfl : base' = base := Except.ok.inj (hbase'.symm.trans hbase)
  have hcount : input.podCount = mw.master + mw.worker := by
    rw [GangInput.podCount, hreplicas, List.sum_cons, List.sum_singleton]
  have hsize := GangJob.minAvailable_of_none (hopen (Option.some_ne_none _)) hjob
  rw [hmin, GangJob.at?_minAvailable hsize, hcount]

/-- With the built-in template nothing but the number of its pods breaks the job down. -/
theorem overfilled_iff_of_builtin
    (hbuiltin : c.templates .trainingQueueJob = TemplateName.builtin .trainingQueueJob)
    (hworkload : r.workload = .queueAdmitted (some mw)) :
    c.compile r index = .error .tooManyPods ↔
      r.resources.check = .ok () ∧
      (∃ pod, (c.blueprint r index (derivedName r.taskName r.taskInstanceId index)).pod = .ok pod) ∧
      2 ^ 32 ≤ mw.master + mw.worker := by
  have hname : Compiler.containerName r.kind (derivedName r.taskName r.taskInstanceId index) =
      derivedName r.taskName r.taskInstanceId index := by
    rw [Request.kind, hworkload]
    rfl
  rw [Compiler.compile_overfilled_iff, hname, hworkload]
  simp only [Workload.queueAdmitted.injEq, exists_eq_left',
    Compiler.overfills_iff_of_builtin (gangTemplate_of_builtin mw hbuiltin)]
  rfl

end Compiled

/-! ## Main result -/

/-- What the tasks of a gang job are, and how many of its pods start together: of one that is laid
over a template, and of those that are compiled for a master and workers. -/
structure GangSizesSpec (base : GangJob) (input : GangInput) (c : Compiler) : Prop where
  /-- The tasks are the given ones in order, with the policies authored for their names. -/
  tasks : ∀ job, base.overlay input = some job →
    List.Forall₂ base.Places input.tasks job.spec.tasks
  /-- An authored minimum stays. -/
  authored : ∀ n, base.spec.minAvailable = some n →
    ∃ job, base.overlay input = some job ∧ job.spec.minAvailable = some n
  /-- Without one it is the number of all pods. -/
  counted : base.spec.minAvailable = none → ∀ job, base.overlay input = some job →
    job.spec.minAvailable = some input.podCount
  /-- But then there is a job exactly if a word can hold that number. -/
  built_iff : base.spec.minAvailable = none →
    ((∃ job, base.overlay input = some job) ↔ input.podCount < 2 ^ 32)
  /-- The tasks of a training job are its master and its workers. -/
  roles : ∀ (r : Request) (index : Option Nat) (m : Manifest) (mw : MasterWorker),
    r.workload = .queueAdmitted (some mw) → c.compile r index = .ok m →
      m.object.taskReplicas = [some (.int mw.master), some (.int mw.worker)]
  /-- With the built-in template they start together. -/
  training : c.templates .trainingQueueJob = TemplateName.builtin .trainingQueueJob →
    ∀ (r : Request) (index : Option Nat) (m : Manifest) (mw : MasterWorker),
      r.workload = .queueAdmitted (some mw) → c.compile r index = .ok m →
        m.object.at? ["spec", "minAvailable"] = some (.int (mw.master + mw.worker : Nat))
  /-- But the compiler breaks down, once the pod is made, exactly if a word cannot hold their
  number. -/
  breaks_iff : c.templates .trainingQueueJob = TemplateName.builtin .trainingQueueJob →
    ∀ (r : Request) (index : Option Nat) (mw : MasterWorker),
      r.workload = .queueAdmitted (some mw) →
        (c.compile r index = .error .tooManyPods ↔
          r.resources.check = .ok () ∧
          (∃ pod, (c.blueprint r index (derivedName r.taskName r.taskInstanceId index)).pod =
            .ok pod) ∧
          2 ^ 32 ≤ mw.master + mw.worker)

/-- Gang jobs start all their pods together, unless these are more than a word can count. -/
theorem gangSizes_spec (base : GangJob) (input : GangInput) (c : Compiler) :
    GangSizesSpec base input c where
  tasks _ := GangJob.forall₂_places
  authored n hmin := by
    cases hjob : base.overlay input with
    | none =>
      have hopen := (GangJob.overlay_eq_none_iff.1 hjob).1
      rw [hmin] at hopen
      cases hopen
    | some job => exact ⟨job, rfl, GangJob.minAvailable_of_some hmin hjob⟩
  counted hmin _ := GangJob.minAvailable_of_none hmin
  built_iff hmin := by
    rw [← Option.ne_none_iff_exists', ne_eq, GangJob.overlay_eq_none_iff, GangJob.Overfills,
      and_iff_right hmin, Nat.not_le]
  roles _ _ _ _ hworkload h := by
    obtain ⟨_, _, _, -, -, -, hroles, -⟩ := exists_overlay_of_compile hworkload h
    exact hroles
  training hbuiltin _ _ _ _ := minAvailable_of_compile hbuiltin
  breaks_iff hbuiltin _ _ _ := overfilled_iff_of_builtin hbuiltin

/-! ## One worker too many -/

/-- As many masters as a word can count, and a worker. -/
def Request.overfull : Request :=
  { Request.etl false with workload := .queueAdmitted (some ⟨4294967295, 1⟩) }

/-- It is a sound request, but its job cannot be compiled. -/
theorem gangSizes_of_overfull : Request.overfull.check = .ok () ∧
    Compiler.standard.compile .overfull none = .error .tooManyPods := by
  have hcompile : faultOf (Compiler.standard.compile .overfull none) = some .tooManyPods := by
    decide +kernel
  exact ⟨by decide +kernel, faultOf_eq_some_iff.1 hcompile⟩

end ClusterJobs
