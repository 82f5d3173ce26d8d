import Mathlib.Data.List.Forall2
import ClusterJobs.Manifest.Basic
import ClusterJobs.Proofs.Manifest.Members

/-!
# What is compiled

A request that compiles gives an object whose pods are those of its blueprint. Plain jobs have one
pod template and queue-admitted jobs have one for each of their tasks.
-/

namespace ClusterJobs

open Json (Value)

/-! ## Steps that succeed -/

section Steps

variable {ε α β : Type} {x : Except ε α} {b : β}

theorem bind_eq_ok_iff {f : α → Except ε β} : x >>= f = .ok b ↔ ∃ a, x = .ok a ∧ f a = .ok b := by
  cases x with
  | error e =>
    constructor
    · intro h
      cases h
    · rintro ⟨a, h, -⟩
      cases h
  | ok a =>
    constructor
    · exact fun h => ⟨a, rfl, h⟩
    · rintro ⟨a', ha, h⟩
      cases ha
      exact h

theorem map_eq_ok_iff {f : α → β} : x.map f = .ok b ↔ ∃ a, x = .ok a ∧ f a = b := by
  cases x with
  | error e =>
    constructor
    · intro h
      cases h
    · rintro ⟨a, h, -⟩
      cases h
  | ok a =>
    constructor
    · exact fun h => ⟨a, rfl, Except.ok.inj h⟩
    · rintro ⟨a', ha, rfl⟩
      cases ha
      rfl

theorem exists_ok_of_isOk (h : x.isOk = true) : ∃ a, x = .ok a := by
  cases x with
  | error e => cases h
  | ok a => exact ⟨a, rfl⟩

end Steps

/-! ## Pods as JSON -/

theorem Pod.get?_initContainers (p : Pod) :
    p.toJson.get? "initContainers" = p.fetcher.map fun c => .arr [c.toJson] :=
  Value.get?_objectSome (by simp) (by simp)

theorem Pod.get?_volumes (p : Pod) :
    p.toJson.get? "volumes" = some (.arr (p.volumes.map Volume.toJson)) :=
  Value.get?_objectSome (by simp) (by simp)

theorem Container.get?_args (c : Container) : c.toJson.get? "args" = stringsUnlessEmpty c.args :=
  Value.get?_objectSome (by simp) (by simp)

theorem Volume.at?_hostPath (v : Volume) :
    v.toJson.at? ["hostPath", "path"] = some (.str v.hostPath) := by
  rw [Volume.toJson, Value.at?_object (by simp) (.tail _ (.head _)),
    Value.at?_object (by simp) (.head _)]
  rfl

/-- The directories of the host that a pod sees. -/
def Json.Value.hostPaths (spec : Value) : List String :=
  ((spec.get? "volumes").elim [] Value.items).filterMap fun v =>
    (v.at? ["hostPath", "path"]).bind Value.asString?

/-- A specification is that of a pod, but for the secrets that images are pulled with. -/
def Json.Value.Specifies (spec : Value) (p : Pod) : Prop :=
  ∀ key, key ≠ "imagePullSecrets" → spec.get? key = p.toJson.get? key

theorem Json.Value.Specifies.hostPaths {spec : Value} {p : Pod} (h : spec.Specifies p) :
    spec.hostPaths = p.volumes.map Volume.hostPath := by
  rw [Value.hostPaths, h "volumes" (by simp), p.get?_volumes, Option.elim_some, Value.items,
    List.filterMap_map, ← List.filterMap_eq_map]
  refine List.filterMap_congr fun v _ => ?_
  rw [Function.comp_apply, v.at?_hostPath]
  rfl

/-! ## Manifests -/

namespace Manifest

/-- The pod templates of a job. An operator makes the pods of its objects itself. -/
def podTemplates (m : Manifest) : List Value :=
  match m.kind with
  | .plain => (m.object.at? ["spec", "template"]).toList
  | .queueAdmitted =>
    ((m.object.at? ["spec", "tasks"]).elim [] Value.items).filterMap (·.get? "template")
  | .flink | .spark | .training => []

/-- The specifications of the pods of a job. -/
def podSpecs (m : Manifest) : List Value :=
  m.podTemplates.filterMap (·.get? "spec")

/-- The directories of the host that the pods of a job see. -/
def hostPaths (m : Manifest) : List String :=
  m.podSpecs.flatMap Value.hostPaths

end Manifest

namespace Compiler

variable {c : Compiler} {r : Request} {index : Option Nat} {m : Manifest} {is : List Nat}
  {ms : List Manifest} {b : Blueprint} {id : Identity} {object : Value}

theorem compile_eq_ok_iff : c.compile r index = .ok m ↔
    r.resources.check = .ok () ∧
      ∃ object, c.render (c.blueprint r index (containerName r.kind
          (derivedName r.taskName r.taskInstanceId index)))
          (.ofRequest r (derivedName r.taskName r.taskInstanceId index)) r.workload = .ok object ∧
        m = ⟨r.kind, derivedName r.taskName r.taskInstanceId index, r.nameSpace,
          containerName r.kind (derivedName r.taskName r.taskInstanceId index), r.target,
          r.taskInstanceId, index, stamp (c.catalog.resolve r.kind.objectKind) object⟩ := by
  rw [compile, bind_eq_ok_iff]
  constructor
  · rintro ⟨⟨⟩, hcheck, h⟩
    obtain ⟨object, hrender, hm⟩ := bind_eq_ok_iff.1 h
    exact ⟨hcheck, object, hrender, (Except.ok.inj hm).symm⟩
  · rintro ⟨hcheck, object, hrender, rfl⟩
    exact ⟨(), hcheck, bind_eq_ok_iff.2 ⟨object, hrender, rfl⟩⟩

theorem forall₂_of_compileItems (h : c.compileItems r is = .ok ms) :
    List.Forall₂ (fun i m => c.compile r (some i) = .ok m) is ms := by
  induction is generalizing ms with
  | nil =>
    cases h
    exact .nil
  | cons i is ih =>
    obtain ⟨m, hm, h⟩ := bind_eq_ok_iff.1 h
    obtain ⟨rest, hrest, h⟩ := bind_eq_ok_iff.1 h
    cases h
    exact .cons hm (ih hrest)

theorem get?_stamp (place : Coordinates) (object : Value) {key : String} (hkind : "kind" ≠ key)
    (hversion : "apiVersion" ≠ key) : (stamp place object).get? key = object.get? key := by
  rw [stamp, Value.get?_withMember, if_neg hkind, Value.get?_withMember, if_neg hversion]

/-- The pod template of a plain job. -/
def plainPodTemplate (id : Identity) (p : Pod) : Value :=
  .object [("metadata", .object [("labels", .texts id.podLabels)]), ("spec", p.toJson)]

/-- The object of a plain job with a pod. -/
def plainObject (id : Identity) (p : Pod) : Value :=
  .object [
    ("metadata", .object [
      ("name", .str id.name),
      ("namespace", .str id.nameSpace),
      ("labels", .texts id.labels)]),
    ("spec", .object [
      ("backoffLimit", .int 0),
      ("template", plainPodTemplate id p)])]

theorem render_plain_eq_ok_iff : c.render b id .plain = .ok object ↔
    ∃ pod, b.pod = .ok pod ∧ object = plainObject id pod := by
  rw [render, plainJob, bind_eq_ok_iff]
  simp only [Except.ok.injEq, plainObject, plainPodTemplate, eq_comm (b := object)]

theorem overlayGang_eq_ok_iff {base : GangJob} {input : GangInput} :
    overlayGang base input = .ok object ↔
      ∃ job, base.overlay input = some job ∧ object = job.toJson := by
  unfold overlayGang
  cases base.overlay input <;> simp [eq_comm]

theorem render_queueAdmitted_eq_ok_iff {replicas : Option MasterWorker} :
    c.render b id (.queueAdmitted replicas) = .ok object ↔
      ∃ pod base job, b.pod = .ok pod ∧
        c.templates.gangJob (gangTasks replicas (gangPodTemplate c.imagePullSecret id pod)).1 =
          .ok base ∧
        base.overlay ⟨id.name, id.nameSpace, id.labels, b.request.queue,
          (gangTasks replicas (gangPodTemplate c.imagePullSecret id pod)).2⟩ = some job ∧
        object = job.toJson := by
  rw [render, gangJob, bind_eq_ok_iff]
  constructor
  · rintro ⟨pod, hpod, h⟩
    obtain ⟨base, hbase, hobject⟩ := bind_eq_ok_iff.1 h
    obtain ⟨job, hjob, hobject⟩ := overlayGang_eq_ok_iff.1 hobject
    exact ⟨pod, base, job, hpod, hbase, hjob, hobject⟩
  · rintro ⟨pod, base, job, hpod, hbase, hjob, hobject⟩
    exact ⟨pod, hpod, bind_eq_ok_iff.2 ⟨base, hbase, overlayGang_eq_ok_iff.2 ⟨job, hjob, hobject⟩⟩⟩

end Compiler

/-! ## Pods of manifests -/

section Pods

variable {c : Compiler} {r : Request} {index : Option Nat} {m : Manifest}

theorem Json.Value.specifies_self (p : Pod) : p.toJson.Specifies p :=
  fun _ _ => rfl

theorem Compiler.get?_plainPodTemplate (id : Identity) (p : Pod) :
    (plainPodTemplate id p).get? "spec" = some p.toJson :=
  Value.get?_object (by simp) (.tail _ (.head _))

theorem specifies_of_gangPodTemplate (secret : String) (id : Identity) (p : Pod) :
    ∃ spec, (Compiler.gangPodTemplate secret id p).get? "spec" = some spec ∧ spec.Specifies p := by
  refine ⟨_, Value.get?_object (by simp) (.tail _ (.head _)), fun key hkey => ?_⟩
  rw [Value.get?_withMember, if_neg hkey.symm]

theorem GangTask.get?_template (t : GangTask) : t.toJson.get? "template" = some t.template :=
  Value.get?_objectSome (by simp) (by simp)

theorem Compiler.at?_name_plainObject (id : Identity) (p : Pod) :
    (plainObject id p).at? ["metadata", "name"] = some (.str id.name) := by
  rw [plainObject, Value.at?_object (by simp) (.head _), Value.at?_object (by simp) (.head _)]
  rfl

theorem Compiler.at?_template_plainObject (id : Identity) (p : Pod) :
    (plainObject id p).at? ["spec", "template"] = some (plainPodTemplate id p) := by
  rw [plainObject, Value.at?_object (by simp) (.tail _ (.head _)),
    Value.at?_object (by simp) (.tail _ (.head _))]
  rfl

theorem GangJob.at?_name (j : GangJob) :
    j.toJson.at? ["metadata", "name"] = some (.str j.metadata.name) := by
  rw [GangJob.toJson, Value.at?_object (by simp) (.tail _ (.tail _ (.head _))),
    GangMetadata.toJson, Value.at?_objectSome (by simp) (.head _)]
  rfl

theorem GangJob.at?_tasks (j : GangJob) :
    j.toJson.at? ["spec", "tasks"] = some (.arr (j.spec.tasks.map GangTask.toJson)) := by
  have htasks : j.spec.toJson.get? "tasks" = some (.arr (j.spec.tasks.map GangTask.toJson)) :=
    Value.get?_objectSome (by simp) (by simp)
  rw [GangJob.toJson, Value.at?_object (by simp) (.tail _ (.tail _ (.tail _ (.head _)))),
    Value.at?_cons, htasks]
  rfl

/-- All tasks have the same pod template, and there is one at least. -/
theorem gangTasks_templates (replicas : Option MasterWorker) (pod : Value) :
    (Compiler.gangTasks replicas pod).2 ≠ [] ∧
      ∀ t ∈ (Compiler.gangTasks replicas pod).2, t.template = pod := by
  cases replicas <;> simp [Compiler.gangTasks]

theorem specifies_of_gangTasks (replicas : Option MasterWorker) (secret : String) (id : Identity)
    (p : Pod) :
    let tasks := (Compiler.gangTasks replicas (Compiler.gangPodTemplate secret id p)).2
    (tasks.map GangTaskInput.template).filterMap (·.get? "spec") ≠ [] ∧
      ∀ spec ∈ (tasks.map GangTaskInput.template).filterMap (·.get? "spec"), spec.Specifies p := by
  intro tasks
  obtain ⟨hne, htemplate⟩ := gangTasks_templates replicas (Compiler.gangPodTemplate secret id p)
  obtain ⟨spec, hspec, hspecifies⟩ := specifies_of_gangPodTemplate secret id p
  have hspecs : (tasks.map GangTaskInput.template).filterMap (·.get? "spec") =
      tasks.map fun _ => spec := by
    rw [List.filterMap_map, ← List.filterMap_eq_map]
    refine List.filterMap_congr fun t ht => ?_
    rw [Function.comp_apply, htemplate t ht, hspec]
    rfl
  rw [hspecs]
  refine ⟨by simpa using hne, fun s hs => ?_⟩
  obtain ⟨t, -, rfl⟩ := List.mem_map.1 hs
  exact hspecifies

theorem Compiler.at?_stamp (place : Coordinates) (object : Value) {key : String}
    (rest : List String) (hkind : "kind" ≠ key) (hversion : "apiVersion" ≠ key) :
    (stamp place object).at? (key :: rest) = object.at? (key :: rest) := by
  rw [Value.at?_cons, get?_stamp place object hkind hversion, Value.at?_cons]

theorem Compiler.at?_spec_stamp (place : Coordinates) (object : Value) (rest : List String) :
    (stamp place object).at? ("spec" :: rest) = object.at? ("spec" :: rest) :=
  at?_stamp place object rest (by simp) (by simp)

/-- What is laid over an authored job, once it is known how many pods start together. -/
theorem GangJob.overlay_eq_some_iff {base job : GangJob} {input : GangInput} :
    base.overlay input = some job ↔
      ∃ n, base.startSize (input.tasks.map base.placeTask) = some n ∧ job = base.fill input n := by
  rw [overlay, Option.map_eq_some_iff]
  simp only [eq_comm]

theorem GangJob.tasks_of_overlay {base job : GangJob} {input : GangInput}
    (h : base.overlay input = some job) : job.spec.tasks = input.tasks.map base.placeTask := by
  obtain ⟨n, -, rfl⟩ := overlay_eq_some_iff.1 h
  rfl

theorem GangJob.at?_name_of_overlay {base job : GangJob} {input : GangInput}
    (h : base.overlay input = some job) :
    job.toJson.at? ["metadata", "name"] = some (.str input.name) := by
  obtain ⟨n, -, rfl⟩ := overlay_eq_some_iff.1 h
  exact at?_name _

/-- The templates of the tasks that are laid over an authored job. -/
theorem GangJob.templates_of_overlay {base job : GangJob} {input : GangInput}
    (h : base.overlay input = some job) :
    ((job.toJson.at? ["spec", "tasks"]).elim [] Value.items).filterMap
      (·.get? "template") = input.tasks.map GangTaskInput.template := by
  rw [GangJob.at?_tasks, Option.elim_some, Value.items, List.filterMap_map, tasks_of_overlay h,
    List.filterMap_map, ← List.filterMap_eq_map]
  exact List.filterMap_congr fun t _ => (base.placeTask t).get?_template

/-- The pods of a plain or queue-admitted job are those of its blueprint. The object is named. -/
theorem exists_pod_of_compile (h : c.compile r index = .ok m)
    (hkind : r.kind = .plain ∨ r.kind = .queueAdmitted) :
    ∃ pod, (c.blueprint r index m.container).pod = .ok pod ∧
      m.object.at? ["metadata", "name"] = some (.str m.name) ∧ m.podSpecs ≠ [] ∧
      ∀ spec ∈ m.podSpecs, spec.Specifies pod := by
  obtain ⟨-, object, hrender, rfl⟩ := Compiler.compile_eq_ok_iff.1 h
  simp only [Manifest.podSpecs, Manifest.podTemplates, Request.kind] at hkind hrender ⊢
  rw [Compiler.at?_stamp _ _ _ (by simp) (by simp), Compiler.at?_stamp _ _ _ (by simp) (by simp),
    Compiler.at?_stamp _ _ _ (by simp) (by simp)]
  cases hw : r.workload with
  | plain =>
    rw [hw] at hrender
    obtain ⟨pod, hpod, rfl⟩ := Compiler.render_plain_eq_ok_iff.1 hrender
    refine ⟨pod, hpod, Compiler.at?_name_plainObject _ pod, ?_⟩
    simp only [Workload.kind, Compiler.at?_template_plainObject, Option.toList_some,
      List.filterMap_cons, Compiler.get?_plainPodTemplate, List.filterMap_nil]
    exact ⟨List.cons_ne_nil _ _, List.forall_mem_singleton.2 (Value.specifies_self pod)⟩
  | queueAdmitted replicas =>
    rw [hw] at hrender
    obtain ⟨pod, base, job, hpod, -, hjob, rfl⟩ :=
      Compiler.render_queueAdmitted_eq_ok_iff.1 hrender
    refine ⟨pod, hpod, GangJob.at?_name_of_overlay hjob, ?_⟩
    simp only [Workload.kind]
    rw [GangJob.templates_of_overlay hjob]
    exact specifies_of_gangTasks replicas c.imagePullSecret _ pod
  | _ =>
    simp [hw, Workload.kind] at hkind

end Pods

/-! ## Templates of pods -/

/-- The number of templates of pods in the object of a workload. -/
def Workload.templateCount : Workload → Nat
  | .plain | .flink _ => 1
  | .queueAdmitted replicas => if replicas.isSome then 2 else 1
  | .spark _ => 2
  | .training p => p.roles.countP fun role => role.replicas ≠ 0

/-- The tasks of a queue-admitted job have one template. -/
theorem templates_of_queueAdmitted {c : Compiler} {b : Blueprint} {id : Identity} {object : Value}
    {replicas : Option MasterWorker} (h : c.render b id (.queueAdmitted replicas) = .ok object) :
    ∃ pod, b.pod = .ok pod ∧
      ((object.at? ["spec", "tasks"]).elim [] Value.items).map (·.get? "template") =
        List.replicate (Workload.templateCount (.queueAdmitted replicas))
          (some (Compiler.gangPodTemplate c.imagePullSecret id pod)) := by
  obtain ⟨pod, base, job, hpod, -, hjob, rfl⟩ := Compiler.render_queueAdmitted_eq_ok_iff.1 h
  refine ⟨pod, hpod, ?_⟩
  have hcount (template : Value) : (Compiler.gangTasks replicas template).2.length =
      Workload.templateCount (.queueAdmitted replicas) := by
    cases replicas <;> rfl
  rw [GangJob.at?_tasks, Option.elim_some, Value.items, GangJob.tasks_of_overlay hjob, List.map_map,
    List.map_map, ← hcount (Compiler.gangPodTemplate c.imagePullSecret id pod), List.map_eq_replicate_iff]
  intro t ht
  have htemplate := (gangTasks_templates replicas _).2 t ht
  exact (GangTask.get?_template _).trans (congrArg some htemplate)

end ClusterJobs
