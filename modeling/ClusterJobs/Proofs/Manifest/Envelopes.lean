import ClusterJobs.Proofs.Manifest.FanOutItems
import ClusterJobs.Proofs.Manifest.Operators
import ClusterJobs.Proofs.Quantity

/-!
# Envelopes of containers

The envelope of a request is checked before anything is compiled. The containers of plain and
queue-admitted jobs take their resources from it, Flink and Spark jobs keep those of their templates,
and each role of a training job takes them from an envelope of its own if it has one. Those are not
checked, so a training job can ask for less than nothing.
-/

namespace ClusterJobs

open Json (Value Path Edit)

/-! ## Sound envelopes -/

section Sound

variable {e : Envelope} {fault : JobFault}

/-- CPU and memory are finite and not negative, and so is the number of GPUs finite. -/
structure Envelope.Sound (e : Envelope) : Prop where
  amounts : ∀ x ∈ [e.minCpu, e.minMemory], x.isFinite = true ∧ ¬ x < 0.0
  gpu : ∀ g, e.gpu = some g → g.isFinite = true

theorem Envelope.check_eq_ok_iff : e.check = .ok () ↔ e.Sound := by
  have hsound : e.Sound ↔ isAmount e.minCpu = true ∧ isAmount e.minMemory = true ∧
      e.gpu.filter (fun g => !g.isFinite) = none := by
    simp only [isAmount_iff, Option.filter_eq_none_iff, Bool.not_eq_true', Bool.not_eq_false]
    constructor
    · exact fun h => ⟨h.amounts _ (.head _), h.amounts _ (.tail _ (.head _)), h.gpu⟩
    · rintro ⟨hcpu, hmemory, hgpu⟩
      exact ⟨by simpa using ⟨hcpu, hmemory⟩, hgpu⟩
  rw [hsound, check]
  cases isAmount e.minCpu <;> cases isAmount e.minMemory <;>
    cases e.gpu.filter (fun g => !g.isFinite) <;> simp

/-- An envelope that is not sound makes the request invalid. -/
theorem Envelope.exists_invalid_of_check (h : e.check = .error fault) :
    ∃ message, fault = .invalidRequest message := by
  unfold check at h
  split at h
  · cases h
    exact ⟨_, rfl⟩
  · split at h
    · cases h
      exact ⟨_, rfl⟩
    · split at h
      · cases h
        exact ⟨_, rfl⟩
      · cases h

end Sound

/-! ## The envelopes that are used -/

/-- The envelopes that the containers of a request take their resources from, container by
container. -/
def Request.envelopes (r : Request) : List Envelope :=
  match r.workload with
  | .plain | .queueAdmitted _ => List.replicate r.workload.templateCount r.resources
  | .flink _ | .spark _ => []
  | .training p =>
    (p.roles.filter fun role => role.replicas ≠ 0).map fun role => role.resources.getD r.resources

/-- The envelopes of its own that a role with pods has. -/
def Request.roleEnvelopes (r : Request) : List Envelope :=
  match r.workload with
  | .training p => (p.roles.filter fun role => role.replicas ≠ 0).filterMap TrainingRole.resources
  | _ => []

/-- The first item of a list. -/
def Json.Value.first? (v : Value) : Option Value :=
  v.items.head?

/-- The resources of the first container that a pod template lists. -/
def Json.Value.taskResources (template : Value) : Option Value :=
  ((template.at? ["spec", "containers"]).bind Value.first?).bind (·.get? "resources")

/-- The resources of the containers that a request describes itself, template by template. -/
def Manifest.taskResources (m : Manifest) : List (Option Value) :=
  match m.kind with
  | .plain => [(m.object.at? ["spec", "template"]).bind Value.taskResources]
  | .queueAdmitted =>
    ((m.object.at? ["spec", "tasks"]).elim [] Value.items).map fun task =>
      (task.get? "template").bind Value.taskResources
  | .flink | .spark => []
  | .training =>
    m.object.presentRoles.map fun role =>
      (m.object.at? (rolesPath ++ [role, "template"])).bind Value.taskResources

section Templates

variable {b : Blueprint} {id : Identity} {v w : Value} {role : TrainingRole} {p : Pod}
  {container : Container} {envelope : Envelope} {name : String}

theorem Blueprint.resources_of_mainContainer (h : b.mainContainer name envelope = .ok container) :
    container.resources = envelope.render b.defaultGpuType := by
  obtain ⟨command, -, h⟩ := bind_eq_ok_iff.1 h
  obtain ⟨args, -, h⟩ := bind_eq_ok_iff.1 h
  cases h
  rfl

theorem Blueprint.resources_of_pod (h : b.pod = .ok p) :
    p.container.resources = b.request.resources.render b.defaultGpuType := by
  obtain ⟨fetch, -, h⟩ := bind_eq_ok_iff.1 h
  cases fetch
  all_goals
    obtain ⟨fetcher, -, h⟩ := bind_eq_ok_iff.1 h
    obtain ⟨container, hcontainer, h⟩ := bind_eq_ok_iff.1 h
    have hresources := resources_of_mainContainer hcontainer
    cases h
    exact hresources

theorem Container.get?_resources (c : Container) :
    c.toJson.get? "resources" = some c.resources.toJson :=
  Value.get?_objectSome (by simp) (by simp)

theorem Pod.get?_containers (p : Pod) :
    p.toJson.get? "containers" = some (.arr [p.container.toJson]) :=
  Value.get?_objectSome (by simp) (by simp)

/-- The first container of a template is the one of its pod. -/
theorem taskResources_of_specifies {spec template : Value} (htemplate : template.get? "spec" =
    some spec) (hspec : spec.Specifies p) :
    template.taskResources = some p.container.resources.toJson := by
  rw [Value.taskResources, Value.at?_cons, htemplate, Option.bind_some, Value.at?_cons,
    hspec "containers" (by simp), p.get?_containers]
  exact p.container.get?_resources

theorem taskResources_plainPodTemplate (id : Identity) (p : Pod) :
    (Compiler.plainPodTemplate id p).taskResources = some p.container.resources.toJson :=
  taskResources_of_specifies (Compiler.get?_plainPodTemplate id p) (Value.specifies_self p)

theorem taskResources_gangPodTemplate (secret : String) (id : Identity) (p : Pod) :
    (Compiler.gangPodTemplate secret id p).taskResources =
      some p.container.resources.toJson := by
  obtain ⟨spec, hspec, hspecifies⟩ := specifies_of_gangPodTemplate secret id p
  exact taskResources_of_specifies hspec hspecifies

/-- The members of the container are written over those of the first one in the template. -/
theorem taskResources_role (hreplicas : role.replicas ≠ 0) (h : renderRole b id role v = .ok w) :
    (w.at? (rolesPath ++ [role.name, "template"])).bind Value.taskResources =
      some ((role.resources.getD b.request.resources).render b.defaultGpuType).toJson := by
  obtain ⟨container, hcontainer, h⟩ := (renderRole_present_eq_ok_iff hreplicas).1 h
  obtain ⟨u, u', -, hu, hat⟩ := Edit.exists_apply_of_applyAll h
  obtain ⟨ms, items, -, rfl⟩ := Edit.exists_of_extendFirst hu
  have hcontainers : w.at? (rolesPath ++ [role.name, "template", "spec", "containers"]) =
      some (.arr (Value.extend ms container.members :: items)) :=
    (hat _ (by simp)).trans (Value.at?_plant_self _ _ _)
  have hbelow : (w.at? (rolesPath ++ [role.name, "template"])).bind
      (·.at? ["spec", "containers"]) = some (.arr (Value.extend ms container.members :: items)) := by
    rw [← Value.at?_append]
    exact hcontainers
  obtain ⟨template, htemplate, hlist⟩ := Option.bind_eq_some_iff.1 hbelow
  rw [htemplate, Option.bind_some, Value.taskResources, hlist,
    ← Blueprint.resources_of_mainContainer hcontainer]
  exact Fields.get?_overwrite_of_mem (Fields.sorted_ofPairs _).nodup
    (Fields.mem_of_get? container.get?_resources)

end Templates

/-! ## When a training job compiles -/

section Training

variable {b : Blueprint} {id : Identity} {v w : Value} {role : TrainingRole}
  {roles : List TrainingRole} {c : Compiler}

theorem exists_mainContainer_iff {name : String} {e : Envelope} :
    (∃ container, b.mainContainer name e = .ok container) ↔
      (∃ command, parseMember "command" b.request.command = .ok command) ∧
        ∃ args, parseMember "args" b.request.args = .ok args := by
  simp only [Blueprint.mainContainer, bind_eq_ok_iff]
  constructor
  · rintro ⟨container, command, hcommand, args, hargs, -⟩
    exact ⟨⟨command, hcommand⟩, args, hargs⟩
  · rintro ⟨⟨command, hcommand⟩, args, hargs⟩
    exact ⟨_, command, hcommand, args, hargs, rfl⟩

/-- A role with pods can be written where the template lists a container for it. -/
theorem exists_renderRole_iff : (∃ w, renderRole b id role v = .ok w) ↔
    (role.replicas ≠ 0 →
      (∃ container, b.mainContainer trainingContainer
        (role.resources.getD b.request.resources) = .ok container) ∧
      ∃ ms items, v.at? (role.path ++ ["template", "spec", "containers"]) =
        some (.arr (.obj ms :: items))) := by
  by_cases hreplicas : role.replicas = 0
  · simp only [hreplicas, ne_eq, not_true_eq_false, false_implies, iff_true,
      renderRole_absent_eq_ok_iff]
    exact ⟨_, Value.updateAt_eq ..⟩
  · rw [forall_prop_of_true hreplicas]
    simp only [renderRole_present_eq_ok_iff hreplicas]
    constructor
    · rintro ⟨w, container, hcontainer, h⟩
      obtain ⟨u, u', hu, hu', -⟩ := Edit.exists_apply_of_applyAll h
      obtain ⟨ms, items, hat, -⟩ := Edit.exists_of_extendFirst hu'
      refine ⟨⟨container, hcontainer⟩, ms, items, ?_⟩
      rw [← hat]
      refine (Edit.at?_applyAll_of_apart hu ?_).symm
      simp [TrainingRole.path, rolesPath]
    · rintro ⟨⟨container, hcontainer⟩, ms, items, hat⟩
      have hrole := hat
      rw [Value.at?_append] at hrole
      obtain ⟨old, hold, hrole⟩ := Option.bind_eq_some_iff.1 hrole
      obtain ⟨template, htemplate, -⟩ := Option.bind_eq_some_iff.1 hrole
      obtain ⟨members, rfl⟩ := Value.exists_obj_of_get? htemplate
      obtain ⟨u, hu⟩ := Edit.exists_apply_assign hold
      obtain ⟨u', hu'⟩ : ∃ u', Edit.applyAll
          [.assign role.path "replicas" (natToJson role.replicas),
            .set (role.path ++ ["template", "metadata", "labels"]) (.texts id.podLabels)] v =
          .ok u' :=
        ⟨_, bind_eq_ok_iff.2 ⟨u, hu, bind_eq_ok_iff.2 ⟨_, Edit.apply_set_eq_ok_iff.2 rfl, rfl⟩⟩⟩
      have hlist := (Edit.at?_applyAll_of_apart hu'
        (by simp [TrainingRole.path, rolesPath])).trans hat
      obtain ⟨w, hw⟩ := Edit.exists_apply_extendFirst hlist
      exact ⟨w, container, hcontainer, Edit.applyAll_append_eq_ok_iff.2
        ⟨u', hu', bind_eq_ok_iff.2 ⟨w, hw, rfl⟩⟩⟩

/-- Whether a role can be written does not depend on what was written for the others. -/
theorem exists_renderRoles_iff (hnodup : (roles.map TrainingRole.name).Nodup) :
    (∃ w, renderRoles b id roles v = .ok w) ↔
      ∀ role ∈ roles, ∃ w, renderRole b id role v = .ok w := by
  induction roles generalizing v with
  | nil => simp [renderRoles]
  | cons first roles ih =>
    obtain ⟨hnew, hothers⟩ := List.nodup_cons.1 hnodup
    have hkept {u : Value} (hu : renderRole b id first v = .ok u) (role : TrainingRole)
        (hrole : role ∈ roles) :
        (∃ w, renderRole b id role u = .ok w) ↔ ∃ w, renderRole b id role v = .ok w := by
      have hne : first.name ≠ role.name := by
        intro heq
        exact hnew (heq ▸ List.mem_map_of_mem hrole)
      have hat := at?_renderRole_of_apart hu (Path.apart_of_ne rolesPath hne []
        ["template", "spec", "containers"])
      rw [exists_renderRole_iff, exists_renderRole_iff, TrainingRole.path, List.append_assoc,
        List.singleton_append, hat]
    rw [List.forall_mem_cons]
    constructor
    · rintro ⟨w, h⟩
      obtain ⟨u, hu, hlater⟩ := bind_eq_ok_iff.1 h
      refine ⟨⟨u, hu⟩, fun role hrole => ?_⟩
      exact (hkept hu role hrole).1 ((ih hothers).1 ⟨w, hlater⟩ role hrole)
    · rintro ⟨⟨u, hu⟩, hall⟩
      obtain ⟨w, hw⟩ := (ih hothers).2 fun role hrole => (hkept hu role hrole).2 (hall role hrole)
      exact ⟨w, bind_eq_ok_iff.2 ⟨u, hu, hw⟩⟩

/-- Envelopes of their own make no difference to whether the roles can be written. -/
theorem exists_render_training_congr {b' : Blueprint} {p q : TrainingParams}
    (hcommand : b'.request.command = b.request.command) (hargs : b'.request.args = b.request.args)
    (hmaster : q.masterReplicas = p.masterReplicas)
    (hworker : q.workerReplicas = p.workerReplicas) :
    (∃ w, c.render b' id (.training q) = .ok w) ↔ ∃ w, c.render b id (.training p) = .ok w := by
  have hroles (b : Blueprint) (p : TrainingParams) : (∃ w, c.render b id (.training p) = .ok w) ↔
      ∃ named, Edit.applyAll id.edits (c.templates .trainingJob) = .ok named ∧
        ∀ role ∈ p.roles, ∃ w, renderRole b id role named = .ok w := by
    simp only [Compiler.render_training_eq_ok_iff]
    constructor
    · rintro ⟨w, named, hnamed, h⟩
      exact ⟨named, hnamed,
        (exists_renderRoles_iff (by simp [TrainingParams.roles])).1 ⟨w, h⟩⟩
    · rintro ⟨named, hnamed, h⟩
      obtain ⟨w, h⟩ := (exists_renderRoles_iff (by simp [TrainingParams.roles])).2 h
      exact ⟨w, named, hnamed, h⟩
  simp only [hroles, TrainingParams.roles, List.forall_mem_cons, List.not_mem_nil, false_implies,
    exists_renderRole_iff, exists_mainContainer_iff, TrainingRole.path, hcommand, hargs, hmaster,
    hworker]

end Training

/-! ## Main result -/

/-- Which envelopes a request is compiled with, and which of them are checked. -/
structure EnvelopesSpec (c : Compiler) (r : Request) (index : Option Nat) : Prop where
  /-- An unsound envelope of the request itself makes it invalid, whatever its workload is. -/
  refused : ¬ r.resources.Sound → ∃ message, c.compile r index = .error (.invalidRequest message)
  /-- The containers ask for what the envelopes that are used say. -/
  rendered : ∀ m, c.compile r index = .ok m → m.taskResources =
    r.envelopes.map fun e => some (e.render c.defaultGpuType).toJson
  /-- All of those are sound, as long as the roles of a training job have no unsound ones. -/
  sound_iff : ∀ m, c.compile r index = .ok m →
    ((∀ e ∈ r.envelopes, e.Sound) ↔ ∀ e ∈ r.roleEnvelopes, e.Sound)
  /-- An envelope of a role is never refused: the request compiles if it does with any other ones. -/
  unchecked : ∀ p q : TrainingParams, r.workload = .training p →
    q.masterReplicas = p.masterReplicas → q.workerReplicas = p.workerReplicas →
    ((∃ m, c.compile { r with workload := .training q } index = .ok m) ↔
      ∃ m, c.compile r index = .ok m)
  /-- Flink and Spark jobs are the same for every sound envelope. -/
  unused : ∀ e : Envelope, r.kind = .flink ∨ r.kind = .spark → r.resources.Sound → e.Sound →
    c.compile { r with resources := e } index = c.compile r index

section Spec

variable {c : Compiler} {r : Request} {index : Option Nat} {m : Manifest}

theorem compile_of_unsound (h : ¬ r.resources.Sound) :
    ∃ message, c.compile r index = .error (.invalidRequest message) := by
  rw [← Envelope.check_eq_ok_iff] at h
  cases hcheck : r.resources.check with
  | ok u => exact absurd hcheck h
  | error fault =>
    obtain ⟨message, rfl⟩ := Envelope.exists_invalid_of_check hcheck
    refine ⟨message, ?_⟩
    rw [Compiler.compile, hcheck]
    rfl

theorem taskResources_queueAdmitted {b : Blueprint} {id : Identity} {object : Value}
    {replicas : Option MasterWorker} (h : c.render b id (.queueAdmitted replicas) = .ok object) :
    ((object.at? ["spec", "tasks"]).elim [] Value.items).map
        (fun task => (task.get? "template").bind Value.taskResources) =
      List.replicate (Workload.templateCount (.queueAdmitted replicas))
        (some (b.request.resources.render b.defaultGpuType).toJson) := by
  obtain ⟨pod, hpod, htemplates⟩ := templates_of_queueAdmitted h
  have hresources := congrArg (List.map (Option.bind · Value.taskResources)) htemplates
  rwa [List.map_map, List.map_replicate, Option.bind_some, taskResources_gangPodTemplate,
    Blueprint.resources_of_pod hpod] at hresources

theorem taskResources_training {b : Blueprint} {id : Identity} {object : Value}
    {p : TrainingParams} (h : c.render b id (.training p) = .ok object) :
    object.presentRoles.map (fun role =>
        (object.at? (rolesPath ++ [role, "template"])).bind Value.taskResources) =
      (p.roles.filter fun role => role.replicas ≠ 0).map fun role =>
        some ((role.resources.getD b.request.resources).render b.defaultGpuType).toJson := by
  rw [presentRoles_of_render h, List.map_map]
  refine List.map_congr_left fun role hrole => ?_
  obtain ⟨hmem, hreplicas⟩ := List.mem_filter.1 hrole
  obtain ⟨u, u', hu, hat⟩ := exists_of_render_training h hmem
  rw [Function.comp_apply, hat]
  exact taskResources_role (of_decide_eq_true hreplicas) hu

theorem taskResources_of_compile (h : c.compile r index = .ok m) :
    m.taskResources = r.envelopes.map fun e => some (e.render c.defaultGpuType).toJson := by
  obtain ⟨-, object, hrender, rfl⟩ := Compiler.compile_eq_ok_iff.1 h
  simp only [Manifest.taskResources, Request.envelopes, Request.kind, Value.presentRoles, rolesPath,
    List.cons_append, List.nil_append, Compiler.at?_spec_stamp] at hrender ⊢
  cases hw : r.workload with
  | plain =>
    rw [hw] at hrender
    obtain ⟨pod, hpod, rfl⟩ := Compiler.render_plain_eq_ok_iff.1 hrender
    simp only [Workload.kind, Compiler.at?_template_plainObject, Option.bind_some,
      taskResources_plainPodTemplate, Blueprint.resources_of_pod hpod]
    rfl
  | queueAdmitted replicas =>
    rw [hw] at hrender
    have hresources := taskResources_queueAdmitted hrender
    dsimp only [Compiler.blueprint, Workload.kind] at hresources ⊢
    rw [hresources, List.map_replicate]
  | flink p => rfl
  | spark p => rfl
  | training p =>
    rw [hw] at hrender
    have hresources := taskResources_training hrender
    simp only [Value.presentRoles, rolesPath, List.cons_append, List.nil_append,
      Compiler.blueprint] at hresources
    dsimp only [Workload.kind]
    rw [hresources, List.map_map]
    rfl

/-- Only a role with pods and an envelope of its own can use an unsound one. -/
theorem sound_envelopes_iff (h : r.resources.Sound) :
    (∀ e ∈ r.envelopes, e.Sound) ↔ ∀ e ∈ r.roleEnvelopes, e.Sound := by
  unfold Request.envelopes Request.roleEnvelopes
  cases r.workload with
  | training p =>
    simp only [List.forall_mem_map, List.mem_filterMap]
    constructor
    · rintro hall e ⟨role, hrole, he⟩
      have hsound := hall role hrole
      rwa [he] at hsound
    · intro hall role hrole
      cases he : role.resources with
      | none => exact h
      | some e => exact hall e ⟨role, hrole, he⟩
  | _ => simp_all

theorem compile_of_operator {e : Envelope} (hkind : r.kind = .flink ∨ r.kind = .spark)
    (hr : r.resources.Sound) (he : e.Sound) :
    c.compile { r with resources := e } index = c.compile r index := by
  rw [Compiler.compile, Compiler.compile, Envelope.check_eq_ok_iff.2 hr,
    Envelope.check_eq_ok_iff.2 he]
  unfold Request.kind at *
  dsimp only [Request.target]
  cases hw : r.workload with
  | flink p => rfl
  | spark p => rfl
  | _ => simp [hw, Workload.kind] at hkind

theorem exists_compile_training_iff {p q : TrainingParams} (hp : r.workload = .training p)
    (hmaster : q.masterReplicas = p.masterReplicas)
    (hworker : q.workerReplicas = p.workerReplicas) :
    (∃ m, c.compile { r with workload := .training q } index = .ok m) ↔
      ∃ m, c.compile r index = .ok m := by
  have hcompile (r : Request) (p : TrainingParams) (hp : r.workload = .training p) :
      (∃ m, c.compile r index = .ok m) ↔ r.resources.check = .ok () ∧
        ∃ object, c.render (c.blueprint r index trainingContainer)
          (.ofRequest r (derivedName r.taskName r.taskInstanceId index)) (.training p) =
            .ok object := by
    simp only [Compiler.compile_eq_ok_iff, Request.kind, hp]
    constructor
    · rintro ⟨m, hcheck, object, hobject, -⟩
      exact ⟨hcheck, object, hobject⟩
    · rintro ⟨hcheck, object, hobject⟩
      exact ⟨_, hcheck, object, hobject, rfl⟩
  rw [hcompile _ q rfl, hcompile r p hp]
  exact and_congr_right fun _ => exists_render_training_congr rfl rfl hmaster hworker

theorem envelopes_spec (c : Compiler) (r : Request) (index : Option Nat) :
    EnvelopesSpec c r index where
  refused := compile_of_unsound
  rendered _ := taskResources_of_compile
  sound_iff _ h := sound_envelopes_iff (Envelope.check_eq_ok_iff.1 (Compiler.compile_eq_ok_iff.1 h).1)
  unchecked _ _ := exists_compile_training_iff
  unused _ := compile_of_operator

end Spec

/-! ## A master that asks for less than nothing -/

def Envelope.negative : Envelope := { Envelope.standard with minCpu := -1.0 }

/-- The request itself passes all checks. -/
def Request.negative : Request :=
  { Request.etl false with
    workload := .training { TrainingParams.standard with masterResources := some .negative } }

theorem compile_negative :
    Request.negative.check = .ok () ∧
      Envelope.negative ∈ Request.negative.envelopes ∧ ¬ Envelope.negative.Sound ∧
      Envelope.negative.render "nvidia.com/gpu" =
        ⟨some [("cpu", "-1"), ("memory", "1024Mi")], some [("cpu", "-2"), ("memory", "2048Mi")]⟩ ∧
      ∃ m, Compiler.standard.compile .negative none = .ok m ∧
        some (Envelope.negative.render Compiler.standard.defaultGpuType).toJson ∈
          m.taskResources := by
  have hmem : Envelope.negative ∈ Request.negative.envelopes := .head _
  refine ⟨by decide +kernel, hmem, ?_, by decide +kernel, ?_⟩
  · rw [← Envelope.check_eq_ok_iff]
    decide +kernel
  · have hok : Except.isOk (Compiler.standard.compile .negative none) = true := by decide +kernel
    obtain ⟨m, h⟩ := exists_ok_of_isOk hok
    refine ⟨m, h, ?_⟩
    rw [taskResources_of_compile h]
    exact List.mem_map_of_mem hmem

end ClusterJobs
