import ClusterJobs.Proofs.Manifest.Fitting
import ClusterJobs.Proofs.Manifest.GangPods

/-!
# Lists that a request is read for

The command of a request, its arguments and those of its fetch specs are lists written as texts. A job
is read for some of them, in an order that its workload gives. With built-in templates a sound request
has the fault of the first list that is none. Nothing else can keep it from being compiled, unless it
asks for more pods than a word can count.
-/

namespace ClusterJobs

open Json (Value Path Edit)

/-! ## The lists of a request -/

/-- A list in a member of a request: the name of the member and its text. -/
abbrev WrittenList := String × String

namespace WrittenList

variable {l : WrittenList} {fault : JobFault}

/-- The text is a list. -/
def Readable (l : WrittenList) : Prop :=
  ∃ items, Yaml.parseList l.2 = .ok items

/-- The text is no list; the fault names the member and says why. -/
def FailsWith (l : WrittenList) (fault : JobFault) : Prop :=
  ∃ cause, Yaml.parseList l.2 = .error cause ∧ fault = .manifestParse l.1
    ("Parse yaml-like commands and args failed: " ++ cause.message)

/-- The fault of a list that cannot be read. -/
def fault? (l : WrittenList) : Option JobFault :=
  faultOf (parseMember l.1 l.2)

theorem fault?_eq_none_iff : l.fault? = none ↔ l.Readable := by
  rw [fault?, faultOf_eq_none_iff, parseMember, Readable]
  cases Yaml.parseList l.2 <;> simp

theorem fault?_eq_some_iff : l.fault? = some fault ↔ l.FailsWith fault := by
  rw [fault?, faultOf_eq_some_iff, parseMember, FailsWith]
  cases Yaml.parseList l.2 <;> simp [eq_comm]

end WrittenList

namespace Request

/-- The command and the arguments of the task. -/
def taskLists (r : Request) : List WrittenList :=
  [("command", r.command), ("args", r.args)]

/-- The lists of a pod: first the arguments of what it fetches, if it fetches something. -/
def podLists (r : Request) (fetch : Option FetchSpec) : List WrittenList :=
  (fetch.toList.map fun f => ("fetch args", f.args)) ++ r.taskLists

/-- The fetch spec at a place: the item's own in a fan-out, else the first. -/
def fetchAt? (r : Request) (index : Option Nat) : Option FetchSpec :=
  match r.multiple, index with
  | true, some i => r.fetches[i]?
  | _, _ => r.fetches.head?

/-- The lists that a role of a training job is read for: none without pods. -/
def roleLists (r : Request) (role : TrainingRole) : List WrittenList :=
  if role.replicas = 0 then [] else r.taskLists

/-- The lists that the job at a place is read for, in order. -/
def listsAt (r : Request) (index : Option Nat) : List WrittenList :=
  match r.workload with
  | .plain | .queueAdmitted _ => r.podLists (r.fetchAt? index)
  | .flink _ => []
  | .spark _ => [("args", r.args)]
  | .training p => p.roles.flatMap r.roleLists

/-- The lists that all jobs of a request are read for, in order. -/
def lists (r : Request) : List WrittenList :=
  r.places.flatMap r.listsAt

end Request

/-- The job has more pods than a word can count. -/
def Workload.Overfull : Workload → Prop
  | .queueAdmitted replicas => 2 ^ 32 ≤ gangPods replicas
  | _ => False

instance : DecidablePred Workload.Overfull
  | .queueAdmitted replicas => inferInstanceAs (Decidable (2 ^ 32 ≤ gangPods replicas))
  | .plain | .flink _ | .spark _ | .training _ => inferInstanceAs (Decidable False)

/-- The fault of a job with too many pods. -/
def Workload.podsFault? (w : Workload) : Option JobFault :=
  if w.Overfull then some .tooManyPods else none

/-- The fault of the job at a place: that of the first list that cannot be read, else that it has too
many pods. -/
def Request.FailsAt (r : Request) (index : Option Nat) (fault : JobFault) : Prop :=
  (∃ before l after, r.listsAt index = before ++ l :: after ∧ (∀ l' ∈ before, l'.Readable) ∧
    l.FailsWith fault) ∨
  (∀ l ∈ r.listsAt index, l.Readable) ∧ r.workload.Overfull ∧ fault = .tooManyPods

/-! ## Pods -/

namespace Blueprint

variable {b : Blueprint} {fetch : Option FetchSpec}

theorem faultOf_fetchContainer (image : String) (f : FetchSpec) :
    faultOf (fetchContainer image f) = WrittenList.fault? ("fetch args", f.args) :=
  faultOf_bind_ok _

theorem faultOf_mainContainer (b : Blueprint) (name : String) (e : Envelope) :
    faultOf (b.mainContainer name e) = b.request.taskLists.findSome? WrittenList.fault? := by
  rw [Request.taskLists, findSome?_cons_or, findSome?_cons_or, List.findSome?_nil, Option.or_none]
  exact faultOf_bind fun _ _ => faultOf_bind_ok _

/-- A pod whose fetch spec is there can be made if its lists can be read. -/
theorem faultOf_pod (hfetch : b.fetch = .ok fetch) :
    faultOf b.pod = (b.request.podLists fetch).findSome? WrittenList.fault? := by
  rw [Request.podLists, List.findSome?_append,
    ← b.faultOf_mainContainer b.containerName b.request.resources, pod, hfetch, faultOf_ok_bind]
  cases fetch with
  | none =>
    simp only [Option.toList_none, List.map_nil, List.findSome?_nil, Option.none_or,
      faultOf_ok_bind]
    exact faultOf_bind_ok _
  | some f =>
    simp only [Option.toList_some, List.map_cons, List.map_nil, List.findSome?_singleton]
    rw [faultOf_bind fun _ _ => faultOf_bind_ok _, faultOf_map, faultOf_fetchContainer]

/-- The fetch spec of every place of a request is there. -/
theorem fetch_of_place (c : Compiler) {r : Request} {index : Option Nat} (hplace : index ∈ r.places)
    (container : String) :
    (c.blueprint r index container).fetch = .ok (r.fetchAt? index) := by
  unfold Request.places at hplace
  simp only [Compiler.blueprint, Blueprint.fetch, Request.fetchAt?]
  cases hmultiple : r.multiple with
  | false => rfl
  | true =>
    rw [hmultiple, if_pos rfl] at hplace
    obtain ⟨i, hi, rfl⟩ := List.mem_map.1 hplace
    dsimp only
    rw [List.getElem?_eq_getElem (List.mem_range.1 hi)]

end Blueprint

/-! ## Jobs from built-in templates -/

section Render

variable {c : Compiler} {b : Blueprint} {id : Identity} {fetch : Option FetchSpec}

theorem faultOf_plainJob (hfetch : b.fetch = .ok fetch) :
    faultOf (c.render b id .plain) = (b.request.podLists fetch).findSome? WrittenList.fault? :=
  (faultOf_bind_ok _).trans (Blueprint.faultOf_pod hfetch)

theorem faultOf_overlay {name : TemplateName} {es : List Edit} {v : Value}
    (h : ∃ w, Edit.applyAll es v = .ok w) : faultOf (overlay name es v) = none := by
  obtain ⟨w, hw⟩ := h
  exact faultOf_eq_none_iff.2 ⟨w, overlay_eq_ok_iff.2 hw⟩

theorem faultOf_flink (hbuiltin : c.templates = TemplateName.builtin) (p : FlinkParams) :
    faultOf (c.render b id (.flink p)) = none := by
  obtain ⟨named, hnamed, hspec⟩ := id.exists_applyAll_edits
    (v := TemplateName.builtin .flinkDeployment) ⟨_, rfl⟩
  obtain ⟨w, hw⟩ := exists_applyAll_flinkEdits b id p ⟨_, _, (hspec _).trans rfl⟩
  rw [Compiler.render, renderFlink, hbuiltin]
  exact faultOf_overlay ⟨w, Edit.applyAll_append_eq_ok_iff.2 ⟨named, hnamed, hw⟩⟩

theorem faultOf_spark (hbuiltin : c.templates = TemplateName.builtin) (p : SparkParams) :
    faultOf (c.render b id (.spark p)) = WrittenList.fault? ("args", b.request.args) := by
  obtain ⟨named, hnamed, hspec⟩ := id.exists_applyAll_edits
    (v := TemplateName.builtin .sparkApplication) ⟨_, rfl⟩
  rw [Compiler.render, renderSpark, hbuiltin, overlay_eq_ok_iff.2 hnamed, faultOf_ok_bind]
  refine (faultOf_bind fun arguments _ => ?_).trans Option.or_none
  exact faultOf_overlay (exists_applyAll_sparkEdits b id p arguments ⟨_, (hspec _).trans rfl⟩)

end Render

/-! ## Training jobs -/

section Training

variable {c : Compiler} {b : Blueprint} {id : Identity} {v : Value} {role : TrainingRole}
  {roles : List TrainingRole}

/-- Where the containers of a role stand. -/
def TrainingRole.containersPath (role : TrainingRole) : Path :=
  role.path ++ ["template", "spec", "containers"]

/-- What is written for a role before its container. -/
def TrainingRole.countEdits (role : TrainingRole) (id : Identity) : List Edit :=
  [.assign role.path "replicas" (natToJson role.replicas),
    .set (role.path ++ ["template", "metadata", "labels"]) (.texts id.podLabels)]

/-- A role that lists a container can be counted and labelled, and then still lists one. -/
theorem exists_applyAll_countEdits (id : Identity) (hcontainers : v.ItemAt role.containersPath) :
    ∃ counted, Edit.applyAll (role.countEdits id) v = .ok counted ∧
      counted.ItemAt role.containersPath := by
  have hrole : Edit.Fits v (.assign role.path "replicas" (natToJson role.replicas)) :=
    hcontainers.objectAt
  have hlabels : ∀ e ∈ [Edit.set (role.path ++ ["template", "metadata", "labels"])
      (.texts id.podLabels)], e.Free := List.forall_mem_singleton.2 trivial
  obtain ⟨counted, hcounted⟩ := Edit.exists_applyAll_append (List.forall_mem_singleton.2 hrole)
    (List.pairwise_singleton _ _) hlabels
  obtain ⟨ms, items, hat⟩ := hcontainers
  refine ⟨counted, hcounted, ms, items, (Edit.at?_applyAll_of_apart hcounted ?_).trans hat⟩
  simp [TrainingRole.containersPath, TrainingRole.path, rolesPath]

theorem faultOf_renderRole (hcontainers : v.ItemAt role.containersPath) :
    faultOf (renderRole b id role v) =
      (b.request.roleLists role).findSome? WrittenList.fault? := by
  unfold Request.roleLists
  by_cases hreplicas : role.replicas = 0
  · rw [if_pos hreplicas, List.findSome?_nil, faultOf_eq_none_iff]
    exact exists_renderRole_iff.2 fun hne => absurd hreplicas hne
  · obtain ⟨counted, hcounted, hkept⟩ := exists_applyAll_countEdits id hcontainers
    have hrender : renderRole b id role v = (overlay .trainingJob (role.countEdits id) v >>=
        fun counted => b.mainContainer trainingContainer
          (role.resources.getD b.request.resources) >>= fun container =>
        overlay .trainingJob [.extendFirst role.path ["template", "spec", "containers"]
          container.members] counted) := if_neg hreplicas
    rw [if_neg hreplicas, hrender, overlay_eq_ok_iff.2 hcounted, faultOf_ok_bind,
      ← b.faultOf_mainContainer trainingContainer (role.resources.getD b.request.resources)]
    refine (faultOf_bind fun container _ => faultOf_overlay ?_).trans Option.or_none
    exact Edit.exists_applyAll (List.forall_mem_singleton.2 hkept) (List.pairwise_singleton _ _)

theorem faultOf_renderRoles (hnodup : (roles.map TrainingRole.name).Nodup)
    (hcontainers : ∀ role ∈ roles, v.ItemAt role.containersPath) :
    faultOf (renderRoles b id roles v) =
      (roles.flatMap b.request.roleLists).findSome? WrittenList.fault? := by
  induction roles generalizing v with
  | nil => rfl
  | cons role roles ih =>
    obtain ⟨hnew, hothers⟩ := List.nodup_cons.1 hnodup
    rw [List.flatMap_cons, List.findSome?_append, ← faultOf_renderRole (hcontainers _ (.head _))]
    refine faultOf_bind fun w hw => ih hothers fun other hother => ?_
    have hne : role.name ≠ other.name := by
      intro heq
      exact hnew (heq ▸ List.mem_map_of_mem hother)
    obtain ⟨ms, items, hat⟩ := hcontainers other (.tail _ hother)
    refine ⟨ms, items, (at?_renderRole_of_apart hw ?_).trans hat⟩
    exact Path.apart_of_ne rolesPath hne [] _

theorem faultOf_training (hbuiltin : c.templates = TemplateName.builtin) (p : TrainingParams) :
    faultOf (c.render b id (.training p)) =
      (p.roles.flatMap b.request.roleLists).findSome? WrittenList.fault? := by
  obtain ⟨named, hnamed, hspec⟩ := id.exists_applyAll_edits
    (v := TemplateName.builtin .trainingJob) ⟨_, rfl⟩
  rw [Compiler.render, renderTraining, hbuiltin, overlay_eq_ok_iff.2 hnamed, faultOf_ok_bind]
  refine faultOf_renderRoles (by simp [TrainingParams.roles]) fun role hrole => ?_
  simp only [TrainingParams.roles, List.mem_cons, List.not_mem_nil, or_false] at hrole
  rcases hrole with rfl | rfl <;> exact ⟨_, _, (hspec _).trans rfl⟩

end Training

/-! ## Requests -/

/-- A request that passes its check has a sound envelope, and a fan-out has items. -/
theorem Request.sound_of_check {r : Request} (h : r.check = .ok ()) :
    r.resources.check = .ok () ∧ (r.multiple = true → r.fetches ≠ []) := by
  unfold check at h
  dsimp only at h
  by_cases hname : Text.isBlankText r.taskName = true
  · rw [if_pos hname] at h
    cases h
  · by_cases himage : (r.needsImage && Text.isBlankText r.image) = true
    · rw [if_neg hname, if_pos himage] at h
      cases h
    · rw [if_neg hname, if_neg himage] at h
      obtain ⟨⟨⟩, hresources, h⟩ := bind_eq_ok_iff.1 h
      refine ⟨hresources, fun hmultiple hfetches => ?_⟩
      rw [hmultiple, hfetches] at h
      cases h

namespace Compiler

variable {c : Compiler} {r : Request} {index : Option Nat}

/-- The fault of a job is that of the first of its lists that cannot be read, or of its pods. -/
theorem faultOf_compile (hbuiltin : c.templates = TemplateName.builtin)
    (hresources : r.resources.check = .ok ()) (hplace : index ∈ r.places) :
    faultOf (c.compile r index) =
      ((r.listsAt index).findSome? WrittenList.fault?).or r.workload.podsFault? := by
  rw [compile, hresources, faultOf_ok_bind]
  dsimp only
  rw [faultOf_bind_ok, Request.listsAt, Workload.podsFault?]
  have hfetch := Blueprint.fetch_of_place c hplace
  cases r.workload with
  | plain => exact (faultOf_plainJob (hfetch _)).trans Option.or_none.symm
  | queueAdmitted replicas =>
    rw [faultOf_queueAdmitted, Blueprint.faultOf_pod (hfetch _),
      gangFault?_of_builtin (congrFun hbuiltin _)]
    rfl
  | flink p => exact faultOf_flink hbuiltin p
  | spark p =>
    rw [List.findSome?_singleton]
    exact (faultOf_spark hbuiltin p).trans Option.or_none.symm
  | training p => exact (faultOf_training hbuiltin p).trans Option.or_none.symm

/-- A job fails at a place as its lists and its pods say. -/
theorem compile_eq_error_iff (hbuiltin : c.templates = TemplateName.builtin)
    (hresources : r.resources.check = .ok ()) (hplace : index ∈ r.places) {fault : JobFault} :
    c.compile r index = .error fault ↔ r.FailsAt index fault := by
  rw [← faultOf_eq_some_iff, faultOf_compile hbuiltin hresources hplace, Option.or_eq_some_iff,
    List.findSome?_eq_some_iff, List.findSome?_eq_none_iff, Request.FailsAt, Workload.podsFault?]
  simp only [WrittenList.fault?_eq_some_iff, WrittenList.fault?_eq_none_iff]
  refine or_congr ?_ (and_congr_right fun _ => ?_)
  · simp only [and_comm]
  · split <;> simp [*, eq_comm]

theorem faultOf_compileItems (is : List Nat) :
    faultOf (c.compileItems r is) = (is.map some).findSome? fun index =>
      faultOf (c.compile r index) := by
  induction is with
  | nil => rfl
  | cons i is ih =>
    rw [List.map_cons, findSome?_cons_or, ← ih]
    exact faultOf_bind fun _ _ => faultOf_bind_ok _

/-- The fault of a request is that of the first of its jobs that cannot be compiled. -/
theorem faultOf_compileAll (c : Compiler) (r : Request) :
    faultOf (c.compileAll r) = r.places.findSome? fun index => faultOf (c.compile r index) := by
  unfold compileAll Request.places
  cases r.multiple with
  | true => exact faultOf_compileItems _
  | false =>
    rw [if_neg (by simp), if_neg (by simp), faultOf_map, List.findSome?_singleton]

/-- A request that asks for no more pods than a word can count fails by its lists only. -/
theorem faultOf_compileAll_of_builtin (hbuiltin : c.templates = TemplateName.builtin)
    (hresources : r.resources.check = .ok ()) (hpods : ¬ r.workload.Overfull) :
    faultOf (c.compileAll r) = r.lists.findSome? WrittenList.fault? := by
  rw [faultOf_compileAll, Request.lists, findSome?_flatMap]
  refine findSome?_congr fun index hindex => ?_
  rw [faultOf_compile hbuiltin hresources hindex, Workload.podsFault?, if_neg hpods, Option.or_none]

/-- One that asks for more fails with its first job. -/
theorem faultOf_compileAll_of_overfull (hbuiltin : c.templates = TemplateName.builtin)
    (hresources : r.resources.check = .ok ()) (hpods : r.workload.Overfull) {place : Option Nat}
    {rest : List (Option Nat)} (hplaces : r.places = place :: rest) :
    faultOf (c.compileAll r) = faultOf (c.compile r place) := by
  have hplace : place ∈ r.places := hplaces ▸ .head _
  rw [faultOf_compileAll, hplaces, findSome?_cons_or, faultOf_compile hbuiltin hresources hplace,
    Workload.podsFault?, if_pos hpods, Option.or_assoc, Option.some_or]

end Compiler

/-! ## The lists that a request uses -/

namespace Request

/-- What the pods of a request fetch: all of its fetch specs in a fan-out, else the first. -/
def usedFetches (r : Request) : List FetchSpec :=
  if r.multiple then r.fetches else r.fetches.head?.toList

/-- The texts of the lists that a request uses. -/
def usedTexts (r : Request) : List String :=
  match r.workload with
  | .plain | .queueAdmitted _ => r.command :: r.args :: r.usedFetches.map FetchSpec.args
  | .flink _ => []
  | .spark _ => [r.args]
  | .training p => if p.masterReplicas = 0 ∧ p.workerReplicas = 0 then [] else [r.command, r.args]

end Request

section Used

variable {r : Request} {text : String}

theorem Request.places_ne_nil (hitems : r.multiple = true → r.fetches ≠ []) : r.places ≠ [] := by
  unfold places
  cases hmultiple : r.multiple with
  | false => simp
  | true => simpa using hitems hmultiple

theorem Request.mem_usedFetches_iff {f : FetchSpec} :
    f ∈ r.usedFetches ↔ ∃ index ∈ r.places, r.fetchAt? index = some f := by
  unfold usedFetches places fetchAt?
  cases r.multiple with
  | false => simp
  | true =>
    simp only [if_true, List.mem_map, List.mem_range]
    constructor
    · intro hf
      obtain ⟨i, hi⟩ := List.mem_iff_getElem?.1 hf
      exact ⟨some i, ⟨i, (List.getElem?_eq_some_iff.1 hi).1, rfl⟩, hi⟩
    · rintro ⟨index, ⟨i, -, rfl⟩, hi⟩
      exact List.mem_of_getElem? hi

theorem Request.mem_taskLists_iff : (∃ l ∈ r.taskLists, l.2 = text) ↔ text ∈ [r.command, r.args] := by
  simp [taskLists, eq_comm]

theorem Request.mem_podLists_iff {fetch : Option FetchSpec} :
    (∃ l ∈ r.podLists fetch, l.2 = text) ↔
      text ∈ [r.command, r.args] ∨ ∃ f, fetch = some f ∧ f.args = text := by
  rw [← mem_taskLists_iff]
  cases fetch <;> simp [podLists, or_and_right, exists_or, or_comm]

theorem Request.mem_roleLists_iff {p : TrainingParams} :
    (∃ l ∈ p.roles.flatMap r.roleLists, l.2 = text) ↔
      ¬ (p.masterReplicas = 0 ∧ p.workerReplicas = 0) ∧ text ∈ [r.command, r.args] := by
  rw [← mem_taskLists_iff]
  by_cases hmaster : p.masterReplicas = 0 <;> by_cases hworker : p.workerReplicas = 0 <;>
    simp [TrainingParams.roles, roleLists, hmaster, hworker]

/-- A request is read for the lists that it uses, and for no others. -/
theorem Request.mem_usedTexts_iff (hplaces : r.places ≠ []) :
    text ∈ r.usedTexts ↔ ∃ l ∈ r.lists, l.2 = text := by
  obtain ⟨place, hplace⟩ := List.exists_mem_of_ne_nil _ hplaces
  have hall {p : Prop} : (∃ index ∈ r.places, p) ↔ p :=
    ⟨fun ⟨_, _, hp⟩ => hp, fun hp => ⟨place, hplace, hp⟩⟩
  have hpods : (∃ index ∈ r.places, ∃ l ∈ r.podLists (r.fetchAt? index), l.2 = text) ↔
      text ∈ r.command :: r.args :: r.usedFetches.map FetchSpec.args := by
    simp only [mem_podLists_iff, and_or_left, exists_or, hall]
    simp only [List.mem_cons, List.not_mem_nil, or_false, or_assoc, List.mem_map,
      mem_usedFetches_iff]
    refine or_congr_right (or_congr_right ?_)
    constructor
    · rintro ⟨index, hindex, f, hf, rfl⟩
      exact ⟨f, ⟨index, hindex, hf⟩, rfl⟩
    · rintro ⟨f, ⟨index, hindex, hf⟩, rfl⟩
      exact ⟨index, hindex, f, hf, rfl⟩
  simp only [lists, List.mem_flatMap, ← exists_and_right, and_assoc]
  rw [exists_comm]
  simp only [exists_and_left]
  unfold usedTexts listsAt
  cases hw : r.workload with
  | plain => exact hpods.symm
  | queueAdmitted replicas => exact hpods.symm
  | flink p => simp
  | spark p => simp [hall, eq_comm]
  | training p =>
    simp only [hall, mem_roleLists_iff]
    split <;> simp_all

end Used

end ClusterJobs
