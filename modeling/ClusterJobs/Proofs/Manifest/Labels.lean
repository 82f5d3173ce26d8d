import ClusterJobs.Cluster.Log
import ClusterJobs.Proofs.Manifest.FanOutItems
import ClusterJobs.Proofs.Manifest.Operators

/-!
# Labels of pods

Every pod that an object describes bears the name of its job, the label of the layer and the labels of
the request. The log of a job is read in the first pod that bears its name, whatever else is listed.
-/

namespace ClusterJobs

open Json (Value Path Edit)

/-! ## Labels of a request -/

section Identity

variable {r : Request} {name key value : String} {id : Identity} {table : Fields String}

/-- The value has every entry of a table, as text. -/
def Json.Value.Bears (v : Value) (table : Fields String) : Prop :=
  ∀ key value, table.get? key = some value → v.get? key = some (.str value)

theorem Json.Value.texts_bears (table : Fields String) : (Value.texts table).Bears table := by
  intro key value h
  exact (Fields.get?_mapValues Value.str table key).trans (congrArg (Option.map Value.str) h)

theorem Identity.get?_labels (r : Request) (name key : String) :
    (Identity.ofRequest r name).labels.get? key =
      if nameLabel = key then some name
      else if layerLabel = key then some layerLabelValue else r.labels.get? key := by
  rw [Identity.ofRequest, Fields.get?_put, Fields.get?_put]

/-- The labels of pods differ from those of objects in the application only. -/
theorem Identity.get?_podLabels (r : Request) (name : String) (h : key ≠ applicationLabel) :
    (Identity.ofRequest r name).podLabels.get? key =
      (Identity.ofRequest r name).labels.get? key := by
  unfold Identity.ofRequest
  dsimp only
  split
  · rfl
  · exact Fields.get?_put_of_ne _ _ h.symm

theorem Identity.labels_sorted (name : String) (h : r.labels.Sorted) :
    (Identity.ofRequest r name).labels.Sorted :=
  (h.put layerLabel layerLabelValue).put nameLabel name

theorem Wire.sorted_of_table {w : Wire} {fs : Fields String}
    (h : Decode.table Decode.text w = some fs) : fs.Sorted := by
  unfold Decode.table at h
  split at h
  · obtain ⟨pairs, -, rfl⟩ := Option.map_eq_some_iff.1 h
    exact Fields.sorted_ofPairs pairs
  · split at h
    · cases h
      exact .nil
    · cases h
  · cases h

/-- The labels of a request that is read are in order. -/
theorem Request.labels_sorted {w : Wire} (h : Request.decode w = some r) : r.labels.Sorted := by
  -- The record, and the members of the request before its labels.
  iterate 14 obtain ⟨_, -, h⟩ := Option.bind_eq_some_iff.1 h
  obtain ⟨labels, hlabels, h⟩ := Option.bind_eq_some_iff.1 h
  have hsorted : Fields.Sorted labels := by
    unfold Members.withDefault at hlabels
    split at hlabels
    · cases hlabels
      exact .nil
    · exact Wire.sorted_of_table hlabels
  iterate 8 obtain ⟨_, -, h⟩ := Option.bind_eq_some_iff.1 h
  cases h
  exact hsorted

end Identity

/-! ## Labels of pods -/

/-- The labels of the pods of an object, template by template. A role that is not there has none. -/
def Manifest.podLabels (m : Manifest) : List (Option Value) :=
  match m.kind with
  | .plain => [m.object.at? ["spec", "template", "metadata", "labels"]]
  | .queueAdmitted =>
    ((m.object.at? ["spec", "tasks"]).elim [] Value.items).map
      (·.at? ["template", "metadata", "labels"])
  | .flink => [m.object.at? ["spec", "podTemplate", "metadata", "labels"]]
  | .spark => sparkRoles.map fun role => m.object.at? ["spec", role, "labels"]
  | .training =>
    m.object.presentRoles.map fun role =>
      m.object.at? (rolesPath ++ [role, "template", "metadata", "labels"])

section Templates

variable {b : Blueprint} {id : Identity} {object v w : Value} {role : TrainingRole}

theorem at?_labels_plainObject (id : Identity) (p : Pod) :
    (Compiler.plainObject id p).at? ["spec", "template", "metadata", "labels"] =
      some (.texts id.podLabels) := by
  rw [Compiler.plainObject, Value.at?_object (by simp) (.tail _ (.head _)),
    Value.at?_object (by simp) (.tail _ (.head _)), Compiler.plainPodTemplate,
    Value.at?_object (by simp) (.head _), Value.at?_object (by simp) (.head _)]
  rfl

theorem at?_labels_gangPodTemplate (secret : String) (id : Identity) (p : Pod) :
    (Compiler.gangPodTemplate secret id p).at? ["metadata", "labels"] =
      some (.texts id.podLabels) := by
  rw [Compiler.gangPodTemplate, Value.at?_object (by simp) (.head _),
    Value.at?_object (by simp) (.head _)]
  rfl

theorem at?_labels_flink {p : FlinkParams} (h : Edit.applyAll (id.edits ++ flinkEdits b id p) v =
    .ok w) : w.at? ["spec", "podTemplate", "metadata", "labels"] = some (.texts id.podLabels) := by
  refine Edit.at?_of_mem_set h (by simp [flinkEdits]) ?_
  refine List.forall_mem_append.2 ⟨fun e he => .inr ?_, ?_⟩
  · exact Identity.apart_of_mem_edits he (by simp) _
  · simp only [flinkEdits, List.forall_mem_append, List.forall_mem_cons, Edit.forall_mem_setSome]
    simp

/-- The labels of a Spark job are written one by one, for each role. -/
theorem at?_label_spark (hsorted : id.labels.Sorted) {p : SparkParams} {arguments : List String}
    (h : Edit.applyAll (id.edits ++ sparkEdits b id p arguments) v = .ok w) {key value : String}
    (hlabel : (key, value) ∈ id.labels) {role : String} (hrole : role ∈ sparkRoles) :
    w.at? ["spec", role, "labels", key] = some (.str value) := by
  have hwritten : Edit.set ["spec", role, "labels", key] (.str value) ∈
      id.labelEdits ["spec", role, "labels"] := Identity.mem_labelEdits.2 ⟨_, hlabel, rfl⟩
  have hlabels (other : String) : ∀ e ∈ id.labelEdits ["spec", other, "labels"],
      e = .set ["spec", role, "labels", key] (.str value) ∨
        Path.Apart e.place ["spec", role, "labels", key] := by
    intro e he
    obtain ⟨⟨key', value'⟩, hp, rfl⟩ := Identity.mem_labelEdits.1 he
    by_cases hsame : other = role ∧ key' = key
    · obtain ⟨rfl, rfl⟩ := hsame
      cases List.inj_on_of_nodup_map hsorted.nodup hp hlabel rfl
      exact .inl rfl
    · refine .inr ?_
      simpa [Path.Apart, ← not_and_or] using hsame
  refine Edit.at?_of_mem_set h ?_ ?_
  · refine List.mem_append_right _ ?_
    simp only [sparkEdits, List.mem_append, List.mem_flatMap]
    exact .inl (.inl (.inl (.inl (.inl (.inl (.inr ⟨role, hrole, .inl hwritten⟩))))))
  · refine List.forall_mem_append.2 ⟨fun e he => .inr ?_, ?_⟩
    · exact Identity.apart_of_mem_edits he (by simp) _
    · simp only [sparkRoles, List.mem_cons, List.not_mem_nil, or_false] at hrole
      simp only [sparkEdits, sparkRoles, List.flatMap_cons, List.flatMap_nil, List.forall_mem_append,
        List.forall_mem_cons, Edit.forall_mem_setSome]
      rcases hrole with rfl | rfl <;> simpa using ⟨hlabels "driver", hlabels "executor"⟩

end Templates

section Compiled

variable {c : Compiler} {r : Request} {index : Option Nat} {m : Manifest}

theorem podLabels_training {object : Value} {p : TrainingParams} {b : Blueprint} {id : Identity}
    (h : c.render b id (.training p) = .ok object) :
    object.presentRoles.map
        (fun role => object.at? (rolesPath ++ [role, "template", "metadata", "labels"])) =
      List.replicate (Workload.templateCount (.training p)) (some (.texts id.podLabels)) := by
  rw [presentRoles_of_render h, List.map_map, Workload.templateCount, List.countP_eq_length_filter,
    List.map_eq_replicate_iff]
  intro role hrole
  obtain ⟨hmem, hreplicas⟩ := List.mem_filter.1 hrole
  obtain ⟨u, u', hu, hat⟩ := exists_of_render_training h hmem
  exact (hat _).trans (at?_labels_role (of_decide_eq_true hreplicas) hu)

theorem podLabels_queueAdmitted {object : Value} {replicas : Option MasterWorker} {b : Blueprint}
    {id : Identity} (h : c.render b id (.queueAdmitted replicas) = .ok object) :
    ((object.at? ["spec", "tasks"]).elim [] Value.items).map
        (·.at? ["template", "metadata", "labels"]) =
      List.replicate (Workload.templateCount (.queueAdmitted replicas))
        (some (.texts id.podLabels)) := by
  obtain ⟨pod, -, htemplates⟩ := templates_of_queueAdmitted h
  have hlabels := congrArg (List.map (Option.bind · fun v => v.at? ["metadata", "labels"])) htemplates
  rwa [List.map_map, List.map_replicate, Option.bind_some, at?_labels_gangPodTemplate] at hlabels

/-- But for Spark, the labels of every pod are those of the identity and no others. -/
theorem podLabels_eq_replicate (h : c.compile r index = .ok m) (hspark : r.kind ≠ .spark) :
    m.podLabels = List.replicate r.workload.templateCount
      (some (.texts (Identity.ofRequest r m.name).podLabels)) := by
  obtain ⟨-, object, hrender, rfl⟩ := Compiler.compile_eq_ok_iff.1 h
  simp only [Manifest.podLabels, Request.kind, Value.presentRoles, rolesPath, List.cons_append,
    List.nil_append] at hspark hrender ⊢
  simp only [Compiler.at?_spec_stamp]
  cases hw : r.workload with
  | plain =>
    rw [hw] at hrender
    obtain ⟨pod, -, rfl⟩ := Compiler.render_plain_eq_ok_iff.1 hrender
    exact congrArg (fun v => [v]) (at?_labels_plainObject _ pod)
  | queueAdmitted replicas =>
    rw [hw] at hrender
    exact podLabels_queueAdmitted hrender
  | flink p =>
    rw [hw] at hrender
    exact congrArg (fun v => [v]) (at?_labels_flink (Compiler.render_flink_eq_ok_iff.1 hrender))
  | spark p => exact absurd (congrArg Workload.kind hw) hspark
  | training p =>
    rw [hw] at hrender
    exact podLabels_training hrender

/-- The roles of a Spark job keep their authored labels below those of the identity. -/
theorem podLabels_of_spark (hsorted : r.labels.Sorted) (h : c.compile r index = .ok m)
    (hspark : r.kind = .spark) :
    m.podLabels.length = r.workload.templateCount ∧
      ∀ labels ∈ m.podLabels, ∃ v, labels = some v ∧
        v.Bears (Identity.ofRequest r m.name).labels := by
  obtain ⟨-, object, hrender, rfl⟩ := Compiler.compile_eq_ok_iff.1 h
  simp only [Manifest.podLabels, hspark, Compiler.at?_spec_stamp]
  cases hw : r.workload with
  | spark p =>
    rw [hw] at hrender
    obtain ⟨arguments, -, hedits⟩ := Compiler.render_spark_eq_ok_iff.1 hrender
    refine ⟨rfl, fun labels hlabels => ?_⟩
    obtain ⟨role, hrole, rfl⟩ := List.mem_map.1 hlabels
    have hwritten {key value : String}
        (h : (Identity.ofRequest r _).labels.get? key = some value) :=
      at?_label_spark (Identity.labels_sorted _ hsorted) hedits (Fields.mem_of_get? h) hrole
    have hat (key : String) : object.at? ["spec", role, "labels", key] =
        (object.at? ["spec", role, "labels"]).bind (·.get? key) :=
      Value.at?_concat object ["spec", role, "labels"] key
    have hname := hwritten ((Identity.get?_labels r _ nameLabel).trans (if_pos rfl))
    obtain ⟨v, hv, -⟩ := Option.bind_eq_some_iff.1 ((hat nameLabel).symm.trans hname)
    refine ⟨v, hv, fun key value hlabel => ?_⟩
    have hvalue := (hat key).symm.trans (hwritten hlabel)
    rwa [hv, Option.bind_some] at hvalue
  | _ => simp [Request.kind, hw, Workload.kind] at hspark

end Compiled

/-! ## The pod of a job -/

namespace ListedPod

variable {job other name : String} {pods before after : List ListedPod} {p : ListedPod}

theorem belongsTo_iff : p.belongsTo job = true ↔ p.labels.get? nameLabel = some job :=
  beq_iff_eq

/-- A pod that was made with the labels of a template, and maybe others. -/
def Wears (p : ListedPod) (labels : Value) : Prop :=
  ∀ key value, labels.get? key = some (.str value) → p.labels.get? key = some value

theorem select_eq_findSome? (job : String) (pods : List ListedPod) :
    select job pods = pods.findSome? fun p => if p.belongsTo job then p.name else none := by
  induction pods with
  | nil => rfl
  | cons p pods ih =>
    rw [select, List.filter_cons, List.findSome?_cons, ← ih]
    split
    · exact List.findSome?_cons
    · rfl

/-- The pod of a job is the first one that bears its name and has one of its own. -/
theorem select_eq_some_iff : select job pods = some name ↔
    ∃ before p after, pods = before ++ p :: after ∧ p.belongsTo job = true ∧ p.name = some name ∧
      ∀ q ∈ before, q.belongsTo job = true → q.name = none := by
  rw [select_eq_findSome?, List.findSome?_eq_some_iff]
  constructor
  · rintro ⟨before, p, after, rfl, hp, hbefore⟩
    split at hp
    · next hjob =>
      refine ⟨before, p, after, rfl, hjob, hp, fun q hq hq' => ?_⟩
      exact (if_pos hq').symm.trans (hbefore q hq)
    · cases hp
  · rintro ⟨before, p, after, rfl, hjob, hp, hbefore⟩
    refine ⟨before, p, after, rfl, (if_pos hjob).trans hp, fun q hq => ?_⟩
    split
    · next hq' => exact hbefore q hq hq'
    · rfl

theorem select_eq_none_iff :
    select job pods = none ↔ ∀ p ∈ pods, p.belongsTo job = true → p.name = none := by
  simp [select, List.findSome?_eq_none_iff]

/-- A pod of another job makes no difference, wherever it stands. -/
theorem select_of_foreign (h : p.belongsTo job = false) :
    select job (before ++ p :: after) = select job (before ++ after) := by
  rw [select, select, List.filter_append, List.filter_cons_of_neg (by simp [h]),
    List.filter_append]

end ListedPod

/-! ## Main result -/

/-- What finds the pods of a job, and no others. -/
structure PodLabelsSpec (r : Request) (index : Option Nat) (m : Manifest) : Prop where
  named : m.name = derivedName r.taskName r.taskInstanceId index
  /-- There is a template for each kind of pod that the workload asks for. -/
  count : m.podLabels.length = r.workload.templateCount
  /-- Its pods bear the name of the job and the label of the layer, whatever labels are asked for. -/
  identified : ∀ labels ∈ m.podLabels, ∃ v, labels = some v ∧
    v.get? nameLabel = some (.str m.name) ∧ v.get? layerLabel = some (.str layerLabelValue)
  /-- The other labels that are asked for are there, but for the application's. -/
  kept : ∀ v, some v ∈ m.podLabels → ∀ key value, r.labels.get? key = some value →
    key ∉ [nameLabel, layerLabel, applicationLabel] → v.get? key = some (.str value)
  /-- A listed pod with the labels of a template belongs to the job and to no other. -/
  owned : ∀ v, some v ∈ m.podLabels → ∀ p : ListedPod, p.Wears v →
    ∀ job, p.belongsTo job = true ↔ job = m.name
  /-- The pod of a job is the first one that bears its name and has one of its own. -/
  selected : ∀ job pods name, ListedPod.select job pods = some name ↔
    ∃ before p after, pods = before ++ p :: after ∧ p.labels.get? nameLabel = some job ∧
      p.name = some name ∧ ∀ q ∈ before, q.labels.get? nameLabel = some job → q.name = none
  /-- There is none if no pod with the name has one of its own. -/
  missing : ∀ job pods, ListedPod.select job pods = none ↔
    ∀ p ∈ pods, p.labels.get? nameLabel = some job → p.name = none
  /-- A pod of a job whose name only begins alike makes no difference, wherever it is listed. -/
  alike : ∀ job ending before after, ∀ p : ListedPod, ending ≠ "" →
    p.labels.get? nameLabel = some (job ++ ending) →
    ListedPod.select job (before ++ p :: after) = ListedPod.select job (before ++ after)

section Spec

variable {c : Compiler} {r : Request} {index : Option Nat} {m : Manifest}

/-- All pods bear the labels of the identity, but maybe for the application's. -/
theorem podLabels_of_compile (hsorted : r.labels.Sorted) (h : c.compile r index = .ok m) :
    m.podLabels.length = r.workload.templateCount ∧
      ∀ labels ∈ m.podLabels, ∃ v, labels = some v ∧ ∀ key value, key ≠ applicationLabel →
        (Identity.ofRequest r m.name).labels.get? key = some value →
          v.get? key = some (.str value) := by
  by_cases hspark : r.kind = .spark
  · obtain ⟨hcount, hlabels⟩ := podLabels_of_spark hsorted h hspark
    refine ⟨hcount, fun labels hmem => ?_⟩
    obtain ⟨v, rfl, hbears⟩ := hlabels labels hmem
    exact ⟨v, rfl, fun key value _ => hbears key value⟩
  · rw [podLabels_eq_replicate h hspark]
    refine ⟨List.length_replicate, fun labels hmem => ⟨_, List.eq_of_mem_replicate hmem, ?_⟩⟩
    intro key value hkey hvalue
    rw [← Identity.get?_podLabels r m.name hkey] at hvalue
    exact Value.texts_bears _ key value hvalue

theorem podLabels_spec (hsorted : r.labels.Sorted) (h : c.compile r index = .ok m) :
    PodLabelsSpec r index m := by
  obtain ⟨hcount, hlabels⟩ := podLabels_of_compile hsorted h
  have hname (v : Value) (hv : some v ∈ m.podLabels) :
      v.get? nameLabel = some (.str m.name) := by
    obtain ⟨_, heq, hbears⟩ := hlabels _ hv
    cases heq
    exact hbears _ _ (by decide) ((Identity.get?_labels r m.name nameLabel).trans (if_pos rfl))
  constructor
  case named =>
    obtain ⟨-, object, -, rfl⟩ := Compiler.compile_eq_ok_iff.1 h
    rfl
  case count => exact hcount
  case identified =>
    intro labels hmem
    obtain ⟨v, rfl, hbears⟩ := hlabels labels hmem
    refine ⟨v, rfl, hname v hmem, hbears _ _ (by decide) ?_⟩
    rw [Identity.get?_labels, if_neg (by decide), if_pos rfl]
  case kept =>
    intro v hv key value hvalue hkey
    obtain ⟨_, heq, hbears⟩ := hlabels _ hv
    cases heq
    simp only [List.mem_cons, List.not_mem_nil, or_false, not_or] at hkey
    obtain ⟨hkname, hklayer, hkapplication⟩ := hkey
    refine hbears key value hkapplication ?_
    rwa [Identity.get?_labels, if_neg (Ne.symm hkname), if_neg (Ne.symm hklayer)]
  case owned =>
    intro v hv p hwears job
    rw [ListedPod.belongsTo_iff, hwears _ _ (hname v hv), Option.some.injEq, eq_comm]
  case selected =>
    intro job pods name
    simp only [ListedPod.select_eq_some_iff, ListedPod.belongsTo_iff]
  case missing =>
    intro job pods
    simp only [ListedPod.select_eq_none_iff, ListedPod.belongsTo_iff]
  case alike =>
    intro job ending before after p hending hp
    refine ListedPod.select_of_foreign (Bool.eq_false_iff.2 fun hjob => hending ?_)
    have heq := Option.some.inj (hp.symm.trans (ListedPod.belongsTo_iff.1 hjob))
    have heq := congrArg String.toList heq
    rw [String.toList_append] at heq
    exact String.toList_inj.1 (List.append_right_eq_self.1 heq)

end Spec

/-! ## A Spark job with labels of its own -/

/-- Three of the labels are the engine's own. -/
def Request.labelled : Request :=
  { Request.etl false with
    labels := [("layer", "mine"), ("name", "etl"), ("task-app-id", "none"), ("team", "vision")]
    workload := .spark .standard }

theorem podLabels_of_labelled : Request.labelled.labels.Sorted ∧
    ∃ m, Compiler.standard.compile .labelled none = .ok m ∧
      PodLabelsSpec .labelled none m := by
  have hsorted : Request.labelled.labels.Sorted := by
    unfold Fields.Sorted
    decide
  have hok : Except.isOk (Compiler.standard.compile .labelled none) = true := by decide +kernel
  obtain ⟨m, h⟩ := exists_ok_of_isOk hok
  exact ⟨hsorted, m, h, podLabels_spec hsorted h⟩

end ClusterJobs
