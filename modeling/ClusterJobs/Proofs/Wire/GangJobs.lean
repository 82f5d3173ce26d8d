import ClusterJobs.Proofs.Wire.Records

/-!
# Gang jobs survive the wire

A gang job that is written is read back as it was. What is written has the known members only, without
those that are empty, and it has the authored pods.
-/

namespace ClusterJobs

open Json (Value)
open Decode

/-! ## Policies -/

namespace GangPolicy

theorem codec : Codec decode toJson fun _ => True where
  reads p _ := by
    obtain ⟨ms, hms, hget⟩ := exists_members (v := p.toJson) rfl (by simp)
    simp only [decode, Option.bind_eq_bind]
    exact bind_of_some (hms _ _) <|
      bind_of_some (codec_text.required_written (hget "event" rfl) trivial) <|
      bind_of_some (codec_text.required_written (hget "action" rfl) trivial) rfl
  yields _ _ _ _ := trivial

theorem codec_policies : Codec (list decode) listToJson fun ps => ∀ p ∈ ps, True :=
  codec_list codec

theorem readsOnly : ReadsOnly decode ["event", "action"] [] := by
  refine .of_read (fun _ => rfl) fun ms ms' h => ?_
  exact bind_alike (h.required_eq (by simp)) fun _ => bind_alike (h.required_eq (by simp)) fun _ => rfl

end GangPolicy

/-! ## Tasks -/

namespace GangTask

/-- The number of pods fits its word, and the pod is one that JSON can say. -/
structure Fits (t : GangTask) : Prop where
  replicas : t.replicas < 2 ^ 32
  template : t.template.Proper

def defaults : Fields Value :=
  [("replicas", .int 1), ("template", .null), ("policies", .arr [])]

theorem codec : Codec decode toJson Fits where
  reads t ht := by
    obtain ⟨ms, hms, hget⟩ := exists_members_some (v := t.toJson) rfl (by simp)
    simp only [decode, Option.bind_eq_bind]
    exact bind_of_some (hms _ _) <|
      bind_of_some (codec_text.required_written (hget "name" rfl) trivial) <|
      bind_of_some (codec_nat32.withDefault_written (hget "replicas" rfl) ht.replicas) <|
      bind_of_some (codec_json.withDefault_written (hget "template" rfl) ht.template) <|
      bind_of_some (GangPolicy.codec_policies.withDefault_unlessEmpty (hget "policies" rfl)
        (by simp)) rfl
  yields v t hv h := by
    simp only [decode, Option.bind_eq_bind, Option.bind_eq_some_iff, Option.some.injEq] at h
    obtain ⟨ms, hms, name, -, replicas, hreplicas, template, htemplate, policies, -, rfl⟩ := h
    have hms := proper_members hv hms
    exact ⟨codec_nat32.of_withDefault hms (by decide) hreplicas,
      codec_json.of_withDefault hms .null htemplate⟩

theorem readsOnly : ReadsOnly decode ["name"] defaults := by
  refine .of_read (fun _ => rfl) fun ms ms' h => ?_
  exact bind_alike (h.required_eq (by simp)) fun _ =>
    bind_alike (h.withDefault_eq rfl rfl) fun _ =>
    bind_alike (h.withDefault_eq rfl rfl) fun _ =>
    bind_alike (h.withDefault_eq rfl rfl) fun _ => rfl

end GangTask

/-! ## Identity -/

namespace GangMetadata

def Fits (m : GangMetadata) : Prop :=
  m.labels.Sorted

def defaults : Fields Value :=
  [("name", .str ""), ("namespace", .str ""), ("labels", .obj [])]

/-- An empty namespace is left out, and a missing one is empty. -/
theorem nameSpace_written {fs : Fields Value} {s : String}
    (hget : fs.get? "namespace" = if s.isEmpty then none else some (.str s)) :
    (Members.ofFields fs).withDefault "namespace" "" text = some s := by
  split at hget
  · next hempty =>
    rw [Members.withDefault, Members.find?_ofFields, hget, String.isEmpty_iff.1 hempty]
    rfl
  · exact codec_text.withDefault_written hget trivial

theorem codec : Codec decode toJson Fits where
  reads m hm := by
    obtain ⟨ms, hms, hget⟩ := exists_members_some (v := m.toJson) rfl (by simp)
    simp only [decode, Option.bind_eq_bind]
    exact bind_of_some (hms _ _) <|
      bind_of_some (codec_text.withDefault_written (hget "name" rfl) trivial) <|
      bind_of_some (nameSpace_written (hget "namespace" rfl)) <|
      bind_of_some (codec_textTable.withDefault_unlessEmpty (hget "labels" rfl) ⟨hm, by simp⟩) rfl
  yields v m hv h := by
    simp only [decode, Option.bind_eq_bind, Option.bind_eq_some_iff, Option.some.injEq] at h
    obtain ⟨ms, hms, name, -, nameSpace, -, labels, hlabels, rfl⟩ := h
    exact (codec_textTable.of_withDefault (proper_members hv hms) ⟨.nil, by simp⟩ hlabels).1

theorem readsOnly : ReadsOnly decode [] defaults := by
  refine .of_read (fun _ => rfl) fun ms ms' h => ?_
  exact bind_alike (h.withDefault_eq rfl rfl) fun _ =>
    bind_alike (h.withDefault_eq rfl rfl) fun _ =>
    bind_alike (h.withDefault_eq rfl rfl) fun _ => rfl

end GangMetadata

/-! ## What is to run -/

namespace GangSpec

structure Fits (s : GangSpec) : Prop where
  minAvailable : ∀ n ∈ s.minAvailable, n < 2 ^ 32
  maxRetry : ∀ n ∈ s.maxRetry, n < 2 ^ 32
  tasks : ∀ t ∈ s.tasks, t.Fits
  plugins : s.plugins.Sorted

def defaults : Fields Value :=
  [("schedulerName", .str "volcano"), ("minAvailable", .null), ("maxRetry", .null),
    ("queue", .null), ("priorityClassName", .null), ("tasks", .arr []), ("policies", .arr []),
    ("plugins", .obj [])]

theorem codec_plugins :
    Codec (table (list text)) (fun ps => .obj (Fields.mapValues .strings ps)) fun ps =>
      ps.Sorted ∧ ∀ p ∈ ps, ∀ s ∈ p.2, True :=
  codec_table codec_texts

theorem codec : Codec decode toJson Fits where
  reads s hs := by
    obtain ⟨ms, hms, hget⟩ := exists_members_some (v := s.toJson) rfl (show names.Nodup by decide)
    have hnat {name : String} {o : Option Nat}
        (h : ms.get? name = Option.map .int (do let n ← o; pure (n : Int)))
        (ho : ∀ n ∈ o, n < 2 ^ 32) : (Members.ofFields ms).optional name nat32 = some o := by
      refine codec_nat32.optional_omitted (by simp) (h.trans ?_) ho
      cases o <;> rfl
    have htext {name : String} {o : Option String} (h : ms.get? name = o.map .str) :
        (Members.ofFields ms).optional name text = some o :=
      codec_text.optional_omitted (by simp) h (by simp)
    simp only [decode, Option.bind_eq_bind]
    exact bind_of_some (hms _ _) <|
      bind_of_some (codec_text.withDefault_written (hget "schedulerName" rfl) trivial) <|
      bind_of_some (hnat (hget "minAvailable" rfl) hs.minAvailable) <|
      bind_of_some (hnat (hget "maxRetry" rfl) hs.maxRetry) <|
      bind_of_some (htext (hget "queue" rfl)) <|
      bind_of_some (htext (hget "priorityClassName" rfl)) <|
      bind_of_some ((codec_list GangTask.codec).withDefault_written (hget "tasks" rfl) hs.tasks) <|
      bind_of_some (GangPolicy.codec_policies.withDefault_unlessEmpty (hget "policies" rfl)
        (by simp)) <|
      bind_of_some (codec_plugins.withDefault_unlessEmpty (hget "plugins" rfl)
        ⟨hs.plugins, by simp⟩) rfl
  yields v s hv h := by
    simp only [decode, Option.bind_eq_bind, Option.bind_eq_some_iff, Option.some.injEq] at h
    obtain ⟨ms, hms, _, -, minAvailable, hminAvailable, maxRetry, hmaxRetry, _, -, _, -, tasks,
      htasks, _, -, plugins, hplugins, rfl⟩ := h
    have hms := proper_members hv hms
    exact ⟨codec_optionalNat32.of_optional hms hminAvailable,
      codec_optionalNat32.of_optional hms hmaxRetry,
      (codec_list GangTask.codec).of_withDefault hms (by simp) htasks,
      (codec_plugins.of_withDefault hms ⟨.nil, by simp⟩ hplugins).1⟩

theorem readsOnly : ReadsOnly decode [] defaults := by
  refine .of_read (fun _ => rfl) fun ms ms' h => ?_
  exact bind_alike (h.withDefault_eq rfl rfl) fun _ =>
    bind_alike (h.optional_eq rfl rfl) fun _ =>
    bind_alike (h.optional_eq rfl rfl) fun _ =>
    bind_alike (h.optional_eq rfl rfl) fun _ =>
    bind_alike (h.optional_eq rfl rfl) fun _ =>
    bind_alike (h.withDefault_eq rfl rfl) fun _ =>
    bind_alike (h.withDefault_eq rfl rfl) fun _ =>
    bind_alike (h.withDefault_eq rfl rfl) fun _ => rfl

end GangSpec

/-! ## Jobs -/

namespace GangJob

structure Fits (j : GangJob) : Prop where
  metadata : j.metadata.Fits
  spec : j.spec.Fits

def names : List String := ["apiVersion", "kind", "metadata", "spec"]

theorem codec : Codec decode toJson Fits where
  reads j hj := by
    obtain ⟨ms, hms, hget⟩ := exists_members (v := j.toJson) rfl (show names.Nodup by decide)
    simp only [decode, Option.bind_eq_bind]
    exact bind_of_some (hms _ _) <|
      bind_of_some (codec_text.required_written (hget "apiVersion" rfl) trivial) <|
      bind_of_some (codec_text.required_written (hget "kind" rfl) trivial) <|
      bind_of_some (GangMetadata.codec.required_written (hget "metadata" rfl) hj.metadata) <|
      bind_of_some (GangSpec.codec.required_written (hget "spec" rfl) hj.spec) rfl
  yields v j hv h := by
    simp only [decode, Option.bind_eq_bind, Option.bind_eq_some_iff, Option.some.injEq] at h
    obtain ⟨ms, hms, _, -, _, -, metadata, hmetadata, spec, hspec, rfl⟩ := h
    have hms := proper_members hv hms
    exact ⟨GangMetadata.codec.of_required hms hmetadata, GangSpec.codec.of_required hms hspec⟩

theorem readsOnly : ReadsOnly decode names [] := by
  refine .of_read (fun _ => rfl) fun ms ms' h => ?_
  exact bind_alike (h.required_eq (by simp [names])) fun _ =>
    bind_alike (h.required_eq (by simp [names])) fun _ =>
    bind_alike (h.required_eq (by simp [names])) fun _ =>
    bind_alike (h.required_eq (by simp [names])) fun _ => rfl

end GangJob

/-! ## Members that are left out -/

/-- The members of a task, each with whether it is left out. -/
def GangTask.omitted (t : GangTask) : Fields Bool :=
  [("name", false), ("replicas", false), ("template", false), ("policies", t.policies.isEmpty)]

theorem GangTask.isNone_get?_toJson (t : GangTask) (name : String) :
    (t.toJson.get? name).isNone = (t.omitted.get? name).getD true := by
  rw [toJson, Value.isNone_get?_objectSome (by simp)]
  simp [Fields.mapValues, omitted]

def GangMetadata.omitted (m : GangMetadata) : Fields Bool :=
  [("name", false), ("namespace", m.nameSpace.isEmpty), ("labels", m.labels.isEmpty)]

theorem GangMetadata.isNone_get?_toJson (m : GangMetadata) (name : String) :
    (m.toJson.get? name).isNone = (m.omitted.get? name).getD true := by
  have hspace : (if m.nameSpace.isEmpty then none else some (Value.str m.nameSpace)).isNone =
      m.nameSpace.isEmpty := by
    cases m.nameSpace.isEmpty <;> rfl
  rw [toJson, Value.isNone_get?_objectSome (by simp)]
  simp only [Fields.mapValues, omitted, List.map_cons, List.map_nil, hspace, Option.isNone_some,
    Value.isNone_unlessEmpty]

def GangSpec.omitted (s : GangSpec) : Fields Bool :=
  [("schedulerName", false), ("minAvailable", s.minAvailable.isNone),
    ("maxRetry", s.maxRetry.isNone), ("queue", s.queue.isNone),
    ("priorityClassName", s.priorityClassName.isNone), ("tasks", false),
    ("policies", s.policies.isEmpty), ("plugins", s.plugins.isEmpty)]

theorem GangSpec.isNone_get?_toJson (s : GangSpec) (name : String) :
    (s.toJson.get? name).isNone = (s.omitted.get? name).getD true := by
  have hnat (o : Option Nat) : (o.bind fun n => some (Value.int n)).isNone = o.isNone := by
    cases o <;> rfl
  rw [toJson, Value.isNone_get?_objectSome (by simp)]
  simp [Fields.mapValues, omitted, hnat]

/-! ## Pods -/

namespace GangTask

def names : List String := ["name", "replicas", "template", "policies"]

/-- The pod of a task, or `null`. -/
def pod (v : Value) : Value :=
  (v.member? names "template").getD .null

/-- The pod is read as it was authored. -/
theorem template_eq {v : Value} {t : GangTask} (hv : v.Proper) (h : decode (.ofJson v) = some t) :
    t.template = pod v := by
  simp only [decode, Option.bind_eq_bind, Option.bind_eq_some_iff, Option.some.injEq] at h
  obtain ⟨ms, hms, name, -, replicas, -, template, htemplate, policies, -, rfl⟩ := h
  rw [Members.withDefault, find?_of_members hv hms] at htemplate
  have hpod : pod v = (v.member? ["name", "replicas", "template", "policies"] "template").getD .null :=
    rfl
  rw [hpod]
  cases hmember : v.member? ["name", "replicas", "template", "policies"] "template" <;>
    rw [hmember] at htemplate
  · cases htemplate
    rfl
  · next w =>
    have hread : json (.ofJson w) = some template := htemplate
    rw [json_ofJson w (hv.of_member? hmember)] at hread
    cases hread
    rfl

theorem pod_toJson (t : GangTask) : pod t.toJson = t.template := by
  have hmember : t.toJson.member? names "template" = some t.template :=
    Value.get?_objectSome (by simp) (by simp)
  rw [pod, hmember, Option.getD_some]

end GangTask

namespace GangJob

/-- The pods of the tasks of a job. -/
def pods (v : Value) : List Value :=
  match (v.member? names "spec").bind (·.member? GangSpec.names "tasks") with
  | some (.arr tasks) => tasks.map GangTask.pod
  | _ => []

theorem templates_eq {vs : List Value} {ts : List GangTask} (hvs : ∀ v ∈ vs, v.Proper)
    (h : all GangTask.decode (Wire.ofJsonItems vs) = some ts) :
    ts.map GangTask.template = vs.map GangTask.pod := by
  induction vs generalizing ts with
  | nil =>
    cases h
    rfl
  | cons v vs ih =>
    simp only [Wire.ofJsonItems, all, Option.bind_eq_bind, Option.bind_eq_some_iff,
      Option.some.injEq] at h
    obtain ⟨t, ht, rest, hrest, rfl⟩ := h
    simp only [List.forall_mem_cons] at hvs
    rw [List.map_cons, List.map_cons, GangTask.template_eq hvs.1 ht, ih hvs.2 hrest]

/-- The pods of a job are read as they were authored. -/
theorem pods_of_decode {v : Value} {j : GangJob} (hv : v.Proper) (h : decode (.ofJson v) = some j) :
    j.spec.tasks.map GangTask.template = pods v := by
  -- Of the job only `spec` matters, which is its fourth member, and of that only `tasks`, the sixth.
  obtain ⟨ms, hms, h⟩ := Option.bind_eq_some_iff.1 h
  iterate 3 obtain ⟨_, -, h⟩ := Option.bind_eq_some_iff.1 h
  obtain ⟨s, hs, h⟩ := Option.bind_eq_some_iff.1 h
  cases h
  obtain ⟨w, hw, hread⟩ := Option.bind_eq_some_iff.1 hs
  rw [find?_of_members hv hms, Option.map_eq_some_iff] at hw
  obtain ⟨u, hu, rfl⟩ := hw
  have huproper := hv.of_member? hu
  obtain ⟨parts, hparts, hread⟩ := Option.bind_eq_some_iff.1 hread
  iterate 5 obtain ⟨_, -, hread⟩ := Option.bind_eq_some_iff.1 hread
  obtain ⟨ts, hts, hread⟩ := Option.bind_eq_some_iff.1 hread
  iterate 2 obtain ⟨_, -, hread⟩ := Option.bind_eq_some_iff.1 hread
  cases hread
  rw [Members.withDefault, find?_of_members huproper hparts] at hts
  have hspec : v.member? names "spec" = some u := hu
  rw [pods, hspec, Option.bind_some]
  cases htasks : u.member? GangSpec.names "tasks" <;> rw [htasks] at hts
  · cases hts
    rfl
  · next tasks =>
    have hproper := huproper.of_member? htasks
    have hlist : list GangTask.decode (.ofJson tasks) = some ts := hts
    cases hproper <;> try cases hlist
    next items hitems => exact templates_eq hitems hlist

theorem get?_toJson_of_notMem {j : GangJob} {name : String} (h : name ∉ names) :
    j.toJson.get? name = none := by
  rw [toJson]
  exact Value.get?_object_of_notMem h

theorem get?_metadata_toJson (j : GangJob) : j.toJson.get? "metadata" = some j.metadata.toJson :=
  Value.get?_object (by simp) (by simp)

theorem get?_spec_toJson (j : GangJob) : j.toJson.get? "spec" = some j.spec.toJson :=
  Value.get?_object (by simp) (by simp)

theorem pods_toJson (j : GangJob) : pods j.toJson = j.spec.tasks.map GangTask.template := by
  have hspec : j.toJson.member? names "spec" = some j.spec.toJson := j.get?_spec_toJson
  have htasks : j.spec.toJson.member? GangSpec.names "tasks" =
      some (.arr (j.spec.tasks.map GangTask.toJson)) :=
    Value.get?_objectSome (by simp) (by simp)
  simp [pods, hspec, htasks, Function.comp_def, GangTask.pod_toJson]

end GangJob

end ClusterJobs
