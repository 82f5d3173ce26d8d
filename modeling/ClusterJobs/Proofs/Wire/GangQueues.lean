import ClusterJobs.Gang.Queue
import ClusterJobs.Proofs.Wire.GangJobs
import ClusterJobs.Proofs.Wire.Texts

/-!
# Gang objects survive the wire

Queue objects nest two records. With them, the whole format of the objects of a gang scheduler: what is
written is read back, and what is read is written in a normal form.
-/

namespace ClusterJobs

open Json (Value)
open Decode

namespace GangQueue

structure Fits (q : GangQueue) : Prop where
  weight : q.weight < 2 ^ 32
  capability : q.capability.Sorted
  deserved : q.deserved.Sorted

/-! ## The records of a queue -/

/-- The name of a queue. -/
def decodeName : Decoder String := fun w => do
  let ms ← members false ["name"] w
  ms.required "name" text

def nameToJson (name : String) : Value :=
  .object [("name", .str name)]

/-- The shares of a queue: its weight, whether they are given back, its ceiling and what it deserves. -/
structure Share where
  weight : Nat
  reclaimable : Bool
  capability : Fields String
  deserved : Fields String

namespace Share

structure Fits (s : Share) : Prop where
  weight : s.weight < 2 ^ 32
  capability : s.capability.Sorted
  deserved : s.deserved.Sorted

def names : List String := ["weight", "reclaimable", "capability", "deserved"]

def readMembers (ms : Members) : Option Share := do
  some {
    weight := ← ms.required "weight" nat32
    reclaimable := ← ms.required "reclaimable" bool
    capability := ← ms.withDefault "capability" [] (table text)
    deserved := ← ms.withDefault "deserved" [] (table text) }

def decode : Decoder Share := fun w =>
  (members true names w).bind readMembers

def toJson (s : Share) : Value :=
  .objectSome [
    ("weight", some (.int s.weight)),
    ("reclaimable", some (.bool s.reclaimable)),
    ("capability", unlessEmpty Value.texts s.capability),
    ("deserved", unlessEmpty Value.texts s.deserved)]

theorem codec : Codec decode toJson Fits where
  reads s hs := by
    obtain ⟨ms, hms, hget⟩ := exists_members_some (v := s.toJson) rfl (by simp)
    simp only [decode, readMembers, Option.bind_eq_bind]
    exact bind_of_some (hms _ _) <|
      bind_of_some (codec_nat32.required_written (hget "weight" rfl) hs.weight) <|
      bind_of_some (codec_bool.required_written (hget "reclaimable" rfl) trivial) <|
      bind_of_some (codec_textTable.withDefault_unlessEmpty (hget "capability" rfl)
        ⟨hs.capability, by simp⟩) <|
      bind_of_some (codec_textTable.withDefault_unlessEmpty (hget "deserved" rfl)
        ⟨hs.deserved, by simp⟩) rfl
  yields v s hv h := by
    simp only [decode, readMembers, Option.bind_eq_bind, Option.bind_eq_some_iff,
      Option.some.injEq] at h
    obtain ⟨ms, hms, weight, hweight, _, -, capability, hcapability, deserved, hdeserved, rfl⟩ := h
    have hms := proper_members hv hms
    exact ⟨codec_nat32.of_required hms hweight,
      (codec_textTable.of_withDefault hms ⟨.nil, by simp⟩ hcapability).1,
      (codec_textTable.of_withDefault hms ⟨.nil, by simp⟩ hdeserved).1⟩

def defaults : Fields Value :=
  [("capability", .obj []), ("deserved", .obj [])]

theorem readsOnly : ReadsOnly decode ["weight", "reclaimable"] defaults := by
  refine .of_read (fun _ => rfl) fun ms ms' h => ?_
  exact bind_alike (h.required_eq (by simp)) fun _ =>
    bind_alike (h.required_eq (by simp)) fun _ =>
    bind_alike (h.withDefault_eq rfl rfl) fun _ =>
    bind_alike (h.withDefault_eq rfl rfl) fun _ => rfl

def omitted (s : Share) : Fields Bool :=
  [("weight", false), ("reclaimable", false), ("capability", s.capability.isEmpty),
    ("deserved", s.deserved.isEmpty)]

theorem isNone_get?_toJson (s : Share) (name : String) :
    (s.toJson.get? name).isNone = (s.omitted.get? name).getD true := by
  rw [toJson, Value.isNone_get?_objectSome (by simp)]
  simp [Fields.mapValues, omitted]

end Share

theorem codec_name : Codec decodeName nameToJson fun _ => True where
  reads name _ := by
    obtain ⟨ms, hms, hget⟩ := exists_members (v := nameToJson name) rfl (by simp)
    simp only [decodeName, Option.bind_eq_bind]
    exact bind_of_some (hms _ _) (codec_text.required_written (hget "name" rfl) trivial)
  yields _ _ _ _ := trivial

theorem readsOnly_name : ReadsOnly decodeName ["name"] [] :=
  .of_read (fun _ => rfl) fun _ _ h => h.required_eq (by simp)

/-! ## Queues -/

def share (q : GangQueue) : Share :=
  ⟨q.weight, q.reclaimable, q.capability, q.deserved⟩

def names : List String := ["apiVersion", "kind", "metadata", "spec"]

theorem required_bind {α β : Type} (ms : Members) (name : String) (d : Decoder α)
    (k : α → Option β) : (ms.required name fun w => (d w).bind k) = (ms.required name d).bind k :=
  (Option.bind_assoc _ _ _).symm

/-- A queue is read from four members, two of which are records of their own. -/
theorem decode_eq (w : Wire) :
    decode w = (members false names w).bind fun ms =>
      (ms.required "apiVersion" text).bind fun apiVersion =>
        (ms.required "kind" text).bind fun kind =>
          (ms.required "metadata" decodeName).bind fun name =>
            (ms.required "spec" Share.decode).bind fun s =>
              some ⟨apiVersion, kind, name, s.weight, s.reclaimable, s.capability, s.deserved⟩ := by
  -- The members of both records are read in one chain, which is regrouped record by record.
  refine bind_alike rfl fun ms => bind_alike rfl fun apiVersion => bind_alike rfl fun kind => ?_
  have hname : ms.required "metadata" decodeName =
      (ms.required "metadata" (members false ["name"])).bind (·.required "name" text) :=
    required_bind ..
  have hshare : ms.required "spec" Share.decode =
      (ms.required "spec" (members true Share.names)).bind Share.readMembers :=
    required_bind ..
  rw [hname, Option.bind_assoc]
  refine bind_alike rfl fun identity => bind_alike rfl fun name => ?_
  rw [hshare, Option.bind_assoc]
  refine bind_alike rfl fun spec => ?_
  simp only [Share.readMembers, Option.bind_eq_bind, Option.bind_assoc, Option.bind_some]

theorem codec : Codec decode toJson Fits where
  reads q hq := by
    obtain ⟨ms, hms, hget⟩ := exists_members (v := q.toJson) rfl (show names.Nodup by decide)
    have hshare : q.share.Fits := ⟨hq.weight, hq.capability, hq.deserved⟩
    rw [decode_eq]
    exact bind_of_some (hms _ _) <|
      bind_of_some (codec_text.required_written (hget "apiVersion" rfl) trivial) <|
      bind_of_some (codec_text.required_written (hget "kind" rfl) trivial) <|
      bind_of_some (codec_name.required_written (hget "metadata" rfl) trivial) <|
      bind_of_some (Share.codec.required_written (hget "spec" rfl) hshare) rfl
  yields v q hv h := by
    simp only [decode_eq, Option.bind_eq_some_iff, Option.some.injEq] at h
    obtain ⟨ms, hms, _, -, _, -, _, -, s, hs, rfl⟩ := h
    have hfits := Share.codec.of_required (proper_members hv hms) hs
    exact ⟨hfits.weight, hfits.capability, hfits.deserved⟩

theorem readsOnly : ReadsOnly decode names [] := by
  refine .of_read decode_eq fun ms ms' h => ?_
  exact bind_alike (h.required_eq (by simp [names])) fun _ =>
    bind_alike (h.required_eq (by simp [names])) fun _ =>
    bind_alike (h.required_eq (by simp [names])) fun _ =>
    bind_alike (h.required_eq (by simp [names])) fun _ => rfl

theorem get?_spec_toJson (q : GangQueue) : q.toJson.get? "spec" = some q.share.toJson :=
  Value.get?_object (by simp) (by simp [share, Share.toJson])

theorem get?_toJson_of_notMem {q : GangQueue} {name : String} (h : name ∉ names) :
    q.toJson.get? name = none := by
  rw [toJson]
  exact Value.get?_object_of_notMem h

/-- A queue with a ceiling. -/
def research : GangQueue :=
  .build "research" 2 true [("cpu", "4"), ("memory", "8Gi")]

theorem fits_research : research.Fits where
  weight := by decide
  capability := by decide
  deserved := by decide

end GangQueue

/-! ## The whole format -/

namespace GangJob

/-- What holds of the objects of a gang scheduler on the wire. An object fits if each of its parts is
of its type, which says that whole numbers fit words, that tables are in order, and that pods are JSON. -/
structure WireSpec : Prop where
  /-- What is written is read back as it was. -/
  jobs : ∀ j : GangJob, j.Fits → decode (.ofJson j.toJson) = some j
  queues : ∀ q : GangQueue, q.Fits → GangQueue.decode (.ofJson q.toJson) = some q
  /-- What is read is written in a form that reading and writing change no more. -/
  jobForms : ∀ (v : Value) (j : GangJob), v.Proper → decode (.ofJson v) = some j →
    j.Fits ∧ (decode (.ofJson j.toJson)).map toJson = some j.toJson
  queueForms : ∀ (v : Value) (q : GangQueue), v.Proper → GangQueue.decode (.ofJson v) = some q →
    q.Fits ∧ (GangQueue.decode (.ofJson q.toJson)).map GangQueue.toJson = some q.toJson
  /-- Every value that a text says is one of those that objects are read from here. -/
  texts : ∀ (s : String) (v : Value), Value.parse? s = some v → v.Proper
  /-- Unknown members are dropped, and missing ones are defaults. -/
  jobMembers : ReadsOnly decode names []
  metadataMembers : ReadsOnly GangMetadata.decode [] GangMetadata.defaults
  specMembers : ReadsOnly GangSpec.decode [] GangSpec.defaults
  taskMembers : ReadsOnly GangTask.decode ["name"] GangTask.defaults
  policyMembers : ReadsOnly GangPolicy.decode ["event", "action"] []
  queueMembers : ReadsOnly GangQueue.decode GangQueue.names []
  queueNames : ReadsOnly GangQueue.decodeName ["name"] []
  shareMembers : ReadsOnly GangQueue.Share.decode ["weight", "reclaimable"] GangQueue.Share.defaults
  /-- Members that are unknown or empty are not written. -/
  jobForm : ∀ (j : GangJob) (name : String), name ∉ names → j.toJson.get? name = none
  metadataForm : ∀ (j : GangJob) (name : String),
    (j.toJson.at? ["metadata", name]).isNone = (j.metadata.omitted.get? name).getD true
  specForm : ∀ (j : GangJob) (name : String),
    (j.toJson.at? ["spec", name]).isNone = (j.spec.omitted.get? name).getD true
  taskForm : ∀ (t : GangTask) (name : String),
    (t.toJson.get? name).isNone = (t.omitted.get? name).getD true
  queueForm : ∀ (q : GangQueue) (name : String), name ∉ GangQueue.names → q.toJson.get? name = none
  shareForm : ∀ (q : GangQueue) (name : String),
    (q.toJson.at? ["spec", name]).isNone = (q.share.omitted.get? name).getD true
  /-- The pods are read and written as they were authored. -/
  pods : ∀ (v : Value) (j : GangJob), v.Proper → decode (.ofJson v) = some j →
    j.spec.tasks.map GangTask.template = pods v ∧ GangJob.pods j.toJson = GangJob.pods v

theorem gang_objects_survive : WireSpec where
  jobs := codec.reads
  queues := GangQueue.codec.reads
  jobForms v j hv h := by
    have hj := codec.yields v j hv h
    rw [codec.reads j hj, Option.map_some]
    exact ⟨hj, rfl⟩
  queueForms v q hv h := by
    have hq := GangQueue.codec.yields v q hv h
    rw [GangQueue.codec.reads q hq, Option.map_some]
    exact ⟨hq, rfl⟩
  texts _ _ := Json.proper_of_parse?
  jobMembers := readsOnly
  metadataMembers := GangMetadata.readsOnly
  specMembers := GangSpec.readsOnly
  taskMembers := GangTask.readsOnly
  policyMembers := GangPolicy.readsOnly
  queueMembers := GangQueue.readsOnly
  queueNames := GangQueue.readsOnly_name
  shareMembers := GangQueue.Share.readsOnly
  jobForm _ _ := get?_toJson_of_notMem
  metadataForm j name := by
    rw [Value.at?_pair j.get?_metadata_toJson, GangMetadata.isNone_get?_toJson]
  specForm j name := by
    rw [Value.at?_pair j.get?_spec_toJson, GangSpec.isNone_get?_toJson]
  taskForm := GangTask.isNone_get?_toJson
  queueForm _ _ := GangQueue.get?_toJson_of_notMem
  shareForm q name := by
    rw [Value.at?_pair q.get?_spec_toJson, GangQueue.Share.isNone_get?_toJson]
  pods v j hv h := by
    have htemplates := pods_of_decode hv h
    exact ⟨htemplates, (pods_toJson j).trans htemplates⟩

/-- A job of two tasks, one of which has no pod. -/
def pair : GangJob where
  apiVersion := "batch.volcano.sh/v1alpha1"
  kind := "Job"
  metadata := ⟨"pair-7", "", []⟩
  spec := {
    schedulerName := "volcano"
    minAvailable := some 2
    maxRetry := none
    queue := some ""
    priorityClassName := none
    tasks := [⟨"master", 1, .null, []⟩,
      ⟨"worker", 4, .obj [("spec", .arr [.float 0.5, .null])], [⟨"PodEvicted", "RestartJob"⟩]⟩]
    policies := []
    plugins := [("env", []), ("svc", ["--publish"])] }

theorem fits_pair : pair.Fits where
  metadata := .nil
  spec := {
    minAvailable := by simp [pair]
    maxRetry := by simp [pair]
    tasks := by
      have hpod : Value.Proper (.obj [("spec", .arr [.float 0.5, .null])]) := by
        simp
        decide
      simp only [pair, List.forall_mem_cons]
      exact ⟨⟨by decide, .null⟩, ⟨by decide, hpod⟩, by simp⟩
    plugins := by decide }

/-- A job with the members that it needs, and some that no job has. -/
def sparse : Value :=
  .obj [("apiVersion", .str "batch.volcano.sh/v1alpha1"), ("kind", .str "Job"),
    ("metadata", .obj [("annotations", .null)]),
    ("spec", .obj [("policies", .arr []), ("tasks", .arr [.obj [("name", .str "main")]])]),
    ("status", .str "Pending")]

theorem proper_sparse : sparse.Proper := by
  simp [sparse]
  decide

theorem exists_decode_sparse :
    ∃ j, decode (.ofJson sparse) = some j ∧ j.spec.schedulerName = "volcano" :=
  ⟨_, rfl, rfl⟩

theorem survive_of_pair :
    decode (.ofJson pair.toJson) = some pair ∧
      GangQueue.decode (.ofJson GangQueue.research.toJson) = some .research ∧
      ∃ j, decode (.ofJson sparse) = some j ∧ j.spec.schedulerName = "volcano" ∧
        (decode (.ofJson j.toJson)).map toJson = some j.toJson ∧ pods j.toJson = [.null] := by
  obtain ⟨j, hj, hscheduler⟩ := exists_decode_sparse
  exact ⟨gang_objects_survive.jobs pair fits_pair,
    gang_objects_survive.queues .research GangQueue.fits_research, j, hj, hscheduler,
    (gang_objects_survive.jobForms sparse j proper_sparse hj).2,
    (gang_objects_survive.pods sparse j proper_sparse hj).2⟩

end GangJob

end ClusterJobs
