import ClusterJobs.Proofs.Wire.Texts
import ClusterJobs.Proofs.Wire.Workloads

/-!
# Requests survive the wire

A request that is written is read back as it was, and what is read and written again is read as the
same request.
-/

namespace ClusterJobs

open Json (Value)
open Decode

namespace Request

/-- The whole numbers of a request fit their words, its tables are in order, and its floats are
finite. -/
structure Fits (r : Request) : Prop where
  taskInstanceId : FitsInt64 r.taskInstanceId
  taskCode : FitsInt64 r.taskCode
  processInstanceId : FitsInt64 r.processInstanceId
  resources : r.resources.Fits
  labels : r.labels.Sorted
  env : r.env.Sorted
  fetches : ∀ f ∈ r.fetches, f.Fits
  workload : r.workload.Fits
  timeout : r.timeout.Fits

/-- Each part of the request is what its member says, or its default. -/
structure IsReadFrom (r : Request) (ms : Members) : Prop where
  taskName : ms.required "taskName" text = some r.taskName
  taskInstanceId : ms.required "taskInstanceId" int64 = some r.taskInstanceId
  taskCode : ms.withDefault "taskCode" 0 int64 = some r.taskCode
  taskAppId : ms.withDefault "taskAppId" "" text = some r.taskAppId
  processInstanceId : ms.withDefault "processInstanceId" 0 int64 = some r.processInstanceId
  image : ms.required "image" text = some r.image
  imagePullPolicy : ms.optional "imagePullPolicy" text = some r.imagePullPolicy
  command : ms.withDefault "command" "" text = some r.command
  args : ms.withDefault "args" "" text = some r.args
  nameSpace : ms.required "namespace" text = some r.nameSpace
  cluster : ms.required "cluster" text = some r.cluster
  resources : ms.withDefault "resources" .standard Envelope.decode = some r.resources
  queue : ms.optional "queue" text = some r.queue
  labels : ms.withDefault "labels" [] (table text) = some r.labels
  env : ms.withDefault "env" [] (table text) = some r.env
  nodeSelectors : ms.withDefault "nodeSelectors" [] (list NodeSelector.decode) = some r.nodeSelectors
  volumes : ms.withDefault "volumes" .standard Volumes.decode = some r.volumes
  fetches : ms.withDefault "fetches" [] (list FetchSpec.decode) = some r.fetches
  multiple : ms.withDefault "multiple" false bool = some r.multiple
  workload : ms.withDefault "workload" .plain Workload.decode = some r.workload
  timeout : ms.withDefault "timeout" .standard TimeoutPolicy.decode = some r.timeout
  logPath : ms.optional "logPath" text = some r.logPath

theorem decode_eq_some_iff {w : Wire} {r : Request} :
    decode w = some r ↔ ∃ ms, members true names w = some ms ∧ r.IsReadFrom ms := by
  constructor
  · intro h
    obtain ⟨ms, hms, h⟩ := Option.bind_eq_some_iff.1 h
    obtain ⟨_, htaskName, h⟩ := Option.bind_eq_some_iff.1 h
    obtain ⟨_, hinstance, h⟩ := Option.bind_eq_some_iff.1 h
    obtain ⟨_, hcode, h⟩ := Option.bind_eq_some_iff.1 h
    obtain ⟨_, happId, h⟩ := Option.bind_eq_some_iff.1 h
    obtain ⟨_, hprocess, h⟩ := Option.bind_eq_some_iff.1 h
    obtain ⟨_, himage, h⟩ := Option.bind_eq_some_iff.1 h
    obtain ⟨_, hpolicy, h⟩ := Option.bind_eq_some_iff.1 h
    obtain ⟨_, hcommand, h⟩ := Option.bind_eq_some_iff.1 h
    obtain ⟨_, hargs, h⟩ := Option.bind_eq_some_iff.1 h
    obtain ⟨_, hnameSpace, h⟩ := Option.bind_eq_some_iff.1 h
    obtain ⟨_, hcluster, h⟩ := Option.bind_eq_some_iff.1 h
    obtain ⟨_, hresources, h⟩ := Option.bind_eq_some_iff.1 h
    obtain ⟨_, hqueue, h⟩ := Option.bind_eq_some_iff.1 h
    obtain ⟨_, hlabels, h⟩ := Option.bind_eq_some_iff.1 h
    obtain ⟨_, henv, h⟩ := Option.bind_eq_some_iff.1 h
    obtain ⟨_, hselectors, h⟩ := Option.bind_eq_some_iff.1 h
    obtain ⟨_, hvolumes, h⟩ := Option.bind_eq_some_iff.1 h
    obtain ⟨_, hfetches, h⟩ := Option.bind_eq_some_iff.1 h
    obtain ⟨_, hmultiple, h⟩ := Option.bind_eq_some_iff.1 h
    obtain ⟨_, hworkload, h⟩ := Option.bind_eq_some_iff.1 h
    obtain ⟨_, htimeout, h⟩ := Option.bind_eq_some_iff.1 h
    obtain ⟨_, hlogPath, h⟩ := Option.bind_eq_some_iff.1 h
    cases h
    exact ⟨ms, hms, htaskName, hinstance, hcode, happId, hprocess, himage, hpolicy, hcommand, hargs,
      hnameSpace, hcluster, hresources, hqueue, hlabels, henv, hselectors, hvolumes, hfetches,
      hmultiple, hworkload, htimeout, hlogPath⟩
  · rintro ⟨ms, hms, htaskName, hinstance, hcode, happId, hprocess, himage, hpolicy, hcommand,
      hargs, hnameSpace, hcluster, hresources, hqueue, hlabels, henv, hselectors, hvolumes,
      hfetches, hmultiple, hworkload, htimeout, hlogPath⟩
    exact bind_of_some hms <| bind_of_some htaskName <| bind_of_some hinstance <|
      bind_of_some hcode <| bind_of_some happId <| bind_of_some hprocess <| bind_of_some himage <|
      bind_of_some hpolicy <| bind_of_some hcommand <| bind_of_some hargs <|
      bind_of_some hnameSpace <| bind_of_some hcluster <| bind_of_some hresources <|
      bind_of_some hqueue <| bind_of_some hlabels <| bind_of_some henv <|
      bind_of_some hselectors <| bind_of_some hvolumes <| bind_of_some hfetches <|
      bind_of_some hmultiple <| bind_of_some hworkload <| bind_of_some htimeout <|
      bind_of_some hlogPath rfl

theorem codec : Codec decode toJson Fits where
  reads r hr := by
    obtain ⟨ms, hms, hget⟩ := exists_members (v := r.toJson) rfl (show names.Nodup by decide)
    exact decode_eq_some_iff.2 ⟨_, hms _ _, {
      taskName := codec_text.required_written (hget "taskName" rfl) trivial
      taskInstanceId := codec_int64.required_written (hget "taskInstanceId" rfl) hr.taskInstanceId
      taskCode := codec_int64.withDefault_written (hget "taskCode" rfl) hr.taskCode
      taskAppId := codec_text.withDefault_written (hget "taskAppId" rfl) trivial
      processInstanceId :=
        codec_int64.withDefault_written (hget "processInstanceId" rfl) hr.processInstanceId
      image := codec_text.required_written (hget "image" rfl) trivial
      imagePullPolicy :=
        codec_optionalText.optional_written (hget "imagePullPolicy" rfl) (by simp)
      command := codec_text.withDefault_written (hget "command" rfl) trivial
      args := codec_text.withDefault_written (hget "args" rfl) trivial
      nameSpace := codec_text.required_written (hget "namespace" rfl) trivial
      cluster := codec_text.required_written (hget "cluster" rfl) trivial
      resources := Envelope.codec.withDefault_written (hget "resources" rfl) hr.resources
      queue := codec_optionalText.optional_written (hget "queue" rfl) (by simp)
      labels := codec_textTable.withDefault_written (hget "labels" rfl) ⟨hr.labels, by simp⟩
      env := codec_textTable.withDefault_written (hget "env" rfl) ⟨hr.env, by simp⟩
      nodeSelectors :=
        (codec_list NodeSelector.codec).withDefault_written (hget "nodeSelectors" rfl) (by simp)
      volumes := Volumes.codec.withDefault_written (hget "volumes" rfl) trivial
      fetches := (codec_list FetchSpec.codec).withDefault_written (hget "fetches" rfl) hr.fetches
      multiple := codec_bool.withDefault_written (hget "multiple" rfl) trivial
      workload := Workload.codec.withDefault_written (hget "workload" rfl) hr.workload
      timeout := TimeoutPolicy.codec.withDefault_written (hget "timeout" rfl) hr.timeout
      logPath := codec_optionalText.optional_written (hget "logPath" rfl) (by simp) }⟩
  yields v r hv h := by
    obtain ⟨ms, hms, hread⟩ := decode_eq_some_iff.1 h
    have hms := proper_members hv hms
    have hzero : FitsInt64 0 := by simp [FitsInt64]
    have hempty : Fields.Sorted ([] : Fields String) ∧ ∀ p ∈ ([] : Fields String), True :=
      ⟨.nil, by simp⟩
    have hplain : Workload.Fits .plain := trivial
    -- The other parts are texts and flags, which always fit.
    exact {
      taskInstanceId := codec_int64.of_required hms hread.taskInstanceId
      taskCode := codec_int64.of_withDefault hms hzero hread.taskCode
      processInstanceId := codec_int64.of_withDefault hms hzero hread.processInstanceId
      resources := Envelope.codec.of_withDefault hms Envelope.fits_standard hread.resources
      labels := (codec_textTable.of_withDefault hms hempty hread.labels).1
      env := (codec_textTable.of_withDefault hms hempty hread.env).1
      fetches := (codec_list FetchSpec.codec).of_withDefault hms (by simp) hread.fetches
      workload := Workload.codec.of_withDefault hms hplain hread.workload
      timeout := TimeoutPolicy.codec.of_withDefault hms TimeoutPolicy.fits_standard hread.timeout }

/-! ## Missing and unknown members -/

/-- The members that have to be there. -/
def required : List String :=
  ["taskName", "taskInstanceId", "image", "namespace", "cluster"]

/-- What the other members are where they are missing. -/
def defaults : Fields Value :=
  [("taskCode", .int 0), ("taskAppId", .str ""), ("processInstanceId", .int 0),
    ("imagePullPolicy", .null), ("command", .str ""), ("args", .str ""),
    ("resources", Envelope.standard.toJson), ("queue", .null), ("labels", .texts []),
    ("env", .texts []), ("nodeSelectors", .arr []), ("volumes", Volumes.standard.toJson),
    ("fetches", .arr []), ("multiple", .bool false), ("workload", Workload.plain.toJson),
    ("timeout", TimeoutPolicy.standard.toJson), ("logPath", .null)]

theorem readsOnly : ReadsOnly decode required defaults := by
  have hresources := Envelope.codec.reads _ Envelope.fits_standard
  have hvolumes := Volumes.codec.reads .standard trivial
  have hworkload := Workload.codec.reads .plain trivial
  have htimeout := TimeoutPolicy.codec.reads _ TimeoutPolicy.fits_standard
  refine .of_read (fun _ => rfl) fun ms ms' h => ?_
  exact bind_alike (h.required_eq (by simp [required])) fun _ =>
    bind_alike (h.required_eq (by simp [required])) fun _ =>
    bind_alike (h.withDefault_eq rfl rfl) fun _ =>
    bind_alike (h.withDefault_eq rfl rfl) fun _ =>
    bind_alike (h.withDefault_eq rfl rfl) fun _ =>
    bind_alike (h.required_eq (by simp [required])) fun _ =>
    bind_alike (h.optional_eq rfl rfl) fun _ =>
    bind_alike (h.withDefault_eq rfl rfl) fun _ =>
    bind_alike (h.withDefault_eq rfl rfl) fun _ =>
    bind_alike (h.required_eq (by simp [required])) fun _ =>
    bind_alike (h.required_eq (by simp [required])) fun _ =>
    bind_alike (h.withDefault_eq rfl hresources) fun _ =>
    bind_alike (h.optional_eq rfl rfl) fun _ =>
    bind_alike (h.withDefault_eq rfl rfl) fun _ =>
    bind_alike (h.withDefault_eq rfl rfl) fun _ =>
    bind_alike (h.withDefault_eq rfl rfl) fun _ =>
    bind_alike (h.withDefault_eq rfl hvolumes) fun _ =>
    bind_alike (h.withDefault_eq rfl rfl) fun _ =>
    bind_alike (h.withDefault_eq rfl rfl) fun _ =>
    bind_alike (h.withDefault_eq rfl hworkload) fun _ =>
    bind_alike (h.withDefault_eq rfl htimeout) fun _ =>
    bind_alike (h.optional_eq rfl rfl) fun _ => rfl

/-! ## The whole format -/

/-- What holds of requests on the wire. A request fits if each of its parts is of its type, which says
that whole numbers fit words and that tables are in order, and if its floats are finite. -/
structure WireSpec : Prop where
  /-- A request that is written is read back as it was. -/
  survives : ∀ r : Request, r.Fits → decode (.ofJson r.toJson) = some r
  /-- A request that is read fits, so once it is written it is read as the same request. -/
  settles : ∀ (v : Value) (r : Request), v.Proper → decode (.ofJson v) = some r →
    r.Fits ∧ decode (.ofJson r.toJson) = some r
  /-- Every value that a text says is one of those that requests are read from here. -/
  texts : ∀ (s : String) (v : Value), Value.parse? s = some v → v.Proper
  /-- Unknown members are dropped, and missing ones are defaults. -/
  requests : ReadsOnly decode required defaults
  envelopes : ReadsOnly Envelope.decode [] Envelope.defaults
  replicas : ReadsOnly MasterWorker.decode ["master", "worker"] []
  volumes : ReadsOnly Volumes.decode [] Volumes.defaults
  fetches : ReadsOnly FetchSpec.decode [] FetchSpec.defaults
  timeouts : ReadsOnly TimeoutPolicy.decode [] TimeoutPolicy.defaults
  selectors : ReadsOnly NodeSelector.decode [] NodeSelector.defaults
  /-- The parameters of a workload are those of its shape. -/
  workloads : ∀ (k : WorkloadKind) (ms ms' : Fields Value), ms.Sorted → ms'.Sorted →
    ms.get? "kind" = some (.str k.wireName) → ms'.get? "kind" = some (.str k.wireName) →
    Fields.Agree [] k.defaults ms ms' →
    Workload.decode (.ofJson (.obj ms)) = Workload.decode (.ofJson (.obj ms'))

theorem requests_survive : WireSpec where
  survives := codec.reads
  settles v r hv h :=
    have hr := codec.yields v r hv h
    ⟨hr, codec.reads r hr⟩
  texts _ _ := Json.proper_of_parse?
  requests := readsOnly
  envelopes := Envelope.readsOnly
  replicas := MasterWorker.readsOnly
  volumes := Volumes.readsOnly
  fetches := FetchSpec.readsOnly
  timeouts := TimeoutPolicy.readsOnly
  selectors := NodeSelector.readsOnly
  workloads _ _ _ := Workload.decode_alike

/-- The training of a model, with what may be said of it. -/
def digits : Request where
  taskName := "digits"
  taskInstanceId := 5
  taskCode := -3
  taskAppId := "app"
  processInstanceId := 9
  image := "trainer"
  imagePullPolicy := some "Always"
  command := "[\"python\"]"
  args := ""
  nameSpace := "ml"
  cluster := "prod"
  resources := ⟨0.5, 512.0, some 1.5, none⟩
  queue := some ""
  labels := [("team", "vision"), ("tier", "")]
  env := [("SEED", "7")]
  nodeSelectors := [⟨"disk", "In", some ["ssd", "nvme"]⟩, ⟨"gpu", "Exists", none⟩]
  volumes := .standard
  fetches := [.standard, ⟨some 4, none, "train", "s3", "/srv", "[a, b]"⟩]
  multiple := true
  workload := .training ⟨1, 3, none, some ⟨2.25, 2048.0, none, some "nvidia.com/gpu"⟩⟩
  timeout := ⟨.warnFailed, 3600⟩
  logPath := none

theorem fits_digits : digits.Fits where
  taskInstanceId := by simp [FitsInt64, digits]
  taskCode := by simp [FitsInt64, digits]
  processInstanceId := by simp [FitsInt64, digits]
  resources := ⟨by decide, by decide, by simp [digits]; decide⟩
  labels := by decide
  env := by decide
  fetches := by
    simp only [digits, List.forall_mem_cons]
    refine ⟨⟨by simp [FetchSpec.standard], by simp [FetchSpec.standard]⟩, ⟨?_, by simp⟩, by simp⟩
    simp [FitsInt64]
  workload := ⟨by decide, by decide, by simp, by simp; exact ⟨by decide, by decide, by simp⟩⟩
  timeout := Nat.lt_of_sub_pos (by decide)

/-- An object with the required members, and one that no request has. -/
def sparse : Value :=
  .obj [("cluster", .str "local"), ("image", .str "busybox"), ("namespace", .str "default"),
    ("owner", .null), ("taskInstanceId", .int 5), ("taskName", .str "etl")]

theorem proper_sparse : sparse.Proper := by
  simp [sparse]
  decide

theorem exists_decode_sparse :
    ∃ r, decode (.ofJson sparse) = some r ∧ r.resources = .standard ∧ r.workload = .plain :=
  ⟨_, rfl, rfl, rfl⟩

theorem wire_of_digits :
    decode (.ofJson digits.toJson) = some digits ∧
      ∃ r, decode (.ofJson sparse) = some r ∧ r.resources = .standard ∧ r.workload = .plain ∧
        r.Fits ∧ decode (.ofJson r.toJson) = some r := by
  obtain ⟨r, hr, hresources, hworkload⟩ := exists_decode_sparse
  exact ⟨requests_survive.survives digits fits_digits, r, hr, hresources, hworkload,
    requests_survive.settles sparse r proper_sparse hr⟩

end Request

end ClusterJobs
