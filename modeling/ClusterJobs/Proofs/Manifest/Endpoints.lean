import ClusterJobs.Proofs.Manifest.FanOutItems
import ClusterJobs.Proofs.Queue.Ledger
import ClusterJobs.Proofs.Task.Executions
import ClusterJobs.Queue.Exchange
import ClusterJobs.Queue.Row

/-!
# Endpoints and what is sent to them

An object states its API version and its kind, and it is sent to an endpoint that has both too. Jobs
state what the catalog says of their kind, so they match their endpoints whatever is overridden. Queues
always state their usual version, so they match as long as that is not overridden.
-/

namespace ClusterJobs

open Json (Value)
open Web

/-! ## Stated coordinates -/

/-- The object states that it is of this kind and in this API version. -/
structure Json.Value.States (object : Value) (place : Coordinates) : Prop where
  apiVersion : object.get? "apiVersion" = some (.str place.apiVersion)
  kind : object.get? "kind" = some (.str place.kind)

section States

variable {object : Value} {place : Coordinates} {o : ClusterObject}

theorem Json.Value.states_stamp (place : Coordinates) (object : Value) :
    (Compiler.stamp place object).States place where
  apiVersion := by
    rw [Compiler.stamp, Value.get?_withMember, if_neg (by simp), Value.get?_withMember, if_pos rfl]
  kind := by rw [Compiler.stamp, Value.get?_withMember, if_pos rfl]

theorem ClusterObject.type_of_ofJson? (h : ClusterObject.ofJson? object = some o)
    (hstates : object.States place) : o.type = some (place.apiVersion, place.kind) := by
  obtain ⟨hversion, hkind⟩ := hstates
  cases object with
  | obj ms =>
    change Fields.get? ms _ = _ at hversion hkind
    have htype : ClusterObject.takeType (Fields.remove ms "metadata") =
        (some (place.apiVersion, place.kind),
          ((Fields.remove ms "metadata").remove "apiVersion").remove "kind") := by
      unfold ClusterObject.takeType
      rw [Fields.get?_remove, Fields.get?_remove, if_neg (by simp), if_neg (by simp), hversion, hkind]
    simp only [ClusterObject.ofJson?, htype] at h
    split at h
    all_goals
      obtain ⟨metadata, -, h⟩ := Option.bind_eq_some_iff.1 h
      cases h
      rfl
  | _ => cases h

/-- An object that is read and written again states the same. -/
theorem ClusterObject.states_toJson (h : ClusterObject.ofJson? object = some o)
    (hstates : object.States place) : o.toJson.States place := by
  have htype := ClusterObject.type_of_ofJson? h hstates
  have hjson : o.toJson = .obj (Fields.overwrite (Fields.ofPairs o.others)
      [("apiVersion", .str place.apiVersion), ("kind", .str place.kind),
        ("metadata", o.metadata.toJson)]) := by
    rw [ClusterObject.toJson, htype, Value.object, List.append_assoc, Fields.ofPairs,
      List.foldl_append]
    rfl
  rw [hjson]
  exact ⟨Fields.get?_overwrite_of_mem (by simp) (.head _),
    Fields.get?_overwrite_of_mem (by simp) (.tail _ (.head _))⟩

end States

/-! ## Exchanges -/

/-- The program sends this request and nothing else. It sends nothing if the request cannot be made. -/
inductive Exchanges {α : Type} : Except ExchangeFault Web.Request → ExchangeProgram α → Prop where
  | sent {q : Web.Request} {next : Reply → ExchangeProgram α} : (∀ x, ∃ a, next x = .done a) →
      Exchanges (.ok q) (.ask (.send q) next)
  | unsent {e : ExchangeFault} (a : α) : Exchanges (.error e) (.done a)

section Exchanges

variable {α β : Type} {request : Except ExchangeFault Web.Request} {p : ExchangeProgram α}
  {object : Value} {place : Coordinates}

theorem Exchanges.bind {f : α → ExchangeProgram β} (hp : Exchanges request p)
    (hf : ∀ a, ∃ b, f a = .done b) : Exchanges request (p.bind f) := by
  cases hp with
  | sent hnext =>
    refine .sent fun x => ?_
    obtain ⟨a, ha⟩ := hnext x
    rw [ha]
    exact hf a
  | unsent a =>
    obtain ⟨b, hb⟩ := hf a
    rw [Program.done_bind, hb]
    exact .unsent b

theorem exchanges_exchange (request : Except ExchangeFault Web.Request) :
    Exchanges request (exchange request) := by
  cases request with
  | error e => exact .unsent _
  | ok q => exact .sent fun x => ⟨x.text, rfl⟩

theorem exchanges_exchangeFor (read : Value → Option α) (request : Except ExchangeFault Web.Request) :
    Exchanges request (exchangeFor read request) := by
  refine (exchanges_exchange request).bind fun x => ?_
  cases x with
  | error e => exact ⟨_, rfl⟩
  | ok body => exact ⟨_, rfl⟩

end Exchanges

/-! ## Jobs -/

section Jobs

variable {e : Engine} {r : Request} {index : Option Nat} {m : Manifest} {c : Collection}
  {place : Coordinates} {object : Value}

/-- The collection that an object is sent to. -/
def ObjectRef.collection (catalog : Catalog) (o : ObjectRef) : Collection :=
  ⟨catalog.resolve o.kind, some o.nameSpace⟩

theorem Compiler.states_of_compile {c : Compiler} (h : c.compile r index = .ok m) :
    m.object.States (m.ref.collection c.catalog).resource := by
  obtain ⟨-, object, -, rfl⟩ := Compiler.compile_eq_ok_iff.1 h
  exact Value.states_stamp _ object

theorem exchanges_create {object : ClusterObject} {body : Value}
    (h : ClusterObject.ofJson? body = some object) :
    Exchanges (Web.Request.make .post c.path (some []) (some object.toJson)) (c.create body) := by
  unfold Collection.create
  rw [h]
  refine (exchanges_exchangeFor ..).bind fun x => ?_
  cases x with
  | ok _ => exact ⟨_, rfl⟩
  | error fault => exact ⟨_, rfl⟩

end Jobs

/-! ## Queues -/

section Queues

variable {catalog : Catalog} {q : GangQueue}

theorem GangQueue.states_build (name : String) (weight : Nat) (reclaimable : Bool)
    (capability : Fields String) :
    (GangQueue.build name weight reclaimable capability).toJson.States
      (Catalog.standard.resolve .gangQueue) where
  apiVersion := Value.get?_object (by simp) (.head _)
  kind := Value.get?_object (by simp) (.tail _ (.head _))

theorem ClusterObject.exists_ofJson? {ms : List (String × Value)} {v : Value}
    (h : Fields.get? ms "metadata" = some v)
    (hv : ∃ metadata, ObjectMeta.decode (.ofJson v) = some metadata) :
    ∃ object, ClusterObject.ofJson? (.obj ms) = some object := by
  obtain ⟨metadata, hv⟩ := hv
  simp only [ClusterObject.ofJson?, h, hv]
  exact ⟨_, rfl⟩

theorem ObjectMeta.exists_decode_named (name : String) :
    ∃ metadata, ObjectMeta.decode (.ofJson (.object [("name", .str name)])) = some metadata := by
  exact ⟨_, rfl⟩

theorem GangQueue.exists_object (q : GangQueue) :
    ∃ object, ClusterObject.ofJson? q.toJson = some object :=
  ClusterObject.exists_ofJson? (Value.get?_object (by simp) (.tail _ (.tail _ (.head _))))
    (ObjectMeta.exists_decode_named q.name)

/-- What is sent to have a queue. -/
def GangQueue.request (c : Collection) (name : String) (body : Value) :
    Except ExchangeFault Web.Request :=
  Web.Request.named .patch c.path name "" (some [("force", "true"), ("fieldManager", "kubetask")])
    (some body)

theorem exchanges_applyTo {object : ClusterObject} (c : Collection) (cluster : String)
    (h : ClusterObject.ofJson? q.toJson = some object) :
    Exchanges (GangQueue.request c q.name object.toJson) (q.applyTo c cluster) := by
  have hobject : q.toObject = .ok object := by
    rw [GangQueue.toObject, h]
  unfold GangQueue.applyTo
  rw [hobject]
  refine Exchanges.bind (Exchanges.bind (exchanges_exchangeFor ..) fun x => ?_) fun x => ?_
  all_goals
    cases x with
    | ok _ => exact ⟨_, rfl⟩
    | error fault => exact ⟨_, rfl⟩

/-- An object states one version only. -/
theorem states_queue_iff {body : Value} (h : body.States (Catalog.standard.resolve .gangQueue)) :
    body.States (GangQueue.collection catalog).resource ↔
      catalog.apiVersion .gangQueue = ObjectKind.gangQueue.defaultApiVersion := by
  have hversion : (GangQueue.collection catalog).resource.apiVersion =
      catalog.apiVersion .gangQueue := rfl
  constructor
  · intro h'
    have heq := h'.apiVersion.symm.trans h.apiVersion
    rw [hversion, Option.some.injEq, Value.str.injEq] at heq
    exact heq
  · intro heq
    refine ⟨?_, h.kind⟩
    rw [hversion, heq]
    exact h.apiVersion

end Queues

/-! ## Main result -/

/-- What states the coordinates of the endpoint that it is sent to. -/
structure EndpointsSpec (catalog : Catalog) : Prop where
  /-- Every manifest does, whatever is overridden. -/
  compiled : ∀ (c : Compiler) (r : Request) (index : Option Nat) (m : Manifest),
    c.catalog = catalog → c.compile r index = .ok m →
    m.object.States (m.ref.collection catalog).resource
  /-- So does all that a run creates. -/
  created : ∀ (σ : Type) (h : Program.Handler Call Answer (Timed σ)) (e : Engine) (r : Request)
    (ctx : Context) (s : Timed σ), e.compiler.catalog = catalog →
    ∀ o body, .create o body ∈ e.calls h r ctx s → body.States (o.collection catalog).resource
  /-- It is sent as an object that still does, unless it is no object that a cluster can hold. -/
  posted : ∀ (c : Collection) (body : Value) (object : ClusterObject), body.States c.resource →
    ClusterObject.ofJson? body = some object → object.toJson.States c.resource ∧
      Exchanges (Web.Request.make .post c.path (some []) (some object.toJson)) (c.create body)
  unposted : ∀ (c : Collection) (body : Value), ClusterObject.ofJson? body = none →
    ∃ fault, c.create body = .done (.error fault)
  /-- The queue of a row does if and only if the version of queues is the usual one. -/
  applied : ∀ (row : QueueRow) (settings : QueueSettings) (cluster : String), ∃ body,
    Exchanges (GangQueue.request (GangQueue.collection catalog) row.name body)
      ((row.manifest settings).applyTo (GangQueue.collection catalog) cluster) ∧
    (body.States (GangQueue.collection catalog).resource ↔
      catalog.apiVersion .gangQueue = ObjectKind.gangQueue.defaultApiVersion)

theorem endpoints_spec (catalog : Catalog) : EndpointsSpec catalog where
  compiled := by
    rintro c r index m rfl h
    exact Compiler.states_of_compile h
  created := by
    rintro σ h e r ctx s rfl o body hcreate
    obtain ⟨ms, hcompile, hamong⟩ := Engine.calls_among hcreate
    obtain ⟨m, hm, rfl, hbody⟩ := hamong o rfl
    obtain rfl := hbody body rfl
    obtain ⟨index, -, hindex⟩ := Compiler.exists_place_of_mem hcompile hm
    exact Compiler.states_of_compile hindex
  posted _ _ _ hstates h := ⟨ClusterObject.states_toJson h hstates, exchanges_create h⟩
  unposted c body h := by
    unfold Collection.create
    rw [h]
    exact ⟨_, rfl⟩
  applied row settings cluster := by
    obtain ⟨object, hobject⟩ := (row.manifest settings).exists_object
    refine ⟨object.toJson, exchanges_applyTo _ cluster hobject, states_queue_iff ?_⟩
    exact ClusterObject.states_toJson hobject (GangQueue.states_build ..)

/-! ## Queues in a newer version -/

def Catalog.renewed : Catalog := ⟨[("volcanoQueue", "scheduling.volcano.sh/v1beta2")]⟩

/-- The queue goes to the endpoint of the newer version and states the usual one. -/
theorem applied_renewed :
    ((rehearse ((QueueRow.vision.manifest .plain).applyTo
        (GangQueue.collection .renewed) "prod") []).2.map fun q =>
      (q.path, q.body.bind fun body => (body.get? "apiVersion").bind Value.asString?)) =
      [("/apis/scheduling.volcano.sh/v1beta2/queues/vision",
        some "scheduling.volcano.sh/v1beta1")] := by
  decide +kernel

end ClusterJobs
