import ClusterJobs.Proofs.Wire.Parts

/-!
# Workloads on the wire

A workload is one object, in which a member names the shape and the others are its parameters. The
parameters are read once the shape is known.
-/

namespace ClusterJobs

open Json (Value)
open Decode

/-! ## What can be written -/

structure FlinkParams.Fits (p : FlinkParams) : Prop where
  parallelism : ∀ n ∈ p.parallelism, n < 2 ^ 32
  slots : ∀ n ∈ p.slots, n < 2 ^ 32

structure SparkParams.Fits (p : SparkParams) : Prop where
  driverCores : ∀ n ∈ p.driverCores, n < 2 ^ 32
  numExecutors : ∀ n ∈ p.numExecutors, n < 2 ^ 32
  executorCores : ∀ n ∈ p.executorCores, n < 2 ^ 32

structure TrainingParams.Fits (p : TrainingParams) : Prop where
  masterReplicas : p.masterReplicas < 2 ^ 32
  workerReplicas : p.workerReplicas < 2 ^ 32
  masterResources : ∀ e ∈ p.masterResources, e.Fits
  workerResources : ∀ e ∈ p.workerResources, e.Fits

/-- The whole numbers of the parameters fit their words, and the floats are finite. -/
def Workload.Fits : Workload → Prop
  | .plain => True
  | .queueAdmitted replicas => ∀ m ∈ replicas, m.Fits
  | .flink p => p.Fits
  | .spark p => p.Fits
  | .training p => p.Fits

/-! ## What is known -/

def FlinkParams.defaults : Fields Value :=
  [("masterUrl", .null), ("parallelism", .null), ("slots", .null), ("mainClass", .null),
    ("jobManagerMemory", .null), ("taskManagerMemory", .null)]

def SparkParams.defaults : Fields Value :=
  SparkParams.names.map fun name => (name, .null)

def TrainingParams.defaults : Fields Value :=
  [("masterReplicas", .int 1), ("workerReplicas", .int 1), ("masterResources", .null),
    ("workerResources", .null)]

/-- The parameters of a shape; each has a default. -/
def WorkloadKind.defaults : WorkloadKind → Fields Value
  | plain => []
  | queueAdmitted => [("replicas", .null)]
  | flink => FlinkParams.defaults
  | spark => SparkParams.defaults
  | training => TrainingParams.defaults

/-! ## The name of the shape -/

theorem Fields.filter_key {ms : Fields Value} (hnodup : (ms.map Prod.fst).Nodup) (key : String) :
    ms.filter (fun p => p.1 == key) = (ms.get? key).toList.map fun v => (key, v) := by
  induction ms with
  | nil => rfl
  | cons p rest ih =>
    obtain ⟨k, v⟩ := p
    obtain ⟨hnew, hrest⟩ := List.nodup_cons.1 hnodup
    by_cases h : k = key
    · subst h
      have hnone : rest.filter (fun p => p.1 == k) = [] := by
        rw [List.filter_eq_nil_iff]
        intro q hq heq
        exact hnew (List.mem_map.2 ⟨q, hq, by simpa using heq⟩)
      simp [get?, hnone]
    · simp [get?, h, ih hrest]

theorem Fields.remove_eq_filter {α : Type} (fs : Fields α) (key : String) :
    fs.remove key = fs.filter fun p => !(p.1 == key) := by
  induction fs with
  | nil => rfl
  | cons p rest ih =>
    obtain ⟨k, v⟩ := p
    by_cases h : k = key <;> simp [remove, h, ih]

/-- The member that names the shape is taken out of an object. -/
theorem takeKind_ofJsonMembers {ms : Fields Value} (hnodup : (ms.map Prod.fst).Nodup) :
    takeKind (Wire.ofJsonMembers ms) =
      (ms.get? "kind").map fun v => (.ofJson v, Wire.ofJsonMembers (ms.remove "kind")) := by
  have hkey (s : String) : (some s == some "kind") = (s == "kind") := rfl
  simp only [takeKind, Wire.ofJsonMembers_eq_map, List.filter_map, Function.comp_def, text, hkey,
    ← Fields.remove_eq_filter, Fields.filter_key hnodup]
  cases ms.get? "kind" <;> rfl

theorem WorkloadKind.ofWireName?_wireName (k : WorkloadKind) : ofWireName? k.wireName = some k := by
  cases k <;> rfl

namespace Workload

theorem decode_obj {ms : Fields Value} (hms : ms.Sorted) :
    decode (.ofJson (.obj ms)) = (ms.get? "kind").bind fun name =>
      ((text (.ofJson name)).bind WorkloadKind.ofWireName?).bind fun kind =>
        decodeParams kind (.ofJson (.obj (ms.remove "kind"))) := by
  have hsettle := Wire.settle_ofJson (.obj ms)
  rw [decode, hsettle]
  simp only [Wire.ofJson, takeKind_ofJsonMembers hms.nodup]
  cases ms.get? "kind" <;> rfl

/-- A shape with its parameters may arrive as a list of its members. -/
theorem decode_arr (name : Value) (rest : List Value) :
    decode (.ofJson (.arr (name :: rest))) =
      ((text (.ofJson name)).bind WorkloadKind.ofWireName?).bind fun kind =>
        decodeParams kind (.ofJson (.arr rest)) := by
  have hsettle := Wire.settle_ofJson (.arr (name :: rest))
  rw [decode, hsettle]
  rfl

/-- A workload that is written is read by its shape. -/
theorem exists_params {w : Workload} {pairs : List (String × Value)} (hw : w.toJson = .object pairs)
    (hnodup : (pairs.map Prod.fst).Nodup)
    (hkind : Fields.get? pairs "kind" = some (.str w.kind.wireName)) :
    ∃ (fs : Fields Value) (params : Value),
      decode (.ofJson w.toJson) = decodeParams w.kind (.ofJson params) ∧
        (∀ padded names, members padded names (.ofJson params) = some (.ofFields fs)) ∧
          ∀ name {x}, (Fields.remove pairs "kind").get? name = x → fs.get? name = x := by
  have hsorted := Fields.sorted_ofPairs pairs
  refine ⟨(Fields.ofPairs pairs).remove "kind", _, ?_, members_obj (hsorted.remove "kind").nodup,
    fun name x hx => ?_⟩
  · rw [hw, Value.object, decode_obj hsorted, Fields.get?_ofPairs hnodup, hkind]
    simp [WorkloadKind.ofWireName?_wireName]
  · rw [← hx, Fields.get?_remove, Fields.get?_remove, Fields.get?_ofPairs hnodup]

theorem reads_queueAdmitted {replicas : Option MasterWorker} (hfits : ∀ m ∈ replicas, m.Fits) :
    decode (.ofJson (toJson (.queueAdmitted replicas))) = some (.queueAdmitted replicas) := by
  -- Replicas that are not set are left out, where the other shapes write `null`.
  cases replicas with
  | none =>
    obtain ⟨fs, v, hdecode, hms, hget⟩ := exists_params (w := .queueAdmitted none) rfl (by simp) rfl
    rw [hdecode]
    simp only [kind, decodeParams, hms, Option.bind_eq_bind, Option.bind_some,
      MasterWorker.codec.optional_omitted (o := none) (by simp [MasterWorker.toJson, Value.object])
        (hget "replicas" rfl) hfits]
  | some m =>
    obtain ⟨fs, v, hdecode, hms, hget⟩ := exists_params (w := .queueAdmitted (some m)) rfl (by simp)
      rfl
    rw [hdecode]
    simp only [kind, decodeParams, hms, Option.bind_eq_bind, Option.bind_some,
      MasterWorker.codec_optional.optional_written (o := some m) (hget "replicas" rfl) hfits]

theorem reads_flink {p : FlinkParams} (hp : p.Fits) :
    decode (.ofJson (toJson (.flink p))) = some (.flink p) := by
  obtain ⟨fs, v, hdecode, hms, hget⟩ := exists_params (w := .flink p) rfl (by simp) rfl
  have hread : FlinkParams.decode (.ofJson v) = some p := by
    exact bind_of_some (hms _ _) <|
      bind_of_some (codec_optionalText.optional_written (hget "masterUrl" rfl) (by simp)) <|
      bind_of_some (codec_optionalNat32.optional_written (hget "parallelism" rfl) hp.parallelism) <|
      bind_of_some (codec_optionalNat32.optional_written (hget "slots" rfl) hp.slots) <|
      bind_of_some (codec_optionalText.optional_written (hget "mainClass" rfl) (by simp)) <|
      bind_of_some (codec_optionalText.optional_written (hget "jobManagerMemory" rfl) (by simp)) <|
      bind_of_some (codec_optionalText.optional_written (hget "taskManagerMemory" rfl) (by simp)) rfl
  rw [hdecode, kind, decodeParams, hread, Option.map_some]

theorem reads_spark {p : SparkParams} (hp : p.Fits) :
    decode (.ofJson (toJson (.spark p))) = some (.spark p) := by
  obtain ⟨fs, v, hdecode, hms, hget⟩ := exists_params (w := .spark p) rfl (by simp) rfl
  have htext {name : String} {o : Option String} (h : fs.get? name = some (.orNull .str o)) :
      (Members.ofFields fs).optional name text = some o :=
    codec_optionalText.optional_written h (by simp)
  have hnat {name : String} {o : Option Nat} (h : fs.get? name = some (.orNull natToJson o))
      (ho : ∀ n ∈ o, n < 2 ^ 32) : (Members.ofFields fs).optional name nat32 = some o :=
    codec_optionalNat32.optional_written h ho
  have hread : SparkParams.decode (.ofJson v) = some p := by
    exact bind_of_some (hms _ _) <|
      bind_of_some (htext (hget "masterUrl" rfl)) <|
      bind_of_some (htext (hget "programType" rfl)) <|
      bind_of_some (htext (hget "mainClass" rfl)) <|
      bind_of_some (htext (hget "mainApplicationFile" rfl)) <|
      bind_of_some (htext (hget "sparkVersion" rfl)) <|
      bind_of_some (htext (hget "serviceAccount" rfl)) <|
      bind_of_some (hnat (hget "driverCores" rfl) hp.driverCores) <|
      bind_of_some (htext (hget "driverMemory" rfl)) <|
      bind_of_some (hnat (hget "numExecutors" rfl) hp.numExecutors) <|
      bind_of_some (hnat (hget "executorCores" rfl) hp.executorCores) <|
      bind_of_some (htext (hget "executorMemory" rfl)) rfl
  rw [hdecode, kind, decodeParams, hread, Option.map_some]

theorem reads_training {p : TrainingParams} (hp : p.Fits) :
    decode (.ofJson (toJson (.training p))) = some (.training p) := by
  obtain ⟨fs, v, hdecode, hms, hget⟩ := exists_params (w := .training p) rfl (by simp) rfl
  have hread : TrainingParams.decode (.ofJson v) = some p := by
    exact bind_of_some (hms _ _) <|
      bind_of_some (codec_nat32.withDefault_written (hget "masterReplicas" rfl)
        hp.masterReplicas) <|
      bind_of_some (codec_nat32.withDefault_written (hget "workerReplicas" rfl)
        hp.workerReplicas) <|
      bind_of_some (Envelope.codec_optional.optional_written (hget "masterResources" rfl)
        hp.masterResources) <|
      bind_of_some (Envelope.codec_optional.optional_written (hget "workerResources" rfl)
        hp.workerResources) rfl
  rw [hdecode, kind, decodeParams, hread, Option.map_some]

theorem reads_written {w : Workload} (hw : w.Fits) : decode (.ofJson w.toJson) = some w := by
  cases w with
  | plain =>
    obtain ⟨fs, v, hdecode, -⟩ := exists_params (w := .plain) rfl (by simp) rfl
    exact hdecode
  | queueAdmitted replicas => exact reads_queueAdmitted hw
  | flink p => exact reads_flink hw
  | spark p => exact reads_spark hw
  | training p => exact reads_training hw

theorem fits_of_decodeParams {k : WorkloadKind} {v : Value} (hv : v.Proper) {w : Workload}
    (h : decodeParams k (.ofJson v) = some w) : w.Fits := by
  cases k with
  | plain =>
    cases h
    trivial
  | queueAdmitted =>
    simp only [decodeParams, Option.bind_eq_bind, Option.bind_eq_some_iff,
      Option.some.injEq] at h
    obtain ⟨ms, hms, replicas, hreplicas, rfl⟩ := h
    exact MasterWorker.codec_optional.of_optional (proper_members hv hms) hreplicas
  | flink =>
    simp only [decodeParams, FlinkParams.decode, Option.bind_eq_bind, Option.map_eq_some_iff,
      Option.bind_eq_some_iff, Option.some.injEq] at h
    obtain ⟨_, ⟨ms, hms, _, -, parallelism, hparallelism, slots, hslots, _, -, _, -, _, -, rfl⟩, rfl⟩ := h
    have hms := proper_members hv hms
    exact ⟨codec_optionalNat32.of_optional hms hparallelism,
      codec_optionalNat32.of_optional hms hslots⟩
  | spark =>
    obtain ⟨p, hp, rfl⟩ := Option.map_eq_some_iff.1 h
    obtain ⟨ms, hms, h⟩ := Option.bind_eq_some_iff.1 hp
    have hms := proper_members hv hms
    iterate 6 obtain ⟨_, -, h⟩ := Option.bind_eq_some_iff.1 h
    obtain ⟨_, hdriverCores, h⟩ := Option.bind_eq_some_iff.1 h
    obtain ⟨_, -, h⟩ := Option.bind_eq_some_iff.1 h
    obtain ⟨_, hnumExecutors, h⟩ := Option.bind_eq_some_iff.1 h
    obtain ⟨_, hexecutorCores, h⟩ := Option.bind_eq_some_iff.1 h
    obtain ⟨_, -, h⟩ := Option.bind_eq_some_iff.1 h
    cases h
    exact ⟨codec_optionalNat32.of_optional hms hdriverCores,
      codec_optionalNat32.of_optional hms hnumExecutors,
      codec_optionalNat32.of_optional hms hexecutorCores⟩
  | training =>
    simp only [decodeParams, TrainingParams.decode, Option.bind_eq_bind,
      Option.map_eq_some_iff, Option.bind_eq_some_iff, Option.some.injEq] at h
    obtain ⟨_, ⟨ms, hms, masters, hmasters, workers, hworkers, master, hmaster, worker, hworker, rfl⟩,
      rfl⟩ := h
    have hms := proper_members hv hms
    exact ⟨codec_nat32.of_withDefault hms (by decide) hmasters,
      codec_nat32.of_withDefault hms (by decide) hworkers,
      Envelope.codec_optional.of_optional hms hmaster,
      Envelope.codec_optional.of_optional hms hworker⟩

theorem readsOnly_params (k : WorkloadKind) : ReadsOnly (decodeParams k) [] k.defaults := by
  cases k with
  | plain => exact fun _ _ _ _ _ => rfl
  | queueAdmitted =>
    refine .of_read (fun _ => rfl) fun ms ms' h => ?_
    exact bind_alike (h.optional_eq rfl rfl) fun _ => rfl
  | flink =>
    have hparams : ReadsOnly FlinkParams.decode [] FlinkParams.defaults := by
      refine .of_read (fun _ => rfl) fun ms ms' h => ?_
      repeat refine bind_alike (h.optional_eq rfl rfl) fun _ => ?_
      rfl
    exact hparams.map _
  | spark =>
    have hparams : ReadsOnly SparkParams.decode [] SparkParams.defaults := by
      refine .of_read (fun _ => rfl) fun ms ms' h => ?_
      repeat refine bind_alike (h.optional_eq rfl rfl) fun _ => ?_
      rfl
    exact hparams.map _
  | training =>
    have hparams : ReadsOnly TrainingParams.decode [] TrainingParams.defaults := by
      refine .of_read (fun _ => rfl) fun ms ms' h => ?_
      exact bind_alike (h.withDefault_eq rfl rfl) fun _ =>
        bind_alike (h.withDefault_eq rfl rfl) fun _ =>
        bind_alike (h.optional_eq rfl rfl) fun _ =>
        bind_alike (h.optional_eq rfl rfl) fun _ => rfl
    exact hparams.map _

theorem get?_defaults_kind (k : WorkloadKind) : k.defaults.get? "kind" = none := by
  cases k <;> rfl

/-- Two workloads of one shape whose parameters agree are read alike. -/
theorem decode_alike {k : WorkloadKind} {ms ms' : Fields Value} (hms : ms.Sorted) (hms' : ms'.Sorted)
    (hkind : ms.get? "kind" = some (.str k.wireName))
    (hkind' : ms'.get? "kind" = some (.str k.wireName)) (h : Fields.Agree [] k.defaults ms ms') :
    decode (.ofJson (.obj ms)) = decode (.ofJson (.obj ms')) := by
  have hparams : Fields.Agree [] k.defaults (ms.remove "kind") (ms'.remove "kind") := by
    refine ⟨by simp, fun name v hv => ?_⟩
    have hne : "kind" ≠ name := by
      rintro rfl
      rw [get?_defaults_kind] at hv
      cases hv
    rw [Fields.get?_remove, Fields.get?_remove, if_neg hne, if_neg hne]
    exact h.others name v hv
  simp only [decode_obj hms, decode_obj hms', hkind, hkind', Option.bind_some, text_str,
    WorkloadKind.ofWireName?_wireName]
  exact readsOnly_params k _ _ (hms.remove "kind") (hms'.remove "kind") hparams

theorem codec : Codec decode toJson Fits where
  reads _ hw := reads_written hw
  yields v w hv h := by
    cases hv <;> try cases h
    next vs hvs =>
      cases vs with
      | nil => cases h
      | cons name rest =>
        rw [decode_arr, Option.bind_eq_some_iff] at h
        obtain ⟨k, -, hparams⟩ := h
        exact fits_of_decodeParams (.arr fun v hv => hvs v (by simp [hv])) hparams
    next ms hms hvalues =>
      simp only [decode_obj hms, Option.bind_eq_some_iff] at h
      obtain ⟨name, -, k, -, hparams⟩ := h
      refine fits_of_decodeParams (.obj (hms.remove "kind") fun p hp => ?_) hparams
      exact hvalues p ((Fields.remove_sublist ms "kind").mem hp)

end Workload

end ClusterJobs
