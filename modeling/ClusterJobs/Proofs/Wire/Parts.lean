import ClusterJobs.Proofs.Wire.Records
import ClusterJobs.Request.Wire

/-!
# The parts of a request on the wire

Envelopes, replicas, volumes, fetch specs, time limits and node selectors: each is read back as it was
written, and read from its known members only.
-/

namespace ClusterJobs

open Json (Value)
open Decode

/-! ## Scalars -/

/-- The number fits a signed word of 64 bits. -/
def FitsInt64 (n : Int) : Prop :=
  -2 ^ 63 ≤ n ∧ n < 2 ^ 63

theorem codec_float : Codec float floatToJson fun x => x.isFinite = true where
  reads x hx := by simp [floatToJson, hx, Wire.ofJson, float]
  yields v x hv h := by
    cases hv <;> cases h
    · next hlow hhigh => exact Decimal.isFinite_ofInt hlow hhigh
    · assumption

theorem codec_int64 : Codec int64 .int FitsInt64 where
  reads n hn := (codec_word .int64).reads n ⟨hn.1, Int.le_of_lt_add_one hn.2⟩
  yields v n hv h := by
    obtain ⟨hlow, hhigh⟩ := (codec_word .int64).yields v n hv h
    exact ⟨hlow, Int.lt_add_one_of_le hhigh⟩

theorem codec_optionalFloat :
    Codec (Decode.optional float) (.orNull floatToJson) fun o => ∀ x ∈ o, x.isFinite = true :=
  codec_orNull codec_float fun x hx => by simp [floatToJson, hx]

theorem codec_optionalInt64 :
    Codec (Decode.optional int64) (.orNull .int) fun o => ∀ n ∈ o, FitsInt64 n :=
  codec_orNull codec_int64 (by simp)

/-! ## Envelopes -/

namespace Envelope

/-- The minimums are finite, and so is the number of GPUs. -/
structure Fits (e : Envelope) : Prop where
  minCpu : e.minCpu.isFinite = true
  minMemory : e.minMemory.isFinite = true
  gpu : ∀ x ∈ e.gpu, x.isFinite = true

theorem fits_standard : standard.Fits := ⟨by decide, by decide, by simp [standard]⟩

theorem codec : Codec decode toJson Fits where
  reads e he := by
    obtain ⟨ms, hms, hget⟩ := exists_members (v := e.toJson) rfl (by simp)
    simp only [decode, Option.bind_eq_bind]
    exact bind_of_some (hms _ _) <|
      bind_of_some (codec_float.withDefault_written (hget "minCpu" rfl) he.minCpu) <|
      bind_of_some (codec_float.withDefault_written (hget "minMemory" rfl) he.minMemory) <|
      bind_of_some (codec_optionalFloat.optional_written (hget "gpu" rfl) he.gpu) <|
      bind_of_some (codec_optionalText.optional_written (hget "gpuType" rfl) (by simp)) rfl
  yields v e hv h := by
    simp only [decode, Option.bind_eq_bind, Option.bind_eq_some_iff, Option.some.injEq] at h
    obtain ⟨ms, hms, cpu, hcpu, memory, hmemory, gpu, hgpu, _, -, rfl⟩ := h
    have hms := proper_members hv hms
    exact ⟨codec_float.of_withDefault hms fits_standard.minCpu hcpu,
      codec_float.of_withDefault hms fits_standard.minMemory hmemory,
      codec_optionalFloat.of_optional hms hgpu⟩

theorem codec_optional :
    Codec (Decode.optional decode) (.orNull toJson) fun o => ∀ e ∈ o, e.Fits :=
  codec_orNull codec (by simp [toJson, Value.object])

def defaults : Fields Value :=
  [("minCpu", .float 1.0), ("minMemory", .float 1024.0), ("gpu", .null), ("gpuType", .null)]

theorem readsOnly : ReadsOnly decode [] defaults := by
  refine .of_read (fun _ => rfl) fun ms ms' h => ?_
  exact bind_alike (h.withDefault_eq rfl rfl) fun _ =>
    bind_alike (h.withDefault_eq rfl rfl) fun _ =>
    bind_alike (h.optional_eq rfl rfl) fun _ =>
    bind_alike (h.optional_eq rfl rfl) fun _ => rfl

end Envelope

/-! ## Replicas -/

namespace MasterWorker

structure Fits (m : MasterWorker) : Prop where
  master : m.master < 2 ^ 32
  worker : m.worker < 2 ^ 32

theorem codec : Codec decode toJson Fits where
  reads m hm := by
    obtain ⟨ms, hms, hget⟩ := exists_members (v := m.toJson) rfl (by simp)
    simp only [decode, Option.bind_eq_bind]
    exact bind_of_some (hms _ _) <|
      bind_of_some (codec_nat32.required_written (hget "master" rfl) hm.master) <|
      bind_of_some (codec_nat32.required_written (hget "worker" rfl) hm.worker) rfl
  yields v m hv h := by
    simp only [decode, Option.bind_eq_bind, Option.bind_eq_some_iff, Option.some.injEq] at h
    obtain ⟨ms, hms, master, hmaster, worker, hworker, rfl⟩ := h
    have hms := proper_members hv hms
    exact ⟨codec_nat32.of_required hms hmaster, codec_nat32.of_required hms hworker⟩

theorem codec_optional :
    Codec (Decode.optional decode) (.orNull toJson) fun o => ∀ m ∈ o, m.Fits :=
  codec_orNull codec (by simp [toJson, Value.object])

/-- Both numbers have to be there. -/
theorem readsOnly : ReadsOnly decode ["master", "worker"] [] := by
  refine .of_read (fun _ => rfl) fun ms ms' h => ?_
  exact bind_alike (h.required_eq (by simp)) fun _ =>
    bind_alike (h.required_eq (by simp)) fun _ => rfl

end MasterWorker

/-! ## Volumes -/

namespace Volumes

theorem codec : Codec decode toJson fun _ => True where
  reads v _ := by
    obtain ⟨ms, hms, hget⟩ := exists_members (v := v.toJson) rfl (by simp)
    simp only [decode, Option.bind_eq_bind]
    exact bind_of_some (hms _ _) <|
      bind_of_some (codec_optionalText.optional_written (hget "inputHostPath" rfl) (by simp)) <|
      bind_of_some (codec_text.withDefault_written (hget "outputHostPath" rfl) trivial) <|
      bind_of_some (codec_text.withDefault_written (hget "podInputPath" rfl) trivial) <|
      bind_of_some (codec_text.withDefault_written (hget "podOutputPath" rfl) trivial) rfl
  yields _ _ _ _ := trivial

def defaults : Fields Value :=
  [("inputHostPath", .null), ("outputHostPath", .str "/var/lib/kubetask/output"),
    ("podInputPath", .str "/data/input"), ("podOutputPath", .str "/data/output")]

theorem readsOnly : ReadsOnly decode [] defaults := by
  refine .of_read (fun _ => rfl) fun ms ms' h => ?_
  exact bind_alike (h.optional_eq rfl rfl) fun _ =>
    bind_alike (h.withDefault_eq rfl rfl) fun _ =>
    bind_alike (h.withDefault_eq rfl rfl) fun _ =>
    bind_alike (h.withDefault_eq rfl rfl) fun _ => rfl

end Volumes

/-! ## Fetch specs -/

namespace FetchSpec

structure Fits (f : FetchSpec) : Prop where
  dirId : ∀ n ∈ f.dirId, FitsInt64 n
  fetchId : ∀ n ∈ f.fetchId, FitsInt64 n

theorem codec : Codec decode toJson Fits where
  reads f hf := by
    obtain ⟨ms, hms, hget⟩ := exists_members (v := f.toJson) rfl (by simp)
    simp only [decode, Option.bind_eq_bind]
    exact bind_of_some (hms _ _) <|
      bind_of_some (codec_optionalInt64.optional_written (hget "dirId" rfl) hf.dirId) <|
      bind_of_some (codec_optionalInt64.optional_written (hget "fetchId" rfl) hf.fetchId) <|
      bind_of_some (codec_text.withDefault_written (hget "fetchName" rfl) trivial) <|
      bind_of_some (codec_text.withDefault_written (hget "fetchType" rfl) trivial) <|
      bind_of_some (codec_text.withDefault_written (hget "hostPath" rfl) trivial) <|
      bind_of_some (codec_text.withDefault_written (hget "args" rfl) trivial) rfl
  yields v f hv h := by
    simp only [decode, Option.bind_eq_bind, Option.bind_eq_some_iff, Option.some.injEq] at h
    obtain ⟨ms, hms, dirId, hdirId, fetchId, hfetchId, _, -, _, -, _, -, _, -, rfl⟩ := h
    have hms := proper_members hv hms
    exact ⟨codec_optionalInt64.of_optional hms hdirId, codec_optionalInt64.of_optional hms hfetchId⟩

def defaults : Fields Value :=
  [("dirId", .null), ("fetchId", .null), ("fetchName", .str ""), ("fetchType", .str ""),
    ("hostPath", .str ""), ("args", .str "")]

theorem readsOnly : ReadsOnly decode [] defaults := by
  refine .of_read (fun _ => rfl) fun ms ms' h => ?_
  exact bind_alike (h.optional_eq rfl rfl) fun _ =>
    bind_alike (h.optional_eq rfl rfl) fun _ =>
    bind_alike (h.withDefault_eq rfl rfl) fun _ =>
    bind_alike (h.withDefault_eq rfl rfl) fun _ =>
    bind_alike (h.withDefault_eq rfl rfl) fun _ =>
    bind_alike (h.withDefault_eq rfl rfl) fun _ => rfl

end FetchSpec

/-! ## Time limits -/

theorem TimeoutStrategy.ofWireName?_wireName (t : TimeoutStrategy) :
    ofWireName? t.wireName = some t := by
  cases t <;> rfl

namespace TimeoutPolicy

/-- The number of seconds fits a word of 64 bits. -/
def Fits (t : TimeoutPolicy) : Prop :=
  t.seconds < 2 ^ 64

theorem fits_standard : standard.Fits := Nat.two_pow_pos 64

theorem codec : Codec decode toJson Fits where
  reads t ht := by
    obtain ⟨ms, hms, hget⟩ := exists_members (v := t.toJson) rfl (by simp)
    simp only [decode, Option.bind_eq_bind]
    have hstrategy := codec_oneOf TimeoutStrategy.ofWireName?_wireName
    exact bind_of_some (hms _ _) <|
      bind_of_some (hstrategy.withDefault_written (hget "strategy" rfl) trivial) <|
      bind_of_some (codec_nat64.withDefault_written (hget "seconds" rfl) ht) rfl
  yields v t hv h := by
    simp only [decode, Option.bind_eq_bind, Option.bind_eq_some_iff, Option.some.injEq] at h
    obtain ⟨ms, hms, _, -, seconds, hseconds, rfl⟩ := h
    exact codec_nat64.of_withDefault (proper_members hv hms) fits_standard hseconds

def defaults : Fields Value :=
  [("strategy", .str "NONE"), ("seconds", .int 0)]

theorem readsOnly : ReadsOnly decode [] defaults := by
  refine .of_read (fun _ => rfl) fun ms ms' h => ?_
  exact bind_alike (h.withDefault_eq rfl rfl) fun _ =>
    bind_alike (h.withDefault_eq rfl rfl) fun _ => rfl

end TimeoutPolicy

/-! ## Node selectors -/

namespace NodeSelector

def readMembers (ms : Members) : Option NodeSelector :=
  (ms.optional "key" text).bind fun key => (ms.optional "operator" text).bind fun operator =>
    (ms.optional "values" (list text)).bind fun values =>
      some ⟨key.getD "", operator.getD "", values⟩

/-- A node selector is no list, but else a record like the others. -/
theorem decode_obj (ms : Fields Value) :
    decode (.ofJson (.obj ms)) =
      (members true ["key", "operator", "values"] (.ofJson (.obj ms))).bind readMembers :=
  rfl

theorem codec : Codec decode toJson fun _ => True where
  reads n _ := by
    obtain ⟨ms, hms, hget⟩ := exists_members_some (v := n.toJson) rfl (by simp)
    have hkey : (Members.ofFields ms).optional "key" text = some (some n.key) :=
      codec_optionalText.optional_written (hget "key" rfl) (by simp)
    have hoperator : (Members.ofFields ms).optional "operator" text = some (some n.operator) :=
      codec_optionalText.optional_written (hget "operator" rfl) (by simp)
    have hvalues : (Members.ofFields ms).optional "values" (list text) = some n.values :=
      codec_texts.optional_omitted (by simp [Value.strings]) (hget "values" rfl) (by simp)
    exact bind_of_some (hms _ _) <| bind_of_some hkey <| bind_of_some hoperator <|
      bind_of_some hvalues rfl
  yields _ _ _ _ := trivial

/-- A missing key or operator is empty, and so is one that is `null`. -/
def defaults : Fields Value :=
  [("key", .null), ("operator", .null), ("values", .null)]

theorem readsOnly : ReadsOnly decode [] defaults := by
  intro ms ms' hms hms' h
  rw [decode_obj, decode_obj, members_obj hms.nodup, members_obj hms'.nodup, Option.bind_some,
    Option.bind_some]
  exact bind_alike (h.optional_eq rfl rfl) fun _ =>
    bind_alike (h.optional_eq rfl rfl) fun _ =>
    bind_alike (h.optional_eq rfl rfl) fun _ => rfl

end NodeSelector

end ClusterJobs
