import ClusterJobs.Settings
import Mathlib.Data.List.Nodup

/-!
# Layers of settings

Every setting has the value of its variable if that is set, else the value in the file if there is
one, else the standard value. Only what comes of them is checked, so that a variable mends a file as
well as it spoils one.
-/

namespace ClusterJobs

variable {α : Type}

/-! ## Files -/

namespace Members

variable {ms : Members} {name : String} {d : Decoder α} {fallback a b : α}

/-- The value of a member: what it decodes to, or a fallback if it is missing. -/
inductive Given (ms : Members) (name : String) (d : Decoder α) (fallback : α) : α → Prop where
  | file {w : Wire} {a : α} : ms.find? name = some w → d w = some a → Given ms name d fallback a
  | fallback : ms.find? name = none → Given ms name d fallback fallback

theorem withDefault_eq_some_iff :
    ms.withDefault name fallback d = some a ↔ ms.Given name d fallback a := by
  unfold withDefault
  constructor
  · intro h
    split at h
    · next hnone =>
      cases h
      exact .fallback hnone
    · next w hw => exact .file hw h
  · rintro (⟨hw, ha⟩ | hnone)
    · rw [hw]
      exact ha
    · rw [hnone]

theorem bind_withDefault_iff {β : Type} {f : α → Option β} {r : β} :
    (ms.withDefault name fallback d).bind f = some r ↔
      ∃ a, ms.Given name d fallback a ∧ f a = some r := by
  simp only [Option.bind_eq_some_iff, withDefault_eq_some_iff]

theorem bind_optional_iff {β : Type} {f : Option α → Option β} {r : β} :
    (ms.optional name d).bind f = some r ↔
      ∃ o, ms.Given name (Decode.optional d) none o ∧ f o = some r := by
  rw [← bind_withDefault_iff]
  rfl

theorem Given.unique (h : ms.Given name d fallback a) (h' : ms.Given name d fallback b) :
    a = b := by
  rw [← withDefault_eq_some_iff] at h h'
  exact Option.some.inj (h.symm.trans h')

/-- A part of what a member decodes to. -/
theorem Given.map {β : Type} (h : ms.Given name d fallback a) (f : α → β) :
    ms.Given name (fun w => (d w).map f) (f fallback) (f a) := by
  cases h with
  | file hw ha => exact .file hw (by rw [ha, Option.map_some])
  | fallback hnone => exact .fallback hnone

end Members

namespace Settings

/-- The members of a settings file. Without a file, and in a blank one, there are none. -/
inductive FileMembers : Option String → Members → Prop where
  | none : FileMembers none []
  | blank {text : String} : Text.isBlankText text = true → FileMembers (some text) []
  | read {text : String} {w : Wire} {ms : Members} : Text.isBlankText text = false →
      Wire.ofYaml? text = some w → Decode.members true names w = some ms →
      FileMembers (some text) ms

/-- The settings that a file's members give. -/
structure FromFile (ms : Members) (s : Settings) : Prop where
  queueEnabled : ms.Given "queueEnabled" Decode.bool standard.queueEnabled s.queueEnabled
  localTestClusterCode : ms.Given "localTestClusterCode" Decode.text
    standard.localTestClusterCode s.localTestClusterCode
  fetchImage : ms.Given "fetchImage" Decode.text standard.fetchImage s.fetchImage
  imagePullSecret : ms.Given "imagePullSecret" Decode.text standard.imagePullSecret
    s.imagePullSecret
  defaultGpuType : ms.Given "defaultGpuType" Decode.text standard.defaultGpuType s.defaultGpuType
  gpuTypes : ms.Given "gpuTypes" Decode.text standard.gpuTypes s.gpuTypes
  logTailLines : ms.Given "logTailLines" Decode.int64 standard.logTailLines s.logTailLines
  fanOutConcurrency : ms.Given "fanOutConcurrency" Decode.nat64 standard.fanOutConcurrency
    s.fanOutConcurrency
  fanOutPolicy : ms.Given "fanOutPolicy" (Decode.oneOf FanOutPolicy.ofWireName?)
    standard.fanOutPolicy s.fanOutPolicy
  batchCallback : ms.Given "batchCallback" decodeCallback standard.batchCallback s.batchCallback
  kubeconfigs : ms.Given "kubeconfigs" (Decode.table Decode.text) standard.kubeconfigs
    s.kubeconfigs
  templateDir : ms.Given "templateDir" (Decode.optional Decode.text) standard.templateDir
    s.templateDir
  apiVersionOverrides : ms.Given "apiVersionOverrides" (Decode.table Decode.text)
    standard.apiVersionOverrides s.apiVersionOverrides
  connectTimeoutSecs : ms.Given "connectTimeoutSecs" Decode.nat64 standard.connectTimeoutSecs
    s.connectTimeoutSecs
  readTimeoutSecs : ms.Given "readTimeoutSecs" Decode.nat64 standard.readTimeoutSecs
    s.readTimeoutSecs

/-- The members are read one after another. -/
theorem decode_eq_some_iff {w : Wire} {s : Settings} :
    decode w = some s ↔ ∃ ms, Decode.members true names w = some ms ∧ FromFile ms s := by
  constructor
  · intro h
    obtain ⟨ms, hms, h⟩ := Option.bind_eq_some_iff.1 h
    obtain ⟨_, h₁, h⟩ := Members.bind_withDefault_iff.1 h
    obtain ⟨_, h₂, h⟩ := Members.bind_withDefault_iff.1 h
    obtain ⟨_, h₃, h⟩ := Members.bind_withDefault_iff.1 h
    obtain ⟨_, h₄, h⟩ := Members.bind_withDefault_iff.1 h
    obtain ⟨_, h₅, h⟩ := Members.bind_withDefault_iff.1 h
    obtain ⟨_, h₆, h⟩ := Members.bind_withDefault_iff.1 h
    obtain ⟨_, h₇, h⟩ := Members.bind_withDefault_iff.1 h
    obtain ⟨_, h₈, h⟩ := Members.bind_withDefault_iff.1 h
    obtain ⟨_, h₉, h⟩ := Members.bind_withDefault_iff.1 h
    obtain ⟨_, h₁₀, h⟩ := Members.bind_withDefault_iff.1 h
    obtain ⟨_, h₁₁, h⟩ := Members.bind_withDefault_iff.1 h
    obtain ⟨_, h₁₂, h⟩ := Members.bind_optional_iff.1 h
    obtain ⟨_, h₁₃, h⟩ := Members.bind_withDefault_iff.1 h
    obtain ⟨_, h₁₄, h⟩ := Members.bind_withDefault_iff.1 h
    obtain ⟨_, h₁₅, h⟩ := Members.bind_withDefault_iff.1 h
    cases h
    exact ⟨ms, hms, h₁, h₂, h₃, h₄, h₅, h₆, h₇, h₈, h₉, h₁₀, h₁₁, h₁₂, h₁₃, h₁₄, h₁₅⟩
  · rintro ⟨ms, hms, h⟩
    refine Option.bind_eq_some_iff.2 ⟨ms, hms, ?_⟩
    refine Members.bind_withDefault_iff.2 ⟨_, h.queueEnabled, ?_⟩
    refine Members.bind_withDefault_iff.2 ⟨_, h.localTestClusterCode, ?_⟩
    refine Members.bind_withDefault_iff.2 ⟨_, h.fetchImage, ?_⟩
    refine Members.bind_withDefault_iff.2 ⟨_, h.imagePullSecret, ?_⟩
    refine Members.bind_withDefault_iff.2 ⟨_, h.defaultGpuType, ?_⟩
    refine Members.bind_withDefault_iff.2 ⟨_, h.gpuTypes, ?_⟩
    refine Members.bind_withDefault_iff.2 ⟨_, h.logTailLines, ?_⟩
    refine Members.bind_withDefault_iff.2 ⟨_, h.fanOutConcurrency, ?_⟩
    refine Members.bind_withDefault_iff.2 ⟨_, h.fanOutPolicy, ?_⟩
    refine Members.bind_withDefault_iff.2 ⟨_, h.batchCallback, ?_⟩
    refine Members.bind_withDefault_iff.2 ⟨_, h.kubeconfigs, ?_⟩
    refine Members.bind_optional_iff.2 ⟨_, h.templateDir, ?_⟩
    refine Members.bind_withDefault_iff.2 ⟨_, h.apiVersionOverrides, ?_⟩
    refine Members.bind_withDefault_iff.2 ⟨_, h.connectTimeoutSecs, ?_⟩
    refine Members.bind_withDefault_iff.2 ⟨_, h.readTimeoutSecs, ?_⟩
    rfl

theorem fromFile_nil : FromFile [] standard := by
  constructor <;> exact .fallback rfl

theorem FileMembers.unique {file : Option String} {ms ms' : Members} (h : FileMembers file ms)
    (h' : FileMembers file ms') : ms = ms' := by
  cases h with
  | none =>
    cases h'
    rfl
  | blank hblank =>
    cases h' with
    | blank => rfl
    | read hnot => cases hnot.symm.trans hblank
  | read hnot hw hms =>
    cases h' with
    | blank hblank => cases hnot.symm.trans hblank
    | read _ hw' hms' =>
      obtain rfl := Option.some.inj (hw.symm.trans hw')
      exact Option.some.inj (hms.symm.trans hms')

/-- The settings of a file, before any variable. -/
def ofFile : Option String → Except Fault Settings
  | some text => ofText text
  | none => .ok standard

theorem ofFile_eq_ok {file : Option String} {s : Settings} (h : ofFile file = .ok s) :
    ∃ ms, FileMembers file ms ∧ FromFile ms s := by
  cases file with
  | none =>
    cases h
    exact ⟨[], .none, fromFile_nil⟩
  | some text =>
    rw [ofFile, ofText] at h
    split at h
    · next hblank =>
      cases h
      exact ⟨[], .blank hblank, fromFile_nil⟩
    · next hnot =>
      split at h
      · next s' hs =>
        cases h
        obtain ⟨w, hw, hdecode⟩ := Option.bind_eq_some_iff.1 hs
        obtain ⟨ms, hms, hfrom⟩ := decode_eq_some_iff.1 hdecode
        exact ⟨ms, .read (by simpa using hnot) hw hms, hfrom⟩
      · cases h

/-- A file that cannot be read holds no settings. -/
theorem ofFile_eq_error {file : Option String} {e : Fault} (h : ofFile file = .error e) :
    e = .config "invalid config: not a settings document" ∧
      ∀ ms, FileMembers file ms → ∀ s, ¬ FromFile ms s := by
  cases file with
  | none => cases h
  | some text =>
    rw [ofFile, ofText] at h
    split at h
    · cases h
    · next hnot =>
      split at h
      · cases h
      · next hnone =>
        cases h
        refine ⟨rfl, fun ms hms s hfrom => ?_⟩
        cases hms with
        | blank hblank => exact hnot hblank
        | read _ hw hms =>
          have hdecode := decode_eq_some_iff.2 ⟨ms, hms, hfrom⟩
          rw [hw, Option.bind_some, hdecode] at hnone
          cases hnone

/-! ## Variables -/

/-- The value spells a truth value, with blanks around it. -/
def ReadsBool (value : String) (b : Bool) : Prop :=
  readBool? (Text.trim value) = some b

/-- The value is a signed number of 64 bits, with blanks around it. -/
def ReadsLines (value : String) (n : Int) : Prop :=
  Decimal.WordRange.int64.read? 10 (Text.trim value).toList = some n

/-- The value is an unsigned number of 64 bits, with blanks around it. -/
def ReadsCount (value : String) (n : Nat) : Prop :=
  ∃ m, Decimal.WordRange.uint64.read? 10 (Text.trim value).toList = some m ∧ m.toNat = n

/-- The value is one of the spellings of a policy, without blanks. -/
inductive ReadsPolicy : String → FanOutPolicy → Prop where
  | alwaysSucceed : ReadsPolicy "alwaysSucceed" .alwaysSucceed
  | alwaysSucceedDashed : ReadsPolicy "always-succeed" .alwaysSucceed
  | failOnAnyFailure : ReadsPolicy "failOnAnyFailure" .failOnAnyFailure
  | failOnAnyFailureDashed : ReadsPolicy "fail-on-any-failure" .failOnAnyFailure

section Readers

variable {name value : String} {read : String → Option α} {a : α} {e : Fault}
  {policy : FanOutPolicy}

theorem readVariable_cases (name value : String) (read : String → Option α) :
    (∃ a, readVariable name read value = .ok a ∧ read (Text.trim value) = some a) ∨
      readVariable name read value = .error (invalidVariable name value) ∧
        ∀ a, read (Text.trim value) ≠ some a := by
  unfold readVariable
  cases read (Text.trim value) with
  | none => exact .inr ⟨rfl, nofun⟩
  | some a => exact .inl ⟨a, rfl, rfl⟩

theorem parse_cases (value : String) :
    (∃ policy, FanOutPolicy.parse value = .ok policy ∧ ReadsPolicy value policy) ∨
      FanOutPolicy.parse value = .error (.config ("unknown fan-out policy '" ++ value ++ "'")) ∧
        ∀ policy, ¬ ReadsPolicy value policy := by
  unfold FanOutPolicy.parse
  split
  · next h =>
    refine .inl ⟨_, rfl, ?_⟩
    rcases Bool.or_eq_true_iff.1 h with h | h <;> rw [eq_of_beq h] <;> constructor
  · next h =>
    split
    · next h' =>
      refine .inl ⟨_, rfl, ?_⟩
      rcases Bool.or_eq_true_iff.1 h' with h' | h' <;> rw [eq_of_beq h'] <;> constructor
    · next h' =>
      refine .inr ⟨rfl, fun policy hreads => ?_⟩
      cases hreads <;> simp at h h'

end Readers

/-- What the value of a variable makes of the settings. -/
inductive Step (value : String) (s : Settings) : String → Settings → Prop where
  | queueEnabled {b : Bool} : ReadsBool value b →
      Step value s "QUEUE_ENABLED" { s with queueEnabled := b }
  | localTestClusterCode :
      Step value s "LOCAL_TEST_CLUSTER_CODE" { s with localTestClusterCode := value }
  | fetchImage : Step value s "FETCH_IMAGE" { s with fetchImage := value }
  | imagePullSecret : Step value s "IMAGE_PULL_SECRET" { s with imagePullSecret := value }
  | defaultGpuType : Step value s "DEFAULT_GPU_TYPE" { s with defaultGpuType := value }
  | gpuTypes : Step value s "GPU_TYPES" { s with gpuTypes := value }
  | logTailLines {n : Int} : ReadsLines value n →
      Step value s "LOG_TAIL_LINES" { s with logTailLines := n }
  | fanOutConcurrency {n : Nat} : ReadsCount value n →
      Step value s "FAN_OUT_CONCURRENCY" { s with fanOutConcurrency := n }
  | fanOutPolicy {policy : FanOutPolicy} : ReadsPolicy value policy →
      Step value s "FAN_OUT_POLICY" { s with fanOutPolicy := policy }
  | address : Step value s "BATCH_CALLBACK_ADDRESS"
      { s with batchCallback := { s.batchCallback with address := some value } }
  | token : Step value s "BATCH_CALLBACK_TOKEN"
      { s with batchCallback := { s.batchCallback with token := some value } }
  | templateDir : Step value s "TEMPLATE_DIR" { s with templateDir := some value }

/-- The value of a variable cannot be read, and this is what is said of it. -/
inductive Refused (value : String) : String → Fault → Prop where
  | queueEnabled : (∀ b, ¬ ReadsBool value b) →
      Refused value "QUEUE_ENABLED" (invalidVariable "QUEUE_ENABLED" value)
  | logTailLines : (∀ n, ¬ ReadsLines value n) →
      Refused value "LOG_TAIL_LINES" (invalidVariable "LOG_TAIL_LINES" value)
  | fanOutConcurrency : (∀ n, ¬ ReadsCount value n) →
      Refused value "FAN_OUT_CONCURRENCY" (invalidVariable "FAN_OUT_CONCURRENCY" value)
  | fanOutPolicy : (∀ policy, ¬ ReadsPolicy value policy) →
      Refused value "FAN_OUT_POLICY" (.config ("unknown fan-out policy '" ++ value ++ "'"))

theorem Step.not_refused {value name : String} {s s' : Settings} {e : Fault}
    (h : Step value s name s') : ¬ Refused value name e := by
  generalize hname : name = other
  intro hrefused
  cases h with
  | queueEnabled hread =>
    cases hrefused with
    | queueEnabled hno => exact hno _ hread
    | _ => exact absurd hname (by decide)
  | logTailLines hread =>
    cases hrefused with
    | logTailLines hno => exact hno _ hread
    | _ => exact absurd hname (by decide)
  | fanOutConcurrency hread =>
    cases hrefused with
    | fanOutConcurrency hno => exact hno _ hread
    | _ => exact absurd hname (by decide)
  | fanOutPolicy hread =>
    cases hrefused with
    | fanOutPolicy hno => exact hno _ hread
    | _ => exact absurd hname (by decide)
  | _ => cases hrefused <;> exact absurd hname (by decide)

theorem step_or_refused_of_read {value name : String} {s : Settings} {e : Fault}
    {x : Except Fault α} {reads : α → Prop} {f : α → Settings}
    (hx : (∃ a, x = .ok a ∧ reads a) ∨ x = .error e ∧ ∀ a, ¬ reads a)
    (hstep : ∀ a, reads a → Step value s name (f a))
    (hrefused : (∀ a, ¬ reads a) → Refused value name e) :
    (∃ s', (x >>= fun a => .ok (f a)) = .ok s' ∧ Step value s name s') ∨
      ∃ e, (x >>= fun a => .ok (f a)) = .error e ∧ Refused value name e := by
  rcases hx with ⟨a, rfl, ha⟩ | ⟨rfl, hnone⟩
  · exact .inl ⟨_, rfl, hstep a ha⟩
  · exact .inr ⟨_, rfl, hrefused hnone⟩

/-- An override is applied, or its variable is refused. -/
theorem step_or_refused {o : Override} (ho : o ∈ overrides) (value : String) (s : Settings) :
    (∃ s', o.apply value s = .ok s' ∧ Step value s o.name s') ∨
      ∃ e, o.apply value s = .error e ∧ Refused value o.name e := by
  simp only [overrides, List.mem_cons, List.not_mem_nil, or_false] at ho
  rcases ho with rfl | rfl | rfl | rfl | rfl | rfl | rfl | rfl | rfl | rfl | rfl | rfl
  · exact step_or_refused_of_read (readVariable_cases _ value _) (fun _ => .queueEnabled)
      .queueEnabled
  · exact .inl ⟨_, rfl, .localTestClusterCode⟩
  · exact .inl ⟨_, rfl, .fetchImage⟩
  · exact .inl ⟨_, rfl, .imagePullSecret⟩
  · exact .inl ⟨_, rfl, .defaultGpuType⟩
  · exact .inl ⟨_, rfl, .gpuTypes⟩
  · exact step_or_refused_of_read (readVariable_cases _ value _) (fun _ => .logTailLines)
      .logTailLines
  · exact step_or_refused_of_read (readVariable_cases _ value _)
      (fun m hm => .fanOutConcurrency ⟨m, hm, rfl⟩)
      (fun hnone => .fanOutConcurrency fun _ ⟨m, hm, _⟩ => hnone m hm)
  · exact step_or_refused_of_read (parse_cases value) (fun _ => .fanOutPolicy) .fanOutPolicy
  · exact .inl ⟨_, rfl, .address⟩
  · exact .inl ⟨_, rfl, .token⟩
  · exact .inl ⟨_, rfl, .templateDir⟩

/-! ## One variable after another -/

/-- The variables with these names are applied in turn, those that are set. -/
inductive Applied (env : Environment) : List String → Settings → Settings → Prop where
  | nil (s : Settings) : Applied env [] s s
  | unset {name : String} {names : List String} {s s' : Settings} :
      env.get? (variableName name) = none → Applied env names s s' →
      Applied env (name :: names) s s'
  | set {name value : String} {names : List String} {s s₁ s' : Settings} :
      env.get? (variableName name) = some value → Step value s name s₁ →
      Applied env names s₁ s' → Applied env (name :: names) s s'

/-- The first of the variables that is set and cannot be read. -/
inductive FirstRefused (env : Environment) : List String → Fault → Prop where
  | here {name value : String} {names : List String} {e : Fault} :
      env.get? (variableName name) = some value → Refused value name e →
      FirstRefused env (name :: names) e
  | later {name : String} {names : List String} {e : Fault} :
      (∀ value e, env.get? (variableName name) = some value → ¬ Refused value name e) →
      FirstRefused env names e → FirstRefused env (name :: names) e

section Applied

variable {env : Environment} {os : List Override} {names : List String} {name value : String}
  {s s' : Settings} {e : Fault}

theorem applied_or_refused (env : Environment) (hos : ∀ o ∈ os, o ∈ overrides) (s : Settings) :
    (∃ s', applyOverrides env os s = .ok s' ∧ Applied env (os.map Override.name) s s') ∨
      ∃ e, applyOverrides env os s = .error e ∧ FirstRefused env (os.map Override.name) e := by
  induction os generalizing s with
  | nil => exact .inl ⟨s, rfl, .nil s⟩
  | cons o os ih =>
    obtain ⟨ho, hos⟩ := List.forall_mem_cons.1 hos
    rw [applyOverrides]
    cases hvalue : env.get? (variableName o.name) with
    | none =>
      rcases ih hos s with ⟨s', hs', happlied⟩ | ⟨e, he, hrefused⟩
      · exact .inl ⟨s', hs', .unset hvalue happlied⟩
      · refine .inr ⟨e, he, .later (fun value _ hset => ?_) hrefused⟩
        cases hvalue.symm.trans hset
    | some value =>
      rcases step_or_refused ho value s with ⟨s₁, hs₁, hstep⟩ | ⟨e, he, hrefused⟩
      · dsimp only
        rw [hs₁]
        rcases ih hos s₁ with ⟨s', hs', happlied⟩ | ⟨e, he, hrefused⟩
        · exact .inl ⟨s', hs', .set hvalue hstep happlied⟩
        · refine .inr ⟨e, he, .later (fun value' _ hset => ?_) hrefused⟩
          obtain rfl := Option.some.inj (hvalue.symm.trans hset)
          exact hstep.not_refused
      · dsimp only
        rw [he]
        exact .inr ⟨e, rfl, .here hvalue hrefused⟩

theorem FirstRefused.exists_refused (h : FirstRefused env names e) :
    ∃ name ∈ names, ∃ value, env.get? (variableName name) = some value ∧
      Refused value name e := by
  induction h with
  | here hset hrefused => exact ⟨_, .head _, _, hset, hrefused⟩
  | later _ _ ih =>
    obtain ⟨name, hname, hrefused⟩ := ih
    exact ⟨name, .tail _ hname, hrefused⟩

theorem Applied.not_refused (h : Applied env names s s') (hname : name ∈ names)
    (hset : env.get? (variableName name) = some value) : ¬ Refused value name e := by
  induction h with
  | nil => cases hname
  | unset hunset _ ih =>
    rcases List.mem_cons.1 hname with rfl | hname
    · cases hunset.symm.trans hset
    · exact ih hname
  | set hset' hstep _ ih =>
    rcases List.mem_cons.1 hname with rfl | hname
    · obtain rfl := Option.some.inj (hset'.symm.trans hset)
      exact hstep.not_refused
    · exact ih hname

end Applied

/-! ## Layers -/

/-- The value that is read from a variable if it is set, else the given one. -/
inductive Layer (env : Environment) (name : String) (reads : String → α → Prop)
    (given : α → Prop) : α → Prop where
  | set {value : String} {a : α} : env.get? (variableName name) = some value → reads value a →
      Layer env name reads given a
  | unset {a : α} : env.get? (variableName name) = none → given a → Layer env name reads given a

/-- The variable writes this part of the settings, and no other variable does. -/
def Governs (name : String) (reads : String → α → Prop) (get : Settings → α) : Prop :=
  ∀ value s other s', Step value s other s' →
    other = name ∧ reads value (get s') ∨ other ≠ name ∧ get s' = get s

section Layer

variable {env : Environment} {names : List String} {name : String} {reads : String → α → Prop}
  {given : α → Prop} {get : Settings → α} {s s' : Settings} {a b : α}

theorem Layer.unique (hreads : ∀ value a b, reads value a → reads value b → a = b)
    (hgiven : ∀ a b, given a → given b → a = b) (h : Layer env name reads given a)
    (h' : Layer env name reads given b) : a = b := by
  cases h with
  | set hset ha =>
    cases h' with
    | set hset' hb =>
      obtain rfl := Option.some.inj (hset.symm.trans hset')
      exact hreads _ a b ha hb
    | unset hunset => cases hset.symm.trans hunset
  | unset hunset ha =>
    cases h' with
    | set hset => cases hset.symm.trans hunset
    | unset _ hb => exact hgiven a b ha hb

/-- What no step touches is as it was before. -/
theorem Applied.kept (h : Applied env names s s')
    (hkept : ∀ value s other s', other ∈ names → Step value s other s' → get s' = get s) :
    get s' = get s := by
  induction h with
  | nil => rfl
  | unset _ _ ih => exact ih fun value s other s' hother => hkept value s other s' (.tail _ hother)
  | set _ hstep _ ih =>
    rw [ih fun value s other s' hother => hkept value s other s' (.tail _ hother)]
    exact hkept _ _ _ _ (.head _) hstep

theorem Governs.kept (hg : Governs name reads get) (h : Applied env names s s')
    (hname : name ∉ names) : get s' = get s :=
  h.kept fun value s other s' hother hstep =>
    ((hg value s other s' hstep).resolve_left fun heq => hname (heq.1 ▸ hother)).2

/-- After all variables, a part of the settings is what its own variable makes of it. -/
theorem Governs.layer (hg : Governs name reads get) (h : Applied env names s s')
    (hnodup : names.Nodup) (hname : name ∈ names) (hgiven : given (get s)) :
    Layer env name reads given (get s') := by
  -- Before its own variable the part is as given; from there on no other variable writes it, since
  -- none comes twice.
  induction h with
  | nil => cases hname
  | unset hunset happlied ih =>
    obtain ⟨hnew, hnodup⟩ := List.nodup_cons.1 hnodup
    rcases List.mem_cons.1 hname with rfl | hname
    · rw [hg.kept happlied hnew]
      exact .unset hunset hgiven
    · exact ih hnodup hname hgiven
  | set hset hstep happlied ih =>
    obtain ⟨hnew, hnodup⟩ := List.nodup_cons.1 hnodup
    rcases hg _ _ _ _ hstep with ⟨rfl, hreads⟩ | ⟨hne, hkept⟩
    · rw [hg.kept happlied hnew]
      exact .set hset hreads
    · refine ih hnodup ((List.mem_cons.1 hname).resolve_left hne.symm) ?_
      rwa [hkept]

end Layer

/-! ## Which variable writes what -/

/-- The parts of the settings that variables write, with what is read from their values. -/
inductive Written : {α : Type} → String → (String → α → Prop) → (Settings → α) → Prop where
  | queueEnabled : Written "QUEUE_ENABLED" ReadsBool fun s => s.queueEnabled
  | localTestClusterCode : Written "LOCAL_TEST_CLUSTER_CODE" Eq fun s => s.localTestClusterCode
  | fetchImage : Written "FETCH_IMAGE" Eq fun s => s.fetchImage
  | imagePullSecret : Written "IMAGE_PULL_SECRET" Eq fun s => s.imagePullSecret
  | defaultGpuType : Written "DEFAULT_GPU_TYPE" Eq fun s => s.defaultGpuType
  | gpuTypes : Written "GPU_TYPES" Eq fun s => s.gpuTypes
  | logTailLines : Written "LOG_TAIL_LINES" ReadsLines fun s => s.logTailLines
  | fanOutConcurrency : Written "FAN_OUT_CONCURRENCY" ReadsCount fun s => s.fanOutConcurrency
  | fanOutPolicy : Written "FAN_OUT_POLICY" ReadsPolicy fun s => s.fanOutPolicy
  | address : Written "BATCH_CALLBACK_ADDRESS" (fun value => Eq (some value))
      fun s => s.batchCallback.address
  | token : Written "BATCH_CALLBACK_TOKEN" (fun value => Eq (some value))
      fun s => s.batchCallback.token
  | templateDir : Written "TEMPLATE_DIR" (fun value => Eq (some value)) fun s => s.templateDir

theorem overrides_nodup : (overrides.map Override.name).Nodup := by
  decide

section Written

variable {env : Environment} {name : String} {reads : String → α → Prop} {given : α → Prop}
  {get : Settings → α} {s s' : Settings}

/-- The step of another variable leaves the part as it is. -/
theorem Written.governs (h : Written name reads get) : Governs name reads get := by
  intro value s other s' hstep
  cases h <;> cases hstep <;>
    first
      | exact .inr ⟨by decide, rfl⟩
      | exact .inl ⟨rfl, rfl⟩
      | exact .inl ⟨rfl, ‹_›⟩

theorem Written.mem_overrides (h : Written name reads get) :
    name ∈ overrides.map Override.name := by
  cases h <;> decide

theorem Written.layer (h : Written name reads get)
    (happlied : Applied env (overrides.map Override.name) s s') (hgiven : given (get s)) :
    Layer env name reads given (get s') :=
  h.governs.layer happlied overrides_nodup h.mem_overrides hgiven

end Written

/-- Four settings have no variable. -/
theorem Applied.rest {env : Environment} {names : List String} {s s' : Settings}
    (h : Applied env names s s') :
    s'.kubeconfigs = s.kubeconfigs ∧ s'.apiVersionOverrides = s.apiVersionOverrides ∧
      s'.connectTimeoutSecs = s.connectTimeoutSecs ∧ s'.readTimeoutSecs = s.readTimeoutSecs := by
  refine ⟨h.kept ?_, h.kept ?_, h.kept ?_, h.kept ?_⟩ <;>
    · intro value s other s' _ hstep
      cases hstep <;> rfl

/-! ## All settings -/

/-- The address that a callback of a file has, or its token. -/
def decodeCallbackPart (part : Callback → Option String) : Decoder (Option String) :=
  fun w => (decodeCallback w).map part

/-- How many items of a fan-out run at a time: the variable's number, the file's, or the standard
one. -/
abbrev Concurrency (env : Environment) (ms : Members) : Nat → Prop :=
  Layer env "FAN_OUT_CONCURRENCY" ReadsCount
    (ms.Given "fanOutConcurrency" Decode.nat64 standard.fanOutConcurrency)

/-- How many lines of log are kept: the variable's number, the file's, or the standard one. -/
abbrev TailLines (env : Environment) (ms : Members) : Int → Prop :=
  Layer env "LOG_TAIL_LINES" ReadsLines
    (ms.Given "logTailLines" Decode.int64 standard.logTailLines)

/-- Each setting is its variable's if that is set, else the file's if it has one, else the standard
one. The last four have no variable. -/
structure Layered (env : Environment) (ms : Members) (s : Settings) : Prop where
  queueEnabled : Layer env "QUEUE_ENABLED" ReadsBool
    (ms.Given "queueEnabled" Decode.bool standard.queueEnabled) s.queueEnabled
  localTestClusterCode : Layer env "LOCAL_TEST_CLUSTER_CODE" Eq
    (ms.Given "localTestClusterCode" Decode.text standard.localTestClusterCode)
    s.localTestClusterCode
  fetchImage : Layer env "FETCH_IMAGE" Eq
    (ms.Given "fetchImage" Decode.text standard.fetchImage) s.fetchImage
  imagePullSecret : Layer env "IMAGE_PULL_SECRET" Eq
    (ms.Given "imagePullSecret" Decode.text standard.imagePullSecret) s.imagePullSecret
  defaultGpuType : Layer env "DEFAULT_GPU_TYPE" Eq
    (ms.Given "defaultGpuType" Decode.text standard.defaultGpuType) s.defaultGpuType
  gpuTypes : Layer env "GPU_TYPES" Eq
    (ms.Given "gpuTypes" Decode.text standard.gpuTypes) s.gpuTypes
  logTailLines : TailLines env ms s.logTailLines
  fanOutConcurrency : Concurrency env ms s.fanOutConcurrency
  fanOutPolicy : Layer env "FAN_OUT_POLICY" ReadsPolicy
    (ms.Given "fanOutPolicy" (Decode.oneOf FanOutPolicy.ofWireName?) standard.fanOutPolicy)
    s.fanOutPolicy
  address : Layer env "BATCH_CALLBACK_ADDRESS" (fun value => Eq (some value))
    (ms.Given "batchCallback" (decodeCallbackPart Callback.address) none) s.batchCallback.address
  token : Layer env "BATCH_CALLBACK_TOKEN" (fun value => Eq (some value))
    (ms.Given "batchCallback" (decodeCallbackPart Callback.token) none) s.batchCallback.token
  templateDir : Layer env "TEMPLATE_DIR" (fun value => Eq (some value))
    (ms.Given "templateDir" (Decode.optional Decode.text) none) s.templateDir
  kubeconfigs : ms.Given "kubeconfigs" (Decode.table Decode.text) [] s.kubeconfigs
  apiVersionOverrides : ms.Given "apiVersionOverrides" (Decode.table Decode.text) []
    s.apiVersionOverrides
  connectTimeoutSecs : ms.Given "connectTimeoutSecs" Decode.nat64 standard.connectTimeoutSecs
    s.connectTimeoutSecs
  readTimeoutSecs : ms.Given "readTimeoutSecs" Decode.nat64 standard.readTimeoutSecs
    s.readTimeoutSecs

section Load

variable {file : Option String} {env : Environment} {ms ms' : Members} {s s' : Settings}
  {name value : String} {e : Fault}

theorem layered_of_applied (hfrom : FromFile ms s)
    (happlied : Applied env (overrides.map Override.name) s s') : Layered env ms s' where
  queueEnabled := Written.queueEnabled.layer happlied hfrom.queueEnabled
  localTestClusterCode := Written.localTestClusterCode.layer happlied hfrom.localTestClusterCode
  fetchImage := Written.fetchImage.layer happlied hfrom.fetchImage
  imagePullSecret := Written.imagePullSecret.layer happlied hfrom.imagePullSecret
  defaultGpuType := Written.defaultGpuType.layer happlied hfrom.defaultGpuType
  gpuTypes := Written.gpuTypes.layer happlied hfrom.gpuTypes
  logTailLines := Written.logTailLines.layer happlied hfrom.logTailLines
  fanOutConcurrency := Written.fanOutConcurrency.layer happlied hfrom.fanOutConcurrency
  fanOutPolicy := Written.fanOutPolicy.layer happlied hfrom.fanOutPolicy
  address := Written.address.layer happlied (hfrom.batchCallback.map Callback.address)
  token := Written.token.layer happlied (hfrom.batchCallback.map Callback.token)
  templateDir := Written.templateDir.layer happlied hfrom.templateDir
  kubeconfigs := happlied.rest.1 ▸ hfrom.kubeconfigs
  apiVersionOverrides := happlied.rest.2.1 ▸ hfrom.apiVersionOverrides
  connectTimeoutSecs := happlied.rest.2.2.1 ▸ hfrom.connectTimeoutSecs
  readTimeoutSecs := happlied.rest.2.2.2 ▸ hfrom.readTimeoutSecs

/-- No settings can be read from the file. -/
def Undecodable (file : Option String) : Prop :=
  ∀ ms, FileMembers file ms → ∀ s, ¬ FromFile ms s

/-- What is said when settings are not loaded. -/
inductive Failure (file : Option String) (env : Environment) : Fault → Prop where
  | file : Undecodable file → Failure file env (.config "invalid config: not a settings document")
  | refused {e : Fault} : FirstRefused env (overrides.map Override.name) e → Failure file env e
  | concurrency {ms : Members} : FileMembers file ms → Concurrency env ms 0 →
      Failure file env (.config "fanOutConcurrency must be at least 1")
  | lines {ms : Members} {n : Int} : FileMembers file ms → TailLines env ms n → n ≤ 0 →
      Failure file env (.config "logTailLines must be positive")

/-- The settings come from their layers and are in range. -/
structure Loaded (file : Option String) (env : Environment) (ms : Members) (s : Settings) :
    Prop where
  members : FileMembers file ms
  layered : Layered env ms s
  concurrency : 1 ≤ s.fanOutConcurrency
  lines : 0 < s.logTailLines

theorem load_eq (file : Option String) (env : Environment) :
    load file env = (ofFile file).bind fun base => (applyOverrides env overrides base).bind
      fun s => s.check.bind fun _ => .ok s := by
  cases file <;> rfl

/-- Settings are loaded from their layers, or it is said why not. -/
theorem loaded_or_failure (file : Option String) (env : Environment) :
    (∃ ms s, load file env = .ok s ∧ Loaded file env ms s) ∨
      ∃ e, load file env = .error e ∧ Failure file env e := by
  rw [load_eq]
  cases hfile : ofFile file with
  | error e =>
    obtain ⟨rfl, hnone⟩ := ofFile_eq_error hfile
    exact .inr ⟨_, rfl, .file hnone⟩
  | ok base =>
    obtain ⟨ms, hms, hfrom⟩ := ofFile_eq_ok hfile
    rcases applied_or_refused env (fun o ho => ho) base with ⟨s, hs, happlied⟩ | ⟨e, he, hrefused⟩
    · have hlayered := layered_of_applied hfrom happlied
      simp only [Except.bind, hs, check]
      by_cases hzero : s.fanOutConcurrency = 0
      · rw [if_pos hzero]
        exact .inr ⟨_, rfl, .concurrency hms (hzero ▸ hlayered.fanOutConcurrency)⟩
      · rw [if_neg hzero]
        by_cases hlines : s.logTailLines ≤ 0
        · rw [if_pos hlines]
          exact .inr ⟨_, rfl, .lines hms hlayered.logTailLines hlines⟩
        · rw [if_neg hlines]
          exact .inl ⟨ms, s, rfl, hms, hlayered, Nat.pos_of_ne_zero hzero, Int.not_le.1 hlines⟩
    · simp only [Except.bind, he]
      exact .inr ⟨e, rfl, .refused hrefused⟩

theorem readsCount_unique (value : String) (n m : Nat) (h : ReadsCount value n)
    (h' : ReadsCount value m) : n = m := by
  obtain ⟨_, hread, rfl⟩ := h
  obtain ⟨_, hread', rfl⟩ := h'
  rw [Option.some.inj (hread.symm.trans hread')]

theorem readsLines_unique (value : String) (n m : Int) (h : ReadsLines value n)
    (h' : ReadsLines value m) : n = m :=
  Option.some.inj (h.symm.trans h')

theorem Loaded.fanOutConcurrency_eq {n : Nat} (h : Loaded file env ms s)
    (hms : FileMembers file ms') (hn : Concurrency env ms' n) : n = s.fanOutConcurrency := by
  obtain rfl := h.members.unique hms
  exact hn.unique readsCount_unique (fun _ _ => Members.Given.unique) h.layered.fanOutConcurrency

theorem Loaded.logTailLines_eq {n : Int} (h : Loaded file env ms s)
    (hms : FileMembers file ms') (hn : TailLines env ms' n) : n = s.logTailLines := by
  obtain rfl := h.members.unique hms
  exact hn.unique readsLines_unique (fun _ _ => Members.Given.unique) h.layered.logTailLines

/-- A variable that is refused keeps all settings from being loaded. -/
theorem not_refused_of_load (h : load file env = .ok s)
    (hset : env.get? (variableName name) = some value) : ¬ Refused value name e := by
  intro hrefused
  have hname : name ∈ overrides.map Override.name := by cases hrefused <;> decide
  rw [load_eq] at h
  cases hfile : ofFile file with
  | error e' =>
    rw [hfile] at h
    cases h
  | ok base =>
    rw [hfile] at h
    rcases applied_or_refused env (fun o ho => ho) base with ⟨s', -, happlied⟩ | ⟨e', he, -⟩
    · exact happlied.not_refused hname hset hrefused
    · simp only [Except.bind, he] at h
      cases h

theorem not_undecodable_of_load (h : load file env = .ok s) : ¬ Undecodable file := by
  intro hnone
  rw [load_eq] at h
  cases hfile : ofFile file with
  | error e =>
    rw [hfile] at h
    cases h
  | ok base =>
    obtain ⟨ms, hms, hfrom⟩ := ofFile_eq_ok hfile
    exact hnone ms hms base hfrom

end Load

/-! ## Main result -/

/-- What settings a file and an environment make. -/
structure LoadSpec (file : Option String) (env : Environment) : Prop where
  /-- Settings that are loaded come from their layers, and there is at least one item at a time and
  one line of log. -/
  loaded : ∀ s, load file env = .ok s → ∃ ms, Loaded file env ms s
  /-- They are loaded unless the file cannot be read, or a variable that is set cannot, or what
  comes of both is out of range. -/
  fails_iff : (∃ e, load file env = .error e) ↔ Undecodable file ∨
    (∃ name value e, env.get? (variableName name) = some value ∧ Refused value name e) ∨
    ∃ ms, FileMembers file ms ∧ (Concurrency env ms 0 ∨ ∃ n ≤ 0, TailLines env ms n)
  failure : ∀ e, load file env = .error e → Failure file env e

theorem load_spec (file : Option String) (env : Environment) : LoadSpec file env := by
  rcases loaded_or_failure file env with ⟨ms, s, hs, hloaded⟩ | ⟨e, he, hfailure⟩
  · refine ⟨fun s' hs' => ?_, iff_of_false (by simp [hs]) ?_, by simp [hs]⟩
    · obtain rfl := Except.ok.inj (hs.symm.trans hs')
      exact ⟨ms, hloaded⟩
    · rintro (hnone | ⟨name, value, e, hset, hrefused⟩ | ⟨ms', hms, hzero | ⟨n, hn, hlines⟩⟩)
      · exact not_undecodable_of_load hs hnone
      · exact not_refused_of_load hs hset hrefused
      · exact absurd (hloaded.fanOutConcurrency_eq hms hzero) (Nat.ne_of_lt hloaded.concurrency)
      · rw [hloaded.logTailLines_eq hms hlines] at hn
        exact absurd hn (Int.not_le.2 hloaded.lines)
  · refine ⟨by simp [he], iff_of_true ⟨e, he⟩ ?_, fun e' he' => ?_⟩
    · cases hfailure with
      | file hnone => exact .inl hnone
      | refused hrefused =>
        obtain ⟨name, -, value, hset, hrefused⟩ := hrefused.exists_refused
        exact .inr (.inl ⟨name, value, e, hset, hrefused⟩)
      | concurrency hms hzero => exact .inr (.inr ⟨_, hms, .inl hzero⟩)
      | lines hms hlines hn => exact .inr (.inr ⟨_, hms, .inr ⟨_, hn, hlines⟩⟩)
    · obtain rfl := Except.error.inj (he.symm.trans he')
      exact hfailure

/-- A variable mends what the file spoils. -/
example : load (some "fanOutConcurrency: 0") [("KUBETASK_FAN_OUT_CONCURRENCY", " 3 ")] =
    .ok { standard with fanOutConcurrency := 3 } := by
  decide +kernel

/-- It spoils what the file has right, too. -/
example : load (some "logTailLines: 50") [("KUBETASK_LOG_TAIL_LINES", "-1")] =
    .error (.config "logTailLines must be positive") := by
  decide +kernel

end Settings

end ClusterJobs
