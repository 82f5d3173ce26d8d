import Mathlib.Tactic.Ring
import ClusterJobs.Proofs.Interleaving
import ClusterJobs.Task.Submit

/-!
# The calls of a submission

A removal looks for its object and deletes it if it is there. A submission removes, waits until
nothing is left or its looks are used up, and creates. Whatever is answered, the calls of each have
one of a few shapes, from which they can be counted.
-/

namespace ClusterJobs

open Program

/-- A call of a task with its answer. -/
abbrev TaskEvent := Program.Event Call Answer

/-! ## Reading calls -/

def isDeletion : TaskEvent → Bool
  | ⟨.delete _, _⟩ => true
  | _ => false

def isCreation : TaskEvent → Bool
  | ⟨.create _ _, _⟩ => true
  | _ => false

/-- The answer to a look for an object. -/
def look? : TaskEvent → Option (Except Fault Bool)
  | ⟨.exists _, x⟩ => some x
  | _ => none

def looks (h : List TaskEvent) : List (Except Fault Bool) :=
  h.filterMap look?

def found : Except Fault Bool → Bool
  | .ok b => b
  | .error _ => false

def pauseOf : TaskEvent → Nat
  | ⟨.pause ms, _⟩ => ms
  | _ => 0

def slept (h : List TaskEvent) : Nat :=
  (h.map pauseOf).sum

/-- What a call to a cluster failed with. -/
def fault? : TaskEvent → Option Fault
  | ⟨.connect _ _, .error e⟩ | ⟨.exists _, .error e⟩ | ⟨.create _ _, .error e⟩
  | ⟨.delete _, .error e⟩ | ⟨.watch _, .error e⟩ | ⟨.tail _ _ _, .error e⟩ => some e
  | _ => none

@[simp]
theorem looks_append (h h' : List TaskEvent) : looks (h ++ h') = looks h ++ looks h' :=
  List.filterMap_append

@[simp]
theorem slept_append (h h' : List TaskEvent) : slept (h ++ h') = slept h + slept h' := by
  simp [slept]

/-! ## Shapes -/

namespace Manifest

variable (m : Manifest)

inductive Removal : List TaskEvent → Except JobFault Unit → Prop where
  | unseen (e : Fault) : Removal [⟨.exists m.ref, .error e⟩] (.error (m.clusterFault e))
  | absent : Removal [⟨.exists m.ref, .ok false⟩] (.ok ())
  | refused (e : Fault) :
      Removal [⟨.exists m.ref, .ok true⟩, ⟨.delete m.ref, .error e⟩] (.error (m.clusterFault e))
  | deleted : Removal [⟨.exists m.ref, .ok true⟩, ⟨.delete m.ref, .ok ()⟩] (.ok ())

/-- The calls of a wait, by the number of looks that it has left. -/
inductive Wait : Nat → List TaskEvent → Except JobFault Unit → Prop where
  | spent : Wait 0 [] (.ok ())
  | unseen (k : Nat) (e : Fault) :
      Wait (k + 1) [⟨.exists m.ref, .error e⟩] (.error (m.clusterFault e))
  | gone (k : Nat) : Wait (k + 1) [⟨.exists m.ref, .ok false⟩] (.ok ())
  | lingers {k : Nat} {h : List TaskEvent} {r : Except JobFault Unit} : Wait k h r →
      Wait (k + 1) (⟨.exists m.ref, .ok true⟩ :: ⟨.pause pollInterval, ()⟩ :: h) r

inductive Submission : List TaskEvent → Except JobFault Unit → Prop where
  | standing {h : List TaskEvent} {e : JobFault} : m.Removal h (.error e) → Submission h (.error e)
  | unsettled {h h' : List TaskEvent} {e : JobFault} : m.Removal h (.ok ()) →
      m.Wait pollAttempts h' (.error e) → Submission (h ++ h') (.error e)
  | answered {h h' : List TaskEvent} (x : Except Fault Unit) : m.Removal h (.ok ()) →
      m.Wait pollAttempts h' (.ok ()) →
      Submission (h ++ h' ++ [⟨.create m.ref m.object, x⟩]) (x.mapError m.clusterFault)

section Runs

variable {m} {σ : Type} {serves : Service Call Answer σ} {s t : σ} {h : List TaskEvent}
  {r : Except JobFault Unit}

theorem Removal.of_runs (hr : Runs serves m.stop s h r t) : m.Removal h r := by
  obtain ⟨x, s₁, h₁, -, hlook, rfl⟩ := runs_ask_iff.1 hr
  cases x with
  | error e =>
    obtain ⟨rfl, rfl, -⟩ := runs_done_iff.1 hlook
    exact .unseen e
  | ok b =>
    cases b with
    | false =>
      obtain ⟨rfl, rfl, -⟩ := runs_done_iff.1 hlook
      exact .absent
    | true =>
      obtain ⟨x, s₂, h₂, -, hdelete, rfl⟩ := runs_ask_iff.1 hlook
      cases x with
      | error e =>
        obtain ⟨rfl, rfl, -⟩ := runs_done_iff.1 hdelete
        exact .refused e
      | ok u =>
        obtain ⟨rfl, rfl, -⟩ := runs_done_iff.1 hdelete
        exact .deleted

theorem Wait.of_runs {k : Nat} (hr : Runs serves (m.awaitGone k) s h r t) : m.Wait k h r := by
  induction k generalizing s h with
  | zero =>
    obtain ⟨rfl, rfl, -⟩ := runs_done_iff.1 hr
    exact .spent
  | succ k ih =>
    obtain ⟨x, s₁, h₁, -, hlook, rfl⟩ := runs_ask_iff.1 hr
    cases x with
    | error e =>
      obtain ⟨rfl, rfl, -⟩ := runs_done_iff.1 hlook
      exact .unseen k e
    | ok b =>
      cases b with
      | false =>
        obtain ⟨rfl, rfl, -⟩ := runs_done_iff.1 hlook
        exact .gone k
      | true =>
        obtain ⟨x, s₂, h₂, -, hpause, rfl⟩ := runs_ask_iff.1 hlook
        exact .lingers (ih hpause)

theorem Submission.of_runs (hr : Runs serves m.submit s h r t) : m.Submission h r := by
  obtain ⟨h₁, r₁, s₁, h₂, hstop, hrest, rfl⟩ := runs_bind_iff.1 hr
  have hremoval := Removal.of_runs hstop
  cases r₁ with
  | error e =>
    obtain ⟨rfl, rfl, -⟩ := runs_done_iff.1 hrest
    rw [List.append_nil]
    exact .standing hremoval
  | ok u =>
    obtain ⟨h₃, r₃, s₃, h₄, hawait, hlast, rfl⟩ := runs_bind_iff.1 hrest
    have hwait := Wait.of_runs hawait
    cases r₃ with
    | error e =>
      obtain ⟨rfl, rfl, -⟩ := runs_done_iff.1 hlast
      rw [List.append_nil]
      exact .unsettled hremoval hwait
    | ok u =>
      obtain ⟨x, s₅, h₅, -, hcreate, rfl⟩ := runs_ask_iff.1 hlast
      rw [← List.append_assoc]
      cases x with
      | error e =>
        obtain ⟨rfl, rfl, -⟩ := runs_done_iff.1 hcreate
        exact .answered (.error e) hremoval hwait
      | ok u =>
        obtain ⟨rfl, rfl, -⟩ := runs_done_iff.1 hcreate
        exact .answered (.ok ()) hremoval hwait

end Runs

/-! ## Counts -/

section Counts

variable {m} {k : Nat} {h : List TaskEvent} {r : Except JobFault Unit}

theorem Removal.fault?_eq_none (hr : m.Removal h (.ok ())) : ∀ e ∈ h, fault? e = none := by
  cases hr <;> simp [fault?]

theorem Removal.eq_ok (hr : m.Removal h r) (hall : ∀ e ∈ h, fault? e = none) : r = .ok () := by
  cases hr <;> simp [fault?] at hall ⊢

theorem Removal.countP_isCreation (hr : m.Removal h r) : h.countP isCreation = 0 := by
  cases hr <;> rfl

theorem Removal.countP_isDeletion (hr : m.Removal h r) :
    h.countP isDeletion = if (looks h).head? = some (.ok true) then 1 else 0 := by
  cases hr <;> rfl

theorem Removal.length_looks (hr : m.Removal h r) : (looks h).length = 1 := by
  cases hr <;> rfl

theorem Removal.slept_eq (hr : m.Removal h r) : slept h = 0 := by
  cases hr <;> rfl

theorem Removal.call_eq (hr : m.Removal h r) :
    ∀ e ∈ h, e.call = .exists m.ref ∨ e.call = .delete m.ref := by
  cases hr <;> simp

theorem Wait.fault?_eq_none (hw : m.Wait k h (.ok ())) : ∀ e ∈ h, fault? e = none := by
  generalize hr : (Except.ok () : Except JobFault Unit) = r at hw
  induction hw with
  | spent => simp
  | unseen k e => cases hr
  | gone k => simp [fault?]
  | lingers _ ih => simpa [fault?] using ih hr

theorem Wait.call_eq (hw : m.Wait k h r) :
    ∀ e ∈ h, e.call = .exists m.ref ∨ e.call = .pause pollInterval := by
  induction hw with
  | spent => simp
  | unseen k e => simp
  | gone k => simp
  | lingers _ ih => simpa using ih

theorem Wait.countP_isCreation (hw : m.Wait k h r) : h.countP isCreation = 0 := by
  induction hw with
  | lingers _ ih => simpa [isCreation] using ih
  | _ => rfl

theorem Wait.countP_isDeletion (hw : m.Wait k h r) : h.countP isDeletion = 0 := by
  induction hw with
  | lingers _ ih => simpa [isDeletion] using ih
  | _ => rfl

theorem Wait.length_looks_le (hw : m.Wait k h r) : (looks h).length ≤ k := by
  induction hw with
  | spent => simp [looks]
  | unseen k e => simp [looks, look?]
  | gone k => simp [looks, look?]
  | lingers _ ih => exact Nat.succ_le_succ ih

theorem Wait.slept_eq (hw : m.Wait k h r) : slept h = pollInterval * (looks h).countP found := by
  induction hw with
  | spent => rfl
  | unseen k e => rfl
  | gone k => rfl
  | @lingers k h r _ ih =>
    simp only [slept, looks, look?, pauseOf, found, List.map_cons, List.sum_cons,
      List.filterMap_cons, List.countP_cons] at ih ⊢
    rw [ih]
    simp only [if_true]
    ring

/-- A wait that succeeds has seen the object gone, or has found it at every look. -/
theorem Wait.gone_or_lingers (hw : m.Wait k h (.ok ())) :
    (∃ earlier, h = earlier ++ [⟨.exists m.ref, .ok false⟩]) ∨
      looks h = List.replicate k (.ok true) := by
  -- The result becomes an index, so that the induction keeps it.
  generalize hr : (Except.ok () : Except JobFault Unit) = r at hw
  induction hw with
  | spent => exact .inr rfl
  | unseen k e => cases hr
  | gone k => exact .inl ⟨[], rfl⟩
  | lingers _ ih =>
    rcases ih hr with ⟨earlier, rfl⟩ | hall
    · exact .inl ⟨_ :: _ :: earlier, rfl⟩
    · refine .inr ?_
      rw [List.replicate_succ, ← hall]
      rfl

end Counts

/-- What the calls of a submission amount to. -/
structure SubmissionCalls (h : List TaskEvent) (r : Except JobFault Unit) : Prop where
  calls : ∀ e ∈ h, e.call = .exists m.ref ∨ e.call = .delete m.ref ∨
    e.call = .pause pollInterval ∨ e.call = .create m.ref m.object
  createsOnce : h.countP isCreation ≤ 1
  /-- A creation comes last, after calls that all succeeded. The look just before it has found
  nothing, or 30 looks in a row have found the object. -/
  creates : ∀ e ∈ h, isCreation e → ∃ before, h = before ++ [e] ∧
    (∀ e' ∈ before, fault? e' = none) ∧
    ((∃ earlier, before = earlier ++ [⟨.exists m.ref, .ok false⟩]) ∨
      (looks before).tail = List.replicate 30 (.ok true))
  deletesOnce : h.countP isDeletion ≤ 1
  deletes_iff : (∃ e ∈ h, isDeletion e) ↔ (looks h).head? = some (.ok true)
  looks_le : (looks h).length ≤ 31
  /-- Half a second is slept for each look after the first that has found the object. -/
  slept_eq : slept h = 500 * (looks h).tail.countP found
  succeeds_iff : r = .ok () ↔ ⟨.create m.ref m.object, .ok ()⟩ ∈ h

section Submission

variable {m} {h last : List TaskEvent} {r : Except JobFault Unit}

/-- What is counted of a wait; nothing if there was none. -/
structure Waited (h : List TaskEvent) : Prop where
  calls : ∀ e ∈ h, e.call = .exists m.ref ∨ e.call = .pause pollInterval
  creations : h.countP isCreation = 0
  deletions : h.countP isDeletion = 0
  looks_le : (looks h).length ≤ 30
  slept_eq : slept h = 500 * (looks h).countP found

theorem Waited.nil : m.Waited [] :=
  ⟨by simp, rfl, rfl, by simp [looks], rfl⟩

theorem Wait.waited (hw : m.Wait pollAttempts h r) : m.Waited h :=
  ⟨hw.call_eq, hw.countP_isCreation, hw.countP_isDeletion, hw.length_looks_le, hw.slept_eq⟩

/-- The calls of a submission: a removal, a wait and a creation. It may lack the later ones. -/
structure Parts (h₁ h₂ last : List TaskEvent) (r₁ r : Except JobFault Unit) : Prop where
  removal : m.Removal h₁ r₁
  waited : m.Waited h₂
  ends : last = [] ∧ (∃ e, r = .error e) ∨
    r₁ = .ok () ∧ m.Wait pollAttempts h₂ (.ok ()) ∧
      ∃ x, last = [⟨.create m.ref m.object, x⟩] ∧ r = x.mapError m.clusterFault

theorem Submission.parts (hs : m.Submission h r) :
    ∃ h₁ h₂ last r₁, h = h₁ ++ h₂ ++ last ∧ m.Parts h₁ h₂ last r₁ r := by
  cases hs with
  | @standing h e hr => exact ⟨h, [], [], _, by simp, hr, .nil, .inl ⟨rfl, e, rfl⟩⟩
  | @unsettled h h' e hr hw => exact ⟨h, h', [], _, by simp, hr, hw.waited, .inl ⟨rfl, e, rfl⟩⟩
  | @answered h h' x hr hw =>
    exact ⟨h, h', _, _, rfl, hr, hw.waited, .inr ⟨rfl, hw, x, rfl, rfl⟩⟩

theorem Removal.looks_append (hr : m.Removal h r) (h' : List TaskEvent) :
    (looks (h ++ h')).head? = (looks h).head? ∧ (looks (h ++ h')).tail = looks h' := by
  obtain ⟨x, hx⟩ := List.length_eq_one_iff.1 hr.length_looks
  simp [ClusterJobs.looks_append, hx]

namespace Parts

variable {h₁ h₂ : List TaskEvent} {r₁ : Except JobFault Unit} {e : TaskEvent}

theorem last_eq (hp : m.Parts h₁ h₂ last r₁ r) :
    last = [] ∨ ∃ x, last = [⟨.create m.ref m.object, x⟩] := by
  rcases hp.ends with ⟨rfl, -⟩ | ⟨-, -, x, rfl, -⟩
  · exact .inl rfl
  · exact .inr ⟨x, rfl⟩

theorem looks_eq (hp : m.Parts h₁ h₂ last r₁ r) :
    looks (h₁ ++ h₂ ++ last) = looks h₁ ++ looks h₂ := by
  have hlast : looks last = [] := by
    rcases hp.last_eq with rfl | ⟨x, rfl⟩ <;> rfl
  simp [looks_append, hlast]

theorem slept_eq (hp : m.Parts h₁ h₂ last r₁ r) :
    slept (h₁ ++ h₂ ++ last) = 500 * (looks h₂).countP found := by
  have hlast : slept last = 0 := by
    rcases hp.last_eq with rfl | ⟨x, rfl⟩ <;> rfl
  rw [slept_append, slept_append, hp.removal.slept_eq, hp.waited.slept_eq, hlast]
  omega

theorem countP_isDeletion (hp : m.Parts h₁ h₂ last r₁ r) :
    (h₁ ++ h₂ ++ last).countP isDeletion =
      if (looks h₁).head? = some (.ok true) then 1 else 0 := by
  have hlast : last.countP isDeletion = 0 := by
    rcases hp.last_eq with rfl | ⟨x, rfl⟩ <;> rfl
  simp only [List.countP_append, hp.removal.countP_isDeletion, hp.waited.deletions, hlast,
    Nat.add_zero]

theorem countP_isCreation (hp : m.Parts h₁ h₂ last r₁ r) :
    (h₁ ++ h₂ ++ last).countP isCreation ≤ 1 := by
  simp only [List.countP_append, hp.removal.countP_isCreation, hp.waited.creations, Nat.zero_add]
  rcases hp.last_eq with rfl | ⟨x, rfl⟩ <;> simp [isCreation]

theorem call_eq (hp : m.Parts h₁ h₂ last r₁ r) (he : e ∈ h₁ ++ h₂ ++ last) :
    e.call = .exists m.ref ∨ e.call = .delete m.ref ∨ e.call = .pause pollInterval ∨
      e.call = .create m.ref m.object := by
  simp only [List.mem_append] at he
  rcases he with (he | he) | he
  · exact (hp.removal.call_eq e he).imp_right .inl
  · exact (hp.waited.calls e he).imp_right fun h => .inr (.inl h)
  · rcases hp.last_eq with rfl | ⟨x, rfl⟩
    · cases he
    · obtain rfl := List.mem_singleton.1 he
      exact .inr (.inr (.inr rfl))

theorem mem_last (hp : m.Parts h₁ h₂ last r₁ r) (he : e ∈ h₁ ++ h₂ ++ last)
    (hcreation : isCreation e) : e ∈ last := by
  simp only [List.mem_append] at he
  rcases he with (he | he) | he
  · exact absurd hcreation (List.countP_eq_zero.1 hp.removal.countP_isCreation e he)
  · exact absurd hcreation (List.countP_eq_zero.1 hp.waited.creations e he)
  · exact he

theorem creates (hp : m.Parts h₁ h₂ last r₁ r) (he : e ∈ h₁ ++ h₂ ++ last)
    (hcreation : isCreation e) : ∃ before, h₁ ++ h₂ ++ last = before ++ [e] ∧
      (∀ e' ∈ before, fault? e' = none) ∧
      ((∃ earlier, before = earlier ++ [⟨.exists m.ref, .ok false⟩]) ∨
        (looks before).tail = List.replicate 30 (.ok true)) := by
  have hmem := hp.mem_last he hcreation
  rcases hp.ends with ⟨rfl, -⟩ | ⟨rfl, hwait, x, rfl, -⟩
  · cases hmem
  · obtain rfl := List.mem_singleton.1 hmem
    refine ⟨h₁ ++ h₂, rfl, ?_, ?_⟩
    · exact List.forall_mem_append.2 ⟨hp.removal.fault?_eq_none, hwait.fault?_eq_none⟩
    · rcases hwait.gone_or_lingers with ⟨earlier, rfl⟩ | hall
      · exact .inl ⟨h₁ ++ earlier, (List.append_assoc ..).symm⟩
      · exact .inr ((hp.removal.looks_append h₂).2.trans hall)

theorem succeeds_iff (hp : m.Parts h₁ h₂ last r₁ r) :
    r = .ok () ↔ ⟨.create m.ref m.object, .ok ()⟩ ∈ h₁ ++ h₂ ++ last := by
  rcases hp.ends with ⟨rfl, e, rfl⟩ | ⟨-, -, x, rfl, rfl⟩
  · refine ⟨nofun, fun he => ?_⟩
    cases hp.mem_last he rfl
  · refine ⟨fun hx => ?_, fun he => ?_⟩
    · cases x with
      | error e => cases hx
      | ok u => exact List.mem_append_right _ (.head [])
    · cases List.mem_singleton.1 (hp.mem_last he rfl)
      rfl

end Parts

theorem Submission.spec (hs : m.Submission h r) : m.SubmissionCalls h r := by
  obtain ⟨h₁, h₂, last, r₁, rfl, hp⟩ := hs.parts
  obtain ⟨hhead, htail⟩ := hp.removal.looks_append h₂
  rw [looks_append, ← hp.looks_eq] at hhead htail
  refine ⟨fun e => hp.call_eq, hp.countP_isCreation, fun e => hp.creates, ?_, ?_, ?_, ?_,
    hp.succeeds_iff⟩
  · rw [hp.countP_isDeletion]
    split <;> omega
  · rw [hhead, ← List.countP_pos_iff, hp.countP_isDeletion]
    split <;> simp_all
  · rw [hp.looks_eq, List.length_append, hp.removal.length_looks]
    have hothers := hp.waited.looks_le
    omega
  · rw [htail, hp.slept_eq]

end Submission

/-- A job of a queue on the cluster "prod". -/
def etl : Manifest where
  kind := .queueAdmitted
  name := "etl-7"
  nameSpace := "jobs"
  container := "etl-7"
  target := .stored "prod"
  taskInstanceId := 7
  index := none
  object := .obj [("metadata", .obj [("name", .str "etl-7")])]

end Manifest

end ClusterJobs
