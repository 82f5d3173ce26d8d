import ClusterJobs.Proofs.Faults
import ClusterJobs.Proofs.Queue.Turns

/-!
# Failed queue operations

An operation that runs alone fails for one of two reasons. Either it is refused, by what it asks for and
by what is stored, and then no cluster is asked; or the one cluster that it asks fails. Either way it
leaves everything as it was: rows and the next id, names that are being created, and the clusters.
-/

namespace ClusterJobs

open Program QueueManager

/-! ## Refusals -/

/-- The result of an operation that fails. -/
def QueueOp.fail (op : QueueOp) (e : QueueFault) : op.Result :=
  match op with
  | create _ => .error e
  | update _ _ => .error e
  | delete _ => .error e
  | refresh _ _ => .error e

theorem QueueOp.fail_injective {op : QueueOp} {e e' : QueueFault} (h : op.fail e = op.fail e') :
    e = e' := by
  cases op <;> exact Except.error.inj h

/-- What an operation asks for cannot be done with what is stored. -/
inductive QueueOp.Refused (l : QueueLedger) : QueueOp → QueueFault → Prop where
  | unnamed {q} : q.trimmed = "" → Refused l (create q) (.validation "queue name is empty")
  | unsound {q e} : q.trimmed ≠ "" → q.capability.check = .error e → Refused l (create q) e
  /-- The name is being created. -/
  | reserved {q} : q.trimmed ≠ "" → q.capability.check = .ok () → q.trimmed ∈ l.reserved →
      Refused l (create q) (.alreadyExists q.trimmed)
  | known {q row} : q.trimmed ≠ "" → q.capability.check = .ok () →
      l.rows.find? q.trimmed = some row → Refused l (create q) (.alreadyExists q.trimmed)
  | missing {op id} : op.target = some id → l.rows.get? id = none → Refused l op (.notFound id)
  | renamed {id u row name} : l.rows.get? id = some row → u.name = some name →
      Text.trim name ≠ row.name →
      Refused l (update id u) (.validation ("queue '" ++ row.name ++ "' cannot be renamed"))
  | unfit {id u row c e} : l.rows.get? id = some row →
      (∀ name, u.name = some name → Text.trim name = row.name) → u.capability = some c →
      c.check = .error e → Refused l (update id u) e

/-- Nothing that is stored stands against the operation. -/
def QueueOp.Accepted (l : QueueLedger) (op : QueueOp) : Prop :=
  ∀ e, ¬ op.Refused l e

/-- A creation may go ahead: the name and the capability are valid, and no other queue has the name or
is about to get it. -/
structure DatedQueue.Free (q : DatedQueue) (l : QueueLedger) : Prop where
  named : q.trimmed ≠ ""
  sound : q.capability.check = .ok ()
  unreserved : q.trimmed ∉ l.reserved
  unknown : l.rows.find? q.trimmed = none

section Refusals

variable {l : QueueLedger} {op : QueueOp} {q : DatedQueue} {id : Int} {u : DatedUpdate}
  {row : QueueRow} {e e' : QueueFault}

theorem checkUpdate_of_renamed {name : String} (hname : u.name = some name)
    (hne : Text.trim name ≠ row.name) : checkUpdate row u =
      .error (.validation ("queue '" ++ row.name ++ "' cannot be renamed")) := by
  simp only [checkUpdate, hname, Option.any_some, bne_iff_ne.2 hne, if_true]
  rfl

theorem checkUpdate_of_kept (hkept : ∀ name, u.name = some name → Text.trim name = row.name) :
    checkUpdate row u = u.capability.elim (.ok ()) Capability.check := by
  have hname : ¬ (u.name.any fun n => Text.trim n != row.name) = true := by
    cases hu : u.name with
    | none => simp
    | some name => simp [hkept name hu]
  simp only [checkUpdate, if_neg hname]
  cases u.capability <;> rfl

theorem QueueOp.refused_update_iff (hget : l.rows.get? id = some row) :
    (update id u).Refused l e ↔ checkUpdate row u = .error e := by
  constructor
  · intro h
    cases h with
    | missing htarget hmissing =>
      cases htarget
      cases hget.symm.trans hmissing
    | renamed hrow hname hne =>
      cases hget.symm.trans hrow
      exact checkUpdate_of_renamed hname hne
    | unfit hrow hkept hc he =>
      cases hget.symm.trans hrow
      rw [checkUpdate_of_kept hkept, hc]
      exact he
  · intro h
    by_cases hkept : ∀ name, u.name = some name → Text.trim name = row.name
    · rw [checkUpdate_of_kept hkept] at h
      cases hc : u.capability with
      | none =>
        rw [hc] at h
        cases h
      | some c =>
        rw [hc] at h
        exact .unfit hget hkept hc h
    · push Not at hkept
      obtain ⟨name, hname, hne⟩ := hkept
      rw [checkUpdate_of_renamed hname hne] at h
      cases h
      exact .renamed hget hname hne

theorem QueueOp.accepted_create (hq : q.Free l) : (create q).Accepted l := by
  intro e h
  cases h with
  | unnamed hname => exact hq.named hname
  | unsound _ hcheck => cases hq.sound.symm.trans hcheck
  | reserved _ _ hreserved => exact hq.unreserved hreserved
  | known _ _ hfind => cases hq.unknown.symm.trans hfind
  | missing htarget _ => cases htarget

theorem QueueOp.accepted_update (hget : l.rows.get? id = some row)
    (hcheck : checkUpdate row u = .ok ()) : (update id u).Accepted l := by
  intro e h
  cases hcheck.symm.trans ((refused_update_iff hget).1 h)

/-- A deletion or a refresh is refused only if its queue is missing. -/
theorem QueueOp.accepted_of_found (hop : op = delete id ∨ ∃ now, op = refresh id now)
    (hget : l.rows.get? id = some row) : op.Accepted l := by
  intro e h
  have hmissing : l.rows.get? id = none := by
    rcases hop with rfl | ⟨now, rfl⟩ <;> cases h with
    | missing htarget hmissing =>
      cases htarget
      exact hmissing
  cases hget.symm.trans hmissing

/-- There is one reason at most why an operation is refused. -/
theorem QueueOp.Refused.unique (h : op.Refused l e) (h' : op.Refused l e') : e = e' := by
  cases h <;> cases h' <;> simp_all [target]

end Refusals

/-! ## Clusters that are asked -/

/-- The cluster that is asked by a call, and the cause if it fails. -/
def QueueEvent.asked? : QueueEvent → Option (String × Option Fault)
  | ⟨.apply cluster _, x⟩ => some (cluster, faultOf x)
  | ⟨.delete cluster _, x⟩ => some (cluster, faultOf x)
  | ⟨.state cluster _, x⟩ => some (cluster, faultOf x)
  | _ => none

theorem QueueEvent.asked?_eq_none_iff {e : QueueEvent} :
    e.asked? = none ↔ e.call.reachesCluster = false := by
  obtain ⟨c, x⟩ := e
  cases c <;> simp [asked?, QueueCall.reachesCluster]

/-- The clusters that are asked, in order, each with the cause if it fails. -/
def asked (h : List QueueEvent) : List (String × Option Fault) :=
  h.filterMap QueueEvent.asked?

theorem asked_cons (e : QueueEvent) (h : List QueueEvent) :
    asked (e :: h) = e.asked?.toList ++ asked h := by
  cases he : e.asked? <;> simp [asked, he]

/-- No cluster failed. -/
def Unfailed (clusters : List (String × Option Fault)) : Prop :=
  ∀ p ∈ clusters, p.2 = none

theorem unfailed_nil : Unfailed [] :=
  fun _ h => nomatch h

theorem unfailed_singleton (cluster : String) : Unfailed [(cluster, none)] :=
  List.forall_mem_singleton.2 rfl

theorem Unfailed.quiet {clusters : List (String × Option Fault)} (h : Unfailed clusters)
    {e : QueueEvent} (he : e.asked? = none) : Unfailed (clusters ++ e.asked?.toList) := by
  rw [he, Option.toList_none, List.append_nil]
  exact h

/-- How an operation ends, with the clusters that it asked. -/
inductive QueueOp.Concludes (l : QueueLedger) (op : QueueOp)
    (clusters : List (String × Option Fault)) (r : op.Result) (l' : QueueLedger) : Prop where
  | refused {e} : op.Refused l e → clusters = [] → r = op.fail e → l' = l →
      Concludes l op clusters r l'
  | failed {cluster cause} : op.Accepted l → clusters = [(cluster, some cause)] →
      r = op.fail (.cluster cluster cause) → l' = l → Concludes l op clusters r l'
  | done : op.Accepted l → Unfailed clusters → (∀ e, r ≠ op.fail e) → Concludes l op clusters r l'

namespace QueueStage

variable {s : QueueSettings}

/-- What is known at a stage of an operation that began at `l`, is alone, and has asked these
clusters. -/
def Since (l : QueueLedger) (clusters : List (String × Option Fault)) (l' : QueueLedger) :
    QueueStage s → Prop
  | naming q => q.trimmed ≠ "" ∧ q.capability.check = .ok () ∧ clusters = [] ∧ l' = l
  | seeking q => q.trimmed ≠ "" ∧ q.capability.check = .ok () ∧ q.trimmed ∉ l.reserved ∧
      clusters = [] ∧ l' = { l with reserved := insert q.trimmed l.reserved }
  | founding q _ => q.Free l ∧ clusters = [] ∧
      l' = { l with reserved := insert q.trimmed l.reserved }
  | storing q => q.Free l ∧ Unfailed clusters ∧ l'.rows = l.rows
  | leaving q r => (QueueOp.create q).Concludes l clusters r
      { l' with reserved := l'.reserved.erase q.trimmed }
  | changing _ _ | deleting _ | refreshing _ _ => clusters = [] ∧ l' = l
  | applying id _ row _ _ _ | clearing id row _ | inspecting id row _ _ =>
      l.rows.get? id = some row ∧ clusters = [] ∧ l' = l
  | writing id _ row _ | noting id row _ _ =>
      l.rows.get? id = some row ∧ Unfailed clusters ∧ l'.rows = l.rows
  | dropping id row => l.rows.get? id = some row ∧ Unfailed clusters
  | ended op r => op.Concludes l clusters r l'

end QueueStage

section Turns

variable {s : QueueSettings} {st st' : QueueStage s} {l l₁ l₂ : QueueLedger}
  {clusters : List (String × Option Fault)} {e : QueueEvent}

/-- A name that is given back was free before. -/
theorem release_reserved {name : String} (h : name ∉ l.reserved) :
    { l with reserved := (insert name l.reserved).erase name } = l := by
  rw [Finset.erase_insert h]

/-- What was read is still there, so it can be written. -/
theorem update_ne_error {rows : QueueRows} {id : Int} {seen row : QueueRow} {e : QueueFault}
    (hget : l.rows.get? id = some seen) (hrows : rows = l.rows) (hid : row.id = seen.id) :
    rows.update row ≠ .error e := by
  intro h
  obtain ⟨-, hmissing⟩ := QueueRows.update_eq_error h
  rw [hrows] at hmissing
  exact hmissing seen (QueueRows.mem_of_get? hget).1 hid.symm

/-- A row whose name is free can be stored. -/
theorem insert_ne_error {rows : QueueRows} {q : DatedQueue} {e : QueueFault} (hq : q.Free l)
    (hrows : rows = l.rows) : rows.insert q.row ≠ .error e := by
  intro h
  obtain ⟨-, r, hr, hname⟩ := QueueRows.insert_eq_error h
  rw [hrows] at hr
  exact QueueRows.find?_eq_none_iff.1 hq.unknown r hr hname

/-- What a turn does to what is known. -/
theorem QueueTurn.since (ht : QueueTurn s st l₁ e st' l₂) (h : st.Since l clusters l₁) :
    st'.Since l (clusters ++ e.asked?.toList) l₂ := by
  cases ht with
  | taken hreserved =>
    obtain ⟨hname, hcheck, rfl, rfl⟩ := h
    exact .refused (.reserved hname hcheck hreserved) rfl rfl rfl
  | named hfree =>
    obtain ⟨hname, hcheck, rfl, rfl⟩ := h
    exact ⟨hname, hcheck, hfree, rfl, rfl⟩
  | known hfind =>
    obtain ⟨hname, hcheck, hfree, rfl, rfl⟩ := h
    exact .refused (.known hname hcheck hfind) rfl rfl (release_reserved hfree)
  | unknown remote hfind =>
    obtain ⟨hname, hcheck, hfree, rfl, rfl⟩ := h
    exact ⟨⟨hname, hcheck, hfree, hfind⟩, rfl, rfl⟩
  | unknownLocal hlocal hfind =>
    obtain ⟨hname, hcheck, hfree, rfl, rfl⟩ := h
    exact ⟨⟨hname, hcheck, hfree, hfind⟩, unfailed_nil, rfl⟩
  | founded remote =>
    obtain ⟨hq, rfl, rfl⟩ := h
    exact ⟨hq, unfailed_singleton _, rfl⟩
  | unfounded remote =>
    obtain ⟨hq, rfl, rfl⟩ := h
    exact .failed (QueueOp.accepted_create hq) rfl rfl (release_reserved hq.unreserved)
  | stored hins =>
    obtain ⟨hq, hunfailed, -⟩ := h
    exact .done (QueueOp.accepted_create hq) (hunfailed.quiet rfl) nofun
  | rejected hins =>
    obtain ⟨hq, -, hrows⟩ := h
    exact absurd hins (insert_ne_error hq hrows)
  | @left q r l =>
    have hclusters : clusters ++ (QueueEvent.asked? ⟨.release q.trimmed, ()⟩).toList = clusters :=
      List.append_nil clusters
    rw [hclusters]
    exact h
  | changeMissing hget =>
    obtain ⟨rfl, rfl⟩ := h
    exact .refused (.missing rfl hget) rfl rfl rfl
  | changeRefused hget hcheck =>
    obtain ⟨rfl, rfl⟩ := h
    exact .refused ((QueueOp.refused_update_iff hget).2 hcheck) rfl rfl rfl
  | changeIdle hget hcheck hempty =>
    obtain ⟨rfl, rfl⟩ := h
    exact .done (QueueOp.accepted_update hget hcheck) unfailed_nil nofun
  | changeRemote checked affects remote hget =>
    obtain ⟨rfl, rfl⟩ := h
    exact ⟨hget, rfl, rfl⟩
  | changeRow checked hget hempty hquiet =>
    obtain ⟨rfl, rfl⟩ := h
    exact ⟨hget, unfailed_nil, rfl⟩
  | applied checked affects remote =>
    obtain ⟨hget, rfl, rfl⟩ := h
    exact ⟨hget, unfailed_singleton _, rfl⟩
  | unapplied checked affects remote =>
    obtain ⟨hget, rfl, rfl⟩ := h
    exact .failed (QueueOp.accepted_update hget checked) rfl rfl rfl
  | written checked hupd =>
    obtain ⟨hget, hunfailed, -⟩ := h
    exact .done (QueueOp.accepted_update hget checked) (hunfailed.quiet rfl) nofun
  | unwritten checked hupd =>
    obtain ⟨hget, -, hrows⟩ := h
    exact absurd hupd (update_ne_error hget hrows rfl)
  | deleteMissing hget | refreshMissing hget =>
    obtain ⟨rfl, rfl⟩ := h
    exact .refused (.missing rfl hget) rfl rfl rfl
  | deleteRemote remote hget | refreshRemote remote hget =>
    obtain ⟨rfl, rfl⟩ := h
    exact ⟨hget, rfl, rfl⟩
  | deleteLocal hget hlocal =>
    obtain ⟨rfl, rfl⟩ := h
    exact ⟨hget, unfailed_nil⟩
  | cleared remote =>
    obtain ⟨hget, rfl, rfl⟩ := h
    exact ⟨hget, unfailed_singleton _⟩
  | uncleared remote =>
    obtain ⟨hget, rfl, rfl⟩ := h
    exact .failed (QueueOp.accepted_of_found (.inl rfl) hget) rfl rfl rfl
  | dropped =>
    obtain ⟨hget, hunfailed⟩ := h
    exact .done (QueueOp.accepted_of_found (.inl rfl) hget) (hunfailed.quiet rfl) nofun
  | refreshLocal hget hlocal =>
    obtain ⟨rfl, rfl⟩ := h
    exact .done (QueueOp.accepted_of_found (.inr ⟨_, rfl⟩) hget) unfailed_nil nofun
  | unseen remote =>
    obtain ⟨hget, rfl, rfl⟩ := h
    exact .failed (QueueOp.accepted_of_found (.inr ⟨_, rfl⟩) hget) rfl rfl rfl
  | same remote hstate =>
    obtain ⟨hget, rfl, rfl⟩ := h
    exact .done (QueueOp.accepted_of_found (.inr ⟨_, rfl⟩) hget) (unfailed_singleton _) nofun
  | differs remote hstate =>
    obtain ⟨hget, rfl, rfl⟩ := h
    exact ⟨hget, unfailed_singleton _, rfl⟩
  | noted hupd =>
    obtain ⟨hget, hunfailed, -⟩ := h
    exact .done (QueueOp.accepted_of_found (.inr ⟨_, rfl⟩) hget) (hunfailed.quiet rfl) nofun
  | unnoted hupd =>
    obtain ⟨hget, -, hrows⟩ := h
    exact absurd hupd (update_ne_error hget hrows rfl)

/-- What turns in a row do to what is known. -/
theorem QueueSteps.since {h : List QueueEvent} (hs : QueueSteps s st l₁ h st' l₂)
    (hst : st.Since l clusters l₁) : st'.Since l (clusters ++ asked h) l₂ := by
  induction hs generalizing clusters with
  | nil st l₁ =>
    rw [asked, List.filterMap_nil, List.append_nil]
    exact hst
  | @cons x y z l₁ l₂ l₃ e h hturn _ ih =>
    have hrest := ih (hturn.since hst)
    rwa [List.append_assoc, ← asked_cons] at hrest

theorem QueueOp.since_begin (op : QueueOp) (l : QueueLedger) : (op.begin s).Since l [] l := by
  cases op with
  | create q =>
    rcases eq_or_ne q.trimmed "" with hname | hname
    · have hempty : q.trimmed.isEmpty := by simpa using hname
      rw [begin, if_pos hempty]
      exact .refused (.unnamed hname) rfl rfl rfl
    · cases hcheck : q.capability.check with
      | ok a =>
        rw [begin_of_valid s hname hcheck]
        exact ⟨hname, hcheck, rfl, rfl⟩
      | error e =>
        have hempty : ¬ q.trimmed.isEmpty := by simpa using hname
        simp only [begin, if_neg hempty, hcheck]
        exact .refused (.unsound hname hcheck) rfl rfl rfl
  | update id u => exact ⟨rfl, rfl⟩
  | delete id => exact ⟨rfl, rfl⟩
  | refresh id now => exact ⟨rfl, rfl⟩

end Turns

/-! ## Runs of one operation -/

section Runs

variable {s : QueueSettings} {op : QueueOp} {st : QueueStage s} {p : QueueProgram op.Result}
  {l l' : QueueLedger} {h : List QueueEvent} {r : op.Result}

/-- A run of what is left of an operation is a row of its turns. -/
theorem QueueStage.At.steps (hat : QueueStage.At s op st p)
    (hr : Runs QueueLedger.serves p l h r l') : QueueSteps s st l h (.ended op r) l' := by
  induction hr generalizing st with
  | done r l =>
    rw [hat.ended_of_done]
    exact .nil _ l
  | ask hserves _ ih =>
    obtain ⟨st', hat', hturn⟩ := hat.turn hserves
    exact .cons hturn (ih hat')

theorem QueueOp.concludes (hr : Runs QueueLedger.serves (op.program s) l h r l') :
    op.Concludes l (asked h) r l' :=
  ((QueueStage.at_begin op).steps hr).since (op.since_begin l)

/-- Every call is answered somehow. -/
theorem QueueLedger.exists_serves (c : QueueCall) (l : QueueLedger) :
    ∃ x l', QueueLedger.serves c l x l' := by
  cases c with
  | reserve name | getRow id | findRow name | deleteRow id | listRows project page pageSize =>
    exact ⟨_, _, rfl, rfl⟩
  | release name => exact ⟨(), _, rfl⟩
  | insertRow row =>
    simp only [QueueLedger.serves]
    cases l.rows.insert row <;> exact ⟨_, _, rfl, rfl⟩
  | updateRow row =>
    simp only [QueueLedger.serves]
    cases l.rows.update row <;> exact ⟨_, _, rfl, rfl⟩
  | findTask code | upsertTask task | setStatus code status now | listTasks queue status
  | apply cluster queue | delete cluster name => exact ⟨.ok _, _, rfl, rfl⟩
  | state cluster name => exact ⟨.ok none, _, rfl⟩

theorem QueueStage.At.exists_run (hat : QueueStage.At s op st p) (l : QueueLedger) :
    ∃ h r l', Runs QueueLedger.serves p l h r l' := by
  induction p generalizing st l with
  | done r => exact ⟨[], r, l, .done r l⟩
  | ask c next ih =>
    obtain ⟨x, l₁, hserves⟩ := QueueLedger.exists_serves c l
    obtain ⟨st', hat', -⟩ := hat.turn hserves
    obtain ⟨h, r, l', hr⟩ := ih x hat' l₁
    exact ⟨_, r, l', .ask hserves hr⟩
  | never =>
    generalize hp : (Program.never : QueueProgram op.Result) = p at hat
    cases hat <;> cases hp

/-- Every operation has a run. -/
theorem QueueOp.exists_run (s : QueueSettings) (op : QueueOp) (l : QueueLedger) :
    ∃ h r l', Runs QueueLedger.serves (op.program s) l h r l' :=
  (QueueStage.at_begin op).exists_run l

end Runs

/-! ## Main result -/

/-- What comes of an operation that runs alone and fails. -/
structure FailuresSpec (s : QueueSettings) (l : QueueLedger) (op : QueueOp) : Prop where
  /-- Rows, ids, names that are being created and clusters are as before. -/
  unchanged : ∀ h e l', Runs QueueLedger.serves (op.program s) l h (op.fail e) l' → l' = l
  /-- It was refused, and no cluster was asked; or its only call to a cluster failed. -/
  cause : ∀ h e l', Runs QueueLedger.serves (op.program s) l h (op.fail e) l' →
    op.Refused l e ∧ (∀ event ∈ h, event.call.reachesCluster = false) ∨
      ∃ cluster cause, e = .cluster cluster cause ∧ asked h = [(cluster, some cause)]
  /-- What is refused fails in every run, and has one. -/
  refused : ∀ e, op.Refused l e → (∃ h r l', Runs QueueLedger.serves (op.program s) l h r l') ∧
    ∀ h r l', Runs QueueLedger.serves (op.program s) l h r l' →
      r = op.fail e ∧ l' = l ∧ ∀ event ∈ h, event.call.reachesCluster = false
  /-- Nothing else fails, unless a cluster does. -/
  fails_iff : ∀ h r l', Runs QueueLedger.serves (op.program s) l h r l' →
    ((∃ e, r = op.fail e) ↔ (∃ e, op.Refused l e) ∨ ¬ Unfailed (asked h))
  /-- The same operation, tried again, does what it would have done at first. -/
  again : ∀ h e l', Runs QueueLedger.serves (op.program s) l h (op.fail e) l' → ∀ h' r l'',
    Runs QueueLedger.serves (op.program s) l' h' r l'' ↔
      Runs QueueLedger.serves (op.program s) l h' r l''

theorem asked_eq_nil_iff {h : List QueueEvent} :
    asked h = [] ↔ ∀ event ∈ h, event.call.reachesCluster = false := by
  simp only [asked, List.filterMap_eq_nil_iff, QueueEvent.asked?_eq_none_iff]

theorem failures_spec (s : QueueSettings) (l : QueueLedger) (op : QueueOp) :
    FailuresSpec s l op := by
  have hunchanged (h : List QueueEvent) (e : QueueFault) (l' : QueueLedger)
      (hr : Runs QueueLedger.serves (op.program s) l h (op.fail e) l') : l' = l := by
    cases QueueOp.concludes hr with
    | refused _ _ _ hl | failed _ _ _ hl => exact hl
    | done _ _ hne => exact absurd rfl (hne e)
  constructor
  case unchanged => exact hunchanged
  case cause =>
    intro h e l' hr
    cases QueueOp.concludes hr with
    | refused hrefused hasked hfail _ =>
      exact .inl ⟨QueueOp.fail_injective hfail ▸ hrefused, asked_eq_nil_iff.1 hasked⟩
    | failed _ hasked hfail _ => exact .inr ⟨_, _, QueueOp.fail_injective hfail, hasked⟩
    | done _ _ hne => exact absurd rfl (hne e)
  case refused =>
    intro e hrefused
    refine ⟨op.exists_run s l, fun h r l' hr => ?_⟩
    cases QueueOp.concludes hr with
    | refused hrefused' hasked hfail hl =>
      exact ⟨hrefused.unique hrefused' ▸ hfail, hl, asked_eq_nil_iff.1 hasked⟩
    | failed haccepted _ _ _ | done haccepted _ _ => exact absurd hrefused (haccepted e)
  case fails_iff =>
    intro h r l' hr
    cases QueueOp.concludes hr with
    | refused hrefused _ hfail _ => exact iff_of_true ⟨_, hfail⟩ (.inl ⟨_, hrefused⟩)
    | failed _ hasked hfail _ =>
      refine iff_of_true ⟨_, hfail⟩ (.inr ?_)
      simp [hasked, Unfailed]
    | done haccepted hunfailed hne =>
      refine iff_of_false (fun ⟨e, he⟩ => hne e he) ?_
      rintro (⟨e, he⟩ | hfailed)
      · exact haccepted e he
      · exact hfailed hunfailed
  case again =>
    intro h e l' hr h' r l''
    rw [hunchanged h e l' hr]

end ClusterJobs
