import Mathlib.Data.Fin.VecNotation
import ClusterJobs.Proofs.Queue.Sessions

/-!
# What clashes do

Operations that clash can end out of step, though no call to a cluster fails. Each kind of clash is
played out turn by turn, from any rows and clusters that are in step.
-/

namespace ClusterJobs

open Program QueueManager

/-- The event is a call to a cluster that failed. -/
def clusterFailed : QueueEvent → Bool
  | ⟨.apply _ _, x⟩ => !Except.isOk x
  | ⟨.delete _ _, x⟩ => !Except.isOk x
  | ⟨.state _ _, x⟩ => !Except.isOk x
  | _ => false

/-- Operations can come to their ends out of step, though no call to a cluster fails. -/
def Parts {ι : Type} [DecidableEq ι] (s : QueueSettings) (l : QueueLedger) (ops : ι → QueueOp) :
    Prop :=
  ∃ h qs, ∃ results : (i : ι) → (ops i).Result, ∃ l',
    Interleaves QueueLedger.serves (fun i => (ops i).program s) l h qs l' ∧
      Finished qs results ∧ (∀ p ∈ h, clusterFailed p.2 = false) ∧ ¬ InStep s l'

section Parts

variable {s : QueueSettings} {l l' : QueueLedger} {r : QueueRow}

theorem Parts.of_turns {ι : Type} [DecidableEq ι] {ops : ι → QueueOp} {h : List (ι × QueueEvent)}
    {st' : ι → QueueStage s} (ht : QueueTurns s (fun i => (ops i).begin s) l h st' l')
    (hend : ∀ i, (st' i).next? = none) (hcalls : ∀ p ∈ h, clusterFailed p.2 = false)
    (hparted : ¬ InStep s l') : Parts s l ops := by
  have hop (i : ι) : (st' i).op = ops i := by simpa using ht.op_eq i
  choose results hresults using fun i => QueueStage.ended_of_next? (hop i) (hend i)
  obtain rfl : st' = fun i => .ended (ops i) (results i) := funext hresults
  obtain ⟨qs, hi, hf⟩ := ht.finishes
  exact ⟨h, qs, results, l', hi, hf, hcalls, hparted⟩

/-- A queue without a row. -/
theorem not_inStep_of_stray {k : String × String} {queue : GangQueue}
    (hheld : l.held k = some queue) (hrows : ∀ r ∈ l.rows.rows, r.key ≠ k) : ¬ InStep s l := by
  intro hs
  obtain ⟨-, r, hr, hkey⟩ := hs.owned k queue hheld
  exact hrows r hr hkey

/-- A row without its queue, or with another one. -/
theorem not_inStep_of_row (hr : r ∈ l.rows.rows) (remote : r.isLocal s = false)
    (hheld : l.held r.key ≠ some (r.manifest s)) : ¬ InStep s l :=
  fun hs => hheld (hs.applied r hr remote)

/-- An operation that is about to write a row writes it, if a row of the id is stored. -/
theorem QueueStage.turn_of_written? {st : QueueStage s} {w : QueueRow} {rows : QueueRows}
    (hw : st.written? = some w) (hupd : l.rows.update w = .ok rows) :
    ∃ x, x.next? = none ∧ QueueTurn s st l ⟨.updateRow w, .ok ()⟩ x { l with rows := rows } := by
  cases st with
  | writing id u row checked =>
    cases hw
    exact ⟨_, rfl, .written checked hupd⟩
  | noting id row state now =>
    cases hw
    exact ⟨_, rfl, .noted hupd⟩
  | _ => cases hw

/-- A deletion that clears the cluster deletes the row next. -/
theorem steps_clear (id : Int) (remote : r.isLocal s = false) :
    ∃ h l', QueueSteps s (.clearing id r remote) l h (.ended (.delete id) (.ok ())) l' ∧
      (∀ e ∈ h, clusterFailed e = false) ∧ l'.rows = l.rows.delete id ∧
      l'.held = Function.update l.held r.key none ∧ l'.reserved = l.reserved :=
  ⟨_, _, .cons (.cleared remote) <| .cons .dropped <| .nil _ _,
    by simp [clusterFailed, Except.isOk, Except.toBool], rfl, rfl, rfl⟩

/-- A creation with a free name applies the queue and stores the row. -/
theorem steps_create {q : DatedQueue} (hname : q.trimmed ∉ l.reserved)
    (remote : q.row.isLocal s = false) (hfree : ∀ r ∈ l.rows.rows, r.name ≠ q.row.name) :
    ∃ h l' row, QueueSteps s (.naming q) l h (.ended (.create q) (.ok row)) l' ∧
      (∀ e ∈ h, clusterFailed e = false) ∧ l.rows.insert q.row = .ok (row, l'.rows) ∧
      l'.held = Function.update l.held q.row.key (some (q.row.manifest s)) := by
  have hins := QueueRows.insert_eq_ok_iff.2 ⟨hfree, rfl, rfl⟩
  refine ⟨_, _, _, .cons (.named hname) <|
    .cons (.unknown remote (QueueRows.find?_eq_none_iff.2 hfree)) <| .cons (.founded remote) <|
    .cons (.stored hins) <| .cons .left <| .nil _ _, ?_, hins, rfl⟩
  simp [clusterFailed, Except.isOk, Except.toBool]

/-- A change that affects the cluster has read its row. -/
theorem steps_read_update {op : QueueOp} {u : DatedUpdate} (hop : op = .update r.id u)
    (hget : l.rows.get? r.id = some r) (checked : checkUpdate r u = .ok ())
    (affects : (Changeset.between r u).affectsCluster) (remote : r.isLocal s = false) :
    QueueSteps s (op.begin s) l [⟨.getRow r.id, .ok (some r)⟩]
      (.applying r.id u r checked affects remote) l := by
  subst hop
  exact .cons (.changeRemote checked affects remote hget) <| .nil _ _

/-- A deletion has read its row. -/
theorem steps_read_delete {op : QueueOp} (hop : op = .delete r.id)
    (hget : l.rows.get? r.id = some r) (remote : r.isLocal s = false) :
    QueueSteps s (op.begin s) l [⟨.getRow r.id, .ok (some r)⟩] (.clearing r.id r remote) l := by
  subst hop
  exact .cons (.deleteRemote remote hget) <| .nil _ _

/-! ## Two operations -/

section Two

variable {ι : Type} [DecidableEq ι] {ops : ι → QueueOp} {i j : ι} {u : DatedUpdate}
  (hij : i ≠ j) (hall : ∀ k, k = i ∨ k = j) (ha : AtRest s l) (hr : r ∈ l.rows.rows)
  (remote : r.isLocal s = false) (checked : checkUpdate r u = .ok ())
  (affects : (Changeset.between r u).affectsCluster) (hi : ops i = .update r.id u)
include hij hall ha hr remote checked affects hi

/-- The queue of a row is deleted before a change of the row is applied. -/
theorem parts_update_delete (hj : ops j = .delete r.id) : Parts s l ops := by
  have hget : l.rows.get? r.id = some r := ha.sound.get?_eq_some_iff.2 ⟨hr, rfl⟩
  have hread := steps_read_update hi hget checked affects remote
  have hread' := steps_read_delete hj hget remote
  obtain ⟨h₁, l₁, hclear, hcalls₁, hrows₁, -⟩ := steps_clear (l := l) r.id remote
  have hgone : ∀ r' ∈ l₁.rows.rows, r'.id ≠ (r.revise u).id := by
    rw [hrows₁]
    exact fun r' hr' => (QueueRows.mem_delete.1 hr').2
  have happly : QueueSteps s (.applying r.id u r checked affects remote) l₁ _ _
      (l₁.apply r.cluster ((r.revise u).manifest s)) :=
    .cons (.applied checked affects remote) <|
      .cons (.unwritten checked (QueueRows.update_of_missing hgone)) <| .nil _ _
  refine Parts.of_turns
    ((hread.among (i := i) rfl).append <| (hread'.among (i := j) (by simp [hij.symm])).append <|
      (hclear.among (i := j) (by simp)).append <| happly.among (i := i) (by simp [hij])) ?_ ?_ ?_
  · intro k
    rcases hall k with rfl | rfl
    · rw [Function.update_self]
      rfl
    · rw [Function.update_of_ne hij.symm, Function.update_self]
      rfl
  · simp only [List.forall_mem_append, List.forall_mem_map]
    refine ⟨?_, ?_, hcalls₁, ?_⟩ <;> simp [clusterFailed, Except.isOk, Except.toBool]
  · have hheld : (l₁.apply r.cluster ((r.revise u).manifest s)).held r.key =
        some ((r.revise u).manifest s) := Function.update_self ..
    refine not_inStep_of_stray hheld ?_
    intro r' hr' hkey
    have hr' : r' ∈ l₁.rows.rows := hr'
    rw [hrows₁] at hr'
    obtain ⟨hr', hid⟩ := QueueRows.mem_delete.1 hr'
    exact hid (congrArg QueueRow.id (ha.apart r hr r' hr' remote hkey.symm)).symm

/-- A row is written as it was before a change that has been applied. -/
theorem parts_of_stale {h : List QueueEvent} {y : QueueStage s} {l₁ : QueueLedger}
    (hj : QueueSteps s ((ops j).begin s) l h y l₁) (hcalls : ∀ e ∈ h, clusterFailed e = false)
    (hrows : l₁.rows = l.rows) {w : QueueRow} (hw : y.written? = some w) (hid : w.id = r.id)
    (hkey : w.key = r.key) (hne : w.manifest s ≠ (r.revise u).manifest s) : Parts s l ops := by
  have hget : l.rows.get? r.id = some r := ha.sound.get?_eq_some_iff.2 ⟨hr, rfl⟩
  have hread := steps_read_update hi hget checked affects remote
  have hr₁ : r ∈ l₁.rows.rows := hrows ▸ hr
  obtain ⟨rows₁, hrows₁⟩ : ∃ rows, l₁.rows.update (r.revise u) = .ok rows :=
    QueueRows.exists_update hr₁ rfl
  have hmem : r.revise u ∈ rows₁.rows := (QueueRows.mem_update hrows₁).2 (.inl rfl)
  obtain ⟨rows₂, hrows₂⟩ := QueueRows.exists_update hmem hid.symm
  have happly : QueueSteps s (.applying r.id u r checked affects remote) l₁ _ _
      { l₁.apply r.cluster ((r.revise u).manifest s) with rows := rows₁ } :=
    .cons (.applied checked affects remote) <| .cons (.written checked hrows₁) <| .nil _ _
  obtain ⟨x, hx, hwrite⟩ := QueueStage.turn_of_written? hw
    (l := { l₁.apply r.cluster ((r.revise u).manifest s) with rows := rows₁ }) hrows₂
  have hwrite : QueueSteps s y _ _ x _ := .cons hwrite <| .nil _ _
  refine Parts.of_turns
    ((hread.among (i := i) rfl).append <| (hj.among (i := j) (by simp [hij.symm])).append <|
      (happly.among (i := i) (by simp [hij])).append <|
      hwrite.among (i := j) (by simp [hij.symm])) ?_ ?_ ?_
  · intro k
    rcases hall k with rfl | rfl
    · rw [Function.update_of_ne hij, Function.update_self]
      rfl
    · rw [Function.update_self]
      exact hx
  · simp only [List.forall_mem_append, List.forall_mem_map]
    refine ⟨?_, hcalls, ?_, ?_⟩ <;> simp [clusterFailed, Except.isOk, Except.toBool]
  · refine not_inStep_of_row (r := w) ((QueueRows.mem_update hrows₂).2 (.inl rfl)) ?_ ?_
    · rwa [isLocal_eq_of_key hkey]
    · rw [hkey]
      change Function.update l₁.held r.key _ r.key ≠ _
      rw [Function.update_self]
      exact fun hsame => hne (Option.some.inj hsame).symm

theorem parts_update_update {v : DatedUpdate} (hj : ops j = .update r.id v)
    (checked' : checkUpdate r v = .ok ()) (hempty : (Changeset.between r v).isEmpty = false)
    (hne : (r.revise v).manifest s ≠ (r.revise u).manifest s) : Parts s l ops := by
  have hget : l.rows.get? r.id = some r := ha.sound.get?_eq_some_iff.2 ⟨hr, rfl⟩
  by_cases affects' : (Changeset.between r v).affectsCluster = true
  · have hread := steps_read_update hj hget checked' affects' remote
    have happly : QueueSteps s (.applying r.id v r checked' affects' remote) l _ _ _ :=
      .cons (.applied checked' affects' remote) <| .nil _ _
    refine parts_of_stale hij hall ha hr remote checked affects hi (hread.append happly) ?_ rfl rfl
      rfl rfl hne
    simp [clusterFailed, Except.isOk, Except.toBool]
  · have hread : QueueSteps s ((ops j).begin s) l [⟨.getRow r.id, .ok (some r)⟩]
        (.writing r.id v r checked') l := by
      rw [hj]
      exact .cons (.changeRow checked' hget hempty fun h => absurd h affects') <| .nil _ _
    refine parts_of_stale hij hall ha hr remote checked affects hi hread ?_ rfl rfl rfl rfl hne
    simp [clusterFailed]

theorem parts_update_refresh {now : Instant} (hj : ops j = .refresh r.id now)
    (hne : r.manifest s ≠ (r.revise u).manifest s) : Parts s l ops := by
  have hget : l.rows.get? r.id = some r := ha.sound.get?_eq_some_iff.2 ⟨hr, rfl⟩
  obtain ⟨state, hstate⟩ : ∃ state, state ≠ r.state := by
    by_cases hopened : r.state = .opened
    · exact ⟨.closed, by simp [hopened]⟩
    · exact ⟨.opened, Ne.symm hopened⟩
  have hread : QueueSteps s ((ops j).begin s) l
      [⟨.getRow r.id, .ok (some r)⟩, ⟨.state r.cluster r.name, .ok (some state)⟩]
      (.noting r.id r state now) l := by
    rw [hj]
    exact .cons (.refreshRemote remote hget) <| .cons (.differs remote hstate) <| .nil _ _
  refine parts_of_stale hij hall ha hr remote checked affects hi hread ?_ rfl rfl rfl rfl hne
  simp [clusterFailed, Except.isOk, Except.toBool]

end Two

/-! ## Other clashes -/

/-- A queue that was created in the place of a deleted one is deleted in its stead. -/
theorem parts_delete_delete_create (ha : AtRest s l) (hr : r ∈ l.rows.rows)
    (remote : r.isLocal s = false) {q : DatedQueue} (hname : q.trimmed ≠ "")
    (hcap : q.capability.check = .ok ()) (hkey : q.row.key = r.key)
    (hown : ∀ r' ∈ l.rows.rows, r'.name = r.name → r' = r) :
    Parts s l (![.delete r.id, .delete r.id, .create q] : Fin 3 → QueueOp) := by
  have hget : l.rows.get? r.id = some r := ha.sound.get?_eq_some_iff.2 ⟨hr, rfl⟩
  have hqremote : q.row.isLocal s = false := by rwa [isLocal_eq_of_key hkey]
  have hread := steps_read_delete rfl hget remote
  obtain ⟨h₁, l₁, hclear₁, hcalls₁, hrows₁, -, hreserved₁⟩ := steps_clear (l := l) r.id remote
  have hfree : ∀ r' ∈ l₁.rows.rows, r'.name ≠ q.row.name := by
    intro r' hr' hsame
    rw [hrows₁] at hr'
    obtain ⟨hr', hid⟩ := QueueRows.mem_delete.1 hr'
    exact hid (congrArg QueueRow.id (hown r' hr' (hsame.trans (congrArg Prod.snd hkey))))
  have hnaming : q.trimmed ∉ l₁.reserved := by simp [hreserved₁, ha.released]
  obtain ⟨h₂, l₂, row, hcreate, hcalls₂, hins, -⟩ := steps_create hnaming hqremote hfree
  obtain ⟨h₃, l₃, hclear₃, hcalls₃, hrows₃, hheld₃, -⟩ := steps_clear (l := l₂) r.id remote
  have hbegin := QueueOp.begin_of_valid s hname hcap
  refine Parts.of_turns
    ((hread.among (i := 0) rfl).append <| (hread.among (i := 1) rfl).append <|
      (hclear₁.among (i := 0) rfl).append <|
      (hcreate.among (i := 2) (by simp [hbegin])).append <| hclear₃.among (i := 1) rfl) ?_ ?_ ?_
  · exact Fin.cases rfl <| Fin.cases rfl <| Fin.cases rfl fun k => k.elim0
  · simp only [List.forall_mem_append, List.forall_mem_map]
    exact ⟨by simp [clusterFailed], by simp [clusterFailed], hcalls₁, hcalls₂, hcalls₃⟩
  · obtain ⟨-, rfl, hrows₂⟩ := QueueRows.insert_eq_ok_iff.1 hins
    refine not_inStep_of_row (r := { q.row with id := l₁.rows.nextId }) ?_ hqremote ?_
    · rw [hrows₃, hrows₂]
      refine QueueRows.mem_delete.2 ⟨List.mem_append_right _ (.head []), ?_⟩
      rw [hrows₁]
      exact (ha.sound.fresh r hr).ne'
    · have hnone : l₃.held q.row.key = none := by rw [hheld₃, hkey, Function.update_self]
      intro hheld
      change l₃.held q.row.key = _ at hheld
      rw [hnone] at hheld
      cases hheld

/-- Of two rows in one place one is deleted, and its queue with it. -/
theorem parts_of_twin (hsound : l.rows.Sound) (hr : r ∈ l.rows.rows)
    (remote : r.isLocal s = false) {r' : QueueRow} (hr' : r' ∈ l.rows.rows) (hkey : r.key = r'.key)
    (hne : r ≠ r') : Parts s l fun _ : Unit => .delete r.id := by
  have hget : l.rows.get? r.id = some r := hsound.get?_eq_some_iff.2 ⟨hr, rfl⟩
  have hread := steps_read_delete rfl hget remote
  obtain ⟨h₁, l₁, hclear, hcalls, hrows, hheld, -⟩ := steps_clear (l := l) r.id remote
  refine Parts.of_turns ((hread.among (i := ()) rfl).append <| hclear.among (i := ()) rfl) ?_ ?_ ?_
  · exact fun _ => rfl
  · simp only [List.forall_mem_append, List.forall_mem_map]
    exact ⟨by simp [clusterFailed], hcalls⟩
  · refine not_inStep_of_row (r := r') ?_ (isLocal_eq_of_key hkey ▸ remote) ?_
    · rw [hrows]
      exact QueueRows.mem_delete.2 ⟨hr', fun hid => hne (hsound.eq_of_id hr hr' hid.symm)⟩
    · rw [hheld, ← hkey, Function.update_self]
      exact nofun

end Parts

end ClusterJobs
