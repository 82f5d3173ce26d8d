import ClusterJobs.Proofs.Quantity
import ClusterJobs.Proofs.Queue.Orderly

/-!
# Rows and clusters in step

Rows and clusters are in step if each cluster has exactly the queues of its rows. While operations
are on their way they are not, so a weaker agreement is kept: it says for each stage what its
operation may rely on, unless operations on one row clash.
-/

namespace ClusterJobs

open Program QueueManager

/-- The cluster and the name of a row: where its queue is held. -/
def QueueRow.key (row : QueueRow) : String × String :=
  (row.cluster, row.name)

/-- Each cluster has exactly the queues of its rows, and the local cluster has none. -/
structure InStep (s : QueueSettings) (l : QueueLedger) : Prop where
  applied : ∀ r ∈ l.rows.rows, r.isLocal s = false → l.held r.key = some (r.manifest s)
  owned : ∀ k queue, l.held k = some queue →
    k.1 ≠ s.localCluster ∧ ∃ r ∈ l.rows.rows, r.key = k

/-- No two rows share a place on a cluster. -/
def QueueRows.Apart (s : QueueSettings) (rows : QueueRows) : Prop :=
  ∀ r ∈ rows.rows, ∀ r' ∈ rows.rows, r.isLocal s = false → r.key = r'.key → r = r'

theorem isLocal_eq_false_iff {s : QueueSettings} {r : QueueRow} :
    r.isLocal s = false ↔ r.cluster ≠ s.localCluster := by
  simp [QueueRow.isLocal]

theorem isLocal_eq_of_key {s : QueueSettings} {r r' : QueueRow} (h : r.key = r'.key) :
    r.isLocal s = r'.isLocal s := by
  have hcluster : r.cluster = r'.cluster := congrArg Prod.fst h
  simp [QueueRow.isLocal, hcluster]

section Seen

variable {s : QueueSettings} {rows : QueueRows} {id : Int} {row row' r : QueueRow}

theorem Seen.key_eq (h : Seen rows id row) (hr : r ∈ rows.rows) (hid : r.id = id) :
    r.key = row.key := by
  obtain ⟨hname, hcluster⟩ := h.same r hr hid
  simp [QueueRow.key, hname, hcluster]

theorem Seen.isLocal_eq (h : Seen rows id row) (hr : r ∈ rows.rows) (hid : r.id = id) :
    r.isLocal s = row.isLocal s := by
  simp [QueueRow.isLocal, (h.same r hr hid).2]

end Seen

/-! ## Changes that do not reach the cluster -/

theorem eq_of_not_differs {α : Type} [BEq α] {given : Option α} {present : α}
    (h : Changeset.differs given present = false) : given.getD present = present ∨
      given.getD present == present := by
  cases given with
  | none => exact .inl rfl
  | some a => exact .inr (by simpa [Changeset.differs] using h)

/-- Only changes that affect the cluster change the queue of a row. -/
theorem QueueRow.manifest_update_of_unaffected {s : QueueSettings} {row : QueueRow}
    {u : DatedUpdate} (h : (Changeset.between row u).affectsCluster = false) :
    (row.revise u).manifest s = row.manifest s := by
  simp only [Changeset.affectsCluster, Changeset.between, Bool.or_eq_false_iff] at h
  obtain ⟨⟨hweight, hreclaimable⟩, hcapability⟩ := h
  have weight : u.weight.getD row.weight = row.weight := by
    rcases eq_of_not_differs hweight with h | h
    · exact h
    · exact eq_of_beq h
  have reclaimable : u.reclaimable.getD row.reclaimable = row.reclaimable := by
    rcases eq_of_not_differs hreclaimable with h | h
    · exact h
    · exact eq_of_beq h
  have resources : (u.capability.getD row.capability).toResources s.defaultGpuType =
      row.capability.toResources s.defaultGpuType := by
    rcases eq_of_not_differs hcapability with h | h
    · rw [h]
    · exact Capability.toResources_eq_of_beq h s.defaultGpuType
  simp only [manifest, revise, update, weight, reclaimable, resources]

/-! ## Clashes -/

section Clash

variable {ι : Type}

/-- Two operations on one row overlap, and they undo each other's work on the cluster. -/
inductive Clash (s : QueueSettings) (ops : ι → QueueOp) (h : List (ι × QueueEvent)) : Prop where
  /-- One applies the queue of the row and the other deletes it. -/
  | applyDelete {i j : ι} {id : Int} : i ≠ j → (ops i).target = some id →
      (ops j).target = some id → Overlap h i j →
      Calls h i (fun c => ∃ cluster queue, c = .apply cluster queue) →
      Calls h j (fun c => ∃ cluster name, c = .delete cluster name) → Clash s ops h
  /-- One applies the queue of the row and the other writes the row with another queue. -/
  | applyWrite {i j : ι} {id : Int} {cluster : String} {queue : GangQueue} {row : QueueRow} :
      i ≠ j → (ops i).target = some id → (ops j).target = some id → Overlap h i j →
      Calls h i (· = .apply cluster queue) → Calls h j (· = .updateRow row) →
      row.manifest s ≠ queue → Clash s ops h
  /-- Both delete the queue of the row, and in between a new one is created in its place. -/
  | deleteDelete {i j k : ι} {id : Int} {q : DatedQueue} : i ≠ j → (ops i).target = some id →
      (ops j).target = some id → Overlap h i j → Calls h i (· = .delete q.cluster q.trimmed) →
      Calls h j (· = .delete q.cluster q.trimmed) → ops k = .create q → Crosses h i k →
      Clash s ops h

end Clash

/-! ## What the calls so far say about a stage -/

namespace QueueStage

variable {s : QueueSettings} {st : QueueStage s} {id : Int} {row : QueueRow}

/-- The queue of a changed row is applied, and the row is about to be written. -/
def HasApplied : QueueStage s → Int → QueueRow → GangQueue → Prop
  | writing id' u row' _, id, row, queue => id' = id ∧ row' = row ∧
    (Changeset.between row' u).affectsCluster = true ∧ row'.isLocal s = false ∧
    (row'.revise u).manifest s = queue
  | _, _, _, _ => False

/-- The queue of a row is deleted, and the row is about to be. -/
def HasCleared : QueueStage s → Int → QueueRow → Prop
  | dropping id' row', id, row => id' = id ∧ row' = row ∧ row'.isLocal s = false
  | _, _, _ => False

/-- The row of this id and its queue on the cluster need not agree. -/
def Busy (st : QueueStage s) (id : Int) : Prop :=
  (∃ row queue, st.HasApplied id row queue) ∨ ∃ row, st.HasCleared id row

/-- The queue of a new row is applied, and the row is about to be stored. -/
def Founded : QueueStage s → String × String → Prop
  | storing q, k => q.row.isLocal s = false ∧ q.row.key = k
  | _, _ => False

theorem next?_of_view (h : st.view = some (id, row)) : ∃ c, st.next? = some c := by
  cases st <;> first | exact ⟨_, rfl⟩ | cases h

theorem target_of_view (h : st.view = some (id, row)) : st.op.target = some id := by
  cases st <;> cases h <;> rfl

theorem HasApplied.view {queue : GangQueue} (h : st.HasApplied id row queue) :
    st.view = some (id, row) := by
  cases st with
  | writing id' u row' checked =>
    obtain ⟨rfl, rfl, -⟩ := h
    rfl
  | _ => cases h

theorem HasApplied.isLocal_eq {queue : GangQueue} (h : st.HasApplied id row queue) :
    row.isLocal s = false := by
  cases st with
  | writing id' u row' checked =>
    obtain ⟨-, rfl, -, remote, -⟩ := h
    exact remote
  | _ => cases h

theorem HasApplied.next?_eq {queue : GangQueue} (h : st.HasApplied id row queue) :
    ∃ row', st.next? = some (.updateRow row') ∧ row'.manifest s = queue := by
  cases st with
  | writing id' u row' checked =>
    obtain ⟨-, -, -, -, rfl⟩ := h
    exact ⟨_, rfl, rfl⟩
  | _ => cases h

theorem next?_of_written? {row' : QueueRow} (h : st.written? = some row') :
    st.next? = some (.updateRow row') := by
  cases st <;> cases h <;> rfl

theorem HasApplied.queue_eq {queue : GangQueue} {row' : QueueRow}
    (h : st.HasApplied id row queue) (hw : st.written? = some row') :
    row'.manifest s = queue := by
  obtain ⟨row'', hn, hqueue⟩ := h.next?_eq
  rw [next?_of_written? hw] at hn
  cases hn
  exact hqueue

theorem HasCleared.view (h : st.HasCleared id row) : st.view = some (id, row) := by
  cases st with
  | dropping id' row' =>
    obtain ⟨rfl, rfl, -⟩ := h
    rfl
  | _ => cases h

theorem HasCleared.not_written? {row' : QueueRow} (h : st.HasCleared id row)
    (hw : st.written? = some row') : False := by
  cases st with
  | dropping id' row' => cases hw
  | _ => cases h

theorem HasCleared.isLocal_eq (h : st.HasCleared id row) : row.isLocal s = false := by
  cases st with
  | dropping id' row' =>
    obtain ⟨-, rfl, remote⟩ := h
    exact remote
  | _ => cases h

theorem Founded.vacant {k : String × String} (h : st.Founded k) : st.vacant = some k.2 := by
  cases st with
  | storing q =>
    obtain ⟨-, rfl⟩ := h
    rfl
  | _ => cases h

theorem Founded.storing {k : String × String} (h : st.Founded k) :
    ∃ q, st = .storing q ∧ q.row.key = k := by
  cases st with
  | storing q => exact ⟨q, rfl, h.2⟩
  | _ => cases h

theorem not_busy (ha : ∀ id row queue, ¬ st.HasApplied id row queue)
    (hc : ∀ id row, ¬ st.HasCleared id row) : ∀ id, ¬ st.Busy id := by
  rintro id (⟨row, queue, h⟩ | ⟨row, h⟩)
  · exact ha id row queue h
  · exact hc id row h

theorem idle {rows : QueueRows} (ha : ∀ id row queue, ¬ st.HasApplied id row queue)
    (hc : ∀ id row, ¬ st.HasCleared id row) :
    ∀ id, st.Busy id → ∀ r ∈ rows.rows, r.id ≠ id :=
  fun id hb => absurd hb (not_busy ha hc id)

@[simp]
theorem not_busy_founding {q : DatedQueue} {remote : q.row.isLocal s = false} :
    ¬ (founding q remote).Busy id := by
  rintro (⟨_, _, h⟩ | ⟨_, h⟩) <;> exact h

@[simp]
theorem not_busy_storing {q : DatedQueue} : ¬ (storing q : QueueStage s).Busy id := by
  rintro (⟨_, _, h⟩ | ⟨_, h⟩) <;> exact h

@[simp]
theorem not_busy_applying {u : DatedUpdate} {checked : checkUpdate row u = .ok ()}
    {affects : (Changeset.between row u).affectsCluster} {remote : row.isLocal s = false}
    {id' : Int} : ¬ (applying id' u row checked affects remote).Busy id := by
  rintro (⟨_, _, h⟩ | ⟨_, h⟩) <;> exact h

@[simp]
theorem not_busy_clearing {remote : row.isLocal s = false} {id' : Int} :
    ¬ (clearing id' row remote).Busy id := by
  rintro (⟨_, _, h⟩ | ⟨_, h⟩) <;> exact h

@[simp]
theorem not_busy_ended {op : QueueOp} {r : op.Result} : ¬ (ended op r : QueueStage s).Busy id := by
  rintro (⟨_, _, h⟩ | ⟨_, h⟩) <;> exact h

theorem view_of_busy (h : st.Busy id) : ∃ row, st.view = some (id, row) := by
  rcases h with ⟨row, queue, h⟩ | ⟨row, h⟩
  · exact ⟨row, h.view⟩
  · exact ⟨row, h.view⟩

theorem id_of_busy {id' : Int} (h : st.Busy id) (hv : st.view = some (id', row)) : id = id' := by
  obtain ⟨row', hv'⟩ := view_of_busy h
  rw [hv] at hv'
  cases hv'
  rfl

end QueueStage

section Pool

variable {ι : Type} [DecidableEq ι] {s : QueueSettings} {ops : ι → QueueOp}
  {h h₀ : List (ι × QueueEvent)} {st : ι → QueueStage s} {l l' : QueueLedger} {i j : ι}
  {x : QueueStage s} {e : QueueEvent}

/-- The calls that lie behind the stages of operations. -/
structure Traced (ops : ι → QueueOp) (h : List (ι × QueueEvent)) (st : ι → QueueStage s) :
    Prop where
  op : ∀ i, (st i).op = ops i
  begun : ∀ i id row, (st i).view = some (id, row) → ∃ e, (i, e) ∈ h
  applied : ∀ i id row queue, (st i).HasApplied id row queue →
    Calls h i (· = .apply row.cluster queue)
  cleared : ∀ i id row, (st i).HasCleared id row → Calls h i (· = .delete row.cluster row.name)

theorem QueueTurn.hasApplied {st st' : QueueStage s} (ht : QueueTurn s st l e st' l') {id : Int}
    {row : QueueRow} {queue : GangQueue} (ha : st'.HasApplied id row queue) :
    e.call = .apply row.cluster queue := by
  cases ht with
  | changeRow checked hget hempty hquiet =>
    obtain ⟨-, -, affects, remote, -⟩ := ha
    simp [hquiet affects] at remote
  | applied checked affects remote =>
    obtain ⟨-, rfl, -, -, rfl⟩ := ha
    rfl
  | _ => cases ha

theorem QueueTurn.hasCleared {st st' : QueueStage s} (ht : QueueTurn s st l e st' l') {id : Int}
    {row : QueueRow} (hc : st'.HasCleared id row) : e.call = .delete row.cluster row.name := by
  cases ht with
  | deleteLocal hget hlocal =>
    obtain ⟨-, -, remote⟩ := hc
    simp [hlocal] at remote
  | cleared remote =>
    obtain ⟨-, rfl, -⟩ := hc
    rfl
  | _ => cases hc

theorem Traced.step (hr : Traced ops h st) (ht : QueueTurn s (st i) l e x l') :
    Traced ops (h ++ [(i, e)]) (Function.update st i x) := by
  have hsub : ∀ p ∈ h, p ∈ h ++ [(i, e)] := fun p hp => List.mem_append_left _ hp
  have hnow : (i, e) ∈ h ++ [(i, e)] := by simp
  refine ⟨?_, ?_, ?_, ?_⟩
  · intro j
    by_cases hji : j = i
    · subst hji
      rw [Function.update_self, ht.op_eq]
      exact hr.op j
    · rw [Function.update_of_ne hji]
      exact hr.op j
  · intro j id row hj
    by_cases hji : j = i
    · exact ⟨e, hji ▸ hnow⟩
    · rw [Function.update_of_ne hji] at hj
      obtain ⟨e', he'⟩ := hr.begun j id row hj
      exact ⟨e', hsub _ he'⟩
  · intro j id row queue hj
    by_cases hji : j = i
    · subst hji
      rw [Function.update_self] at hj
      exact ⟨e, hnow, ht.hasApplied hj⟩
    · rw [Function.update_of_ne hji] at hj
      exact (hr.applied j id row queue hj).mono hsub
  · intro j id row hj
    by_cases hji : j = i
    · subst hji
      rw [Function.update_self] at hj
      exact ⟨e, hnow, ht.hasCleared hj⟩
    · rw [Function.update_of_ne hji] at hj
      exact (hr.cleared j id row hj).mono hsub

end Pool

/-! ## What a turn does to rows and clusters -/

/-- What an operation does to rows and clusters from a stage, and to which stage it comes. -/
inductive QueueChange {s : QueueSettings} (st : QueueStage s) (l : QueueLedger)
    (x : QueueStage s) (l' : QueueLedger) : Prop where
  /-- Nothing changes. If the operation was to write a row, there is none of its id. -/
  | kept : l'.rows = l.rows → l'.held = l.held →
      (∀ id, st.Busy id → ∀ r ∈ l.rows.rows, r.id ≠ id) → (∀ k, ¬ st.Founded k) →
      (∀ id, ¬ x.Busy id) → (∀ k, ¬ x.Founded k) → QueueChange st l x l'
  | stored {q : DatedQueue} {row : QueueRow} : st = .storing q → x = .leaving q (.ok row) →
      l.rows.insert q.row = .ok (row, l'.rows) → l'.held = l.held → QueueChange st l x l'
  | written {row : QueueRow} {op : QueueOp} {r : op.Result} : st.written? = some row →
      x = .ended op r → l.rows.update row = .ok l'.rows → l'.held = l.held → QueueChange st l x l'
  | dropped {id : Int} {row : QueueRow} {op : QueueOp} {r : op.Result} : st = .dropping id row →
      x = .ended op r → l'.rows = l.rows.delete id → l'.held = l.held → QueueChange st l x l'
  | founded {q : DatedQueue} (remote : q.row.isLocal s = false) : st = .founding q remote →
      x = .storing q → l'.rows = l.rows →
      l'.held = Function.update l.held q.row.key (some (q.row.manifest s)) → QueueChange st l x l'
  | applied {id : Int} {u : DatedUpdate} {row : QueueRow} (checked : checkUpdate row u = .ok ())
      (affects : (Changeset.between row u).affectsCluster) (remote : row.isLocal s = false) :
      st = .applying id u row checked affects remote → x = .writing id u row checked →
      l'.rows = l.rows →
      l'.held = Function.update l.held row.key (some ((row.revise u).manifest s)) →
      QueueChange st l x l'
  | cleared {id : Int} {row : QueueRow} (remote : row.isLocal s = false) :
      st = .clearing id row remote → x = .dropping id row → l'.rows = l.rows →
      l'.held = Function.update l.held row.key none → QueueChange st l x l'

theorem QueueTurn.change {s : QueueSettings} {st x : QueueStage s} {l l' : QueueLedger}
    {e : QueueEvent} (ht : QueueTurn s st l e x l')
    (hvacant : ∀ name, st.vacant = some name → ∀ r ∈ l.rows.rows, r.name ≠ name)
    (hseen : ∀ id row, st.view = some (id, row) → Seen l.rows id row) :
    QueueChange st l x l' := by
  cases ht with
  | stored hins => exact .stored rfl rfl hins rfl
  | written checked hupd => exact .written rfl rfl hupd rfl
  | noted hupd => exact .written rfl rfl hupd rfl
  | dropped => exact .dropped rfl rfl rfl rfl
  | founded remote => exact .founded remote rfl rfl rfl rfl
  | applied checked affects remote => exact .applied checked affects remote rfl rfl rfl rfl
  | cleared remote => exact .cleared remote rfl rfl rfl rfl
  | rejected hins =>
    obtain ⟨-, r, hr, hname⟩ := QueueRows.insert_eq_error hins
    exact absurd hname (hvacant _ rfl r hr)
  | unwritten checked hupd =>
    refine .kept rfl rfl ?_ (fun _ hf => hf) ?_ (fun _ hf => hf)
    · rintro id hb r hr rfl
      have hid := QueueStage.id_of_busy hb rfl
      exact (QueueRows.update_eq_error hupd).2 r hr (hid.trans (hseen _ _ rfl).id_eq.symm)
    · exact QueueStage.not_busy (fun _ _ _ hf => hf) (fun _ _ hf => hf)
  | unknownLocal hlocal hfind =>
    refine .kept rfl rfl ?_ (fun _ hf => hf) ?_ ?_
    · exact QueueStage.idle (fun _ _ _ hf => hf) (fun _ _ hf => hf)
    · exact QueueStage.not_busy (fun _ _ _ hf => hf) (fun _ _ hf => hf)
    · rintro k ⟨remote, -⟩
      simp [hlocal] at remote
  | changeRow checked hget hempty hquiet =>
    refine .kept rfl rfl ?_ (fun _ hf => hf) ?_ (fun _ hf => hf)
    · exact QueueStage.idle (fun _ _ _ hf => hf) (fun _ _ hf => hf)
    · refine QueueStage.not_busy ?_ (fun _ _ hf => hf)
      rintro id row queue ⟨-, -, affects, remote, -⟩
      simp [hquiet affects] at remote
  | deleteLocal hget hlocal =>
    refine .kept rfl rfl ?_ (fun _ hf => hf) ?_ (fun _ hf => hf)
    · exact QueueStage.idle (fun _ _ _ hf => hf) (fun _ _ hf => hf)
    · refine QueueStage.not_busy (fun _ _ _ hf => hf) ?_
      rintro id row ⟨-, -, remote⟩
      simp [hlocal] at remote
  | _ =>
    refine .kept rfl rfl ?_ (fun _ hf => hf) ?_ (fun _ hf => hf)
    · exact QueueStage.idle (fun _ _ _ hf => hf) (fun _ _ hf => hf)
    · exact QueueStage.not_busy (fun _ _ _ hf => hf) (fun _ _ hf => hf)

end ClusterJobs
