import ClusterJobs.Proofs.Queue.Agreement

/-!
# Turns without a clash

The weaker agreement that holds while operations are on their way, and a turn in an interleaving
without a clash. The calls made so far and those still to come tell which clashes the turn would
complete, and none of them happens.
-/

namespace ClusterJobs

open Program QueueManager

/-- A row of this id is stored. -/
def QueueRows.Present (rows : QueueRows) (id : Int) : Prop :=
  ∃ r ∈ rows.rows, r.id = id

/-- The row of this id, if it is stored, is one of this queue. -/
def QueueRows.Fresh (s : QueueSettings) (rows : QueueRows) (id : Int) (queue : GangQueue) : Prop :=
  ∀ r ∈ rows.rows, r.id = id → r.manifest s = queue

section Agreeing

variable {ι : Type}

/-- Since this operation read its row, another one has applied another queue. -/
def Overtaken (ops : ι → QueueOp) (h : List (ι × QueueEvent)) (i : ι) (id : Int)
    (queue : GangQueue) : Prop :=
  ∃ j cluster queue', j ≠ i ∧ (ops j).target = some id ∧ Before h i j ∧
    Calls h j (· = .apply cluster queue') ∧ queue' ≠ queue

/-- No row and no creation has this place on a cluster. -/
def Free {s : QueueSettings} (st : ι → QueueStage s) (l : QueueLedger) (k : String × String) :
    Prop :=
  (∀ r ∈ l.rows.rows, r.key ≠ k) ∧ ∀ i, ¬ (st i).Founded k

/-- Since this operation read its row, another one has deleted it, and its place on the cluster is
free or was taken by a creation. -/
def Gone {s : QueueSettings} (ops : ι → QueueOp) (h : List (ι × QueueEvent))
    (st : ι → QueueStage s) (l : QueueLedger) (i : ι) (id : Int) (row : QueueRow) : Prop :=
  ∃ j, j ≠ i ∧ (ops j).target = some id ∧ Before h i j ∧
    Calls h j (· = .delete row.cluster row.name) ∧
    (Free st l row.key ∨ ∃ k q, ops k = .create q ∧ q.row.key = row.key ∧ Before h i k)

/-- What holds of rows and clusters while operations are on their way. -/
structure Agreeing (s : QueueSettings) (ops : ι → QueueOp) (h : List (ι × QueueEvent))
    (st : ι → QueueStage s) (l : QueueLedger) : Prop where
  apart : l.rows.Apart s
  settled : ∀ r ∈ l.rows.rows, r.isLocal s = false → (∀ i, ¬ (st i).Busy r.id) →
    l.held r.key = some (r.manifest s)
  owned : ∀ k queue, l.held k = some queue →
    k.1 ≠ s.localCluster ∧ ((∃ r ∈ l.rows.rows, r.key = k) ∨ ∃ i, (st i).Founded k)
  founded : ∀ i q, st i = .storing q → q.row.isLocal s = false →
    l.held q.row.key = some (q.row.manifest s)
  applying : ∀ i id u row checked affects remote,
    st i = .applying id u row checked affects remote → l.rows.Present id
  applied : ∀ i id row queue, (st i).HasApplied id row queue →
    l.rows.Present id ∧ l.held row.key = some queue
  fresh : ∀ i id row row', (st i).view = some (id, row) → (st i).written? = some row' →
    row.isLocal s = false → (∀ queue, ¬ (st i).HasApplied id row queue) →
    l.rows.Fresh s id (row'.manifest s)
  clearing : ∀ i id row remote, st i = .clearing id row remote →
    l.rows.Present id ∨ Gone ops h st l i id row
  cleared : ∀ i id row, (st i).HasCleared id row → l.rows.Present id → l.held row.key = none
  inspecting : ∀ i id row now remote, st i = .inspecting id row now remote →
    l.rows.Fresh s id (row.manifest s) ∨ Overtaken ops h i id (row.manifest s)

/-- A turn in an interleaving without a clash: what was before, and what is still to come. -/
structure QueueMoment [DecidableEq ι] (s : QueueSettings) (ops : ι → QueueOp)
    (past future : List (ι × QueueEvent)) (st : ι → QueueStage s) (l : QueueLedger) (i : ι)
    (e : QueueEvent) (x : QueueStage s) (l' : QueueLedger) : Prop where
  turn : QueueTurn s (st i) l e x l'
  orderly : Orderly st l
  traced : Traced ops past st
  agreeing : Agreeing s ops past st l
  later : ∀ j c, (Function.update st i x j).next? = some c → ∃ e', (j, e') ∈ future ∧ e'.call = c
  clean : ¬ Clash s ops (past ++ (i, e) :: future)

namespace QueueMoment

variable [DecidableEq ι] {s : QueueSettings} {ops : ι → QueueOp}
  {past future : List (ι × QueueEvent)} {st : ι → QueueStage s} {l l' : QueueLedger} {i j : ι}
  {e : QueueEvent} {x : QueueStage s} {id : Int} {row : QueueRow}

theorem change (m : QueueMoment s ops past future st l i e x l') : QueueChange (st i) l x l' :=
  m.turn.change (m.orderly.vacant i) (m.orderly.seen i)

/-! ## Calls of the whole history -/

theorem callsPast (_ : QueueMoment s ops past future st l i e x l') {kind : QueueCall → Prop}
    (hc : Calls past j kind) : Calls (past ++ (i, e) :: future) j kind :=
  hc.mono fun _ hp => List.mem_append_left _ hp

theorem callsNow (m : QueueMoment s ops past future st l i e x l') {kind : QueueCall → Prop}
    {c : QueueCall} (hc : (st i).next? = some c) (hk : kind c) :
    Calls (past ++ (i, e) :: future) i kind := by
  have hcall := m.turn.next?_eq
  rw [hc] at hcall
  exact ⟨e, by simp, Option.some.inj hcall ▸ hk⟩

theorem callsLater (m : QueueMoment s ops past future st l i e x l') {kind : QueueCall → Prop}
    {c : QueueCall} (hc : (Function.update st i x j).next? = some c) (hk : kind c) :
    Calls (past ++ (i, e) :: future) j kind := by
  obtain ⟨e', he', hcall⟩ := m.later j c hc
  exact ⟨e', by simp [he'], hcall ▸ hk⟩

/-- An operation that has read its row overlaps with the one whose turn it is. -/
theorem overlap (m : QueueMoment s ops past future st l i e x l') (hj : j ≠ i)
    (hv : (st j).view = some (id, row)) : Overlap (past ++ (i, e) :: future) j i := by
  obtain ⟨e₁, he₁⟩ := m.traced.begun j id row hv
  obtain ⟨c, hc⟩ := QueueStage.next?_of_view hv
  obtain ⟨e₃, he₃, -⟩ := m.later j c (by rw [Function.update_of_ne hj]; exact hc)
  have hcross := (before_snoc he₁ i e).crosses he₃
  rw [List.append_assoc] at hcross
  exact .inl hcross

theorem target (m : QueueMoment s ops past future st l i e x l')
    (hv : (st j).view = some (id, row)) : (ops j).target = some id := by
  rw [← m.traced.op j]
  exact QueueStage.target_of_view hv

/-! ## Rows that operations know -/

/-- No stored row is at the place of a new one whose name was looked up and is vacant. -/
theorem key_ne_of_vacant (m : QueueMoment s ops past future st l i e x l') {q : DatedQueue}
    (hv : (st j).vacant = some q.trimmed) {r : QueueRow} (hr : r ∈ l.rows.rows) :
    r.key ≠ q.row.key := by
  intro hkey
  exact m.orderly.vacant j q.trimmed hv r hr (congrArg Prod.snd hkey)

/-- Stored rows that are read under two ids are at different places on clusters. -/
theorem id_eq_of_key (m : QueueMoment s ops past future st l i e x l') {k : ι} {id' : Int}
    {row' : QueueRow} (hv : (st j).view = some (id, row)) (hp : l.rows.Present id)
    (hv' : (st k).view = some (id', row')) (hp' : l.rows.Present id')
    (remote : row.isLocal s = false) (hkey : row.key = row'.key) : id = id' := by
  obtain ⟨r, hr, hid⟩ := hp
  obtain ⟨r', hr', hid'⟩ := hp'
  have hs := m.orderly.seen j id row hv
  have hs' := m.orderly.seen k id' row' hv'
  have hsame := m.agreeing.apart r hr r' hr' (by rw [hs.isLocal_eq hr hid]; exact remote)
    (by rw [hs.key_eq hr hid, hs'.key_eq hr' hid']; exact hkey)
  rw [← hid, ← hid', hsame]

/-- Two operations that have read a stored row agree on whether it is local. -/
theorem isLocal_eq (m : QueueMoment s ops past future st l i e x l') {k : ι} {row' : QueueRow}
    (hp : l.rows.Present id) (hv : (st j).view = some (id, row))
    (hv' : (st k).view = some (id, row')) : row.isLocal s = row'.isLocal s := by
  obtain ⟨r, hr, hid⟩ := hp
  rw [← (m.orderly.seen j id row hv).isLocal_eq hr hid,
    ← (m.orderly.seen k id row' hv').isLocal_eq hr hid]

theorem key_eq (m : QueueMoment s ops past future st l i e x l') {k : ι} {row' : QueueRow}
    (hp : l.rows.Present id) (hv : (st j).view = some (id, row))
    (hv' : (st k).view = some (id, row')) : row.key = row'.key := by
  obtain ⟨r, hr, hid⟩ := hp
  rw [← (m.orderly.seen j id row hv).key_eq hr hid, ← (m.orderly.seen k id row' hv').key_eq hr hid]

/-- A row that is about to be written is at the place of the stored one. -/
theorem key_eq_of_written? (m : QueueMoment s ops past future st l i e x l') {r : QueueRow}
    (hw : (st i).written? = some row) (hr : r ∈ l.rows.rows) (hid : r.id = row.id) :
    r.key = row.key := by
  obtain ⟨hname, hcluster⟩ := QueueStage.same_of_written? hw (m.orderly.seen i) r hr hid
  simp [QueueRow.key, hname, hcluster]

/-! ## Clashes that do not happen -/

/-- No row is deleted while another operation applies its queue. -/
theorem not_dropping (m : QueueMoment s ops past future st l i e x l') (hj : j ≠ i)
    {row' : QueueRow} (hst : st i = .dropping id row') (hp : l.rows.Present id)
    (hv : (st j).view = some (id, row)) (remote : row.isLocal s = false)
    (hc : Calls (past ++ (i, e) :: future) j fun c => ∃ cluster queue, c = .apply cluster queue) :
    False := by
  have hvi : (st i).view = some (id, row') := by rw [hst]; rfl
  have hremote : row'.isLocal s = false := by rw [← m.isLocal_eq hp hv hvi]; exact remote
  have hcleared : (st i).HasCleared id row' := by
    rw [hst]
    exact ⟨rfl, rfl, hremote⟩
  have hd := m.callsPast (m.traced.cleared i id row' hcleared)
  refine m.clean (.applyDelete hj (m.target hv) (m.target hvi) (m.overlap hj hv) hc ?_)
  obtain ⟨e', he', hcall⟩ := hd
  exact ⟨e', he', _, _, hcall⟩

/-- No row is written with another queue while an operation that applied one is to write it. -/
theorem queue_eq_of_applied (m : QueueMoment s ops past future st l i e x l') (hj : j ≠ i)
    {row' row'' : QueueRow} {queue : GangQueue} (ha : (st i).HasApplied id row' queue)
    (hv : (st j).view = some (id, row)) (hn : (st j).next? = some (.updateRow row'')) :
    row''.manifest s = queue := by
  by_contra hne
  refine m.clean (.applyWrite hj.symm (m.target ha.view) (m.target hv) (m.overlap hj hv).symm
    (m.callsPast (m.traced.applied i id row' queue ha)) ?_ hne)
  exact m.callsLater (by rw [Function.update_of_ne hj]; exact hn) rfl

/-- No queue is applied for a row that another operation writes with another queue. -/
theorem queue_eq_of_applying (m : QueueMoment s ops past future st l i e x l') (hj : j ≠ i)
    {row' row'' : QueueRow} {cluster : String} {queue : GangQueue}
    (hvi : (st i).view = some (id, row')) (hi : (st i).next? = some (.apply cluster queue))
    (hv : (st j).view = some (id, row)) (hn : (st j).next? = some (.updateRow row'')) :
    row''.manifest s = queue := by
  by_contra hne
  refine m.clean (.applyWrite hj.symm (m.target hvi) (m.target hv) (m.overlap hj hv).symm
    (m.callsNow hi rfl) ?_ hne)
  exact m.callsLater (by rw [Function.update_of_ne hj]; exact hn) rfl

/-- No queue is applied for a row whose queue another operation has deleted. -/
theorem not_cleared (m : QueueMoment s ops past future st l i e x l') (hj : j ≠ i)
    {row' : QueueRow} {cluster : String} {queue : GangQueue}
    (hvi : (st i).view = some (id, row')) (hi : (st i).next? = some (.apply cluster queue))
    (hc : (st j).HasCleared id row) : False := by
  have hd := m.callsPast (m.traced.cleared j id row hc)
  refine m.clean (.applyDelete hj.symm (m.target hvi) (m.target hc.view)
    (m.overlap hj hc.view).symm (m.callsNow hi ⟨_, _, rfl⟩) ?_)
  obtain ⟨e', he', hcall⟩ := hd
  exact ⟨e', he', _, _, hcall⟩

/-- No queue is deleted for a row whose queue another operation has applied. -/
theorem not_clearing (m : QueueMoment s ops past future st l i e x l') (hj : j ≠ i)
    {row' : QueueRow} {queue : GangQueue} {cluster name : String}
    (hvi : (st i).view = some (id, row')) (hi : (st i).next? = some (.delete cluster name))
    (ha : (st j).HasApplied id row queue) : False := by
  have hc := m.callsPast (m.traced.applied j id row queue ha)
  refine m.clean (.applyDelete hj (m.target ha.view) (m.target hvi) (m.overlap hj ha.view) ?_
    (m.callsNow hi ⟨_, _, rfl⟩))
  obtain ⟨e', he', hcall⟩ := hc
  exact ⟨e', he', _, _, hcall⟩

/-- No row that was overtaken is written. -/
theorem not_overtaken (m : QueueMoment s ops past future st l i e x l') {row' : QueueRow}
    {queue : GangQueue} (hv : (st i).view = some (id, row)) (ho : Overtaken ops past i id queue)
    (hx : x.next? = some (.updateRow row')) (hq : row'.manifest s = queue) : False := by
  obtain ⟨j, cluster, queue', hj, htarget, hbefore, hcalls, hne⟩ := ho
  have hmem : (i, e) ∈ (i, e) :: future := by simp
  refine m.clean (.applyWrite hj htarget (m.target hv) (.inr (hbefore.crosses hmem))
    (m.callsPast hcalls) ?_ (hq ▸ hne.symm))
  exact m.callsLater (by rw [Function.update_self]; exact hx) rfl

/-- A queue that is about to be deleted is that of a stored row, or there is none. -/
theorem present_or_free (m : QueueMoment s ops past future st l i e x l')
    {remote : row.isLocal s = false} (hst : st i = .clearing id row remote) :
    l.rows.Present id ∨ Free st l row.key := by
  rcases m.agreeing.clearing i id row remote hst with hp | ⟨j, hj, htarget, hbefore, hcalls, hrest⟩
  · exact .inl hp
  · rcases hrest with hfree | ⟨k, q, hop, hkey, hk⟩
    · exact .inr hfree
    · have hcluster : q.cluster = row.cluster := congrArg Prod.fst hkey
      have hname : q.trimmed = row.name := congrArg Prod.snd hkey
      have hv : (st i).view = some (id, row) := by rw [hst]; rfl
      have hn : (st i).next? = some (.delete row.cluster row.name) := by rw [hst]; rfl
      have hmem : (i, e) ∈ (i, e) :: future := by simp
      refine absurd (.deleteDelete hj.symm (m.target hv) htarget (.inl (hbefore.crosses hmem))
        (q := q) ?_ ?_ hop (hk.crosses hmem)) m.clean
      · rw [hcluster, hname]
        exact m.callsNow hn rfl
      · rw [hcluster, hname]
        exact m.callsPast hcalls

/-! ## Rows after a turn -/

theorem present_after (m : QueueMoment s ops past future st l i e x l')
    (hp : l.rows.Present id) (hd : ∀ row', st i ≠ .dropping id row') : l'.rows.Present id := by
  obtain ⟨r, hr, rfl⟩ := hp
  cases m.turn.rowsChange with
  | kept hk => exact ⟨r, hk ▸ hr, rfl⟩
  | inserted _ hins =>
    exact ⟨r, (QueueRows.mem_insert hins).2 (.inl hr), rfl⟩
  | @updated row' _ hupd =>
    by_cases hid : r.id = row'.id
    · exact ⟨row', (QueueRows.mem_update hupd).2 (.inl rfl), hid.symm⟩
    · exact ⟨r, (QueueRows.mem_update hupd).2 (.inr ⟨hr, hid⟩), rfl⟩
  | @deleted id' row' hst hrows =>
    have hid : r.id ≠ id' := by
      rintro rfl
      exact hd row' hst
    exact ⟨r, hrows ▸ QueueRows.mem_delete.2 ⟨hr, hid⟩, rfl⟩

/-- A row under an id that was read was stored before. -/
theorem present_before (m : QueueMoment s ops past future st l i e x l')
    (hv : (st j).view = some (id, row)) (hp : l'.rows.Present id) : l.rows.Present id := by
  obtain ⟨r, hr, hid⟩ := hp
  have hs := m.orderly.seen j id row hv
  cases m.turn.rowsChange with
  | kept hk => exact ⟨r, hk ▸ hr, hid⟩
  | inserted _ hins =>
    obtain ⟨-, rfl, -⟩ := QueueRows.insert_eq_ok_iff.1 hins
    rcases (QueueRows.mem_insert hins).1 hr with hr | rfl
    · exact ⟨r, hr, hid⟩
    · exact absurd hid (Int.ne_of_gt hs.given)
  | updated _ hupd =>
    rcases (QueueRows.mem_update hupd).1 hr with rfl | ⟨hr, -⟩
    · obtain ⟨⟨o, ho, hoid⟩, -⟩ := QueueRows.update_eq_ok_iff.1 hupd
      exact ⟨o, ho, hoid.trans hid⟩
    · exact ⟨r, hr, hid⟩
  | deleted _ hrows =>
    rw [hrows] at hr
    exact ⟨r, (QueueRows.mem_delete.1 hr).1, hid⟩

/-- A row after a turn has the place of one before, or is that of a creation. -/
theorem origin (m : QueueMoment s ops past future st l i e x l') {r : QueueRow}
    (hr : r ∈ l'.rows.rows) :
    (∃ o ∈ l.rows.rows, o.id = r.id ∧ o.key = r.key) ∨
      ∃ q, st i = .storing q ∧ r = { q.row with id := l.rows.nextId } := by
  cases m.turn.rowsChange with
  | kept hrows => exact .inl ⟨r, hrows ▸ hr, rfl, rfl⟩
  | inserted hst hins =>
    obtain ⟨-, rfl, -⟩ := QueueRows.insert_eq_ok_iff.1 hins
    rcases (QueueRows.mem_insert hins).1 hr with hr | rfl
    · exact .inl ⟨r, hr, rfl, rfl⟩
    · exact .inr ⟨_, hst, rfl⟩
  | updated hw hupd =>
    rcases (QueueRows.mem_update hupd).1 hr with rfl | ⟨hr, -⟩
    · obtain ⟨⟨o, ho, hoid⟩, -⟩ := QueueRows.update_eq_ok_iff.1 hupd
      exact .inl ⟨o, ho, hoid, m.key_eq_of_written? hw ho hoid⟩
    · exact .inl ⟨r, hr, rfl, rfl⟩
  | deleted hst hrows =>
    rw [hrows] at hr
    exact .inl ⟨r, (QueueRows.mem_delete.1 hr).1, rfl, rfl⟩

/-- The name of a creation that stores its row is that of no row. -/
theorem key_ne_of_storing (m : QueueMoment s ops past future st l i e x l') {q : DatedQueue}
    (hst : st i = .storing q) {r : QueueRow} (hr : r ∈ l.rows.rows) : r.key ≠ q.row.key :=
  m.key_ne_of_vacant (by rw [hst]; rfl) hr

theorem apart_after (m : QueueMoment s ops past future st l i e x l') : l'.rows.Apart s := by
  intro r hr r' hr' remote hkey
  refine (m.turn.rowsChange.sound m.orderly.sound).eq_of_id hr hr' ?_
  rcases m.origin hr with ⟨o, ho, hid, hokey⟩ | ⟨q, hst, rfl⟩
  · rcases m.origin hr' with ⟨o', ho', hid', hokey'⟩ | ⟨q, hst, rfl⟩
    · have hremote : o.isLocal s = false := by rw [isLocal_eq_of_key hokey]; exact remote
      have hsame := m.agreeing.apart o ho o' ho' hremote (hokey.trans (hkey.trans hokey'.symm))
      rw [← hid, ← hid', hsame]
    · exact absurd (hokey.trans hkey) (m.key_ne_of_storing hst ho)
  · rcases m.origin hr' with ⟨o', ho', hid', hokey'⟩ | ⟨q', hst', rfl⟩
    · exact absurd (hokey'.trans hkey.symm) (m.key_ne_of_storing hst ho')
    · rfl

theorem applying_after (m : QueueMoment s ops past future st l i e x l') (j : ι) (id : Int)
    (u : DatedUpdate) (row : QueueRow) (checked : checkUpdate row u = .ok ())
    (affects : (Changeset.between row u).affectsCluster) (remote : row.isLocal s = false)
    (hst : Function.update st i x j = .applying id u row checked affects remote) :
    l'.rows.Present id := by
  by_cases hj : j = i
  · subst hj
    have ht := m.turn
    rw [Function.update_self] at hst
    rw [hst] at ht
    generalize st j = y at ht
    cases ht with
    | changeRemote checked affects remote hget =>
      obtain ⟨hr, hid⟩ := QueueRows.mem_of_get? hget
      exact ⟨row, hr, hid⟩
  · rw [Function.update_of_ne hj] at hst
    have hp := m.agreeing.applying j id u row checked affects remote hst
    have hv : (st j).view = some (id, row) := by rw [hst]; rfl
    refine m.present_after hp ?_
    intro row' hi
    have hn : (Function.update st i x j).next? =
        some (.apply row.cluster ((row.revise u).manifest s)) := by
      rw [Function.update_of_ne hj, hst]
      rfl
    exact m.not_dropping hj hi hp hv remote (m.callsLater hn ⟨_, _, rfl⟩)

end QueueMoment

end Agreeing

end ClusterJobs
