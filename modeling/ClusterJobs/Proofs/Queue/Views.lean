import ClusterJobs.Proofs.Queue.Moments

/-!
# What operations may rely on

An operation that has read its row relies on it until its last call. Every turn of an interleaving
without a clash leaves the row as it was read, or the history tells which operation has deleted or
overtaken it.
-/

namespace ClusterJobs

open Program

namespace QueueMoment

variable {ι : Type} [DecidableEq ι] {s : QueueSettings} {ops : ι → QueueOp}
  {past future : List (ι × QueueEvent)} {st : ι → QueueStage s} {l l' : QueueLedger} {i j : ι}
  {e : QueueEvent} {x : QueueStage s} {id : Int} {row : QueueRow}

/-- A turn leaves a row of its queue, or writes it with a queue that was applied. -/
theorem fresh_or_applied (m : QueueMoment s ops past future st l i e x l')
    (hv : (st j).view = some (id, row)) (remote : row.isLocal s = false) {queue : GangQueue}
    (hf : l.rows.Fresh s id queue) :
    l'.rows.Fresh s id queue ∨
      ∃ row' queue', (st i).HasApplied id row' queue' ∧ queue' ≠ queue := by
  cases m.turn.rowsChange with
  | kept hrows => exact .inl (hrows ▸ hf)
  | inserted hst hins =>
    refine .inl fun r hr hid => hf r ?_ hid
    obtain ⟨-, rfl, -⟩ := QueueRows.insert_eq_ok_iff.1 hins
    rcases (QueueRows.mem_insert hins).1 hr with hr | rfl
    · exact hr
    · exact absurd hid (Int.ne_of_gt (m.orderly.seen j id row hv).given)
  | deleted hst hrows =>
    refine .inl fun r hr hid => hf r ?_ hid
    rw [hrows] at hr
    exact (QueueRows.mem_delete.1 hr).1
  | @updated row' hw hupd =>
    by_cases hid : row'.id = id
    · obtain ⟨⟨o, ho, hoid⟩, -⟩ := QueueRows.update_eq_ok_iff.1 hupd
      have hp : l.rows.Present id := ⟨o, ho, hoid.trans hid⟩
      obtain ⟨id', seen, hvi, hid', -⟩ := QueueStage.view_of_written? hw
      obtain rfl : id' = id := by
        rw [← (m.orderly.seen i id' seen hvi).id_eq, ← hid', hid]
      -- If nothing was applied, the row is written with the queue it had.
      by_cases ha : ∃ queue', (st i).HasApplied id' seen queue'
      · obtain ⟨queue', ha⟩ := ha
        by_cases hq : queue' = queue
        · refine .inl ?_
          intro r hr hrid
          rcases (QueueRows.mem_update hupd).1 hr with rfl | ⟨hr, -⟩
          · rw [← hq, ha.queue_eq hw]
          · exact hf r hr hrid
        · exact .inr ⟨seen, queue', ha, hq⟩
      · have hremote : seen.isLocal s = false := by rw [← m.isLocal_eq hp hv hvi]; exact remote
        have hfresh := m.agreeing.fresh i id' seen row' hvi hw hremote (not_exists.1 ha)
        refine .inl ?_
        intro r hr hrid
        rcases (QueueRows.mem_update hupd).1 hr with rfl | ⟨hr, -⟩
        · rw [← hfresh o ho (hoid.trans hid), hf o ho (hoid.trans hid)]
        · exact hf r hr hrid
    · refine .inl ?_
      intro r hr hrid
      rcases (QueueRows.mem_update hupd).1 hr with rfl | ⟨hr, -⟩
      · exact absurd hrid hid
      · exact hf r hr hrid

theorem fresh_after (m : QueueMoment s ops past future st l i e x l') (j : ι) (id : Int)
    (row row' : QueueRow) (hv : (Function.update st i x j).view = some (id, row))
    (hw : (Function.update st i x j).written? = some row') (remote : row.isLocal s = false)
    (hn : ∀ queue, ¬ (Function.update st i x j).HasApplied id row queue) :
    l'.rows.Fresh s id (row'.manifest s) := by
  by_cases hj : j = i
  · subst hj
    have ht := m.turn
    rw [Function.update_self] at hv hw hn
    generalize hy : st j = y at ht
    cases ht with
    | @changeRow id' u l row checked hget hempty hquiet =>
      cases hv
      cases hw
      have hunaffected : (Changeset.between row u).affectsCluster = false := by
        rw [← Bool.not_eq_true]
        intro affects
        simp [hquiet affects] at remote
      intro r hr hid
      obtain ⟨hrow, hrowid⟩ := QueueRows.mem_of_get? hget
      rw [m.orderly.sound.eq_of_id hr hrow (hid.trans hrowid.symm),
        QueueRow.manifest_update_of_unaffected hunaffected]
    | applied checked affects remote' =>
      cases hv
      exact absurd ⟨rfl, rfl, affects, remote, rfl⟩ (hn _)
    | differs remote' hstate =>
      cases hv
      cases hw
      rcases m.agreeing.inspecting j id row _ remote' hy with hf | hover
      · exact hf
      · exact (m.not_overtaken (by rw [hy]; rfl) hover rfl rfl).elim
    | _ => cases hw
  · rw [Function.update_of_ne hj] at hv hw hn
    rcases m.fresh_or_applied hv remote (m.agreeing.fresh j id row row' hv hw remote hn) with
      hf | ⟨seen, queue, ha, hne⟩
    · exact hf
    · exact absurd (m.queue_eq_of_applied hj ha hv (QueueStage.next?_of_written? hw)).symm hne

theorem inspecting_after (m : QueueMoment s ops past future st l i e x l') (j : ι) (id : Int)
    (row : QueueRow) (now : Instant) (remote : row.isLocal s = false)
    (hst : Function.update st i x j = .inspecting id row now remote) :
    l'.rows.Fresh s id (row.manifest s) ∨
      Overtaken ops (past ++ [(i, e)]) j id (row.manifest s) := by
  have hsub : ∀ p ∈ past, p ∈ past ++ [(i, e)] := fun p hp => List.mem_append_left _ hp
  by_cases hj : j = i
  · subst hj
    have ht := m.turn
    rw [Function.update_self] at hst
    rw [hst] at ht
    generalize st j = y at ht
    cases ht with
    | refreshRemote remote hget =>
      refine .inl ?_
      intro r hr hid
      obtain ⟨hrow, hrowid⟩ := QueueRows.mem_of_get? hget
      rw [m.orderly.sound.eq_of_id hr hrow (hid.trans hrowid.symm)]
  · rw [Function.update_of_ne hj] at hst
    have hv : (st j).view = some (id, row) := by rw [hst]; rfl
    rcases m.agreeing.inspecting j id row now remote hst with
      hf | ⟨k, cluster, queue', hk, htarget, hbefore, hcalls, hne⟩
    · rcases m.fresh_or_applied hv remote hf with hf | ⟨seen, queue', ha, hne⟩
      · exact .inl hf
      · obtain ⟨e₁, he₁⟩ := m.traced.begun j id row hv
        exact .inr ⟨i, seen.cluster, queue', Ne.symm hj, m.target ha.view, before_snoc he₁ i e,
          (m.traced.applied i id seen queue' ha).mono hsub, hne⟩
    · exact .inr ⟨k, cluster, queue', hk, htarget, hbefore.append _, hcalls.mono hsub, hne⟩

/-- A free place stays free, unless a creation applies its queue there. -/
theorem free_after (m : QueueMoment s ops past future st l i e x l')
    (remote : row.isLocal s = false) (hf : Free st l row.key) (hx : ¬ x.Founded row.key) :
    Free (Function.update st i x) l' row.key := by
  refine ⟨?_, ?_⟩
  · intro r hr
    rcases m.origin hr with ⟨o, ho, -, hkey⟩ | ⟨q, hst, rfl⟩
    · exact hkey ▸ hf.1 o ho
    · intro hkey
      have hkey : q.row.key = row.key := hkey
      have hq : q.row.isLocal s = false := by rw [isLocal_eq_of_key hkey]; exact remote
      exact hf.2 i (by rw [hst]; exact ⟨hq, hkey⟩)
  · intro k
    by_cases hk : k = i
    · subst hk
      rwa [Function.update_self]
    · rw [Function.update_of_ne hk]
      exact hf.2 k

/-- The place of a row that is deleted becomes free. -/
theorem free_of_dropped (m : QueueMoment s ops past future st l i e x l') (hp : l.rows.Present id)
    (hp' : ¬ l'.rows.Present id) (hv : (st j).view = some (id, row))
    (remote : row.isLocal s = false) : Free (Function.update st i x) l' row.key := by
  obtain ⟨o, ho, hid⟩ := hp
  have hokey := (m.orderly.seen j id row hv).key_eq ho hid
  have honame : o.name = row.key.2 := congrArg Prod.snd hokey
  have hremote : o.isLocal s = false := by rw [isLocal_eq_of_key hokey]; exact remote
  refine ⟨?_, ?_⟩
  · intro r hr hkey
    rcases m.origin hr with ⟨o', ho', hid', hkey'⟩ | ⟨q, hst, rfl⟩
    · have hsame := m.agreeing.apart o ho o' ho' hremote (hokey.trans (hkey'.trans hkey).symm)
      exact hp' ⟨r, hr, by rw [← hid', ← hsame, hid]⟩
    · exact m.key_ne_of_storing hst ho (hokey.trans hkey.symm)
  · intro k hk
    have hvacant := hk.vacant
    by_cases hki : k = i
    · subst hki
      rw [Function.update_self] at hvacant
      obtain ⟨hrows, hbefore | hfind⟩ := m.turn.vacant_of hvacant
      · exact m.orderly.vacant k _ hbefore o ho honame
      · exact QueueRows.find?_eq_none_iff.1 hfind o ho honame
    · rw [Function.update_of_ne hki] at hvacant
      exact m.orderly.vacant k _ hvacant o ho honame

theorem clearing_after (m : QueueMoment s ops past future st l i e x l') (j : ι) (id : Int)
    (row : QueueRow) (remote : row.isLocal s = false)
    (hst : Function.update st i x j = .clearing id row remote) :
    l'.rows.Present id ∨ Gone ops (past ++ [(i, e)]) (Function.update st i x) l' j id row := by
  have hsub : ∀ p ∈ past, p ∈ past ++ [(i, e)] := fun p hp => List.mem_append_left _ hp
  by_cases hj : j = i
  · subst hj
    have ht := m.turn
    rw [Function.update_self] at hst
    rw [hst] at ht
    generalize st j = y at ht
    cases ht with
    | deleteRemote remote hget =>
      obtain ⟨hr, hid⟩ := QueueRows.mem_of_get? hget
      exact .inl ⟨row, hr, hid⟩
  · rw [Function.update_of_ne hj] at hst
    have hv : (st j).view = some (id, row) := by rw [hst]; rfl
    obtain ⟨e₁, he₁⟩ := m.traced.begun j id row hv
    rcases m.agreeing.clearing j id row remote hst with
      hp | ⟨k, hk, htarget, hbefore, hcalls, hrest⟩
    · -- Either the row is still stored, or the turn is the deletion that takes it.
      by_cases hp' : l'.rows.Present id
      · exact .inl hp'
      · have hdrop : ∃ row', st i = .dropping id row' := by
          by_contra hno
          exact hp' (m.present_after hp (not_exists.1 hno))
        obtain ⟨row', hsti⟩ := hdrop
        have hvi : (st i).view = some (id, row') := by rw [hsti]; rfl
        have hremote : row'.isLocal s = false := by rw [← m.isLocal_eq hp hv hvi]; exact remote
        have hcalls := m.traced.cleared i id row' (by rw [hsti]; exact ⟨rfl, rfl, hremote⟩)
        have hkey := m.key_eq hp hv hvi
        have hcluster : row.cluster = row'.cluster := congrArg Prod.fst hkey
        have hname : row.name = row'.name := congrArg Prod.snd hkey
        refine .inr ⟨i, Ne.symm hj, m.target hvi, before_snoc he₁ i e, ?_,
          .inl (m.free_of_dropped hp hp' hv remote)⟩
        rw [hcluster, hname]
        exact hcalls.mono hsub
    · refine .inr ⟨k, hk, htarget, hbefore.append _, hcalls.mono hsub, ?_⟩
      rcases hrest with hfree | ⟨c, q, hop, hkey, hc⟩
      · by_cases hx : x.Founded row.key
        · obtain ⟨q, rfl, hkey⟩ := hx.storing
          have hop : ops i = .create q := by rw [← m.traced.op i, ← m.turn.op_eq]; rfl
          exact .inr ⟨i, q, hop, hkey, before_snoc he₁ i e⟩
        · exact .inl (m.free_after remote hfree hx)
      · exact .inr ⟨c, q, hop, hkey, hc.append _⟩

end QueueMoment

end ClusterJobs
