import ClusterJobs.Proofs.Queue.Moments

/-!
# What clusters hold

Every turn of an interleaving without a clash leaves on the clusters what the operations on their
way have put there, and the queues of all other rows.
-/

namespace ClusterJobs

namespace QueueMoment

variable {ι : Type} [DecidableEq ι] {s : QueueSettings} {ops : ι → QueueOp}
  {past future : List (ι × QueueEvent)} {st : ι → QueueStage s} {l l' : QueueLedger} {i j : ι}
  {e : QueueEvent} {x : QueueStage s} {id : Int} {row : QueueRow}

/-- A queue that another operation has applied for its row stays on the cluster. -/
theorem held_of_applied (m : QueueMoment s ops past future st l i e x l') (hj : j ≠ i)
    {queue : GangQueue} (ha : (st j).HasApplied id row queue) : l'.held row.key = some queue := by
  obtain ⟨hp, hheld⟩ := m.agreeing.applied j id row queue ha
  obtain ⟨row'', hn, hqueue⟩ := ha.next?_eq
  cases m.change with
  | kept hrows hkept => rw [hkept, hheld]
  | stored hst hx hins hkept => rw [hkept, hheld]
  | written hst hx hupd hkept => rw [hkept, hheld]
  | dropped hst hx hrows hkept => rw [hkept, hheld]
  | founded remote hst hx hrows hnew =>
    obtain ⟨r, hr, hid⟩ := hp
    have hkey := (m.orderly.seen j id row ha.view).key_eq hr hid
    have hne := m.key_ne_of_vacant (j := i) (by rw [hst]; rfl) hr
    rw [hnew, Function.update_of_ne (hkey ▸ hne), hheld]
  | @applied id' u row' checked affects remote hst hx hrows hnew =>
    rw [hnew]
    by_cases hkey : row.key = row'.key
    · -- The row is the same, and without a clash both operations apply the same queue.
      have hvi : (st i).view = some (id', row') := by rw [hst]; rfl
      have hpi := m.agreeing.applying i id' u row' checked affects remote hst
      obtain rfl := m.id_eq_of_key ha.view hp hvi hpi ha.isLocal_eq hkey
      have hsame := m.queue_eq_of_applying hj hvi (by rw [hst]; rfl) ha.view hn
      rw [hkey, Function.update_self, ← hsame, hqueue]
    · rw [Function.update_of_ne hkey, hheld]
  | @cleared id' row' remote hst hx hrows hnew =>
    have hne : row.key ≠ row'.key := by
      intro hkey
      have hvi : (st i).view = some (id', row') := by rw [hst]; rfl
      rcases m.present_or_free hst with hpi | hfree
      · obtain rfl := m.id_eq_of_key ha.view hp hvi hpi ha.isLocal_eq hkey
        exact m.not_clearing hj hvi (by rw [hst]; rfl) ha
      · obtain ⟨r, hr, hid⟩ := hp
        exact hfree.1 r hr (((m.orderly.seen j id row ha.view).key_eq hr hid).trans hkey)
    rw [hnew, Function.update_of_ne hne, hheld]

theorem applied_after (m : QueueMoment s ops past future st l i e x l') (j : ι) (id : Int)
    (row : QueueRow) (queue : GangQueue)
    (ha : (Function.update st i x j).HasApplied id row queue) :
    l'.rows.Present id ∧ l'.held row.key = some queue := by
  by_cases hj : j = i
  · subst hj
    rw [Function.update_self] at ha
    cases m.change with
    | kept hrows hheld hidle hfounded hbusy hnew => exact absurd (.inl ⟨row, queue, ha⟩) (hbusy id)
    | applied checked affects remote hst hx hrows hheld =>
      subst hx
      obtain ⟨rfl, rfl, -, -, rfl⟩ := ha
      have hp := m.agreeing.applying j _ _ _ checked affects remote hst
      exact ⟨hrows ▸ hp, by rw [hheld, Function.update_self]⟩
    | stored hst hx | written hst hx | dropped hst hx | founded remote hst hx
    | cleared remote hst hx =>
      subst hx
      cases ha
  · rw [Function.update_of_ne hj] at ha
    have hp := (m.agreeing.applied j id row queue ha).1
    refine ⟨m.present_after hp ?_, m.held_of_applied hj ha⟩
    intro row' hi
    obtain ⟨e', he', hcall⟩ := m.callsPast (m.traced.applied j id row queue ha)
    exact m.not_dropping hj hi hp ha.view ha.isLocal_eq ⟨e', he', _, _, hcall⟩

theorem founded_after (m : QueueMoment s ops past future st l i e x l') (j : ι) (q : DatedQueue)
    (hst : Function.update st i x j = .storing q) (remote : q.row.isLocal s = false) :
    l'.held q.row.key = some (q.row.manifest s) := by
  by_cases hj : j = i
  · subst hj
    rw [Function.update_self] at hst
    cases m.change with
    | kept hrows hheld hidle hfounded hbusy hnew =>
      exact absurd ⟨remote, rfl⟩ (hst ▸ hnew q.row.key)
    | founded remote' hst' hx hrows hheld =>
      rw [hx] at hst
      obtain rfl := QueueStage.storing.inj hst
      rw [hheld, Function.update_self]
    | stored hst' hx | written hst' hx | dropped hst' hx
    | applied checked affects remote' hst' hx | cleared remote' hst' hx =>
      rw [hx] at hst
      cases hst
  · rw [Function.update_of_ne hj] at hst
    have hheld := m.agreeing.founded j q hst remote
    have hvacant : (st j).vacant = some q.trimmed := by rw [hst]; rfl
    cases m.change with
    | kept hrows hkept => rw [hkept, hheld]
    | stored hst hx hins hkept => rw [hkept, hheld]
    | written hst hx hupd hkept => rw [hkept, hheld]
    | dropped hst hx hrows hkept => rw [hkept, hheld]
    | @founded q' remote' hst' hx hrows hnew =>
      have hne : q.row.key ≠ q'.row.key := by
        intro hkey
        have hname : q.trimmed = q'.trimmed := congrArg Prod.snd hkey
        have hvi : (st i).vacant = some q.trimmed := by rw [hst', hname]; rfl
        exact hj (m.orderly.reservations.apart j i q.trimmed
          (QueueStage.reserves_of_vacant hvacant) (QueueStage.reserves_of_vacant hvi))
      rw [hnew, Function.update_of_ne hne, hheld]
    | @applied id u row checked affects remote' hst' hx hrows hnew =>
      obtain ⟨r, hr, hid⟩ := m.agreeing.applying i id u row checked affects remote' hst'
      have hvi : (st i).view = some (id, row) := by rw [hst']; rfl
      have hkey := (m.orderly.seen i id row hvi).key_eq hr hid
      have hne := m.key_ne_of_vacant hvacant hr
      rw [hnew, Function.update_of_ne (hkey ▸ hne.symm), hheld]
    | @cleared id row remote' hst' hx hrows hnew =>
      have hvi : (st i).view = some (id, row) := by rw [hst']; rfl
      have hne : q.row.key ≠ row.key := by
        rcases m.present_or_free hst' with ⟨r, hr, hid⟩ | hfree
        · rw [← (m.orderly.seen i id row hvi).key_eq hr hid]
          exact (m.key_ne_of_vacant hvacant hr).symm
        · intro hkey
          exact hfree.2 j (by rw [hst]; exact ⟨remote, hkey⟩)
      rw [hnew, Function.update_of_ne hne, hheld]

theorem cleared_after (m : QueueMoment s ops past future st l i e x l') (j : ι) (id : Int)
    (row : QueueRow) (hc : (Function.update st i x j).HasCleared id row)
    (hp : l'.rows.Present id) : l'.held row.key = none := by
  by_cases hj : j = i
  · subst hj
    rw [Function.update_self] at hc
    cases m.change with
    | kept hrows hheld hidle hfounded hbusy hnew => exact absurd (.inr ⟨row, hc⟩) (hbusy id)
    | cleared remote hst hx hrows hheld =>
      subst hx
      obtain ⟨rfl, rfl, -⟩ := hc
      rw [hheld, Function.update_self]
    | stored hst hx | written hst hx | dropped hst hx | founded remote hst hx
    | applied checked affects remote hst hx =>
      subst hx
      cases hc
  · rw [Function.update_of_ne hj] at hc
    have hp := m.present_before hc.view hp
    have hheld := m.agreeing.cleared j id row hc hp
    cases m.change with
    | kept hrows hkept => rw [hkept, hheld]
    | stored hst hx hins hkept => rw [hkept, hheld]
    | written hst hx hupd hkept => rw [hkept, hheld]
    | dropped hst hx hrows hkept => rw [hkept, hheld]
    | founded remote hst hx hrows hnew =>
      obtain ⟨r, hr, hid⟩ := hp
      have hkey := (m.orderly.seen j id row hc.view).key_eq hr hid
      have hne := m.key_ne_of_vacant (j := i) (by rw [hst]; rfl) hr
      rw [hnew, Function.update_of_ne (hkey ▸ hne), hheld]
    | @applied id' u row' checked affects remote hst hx hrows hnew =>
      have hne : row.key ≠ row'.key := by
        intro hkey
        have hvi : (st i).view = some (id', row') := by rw [hst]; rfl
        have hpi := m.agreeing.applying i id' u row' checked affects remote hst
        obtain rfl := m.id_eq_of_key hc.view hp hvi hpi hc.isLocal_eq hkey
        exact m.not_cleared hj hvi (by rw [hst]; rfl) hc
      rw [hnew, Function.update_of_ne hne, hheld]
    | cleared remote hst hx hrows hnew =>
      rw [hnew, Function.update_apply]
      split
      · rfl
      · exact hheld

/-- A queue that is still held is owned as before, unless its row or its creation has changed. -/
theorem owned_of (m : QueueMoment s ops past future st l i e x l') {k : String × String}
    {queue : GangQueue} (hheld : l.held k = some queue)
    (hrows : ∀ r ∈ l.rows.rows, r.key = k → ∃ r' ∈ l'.rows.rows, r'.key = k)
    (hi : (st i).Founded k → (∃ r' ∈ l'.rows.rows, r'.key = k) ∨ x.Founded k) :
    k.1 ≠ s.localCluster ∧
      ((∃ r ∈ l'.rows.rows, r.key = k) ∨ ∃ j, (Function.update st i x j).Founded k) := by
  obtain ⟨hk, ⟨r, hr, hkey⟩ | ⟨j, hj⟩⟩ := m.agreeing.owned k queue hheld
  · exact ⟨hk, .inl (hrows r hr hkey)⟩
  · refine ⟨hk, ?_⟩
    by_cases hji : j = i
    · subst hji
      rcases hi hj with hr | hx
      · exact .inl hr
      · exact .inr ⟨j, by rwa [Function.update_self]⟩
    · exact .inr ⟨j, by rwa [Function.update_of_ne hji]⟩

theorem owned_after (m : QueueMoment s ops past future st l i e x l') (k : String × String)
    (queue : GangQueue) (hheld : l'.held k = some queue) :
    k.1 ≠ s.localCluster ∧
      ((∃ r ∈ l'.rows.rows, r.key = k) ∨ ∃ j, (Function.update st i x j).Founded k) := by
  cases m.change with
  | kept hrows hkept hidle hfounded hbusy hnew =>
    refine m.owned_of (hkept ▸ hheld) ?_ (fun hf => absurd hf (hfounded k))
    exact fun r hr hkey => ⟨r, hrows ▸ hr, hkey⟩
  | @stored q row hst hx hins hkept =>
    obtain ⟨-, rfl, -⟩ := QueueRows.insert_eq_ok_iff.1 hins
    refine m.owned_of (hkept ▸ hheld) ?_ ?_
    · exact fun r hr hkey => ⟨r, (QueueRows.mem_insert hins).2 (.inl hr), hkey⟩
    · intro hf
      rw [hst] at hf
      exact .inl ⟨_, (QueueRows.mem_insert hins).2 (.inr rfl), hf.2⟩
  | @written row' op res hw hx hupd hkept =>
    refine m.owned_of (hkept ▸ hheld) ?_ ?_
    · intro r hr hkey
      by_cases hrid : r.id = row'.id
      · exact ⟨row', (QueueRows.mem_update hupd).2 (.inl rfl),
          (m.key_eq_of_written? hw hr hrid).symm.trans hkey⟩
      · exact ⟨r, (QueueRows.mem_update hupd).2 (.inr ⟨hr, hrid⟩), hkey⟩
    · intro hf
      obtain ⟨q, hst, -⟩ := hf.storing
      rw [hst] at hw
      cases hw
  | @dropped id row op res hst hx hrows hkept =>
    have hold : l.held k = some queue := hkept ▸ hheld
    have hv : (st i).view = some (id, row) := by rw [hst]; rfl
    refine m.owned_of hold ?_ (fun hf => by rw [hst] at hf; exact hf.elim)
    intro r hr hkey
    by_cases hrid : r.id = id
    · have hrkey := (m.orderly.seen i id row hv).key_eq hr hrid
      have hcluster : row.cluster = k.1 := congrArg Prod.fst (hrkey.symm.trans hkey)
      have remote : row.isLocal s = false := by
        rw [isLocal_eq_false_iff, hcluster]
        exact (m.agreeing.owned k queue hold).1
      have hnone := m.agreeing.cleared i id row (by rw [hst]; exact ⟨rfl, rfl, remote⟩)
        ⟨r, hr, hrid⟩
      rw [← hrkey, hkey, hold] at hnone
      cases hnone
    · exact ⟨r, hrows ▸ QueueRows.mem_delete.2 ⟨hr, hrid⟩, hkey⟩
  | @founded q remote hst hx hrows hnew =>
    by_cases hk : k = q.row.key
    · subst hk
      refine ⟨isLocal_eq_false_iff.1 remote, .inr ⟨i, ?_⟩⟩
      rw [Function.update_self, hx]
      exact ⟨remote, rfl⟩
    · rw [hnew, Function.update_of_ne hk] at hheld
      refine m.owned_of hheld (fun r hr hkey => ⟨r, hrows ▸ hr, hkey⟩) ?_
      exact fun hf => by rw [hst] at hf; exact hf.elim
  | @applied id u row checked affects remote hst hx hrows hnew =>
    by_cases hk : k = row.key
    · subst hk
      obtain ⟨r, hr, hid⟩ := m.agreeing.applying i id u row checked affects remote hst
      have hv : (st i).view = some (id, row) := by rw [hst]; rfl
      have hkey := (m.orderly.seen i id row hv).key_eq hr hid
      exact ⟨isLocal_eq_false_iff.1 remote, .inl ⟨r, hrows ▸ hr, hkey⟩⟩
    · rw [hnew, Function.update_of_ne hk] at hheld
      refine m.owned_of hheld (fun r hr hkey => ⟨r, hrows ▸ hr, hkey⟩) ?_
      exact fun hf => by rw [hst] at hf; exact hf.elim
  | cleared remote hst hx hrows hnew =>
    rw [hnew, Function.update_apply] at hheld
    split at hheld
    · cases hheld
    · refine m.owned_of hheld (fun r hr hkey => ⟨r, hrows ▸ hr, hkey⟩) ?_
      exact fun hf => by rw [hst] at hf; exact hf.elim

/-- A row that no operation is about has its queue. -/
theorem settled_of (m : QueueMoment s ops past future st l i e x l') {r : QueueRow}
    (hr : r ∈ l.rows.rows) (remote : r.isLocal s = false)
    (hidle : ∀ j, ¬ (Function.update st i x j).Busy r.id) (hi : ¬ (st i).Busy r.id) :
    l.held r.key = some (r.manifest s) := by
  refine m.agreeing.settled r hr remote ?_
  intro j
  by_cases hj : j = i
  · exact hj ▸ hi
  · have hjb := hidle j
    rwa [Function.update_of_ne hj] at hjb

/-- So has a row that is about to be written, if no other operation is about it. -/
theorem settled_of_written (m : QueueMoment s ops past future st l i e x l') {r o : QueueRow}
    (hw : (st i).written? = some r) (ho : o ∈ l.rows.rows) (hoid : o.id = r.id)
    (remote : r.isLocal s = false) (hidle : ∀ j, ¬ (Function.update st i x j).Busy r.id) :
    l.held r.key = some (r.manifest s) := by
  obtain ⟨id, seen, hv, hid, -⟩ := QueueStage.view_of_written? hw
  have hs := m.orderly.seen i id seen hv
  have hoseen : o.id = id := hoid.trans (hid.trans hs.id_eq)
  have hkey := m.key_eq_of_written? hw ho hoid
  by_cases ha : ∃ queue, (st i).HasApplied id seen queue
  · obtain ⟨queue, ha⟩ := ha
    rw [← hkey, hs.key_eq ho hoseen, (m.agreeing.applied i id seen queue ha).2, ha.queue_eq hw]
  · -- Nothing was applied, so the queue of the row is that of the row it replaces.
    have hremote : o.isLocal s = false := by rw [isLocal_eq_of_key hkey]; exact remote
    have hseen : seen.isLocal s = false := by rw [← hs.isLocal_eq ho hoseen]; exact hremote
    have hfresh := m.agreeing.fresh i id seen r hv hw hseen (not_exists.1 ha) o ho hoseen
    rw [← hkey, ← hfresh]
    refine m.settled_of ho hremote (by rwa [hoid]) ?_
    rintro (⟨seen', queue, ha'⟩ | ⟨seen', hc⟩)
    · have hv' := ha'.view
      rw [hv] at hv'
      cases hv'
      exact ha ⟨queue, ha'⟩
    · exact hc.not_written? hw

theorem settled_after (m : QueueMoment s ops past future st l i e x l') (r : QueueRow)
    (hr : r ∈ l'.rows.rows) (remote : r.isLocal s = false)
    (hidle : ∀ j, ¬ (Function.update st i x j).Busy r.id) :
    l'.held r.key = some (r.manifest s) := by
  have hxidle : ¬ x.Busy r.id := by
    have hib := hidle i
    rwa [Function.update_self] at hib
  cases m.change with
  | kept hrows hkept hold hfounded hbusy hnew =>
    rw [hrows] at hr
    rw [hkept]
    exact m.settled_of hr remote hidle fun hb => hold r.id hb r hr rfl
  | @stored q row hst hx hins hkept =>
    obtain ⟨-, rfl, -⟩ := QueueRows.insert_eq_ok_iff.1 hins
    rw [hkept]
    rcases (QueueRows.mem_insert hins).1 hr with hr | rfl
    · exact m.settled_of hr remote hidle (by simp [hst])
    · exact m.agreeing.founded i q hst remote
  | @written row' op res hw hx hupd hkept =>
    rw [hkept]
    rcases (QueueRows.mem_update hupd).1 hr with rfl | ⟨hr, hne⟩
    · obtain ⟨⟨o, ho, hoid⟩, -⟩ := QueueRows.update_eq_ok_iff.1 hupd
      exact m.settled_of_written hw ho hoid remote hidle
    · refine m.settled_of hr remote hidle ?_
      obtain ⟨id, seen, hv, hid, -⟩ := QueueStage.view_of_written? hw
      intro hb
      exact hne ((QueueStage.id_of_busy hb hv).trans
        (hid.trans (m.orderly.seen i id seen hv).id_eq).symm)
  | @dropped id row op res hst hx hrows hkept =>
    rw [hrows] at hr
    obtain ⟨hr, hne⟩ := QueueRows.mem_delete.1 hr
    rw [hkept]
    refine m.settled_of hr remote hidle ?_
    intro hb
    have hv : (st i).view = some (id, row) := by rw [hst]; rfl
    exact hne (QueueStage.id_of_busy hb hv)
  | @founded q hremote hst hx hrows hnew =>
    rw [hrows] at hr
    have hne := m.key_ne_of_vacant (j := i) (q := q) (by rw [hst]; rfl) hr
    rw [hnew, Function.update_of_ne hne]
    exact m.settled_of hr remote hidle (by simp [hst])
  | @applied id u row checked affects hremote hst hx hrows hnew =>
    rw [hrows] at hr
    have hv : (st i).view = some (id, row) := by rw [hst]; rfl
    have hne : r.key ≠ row.key := by
      intro hkey
      obtain ⟨o, ho, hoid⟩ := m.agreeing.applying i id u row checked affects hremote hst
      have hokey := (m.orderly.seen i id row hv).key_eq ho hoid
      obtain rfl := m.agreeing.apart r hr o ho remote (hkey.trans hokey.symm)
      exact hxidle (.inl ⟨row, _, by rw [hx]; exact ⟨hoid.symm, rfl, affects, hremote, rfl⟩⟩)
    rw [hnew, Function.update_of_ne hne]
    exact m.settled_of hr remote hidle (by simp [hst])
  | @cleared id row hremote hst hx hrows hnew =>
    rw [hrows] at hr
    have hv : (st i).view = some (id, row) := by rw [hst]; rfl
    have hne : r.key ≠ row.key := by
      intro hkey
      rcases m.present_or_free hst with ⟨o, ho, hoid⟩ | hfree
      · have hokey := (m.orderly.seen i id row hv).key_eq ho hoid
        obtain rfl := m.agreeing.apart r hr o ho remote (hkey.trans hokey.symm)
        exact hxidle (.inr ⟨row, by rw [hx]; exact ⟨hoid.symm, rfl, hremote⟩⟩)
      · exact hfree.1 r hr hkey
    rw [hnew, Function.update_of_ne hne]
    exact m.settled_of hr remote hidle (by simp [hst])

end QueueMoment

end ClusterJobs
