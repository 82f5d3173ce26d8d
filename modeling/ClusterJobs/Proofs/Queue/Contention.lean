import ClusterJobs.Proofs.Queue.Clashes

/-!
# Which operations contend

Of two operations on a row it can be told beforehand whether some order of their turns parts the row
from its queue. If both have read the row before either has written it, their calls are known from
the first rows; else one of them comes after the other.
-/

namespace ClusterJobs

open Program QueueManager

/-- The first operation applies a queue to the cluster of a row, and what the second one does to the
row leaves another queue, or none, to be expected there. -/
inductive Contend (s : QueueSettings) (r : QueueRow) : QueueOp → QueueOp → Prop where
  | delete {u : DatedUpdate} : checkUpdate r u = .ok () →
      (Changeset.between r u).affectsCluster = true →
      Contend s r (.update r.id u) (.delete r.id)
  | update {u v : DatedUpdate} : checkUpdate r u = .ok () →
      (Changeset.between r u).affectsCluster = true → checkUpdate r v = .ok () →
      (Changeset.between r v).isEmpty = false →
      (r.revise v).manifest s ≠ (r.revise u).manifest s →
      Contend s r (.update r.id u) (.update r.id v)
  | refresh {u : DatedUpdate} {now : Instant} : checkUpdate r u = .ok () →
      (Changeset.between r u).affectsCluster = true →
      r.manifest s ≠ (r.revise u).manifest s → Contend s r (.update r.id u) (.refresh r.id now)

namespace QueueStage

variable {s : QueueSettings}

/-- A row is only written if something differs. -/
def Needed : QueueStage s → Prop
  | writing _ u row _ => (Changeset.between row u).isEmpty = false
  | _ => True

theorem needed_begin (op : QueueOp) : (op.begin s).Needed := by
  cases op with
  | create q =>
    have hbegin := QueueOp.begin_create s q
    generalize (QueueOp.create q).begin s = st at hbegin
    rcases hbegin with ⟨e, rfl⟩ | ⟨-, -, rfl⟩ <;> trivial
  | _ => trivial

end QueueStage

section Turn

variable {s : QueueSettings} {st x : QueueStage s} {l l' : QueueLedger} {e : QueueEvent}

theorem QueueTurn.needed (ht : QueueTurn s st l e x l') : x.Needed := by
  cases ht with
  | changeRow checked hget hempty hquiet => exact hempty
  | applied checked affects remote => exact Changeset.not_isEmpty affects
  | _ => trivial

/-- Unless a row is new, it is written in the last turn. -/
theorem QueueTurn.rows_or_ended (ht : QueueTurn s st l e x l') (hop : st.op.target ≠ none) :
    l'.rows = l.rows ∨ x.next? = none := by
  cases ht with
  | stored hins => exact absurd rfl hop
  | written | dropped | noted => exact .inr rfl
  | _ => exact .inl rfl

/-- Unless a row is new, it is read in the first turn. -/
theorem QueueTurn.view_or_ended (ht : QueueTurn s st l e x l') (hop : st.op.target ≠ none) :
    x.view ≠ none ∨ x.next? = none := by
  cases ht with
  | named | known | unknown | unknownLocal | founded | unfounded | stored | rejected =>
    exact absurd rfl hop
  | changeRemote | changeRow | applied | deleteRemote | deleteLocal | cleared | refreshRemote
  | differs => exact .inl nofun
  | _ => exact .inr rfl

theorem QueueTurn.view_stays (ht : QueueTurn s st l e x l') (hst : st.view ≠ none)
    {v : Int × QueueRow} (hx : x.view = some v) : st.view = some v := by
  cases ht with
  | applied | cleared | differs => exact hx
  | changeRemote | changeRow | deleteRemote | deleteLocal | refreshRemote => exact absurd rfl hst
  | _ => cases hx

end Turn

/-- A call of an operation that has read one of these rows, if it has read one. -/
def Grounded (s : QueueSettings) (rows : QueueRows) (op : QueueOp) (c : QueueCall) : Prop :=
  ∃ st : QueueStage s, st.op = op ∧ st.next? = some c ∧ st.Needed ∧
    ∀ id row, st.view = some (id, row) → rows.get? id = some row

section Grounded

variable {s : QueueSettings} {rows : QueueRows} {op : QueueOp} {id : Int}

theorem Grounded.of_apply {cluster : String} {queue : GangQueue}
    (hg : Grounded s rows op (.apply cluster queue)) (hid : op.target = some id) :
    ∃ r u, rows.get? id = some r ∧ op = .update r.id u ∧ checkUpdate r u = .ok () ∧
      (Changeset.between r u).affectsCluster = true ∧ r.isLocal s = false ∧
      queue = (r.revise u).manifest s := by
  obtain ⟨st, rfl, hnext, -, hview⟩ := hg
  cases st with
  | founding q remote => cases hid
  | applying id' u row checked affects remote =>
    cases hid
    cases hnext
    have hget := hview id row rfl
    exact ⟨row, u, hget, by rw [(QueueRows.mem_of_get? hget).2]; rfl, checked, affects, remote, rfl⟩
  | _ => cases hnext

theorem Grounded.of_delete {cluster name : String}
    (hg : Grounded s rows op (.delete cluster name)) (hid : op.target = some id) :
    ∃ r, rows.get? id = some r ∧ op = .delete r.id := by
  obtain ⟨st, rfl, hnext, -, hview⟩ := hg
  cases st with
  | clearing id' row remote =>
    cases hid
    have hget := hview id row rfl
    exact ⟨row, hget, by rw [(QueueRows.mem_of_get? hget).2]; rfl⟩
  | _ => cases hnext

theorem Grounded.of_updateRow {w : QueueRow} (hg : Grounded s rows op (.updateRow w))
    (hid : op.target = some id) :
    ∃ r, rows.get? id = some r ∧
      ((∃ v, op = .update r.id v ∧ checkUpdate r v = .ok () ∧
          (Changeset.between r v).isEmpty = false ∧ w = r.revise v) ∨
        (∃ now, op = .refresh r.id now) ∧ w.manifest s = r.manifest s) := by
  obtain ⟨st, rfl, hnext, hneeded, hview⟩ := hg
  cases st with
  | writing id' v row checked =>
    cases hid
    cases hnext
    have hget := hview id row rfl
    refine ⟨row, hget, .inl ⟨v, ?_, checked, hneeded, rfl⟩⟩
    rw [(QueueRows.mem_of_get? hget).2]
    rfl
  | noting id' row state now =>
    cases hid
    cases hnext
    have hget := hview id row rfl
    refine ⟨row, hget, .inr ⟨⟨now, ?_⟩, rfl⟩⟩
    rw [(QueueRows.mem_of_get? hget).2]
    rfl
  | _ => cases hnext

end Grounded

section Two

variable {s : QueueSettings} {ops : Bool → QueueOp} {rows : QueueRows}
  {past h : List (Bool × QueueEvent)} {st st' : Bool → QueueStage s} {l l' : QueueLedger}
  {i : Bool} {x : QueueStage s} {e : QueueEvent}

theorem update_not (st : Bool → QueueStage s) (i : Bool) (x : QueueStage s) :
    Function.update st i x (!i) = st !i :=
  Function.update_of_ne (Bool.not_ne_self i) x st

/-- Where an operation stands: it knows the first rows only, or it comes after the other one. -/
inductive Standing (s : QueueSettings) (ops : Bool → QueueOp) (rows : QueueRows)
    (past : List (Bool × QueueEvent)) (st : Bool → QueueStage s) (i : Bool) : Prop where
  | early : (∀ e, (i, e) ∈ past → Grounded s rows (ops i) e.call) →
      (∀ id row, (st i).view = some (id, row) → rows.get? id = some row) → (st i).Needed →
      Standing s ops rows past st i
  | late : (st !i).next? = none → Follows past i (!i) → Standing s ops rows past st i

/-- How far two operations on rows have come. -/
structure Paired (s : QueueSettings) (ops : Bool → QueueOp) (rows : QueueRows)
    (past : List (Bool × QueueEvent)) (st : Bool → QueueStage s) (l : QueueLedger) : Prop where
  op : ∀ i, (st i).op = ops i
  stored : l.rows = rows ∨ ∃ i, (st i).next? = none
  unread : ∀ i, (st i).view = none → (st i).next? ≠ none → ∀ e, (i, e) ∉ past
  standing : ∀ i, Standing s ops rows past st i

/-- The operation that takes a turn keeps its standing. -/
theorem Paired.standing_self (hp : Paired s ops rows past st l)
    (ht : QueueTurn s (st i) l e x l') :
    Standing s ops rows (past ++ [(i, e)]) (Function.update st i x) i := by
  have hnext : (st i).next? ≠ none := by simp [ht.next?_eq]
  cases hp.standing i with
  | late hend hf => exact .late (by rw [update_not]; exact hend) (hf.snoc e)
  | early hcalls hview hneeded =>
    have hcalls' : ∀ e', (i, e') ∈ past ++ [(i, e)] → Grounded s rows (ops i) e'.call := by
      intro e' he'
      rcases List.mem_append.1 he' with he' | he'
      · exact hcalls e' he'
      · cases List.mem_singleton.1 he'
        exact ⟨st i, hp.op i, ht.next?_eq, hneeded, hview⟩
    by_cases hread : (st i).view = none
    · rcases hp.stored with hrows | ⟨k, hk⟩
      · refine .early hcalls' ?_ (by rw [Function.update_self]; exact ht.needed)
        intro id row hx
        rw [Function.update_self] at hx
        rcases (ht.view_of hx).2 with hv | hget
        · exact hview id row hv
        · exact hrows ▸ hget
      · -- The other operation has written the row by now, so this one comes after it.
        have hki : k = !i := by
          rcases Bool.eq_or_eq_not k i with rfl | hki
          · exact absurd hk hnext
          · exact hki
        refine .late (by rw [update_not, ← hki]; exact hk) ⟨past, [(i, e)], rfl, ?_, by simp⟩
        rintro ⟨j, e'⟩ he'
        rcases Bool.eq_or_eq_not j i with rfl | hji
        · exact absurd he' (hp.unread j hread hnext e')
        · exact hji
    · refine .early hcalls' ?_ (by rw [Function.update_self]; exact ht.needed)
      intro id row hx
      rw [Function.update_self] at hx
      exact hview id row (ht.view_stays hread hx)

/-- So does the other one. -/
theorem Paired.standing_other (hp : Paired s ops rows past st l)
    (ht : QueueTurn s (st i) l e x l') :
    Standing s ops rows (past ++ [(i, e)]) (Function.update st i x) (!i) := by
  cases hp.standing (!i) with
  | late hend hf =>
    rw [Bool.not_not, ht.next?_eq] at hend
    cases hend
  | early hcalls hview hneeded =>
    rw [← update_not st i x] at hview hneeded
    refine .early ?_ hview hneeded
    intro e' he'
    rcases List.mem_append.1 he' with he' | he'
    · exact hcalls e' he'
    · simp at he'

/-- Two operations on rows keep their standing. -/
theorem Paired.step (hp : Paired s ops rows past st l) (htarget : ∀ i, (ops i).target ≠ none)
    (ht : QueueTurn s (st i) l e x l') :
    Paired s ops rows (past ++ [(i, e)]) (Function.update st i x) l' := by
  have hnext : (st i).next? ≠ none := by simp [ht.next?_eq]
  have hop : (st i).op.target ≠ none := by
    rw [hp.op i]
    exact htarget i
  refine ⟨?_, ?_, ?_, ?_⟩
  · intro j
    rcases Bool.eq_or_eq_not j i with rfl | rfl
    · rw [Function.update_self, ht.op_eq]
      exact hp.op j
    · rw [update_not]
      exact hp.op !i
  · rcases ht.rows_or_ended hop with hsame | hend
    · rcases hp.stored with hrows | ⟨k, hk⟩
      · exact .inl (hsame.trans hrows)
      · rcases Bool.eq_or_eq_not k i with rfl | rfl
        · exact absurd hk hnext
        · exact .inr ⟨!i, by rw [update_not]; exact hk⟩
    · exact .inr ⟨i, by rw [Function.update_self]; exact hend⟩
  · intro j hview hj e' he'
    rcases Bool.eq_or_eq_not j i with rfl | rfl
    · rw [Function.update_self] at hview hj
      exact (ht.view_or_ended hop).elim (absurd hview) (absurd · hj)
    · rw [update_not] at hview hj
      rcases List.mem_append.1 he' with he' | he'
      · exact hp.unread _ hview hj e' he'
      · simp at he'
  · intro j
    rcases Bool.eq_or_eq_not j i with rfl | rfl
    · exact hp.standing_self ht
    · exact hp.standing_other ht

theorem Paired.run (hp : Paired s ops rows past st l) (htarget : ∀ i, (ops i).target ≠ none)
    (ht : QueueTurns s st l h st' l') : Paired s ops rows (past ++ h) st' l' := by
  induction ht generalizing past with
  | nil st l => simpa using hp
  | cons hturn _ ih => simpa using ih (hp.step htarget hturn)

theorem Paired.begin (s : QueueSettings) (ops : Bool → QueueOp) (l : QueueLedger) :
    Paired s ops l.rows [] (fun i => (ops i).begin s) l := by
  refine ⟨fun i => QueueOp.op_begin s (ops i), .inl rfl, fun _ _ _ _ => nofun, ?_⟩
  intro i
  refine .early (fun _ => nofun) ?_ (QueueStage.needed_begin (ops i))
  intro id row hv
  simp at hv

/-- Operations that overlap have both read the first rows. -/
theorem Paired.grounded (hp : Paired s ops rows past st l) (ho : Overlap past i (!i)) {j : Bool}
    (he : (j, e) ∈ past) : Grounded s rows (ops j) e.call := by
  have hoj : Overlap past j (!j) := by
    rcases Bool.eq_or_eq_not j i with rfl | rfl
    · exact ho
    · rw [Bool.not_not]
      exact ho.symm
  cases hp.standing j with
  | early hcalls _ _ => exact hcalls e he
  | late _ hf => exact absurd hoj.before (hf.not_before (Bool.not_ne_self j).symm)

/-- Two operations that clash contend for a row. -/
theorem Clash.contend (hclash : Clash s ops h)
    (ht : QueueTurns s (fun i => (ops i).begin s) l h st' l') :
    ∃ r ∈ l.rows.rows, r.isLocal s = false ∧ ∃ i, Contend s r (ops i) (ops !i) := by
  have hpaired (i j : Bool) (id : Int) (hij : i ≠ j) (hi : (ops i).target = some id)
      (hj : (ops j).target = some id) : Paired s ops l.rows h st' l' := by
    refine (Paired.begin s ops l).run ?_ ht
    intro k
    rcases Bool.eq_or_eq_not k i with rfl | hk
    · simp [hi]
    · simp [hk, ← Bool.eq_not_of_ne hij.symm, hj]
  cases hclash with
  | @applyDelete i j id hij hi hj ho happly hdelete =>
    have hp := hpaired i j id hij hi hj
    obtain rfl : j = !i := Bool.eq_not_of_ne hij.symm
    obtain ⟨e, he, cluster, queue, hcall⟩ := happly
    obtain ⟨e', he', cluster', name, hcall'⟩ := hdelete
    obtain ⟨r, u, hget, hop, checked, affects, remote, -⟩ :=
      (hcall ▸ hp.grounded ho he).of_apply hi
    obtain ⟨r', hget', hop'⟩ := (hcall' ▸ hp.grounded ho he').of_delete hj
    obtain rfl : r = r' := Option.some.inj (hget.symm.trans hget')
    refine ⟨r, (QueueRows.mem_of_get? hget).1, remote, i, ?_⟩
    rw [hop, hop']
    exact .delete checked affects
  | @applyWrite i j id cluster queue row hij hi hj ho happly hwrite hne =>
    have hp := hpaired i j id hij hi hj
    obtain rfl : j = !i := Bool.eq_not_of_ne hij.symm
    obtain ⟨e, he, hcall⟩ := happly
    obtain ⟨e', he', hcall'⟩ := hwrite
    obtain ⟨r, u, hget, hop, checked, affects, remote, rfl⟩ :=
      (hcall ▸ hp.grounded ho he).of_apply hi
    obtain ⟨r', hget', hop'⟩ := (hcall' ▸ hp.grounded ho he').of_updateRow hj
    obtain rfl : r = r' := Option.some.inj (hget.symm.trans hget')
    refine ⟨r, (QueueRows.mem_of_get? hget).1, remote, i, ?_⟩
    rcases hop' with ⟨v, hop', checked', hempty, rfl⟩ | ⟨⟨now, hop'⟩, hsame⟩
    · rw [hop, hop']
      exact .update checked affects checked' hempty hne
    · rw [hop, hop']
      exact .refresh checked affects (hsame ▸ hne)
  | @deleteDelete i j k id q hij hi hj _ _ _ hk _ =>
    have hnone : (ops k).target = none := by rw [hk]; rfl
    rcases Bool.eq_or_eq_not k i with rfl | hki
    · rw [hi] at hnone
      cases hnone
    · rw [hki, ← Bool.eq_not_of_ne hij.symm, hj] at hnone
      cases hnone

/-- Two operations can part a row from its queue exactly if they contend for one. -/
theorem parts_iff (ha : AtRest s l) (ops : Bool → QueueOp) :
    Parts s l ops ↔
      ∃ r ∈ l.rows.rows, r.isLocal s = false ∧ ∃ i, Contend s r (ops i) (ops !i) := by
  constructor
  · rintro ⟨h, qs, results, l', hi, hf, -, hparted⟩
    by_contra hnone
    refine hparted (ha.of_interleaves ops hi hf ?_).inStep
    exact fun hclash => hnone (hclash.contend (QueueTurns.of_finished ops hi hf))
  · rintro ⟨r, hr, remote, i, hc⟩
    have hij : i ≠ !i := (Bool.not_ne_self i).symm
    have hall := fun k => Bool.eq_or_eq_not k i
    generalize hi : ops i = a at hc
    generalize hj : ops (!i) = b at hc
    cases hc with
    | delete checked affects =>
      exact parts_update_delete hij hall ha hr remote checked affects hi hj
    | update checked affects checked' hempty hne =>
      exact parts_update_update hij hall ha hr remote checked affects hi hj checked' hempty hne
    | refresh checked affects hne =>
      exact parts_update_refresh hij hall ha hr remote checked affects hi hj hne

end Two

/-! ## When rows and clusters stay in step -/

/-- One operation alone parts rows and clusters exactly if two rows share a place on a cluster. -/
theorem apart_iff {s : QueueSettings} {l : QueueLedger} (hsound : l.rows.Sound)
    (hreleased : l.reserved = ∅) (hstep : InStep s l) :
    l.rows.Apart s ↔ ∀ op, ¬ Parts s l fun _ : Unit => op := by
  constructor
  · rintro hapart op ⟨h, qs, results, l', hi, hf, -, hparted⟩
    have ha : AtRest s l := ⟨hsound, hapart, hreleased, hstep⟩
    exact hparted (ha.of_interleaves _ hi hf (not_clash_of_subsingleton _ h)).inStep
  · intro hnone r hr r' hr' remote hkey
    by_contra hne
    exact hnone (.delete r.id) (parts_of_twin hsound hr remote hr' hkey hne)

/-- When rows and clusters in step stay so, however operations take turns. -/
structure OverlapSpec (s : QueueSettings) (l : QueueLedger) : Prop where
  /-- No two rows may share a place on a cluster, or one deletion parts them. -/
  one : l.rows.Apart s ↔ ∀ op, ¬ Parts s l fun _ : Unit => op
  /-- Of two operations it is known which part rows and clusters in some order of their turns. -/
  two : l.rows.Apart s → ∀ ops : Bool → QueueOp, Parts s l ops ↔
    ∃ r ∈ l.rows.rows, r.isLocal s = false ∧ ∃ i, Contend s r (ops i) (ops !i)
  /-- Two deletions do so if a queue is created in the place of the deleted one. -/
  three : l.rows.Apart s → ∀ r ∈ l.rows.rows, r.isLocal s = false →
    (∀ r' ∈ l.rows.rows, r'.name = r.name → r' = r) → ∀ q : DatedQueue, q.trimmed ≠ "" →
    q.capability.check = .ok () → q.row.key = r.key →
    Parts s l (![.delete r.id, .delete r.id, .create q] : Fin 3 → QueueOp)
  /-- Any number of operations that do not clash in one of these ways stay in step, whichever of
  their calls to clusters fail. -/
  any : l.rows.Apart s → ∀ (ι : Type) [DecidableEq ι] (ops : ι → QueueOp)
    (h : List (ι × QueueEvent)) (qs : (i : ι) → QueueProgram (ops i).Result)
    (results : (i : ι) → (ops i).Result) (l' : QueueLedger),
    Interleaves QueueLedger.serves (fun i => (ops i).program s) l h qs l' → Finished qs results →
    ¬ Clash s ops h → AtRest s l'

theorem overlap_spec {s : QueueSettings} {l : QueueLedger} (hsound : l.rows.Sound)
    (hreleased : l.reserved = ∅) (hstep : InStep s l) : OverlapSpec s l := by
  have hrest (hapart : l.rows.Apart s) : AtRest s l := ⟨hsound, hapart, hreleased, hstep⟩
  refine ⟨apart_iff hsound hreleased hstep, fun hapart ops => parts_iff (hrest hapart) ops, ?_, ?_⟩
  · intro hapart r hr remote hsole q hname hcap hkey
    exact parts_delete_delete_create (hrest hapart) hr remote hname hcap hkey hsole
  · intro hapart ι _ ops h qs results l' hi hf hclean
    exact (hrest hapart).of_interleaves ops hi hf hclean

theorem atRest_vision : AtRest .plain .vision :=
  (Session.nil.snoc runs_create_vision).settled.rest

theorem overlap_of_vision : OverlapSpec .plain .vision :=
  overlap_spec atRest_vision.sound atRest_vision.released atRest_vision.inStep

/-- A second row in the place of the first one. -/
def QueueLedger.twins : QueueLedger :=
  { QueueLedger.vision with rows := ⟨[.vision, { QueueRow.vision with id := 2 }], 3⟩ }

/-- A change and a deletion of one row, and one deletion of two rows in one place. -/
theorem parts_vision :
    (InStep .plain .vision ∧
      Parts .plain .vision fun i : Bool =>
        if i then .update 1 ⟨⟨none, none, some 4, none, none⟩, ⟨1⟩⟩ else .delete 1) ∧
    InStep .plain .twins ∧ Parts .plain .twins fun _ : Unit => .delete 1 := by
  have hvision : QueueRow.vision ∈ QueueLedger.vision.rows.rows := .head _
  have hsound : QueueLedger.twins.rows.Sound := ⟨by decide, by decide⟩
  refine ⟨⟨atRest_vision.inStep, ?_⟩, ?_, ?_⟩
  · exact parts_update_delete (i := true) (j := false) (by decide) (by decide) atRest_vision hvision
      rfl rfl rfl rfl rfl
  · have hstep := atRest_vision.inStep
    refine ⟨?_, ?_⟩
    · intro r hr _
      rcases List.mem_cons.1 hr with rfl | hr
      · exact hstep.applied .vision hvision rfl
      · cases List.mem_singleton.1 hr
        exact hstep.applied .vision hvision rfl
    · intro k queue hk
      obtain ⟨hlocal, r, hr, hkey⟩ := hstep.owned k queue hk
      exact ⟨hlocal, r, List.mem_append_left [_] hr, hkey⟩
  · exact parts_of_twin (r := .vision) hsound (.head _) rfl (.tail _ (.head _)) rfl
      fun hsame => absurd (congrArg QueueRow.id hsame) (by decide)

end ClusterJobs
