import ClusterJobs.Proofs.Queue.Turns

/-!
# What every interleaving keeps

However queue operations take turns, a name is reserved by one creation at most, a creation that
found no row of its name still finds none, and the row that an operation has read keeps its name and
its cluster for as long as it is stored.
-/

namespace ClusterJobs

namespace QueueStage

variable {s : QueueSettings}

/-- The name that is reserved at a stage. -/
def reserves : QueueStage s → Option String
  | seeking q | founding q _ | storing q | leaving q _ => some q.trimmed
  | _ => none

/-- The name that was looked up and had no row. -/
def vacant : QueueStage s → Option String
  | founding q _ | storing q => some q.trimmed
  | _ => none

/-- The id and the row that were read. -/
def view : QueueStage s → Option (Int × QueueRow)
  | applying id _ row _ _ _ | writing id _ row _ | clearing id row _ | dropping id row
  | inspecting id row _ _ | noting id row _ _ => some (id, row)
  | _ => none

/-- The row that is about to be written. -/
def written? : QueueStage s → Option QueueRow
  | writing _ u row _ => some (row.revise u)
  | noting _ row state now => some (row.withState state now)
  | _ => none

variable {st : QueueStage s} {row row' : QueueRow} {id : Int}

theorem view_of_written? (h : st.written? = some row') :
    ∃ id row, st.view = some (id, row) ∧ row'.id = row.id ∧ row'.name = row.name ∧
      row'.cluster = row.cluster := by
  cases st with
  | writing id u row checked =>
    cases h
    exact ⟨id, row, rfl, rfl, rfl, rfl⟩
  | noting id row state now =>
    cases h
    exact ⟨id, row, rfl, rfl, rfl, rfl⟩
  | _ => cases h

theorem reserves_of_vacant {name : String} (h : st.vacant = some name) :
    st.reserves = some name := by
  cases st with
  | founding q remote => exact h
  | storing q => exact h
  | _ => cases h

@[simp]
theorem reserves_begin (op : QueueOp) : (op.begin s).reserves = none := by
  cases op with
  | create q => rcases QueueOp.begin_create s q with ⟨e, h⟩ | ⟨-, -, h⟩ <;> rw [h] <;> rfl
  | _ => rfl

@[simp]
theorem vacant_begin (op : QueueOp) : (op.begin s).vacant = none := by
  cases h : (op.begin s).vacant with
  | none => rfl
  | some name => simpa using reserves_of_vacant h

@[simp]
theorem view_begin (op : QueueOp) : (op.begin s).view = none := by
  cases op with
  | create q => rcases QueueOp.begin_create s q with ⟨e, h⟩ | ⟨-, -, h⟩ <;> rw [h] <;> rfl
  | _ => rfl

end QueueStage

/-! ## What a turn does to the rows -/

/-- What an operation does to the rows from a stage. -/
inductive RowsChange {s : QueueSettings} (st : QueueStage s) (rows rows' : QueueRows) : Prop where
  | kept : rows' = rows → RowsChange st rows rows'
  | inserted {q : DatedQueue} {row : QueueRow} : st = .storing q →
      rows.insert q.row = .ok (row, rows') → RowsChange st rows rows'
  | updated {row : QueueRow} : st.written? = some row → rows.update row = .ok rows' →
      RowsChange st rows rows'
  | deleted {id : Int} {row : QueueRow} : st = .dropping id row → rows' = rows.delete id →
      RowsChange st rows rows'

theorem QueueTurn.rowsChange {s : QueueSettings} {st st' : QueueStage s} {l l' : QueueLedger}
    {e : QueueEvent} (h : QueueTurn s st l e st' l') : RowsChange st l.rows l'.rows := by
  cases h with
  | stored hins => exact .inserted rfl hins
  | written checked hupd => exact .updated rfl hupd
  | noted hupd => exact .updated rfl hupd
  | dropped => exact .deleted rfl rfl
  | _ => exact .kept rfl

section QueueTurn

variable {s : QueueSettings} {st st' : QueueStage s} {l l' : QueueLedger} {e : QueueEvent}

/-- A turn keeps the reserved name, takes one, or gives it back. -/
theorem QueueTurn.reservation (h : QueueTurn s st l e st' l') :
    (st'.reserves = st.reserves ∧ l'.reserved = l.reserved) ∨
    (∃ name, st.reserves = none ∧ st'.reserves = some name ∧ name ∉ l.reserved ∧
      l'.reserved = insert name l.reserved) ∨
    ∃ name, st.reserves = some name ∧ st'.reserves = none ∧
      l'.reserved = l.reserved.erase name := by
  cases h with
  | named hfree => exact .inr (.inl ⟨_, rfl, rfl, hfree, rfl⟩)
  | left => exact .inr (.inr ⟨_, rfl, rfl, rfl⟩)
  | _ => exact .inl ⟨rfl, rfl⟩

/-- A vacant name was vacant before, or was just looked up. -/
theorem QueueTurn.vacant_of (h : QueueTurn s st l e st' l') {name : String}
    (hv : st'.vacant = some name) :
    l'.rows = l.rows ∧ (st.vacant = some name ∨ l.rows.find? name = none) := by
  cases h with
  | unknown remote hfind =>
    cases hv
    exact ⟨rfl, .inr hfind⟩
  | unknownLocal hlocal hfind =>
    cases hv
    exact ⟨rfl, .inr hfind⟩
  | founded remote => exact ⟨rfl, .inl hv⟩
  | _ => cases hv

/-- A row that is known was known before, or was just read. -/
theorem QueueTurn.view_of (h : QueueTurn s st l e st' l') {id : Int} {row : QueueRow}
    (hv : st'.view = some (id, row)) :
    l'.rows = l.rows ∧ (st.view = some (id, row) ∨ l.rows.get? id = some row) := by
  cases h with
  | changeRemote checked affects remote hget =>
    cases hv
    exact ⟨rfl, .inr hget⟩
  | changeRow checked hget hempty hquiet =>
    cases hv
    exact ⟨rfl, .inr hget⟩
  | deleteRemote remote hget =>
    cases hv
    exact ⟨rfl, .inr hget⟩
  | deleteLocal hget hlocal =>
    cases hv
    exact ⟨rfl, .inr hget⟩
  | refreshRemote remote hget =>
    cases hv
    exact ⟨rfl, .inr hget⟩
  | applied checked affects remote => exact ⟨rfl, .inl hv⟩
  | cleared remote => exact ⟨rfl, .inl hv⟩
  | differs remote hstate => exact ⟨rfl, .inl hv⟩
  | _ => cases hv

end QueueTurn

/-- A row was read under an id, and what is stored under it now has its name and its cluster. -/
structure Seen (rows : QueueRows) (id : Int) (row : QueueRow) : Prop where
  id_eq : row.id = id
  given : id < rows.nextId
  same : ∀ r ∈ rows.rows, r.id = id → r.name = row.name ∧ r.cluster = row.cluster

theorem QueueRows.Sound.seen {rows : QueueRows} {id : Int} {row : QueueRow} (hq : rows.Sound)
    (h : rows.get? id = some row) : Seen rows id row := by
  obtain ⟨hrow, hid⟩ := QueueRows.mem_of_get? h
  refine ⟨hid, hid ▸ hq.fresh row hrow, ?_⟩
  intro r hr hrid
  rw [hq.eq_of_id hr hrow (hrid.trans hid.symm)]
  exact ⟨rfl, rfl⟩

section RowsChange

variable {s : QueueSettings} {st : QueueStage s} {rows rows' : QueueRows}

/-- A row that is about to be written has the name and the cluster of the stored one. -/
theorem QueueStage.same_of_written? {row : QueueRow} (hw : st.written? = some row)
    (hv : ∀ id row, st.view = some (id, row) → Seen rows id row) :
    ∀ r ∈ rows.rows, r.id = row.id → r.name = row.name ∧ r.cluster = row.cluster := by
  obtain ⟨id, seen, hview, hid, hname, hcluster⟩ := QueueStage.view_of_written? hw
  have hown := hv id seen hview
  intro r hr hrid
  rw [hname, hcluster]
  exact hown.same r hr (hrid.trans (hid.trans hown.id_eq))

theorem RowsChange.sound (hc : RowsChange st rows rows') (hq : rows.Sound) : rows'.Sound := by
  cases hc with
  | kept h => exact h ▸ hq
  | inserted _ hins => exact hq.insert hins
  | updated _ hupd => exact hq.update hupd
  | deleted _ h => exact h ▸ hq.delete _

theorem RowsChange.seen (hc : RowsChange st rows rows')
    (hv : ∀ id row, st.view = some (id, row) → Seen rows id row) {id : Int} {row : QueueRow}
    (h : Seen rows id row) : Seen rows' id row := by
  cases hc with
  | kept hk => exact hk ▸ h
  | inserted _ hins =>
    obtain ⟨-, hstored, hrows⟩ := QueueRows.insert_eq_ok_iff.1 hins
    have hnext : rows.nextId < rows'.nextId := by
      rw [hrows]
      exact Int.lt_succ _
    refine ⟨h.id_eq, Int.lt_trans h.given hnext, ?_⟩
    intro r hr hid
    rcases (QueueRows.mem_insert hins).1 hr with hr | rfl
    · exact h.same r hr hid
    · rw [hstored] at hid
      exact absurd hid (Int.ne_of_gt h.given)
  | updated hw hupd =>
    have hnext : rows'.nextId = rows.nextId := by
      obtain ⟨-, rfl⟩ := QueueRows.update_eq_ok_iff.1 hupd
      rfl
    refine ⟨h.id_eq, hnext ▸ h.given, ?_⟩
    intro r hr hid
    rcases (QueueRows.mem_update hupd).1 hr with rfl | ⟨hr, -⟩
    · obtain ⟨⟨o, ho, hoid⟩, -⟩ := QueueRows.update_eq_ok_iff.1 hupd
      obtain ⟨hname, hcluster⟩ := QueueStage.same_of_written? hw hv o ho hoid
      obtain ⟨hname', hcluster'⟩ := h.same o ho (hoid.trans hid)
      exact ⟨hname.symm.trans hname', hcluster.symm.trans hcluster'⟩
    · exact h.same r hr hid
  | deleted _ hd =>
    subst hd
    exact ⟨h.id_eq, h.given, fun r hr hid => h.same r (QueueRows.mem_delete.1 hr).1 hid⟩

/-- A name that no row has is taken by its own creation only. -/
theorem RowsChange.vacant (hc : RowsChange st rows rows')
    (hv : ∀ id row, st.view = some (id, row) → Seen rows id row) {name : String}
    (hother : st.reserves ≠ some name) (h : ∀ r ∈ rows.rows, r.name ≠ name) :
    ∀ r ∈ rows'.rows, r.name ≠ name := by
  cases hc with
  | kept hk => exact hk ▸ h
  | @inserted q row hst hins =>
    obtain ⟨-, hstored, -⟩ := QueueRows.insert_eq_ok_iff.1 hins
    intro r hr
    rcases (QueueRows.mem_insert hins).1 hr with hr | rfl
    · exact h r hr
    · subst hst
      rw [hstored]
      intro hname
      exact hother (congrArg some hname)
  | updated hw hupd =>
    intro r hr
    rcases (QueueRows.mem_update hupd).1 hr with rfl | ⟨hr, -⟩
    · obtain ⟨⟨o, ho, hoid⟩, -⟩ := QueueRows.update_eq_ok_iff.1 hupd
      rw [← (QueueStage.same_of_written? hw hv o ho hoid).1]
      exact h o ho
    · exact h r hr
  | deleted _ hd =>
    subst hd
    exact fun r hr => h r (QueueRows.mem_delete.1 hr).1

/-- The names of rows stay apart. -/
theorem RowsChange.names_nodup (hc : RowsChange st rows rows')
    (hv : ∀ id row, st.view = some (id, row) → Seen rows id row)
    (h : (rows.rows.map QueueRow.name).Nodup) : (rows'.rows.map QueueRow.name).Nodup := by
  cases hc with
  | kept hk => exact hk ▸ h
  | @inserted q row _ hins =>
    obtain ⟨hfree, rfl, rfl⟩ := QueueRows.insert_eq_ok_iff.1 hins
    rw [List.map_append, List.nodup_append]
    refine ⟨h, List.nodup_singleton _, ?_⟩
    intro a ha b hb
    obtain ⟨r, hr, rfl⟩ := List.mem_map.1 ha
    simp only [List.map_cons, List.map_nil, List.mem_singleton] at hb
    exact hb ▸ hfree r hr
  | @updated row hw hupd =>
    obtain ⟨-, rfl⟩ := QueueRows.update_eq_ok_iff.1 hupd
    have hnames : (rows.rows.map fun r => if r.id == row.id then row else r).map QueueRow.name =
        rows.rows.map QueueRow.name := by
      rw [List.map_map]
      refine List.map_congr_left ?_
      intro r hr
      by_cases hrid : r.id = row.id
      · simp [hrid, (QueueStage.same_of_written? hw hv r hr hrid).1]
      · simp [hrid]
    simpa only [hnames] using h
  | deleted _ hd =>
    subst hd
    exact h.sublist (List.filter_sublist.map _)

end RowsChange

/-! ## Reservations -/

section Pool

variable {ι : Type} [DecidableEq ι] {s : QueueSettings}

/-- The reserved names are those of creations on their way, and no two of them share one. -/
structure Reservations (st : ι → QueueStage s) (l : QueueLedger) : Prop where
  mem_iff : ∀ name, name ∈ l.reserved ↔ ∃ i, (st i).reserves = some name
  apart : ∀ i j name, (st i).reserves = some name → (st j).reserves = some name → i = j

/-- What every interleaving of operations keeps. -/
structure Orderly (st : ι → QueueStage s) (l : QueueLedger) : Prop where
  sound : l.rows.Sound
  reservations : Reservations st l
  vacant : ∀ i name, (st i).vacant = some name → ∀ r ∈ l.rows.rows, r.name ≠ name
  seen : ∀ i id row, (st i).view = some (id, row) → Seen l.rows id row

variable {st st' : ι → QueueStage s} {l l' : QueueLedger} {i : ι} {x : QueueStage s}
  {e : QueueEvent} {h : List (ι × QueueEvent)}

theorem Reservations.keep (hr : Reservations st l) (hstage : x.reserves = (st i).reserves)
    (hkept : l'.reserved = l.reserved) : Reservations (Function.update st i x) l' := by
  have hsame (j : ι) : (Function.update st i x j).reserves = (st j).reserves := by
    by_cases hj : j = i
    · subst hj
      simpa using hstage
    · simp [hj]
  refine ⟨?_, ?_⟩
  · intro name
    simp only [hkept, hsame, hr.mem_iff]
  · intro j k name
    rw [hsame, hsame]
    exact hr.apart j k name

theorem Reservations.take (hr : Reservations st l) {name : String}
    (hbefore : (st i).reserves = none) (hafter : x.reserves = some name)
    (hfree : name ∉ l.reserved) (hins : l'.reserved = insert name l.reserved) :
    Reservations (Function.update st i x) l' := by
  have hnew (j : ι) (n : String) (hj : (st j).reserves = some n) : n ≠ name := by
    rintro rfl
    exact hfree ((hr.mem_iff n).2 ⟨j, hj⟩)
  refine ⟨?_, ?_⟩
  · intro n
    rw [hins, Finset.mem_insert, hr.mem_iff]
    constructor
    · rintro (rfl | ⟨j, hj⟩)
      · exact ⟨i, by simpa using hafter⟩
      · have hji : j ≠ i := by
          rintro rfl
          simp [hbefore] at hj
        exact ⟨j, by simpa [hji] using hj⟩
    · rintro ⟨j, hj⟩
      by_cases hji : j = i
      · subst hji
        rw [Function.update_self, hafter] at hj
        exact .inl (Option.some.inj hj).symm
      · exact .inr ⟨j, by simpa [hji] using hj⟩
  · intro j k n hj hk
    by_cases hji : j = i <;> by_cases hki : k = i
    · rw [hji, hki]
    · subst hji
      rw [Function.update_self, hafter] at hj
      rw [Function.update_of_ne hki] at hk
      exact absurd (Option.some.inj hj).symm (hnew k n hk)
    · subst hki
      rw [Function.update_self, hafter] at hk
      rw [Function.update_of_ne hji] at hj
      exact absurd (Option.some.inj hk).symm (hnew j n hj)
    · rw [Function.update_of_ne hji] at hj
      rw [Function.update_of_ne hki] at hk
      exact hr.apart j k n hj hk

theorem Reservations.give (hr : Reservations st l) {name : String}
    (hbefore : (st i).reserves = some name) (hafter : x.reserves = none)
    (herase : l'.reserved = l.reserved.erase name) :
    Reservations (Function.update st i x) l' := by
  have hold (j : ι) (n : String) (hj : (Function.update st i x j).reserves = some n) :
      j ≠ i ∧ (st j).reserves = some n := by
    by_cases hji : j = i
    · subst hji
      simp [hafter] at hj
    · exact ⟨hji, by simpa [hji] using hj⟩
  refine ⟨?_, ?_⟩
  · intro n
    rw [herase, Finset.mem_erase, hr.mem_iff]
    constructor
    · rintro ⟨hne, j, hj⟩
      have hji : j ≠ i := by
        rintro rfl
        rw [hbefore] at hj
        exact hne (Option.some.inj hj).symm
      exact ⟨j, by simpa [hji] using hj⟩
    · rintro ⟨j, hj⟩
      obtain ⟨hji, hj⟩ := hold j n hj
      refine ⟨?_, j, hj⟩
      rintro rfl
      exact hji (hr.apart j i n hj hbefore)
  · intro j k n hj hk
    exact hr.apart j k n (hold j n hj).2 (hold k n hk).2

theorem Reservations.step (hr : Reservations st l) (ht : QueueTurn s (st i) l e x l') :
    Reservations (Function.update st i x) l' := by
  rcases ht.reservation with ⟨hstage, hkept⟩ | ⟨name, hbefore, hafter, hfree, hins⟩ |
    ⟨name, hbefore, hafter, herase⟩
  · exact hr.keep hstage hkept
  · exact hr.take hbefore hafter hfree hins
  · exact hr.give hbefore hafter herase

theorem Orderly.step (ho : Orderly st l) (ht : QueueTurn s (st i) l e x l') :
    Orderly (Function.update st i x) l' := by
  have hc := ht.rowsChange
  have hv := ho.seen i
  refine ⟨hc.sound ho.sound, ho.reservations.step ht, ?_, ?_⟩
  · intro j name hj
    by_cases hji : j = i
    · subst hji
      rw [Function.update_self] at hj
      obtain ⟨hkept, hbefore | hfind⟩ := ht.vacant_of hj
      · exact hkept ▸ ho.vacant j name hbefore
      · exact hkept ▸ QueueRows.find?_eq_none_iff.1 hfind
    · rw [Function.update_of_ne hji] at hj
      refine hc.vacant hv ?_ (ho.vacant j name hj)
      intro hi
      exact hji (ho.reservations.apart j i name (QueueStage.reserves_of_vacant hj) hi)
  · intro j id row hj
    by_cases hji : j = i
    · subst hji
      rw [Function.update_self] at hj
      obtain ⟨hkept, hbefore | hget⟩ := ht.view_of hj
      · exact hkept ▸ ho.seen j id row hbefore
      · exact hkept ▸ ho.sound.seen hget
    · rw [Function.update_of_ne hji] at hj
      exact hc.seen hv (ho.seen j id row hj)

theorem Orderly.run (ho : Orderly st l) (ht : QueueTurns s st l h st' l') : Orderly st' l' := by
  induction ht with
  | nil st l => exact ho
  | cons hturn _ ih => exact ih (ho.step hturn)

omit [DecidableEq ι] in
/-- Operations that have not begun are orderly. -/
theorem Orderly.begin (ops : ι → QueueOp) (hq : l.rows.Sound) (hr : l.reserved = ∅) :
    Orderly (fun i => (ops i).begin s) l := by
  refine ⟨hq, ⟨?_, ?_⟩, ?_, ?_⟩ <;> simp [hr]

end Pool

end ClusterJobs
