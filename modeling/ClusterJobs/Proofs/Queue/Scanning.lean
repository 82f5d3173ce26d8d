import ClusterJobs.Proofs.Queue.Records

/-!
# Rows and records in order

Rows are kept by increasing id and records by increasing code, whatever programs take turns on them.
So a scan that meets them in any order and then sorts by the key gives them as they are kept.
-/

namespace ClusterJobs

open Program

/-! ## Scans -/

/-- A list with increasing keys is what sorting makes of it, in whatever order it is scanned. -/
theorem mergeSort_of_scan {α : Type} {key : α → Int} {kept scan : List α}
    (hkept : (kept.map key).Pairwise (· < ·)) (hscan : scan.Perm kept) :
    scan.mergeSort (fun a b => decide (key a ≤ key b)) = kept := by
  have hsorted : (scan.mergeSort fun a b => decide (key a ≤ key b)).Pairwise
      fun a b => decide (key a ≤ key b) = true :=
    List.pairwise_mergeSort (fun a b c => by simpa using le_trans)
      (fun a b => by simpa using le_total _ _) scan
  have hperm := (List.mergeSort_perm scan fun a b => decide (key a ≤ key b)).trans hscan
  refine hperm.eq_of_pairwise ?_ (hsorted.imp of_decide_eq_true)
    ((List.pairwise_map.1 hkept).imp le_of_lt)
  intro a b ha hb hab hba
  exact List.inj_on_of_nodup_map (hkept.imp ne_of_lt) (hperm.subset ha) hb (le_antisymm hab hba)

theorem mergeSort_filter_of_scan {α : Type} {key : α → Int} {kept scan : List α}
    (hkept : (kept.map key).Pairwise (· < ·)) (hscan : scan.Perm kept) (p : α → Bool) :
    (scan.filter p).mergeSort (fun a b => decide (key a ≤ key b)) = kept.filter p :=
  mergeSort_of_scan (hkept.sublist (List.filter_sublist.map key)) (hscan.filter p)

/-- A list with increasing keys is determined by what is in it. -/
theorem eq_of_increasing {α : Type} {key : α → Int} {xs ys : List α}
    (hxs : (xs.map key).Pairwise (· < ·)) (hys : (ys.map key).Pairwise (· < ·))
    (h : ∀ a, a ∈ xs ↔ a ∈ ys) : xs = ys := by
  have hnodup {zs : List α} (hzs : (zs.map key).Pairwise (· < ·)) : zs.Nodup :=
    List.Nodup.of_map key (hzs.imp ne_of_lt)
  have hperm : xs.Perm ys := (List.perm_ext_iff_of_nodup (hnodup hxs) (hnodup hys)).2 h
  exact (mergeSort_of_scan hxs (.refl xs)).symm.trans (mergeSort_of_scan hys hperm)

/-! ## Rows -/

namespace QueueRows

variable {q q' : QueueRows}

/-- Ids increase, and a row that is inserted gets a larger one. -/
structure Ascending (q : QueueRows) : Prop where
  increasing : (q.rows.map QueueRow.id).Pairwise (· < ·)
  below : ∀ r ∈ q.rows, r.id < q.nextId

theorem ascending_empty : empty.Ascending :=
  ⟨.nil, by simp [empty]⟩

/-- What a call makes of the rows. -/
inductive Step (q q' : QueueRows) : Prop where
  | kept : q' = q → Step q q'
  | inserted {row stored : QueueRow} : q.insert row = .ok (stored, q') → Step q q'
  | updated {row : QueueRow} : q.update row = .ok q' → Step q q'
  | deleted {id : Int} : q' = q.delete id → Step q q'

theorem Ascending.step (ha : q.Ascending) (hs : Step q q') : q'.Ascending := by
  cases hs with
  | kept h => exact h ▸ ha
  | inserted hins =>
    obtain ⟨-, rfl, rfl⟩ := insert_eq_ok_iff.1 hins
    constructor
    · simp only [List.map_append, List.pairwise_append, List.map_cons, List.map_nil,
        List.pairwise_singleton, List.mem_singleton, forall_eq, List.forall_mem_map, true_and]
      exact ⟨ha.increasing, ha.below⟩
    · intro r hr
      rcases (mem_insert hins).1 hr with hr | rfl
      · exact (ha.below r hr).trans (Int.lt_succ _)
      · exact Int.lt_succ _
  | @updated row hupd =>
    obtain ⟨⟨o, ho, hid⟩, rfl⟩ := update_eq_ok_iff.1 hupd
    have hids : (q.rows.map fun r => if r.id == row.id then row else r).map QueueRow.id =
        q.rows.map QueueRow.id := by
      rw [List.map_map]
      refine List.map_congr_left fun r _ => ?_
      by_cases hr : r.id = row.id <;> simp [hr]
    constructor
    · rw [hids]
      exact ha.increasing
    · intro r hr
      rcases (mem_update hupd).1 hr with rfl | ⟨hr, -⟩
      · exact hid ▸ ha.below o ho
      · exact ha.below r hr
  | deleted h =>
    subst h
    exact ⟨ha.increasing.sublist (List.filter_sublist.map _),
      fun r hr => ha.below r (mem_delete.1 hr).1⟩

end QueueRows

/-! ## Records -/

namespace TaskRows

variable {ts ts' : TaskRows}

/-- What a call makes of the records. -/
inductive Step (ts ts' : TaskRows) : Prop where
  | kept : ts' = ts → Step ts ts'
  | stored {t : QueuedTask} : ts' = ts.put t → Step ts ts'
  | moved {code : Int} {status : TaskStatus} {now : Instant} :
      ts' = ts.setStatus code status now → Step ts ts'

theorem Ordered.step (ho : ts.Ordered) (hs : Step ts ts') : ts'.Ordered := by
  cases hs with
  | kept h => exact h ▸ ho
  | stored h => exact h ▸ ho.put _
  | moved h => exact h ▸ ho.setStatus _ _ _

end TaskRows

/-! ## Calls and interleavings -/

section Ledger

variable {l l' : QueueLedger} {c : QueueCall} {x : QueueAnswer c}

theorem rows_step_of_serves (hs : QueueLedger.serves c l x l') : l.rows.Step l'.rows := by
  cases c with
  | insertRow row =>
    simp only [QueueLedger.serves] at hs
    cases hins : l.rows.insert row with
    | error e =>
      rw [hins] at hs
      exact .kept (by rw [hs.2])
    | ok stored =>
      rw [hins] at hs
      exact .inserted (by rw [hs.2]; exact hins)
  | updateRow row =>
    simp only [QueueLedger.serves] at hs
    cases hupd : l.rows.update row with
    | error e =>
      rw [hupd] at hs
      exact .kept (by rw [hs.2])
    | ok rows =>
      rw [hupd] at hs
      exact .updated (by rw [hs.2]; exact hupd)
  | deleteRow id => exact .deleted (by rw [hs.2])
  | reserve name | getRow id | findRow name | listRows project page pageSize =>
    exact .kept (by rw [hs.2])
  | release name | state cluster name =>
    obtain rfl : l' = _ := hs
    exact .kept rfl
  | _ =>
    cases x with
    | ok a =>
      obtain ⟨-, rfl⟩ := hs
      exact .kept rfl
    | error e =>
      obtain rfl : l' = l := hs
      exact .kept rfl

theorem tasks_step_of_serves (hs : QueueLedger.serves c l x l') : l.tasks.Step l'.tasks := by
  cases c with
  | upsertTask t =>
    cases x with
    | ok isNew => exact .stored (by rw [hs.2])
    | error e =>
      obtain rfl : l' = l := hs
      exact .kept rfl
  | setStatus code status now =>
    cases x with
    | ok known => exact .moved (by rw [hs.2])
    | error e =>
      obtain rfl : l' = l := hs
      exact .kept rfl
  | insertRow row =>
    simp only [QueueLedger.serves] at hs
    cases hins : l.rows.insert row <;> rw [hins] at hs <;> exact .kept (by rw [hs.2])
  | updateRow row =>
    simp only [QueueLedger.serves] at hs
    cases hupd : l.rows.update row <;> rw [hupd] at hs <;> exact .kept (by rw [hs.2])
  | reserve name | deleteRow id | getRow id | findRow name | listRows project page pageSize =>
    exact .kept (by rw [hs.2])
  | release name | state cluster name =>
    obtain rfl : l' = _ := hs
    exact .kept rfl
  | _ =>
    cases x with
    | ok a =>
      obtain ⟨-, rfl⟩ := hs
      exact .kept rfl
    | error e =>
      obtain rfl : l' = l := hs
      exact .kept rfl

end Ledger

section Reached

variable {ι : Type} [DecidableEq ι] {res : ι → Type} {ps qs : (i : ι) → QueueProgram (res i)}
  {l l' : QueueLedger} {h : List (ι × QueueEvent)}

/-- Whatever programs take turns, rows stay in order. -/
theorem ascending_of_interleaves (hi : Interleaves QueueLedger.serves ps l h qs l')
    (ha : l.rows.Ascending) : l'.rows.Ascending :=
  hi.keeps (fun l => l.rows.Ascending)
    (fun _ _ _ _ hs ha => ha.step (rows_step_of_serves hs)) ha

/-- A history of calls leads here from no records, whoever makes them and in whatever order. -/
inductive QueueLedger.Reached : QueueLedger → Prop where
  | start {l : QueueLedger} : l.tasks = [] → Reached l
  | call {l l' : QueueLedger} {c : QueueCall} {x : QueueAnswer c} :
      Reached l → QueueLedger.serves c l x l' → Reached l'

theorem QueueLedger.Reached.ordered (hl : l.Reached) : l.tasks.Ordered := by
  induction hl with
  | start hempty =>
    rw [hempty]
    exact .nil
  | call _ hs ih => exact ih.step (tasks_step_of_serves hs)

end Reached

end ClusterJobs
