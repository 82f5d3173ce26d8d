import Mathlib.Data.Finset.Basic
import ClusterJobs.Proofs.Interleaving
import ClusterJobs.Simulation.Queues

/-!
# What queue operations leave behind

A ledger holds all that queue operations can change: the rows, the records of tasks, the names that
are being created, and the queues that were last applied to the clusters. Rows are written as told;
a call to a cluster takes effect or fails, and a failed call changes nothing.
-/

namespace ClusterJobs

/-! ## Rows -/

namespace QueueRows

/-- No id is used twice, and none that is still to be given out. -/
structure Sound (q : QueueRows) : Prop where
  nodup : (q.rows.map QueueRow.id).Nodup
  fresh : ∀ r ∈ q.rows, r.id < q.nextId

theorem sound_empty : empty.Sound :=
  ⟨List.nodup_nil, by simp [empty]⟩

variable {q q' : QueueRows} {r row stored : QueueRow} {id : Int} {name : String}

theorem Sound.eq_of_id (hq : q.Sound) (hr : r ∈ q.rows) (hrow : row ∈ q.rows)
    (h : r.id = row.id) : r = row :=
  List.inj_on_of_nodup_map hq.nodup hr hrow h

theorem mem_of_get? (h : q.get? id = some r) : r ∈ q.rows ∧ r.id = id := by
  have hid := List.find?_some h
  exact ⟨List.mem_of_find?_eq_some h, by simpa using hid⟩

theorem Sound.get?_eq_some_iff (hq : q.Sound) : q.get? id = some r ↔ r ∈ q.rows ∧ r.id = id := by
  refine ⟨mem_of_get?, ?_⟩
  rintro ⟨hr, rfl⟩
  cases hg : q.get? r.id with
  | none => simpa using List.find?_eq_none.1 hg r hr
  | some r' =>
    obtain ⟨hr', hid⟩ := mem_of_get? hg
    rw [hq.eq_of_id hr' hr hid]

theorem find?_eq_none_iff : q.find? name = none ↔ ∀ r ∈ q.rows, r.name ≠ name := by
  simp [find?]

/-- A row is stored if its name is free, under an id of its own. -/
theorem insert_eq_ok_iff : q.insert row = .ok (stored, q') ↔
    (∀ r ∈ q.rows, r.name ≠ row.name) ∧ stored = { row with id := q.nextId } ∧
      q' = ⟨q.rows ++ [stored], q.nextId + 1⟩ := by
  unfold insert
  split
  · next hany =>
    obtain ⟨r, hr, hn⟩ := List.any_eq_true.1 hany
    have hn : r.name = row.name := by simpa using hn
    constructor
    · intro h
      cases h
    · rintro ⟨hfree, -⟩
      exact absurd hn (hfree r hr)
  · next hany =>
    have hfree : ∀ r ∈ q.rows, r.name ≠ row.name := by simpa using hany
    constructor
    · intro h
      cases h
      exact ⟨hfree, rfl, rfl⟩
    · rintro ⟨-, rfl, rfl⟩
      rfl

theorem mem_insert (h : q.insert row = .ok (stored, q')) :
    r ∈ q'.rows ↔ r ∈ q.rows ∨ r = stored := by
  obtain ⟨-, -, rfl⟩ := insert_eq_ok_iff.1 h
  simp

theorem insert_eq_error {e : QueueFault} (h : q.insert row = .error e) :
    e = .alreadyExists row.name ∧ ∃ r ∈ q.rows, r.name = row.name := by
  unfold insert at h
  split at h
  · next hany =>
    cases h
    exact ⟨rfl, by simpa using hany⟩
  · cases h

/-- A row replaces the one of its id, if there is one. -/
theorem update_eq_ok_iff : q.update row = .ok q' ↔
    (∃ r ∈ q.rows, r.id = row.id) ∧
      q' = { q with rows := q.rows.map fun r => if r.id == row.id then row else r } := by
  unfold update
  split
  · next hany =>
    have hex : ∃ r ∈ q.rows, r.id = row.id := by simpa using hany
    constructor
    · intro h
      cases h
      exact ⟨hex, rfl⟩
    · rintro ⟨-, rfl⟩
      rfl
  · next hany =>
    constructor
    · intro h
      cases h
    · rintro ⟨hex, -⟩
      exact absurd (by simpa using hex) hany

theorem update_eq_error {e : QueueFault} (h : q.update row = .error e) :
    e = .notFound row.id ∧ ∀ r ∈ q.rows, r.id ≠ row.id := by
  unfold update at h
  split at h
  · cases h
  · next hany =>
    cases h
    exact ⟨rfl, by simpa using hany⟩

theorem update_of_missing (h : ∀ r ∈ q.rows, r.id ≠ row.id) :
    q.update row = .error (.notFound row.id) := by
  unfold update
  rw [if_neg (by simpa using h)]

theorem exists_update (h : r ∈ q.rows) (hid : r.id = row.id) : ∃ q', q.update row = .ok q' :=
  ⟨_, update_eq_ok_iff.2 ⟨⟨r, h, hid⟩, rfl⟩⟩

theorem mem_update (h : q.update row = .ok q') :
    r ∈ q'.rows ↔ r = row ∨ r ∈ q.rows ∧ r.id ≠ row.id := by
  obtain ⟨⟨o, ho, hid⟩, rfl⟩ := update_eq_ok_iff.1 h
  constructor
  · intro hr
    obtain ⟨p, hp, rfl⟩ := List.mem_map.1 hr
    by_cases hpid : p.id = row.id
    · exact .inl (by simp [hpid])
    · exact .inr (by simpa [hpid] using hp)
  · rintro (rfl | ⟨hr, hne⟩)
    · exact List.mem_map.2 ⟨o, ho, by simp [hid]⟩
    · exact List.mem_map.2 ⟨r, hr, by simp [hne]⟩

/-- A row that is replaced is found, and so are all the others as before. -/
theorem get?_update (h : q.update row = .ok q') (id : Int) :
    q'.get? id = if row.id = id then some row else q.get? id := by
  obtain ⟨⟨o, ho, hid⟩, rfl⟩ := update_eq_ok_iff.1 h
  have hids (r : QueueRow) : (if r.id == row.id then row else r).id = r.id := by
    by_cases hr : r.id = row.id <;> simp [hr]
  have hmap : QueueRows.get?
      { q with rows := q.rows.map fun r => if r.id == row.id then row else r } id =
        (q.get? id).map fun r => if r.id == row.id then row else r := by
    simp only [get?, List.find?_map, Function.comp_def, hids]
  rw [hmap]
  cases hget : q.get? id with
  | none =>
    have hne : row.id ≠ id := by simpa [hid] using List.find?_eq_none.1 hget o ho
    simp [hne]
  | some r =>
    obtain ⟨-, rfl⟩ := mem_of_get? hget
    by_cases hr : r.id = row.id
    · simp [hr]
    · simp [hr, Ne.symm hr]

theorem mem_delete : r ∈ (q.delete id).rows ↔ r ∈ q.rows ∧ r.id ≠ id := by
  simp [delete]

theorem Sound.insert (hq : q.Sound) (h : q.insert row = .ok (stored, q')) : q'.Sound := by
  have hmem := @mem_insert q q'
  obtain ⟨-, rfl, rfl⟩ := insert_eq_ok_iff.1 h
  constructor
  · rw [List.map_append, List.nodup_append]
    refine ⟨hq.nodup, List.nodup_singleton _, ?_⟩
    intro a ha b hb
    obtain ⟨r, hr, rfl⟩ := List.mem_map.1 ha
    have hlt := hq.fresh r hr
    simp only [List.map_cons, List.map_nil, List.mem_singleton] at hb
    omega
  · intro r hr
    rcases (hmem h).1 hr with hr | rfl
    · exact Int.lt_trans (hq.fresh r hr) (Int.lt_succ _)
    · exact Int.lt_succ _

theorem Sound.update (hq : q.Sound) (h : q.update row = .ok q') : q'.Sound := by
  have hmem := @mem_update q q'
  obtain ⟨⟨o, ho, hid⟩, rfl⟩ := update_eq_ok_iff.1 h
  constructor
  · have hids : (q.rows.map fun r => if r.id == row.id then row else r).map QueueRow.id =
        q.rows.map QueueRow.id := by
      rw [List.map_map]
      refine List.map_congr_left ?_
      intro r _
      by_cases hr : r.id = row.id <;> simp [hr]
    simpa only [hids] using hq.nodup
  · intro r hr
    rcases (hmem h).1 hr with rfl | ⟨hr, -⟩
    · exact hid ▸ hq.fresh o ho
    · exact hq.fresh r hr

theorem Sound.delete (hq : q.Sound) (id : Int) : (q.delete id).Sound :=
  ⟨hq.nodup.sublist (List.filter_sublist.map _), fun r hr => hq.fresh r (mem_delete.1 hr).1⟩

end QueueRows

/-! ## Ledgers -/

/-- All that queue operations can change. -/
structure QueueLedger where
  rows : QueueRows
  tasks : TaskRows
  /-- The names that are being created. -/
  reserved : Finset String
  /-- The queue last applied, by cluster and name. -/
  held : String × String → Option GangQueue

/-- What an operation did to its surroundings. -/
abbrev QueueEvent := Program.Event QueueCall QueueAnswer

namespace QueueLedger

def empty : QueueLedger :=
  ⟨.empty, [], ∅, fun _ => none⟩

/-- The queue is on the cluster. -/
def apply (l : QueueLedger) (cluster : String) (queue : GangQueue) : QueueLedger :=
  { l with held := Function.update l.held (cluster, queue.name) (some queue) }

/-- No queue of this name is on the cluster. -/
def remove (l : QueueLedger) (cluster name : String) : QueueLedger :=
  { l with held := Function.update l.held (cluster, name) none }

/-- A call gives its result and takes effect, or fails and changes nothing. -/
def Attempt {ε α : Type} (l : QueueLedger) (answer : Except ε α) (result : α)
    (effect l' : QueueLedger) : Prop :=
  match answer with
  | .ok a => a = result ∧ l' = effect
  | .error _ => l' = l

/-- How calls may be answered, and what they change. -/
def serves : Program.Service QueueCall QueueAnswer QueueLedger
  | .reserve name, l, free, l' =>
    free = decide (name ∉ l.reserved) ∧ l' = { l with reserved := insert name l.reserved }
  | .release name, l, _, l' => l' = { l with reserved := l.reserved.erase name }
  | .insertRow row, l, x, l' =>
    match l.rows.insert row with
    | .ok (stored, rows) => x = .ok stored ∧ l' = { l with rows := rows }
    | .error e => x = .error e ∧ l' = l
  | .getRow id, l, x, l' => x = .ok (l.rows.get? id) ∧ l' = l
  | .findRow name, l, x, l' => x = .ok (l.rows.find? name) ∧ l' = l
  | .updateRow row, l, x, l' =>
    match l.rows.update row with
    | .ok rows => x = .ok () ∧ l' = { l with rows := rows }
    | .error e => x = .error e ∧ l' = l
  | .deleteRow id, l, x, l' => x = .ok () ∧ l' = { l with rows := l.rows.delete id }
  | .listRows project page pageSize, l, x, l' =>
    x = .ok (l.rows.list project page pageSize) ∧ l' = l
  | .findTask code, l, x, l' => l.Attempt x (l.tasks.get? code) l l'
  | .upsertTask task, l, x, l' =>
    l.Attempt x (l.tasks.get? task.code).isNone { l with tasks := l.tasks.put task } l'
  | .setStatus code status now, l, x, l' =>
    l.Attempt x (l.tasks.get? code).isSome
      { l with tasks := l.tasks.setStatus code status now } l'
  | .listTasks queue status, l, x, l' => l.Attempt x (l.tasks.ofQueue queue status) l l'
  | .apply cluster queue, l, x, l' => l.Attempt x () (l.apply cluster queue) l'
  | .delete cluster name, l, x, l' => l.Attempt x () (l.remove cluster name) l'
  | .state _ _, l, _, l' => l' = l

end QueueLedger

/-! ## The rehearsal -/

namespace Simulation.QueueWorld

end Simulation.QueueWorld

/-! ## One queue -/

/-- A cluster named "local" never receives queues. -/
def QueueSettings.plain : QueueSettings :=
  ⟨"local", "nvidia.com/gpu", []⟩

/-- The first row, on another cluster. -/
def QueueRow.vision : QueueRow :=
  ⟨1, "vision", none, none, "prod", 1, true, .unlimited, .unknown, ⟨0⟩, ⟨0⟩⟩

/-- The first row is stored, and its queue is on its cluster. -/
def QueueLedger.vision : QueueLedger where
  rows := ⟨[.vision], 2⟩
  tasks := []
  reserved := ∅
  held := Function.update (fun _ => none) ("prod", "vision")
    (some (QueueRow.vision.manifest .plain))

end ClusterJobs
