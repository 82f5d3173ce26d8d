import ClusterJobs.Proofs.Queue.Ledger

/-!
# The stages of queue operations

The operations that write queues, cut at their calls. A stage says which call comes next and what is
known by then; a turn is one call with its answer, what it changes, and the stage it leads to.
-/

namespace ClusterJobs

open QueueManager

/-! ## Operations -/

/-- A queue that is to be created, and the time at which that happens. -/
structure DatedQueue extends NewQueue where
  now : Instant

/-- Changes to a queue, and the time at which they are made. -/
structure DatedUpdate extends QueueUpdate where
  now : Instant

instance : CoeOut DatedUpdate QueueUpdate := ⟨DatedUpdate.toQueueUpdate⟩

/-- The row with the changes that are made at a time. -/
def QueueRow.revise (row : QueueRow) (u : DatedUpdate) : QueueRow :=
  row.update u u.now

/-- The operations that write queues, each with the time that it reads from the clock, if any. -/
inductive QueueOp where
  | create (q : DatedQueue)
  | update (id : Int) (u : DatedUpdate)
  | delete (id : Int)
  | refresh (id : Int) (now : Instant)

namespace QueueOp

/-- What an operation gives. -/
abbrev Result : QueueOp → Type
  | create _ => Except QueueFault QueueRow
  | update _ _ => Except QueueFault QueueRow
  | delete _ => Except QueueFault Unit
  | refresh _ _ => Except QueueFault QueueRow

/-- What an operation does. -/
def program (s : QueueSettings) : (op : QueueOp) → QueueProgram op.Result
  | create q => QueueManager.create s q.toNewQueue q.now
  | update id u => QueueManager.update s id u u.now
  | delete id => QueueManager.delete s id
  | refresh id now => QueueManager.refresh s id now

/-- The row that an operation is about, unless it makes a new one. -/
def target : QueueOp → Option Int
  | create _ => none
  | update id _ => some id
  | delete id => some id
  | refresh id _ => some id

end QueueOp

/-- The name that a new queue gets. -/
def DatedQueue.trimmed (q : DatedQueue) : String :=
  Text.trim q.name

/-- The row of a new queue, before it has an id. -/
def DatedQueue.row (q : DatedQueue) : QueueRow :=
  newRow q.toNewQueue q.trimmed q.now

@[simp]
theorem DatedQueue.row_name (q : DatedQueue) : q.row.name = q.trimmed := rfl

@[simp]
theorem DatedQueue.row_cluster (q : DatedQueue) : q.row.cluster = q.cluster := rfl

@[simp]
theorem QueueRow.manifest_name (row : QueueRow) (s : QueueSettings) :
    (row.manifest s).name = row.name := rfl

section Update

variable (row : QueueRow) (u : DatedUpdate) (s : QueueSettings)

@[simp]
theorem QueueRow.revise_id : (row.revise u).id = row.id := rfl

@[simp]
theorem QueueRow.revise_name : (row.revise u).name = row.name := rfl

@[simp]
theorem QueueRow.revise_cluster : (row.revise u).cluster = row.cluster := rfl

@[simp]
theorem QueueRow.isLocal_revise : (row.revise u).isLocal s = row.isLocal s := rfl

end Update

/-! ## Stages -/

/-- How far an operation has come: the call that is next, and what is known. -/
inductive QueueStage (s : QueueSettings) where
  /-- The name of a new queue is about to be reserved. -/
  | naming (q : DatedQueue)
  /-- The reserved name is about to be looked up. -/
  | seeking (q : DatedQueue)
  /-- No row has the name, and the queue is about to be applied. -/
  | founding (q : DatedQueue) (remote : q.row.isLocal s = false)
  /-- The row is about to be stored. -/
  | storing (q : DatedQueue)
  /-- The name is about to be given back. -/
  | leaving (q : DatedQueue) (r : Except QueueFault QueueRow)
  /-- The row that is to be changed is about to be read. -/
  | changing (id : Int) (u : DatedUpdate)
  /-- The changed row is about to be applied. -/
  | applying (id : Int) (u : DatedUpdate) (row : QueueRow) (checked : checkUpdate row u = .ok ())
      (affects : (Changeset.between row u).affectsCluster) (remote : row.isLocal s = false)
  /-- The changed row is about to be written. -/
  | writing (id : Int) (u : DatedUpdate) (row : QueueRow) (checked : checkUpdate row u = .ok ())
  /-- The row that is to be deleted is about to be read. -/
  | deleting (id : Int)
  /-- The queue is about to be deleted from its cluster. -/
  | clearing (id : Int) (row : QueueRow) (remote : row.isLocal s = false)
  /-- The row is about to be deleted. -/
  | dropping (id : Int) (row : QueueRow)
  /-- The row whose state is to be refreshed is about to be read. -/
  | refreshing (id : Int) (now : Instant)
  /-- The cluster is about to be asked for the state. -/
  | inspecting (id : Int) (row : QueueRow) (now : Instant) (remote : row.isLocal s = false)
  /-- The row is about to be written with its new state. -/
  | noting (id : Int) (row : QueueRow) (state : QueueState) (now : Instant)
  | ended (op : QueueOp) (r : op.Result)

namespace QueueStage

variable {s : QueueSettings}

/-- Whose stage it is. -/
def op : QueueStage s → QueueOp
  | naming q | seeking q | founding q _ | storing q | leaving q _ => .create q
  | changing id u | applying id u _ _ _ _ | writing id u _ _ => .update id u
  | deleting id | clearing id _ _ | dropping id _ => .delete id
  | refreshing id now | inspecting id _ now _ | noting id _ _ now => .refresh id now
  | ended op _ => op

/-- The next call. -/
def next? : QueueStage s → Option QueueCall
  | naming q => some (.reserve q.trimmed)
  | seeking q => some (.findRow q.trimmed)
  | founding q _ => some (.apply q.cluster (q.row.manifest s))
  | storing q => some (.insertRow q.row)
  | leaving q _ => some (.release q.trimmed)
  | changing id _ => some (.getRow id)
  | applying _ u row _ _ _ => some (.apply row.cluster ((row.revise u).manifest s))
  | writing _ u row _ => some (.updateRow (row.revise u))
  | deleting id => some (.getRow id)
  | clearing _ row _ => some (.delete row.cluster row.name)
  | dropping id _ => some (.deleteRow id)
  | refreshing id _ => some (.getRow id)
  | inspecting _ row _ _ => some (.state row.cluster row.name)
  | noting _ row state now => some (.updateRow (row.withState state now))
  | ended _ _ => none

end QueueStage

/-- The stage in which an operation begins. -/
def QueueOp.begin (s : QueueSettings) : QueueOp → QueueStage s
  | create q =>
    if q.trimmed.isEmpty then .ended (create q) (.error (.validation "queue name is empty"))
    else
      match q.capability.check with
      | .error e => .ended (create q) (.error e)
      | .ok () => .naming q
  | update id u => .changing id u
  | delete id => .deleting id
  | refresh id now => .refreshing id now

theorem QueueOp.begin_of_valid (s : QueueSettings) {q : DatedQueue} (hname : q.trimmed ≠ "")
    (hcap : q.capability.check = .ok ()) : (create q).begin s = .naming q := by
  have hempty : ¬ q.trimmed.isEmpty := by simpa using hname
  simp only [begin, if_neg hempty, hcap]

/-- A creation ends at once, or its name and its capability are valid. -/
theorem QueueOp.begin_create (s : QueueSettings) (q : DatedQueue) :
    (∃ e, (create q).begin s = .ended (create q) (.error e)) ∨
      q.trimmed ≠ "" ∧ q.capability.check = .ok () ∧ (create q).begin s = .naming q := by
  by_cases hname : q.trimmed = ""
  · have hempty : q.trimmed.isEmpty := by simpa using hname
    exact .inl ⟨.validation "queue name is empty", by simp only [begin, if_pos hempty]⟩
  · cases hcap : q.capability.check with
    | ok a => exact .inr ⟨hname, rfl, begin_of_valid s hname hcap⟩
    | error e =>
      have hempty : ¬ q.trimmed.isEmpty := by simpa using hname
      exact .inl ⟨e, by simp only [begin, if_neg hempty, hcap]⟩

@[simp]
theorem QueueOp.op_begin (s : QueueSettings) (op : QueueOp) : (op.begin s).op = op := by
  cases op with
  | create q => rcases begin_create s q with ⟨e, h⟩ | ⟨-, -, h⟩ <;> rw [h] <;> rfl
  | update id u => rfl
  | delete id => rfl
  | refresh id now => rfl

/-! ## Turns -/

open QueueLedger in
/-- One call of an operation with its answer, and what comes of it. -/
inductive QueueTurn (s : QueueSettings) :
    QueueStage s → QueueLedger → QueueEvent → QueueStage s → QueueLedger → Prop where
  | taken {q l} : q.trimmed ∈ l.reserved →
      QueueTurn s (.naming q) l ⟨.reserve q.trimmed, false⟩
        (.ended (.create q) (.error (.alreadyExists q.trimmed))) l
  | named {q l} : q.trimmed ∉ l.reserved →
      QueueTurn s (.naming q) l ⟨.reserve q.trimmed, true⟩ (.seeking q)
        { l with reserved := insert q.trimmed l.reserved }
  | known {q l row} : l.rows.find? q.trimmed = some row →
      QueueTurn s (.seeking q) l ⟨.findRow q.trimmed, .ok (some row)⟩
        (.leaving q (.error (.alreadyExists q.trimmed))) l
  | unknown {q l} (remote : q.row.isLocal s = false) : l.rows.find? q.trimmed = none →
      QueueTurn s (.seeking q) l ⟨.findRow q.trimmed, .ok none⟩ (.founding q remote) l
  | unknownLocal {q l} : q.row.isLocal s = true → l.rows.find? q.trimmed = none →
      QueueTurn s (.seeking q) l ⟨.findRow q.trimmed, .ok none⟩ (.storing q) l
  | founded {q l} (remote : q.row.isLocal s = false) :
      QueueTurn s (.founding q remote) l ⟨.apply q.cluster (q.row.manifest s), .ok ()⟩ (.storing q)
        (l.apply q.cluster (q.row.manifest s))
  | unfounded {q l e} (remote : q.row.isLocal s = false) :
      QueueTurn s (.founding q remote) l ⟨.apply q.cluster (q.row.manifest s), .error e⟩
        (.leaving q (.error (.cluster q.cluster e))) l
  | stored {q l row rows} : l.rows.insert q.row = .ok (row, rows) →
      QueueTurn s (.storing q) l ⟨.insertRow q.row, .ok row⟩ (.leaving q (.ok row))
        { l with rows := rows }
  | rejected {q l e} : l.rows.insert q.row = .error e →
      QueueTurn s (.storing q) l ⟨.insertRow q.row, .error e⟩ (.leaving q (.error e)) l
  | left {q r l} :
      QueueTurn s (.leaving q r) l ⟨.release q.trimmed, ()⟩ (.ended (.create q) r)
        { l with reserved := l.reserved.erase q.trimmed }
  | changeMissing {id} {u : DatedUpdate} {l} : l.rows.get? id = none →
      QueueTurn s (.changing id u) l ⟨.getRow id, .ok none⟩
        (.ended (.update id u) (.error (.notFound id))) l
  | changeRefused {id} {u : DatedUpdate} {l row e} :
      l.rows.get? id = some row → checkUpdate row u = .error e →
      QueueTurn s (.changing id u) l ⟨.getRow id, .ok (some row)⟩
        (.ended (.update id u) (.error e)) l
  | changeIdle {id} {u : DatedUpdate} {l row} :
      l.rows.get? id = some row → checkUpdate row u = .ok () →
      (Changeset.between row u).isEmpty = true →
      QueueTurn s (.changing id u) l ⟨.getRow id, .ok (some row)⟩
        (.ended (.update id u) (.ok row)) l
  | changeRemote {id} {u : DatedUpdate} {l row} (checked : checkUpdate row u = .ok ())
      (affects : (Changeset.between row u).affectsCluster) (remote : row.isLocal s = false) :
      l.rows.get? id = some row →
      QueueTurn s (.changing id u) l ⟨.getRow id, .ok (some row)⟩
        (.applying id u row checked affects remote) l
  | changeRow {id} {u : DatedUpdate} {l row} (checked : checkUpdate row u = .ok ()) :
      l.rows.get? id = some row → (Changeset.between row u).isEmpty = false →
      ((Changeset.between row u).affectsCluster = true → row.isLocal s = true) →
      QueueTurn s (.changing id u) l ⟨.getRow id, .ok (some row)⟩ (.writing id u row checked) l
  | applied {id} {u : DatedUpdate} {l row} (checked : checkUpdate row u = .ok ())
      (affects : (Changeset.between row u).affectsCluster) (remote : row.isLocal s = false) :
      QueueTurn s (.applying id u row checked affects remote) l
        ⟨.apply row.cluster ((row.revise u).manifest s), .ok ()⟩ (.writing id u row checked)
        (l.apply row.cluster ((row.revise u).manifest s))
  | unapplied {id} {u : DatedUpdate} {l row e} (checked : checkUpdate row u = .ok ())
      (affects : (Changeset.between row u).affectsCluster) (remote : row.isLocal s = false) :
      QueueTurn s (.applying id u row checked affects remote) l
        ⟨.apply row.cluster ((row.revise u).manifest s), .error e⟩
        (.ended (.update id u) (.error (.cluster row.cluster e))) l
  | written {id} {u : DatedUpdate} {l row rows} (checked : checkUpdate row u = .ok ()) :
      l.rows.update (row.revise u) = .ok rows →
      QueueTurn s (.writing id u row checked) l ⟨.updateRow (row.revise u), .ok ()⟩
        (.ended (.update id u) (.ok (row.revise u))) { l with rows := rows }
  | unwritten {id} {u : DatedUpdate} {l row e} (checked : checkUpdate row u = .ok ()) :
      l.rows.update (row.revise u) = .error e →
      QueueTurn s (.writing id u row checked) l ⟨.updateRow (row.revise u), .error e⟩
        (.ended (.update id u) (.error e)) l
  | deleteMissing {id l} : l.rows.get? id = none →
      QueueTurn s (.deleting id) l ⟨.getRow id, .ok none⟩
        (.ended (.delete id) (.error (.notFound id))) l
  | deleteRemote {id l row} (remote : row.isLocal s = false) : l.rows.get? id = some row →
      QueueTurn s (.deleting id) l ⟨.getRow id, .ok (some row)⟩ (.clearing id row remote) l
  | deleteLocal {id l row} : l.rows.get? id = some row → row.isLocal s = true →
      QueueTurn s (.deleting id) l ⟨.getRow id, .ok (some row)⟩ (.dropping id row) l
  | cleared {id l row} (remote : row.isLocal s = false) :
      QueueTurn s (.clearing id row remote) l ⟨.delete row.cluster row.name, .ok ()⟩
        (.dropping id row) (l.remove row.cluster row.name)
  | uncleared {id l row e} (remote : row.isLocal s = false) :
      QueueTurn s (.clearing id row remote) l ⟨.delete row.cluster row.name, .error e⟩
        (.ended (.delete id) (.error (.cluster row.cluster e))) l
  | dropped {id row l} :
      QueueTurn s (.dropping id row) l ⟨.deleteRow id, .ok ()⟩ (.ended (.delete id) (.ok ()))
        { l with rows := l.rows.delete id }
  | refreshMissing {id now l} : l.rows.get? id = none →
      QueueTurn s (.refreshing id now) l ⟨.getRow id, .ok none⟩
        (.ended (.refresh id now) (.error (.notFound id))) l
  | refreshLocal {id now l row} : l.rows.get? id = some row → row.isLocal s = true →
      QueueTurn s (.refreshing id now) l ⟨.getRow id, .ok (some row)⟩
        (.ended (.refresh id now) (.ok row)) l
  | refreshRemote {id now l row} (remote : row.isLocal s = false) : l.rows.get? id = some row →
      QueueTurn s (.refreshing id now) l ⟨.getRow id, .ok (some row)⟩
        (.inspecting id row now remote) l
  | unseen {id l row now e} (remote : row.isLocal s = false) :
      QueueTurn s (.inspecting id row now remote) l ⟨.state row.cluster row.name, .error e⟩
        (.ended (.refresh id now) (.error (.cluster row.cluster e))) l
  | same {id l row now state} (remote : row.isLocal s = false) : state.getD .unknown = row.state →
      QueueTurn s (.inspecting id row now remote) l ⟨.state row.cluster row.name, .ok state⟩
        (.ended (.refresh id now) (.ok row)) l
  | differs {id l row now state} (remote : row.isLocal s = false) :
      state.getD .unknown ≠ row.state →
      QueueTurn s (.inspecting id row now remote) l ⟨.state row.cluster row.name, .ok state⟩
        (.noting id row (state.getD .unknown) now) l
  | noted {id l row now state rows} : l.rows.update (row.withState state now) = .ok rows →
      QueueTurn s (.noting id row state now) l ⟨.updateRow (row.withState state now), .ok ()⟩
        (.ended (.refresh id now) (.ok (row.withState state now))) { l with rows := rows }
  | unnoted {id l row now state e} : l.rows.update (row.withState state now) = .error e →
      QueueTurn s (.noting id row state now) l ⟨.updateRow (row.withState state now), .error e⟩
        (.ended (.refresh id now) (.error e)) l

end ClusterJobs
