import ClusterJobs.Proofs.Queue.Stages

/-!
# Interleavings as turns

What is left of an operation is determined by its stage, so an interleaving of operations is a row
of turns. Properties of interleavings are proved over turns, which name every case.
-/

namespace ClusterJobs

open Program QueueManager

/-! ## Programs at a stage -/

namespace QueueStage

variable {s : QueueSettings}

/-- Gives the name of a new queue back. -/
def leave (q : DatedQueue) (r : Except QueueFault QueueRow) :
    QueueProgram (Except QueueFault QueueRow) :=
  .ask (.release q.trimmed) fun _ => .done r

/-- Stores the row of a new queue, unless its queue could not be applied. -/
def store (q : DatedQueue) : Except QueueFault Unit → QueueProgram (Except QueueFault QueueRow)
  | .error e => .done (.error e)
  | .ok () => .ask (.insertRow q.row) .done

/-- Writes a row. -/
def write (row : QueueRow) : QueueProgram (Except QueueFault QueueRow) :=
  .ask (.updateRow row) fun x => match x with
    | .error e => .done (.error e)
    | .ok () => .done (.ok row)

/-- Writes a row, unless its queue could not be applied. -/
def writeAfter (row : QueueRow) : Except QueueFault Unit → QueueProgram (Except QueueFault QueueRow)
  | .error e => .done (.error e)
  | .ok () => write row

/-- Changes a row that was read. -/
def change (s : QueueSettings) (u : DatedUpdate) (row : QueueRow) :
    QueueProgram (Except QueueFault QueueRow) :=
  match checkUpdate row u with
  | .error e => .done (.error e)
  | .ok () =>
    if (Changeset.between row u).isEmpty then .done (.ok row)
    else writeChanged s (row.revise u) (Changeset.between row u)

/-- Deletes a row, unless its queue could not be deleted. -/
def deleteAfter (id : Int) : Except QueueFault Unit → QueueProgram (Except QueueFault Unit)
  | .error e => .done (.error e)
  | .ok () => .ask (.deleteRow id) .done

/-- Deletes a row that was read. -/
def drop (s : QueueSettings) (id : Int) (row : QueueRow) : QueueProgram (Except QueueFault Unit) :=
  if row.isLocal s then .ask (.deleteRow id) .done
  else (deleteFromCluster s row).bind (deleteAfter id)

/-- Refreshes the state of a row that was read. -/
def inspect (s : QueueSettings) (row : QueueRow) (now : Instant) :
    QueueProgram (Except QueueFault QueueRow) :=
  if row.isLocal s then .done (.ok row)
  else .ask (.state row.cluster row.name) fun x => match x with
    | .error e => .done (.error (.cluster row.cluster e))
    | .ok state => writeState row (state.getD .unknown) now

/-- What is left of an operation at a stage. -/
inductive At (s : QueueSettings) :
    (op : QueueOp) → QueueStage s → QueueProgram op.Result → Prop where
  | naming (q) : At s (.create q) (.naming q) (.ask (.reserve q.trimmed) fun (free : Bool) =>
      if free then (createReserved s q.toNewQueue q.trimmed q.now).bind (leave q)
      else .done (.error (.alreadyExists q.trimmed)))
  | seeking (q) : At s (.create q) (.seeking q)
      ((createReserved s q.toNewQueue q.trimmed q.now).bind (leave q))
  | founding (q remote) : At s (.create q) (.founding q remote)
      (((q.row.applyTo s).bind (store q)).bind (leave q))
  | storing (q) : At s (.create q) (.storing q) (.ask (.insertRow q.row) (leave q))
  | leaving (q r) : At s (.create q) (.leaving q r) (leave q r)
  | changing (id u) : At s (.update id u) (.changing id u) (QueueManager.update s id u u.now)
  | applying (id u row checked affects remote) :
      At s (.update id u) (.applying id u row checked affects remote)
        (((row.revise u).applyTo s).bind (writeAfter (row.revise u)))
  | writing (id u row checked) :
      At s (.update id u) (.writing id u row checked) (write (row.revise u))
  | deleting (id) : At s (.delete id) (.deleting id) (QueueManager.delete s id)
  | clearing (id row remote) : At s (.delete id) (.clearing id row remote)
      ((deleteFromCluster s row).bind (deleteAfter id))
  | dropping (id row) : At s (.delete id) (.dropping id row) (.ask (.deleteRow id) .done)
  | refreshing (id now) : At s (.refresh id now) (.refreshing id now) (QueueManager.refresh s id now)
  | inspecting (id row now remote) : At s (.refresh id now) (.inspecting id row now remote)
      (.ask (.state row.cluster row.name) fun x => match x with
        | .error e => .done (.error (.cluster row.cluster e))
        | .ok state => writeState row (state.getD .unknown) now)
  | noting (id row state now) : At s (.refresh id now) (.noting id row state now)
      (write (row.withState state now))
  | ended (op r) : At s op (.ended op r) (.done r)

/-- Every operation is at its first stage. -/
theorem at_begin (op : QueueOp) : At s op (op.begin s) (op.program s) := by
  cases op with
  | create q =>
    simp only [QueueOp.begin, QueueOp.program, create]
    by_cases hname : q.trimmed.isEmpty
    · have htrim : (Text.trim q.name).isEmpty := hname
      rw [if_pos hname, if_pos htrim]
      exact .ended (.create q) _
    · have htrim : ¬ (Text.trim q.name).isEmpty := hname
      rw [if_neg hname, if_neg htrim]
      cases hcap : q.capability.check with
      | error e => exact .ended (.create q) (.error e)
      | ok u => exact .naming q
  | update id u => exact .changing id u
  | delete id => exact .deleting id
  | refresh id now => exact .refreshing id now

theorem At.ended_of_done {op : QueueOp} {st : QueueStage s} {r : op.Result}
    (h : At s op st (.done r)) : st = .ended op r := by
  generalize hp : (Program.done r : QueueProgram op.Result) = p at h
  cases h with
  | ended op r' =>
    cases hp
    rfl
  | _ => cases hp

/-! ## Calls are turns -/

theorem applyUnlessLocal_of_local {row : QueueRow} (h : row.isLocal s = true) :
    row.applyUnlessLocal s = .done (.ok ()) :=
  if_pos h

theorem applyUnlessLocal_of_remote {row : QueueRow} (h : row.isLocal s = false) :
    row.applyUnlessLocal s = row.applyTo s :=
  if_neg (by simp [h])

theorem writeChanged_of_remote (row : QueueRow) {changes : Changeset}
    (affects : changes.affectsCluster) (remote : row.isLocal s = false) :
    writeChanged s row changes = (row.applyTo s).bind (writeAfter row) := by
  unfold writeChanged
  rw [if_pos affects, applyUnlessLocal_of_remote remote]
  rfl

theorem writeChanged_of_quiet (row : QueueRow) {changes : Changeset}
    (quiet : changes.affectsCluster = true → row.isLocal s = true) :
    writeChanged s row changes = write row := by
  unfold writeChanged
  by_cases affects : changes.affectsCluster = true
  · rw [if_pos affects, applyUnlessLocal_of_local (quiet affects)]
    rfl
  · rw [if_neg affects]
    rfl

variable {l l' : QueueLedger} {id : Int} {row : QueueRow} {now : Instant}

/-- A name that no row has is applied, or stored at once on the local cluster. -/
theorem turn_unknown {q : DatedQueue} (hfind : l.rows.find? q.trimmed = none) :
    ∃ st', At s (.create q) st' (((q.row.applyUnlessLocal s).bind (store q)).bind (leave q)) ∧
      QueueTurn s (.seeking q) l ⟨.findRow q.trimmed, .ok none⟩ st' l := by
  cases hlocal : q.row.isLocal s with
  | true =>
    rw [applyUnlessLocal_of_local hlocal]
    exact ⟨_, .storing q, .unknownLocal hlocal hfind⟩
  | false =>
    rw [applyUnlessLocal_of_remote hlocal]
    exact ⟨_, .founding q hlocal, .unknown hlocal hfind⟩

theorem turn_change {u : DatedUpdate} (hget : l.rows.get? id = some row) :
    ∃ st', At s (.update id u) st' (change s u row) ∧
      QueueTurn s (.changing id u) l ⟨.getRow id, .ok (some row)⟩ st' l := by
  unfold change
  cases hcheck : checkUpdate row u with
  | error e => exact ⟨_, .ended (.update id u) _, .changeRefused hget hcheck⟩
  | ok a =>
    simp only
    cases hempty : (Changeset.between row u).isEmpty with
    | true =>
      rw [if_pos rfl]
      exact ⟨_, .ended (.update id u) _, .changeIdle hget hcheck hempty⟩
    | false =>
      rw [if_neg Bool.false_ne_true]
      by_cases hquiet : (Changeset.between row u).affectsCluster = true → row.isLocal s = true
      · rw [writeChanged_of_quiet (row.revise u) hquiet]
        exact ⟨_, .writing id u row hcheck, .changeRow hcheck hget hempty hquiet⟩
      · obtain ⟨affects, hlocal⟩ := Classical.not_imp.1 hquiet
        have remote : row.isLocal s = false := by simpa using hlocal
        rw [writeChanged_of_remote (row.revise u) affects remote]
        exact ⟨_, .applying id u row hcheck affects remote,
          .changeRemote hcheck affects remote hget⟩

theorem turn_drop (hget : l.rows.get? id = some row) :
    ∃ st', At s (.delete id) st' (drop s id row) ∧
      QueueTurn s (.deleting id) l ⟨.getRow id, .ok (some row)⟩ st' l := by
  unfold drop
  cases hlocal : row.isLocal s with
  | true =>
    rw [if_pos rfl]
    exact ⟨_, .dropping id row, .deleteLocal hget hlocal⟩
  | false =>
    rw [if_neg Bool.false_ne_true]
    exact ⟨_, .clearing id row hlocal, .deleteRemote hlocal hget⟩

theorem turn_inspect (hget : l.rows.get? id = some row) :
    ∃ st', At s (.refresh id now) st' (inspect s row now) ∧
      QueueTurn s (.refreshing id now) l ⟨.getRow id, .ok (some row)⟩ st' l := by
  unfold inspect
  cases hlocal : row.isLocal s with
  | true =>
    rw [if_pos rfl]
    exact ⟨_, .ended (.refresh id now) _, .refreshLocal hget hlocal⟩
  | false =>
    rw [if_neg Bool.false_ne_true]
    exact ⟨_, .inspecting id row now hlocal, .refreshRemote hlocal hget⟩

theorem turn_state (remote : row.isLocal s = false) (state : Option QueueState) :
    ∃ st', At s (.refresh id now) st' (writeState row (state.getD .unknown) now) ∧
      QueueTurn s (.inspecting id row now remote) l ⟨.state row.cluster row.name, .ok state⟩ st' l := by
  unfold writeState
  by_cases hstate : state.getD .unknown = row.state
  · rw [if_pos hstate]
    exact ⟨_, .ended (.refresh id now) _, .same remote hstate⟩
  · rw [if_neg hstate]
    exact ⟨_, .noting id row _ now, .differs remote hstate⟩

/-- A call of a program is a turn of its stage. -/
theorem At.turn {op : QueueOp} {st : QueueStage s} {c : QueueCall}
    {next : QueueAnswer c → QueueProgram op.Result} {x : QueueAnswer c}
    (h : At s op st (.ask c next)) (hs : QueueLedger.serves c l x l') :
    ∃ st', At s op st' (next x) ∧ QueueTurn s st l ⟨c, x⟩ st' l' := by
  generalize hp : (Program.ask c next : QueueProgram op.Result) = p at h
  cases h with
  | naming q =>
    cases hp
    obtain ⟨rfl, rfl⟩ := hs
    by_cases hfree : q.trimmed ∈ l.reserved
    · rw [Finset.insert_eq_of_mem hfree]
      simp only [hfree, not_true_eq_false, decide_false]
      exact ⟨_, .ended (.create q) _, .taken hfree⟩
    · simp only [hfree, not_false_eq_true, decide_true]
      exact ⟨_, .seeking q, .named hfree⟩
  | seeking q =>
    cases hp
    obtain ⟨rfl, rfl⟩ := hs
    cases hfind : l'.rows.find? q.trimmed with
    | some row => exact ⟨_, .leaving q _, .known hfind⟩
    | none => exact turn_unknown hfind
  | founding q remote =>
    cases hp
    cases x with
    | error e =>
      obtain rfl : l' = l := hs
      exact ⟨_, .leaving q _, .unfounded remote⟩
    | ok a =>
      obtain ⟨-, rfl⟩ := hs
      exact ⟨_, .storing q, .founded remote⟩
  | storing q =>
    cases hp
    simp only [QueueLedger.serves] at hs
    cases hins : l.rows.insert q.row with
    | error e =>
      rw [hins] at hs
      obtain ⟨rfl, rfl⟩ := hs
      exact ⟨_, .leaving q _, .rejected hins⟩
    | ok p =>
      rw [hins] at hs
      obtain ⟨rfl, rfl⟩ := hs
      exact ⟨_, .leaving q _, .stored hins⟩
  | leaving q r =>
    cases hp
    obtain rfl := hs
    exact ⟨_, .ended (.create q) r, .left⟩
  | changing id u =>
    cases hp
    obtain ⟨rfl, rfl⟩ := hs
    cases hget : l'.rows.get? id with
    | none => exact ⟨_, .ended (.update id u) _, .changeMissing hget⟩
    | some row => exact turn_change hget
  | applying id u row checked affects remote =>
    cases hp
    cases x with
    | error e =>
      obtain rfl : l' = l := hs
      exact ⟨_, .ended (.update id u) _, .unapplied checked affects remote⟩
    | ok a =>
      obtain ⟨-, rfl⟩ := hs
      exact ⟨_, .writing id u row checked, .applied checked affects remote⟩
  | writing id u row checked =>
    cases hp
    simp only [QueueLedger.serves] at hs
    cases hupd : l.rows.update (row.revise u) with
    | error e =>
      rw [hupd] at hs
      obtain ⟨rfl, rfl⟩ := hs
      exact ⟨_, .ended (.update id u) _, .unwritten checked hupd⟩
    | ok rows =>
      rw [hupd] at hs
      obtain ⟨rfl, rfl⟩ := hs
      exact ⟨_, .ended (.update id u) _, .written checked hupd⟩
  | deleting id =>
    cases hp
    obtain ⟨rfl, rfl⟩ := hs
    cases hget : l'.rows.get? id with
    | none => exact ⟨_, .ended (.delete id) _, .deleteMissing hget⟩
    | some row => exact turn_drop hget
  | clearing id row remote =>
    cases hp
    cases x with
    | error e =>
      obtain rfl : l' = l := hs
      exact ⟨_, .ended (.delete id) _, .uncleared remote⟩
    | ok a =>
      obtain ⟨-, rfl⟩ := hs
      exact ⟨_, .dropping id row, .cleared remote⟩
  | dropping id row =>
    cases hp
    obtain ⟨rfl, rfl⟩ := hs
    exact ⟨_, .ended (.delete id) _, .dropped⟩
  | refreshing id now =>
    cases hp
    obtain ⟨rfl, rfl⟩ := hs
    cases hget : l'.rows.get? id with
    | none => exact ⟨_, .ended (.refresh id now) _, .refreshMissing hget⟩
    | some row => exact turn_inspect hget
  | inspecting id row now remote =>
    cases hp
    obtain rfl : l' = l := hs
    cases x with
    | error e => exact ⟨_, .ended (.refresh id now) _, .unseen remote⟩
    | ok state => exact turn_state remote state
  | noting id row state now =>
    cases hp
    simp only [QueueLedger.serves] at hs
    cases hupd : l.rows.update (row.withState state now) with
    | error e =>
      rw [hupd] at hs
      obtain ⟨rfl, rfl⟩ := hs
      exact ⟨_, .ended (.refresh id now) _, .unnoted hupd⟩
    | ok rows =>
      rw [hupd] at hs
      obtain ⟨rfl, rfl⟩ := hs
      exact ⟨_, .ended (.refresh id now) _, .noted hupd⟩
  | ended op r => cases hp

end QueueStage

/-! ## Turns are calls -/

section QueueTurn

variable {s : QueueSettings} {st x y : QueueStage s} {l l' l₁ l₂ : QueueLedger} {e : QueueEvent}

theorem QueueTurn.next?_eq (h : QueueTurn s st l e x l') : st.next? = some e.call := by
  cases h <;> rfl

theorem QueueTurn.op_eq (h : QueueTurn s st l e x l') : x.op = st.op := by
  cases h <;> rfl

theorem QueueTurn.serves (h : QueueTurn s st l e x l') :
    QueueLedger.serves e.call l e.answer l' := by
  cases h with
  | taken hname =>
    refine ⟨(decide_eq_false (not_not_intro hname)).symm, ?_⟩
    rw [Finset.insert_eq_of_mem hname]
  | named hname => exact ⟨(decide_eq_true hname).symm, rfl⟩
  | known hfind | unknown remote hfind | unknownLocal hlocal hfind => exact ⟨by rw [hfind], rfl⟩
  | stored hins | rejected hins =>
    simp only [QueueLedger.serves, hins]
    exact ⟨rfl, trivial⟩
  | written checked hupd | unwritten checked hupd | noted hupd | unnoted hupd =>
    simp only [QueueLedger.serves, hupd]
    exact ⟨rfl, trivial⟩
  | changeMissing hget | changeRefused hget _ | changeIdle hget _ _ | changeRemote _ _ _ hget
  | changeRow _ hget _ _ | deleteMissing hget | deleteRemote _ hget | deleteLocal hget _
  | refreshMissing hget | refreshLocal hget _ | refreshRemote _ hget => exact ⟨by rw [hget], rfl⟩
  | founded | applied | cleared | dropped => exact ⟨rfl, rfl⟩
  | unfounded | left | unapplied | uncleared | unseen | same | differs => rfl

theorem Changeset.not_isEmpty {changes : Changeset} (h : changes.affectsCluster) :
    changes.isEmpty = false := by
  simp [isEmpty, h]

/-- What was answered decides the stage that comes next. -/
theorem QueueTurn.unique (hx : QueueTurn s st l e x l₁) (hy : QueueTurn s st l e y l₂) : x = y := by
  cases hx <;> cases hy <;> first | rfl | simp_all [Changeset.not_isEmpty]

theorem QueueStage.At.asks {op : QueueOp} {p : QueueProgram op.Result} {c : QueueCall}
    (h : QueueStage.At s op st p) (hc : st.next? = some c) : ∃ next, p = .ask c next := by
  cases h <;> cases hc <;> exact ⟨_, rfl⟩

/-- A turn of a stage is a call of its program. -/
theorem QueueStage.At.ask {op : QueueOp} {p : QueueProgram op.Result} (h : QueueStage.At s op st p)
    (ht : QueueTurn s st l e x l') :
    ∃ next, p = .ask e.call next ∧ QueueStage.At s op x (next e.answer) := by
  obtain ⟨next, rfl⟩ := h.asks ht.next?_eq
  obtain ⟨y, hy, hturn⟩ := h.turn ht.serves
  exact ⟨next, rfl, ht.unique hturn ▸ hy⟩

theorem QueueStage.ended_of_next? {op : QueueOp} (hop : st.op = op) (h : st.next? = none) :
    ∃ r, st = .ended op r := by
  subst hop
  cases st <;> first | exact ⟨_, rfl⟩ | cases h

theorem QueueStage.At.done_of_ended {op : QueueOp} {r : op.Result} {p : QueueProgram op.Result}
    (h : QueueStage.At s op (.ended op r) p) : p = .done r := by
  cases h
  rfl

end QueueTurn

/-! ## Turns of many operations -/

section QueueTurns

variable {ι : Type} [DecidableEq ι] {s : QueueSettings}

/-- Operations take turns, each from its stage. -/
inductive QueueTurns (s : QueueSettings) : (ι → QueueStage s) → QueueLedger →
    List (ι × QueueEvent) → (ι → QueueStage s) → QueueLedger → Prop where
  | nil (st l) : QueueTurns s st l [] st l
  | cons {st st' l l₁ l' i e x h} : QueueTurn s (st i) l e x l₁ →
      QueueTurns s (Function.update st i x) l₁ h st' l' →
      QueueTurns s st l ((i, e) :: h) st' l'

/-- One operation comes to another stage, and the others stay at theirs. -/
theorem QueueStage.at_update {ops : ι → QueueOp} {st : ι → QueueStage s}
    {ps : (i : ι) → QueueProgram (ops i).Result} {i : ι} {x : QueueStage s}
    {p : QueueProgram (ops i).Result} (hst : ∀ j, QueueStage.At s (ops j) (st j) (ps j))
    (hx : QueueStage.At s (ops i) x p) (j : ι) :
    QueueStage.At s (ops j) (Function.update st i x j) (Function.update ps i p j) := by
  by_cases hj : j = i
  · subst hj
    simpa using hx
  · simpa [hj] using hst j

/-- An interleaving of operations is a row of turns. -/
theorem QueueTurns.of_interleaves {ops : ι → QueueOp} {st : ι → QueueStage s}
    {ps qs : (i : ι) → QueueProgram (ops i).Result} {l l' : QueueLedger}
    {h : List (ι × QueueEvent)} (hi : Interleaves QueueLedger.serves ps l h qs l')
    (hst : ∀ i, QueueStage.At s (ops i) (st i) (ps i)) :
    ∃ st', (∀ i, QueueStage.At s (ops i) (st' i) (qs i)) ∧ QueueTurns s st l h st' l' := by
  induction hi generalizing st with
  | nil ps l => exact ⟨st, hst, .nil st l⟩
  | @cons ps qs l l₁ l' i c next x h hask hs _ ih =>
    have hat : QueueStage.At s (ops i) (st i) (.ask c next) := hask ▸ hst i
    obtain ⟨stᵢ, hatᵢ, hturn⟩ := hat.turn hs
    obtain ⟨st', hend, hturns⟩ := ih (QueueStage.at_update hst hatᵢ)
    exact ⟨st', hend, .cons hturn hturns⟩

/-- A complete interleaving from the beginning is a row of turns to the ends of all operations. -/
theorem QueueTurns.of_finished (ops : ι → QueueOp) {qs : (i : ι) → QueueProgram (ops i).Result}
    {results : (i : ι) → (ops i).Result} {l l' : QueueLedger} {h : List (ι × QueueEvent)}
    (hi : Interleaves QueueLedger.serves (fun i => (ops i).program s) l h qs l')
    (hf : Finished qs results) :
    QueueTurns s (fun i => (ops i).begin s) l h (fun i => .ended (ops i) (results i)) l' := by
  obtain ⟨st', hend, hturns⟩ := QueueTurns.of_interleaves hi fun i => QueueStage.at_begin (ops i)
  have hst' : st' = fun i => .ended (ops i) (results i) := by
    funext i
    exact (hf i ▸ hend i).ended_of_done
  exact hst' ▸ hturns

variable {ops : ι → QueueOp} {st st' : ι → QueueStage s} {l l' : QueueLedger}
  {h : List (ι × QueueEvent)}

/-- Turns of operations are an interleaving of their programs. -/
theorem QueueTurns.interleaves (ht : QueueTurns s st l h st' l')
    {ps : (i : ι) → QueueProgram (ops i).Result}
    (hst : ∀ i, QueueStage.At s (ops i) (st i) (ps i)) :
    ∃ qs : (i : ι) → QueueProgram (ops i).Result,
      (∀ i, QueueStage.At s (ops i) (st' i) (qs i)) ∧
        Interleaves QueueLedger.serves ps l h qs l' := by
  induction ht generalizing ps with
  | nil st l => exact ⟨ps, hst, .nil ps l⟩
  | @cons st st' l l₁ l' i e x h hturn _ ih =>
    obtain ⟨next, hask, hat⟩ := (hst i).ask hturn
    obtain ⟨qs, hend, hi⟩ := ih (QueueStage.at_update hst hat)
    exact ⟨qs, hend, .cons hask hturn.serves hi⟩

/-- The complete interleavings of operations are their turns from the beginning to the ends. -/
theorem QueueTurns.finishes {results : (i : ι) → (ops i).Result}
    (ht : QueueTurns s (fun i => (ops i).begin s) l h (fun i => .ended (ops i) (results i)) l') :
    ∃ qs, Interleaves QueueLedger.serves (fun i => (ops i).program s) l h qs l' ∧
      Finished qs results := by
  obtain ⟨qs, hend, hi⟩ := ht.interleaves fun i => QueueStage.at_begin (ops i)
  exact ⟨qs, hi, fun i => (hend i).done_of_ended⟩

theorem QueueTurns.op_eq (ht : QueueTurns s st l h st' l') (i : ι) : (st' i).op = (st i).op := by
  induction ht with
  | nil st l => rfl
  | @cons st st' l l₁ l' j e x h hturn _ ih =>
    rw [ih]
    by_cases hij : i = j
    · subst hij
      simpa using hturn.op_eq
    · simp [hij]

theorem QueueTurns.append (ht : QueueTurns s st l h st' l') {h' : List (ι × QueueEvent)}
    {st'' : ι → QueueStage s} {l'' : QueueLedger} (ht' : QueueTurns s st' l' h' st'' l'') :
    QueueTurns s st l (h ++ h') st'' l'' := by
  induction ht with
  | nil st l => exact ht'
  | cons hturn _ ih => exact .cons hturn (ih ht')

/-- One operation takes some turns in a row. -/
inductive QueueSteps (s : QueueSettings) : QueueStage s → QueueLedger → List QueueEvent →
    QueueStage s → QueueLedger → Prop where
  | nil (x l) : QueueSteps s x l [] x l
  | cons {x y z l l₁ l' e h} : QueueTurn s x l e y l₁ → QueueSteps s y l₁ h z l' →
      QueueSteps s x l (e :: h) z l'

theorem QueueSteps.append {x y z : QueueStage s} {l'' : QueueLedger} {h h' : List QueueEvent}
    (hs : QueueSteps s x l h y l') (hs' : QueueSteps s y l' h' z l'') :
    QueueSteps s x l (h ++ h') z l'' := by
  induction hs with
  | nil x l => exact hs'
  | cons hturn _ ih => exact .cons hturn (ih hs')

/-- Turns of one operation are turns of many, of which the others wait. -/
theorem QueueSteps.among {x y : QueueStage s} {h : List QueueEvent}
    (hs : QueueSteps s x l h y l') {i : ι} (hx : st i = x) :
    QueueTurns s st l (h.map (Prod.mk i)) (Function.update st i y) l' := by
  induction hs generalizing st with
  | nil x l =>
    rw [← hx, Function.update_eq_self]
    exact .nil st l
  | cons hturn _ ih =>
    have hrest := ih (Function.update_self i _ st)
    rw [Function.update_idem] at hrest
    exact .cons (hx ▸ hturn) hrest

/-- An operation that comes to its end makes its next call. -/
theorem QueueTurns.eventually (ht : QueueTurns s st l h st' l') {i : ι} {c : QueueCall}
    (hnext : (st i).next? = some c) (hend : (st' i).next? = none) :
    ∃ e, (i, e) ∈ h ∧ e.call = c := by
  induction ht with
  | nil st l => simp [hnext] at hend
  | @cons st st' l l₁ l' j e x h hturn _ ih =>
    by_cases hij : i = j
    · subst hij
      have hcall := hturn.next?_eq
      exact ⟨e, by simp, by rw [hnext] at hcall; exact (Option.some.inj hcall).symm⟩
    · obtain ⟨e', he', hcall⟩ := ih (by simpa [hij] using hnext) hend
      exact ⟨e', List.mem_cons_of_mem _ he', hcall⟩

end QueueTurns

end ClusterJobs
