import ClusterJobs.Proofs.Queue.Ledger

/-!
# Records of tasks

The records are kept by code: what becomes of one follows from the operations on its code alone. A
record is as it was written last, and its status is that of the last signal that counts since it was
first written.
-/

namespace ClusterJobs

open Program QueueBridge

/-! ## Rows of records -/

namespace QueuedTask

/-- The record with a status that it is given at a time. -/
def inStatus (t : QueuedTask) (status : TaskStatus) (now : Instant) : QueuedTask :=
  { t with status := status, updatedAt := now }

end QueuedTask

namespace TaskRows

variable {ts : TaskRows}

/-- Codes increase, so that no code has two records. -/
def Ordered (ts : TaskRows) : Prop :=
  (ts.map fun t => t.code).Pairwise (· < ·)

theorem get?_cons (t : QueuedTask) (ts : TaskRows) (code : Int) :
    TaskRows.get? (t :: ts) code = if t.code = code then some t else ts.get? code := by
  by_cases h : t.code = code <;> simp [get?, h]

theorem get?_put (ts : TaskRows) (task : QueuedTask) (code : Int) :
    (ts.put task).get? code = if task.code = code then some task else ts.get? code := by
  induction ts with
  | nil => rw [put, get?_cons]
  | cons t ts ih =>
    simp only [put]
    split
    · next heq =>
      rw [get?_cons, get?_cons, heq]
      split <;> rfl
    · next hne =>
      split
      · rw [get?_cons]
      · rw [get?_cons, get?_cons, ih]
        by_cases ht : t.code = code
        · rw [if_pos ht, if_neg (by rwa [← ht, eq_comm]), if_pos ht]
        · rw [if_neg ht, if_neg ht]

theorem get?_setStatus (ts : TaskRows) (changed code : Int) (status : TaskStatus)
    (now : Instant) : (ts.setStatus changed status now).get? code =
      if changed = code then (ts.get? code).map (·.inStatus status now) else ts.get? code := by
  induction ts with
  | nil => simp [setStatus, get?]
  | cons t ts ih =>
    have hcode : (if t.code = changed then { t with status := status, updatedAt := now }
        else t).code = t.code := by
      split <;> rfl
    rw [setStatus, List.map_cons, get?_cons, get?_cons, hcode]
    by_cases ht : t.code = code
    · subst ht
      by_cases hc : changed = t.code
      · simp [hc, QueuedTask.inStatus]
      · simp [hc, Ne.symm hc]
    · rw [if_neg ht, if_neg ht]
      exact ih

theorem get?_eq_none_iff {code : Int} : ts.get? code = none ↔ ∀ t ∈ ts, t.code ≠ code := by
  simp [get?]

theorem code_of_get? {code : Int} {t : QueuedTask} (h : ts.get? code = some t) : t.code = code := by
  simpa using List.find?_some h

theorem Ordered.get?_eq_some_iff (ho : ts.Ordered) {code : Int} {t : QueuedTask} :
    ts.get? code = some t ↔ t ∈ ts ∧ t.code = code := by
  refine ⟨fun h => ⟨List.mem_of_find?_eq_some h, code_of_get? h⟩, ?_⟩
  rintro ⟨ht, rfl⟩
  cases hg : ts.get? t.code with
  | none => exact absurd rfl (get?_eq_none_iff.1 hg t ht)
  | some u =>
    have hu := List.mem_of_find?_eq_some hg
    rw [List.inj_on_of_nodup_map (ho.imp ne_of_lt) hu ht (code_of_get? hg)]

theorem mem_put {task t : QueuedTask} (h : t ∈ ts.put task) : t = task ∨ t ∈ ts := by
  induction ts with
  | nil => exact .inl (List.mem_singleton.1 h)
  | cons u ts ih =>
    simp only [put] at h
    split at h
    · exact (List.mem_cons.1 h).imp_right (.tail _)
    · split at h
      · exact List.mem_cons.1 h
      · rcases List.mem_cons.1 h with rfl | h
        · exact .inr (.head _)
        · exact (ih h).imp_right (.tail _)

theorem Ordered.put (ho : ts.Ordered) (task : QueuedTask) : (ts.put task).Ordered := by
  induction ts with
  | nil => exact List.pairwise_singleton ..
  | cons t ts ih =>
    simp only [Ordered, List.map_cons, List.pairwise_cons, List.forall_mem_map] at ho ih ⊢
    obtain ⟨hfirst, hrest⟩ := ho
    simp only [TaskRows.put]
    split
    · next heq =>
      simp only [List.map_cons, List.pairwise_cons, List.forall_mem_map, ← heq]
      exact ⟨hfirst, hrest⟩
    · split
      · next hlt =>
        simp only [List.map_cons, List.pairwise_cons, List.forall_mem_cons, List.forall_mem_map]
        exact ⟨⟨hlt, fun u hu => hlt.trans (hfirst u hu)⟩, hfirst, hrest⟩
      · next hne hnlt =>
        simp only [List.map_cons, List.pairwise_cons, List.forall_mem_map]
        refine ⟨fun u hu => ?_, ih hrest⟩
        rcases mem_put hu with rfl | hu
        · omega
        · exact hfirst u hu

theorem Ordered.setStatus (ho : ts.Ordered) (code : Int) (status : TaskStatus) (now : Instant) :
    (ts.setStatus code status now).Ordered := by
  have hcodes : (ts.setStatus code status now).map (fun t => t.code) = ts.map fun t => t.code := by
    rw [TaskRows.setStatus, List.map_map]
    refine List.map_congr_left fun t _ => ?_
    simp only [Function.comp_apply]
    split <;> rfl
  rwa [Ordered, hcodes]

/-- Nothing is written to a code without a record. -/
theorem setStatus_of_unknown {code : Int} (h : ts.get? code = none) (status : TaskStatus)
    (now : Instant) : ts.setStatus code status now = ts := by
  rw [get?_eq_none_iff] at h
  refine (List.map_congr_left fun t ht => ?_).trans (List.map_id ts)
  rw [if_neg (h t ht), id]

end TaskRows

/-! ## Operations -/

/-- A task that enters a queue, and the time at which it does. -/
structure DatedTask extends NewTask where
  now : Instant

/-- What the scheduler has done about a task, and when. -/
inductive TaskOp where
  | record (task : DatedTask)
  | signal (signal : Signal) (code : Int) (type : TaskType) (now : Instant)
  | setStatus (code : Int) (status : TaskStatus) (now : Instant)

namespace TaskOp

/-- The code of the task. -/
def code : TaskOp → Int
  | record task => task.code
  | signal _ code _ _ | setStatus code _ _ => code

/-- The time of the operation. -/
def now : TaskOp → Instant
  | record task => task.now
  | signal _ _ _ now | setStatus _ _ now => now

def Result : TaskOp → Type
  | record _ => Except QueueFault QueuedTask
  | signal _ _ _ _ => Unit
  | setStatus _ _ _ => Except QueueFault Bool

def program (queueEnabled : Bool) : (op : TaskOp) → QueueProgram op.Result
  | record task => QueueBridge.record task.toNewTask task.now
  | signal s code type now => handle queueEnabled s code type now
  | setStatus code status now => QueueBridge.setStatus code status now

/-- The operation gives the record of a code this status, if there is one. -/
inductive Moves (queueEnabled : Bool) : TaskOp → Int → TaskStatus → Prop where
  | told (code : Int) (status : TaskStatus) (now : Instant) :
      Moves queueEnabled (.setStatus code status now) code status
  | started {type : TaskType} (code : Int) (now : Instant) : queueEnabled = true →
      type = .container ∨ type = .training →
      Moves queueEnabled (.signal .running code type now) code .running
  | finished {type : TaskType} (code : Int) (now : Instant) : queueEnabled = true →
      type = .container ∨ type = .training ∨ type = .dataSet →
      Moves queueEnabled (.signal .finished code type now) code .pendingRerun

/-- The status that the operation gives. -/
def moves? (queueEnabled : Bool) : TaskOp → Option TaskStatus
  | record _ => none
  | signal s _ type _ => if queueEnabled && s.tracks type then some s.status else none
  | setStatus _ status _ => some status

theorem moves_iff {queueEnabled : Bool} {op : TaskOp} {code : Int} {status : TaskStatus} :
    op.Moves queueEnabled code status ↔ op.code = code ∧ op.moves? queueEnabled = some status := by
  constructor
  · intro h
    cases h with
    | told => exact ⟨rfl, rfl⟩
    | started code now he ht => rcases ht with rfl | rfl <;> subst he <;> exact ⟨rfl, rfl⟩
    | finished code now he ht => rcases ht with rfl | rfl | rfl <;> subst he <;> exact ⟨rfl, rfl⟩
  · rintro ⟨rfl, h⟩
    cases op with
    | record task => cases h
    | setStatus code status now =>
      cases h
      exact .told code _ now
    | signal s code type now =>
      simp only [moves?] at h
      split at h
      · next hcounts =>
        cases h
        obtain ⟨he, ht⟩ := Bool.and_eq_true_iff.1 hcounts
        cases s with
        | running => exact .started code now he (by cases type <;> simp_all [Signal.tracks,
            TaskType.tracksRunning])
        | finished => exact .finished code now he (by cases type <;> simp_all [Signal.tracks,
            TaskType.tracksFinished])
      · cases h

end TaskOp

/-! ## Calls that are answered -/

/-- A call about the records failed. -/
def recordsFailed : QueueEvent → Bool
  | ⟨.findTask _, x⟩ => !Except.isOk x
  | ⟨.upsertTask _, x⟩ => !Except.isOk x
  | ⟨.setStatus _ _ _, x⟩ => !Except.isOk x
  | ⟨.listTasks _ _, x⟩ => !Except.isOk x
  | _ => false

/-- How calls are answered while no call about the records fails, as none does in memory. -/
def QueueLedger.servesUnlocked : Service QueueCall QueueAnswer QueueLedger :=
  fun c l x l' => QueueLedger.serves c l x l' ∧ recordsFailed ⟨c, x⟩ = false

/-- The record that is stored over the one that is known. -/
def DatedTask.over (task : DatedTask) (known : Option QueuedTask) : QueuedTask :=
  ⟨task.toNewTask, (known.map QueuedTask.status).getD .queued, task.now⟩

section Unlocked

variable {l l' : QueueLedger} {code : Int} {status : TaskStatus} {now : Instant}

theorem serves_findTask_iff {x : QueueAnswer (.findTask code)} :
    QueueLedger.servesUnlocked (.findTask code) l x l' ↔
      x = .ok (l.tasks.get? code) ∧ l' = l := by
  constructor
  · rintro ⟨hs, hok⟩
    cases x with
    | error e => cases hok
    | ok known => exact ⟨congrArg Except.ok hs.1, hs.2⟩
  · rintro ⟨rfl, rfl⟩
    exact ⟨⟨rfl, rfl⟩, rfl⟩

theorem serves_upsertTask_iff {task : QueuedTask} {x : QueueAnswer (.upsertTask task)} :
    QueueLedger.servesUnlocked (.upsertTask task) l x l' ↔
      x = .ok (l.tasks.get? task.code).isNone ∧ l' = { l with tasks := l.tasks.put task } := by
  constructor
  · rintro ⟨hs, hok⟩
    cases x with
    | error e => cases hok
    | ok isNew => exact ⟨congrArg Except.ok hs.1, hs.2⟩
  · rintro ⟨rfl, rfl⟩
    exact ⟨⟨rfl, rfl⟩, rfl⟩

theorem serves_setStatus_iff {x : QueueAnswer (.setStatus code status now)} :
    QueueLedger.servesUnlocked (.setStatus code status now) l x l' ↔
      x = .ok (l.tasks.get? code).isSome ∧
        l' = { l with tasks := l.tasks.setStatus code status now } := by
  constructor
  · rintro ⟨hs, hok⟩
    cases x with
    | error e => cases hok
    | ok known => exact ⟨congrArg Except.ok hs.1, hs.2⟩
  · rintro ⟨rfl, rfl⟩
    exact ⟨⟨rfl, rfl⟩, rfl⟩

end Unlocked

namespace TaskOp

/-- Stores a record. -/
def store (t : QueuedTask) : QueueProgram (Except QueueFault QueuedTask) :=
  .ask (.upsertTask t) fun x => match x with
    | .error e => .done (.error e)
    | .ok _ => .done (.ok t)

/-- What is left of a recording when the record of the task was looked up. -/
def storeOver (task : DatedTask) :
    Except QueueFault (Option QueuedTask) → QueueProgram (Except QueueFault QueuedTask)
  | .error e => .done (.error e)
  | .ok known => store (task.over known)

/-- What an operation makes of the records when it runs alone. -/
inductive Effect (queueEnabled : Bool) :
    (op : TaskOp) → TaskRows → op.Result → TaskRows → Prop where
  | recorded (task : DatedTask) (ts : TaskRows) :
      Effect queueEnabled (.record task) ts (.ok (task.over (ts.get? task.code)))
        (ts.put (task.over (ts.get? task.code)))
  | told (code : Int) (status : TaskStatus) (now : Instant) (ts : TaskRows) :
      Effect queueEnabled (.setStatus code status now) ts (.ok (ts.get? code).isSome)
        (ts.setStatus code status now)
  | signalled {s : Signal} {type : TaskType} (code : Int) (now : Instant) (ts : TaskRows) :
      (queueEnabled && s.tracks type) = true →
      Effect queueEnabled (.signal s code type now) ts () (ts.setStatus code s.status now)
  | ignored {s : Signal} {type : TaskType} (code : Int) (now : Instant) (ts : TaskRows) :
      (queueEnabled && s.tracks type) = false →
      Effect queueEnabled (.signal s code type now) ts () ts

section Effect

variable {queueEnabled : Bool} {op : TaskOp} {l l' : QueueLedger} {h : List QueueEvent}
  {r : op.Result} {ts ts' : TaskRows} {code : Int} {status : TaskStatus} {now : Instant}

theorem record_eq (task : DatedTask) :
    QueueBridge.record task.toNewTask task.now = .ask (.findTask task.code) (storeOver task) := by
  have hstore (t : QueuedTask) (p : Except QueueFault Bool → QueueProgram _)
      (herror : ∀ e, p (.error e) = .done (.error e))
      (hok : ∀ isNew, p (.ok isNew) = .done (.ok t)) :
      Program.ask (.upsertTask t) p = store t := by
    refine congrArg (Program.ask _) (funext fun x => ?_)
    cases x with
    | error e => exact herror e
    | ok isNew => exact hok isNew
  refine congrArg (Program.ask _) (funext fun x => ?_)
  match x with
  | .error e => rfl
  | .ok none => exact hstore _ _ (fun _ => rfl) fun _ => rfl
  | .ok (some t) => exact hstore _ _ (fun _ => rfl) fun _ => rfl

theorem handle_of_counts {s : Signal} {type : TaskType}
    (hcounts : (queueEnabled && s.tracks type) = true) (code : Int) (now : Instant) :
    handle queueEnabled s code type now = .ask (.setStatus code s.status now) fun _ => .done () :=
  if_pos hcounts

theorem handle_of_ignored {s : Signal} {type : TaskType}
    (hignored : (queueEnabled && s.tracks type) = false) (code : Int) (now : Instant) :
    handle queueEnabled s code type now = .done () :=
  if_neg (by simp [hignored])

theorem effect_of_runs
    (hr : Runs QueueLedger.servesUnlocked (op.program queueEnabled) l h r l') :
    op.Effect queueEnabled l.tasks r l'.tasks := by
  cases op with
  | record task =>
    rw [program, record_eq] at hr
    obtain ⟨x, l₁, h₁, hfind, hr, -⟩ := runs_ask_iff.1 hr
    obtain ⟨rfl, rfl⟩ := serves_findTask_iff.1 hfind
    obtain ⟨x, l₂, h₂, hput, hr, -⟩ := runs_ask_iff.1 hr
    obtain ⟨rfl, rfl⟩ := serves_upsertTask_iff.1 hput
    obtain ⟨-, rfl, rfl⟩ := runs_done_iff.1 hr
    exact .recorded task _
  | setStatus code status now =>
    obtain ⟨x, l₁, h₁, hset, hr, -⟩ := runs_ask_iff.1 hr
    obtain ⟨rfl, rfl⟩ := serves_setStatus_iff.1 hset
    obtain ⟨-, rfl, rfl⟩ := runs_done_iff.1 hr
    exact .told code status now _
  | signal s code type now =>
    rw [program] at hr
    cases hcounts : queueEnabled && s.tracks type with
    | true =>
      rw [handle_of_counts hcounts] at hr
      obtain ⟨x, l₁, h₁, hset, hr, -⟩ := runs_ask_iff.1 hr
      obtain ⟨rfl, rfl⟩ := serves_setStatus_iff.1 hset
      obtain ⟨-, rfl, rfl⟩ := runs_done_iff.1 hr
      exact .signalled code now _ hcounts
    | false =>
      rw [handle_of_ignored hcounts] at hr
      obtain ⟨-, rfl, rfl⟩ := runs_done_iff.1 hr
      exact .ignored code now _ hcounts

theorem Effect.exists_runs (he : op.Effect queueEnabled l.tasks r ts') :
    ∃ h, Runs QueueLedger.servesUnlocked (op.program queueEnabled) l h r
      { l with tasks := ts' } := by
  generalize hts : l.tasks = ts at he
  cases he with
  | recorded task =>
    subst hts
    rw [program, record_eq]
    exact ⟨_, .ask (serves_findTask_iff.2 ⟨rfl, rfl⟩) <|
      .ask (serves_upsertTask_iff.2 ⟨rfl, rfl⟩) <| .done _ _⟩
  | told code status now =>
    subst hts
    exact ⟨_, .ask (serves_setStatus_iff.2 ⟨rfl, rfl⟩) <| .done _ _⟩
  | signalled code now _ hcounts =>
    subst hts
    rw [program, handle_of_counts hcounts]
    exact ⟨_, .ask (serves_setStatus_iff.2 ⟨rfl, rfl⟩) <| .done _ _⟩
  | ignored code now _ hignored =>
    subst hts
    rw [program, handle_of_ignored hignored]
    exact ⟨_, .done _ _⟩

theorem exists_effect (queueEnabled : Bool) (op : TaskOp) (ts : TaskRows) :
    ∃ r ts', op.Effect queueEnabled ts r ts' := by
  cases op with
  | record task => exact ⟨_, _, .recorded task ts⟩
  | setStatus code status now => exact ⟨_, _, .told code status now ts⟩
  | signal s code type now =>
    cases hcounts : queueEnabled && s.tracks type with
    | true => exact ⟨_, _, .signalled code now ts hcounts⟩
    | false => exact ⟨_, _, .ignored code now ts hcounts⟩

theorem Effect.ordered (he : op.Effect queueEnabled ts r ts') (ho : ts.Ordered) : ts'.Ordered := by
  cases he with
  | recorded task => exact ho.put _
  | told code status now => exact ho.setStatus code status now
  | signalled code now => exact ho.setStatus code _ now
  | ignored => exact ho

/-- What an operation makes of the record of its task. -/
def settle (queueEnabled : Bool) (known : Option QueuedTask) : TaskOp → Option QueuedTask
  | record task => some (task.over known)
  | op => known.map fun t => (op.moves? queueEnabled).elim t (t.inStatus · op.now)

/-- An operation changes the record of its own task and no other. -/
theorem Effect.get? (he : op.Effect queueEnabled ts r ts') (code : Int) :
    ts'.get? code = if op.code = code then settle queueEnabled (ts.get? code) op
      else ts.get? code := by
  cases he with
  | recorded task =>
    rw [TaskRows.get?_put]
    by_cases hcode : task.code = code
    · subst hcode
      exact (if_pos rfl).trans (if_pos rfl).symm
    · exact (if_neg hcode).trans (if_neg hcode).symm
  | told changed status now => exact ts.get?_setStatus changed code status now
  | @signalled s type changed now _ hcounts =>
    rw [TaskRows.get?_setStatus]
    simp only [TaskOp.code, TaskOp.now, settle, moves?, hcounts, if_true, Option.elim_some]
  | @ignored s type changed now _ hignored =>
    simp only [settle, moves?, hignored, Bool.false_eq_true, if_false, Option.elim_none,
      Option.map_id_fun', id, ite_self]

theorem Effect.result_of_setStatus {r : (TaskOp.setStatus code status now).Result}
    (he : (TaskOp.setStatus code status now).Effect queueEnabled ts r ts') :
    r = .ok (ts.get? code).isSome := by
  cases he
  rfl

theorem Effect.eq_of_unknown (he : op.Effect queueEnabled ts r ts')
    (hop : ∀ task, op ≠ .record task) (hnone : ts.get? op.code = none) : ts' = ts := by
  cases he with
  | recorded task => exact absurd rfl (hop task)
  | told code status now => exact TaskRows.setStatus_of_unknown hnone status now
  | signalled code now => exact TaskRows.setStatus_of_unknown hnone _ now
  | ignored => rfl

end Effect

/-! ## What becomes of one record -/

/-- A record in the first status is in the last one after these operations: it is moved by the last
of them that counts, if any does. -/
inductive Leaves (queueEnabled : Bool) (code : Int) :
    TaskStatus → List TaskOp → TaskStatus → Prop where
  | kept {ops : List TaskOp} (first : TaskStatus) :
      (∀ op ∈ ops, ∀ status, ¬ op.Moves queueEnabled code status) →
      Leaves queueEnabled code first ops first
  | moved {earlier later : List TaskOp} {op : TaskOp} {last : TaskStatus} (first : TaskStatus) :
      op.Moves queueEnabled code last →
      (∀ op ∈ later, ∀ status, ¬ op.Moves queueEnabled code status) →
      Leaves queueEnabled code first (earlier ++ op :: later) last

/-- What becomes of the record of a code if `known` is the record at first. -/
def recordFrom (queueEnabled : Bool) (code : Int) (known : Option QueuedTask) (ops : List TaskOp) :
    Option QueuedTask :=
  (ops.filter fun op => op.code = code).foldl (settle queueEnabled) known

section Record

variable {queueEnabled : Bool} {op : TaskOp} {ops : List TaskOp} {code : Int}
  {known : Option QueuedTask} {task : DatedTask} {t t' : QueuedTask} {first last status : TaskStatus}

theorem Leaves.snoc_idle (hl : Leaves queueEnabled code first ops last)
    (hop : ∀ status, ¬ op.Moves queueEnabled code status) :
    Leaves queueEnabled code first (ops ++ [op]) last := by
  cases hl with
  | kept first hkept =>
    refine .kept first (List.forall_mem_append.2 ⟨hkept, ?_⟩)
    exact List.forall_mem_singleton.2 hop
  | moved first hmoves hlater =>
    rw [List.append_assoc, List.cons_append]
    refine .moved first hmoves (List.forall_mem_append.2 ⟨hlater, ?_⟩)
    exact List.forall_mem_singleton.2 hop

theorem recordFrom_append (known : Option QueuedTask) (ops later : List TaskOp) :
    recordFrom queueEnabled code known (ops ++ later) =
      recordFrom queueEnabled code (recordFrom queueEnabled code known ops) later := by
  simp only [recordFrom, List.filter_append, List.foldl_append]

theorem recordFrom_cons (known : Option QueuedTask) (op : TaskOp) (ops : List TaskOp) :
    recordFrom queueEnabled code known (op :: ops) = recordFrom queueEnabled code
      (if op.code = code then settle queueEnabled known op else known) ops := by
  by_cases h : op.code = code <;> simp [recordFrom, h]

theorem recordFrom_snoc (known : Option QueuedTask) (ops : List TaskOp) (op : TaskOp) :
    recordFrom queueEnabled code known (ops ++ [op]) =
      if op.code = code then settle queueEnabled (recordFrom queueEnabled code known ops) op
      else recordFrom queueEnabled code known ops := by
  rw [recordFrom_append, recordFrom_cons]
  rfl

theorem recordFrom_isSome_iff : (recordFrom queueEnabled code none ops).isSome ↔
    ∃ task, .record task ∈ ops ∧ task.code = code := by
  induction ops using List.reverseRecOn with
  | nil => simp [recordFrom]
  | append_singleton ops op ih =>
    rw [recordFrom_snoc]
    cases op with
    | record task =>
      by_cases hcode : task.code = code
      · refine iff_of_true (by simp [TaskOp.code, hcode, settle]) ⟨task, ?_, hcode⟩
        exact List.mem_append_right _ (.head _)
      · simp only [TaskOp.code, hcode, if_false, ih]
        constructor
        · rintro ⟨task', hmem, hcode'⟩
          exact ⟨task', List.mem_append_left _ hmem, hcode'⟩
        · rintro ⟨task', hmem, hcode'⟩
          rcases List.mem_append.1 hmem with hmem | hmem
          · exact ⟨task', hmem, hcode'⟩
          · cases List.mem_singleton.1 hmem
            exact absurd hcode' hcode
    | _ =>
      have hsome (p : Prop) [Decidable p] (known : Option QueuedTask)
          (f : QueuedTask → QueuedTask) :
          (if p then known.map f else known).isSome = known.isSome := by
        split <;> simp
      simp [settle, hsome, ih]

theorem settle_some (t : QueuedTask) (op : TaskOp) :
    ∃ t', settle queueEnabled (some t) op = some t' ∧
      t'.status = (op.moves? queueEnabled).getD t.status ∧
      ((∀ task, op ≠ .record task) → t'.toNewTask = t.toNewTask) := by
  cases op with
  | record task => exact ⟨_, rfl, rfl, fun h => absurd rfl (h task)⟩
  | signal s code type now | setStatus code status now =>
    refine ⟨_, rfl, ?_, fun _ => ?_⟩ <;>
      cases TaskOp.moves? queueEnabled _ <;> rfl

/-- The record of a code that has one stays, in the status that the operations leave it in. -/
theorem recordFrom_some (t : QueuedTask) (ops : List TaskOp) :
    ∃ t', recordFrom queueEnabled code (some t) ops = some t' ∧
      Leaves queueEnabled code t.status ops t'.status ∧
      ((∀ task, .record task ∈ ops → task.code ≠ code) → t'.toNewTask = t.toNewTask) := by
  induction ops using List.reverseRecOn with
  | nil => exact ⟨t, rfl, .kept _ (List.forall_mem_nil _), fun _ => rfl⟩
  | append_singleton ops op ih =>
    obtain ⟨t', hrecord, hleaves, htask⟩ := ih
    rw [recordFrom_snoc, hrecord]
    by_cases hcode : op.code = code
    · rw [if_pos hcode]
      obtain ⟨u, hu, hstatus, hsame⟩ := @settle_some queueEnabled t' op
      refine ⟨u, hu, ?_, fun h => ?_⟩
      · rw [hstatus]
        cases hmoves : op.moves? queueEnabled with
        | none =>
          refine hleaves.snoc_idle fun status h => ?_
          exact absurd (hmoves.symm.trans (moves_iff.1 h).2) nofun
        | some status =>
          exact .moved _ (moves_iff.2 ⟨hcode, hmoves⟩) (List.forall_mem_nil _)
      · rw [hsame, htask fun task hmem => h task (List.mem_append_left _ hmem)]
        rintro task rfl
        exact h task (List.mem_append_right _ (.head _)) hcode
    · rw [if_neg hcode]
      refine ⟨t', rfl, hleaves.snoc_idle fun status hmoves => hcode (moves_iff.1 hmoves).1, ?_⟩
      exact fun h => htask fun task hmem => h task (List.mem_append_left _ hmem)

end Record

end TaskOp

/-! ## Sessions -/

/-- An operation that has run, with what it gave. -/
structure TaskStep where
  op : TaskOp
  result : op.Result

/-- Operations that run one after another. There are no records at first, and each call about them
succeeds. -/
inductive TaskSession (queueEnabled : Bool) : List TaskStep → QueueLedger → Prop where
  | nil {l : QueueLedger} : l.tasks = [] → TaskSession queueEnabled [] l
  | snoc {steps : List TaskStep} {l l' : QueueLedger} {op : TaskOp} {h : List QueueEvent}
      {r : op.Result} : TaskSession queueEnabled steps l →
      Runs QueueLedger.servesUnlocked (op.program queueEnabled) l h r l' →
      TaskSession queueEnabled (steps ++ [⟨op, r⟩]) l'

/-- The records that operations leave behind which run one after another. -/
structure TaskSessionSpec (queueEnabled : Bool) (steps : List TaskStep) (l : QueueLedger) :
    Prop where
  /-- The record of a code is made by the operations on that code alone. -/
  folds : ∀ code, l.tasks.get? code =
    TaskOp.recordFrom queueEnabled code none (steps.map TaskStep.op)
  /-- A code has a record if and only if it was recorded, and it has no two of them. -/
  known_iff : ∀ code, (∃ t ∈ l.tasks, t.code = code) ↔
    ∃ task, .record task ∈ steps.map TaskStep.op ∧ task.code = code
  sole : (l.tasks.map fun t => t.code).Nodup
  /-- All but the status and the time is as it was recorded last. -/
  written : ∀ before task after, steps.map TaskStep.op = before ++ .record task :: after →
    (∀ later, .record later ∈ after → later.code ≠ task.code) →
    ∃ t ∈ l.tasks, t.toNewTask = task.toNewTask
  /-- The status is that of the last operation that counts after the code was recorded first. -/
  status : ∀ before task after, steps.map TaskStep.op = before ++ .record task :: after →
    (∀ earlier, .record earlier ∈ before → earlier.code ≠ task.code) →
    ∃ t ∈ l.tasks, t.code = task.code ∧
      TaskOp.Leaves queueEnabled task.code .queued after t.status
  /-- A status was set if and only if the code had been recorded by then. -/
  told : ∀ before code status now r after,
    steps = before ++ ⟨.setStatus code status now, r⟩ :: after →
    ∃ known, r = .ok known ∧
      (known = true ↔ ∃ task, .record task ∈ before.map TaskStep.op ∧ task.code = code)
  /-- An operation leaves the records of other codes alone, and a signal about a code without a
  record leaves all of them alone. -/
  framed : ∀ op h r l', Runs QueueLedger.servesUnlocked (TaskOp.program queueEnabled op) l h r l' →
    (∀ code, code ≠ op.code → l'.tasks.get? code = l.tasks.get? code) ∧
      ((∀ task, op ≠ .record task) → l.tasks.get? op.code = none → l'.tasks = l.tasks)
  /-- Every operation comes to its end. -/
  runs : ∀ op, ∃ h r l', Runs QueueLedger.servesUnlocked (TaskOp.program queueEnabled op) l h r l'

section TaskSession

variable {queueEnabled : Bool} {steps before after : List TaskStep} {step : TaskStep}
  {l : QueueLedger}

theorem TaskSession.ordered (hs : TaskSession queueEnabled steps l) : l.tasks.Ordered := by
  induction hs with
  | nil hempty =>
    rw [hempty]
    exact .nil
  | snoc _ hr ih => exact (TaskOp.effect_of_runs hr).ordered ih

theorem TaskSession.folds (hs : TaskSession queueEnabled steps l) (code : Int) :
    l.tasks.get? code = TaskOp.recordFrom queueEnabled code none (steps.map TaskStep.op) := by
  induction hs with
  | nil hempty =>
    rw [hempty]
    rfl
  | snoc _ hr ih =>
    rw [(TaskOp.effect_of_runs hr).get? code, ih, List.map_append, List.map_singleton,
      TaskOp.recordFrom_snoc]

/-- Each step of a session ran on what the steps before it left behind. -/
theorem TaskSession.ran (hs : TaskSession queueEnabled steps l)
    (hsteps : steps = before ++ step :: after) :
    ∃ l₀ h l₁, TaskSession queueEnabled before l₀ ∧
      Runs QueueLedger.servesUnlocked (step.op.program queueEnabled) l₀ h step.result l₁ := by
  induction hs generalizing after with
  | nil hempty => simp at hsteps
  | snoc hs hr ih =>
    rcases List.eq_nil_or_concat after with rfl | ⟨after, last, rfl⟩
    · obtain ⟨rfl, hlast⟩ := List.append_inj' hsteps rfl
      cases List.singleton_inj.1 hlast
      exact ⟨_, _, _, hs, hr⟩
    · rw [List.concat_eq_append, ← List.cons_append, ← List.append_assoc] at hsteps
      exact ih (List.append_inj' hsteps rfl).1

/-- The record of a code after it was recorded. -/
theorem TaskSession.exists_record (hs : TaskSession queueEnabled steps l) {task : DatedTask}
    {earlier later : List TaskOp}
    (hops : steps.map TaskStep.op = earlier ++ .record task :: later) :
    ∃ t ∈ l.tasks, t.code = task.code ∧
      TaskOp.Leaves queueEnabled task.code
        (task.over (TaskOp.recordFrom queueEnabled task.code none earlier)).status later t.status ∧
      ((∀ task', .record task' ∈ later → task'.code ≠ task.code) →
        t.toNewTask = task.toNewTask) := by
  obtain ⟨t, ht, hleaves, hsame⟩ := @TaskOp.recordFrom_some queueEnabled task.code
    (task.over (TaskOp.recordFrom queueEnabled task.code none earlier)) later
  have hget : l.tasks.get? task.code = some t := by
    rw [hs.folds, hops, TaskOp.recordFrom_append, TaskOp.recordFrom_cons]
    exact (congrArg (fun known => TaskOp.recordFrom _ _ known later) (if_pos rfl)).trans ht
  obtain ⟨hmem, hcode⟩ := hs.ordered.get?_eq_some_iff.1 hget
  exact ⟨t, hmem, hcode, hleaves, hsame⟩

theorem TaskSession.exists_code_iff (hs : TaskSession queueEnabled steps l) (code : Int) :
    (l.tasks.get? code).isSome ↔
      ∃ task, .record task ∈ steps.map TaskStep.op ∧ task.code = code := by
  rw [hs.folds, TaskOp.recordFrom_isSome_iff]

/-- Whatever the operations are, the records are a fold over those on each code. -/
theorem records_spec (hs : TaskSession queueEnabled steps l) :
    TaskSessionSpec queueEnabled steps l where
  folds := hs.folds
  known_iff := by
    intro code
    rw [← hs.exists_code_iff, Option.isSome_iff_exists]
    exact exists_congr fun t => hs.ordered.get?_eq_some_iff.symm
  sole := hs.ordered.imp ne_of_lt
  written := by
    intro before task after hops hlater
    obtain ⟨t, ht, -, -, hsame⟩ := hs.exists_record hops
    exact ⟨t, ht, hsame hlater⟩
  status := by
    intro before task after hops hearlier
    obtain ⟨t, ht, hcode, hleaves, -⟩ := hs.exists_record hops
    have hnone : TaskOp.recordFrom queueEnabled task.code none before = none := by
      rw [← Option.not_isSome_iff_eq_none, TaskOp.recordFrom_isSome_iff]
      rintro ⟨earlier, hmem, hcode⟩
      exact hearlier earlier hmem hcode
    rw [hnone] at hleaves
    exact ⟨t, ht, hcode, hleaves⟩
  told := by
    intro before code status now r after hsteps
    obtain ⟨l₀, h, l₁, hbefore, hr⟩ := hs.ran hsteps
    exact ⟨(l₀.tasks.get? code).isSome, (TaskOp.effect_of_runs hr).result_of_setStatus,
      hbefore.exists_code_iff code⟩
  framed := by
    intro op h r l' hr
    have heffect := TaskOp.effect_of_runs hr
    refine ⟨fun code hcode => ?_, fun hop hnone => ?_⟩
    · rw [heffect.get? code, if_neg hcode.symm]
    · exact heffect.eq_of_unknown hop hnone
  runs := by
    intro op
    obtain ⟨r, ts', heffect⟩ := TaskOp.exists_effect queueEnabled op l.tasks
    obtain ⟨h, hr⟩ := heffect.exists_runs
    exact ⟨h, r, _, hr⟩

end TaskSession

/-! ## A task that is recorded twice -/

theorem TaskSession.snoc_effect {queueEnabled : Bool} {steps : List TaskStep} {l : QueueLedger}
    {op : TaskOp} {r : op.Result} {ts : TaskRows} (hs : TaskSession queueEnabled steps l)
    (he : op.Effect queueEnabled l.tasks r ts) :
    TaskSession queueEnabled (steps ++ [⟨op, r⟩]) { l with tasks := ts } := by
  obtain ⟨h, hr⟩ := he.exists_runs
  exact hs.snoc hr

def NewTask.etl : NewTask :=
  ⟨7, "vision", "nightly", "etl", 1, .none⟩

def NewTask.urgentEtl : NewTask :=
  { NewTask.etl with priority := 5 }

/-- A signal comes before the task is recorded, others come after, and it is recorded again. -/
def TaskStep.etl : List TaskStep :=
  [⟨.signal .running 7 .training ⟨0⟩, ()⟩, ⟨.record ⟨.etl, ⟨1⟩⟩, .ok ⟨.etl, .queued, ⟨1⟩⟩⟩,
    ⟨.signal .running 7 .dataSet ⟨2⟩, ()⟩, ⟨.signal .finished 7 .dataSet ⟨3⟩, ()⟩,
    ⟨.record ⟨.urgentEtl, ⟨4⟩⟩, .ok ⟨.urgentEtl, .pendingRerun, ⟨4⟩⟩⟩,
    ⟨.setStatus 8 .failed ⟨5⟩, .ok false⟩]

def QueueLedger.etl : QueueLedger :=
  { QueueLedger.empty with tasks := [⟨.urgentEtl, .pendingRerun, ⟨4⟩⟩] }

theorem records_of_etl :
    TaskSession true TaskStep.etl .etl ∧ TaskSessionSpec true TaskStep.etl .etl := by
  have hstart : TaskSession true [] .empty := .nil rfl
  have hearly := hstart.snoc_effect (@TaskOp.Effect.signalled true .running .training 7 ⟨0⟩ _ rfl)
  have hrecorded := hearly.snoc_effect (.recorded ⟨.etl, ⟨1⟩⟩ _)
  have hignored := hrecorded.snoc_effect
    (@TaskOp.Effect.ignored true .running .dataSet 7 ⟨2⟩ _ rfl)
  have hfinished := hignored.snoc_effect
    (@TaskOp.Effect.signalled true .finished .dataSet 7 ⟨3⟩ _ rfl)
  have hagain := hfinished.snoc_effect (.recorded ⟨.urgentEtl, ⟨4⟩⟩ _)
  have hother := hagain.snoc_effect (.told 8 .failed ⟨5⟩ _)
  exact ⟨hother, records_spec hother⟩

end ClusterJobs
