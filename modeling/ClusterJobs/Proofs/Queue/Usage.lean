import ClusterJobs.Proofs.Queue.GpuKeys
import ClusterJobs.Proofs.Queue.Scanning

/-!
# Usage of queues

The usage of a queue adds up, by increasing code, the footprints of the tasks that were last
recorded for this queue and are running. It is a function of the records alone: neither the order in
which they came about nor that in which they are scanned plays a part, and a task that has left the
queue or has stopped leaves nothing behind.
-/

namespace ClusterJobs

open Program QueueBridge

/-! ## Types of GPUs -/

/-- The type that GPUs count under: the one that they name, or the default one if they name none. -/
inductive EffectiveGpuType (defaultType : String) : Option String → String → Prop where
  | own {name : String} : name ≠ "" → EffectiveGpuType defaultType (some name) name
  | unset : EffectiveGpuType defaultType none defaultType
  | empty : EffectiveGpuType defaultType (some "") defaultType

theorem gpuKey_eq_iff {gpuType : Option String} {defaultType key : String} :
    Capability.gpuKey gpuType defaultType = key ↔ EffectiveGpuType defaultType gpuType key := by
  cases gpuType with
  | none =>
    refine ⟨?_, fun h => by cases h; rfl⟩
    rintro rfl
    exact .unset
  | some name =>
    by_cases hempty : name = ""
    · subst hempty
      refine ⟨?_, fun h => ?_⟩
      · rintro rfl
        exact .empty
      · cases h with
        | own hne => exact absurd rfl hne
        | empty => rfl
    · rw [gpuKey_some hempty]
      refine ⟨?_, fun h => ?_⟩
      · rintro rfl
        exact .own hempty
      · cases h with
        | own => rfl
        | empty => exact absurd rfl hempty

/-- The footprint has GPUs, and they count under this type. -/
def Footprint.Counts (f : Footprint) (defaultType key : String) (g : Float) : Prop :=
  f.gpu = some g ∧ 0.0 < g ∧ EffectiveGpuType defaultType f.gpuType key

/-- The GPUs of footprints that count under a type, in the order of the footprints. -/
inductive CountedGpus (defaultType key : String) : List Footprint → List Float → Prop where
  | nil : CountedGpus defaultType key [] []
  | counted {f : Footprint} {g : Float} {fs : List Footprint} {gs : List Float} :
      f.Counts defaultType key g → CountedGpus defaultType key fs gs →
      CountedGpus defaultType key (f :: fs) (g :: gs)
  | passed {f : Footprint} {fs : List Footprint} {gs : List Float} :
      (∀ g, ¬ f.Counts defaultType key g) → CountedGpus defaultType key fs gs →
      CountedGpus defaultType key (f :: fs) gs

theorem gpusUnder_eq_some_iff {f : Footprint} {defaultType key : String} {g : Float} :
    f.gpusUnder defaultType key = some g ↔ f.Counts defaultType key g := by
  have hpositive : positiveGpu? f.gpu = some g ↔ f.gpu = some g ∧ 0.0 < g := by
    rw [positiveGpu?, Option.filter_eq_some_iff, decide_eq_true_iff]
  rw [Footprint.gpusUnder, Footprint.Counts, ← gpuKey_eq_iff, ← and_assoc, ← hpositive]
  split
  · next heq => exact (and_iff_left heq.symm).symm
  · next hne => simp [Ne.symm hne]

theorem countedGpus_filterMap (defaultType key : String) (fs : List Footprint) :
    CountedGpus defaultType key fs (fs.filterMap fun f => f.gpusUnder defaultType key) := by
  induction fs with
  | nil => exact .nil
  | cons f fs ih =>
    cases hunder : f.gpusUnder defaultType key with
    | none =>
      rw [List.filterMap_cons, hunder]
      refine .passed (fun g hg => ?_) ih
      rw [gpusUnder_eq_some_iff.2 hg] at hunder
      cases hunder
    | some g =>
      rw [List.filterMap_cons, hunder]
      exact .counted (gpusUnder_eq_some_iff.1 hunder) ih

/-! ## Sums of footprints -/

namespace Usage

variable {u : Usage} {fs : List Footprint} {defaultGpuType key : String}

/-- The usage adds up footprints in their order. -/
structure Sums (u : Usage) (defaultGpuType : String) (fs : List Footprint) : Prop where
  added : u = fs.foldl (fun u f => u.add f defaultGpuType) zero
  cpu : u.cpu = fs.foldl (fun x f => x + f.cpu) 0.0
  memory : u.memory = fs.foldl (fun x f => x + f.memory) 0.0
  sorted : u.gpu.Sorted
  /-- A type is counted if one of the footprints has GPUs of it. -/
  keys : ∀ key, (∃ x, u.gpu.get? key = some x) ↔
    ∃ f ∈ fs, ∃ g, f.gpu = some g ∧ 0.0 < g ∧ EffectiveGpuType defaultGpuType f.gpuType key
  /-- The GPUs of a type are those of the footprints that have some of it. -/
  amounts : ∀ key x, u.gpu.get? key = some x →
    ∃ gs, CountedGpus defaultGpuType key fs gs ∧ x = gs.foldl (· + ·) 0.0

theorem cpu_foldl_add (u : Usage) (fs : List Footprint) :
    (fs.foldl (fun u f => u.add f defaultGpuType) u).cpu =
      fs.foldl (fun x f => x + f.cpu) u.cpu := by
  induction fs generalizing u with
  | nil => rfl
  | cons f fs ih => exact ih _

theorem memory_foldl_add (u : Usage) (fs : List Footprint) :
    (fs.foldl (fun u f => u.add f defaultGpuType) u).memory =
      fs.foldl (fun x f => x + f.memory) u.memory := by
  induction fs generalizing u with
  | nil => rfl
  | cons f fs ih => exact ih _

theorem sorted_add (h : u.gpu.Sorted) (f : Footprint) : (u.add f defaultGpuType).gpu.Sorted := by
  rw [add]
  split
  · exact h.put _ _
  · exact h

theorem sorted_foldl_add (h : u.gpu.Sorted) (fs : List Footprint) :
    (fs.foldl (fun u f => u.add f defaultGpuType) u).gpu.Sorted := by
  induction fs generalizing u with
  | nil => exact h
  | cons f fs ih => exact ih (sorted_add h f)

theorem foldl_addCount_some (x : Float) (gs : List Float) :
    gs.foldl addCount (some x) = some (gs.foldl (· + ·) x) := by
  induction gs generalizing x with
  | nil => rfl
  | cons g gs ih => exact ih _

theorem foldl_addCount_none_iff {x : Float} {gs : List Float} :
    gs.foldl addCount none = some x ↔ gs ≠ [] ∧ x = gs.foldl (· + ·) 0.0 := by
  cases gs with
  | nil => simp
  | cons g gs =>
    have hfirst : (g :: gs).foldl addCount none = gs.foldl addCount (some (0.0 + g)) := rfl
    rw [hfirst, foldl_addCount_some, Option.some.injEq, eq_comm,
      and_iff_right (List.cons_ne_nil g gs)]
    rfl

theorem sums_total (defaultGpuType : String) (fs : List Footprint) :
    (total defaultGpuType fs).Sums defaultGpuType fs where
  added := rfl
  cpu := cpu_foldl_add zero fs
  memory := memory_foldl_add zero fs
  sorted := sorted_foldl_add (u := zero) .nil fs
  keys key := by
    have hcounts : (fs.filterMap fun f => f.gpusUnder defaultGpuType key) ≠ [] ↔
        ∃ f ∈ fs, ∃ g, f.gpusUnder defaultGpuType key = some g := by
      simp [List.filterMap_eq_nil_iff, Option.ne_none_iff_exists']
    simp only [gpusUnder_eq_some_iff] at hcounts
    simp only [total, get?_foldl_add]
    refine Iff.trans ?_ hcounts
    exact ⟨fun ⟨x, hx⟩ => (foldl_addCount_none_iff.1 hx).1,
      fun hne => ⟨_, foldl_addCount_none_iff.2 ⟨hne, rfl⟩⟩⟩
  amounts key x hx := by
    rw [total, get?_foldl_add] at hx
    exact ⟨_, countedGpus_filterMap .., (foldl_addCount_none_iff.1 hx).2⟩

end Usage

/-! ## Running tasks -/

namespace TaskOp

variable {queueEnabled : Bool} {ops : List TaskOp} {code : Int} {first last : TaskStatus}

/-- The task was recorded, and its code was not recorded again. -/
def LastRecords (ops : List TaskOp) (task : NewTask) : Prop :=
  ∃ before now after, ops = before ++ .record ⟨task, now⟩ :: after ∧
    ∀ later, .record later ∈ after → later.code ≠ task.code

/-- The operations since a code was first recorded leave it in this status. -/
def LeavesIn (queueEnabled : Bool) (ops : List TaskOp) (code : Int) (status : TaskStatus) : Prop :=
  ∃ before task after, ops = before ++ .record task :: after ∧ task.code = code ∧
    (∀ earlier, .record earlier ∈ before → earlier.code ≠ code) ∧
    Leaves queueEnabled code .queued after status

/-- After these operations the task is in the queue and running. -/
structure RunsIn (queueEnabled : Bool) (ops : List TaskOp) (queue : String) (task : NewTask) :
    Prop where
  recorded : LastRecords ops task
  queued : task.queue = queue
  running : LeavesIn queueEnabled ops task.code .running

/-- The status that an operation leaves a code in. -/
def statusAfter (queueEnabled : Bool) (code : Int) (status : TaskStatus) (op : TaskOp) :
    TaskStatus :=
  if op.code = code then (op.moves? queueEnabled).getD status else status

theorem statusAfter_of_idle {op : TaskOp} (h : ∀ status, ¬ op.Moves queueEnabled code status)
    (status : TaskStatus) : statusAfter queueEnabled code status op = status := by
  rw [statusAfter]
  split
  · next hcode =>
    cases hmoves : op.moves? queueEnabled with
    | none => rfl
    | some other => exact absurd (moves_iff.2 ⟨hcode, hmoves⟩) (h other)
  · rfl

theorem foldl_statusAfter_of_idle (h : ∀ op ∈ ops, ∀ status, ¬ op.Moves queueEnabled code status)
    (status : TaskStatus) : ops.foldl (statusAfter queueEnabled code) status = status := by
  induction ops with
  | nil => rfl
  | cons op ops ih =>
    obtain ⟨hop, hops⟩ := List.forall_mem_cons.1 h
    rw [List.foldl_cons, statusAfter_of_idle hop]
    exact ih hops

/-- There is one status that operations leave a code in. -/
theorem Leaves.eq_foldl (hl : Leaves queueEnabled code first ops last) :
    last = ops.foldl (statusAfter queueEnabled code) first := by
  cases hl with
  | kept first hkept => exact (foldl_statusAfter_of_idle hkept first).symm
  | moved first hmoves hlater =>
    obtain ⟨hcode, hgiven⟩ := moves_iff.1 hmoves
    rw [List.foldl_append, List.foldl_cons, foldl_statusAfter_of_idle hlater, statusAfter,
      if_pos hcode, hgiven, Option.getD_some]

end TaskOp

theorem exists_first {α : Type} {p : α → Prop} {xs : List α} (h : ∃ a ∈ xs, p a) :
    ∃ before a after, xs = before ++ a :: after ∧ p a ∧ ∀ b ∈ before, ¬ p b := by
  classical
  obtain ⟨a, hfind⟩ := Option.isSome_iff_exists.1 (List.find?_isSome (p := fun a => decide (p a))
    |>.2 (by simpa using h))
  obtain ⟨ha, before, after, hxs, hbefore⟩ := List.find?_eq_some_iff_append.1 hfind
  exact ⟨before, a, after, hxs, of_decide_eq_true ha, by simpa using hbefore⟩

theorem exists_last {α : Type} {p : α → Prop} {xs : List α} (h : ∃ a ∈ xs, p a) :
    ∃ before a after, xs = before ++ a :: after ∧ p a ∧ ∀ b ∈ after, ¬ p b := by
  have hreverse : ∃ a ∈ xs.reverse, p a := by simpa using h
  obtain ⟨before, a, after, hxs, ha, hbefore⟩ := exists_first hreverse
  refine ⟨after.reverse, a, before.reverse, ?_, ha, by simpa using hbefore⟩
  rw [← List.reverse_reverse xs, hxs]
  simp

/-! ## Records of a queue -/

/-- What a record says of its task, whenever it was written. -/
def QueuedTask.standing (t : QueuedTask) : NewTask × TaskStatus :=
  (t.toNewTask, t.status)

namespace TaskRows

variable {ts ts' : TaskRows} {queue : String} {t : QueuedTask} {task : NewTask}
  {status : TaskStatus}

theorem mem_ofQueue :
    t ∈ ts.ofQueue queue (some status) ↔ t ∈ ts ∧ t.queue = queue ∧ t.status = status := by
  simp [ofQueue]

theorem Ordered.ofQueue (ho : ts.Ordered) (queue : String) (status : Option TaskStatus) :
    TaskRows.Ordered (ts.ofQueue queue status) :=
  ho.sublist (List.filter_sublist.map _)

theorem Ordered.mem_iff (ho : ts.Ordered) : t ∈ ts ↔ ts.get? t.code = some t := by
  rw [ho.get?_eq_some_iff, and_iff_left rfl]

theorem standing_eq_some_iff :
    (ts.get? task.code).map QueuedTask.standing = some (task, status) ↔
      ∃ t, ts.get? task.code = some t ∧ t.toNewTask = task ∧ t.status = status := by
  simp [QueuedTask.standing]

theorem Ordered.mem_map_ofQueue (ho : ts.Ordered) :
    task ∈ (ts.ofQueue queue (some status)).map QueuedTask.toNewTask ↔
      (ts.get? task.code).map QueuedTask.standing = some (task, status) ∧ task.queue = queue := by
  simp only [standing_eq_some_iff, List.mem_map, mem_ofQueue, ho.mem_iff]
  constructor
  · rintro ⟨t, ⟨hget, rfl, rfl⟩, rfl⟩
    exact ⟨⟨t, hget, rfl, rfl⟩, rfl⟩
  · rintro ⟨⟨t, hget, rfl, rfl⟩, rfl⟩
    exact ⟨t, ⟨hget, rfl, rfl⟩, rfl⟩

theorem Ordered.map_ofQueue (ho : ts.Ordered) (queue : String) (status : Option TaskStatus) :
    (((ts.ofQueue queue status).map QueuedTask.toNewTask).map NewTask.code).Pairwise (· < ·) := by
  rw [List.map_map]
  exact ho.ofQueue queue status

/-- The tasks of a queue depend on what the records say, and not on when they were written. -/
theorem Ordered.map_ofQueue_congr (ho : ts.Ordered) (ho' : ts'.Ordered)
    (h : ∀ code, (ts'.get? code).map QueuedTask.standing = (ts.get? code).map QueuedTask.standing)
    (queue : String) (status : TaskStatus) :
    (ts'.ofQueue queue (some status)).map QueuedTask.toNewTask =
      (ts.ofQueue queue (some status)).map QueuedTask.toNewTask :=
  eq_of_increasing (ho'.map_ofQueue queue _) (ho.map_ofQueue queue _) fun task => by
    rw [ho.mem_map_ofQueue, ho'.mem_map_ofQueue, h]

end TaskRows

/-- The operation takes its task out of a queue, or ends its running. -/
inductive TaskOp.Removes (queueEnabled : Bool) (queue : String) : TaskOp → Prop where
  | elsewhere {task : DatedTask} : task.queue ≠ queue → Removes queueEnabled queue (.record task)
  | stopped {op : TaskOp} {code : Int} {status : TaskStatus} : op.Moves queueEnabled code status →
      status ≠ .running → Removes queueEnabled queue op

section Removes

variable {queueEnabled : Bool} {queue : String} {op : TaskOp} {r : op.Result} {ts ts' : TaskRows}

theorem TaskOp.Removes.not_running (hop : op.Removes queueEnabled queue) {known : Option QueuedTask}
    {t : QueuedTask} (ht : op.settle queueEnabled known = some t) (hqueue : t.queue = queue) :
    t.status ≠ .running := by
  cases hop with
  | @elsewhere task hne =>
    cases ht
    exact absurd hqueue hne
  | @stopped op code status hmoves hne =>
    obtain ⟨-, hgiven⟩ := TaskOp.moves_iff.1 hmoves
    cases op with
    | record task => cases hgiven
    | _ =>
      obtain ⟨old, -, rfl⟩ := Option.map_eq_some_iff.1 ht
      rw [hgiven]
      exact hne

/-- What an operation takes out of a queue is its own task, and nothing else changes there. -/
theorem TaskOp.Effect.ofQueue_of_removes (he : op.Effect queueEnabled ts r ts')
    (ho : ts.Ordered) (hop : op.Removes queueEnabled queue) :
    ts'.ofQueue queue (some .running) =
      (ts.ofQueue queue (some .running)).filter fun t => t.code ≠ op.code := by
  have ho' := he.ordered ho
  refine eq_of_increasing (ho'.ofQueue _ _)
    ((ho.ofQueue _ _).sublist (List.filter_sublist.map _)) fun t => ?_
  have hget := he.get? t.code
  rw [List.mem_filter, TaskRows.mem_ofQueue, TaskRows.mem_ofQueue, ho.mem_iff, ho'.mem_iff]
  by_cases hcode : op.code = t.code
  · rw [if_pos hcode] at hget
    refine iff_of_false ?_ (by simp [hcode])
    rintro ⟨ht, hqueue, hrunning⟩
    exact hop.not_running (hget.symm.trans ht) hqueue hrunning
  · rw [if_neg hcode] at hget
    rw [hget, and_iff_left (decide_eq_true (Ne.symm hcode))]

end Removes

/-! ## Sessions -/

section TaskSession

variable {queueEnabled : Bool} {steps : List TaskStep} {l l' : QueueLedger} {t : QueuedTask}

/-- The status that a code is left in after it was recorded first. -/
theorem TaskSession.exists_left (hs : TaskSession queueEnabled steps l) {task : DatedTask}
    {before after : List TaskOp} (hops : steps.map TaskStep.op = before ++ .record task :: after)
    (hfirst : ∀ earlier, .record earlier ∈ before → earlier.code ≠ task.code) :
    ∃ t ∈ l.tasks, t.code = task.code ∧
      TaskOp.Leaves queueEnabled task.code .queued after t.status := by
  obtain ⟨t, ht, hcode, hleaves, -⟩ := hs.exists_record hops
  have hnone : TaskOp.recordFrom queueEnabled task.code none before = none := by
    rw [← Option.not_isSome_iff_eq_none, TaskOp.recordFrom_isSome_iff]
    rintro ⟨earlier, hmem, hcode⟩
    exact hfirst earlier hmem hcode
  rw [hnone] at hleaves
  exact ⟨t, ht, hcode, hleaves⟩

theorem TaskSession.eq_of_code (hs : TaskSession queueEnabled steps l) {u : QueuedTask}
    (hu : u ∈ l.tasks) (ht : t ∈ l.tasks) (hcode : u.code = t.code) : u = t :=
  List.inj_on_of_nodup_map (hs.ordered.imp ne_of_lt) hu ht hcode

theorem TaskSession.exists_recorded (hs : TaskSession queueEnabled steps l) (ht : t ∈ l.tasks) :
    ∃ op ∈ steps.map TaskStep.op, ∃ task, op = .record task ∧ task.code = t.code := by
  obtain ⟨task, hmem, hcode⟩ := (hs.exists_code_iff t.code).1
    (Option.isSome_of_eq_some (hs.ordered.mem_iff.1 ht))
  exact ⟨_, hmem, task, rfl, hcode⟩

/-- A record holds the task that was recorded last for its code. -/
theorem TaskSession.lastRecords_of_mem (hs : TaskSession queueEnabled steps l)
    (ht : t ∈ l.tasks) : TaskOp.LastRecords (steps.map TaskStep.op) t.toNewTask := by
  obtain ⟨before, op, after, hops, ⟨task, rfl, hcode⟩, hafter⟩ :=
    exists_last (hs.exists_recorded ht)
  have hlast : ∀ later, .record later ∈ after → later.code ≠ task.code :=
    fun later hlater heq => hafter _ hlater ⟨later, rfl, heq.trans hcode⟩
  obtain ⟨u, hu, hucode, -, htask⟩ := hs.exists_record hops
  obtain rfl := hs.eq_of_code hu ht (hucode.trans hcode)
  rw [htask hlast]
  exact ⟨before, task.now, after, hops, hlast⟩

/-- A record is in the status that the operations since its code was recorded first leave it in. -/
theorem TaskSession.leavesIn_of_mem (hs : TaskSession queueEnabled steps l) (ht : t ∈ l.tasks) :
    TaskOp.LeavesIn queueEnabled (steps.map TaskStep.op) t.code t.status := by
  obtain ⟨before, op, after, hops, ⟨task, rfl, hcode⟩, hbefore⟩ :=
    exists_first (hs.exists_recorded ht)
  have hfirst : ∀ earlier, .record earlier ∈ before → earlier.code ≠ t.code :=
    fun earlier hearlier heq => hbefore _ hearlier ⟨earlier, rfl, heq⟩
  obtain ⟨u, hu, hucode, hleaves⟩ := hs.exists_left hops (hcode ▸ hfirst)
  rw [hs.eq_of_code hu ht (hucode.trans hcode), hcode] at hleaves
  exact ⟨before, task, after, hops, hcode, hfirst, hleaves⟩

/-- A record says what was recorded last for its code, and the status that the code was left in. -/
theorem TaskSession.standing_iff (hs : TaskSession queueEnabled steps l) {task : NewTask}
    {status : TaskStatus} :
    (l.tasks.get? task.code).map QueuedTask.standing = some (task, status) ↔
      TaskOp.LastRecords (steps.map TaskStep.op) task ∧
        TaskOp.LeavesIn queueEnabled (steps.map TaskStep.op) task.code status := by
  rw [TaskRows.standing_eq_some_iff]
  constructor
  · rintro ⟨t, hget, rfl, rfl⟩
    have ht := hs.ordered.mem_iff.2 hget
    exact ⟨hs.lastRecords_of_mem ht, hs.leavesIn_of_mem ht⟩
  · rintro ⟨⟨before, now, after, hops, hlast⟩, before', task', after', hops', hcode, hfirst, hleaves⟩
    -- The last record of the code gives the task, the first one the status: it is one record that
    -- has both.
    obtain ⟨u, hu, hucode, -, htask⟩ := hs.exists_record hops
    obtain ⟨v, hv, hvcode, hleaves'⟩ := hs.exists_left hops' (hcode ▸ hfirst)
    obtain rfl : v = u := hs.eq_of_code hv hu (hvcode.trans (hcode.trans hucode.symm))
    rw [hcode] at hleaves'
    have hstatus : v.status = status := hleaves'.eq_foldl.trans hleaves.eq_foldl.symm
    exact ⟨v, hs.ordered.get?_eq_some_iff.2 ⟨hv, hucode⟩, htask hlast, hstatus⟩

theorem TaskSession.runsIn_iff (hs : TaskSession queueEnabled steps l) {queue : String}
    {task : NewTask} : TaskOp.RunsIn queueEnabled (steps.map TaskStep.op) queue task ↔
      task ∈ (l.tasks.ofQueue queue (some .running)).map QueuedTask.toNewTask := by
  rw [hs.ordered.mem_map_ofQueue, hs.standing_iff]
  constructor
  · rintro ⟨hrecorded, hqueue, hrunning⟩
    exact ⟨⟨hrecorded, hrunning⟩, hqueue⟩
  · rintro ⟨⟨hrecorded, hrunning⟩, hqueue⟩
    exact ⟨hrecorded, hqueue, hrunning⟩

/-- The tasks that run in a queue, by increasing code, are those of its records. -/
theorem TaskSession.running_eq (hs : TaskSession queueEnabled steps l) {queue : String}
    {tasks : List NewTask} (hcodes : (tasks.map NewTask.code).Pairwise (· < ·))
    (hmem : ∀ task, task ∈ tasks ↔
      TaskOp.RunsIn queueEnabled (steps.map TaskStep.op) queue task) :
    tasks = (l.tasks.ofQueue queue (some .running)).map QueuedTask.toNewTask :=
  eq_of_increasing hcodes (hs.ordered.map_ofQueue queue _) fun task => by
    rw [hmem, hs.runsIn_iff]

theorem QueueLedger.Reached.runs {α : Type} {p : QueueProgram α} {h : List QueueEvent} {a : α}
    (hl : l.Reached) (hr : Runs QueueLedger.servesUnlocked p l h a l') : l'.Reached := by
  induction hr with
  | done => exact hl
  | ask hs _ ih => exact ih (hl.call hs.1)

theorem TaskSession.reached (hs : TaskSession queueEnabled steps l) : l.Reached := by
  induction hs with
  | nil hempty => exact .start hempty
  | snoc _ hr ih => exact ih.runs hr

end TaskSession

/-! ## Answers -/

section Answers

variable {queueEnabled : Bool} {steps : List TaskStep} {s : QueueSettings} {queue : String}
  {l l' : QueueLedger} {h : List QueueEvent}

theorem serves_listTasks_iff {status : Option TaskStatus}
    {x : QueueAnswer (.listTasks queue status)} :
    QueueLedger.servesUnlocked (.listTasks queue status) l x l' ↔
      x = .ok (l.tasks.ofQueue queue status) ∧ l' = l := by
  constructor
  · rintro ⟨hs, hok⟩
    cases x with
    | error e => cases hok
    | ok tasks => exact ⟨congrArg Except.ok hs.1, hs.2⟩
  · rintro ⟨rfl, rfl⟩
    exact ⟨⟨rfl, rfl⟩, rfl⟩

theorem runs_usage_iff {r : Except QueueFault Usage} :
    (∃ h, Runs QueueLedger.servesUnlocked (QueueManager.usage s queue) l h r l') ↔
      r = .ok (.total s.defaultGpuType
        ((l.tasks.ofQueue queue (some .running)).map fun t => t.footprint)) ∧ l' = l := by
  constructor
  · rintro ⟨h, hr⟩
    obtain ⟨x, l₁, h₁, hlist, hr, -⟩ := runs_ask_iff.1 hr
    obtain ⟨rfl, rfl⟩ := serves_listTasks_iff.1 hlist
    obtain ⟨-, rfl, rfl⟩ := runs_done_iff.1 hr
    exact ⟨rfl, rfl⟩
  · rintro ⟨rfl, rfl⟩
    exact ⟨_, .ask (serves_listTasks_iff.2 ⟨rfl, rfl⟩) <| .done _ _⟩

/-- The usage of a queue is that of its records, by increasing code. -/
theorem TaskRows.Ordered.usage_of_queue (ho : l.tasks.Ordered) (s : QueueSettings)
    (queue : String) : ∃ (tasks : List QueuedTask) (u : Usage), TaskRows.Ordered tasks ∧
      (∀ t, t ∈ tasks ↔
        l.tasks.get? t.code = some t ∧ t.queue = queue ∧ t.status = .running) ∧
      u.Sums s.defaultGpuType (tasks.map fun t => t.footprint) ∧
      ∀ r l', (∃ h, Runs QueueLedger.servesUnlocked (QueueManager.usage s queue) l h r l') ↔
        r = .ok u ∧ l' = l :=
  ⟨l.tasks.ofQueue queue (some .running), _, ho.ofQueue queue _,
    fun t => by rw [TaskRows.mem_ofQueue, ho.mem_iff], Usage.sums_total _ _,
    fun r l' => runs_usage_iff⟩

end Answers

/-- What the usage of queues is after a history of operations on tasks. -/
structure UsageSpec (s : QueueSettings) (queueEnabled : Bool) (steps : List TaskStep)
    (l : QueueLedger) : Prop where
  /-- The usage of a queue adds up the tasks that run in it, by increasing code. -/
  answers : ∀ queue, ∃ (tasks : List NewTask) (u : Usage),
    (tasks.map NewTask.code).Pairwise (· < ·) ∧
      (∀ task, task ∈ tasks ↔
        TaskOp.RunsIn queueEnabled (steps.map TaskStep.op) queue task) ∧
      u.Sums s.defaultGpuType (tasks.map NewTask.footprint) ∧
      ∀ r l', (∃ h, Runs QueueLedger.servesUnlocked (QueueManager.usage s queue) l h r l') ↔
        r = .ok u ∧ l' = l
  /-- After any history of calls, whichever of them take turns, it adds up the records that are
  kept of the queue. -/
  held : ∀ l' : QueueLedger, l'.Reached → ∀ queue, ∃ (tasks : List QueuedTask) (u : Usage),
    (tasks.map fun t => t.code).Pairwise (· < ·) ∧
      (∀ t, t ∈ tasks ↔
        l'.tasks.get? t.code = some t ∧ t.queue = queue ∧ t.status = .running) ∧
      u.Sums s.defaultGpuType (tasks.map fun t => t.footprint) ∧
      ∀ r l₁, (∃ h, Runs QueueLedger.servesUnlocked (QueueManager.usage s queue) l' h r l₁) ↔
        r = .ok u ∧ l₁ = l'
  /-- A history of operations is one of calls. -/
  reached : l.Reached
  /-- Any history of calls that ends with the same records gives the same usage, whenever they were
  written. -/
  same : ∀ l' : QueueLedger, l'.Reached →
    (∀ code, (l'.tasks.get? code).map QueuedTask.standing =
      (l.tasks.get? code).map QueuedTask.standing) → ∀ queue h r l₁ h' r' l₁',
      Runs QueueLedger.servesUnlocked (QueueManager.usage s queue) l h r l₁ →
      Runs QueueLedger.servesUnlocked (QueueManager.usage s queue) l' h' r' l₁' → r' = r
  /-- A task that is taken out of the queue, or ceases to run, no longer counts there, and all the
  others do as before. -/
  removed : ∀ (queue : String) (op : TaskOp) (h : List QueueEvent) (r : op.Result)
    (l₁ : QueueLedger) (h' : List QueueEvent) (r' : Except QueueFault Usage) (l₂ : QueueLedger)
    (tasks : List NewTask),
    (tasks.map NewTask.code).Pairwise (· < ·) →
    (∀ task, task ∈ tasks ↔ TaskOp.RunsIn queueEnabled (steps.map TaskStep.op) queue task) →
    op.Removes queueEnabled queue →
    Runs QueueLedger.servesUnlocked (op.program queueEnabled) l h r l₁ →
    Runs QueueLedger.servesUnlocked (QueueManager.usage s queue) l₁ h' r' l₂ →
    ∃ u, r' = .ok u ∧
      u.Sums s.defaultGpuType ((tasks.filter fun t => t.code ≠ op.code).map NewTask.footprint)
  /-- In whatever order records are scanned, they are sorted before they are added up. -/
  scanned : ∀ scan : List QueuedTask, scan.Perm l.tasks → ∀ queue status,
    (scan.filter fun t => t.queue == queue && status.all fun s => t.status == s).mergeSort
      (fun t t' => decide (t.code ≤ t'.code)) = l.tasks.ofQueue queue status

/-- Usage depends on the records alone. -/
theorem usage_spec {queueEnabled : Bool} {steps : List TaskStep} {l : QueueLedger}
    (s : QueueSettings) (hs : TaskSession queueEnabled steps l) :
    UsageSpec s queueEnabled steps l where
  answers queue := by
    refine ⟨(l.tasks.ofQueue queue (some .running)).map QueuedTask.toNewTask,
      .total s.defaultGpuType ((l.tasks.ofQueue queue (some .running)).map fun t => t.footprint),
      ?_, fun task => hs.runsIn_iff.symm, ?_, fun r l' => runs_usage_iff⟩
    · exact hs.ordered.map_ofQueue queue _
    · rw [List.map_map]
      exact Usage.sums_total _ _
  held l' hl' queue := hl'.ordered.usage_of_queue s queue
  reached := hs.reached
  same l' hl' hget queue h r l₁ h' r' l₁' hr hr' := by
    have htasks := congrArg (List.map NewTask.footprint)
      (hs.ordered.map_ofQueue_congr hl'.ordered hget queue .running)
    rw [List.map_map, List.map_map] at htasks
    rw [(runs_usage_iff.1 ⟨h, hr⟩).1, (runs_usage_iff.1 ⟨h', hr'⟩).1]
    exact congrArg (fun footprints => Except.ok (Usage.total s.defaultGpuType footprints)) htasks
  removed queue op h r l₁ h' r' l₂ tasks hcodes hmem hop hr hr' := by
    obtain ⟨rfl, rfl⟩ := runs_usage_iff.1 ⟨h', hr'⟩
    refine ⟨_, rfl, ?_⟩
    rw [(TaskOp.effect_of_runs hr).ofQueue_of_removes hs.ordered hop, hs.running_eq hcodes hmem,
      List.filter_map, List.map_map]
    exact Usage.sums_total _ _
  scanned scan hscan queue status := mergeSort_filter_of_scan hs.ordered hscan _

def NewTask.speech : NewTask :=
  ⟨3, "vision", "nightly", "speech", 1, ⟨2.0, 4.0, some 1.0, some "amd.com/gpu"⟩⟩

/-- One task is recorded and starts, and another one is recorded and told to run. -/
def TaskStep.speech : List TaskStep :=
  [⟨.record ⟨.etl, ⟨0⟩⟩, .ok ⟨.etl, .queued, ⟨0⟩⟩⟩, ⟨.signal .running 7 .training ⟨1⟩, ()⟩,
    ⟨.record ⟨.speech, ⟨2⟩⟩, .ok ⟨.speech, .queued, ⟨2⟩⟩⟩, ⟨.setStatus 3 .running ⟨3⟩, .ok true⟩]

def QueueLedger.speech : QueueLedger :=
  { QueueLedger.empty with tasks := [⟨.speech, .running, ⟨3⟩⟩, ⟨.etl, .running, ⟨1⟩⟩] }

/-- The GPU that has a type of its own does not count under the default type. -/
theorem usage_of_speech :
    TaskSession true TaskStep.speech .speech ∧ UsageSpec .plain true TaskStep.speech .speech ∧
      ∃ u h, Runs QueueLedger.servesUnlocked (QueueManager.usage .plain "vision") .speech h (.ok u)
          .speech ∧
        (∃ x, u.gpu.get? "amd.com/gpu" = some x) ∧ u.gpu.get? "nvidia.com/gpu" = none := by
  have hstart : TaskSession true [] .empty := .nil rfl
  have hrecorded := hstart.snoc_effect (.recorded ⟨.etl, ⟨0⟩⟩ _)
  have hstarted := hrecorded.snoc_effect
    (@TaskOp.Effect.signalled true .running .training 7 ⟨1⟩ _ rfl)
  have hother := hstarted.snoc_effect (.recorded ⟨.speech, ⟨2⟩⟩ _)
  have htold : TaskSession true TaskStep.speech .speech := hother.snoc_effect (.told 3 .running ⟨3⟩ _)
  have hspec := usage_spec .plain htold
  obtain ⟨tasks, u, -, hmem, hsums, hruns⟩ := hspec.held _ hspec.reached "vision"
  obtain ⟨h, hr⟩ := (hruns _ _).2 ⟨rfl, rfl⟩
  refine ⟨htold, hspec, u, h, hr, (hsums.keys _).2 ?_, ?_⟩
  · refine ⟨_, List.mem_map_of_mem ((hmem ⟨.speech, .running, ⟨3⟩⟩).2 ⟨by decide, rfl, rfl⟩), 1.0, rfl,
      by decide +kernel, .own (by decide)⟩
  · rw [Option.eq_none_iff_forall_ne_some]
    intro x hx
    obtain ⟨f, hf, g, hgpu, -, htype⟩ := (hsums.keys _).1 ⟨x, hx⟩
    obtain ⟨t, ht, rfl⟩ := List.mem_map.1 hf
    have hrow : t ∈ QueueLedger.speech.tasks :=
      hspec.reached.ordered.mem_iff.2 ((hmem t).1 ht).1
    rcases List.mem_pair.1 hrow with rfl | rfl
    · exact absurd (gpuKey_eq_iff.2 htype) (by decide)
    · cases hgpu

end ClusterJobs
