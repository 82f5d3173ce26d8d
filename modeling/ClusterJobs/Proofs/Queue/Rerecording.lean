import Mathlib.Data.Fintype.EquivFin
import ClusterJobs.Proofs.Queue.Records

/-!
# Recording a task again

A recording reads the status of the record that is known and writes it back with everything else.
A status that the record is given in between is undone. Otherwise the record keeps the status that it
was given last, in whatever order operations take turns.
-/

namespace ClusterJobs

open Program QueueBridge

/-! ## Turns -/

/-- The record of a task that is given a status. -/
def DatedTask.inStatus (task : DatedTask) (status : TaskStatus) : QueuedTask :=
  ⟨task.toNewTask, status, task.now⟩

namespace TaskOp

/-- What is left of an operation, and the status that it is about to write back. -/
inductive At (queueEnabled : Bool) :
    (op : TaskOp) → Option TaskStatus → QueueProgram op.Result → Prop where
  | fresh (op : TaskOp) : At queueEnabled op none (op.program queueEnabled)
  | found (task : DatedTask) (known : Option QueuedTask) :
      At queueEnabled (.record task) (some (task.over known).status) (store (task.over known))
  | ended (op : TaskOp) (r : op.Result) : At queueEnabled op none (.done r)

/-- One call of an operation, with the records and the status that it is about to write back before
and after the call. -/
inductive Turn (queueEnabled : Bool) : TaskOp → Option TaskStatus → TaskRows → QueueEvent →
    Option TaskStatus → TaskRows → Prop where
  | looked (task : DatedTask) (ts : TaskRows) :
      Turn queueEnabled (.record task) none ts ⟨.findTask task.code, .ok (ts.get? task.code)⟩
        (some (task.over (ts.get? task.code)).status) ts
  | stored (task : DatedTask) (status : TaskStatus) (ts : TaskRows) (isNew : Bool) :
      Turn queueEnabled (.record task) (some status) ts ⟨.upsertTask (task.inStatus status), .ok isNew⟩
        none (ts.put (task.inStatus status))
  | moved {op : TaskOp} {status : TaskStatus} (ts : TaskRows) (known : Bool) :
      op.moves? queueEnabled = some status →
      Turn queueEnabled op none ts ⟨.setStatus op.code status op.now, .ok known⟩ none
        (ts.setStatus op.code status op.now)
  | failed {op : TaskOp} {held : Option TaskStatus} {e : QueueEvent} (ts : TaskRows) :
      recordsFailed e = true → Turn queueEnabled op held ts e none ts

section Turn

variable {queueEnabled : Bool} {op : TaskOp} {held : Option TaskStatus} {l l' : QueueLedger}

theorem program_of_moves? {status : TaskStatus} (h : op.moves? queueEnabled = some status) :
    ∃ next, op.program queueEnabled = .ask (.setStatus op.code status op.now) next ∧
      ∀ x, ∃ r, next x = .done r := by
  cases op with
  | record task => cases h
  | setStatus code status now =>
    cases h
    exact ⟨_, rfl, fun x => ⟨x, rfl⟩⟩
  | signal s code type now =>
    simp only [moves?] at h
    split at h
    · next hcounts =>
      cases h
      exact ⟨_, handle_of_counts hcounts code now, fun x => ⟨(), rfl⟩⟩
    · cases h

theorem program_of_record {task : DatedTask} (h : op = .record task) :
    ∃ next, op.program queueEnabled = .ask (.findTask task.code) next ∧
      ∀ t, ∃ next', next (.ok (some t)) = .ask (.upsertTask (task.inStatus t.status)) next' ∧
        ∀ x, ∃ r, next' x = .done r := by
  subst h
  refine ⟨_, record_eq task, fun t => ⟨_, rfl, fun x => ?_⟩⟩
  cases x with
  | error e => exact ⟨_, rfl⟩
  | ok isNew => exact ⟨_, rfl⟩

theorem program_of_idle (hop : ∀ task, op ≠ .record task) (h : op.moves? queueEnabled = none) :
    ∃ r, op.program queueEnabled = .done r := by
  cases op with
  | record task => exact absurd rfl (hop task)
  | setStatus code status now => cases h
  | signal s code type now =>
    simp only [moves?] at h
    split at h
    · cases h
    · next hignored => exact ⟨(), handle_of_ignored (by simpa using hignored) code now⟩

theorem At.turn {c : QueueCall} {next : QueueAnswer c → QueueProgram op.Result} {x : QueueAnswer c}
    (ha : At queueEnabled op held (.ask c next)) (hs : QueueLedger.serves c l x l') :
    ∃ held', Turn queueEnabled op held l.tasks ⟨c, x⟩ held' l'.tasks ∧
      At queueEnabled op held' (next x) := by
  generalize hp : Program.ask c next = p at ha
  cases ha with
  | fresh op =>
    cases hmoves : op.moves? queueEnabled with
    | some status =>
      obtain ⟨next', hprogram, hdone⟩ := program_of_moves? hmoves
      rw [hprogram] at hp
      cases hp
      obtain ⟨r, hr⟩ := hdone x
      rw [hr]
      cases x with
      | error e =>
        obtain rfl : l' = l := hs
        exact ⟨none, .failed _ rfl, .ended op r⟩
      | ok known =>
        obtain ⟨-, rfl⟩ := hs
        exact ⟨none, .moved _ known hmoves, .ended op r⟩
    | none =>
      by_cases hop : ∃ task, op = .record task
      · obtain ⟨task, rfl⟩ := hop
        rw [program, record_eq] at hp
        cases hp
        cases x with
        | error e =>
          obtain rfl : l' = l := hs
          exact ⟨none, .failed _ rfl, .ended (.record task) _⟩
        | ok known =>
          obtain ⟨rfl, rfl⟩ := hs
          exact ⟨_, .looked task _, .found task _⟩
      · obtain ⟨r, hr⟩ := program_of_idle (fun task h => hop ⟨task, h⟩) hmoves
        rw [hr] at hp
        cases hp
  | found task known =>
    cases hp
    cases x with
    | error e =>
      obtain rfl : l' = l := hs
      exact ⟨none, .failed _ rfl, .ended (.record task) _⟩
    | ok isNew =>
      obtain ⟨-, rfl⟩ := hs
      exact ⟨none, .stored task _ _ isNew, .ended (.record task) _⟩
  | ended op r => cases hp

end Turn

end TaskOp

/-! ## What turns keep -/

/-- The status that a call has given to the record of a code. -/
def given? (code : Int) : QueueEvent → Option TaskStatus
  | ⟨.setStatus changed status _, .ok _⟩ => if changed = code then some status else none
  | _ => none

theorem given?_of_failed {code : Int} {e : QueueEvent} (he : recordsFailed e = true) :
    given? code e = none := by
  obtain ⟨c, x⟩ := e
  cases c with
  | setStatus changed status now =>
    cases x with
    | error e => rfl
    | ok known => cases he
  | _ => rfl

section Turns

variable {ι : Type} [DecidableEq ι] {queueEnabled : Bool} {ops : ι → TaskOp} {code : Int}
  {first : TaskStatus} {h past : List (ι × QueueEvent)} {l l' : QueueLedger}
  {ps qs : (i : ι) → QueueProgram (ops i).Result}

/-- What every turn keeps, an interleaving keeps. -/
theorem TaskOp.turns_induction
    {keeps : List (ι × QueueEvent) → (ι → Option TaskStatus) → TaskRows → Prop}
    {held : ι → Option TaskStatus} (hi : Interleaves QueueLedger.serves ps l h qs l')
    (hat : ∀ i, (ops i).At queueEnabled (held i) (ps i)) (hstart : keeps past held l.tasks)
    (hstep : ∀ before after i e held x ts ts', past ++ h = before ++ (i, e) :: after →
      TaskOp.Turn queueEnabled (ops i) (held i) ts e x ts' → keeps before held ts →
      keeps (before ++ [(i, e)]) (Function.update held i x) ts') :
    ∃ held', keeps (past ++ h) held' l'.tasks := by
  induction hi generalizing past held with
  | nil ps l => exact ⟨held, by rwa [List.append_nil]⟩
  | @cons ps qs l l₁ l' i c next x h hask hs _ ih =>
    obtain ⟨x', hturn, hat'⟩ := (hask ▸ hat i).turn hs
    have hsplit : past ++ (i, ⟨c, x⟩) :: h = past ++ [(i, ⟨c, x⟩)] ++ h := by simp
    rw [hsplit]
    have hats (j : ι) : (ops j).At queueEnabled (Function.update held i x' j)
        (Function.update ps i (next x) j) := by
      by_cases hji : j = i
      · subst hji
        rwa [Function.update_self, Function.update_self]
      · rw [Function.update_of_ne hji, Function.update_of_ne hji]
        exact hat j
    refine ih hats (hstep past h i _ held x' _ _ rfl hturn hstart) ?_
    intro before after j e held y ts ts' heq
    exact hstep before after j e held y ts ts' (hsplit.trans heq)

/-- The status that the record of a code was given last, or the first one. -/
def lastGiven (code : Int) (first : TaskStatus) (h : List (ι × QueueEvent)) : TaskStatus :=
  (h.filterMap fun p => given? code p.2).getLastD first

omit [DecidableEq ι] in
theorem lastGiven_snoc (i : ι) (e : QueueEvent) :
    lastGiven code first (past ++ [(i, e)]) = (given? code e).getD (lastGiven code first past) := by
  cases he : given? code e <;> simp [lastGiven, List.filterMap_append, he]

/-- What an operation is about to write after a call, it was about to write before, or the call has
decided it. -/
theorem held_of_update {held : ι → Option TaskStatus} {i j : ι} {x : Option TaskStatus}
    {status : TaskStatus} (hj : Function.update held i x j = some status) :
    j = i ∧ x = some status ∨ held j = some status := by
  by_cases hji : j = i
  · subst hji
    rw [Function.update_self] at hj
    exact .inl ⟨rfl, hj⟩
  · rw [Function.update_of_ne hji] at hj
    exact .inr hj

end Turns

/-! ## Recordings that are not interrupted -/

section Kept

variable {ι : Type} [DecidableEq ι] {queueEnabled : Bool} {ops : ι → TaskOp} {code : Int}
  {first : TaskStatus} {h past before after : List (ι × QueueEvent)} {l l' : QueueLedger}
  {ps qs : (i : ι) → QueueProgram (ops i).Result}

/-- Between the two calls of a recording of the code there is one that may give the record another
status. -/
def Interrupted (queueEnabled : Bool) (ops : ι → TaskOp) (code : Int) (h : List (ι × QueueEvent)) :
    Prop :=
  ∃ i j task status, ops i = .record task ∧ task.code = code ∧
    (ops j).Moves queueEnabled code status ∧ Crosses h i j

/-- What is known of a record and of the recordings that are about to write it. -/
structure StatusKept (queueEnabled : Bool) (ops : ι → TaskOp) (code : Int) (first : TaskStatus)
    (past : List (ι × QueueEvent)) (held : ι → Option TaskStatus) (ts : TaskRows) : Prop where
  /-- The record has the status that it was given last. -/
  known : ∃ t, ts.get? code = some t ∧ t.status = lastGiven code first past
  /-- A recording that is about to write has made its first call. -/
  begun : ∀ i, held i ≠ none → ∃ e, (i, e) ∈ past
  /-- It will write the status that the record has, unless another call has interrupted it. -/
  current : ∀ i status, held i = some status → (ops i).code = code →
    status = lastGiven code first past ∨
      ∃ j given, (ops j).Moves queueEnabled code given ∧ Before past i j

variable {held : ι → Option TaskStatus} {ts ts' : TaskRows} {i : ι} {e : QueueEvent}
  {x : Option TaskStatus}

/-- A call that gives the record no status. -/
theorem StatusKept.keep (hs : StatusKept queueEnabled ops code first past held ts)
    (hgiven : given? code e = none)
    (hknown : ∃ t, ts'.get? code = some t ∧ t.status = lastGiven code first past)
    (hx : ∀ status, x = some status → (ops i).code = code → status = lastGiven code first past) :
    StatusKept queueEnabled ops code first (past ++ [(i, e)]) (Function.update held i x) ts' := by
  have hlast : lastGiven code first (past ++ [(i, e)]) = lastGiven code first past := by
    rw [lastGiven_snoc, hgiven, Option.getD_none]
  refine ⟨hlast ▸ hknown, fun j hj => ?_, fun j status hj hcode => ?_⟩
  · obtain ⟨status, hj⟩ := Option.ne_none_iff_exists'.1 hj
    rcases held_of_update hj with ⟨rfl, -⟩ | hj
    · exact ⟨e, List.mem_append_right _ (.head _)⟩
    · obtain ⟨e', he'⟩ := hs.begun j (by rw [hj]; exact nofun)
      exact ⟨e', List.mem_append_left _ he'⟩
  · rw [hlast]
    rcases held_of_update hj with ⟨rfl, hstatus⟩ | hj
    · exact .inl (hx status hstatus hcode)
    · refine (hs.current j status hj hcode).imp_right ?_
      rintro ⟨k, given, hmoves, hbefore⟩
      exact ⟨k, given, hmoves, hbefore.append _⟩

/-- A call that gives the record a status interrupts all recordings that are about to write. -/
theorem StatusKept.give (hs : StatusKept queueEnabled ops code first past held ts)
    {status : TaskStatus} (hmoves : (ops i).Moves queueEnabled code status)
    (hgiven : given? code e = some status)
    (hknown : ∃ t, ts'.get? code = some t ∧ t.status = status) :
    StatusKept queueEnabled ops code first (past ++ [(i, e)]) (Function.update held i none) ts' := by
  have hlast : lastGiven code first (past ++ [(i, e)]) = status := by
    rw [lastGiven_snoc, hgiven, Option.getD_some]
  have hbegun {j : ι} {st : TaskStatus} (hj : Function.update held i none j = some st) :
      ∃ e', (j, e') ∈ past := by
    rcases held_of_update hj with ⟨-, hnone⟩ | hj
    · cases hnone
    · exact hs.begun j (by rw [hj]; exact nofun)
  refine ⟨hlast.symm ▸ hknown, fun j hj => ?_, fun j st hj _ => .inr ?_⟩
  · obtain ⟨st, hj⟩ := Option.ne_none_iff_exists'.1 hj
    obtain ⟨e', he'⟩ := hbegun hj
    exact ⟨e', List.mem_append_left _ he'⟩
  · obtain ⟨e', he'⟩ := hbegun hj
    exact ⟨i, status, hmoves, before_snoc he' i e⟩

/-- Every call keeps what is known of the record, unless it is the write of a recording that was
interrupted. -/
theorem StatusKept.step (hs : StatusKept queueEnabled ops code first past held ts)
    (ht : TaskOp.Turn queueEnabled (ops i) (held i) ts e x ts')
    (hclean : ¬ Interrupted queueEnabled ops code (past ++ [(i, e)])) :
    StatusKept queueEnabled ops code first (past ++ [(i, e)]) (Function.update held i x) ts' := by
  obtain ⟨t, hget, hstatus⟩ := hs.known
  generalize hop : ops i = op at ht
  generalize hheld : held i = st at ht
  cases ht with
  | looked task =>
    refine hs.keep rfl hs.known fun status hx hcode => ?_
    rw [hop] at hcode
    cases hx
    have hcode : task.code = code := hcode
    rw [hcode, hget]
    exact hstatus
  | failed _ hfailed => exact hs.keep (given?_of_failed hfailed) hs.known nofun
  | stored task status _ isNew =>
    refine hs.keep rfl ?_ nofun
    rw [TaskRows.get?_put]
    by_cases hcode : task.code = code
    · refine ⟨task.inStatus status, if_pos hcode, ?_⟩
      rcases hs.current i status hheld (by rw [hop]; exact hcode) with heq | hinterrupted
      · exact heq
      · obtain ⟨j, given, hmoves, hbefore⟩ := hinterrupted
        exact absurd ⟨i, j, task, given, hop, hcode, hmoves, hbefore.crosses (.head _)⟩ hclean
    · exact ⟨t, (if_neg hcode).trans hget, hstatus⟩
  | @moved _ status _ known hmoves =>
    by_cases hcode : op.code = code
    · refine hs.give (?_ : (ops i).Moves queueEnabled code status) (if_pos hcode) ?_
      · rw [hop]
        exact TaskOp.moves_iff.2 ⟨hcode, hmoves⟩
      · rw [TaskRows.get?_setStatus, if_pos hcode, hget]
        exact ⟨_, rfl, rfl⟩
    · refine hs.keep (if_neg hcode) ?_ nofun
      rw [TaskRows.get?_setStatus, if_neg hcode]
      exact hs.known

omit [DecidableEq ι] in
theorem Interrupted.append (ho : Interrupted queueEnabled ops code h) (t : List (ι × QueueEvent)) :
    Interrupted queueEnabled ops code (h ++ t) := by
  obtain ⟨i, j, task, status, hop, hcode, hmoves, hcrosses⟩ := ho
  exact ⟨i, j, task, status, hop, hcode, hmoves, hcrosses.append t⟩

/-- A record has the status that it was given last, unless an operation interrupts a recording. -/
theorem status_eq_lastGiven {known : QueuedTask} (hknown : l.tasks.get? code = some known)
    (hi : Interleaves QueueLedger.serves (fun i => (ops i).program queueEnabled) l h qs l')
    (hclean : ¬ Interrupted queueEnabled ops code h) :
    ∃ t, l'.tasks.get? code = some t ∧ t.status = lastGiven code known.status h := by
  have hstart : StatusKept queueEnabled ops code known.status [] (fun _ => none) l.tasks :=
    ⟨⟨known, hknown, rfl⟩, fun _ hi => absurd rfl hi, fun _ _ => nofun⟩
  obtain ⟨held, hs⟩ := TaskOp.turns_induction hi (fun i => .fresh (ops i)) hstart <| by
    intro before after i e held x ts ts' hsplit hturn hs
    refine hs.step hturn fun hinterrupted => hclean ?_
    rw [List.nil_append, List.append_cons] at hsplit
    rw [hsplit]
    exact hinterrupted.append after
  exact hs.known

end Kept

/-! ## Statuses that are lost -/

section Losing

variable {ι : Type} [DecidableEq ι] {queueEnabled : Bool} {ops : ι → TaskOp} {code : Int}
  {first status : TaskStatus} {h past : List (ι × QueueEvent)} {l l' : QueueLedger}
  {ps qs : (i : ι) → QueueProgram (ops i).Result} {known : QueuedTask} {task : DatedTask} {i j : ι}

/-- Operations can take turns so that the record of the code ends up in another status than the one
it was given last. -/
def Loses (queueEnabled : Bool) (ops : ι → TaskOp) (code : Int) (l : QueueLedger)
    (first : TaskStatus) : Prop :=
  ∃ (h : List (ι × QueueEvent)) (qs : (i : ι) → QueueProgram (ops i).Result)
    (results : (i : ι) → (ops i).Result) (l' : QueueLedger) (t : QueuedTask),
    Interleaves QueueLedger.servesUnlocked (fun i => (ops i).program queueEnabled) l h qs l' ∧
      Finished qs results ∧ l'.tasks.get? code = some t ∧ t.status ≠ lastGiven code first h

/-- The first status or one that an operation gives. -/
def Sourced (queueEnabled : Bool) (ops : ι → TaskOp) (code : Int) (first status : TaskStatus) :
    Prop :=
  status = first ∨ ∃ i, (ops i).Moves queueEnabled code status

/-- All statuses on the way of a record come from somewhere. -/
structure Grounds (queueEnabled : Bool) (ops : ι → TaskOp) (code : Int) (first : TaskStatus)
    (past : List (ι × QueueEvent)) (held : ι → Option TaskStatus) (ts : TaskRows) : Prop where
  known : ∃ t, ts.get? code = some t ∧ Sourced queueEnabled ops code first t.status
  held : ∀ i status, held i = some status → (ops i).code = code →
    Sourced queueEnabled ops code first status
  last : Sourced queueEnabled ops code first (lastGiven code first past)

theorem TaskOp.Turn.moves_of_given? {op : TaskOp} {held x : Option TaskStatus} {ts ts' : TaskRows}
    {e : QueueEvent} (ht : TaskOp.Turn queueEnabled op held ts e x ts')
    (hgiven : given? code e = some status) : op.Moves queueEnabled code status := by
  cases ht with
  | looked task => cases hgiven
  | stored task status _ isNew => cases hgiven
  | failed _ hfailed =>
    rw [given?_of_failed hfailed] at hgiven
    cases hgiven
  | moved _ known hmoves =>
    simp only [given?] at hgiven
    split at hgiven
    · next hcode =>
      cases hgiven
      exact TaskOp.moves_iff.2 ⟨hcode, hmoves⟩
    · cases hgiven

theorem Grounds.step {held : ι → Option TaskStatus} {ts ts' : TaskRows} {e : QueueEvent}
    {x : Option TaskStatus} (hg : Grounds queueEnabled ops code first past held ts)
    (ht : TaskOp.Turn queueEnabled (ops i) (held i) ts e x ts') :
    Grounds queueEnabled ops code first (past ++ [(i, e)]) (Function.update held i x) ts' := by
  obtain ⟨t, hget, hstatus⟩ := hg.known
  have hlast : Sourced queueEnabled ops code first (lastGiven code first (past ++ [(i, e)])) := by
    rw [lastGiven_snoc]
    cases hgiven : given? code e with
    | none => exact hg.last
    | some status => exact .inr ⟨i, ht.moves_of_given? hgiven⟩
  have hheld (hx : ∀ status, x = some status → (ops i).code = code →
      Sourced queueEnabled ops code first status) (j : ι) (status : TaskStatus)
      (hj : Function.update held i x j = some status) (hcode : (ops j).code = code) :
      Sourced queueEnabled ops code first status := by
    rcases held_of_update hj with ⟨rfl, hstatus⟩ | hj
    · exact hx status hstatus hcode
    · exact hg.held j status hj hcode
  generalize hop : ops i = op at ht
  generalize hst : held i = st at ht
  cases ht with
  | looked task =>
    refine ⟨hg.known, hheld fun status hx hcode => ?_, hlast⟩
    rw [hop] at hcode
    cases hx
    have hcode : task.code = code := hcode
    rw [hcode, hget]
    exact hstatus
  | failed => exact ⟨hg.known, hheld nofun, hlast⟩
  | stored task status _ isNew =>
    refine ⟨?_, hheld nofun, hlast⟩
    rw [TaskRows.get?_put]
    by_cases hcode : task.code = code
    · exact ⟨_, if_pos hcode, hg.held i status hst (by rw [hop]; exact hcode)⟩
    · exact ⟨t, (if_neg hcode).trans hget, hstatus⟩
  | @moved _ status _ known hmoves =>
    refine ⟨?_, hheld nofun, hlast⟩
    rw [TaskRows.get?_setStatus]
    by_cases hcode : op.code = code
    · rw [if_pos hcode, hget]
      refine ⟨_, rfl, .inr ⟨i, ?_⟩⟩
      rw [hop]
      exact TaskOp.moves_iff.2 ⟨hcode, hmoves⟩
    · exact ⟨t, (if_neg hcode).trans hget, hstatus⟩

/-- Some of the operations run to their ends, one after another. -/
theorem exists_interleaves_all (is : List ι) (hnodup : is.Nodup)
    (hps : ∀ k ∈ is, ps k = (ops k).program queueEnabled) (l : QueueLedger) :
    ∃ h qs l', Interleaves QueueLedger.servesUnlocked ps l h qs l' ∧
      (∀ k ∈ is, ∃ r, qs k = .done r) ∧ ∀ k ∉ is, qs k = ps k := by
  induction is generalizing ps l with
  | nil => exact ⟨[], ps, l, .nil ps l, nofun, fun _ _ => rfl⟩
  | cons i is ih =>
    obtain ⟨hnotin, hnodup⟩ := List.nodup_cons.1 hnodup
    obtain ⟨r, ts', heffect⟩ := TaskOp.exists_effect queueEnabled (ops i) l.tasks
    obtain ⟨h₁, hrun⟩ := heffect.exists_runs
    have hfirst := Runs.among ps i (hps i (.head _) ▸ hrun)
    have hothers : ∀ k ∈ is,
        Function.update ps i (.done r) k = (ops k).program queueEnabled := by
      intro k hk
      rw [Function.update_of_ne (ne_of_mem_of_not_mem hk hnotin)]
      exact hps k (.tail _ hk)
    obtain ⟨h₂, qs, l', hrest, hdone, hkept⟩ := ih hnodup hothers { l with tasks := ts' }
    refine ⟨_, qs, l', hfirst.append hrest, ?_, fun k hk => ?_⟩
    · rintro k (_ | ⟨_, hk⟩)
      · exact ⟨r, by rw [hkept i hnotin, Function.update_self]⟩
      · exact hdone k hk
    · rw [List.mem_cons, not_or] at hk
      rw [hkept k hk.2, Function.update_of_ne hk.1]

/-- All operations but two run to their ends. -/
theorem exists_interleaves_others [Finite ι] (i j : ι)
    (hps : ∀ k, k ≠ i → k ≠ j → ps k = (ops k).program queueEnabled) (l : QueueLedger) :
    ∃ h qs l', Interleaves QueueLedger.servesUnlocked ps l h qs l' ∧
      (∀ k, k ≠ i → k ≠ j → ∃ r, qs k = .done r) ∧ qs i = ps i ∧ qs j = ps j := by
  cases nonempty_fintype ι
  have hmem (k : ι) : k ∈ ((Finset.univ.erase i).erase j).toList ↔ k ≠ j ∧ k ≠ i := by simp
  obtain ⟨h, qs, l', hi, hdone, hkept⟩ := exists_interleaves_all _ (Finset.nodup_toList _)
    (fun k hk => hps k ((hmem k).1 hk).2 ((hmem k).1 hk).1) l
  exact ⟨h, qs, l', hi, fun k hki hkj => hdone k ((hmem k).2 ⟨hkj, hki⟩),
    hkept i fun hin => ((hmem i).1 hin).2 rfl, hkept j fun hin => ((hmem j).1 hin).1 rfl⟩

/-- A recording reads the record, another operation gives it a new status, and the recording writes
the old one back. -/
theorem loses_of_moves [Finite ι] (hknown : l.tasks.get? code = some known)
    (hop : ops i = .record task) (hcode : task.code = code)
    (hmoves : (ops j).Moves queueEnabled code status) (hne : status ≠ known.status) :
    Loses queueEnabled ops code l known.status := by
  subst hcode
  obtain ⟨hj, hmoves⟩ := TaskOp.moves_iff.1 hmoves
  have hij : i ≠ j := by
    rintro rfl
    rw [hop] at hmoves
    cases hmoves
  obtain ⟨look, hlook, hstore⟩ := @TaskOp.program_of_record queueEnabled _ _ hop
  obtain ⟨store, hstore, hstored⟩ := hstore known
  obtain ⟨move, hmove, hmoved⟩ := TaskOp.program_of_moves? hmoves
  have hlooks := (Interleaves.nil (fun k => (ops k).program queueEnabled) l).snoc hlook
    (serves_findTask_iff.2 ⟨congrArg Except.ok hknown.symm, rfl⟩)
  obtain ⟨h, qs, l₁, hothers, hdone, hqsi, hqsj⟩ := exists_interleaves_others i j
    (fun k hki _ => Function.update_of_ne hki (look (.ok known)) fun k => (ops k).program _) l
  rw [Function.update_self, hstore] at hqsi
  rw [Function.update_of_ne hij.symm, hmove] at hqsj
  have hmoves := (hlooks.append hothers).snoc hqsj (serves_setStatus_iff.2 ⟨rfl, rfl⟩)
  have hstores := hmoves.snoc ((Function.update_of_ne hij ..).trans hqsi)
    (serves_upsertTask_iff.2 ⟨rfl, rfl⟩)
  have hfinished (x y) (k : ι) :
      ∃ r, Function.update (Function.update qs j (move x)) i (store y) k = .done r := by
    by_cases hki : k = i
    · subst hki
      rw [Function.update_self]
      exact hstored _
    · rw [Function.update_of_ne hki]
      by_cases hkj : k = j
      · subst hkj
        rw [Function.update_self]
        exact hmoved _
      · rw [Function.update_of_ne hkj]
        exact hdone k hki hkj
  choose results hresults using hfinished
  refine ⟨_, _, results _ _, _, task.inStatus known.status, hstores, hresults _ _, ?_, ?_⟩
  · exact (TaskRows.get?_put ..).trans (if_pos rfl)
  · have hgiven (x) : given? task.code ⟨.setStatus (ops j).code status (ops j).now, .ok x⟩ = some status :=
      if_pos hj
    rw [lastGiven_snoc, lastGiven_snoc, hgiven]
    exact hne.symm

theorem exists_sourced (hknown : l.tasks.get? code = some known)
    (hi : Interleaves QueueLedger.serves (fun i => (ops i).program queueEnabled) l h qs l') :
    Sourced queueEnabled ops code known.status (lastGiven code known.status h) ∧
      ∃ t, l'.tasks.get? code = some t ∧ Sourced queueEnabled ops code known.status t.status := by
  have hstart : Grounds queueEnabled ops code known.status [] (fun _ => none) l.tasks :=
    ⟨⟨known, hknown, .inl rfl⟩, fun _ _ => nofun, .inl rfl⟩
  obtain ⟨held, hg⟩ := TaskOp.turns_induction hi (fun i => .fresh (ops i)) hstart <| by
    intro before after i e held x ts ts' _ hturn hg
    exact hg.step hturn
  exact ⟨hg.last, hg.known⟩

omit [DecidableEq ι] in
theorem Interrupted.exists_record (ho : Interrupted queueEnabled ops code h) :
    ∃ i task, ops i = .record task ∧ task.code = code := by
  obtain ⟨i, j, task, status, hop, hcode, -, -⟩ := ho
  exact ⟨i, task, hop, hcode⟩

/-- A status can be lost if and only if the code is recorded and given a status that is new. -/
theorem loses_iff [Finite ι] (hknown : l.tasks.get? code = some known) :
    Loses queueEnabled ops code l known.status ↔
      (∃ i task, ops i = .record task ∧ task.code = code) ∧
        ∃ j status, (ops j).Moves queueEnabled code status ∧ status ≠ known.status := by
  constructor
  · rintro ⟨h, qs, results, l', t, hi, -, hget, hlost⟩
    have hi := hi.mono fun c l x l' hs => hs.1
    constructor
    · have ho : Interrupted queueEnabled ops code h := by
        by_contra hclean
        obtain ⟨t', hget', hlast⟩ := status_eq_lastGiven hknown hi hclean
        cases hget.symm.trans hget'
        exact hlost hlast
      exact ho.exists_record
    · by_contra hold
      have hfirst {status : TaskStatus} (hs : Sourced queueEnabled ops code known.status status) :
          status = known.status := by
        rcases hs with rfl | ⟨j, hmoves⟩
        · rfl
        · by_contra hne
          exact hold ⟨j, status, hmoves, hne⟩
      obtain ⟨hlast, t', hget', hstatus⟩ := exists_sourced hknown hi
      cases hget.symm.trans hget'
      exact hlost ((hfirst hstatus).trans (hfirst hlast).symm)
  · rintro ⟨⟨i, task, hop, hcode⟩, j, status, hmoves, hne⟩
    exact loses_of_moves hknown hop hcode hmoves hne

/-- What becomes of the status of a record while operations on it take turns. -/
structure RerecordingSpec (queueEnabled : Bool) (ops : ι → TaskOp) (code : Int) (l : QueueLedger)
    (first : TaskStatus) : Prop where
  /-- Unless a recording is interrupted, the status is the one given last. -/
  kept : ∀ h qs results l',
    Interleaves QueueLedger.serves (fun i => (ops i).program queueEnabled) l h qs l' →
    Finished qs results → ¬ Interrupted queueEnabled ops code h →
    ∃ t, l'.tasks.get? code = some t ∧ t.status = lastGiven code first h
  /-- In any case the record stays, and its status is the first one or one that was given. -/
  sourced : ∀ h qs results l',
    Interleaves QueueLedger.serves (fun i => (ops i).program queueEnabled) l h qs l' →
    Finished qs results →
    ∃ t, l'.tasks.get? code = some t ∧ Sourced queueEnabled ops code first t.status
  /-- A recording and a new status suffice for some order of turns to lose a status. -/
  loses_iff : Loses queueEnabled ops code l first ↔
    (∃ i task, ops i = .record task ∧ task.code = code) ∧
      ∃ j status, (ops j).Moves queueEnabled code status ∧ status ≠ first

theorem rerecording_spec [Finite ι] (queueEnabled : Bool) (ops : ι → TaskOp)
    (hknown : l.tasks.get? code = some known) :
    RerecordingSpec queueEnabled ops code l known.status where
  kept := fun _ _ _ _ hi _ hclean => status_eq_lastGiven hknown hi hclean
  sourced := fun _ _ _ _ hi _ => (exists_sourced hknown hi).2
  loses_iff := loses_iff hknown

end Losing

/-! ## A task that starts to run while it is recorded again -/

def QueueLedger.queuedEtl : QueueLedger :=
  { QueueLedger.empty with tasks := [⟨.etl, .queued, ⟨0⟩⟩] }

def TaskOp.etl : Bool → TaskOp
  | true => .record ⟨.etl, ⟨2⟩⟩
  | false => .signal .running 7 .container ⟨1⟩

theorem QueueLedger.get?_queuedEtl : queuedEtl.tasks.get? 7 = some ⟨.etl, .queued, ⟨0⟩⟩ :=
  rfl

theorem rerecording_of_etl : RerecordingSpec true TaskOp.etl 7 .queuedEtl .queued :=
  rerecording_spec true TaskOp.etl QueueLedger.get?_queuedEtl

/-- The signal comes between the two calls of the recording, which undoes it. -/
theorem loses_etl : (TaskOp.etl false).Moves true 7 .running ∧
    Loses true TaskOp.etl 7 .queuedEtl .queued := by
  have hmoves : (TaskOp.etl false).Moves true 7 .running := .started 7 _ rfl (.inl rfl)
  have hrecord : TaskOp.etl true = .record ⟨.etl, ⟨2⟩⟩ := rfl
  exact ⟨hmoves, loses_of_moves QueueLedger.get?_queuedEtl hrecord rfl hmoves nofun⟩

end ClusterJobs
