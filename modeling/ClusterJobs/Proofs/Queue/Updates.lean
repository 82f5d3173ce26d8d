import ClusterJobs.Proofs.Queue.Sessions

/-!
# Updates of queues

An update compares what it gives with the row that it reads. What differs is written, and the
cluster is told if it has to know. The row that comes of it differs from the update nowhere, so the
same update does nothing more: its amounts were checked, and a checked amount equals itself.
-/

namespace ClusterJobs

open Program QueueManager

/-! ## What an update alters -/

namespace QueueUpdate

/-- The update gives a member that the queue on the cluster has, and it is not the present one. -/
inductive AltersQueue (u : QueueUpdate) (row : QueueRow) : Prop where
  | weight {w : Nat} : u.weight = some w → w ≠ row.weight → AltersQueue u row
  | reclaimable {b : Bool} : u.reclaimable = some b → b ≠ row.reclaimable → AltersQueue u row
  | capability {c : Capability} : u.capability = some c → (c == row.capability) = false →
      AltersQueue u row

/-- The update gives a member that is not the present one. -/
inductive AltersRow (u : QueueUpdate) (row : QueueRow) : Prop where
  | queue : u.AltersQueue row → AltersRow u row
  | description {d : String} : u.description = some d → row.description ≠ some d →
      AltersRow u row

end QueueUpdate

namespace Changeset

variable {u : QueueUpdate} {row : QueueRow}

theorem differs_iff {α : Type} [BEq α] {given : Option α} {present : α} :
    differs given present = true ↔ ∃ a, given = some a ∧ (a == present) = false := by
  cases given <;> simp [differs]

theorem affectsCluster_iff : (between row u).affectsCluster = true ↔ u.AltersQueue row := by
  simp only [affectsCluster, between, Bool.or_eq_true, differs_iff]
  constructor
  · rintro ((⟨w, hu, hne⟩ | ⟨b, hu, hne⟩) | ⟨c, hu, hne⟩)
    · exact .weight hu (by simpa using hne)
    · exact .reclaimable hu (by simpa using hne)
    · exact .capability hu hne
  · rintro (⟨hu, hne⟩ | ⟨hu, hne⟩ | ⟨hu, hne⟩)
    · exact .inl (.inl ⟨_, hu, by simpa using hne⟩)
    · exact .inl (.inr ⟨_, hu, by simpa using hne⟩)
    · exact .inr ⟨_, hu, hne⟩

theorem isEmpty_iff : (between row u).isEmpty = true ↔ ¬ u.AltersRow row := by
  have hrow : u.AltersRow row ↔ (between row u).description = true ∨ u.AltersQueue row := by
    constructor
    · rintro (hqueue | ⟨hu, hne⟩)
      · exact .inr hqueue
      · exact .inl (by simpa [between, hu] using hne)
    · rintro (hdescription | hqueue)
      · cases hu : u.description with
        | none => simp [between, hu] at hdescription
        | some d => exact .description hu (by simpa [between, hu] using hdescription)
      · exact .queue hqueue
  rw [hrow, ← affectsCluster_iff]
  simp [isEmpty]

end Changeset

/-! ## What comes of a row -/

/-- A row is another one with exactly the given members replaced. Amounts are compared as floats. -/
structure QueueRow.Revises (new old : QueueRow) (u : QueueUpdate) : Prop where
  /-- Nothing but these members may change. The id, the name, the project, the cluster, the state and
  the time of the creation are those of the old row. -/
  kept : new = { old with
    description := new.description
    weight := new.weight
    reclaimable := new.reclaimable
    capability := new.capability
    updatedAt := new.updatedAt }
  description : new.description = u.description.or old.description
  weight : new.weight = u.weight.getD old.weight
  reclaimable : new.reclaimable = u.reclaimable.getD old.reclaimable
  capability : u.capability.getD old.capability == new.capability

section Revises

variable {u : QueueUpdate} {row : QueueRow}

theorem QueueRow.revises_update (now : Instant) (hrow : row.capability.check = .ok ())
    (hcheck : checkUpdate row u = .ok ()) : (row.update u now).Revises row u :=
  ⟨rfl, rfl, rfl, rfl, Capability.beq_self_of_check (check_of_checkUpdate now hcheck hrow)⟩

/-- A row that an update does not alter is what the update asks for. -/
theorem QueueRow.revises_self (hrow : row.capability.check = .ok ()) (h : ¬ u.AltersRow row) :
    row.Revises row u := by
  have hqueue : ¬ u.AltersQueue row := fun hq => h (.queue hq)
  refine ⟨rfl, ?_, ?_, ?_, ?_⟩
  · cases hu : u.description with
    | none => rfl
    | some d => simpa using fun hne => h (.description hu hne)
  · cases hu : u.weight with
    | none => rfl
    | some w => simpa using fun hne => hqueue (.weight hu (Ne.symm hne))
  · cases hu : u.reclaimable with
    | none => rfl
    | some b => simpa using fun hne => hqueue (.reclaimable hu (Ne.symm hne))
  · cases hu : u.capability with
    | none => exact Capability.beq_self_of_check hrow
    | some c => simpa using fun hne => hqueue (.capability hu hne)

/-- An update alters nothing in the row that comes of it. -/
theorem QueueUpdate.not_altersRow_update (now : Instant) (hcheck : checkUpdate row u = .ok ()) :
    ¬ u.AltersRow (row.update u now) := by
  rintro (hqueue | ⟨hu, hne⟩)
  · cases hqueue with
    | weight hu hne => exact hne (by simp [QueueRow.update, hu])
    | reclaimable hu hne => exact hne (by simp [QueueRow.update, hu])
    | capability hu hne =>
      have hself := Capability.beq_self_of_check (check_of_given hcheck hu)
      simp [QueueRow.update, hu, hself] at hne
  · exact hne (by simp [QueueRow.update, hu])

end Revises

/-! ## Runs -/

namespace QueueStage

variable {s : QueueSettings} {row new : QueueRow} {l l' : QueueLedger} {h : List QueueEvent}

theorem written_of_runs (hr : Runs QueueLedger.serves (write row) l h (.ok new) l') :
    new = row ∧ ∃ rows, l.rows.update row = .ok rows ∧ h = [⟨.updateRow row, .ok ()⟩] ∧
      l' = { l with rows := rows } := by
  obtain ⟨x, l₁, h₁, hs, hrest, rfl⟩ := runs_ask_iff.1 hr
  simp only [QueueLedger.serves] at hs
  cases hupd : l.rows.update row with
  | error e =>
    rw [hupd] at hs
    obtain ⟨rfl, rfl⟩ := hs
    cases (runs_done_iff.1 hrest).2.1
  | ok rows =>
    rw [hupd] at hs
    obtain ⟨rfl, rfl⟩ := hs
    obtain ⟨rfl, hnew, rfl⟩ := runs_done_iff.1 hrest
    exact ⟨Except.ok.inj hnew, rows, rfl, rfl, rfl⟩

/-- A row is written only after its queue was applied. -/
theorem applied_of_runs
    (hr : Runs QueueLedger.serves ((row.applyTo s).bind (writeAfter row)) l h (.ok new) l') :
    ∃ h', h = ⟨.apply row.cluster (row.manifest s), .ok ()⟩ :: h' ∧
      Runs QueueLedger.serves (write row) (l.apply row.cluster (row.manifest s)) h' (.ok new)
        l' := by
  obtain ⟨x, l₁, h₁, hs, hrest, rfl⟩ := runs_ask_iff.1 hr
  cases x with
  | error e => cases (runs_done_iff.1 hrest).2.1
  | ok a =>
    obtain ⟨-, rfl⟩ := hs
    exact ⟨h₁, rfl, hrest⟩

end QueueStage

section Runs

variable {s : QueueSettings} {id : Int} {u : QueueUpdate} {now : Instant} {l l' : QueueLedger}
  {old new : QueueRow} {h : List QueueEvent}

/-- What is left of an update once it has read its row. -/
theorem runs_update_iff {r : Except QueueFault QueueRow} (hget : l.rows.get? id = some old) :
    Runs QueueLedger.serves (update s id u now) l h r l' ↔
      ∃ h', h = ⟨.getRow id, .ok (some old)⟩ :: h' ∧
        Runs QueueLedger.serves (QueueStage.change s ⟨u, now⟩ old) l h' r l' := by
  constructor
  · intro hr
    obtain ⟨x, l₁, h₁, ⟨rfl, rfl⟩, hrest, rfl⟩ := runs_ask_iff.1 hr
    rw [hget] at hrest
    exact ⟨h₁, by rw [hget], hrest⟩
  · rintro ⟨h', rfl, hr⟩
    exact .ask ⟨by rw [hget], rfl⟩ hr

/-- An update that succeeds has found its row. -/
theorem get?_of_runs_update (hr : Runs QueueLedger.serves (update s id u now) l h (.ok new) l') :
    ∃ old, l.rows.get? id = some old := by
  obtain ⟨x, l₁, h₁, ⟨rfl, rfl⟩, hrest, rfl⟩ := runs_ask_iff.1 hr
  cases hget : l₁.rows.get? id with
  | none =>
    rw [hget] at hrest
    cases (runs_done_iff.1 hrest).2.1
  | some old => exact ⟨old, rfl⟩

/-- The row is written if it alters, after the cluster was told if it has to know. -/
inductive RowUpdate (s : QueueSettings) (u : QueueUpdate) (now : Instant) (l : QueueLedger)
    (old : QueueRow) : List QueueEvent → QueueRow → QueueLedger → Prop where
  | idle : ¬ u.AltersRow old → RowUpdate s u now l old [] old l
  | written {rows : QueueRows} : u.AltersRow old → (u.AltersQueue old → old.isLocal s = true) →
      l.rows.update (old.update u now) = .ok rows →
      RowUpdate s u now l old [⟨.updateRow (old.update u now), .ok ()⟩] (old.update u now)
        { l with rows := rows }
  | applied {rows : QueueRows} : u.AltersQueue old → old.isLocal s = false →
      l.rows.update (old.update u now) = .ok rows →
      RowUpdate s u now l old
        [⟨.apply old.cluster ((old.update u now).manifest s), .ok ()⟩,
          ⟨.updateRow (old.update u now), .ok ()⟩]
        (old.update u now) { l.apply old.cluster ((old.update u now).manifest s) with rows := rows }

/-- What a change of a row does that succeeds. -/
theorem rowUpdate_of_runs
    (hr : Runs QueueLedger.serves (QueueStage.change s ⟨u, now⟩ old) l h (.ok new) l') :
    checkUpdate old u = .ok () ∧ RowUpdate s u now l old h new l' := by
  unfold QueueStage.change at hr
  cases hcheck : checkUpdate old u with
  | error e =>
    rw [hcheck] at hr
    cases (runs_done_iff.1 hr).2.1
  | ok a =>
    rw [hcheck] at hr
    refine ⟨rfl, ?_⟩
    by_cases hempty : (Changeset.between old u).isEmpty = true
    · simp only [if_pos hempty] at hr
      obtain ⟨rfl, hnew, rfl⟩ := runs_done_iff.1 hr
      cases hnew
      exact .idle (Changeset.isEmpty_iff.1 hempty)
    · simp only [if_neg hempty] at hr
      have halters : u.AltersRow old := not_not.1 (mt Changeset.isEmpty_iff.2 hempty)
      by_cases hquiet : (Changeset.between old u).affectsCluster = true → old.isLocal s = true
      · rw [QueueStage.writeChanged_of_quiet (old.revise ⟨u, now⟩) hquiet] at hr
        obtain ⟨rfl, rows, hupd, rfl, rfl⟩ := QueueStage.written_of_runs hr
        exact .written halters (fun hq => hquiet (Changeset.affectsCluster_iff.2 hq)) hupd
      · obtain ⟨haffects, hlocal⟩ := Classical.not_imp.1 hquiet
        have remote : old.isLocal s = false := by simpa using hlocal
        rw [QueueStage.writeChanged_of_remote (old.revise ⟨u, now⟩) haffects remote] at hr
        obtain ⟨h', rfl, hwrite⟩ := QueueStage.applied_of_runs hr
        obtain ⟨rfl, rows, hupd, rfl, rfl⟩ := QueueStage.written_of_runs hwrite
        exact .applied (Changeset.affectsCluster_iff.1 haffects) remote hupd

/-- An update that alters nothing only reads its row. -/
theorem runs_update_idle_iff {r : Except QueueFault QueueRow} (hget : l.rows.get? id = some old)
    (hcheck : checkUpdate old u = .ok ()) (hidle : ¬ u.AltersRow old) :
    Runs QueueLedger.serves (update s id u now) l h r l' ↔
      h = [⟨.getRow id, .ok (some old)⟩] ∧ r = .ok old ∧ l' = l := by
  have hchange : QueueStage.change s ⟨u, now⟩ old = .done (.ok old) := by
    simp only [QueueStage.change, hcheck, if_pos (Changeset.isEmpty_iff.2 hidle)]
  rw [runs_update_iff hget, hchange]
  simp only [runs_done_iff]
  constructor
  · rintro ⟨h', rfl, rfl, rfl, rfl⟩
    exact ⟨rfl, rfl, rfl⟩
  · rintro ⟨rfl, rfl, rfl⟩
    exact ⟨[], rfl, rfl, rfl, rfl⟩

end Runs

/-! ## What a change leaves behind -/

/-- The call writes a row. -/
def QueueCall.writesRow : QueueCall → Bool
  | insertRow _ | updateRow _ | deleteRow _ => true
  | _ => false

section RowUpdate

variable {s : QueueSettings} {u : QueueUpdate} {now : Instant} {l l' : QueueLedger}
  {old new : QueueRow} {h : List QueueEvent}

theorem RowUpdate.applies (hc : RowUpdate s u now l old h new l') (hqueue : u.AltersQueue old)
    (hremote : old.cluster ≠ s.localCluster) : h.filter (fun e => e.call.reachesCluster) =
      [⟨.apply old.cluster (new.manifest s), .ok ()⟩] := by
  cases hc with
  | idle hidle => exact absurd (.queue hqueue) hidle
  | written _ hquiet _ =>
    have remote := isLocal_eq_false_iff.2 hremote
    rw [hquiet hqueue] at remote
    cases remote
  | applied => rfl

theorem RowUpdate.spares (hc : RowUpdate s u now l old h new l')
    (hspared : ¬ u.AltersQueue old ∨ old.cluster = s.localCluster) :
    h.filter (fun e => e.call.reachesCluster) = [] := by
  cases hc with
  | idle => rfl
  | written => rfl
  | applied hqueue remote _ =>
    rcases hspared with hnot | hlocal
    · exact absurd hqueue hnot
    · exact absurd hlocal (isLocal_eq_false_iff.1 remote)

theorem RowUpdate.writes (hc : RowUpdate s u now l old h new l') (halters : u.AltersRow old) :
    h.filter (fun e => e.call.writesRow) = [⟨.updateRow new, .ok ()⟩] := by
  cases hc with
  | idle hidle => exact absurd halters hidle
  | _ => rfl

theorem RowUpdate.idles (hc : RowUpdate s u now l old h new l') (hidle : ¬ u.AltersRow old) :
    h.filter (fun e => e.call.writesRow) = [] ∧ new = old ∧ l' = l := by
  cases hc with
  | idle => exact ⟨rfl, rfl, rfl⟩
  | written halters _ _ => exact absurd halters hidle
  | applied hqueue _ _ => exact absurd (.queue hqueue) hidle

theorem RowUpdate.dated (hc : RowUpdate s u now l old h new l') (halters : u.AltersRow old) :
    new.updatedAt = now := by
  cases hc with
  | idle hidle => exact absurd halters hidle
  | _ => rfl

theorem RowUpdate.get?_self (hc : RowUpdate s u now l old h new l')
    (hget : l.rows.get? old.id = some old) : l'.rows.get? old.id = some new := by
  cases hc with
  | idle => exact hget
  | written _ _ hupd => exact (QueueRows.get?_update hupd old.id).trans (if_pos rfl)
  | applied _ _ hupd => exact (QueueRows.get?_update hupd old.id).trans (if_pos rfl)

theorem RowUpdate.get?_of_ne (hc : RowUpdate s u now l old h new l') {id : Int} (hne : id ≠ old.id) :
    l'.rows.get? id = l.rows.get? id := by
  cases hc with
  | idle => rfl
  | written _ _ hupd => exact (QueueRows.get?_update hupd id).trans (if_neg hne.symm)
  | applied _ _ hupd => exact (QueueRows.get?_update hupd id).trans (if_neg hne.symm)

theorem RowUpdate.held_of_ne (hc : RowUpdate s u now l old h new l') {k : String × String}
    (hne : k ≠ old.key) : l'.held k = l.held k := by
  cases hc with
  | applied => exact Function.update_of_ne hne _ _
  | _ => rfl

theorem RowUpdate.kept (hc : RowUpdate s u now l old h new l') :
    l'.rows.nextId = l.rows.nextId ∧ l'.tasks = l.tasks ∧ l'.reserved = l.reserved := by
  cases hc with
  | idle => exact ⟨rfl, rfl, rfl⟩
  | written _ _ hupd | applied _ _ hupd =>
    obtain ⟨-, rfl⟩ := QueueRows.update_eq_ok_iff.1 hupd
    exact ⟨rfl, rfl, rfl⟩

theorem RowUpdate.revises (hc : RowUpdate s u now l old h new l') (hold : old.capability.check = .ok ())
    (hcheck : checkUpdate old u = .ok ()) : new.Revises old u := by
  cases hc with
  | idle hidle => exact QueueRow.revises_self hold hidle
  | _ => exact QueueRow.revises_update now hold hcheck

/-- The same update alters nothing afterwards, and it is still allowed. -/
theorem RowUpdate.settles (hc : RowUpdate s u now l old h new l')
    (hcheck : checkUpdate old u = .ok ()) : ¬ u.AltersRow new ∧ checkUpdate new u = .ok () := by
  cases hc with
  | idle hidle => exact ⟨hidle, hcheck⟩
  | _ => exact ⟨QueueUpdate.not_altersRow_update now hcheck, hcheck⟩

end RowUpdate

/-! ## Reachable rows -/

/-- Rows that operations leave behind, however they take turns and wherever each has come to. -/
def QueueRows.Reachable (s : QueueSettings) (rows : QueueRows) : Prop :=
  ∃ (ι : Type) (_ : DecidableEq ι) (ops : ι → QueueOp)
    (qs : (i : ι) → QueueProgram (ops i).Result) (h : List (ι × QueueEvent)) (l : QueueLedger),
    Interleaves QueueLedger.serves (fun i => (ops i).program s) .empty h qs l ∧ l.rows = rows

theorem QueueRows.Reachable.proper {s : QueueSettings} {rows : QueueRows} (hr : rows.Reachable s) :
    ∀ r ∈ rows.rows, r.Proper := by
  obtain ⟨ι, _, ops, qs, h, l, hi, rfl⟩ := hr
  obtain ⟨st', -, ht⟩ := QueueTurns.of_interleaves hi fun i => QueueStage.at_begin (ops i)
  have ho := Orderly.begin (s := s) (l := .empty) ops QueueRows.sound_empty rfl
  have hempty : ∀ r ∈ QueueLedger.empty.rows.rows, r.Proper := by
    intro r hr
    cases hr
  exact (ht.proper ho (fun i _ hd => proper_begin (ops i) hd) hempty List.nodup_nil).1

/-! ## Updates that succeed -/

/-- What an update of a row does that succeeds. -/
structure UpdateSpec (s : QueueSettings) (id : Int) (u : QueueUpdate) (now : Instant)
    (l : QueueLedger) (old : QueueRow) (h : List QueueEvent) (new : QueueRow) (l' : QueueLedger) :
    Prop where
  found : l.rows.get? id = some old
  /-- The row that is given back is the stored one. -/
  stored : l'.rows.get? id = some new
  revised : new.Revises old u
  dated : u.AltersRow old → new.updatedAt = now
  /-- The cluster gets the new queue if it has to know, and nothing is asked of it otherwise. -/
  applies : u.AltersQueue old → old.cluster ≠ s.localCluster →
    h.filter (fun e => e.call.reachesCluster) =
      [⟨.apply old.cluster (new.manifest s), .ok ()⟩]
  spares : ¬ u.AltersQueue old ∨ old.cluster = s.localCluster →
    h.filter (fun e => e.call.reachesCluster) = []
  writes : u.AltersRow old →
    h.filter (fun e => e.call.writesRow) = [⟨.updateRow new, .ok ()⟩]
  idles : ¬ u.AltersRow old →
    h.filter (fun e => e.call.writesRow) = [] ∧ new = old ∧ l' = l
  /-- No other row changes, and no other queue on a cluster. -/
  others : ∀ other, other ≠ id → l'.rows.get? other = l.rows.get? other
  elsewhere : ∀ k, k ≠ old.key → l'.held k = l.held k
  kept : l'.rows.nextId = l.rows.nextId ∧ l'.tasks = l.tasks ∧ l'.reserved = l.reserved
  /-- The same update can be run again at any time: it reads the row, gives it back and does nothing
  else. -/
  again : ∀ later h' r l'', Runs QueueLedger.serves (update s id u later) l' h' r l'' ↔
    h' = [⟨.getRow id, .ok (some new)⟩] ∧ r = .ok new ∧ l'' = l'

section UpdateSpec

variable {s : QueueSettings} {id : Int} {u : QueueUpdate} {now : Instant} {l l' : QueueLedger}
  {new : QueueRow} {h : List QueueEvent}

/-- An update of a reachable row that succeeds replaces exactly what it gives, reaches the cluster
once or not at all, and does nothing when it is repeated. -/
theorem update_spec (hl : l.rows.Reachable s)
    (hr : Runs QueueLedger.serves (update s id u now) l h (.ok new) l') :
    ∃ old, UpdateSpec s id u now l old h new l' := by
  obtain ⟨old, hget⟩ := get?_of_runs_update hr
  obtain ⟨h', rfl, hchange⟩ := (runs_update_iff hget).1 hr
  obtain ⟨hcheck, hc⟩ := rowUpdate_of_runs hchange
  obtain ⟨hmem, rfl⟩ := QueueRows.mem_of_get? hget
  obtain ⟨hsettled, hcheck'⟩ := hc.settles hcheck
  have hstored := hc.get?_self hget
  exact ⟨old, hget, hstored, hc.revises (hl.proper old hmem).checked hcheck, hc.dated, hc.applies,
    hc.spares, hc.writes, hc.idles, fun other => hc.get?_of_ne, fun k => hc.held_of_ne, hc.kept,
    fun later h' r l'' => runs_update_idle_iff hstored hcheck' hsettled⟩

end UpdateSpec

theorem QueueRows.reachable_vision : QueueLedger.vision.rows.Reachable .plain :=
  ⟨Unit, inferInstance, fun _ => _, _, _, _, runs_create_vision.interleaves, rfl⟩

/-- The first row with another weight and a description, written an hour later. -/
def QueueRow.heavierVision : QueueRow :=
  { QueueRow.vision with
    description := some "nightly"
    weight := 4
    updatedAt := ⟨3600000000000⟩ }

/-- The first row gets another weight and a description, and its cluster is told. -/
theorem update_of_vision : ∃ h l',
    QueueLedger.vision.rows.Reachable .plain ∧
    Runs QueueLedger.serves
      (update .plain 1 ⟨none, some "nightly", some 4, none, none⟩ ⟨3600000000000⟩) .vision h
      (.ok .heavierVision) l' ∧
    ∃ old, UpdateSpec .plain 1 ⟨none, some "nightly", some 4, none, none⟩ ⟨3600000000000⟩ .vision old
      h .heavierVision l' := by
  have hr : Runs QueueLedger.serves
      (update .plain 1 ⟨none, some "nightly", some 4, none, none⟩ ⟨3600000000000⟩) .vision
      [⟨.getRow 1, .ok (some .vision)⟩,
        ⟨.apply "prod" (QueueRow.heavierVision.manifest .plain), .ok ()⟩,
        ⟨.updateRow .heavierVision, .ok ()⟩]
      (.ok .heavierVision) _ :=
    .ask ⟨rfl, rfl⟩ (.ask ⟨rfl, rfl⟩ (.ask ⟨rfl, rfl⟩ (.done _ _)))
  exact ⟨_, _, QueueRows.reachable_vision, hr, update_spec QueueRows.reachable_vision hr⟩

end ClusterJobs
