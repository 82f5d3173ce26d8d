import Mathlib.Data.List.DropRight
import ClusterJobs.Proofs.Queue.Overlap

/-!
# One operation after another

Operations run one after another, from nothing. After each of them rows and clusters are in step,
the rows are as a creation has checked them, and no id has been given out twice.
-/

namespace ClusterJobs

open Program QueueManager

/-! ## Trimmed names -/

theorem Text.trimChars_trimChars (cs : List Char) :
    Text.trimChars (Text.trimChars cs) = Text.trimChars cs := by
  have hhead : ((cs.dropWhile Text.isBlank).rdropWhile Text.isBlank).dropWhile Text.isBlank =
      (cs.dropWhile Text.isBlank).rdropWhile Text.isBlank := by
    refine List.dropWhile_eq_self_iff.2 ?_
    intro hlen
    have hpre := List.rdropWhile_prefix Text.isBlank (cs.dropWhile Text.isBlank)
    rw [hpre.getElem hlen]
    exact List.dropWhile_get_zero_not Text.isBlank cs (Nat.lt_of_lt_of_le hlen hpre.length_le)
  change (((cs.dropWhile _).rdropWhile _).dropWhile _).rdropWhile _ = _
  rw [hhead, List.rdropWhile_idempotent]
  rfl

theorem Text.trim_trim (t : String) : Text.trim (Text.trim t) = Text.trim t := by
  simp only [Text.trim, String.toList_ofList, Text.trimChars_trimChars]

/-! ## Proper rows -/

/-- A row is as its creation has checked it. -/
structure QueueRow.Proper (row : QueueRow) : Prop where
  named : row.name ≠ ""
  trimmed : Text.trim row.name = row.name
  checked : row.capability.check = .ok ()

namespace QueueStage

variable {s : QueueSettings}

/-- The row that an operation works on. -/
def draft? : QueueStage s → Option QueueRow
  | naming q | seeking q | founding q _ | storing q => some q.row
  | applying _ _ row _ _ _ | writing _ _ row _ | clearing _ row _ | dropping _ row
  | inspecting _ row _ _ | noting _ row _ _ => some row
  | _ => none

end QueueStage

section Proper

variable {s : QueueSettings} {st x : QueueStage s} {l l' : QueueLedger} {e : QueueEvent}
  {row : QueueRow} {u : QueueUpdate} {rows rows' : QueueRows}

theorem check_of_given {c : Capability} (h : checkUpdate row u = .ok ())
    (hu : u.capability = some c) : c.check = .ok () := by
  simp only [checkUpdate, hu] at h
  split at h
  · cases h
  · exact h

theorem check_of_checkUpdate (now : Instant) (h : checkUpdate row u = .ok ())
    (hrow : row.capability.check = .ok ()) : (row.update u now).capability.check = .ok () := by
  cases hu : u.capability with
  | none => simpa [QueueRow.update, hu] using hrow
  | some c => simpa [QueueRow.update, hu] using check_of_given h hu

theorem proper_begin (op : QueueOp) (h : (op.begin s).draft? = some row) : row.Proper := by
  cases op with
  | create q =>
    rcases QueueOp.begin_create s q with ⟨e, hend⟩ | ⟨hname, hcheck, hbegin⟩
    · rw [hend] at h
      cases h
    · rw [hbegin] at h
      cases h
      exact ⟨hname, Text.trim_trim q.name, hcheck⟩
  | _ => cases h

theorem proper_written (hst : ∀ r, st.draft? = some r → r.Proper) (hw : st.written? = some row) :
    row.Proper := by
  cases st with
  | writing id u seen checked =>
    cases hw
    obtain ⟨named, trimmed, hcheck⟩ := hst seen rfl
    exact ⟨named, trimmed, check_of_checkUpdate _ checked hcheck⟩
  | noting id seen state =>
    cases hw
    obtain ⟨named, trimmed, hcheck⟩ := hst seen rfl
    exact ⟨named, trimmed, hcheck⟩
  | _ => cases hw

/-- An operation works on a row of its own, or on one that it has just read. -/
theorem QueueTurn.draft_of (h : QueueTurn s st l e x l') (hd : x.draft? = some row) :
    st.draft? = some row ∨ row ∈ l.rows.rows := by
  cases h with
  | changeRemote checked affects remote hget =>
    cases hd
    exact .inr (QueueRows.mem_of_get? hget).1
  | changeRow checked hget hempty hquiet =>
    cases hd
    exact .inr (QueueRows.mem_of_get? hget).1
  | deleteRemote remote hget =>
    cases hd
    exact .inr (QueueRows.mem_of_get? hget).1
  | deleteLocal hget hlocal =>
    cases hd
    exact .inr (QueueRows.mem_of_get? hget).1
  | refreshRemote remote hget =>
    cases hd
    exact .inr (QueueRows.mem_of_get? hget).1
  | _ => first | exact .inl hd | cases hd

theorem RowsChange.proper (hc : RowsChange st rows rows')
    (hst : ∀ r, st.draft? = some r → r.Proper) (h : ∀ r ∈ rows.rows, r.Proper) :
    ∀ r ∈ rows'.rows, r.Proper := by
  cases hc with
  | kept hk => exact hk ▸ h
  | @inserted q stored hq hins =>
    obtain ⟨-, rfl, -⟩ := QueueRows.insert_eq_ok_iff.1 hins
    obtain ⟨named, trimmed, checked⟩ := hst q.row (by rw [hq]; rfl)
    intro r hr
    rcases (QueueRows.mem_insert hins).1 hr with hr | rfl
    · exact h r hr
    · exact ⟨named, trimmed, checked⟩
  | updated hw hupd =>
    intro r hr
    rcases (QueueRows.mem_update hupd).1 hr with rfl | ⟨hr, -⟩
    · exact proper_written hst hw
    · exact h r hr
  | deleted _ hd =>
    subst hd
    exact fun r hr => h r (QueueRows.mem_delete.1 hr).1

end Proper

section Pool

variable {ι : Type} [DecidableEq ι] {s : QueueSettings} {st st' : ι → QueueStage s}
  {l l' : QueueLedger} {h : List (ι × QueueEvent)}

/-- However operations take turns, proper rows stay proper and their names stay apart. -/
theorem QueueTurns.proper (ht : QueueTurns s st l h st' l') (ho : Orderly st l)
    (hst : ∀ i r, (st i).draft? = some r → r.Proper) (hrows : ∀ r ∈ l.rows.rows, r.Proper)
    (hn : (l.rows.rows.map QueueRow.name).Nodup) :
    (∀ r ∈ l'.rows.rows, r.Proper) ∧ (l'.rows.rows.map QueueRow.name).Nodup := by
  induction ht with
  | nil st l => exact ⟨hrows, hn⟩
  | @cons st st' l l₁ l' i e x h hturn _ ih =>
    refine ih (ho.step hturn) ?_ (hturn.rowsChange.proper (hst i) hrows)
      (hturn.rowsChange.names_nodup (ho.seen i) hn)
    intro j r hj
    by_cases hji : j = i
    · subst hji
      rw [Function.update_self] at hj
      rcases hturn.draft_of hj with hd | hr
      · exact hst j r hd
      · exact hrows r hr
    · rw [Function.update_of_ne hji] at hj
      exact hst j r hj

end Pool

/-! ## Ids -/

/-- The id that a call has given out. -/
def assigned? : QueueEvent → Option Int
  | ⟨.insertRow _, .ok row⟩ => some row.id
  | _ => none

/-- The ids that were given out are those of the past calls, each once. -/
structure Numbered (h : List QueueEvent) (l : QueueLedger) : Prop where
  nodup : (h.filterMap assigned?).Nodup
  past : ∀ id ∈ h.filterMap assigned?, id < l.rows.nextId
  known : ∀ r ∈ l.rows.rows, r.id ∈ h.filterMap assigned?

section Numbered

variable {h h' : List QueueEvent} {l l' : QueueLedger} {α : Type}

theorem Numbered.keep (hn : Numbered h l) {e : QueueEvent} (he : assigned? e = none)
    (hnext : l'.rows.nextId = l.rows.nextId)
    (hrows : ∀ r ∈ l'.rows.rows, ∃ r' ∈ l.rows.rows, r'.id = r.id) : Numbered (h ++ [e]) l' := by
  have hsame : (h ++ [e]).filterMap assigned? = h.filterMap assigned? := by
    simp [List.filterMap_append, he]
  refine ⟨?_, ?_, ?_⟩
  · rw [hsame]
    exact hn.nodup
  · rw [hsame, hnext]
    exact hn.past
  · intro r hr
    obtain ⟨r', hr', hid⟩ := hrows r hr
    rw [hsame, ← hid]
    exact hn.known r' hr'

theorem Numbered.keep_rows (hn : Numbered h l) {e : QueueEvent} (he : assigned? e = none)
    (hrows : l'.rows = l.rows) : Numbered (h ++ [e]) l' :=
  hn.keep he (by rw [hrows]) fun r hr => ⟨r, hrows ▸ hr, rfl⟩

/-- A row is stored under an id that was not given out before. -/
theorem Numbered.insert (hn : Numbered h l) {row stored : QueueRow} {rows : QueueRows}
    (hins : l.rows.insert row = .ok (stored, rows)) :
    Numbered (h ++ [⟨.insertRow row, .ok stored⟩]) { l with rows := rows } := by
  obtain ⟨-, hstored, hrows⟩ := QueueRows.insert_eq_ok_iff.1 hins
  have hid : stored.id = l.rows.nextId := by rw [hstored]
  have hids : (h ++ [(⟨.insertRow row, .ok stored⟩ : QueueEvent)]).filterMap assigned? =
      h.filterMap assigned? ++ [l.rows.nextId] := by
    rw [List.filterMap_append, ← hid]
    rfl
  refine ⟨?_, ?_, ?_⟩
  · rw [hids, List.nodup_append]
    refine ⟨hn.nodup, List.nodup_singleton _, ?_⟩
    intro a ha b hb
    have hlt := hn.past a ha
    have hb := List.mem_singleton.1 hb
    omega
  · intro id hmem
    rw [hids] at hmem
    simp only [hrows]
    rcases List.mem_append.1 hmem with hmem | hmem
    · have hlt := hn.past id hmem
      omega
    · have hlast := List.mem_singleton.1 hmem
      omega
  · intro r hr
    rw [hids]
    rcases (QueueRows.mem_insert hins).1 hr with hr | rfl
    · exact List.mem_append_left _ (hn.known r hr)
    · rw [hid]
      exact List.mem_append_right _ (.head [])

/-- Every call keeps the ids in order. -/
theorem Numbered.step (hn : Numbered h l) {c : QueueCall} {x : QueueAnswer c}
    (hs : QueueLedger.serves c l x l') : Numbered (h ++ [⟨c, x⟩]) l' := by
  cases c with
  | insertRow row =>
    simp only [QueueLedger.serves] at hs
    cases hins : l.rows.insert row with
    | error e =>
      rw [hins] at hs
      obtain ⟨rfl, rfl⟩ := hs
      exact hn.keep_rows rfl rfl
    | ok stored =>
      rw [hins] at hs
      obtain ⟨rfl, rfl⟩ := hs
      exact hn.insert hins
  | updateRow row =>
    simp only [QueueLedger.serves] at hs
    cases hupd : l.rows.update row with
    | error e =>
      rw [hupd] at hs
      obtain ⟨rfl, rfl⟩ := hs
      exact hn.keep_rows rfl rfl
    | ok rows =>
      rw [hupd] at hs
      obtain ⟨rfl, rfl⟩ := hs
      obtain ⟨⟨o, ho, hid⟩, hrows⟩ := QueueRows.update_eq_ok_iff.1 hupd
      refine hn.keep rfl (by rw [hrows]) ?_
      intro r hr
      rcases (QueueRows.mem_update hupd).1 hr with rfl | ⟨hr, -⟩
      · exact ⟨o, ho, hid⟩
      · exact ⟨r, hr, rfl⟩
  | deleteRow id =>
    obtain ⟨rfl, rfl⟩ := hs
    exact hn.keep rfl rfl fun r hr => ⟨r, (QueueRows.mem_delete.1 hr).1, rfl⟩
  | reserve name =>
    obtain ⟨-, rfl⟩ := hs
    exact hn.keep_rows rfl rfl
  | release name =>
    obtain rfl : l' = _ := hs
    exact hn.keep_rows rfl rfl
  | getRow id | findRow name | listRows project page pageSize =>
    obtain ⟨-, rfl⟩ := hs
    exact hn.keep_rows rfl rfl
  | state cluster name =>
    obtain rfl : l' = l := hs
    exact hn.keep_rows rfl rfl
  | _ =>
    refine hn.keep_rows rfl ?_
    cases x with
    | ok a =>
      obtain ⟨-, rfl⟩ := hs
      rfl
    | error e =>
      obtain rfl : l' = l := hs
      rfl

theorem Numbered.run (hn : Numbered h l) {p : QueueProgram α} {a : α}
    (hr : Runs QueueLedger.serves p l h' a l') : Numbered (h ++ h') l' := by
  induction hr generalizing h with
  | done a l => simpa using hn
  | ask hs _ ih => simpa using ih (hn.step hs)

end Numbered

/-! ## Sessions -/

/-- Operations that run one after another, with all their calls. -/
inductive Session (s : QueueSettings) : List QueueOp → List QueueEvent → QueueLedger → Prop where
  | nil : Session s [] [] .empty
  | snoc {ops : List QueueOp} {h h' : List QueueEvent} {l l' : QueueLedger} {op : QueueOp}
      {r : op.Result} : Session s ops h l → Runs QueueLedger.serves (op.program s) l h' r l' →
      Session s (ops ++ [op]) (h ++ h') l'

/-- What operations that run one after another leave behind. -/
structure SessionSpec (s : QueueSettings) (h : List QueueEvent) (l : QueueLedger) : Prop where
  /-- A row that belongs on a cluster has its queue there. -/
  applied : ∀ r ∈ l.rows.rows, r.isLocal s = false → l.held r.key = some (r.manifest s)
  /-- A queue on a cluster is that of one row, and the local cluster has none. -/
  owned : ∀ k queue, l.held k = some queue →
    k.1 ≠ s.localCluster ∧ ∃! r, r ∈ l.rows.rows ∧ r.key = k
  names : (l.rows.rows.map QueueRow.name).Nodup
  proper : ∀ r ∈ l.rows.rows, r.Proper
  /-- No id is given out twice, and each row has one that was given out, of its own. -/
  assigned : (h.filterMap assigned?).Nodup
  known : ∀ r ∈ l.rows.rows, r.id ∈ h.filterMap assigned?
  ids : (l.rows.rows.map QueueRow.id).Nodup
  released : l.reserved = ∅

section Session

variable {s : QueueSettings} {ops : List QueueOp} {h : List QueueEvent} {l l' : QueueLedger}
  {op : QueueOp}

/-- One operation alone cannot clash. -/
theorem not_clash_of_subsingleton {ι : Type} [Subsingleton ι] (ops : ι → QueueOp)
    (h : List (ι × QueueEvent)) : ¬ Clash s ops h := by
  rintro (⟨hne, -⟩ | ⟨hne, -⟩ | ⟨hne, -⟩) <;> exact hne (Subsingleton.elim _ _)

theorem AtRest.empty (s : QueueSettings) : AtRest s .empty := by
  refine ⟨QueueRows.sound_empty, ?_, rfl, ?_, ?_⟩
  · intro r hr
    cases hr
  · intro r hr
    cases hr
  · intro k queue hk
    cases hk

/-- What operations keep that run one after another. -/
structure Settled (s : QueueSettings) (h : List QueueEvent) (l : QueueLedger) : Prop where
  rest : AtRest s l
  proper : ∀ r ∈ l.rows.rows, r.Proper
  names : (l.rows.rows.map QueueRow.name).Nodup
  numbered : Numbered h l

theorem Settled.step (hs : Settled s h l) {h' : List QueueEvent} {r : op.Result}
    (hr : Runs QueueLedger.serves (op.program s) l h' r l') : Settled s (h ++ h') l' := by
  have hi := hr.interleaves
  have hf : Finished (fun _ : Unit => (.done r : QueueProgram op.Result)) fun _ => r :=
    fun _ => rfl
  have ht := QueueTurns.of_finished (fun _ => op) hi hf
  have ho := Orderly.begin (s := s) (fun _ : Unit => op) hs.rest.sound hs.rest.released
  obtain ⟨hproper, hnames⟩ := ht.proper ho (fun _ _ hd => proper_begin op hd) hs.proper hs.names
  exact ⟨hs.rest.of_interleaves (fun _ => op) hi hf (not_clash_of_subsingleton _ _),
    hproper, hnames, hs.numbered.run hr⟩

theorem Session.settled (hs : Session s ops h l) : Settled s h l := by
  induction hs with
  | nil =>
    refine ⟨.empty s, ?_, List.nodup_nil, List.nodup_nil, ?_, ?_⟩
    · intro r hr
      cases hr
    · intro id hid
      cases hid
    · intro r hr
      cases hr
  | snoc _ hr ih => exact ih.step hr

/-- After any operations that run one after another from nothing, rows and clusters are in step,
whichever of the calls to clusters fail. -/
theorem session_spec (hs : Session s ops h l) : SessionSpec s h l := by
  obtain ⟨hrest, hproper, hnames, hnumbered⟩ := hs.settled
  refine ⟨hrest.inStep.applied, ?_, hnames, hproper, hnumbered.nodup, hnumbered.known,
    hrest.sound.nodup, hrest.released⟩
  intro k queue hk
  obtain ⟨hlocal, r, hr, rfl⟩ := hrest.inStep.owned k queue hk
  refine ⟨hlocal, r, ⟨hr, rfl⟩, ?_⟩
  rintro r' ⟨hr', hkey⟩
  exact hrest.apart r' hr' r hr (by rwa [isLocal_eq_of_key hkey, isLocal_eq_false_iff]) hkey

end Session

/-! ## A creation and a change that fails -/

theorem runs_create_vision :
    Runs QueueLedger.serves
      ((QueueOp.create
        ⟨⟨" vision", none, none, "prod", none, none, .unlimited⟩, ⟨0⟩⟩).program .plain)
      .empty
      [⟨.reserve "vision", true⟩, ⟨.findRow "vision", .ok none⟩,
        ⟨.apply "prod" (QueueRow.vision.manifest .plain), .ok ()⟩,
        ⟨.insertRow { QueueRow.vision with id := 0 }, .ok .vision⟩, ⟨.release "vision", ()⟩]
      (.ok .vision) .vision := by
  have hreserved : QueueLedger.serves (.reserve "vision") .empty true
      { QueueLedger.empty with reserved := {"vision"} } := ⟨rfl, rfl⟩
  refine .ask hreserved ?_
  refine .ask ⟨rfl, rfl⟩ ?_
  refine .ask ⟨rfl, rfl⟩ ?_
  refine .ask ⟨rfl, rfl⟩ ?_
  refine .ask rfl ?_
  exact .done _ _

theorem runs_update_vision (cause : Fault) :
    Runs QueueLedger.serves
      ((QueueOp.update 1 ⟨⟨none, none, some 4, none, none⟩, ⟨1⟩⟩).program .plain) .vision
      [⟨.getRow 1, .ok (some .vision)⟩,
        ⟨.apply "prod" (QueueRow.manifest { QueueRow.vision with weight := 4 } .plain),
          .error cause⟩]
      (.error (.cluster "prod" cause)) .vision := by
  refine .ask ⟨rfl, rfl⟩ ?_
  refine .ask rfl ?_
  exact .done _ _

/-- The change of a weight fails on the cluster, and the row keeps the old one. -/
theorem session_of_vision : ∃ h,
    Session .plain [.create ⟨⟨" vision", none, none, "prod", none, none, .unlimited⟩, ⟨0⟩⟩,
      .update 1 ⟨⟨none, none, some 4, none, none⟩, ⟨1⟩⟩] h .vision ∧ SessionSpec .plain h .vision := by
  have hs := (Session.nil.snoc runs_create_vision).snoc
    (runs_update_vision (.cluster "prod" "connection refused"))
  exact ⟨_, hs, session_spec hs⟩

end ClusterJobs
