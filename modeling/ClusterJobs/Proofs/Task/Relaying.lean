import ClusterJobs.Proofs.Retrying
import ClusterJobs.Proofs.Task.Deliveries
import ClusterJobs.Proofs.Task.OwnObjects

/-!
# Relayed logs

A relay hands on a first part of the lines of the log that it has opened: those that come before it
is closed, and nothing after it was joined. A run of an object hands on just what its relay does, each
line at its time while the object is watched, and joins it before it returns an outcome.
-/

namespace ClusterJobs

open Program

/-! ## The lines of a stream -/

/-- When a stream that is read from the time `t` on ends or breaks. -/
def overFrom (ends : Option Nat) : List (Nat × LogItem) → Nat → Option Nat
  | [], t => ends.map (t + ·)
  | (after, .broken) :: _, t => some (t + after)
  | (after, .line _) :: rest, t => overFrom ends rest (t + after)

theorem le_of_mem_linesFrom {items : List (Nat × LogItem)} {t : Nat} :
    ∀ line ∈ linesFrom items t, t ≤ line.1 := by
  fun_induction linesFrom items t with
  | case1 => exact List.forall_mem_nil _
  | case2 => exact List.forall_mem_nil _
  | case3 t after text rest ih =>
    exact List.forall_mem_cons.2
      ⟨Nat.le_add_right _ _, fun line hline => (Nat.le_add_right _ _).trans (ih line hline)⟩

theorem ordered_linesFrom (items : List (Nat × LogItem)) (t : Nat) :
    Ordered t (linesFrom items t) := by
  refine ⟨?_, le_of_mem_linesFrom⟩
  fun_induction linesFrom items t with
  | case1 => exact .nil
  | case2 => exact .nil
  | case3 t after text rest ih => exact .cons le_of_mem_linesFrom ih

theorem le_of_overFrom {ends : Option Nat} {items : List (Nat × LogItem)} {t endTime : Nat}
    (h : overFrom ends items t = some endTime) : t ≤ endTime := by
  fun_induction overFrom ends items t with
  | case1 t =>
    obtain ⟨after, -, rfl⟩ := Option.map_eq_some_iff.1 h
    exact Nat.le_add_right _ _
  | case2 t after => cases h; exact Nat.le_add_right _ _
  | case3 t after _ rest ih => exact (Nat.le_add_right _ _).trans (ih h)

/-- No line comes before the time `close` if the stream is read from then on. -/
theorem takeWhile_linesFrom {items : List (Nat × LogItem)} {t close : Nat}
    (h : ∀ line ∈ linesFrom items t, close ≤ line.1) :
    (linesFrom items t).takeWhile (fun line => decide (line.1 < close)) = [] := by
  cases hlines : linesFrom items t with
  | nil => rfl
  | cons line rest =>
    rw [hlines] at h
    simp [h line (.head _)]

/-! ## Handing lines on -/

/-- What is handed on of a stream that is read from the time `t` on and closed at the time `close`,
when `before` lines were counted already. -/
structure LinesRelayed (close : Nat) (ends : Option Nat) (items : List (Nat × LogItem))
    (before t : Nat) (r : Relayed) : Prop where
  handed : r.lines <+: linesFrom items t
  counted : r.count = before + r.lines.length
  silent : ∀ line ∈ r.lines, line.1 ≤ r.endedAt
  le : t ≤ r.endedAt
  le_close : r.endedAt ≤ max t close
  /-- Lines that come before the closing are handed on. -/
  timely : (linesFrom items t).takeWhile (fun line => decide (line.1 < close)) <+: r.lines
  /-- If the stream ends or breaks before the closing, then all its lines are handed on. -/
  whole : ∀ endTime, overFrom ends items t = some endTime → endTime < close →
    r.lines = linesFrom items t ∧ r.endedAt = endTime

namespace LinesRelayed

variable {close before opens t after : Nat} {ends : Option Nat} {rest : List (Nat × LogItem)}
  {item : LogItem} {text : String} {r : Relayed}

theorem ended : LinesRelayed close ends [] before t
    ⟨[], before, opens, ends.elim (max t close) fun a => min (t + a) (max t close)⟩ := by
  refine ⟨List.nil_prefix, rfl, List.forall_mem_nil _, ?_, ?_, List.nil_prefix, ?_⟩
  · cases ends with
    | none => exact le_max_left _ _
    | some a => exact le_min (Nat.le_add_right _ _) (le_max_left _ _)
  · cases ends with
    | none => exact le_rfl
    | some a => exact min_le_right _ _
  · intro endTime hend hlt
    obtain ⟨a, rfl, rfl⟩ := Option.map_eq_some_iff.1 hend
    exact ⟨rfl, min_eq_left (hlt.le.trans (le_max_right _ _))⟩

theorem tooLate (hclose : close ≤ t + after) :
    LinesRelayed close ends ((after, item) :: rest) before t ⟨[], before, opens, max t close⟩ := by
  have hlines : ∀ line ∈ linesFrom ((after, item) :: rest) t, close ≤ line.1 := by
    cases item with
    | broken => exact List.forall_mem_nil _
    | line text =>
      exact List.forall_mem_cons.2
        ⟨hclose, fun line hline => hclose.trans (le_of_mem_linesFrom line hline)⟩
  have hend : ∀ endTime, overFrom ends ((after, item) :: rest) t = some endTime →
      close ≤ endTime := by
    intro endTime h
    cases item with
    | broken => cases h; exact hclose
    | line text => exact hclose.trans (le_of_overFrom (t := t + after) h)
  exact ⟨List.nil_prefix, rfl, List.forall_mem_nil _, le_max_left _ _, le_rfl,
    takeWhile_linesFrom hlines ▸ List.nil_prefix,
    fun endTime h hlt => absurd (hend endTime h) (Nat.not_le_of_lt hlt)⟩

theorem broken (hclose : t + after ≤ close) :
    LinesRelayed close ends ((after, .broken) :: rest) before t
      ⟨[], before, opens, t + after⟩ := by
  refine ⟨List.nil_prefix, rfl, List.forall_mem_nil _, Nat.le_add_right _ _,
    hclose.trans (le_max_right _ _), List.nil_prefix, ?_⟩
  intro endTime h _
  cases h
  exact ⟨rfl, rfl⟩

theorem cons (hclose : t + after ≤ close)
    (hr : LinesRelayed close ends rest (before + 1) (t + after) r) :
    LinesRelayed close ends ((after, .line text) :: rest) before t (r.cons (t + after) text) where
  handed := List.cons_prefix_cons.2 ⟨rfl, hr.handed⟩
  counted := by
    rw [Relayed.cons, hr.counted, List.length_cons]
    omega
  silent := List.forall_mem_cons.2 ⟨hr.le, hr.silent⟩
  le := (Nat.le_add_right _ _).trans hr.le
  le_close := hr.le_close.trans (max_le (hclose.trans (le_max_right _ _)) (le_max_right _ _))
  timely := by
    rw [linesFrom, List.takeWhile_cons]
    split
    · exact List.cons_prefix_cons.2 ⟨rfl, hr.timely⟩
    · exact List.nil_prefix
  whole := by
    intro endTime h hlt
    obtain ⟨hlines, hended⟩ := hr.whole endTime h hlt
    exact ⟨congrArg _ hlines, hended⟩

end LinesRelayed

namespace LogSource

variable {s : LogSource} {close race ready : Nat}

theorem close_le (h : s.tooLate close race ready = true) : close ≤ ready := by
  simp only [tooLate, Bool.or_eq_true, decide_eq_true_eq, Bool.and_eq_true, beq_iff_eq] at h
  omega

theorem le_close (h : ¬ s.tooLate close race ready = true) : ready ≤ close := by
  simp only [tooLate, Bool.or_eq_true, decide_eq_true_eq, not_or] at h
  exact Nat.le_of_not_lt h.1

end LogSource

theorem linesRelayed (s : LogSource) (close opens : Nat) (ends : Option Nat)
    (items : List (Nat × LogItem)) (before t : Nat) :
    LinesRelayed close ends items before t (relayLines s close opens ends items before t) := by
  fun_induction relayLines s close opens ends items before t with
  | case1 => exact .ended
  | case2 before t after item rest hlate => exact .tooLate (LogSource.close_le hlate)
  | case3 before t after rest hlate => exact .broken (LogSource.le_close hlate)
  | case4 before t after rest hlate text ih => exact .cons (LogSource.le_close hlate) ih

/-! ## The log that is opened -/

namespace LogSource

/-- The log is opened with attempt `last` at the time `opened`, if nothing closes the relay. -/
abbrev Opens (s : LogSource) (b : ClockBackoff) (start last opened : Nat)
    (stream : TimedStream LogItem) : Prop :=
  b.Succeeds s.jitter s.attempt last opened stream 0 start

variable {s : LogSource} {b : ClockBackoff} {start close last opened : Nat}
  {stream : TimedStream LogItem}

/-- All attempts after the first ones yield the same, so that none but their first opens the log. -/
theorem Opens.last_le (ho : s.Opens b start last opened stream) : last ≤ s.opens.length := by
  by_contra hlt
  rw [Nat.not_le] at hlt
  obtain ⟨takes, e, hfails⟩ := ho.fails_before (Nat.zero_le _) hlt
  obtain ⟨takes', hlast⟩ := ho.attempt_last
  simp only [attempt, List.getElem?_eq_none le_rfl, Option.getD_none,
    Option.map_eq_some_iff, Prod.mk.injEq] at hfails
  simp only [attempt, List.getElem?_eq_none hlt.le, Option.getD_none,
    Option.map_eq_some_iff, Prod.mk.injEq] at hlast
  obtain ⟨-, -, -, herror⟩ := hfails
  obtain ⟨-, -, -, hok⟩ := hlast
  cases herror.symm.trans hok

theorem Opens.relay_eq (ho : s.Opens b start last opened stream) (hlt : opened < close) :
    relay b s start close =
      relayLines s close (last + 1) stream.ends stream.items 0 opened := by
  have hfires : ∀ f, (some close : Option Nat) = some f → opened < f := by
    rintro _ ⟨⟩
    exact hlt
  have hle := ho.last_le
  have hrun : b.retry ⟨some close, s.jitter, s.closeWinsOpen⟩ s.attempt
      (s.opens.length + b.maxAttempts.toNat + (close - start) + 2) start =
        some ⟨some (.succeeded stream), last + 1, opened⟩ :=
    Backoff.retry_of_succeeds ho hfires (by omega)
  simp only [relay, hrun]

theorem Opens.timely (ho : s.Opens b start last opened stream) (close : Nat) :
    (linesFrom stream.items opened).takeWhile (fun line => decide (line.1 < close)) <+:
      (relay b s start close).lines := by
  rcases Nat.lt_or_ge opened close with hlt | hge
  · rw [ho.relay_eq hlt]
    exact (linesRelayed ..).timely
  · rw [takeWhile_linesFrom fun line hline => hge.trans (le_of_mem_linesFrom line hline)]
    exact List.nil_prefix

theorem Opens.whole (ho : s.Opens b start last opened stream) {endTime : Nat}
    (hend : overFrom stream.ends stream.items opened = some endTime) (hlt : endTime < close) :
    (relay b s start close).lines = linesFrom stream.items opened ∧
      (relay b s start close).endedAt = endTime := by
  rw [ho.relay_eq ((le_of_overFrom hend).trans_lt hlt)]
  exact (linesRelayed ..).whole endTime hend hlt

/-- A relay hands on nothing, or what it hands on of the log that it has opened. -/
theorem relay_cases (b : ClockBackoff) (s : LogSource) (start close : Nat) :
    ((relay b s start close).lines = [] ∧ (relay b s start close).count = 0 ∧
        (relay b s start close).endedAt ≤ max start close) ∨
      ∃ last opened stream, s.Opens b start last opened stream ∧ opened ≤ max start close ∧
        relay b s start close =
          relayLines s close (last + 1) stream.ends stream.items 0 opened := by
  simp only [relay]
  split
  · exact .inl ⟨rfl, rfl, le_rfl⟩
  · next run hrun =>
    have hended : run.endedAt ≤ max start close :=
      (Backoff.within_of_retry hrun).le_fires close rfl
    split
    · next stream hresult =>
      obtain ⟨last, hopens, hattempts⟩ := Backoff.succeeds_of_retry hrun hresult
      exact .inr ⟨last, run.endedAt, stream, hopens, hended, by rw [hattempts]⟩
    · exact .inl ⟨rfl, rfl, hended⟩

/-! ## The lines of a log -/

theorem Opens.lines_eq (ho : s.Opens b start last opened stream) :
    s.lines b start = linesFrom stream.items opened := by
  have hrun : b.retry ⟨none, s.jitter, s.closeWinsOpen⟩ s.attempt (s.opens.length + 1) start =
      some ⟨some (.succeeded stream), last + 1, opened⟩ :=
    Backoff.retry_of_succeeds ho nofun (Nat.lt_succ_of_le ho.last_le)
  simp only [lines, hrun]

/-- A log that is not opened has no lines. -/
theorem lines_cases (b : ClockBackoff) (s : LogSource) (start : Nat) :
    s.lines b start = [] ∨ ∃ last opened stream, s.Opens b start last opened stream := by
  unfold lines
  split
  · next stream attempts opened hrun =>
    obtain ⟨last, hopens, -⟩ := Backoff.succeeds_of_retry hrun rfl
    exact .inr ⟨last, opened, stream, hopens⟩
  · exact .inl rfl

theorem ordered_lines (b : ClockBackoff) (s : LogSource) (start : Nat) :
    Ordered start (s.lines b start) := by
  rcases s.lines_cases b start with hnone | ⟨last, opened, stream, hopens⟩
  · rw [hnone]
    exact ⟨.nil, List.forall_mem_nil _⟩
  · rw [hopens.lines_eq]
    have hordered := ordered_linesFrom stream.items opened
    exact ⟨hordered.sorted, fun line hline =>
      (Backoff.Succeeds.le hopens).trans (hordered.le line hline)⟩

/-- A relay hands on a first part of the lines of its log. -/
theorem relay_prefix (b : ClockBackoff) (s : LogSource) (start close : Nat) :
    (relay b s start close).lines <+: s.lines b start := by
  rcases relay_cases b s start close with ⟨hlines, -⟩ | ⟨last, opened, stream, hopens, -, hrelay⟩
  · rw [hlines]
    exact List.nil_prefix
  · rw [hrelay, hopens.lines_eq]
    exact (linesRelayed ..).handed

/-- Lines that come before the closing are handed on. -/
theorem relay_timely (b : ClockBackoff) (s : LogSource) (start close : Nat) :
    (s.lines b start).takeWhile (fun line => decide (line.1 < close)) <+:
      (relay b s start close).lines := by
  rcases s.lines_cases b start with hnone | ⟨last, opened, stream, hopens⟩
  · rw [hnone]
    exact List.nil_prefix
  · rw [hopens.lines_eq]
    exact hopens.timely close

end LogSource

/-! ## Relays -/

/-- What a relay does that begins at the time `start` and is joined from the time `called` on, with
so much time to drain its log. -/
structure RelaySpec (b : ClockBackoff) (s : LogSource) (start called grace : Nat) (r : Relayed) :
    Prop where
  /-- If the log was opened, then a first part of its lines is handed on, in order. -/
  handed : ∀ last opened stream, s.Opens b start last opened stream →
    r.lines <+: linesFrom stream.items opened
  unopened : (¬ ∃ last opened stream, s.Opens b start last opened stream) → r.lines = []
  counted : r.count = r.lines.length
  /-- Nothing is handed on after the relay was joined. -/
  silent : ∀ line ∈ r.lines, line.1 ≤ r.joinedAt called
  joined : r.joinedAt called ≤ max start (called + grace)
  /-- Lines that come before the grace period is over are handed on. -/
  timely : ∀ last opened stream, s.Opens b start last opened stream →
    (linesFrom stream.items opened).takeWhile (fun line => decide (line.1 < called + grace)) <+:
      r.lines
  /-- If the log ends or breaks before the grace period is over, all its lines are handed on. -/
  whole : ∀ last opened stream, s.Opens b start last opened stream →
    ∀ endTime, overFrom stream.ends stream.items opened = some endTime →
      endTime < called + grace →
      r.lines = linesFrom stream.items opened ∧ r.endedAt = endTime

theorem relay_spec (b : ClockBackoff) (s : LogSource) (start called grace : Nat) :
    RelaySpec b s start called grace (relay b s start (called + grace)) := by
  have hcalled : called ≤ max start (called + grace) :=
    (Nat.le_add_right _ _).trans (le_max_right _ _)
  rcases LogSource.relay_cases b s start (called + grace) with
    ⟨hlines, hcount, hended⟩ | ⟨last, opened, stream, hopens, hle, hrelay⟩
  · exact ⟨fun _ _ _ _ => hlines ▸ List.nil_prefix, fun _ => hlines, by rw [hcount, hlines]; rfl,
      hlines ▸ List.forall_mem_nil _, max_le hcalled hended, fun _ _ _ ho => ho.timely _,
      fun _ _ _ ho _ => ho.whole⟩
  · have hr := linesRelayed s (called + grace) (last + 1) stream.ends stream.items 0 opened
    rw [← hrelay] at hr
    refine ⟨?_, fun hnone => absurd ⟨_, _, _, hopens⟩ hnone, by rw [hr.counted, Nat.zero_add],
      fun line hline => (hr.silent line hline).trans (le_max_right _ _),
      max_le hcalled (hr.le_close.trans (max_le hle (le_max_right _ _))),
      fun _ _ _ ho => ho.timely _, fun _ _ _ ho _ => ho.whole⟩
    intro last' opened' stream' hopens'
    obtain ⟨-, rfl, rfl⟩ := hopens.unique hopens'
    exact hr.handed

/-- The container starts after the first attempt, and the relay is closed between two lines. -/
example : relay .standard ⟨[.error (.kube none "not started"),
      .ok ⟨[(10, .line "one"), (90, .line "two")], none⟩], .error (.kube none "gone"),
      fun _ => some 20, fun _ => 1.0, fun _ => true, fun _ => true⟩ 0 (550 + 30) =
    ⟨[(550, "one")], 1, 2, 580⟩ := by decide +kernel

/-! ## Runs of an object -/

/-- What is relayed from the time `start` on if the outcome is known at the time `ended`. -/
def ItemSettings.relayed (settings : ItemSettings) (source : LogSource) (start ended : Nat) :
    Relayed :=
  relay settings.openBackoff source start (ended + settings.drainGrace)

/-- How a log is relayed that is followed from the time `start` on, if the watch ends. -/
structure JoinsRelay (settings : ItemSettings) (source : LogSource) (start : Nat)
    (calls : List TaskEvent) : Prop where
  /-- At some time the relay is joined. The lines that it hands on until it has ended or is closed are
  handed on once each and in order, and nothing else is. -/
  joined : ∃ watched joining, ∃ ended called : Nat, calls = watched ++ ⟨.now, ended⟩ :: joining ∧
    ended ≤ called ∧
    handedLines calls = (settings.relayed source start called).lines.map Prod.snd ∧
    -- Each line is handed on at its own time, whether the watch still goes on or the log is drained.
    (Punctual start calls → called = ended ∧
      deliveries start calls = (settings.relayed source start called).lines ∧
      start + slept calls = (settings.relayed source start called).joinedAt called)

/-- How a log is relayed that is followed from the time `start` on, if the watch goes on forever. -/
structure RelaysOn (settings : ItemSettings) (source : LogSource) (start : Nat)
    (calls : List TaskEvent) : Prop where
  lines_eq : handedLines calls = (source.lines settings.openBackoff start).map Prod.snd
  timed : Punctual start calls → deliveries start calls = source.lines settings.openBackoff start

namespace Manifest

section Quiet

variable (m : Manifest) {σ : Type} (h : Handler Call Answer σ) (s : σ)

theorem opening_silent : Silent (m.opening h s) := by
  rw [Silent, opening, List.forall_mem_cons, List.forall_mem_singleton]
  exact ⟨rfl, rfl⟩

theorem dropped_silent (useless : Bool) : Silent (m.dropped useless) := by
  cases useless with
  | false => exact List.forall_mem_nil _
  | true => exact List.forall_mem_singleton.2 rfl

theorem Removal.silent {m : Manifest} {calls : List TaskEvent} {r : Except JobFault Unit}
    (hr : m.Removal calls r) : Silent calls := by
  intro event he
  rcases hr.call_eq event he with hcall | hcall <;> rw [hcall] <;> rfl

theorem SubmissionCalls.silent {m : Manifest} {calls : List TaskEvent} {r : Except JobFault Unit}
    (hc : m.SubmissionCalls calls r) : Silent calls := by
  intro event he
  rcases hc.calls event he with hcall | hcall | hcall | hcall <;> rw [hcall] <;> rfl

theorem watch_silent (tailLines : Int) (limit : Option Nat) (ctx : Context) :
    Silent ((m.watch tailLines limit ctx).events h s) := by
  have hwatch : (m.watch tailLines limit ctx).Confined (fun c => c.line? = none)
      (limit = none ∧ ctx.firesAt = none) := by
    refine m.watch_confined limit ctx ?_ ?_ ?_ ?_ tailLines
    exacts [rfl, fun _ => rfl, rfl, fun _ => rfl]
  exact hwatch.events

end Quiet

/-! ## The join -/

section Join

variable {m : Manifest} {settings : ItemSettings} {limit : Option Nat} {ctx : Context} {σ : Type}
  {h : Handler Call Answer σ} {s t : σ} {source : LogSource} {start : Nat} {r : Relaying}
  {watched : List TaskEvent} {lines : List (Nat × String)}

/-- The calls that join a relay, after the time was looked at. -/
def joinCalls (m : Manifest) (relayed : Relayed) (r : Relaying) : List TaskEvent :=
  handCalls m.name r.clock (relayed.lines.drop r.handed) ++
    [⟨.pause (relayed.endedAt - lastTime r.clock (relayed.lines.drop r.handed)), ()⟩]

theorem events_join (m : Manifest) (settings : ItemSettings) (source : LogSource) (start : Nat)
    (r : Relaying) (h : Handler Call Answer σ) (s : σ) :
    ∃ ended : Nat, (m.join settings source start r).events h s = ⟨.now, ended⟩ ::
      m.joinCalls (settings.relayed source start (r.tell ended).clock) (r.tell ended) := by
  refine ⟨(h .now s).1, congrArg (_ :: ·) ?_⟩
  obtain ⟨hrun, hevents⟩ := run_handOn m.name h (r.tell (h .now s).1).clock
    ((settings.relayed source start (r.tell (h .now s).1).clock).lines.drop r.handed) (h .now s).2
  exact (events_bind_of_some hrun _).trans (congrArg (· ++ _) hevents)

/-- What was handed on before the relay is joined, it hands on in any case. -/
theorem relayed_split (hw : HandsOn (source.relaying settings.openBackoff start) watched lines r)
    {called : Nat} (hcalled : r.clock ≤ called) :
    (settings.relayed source start called).lines =
        lines ++ (settings.relayed source start called).lines.drop r.handed ∧
      (settings.relayed source start called).lines.drop r.handed <+: r.coming := by
  have hall : source.lines settings.openBackoff start = lines ++ r.coming := hw.coming
  have hcount : r.handed = lines.length := hw.handed.trans (Nat.zero_add _)
  have hprefix := source.relay_prefix settings.openBackoff start (called + settings.drainGrace)
  have htimely := source.relay_timely settings.openBackoff start (called + settings.drainGrace)
  have hpast : ∀ line ∈ lines, decide (line.1 < called + settings.drainGrace) = true := by
    intro line hline
    have hlt := hw.past line hline
    rw [decide_eq_true_eq]
    omega
  rw [hall, List.takeWhile_append_of_pos hpast] at htimely
  obtain ⟨rest, hrest⟩ := (List.prefix_append _ _).trans htimely
  change (settings.relayed source start called).lines <+: _ at hprefix
  change lines ++ rest = (settings.relayed source start called).lines at hrest
  rw [← hrest, hall, List.prefix_append_right_inj] at hprefix
  rw [← hrest, hcount, List.drop_left]
  exact ⟨rfl, hprefix⟩

theorem handedLines_joinCalls (m : Manifest) (relayed : Relayed) (r : Relaying) :
    handedLines (m.joinCalls relayed r) = (relayed.lines.drop r.handed).map Prod.snd := by
  rw [joinCalls, handedLines_append, handedLines_handCalls]
  exact List.append_nil _

/-- A relay is joined when it has handed on its last line and has ended or is closed. -/
theorem timed_joinCalls {relayed : Relayed}
    (hordered : Ordered r.clock (relayed.lines.drop r.handed))
    (hsilent : ∀ line ∈ relayed.lines, line.1 ≤ relayed.joinedAt r.clock) :
    deliveries r.clock (m.joinCalls relayed r) = relayed.lines.drop r.handed ∧
      r.clock + slept (m.joinCalls relayed r) = relayed.joinedAt r.clock := by
  have hle : lastTime r.clock (relayed.lines.drop r.handed) ≤ relayed.joinedAt r.clock :=
    lastTime_le (Nat.le_max_left _ _) fun line hline => hsilent line (List.mem_of_mem_drop hline)
  have hlast : r.clock ≤ lastTime r.clock (relayed.lines.drop r.handed) := le_lastTime
  constructor
  · rw [joinCalls, deliveries_append, deliveries_handCalls hordered]
    exact List.append_nil _
  · have hpause : slept [⟨.pause (relayed.endedAt -
        lastTime r.clock (relayed.lines.drop r.handed)), ()⟩] =
        relayed.endedAt - lastTime r.clock (relayed.lines.drop r.handed) := Nat.add_zero _
    rw [joinCalls, slept_append, ← Nat.add_assoc, slept_handCalls, hpause]
    rw [Relayed.joinedAt] at hle ⊢
    omega

theorem joinsRelay_of_handsOn
    (hw : HandsOn (source.relaying settings.openBackoff start) watched lines r) (ended : Nat) :
    JoinsRelay settings source start (watched ++ ⟨.now, ended⟩ ::
      m.joinCalls (settings.relayed source start (r.tell ended).clock) (r.tell ended)) := by
  have hcalled : r.clock ≤ (r.tell ended).clock := Nat.le_max_left _ _
  obtain ⟨hsplit, hlater⟩ := relayed_split hw hcalled
  have hsilent := (relay_spec settings.openBackoff source start (r.tell ended).clock
    settings.drainGrace).silent
  have hjoined := hw.trans (handsOn_now r ended)
  refine ⟨watched, _, ended, (r.tell ended).clock, rfl, Nat.le_max_right _ _, ?_, fun hp => ?_⟩
  · have hlines : handedLines (⟨.now, ended⟩ :: m.joinCalls
        (settings.relayed source start (r.tell ended).clock) (r.tell ended)) = _ :=
      m.handedLines_joinCalls _ _
    rw [handedLines_append, hw.lines_eq, hlines, ← List.map_append]
    exact congrArg _ hsplit.symm
  · rw [List.append_cons] at hp ⊢
    obtain ⟨hdelivered, hclock, hordered⟩ :=
      hjoined.timed (source.ordered_lines settings.openBackoff start) hp.left
    obtain ⟨-, hwatched, -⟩ := hw.timed (source.ordered_lines settings.openBackoff start) hp.left.left
    obtain ⟨hrest, hslept⟩ := timed_joinCalls (m := m) (hordered.sublist hlater.sublist) hsilent
    have hended : ended = r.clock := (hp.left watched ended [] rfl).trans hwatched
    refine ⟨by simp [Relaying.tell, hended], ?_, ?_⟩
    · change deliveries start _ = _ at hdelivered
      change start + _ = _ at hclock
      rw [deliveries_append, hdelivered, hclock, hrest, List.append_nil]
      exact hsplit.symm
    · change start + _ = _ at hclock
      rw [slept_append, ← Nat.add_assoc, hclock, hslept]

theorem joinsRelay_attend
    (hw : ((m.watch settings.tailLines limit ctx).run (beside m.name h)
      (s, source.relaying settings.openBackoff start)).1.isSome = true) :
    JoinsRelay settings source start ((m.attend settings limit ctx source start
      (source.relaying settings.openBackoff start)).events h s) := by
  rcases hwatch : (m.watch settings.tailLines limit ctx).run (beside m.name h)
    (s, source.relaying settings.openBackoff start) with ⟨_ | o, t, r⟩
  · rw [hwatch] at hw
    cases hw
  · obtain ⟨hrun, halong⟩ := run_alongside hwatch
    obtain ⟨lines, hhands⟩ := halong.handsOn (m.watch_silent _ _ _ _ _)
    obtain ⟨ended, hjoin⟩ := m.events_join settings source start r h t
    rw [attend, events_bind_of_some hrun, events_bind_done, hjoin]
    exact joinsRelay_of_handsOn hhands ended

theorem relaysOn_attend
    (hw : ((m.watch settings.tailLines limit ctx).run (beside m.name h)
      (s, source.relaying settings.openBackoff start)).1 = none) :
    RelaysOn settings source start ((m.attend settings limit ctx source start
      (source.relaying settings.openBackoff start)).events h s) := by
  rcases hwatch : (m.watch settings.tailLines limit ctx).run (beside m.name h)
    (s, source.relaying settings.openBackoff start) with ⟨_ | o, t, r⟩
  · obtain ⟨hrun, watched, hevents, halong⟩ := run_alongside_never hwatch
    obtain ⟨lines, hhands⟩ := halong.handsOn (m.watch_silent _ _ _ _ _)
    have hall : source.lines settings.openBackoff start = lines ++ r.coming := hhands.coming
    rw [attend, events_bind_of_none hrun, hevents]
    refine ⟨?_, fun hp => ?_⟩
    · rw [handedLines_append, hhands.lines_eq, handedLines_handCalls, hall, List.map_append]
    · obtain ⟨hdelivered, hclock, hordered⟩ :=
        hhands.timed (source.ordered_lines settings.openBackoff start) hp.left
      change deliveries start _ = _ at hdelivered
      change start + _ = _ at hclock
      rw [deliveries_append, hdelivered, hclock, deliveries_handCalls hordered, hall]
  · rw [hwatch] at hw
    cases hw

end Join

/-! ## What is handed on in a run -/

/-- What a run of an object hands on. -/
structure JoinsLog (m : Manifest) (settings : ItemSettings) (limit : Option Nat) (ctx : Context)
    {σ : Type} (h : Handler Call Answer σ) (s : σ) : Prop where
  /-- Lines are handed on as those of the object. -/
  named : ∀ event ∈ (m.run settings limit ctx).events h s, ∀ job line,
    event.call = .deliver job line → job = m.name
  /-- Unless the object is created, nothing is handed on. -/
  silent : ⟨.create m.ref m.object, .ok ()⟩ ∉ (m.run settings limit ctx).events h s →
    Silent ((m.run settings limit ctx).events h s)
  /-- Else its log is relayed while it is watched, and joined before an outcome is returned. -/
  followed : ⟨.create m.ref m.object, .ok ()⟩ ∈ (m.run settings limit ctx).events h s →
    ∃ (before calls : List TaskEvent) (start : Nat) (source : LogSource),
      (m.run settings limit ctx).events h s =
        before ++ ⟨.now, start⟩ :: ⟨.follow m.ref m.container, source⟩ :: calls ∧
      Silent before ∧ (∀ clock, KeepsTime h clock → Punctual start calls) ∧
      (∀ r, ((m.run settings limit ctx).run h s).1 = some r →
        JoinsRelay settings source start calls) ∧
      (((m.run settings limit ctx).run h s).1 = none → RelaysOn settings source start calls)

section Runs

variable {m : Manifest} {settings : ItemSettings} {limit : Option Nat} {ctx : Context} {σ : Type}
  {h : Handler Call Answer σ} {s t u : σ}

theorem named_of_silent {calls : List TaskEvent} (hsilent : Silent calls) (m : Manifest) :
    ∀ event ∈ calls, ∀ job line, event.call = .deliver job line → job = m.name := by
  intro event he job line hcall
  have hline := hsilent event he
  rw [hcall] at hline
  cases hline

theorem named_follow : ∀ event ∈ (m.follow settings limit ctx).events h t, ∀ job line,
    event.call = .deliver job line → job = m.name := by
  intro event he job line hcall
  have hattends := (m.follow_attends settings limit ctx).events event he
  rw [hcall] at hattends
  cases hattends
  rfl

theorem punctual_follow {clock : σ → Nat} (hk : KeepsTime h clock) {start : Nat} {source : LogSource}
    {calls : List TaskEvent} (hcalls : (m.follow settings limit ctx).events h t =
      ⟨.now, start⟩ :: ⟨.follow m.ref m.container, source⟩ :: calls) : Punctual start calls := by
  have hp := hk.punctual (m.follow settings limit ctx) t
  rw [hcalls] at hp
  have hstart : start = clock t := hp [] start _ rfl
  change Punctual (clock t) ([⟨.now, start⟩, ⟨.follow m.ref m.container, source⟩] ++ calls) at hp
  rw [hstart] at hp ⊢
  exact hp.right

theorem joinsLog_of_submitted (hc : ctx.cancelled (h .now s).1 = false)
    (hx : (m.access h s).1 = .ok ())
    (hsubmit : m.submit.run h (m.access h s).2 = (some (.ok ()), t)) :
    m.JoinsLog settings limit ctx h s := by
  obtain ⟨hrun, hevents⟩ := run_of_submitted settings limit hc hx hsubmit
  have hsilent : Silent (m.opening h s ++ m.submit.events h (m.access h s).2) :=
    (m.opening_silent h s).append (submissionCalls hsubmit).silent
  have hfollowed := followed_attend settings limit m ctx h (h (.follow m.ref m.container) (h .now t).2).1
    (h .now t).1 ((h (.follow m.ref m.container) (h .now t).2).2,
      LogSource.relaying settings.openBackoff (h (.follow m.ref m.container) (h .now t).2).1 (h .now t).1)
  have hresult : ((m.run settings limit ctx).run h s).1 = _ := hrun.trans (congrArg _ hfollowed.result)
  refine ⟨?_, fun hnot => absurd (created_of_submitted settings limit hc hx hsubmit) hnot,
    fun _ => ⟨_, _, (h .now t).1, (h (.follow m.ref m.container) (h .now t).2).1, hevents, hsilent,
      fun clock hk => punctual_follow hk rfl, fun r hr => joinsRelay_attend ?_,
      fun hr => relaysOn_attend ?_⟩⟩
  · rw [hevents]
    exact List.forall_mem_append.2 ⟨named_of_silent hsilent m, named_follow⟩
  · obtain ⟨o, ho, -⟩ := Option.map_eq_some_iff.1 (hresult.symm.trans hr)
    rw [ho]
    rfl
  · exact Option.map_eq_none_iff.1 (hresult.symm.trans hr)

theorem joinsLog_of_silent (hsilent : Silent ((m.run settings limit ctx).events h s))
    (hcreated : ⟨.create m.ref m.object, .ok ()⟩ ∉ (m.run settings limit ctx).events h s) :
    m.JoinsLog settings limit ctx h s :=
  ⟨named_of_silent hsilent m, fun _ => hsilent, fun h => absurd h hcreated⟩

end Runs

theorem joinsLog (m : Manifest) (settings : ItemSettings) (limit : Option Nat) (ctx : Context)
    {σ : Type} (h : Handler Call Answer σ) (s : σ) : m.JoinsLog settings limit ctx h s := by
  rcases m.run_cases ctx h s with hc | ⟨hc, ⟨cause, hx⟩ | ⟨hx, r, t, hsubmit⟩⟩
  · obtain ⟨-, hevents⟩ := run_of_cancelled settings limit hc
    refine joinsLog_of_silent ?_ ?_
    · rw [hevents]
      exact List.forall_mem_singleton.2 rfl
    · rw [hevents, List.mem_singleton]
      nofun
  · obtain ⟨-, hevents⟩ := run_of_unreached settings limit hc hx
    exact joinsLog_of_silent (hevents ▸ (m.opening_silent h s).append (m.dropped_silent _))
      fun he => (quiet_of_unreached settings limit hc hx _ he).creates _ _ rfl
  · cases r with
    | error e =>
      obtain ⟨u, -, hevents⟩ := run_of_unsubmitted settings limit hc hx hsubmit
      obtain ⟨_, hr⟩ := m.exists_removal h u
      refine joinsLog_of_silent (hevents ▸ ?_)
        (not_created_of_unsubmitted settings limit hc hx hsubmit)
      exact (((m.opening_silent h s).append (submissionCalls hsubmit).silent).append
        (m.dropped_silent _)).append hr.silent
    | ok u => exact joinsLog_of_submitted hc hx hsubmit

end Manifest

/-- A relay hands on a first part of its log until it is joined, and runs join their relays. -/
theorem relaying_spec :
    (∀ (b : ClockBackoff) (s : LogSource) (start called grace : Nat),
      RelaySpec b s start called grace (relay b s start (called + grace))) ∧
    ∀ (m : Manifest) (settings : ItemSettings) (limit : Option Nat) (ctx : Context) {σ : Type}
      (h : Handler Call Answer σ) (s : σ), m.JoinsLog settings limit ctx h s :=
  ⟨relay_spec, fun m settings limit ctx _ h s => m.joinsLog settings limit ctx h s⟩

/-! ## A line while the object is watched, and one after -/

/-- A cluster with a clock, on which an object is deleted after 600 ms. Its container starts after the
first attempt to open its log. The lines that are handed on are kept with their times. -/
def ticking : Handler Call Answer (Nat × List (Nat × String))
  | .now, s => (s.1, s)
  | .pause ms, s => ((), s.1 + ms, s.2)
  | .connect _ _, s => (.ok (), s)
  | .invalidate _, s => ((), s)
  | .exists _, s => (.ok false, s)
  | .create _ _, s => (.ok (), s)
  | .delete _, s => (.ok (), s)
  | .watch _, s => (.ok ⟨[(600, .deleted)], none⟩, s)
  | .follow _ _, s =>
    (⟨[.error (.kube none "not started"), .ok ⟨[(10, .line "one"), (90, .line "two")], none⟩],
      .error (.kube none "gone"), fun _ => some 20, fun _ => 1.0, fun _ => true, fun _ => true⟩, s)
  | .tail _ _ _, s => (.ok "", s)
  | .deliver _ line, s => ((), s.1, s.2 ++ [(s.1, line)])
  | .publish _, s => (.ok (), s)

theorem keepsTime_ticking : KeepsTime ticking Prod.fst where
  shows _ := rfl
  passes c s := by cases c <;> rfl

theorem relaying_of_etl :
    Manifest.etl.JoinsLog ⟨100, 50, .standard⟩ none ⟨none, fun _ => true⟩ ticking (0, []) ∧
      KeepsTime ticking Prod.fst ∧
      (Manifest.etl.run ⟨100, 50, .standard⟩ none ⟨none, fun _ => true⟩).run ticking (0, []) =
        (some (.ok ⟨.failure, some "job etl-7 was deleted"⟩), 650, [(550, "one"), (640, "two")]) := by
  refine ⟨relaying_spec.2 .etl _ _ _ _ _, keepsTime_ticking, ?_⟩
  decide +kernel

end ClusterJobs
