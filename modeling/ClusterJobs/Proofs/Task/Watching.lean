import Mathlib.Algebra.BigOperators.Group.Finset.Basic
import Mathlib.Order.Bounds.Basic
import ClusterJobs.Proofs.Task.Submission
import ClusterJobs.Simulation.World

/-!
# The outcome of a watch

A watch is settled by the first arrival on its stream that decides, if that comes within the limit.
Whatever was seen, a run that is cancelled when the wait ends is killed. A stream may go on forever:
the watch behaves as it does on any part of the stream that is long enough.
-/

namespace ClusterJobs

open Program

/-! ## Streams -/

/-- What a stream has at one of its places, and how long after the place before it. -/
inductive Arrival (α : Type) where
  | item (after : Nat) (a : α)
  | ended (after : Nat)
  /-- Nothing comes any more, and the stream stays open. -/
  | silence

def Arrival.after {α : Type} : Arrival α → Nat
  | item n _ | ended n => n
  | silence => 0

/-- A stream that may go on forever. The places behind its end or its silence are not seen. -/
abbrev Arrivals (α : Type) := Nat → Arrival α

namespace Arrivals

variable {α : Type}

def rest (f : Arrivals α) : Arrivals α :=
  fun k => f (k + 1)

/-- The time at which the item of a place comes. -/
def time (f : Arrivals α) (start k : Nat) : Nat :=
  start + ∑ i ∈ Finset.range (k + 1), (f i).after

/-- The first places of a stream, as if it were silent from there on. -/
def upTo : Arrivals α → Nat → TimedStream α
  | _, 0 => ⟨[], none⟩
  | f, n + 1 =>
    match f 0 with
    | .item after a => ⟨(after, a) :: (f.rest.upTo n).items, (f.rest.upTo n).ends⟩
    | .ended after => ⟨[], some after⟩
    | .silence => ⟨[], none⟩

theorem time_zero (f : Arrivals α) (start : Nat) : f.time start 0 = start + (f 0).after := by
  simp [time]

theorem time_succ (f : Arrivals α) (start k : Nat) :
    f.time start (k + 1) = f.rest.time (start + (f 0).after) k := by
  unfold time
  rw [Finset.sum_range_succ' _ (k + 1)]
  simp only [rest]
  omega

end Arrivals

/-- A stream with items that have all been written down. -/
def TimedStream.arrivals {α : Type} (s : TimedStream α) : Arrivals α := fun k =>
  match s.items[k]? with
  | some (after, a) => .item after a
  | none => s.ends.elim .silence .ended

/-- Every stream that can be answered with is part of a general one. -/
theorem TimedStream.upTo_arrivals {α : Type} (s : TimedStream α) {n : Nat}
    (hn : s.items.length < n) : s.arrivals.upTo n = s := by
  obtain ⟨items, ends⟩ := s
  induction items generalizing n with
  | nil =>
    obtain ⟨n, rfl⟩ := Nat.exists_eq_succ_of_ne_zero (Nat.ne_of_gt hn)
    cases ends <;> rfl
  | cons p items ih =>
    obtain ⟨n, rfl⟩ := Nat.exists_eq_succ_of_ne_zero (Nat.ne_of_gt (Nat.zero_lt_of_lt hn))
    have hrest : (TimedStream.mk (p :: items) ends).arrivals.rest =
        (TimedStream.mk items ends).arrivals := rfl
    simp only [Arrivals.upTo, hrest, ih (Nat.lt_of_succ_lt_succ hn)]
    rfl

namespace Manifest

variable (m : Manifest)

/-! ## The first decision -/

inductive Decides : Arrival WatchEvent → Observed → Prop where
  | succeeded {after : Nat} {object : Json.Value} : m.kind.phaseOf object = .succeeded →
      Decides (.item after (.applied object)) .succeeded
  | failed {after : Nat} {object : Json.Value} : m.kind.phaseOf object = .failed →
      Decides (.item after (.applied object)) (.failed ("job " ++ m.name ++ " failed"))
  | deleted (after : Nat) :
      Decides (.item after .deleted) (.failed ("job " ++ m.name ++ " was deleted"))
  | broken (after : Nat) (message : String) :
      Decides (.item after (.failed message)) (.failed ("watch failed: " ++ message))
  | ended (after : Nat) : Decides (.ended after) (.failed "watch stream closed")

/-- The arrival shows that the object is running. -/
def Passes (x : Arrival WatchEvent) : Prop :=
  ∃ after object, x = .item after (.applied object) ∧ m.kind.phaseOf object = .running

/-- At this place stands the first arrival that decides. -/
structure DecidesAt (f : Arrivals WatchEvent) (k : Nat) (seen : Observed) : Prop where
  decides : m.Decides (f k) seen
  passes : ∀ i < k, m.Passes (f i)

/-- What decides the fate of an object that is watched from the time `start` on, and when. -/
inductive Decision (start : Nat) :
    Except Fault (Arrivals WatchEvent) → Nat → Observed → Prop where
  | unwatched (e : Fault) :
      Decision start (.error e) start (.failed ("failed to start watch: " ++ e.message))
  | arrival {f : Arrivals WatchEvent} {k : Nat} {seen : Observed} : m.DecidesAt f k seen →
      Decision start (.ok f) (f.time start k) seen

section Decides

variable {m} {f : Arrivals WatchEvent} {k k' n start t t' : Nat} {seen seen' : Observed}
  {x : Arrival WatchEvent} {answer : Except Fault (Arrivals WatchEvent)}

theorem Decides.unique (h : m.Decides x seen) (h' : m.Decides x seen') : seen = seen' := by
  cases h <;> cases h' <;> simp_all

theorem Decides.not_passes (h : m.Decides x seen) : ¬ m.Passes x := by
  rintro ⟨after, object, rfl, hrunning⟩
  cases h <;> simp_all

theorem DecidesAt.unique (h : m.DecidesAt f k seen) (h' : m.DecidesAt f k' seen') :
    k = k' ∧ seen = seen' := by
  have hk : k = k' := by
    rcases Nat.lt_trichotomy k k' with hlt | heq | hlt
    · exact absurd (h'.passes k hlt) h.decides.not_passes
    · exact heq
    · exact absurd (h.passes k' hlt) h'.decides.not_passes
  subst hk
  exact ⟨rfl, h.decides.unique h'.decides⟩

theorem Decision.unique (h : m.Decision start answer t seen)
    (h' : m.Decision start answer t' seen') : t = t' ∧ seen = seen' := by
  cases h with
  | unwatched e =>
    cases h'
    exact ⟨rfl, rfl⟩
  | arrival h =>
    cases h' with
    | arrival h' =>
      obtain ⟨rfl, rfl⟩ := h.unique h'
      exact ⟨rfl, rfl⟩

theorem decidesAt_zero_iff : m.DecidesAt f 0 seen ↔ m.Decides (f 0) seen :=
  ⟨fun h => h.decides, fun h => ⟨h, nofun⟩⟩

theorem decidesAt_succ_iff :
    m.DecidesAt f (k + 1) seen ↔ m.Passes (f 0) ∧ m.DecidesAt f.rest k seen := by
  constructor
  · intro h
    exact ⟨h.passes 0 k.succ_pos, h.decides, fun i hi => h.passes (i + 1) (Nat.succ_lt_succ hi)⟩
  · rintro ⟨hzero, h⟩
    refine ⟨h.decides, fun i hi => ?_⟩
    cases i with
    | zero => exact hzero
    | succ i => exact h.passes i (Nat.lt_of_succ_lt_succ hi)

theorem verdict?_eq_some_iff {event : WatchEvent} (after : Nat) :
    m.verdict? event = some seen ↔ m.Decides (.item after event) seen := by
  constructor
  · intro h
    cases event with
    | applied object =>
      simp only [verdict?] at h
      split at h <;> cases h
      · exact .succeeded ‹_›
      · exact .failed ‹_›
    | deleted =>
      cases h
      exact .deleted after
    | failed message =>
      cases h
      exact .broken after message
  · intro h
    cases h <;> simp_all [verdict?]

theorem verdict?_eq_none_iff {event : WatchEvent} (after : Nat) :
    m.verdict? event = none ↔ m.Passes (.item after event) := by
  constructor
  · intro h
    cases event with
    | applied object =>
      simp only [verdict?] at h
      split at h <;> cases h
      exact ⟨after, object, rfl, ‹_›⟩
    | deleted => cases h
    | failed message => cases h
  · rintro ⟨_, object, hitem, hrunning⟩
    cases hitem
    simp [verdict?, hrunning]

theorem decided?_upTo :
    m.decided? (f.upTo n).ends (f.upTo n).items start = some (t, seen) ↔
      ∃ k < n, m.DecidesAt f k seen ∧ t = f.time start k := by
  -- What comes after the first arrival is a stream of its own, which begins later.
  induction n generalizing f start with
  | zero => simp [Arrivals.upTo, decided?]
  | succ n ih =>
    rw [Nat.exists_lt_succ_left, decidesAt_zero_iff, Arrivals.time_zero]
    simp only [decidesAt_succ_iff, Arrivals.time_succ]
    cases hzero : f 0 with
    | item after event =>
      simp only [Arrivals.upTo, hzero, decided?]
      cases hverdict : m.verdict? event with
      | some verdict =>
        have hdecides := (verdict?_eq_some_iff after).1 hverdict
        have hnot := hdecides.not_passes
        constructor
        · rintro ⟨⟩
          exact .inl ⟨hdecides, rfl⟩
        · rintro (⟨hseen, rfl⟩ | ⟨_, _, ⟨hpasses, -⟩, -⟩)
          · rw [hdecides.unique hseen]
            rfl
          · exact absurd hpasses hnot
      | none =>
        have hpasses := (verdict?_eq_none_iff after).1 hverdict
        have hnot : ¬ m.Decides (.item after event) seen := fun h => h.not_passes hpasses
        simpa [hpasses, hnot, Arrival.after] using ih
    | ended after =>
      have hnot : ¬ m.Passes (.ended after) := (Decides.ended after).not_passes
      simp only [Arrivals.upTo, hzero, decided?, hnot]
      constructor
      · rintro ⟨⟩
        exact .inl ⟨.ended after, rfl⟩
      · rintro (⟨⟨⟩, rfl⟩ | ⟨_, _, ⟨⟨⟩, -⟩, -⟩)
        rfl
    | silence =>
      have hnot : ¬ m.Passes .silence := by
        rintro ⟨_, _, ⟨⟩, -⟩
      have hsilent : ¬ m.Decides .silence seen := nofun
      simp [Arrivals.upTo, hzero, decided?, hnot, hsilent]

def decidedBy (m : Manifest) (start : Nat) :
    Except Fault (TimedStream WatchEvent) → Option (Nat × Observed)
  | .ok stream => m.decided? stream.ends stream.items start
  | .error e => some (start, .failed ("failed to start watch: " ++ e.message))

theorem decision_ok_iff :
    m.Decision start (.ok f) t seen ↔ ∃ k, m.DecidesAt f k seen ∧ t = f.time start k := by
  constructor
  · intro h
    cases h with
    | arrival hk => exact ⟨_, hk, rfl⟩
  · rintro ⟨k, hk, rfl⟩
    exact .arrival hk

theorem exists_decidesAt_lt (m : Manifest) (f : Arrivals WatchEvent) :
    ∃ n, ∀ k seen, m.DecidesAt f k seen → k < n := by
  by_cases hsome : ∃ k seen, m.DecidesAt f k seen
  · obtain ⟨k, seen, hk⟩ := hsome
    refine ⟨k + 1, fun k' seen' hk' => ?_⟩
    rw [(hk'.unique hk).1]
    exact k.lt_succ_self
  · exact ⟨0, fun k seen hk => absurd ⟨k, seen, hk⟩ hsome⟩

/-- On a part of a stream that is long enough the decision is that of the whole stream. -/
theorem exists_decidedBy (m : Manifest) (answer : Except Fault (Arrivals WatchEvent)) :
    ∃ least, ∀ n, least ≤ n → ∀ start t seen,
      m.decidedBy start (answer.map (·.upTo n)) = some (t, seen) ↔
        m.Decision start answer t seen := by
  cases answer with
  | error e =>
    refine ⟨0, fun n _ start t seen => ?_⟩
    constructor
    · rintro ⟨⟩
      exact .unwatched e
    · rintro ⟨⟩
      rfl
  | ok f =>
    obtain ⟨least, hleast⟩ := m.exists_decidesAt_lt f
    refine ⟨least, fun n hn start t seen => ?_⟩
    have hread : m.decidedBy start ((Except.ok f).map (·.upTo n)) = some (t, seen) ↔
        ∃ k < n, m.DecidesAt f k seen ∧ t = f.time start k := decided?_upTo
    rw [hread, decision_ok_iff]
    constructor
    · rintro ⟨k, -, hk⟩
      exact ⟨k, hk⟩
    · rintro ⟨k, hk, rfl⟩
      exact ⟨k, (hleast k seen hk).trans_le hn, hk, rfl⟩

end Decides

/-! ## The end of a wait -/

/-- What may end a wait that begins at the time `start`, and when. -/
inductive EndsWait (start : Nat) (answer : Except Fault (Arrivals WatchEvent)) (limit : Option Nat)
    (ctx : Context) : Nat → Prop where
  | decided {t : Nat} {seen : Observed} : m.Decision start answer t seen →
      EndsWait start answer limit ctx t
  | fired {f : Nat} : ctx.firesAt = some f → EndsWait start answer limit ctx (max f start)
  | timedOut {l : Nat} : limit = some l → EndsWait start answer limit ctx (start + l)

end Manifest

section Wait

variable {α : Type} {a b : Option (Nat × α)} {x y : Nat × α}

theorem earlier_eq_none_iff : earlier a b = none ↔ a = none ∧ b = none := by
  cases a <;> cases b <;> simp [earlier]

theorem earlier_eq_some (h : earlier a b = some x) :
    a = some x ∨ b = some x ∧ ∀ y, a = some y → x.1 < y.1 := by
  cases a with
  | none =>
    cases b with
    | none => cases h
    | some b => exact .inr ⟨h, nofun⟩
  | some a =>
    cases b with
    | none => exact .inl h
    | some b =>
      simp only [earlier, Option.some.injEq] at h
      split at h
      · exact .inl (congrArg some h)
      · refine .inr ⟨congrArg some h, fun y hy => ?_⟩
        cases hy
        subst h
        omega

theorem exists_earlier_le (h : a = some y ∨ b = some y) :
    ∃ x, earlier a b = some x ∧ x.1 ≤ y.1 := by
  cases a with
  | none => exact ⟨y, by simpa [earlier] using h, le_rfl⟩
  | some a =>
    cases b with
    | none => exact ⟨y, by simpa [earlier] using h, le_rfl⟩
    | some b =>
      refine ⟨_, rfl, ?_⟩
      rcases h with h | h <;> cases h <;> split <;> omega

theorem le_of_earlier (h : earlier a b = some x) (hy : a = some y ∨ b = some y) : x.1 ≤ y.1 := by
  obtain ⟨x', hx', hle⟩ := exists_earlier_le hy
  cases h.symm.trans hx'
  exact hle

end Wait

section WaitEnd

variable {m : Manifest} {answer : Except Fault (Arrivals WatchEvent)} {ctx : Context}
  {decided : Option (Nat × Observed)} {start ended : Nat} {limit : Option Nat} {seen : Observed}

theorem waitEnd_eq_none_iff
    (hd : ∀ t seen, decided = some (t, seen) ↔ m.Decision start answer t seen) :
    waitEnd ctx decided start limit = none ↔ ∀ t, ¬ m.EndsWait start answer limit ctx t := by
  simp only [waitEnd, earlier_eq_none_iff, Option.map_eq_none_iff, and_assoc]
  constructor
  · rintro ⟨hnone, htoken, hlimit⟩ t ht
    cases ht with
    | decided h => cases hnone ▸ (hd _ _).2 h
    | fired h => cases htoken ▸ h
    | timedOut h => cases hlimit ▸ h
  · intro hnot
    refine ⟨?_, ?_, ?_⟩ <;> rw [Option.eq_none_iff_forall_ne_some]
    · exact fun p hsome => hnot p.1 (.decided ((hd p.1 p.2).1 hsome))
    · exact fun f hsome => hnot _ (.fired hsome)
    · exact fun l hsome => hnot _ (.timedOut hsome)

theorem isLeast_of_waitEnd
    (hd : ∀ t seen, decided = some (t, seen) ↔ m.Decision start answer t seen)
    (h : waitEnd ctx decided start limit = some (ended, seen)) :
    IsLeast {t | m.EndsWait start answer limit ctx t} ended := by
  unfold waitEnd at h
  constructor
  · rcases earlier_eq_some h with hfirst | ⟨hover, -⟩
    · rcases earlier_eq_some hfirst with hdecided | ⟨htoken, -⟩
      · exact .decided ((hd _ _).1 hdecided)
      · obtain ⟨f, hf, hpair⟩ := Option.map_eq_some_iff.1 htoken
        obtain ⟨rfl, -⟩ := Prod.mk.inj hpair
        exact .fired hf
    · obtain ⟨l, hl, hpair⟩ := Option.map_eq_some_iff.1 hover
      obtain ⟨rfl, -⟩ := Prod.mk.inj hpair
      exact .timedOut hl
  · rintro t (⟨ht⟩ | ⟨hf⟩ | ⟨hl⟩)
    · obtain ⟨x, hx, hxt⟩ := exists_earlier_le (.inl ((hd _ _).2 ht))
      exact (le_of_earlier h (.inl hx)).trans hxt
    · obtain ⟨x, hx, hxt⟩ := exists_earlier_le (.inr (Option.map_eq_some_iff.2 ⟨_, hf, rfl⟩))
      exact (le_of_earlier h (.inl hx)).trans hxt
    · exact le_of_earlier h (.inr (Option.map_eq_some_iff.2 ⟨_, hl, rfl⟩))

/-- What a wait reports if the token has not fired: the decision, or that there was none in time. -/
theorem seen_of_waitEnd
    (hd : ∀ t seen, decided = some (t, seen) ↔ m.Decision start answer t seen)
    (h : waitEnd ctx decided start limit = some (ended, seen)) (hfired : ctx.fired ended = false) :
    m.Decision start answer ended seen ∨ ∃ l, limit = some l ∧
      seen = .failed ("timed out after " ++ toString (l / 1000) ++ "s") ∧
      ∀ t seen, m.Decision start answer t seen → start + l < t := by
  unfold waitEnd at h
  rcases earlier_eq_some h with hfirst | ⟨hover, hbefore⟩
  · rcases earlier_eq_some hfirst with hdecided | ⟨htoken, -⟩
    · exact .inl ((hd _ _).1 hdecided)
    · obtain ⟨f, hf, hpair⟩ := Option.map_eq_some_iff.1 htoken
      obtain ⟨rfl, -⟩ := Prod.mk.inj hpair
      simp [Context.fired, hf] at hfired
  · obtain ⟨l, hl, hpair⟩ := Option.map_eq_some_iff.1 hover
    obtain ⟨rfl, rfl⟩ := Prod.mk.inj hpair
    refine .inr ⟨l, hl, rfl, fun t seen ht => ?_⟩
    obtain ⟨x, hx, hxt⟩ := exists_earlier_le (.inl ((hd t seen).2 ht))
    exact (hbefore x hx).trans_le hxt

end WaitEnd

/-! ## The outcome -/

namespace Manifest

variable (m : Manifest)

inductive Reason (start : Nat) (answer : Except Fault (Arrivals WatchEvent)) (limit : Option Nat) :
    String → Prop where
  | decided {t : Nat} {reason : String} : m.Decision start answer t (.failed reason) →
      (∀ l, limit = some l → t ≤ start + l) → Reason start answer limit reason
  | timedOut {l : Nat} : limit = some l →
      (∀ t seen, m.Decision start answer t seen → start + l < t) →
      Reason start answer limit ("timed out after " ++ toString (l / 1000) ++ "s")

/-- The outcome of a wait that ended at the time `ended`, and the calls that were made after it. -/
structure Settles (start : Nat) (answer : Except Fault (Arrivals WatchEvent)) (limit : Option Nat)
    (ctx : Context) (tailLines : Int) (ended : Nat) (o : Outcome) (after : List TaskEvent) :
    Prop where
  killed : ctx.cancelled ended = true → o = ⟨.killed, none⟩ ∧ after = []
  /-- It succeeds if and only if the first decision is a success and comes in time. -/
  succeeds_iff : ctx.cancelled ended = false → (o = ⟨.success, none⟩ ↔
    ∃ t, m.Decision start answer t .succeeded ∧ ∀ l, limit = some l → t ≤ start + l)
  succeeds : o = ⟨.success, none⟩ → after = []
  /-- Else it fails, with the reason and the end of the log if that says anything. -/
  fails : ctx.cancelled ended = false → o ≠ ⟨.success, none⟩ → ∃ reason message, ∃ x,
    m.Reason start answer limit reason ∧ o = ⟨.failure, some message⟩ ∧
      after = [⟨.tail m.ref m.container tailLines, x⟩] ∧
      (∀ log, x = .ok log → Text.isBlankText log = false → message = reason ++ "\n" ++ log) ∧
      ((∀ log, x = .ok log → Text.isBlankText log = true) → message = reason)

/-- What comes of a watch that begins at the time `start` and has such a stream. -/
structure WatchingSpec {σ : Type} (start : Nat) (answer : Except Fault (Arrivals WatchEvent))
    (h : Handler Call Answer σ) (s : σ) (tailLines : Int) (limit : Option Nat) (ctx : Context) :
    Prop where
  /-- If nothing ends the wait, it goes on forever. -/
  forever : (∀ t, ¬ m.EndsWait start answer limit ctx t) →
    ((m.watch tailLines limit ctx).run h s).1 = none ∧
      ((m.watch tailLines limit ctx).events h s).map Event.call = [.now, .watch m.ref]
  /-- Else it ends as soon as anything ends it, and is settled. -/
  settled : ∀ ended, IsLeast {t | m.EndsWait start answer limit ctx t} ended →
    ∃ o stream after, ((m.watch tailLines limit ctx).run h s).1 = some o ∧
      (m.watch tailLines limit ctx).events h s = ⟨.now, start⟩ ::
        ⟨.watch m.ref, stream⟩ :: ⟨.pause (ended - start), ()⟩ :: after ∧
      m.Settles start answer limit ctx tailLines ended o after

/-- What a watch does once it knows what it has seen. -/
def report (tailLines : Int) (ctx : Context) (ended : Nat) (seen : Observed) :
    TaskProgram Outcome :=
  if ctx.cancelled ended then .done .killed
  else
    match seen with
    | .succeeded => .done .success
    | .failed reason => .ask (.tail m.ref m.container tailLines) fun log =>
      .done (.failure (failureMessage reason log))

/-- What is left of a watch when its wait begins. -/
def settle (tailLines : Int) (ctx : Context) (start : Nat) :
    Option (Nat × Observed) → TaskProgram Outcome
  | none => .never
  | some (ended, seen) =>
    .ask (.pause (ended - start)) fun _ => m.report tailLines ctx ended seen

theorem watch_eq (tailLines : Int) (limit : Option Nat) (ctx : Context) :
    m.watch tailLines limit ctx = .ask .now fun (start : Nat) => .ask (.watch m.ref) fun x =>
      m.settle tailLines ctx start (waitEnd ctx (m.decidedBy start x) start limit) := by
  unfold watch
  refine congrArg _ (funext fun start => congrArg _ (funext fun x => ?_))
  cases x <;> rfl

section Settle

variable {m} {σ : Type} {answer : Except Fault (Arrivals WatchEvent)} {ctx : Context}
  {decided : Option (Nat × Observed)} {start ended : Nat} {limit : Option Nat} {seen : Observed}
  {tailLines : Int} {reason : String} {h : Handler Call Answer σ} {s : σ}

theorem run_watch (hend : waitEnd ctx (m.decidedBy (h .now s).1 (h (.watch m.ref) (h .now s).2).1)
    (h .now s).1 limit = decided) :
    (m.watch tailLines limit ctx).run h s =
      (m.settle tailLines ctx (h .now s).1 decided).run h (h (.watch m.ref) (h .now s).2).2 := by
  subst hend
  rw [watch_eq]
  rfl

theorem events_watch
    (hend : waitEnd ctx (m.decidedBy (h .now s).1 (h (.watch m.ref) (h .now s).2).1)
      (h .now s).1 limit = decided) :
    (m.watch tailLines limit ctx).events h s =
      ⟨.now, (h .now s).1⟩ :: ⟨.watch m.ref, (h (.watch m.ref) (h .now s).2).1⟩ ::
        (m.settle tailLines ctx (h .now s).1 decided).events h
          (h (.watch m.ref) (h .now s).2).2 := by
  subst hend
  rw [watch_eq]
  rfl

theorem settles_killed (hc : ctx.cancelled ended = true) :
    m.Settles start answer limit ctx tailLines ended .killed [] where
  killed := fun _ => ⟨rfl, rfl⟩
  succeeds_iff := fun hc' => absurd (hc.symm.trans hc') nofun
  succeeds := fun _ => rfl
  fails := fun hc' => absurd (hc.symm.trans hc') nofun

theorem settles_success (hc : ctx.cancelled ended = false)
    (hd : m.Decision start answer ended .succeeded)
    (hle : ∀ l, limit = some l → ended ≤ start + l) :
    m.Settles start answer limit ctx tailLines ended .success [] where
  killed := fun hc' => absurd (hc.symm.trans hc') nofun
  succeeds_iff := fun _ => ⟨fun _ => ⟨ended, hd, hle⟩, fun _ => rfl⟩
  succeeds := fun _ => rfl
  fails := fun _ hne => absurd rfl hne

theorem Reason.not_succeeds (hr : m.Reason start answer limit reason) :
    ¬ ∃ t, m.Decision start answer t .succeeded ∧ ∀ l, limit = some l → t ≤ start + l := by
  rintro ⟨t, hd, hle⟩
  cases hr with
  | decided hd' _ => cases (hd.unique hd').2
  | timedOut hl hlate => exact absurd (hle _ hl) (Nat.not_le_of_lt (hlate t _ hd))

theorem settles_failure (hc : ctx.cancelled ended = false)
    (hr : m.Reason start answer limit reason) (x : Except Fault String) :
    m.Settles start answer limit ctx tailLines ended (.failure (failureMessage reason x))
      [⟨.tail m.ref m.container tailLines, x⟩] where
  killed := fun hc' => absurd (hc.symm.trans hc') nofun
  succeeds_iff := fun _ => iff_of_false nofun hr.not_succeeds
  succeeds := nofun
  fails := by
    refine fun _ _ => ⟨reason, _, x, hr, rfl, rfl, ?_, ?_⟩
    · rintro log rfl hlog
      simp [failureMessage, hlog]
    · intro hblank
      cases x with
      | error e => rfl
      | ok log => simp [failureMessage, hblank log rfl]

theorem exists_settles (hd : ∀ t seen, decided = some (t, seen) ↔ m.Decision start answer t seen)
    (hend : waitEnd ctx decided start limit = some (ended, seen)) (h : Handler Call Answer σ)
    (s : σ) :
    ∃ o, ((m.report tailLines ctx ended seen).run h s).1 = some o ∧
      m.Settles start answer limit ctx tailLines ended o
        ((m.report tailLines ctx ended seen).events h s) := by
  cases hc : ctx.cancelled ended with
  | true =>
    simp only [report, hc, if_true]
    exact ⟨.killed, rfl, settles_killed hc⟩
  | false =>
    simp only [report, hc, Bool.false_eq_true, if_false]
    -- The token is not what has ended the wait, since it would have fired by then.
    have hfired : ctx.fired ended = false := (Bool.or_eq_false_iff.1 hc).1
    have hle : ∀ l, limit = some l → ended ≤ start + l :=
      fun l hl => (isLeast_of_waitEnd hd hend).2 (.timedOut hl)
    have hseen := seen_of_waitEnd hd hend hfired
    cases seen with
    | succeeded =>
      rcases hseen with hdecision | ⟨_, _, ⟨⟩, _⟩
      exact ⟨.success, rfl, settles_success hc hdecision hle⟩
    | failed reason =>
      have hr : m.Reason start answer limit reason := by
        rcases hseen with hdecision | ⟨l, hl, hreason, hlate⟩
        · exact .decided hdecision hle
        · cases hreason
          exact .timedOut hl hlate
      exact ⟨_, rfl, settles_failure hc hr _⟩

/-- The stream may go on forever: any part of it that is long enough will do. -/
theorem watching_spec (m : Manifest) (answer : Except Fault (Arrivals WatchEvent)) :
    ∃ least, ∀ n, least ≤ n → ∀ {σ : Type} (h : Handler Call Answer σ) (s : σ) (tailLines : Int)
      (limit : Option Nat) (ctx : Context),
      (h (.watch m.ref) (h .now s).2).1 = answer.map (·.upTo n) →
        m.WatchingSpec (h .now s).1 answer h s tailLines limit ctx := by
  obtain ⟨least, hleast⟩ := exists_decidedBy m answer
  refine ⟨least, fun n hn σ h s tailLines limit ctx hanswer => ?_⟩
  have hd := hleast n hn (h .now s).1
  rw [← hanswer] at hd
  cases hend : waitEnd ctx (m.decidedBy (h .now s).1 (h (.watch m.ref) (h .now s).2).1)
    (h .now s).1 limit with
  | none =>
    have hnone := (waitEnd_eq_none_iff hd).1 hend
    refine ⟨fun _ => ?_, fun ended hends => absurd hends.1 (hnone ended)⟩
    rw [run_watch hend, events_watch hend]
    exact ⟨rfl, rfl⟩
  | some p =>
    obtain ⟨ended, seen⟩ := p
    have hends := isLeast_of_waitEnd hd hend
    refine ⟨fun hnone => absurd hends.1 (hnone ended), fun ended' hends' => ?_⟩
    obtain rfl := hends.unique hends'
    rw [run_watch hend, events_watch hend]
    obtain ⟨o, hrun, hsettles⟩ := exists_settles hd hend h _
    exact ⟨o, _, _, hrun, rfl, hsettles⟩

end Settle

end Manifest

/-! ## A job that completes -/

/-- A job is reported without end: as running at first, and as completed later on. -/
def Arrivals.etl : Arrivals WatchEvent
  | 0 => .item 0 (.applied .null)
  | _ => .item 1500 (.applied (.obj [("status", .obj [("state", .obj [("phase",
      .str "Completed")])])]))

/-- A cluster that shows the first of these reports. -/
def Simulation.World.etl (n : Nat) : Timed Simulation.World :=
  ⟨0, .ofScript { WorldScript.quiet with
    jobs := [("etl-7", { JobScript.quiet with watch := .ok (Arrivals.etl.upTo n) })] }⟩

theorem Manifest.watching_of_etl :
    (∃ least, ∀ n, least ≤ n → Manifest.etl.WatchingSpec 0 (.ok .etl) Simulation.World.handler
      (Simulation.World.etl n) 100 (some 60000) ⟨none, fun _ => true⟩) ∧
    ((Manifest.etl.watch 100 (some 60000) ⟨none, fun _ => true⟩).run Simulation.World.handler
      (Simulation.World.etl 2)).1 = some .success := by
  constructor
  · obtain ⟨least, hspec⟩ := watching_spec .etl (.ok .etl)
    refine ⟨least, fun n hn => ?_⟩
    exact hspec n hn Simulation.World.handler (Simulation.World.etl n) _ _ _ rfl
  · rfl

end ClusterJobs
