import Mathlib
import ClusterJobs.Proofs.Cluster.Reports
import ClusterJobs.Proofs.Task.Watching

/-!
# Objects that are gone

A watch hears of its object through the notices of a watcher. The marks of a listing are no events, so
a listing that shows no object says nothing, and whoever waits goes on waiting. A watcher lists again
only after it has reported a failure, which has ended the wait: the first listing is the one that can
miss an object that is gone.
-/

namespace ClusterJobs

/-! ## Notices on the way to a watch -/

/-- The events among notices, each with the time since the event before it. The time that a mark of a
listing takes counts for the next event. -/
def Notice.events : Nat → List (Nat × Notice) → List (Nat × WatchEvent)
  | _, [] => []
  | waited, (after, n) :: rest =>
    match n.event? with
    | some event => (waited + after, event) :: events 0 rest
    | none => events (waited + after) rest

namespace Manifest

/-- What a notice says about the fate of the object; nothing while it runs. -/
def judges? (m : Manifest) (n : Notice) : Option Observed :=
  n.event?.bind m.verdict?

/-- What a wait that begins at the time `start` has come to when all of these notices have come, and
when it came to that. -/
def settled? (m : Manifest) (start : Nat) (ns : List (Nat × Notice)) : Option (Nat × Observed) :=
  m.decided? none (Notice.events 0 ns) start

section Settled

variable {m : Manifest} {start after waited t : Nat} {n : Notice} {ns later : List (Nat × Notice)}
  {seen : Observed}

@[simp]
theorem judges?_began : m.judges? .began = none := rfl

@[simp]
theorem judges?_ended : m.judges? .ended = none := rfl

@[simp]
theorem judges?_removed (o : ClusterObject) :
    m.judges? (.removed o) = some (.failed ("job " ++ m.name ++ " was deleted")) := rfl

@[simp]
theorem judges?_broken (message : String) :
    m.judges? (.broken message) = some (.failed ("watch failed: " ++ message)) := rfl

/-- Time that passed before the first notice passed before the wait, as far as its end goes. -/
theorem decided?_events_add (k : Nat) :
    m.decided? none (Notice.events (waited + k) ns) start =
      m.decided? none (Notice.events waited ns) (start + k) := by
  induction ns generalizing waited with
  | nil => rfl
  | cons p rest ih =>
    obtain ⟨after, n⟩ := p
    have hswap : waited + k + after = waited + after + k := by omega
    cases hn : n.event? with
    | none => simp only [Notice.events, hn, hswap, ih]
    | some event =>
      have hsum : start + (waited + k + after) = start + k + (waited + after) := by omega
      simp only [Notice.events, hn, decided?, hsum]

@[simp]
theorem settled?_nil : m.settled? start [] = none := rfl

theorem settled?_cons :
    m.settled? start ((after, n) :: ns) =
      match m.judges? n with
      | some seen => some (start + after, seen)
      | none => m.settled? (start + after) ns := by
  cases hn : n.event? with
  | none => simp [settled?, Notice.events, judges?, hn, ← decided?_events_add]
  | some event =>
    cases hv : m.verdict? event <;>
      simp [settled?, Notice.events, judges?, decided?, hn, hv]

/-- A wait goes on as long as no notice decides. -/
theorem settled?_eq_none_iff : m.settled? start ns = none ↔ ∀ p ∈ ns, m.judges? p.2 = none := by
  induction ns generalizing start with
  | nil => simp
  | cons p rest ih =>
    obtain ⟨after, n⟩ := p
    rw [settled?_cons]
    cases hn : m.judges? n <;> simp [hn, ih]

/-- What a wait comes to is said by one of the notices. -/
theorem exists_judges_of_settled? (h : m.settled? start ns = some (t, seen)) :
    ∃ p ∈ ns, m.judges? p.2 = some seen := by
  induction ns generalizing start with
  | nil => simp at h
  | cons p rest ih =>
    obtain ⟨after, n⟩ := p
    rw [settled?_cons] at h
    cases hn : m.judges? n with
    | none =>
      obtain ⟨q, hq, hseen⟩ := ih (by simpa [hn] using h)
      exact ⟨q, .tail _ hq, hseen⟩
    | some first =>
      simp only [hn, Option.some.injEq, Prod.mk.injEq] at h
      exact ⟨_, .head _, h.2 ▸ hn⟩

/-- Notices that decide nothing add nothing. -/
theorem settled?_append_of_silent (h : ∀ p ∈ later, m.judges? p.2 = none) :
    m.settled? start (ns ++ later) = m.settled? start ns := by
  induction ns generalizing start with
  | nil => exact settled?_eq_none_iff.2 h
  | cons p rest ih =>
    obtain ⟨after, n⟩ := p
    rw [List.cons_append, settled?_cons, settled?_cons]
    cases m.judges? n with
    | some seen => rfl
    | none => exact ih

/-- The first notice that decides ends the wait. -/
theorem exists_settled?_snoc (h : m.settled? start ns = none) (hn : m.judges? n = some seen) :
    ∃ t, m.settled? start (ns ++ [(after, n)]) = some (t, seen) := by
  induction ns generalizing start with
  | nil => exact ⟨start + after, by simp [settled?_cons, hn]⟩
  | cons p rest ih =>
    obtain ⟨other, first⟩ := p
    rw [settled?_cons] at h
    cases hf : m.judges? first with
    | some seen => simp [hf] at h
    | none =>
      have hrest : m.settled? (start + other) rest = none := by simpa [hf] using h
      obtain ⟨t, ht⟩ := ih hrest
      exact ⟨t, by simpa [settled?_cons, hf] using ht⟩

end Settled

end Manifest

/-! ## The wait for an object that is gone -/

namespace Manifest

open Program

/-- What becomes of the wait for an object that is gone. -/
structure VanishingSpec (m : Manifest) : Prop where
  /-- Without a limit or a token a wait goes on as long as no notice has decided. -/
  waits : ∀ {σ : Type} (h : Handler Call Answer σ) (s : σ) (tailLines : Int) (limit : Option Nat)
    (ctx : Context) (ns : List (Nat × Notice)),
    (h (.watch m.ref) (h .now s).2).1 = .ok ⟨Notice.events 0 ns, none⟩ →
      (((m.watch tailLines limit ctx).run h s).1 = none ↔
        ctx.firesAt = none ∧ limit = none ∧ m.settled? (h .now s).1 ns = none)
  /-- A notice that the object was removed ends a wait that still goes on. -/
  removed : ∀ start ns after o, m.settled? start ns = none →
    ∃ t, m.settled? start (ns ++ [(after, .removed o)]) =
      some (t, .failed ("job " ++ m.name ++ " was deleted"))
  /-- The marks of a listing say nothing. -/
  silent : ∀ start ns later, (∀ p ∈ later, p.2 = .began ∨ p.2 = .ended) →
    m.settled? start (ns ++ later) = m.settled? start ns
  /-- When a watcher completes a listing without an object, the wait is over, unless there has been
  nothing but this listing. -/
  vanished : ∀ c name start ns w, Watcher.Reports c name .fresh (ns.map Prod.snd) w →
    Notice.EndsEmpty (ns.map Prod.snd) →
      (m.settled? start ns = none ↔ ns.map Prod.snd = [.began, .ended])
  /-- It is over with a failure then, if no notice has shown a success. -/
  failed : ∀ c name start ns w, Watcher.Reports c name .fresh (ns.map Prod.snd) w →
    Notice.EndsEmpty (ns.map Prod.snd) → ns.map Prod.snd ≠ [.began, .ended] →
      (∀ p ∈ ns, m.judges? p.2 ≠ some .succeeded) →
        ∃ t reason, m.settled? start ns = some (t, .failed reason)

section Vanishing

variable {m : Manifest} {ctx : Context} {limit : Option Nat} {start : Nat} {ns : List (Nat × Notice)}

theorem run_report_ne_none {σ : Type} {tailLines : Int} {ended : Nat} {seen : Observed}
    (h : Handler Call Answer σ) (s : σ) :
    ((m.report tailLines ctx ended seen).run h s).1 ≠ none := by
  cases hc : ctx.cancelled ended <;> cases seen <;> simp [report, hc, Program.run]

theorem run_watch_eq_none_iff {σ : Type} {h : Handler Call Answer σ} {s : σ} {tailLines : Int}
    {stream : TimedStream WatchEvent} (hstream : (h (.watch m.ref) (h .now s).2).1 = .ok stream) :
    ((m.watch tailLines limit ctx).run h s).1 = none ↔
      ctx.firesAt = none ∧ limit = none ∧
        m.decided? stream.ends stream.items (h .now s).1 = none := by
  have hiff : waitEnd ctx (m.decidedBy (h .now s).1 (h (.watch m.ref) (h .now s).2).1) (h .now s).1
      limit = none ↔ ctx.firesAt = none ∧ limit = none ∧
        m.decided? stream.ends stream.items (h .now s).1 = none := by
    rw [hstream]
    simp only [waitEnd, decidedBy, earlier_eq_none_iff, Option.map_eq_none_iff]
    rw [and_assoc, and_rotate]
  rw [← hiff]
  cases hend : waitEnd ctx (m.decidedBy (h .now s).1 (h (.watch m.ref) (h .now s).2).1) (h .now s).1
      limit with
  | none =>
    rw [run_watch hend]
    simp [settle, Program.run]
  | some p =>
    obtain ⟨ended, seen⟩ := p
    rw [run_watch hend]
    exact iff_of_false (by simp [settle, Program.run, run_report_ne_none]) (by simp)

/-- A watcher lists again only after a failure, which is what everyone who waits has heard. -/
theorem vanishing_spec (m : Manifest) : m.VanishingSpec where
  waits h s tailLines limit ctx ns hstream := run_watch_eq_none_iff hstream
  removed start ns after o h := exists_settled?_snoc h (judges?_removed o)
  silent start ns later h := by
    refine settled?_append_of_silent fun p hp => ?_
    rcases h p hp with hmark | hmark <;> simp [hmark]
  vanished c name start ns w h he := by
    rw [settled?_eq_none_iff]
    constructor
    · intro hnone
      rcases h.first_or_broken he with hfirst | ⟨message, hbroken⟩
      · exact hfirst
      · obtain ⟨p, hp, hpb⟩ := List.mem_map.1 hbroken
        simpa [hpb] using hnone p hp
    · intro hfirst p hp
      have hmark : p.2 ∈ [Notice.began, .ended] := hfirst ▸ List.mem_map_of_mem hp
      rcases List.mem_pair.1 hmark with hb | hb <;> simp [hb]
  failed c name start ns w h he hfirst hsuccess := by
    obtain ⟨message, hbroken⟩ := (h.first_or_broken he).resolve_left hfirst
    obtain ⟨p, hp, hpb⟩ := List.mem_map.1 hbroken
    cases hsettled : m.settled? start ns with
    | none => simpa [hpb] using settled?_eq_none_iff.1 hsettled p hp
    | some decision =>
      obtain ⟨t, seen⟩ := decision
      obtain ⟨q, hq, hseen⟩ := exists_judges_of_settled? hsettled
      -- Something has decided, and it was no success.
      cases seen with
      | succeeded => exact absurd hseen (hsuccess q hq)
      | failed reason => exact ⟨t, reason, rfl⟩

end Vanishing

end Manifest

/-! ## Listings of one job -/

/-- The jobs among which a job is watched. -/
def Collection.etl : Collection :=
  ⟨Catalog.standard.resolve .batchJob, some "jobs"⟩

/-- A listing of them that is empty. -/
def Web.Reply.etlGone : Web.Reply :=
  ⟨200, "\x7b\"items\":[],\"metadata\":\x7b\"resourceVersion\":\"10\"\x7d\x7d"⟩

/-- A listing that cannot be read. -/
def Web.Reply.etlRefused : Web.Reply :=
  ⟨500, ""⟩

section Etl

open Watcher

variable {ns : List Notice} {w' : Watcher}

theorem Watcher.Reports.etlPage (reply : Web.Reply) {notice : Option Notice} {next : Watcher}
    (hr : takePage reply = (notice, next)) (h : Reports .etl "etl-7" next ns w') :
    Reports .etl "etl-7" .fresh (.began :: (notice.toList ++ ns)) w' := by
  have hrequest : ∃ request, pageRequest .etl "etl-7" none = .ok request := by
    cbv
    exact ⟨_, rfl⟩
  obtain ⟨request, hrequest⟩ := hrequest
  have hs : (paging none [] none).step .etl "etl-7" = .send request takePage := by
    simp [Watcher.step, hrequest, ask]
  exact .report rfl (h.sent hs reply hr)

/-- The object is gone before the first listing. -/
theorem Watcher.reports_of_etlGone : Reports .etl "etl-7" .fresh [.began, .ended] (.listed "10") := by
  have hpage : takePage .etlGone = (none, .paging none [] (some "10")) := by cbv
  exact .etlPage .etlGone hpage (.report rfl (.refl _))

/-- The first listing fails, and the object is gone before the second one. -/
theorem Watcher.exists_reports_of_etlRefused :
    ∃ message, Reports .etl "etl-7" .fresh [.began, .broken message, .began, .ended]
      (.listed "10") := by
  have hpage : ∃ message, takePage .etlRefused = (some (.broken message), .fresh) := by
    cbv
    exact ⟨_, rfl⟩
  obtain ⟨message, hpage⟩ := hpage
  exact ⟨message, .etlPage .etlRefused hpage reports_of_etlGone⟩

/-- A cluster whose watch over the job has an empty listing, and then nothing more. -/
def Simulation.World.etlGone : Timed Simulation.World :=
  ⟨0, .ofScript { WorldScript.quiet with
    jobs := [("etl-7", { JobScript.quiet with
      watch := .ok ⟨Notice.events 0 [(0, .began), (0, .ended)], none⟩ })] }⟩

/-- The wait is over when the second listing shows that the object is gone. -/
theorem Manifest.vanishing_of_etl :
    Manifest.etl.VanishingSpec ∧ ∃ message t reason, Manifest.etl.settled? 0
      [(0, .began), (7, .broken message), (1, .began), (0, .ended)] =
        some (t, .failed reason) := by
  refine ⟨vanishing_spec .etl, ?_⟩
  obtain ⟨message, hreports⟩ := exists_reports_of_etlRefused
  refine ⟨message, (vanishing_spec .etl).failed .etl "etl-7" 0 _ _ hreports ?_ ?_ ?_⟩
  · exact ⟨[.began, .broken message], [], rfl, by simp⟩
  · simp
  · simp

/-- Nobody who waits without a limit learns from the first listing that the object is gone. -/
theorem Manifest.waits_of_etlGone :
    Reports .etl "etl-7" .fresh [.began, .ended] (.listed "10") ∧
    Notice.EndsEmpty [.began, .ended] ∧
    Manifest.etl.settled? 0 [(0, .began), (0, .ended)] = none ∧
    ((Manifest.etl.watch 100 none ⟨none, fun _ => true⟩).run Simulation.World.handler
      Simulation.World.etlGone).1 = none :=
  ⟨reports_of_etlGone, ⟨[], [], rfl, by simp⟩, by simp [settled?_cons], rfl⟩

end Etl

end ClusterJobs
