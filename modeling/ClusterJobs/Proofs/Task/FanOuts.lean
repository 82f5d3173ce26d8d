import ClusterJobs.Proofs.Task.OwnObjects
import ClusterJobs.Proofs.Task.Schedules
import ClusterJobs.Proofs.Task.Submission
import ClusterJobs.Simulation.World

/-!
# Fan-outs in any order

However the items of a fan-out take turns, their results are published once, in the order of the
items and after all of them have ended. What is published and what is returned depends on the
results and on the token alone.
-/

namespace ClusterJobs

open Program

/-- The items of a fan-out in their slots, before any has run. -/
def Engine.pool (e : Engine) (f : FanOut) (ctx : Context) (now : Nat) :
    Pool (Except JobFault Outcome) :=
  .start e.slots now (f.manifests.map (FanOut.item e.items f.limit ctx))

/-- The items of a fan-out take turns in their slots until all have ended. Then it is concluded. -/
inductive Engine.FansOut {σ : Type} (e : Engine) (f : FanOut) (ctx : Context)
    (serves : Service Call Answer σ) (idles : σ → σ → Prop) (s : σ)
    (items : List (Nat × TaskEvent)) (results : List (Except JobFault Outcome))
    (last : List TaskEvent) (r : Except JobFault Outcome) (t : σ) : Prop where
  | mk {now : Nat} {p : Pool (Except JobFault Outcome)} {u : σ} :
      Pool.Turns serves idles e.slots (e.pool f ctx now) s items p u →
      p.running = [] → p.pending = [] →
      Pool.inOrder f.manifests.length p.finished = some results →
      Runs serves (f.conclude e.policy ctx results) u last r t →
      FansOut e f ctx serves idles s items results last r t

namespace FanOut

/-! ## Entries -/

structure Entry (f : FanOut) (i : Nat) (m : Manifest) (r : Except JobFault Outcome)
    (entry : ItemResult) : Prop where
  taskInstanceId : entry.taskInstanceId = m.taskInstanceId
  processInstanceId : entry.processInstanceId = f.processInstanceId
  named : ∀ spec, f.fetches[i]? = some spec → spec.fetchName ≠ "" → entry.name = spec.fetchName
  unnamed : (∀ spec, f.fetches[i]? = some spec → spec.fetchName = "") → entry.name = m.name
  ended : ∀ o, r = .ok o → entry.status = o.status
  failed : ∀ e, r = .error e → entry.status = .failure

/-- One entry is published of each item, in their order. -/
structure Publishes (f : FanOut) (results : List (Except JobFault Outcome))
    (entries : List ItemResult) : Prop where
  length_eq : entries.length = f.manifests.length
  entry : ∀ i m r, f.manifests[i]? = some m → results[i]? = some r →
    ∃ entry, entries[i]? = some entry ∧ f.Entry i m r entry

/-- The result of a fan-out. The first fault comes before the token, and the token before the
policy. -/
structure Resolves (policy : FanOutPolicy) (results : List (Except JobFault Outcome))
    (entries : List ItemResult) (fired : Bool) (r : Except JobFault Outcome) : Prop where
  fault : ∀ (i : Nat) (e : JobFault), results[i]? = some (.error e) →
    (∀ j : Nat, j < i → ∃ o, results[j]? = some (.ok o)) → r = .error e
  killed : (∀ a ∈ results, ∃ o, a = .ok o) → fired = true → r = .ok ⟨.killed, none⟩
  succeeds : (∀ a ∈ results, ∃ o, a = .ok o) → fired = false →
    (policy = .alwaysSucceed ∨ ∀ entry ∈ entries, entry.status = .success) →
    r = .ok ⟨.success, none⟩
  fails : (∀ a ∈ results, ∃ o, a = .ok o) → fired = false → policy = .failOnAnyFailure →
    (∃ entry ∈ entries, entry.status ≠ .success) →
    r = .ok ⟨.failure, some ("fan-out items did not succeed: " ++ Text.joinWith ", "
      ((entries.filter fun entry => entry.status != .success).map ItemResult.name))⟩

section Reports

variable {f : FanOut} {ms : List Manifest} {rs results : List (Except JobFault Outcome)}
  {policy : FanOutPolicy} {fired : Bool}

theorem entry_report (f : FanOut) (i : Nat) (m : Manifest) (r : Except JobFault Outcome) :
    f.Entry i m r (f.report i m r) where
  taskInstanceId := rfl
  processInstanceId := rfl
  named := by
    intro spec hspec hname
    simp [report, itemName, hspec, hname]
  unnamed := by
    intro hall
    cases hspec : f.fetches[i]? with
    | none => simp [report, itemName, hspec]
    | some spec => simp [report, itemName, hspec, hall spec hspec]
  ended := by
    rintro o rfl
    rfl
  failed := by
    rintro e rfl
    rfl

theorem getElem?_reportsFrom (f : FanOut) (j i : Nat) :
    (f.reportsFrom j ms rs)[i]? =
      ms[i]?.bind fun m => rs[i]?.map fun r => f.report (i + j) m r := by
  induction ms generalizing i j rs with
  | nil => simp [reportsFrom]
  | cons m ms ih =>
    cases rs with
    | nil => cases i <;> simp [reportsFrom]
    | cons r rs =>
      cases i with
      | zero => simp [reportsFrom]
      | succ i =>
        simp only [reportsFrom, List.getElem?_cons_succ, ih]
        rw [Nat.add_assoc, Nat.add_comm 1 j]

theorem length_reportsFrom (f : FanOut) (j : Nat) (hlen : rs.length = ms.length) :
    (f.reportsFrom j ms rs).length = ms.length := by
  induction ms generalizing j rs with
  | nil => rfl
  | cons m ms ih =>
    cases rs with
    | nil => cases hlen
    | cons r rs => exact congrArg (· + 1) (ih (j + 1) (Nat.succ.inj hlen))

theorem publishes_reports (hlen : results.length = f.manifests.length) :
    f.Publishes results (f.reports results) where
  length_eq := f.length_reportsFrom 0 hlen
  entry := by
    intro i m r hm hr
    exact ⟨f.report i m r, by simp [reports, getElem?_reportsFrom, hm, hr], f.entry_report i m r⟩

theorem firstFault?_eq_some {i : Nat} {e : JobFault} (he : results[i]? = some (.error e))
    (hok : ∀ j : Nat, j < i → ∃ o, results[j]? = some (.ok o)) : firstFault? results = some e := by
  induction results generalizing i with
  | nil => cases he
  | cons r results ih =>
    cases i with
    | zero =>
      cases he
      rfl
    | succ i =>
      obtain ⟨o, ho⟩ := hok 0 i.succ_pos
      cases ho
      exact ih he fun j hj => hok (j + 1) (Nat.succ_lt_succ hj)

theorem firstFault?_eq_none_iff :
    firstFault? results = none ↔ ∀ a ∈ results, ∃ o, a = .ok o := by
  induction results with
  | nil => simp [firstFault?]
  | cons r results ih => cases r <;> simp [firstFault?, ih]

/-- The result of a fan-out, from the results of its items and from whether the token has fired. -/
def settle (f : FanOut) (policy : FanOutPolicy) (fired : Bool)
    (results : List (Except JobFault Outcome)) : Except JobFault Outcome :=
  match firstFault? results with
  | some e => .error e
  | none => .ok (if fired then .killed else resolve policy (f.reports results))

theorem unsuccessful_eq_nil_iff {entries : List ItemResult} :
    unsuccessful entries = [] ↔ ∀ entry ∈ entries, entry.status = .success := by
  simp [unsuccessful]

theorem resolves_settle (f : FanOut) (policy : FanOutPolicy) (fired : Bool)
    (results : List (Except JobFault Outcome)) :
    Resolves policy results (f.reports results) fired (f.settle policy fired results) where
  fault := by
    intro i e he hok
    simp [settle, firstFault?_eq_some he hok]
  killed := by
    rintro hok rfl
    simp [settle, firstFault?_eq_none_iff.2 hok, Outcome.killed]
  succeeds := by
    rintro hok rfl hwhy
    have hresolve : resolve policy (f.reports results) = .success := by
      rcases hwhy with rfl | hall
      · rfl
      · simp [resolve, unsuccessful_eq_nil_iff.2 hall]
    simp [settle, firstFault?_eq_none_iff.2 hok, hresolve, Outcome.success]
  fails := by
    rintro hok rfl rfl ⟨entry, hentry, hstatus⟩
    have hne : unsuccessful (f.reports results) ≠ [] :=
      fun hnil => hstatus (unsuccessful_eq_nil_iff.1 hnil entry hentry)
    have hresolve : resolve .failOnAnyFailure (f.reports results) =
        .failure ("fan-out items did not succeed: " ++
          Text.joinWith ", " (unsuccessful (f.reports results))) := by
      simp [resolve, hne]
    simp [settle, firstFault?_eq_none_iff.2 hok, hresolve, Outcome.failure, unsuccessful]

end Reports

/-! ## Conclusions -/

section Conclude

variable {σ : Type} {serves : Service Call Answer σ} {f : FanOut} {policy : FanOutPolicy}
  {ctx : Context} {results : List (Except JobFault Outcome)} {u t : σ} {last : List TaskEvent}
  {r : Except JobFault Outcome}

/-- The looks at the clock after the results were published. -/
def Looks (results : List (Except JobFault Outcome)) (looks : List TaskEvent) : Prop :=
  (∃ e, .error e ∈ results) ∧ looks = [] ∨
    (∀ a ∈ results, ∃ o, a = .ok o) ∧ ∃ ended, looks = [⟨.now, ended⟩]

theorem error_mem_of_firstFault? {e : JobFault} (he : firstFault? results = some e) :
    .error e ∈ results := by
  induction results with
  | nil => cases he
  | cons a results ih =>
    cases a with
    | error e' =>
      cases he
      exact .head results
    | ok o => exact .tail _ (ih he)

/-- The results are published first. Then the token may be looked at, which is the last call. -/
theorem runs_conclude (hr : Runs serves (f.conclude policy ctx results) u last r t) :
    ∃ x looks, last = ⟨.publish (f.reports results), x⟩ :: looks ∧ Looks results looks ∧
      ∀ fired, (∀ ended, ⟨.now, ended⟩ ∈ looks → ctx.fired ended = fired) →
        r = f.settle policy fired results := by
  obtain ⟨x, u₁, h₁, -, hrest, rfl⟩ := runs_ask_iff.1 hr
  refine ⟨x, h₁, rfl, ?_⟩
  unfold settle
  cases hfault : firstFault? results with
  | some e =>
    simp only [hfault] at hrest
    obtain ⟨rfl, rfl, -⟩ := runs_done_iff.1 hrest
    exact ⟨.inl ⟨⟨e, error_mem_of_firstFault? hfault⟩, rfl⟩, fun _ _ => rfl⟩
  | none =>
    simp only [hfault] at hrest
    obtain ⟨ended, u₂, h₂, -, hlast, rfl⟩ := runs_ask_iff.1 hrest
    have hdone : Runs serves (.done (.ok (if ctx.fired ended then .killed
        else resolve policy (f.reports results)))) u₂ h₂ r t := by
      change Runs serves (if ctx.fired ended then _ else _) u₂ h₂ r t at hlast
      split at hlast
      · next hfired => rwa [if_pos hfired]
      · next hfired => rwa [if_neg hfired]
    obtain ⟨rfl, rfl, -⟩ := runs_done_iff.1 hdone
    refine ⟨.inr ⟨firstFault?_eq_none_iff.1 hfault, ended, rfl⟩, fun fired hall => ?_⟩
    rw [hall ended (.head [])]

end Conclude

end FanOut

/-! ## Executions -/

namespace Engine

/-- What comes of an execution of a fan-out. -/
structure ExecutionSpec (e : Engine) (f : FanOut) (ctx : Context)
    (items : List (Nat × TaskEvent)) (results : List (Except JobFault Outcome))
    (last : List TaskEvent) (r : Except JobFault Outcome) : Prop where
  length_eq : results.length = f.manifests.length
  /-- The result at each place is the one that the calls of the item there lead to. -/
  own : ∀ i m, f.manifests[i]? = some m → ∃ a, results[i]? = some a ∧
    Leads (FanOut.item e.items f.limit ctx m) (callsOf i items) (.done a)
  /-- The items publish nothing. -/
  unpublished : ∀ q ∈ items, ∀ entries, q.2.call ≠ .publish entries
  /-- After them the results are published, and after that at most the clock is looked at. -/
  concluded : ∃ entries x looks, last = ⟨.publish entries, x⟩ :: looks ∧
    f.Publishes results entries ∧ FanOut.Looks results looks ∧
    ∀ fired, (∀ ended, ⟨.now, ended⟩ ∈ looks → ctx.fired ended = fired) →
      FanOut.Resolves e.policy results entries fired r
  /-- An item that starts after the token has fired asks nothing of a cluster. -/
  skipped : ∀ i start rest, callsOf i items = ⟨.now, start⟩ :: rest → ctx.fired start = true →
    rest = [] ∧ results[i]? = some (.ok ⟨.killed, none⟩)

/-- What comes of a fan-out. -/
structure FanOutSpec (e : Engine) (f : FanOut) (ctx : Context) : Prop where
  /-- In whatever order the items take turns. -/
  execution : ∀ {σ : Type} (serves : Service Call Answer σ) (idles : σ → σ → Prop) s items results
    last r t, e.FansOut f ctx serves idles s items results last r t →
      e.ExecutionSpec f ctx items results last r
  /-- Executions whose items have the same results and that find the same of the token publish and
  return the same, whatever their slots, their clusters and their orders. -/
  agree : ∀ {σ σ' : Type} (serves : Service Call Answer σ) (idles : σ → σ → Prop)
    (serves' : Service Call Answer σ') (idles' : σ' → σ' → Prop) s s' items items' results last
    last' r r' t t' (e' : Engine) (ctx' : Context), e'.policy = e.policy →
    e.FansOut f ctx serves idles s items results last r t →
    e'.FansOut f ctx' serves' idles' s' items' results last' r' t' →
    (∀ ended ended', ⟨.now, ended⟩ ∈ last → ⟨.now, ended'⟩ ∈ last' →
      ctx.fired ended = ctx'.fired ended') →
    r' = r ∧ (last'.map Event.call) = last.map Event.call
  /-- The engine's own run is such an execution. -/
  runs : ∀ {σ : Type} (h : Handler Call Answer (Timed σ)) s r t,
    e.runFanOut h f ctx s = (some r, t) →
    ∃ items results last, e.FansOut f ctx (slotted h) Later s items results last r t
  /-- It has a result unless there is no limit, the token never fires, and an item comes to wait
  forever. -/
  returns : ∀ {σ : Type} (h : Handler Call Answer (Timed σ)) s,
    (e.runFanOut h f ctx s).1 = none →
    f.limit = none ∧ ctx.firesAt = none ∧ ∃ items p t i m,
      Pool.Turns (slotted h) Later e.slots (e.pool f ctx s.now) s items p t ∧
      f.manifests[i]? = some m ∧
      Leads (FanOut.item e.items f.limit ctx m) (callsOf i items) .never

section Execution

variable {σ : Type} {e : Engine} {f : FanOut} {ctx : Context} {serves : Service Call Answer σ}
  {idles : σ → σ → Prop} {s t : σ} {items : List (Nat × TaskEvent)}
  {results : List (Except JobFault Outcome)} {last : List TaskEvent}
  {r : Except JobFault Outcome}

theorem skipped_of_leads {m : Manifest} {a : Except JobFault Outcome} {start : Nat}
    {rest : List TaskEvent}
    (hl : Leads (FanOut.item e.items f.limit ctx m) (⟨.now, start⟩ :: rest) (.done a))
    (hfired : ctx.fired start = true) : rest = [] ∧ a = .ok .killed := by
  obtain ⟨x, u, h, -, hrest, hcalls⟩ := runs_ask_iff.1 (reaches_done_iff.1 hl)
  cases hcalls
  change Runs _ (if ctx.fired start then _ else _) u rest a () at hrest
  rw [if_pos hfired] at hrest
  obtain ⟨rfl, rfl, -⟩ := runs_done_iff.1 hrest
  exact ⟨rfl, rfl⟩

theorem unpublished_of_leads {m : Manifest} {q : TaskProgram (Except JobFault Outcome)}
    {calls : List TaskEvent} (hl : Leads (FanOut.item e.items f.limit ctx m) calls q) :
    ∀ event ∈ calls, ∀ entries, event.call ≠ .publish entries := by
  intro event hevent entries hcall
  have hmakes := ((m.item_confined e.items f.limit ctx).reaches hl).1 event hevent
  rw [hcall] at hmakes
  cases hmakes with
  | attends hattends => cases hattends

theorem tracks_of_turns {now : Nat} {p : Pool (Except JobFault Outcome)}
    (hturns : Pool.Turns serves idles e.slots (e.pool f ctx now) s items p t) :
    p.Tracks (f.manifests.map (FanOut.item e.items f.limit ctx)) items :=
  (Pool.tracks_start _ _ _).turns hturns

theorem spec_of_fansOut (h : e.FansOut f ctx serves idles s items results last r t) :
    e.ExecutionSpec f ctx items results last r := by
  obtain ⟨hturns, hrunning, hpending, hresults, hlast⟩ := h
  have htracks := tracks_of_turns hturns
  obtain ⟨results', hresults', hlength, hown⟩ := htracks.exists_results hrunning hpending
  rw [List.length_map] at hresults' hlength
  obtain rfl : results = results' := Option.some.inj (hresults.symm.trans hresults')
  have hown : ∀ i m, f.manifests[i]? = some m → ∃ a, results[i]? = some a ∧
      Leads (FanOut.item e.items f.limit ctx m) (callsOf i items) (.done a) := by
    intro i m hm
    exact hown i _ (by rw [List.getElem?_map, hm]; rfl)
  have hplace : ∀ q ∈ items, ∃ m, f.manifests[q.1]? = some m := by
    intro q hq
    have hlt := htracks.known q hq
    rw [List.length_map] at hlt
    exact ⟨_, List.getElem?_eq_getElem hlt⟩
  refine ⟨hlength, hown, ?_, ?_, ?_⟩
  · rintro ⟨i, event⟩ hq
    obtain ⟨m, hm⟩ := hplace _ hq
    obtain ⟨a, -, hleads⟩ := hown i m hm
    exact unpublished_of_leads hleads event (mem_callsOf.2 hq)
  · obtain ⟨x, looks, hcalls, hlooks, hr⟩ := FanOut.runs_conclude hlast
    refine ⟨f.reports results, x, looks, hcalls, FanOut.publishes_reports hlength, hlooks,
      fun fired hall => ?_⟩
    rw [hr fired hall]
    exact FanOut.resolves_settle f e.policy fired results
  · intro i start rest hcalls hfired
    obtain ⟨m, hm⟩ := hplace (i, ⟨.now, start⟩) (mem_callsOf.1 (hcalls ▸ .head rest))
    obtain ⟨a, ha, hleads⟩ := hown i m hm
    rw [hcalls] at hleads
    obtain ⟨hrest, rfl⟩ := skipped_of_leads hleads hfired
    exact ⟨hrest, ha⟩

theorem exists_fired {looks looks' : List TaskEvent} {ctx' : Context}
    (hl : FanOut.Looks results looks) (hl' : FanOut.Looks results looks')
    (hsame : ∀ ended ended', ⟨.now, ended⟩ ∈ looks → ⟨.now, ended'⟩ ∈ looks' →
      ctx.fired ended = ctx'.fired ended') :
    looks'.map Event.call = looks.map Event.call ∧
      ∃ fired, (∀ ended, ⟨.now, ended⟩ ∈ looks → ctx.fired ended = fired) ∧
        ∀ ended, ⟨.now, ended⟩ ∈ looks' → ctx'.fired ended = fired := by
  rcases hl with ⟨⟨e, he⟩, rfl⟩ | ⟨hok, ended, rfl⟩
  · rcases hl' with ⟨-, rfl⟩ | ⟨hok, -⟩
    · exact ⟨rfl, false, by simp⟩
    · obtain ⟨o, ho⟩ := hok _ he
      cases ho
  · rcases hl' with ⟨⟨e, he⟩, -⟩ | ⟨-, ended', rfl⟩
    · obtain ⟨o, ho⟩ := hok _ he
      cases ho
    · have hfired := hsame ended ended' (.head []) (.head [])
      refine ⟨rfl, ctx.fired ended, ?_, ?_⟩
      · rintro _ (_ | ⟨_, ⟨⟩⟩)
        rfl
      · rintro _ (_ | ⟨_, ⟨⟩⟩)
        exact hfired.symm

theorem agree_of_fansOut {σ' : Type} {e' : Engine} {ctx' : Context}
    {serves' : Service Call Answer σ'} {idles' : σ' → σ' → Prop} {s' t' : σ'}
    {items' : List (Nat × TaskEvent)} {last' : List TaskEvent} {r' : Except JobFault Outcome}
    (hpolicy : e'.policy = e.policy) (h : e.FansOut f ctx serves idles s items results last r t)
    (h' : e'.FansOut f ctx' serves' idles' s' items' results last' r' t')
    (hsame : ∀ ended ended', ⟨.now, ended⟩ ∈ last → ⟨.now, ended'⟩ ∈ last' →
      ctx.fired ended = ctx'.fired ended') :
    r' = r ∧ last'.map Event.call = last.map Event.call := by
  obtain ⟨-, -, -, -, hlast⟩ := h
  obtain ⟨-, -, -, -, hlast'⟩ := h'
  obtain ⟨x, looks, rfl, hlooks, hr⟩ := FanOut.runs_conclude hlast
  obtain ⟨x', looks', rfl, hlooks', hr'⟩ := FanOut.runs_conclude hlast'
  obtain ⟨hcalls, fired, hfired, hfired'⟩ := exists_fired hlooks hlooks'
    fun ended ended' he he' => hsame ended ended' (.tail _ he) (.tail _ he')
  rw [hr fired hfired, hr' fired hfired', hpolicy]
  exact ⟨rfl, by rw [List.map_cons, List.map_cons, hcalls]⟩

end Execution

/-! ## The run of an engine -/

section Run

variable {σ : Type} {e : Engine} {f : FanOut} {ctx : Context} {s t : Timed σ}
  {h : Handler Call Answer (Timed σ)} {r : Except JobFault Outcome}

theorem exists_turns (e : Engine) (f : FanOut) (ctx : Context)
    (h : Handler Call Answer (Timed σ)) (s : Timed σ) :
    ∃ items p t, Pool.run h (e.pool f ctx s.now) s = (p.finished, t) ∧
      Pool.Occupied e.slots ⟨[], p.pending, p.finished⟩ p.running ∧
      Pool.Turns (slotted h) Later e.slots (e.pool f ctx s.now) s items p t := by
  obtain ⟨items, p, hended, hoccupied, hturns⟩ := Pool.turns_run h s (Pool.occupied_start ..)
  rw [List.append_nil] at hturns
  exact ⟨items, p, _, Prod.ext hended.symm rfl, hoccupied, hturns⟩

/-- What comes of a fan-out whose items have ended with these results. -/
def concluded (h : Handler Call Answer (Timed σ)) (e : Engine) (f : FanOut) (ctx : Context)
    (ended : List (Nat × Except JobFault Outcome)) (t : Timed σ) :
    Option (Except JobFault Outcome) × Timed σ :=
  match Pool.inOrder f.manifests.length ended with
  | none => (none, t)
  | some results => (f.conclude e.policy ctx results).run h t

theorem runFanOut_of_run {ended : List (Nat × Except JobFault Outcome)}
    (hpool : Pool.run h (e.pool f ctx s.now) s = (ended, t)) :
    e.runFanOut h f ctx s = e.concluded h f ctx ended t := by
  rw [pool] at hpool
  simp only [runFanOut, runInSlots, hpool, List.length_map]
  rfl

theorem runFanOut_of_none {p : Pool (Except JobFault Outcome)}
    (hpool : Pool.run h (e.pool f ctx s.now) s = (p.finished, t))
    (hresults : Pool.inOrder f.manifests.length p.finished = none) :
    e.runFanOut h f ctx s = (none, t) := by
  rw [runFanOut_of_run hpool, concluded, hresults]

theorem runFanOut_of_some {p : Pool (Except JobFault Outcome)}
    {results : List (Except JobFault Outcome)}
    (hpool : Pool.run h (e.pool f ctx s.now) s = (p.finished, t))
    (hresults : Pool.inOrder f.manifests.length p.finished = some results) :
    e.runFanOut h f ctx s = (f.conclude e.policy ctx results).run h t := by
  rw [runFanOut_of_run hpool, concluded, hresults]

theorem fansOut_of_run (hrun : e.runFanOut h f ctx s = (some r, t)) :
    ∃ items results last, e.FansOut f ctx (slotted h) Later s items results last r t := by
  obtain ⟨items, p, u, hpool, -, hturns⟩ := exists_turns e f ctx h s
  cases hresults : Pool.inOrder f.manifests.length p.finished with
  | none =>
    rw [runFanOut_of_none hpool hresults] at hrun
    cases hrun
  | some results =>
    rw [runFanOut_of_some hpool hresults] at hrun
    obtain ⟨hrunning, hpending⟩ :=
      (tracks_of_turns hturns).all_ended (by rwa [List.length_map])
    have hobeys : Obeys h id (slotted h) := slotted_handler h
    obtain ⟨last, hlast⟩ := runs_of_run hobeys hrun
    exact ⟨items, results, last, .mk hturns hrunning hpending hresults hlast⟩

theorem unlimited_of_leads {m : Manifest} {calls : List TaskEvent}
    (hl : Leads (FanOut.item e.items f.limit ctx m) calls .never) :
    f.limit = none ∧ ctx.firesAt = none := by
  cases ((m.item_confined e.items f.limit ctx).reaches hl).2 with
  | never hmay => exact hmay

/-- If no slot is held forever, all items get one. -/
theorem exists_stalled (hslots : 0 < e.slots) (hrun : (e.runFanOut h f ctx s).1 = none) :
    ∃ items p t i m, Pool.Turns (slotted h) Later e.slots (e.pool f ctx s.now) s items p t ∧
      f.manifests[i]? = some m ∧
      Leads (FanOut.item e.items f.limit ctx m) (callsOf i items) .never := by
  obtain ⟨items, p, t, hpool, hoccupied, hturns⟩ := exists_turns e f ctx h s
  have htracks := tracks_of_turns hturns
  cases hrunning : p.running with
  | nil =>
    -- Free slots mean that no item waits for one, so that all have ended.
    have hpending : p.pending = [] := by
      refine hoccupied.busy.resolve_right fun hfull => ?_
      rw [hrunning] at hfull
      exact hslots.ne hfull
    obtain ⟨results, hresults, -⟩ := htracks.exists_results hrunning hpending
    rw [List.length_map] at hresults
    obtain ⟨r, u, hlast⟩ :=
      (conclude_among f.manifests f e.policy ctx results).exists_run h t
    rw [runFanOut_of_some hpool hresults, hlast] at hrun
    cases hrun
  | cons w rest =>
    have hw : w ∈ p.running := hrunning ▸ .head rest
    obtain ⟨q, hq, hleads⟩ := htracks.running w hw
    rw [List.getElem?_map] at hq
    obtain ⟨m, hm, rfl⟩ := Option.map_eq_some_iff.1 hq
    rw [hoccupied.never w hw] at hleads
    exact ⟨items, p, t, w.place, m, hturns, hm, hleads⟩

end Run

theorem fanOut_spec (e : Engine) (f : FanOut) (ctx : Context) (hslots : 0 < e.slots) :
    e.FanOutSpec f ctx where
  execution := fun _ _ _ _ _ _ _ _ h => spec_of_fansOut h
  agree := fun _ _ _ _ _ _ _ _ _ _ _ _ _ _ _ _ _ hpolicy h h' hsame =>
    agree_of_fansOut hpolicy h h' hsame
  runs := fun _ _ _ _ hrun => fansOut_of_run hrun
  returns := by
    intro σ h s hrun
    obtain ⟨items, p, t, i, m, hturns, hm, hleads⟩ := exists_stalled hslots hrun
    obtain ⟨hlimit, htoken⟩ := unlimited_of_leads hleads
    exact ⟨hlimit, htoken, items, p, t, i, m, hturns, hm, hleads⟩

end Engine

/-! ## A fan-out whose second item ends first -/

/-- Two objects. Only the first one is named by a fetch spec. -/
def FanOut.etl : FanOut where
  manifests := [.etl, { Manifest.etl with name := "etl-8", taskInstanceId := 8 }]
  fetches := [{ FetchSpec.standard with fetchName := "orders" }]
  processInstanceId := 3
  limit := none

/-- Two items run at a time, and all of them have to succeed. -/
def Engine.strict : Engine :=
  .ofSettings (fun _ => .null)
    { Settings.standard with fanOutConcurrency := 2, fanOutPolicy := .failOnAnyFailure } 0 .standard

/-- The first object is deleted after a second, and the watch of the other one ends at once. -/
def Simulation.World.late : Simulation.World :=
  .ofScript { WorldScript.quiet with
    jobs := [("etl-7", { JobScript.quiet with watch := .ok ⟨[(1000, .deleted)], none⟩ })]
    publishFault := some "connection refused" }

theorem Engine.fanOut_of_etl :
    Engine.strict.FanOutSpec .etl ⟨none, fun _ => true⟩ ∧
    ∃ t, Engine.strict.runFanOut Simulation.World.handler .etl ⟨none, fun _ => true⟩ ⟨0, .late⟩ =
      (some (.ok ⟨.failure, some "fan-out items did not succeed: orders, etl-8"⟩), t) ∧
        t.now = 1000 ∧ t.state.published =
          [[⟨"orders", 7, .failure, 3⟩, ⟨"etl-8", 8, .failure, 3⟩]] := by
  constructor
  · exact Engine.fanOut_spec _ _ _ (by decide)
  · obtain ⟨ended, t, hpool, hrun⟩ : ∃ ended t, Pool.runWithin Simulation.World.handler 4
        (strict.pool .etl ⟨none, fun _ => true⟩ 0) ⟨0, .late⟩ = some (ended, t) ∧
        ∃ u, strict.concluded Simulation.World.handler .etl ⟨none, fun _ => true⟩ ended t =
            (some (.ok ⟨.failure, some "fan-out items did not succeed: orders, etl-8"⟩), u) ∧
          u.now = 1000 ∧ u.state.published =
            [[⟨"orders", 7, .failure, 3⟩, ⟨"etl-8", 8, .failure, 3⟩]] :=
      ⟨_, _, rfl, _, rfl, rfl, rfl⟩
    have hended := Pool.run_of_runWithin hpool
    rwa [runFanOut_of_run (s := ⟨0, Simulation.World.late⟩) hended]

end ClusterJobs
