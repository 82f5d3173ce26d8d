import Mathlib.Logic.Function.Basic
import ClusterJobs.Program

/-!
# Runs and interleavings of programs

What surroundings may answer is a relation: a call can fail or succeed, and whoever runs a program
does not know which. A run follows one program alone. An interleaving lets many programs take turns,
one call at a time, in any order.
-/

namespace ClusterJobs.Program

variable {Call : Type} {Answer : Call → Type} {α β σ τ ι : Type}

/-- A call that was made and its answer. -/
structure Event (Call : Type) (Answer : Call → Type) where
  call : Call
  answer : Answer call

/-- The answers that surroundings may give to a call in a state, each with the state it leads to. -/
abbrev Service (Call : Type) (Answer : Call → Type) (σ : Type) :=
  (c : Call) → σ → Answer c → σ → Prop

/-! ## One program alone -/

/-- A program runs to its result, and these are its calls. -/
inductive Runs (serves : Service Call Answer σ) :
    Program Call Answer α → σ → List (Event Call Answer) → α → σ → Prop where
  | done (a : α) (s : σ) : Runs serves (.done a) s [] a s
  | ask {c : Call} {next : Answer c → Program Call Answer α} {s s' t : σ} {x : Answer c}
      {h : List (Event Call Answer)} {a : α} :
      serves c s x s' → Runs serves (next x) s' h a t →
      Runs serves (.ask c next) s (⟨c, x⟩ :: h) a t

section Runs

variable {serves : Service Call Answer σ} {s t : σ} {h : List (Event Call Answer)}

theorem runs_done_iff {a b : α} :
    Runs serves (.done a) s h b t ↔ h = [] ∧ b = a ∧ t = s := by
  constructor
  · intro hr
    cases hr
    exact ⟨rfl, rfl, rfl⟩
  · rintro ⟨rfl, rfl, rfl⟩
    exact .done _ _

theorem runs_ask_iff {c : Call} {next : Answer c → Program Call Answer α} {a : α} :
    Runs serves (.ask c next) s h a t ↔
      ∃ x s' h', serves c s x s' ∧ Runs serves (next x) s' h' a t ∧ h = ⟨c, x⟩ :: h' := by
  constructor
  · intro hr
    cases hr with
    | ask hs hr => exact ⟨_, _, _, hs, hr, rfl⟩
  · rintro ⟨x, s', h', hs, hr, rfl⟩
    exact .ask hs hr

theorem Runs.bind {p : Program Call Answer α} {f : α → Program Call Answer β} {s' : σ} {a : α}
    {b : β} {h' : List (Event Call Answer)} (hp : Runs serves p s h a s')
    (hf : Runs serves (f a) s' h' b t) : Runs serves (p.bind f) s (h ++ h') b t := by
  induction hp with
  | done a s => exact hf
  | ask hs _ ih => exact .ask hs (ih hf)

/-- A run of two programs in a row is a run of the first and then one of the second. -/
theorem runs_bind_iff {p : Program Call Answer α} {f : α → Program Call Answer β} {b : β} :
    Runs serves (p.bind f) s h b t ↔
      ∃ h₁ a s' h₂, Runs serves p s h₁ a s' ∧ Runs serves (f a) s' h₂ b t ∧ h = h₁ ++ h₂ := by
  constructor
  · intro hr
    induction p generalizing s h with
    | done a => exact ⟨[], a, s, h, .done a s, hr, rfl⟩
    | ask c next ih =>
      obtain ⟨x, s', h', hs, hn, rfl⟩ := runs_ask_iff.1 hr
      obtain ⟨h₁, a, s'', h₂, hp, hf, rfl⟩ := ih x hn
      exact ⟨⟨c, x⟩ :: h₁, a, s'', h₂, .ask hs hp, hf, rfl⟩
    | never => cases hr
  · rintro ⟨h₁, a, s', h₂, hp, hf, rfl⟩
    exact hp.bind hf

end Runs

/-- A program makes these calls and then has this much left to do. -/
inductive Reaches (serves : Service Call Answer σ) :
    Program Call Answer α → σ → List (Event Call Answer) → Program Call Answer α → σ → Prop where
  | refl (p : Program Call Answer α) (s : σ) : Reaches serves p s [] p s
  | ask {c : Call} {next : Answer c → Program Call Answer α} {s s' t : σ} {x : Answer c}
      {h : List (Event Call Answer)} {q : Program Call Answer α} :
      serves c s x s' → Reaches serves (next x) s' h q t →
      Reaches serves (.ask c next) s (⟨c, x⟩ :: h) q t

section Reaches

variable {serves : Service Call Answer σ} {s t : σ} {h : List (Event Call Answer)}
  {p q : Program Call Answer α}

theorem reaches_done_iff {a : α} : Reaches serves p s h (.done a) t ↔ Runs serves p s h a t := by
  constructor
  · intro hr
    generalize hq : Program.done a = q at hr
    induction hr with
    | refl p s =>
      subst hq
      exact .done a s
    | ask hs _ ih => exact .ask hs (ih hq)
  · intro hr
    induction hr with
    | done a s => exact .refl _ s
    | ask hs _ ih => exact .ask hs ih

theorem Reaches.mono {serves' : Service Call Answer σ}
    (hle : ∀ c s x s', serves c s x s' → serves' c s x s') (hr : Reaches serves p s h q t) :
    Reaches serves' p s h q t := by
  induction hr with
  | refl p s => exact .refl p s
  | ask hs _ ih => exact .ask (hle _ _ _ _ hs) ih

/-- One more call. -/
theorem Reaches.snoc {c : Call} {next : Answer c → Program Call Answer α} {x : Answer c} {t' : σ}
    (hr : Reaches serves p s h (.ask c next) t) (hs : serves c t x t') :
    Reaches serves p s (h ++ [⟨c, x⟩]) (next x) t' := by
  generalize hq : Program.ask c next = q at hr
  induction hr with
  | refl p s =>
    subst hq
    exact .ask hs (.refl _ _)
  | ask hs' _ ih => exact .ask hs' (ih hs hq)

end Reaches

/-- A handler answers as the surroundings may, in the state that a view gives of its own. -/
def Obeys (handler : Handler Call Answer τ) (view : τ → σ) (serves : Service Call Answer σ) :
    Prop :=
  ∀ c w, serves c (view w) (handler c w).1 (view (handler c w).2)

/-- What a handler makes of a program is one of its runs. -/
theorem runs_of_run {handler : Handler Call Answer τ} {view : τ → σ}
    {serves : Service Call Answer σ} (ho : Obeys handler view serves)
    {p : Program Call Answer α} {w w' : τ} {a : α} (hrun : p.run handler w = (some a, w')) :
    ∃ h, Runs serves p (view w) h a (view w') := by
  induction p generalizing w with
  | done b =>
    cases hrun
    exact ⟨[], .done _ _⟩
  | ask c next ih =>
    obtain ⟨h, hr⟩ := ih (handler c w).1 hrun
    exact ⟨⟨c, (handler c w).1⟩ :: h, .ask (ho c w) hr⟩
  | never => cases hrun

/-- The calls that a program makes under a handler. -/
def events (handler : Handler Call Answer τ) : Program Call Answer α → τ → List (Event Call Answer)
  | done _, _ => []
  | ask c next, w =>
    let (x, w) := handler c w
    ⟨c, x⟩ :: (next x).events handler w
  | never, _ => []

/-- The state that calls lead to under a handler. -/
def stateAfter (handler : Handler Call Answer τ) (h : List (Event Call Answer)) (w : τ) : τ :=
  h.foldl (fun w e => (handler e.call w).2) w

theorem stateAfter_append (handler : Handler Call Answer τ) (h h' : List (Event Call Answer))
    (w : τ) : stateAfter handler (h ++ h') w = stateAfter handler h' (stateAfter handler h w) :=
  List.foldl_append

theorem stateAfter_events (handler : Handler Call Answer τ) (p : Program Call Answer α) (w : τ) :
    stateAfter handler (p.events handler w) w = (p.run handler w).2 := by
  induction p generalizing w with
  | done a => rfl
  | ask c next ih => exact ih _ _
  | never => rfl

section Bind

variable {handler : Handler Call Answer τ} {p : Program Call Answer α} {w w' : τ}

theorem run_bind_of_some {a : α} (hp : p.run handler w = (some a, w'))
    (f : α → Program Call Answer β) : (p.bind f).run handler w = (f a).run handler w' := by
  rw [run_bind, hp]

theorem run_bind_of_none (hp : p.run handler w = (none, w')) (f : α → Program Call Answer β) :
    (p.bind f).run handler w = (none, w') := by
  rw [run_bind, hp]

theorem events_bind_of_some {a : α} (hp : p.run handler w = (some a, w'))
    (f : α → Program Call Answer β) :
    (p.bind f).events handler w = p.events handler w ++ (f a).events handler w' := by
  induction p generalizing w with
  | done b =>
    cases hp
    rfl
  | ask c next ih => exact congrArg _ (ih _ hp)
  | never => cases hp

theorem events_bind_of_none (hp : p.run handler w = (none, w')) (f : α → Program Call Answer β) :
    (p.bind f).events handler w = p.events handler w := by
  induction p generalizing w with
  | done b => cases hp
  | ask c next ih => exact congrArg _ (ih _ hp)
  | never => rfl

theorem run_bind_done (f : α → β) :
    ((p.bind fun a => done (f a)).run handler w).1 = (p.run handler w).1.map f := by
  induction p generalizing w with
  | done a => rfl
  | ask c next ih => exact ih _
  | never => rfl

theorem events_bind_done (f : α → β) :
    (p.bind fun a => done (f a)).events handler w = p.events handler w := by
  induction p generalizing w with
  | done a => rfl
  | ask c next ih => exact congrArg _ (ih _)
  | never => rfl

end Bind

/-- Surroundings that answer as a handler does. -/
def servedBy (handler : Handler Call Answer τ) : Service Call Answer τ :=
  fun c w x w' => handler c w = (x, w')

theorem runs_servedBy_iff {handler : Handler Call Answer τ} {p : Program Call Answer α}
    {w w' : τ} {h : List (Event Call Answer)} {a : α} :
    Runs (servedBy handler) p w h a w' ↔
      p.run handler w = (some a, w') ∧ h = p.events handler w := by
  constructor
  · intro hr
    induction hr with
    | done a s => exact ⟨rfl, rfl⟩
    | @ask c next s s' t x h a hs _ ih =>
      obtain ⟨hrun, rfl⟩ := ih
      have hanswer : handler c s = (x, s') := hs
      simpa [run, events, hanswer] using hrun
  · rintro ⟨hrun, rfl⟩
    induction p generalizing w with
    | done b =>
      cases hrun
      exact .done _ _
    | ask c next ih => exact .ask rfl (ih _ hrun)
    | never => cases hrun

/-- Under a handler a program gets as far as its run does. -/
theorem reaches_run (handler : Handler Call Answer τ) (p : Program Call Answer α) (w : τ) :
    ∃ q, Reaches (servedBy handler) p w (p.events handler w) q (p.run handler w).2 := by
  induction p generalizing w with
  | done a => exact ⟨_, .refl _ w⟩
  | ask c next ih =>
    obtain ⟨q, hq⟩ := ih (handler c w).1 (handler c w).2
    exact ⟨q, .ask rfl hq⟩
  | never => exact ⟨_, .refl _ w⟩

/-! ## Many programs -/

section Interleaves

variable [DecidableEq ι] {res : ι → Type}

/-- Programs take turns. Each call is one step, and the history tells whose it was. -/
inductive Interleaves (serves : Service Call Answer σ) :
    ((i : ι) → Program Call Answer (res i)) → σ → List (ι × Event Call Answer) →
      ((i : ι) → Program Call Answer (res i)) → σ → Prop where
  | nil (ps : (i : ι) → Program Call Answer (res i)) (s : σ) : Interleaves serves ps s [] ps s
  | cons {ps qs : (i : ι) → Program Call Answer (res i)} {s s' t : σ} {i : ι} {c : Call}
      {next : Answer c → Program Call Answer (res i)} {x : Answer c}
      {h : List (ι × Event Call Answer)} :
      ps i = .ask c next → serves c s x s' →
      Interleaves serves (Function.update ps i (next x)) s' h qs t →
      Interleaves serves ps s ((i, ⟨c, x⟩) :: h) qs t

/-- A program alone is a pool of one. -/
theorem Runs.interleaves {serves : Service Call Answer σ} {p : Program Call Answer α} {s t : σ}
    {h : List (Event Call Answer)} {a : α} (hr : Runs serves p s h a t) :
    Interleaves serves (fun _ : Unit => p) s (h.map (Prod.mk ())) (fun _ => .done a) t := by
  induction hr with
  | done a s => exact .nil _ s
  | ask hs _ ih =>
    refine .cons rfl hs ?_
    rw [Function.update_eq_const_of_subsingleton]
    exact ih

section Interleaves

variable {serves serves' : Service Call Answer σ} {s t : σ} {h : List (ι × Event Call Answer)}
  {ps qs : (i : ι) → Program Call Answer (res i)}

theorem Interleaves.append {rs : (i : ι) → Program Call Answer (res i)} {u : σ}
    {h' : List (ι × Event Call Answer)} (hi : Interleaves serves ps s h qs t)
    (hi' : Interleaves serves qs t h' rs u) : Interleaves serves ps s (h ++ h') rs u := by
  induction hi with
  | nil ps s => exact hi'
  | cons hask hs _ ih => exact .cons hask hs (ih hi')

/-- One more call of one of the programs. -/
theorem Interleaves.snoc {i : ι} {c : Call} {next : Answer c → Program Call Answer (res i)}
    {x : Answer c} {u : σ} (hi : Interleaves serves ps s h qs t) (hask : qs i = .ask c next)
    (hs : serves c t x u) :
    Interleaves serves ps s (h ++ [(i, ⟨c, x⟩)]) (Function.update qs i (next x)) u :=
  hi.append (.cons hask hs (.nil _ _))

/-- What some surroundings may answer, more lenient ones may answer too. -/
theorem Interleaves.mono (hle : ∀ c s x s', serves c s x s' → serves' c s x s')
    (hi : Interleaves serves ps s h qs t) : Interleaves serves' ps s h qs t := by
  induction hi with
  | nil ps s => exact .nil ps s
  | cons hask hs _ ih => exact .cons hask (hle _ _ _ _ hs) ih

/-- What every call keeps, an interleaving keeps. -/
theorem Interleaves.keeps (holds : σ → Prop)
    (hkeep : ∀ c s x s', serves c s x s' → holds s → holds s')
    (hi : Interleaves serves ps s h qs t) (hs : holds s) : holds t := by
  induction hi with
  | nil => exact hs
  | cons _ hserves _ ih => exact ih (hkeep _ _ _ _ hserves hs)

/-- One of many programs runs to its end while the others wait. -/
theorem Runs.among (ps : (i : ι) → Program Call Answer (res i)) (i : ι)
    {h : List (Event Call Answer)} {r : res i} (hr : Runs serves (ps i) s h r t) :
    Interleaves serves ps s (h.map (Prod.mk i)) (Function.update ps i (.done r)) t := by
  generalize hp : ps i = p at hr
  induction hr generalizing ps with
  | done r s =>
    rw [← hp, Function.update_eq_self]
    exact .nil ps s
  | ask hs _ ih =>
    have hrest := ih _ (Function.update_self i (_ : Program Call Answer (res i)) ps)
    rw [Function.update_idem] at hrest
    exact .cons hp hs hrest

end Interleaves

/-- The programs have come to their ends with these results. -/
def Finished (ps : (i : ι) → Program Call Answer (res i)) (results : (i : ι) → res i) : Prop :=
  ∀ i, ps i = .done (results i)

end Interleaves

/-! ## Histories -/

section History

variable {h t : List (ι × Event Call Answer)} {i j : ι} {e : Event Call Answer}

/-- The program makes a call of this kind in a history. -/
def Calls (h : List (ι × Event Call Answer)) (i : ι) (kind : Call → Prop) : Prop :=
  ∃ e, (i, e) ∈ h ∧ kind e.call

theorem Calls.mono {kind : Call → Prop} (hc : Calls h i kind)
    (hsub : ∀ p ∈ h, p ∈ t) : Calls t i kind := by
  obtain ⟨e, he, hk⟩ := hc
  exact ⟨e, hsub _ he, hk⟩

/-- A call of the first program comes before one of the second. -/
def Before (h : List (ι × Event Call Answer)) (i j : ι) : Prop :=
  ∃ e₁ e₂, [(i, e₁), (j, e₂)].Sublist h

/-- Between two calls of the first program there is one of the second. -/
def Crosses (h : List (ι × Event Call Answer)) (i j : ι) : Prop :=
  ∃ e₁ e₂ e₃, [(i, e₁), (j, e₂), (i, e₃)].Sublist h

/-- Neither of two programs makes all its calls before the other. -/
def Overlap (h : List (ι × Event Call Answer)) (i j : ι) : Prop :=
  Crosses h i j ∨ Crosses h j i

theorem Overlap.symm (ho : Overlap h i j) : Overlap h j i :=
  Or.symm ho

/-- First the second program makes all its calls, then the first one, and no other makes any. -/
def Follows (h : List (ι × Event Call Answer)) (i j : ι) : Prop :=
  ∃ h₁ h₂, h = h₁ ++ h₂ ∧ (∀ p ∈ h₁, p.1 = j) ∧ ∀ p ∈ h₂, p.1 = i

theorem Follows.snoc (hf : Follows h i j) (e : Event Call Answer) :
    Follows (h ++ [(i, e)]) i j := by
  obtain ⟨h₁, h₂, rfl, hfirst, hsecond⟩ := hf
  refine ⟨h₁, h₂ ++ [(i, e)], List.append_assoc .., hfirst, ?_⟩
  rw [List.forall_mem_append]
  exact ⟨hsecond, by simp⟩

theorem Follows.not_before (hf : Follows h i j) (hij : i ≠ j) : ¬ Before h i j := by
  obtain ⟨h₁, h₂, rfl, hfirst, hsecond⟩ := hf
  rintro ⟨e₁, e₂, hs⟩
  obtain ⟨t₁, t₂, ht, hs₁, hs₂⟩ := List.sublist_append_iff.1 hs
  cases t₁ with
  | nil =>
    obtain rfl : _ = t₂ := ht
    exact hij (hsecond _ (hs₂.subset (.tail _ (.head _)))).symm
  | cons p t₁ =>
    obtain ⟨rfl, -⟩ := List.cons.inj ht
    exact hij (hfirst _ (hs₁.subset (.head _)))

theorem Overlap.before (ho : Overlap h i j) : Before h i j := by
  rcases ho with ⟨e₁, e₂, e₃, hs⟩ | ⟨e₁, e₂, e₃, hs⟩
  · exact ⟨e₁, e₂, (List.sublist_append_left [(i, e₁), (j, e₂)] [(i, e₃)]).trans hs⟩
  · exact ⟨e₂, e₃, (List.sublist_append_right [(j, e₁)] [(i, e₂), (j, e₃)]).trans hs⟩

theorem Before.append (hb : Before h i j) (t : List (ι × Event Call Answer)) :
    Before (h ++ t) i j := by
  obtain ⟨e₁, e₂, hs⟩ := hb
  exact ⟨e₁, e₂, hs.trans (List.sublist_append_left h t)⟩

theorem Crosses.append (hc : Crosses h i j) (t : List (ι × Event Call Answer)) :
    Crosses (h ++ t) i j := by
  obtain ⟨e₁, e₂, e₃, hs⟩ := hc
  exact ⟨e₁, e₂, e₃, hs.trans (List.sublist_append_left h t)⟩

theorem before_snoc {e₁ : Event Call Answer} (hi : (i, e₁) ∈ h) (j : ι) (e : Event Call Answer) :
    Before (h ++ [(j, e)]) i j :=
  ⟨e₁, e, (List.singleton_sublist.2 hi).append (List.Sublist.refl [(j, e)])⟩

theorem Before.crosses (hb : Before h i j) (he : (i, e) ∈ t) : Crosses (h ++ t) i j := by
  obtain ⟨e₁, e₂, hs⟩ := hb
  exact ⟨e₁, e₂, e, hs.append (List.singleton_sublist.2 he)⟩

end History

end ClusterJobs.Program
