import Mathlib.Algebra.Ring.Nat
import ClusterJobs.Proofs.Interleaving

/-!
# Confined programs and safe programs

Whatever the surroundings answer, a confined program makes allowed calls only. If it may not wait
forever it ends. A program is safe if it makes each of its calls in a state that allows it and has a
result that is wanted in its last state.
-/

namespace ClusterJobs.Program

variable {Call : Type} {Answer : Call → Type} {α β σ : Type}

/-! ## Confined programs -/

section Confined

/-- Whatever is answered, the program makes allowed calls only, and it waits forever only if it may. -/
inductive Confined (allows : Call → Prop) (may : Prop) : Program Call Answer α → Prop where
  | done (a : α) : Confined allows may (.done a)
  | never : may → Confined allows may .never
  | ask {c : Call} {next : Answer c → Program Call Answer α} : allows c →
      (∀ x, Confined allows may (next x)) → Confined allows may (.ask c next)

variable {allows : Call → Prop} {may : Prop} {p : Program Call Answer α}
  {h : Handler Call Answer σ} {s : σ}

theorem Confined.bind {f : α → Program Call Answer β} (hp : p.Confined allows may)
    (hf : ∀ a, (f a).Confined allows may) : (p.bind f).Confined allows may := by
  induction hp with
  | done a => exact hf a
  | never hmay => exact .never hmay
  | ask hc _ ih => exact .ask hc ih

theorem Confined.mono {others : Call → Prop} (hp : p.Confined allows may)
    (h : ∀ c, allows c → others c) : p.Confined others may := by
  induction hp with
  | done a => exact .done a
  | never hmay => exact .never hmay
  | ask hc _ ih => exact .ask (h _ hc) ih

/-- A program that may not wait forever ends. -/
theorem Confined.exists_run (hp : p.Confined allows False) (h : Handler Call Answer σ) (s : σ) :
    ∃ a t, p.run h s = (some a, t) := by
  induction hp generalizing s with
  | done a => exact ⟨a, s, rfl⟩
  | never hmay => exact hmay.elim
  | ask _ _ ih => exact ih _ _

theorem Confined.events (hp : p.Confined allows may) : ∀ e ∈ p.events h s, allows e.call := by
  induction hp generalizing s with
  | done _ | never => exact List.forall_mem_nil _
  | ask hc _ ih => exact List.forall_mem_cons.2 ⟨hc, ih _⟩

/-- What the allowed calls keep, a run keeps. -/
theorem Confined.run {keeps : σ → Prop} (hp : p.Confined allows may)
    (hkeep : ∀ c s, allows c → keeps s → keeps (h c s).2) (hs : keeps s) : keeps (p.run h s).2 := by
  induction hp generalizing s with
  | done _ | never => exact hs
  | ask hc _ ih => exact ih _ (hkeep _ _ hc hs)

theorem Confined.reaches {serves : Service Call Answer σ} {q : Program Call Answer α} {t : σ}
    {calls : List (Event Call Answer)} (hp : p.Confined allows may)
    (hr : Reaches serves p s calls q t) : (∀ e ∈ calls, allows e.call) ∧ q.Confined allows may := by
  induction hr with
  | refl p s => exact ⟨List.forall_mem_nil _, hp⟩
  | ask _ _ ih =>
    cases hp with
    | ask hc hnext =>
      obtain ⟨hcalls, hq⟩ := ih (hnext _)
      exact ⟨List.forall_mem_cons.2 ⟨hc, hcalls⟩, hq⟩

/-- What holds stays so over the allowed calls, whatever they are answered. -/
def Keeps (serves : Service Call Answer σ) (allows : Call → Prop) (holds : σ → Prop) : Prop :=
  ∀ c s x t, serves c s x t → allows c → holds s → holds t

theorem Reaches.keeps {serves : Service Call Answer σ} {holds : σ → Prop}
    {q : Program Call Answer α} {t : σ} {calls : List (Event Call Answer)}
    (hkeep : Keeps serves allows holds) (hr : Reaches serves p s calls q t)
    (hcalls : ∀ e ∈ calls, allows e.call) (hs : holds s) : holds t := by
  induction hr with
  | refl p s => exact hs
  | ask hserves _ ih =>
    obtain ⟨hc, hcalls⟩ := List.forall_mem_cons.1 hcalls
    exact ih hcalls (hkeep _ _ _ _ hserves hc hs)

end Confined

/-! ## Safety -/

/-- From a state on, calls are made where they are allowed, and a wanted result is come to. -/
inductive Safe (serves : Service Call Answer σ) (allows : Call → σ → Prop) (wants : α → σ → Prop) :
    Program Call Answer α → σ → Prop where
  | done {a : α} {s : σ} : wants a s → Safe serves allows wants (.done a) s
  | ask {c : Call} {next : Answer c → Program Call Answer α} {s : σ} : allows c s →
      (∀ x s', serves c s x s' → Safe serves allows wants (next x) s') →
      Safe serves allows wants (.ask c next) s

variable {serves : Service Call Answer σ} {allows : Call → σ → Prop} {wants : α → σ → Prop}
  {p q : Program Call Answer α} {s t : σ} {h : List (Event Call Answer)}

theorem Safe.bind {f : α → Program Call Answer β} {last : β → σ → Prop}
    (hp : Safe serves allows wants p s)
    (hf : ∀ a t, wants a t → Safe serves allows last (f a) t) :
    Safe serves allows last (p.bind f) s := by
  induction hp with
  | done ha => exact hf _ _ ha
  | ask hc _ ih => exact .ask hc ih

theorem Safe.weaken {other : α → σ → Prop} (hp : Safe serves allows wants p s)
    (h : ∀ a t, wants a t → other a t) : Safe serves allows other p s := by
  induction hp with
  | done ha => exact .done (h _ _ ha)
  | ask hc _ ih => exact .ask hc ih

theorem Safe.reaches (hp : Safe serves allows wants p s) (hr : Reaches serves p s h q t) :
    Safe serves allows wants q t := by
  induction hr with
  | refl p s => exact hp
  | ask hs _ ih =>
    cases hp with
    | ask _ hnext => exact ih (hnext _ _ hs)

theorem Safe.allowed {c : Call} {next : Answer c → Program Call Answer α}
    (hp : Safe serves allows wants (.ask c next) s) : allows c s := by
  cases hp with
  | ask hc _ => exact hc

theorem Safe.wanted {a : α} (hp : Safe serves allows wants p s) (hr : Runs serves p s h a t) :
    wants a t := by
  cases hp.reaches (reaches_done_iff.2 hr) with
  | done ha => exact ha

end ClusterJobs.Program
