import ClusterJobs.Proofs.Safety
import ClusterJobs.Proofs.Task.Submission

/-!
# One object under a name

A cluster tells truthfully whether something stands under a name, but what it deletes vanishes
later, and any call may fail. Submissions and removals run one after another. As long as deletions
do not outlast the looks of a submission, no creation meets a standing object.
-/

namespace ClusterJobs

open Program

/-- An object that stands under a name. -/
structure Placed where
  /-- The number of its creation. -/
  id : Nat
  body : Json.Value
  /-- It was deleted and vanishes at some time. -/
  leaving : Bool

/-- What stands on a cluster under one name. -/
structure Occupancy where
  objects : List Placed
  /-- The number of the next creation. -/
  next : Nat
  /-- The looks that have found something since the last call that deletes. -/
  looked : Nat

namespace Occupancy

def look (s : Occupancy) : Occupancy :=
  { s with looked := s.looked + 1 }

def recount (s : Occupancy) : Occupancy :=
  { s with looked := 0 }

def place (s : Occupancy) (body : Json.Value) : Occupancy :=
  { s with objects := s.objects ++ [⟨s.next, body, false⟩], next := s.next + 1 }

def doom (s : Occupancy) : Occupancy :=
  { s with objects := s.objects.map fun p => { p with leaving := true } }

/-- Some of the objects that are leaving have vanished. -/
def Fades (s t : Occupancy) : Prop :=
  ∃ stays : Placed → Bool, (∀ p, p.leaving = false → stays p) ∧
    t = { s with objects := s.objects.filter stays }

/-- A look that succeeds is truthful. -/
def Seen (s : Occupancy) : Except Fault Bool → Occupancy → Prop
  | .ok true, t => s.objects ≠ [] ∧ t = s.look
  | .ok false, t => s.objects = [] ∧ t = s
  | .error _, t => t = s

/-- A call that succeeds has its effect, and one that fails may have had it. -/
def Attempt (s : Occupancy) (x : Except Fault Unit) (after t : Occupancy) : Prop :=
  t = after ∨ t = s ∧ x ≠ .ok ()

/-- The answers to calls about an object. Other calls do not touch it. -/
def answers (o : ObjectRef) : Service Call Answer Occupancy
  | .exists r, s, x, t => if r = o then s.Seen x t else t = s
  | .create r body, s, x, t => if r = o then s.Attempt x (s.place body) t else t = s
  | .delete r, s, x, t =>
    if r = o then s.recount.Attempt x s.recount.doom t else t = s
  | _, s, _, t => t = s

theorem answers_exists (o : ObjectRef) (s : Occupancy) (x : Except Fault Bool) (t : Occupancy) :
    answers o (.exists o) s x t ↔ s.Seen x t :=
  (if_pos rfl).to_iff

theorem answers_create (o : ObjectRef) (body : Json.Value) (s : Occupancy) (x : Except Fault Unit)
    (t : Occupancy) : answers o (.create o body) s x t ↔ s.Attempt x (s.place body) t :=
  (if_pos rfl).to_iff

theorem answers_delete (o : ObjectRef) (s : Occupancy) (x : Except Fault Unit) (t : Occupancy) :
    answers o (.delete o) s x t ↔ s.recount.Attempt x s.recount.doom t :=
  (if_pos rfl).to_iff

/-- Objects that are leaving may vanish before every call. -/
def serves (o : ObjectRef) : Service Call Answer Occupancy :=
  fun c s x t => ∃ u, s.Fades u ∧ u.answers o c x t

/-- What is leaving has vanished before it could be seen for the thirtieth time. -/
def Prompt (s : Occupancy) : Prop :=
  ∀ p ∈ s.objects, p.leaving → s.looked < Manifest.pollAttempts

/-- Deletions take effect in time. -/
def servesPromptly (o : ObjectRef) : Service Call Answer Occupancy :=
  fun c s x t => s.serves o c x t ∧ t.Prompt

/-! ## Submissions while deletions are prompt -/

/-- At most one object stands, and `n` creations or more have been made. -/
structure Sole (n : Nat) (s : Occupancy) : Prop where
  length_le : s.objects.length ≤ 1
  le_next : n ≤ s.next

/-- What stands is leaving, and so many looks are left before it has gone. -/
def Draining (k : Nat) (s : Occupancy) : Prop :=
  ∀ p ∈ s.objects, p.leaving ∧ s.looked + k = Manifest.pollAttempts

/-- The states in which a call is made: a creation only when nothing stands. -/
def Allows (n : Nat) (c : Call) (s : Occupancy) : Prop :=
  s.Sole n ∧ ∀ r body, c = .create r body → s.objects = []

section Safe

variable {o : ObjectRef} {n k : Nat} {s t u : Occupancy} {m : Manifest}

theorem Fades.sole (hf : s.Fades t) (hs : s.Sole n) : t.Sole n := by
  obtain ⟨stays, -, rfl⟩ := hf
  exact ⟨(List.length_filter_le _ _).trans hs.length_le, hs.le_next⟩

theorem Fades.draining (hf : s.Fades t) (hs : s.Draining k) : t.Draining k := by
  obtain ⟨stays, -, rfl⟩ := hf
  intro p hp
  exact hs p (List.mem_filter.1 hp |>.1)

theorem Fades.eq_nil (hf : s.Fades t) (hs : s.objects = []) : t.objects = [] := by
  obtain ⟨stays, -, rfl⟩ := hf
  simp [hs]

theorem Sole.look (hs : s.Sole n) : s.look.Sole n :=
  ⟨hs.length_le, hs.le_next⟩

theorem Sole.recount (hs : s.Sole n) : s.recount.Sole n :=
  ⟨hs.length_le, hs.le_next⟩

theorem Sole.doom (hs : s.Sole n) : s.doom.Sole n :=
  ⟨by simpa [Occupancy.doom] using hs.length_le, hs.le_next⟩

theorem Sole.place (hs : s.Sole n) (hnil : s.objects = []) (body : Json.Value) :
    (s.place body).Sole n :=
  ⟨by simp [Occupancy.place, hnil], Nat.le_succ_of_le hs.le_next⟩

theorem draining_of_nil (hs : s.objects = []) : s.Draining k := by
  intro p hp
  rw [hs] at hp
  cases hp

theorem draining_doom (s : Occupancy) : s.recount.doom.Draining Manifest.pollAttempts := by
  intro p hp
  obtain ⟨q, -, rfl⟩ := List.mem_map.1 hp
  exact ⟨rfl, Nat.zero_add _⟩

theorem Draining.look (hs : s.Draining (k + 1)) : s.look.Draining k := by
  intro p hp
  obtain ⟨hleaving, hlooked⟩ := hs p hp
  refine ⟨hleaving, ?_⟩
  change s.looked + 1 + k = _
  omega

/-- What has been looked for long enough has gone. -/
theorem eq_nil_of_draining (hd : s.Draining 0) (hp : s.Prompt) : s.objects = [] := by
  rw [List.eq_nil_iff_forall_not_mem]
  intro p hmem
  obtain ⟨hleaving, hlooked⟩ := hd p hmem
  have hlt := hp p hmem hleaving
  omega

theorem safe_stop (hm : m.ref = o) (hs : s.Sole n) :
    Safe (servesPromptly o) (Allows n)
      (fun r t => t.Sole n ∧ (r = .ok () → t.Draining Manifest.pollAttempts)) m.stop s := by
  subst hm
  refine .ask ⟨hs, nofun⟩ ?_
  rintro x t ⟨⟨u, hfades, hlook⟩, -⟩
  have hu := hfades.sole hs
  replace hlook := (answers_exists ..).1 hlook
  cases x with
  | error e =>
    obtain rfl : t = u := hlook
    exact .done ⟨hu, nofun⟩
  | ok b =>
    cases b with
    | false =>
      obtain ⟨hnil, rfl⟩ : u.objects = [] ∧ t = u := hlook
      exact .done ⟨hu, fun _ => draining_of_nil hnil⟩
    | true =>
      obtain ⟨-, rfl⟩ : u.objects ≠ [] ∧ t = u.look := hlook
      refine .ask ⟨hu.look, nofun⟩ ?_
      rintro x t ⟨⟨v, hfades', hdelete⟩, -⟩
      have hv := (hfades'.sole hu.look).recount
      replace hdelete := (answers_delete ..).1 hdelete
      cases x with
      | error e =>
        rcases hdelete with rfl | ⟨rfl, -⟩
        · exact .done ⟨hv.doom, nofun⟩
        · exact .done ⟨hv, nofun⟩
      | ok u =>
        rcases hdelete with rfl | ⟨-, hne⟩
        · exact .done ⟨hv.doom, fun _ => draining_doom v⟩
        · exact absurd rfl hne

theorem safe_awaitGone (hm : m.ref = o) (hs : s.Sole n) (hd : s.Draining k)
    (hk : k = 0 → s.Prompt) :
    Safe (servesPromptly o) (Allows n) (fun r t => t.Sole n ∧ (r = .ok () → t.objects = []))
      (m.awaitGone k) s := by
  subst hm
  -- Each look that finds the object uses up one of those that promptness grants.
  induction k generalizing s with
  | zero => exact .done ⟨hs, fun _ => eq_nil_of_draining hd (hk rfl)⟩
  | succ k ih =>
    refine .ask ⟨hs, nofun⟩ ?_
    rintro x t ⟨⟨u, hfades, hlook⟩, -⟩
    have hu := hfades.sole hs
    replace hlook := (answers_exists ..).1 hlook
    cases x with
    | error e =>
      obtain rfl : t = u := hlook
      exact .done ⟨hu, nofun⟩
    | ok b =>
      cases b with
      | false =>
        obtain ⟨hnil, rfl⟩ : u.objects = [] ∧ t = u := hlook
        exact .done ⟨hu, fun _ => hnil⟩
      | true =>
        obtain ⟨-, rfl⟩ : u.objects ≠ [] ∧ t = u.look := hlook
        refine .ask ⟨hu.look, nofun⟩ ?_
        rintro x t ⟨⟨v, hfades', hsame⟩, hprompt⟩
        obtain rfl : t = v := hsame
        exact ih (hfades'.sole hu.look) (hfades'.draining (hfades.draining hd).look)
          fun _ => hprompt

theorem safe_submit (hm : m.ref = o) (hs : s.Sole n) :
    Safe (servesPromptly o) (Allows n)
      (fun r t => t.Sole n ∧ (r = .ok () → ∃ id, n ≤ id ∧ t.objects = [⟨id, m.object, false⟩]))
      m.submit s := by
  refine (safe_stop hm hs).bind ?_
  rintro (e | u) t ⟨ht, hdrains⟩
  · exact .done ⟨ht, nofun⟩
  · refine (safe_awaitGone hm ht (hdrains rfl) nofun).bind ?_
    rintro (e | u) t ⟨ht, hgone⟩
    · exact .done ⟨ht, nofun⟩
    · subst hm
      refine .ask ⟨ht, fun _ _ _ => hgone rfl⟩ ?_
      rintro x v ⟨⟨u, hfades, hcreate⟩, -⟩
      -- Objects may still vanish before the creation, but none appears.
      have hu := hfades.sole ht
      have hnil := hfades.eq_nil (hgone rfl)
      replace hcreate := (answers_create ..).1 hcreate
      cases x with
      | error e =>
        rcases hcreate with rfl | ⟨rfl, -⟩
        · exact .done ⟨hu.place hnil m.object, nofun⟩
        · exact .done ⟨hu, nofun⟩
      | ok _ =>
        rcases hcreate with rfl | ⟨-, hne⟩
        · exact .done ⟨hu.place hnil m.object, fun _ => ⟨u.next, hu.le_next, by simp [place, hnil]⟩⟩
        · exact absurd rfl hne

end Safe

end Occupancy

/-! ## Sessions -/

inductive ObjectOp where
  | submit (m : Manifest)
  | stop (m : Manifest)

namespace ObjectOp

def manifest : ObjectOp → Manifest
  | submit m | stop m => m

def program : ObjectOp → TaskProgram (Except JobFault Unit)
  | submit m => m.submit
  | stop m => m.stop

end ObjectOp

structure ObjectDeed where
  op : ObjectOp
  calls : List TaskEvent
  result : Except JobFault Unit

namespace Occupancy

/-- Operations on an object that run one after another. -/
inductive Session (serves : Service Call Answer Occupancy) (o : ObjectRef) (s : Occupancy) :
    List ObjectDeed → Occupancy → Prop where
  | nil : Session serves o s [] s
  | snoc {t u : Occupancy} {deeds : List ObjectDeed} {d : ObjectDeed} :
      Session serves o s deeds t → d.op.manifest.ref = o →
      Runs serves d.op.program t d.calls d.result u → Session serves o s (deeds ++ [d]) u

/-- A moment of a session: an operation that began after others has so much left to do. -/
def Moment (serves : Service Call Answer Occupancy) (o : ObjectRef) (s : Occupancy)
    (rest : TaskProgram (Except JobFault Unit)) (t : Occupancy) : Prop :=
  ∃ deeds u, ∃ op : ObjectOp, ∃ h, Session serves o s deeds u ∧ op.manifest.ref = o ∧
    Reaches serves op.program u h rest t

/-- What comes of submissions and removals that run one after another. -/
structure ResubmissionSpec (o : ObjectRef) (s : Occupancy) : Prop where
  /-- The calls of each submission, however late deletions take effect. -/
  calls : ∀ deeds t, Session (serves o) o s deeds t →
    ∀ d ∈ deeds, ∀ m, d.op = .submit m → m.SubmissionCalls d.calls d.result
  /-- If they take effect in time, at most one object stands at each moment. -/
  alone : ∀ rest t, Moment (servesPromptly o) o s rest t → t.objects.length ≤ 1
  /-- When a creation is about to be made, nothing stands. -/
  clear : ∀ r body next t, Moment (servesPromptly o) o s (.ask (.create r body) next) t →
    t.objects = []
  /-- After a submission that succeeds, what it has created stands. -/
  placed : ∀ deeds u (m : Manifest) h t, Session (servesPromptly o) o s deeds u → m.ref = o →
    Runs (servesPromptly o) m.submit u h (.ok ()) t →
    ∃ id, u.next ≤ id ∧ t.objects = [⟨id, m.object, false⟩]

section Session

variable {o : ObjectRef} {s t u : Occupancy} {deeds : List ObjectDeed} {op : ObjectOp}

theorem safe_op (ho : op.manifest.ref = o) {n : Nat} (hs : s.Sole n) :
    Safe (servesPromptly o) (Allows n) (fun _ t => t.Sole n) op.program s := by
  cases op with
  | submit m => exact (safe_submit ho hs).weaken fun _ _ h => h.1
  | stop m => exact (safe_stop ho hs).weaken fun _ _ h => h.1

theorem Session.sole (hs : Session (servesPromptly o) o s deeds t) (hlen : s.objects.length ≤ 1) :
    t.Sole s.next := by
  induction hs with
  | nil => exact ⟨hlen, le_rfl⟩
  | snoc _ ho hr ih => exact (safe_op ho ih).wanted hr

theorem Session.calls {serves : Service Call Answer Occupancy} (hs : Session serves o s deeds t) :
    ∀ d ∈ deeds, ∀ m, d.op = .submit m → m.SubmissionCalls d.calls d.result := by
  induction hs with
  | nil => simp
  | @snoc t u deeds d _ _ hr ih =>
    intro d' hd m hm
    rcases List.mem_append.1 hd with hd | hd
    · exact ih d' hd m hm
    · obtain rfl := List.mem_singleton.1 hd
      rw [hm] at hr
      exact (Manifest.Submission.of_runs hr).spec

theorem Moment.safe {rest : TaskProgram (Except JobFault Unit)}
    (hm : Moment (servesPromptly o) o s rest t) (hlen : s.objects.length ≤ 1) :
    Safe (servesPromptly o) (Allows s.next) (fun _ t => t.Sole s.next) rest t := by
  obtain ⟨deeds, u, op, h, hs, ho, hr⟩ := hm
  exact (safe_op ho (hs.sole hlen)).reaches hr

theorem Moment.sole {rest : TaskProgram (Except JobFault Unit)}
    (hm : Moment (servesPromptly o) o s rest t) (hlen : s.objects.length ≤ 1) : t.Sole s.next := by
  cases hm.safe hlen with
  | done hsole => exact hsole
  | ask hallows _ => exact hallows.1

theorem resubmission_spec (o : ObjectRef) (hlen : s.objects.length ≤ 1) : ResubmissionSpec o s := by
  refine ⟨fun deeds t hs => hs.calls, fun rest t hm => (hm.sole hlen).length_le, ?_, ?_⟩
  · intro r body next t hm
    exact (hm.safe hlen).allowed.2 r body rfl
  · intro deeds u m h t hs ho hr
    have hu : u.Sole u.next := ⟨(hs.sole hlen).length_le, le_rfl⟩
    exact ((safe_submit ho hu).wanted hr).2 rfl

end Session

/-! ## A job that is submitted again -/

/-- An earlier job stands. -/
def etl : Occupancy :=
  ⟨[⟨0, .null, false⟩], 1, 0⟩

theorem Fades.refl (s : Occupancy) : s.Fades s :=
  ⟨fun _ => true, fun _ _ => rfl, by rw [List.filter_eq_self.2 fun _ _ => rfl]⟩

/-- The earlier job is found once more after its deletion, and has vanished half a second later. -/
theorem runs_submit_etl :
    Runs (servesPromptly Manifest.etl.ref) Manifest.etl.submit .etl
      [⟨.exists Manifest.etl.ref, .ok true⟩, ⟨.delete Manifest.etl.ref, .ok ()⟩,
        ⟨.exists Manifest.etl.ref, .ok true⟩, ⟨.pause 500, ()⟩,
        ⟨.exists Manifest.etl.ref, .ok false⟩,
        ⟨.create Manifest.etl.ref Manifest.etl.object, .ok ()⟩]
      (.ok ()) ⟨[⟨1, Manifest.etl.object, false⟩], 2, 1⟩ := by
  let o := Manifest.etl.ref
  have hlook : servesPromptly o (.exists o) etl (.ok true) etl.look :=
    ⟨⟨_, .refl _, (answers_exists ..).2 ⟨nofun, rfl⟩⟩, by simp [Prompt, etl, look]⟩
  have hdelete : servesPromptly o (.delete o) etl.look (.ok ()) etl.doom :=
    ⟨⟨_, .refl _, (answers_delete ..).2 (.inl rfl)⟩,
      by simp [Prompt, etl, doom, Manifest.pollAttempts]⟩
  have hlingers : servesPromptly o (.exists o) etl.doom (.ok true) etl.doom.look :=
    ⟨⟨_, .refl _, (answers_exists ..).2 ⟨nofun, rfl⟩⟩,
      by simp [Prompt, etl, doom, look, Manifest.pollAttempts]⟩
  have hpause : servesPromptly o (.pause 500) etl.doom.look () etl.doom.look :=
    ⟨⟨_, .refl _, rfl⟩, hlingers.2⟩
  have hfades : etl.doom.look.Fades ⟨[], 1, 1⟩ :=
    ⟨fun p => !p.leaving, by simp, rfl⟩
  have hgone : servesPromptly o (.exists o) etl.doom.look (.ok false) ⟨[], 1, 1⟩ :=
    ⟨⟨_, hfades, (answers_exists ..).2 ⟨rfl, rfl⟩⟩, by simp [Prompt]⟩
  have hcreate : servesPromptly o (.create o Manifest.etl.object) ⟨[], 1, 1⟩ (.ok ())
      ⟨[⟨1, Manifest.etl.object, false⟩], 2, 1⟩ :=
    ⟨⟨_, .refl _, (answers_create ..).2 (.inl rfl)⟩, by simp [Prompt]⟩
  exact .ask hlook (.ask hdelete (.ask hlingers (.ask hpause (.ask hgone
    (.ask hcreate (.done _ _))))))

theorem resubmission_of_etl :
    (∃ deeds, Session (servesPromptly Manifest.etl.ref) Manifest.etl.ref .etl deeds
      ⟨[⟨1, Manifest.etl.object, false⟩], 2, 1⟩) ∧ ResubmissionSpec Manifest.etl.ref .etl := by
  have hlen : etl.objects.length ≤ 1 := by decide
  have hs := Session.nil.snoc (d := ⟨.submit .etl, _, .ok ()⟩) rfl runs_submit_etl
  exact ⟨⟨_, hs⟩, resubmission_spec Manifest.etl.ref hlen⟩

end Occupancy

end ClusterJobs
