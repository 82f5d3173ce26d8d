import Mathlib.Data.List.Nodup
import Mathlib.Data.List.Perm.Basic
import ClusterJobs.Proofs.Interleaving
import ClusterJobs.Proofs.Task.Slots

/-!
# Schedules of a pool

The programs of a pool take turns in any order. Each makes the calls that it would make alone with
the same answers. None is lost and none ends twice, so that the results can be put in order at the
end.
-/

namespace ClusterJobs

open Program

variable {α σ : Type}

/-! ## One program among others -/

/-- Calls that a program can make, answered like this, and what is left of it then. -/
abbrev Leads (p : TaskProgram α) (h : List (Event Call Answer)) (q : TaskProgram α) : Prop :=
  Reaches (fun _ _ _ _ => True) p () h q ()

def callsOf (i : Nat) (h : List (Nat × Event Call Answer)) : List (Event Call Answer) :=
  h.filterMap fun q => if q.1 = i then some q.2 else none

theorem callsOf_append (i : Nat) (h h' : List (Nat × Event Call Answer)) :
    callsOf i (h ++ h') = callsOf i h ++ callsOf i h' :=
  List.filterMap_append

theorem callsOf_self (i : Nat) (e : Event Call Answer) : callsOf i [(i, e)] = [e] := by
  simp [callsOf]

theorem callsOf_of_ne {i j : Nat} (hij : j ≠ i) (e : Event Call Answer) :
    callsOf i [(j, e)] = [] := by
  simp [callsOf, hij]

theorem mem_callsOf {i : Nat} {h : List (Nat × Event Call Answer)} {e : Event Call Answer} :
    e ∈ callsOf i h ↔ (i, e) ∈ h := by
  simp [callsOf]

namespace Pool

/-! ## Turns -/

/-- One turn in a pool with so many slots. The programs that run stand in no order. -/
inductive Turn (serves : Service Call Answer σ) (idles : σ → σ → Prop) (slots : Nat) :
    Pool α → σ → List (Nat × Event Call Answer) → Pool α → σ → Prop where
  /-- Time passes. -/
  | wait (p : Pool α) {s s' : σ} : idles s s' → Turn serves idles slots p s [] p s'
  | reorder {p : Pool α} {l : List (Waiting α)} (s : σ) : p.running.Perm l →
      Turn serves idles slots p s [] { p with running := l } s
  | call {p : Pool α} {rest : List (Waiting α)} {wake i : Nat} {c : Call}
      {next : Answer c → TaskProgram α} {x : Answer c} {s s' : σ} (wake' : Nat) :
      p.running = ⟨wake, i, .ask c next⟩ :: rest → serves c s x s' →
      Turn serves idles slots p s [(i, ⟨c, x⟩)]
        { p with running := ⟨wake', i, next x⟩ :: rest } s'
  | finish {p : Pool α} {rest : List (Waiting α)} {wake i : Nat} {a : α} (s : σ) :
      p.running = ⟨wake, i, .done a⟩ :: rest →
      Turn serves idles slots p s [] { p with running := rest, finished := (i, a) :: p.finished } s
  | start {p : Pool α} {rest : List (Nat × TaskProgram α)} {i : Nat} {q : TaskProgram α} (s : σ)
      (wake : Nat) : p.pending = (i, q) :: rest → p.running.length < slots →
      Turn serves idles slots p s []
        { p with running := ⟨wake, i, q⟩ :: p.running, pending := rest } s

inductive Turns (serves : Service Call Answer σ) (idles : σ → σ → Prop) (slots : Nat) :
    Pool α → σ → List (Nat × Event Call Answer) → Pool α → σ → Prop where
  | refl (p : Pool α) (s : σ) : Turns serves idles slots p s [] p s
  | cons {p p' q : Pool α} {s s' t : σ} {h h' : List (Nat × Event Call Answer)} :
      Turn serves idles slots p s h p' s' → Turns serves idles slots p' s' h' q t →
      Turns serves idles slots p s (h ++ h') q t

/-- What is known of a pool of these programs after these calls. -/
structure Tracks (programs : List (TaskProgram α)) (h : List (Nat × Event Call Answer))
    (p : Pool α) : Prop where
  places : p.places.Perm (List.range programs.length)
  running : ∀ w ∈ p.running, ∃ q, programs[w.place]? = some q ∧
    Leads q (callsOf w.place h) w.program
  pending : ∀ q ∈ p.pending, programs[q.1]? = some q.2 ∧ callsOf q.1 h = []
  finished : ∀ r ∈ p.finished, ∃ q, programs[r.1]? = some q ∧
    Leads q (callsOf r.1 h) (.done r.2)
  known : ∀ e ∈ h, e.1 < programs.length

section Turns

variable {serves : Service Call Answer σ} {idles : σ → σ → Prop} {slots : Nat} {p p' q : Pool α}
  {s s' t : σ} {h h' : List (Nat × Event Call Answer)} {programs : List (TaskProgram α)}
  {w : Waiting α} {rest : List (Waiting α)} {i : Nat}

theorem Turns.trans (hp : Turns serves idles slots p s h p' s')
    (hq : Turns serves idles slots p' s' h' q t) : Turns serves idles slots p s (h ++ h') q t := by
  induction hp with
  | refl p s => exact hq
  | cons ht _ ih =>
    rw [List.append_assoc]
    exact .cons ht (ih hq)

theorem Tracks.alone (hp : p.Tracks programs h) (hw : p.running = w :: rest) :
    (∀ v ∈ rest, v.place ≠ w.place) ∧ (∀ q ∈ p.pending, q.1 ≠ w.place) ∧
      ∀ r ∈ p.finished, r.1 ≠ w.place := by
  have hnodup := hp.places.nodup_iff.2 List.nodup_range
  simp only [Pool.places, hw, List.map_cons, List.cons_append, List.nodup_cons, List.mem_append,
    List.mem_map, not_or, not_exists, not_and] at hnodup
  obtain ⟨⟨⟨hrest, hpending⟩, hfinished⟩, -⟩ := hnodup
  exact ⟨hrest, hpending, hfinished⟩

theorem Tracks.lt (hp : p.Tracks programs h) (hi : i ∈ p.places) : i < programs.length :=
  List.mem_range.1 (hp.places.subset hi)

/-- The program that runs first makes a call, which is one more of its own and of no other. -/
theorem Tracks.call {wake : Nat} {c : Call} {next : Answer c → TaskProgram α} (wake' : Nat)
    (x : Answer c) (hp : p.Tracks programs h) (hw : p.running = ⟨wake, i, .ask c next⟩ :: rest) :
    Tracks programs (h ++ [(i, ⟨c, x⟩)]) { p with running := ⟨wake', i, next x⟩ :: rest } := by
  obtain ⟨hrest, hpending, hfinished⟩ := hp.alone hw
  have hrunning := hp.running
  rw [hw, List.forall_mem_cons] at hrunning
  have hother : ∀ j, j ≠ i → callsOf j (h ++ [(i, ⟨c, x⟩)]) = callsOf j h := by
    intro j hj
    rw [callsOf_append, callsOf_of_ne hj.symm, List.append_nil]
  refine ⟨?_, List.forall_mem_cons.2 ⟨?_, ?_⟩, ?_, ?_, ?_⟩
  · have hplaces := hp.places
    simp only [Pool.places, hw, List.map_cons] at hplaces ⊢
    exact hplaces
  · obtain ⟨q, hq, hleads⟩ := hrunning.1
    refine ⟨q, hq, ?_⟩
    rw [callsOf_append, callsOf_self]
    exact hleads.snoc trivial
  · intro v hv
    rw [hother v.place (hrest v hv)]
    exact hrunning.2 v hv
  · intro q hq
    rw [hother q.1 (hpending q hq)]
    exact hp.pending q hq
  · intro r hr
    rw [hother r.1 (hfinished r hr)]
    exact hp.finished r hr
  · rw [List.forall_mem_append, List.forall_mem_singleton]
    refine ⟨hp.known, hp.lt (i := i) ?_⟩
    simp [Pool.places, hw]

theorem Tracks.finish {wake : Nat} {a : α} (hp : p.Tracks programs h)
    (hw : p.running = ⟨wake, i, .done a⟩ :: rest) :
    Tracks programs h { p with running := rest, finished := (i, a) :: p.finished } := by
  have hrunning := hp.running
  rw [hw, List.forall_mem_cons] at hrunning
  refine ⟨?_, hrunning.2, hp.pending, List.forall_mem_cons.2 ⟨hrunning.1, hp.finished⟩, hp.known⟩
  refine List.Perm.trans ?_ hp.places
  simp only [Pool.places, hw, List.map_cons]
  exact List.perm_middle

theorem Tracks.start {others : List (Nat × TaskProgram α)} {q : TaskProgram α} (wake : Nat)
    (hp : p.Tracks programs h) (hw : p.pending = (i, q) :: others) :
    Tracks programs h { p with running := ⟨wake, i, q⟩ :: p.running, pending := others } := by
  have hpending := hp.pending
  rw [hw, List.forall_mem_cons] at hpending
  obtain ⟨⟨hq, hcalls⟩, hothers⟩ := hpending
  have hfirst : Leads q (callsOf i h) q := hcalls ▸ .refl q ()
  refine ⟨?_, List.forall_mem_cons.2 ⟨⟨q, hq, hfirst⟩, hp.running⟩, hothers, hp.finished, hp.known⟩
  refine List.Perm.trans ?_ hp.places
  simp only [Pool.places, hw, List.map_cons, List.cons_append]
  exact (List.perm_middle.symm).append_right _

theorem Tracks.reorder {l : List (Waiting α)} (hp : p.Tracks programs h) (hl : p.running.Perm l) :
    Tracks programs h { p with running := l } := by
  refine ⟨?_, fun w hw => hp.running w (hl.symm.subset hw), hp.pending, hp.finished, hp.known⟩
  exact (((hl.symm.map _).append_right _).append_right _).trans hp.places

theorem Tracks.turn (hp : p.Tracks programs h) (ht : Turn serves idles slots p s h' p' s') :
    p'.Tracks programs (h ++ h') := by
  cases ht with
  | wait _ =>
    rw [List.append_nil]
    exact hp
  | reorder _ hl =>
    rw [List.append_nil]
    exact hp.reorder hl
  | call wake' hw _ => exact hp.call wake' _ hw
  | finish _ hw =>
    rw [List.append_nil]
    exact hp.finish hw
  | start _ wake hw _ =>
    rw [List.append_nil]
    exact hp.start wake hw

theorem Tracks.turns (hp : p.Tracks programs h) (ht : Turns serves idles slots p s h' p' s') :
    p'.Tracks programs (h ++ h') := by
  induction ht generalizing h with
  | refl p s =>
    rw [List.append_nil]
    exact hp
  | cons ht _ ih =>
    rw [← List.append_assoc]
    exact ih (hp.turn ht)

theorem mem_placed {n : Nat} {r : Nat × TaskProgram α} (hr : r ∈ placed n programs) :
    n ≤ r.1 ∧ programs[r.1 - n]? = some r.2 := by
  induction programs generalizing n with
  | nil => cases hr
  | cons q programs ih =>
    rcases List.mem_cons.1 hr with rfl | hr
    · simp
    · obtain ⟨hle, hget⟩ := ih hr
      refine ⟨Nat.le_of_succ_le hle, ?_⟩
      rw [show r.1 - n = r.1 - (n + 1) + 1 by omega]
      exact hget

theorem tracks_start (slots now : Nat) (programs : List (TaskProgram α)) :
    (start slots now programs).Tracks programs [] := by
  have hplaced : ∀ r ∈ placed 0 programs, programs[r.1]? = some r.2 :=
    fun r hr => (mem_placed hr).2
  refine ⟨?_, ?_, ?_, List.forall_mem_nil _, List.forall_mem_nil _⟩
  · unfold places
    rw [map_start, List.range_eq_range']
    simp [start]
  · intro w hw
    obtain ⟨r, hr, rfl⟩ := List.mem_map.1 hw
    exact ⟨r.2, hplaced r (List.mem_of_mem_take hr), .refl r.2 ()⟩
  · exact fun r hr => ⟨hplaced r (List.mem_of_mem_drop hr), rfl⟩

/-! ## Results -/

theorem mapM_lookup (ended : List (Nat × α)) (is : List Nat)
    (hall : ∀ i ∈ is, i ∈ ended.map Prod.fst) :
    ∃ results, is.mapM (fun i => ended.lookup i) = some results ∧
      is.map (fun i => ended.lookup i) = results.map some := by
  induction is with
  | nil => exact ⟨[], rfl, rfl⟩
  | cons i is ih =>
    rw [List.forall_mem_cons] at hall
    obtain ⟨results, hresults, hmap⟩ := ih hall.2
    cases hlookup : ended.lookup i with
    | none =>
      obtain ⟨r, hr, rfl⟩ := List.mem_map.1 hall.1
      have hne := List.lookup_eq_none_iff.1 hlookup r hr
      simp at hne
    | some a => exact ⟨a :: results, by simp [hlookup, hresults], by simp [hlookup, hmap]⟩

/-- If each place has ended once, the results can be put in order. -/
theorem inOrder_of_perm {count : Nat} {ended : List (Nat × α)}
    (hp : (ended.map Prod.fst).Perm (List.range count)) :
    ∃ results, inOrder count ended = some results ∧ results.length = count ∧
      ∀ i a, results[i]? = some a → (i, a) ∈ ended := by
  obtain ⟨results, hresults, hmap⟩ :=
    mapM_lookup ended (List.range count) fun i hi => hp.symm.subset hi
  have hlength := congrArg List.length hmap
  simp only [List.length_map, List.length_range] at hlength
  refine ⟨results, hresults, hlength.symm, fun i a ha => ?_⟩
  have hi : i < count := hlength ▸ (List.getElem?_eq_some_iff.1 ha).1
  have hlookup : ended.lookup i = some a := by
    have hget := congrArg (·[i]?) hmap
    simpa [List.getElem?_map, List.getElem?_range hi, ha] using hget
  obtain ⟨before, after, rfl, -⟩ := List.lookup_eq_some_iff.1 hlookup
  simp

theorem mem_of_mapM {is : List Nat} {f : Nat → Option α} {results : List α}
    (hall : is.mapM f = some results) (hi : i ∈ is) : ∃ a, f i = some a := by
  induction is generalizing results with
  | nil => cases hi
  | cons j is ih =>
    simp only [List.mapM_cons, Option.bind_eq_bind, Option.bind_eq_some_iff] at hall
    obtain ⟨a, ha, rest, hrest, -⟩ := hall
    rcases List.mem_cons.1 hi with rfl | hi
    · exact ⟨a, ha⟩
    · exact ih hrest hi

theorem Tracks.all_ended {results : List α} (hp : p.Tracks programs h)
    (hresults : inOrder programs.length p.finished = some results) :
    p.running = [] ∧ p.pending = [] := by
  -- Each place has ended, and none occurs twice.
  have hnodup := hp.places.nodup_iff.2 List.nodup_range
  have hended : ∀ j ∈ p.places, j ∈ p.finished.map Prod.fst := by
    intro j hj
    obtain ⟨a, ha⟩ := mem_of_mapM hresults (hp.places.subset hj)
    obtain ⟨before, after, hsplit, -⟩ := List.lookup_eq_some_iff.1 ha
    rw [hsplit]
    simp
  unfold Pool.places at hnodup hended
  have hdisjoint := List.disjoint_of_nodup_append hnodup
  constructor
  · refine List.eq_nil_iff_forall_not_mem.2 fun w hw => ?_
    have hplace := List.mem_append_left (p.pending.map Prod.fst)
      (List.mem_map_of_mem (f := Waiting.place) hw)
    exact hdisjoint hplace (hended _ (List.mem_append_left _ hplace))
  · refine List.eq_nil_iff_forall_not_mem.2 fun q hq => ?_
    have hplace := List.mem_append_right (p.running.map Waiting.place)
      (List.mem_map_of_mem (f := Prod.fst) hq)
    exact hdisjoint hplace (hended _ (List.mem_append_left _ hplace))

/-- When all programs have ended, each has the result that its own calls lead to. -/
theorem Tracks.exists_results (hp : p.Tracks programs h) (hrunning : p.running = [])
    (hpending : p.pending = []) :
    ∃ results, inOrder programs.length p.finished = some results ∧
      results.length = programs.length ∧ ∀ i q, programs[i]? = some q →
        ∃ a, results[i]? = some a ∧ Leads q (callsOf i h) (.done a) := by
  have hplaces := hp.places
  simp only [Pool.places, hrunning, hpending, List.map_nil, List.nil_append] at hplaces
  obtain ⟨results, hresults, hlength, hmem⟩ := inOrder_of_perm hplaces
  refine ⟨results, hresults, hlength, fun i q hq => ?_⟩
  have hi : i < results.length := hlength ▸ (List.getElem?_eq_some_iff.1 hq).1
  obtain ⟨q', hq', hleads⟩ := hp.finished _ (hmem i _ (List.getElem?_eq_getElem hi))
  cases hq.symm.trans hq'
  exact ⟨results[i], List.getElem?_eq_getElem hi, hleads⟩

end Turns

end Pool

/-! ## Turns of the pool that runs -/

/-- The answers of a handler to programs in slots. It is not asked for pauses. -/
def slotted (handler : Handler Call Answer (Timed σ)) : Service Call Answer (Timed σ) :=
  fun c s x s' => (∃ ms, c = .pause ms) ∧ s' = s ∨ handler c s = (x, s')

theorem slotted_pause (handler : Handler Call Answer (Timed σ)) (ms : Nat)
    (x : Answer (.pause ms)) (s : Timed σ) : slotted handler (.pause ms) s x s :=
  .inl ⟨⟨ms, rfl⟩, rfl⟩

theorem slotted_handler (handler : Handler Call Answer (Timed σ)) (c : Call) (s : Timed σ) :
    slotted handler c s (handler c s).1 (handler c s).2 :=
  .inr rfl

def Later (s s' : Timed σ) : Prop :=
  s'.state = s.state ∧ s.now ≤ s'.now

/-- What is left of a program that got so far. -/
def Progress.left : Progress α → TaskProgram α
  | finished a => .done a
  | paused _ rest => rest
  | stuck => .never

theorem advance_pause (handler : Handler Call Answer (Timed σ)) (ms : Nat)
    (next : Answer (.pause ms) → TaskProgram α) (s : Timed σ) :
    advance handler (.ask (.pause ms) next) s =
      if ms = 0 then advance handler (next ()) s else (.paused (s.now + ms) (next ()), s) :=
  rfl

theorem advance_ask (handler : Handler Call Answer (Timed σ)) {c : Call}
    (hc : ∀ ms, c ≠ .pause ms) (next : Answer c → TaskProgram α) (s : Timed σ) :
    advance handler (.ask c next) s = advance handler (next (handler c s).1) (handler c s).2 := by
  cases c with
  | pause ms => exact absurd rfl (hc ms)
  | _ => rfl

namespace Pool

section Slotted

variable {handler : Handler Call Answer (Timed σ)} {slots : Nat} {p : Pool α} {s : Timed σ}
  {rest stuck : List (Waiting α)} {pending : List (Nat × TaskProgram α)} {finished : List (Nat × α)}

theorem turns_advance (handler : Handler Call Answer (Timed σ)) (slots : Nat)
    (rest : List (Waiting α)) (pending : List (Nat × TaskProgram α)) (finished : List (Nat × α))
    (program : TaskProgram α) (wake i : Nat) (s : Timed σ) :
    ∃ h wake', Turns (slotted handler) Later slots ⟨⟨wake, i, program⟩ :: rest, pending, finished⟩ s
        h ⟨⟨wake', i, (advance handler program s).1.left⟩ :: rest, pending, finished⟩
        (advance handler program s).2 ∧
      ∀ t q, (advance handler program s).1 = .paused t q → wake' = t := by
  induction program generalizing wake s with
  | done a => exact ⟨[], wake, .refl _ s, nofun⟩
  | never => exact ⟨[], wake, .refl _ s, nofun⟩
  | ask c next ih =>
    by_cases hc : ∃ ms, c = .pause ms
    · obtain ⟨ms, rfl⟩ := hc
      rw [advance_pause]
      split
      · obtain ⟨h, wake', hturns, hwake⟩ := ih () wake s
        exact ⟨_, wake', .cons (.call wake rfl (slotted_pause handler ms () s)) hturns, hwake⟩
      · refine ⟨_, s.now + ms,
          .cons (.call (s.now + ms) rfl (slotted_pause handler ms () s)) (.refl _ s), ?_⟩
        rintro t q ⟨⟩
        rfl
    · rw [advance_ask handler fun ms hms => hc ⟨ms, hms⟩]
      obtain ⟨h, wake', hturns, hwake⟩ := ih (handler c s).1 wake (handler c s).2
      exact ⟨_, wake', .cons (.call wake rfl (slotted_handler handler c s)) hturns, hwake⟩

/-- The slots of a pool, some of them held by programs that wait forever. -/
structure Occupied (slots : Nat) (p : Pool α) (stuck : List (Waiting α)) : Prop where
  never : ∀ w ∈ stuck, w.program = .never
  le : p.running.length + stuck.length ≤ slots
  busy : p.pending = [] ∨ p.running.length + stuck.length = slots

theorem occupied_start (slots now : Nat) (programs : List (TaskProgram α)) :
    (start slots now programs).Occupied slots [] := by
  refine ⟨List.forall_mem_nil _, ?_, ?_⟩
  · simp only [start, List.length_map, List.length_take, List.length_nil]
    omega
  · by_cases hlen : (placed 0 programs).length ≤ slots
    · exact .inl (List.drop_eq_nil_of_le hlen)
    · refine .inr ?_
      simp only [start, List.length_map, List.length_take, List.length_nil]
      omega

theorem turns_settle (handler : Handler Call Answer (Timed σ)) (progress : Progress α)
    {wake : Nat} (i : Nat) (s : Timed σ)
    (hwake : ∀ t q, progress = .paused t q → wake = t)
    (ho : Occupied slots ⟨⟨wake, i, progress.left⟩ :: rest, pending, finished⟩ stuck) :
    ∃ h p' stuck', p' = (Pool.mk rest pending finished).settle i s.now progress ∧
      Occupied slots p' stuck' ∧
      Turns (slotted handler) Later slots
        ⟨⟨wake, i, progress.left⟩ :: (rest ++ stuck), pending, finished⟩ s h
        { p' with running := p'.running ++ stuck' } s := by
  obtain ⟨hnever, hle, hbusy⟩ := ho
  simp only [List.length_cons] at hle hbusy
  cases progress with
  | finished a =>
    cases pending with
    | nil =>
      refine ⟨_, _, stuck, rfl, ⟨hnever, ?_, .inl rfl⟩, .cons (.finish s rfl) (.refl _ s)⟩
      change rest.length + stuck.length ≤ slots
      omega
    | cons r others =>
      have hfree : (rest ++ stuck).length < slots := by
        rw [List.length_append]
        omega
      have horder := ((enqueue_perm ⟨s.now, r.1, r.2⟩ rest).symm.append_right stuck)
      refine ⟨_, _, stuck, rfl, ⟨hnever, ?_, ?_⟩,
        .cons (.finish s rfl) (.cons (.start s s.now rfl hfree) (.cons (.reorder s horder)
          (.refl _ s)))⟩
      · simp only [settle, refill, length_enqueue]
        omega
      · have hfull := hbusy.resolve_left (List.cons_ne_nil r others)
        simp only [settle, refill, length_enqueue]
        exact .inr hfull
  | paused t q =>
    obtain rfl := hwake t q rfl
    have horder := ((enqueue_perm ⟨wake, i, q⟩ rest).symm.append_right stuck)
    refine ⟨_, _, stuck, rfl, ⟨hnever, ?_, ?_⟩, .cons (.reorder s horder) (.refl _ s)⟩
    · simp only [settle, length_enqueue]
      omega
    · simp only [settle, length_enqueue]
      exact hbusy
  | stuck =>
    refine ⟨_, _, ⟨wake, i, .never⟩ :: stuck, rfl, ⟨?_, ?_, ?_⟩,
      .cons (.reorder s List.perm_middle.symm) (.refl _ s)⟩
    · exact List.forall_mem_cons.2 ⟨rfl, hnever⟩
    · simp only [settle, List.length_cons]
      omega
    · refine hbusy.imp_right fun hfull => ?_
      simp only [settle, List.length_cons]
      omega

/-- A pool that runs makes turns. What stays in its slots then waits forever. -/
theorem turns_run (handler : Handler Call Answer (Timed σ)) (s : Timed σ)
    (ho : Occupied slots p stuck) :
    ∃ h p', p'.finished = (Pool.run handler p s).1 ∧
      Occupied slots ⟨[], p'.pending, p'.finished⟩ p'.running ∧
      Turns (slotted handler) Later slots { p with running := p.running ++ stuck } s h p'
        (Pool.run handler p s).2 := by
  -- Programs that wait forever keep their slots, although the pool has dropped them.
  fun_induction Pool.run handler p s generalizing stuck with
  | case1 p s hnone =>
    refine ⟨[], ⟨stuck, p.pending, p.finished⟩, rfl, ?_, ?_⟩
    · obtain ⟨running, pending, finished⟩ := p
      subst hnone
      exact ho
    · rw [hnone]
      exact .refl _ _
  | case2 p s w rest hw turn =>
    rename_i ih
    obtain ⟨h₁, wake, hadvance, hwake⟩ := turns_advance handler slots (rest ++ stuck) p.pending
      p.finished w.program w.wake w.place { s with now := max s.now w.wake }
    change Turns _ _ _ _ _ h₁ ⟨⟨wake, w.place, turn.1.left⟩ :: _, _, _⟩ turn.2 at hadvance
    have ho₁ : Occupied slots ⟨⟨wake, w.place, turn.1.left⟩ :: rest, p.pending, p.finished⟩ stuck := by
      obtain ⟨hnever, hle, hbusy⟩ := ho
      rw [hw] at hle hbusy
      exact ⟨hnever, hle, hbusy⟩
    obtain ⟨h₂, p₁, stuck₁, rfl, ho₂, hsettle⟩ :=
      turns_settle handler turn.1 w.place turn.2 hwake ho₁
    obtain ⟨h₃, p', hended, ho₃, hrest⟩ := ih ho₂
    have hwait : Later s { s with now := max s.now w.wake } := ⟨rfl, Nat.le_max_left _ _⟩
    rw [hw]
    exact ⟨_, p', hended, ho₃, .cons (.wait _ hwait) ((hadvance.trans hsettle).trans hrest)⟩

end Slotted

end Pool

end ClusterJobs
