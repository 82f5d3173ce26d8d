import Mathlib
import ClusterJobs.Cluster.CredentialStore
import ClusterJobs.Proofs.Interleaving
import ClusterJobs.Proofs.Manifest.Members

/-!
# Sessions with a cache of clients

The keys of two targets differ, so a cache keeps a client for each of them. In a session, where clients
are asked for and forgotten one after another, what the cache holds is known from the history: the
client of a target that was answered and not forgotten since, as the latest build for it made it.
-/

namespace ClusterJobs

open Program

theorem Target.cacheKey_injective : Function.Injective Target.cacheKey := by
  intro t u h
  have hchars := congrArg String.toList h
  cases t <;> cases u <;> simp [cacheKey] at hchars ⊢ <;> exact String.ext hchars

/-- What is looked up to build the client of a target. -/
def Target.lookups : Target → List CredentialCall
  | .stored cluster => [.credentials cluster]
  | .masterUrl _ => []

variable {σ : Type} {serves : Service CredentialCall CredentialAnswer σ} {s s' : σ}
  {calls : List (Event CredentialCall CredentialAnswer)} {t u : Target} {made : Except Fault Client}
  {c : Client} {cache cache' : ClientCache}

/-! ## Builds -/

namespace Client

theorem target_ofCredentials {cluster text : String} (h : ofCredentials cluster text = .ok c) :
    c.target = .stored cluster := by
  unfold ofCredentials at h
  split at h
  · cases h
  · split at h <;> cases h
    rfl

theorem target_ofUrl {url : String} (h : ofUrl url = .ok c) : c.target = .masterUrl url := by
  unfold ofUrl at h
  split at h <;> cases h
  rfl

theorem runs_build_stored_iff {cluster : String} :
    Runs serves (build (.stored cluster)) s calls made s' ↔
      ∃ x, serves (.credentials cluster) s x s' ∧ calls = [⟨.credentials cluster, x⟩] ∧
        made = Except.bind x (ofCredentials cluster) := by
  refine runs_ask_iff.trans ?_
  constructor
  · rintro ⟨x, s₁, calls, hs, hdone, rfl⟩
    cases x with
    | ok text =>
      obtain ⟨rfl, rfl, rfl⟩ := runs_done_iff.1 hdone
      exact ⟨_, hs, rfl, rfl⟩
    | error e =>
      obtain ⟨rfl, rfl, rfl⟩ := runs_done_iff.1 hdone
      exact ⟨_, hs, rfl, rfl⟩
  · rintro ⟨x, hs, rfl, rfl⟩
    cases x with
    | ok text => exact ⟨_, s', [], hs, .done _ _, rfl⟩
    | error e => exact ⟨_, s', [], hs, .done _ _, rfl⟩

theorem runs_build_masterUrl_iff {url : String} :
    Runs serves (build (.masterUrl url)) s calls made s' ↔
      calls = [] ∧ made = ofUrl url ∧ s' = s :=
  runs_done_iff

/-- A build looks up the credentials of its own cluster once, and nothing for a URL. -/
theorem lookups_of_build (h : Runs serves (build t) s calls made s') :
    calls.map Event.call = t.lookups := by
  cases t with
  | stored cluster =>
    obtain ⟨x, -, rfl, -⟩ := runs_build_stored_iff.1 h
    rfl
  | masterUrl url =>
    obtain ⟨rfl, -, -⟩ := runs_build_masterUrl_iff.1 h
    rfl

/-- A build makes a client of its own target. -/
theorem target_of_build (h : Runs serves (build t) s calls (.ok c) s') : c.target = t := by
  cases t with
  | stored cluster =>
    obtain ⟨x, -, -, hmade⟩ := runs_build_stored_iff.1 h
    cases x with
    | ok text => exact target_ofCredentials hmade.symm
    | error e => cases hmade
  | masterUrl url => exact target_ofUrl (runs_build_masterUrl_iff.1 h).2.1.symm

theorem exists_runs_build (hserves : ∀ call s, ∃ x s', serves call s x s') (t : Target) (s : σ) :
    ∃ calls made s', Runs serves (build t) s calls made s' := by
  cases t with
  | stored cluster =>
    obtain ⟨x, s', hx⟩ := hserves (.credentials cluster) s
    exact ⟨_, _, s', runs_build_stored_iff.2 ⟨x, hx, rfl, rfl⟩⟩
  | masterUrl url => exact ⟨[], _, s, runs_build_masterUrl_iff.2 ⟨rfl, rfl, rfl⟩⟩

end Client

/-! ## Turns -/

namespace ClientCache

/-- The cache after a build; one that failed leaves it as it is. -/
def keep (cache : ClientCache) (t : Target) : Except Fault Client → ClientCache
  | .ok c => ⟨cache.clients.put t.cacheKey c⟩
  | .error _ => cache

/-- What was done with a cache. -/
inductive Deed where
  /-- The client was asked for and there. -/
  | found (t : Target) (c : Client)
  /-- The client was asked for and built, with these calls. -/
  | built (t : Target) (calls : List (Event CredentialCall CredentialAnswer))
    (made : Except Fault Client)
  | forgot (t : Target)

/-- A turn of a session: what is done with a cache, and the cache after it. -/
inductive Turn (serves : Service CredentialCall CredentialAnswer σ) (cache : ClientCache) (s : σ) :
    Deed → ClientCache → σ → Prop where
  | found {t : Target} {c : Client} : cache.clients.get? t.cacheKey = some c →
      Turn serves cache s (.found t c) cache s
  | built {t : Target} {calls : List (Event CredentialCall CredentialAnswer)}
      {made : Except Fault Client} {s' : σ} : cache.clients.get? t.cacheKey = none →
      Runs serves (Client.build t) s calls made s' →
      Turn serves cache s (.built t calls made) (cache.keep t made) s'
  | forgot (t : Target) : Turn serves cache s (.forgot t) (cache.invalidate t) s

/-- The client of a target was asked for, with these calls and this answer. -/
inductive Deed.Asks (t : Target) :
    Deed → List (Event CredentialCall CredentialAnswer) → Except Fault Client → Prop where
  | found (c : Client) : Asks t (.found t c) [] (.ok c)
  | built (calls : List (Event CredentialCall CredentialAnswer)) (made : Except Fault Client) :
      Asks t (.built t calls made) calls made

theorem client_eq (cache : ClientCache) (t : Target) :
    cache.client t = match cache.clients.get? t.cacheKey with
      | some c => .done (.ok c, cache)
      | none => (Client.build t).bind fun made => .done (made, cache.keep t made) := by
  unfold client
  cases cache.clients.get? t.cacheKey with
  | some c => rfl
  | none =>
    simp only [bind_eq, pure_eq]
    refine congrArg _ (funext fun made => ?_)
    cases made <;> rfl

/-- The runs of a request for a client are the turns that ask for it. -/
theorem runs_client_iff {answer : Except Fault Client} :
    Runs serves (cache.client t) s calls (answer, cache') s' ↔
      ∃ d, d.Asks t calls answer ∧ Turn serves cache s d cache' s' := by
  rw [client_eq]
  constructor
  · intro h
    cases hget : cache.clients.get? t.cacheKey with
    | some c =>
      simp only [hget, runs_done_iff, Prod.mk.injEq] at h
      obtain ⟨rfl, ⟨rfl, rfl⟩, rfl⟩ := h
      exact ⟨_, .found c, .found hget⟩
    | none =>
      simp only [hget, runs_bind_iff, runs_done_iff, Prod.mk.injEq] at h
      obtain ⟨calls, made, s₁, _, hbuild, ⟨rfl, ⟨rfl, rfl⟩, rfl⟩, rfl⟩ := h
      exact ⟨_, .built _ _, by simpa using Turn.built hget hbuild⟩
  · rintro ⟨d, hasks, hturn⟩
    cases hasks with
    | found c =>
      cases hturn with
      | found hget =>
        rw [hget]
        exact .done _ _
    | built =>
      cases hturn with
      | built hget hbuild =>
        rw [hget]
        exact (List.append_nil calls) ▸ hbuild.bind (.done _ _)

/-! ## Histories -/

/-- A session so far, with what was done in it, the latest first. -/
inductive Session (serves : Service CredentialCall CredentialAnswer σ) :
    ClientCache → σ → List Deed → Prop where
  | start (s : σ) : Session serves .empty s []
  | turn {cache cache' : ClientCache} {s s' : σ} {h : List Deed} {d : Deed} :
      Session serves cache s h → Turn serves cache s d cache' s' → Session serves cache' s' (d :: h)

/-- The client of the target was answered. -/
inductive Deed.Answers (t : Target) : Deed → Client → Prop where
  | found (c : Client) : Answers t (.found t c) c
  | built (calls : List (Event CredentialCall CredentialAnswer)) (c : Client) :
      Answers t (.built t calls (.ok c)) c

/-- The client of the target was answered and has not been forgotten since. -/
def Served (t : Target) (h : List Deed) : Prop :=
  ∃ later d earlier, h = later ++ d :: earlier ∧ (∃ c, d.Answers t c) ∧ .forgot t ∉ later

/-- What a build for the target has made. -/
def Deed.made? (t : Target) : Deed → Option (Except Fault Client)
  | .built u _ made => if u = t then some made else none
  | _ => none

/-- What the latest build for the target has made. -/
def latest (t : Target) (h : List Deed) : Option (Except Fault Client) :=
  h.findSome? (Deed.made? t)

section History

variable {h : List Deed} {d : Deed}

@[simp]
theorem not_served_nil : ¬ Served t [] := by
  simp [Served]

theorem served_cons_iff :
    Served t (d :: h) ↔ (∃ c, d.Answers t c) ∨ d ≠ .forgot t ∧ Served t h := by
  constructor
  · rintro ⟨_ | ⟨d', later⟩, first, earlier, hh, hc, hnot⟩
    · obtain ⟨rfl, -⟩ := List.cons.inj hh
      exact .inl hc
    · obtain ⟨rfl, rfl⟩ := List.cons.inj hh
      simp only [List.mem_cons, not_or] at hnot
      exact .inr ⟨fun heq => hnot.1 heq.symm, later, first, earlier, rfl, hc, hnot.2⟩
  · rintro (hc | ⟨hne, later, first, earlier, rfl, hc, hnot⟩)
    · exact ⟨[], d, h, rfl, hc, by simp⟩
    · refine ⟨d :: later, first, earlier, rfl, hc, ?_⟩
      simp only [List.mem_cons, not_or]
      exact ⟨fun heq => hne heq.symm, hnot⟩

@[simp]
theorem served_found_iff : Served t (.found u c :: h) ↔ u = t ∨ Served t h := by
  have hanswers : (∃ c', (Deed.found u c).Answers t c') ↔ u = t := by
    constructor
    · rintro ⟨_, ⟨⟩⟩
      rfl
    · rintro rfl
      exact ⟨c, .found c⟩
  simp [served_cons_iff, hanswers]

@[simp]
theorem served_built_ok_iff : Served t (.built u calls (.ok c) :: h) ↔ u = t ∨ Served t h := by
  have hanswers : (∃ c', (Deed.built u calls (.ok c)).Answers t c') ↔ u = t := by
    constructor
    · rintro ⟨_, ⟨⟩⟩
      rfl
    · rintro rfl
      exact ⟨c, .built calls c⟩
  simp [served_cons_iff, hanswers]

@[simp]
theorem served_built_error_iff {e : Fault} :
    Served t (.built u calls (.error e) :: h) ↔ Served t h := by
  have hanswers : ¬ ∃ c', (Deed.built u calls (.error e)).Answers t c' := nofun
  simp [served_cons_iff, hanswers]

@[simp]
theorem served_forgot_iff : Served t (.forgot u :: h) ↔ u ≠ t ∧ Served t h := by
  have hanswers : ¬ ∃ c', (Deed.forgot u).Answers t c' := nofun
  simp [served_cons_iff, hanswers]

@[simp]
theorem latest_found : latest t (.found u c :: h) = latest t h := rfl

@[simp]
theorem latest_forgot : latest t (.forgot u :: h) = latest t h := rfl

@[simp]
theorem latest_built :
    latest t (.built u calls made :: h) = if u = t then some made else latest t h := by
  by_cases hu : u = t <;> simp [latest, Deed.made?, hu]

end History

/-! ## What a cache holds -/

/-- The cache holds what the history says. -/
structure Follows (cache : ClientCache) (h : List Deed) : Prop where
  sorted : cache.clients.Sorted
  /-- Every client is kept under the key of its own target. -/
  keyed : ∀ p ∈ cache.clients, p.1 = p.2.target.cacheKey
  kept : ∀ t c, cache.clients.get? t.cacheKey = some c ↔ Served t h ∧ latest t h = some (.ok c)
  made : ∀ t, Served t h → ∃ c, latest t h = some (.ok c)

section Follows

variable {h : List Deed} {d : Deed}

theorem Follows.get?_eq_none_iff (hf : cache.Follows h) :
    cache.clients.get? t.cacheKey = none ↔ ¬ Served t h := by
  constructor
  · intro hnone hserved
    obtain ⟨c, hc⟩ := hf.made t hserved
    simp [(hf.kept t c).2 ⟨hserved, hc⟩] at hnone
  · intro hnot
    cases hget : cache.clients.get? t.cacheKey with
    | none => rfl
    | some c => exact absurd ((hf.kept t c).1 hget).1 hnot

theorem follows_empty : empty.Follows [] where
  sorted := .nil
  keyed := by simp [empty]
  kept := by simp [empty, Fields.get?]
  made := by simp

theorem Follows.found (hf : cache.Follows h) (hget : cache.clients.get? u.cacheKey = some c) :
    cache.Follows (.found u c :: h) := by
  have hserved : Served u h := ((hf.kept u c).1 hget).1
  have hsame : ∀ t, Served t (.found u c :: h) ↔ Served t h := by
    intro t
    simp only [served_found_iff, or_iff_right_iff_imp]
    rintro rfl
    exact hserved
  exact ⟨hf.sorted, hf.keyed, by simpa [hsame] using hf.kept, by simpa [hsame] using hf.made⟩

theorem Follows.built_ok (hf : cache.Follows h) (hc : c.target = u) :
    (cache.keep u (.ok c)).Follows (.built u calls (.ok c) :: h) where
  sorted := hf.sorted.put _ _
  keyed p hp := by
    rcases Fields.mem_put hp with rfl | hp
    · simp [hc]
    · exact hf.keyed p hp
  kept t c' := by
    -- No other target has this key, so what is kept for the others stays.
    simp only [keep, Fields.get?_put, Target.cacheKey_injective.eq_iff, served_built_ok_iff,
      latest_built]
    by_cases ht : u = t <;> simp [ht, hf.kept]
  made t ht := by
    by_cases hu : u = t
    · simp [hu]
    · simpa [hu] using hf.made t (by simpa [hu] using ht)

theorem Follows.built_error {e : Fault} (hf : cache.Follows h)
    (hget : cache.clients.get? u.cacheKey = none) :
    (cache.keep u (.error e)).Follows (.built u calls (.error e) :: h) := by
  have hnot : ¬ Served u h := hf.get?_eq_none_iff.1 hget
  refine ⟨hf.sorted, hf.keyed, fun t c => ?_, fun t ht => ?_⟩
  · by_cases hu : u = t
    · subst hu
      simp [keep, hget, hnot]
    · simpa [keep, hu] using hf.kept t c
  · rw [served_built_error_iff] at ht
    have hu : u ≠ t := by
      rintro rfl
      exact hnot ht
    simpa [hu] using hf.made t ht

theorem Follows.forgot (hf : cache.Follows h) : (cache.invalidate u).Follows (.forgot u :: h) where
  sorted := hf.sorted.remove _
  keyed p hp := hf.keyed p ((Fields.remove_sublist _ _).mem hp)
  kept t c := by
    simp only [invalidate, Fields.get?_remove, Target.cacheKey_injective.eq_iff, served_forgot_iff,
      latest_forgot]
    by_cases ht : u = t <;> simp [ht, hf.kept]
  made t ht := by
    rw [served_forgot_iff] at ht
    exact hf.made t ht.2

/-- One turn keeps cache and history together. -/
theorem Turn.follows (hturn : Turn serves cache s d cache' s') (hf : cache.Follows h) :
    cache'.Follows (d :: h) := by
  cases hturn with
  | found hget => exact hf.found hget
  | @built t calls made s' hget hbuild =>
    cases made with
    | ok c => exact hf.built_ok (Client.target_of_build hbuild)
    | error e => exact hf.built_error hget
  | forgot t => exact hf.forgot

/-- So does a session. -/
theorem Session.follows (hs : Session serves cache s h) : cache.Follows h := by
  induction hs with
  | start s => exact follows_empty
  | turn _ hturn ih => exact hturn.follows ih

/-- Every deed of a session was a turn after the deeds before it. -/
theorem Session.turn_of_mem {later earlier : List Deed}
    (hs : Session serves cache s (later ++ d :: earlier)) :
    ∃ cache₀ s₀ cache₁ s₁, Session serves cache₀ s₀ earlier ∧
      Turn serves cache₀ s₀ d cache₁ s₁ := by
  induction later generalizing cache s with
  | nil =>
    cases hs with
    | turn hs hturn => exact ⟨_, _, _, _, hs, hturn⟩
  | cons last later ih =>
    cases hs with
    | turn hs _ => exact ih hs

/-- As many clients are kept as there are targets with a client. -/
theorem Follows.exists_card (hf : cache.Follows h) :
    ∃ targets : Finset Target, (∀ t, t ∈ targets ↔ Served t h) ∧ cache.size = targets.card := by
  -- The keys are distinct and are those of the targets, so the targets are distinct as well.
  have hkeys : cache.clients.map Prod.fst =
      (cache.clients.map fun p => p.2.target).map Target.cacheKey := by
    rw [List.map_map]
    exact List.map_congr_left hf.keyed
  have hnodup : (cache.clients.map fun p => p.2.target).Nodup :=
    .of_map Target.cacheKey (hkeys ▸ hf.sorted.nodup)
  refine ⟨(cache.clients.map fun p => p.2.target).toFinset, fun t => ?_, ?_⟩
  · rw [← not_iff_not, ← hf.get?_eq_none_iff, Fields.get?_eq_none_iff]
    simp only [List.mem_toFinset, List.mem_map, not_exists, not_and]
    refine forall₂_congr fun p hp => ?_
    rw [hf.keyed p hp, ne_eq, Target.cacheKey_injective.eq_iff]
  · rw [List.toFinset_card_of_nodup hnodup, List.length_map, size]

end Follows

/-! ## Sessions -/

/-- What holds after a session, and of every deed in it. -/
structure SessionSpec (serves : Service CredentialCall CredentialAnswer σ) (cache : ClientCache)
    (s : σ) (h : List Deed) : Prop where
  /-- Whatever client is asked for next, asking for it goes on with the session. -/
  goesOn : ∀ t calls answer cache' s', Runs serves (cache.client t) s calls (answer, cache') s' →
    ∃ d, d.Asks t calls answer ∧ Session serves cache' s' (d :: h)
  /-- It comes to an end if every lookup is answered. -/
  ends : (∀ call s, ∃ x s', serves call s x s') → ∀ t, ∃ calls answer cache' s',
    Runs serves (cache.client t) s calls (answer, cache') s'
  /-- A client that was answered is that of the latest build for its target, which is its own. -/
  own : ∀ t c later d earlier, h = later ++ d :: earlier → d.Answers t c →
    latest t (d :: earlier) = some (.ok c) ∧ c.target = t
  /-- A client is built if and only if it had not been answered and not been forgotten since. -/
  builds : ∀ t calls answer later d earlier, h = later ++ d :: earlier → d.Asks t calls answer →
    Served t earlier ∧ (∃ c, d = .found t c) ∧ calls = [] ∨
      ¬ Served t earlier ∧ d = .built t calls answer ∧ calls.map Event.call = t.lookups
  /-- A request that fails leaves the cache as it is, and the next one builds again. -/
  fails : ∀ t calls e cache' s', Runs serves (cache.client t) s calls (.error e, cache') s' →
    cache' = cache ∧ ∀ calls' answer cache'' s'',
      Runs serves (cache'.client t) s' calls' (answer, cache'') s'' →
        Runs serves (Client.build t) s' calls' answer s''
  /-- To forget one target does not change what is done and answered for another. -/
  others : ∀ t u, t ≠ u → ∀ calls answer s',
    (∃ cache', Runs serves ((cache.invalidate t).client u) s calls (answer, cache') s') ↔
      ∃ cache', Runs serves (cache.client u) s calls (answer, cache') s'
  size : ∃ targets : Finset Target, (∀ t, t ∈ targets ↔ Served t h) ∧ cache.size = targets.card

section Spec

variable {h : List Deed} {answer : Except Fault Client}

/-- A request is answered from the cache, or its answer is that of a build. -/
theorem exists_runs_client_iff :
    (∃ cache', Runs serves (cache.client t) s calls (answer, cache') s') ↔
      match cache.clients.get? t.cacheKey with
      | some c => calls = [] ∧ answer = .ok c ∧ s' = s
      | none => Runs serves (Client.build t) s calls answer s' := by
  rw [client_eq]
  cases cache.clients.get? t.cacheKey with
  | some c => simp [runs_done_iff]
  | none => simp [runs_bind_iff, runs_done_iff]

theorem clients_spec (hs : Session serves cache s h) : SessionSpec serves cache s h where
  goesOn t calls answer cache' s' hrun := by
    obtain ⟨d, hasks, hturn⟩ := runs_client_iff.1 hrun
    exact ⟨d, hasks, hs.turn hturn⟩
  ends hserves t := by
    cases hget : cache.clients.get? t.cacheKey with
    | some c => exact ⟨[], .ok c, cache, s, runs_client_iff.2 ⟨_, .found c, .found hget⟩⟩
    | none =>
      obtain ⟨calls, made, s', hbuild⟩ := Client.exists_runs_build hserves t s
      exact ⟨calls, made, _, s', runs_client_iff.2 ⟨_, .built calls made, .built hget hbuild⟩⟩
  own t c later d earlier hh hanswers := by
    subst hh
    obtain ⟨cache₀, s₀, cache₁, s₁, hs₀, hturn⟩ := hs.turn_of_mem
    have hf := hs₀.follows
    cases hanswers with
    | found c =>
      cases hturn with
      | found hget =>
        have hkey := hf.keyed _ (Fields.mem_of_get? hget)
        exact ⟨((hf.kept t c).1 hget).2, (Target.cacheKey_injective hkey).symm⟩
    | built calls c =>
      cases hturn with
      | built hget hbuild => exact ⟨by simp, Client.target_of_build hbuild⟩
  builds t calls answer later d earlier hh hasks := by
    subst hh
    obtain ⟨cache₀, s₀, cache₁, s₁, hs₀, hturn⟩ := hs.turn_of_mem
    have hf := hs₀.follows
    cases hasks with
    | found c =>
      cases hturn with
      | found hget => exact .inl ⟨((hf.kept t c).1 hget).1, ⟨c, rfl⟩, rfl⟩
    | built =>
      cases hturn with
      | built hget hbuild =>
        exact .inr ⟨hf.get?_eq_none_iff.1 hget, rfl, Client.lookups_of_build hbuild⟩
  fails t calls e cache' s' hrun := by
    obtain ⟨d, hasks, hturn⟩ := runs_client_iff.1 hrun
    cases hasks with
    | built =>
      cases hturn with
      | built hget hbuild =>
        refine ⟨rfl, fun calls' answer cache'' s'' hnext => ?_⟩
        simpa [keep, hget] using exists_runs_client_iff.1 ⟨cache'', hnext⟩
  others t u hne calls answer s' := by
    simp only [exists_runs_client_iff, invalidate, Fields.get?_remove,
      Target.cacheKey_injective.eq_iff, hne, if_false]
  size := hs.follows.exists_card

end Spec

end ClientCache

/-! ## Targets that read alike -/

/-- The answers of stored credential files. -/
def CredentialStore.service : Service CredentialCall CredentialAnswer CredentialStore :=
  fun c s x s' => handler c s = (x, s')

namespace ClientCache

/-- A cluster without stored credentials and a server have one text. Both clients are asked for, the
second one twice. -/
theorem clients_of_alike :
    ∃ cache s h, Session CredentialStore.service cache s h ∧
      SessionSpec CredentialStore.service cache s h ∧ h.length = 3 ∧ cache.size = 1 ∧
      Served (.masterUrl "http://prod") h ∧ ¬ Served (.stored "http://prod") h := by
  have hurl : Client.ofUrl "http://prod" = .ok ⟨.masterUrl "http://prod", "http://prod"⟩ := by
    cbv
  have hlookup : Runs CredentialStore.service (Client.build (.stored "http://prod")) ⟨[], []⟩ _ _ _ :=
    Client.runs_build_stored_iff.2 ⟨_, rfl, rfl, rfl⟩
  have hbuild : Runs CredentialStore.service (Client.build (.masterUrl "http://prod"))
      ⟨[], ["http://prod"]⟩ _ _ _ :=
    Client.runs_build_masterUrl_iff.2 ⟨rfl, hurl.symm, rfl⟩
  have hstart : Session CredentialStore.service .empty ⟨[], []⟩ [] := .start _
  have hfirst := hstart.turn (.built rfl hlookup)
  have hs := (hfirst.turn (.built rfl hbuild)).turn (.found (t := .masterUrl "http://prod") rfl)
  refine ⟨_, _, _, hs, clients_spec hs, rfl, rfl, by simp, ?_⟩
  simp [Fields.get?, Except.bind]

end ClientCache

end ClusterJobs
