import ClusterJobs.Cluster.Watcher

/-!
# What a watcher reports

Whatever it is replied, a watcher begins a listing, reports its objects and completes it, and then
reports the changes. It begins a listing again only when it has reported a failure.
-/

namespace ClusterJobs

namespace Watcher

open Web

/-- The watcher is on the pages of a listing. -/
def isPaging : Watcher → Bool
  | paging _ _ _ => true
  | _ => false

/-- The listing is done, and changes are watched. -/
def isFollowing : Watcher → Bool
  | listed _ | watching _ _ => true
  | _ => false

/-- What a step reports, whatever it is replied, and what it leads to. -/
def Step.Leads : Step → List Notice → Watcher → Prop
  | .report n next, ns, w' => ns = [n] ∧ w' = next
  | .silent next, ns, w' => ns = [] ∧ w' = next
  | .send _ resume, ns, w' => ∃ reply, ns = (resume reply).1.toList ∧ w' = (resume reply).2

/-- What a watcher may report on its way from one state to another, whatever it is replied. -/
inductive Reports (c : Collection) (name : String) : Watcher → List Notice → Watcher → Prop where
  | refl (w : Watcher) : Reports c name w [] w
  | step {w next w' : Watcher} {ns later : List Notice} : (w.step c name).Leads ns next →
      Reports c name next later w' → Reports c name w (ns ++ later) w'

/-- The kinds of steps. -/
inductive Turn : Watcher → List Notice → Watcher → Prop where
  | begins : Turn .fresh [.began] (.paging none [] none)
  | lists {w w' : Watcher} (o : ClusterObject) : w.isPaging → w'.isPaging → Turn w [.listed o] w'
  | asks {w w' : Watcher} : w.isPaging → w'.isPaging → Turn w [] w'
  | completes {w w' : Watcher} : w.isPaging → w'.isFollowing → Turn w [.ended] w'
  | breaks {w w' : Watcher} (message : String) : w ≠ .fresh → w'.isPaging = false →
      Turn w [.broken message] w'
  | changes {w w' : Watcher} (o : ClusterObject) : w.isFollowing → w'.isFollowing →
      Turn w [.changed o] w'
  | removes {w w' : Watcher} (o : ClusterObject) : w.isFollowing → w'.isFollowing →
      Turn w [.removed o] w'
  | goesOn {w w' : Watcher} : w.isFollowing → w'.isFollowing → Turn w [] w'

section Turn

variable {c : Collection} {name : String} {w next w' : Watcher} {ns before after : List Notice}

theorem turn_of_ask {request : Except ExchangeFault Web.Request}
    {resume : Reply → Option Notice × Watcher} (hw : w ≠ .fresh) (hp : next.isPaging = false)
    (hresume : ∀ reply, Turn w (resume reply).1.toList (resume reply).2)
    (h : (ask request resume next).Leads ns w') : Turn w ns w' := by
  cases request with
  | ok r =>
    obtain ⟨reply, rfl, rfl⟩ := h
    exact hresume reply
  | error e =>
    obtain ⟨rfl, rfl⟩ := h
    exact .breaks _ hw hp

theorem turn_of_takePage (hw : w.isPaging) (hfresh : w ≠ .fresh) (reply : Reply) :
    Turn w (takePage reply).1.toList (takePage reply).2 := by
  simp only [takePage]
  split
  · exact .breaks _ hfresh rfl
  · split
    · exact .breaks _ hfresh rfl
    · exact .asks hw rfl

theorem turn_of_reportObject {o : ClusterObject} {n : Notice} {lines : List String}
    (hw : w ≠ .fresh) (hn : ∀ next : Watcher, next.isFollowing → Turn w [n] next)
    (h : (reportObject o n lines).Leads ns w') : Turn w ns w' := by
  unfold reportObject at h
  split at h <;> obtain ⟨rfl, rfl⟩ := h
  · exact .breaks _ hw rfl
  · exact hn _ rfl

theorem turn_of_takeLine {version line : String} {lines : List String} (hw : w.isFollowing)
    (hfresh : w ≠ .fresh) (h : (takeLine version line lines).Leads ns w') : Turn w ns w' := by
  unfold takeLine at h
  split at h
  · split at h <;> obtain ⟨rfl, rfl⟩ := h
    · exact .goesOn hw rfl
    · exact .breaks _ hfresh rfl
  · obtain ⟨rfl, rfl⟩ := h
    exact .breaks _ hfresh rfl
  · exact turn_of_reportObject hfresh (fun _ hnext => .changes _ hw hnext) h
  · exact turn_of_reportObject hfresh (fun _ hnext => .removes _ hw hnext) h
  · obtain ⟨rfl, rfl⟩ := h
    exact .goesOn hw rfl
  · obtain ⟨rfl, rfl⟩ := h
    refine .breaks _ hfresh ?_
    split <;> rfl

/-- Every step is of one of the kinds. -/
theorem turn_of_leads (h : (w.step c name).Leads ns w') : Turn w ns w' := by
  unfold step at h
  split at h
  · obtain ⟨rfl, rfl⟩ := h
    exact .begins
  · obtain ⟨rfl, rfl⟩ := h
    exact .lists _ rfl rfl
  · obtain ⟨rfl, rfl⟩ := h
    exact .completes rfl rfl
  · exact turn_of_ask nofun rfl (turn_of_takePage rfl nofun) h
  · exact turn_of_ask nofun rfl (fun _ => .goesOn rfl rfl) h
  · obtain ⟨rfl, rfl⟩ := h
    exact .goesOn rfl rfl
  · exact turn_of_takeLine rfl nofun h

theorem Turn.began (ht : Turn w ns w') (hns : ns = before ++ .began :: after) :
    before = [] ∧ w = .fresh := by
  cases ht <;> simp_all [List.singleton_eq_append_iff]

theorem Turn.ended (ht : Turn w ns w') (hns : ns = before ++ .ended :: after) :
    before = [] ∧ w.isPaging := by
  cases ht <;> simp_all [List.singleton_eq_append_iff]

/-- Only a failure makes a watcher start over. -/
theorem Turn.broken (ht : Turn w ns .fresh) : ∃ message, ns = [.broken message] := by
  cases ht with
  | breaks message _ _ => exact ⟨message, rfl⟩
  | _ => contradiction

theorem Turn.paging (ht : Turn w ns w') (hw' : w'.isPaging) :
    ns = [.began] ∨ w.isPaging ∧ ∃ os : List ClusterObject, ns = os.map .listed := by
  cases ht with
  | begins => exact .inl rfl
  | lists o hw _ => exact .inr ⟨hw, [o], rfl⟩
  | asks hw _ => exact .inr ⟨hw, [], rfl⟩
  | breaks message _ hno => simp [hno] at hw'
  | completes _ hf | changes _ _ hf | removes _ _ hf | goesOn _ hf =>
    cases w' <;> contradiction

/-- A notice is reported by the first step or by those after it. -/
theorem append_eq_append_cons {n : Notice} {later : List Notice}
    (h : ns ++ later = before ++ n :: after) :
    (∃ rest, ns = before ++ n :: rest) ∨ ∃ mid, before = ns ++ mid ∧ later = mid ++ n :: after := by
  rcases List.append_eq_append_iff.1 h with ⟨mid, hbefore, hlater⟩ | ⟨_ | ⟨x, rest⟩, hns, hlater⟩
  · exact .inr ⟨mid, hbefore, hlater⟩
  · exact .inr ⟨[], by simpa using hns.symm, by simpa using hlater.symm⟩
  · obtain ⟨rfl, -⟩ := List.cons.inj hlater
    exact .inl ⟨rest, hns⟩

/-- A listing begins at first, and after that only when a failure has been reported. -/
theorem Reports.began (h : Reports c name w ns w') (hns : ns = before ++ .began :: after) :
    before = [] ∧ w = .fresh ∨ ∃ earlier message, before = earlier ++ [.broken message] := by
  induction h generalizing before with
  | refl w => simp at hns
  | @step w next w' first later hleads _ ih =>
    have ht := turn_of_leads hleads
    rcases append_eq_append_cons hns with ⟨rest, hfirst⟩ | ⟨mid, rfl, hlater⟩
    · exact .inl (ht.began hfirst)
    · rcases ih hlater with ⟨rfl, rfl⟩ | ⟨earlier, message, rfl⟩
      · obtain ⟨message, rfl⟩ := ht.broken
        exact .inr ⟨[], message, rfl⟩
      · exact .inr ⟨first ++ earlier, message, by simp⟩

/-- A listing that is complete has been reported as its beginning and its objects. -/
theorem Reports.ended (h : Reports c name w ns w') (hns : ns = before ++ .ended :: after) :
    (w.isPaging ∧ ∃ os : List ClusterObject, before = os.map .listed) ∨
      ∃ earlier, ∃ os : List ClusterObject, before = earlier ++ .began :: os.map .listed := by
  induction h generalizing before with
  | refl w => simp at hns
  | @step w next w' first later hleads _ ih =>
    have ht := turn_of_leads hleads
    rcases append_eq_append_cons hns with ⟨rest, hfirst⟩ | ⟨mid, rfl, hlater⟩
    · obtain ⟨rfl, hw⟩ := ht.ended hfirst
      exact .inl ⟨hw, [], rfl⟩
    · rcases ih hlater with ⟨hnext, os, rfl⟩ | ⟨earlier, os, rfl⟩
      · rcases ht.paging hnext with rfl | ⟨hw, page, rfl⟩
        · exact .inr ⟨[], os, rfl⟩
        · exact .inl ⟨hw, page ++ os, by simp⟩
      · exact .inr ⟨first ++ earlier, os, by simp⟩

end Turn

section Reports

variable {c : Collection} {name : String} {w next w' : Watcher} {n : Notice} {ns : List Notice}

theorem Reports.report (hs : w.step c name = .report n next) (h : Reports c name next ns w') :
    Reports c name w (n :: ns) w' :=
  .step (show (w.step c name).Leads [n] next by simp [hs, Step.Leads]) h

theorem Reports.silent (hs : w.step c name = .silent next) (h : Reports c name next ns w') :
    Reports c name w ns w' :=
  .step (show (w.step c name).Leads [] next by simp [hs, Step.Leads]) h

theorem Reports.sent {request : Web.Request} {resume : Reply → Option Notice × Watcher}
    {notice : Option Notice} (hs : w.step c name = .send request resume) (reply : Reply)
    (hr : resume reply = (notice, next)) (h : Reports c name next ns w') :
    Reports c name w (notice.toList ++ ns) w' := by
  refine .step (show (w.step c name).Leads notice.toList next from ?_) h
  rw [hs]
  exact ⟨reply, by rw [hr], by rw [hr]⟩

/-- A rehearsed watcher shows the events among notices that it may report. -/
theorem exists_reports_of_rehearse {k : Nat} {replies : List Reply} {events : List WatchEvent}
    {sent : List Web.Request} (h : rehearse c name k w replies = (some events, sent)) :
    ∃ ns w', Reports c name w ns w' ∧ events = ns.filterMap Notice.event? := by
  fun_induction rehearse c name k w replies generalizing events sent with
  | case1 w =>
    simp only [Prod.mk.injEq, Option.some.injEq] at h
    exact ⟨[], w, .refl w, by simp [← h.1]⟩
  | case2 _ _ _ _ hs ih =>
    obtain ⟨ns, w', hns, rfl⟩ := ih h
    exact ⟨ns, w', hns.silent hs, rfl⟩
  | case3 _ _ _ notice _ hs _ he _ _ hrest ih =>
    simp only [Prod.mk.injEq, Option.map_eq_some_iff] at h
    obtain ⟨⟨_, rfl, rfl⟩, -⟩ := h
    obtain ⟨ns, w', hns, rfl⟩ := ih hrest
    exact ⟨notice :: ns, w', hns.report hs, by simp [he]⟩
  | case4 _ _ _ notice _ hs he ih =>
    obtain ⟨ns, w', hns, rfl⟩ := ih h
    exact ⟨notice :: ns, w', hns.report hs, by simp [he]⟩
  | case5 => simp at h
  | case6 _ _ _ _ hs reply _ notice _ hr _ he _ _ hrest ih =>
    simp only [Prod.mk.injEq, Option.map_eq_some_iff] at h
    obtain ⟨⟨_, rfl, rfl⟩, -⟩ := h
    obtain ⟨ns, w', hns, rfl⟩ := ih hrest
    refine ⟨_, w', hns.sent hs reply hr, ?_⟩
    cases notice <;> simp_all
  | case7 _ _ _ _ hs reply _ notice _ hr he _ _ hrest ih =>
    simp only [Prod.mk.injEq] at h
    obtain ⟨rfl, -⟩ := h
    obtain ⟨ns, w', hns, rfl⟩ := ih hrest
    refine ⟨_, w', hns.sent hs reply hr, ?_⟩
    cases notice <;> simp_all

end Reports

end Watcher

/-! ## Listings without an object -/

/-- The last of these notices completes a listing that has shown no object. -/
def Notice.EndsEmpty (ns : List Notice) : Prop :=
  ∃ earlier between, ns = earlier ++ .began :: between ++ [.ended] ∧
    ∀ n ∈ between, n ≠ .began ∧ ∀ o, n ≠ .listed o

namespace Watcher

variable {c : Collection} {name : String} {w' : Watcher} {ns : List Notice}

/-- A watcher reports nothing at all between the beginning and the end of such a listing. -/
theorem Reports.of_endsEmpty (h : Reports c name .fresh ns w') (he : Notice.EndsEmpty ns) :
    ∃ earlier, ns = earlier ++ [.began, .ended] := by
  obtain ⟨earlier, between, rfl, hnone⟩ := he
  rcases h.ended rfl with ⟨hpaging, -⟩ | ⟨start, os, hos⟩
  · cases hpaging
  rcases between.eq_nil_or_concat with rfl | ⟨init, n, rfl⟩
  · exact ⟨earlier, by simp⟩
  -- The notice before the end would be an object of the listing, or its beginning.
  obtain ⟨hbegan, hlisted⟩ := hnone n (by simp)
  have hlast := congrArg List.getLast? hos
  rcases os.eq_nil_or_concat with rfl | ⟨page, o, rfl⟩
  · simp [List.getLast?_cons, hbegan] at hlast
  · simp [List.getLast?_cons, hlisted] at hlast

/-- It is the first listing, or it comes after a failure. -/
theorem Reports.first_or_broken (h : Reports c name .fresh ns w') (he : Notice.EndsEmpty ns) :
    ns = [.began, .ended] ∨ ∃ message, .broken message ∈ ns := by
  obtain ⟨earlier, rfl⟩ := h.of_endsEmpty he
  rcases h.began rfl with ⟨rfl, -⟩ | ⟨before, message, rfl⟩
  · exact .inl rfl
  · exact .inr ⟨message, by simp⟩

end Watcher

end ClusterJobs
