import ClusterJobs.Cluster.Notice
import ClusterJobs.Cluster.Collection
import ClusterJobs.Text.Lines

/-!
# Watching a collection

A watcher lists a collection page by page, then watches it from the version of the listing on, and
starts over when the cluster no longer knows that version. It never ends on its own: a watch that the
cluster closes is opened again.
-/

namespace ClusterJobs

open Web

/-- What a watcher is about to do. -/
inductive Watcher where
  /-- List from the beginning. -/
  | fresh
  /-- Report the rest of a page, and then ask for the page behind `more` or be done with the listing of
  the given version. -/
  | paging (more : Option String) (rest : List ClusterObject) (version : Option String)
  /-- Open a watch from a version on. -/
  | listed (version : String)
  /-- Report the lines that an open watch has left. -/
  | watching (version : String) (lines : List String)

namespace Watcher

/-- One step of a watcher. -/
inductive Step where
  | report (notice : Notice) (next : Watcher)
  | silent (next : Watcher)
  /-- Sends a request; the reply may be worth a notice. -/
  | send (request : Web.Request) (resume : Reply → Option Notice × Watcher)

/-- The name of the objects that are watched, as a selection. -/
def selection (name : String) : String × String :=
  ("fieldSelector", "metadata.name=" ++ name)

/-- A text that is not empty. -/
def nonEmpty (s : Option String) : Option String :=
  s.filter fun t => !t.isEmpty

/-- Goes on with the reply to a request for a page. -/
def takePage (reply : Reply) : Option Notice × Watcher :=
  match reply.text.bind (readBody (Listing.ofJson? ClusterObject.ofJson?)) with
  | .error e => (some (.broken ("the listing failed: " ++ e.toFault.message)), .fresh)
  | .ok page =>
    let version := nonEmpty page.version
    let more := nonEmpty page.more
    if version.isNone && more.isNone then
      (some (.broken "the listing has no version"), .fresh)
    else (none, .paging more page.items version)

/-- Sends a request if it could be made. -/
def ask (request : Except ExchangeFault Web.Request) (resume : Reply → Option Notice × Watcher)
    (otherwise : Watcher) : Step :=
  match request with
  | .ok r => .send r resume
  | .error e => .report (.broken e.toFault.message) otherwise

/-- The request for a page. -/
def pageRequest (c : Collection) (name : String) (more : Option String) :
    Except ExchangeFault Web.Request :=
  let next := match more with
    | some token => [("continue", token)]
    | none => []
  Web.Request.make .get c.path (some ([selection name, ("limit", "500")] ++ next)) none

/-- The request that opens a watch. -/
def changesRequest (c : Collection) (name version : String) :
    Except ExchangeFault Web.Request :=
  Web.Request.make .get c.path (some [("watch", "true"), ("timeoutSeconds", "290"), selection name,
    ("allowWatchBookmarks", "true"), ("resourceVersion", version)]) none

/-- Goes on with the reply that opens a watch. A refusal shows in its lines. -/
def takeChanges (version : String) (reply : Reply) : Option Notice × Watcher :=
  (none, .watching version (Text.lines reply.body))

/-- Reports a changed or removed object. Without a version on it the watcher has to start over. -/
def reportObject (o : ClusterObject) (notice : Notice) (lines : List String) : Step :=
  if o.version.isEmpty then .report (.broken "an object has no version") .fresh
  else .report notice (.watching o.version lines)

/-- Goes on with a line of an open watch. -/
def takeLine (version line : String) (lines : List String) : Step :=
  match (Json.Value.parse? line).map WatchLine.ofJson? with
  | none =>
    if isCutOff line.toList then .silent (.watching version lines)
    else .report (.broken "a line cannot be read") (.watching version lines)
  | some none => .report (.broken "a line has the wrong shape") (.watching version lines)
  | some (some (.changed o)) => reportObject o (.changed o) lines
  | some (some (.removed o)) => reportObject o (.removed o) lines
  | some (some (.bookmark v)) => .silent (.watching v lines)
  | some (some (.refused r)) =>
    .report (.broken (r.message ++ ": " ++ r.reason))
      (if r.code = 410 then .fresh else .watching version lines)

/-- What a watcher does next. -/
def step (c : Collection) (name : String) : Watcher → Step
  | .fresh => .report .began (.paging none [] none)
  | .paging more (o :: rest) version => .report (.listed o) (.paging more rest version)
  | .paging none [] (some version) => .report .ended (.listed version)
  | .paging more [] _ => ask (pageRequest c name more) takePage .fresh
  | .listed version =>
    ask (changesRequest c name version) (takeChanges version) (.listed version)
  | .watching version [] => .silent (.listed version)
  | .watching version (line :: lines) => takeLine version line lines

/-- How many steps a watcher may take before it reports an event or sends a request. -/
def patience : Watcher → Nat
  | .fresh => 2
  | .paging none [] (some _) => 1
  | .paging _ _ _ => 0
  | .listed _ => 0
  | .watching _ lines => lines.length + 1

theorem ask_ne_silent {request : Except ExchangeFault Web.Request}
    {resume : Reply → Option Notice × Watcher} {otherwise next : Watcher} :
    ask request resume otherwise ≠ .silent next := by
  cases request <;> simp [ask]

theorem event?_of_ask {request : Except ExchangeFault Web.Request}
    {resume : Reply → Option Notice × Watcher} {otherwise next : Watcher} {notice : Notice}
    (h : ask request resume otherwise = .report notice next) : notice.event?.isSome := by
  cases request <;> simp [ask] at h
  simp [← h.1, Notice.event?]

/-- A line that is no event takes a watcher one line further. -/
theorem patience_of_takeLine {version line : String} {lines : List String} {next : Watcher}
    (h : takeLine version line lines = .silent next) : next.patience = lines.length + 1 := by
  unfold takeLine reportObject at h
  grind [patience]

theorem event?_of_takeLine {version line : String} {lines : List String} {next : Watcher}
    {notice : Notice} (h : takeLine version line lines = .report notice next) :
    notice.event?.isSome := by
  unfold takeLine reportObject at h
  grind [Notice.event?]

theorem patience_of_silent {c : Collection} {name : String} {w next : Watcher}
    (h : w.step c name = .silent next) : next.patience < w.patience := by
  unfold step at h
  split at h
  · cases h
  · cases h
  · cases h
  · exact absurd h ask_ne_silent
  · exact absurd h ask_ne_silent
  · cases h
    simp [patience]
  · rw [patience_of_takeLine h]
    simp [patience]

theorem patience_of_report {c : Collection} {name : String} {w next : Watcher} {notice : Notice}
    (h : w.step c name = .report notice next) (hn : notice.event? = none) :
    next.patience < w.patience := by
  unfold step at h
  split at h
  · cases h
    simp [patience]
  · cases h
    simp [Notice.event?] at hn
  · cases h
    simp [patience]
  · exact absurd (event?_of_ask h) (by simp [hn])
  · exact absurd (event?_of_ask h) (by simp [hn])
  · cases h
  · exact absurd (event?_of_takeLine h) (by simp [hn])

/-- Runs a watcher on replies given in order until it has reported `n` events, and lists the requests
that it sends. There are no events if a request gets no reply. -/
def rehearse (c : Collection) (name : String) (n : Nat) (w : Watcher) (replies : List Reply) :
    Option (List WatchEvent) × List Web.Request :=
  match n with
  | 0 => (some [], [])
  | n + 1 =>
    match hs : w.step c name with
    | .silent next => rehearse c name (n + 1) next replies
    | .report notice next =>
      match he : notice.event? with
      | some event =>
        let (events, sent) := rehearse c name n next replies
        (events.map (event :: ·), sent)
      | none => rehearse c name (n + 1) next replies
    | .send request resume =>
      match replies with
      | [] => (none, [request])
      | reply :: replies =>
        let (notice, next) := resume reply
        match notice.bind Notice.event? with
        | some event =>
          let (events, sent) := rehearse c name n next replies
          (events.map (event :: ·), request :: sent)
        | none =>
          let (events, sent) := rehearse c name (n + 1) next replies
          (events, request :: sent)
termination_by (n, replies.length, w.patience)
decreasing_by
  · exact .right _ (.right _ (patience_of_silent hs))
  · exact .left _ _ (Nat.lt_succ_self n)
  · exact .right _ (.right _ (patience_of_report hs he))
  · exact .left _ _ (Nat.lt_succ_self n)
  · exact .right _ (.left _ _ (Nat.lt_succ_self _))

end Watcher

end ClusterJobs
