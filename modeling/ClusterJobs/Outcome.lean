import ClusterJobs.Json.Value

/-!
# Outcomes

What the scheduler is told about a task that was followed to its end.
-/

namespace ClusterJobs

/-- How a task ended. -/
inductive Verdict where
  | success
  | failure
  | killed
deriving DecidableEq, Repr

namespace Verdict

def name : Verdict → String
  | success => "SUCCESS"
  | failure => "FAILURE"
  | killed => "KILLED"

def ofName? (s : String) : Option Verdict :=
  [success, failure, killed].find? fun v => v.name == s

/-- The exit code of a process that ended this way. -/
def exitCode : Verdict → Int
  | success => 0
  | failure => -1
  | killed => 137

end Verdict

/-- How a task ended, with a reason or an excerpt of its log. -/
structure Outcome where
  status : Verdict
  message : Option String
deriving DecidableEq, Repr

namespace Outcome

def success : Outcome := ⟨.success, none⟩

def killed : Outcome := ⟨.killed, none⟩

def failure (message : String) : Outcome := ⟨.failure, some message⟩

/-- The members of the object, in the order in which readers see them. An absent message is left out. -/
def entries (o : Outcome) : List (String × Json.Value) :=
  ("status", .str o.status.name) :: (o.message.map fun m => ("message", .str m)).toList

def toJson (o : Outcome) : Json.Value :=
  .object o.entries

/-- The outcome as readers see it. -/
def ordered (o : Outcome) : Json.Value :=
  .obj o.entries

end Outcome

end ClusterJobs
