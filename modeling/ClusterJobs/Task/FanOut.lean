import ClusterJobs.Settings
import ClusterJobs.Task.Item

/-!
# Fan-outs

The items of a fan-out run on a bounded number of slots. When all are done, their results are published
once, in the order of the items, and the fan-out as a whole gets an outcome.
-/

namespace ClusterJobs

open TaskProgram

/-- A fan-out that is to be run. -/
structure FanOut where
  manifests : List Manifest
  /-- The fetch specs that the items are named for. -/
  fetches : List FetchSpec
  processInstanceId : Int
  /-- The limit of each item. -/
  limit : Option Nat

namespace FanOut

/-- The program of one item. An item that has not started when the token fires is skipped. -/
def item (s : ItemSettings) (limit : Option Nat) (ctx : Context) (m : Manifest) :
    TaskProgram (Except JobFault Outcome) := do
  let start ← now
  if ctx.fired start then return .ok .killed
  m.run s limit ctx

/-- The name under which an item is reported: that of its fetch spec, else that of its object. -/
def itemName (fetches : List FetchSpec) (i : Nat) (m : Manifest) : String :=
  match fetches[i]? with
  | some f => if f.fetchName.isEmpty then m.name else f.fetchName
  | none => m.name

/-- The status of an item; one that failed to run counts as a failure. -/
def itemStatus : Except JobFault Outcome → Verdict
  | .ok o => o.status
  | .error _ => .failure

/-- The report on one item. -/
def report (f : FanOut) (i : Nat) (m : Manifest) (result : Except JobFault Outcome) : ItemResult :=
  ⟨itemName f.fetches i m, m.taskInstanceId, itemStatus result, f.processInstanceId⟩

/-- The reports on items from place `i` on. -/
def reportsFrom (f : FanOut) : Nat → List Manifest → List (Except JobFault Outcome) →
    List ItemResult
  | _, [], _ => []
  | _, _ :: _, [] => []
  | i, m :: ms, r :: rs => f.report i m r :: f.reportsFrom (i + 1) ms rs

/-- The reports on all items, given their results in order. -/
def reports (f : FanOut) (results : List (Except JobFault Outcome)) : List ItemResult :=
  f.reportsFrom 0 f.manifests results

/-- The first fault in the order of the items. -/
def firstFault? : List (Except JobFault Outcome) → Option JobFault
  | [] => none
  | .error e :: _ => some e
  | .ok _ :: rest => firstFault? rest

/-- The names of the items that did not succeed. -/
def unsuccessful (reports : List ItemResult) : List String :=
  (reports.filter fun r => r.status != .success).map ItemResult.name

/-- The outcome of a fan-out whose items all ran. -/
def resolve (policy : FanOutPolicy) (reports : List ItemResult) : Outcome :=
  let names := unsuccessful reports
  if policy = .failOnAnyFailure && !names.isEmpty then
    .failure ("fan-out items did not succeed: " ++ Text.joinWith ", " names)
  else .success

/-- Publishes the results and resolves the fan-out: the first fault, else killed if the token has
fired, else what the policy says. A failed publication changes nothing. -/
def conclude (f : FanOut) (policy : FanOutPolicy) (ctx : Context)
    (results : List (Except JobFault Outcome)) : TaskProgram (Except JobFault Outcome) := do
  let reports := f.reports results
  let _ ← perform (.publish reports)
  match firstFault? results with
  | some e => return .error e
  | none =>
    let ended ← now
    if ctx.fired ended then return .ok .killed
    return .ok (resolve policy reports)

end FanOut

end ClusterJobs
