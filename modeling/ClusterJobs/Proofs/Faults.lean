import Mathlib.Data.List.Basic

/-!
# First faults

Steps that follow one another fail with the fault of the first one that does. So the fault of a
sequence is found by a search through the faults of its parts.
-/

namespace ClusterJobs

/-! ## Faults of steps -/

section Steps

variable {ε α β : Type} {x : Except ε α} {fault : ε}

/-- The fault of a step that fails. -/
def faultOf : Except ε α → Option ε
  | .error fault => some fault
  | .ok _ => none

@[simp] theorem faultOf_ok (a : α) : faultOf (.ok a : Except ε α) = none := rfl

@[simp] theorem faultOf_error (fault : ε) : faultOf (.error fault : Except ε α) = some fault := rfl

theorem faultOf_eq_none_iff : faultOf x = none ↔ ∃ a, x = .ok a := by
  cases x <;> simp

theorem faultOf_eq_some_iff : faultOf x = some fault ↔ x = .error fault := by
  cases x <;> simp

/-- The second step matters if the first one succeeds. -/
theorem faultOf_bind {f : α → Except ε β} {later : Option ε}
    (h : ∀ a, x = .ok a → faultOf (f a) = later) : faultOf (x >>= f) = (faultOf x).or later := by
  cases x with
  | error fault => rfl
  | ok a => exact h a rfl

theorem faultOf_ok_bind (a : α) (f : α → Except ε β) :
    faultOf (Except.ok a >>= f) = faultOf (f a) := rfl

theorem faultOf_bind_ok (f : α → β) : faultOf (x >>= fun a => .ok (f a)) = faultOf x := by
  cases x <;> rfl

theorem faultOf_map (f : α → β) : faultOf (x.map f) = faultOf x := by
  cases x <;> rfl

end Steps

/-! ## Searches -/

section Searches

variable {α β : Type}

theorem findSome?_cons_or {f : α → Option β} (a : α) (as : List α) :
    (a :: as).findSome? f = (f a).or (as.findSome? f) := by
  rw [List.findSome?_cons]
  cases f a <;> rfl

theorem findSome?_flatMap {γ : Type} (f : β → Option γ) (g : α → List β) (as : List α) :
    (as.flatMap g).findSome? f = as.findSome? fun a => (g a).findSome? f := by
  induction as with
  | nil => rfl
  | cons a as ih => rw [List.flatMap_cons, List.findSome?_append, findSome?_cons_or, ih]

theorem findSome?_congr {f g : α → Option β} {as : List α} (h : ∀ a ∈ as, f a = g a) :
    as.findSome? f = as.findSome? g := by
  induction as with
  | nil => rfl
  | cons a as ih =>
    rw [findSome?_cons_or, findSome?_cons_or, h a (.head _), ih fun b hb => h b (.tail _ hb)]

end Searches

end ClusterJobs
