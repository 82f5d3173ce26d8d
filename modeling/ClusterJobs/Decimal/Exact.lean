import ClusterJobs.Decimal.Shortest

/-!
# The rational that a float is

A finite float stands for a rational number, which is used where arithmetic has to be exact.
-/

namespace ClusterJobs.Decimal

/-- The rational `m · 2 ^ q`. -/
def dyadic (m : Nat) (q : Int) : Rat :=
  match q with
  | .ofNat k => (m * Nat.pow 2 k : Nat)
  | .negSucc k => (m : Rat) / (Nat.pow 2 (k + 1) : Nat)

/-- The rational that a finite float stands for. -/
def exactValue? (x : Float) : Option Rat :=
  match Binary.ofFloat x with
  | .finite negative m q => some (if negative then -dyadic m q else dyadic m q)
  | _ => none

end ClusterJobs.Decimal
