import ClusterJobs.Decimal.Layout

/-!
# Quantities

Amounts of CPU, memory and GPUs are floats, written without a point when they are whole.
-/

namespace ClusterJobs

/-- The whole number that a float is, if it is one. -/
def wholeValue? (x : Float) : Option Int :=
  match Decimal.Binary.ofFloat x with
  | .finite negative m q =>
    let whole : Option Nat := match q with
      | .ofNat k => some (m * Nat.pow 2 k)
      | .negSucc k => if m % Nat.pow 2 (k + 1) == 0 then some (m / Nat.pow 2 (k + 1)) else none
    whole.map fun n => if negative then -(n : Int) else (n : Int)
  | _ => none

/-- The number nearest to `n` that a signed word of 64 bits holds. -/
def clampInt64 (n : Int) : Int :=
  if n < -9223372036854775808 then -9223372036854775808
  else if n > 9223372036854775807 then 9223372036854775807
  else n

/-- The text of a quantity: a whole number within 64 bits, or a plain decimal. -/
def quantity (x : Float) : String :=
  match wholeValue? x with
  | some n => toString (clampInt64 n)
  | none => Decimal.plainText x

/-- The amount is a finite number of at least zero. -/
def isAmount (x : Float) : Bool :=
  x.isFinite && !(x < 0.0)

/-- Of an optional GPU count, the part that asks for a GPU. -/
def positiveGpu? (gpu : Option Float) : Option Float :=
  gpu.filter fun g => 0.0 < g

/-- Why a member must be an amount, for messages. -/
def amountMessage (field : String) (x : Float) : String :=
  field ++ " must be a non-negative number, got " ++ Decimal.plainText x

end ClusterJobs
