/-!
# Tables keyed by text

A table is a list of keys with their values, kept in increasing order of the keys, each key once.
Labels, environment variables, resource quantities and the members of a JSON object are such tables.
-/

namespace ClusterJobs

/-- Keys with their values, in increasing order of the keys. -/
abbrev Fields (α : Type) := List (String × α)

namespace Fields

variable {α β : Type}

/-- The value at a key. -/
def get? : Fields α → String → Option α
  | [], _ => none
  | (k, v) :: rest, key => if k = key then some v else get? rest key

/-- The key has a value. -/
def has (fs : Fields α) (key : String) : Bool :=
  (fs.get? key).isSome

/-- Sets the value at a key, in its place in the order. -/
def put : Fields α → String → α → Fields α
  | [], key, v => [(key, v)]
  | (k, w) :: rest, key, v =>
    if k = key then (key, v) :: rest
    else if key < k then (key, v) :: (k, w) :: rest
    else (k, w) :: put rest key v

/-- Removes a key. -/
def remove : Fields α → String → Fields α
  | [], _ => []
  | (k, v) :: rest, key => if k = key then remove rest key else (k, v) :: remove rest key

/-- The table of some pairs; of two pairs with one key the later one stays. -/
def ofPairs (pairs : List (String × α)) : Fields α :=
  pairs.foldl (fun fs p => fs.put p.1 p.2) []

/-- All pairs of `later` written over `fs`. -/
def overwrite (fs later : Fields α) : Fields α :=
  later.foldl (fun acc p => put acc p.1 p.2) fs

/-- Changes every value. -/
def mapValues (f : α → β) (fs : Fields α) : Fields β :=
  fs.map (fun p => (p.1, f p.2))

/-- The value last written at a key is the one found there. -/
theorem get?_put_self (fs : Fields α) (key : String) (v : α) :
    (fs.put key v).get? key = some v := by
  induction fs with
  | nil => simp [put, get?]
  | cons p rest ih =>
    obtain ⟨k, w⟩ := p
    by_cases h : k = key
    · simp [put, get?, h]
    · by_cases hlt : key < k
      · simp [put, get?, h, hlt]
      · simp [put, get?, h, hlt, ih]

/-- Writing at one key leaves every other key as it was. -/
theorem get?_put_of_ne (fs : Fields α) {key other : String} (v : α) (h : key ≠ other) :
    (fs.put key v).get? other = fs.get? other := by
  induction fs with
  | nil => simp [put, get?, h]
  | cons p rest ih =>
    obtain ⟨k, w⟩ := p
    by_cases hk : k = key
    · subst hk; simp [put, get?, h]
    · by_cases hlt : key < k
      · simp [put, get?, hk, hlt, h]
      · simp [put, get?, hk, hlt, ih]

end Fields

end ClusterJobs
