import ClusterJobs.Json.Value

/-!
# Pages

A listing is read page by page. Page numbers start at one, and a page has at least one place.
-/

namespace ClusterJobs

/-- One page of a listing. -/
structure Page (α : Type) where
  items : List α
  /-- The length of the whole listing. -/
  total : Nat
  page : Nat
  pageSize : Nat

namespace Page

variable {α β : Type}

/-- The largest unsigned number of 64 bits. -/
def maxWord : Nat := 18446744073709551615

/-- The number of items before a page, held at the largest word. -/
def offset (page pageSize : Nat) : Nat :=
  min ((page - 1) * pageSize) maxWord

/-- A page of a listing. -/
def of (all : List α) (page pageSize : Nat) : Page α :=
  let page := max page 1
  let pageSize := max pageSize 1
  ⟨(all.drop (offset page pageSize)).take pageSize, all.length, page, pageSize⟩

/-- The page with every item changed. -/
def map (f : α → β) (p : Page α) : Page β :=
  ⟨p.items.map f, p.total, p.page, p.pageSize⟩

def toJson (p : Page Json.Value) : Json.Value :=
  .object [
    ("items", .arr p.items),
    ("total", .int p.total),
    ("page", .int p.page),
    ("pageSize", .int p.pageSize)]

end Page

end ClusterJobs
