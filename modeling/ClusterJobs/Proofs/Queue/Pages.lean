import ClusterJobs.Proofs.Queue.Scanning

/-!
# Reading page by page

The pages of a listing, up to the last that is not empty, are the listing, whatever their size: no
item is lost and none comes twice. Holding the offset at the largest word does no harm: lists are
kept in memory, so that their lengths are words and there are no items beyond it. So a reader of all
pages of rows meets each row of its project once, by increasing id.
-/

namespace ClusterJobs

open Program QueueProgram

/-! ## Pages of a listing -/

namespace Page

variable {α : Type} {all : List α}

/-- Where the offset is held at the largest word, the listing is over. -/
theorem items_of (hlen : all.length ≤ maxWord) (page pageSize : Nat) :
    (of all page pageSize).items =
      (all.drop ((max page 1 - 1) * max pageSize 1)).take (max pageSize 1) := by
  -- An offset that is held is no less than the length, so it passes over as much as the true one.
  rcases le_total ((max page 1 - 1) * max pageSize 1) maxWord with hfits | hover
  · simp only [of, offset, min_eq_left hfits]
  · have hheld : all.drop maxWord = [] := List.drop_eq_nil_of_le hlen
    have hexact : all.drop ((max page 1 - 1) * max pageSize 1) = [] :=
      List.drop_eq_nil_of_le (hlen.trans hover)
    simp only [of, offset, min_eq_right hover, hheld, hexact]

theorem getElem?_items_of (hlen : all.length ≤ maxWord) (page pageSize i : Nat) :
    (of all page pageSize).items[i]? =
      if i < max pageSize 1 then all[(max page 1 - 1) * max pageSize 1 + i]? else none := by
  rw [items_of hlen, List.getElem?_take, List.getElem?_drop]

/-- The number of the last page that is not empty; zero if there is none. -/
def last (length pageSize : Nat) : Nat :=
  (length + (max pageSize 1 - 1)) / max pageSize 1

theorem last_le (length pageSize : Nat) : last length pageSize ≤ length := by
  have hsize : 0 < max pageSize 1 := by omega
  have hprod : length ≤ length * max pageSize 1 := Nat.le_mul_of_pos_right length hsize
  refine Nat.lt_succ_iff.1 ((Nat.div_lt_iff_lt_mul hsize).2 ?_)
  rw [Nat.succ_mul]
  omega

theorem length_le_last_mul (length pageSize : Nat) :
    length ≤ last length pageSize * max pageSize 1 := by
  have hsize : 0 < max pageSize 1 := by omega
  have hdiv := Nat.div_add_mod (length + (max pageSize 1 - 1)) (max pageSize 1)
  have hmod := Nat.mod_lt (length + (max pageSize 1 - 1)) hsize
  rw [last, Nat.mul_comm]
  omega

theorem items_ne_nil_iff (hlen : all.length ≤ maxWord) (page pageSize : Nat) :
    (of all page pageSize).items ≠ [] ↔ max page 1 ≤ last all.length pageSize := by
  have hsize : 0 < max pageSize 1 := by omega
  obtain ⟨k, hk⟩ : ∃ k, max page 1 = k + 1 := ⟨max page 1 - 1, by omega⟩
  rw [items_of hlen, last, Nat.le_div_iff_mul_le hsize, hk, Nat.add_sub_cancel, Nat.succ_mul, Ne,
    List.take_eq_nil_iff, List.drop_eq_nil_iff]
  omega

/-- What a reader of the first pages has seen. -/
def readFirst (pageAt : Nat → Page α) (count : Nat) : List α :=
  (List.range count).flatMap fun k => (pageAt (k + 1)).items

/-- Each page goes on where the one before it has ended. -/
theorem readFirst_of (hlen : all.length ≤ maxWord) (pageSize count : Nat) :
    readFirst (fun page => of all page pageSize) count = all.take (count * max pageSize 1) := by
  induction count with
  | zero => simp [readFirst]
  | succ count ih =>
    have hpage : (of all (count + 1) pageSize).items =
        (all.drop (count * max pageSize 1)).take (max pageSize 1) := by
      rw [items_of hlen, Nat.max_eq_left (Nat.succ_pos count), Nat.succ_sub_one]
    rw [readFirst] at ih ⊢
    rw [List.range_succ, List.flatMap_append, ih, List.flatMap_singleton, hpage, Nat.succ_mul,
      List.take_add]

theorem readFirst_last (hlen : all.length ≤ maxWord) (pageSize : Nat) :
    readFirst (fun page => of all page pageSize) (last all.length pageSize) = all := by
  rw [readFirst_of hlen, List.take_of_length_le (length_le_last_mul all.length pageSize)]

end Page

/-- What a listing is cut into. -/
structure PagingSpec {α : Type} (all : List α) (pageSize : Nat) : Prop where
  /-- An item stands where unbounded arithmetic puts it. -/
  placed : ∀ page i, (Page.of all page pageSize).items[i]? =
    if i < max pageSize 1 then all[(max page 1 - 1) * max pageSize 1 + i]? else none
  total : ∀ page, (Page.of all page pageSize).total = all.length
  /-- The number of items that are passed over is a word. -/
  fits : ∀ page, Page.offset (max page 1) (max pageSize 1) ≤ Page.maxWord
  /-- The pages up to the last that is not empty are the listing. -/
  whole : ∃ last ≤ all.length,
    (∀ page, (Page.of all page pageSize).items ≠ [] ↔ max page 1 ≤ last) ∧
      Page.readFirst (fun page => Page.of all page pageSize) last = all

theorem Page.paging {α : Type} {all : List α} (hlen : all.length ≤ maxWord) (pageSize : Nat) :
    PagingSpec all pageSize where
  placed page i := getElem?_items_of hlen page pageSize i
  total _ := rfl
  fits _ := Nat.min_le_right _ _
  whole := ⟨last all.length pageSize, last_le _ _,
    fun page => items_ne_nil_iff hlen page pageSize, readFirst_last hlen pageSize⟩

/-! ## Pages of rows -/

/-- The row is one of the project, if a project is asked for. -/
def QueueRow.InProject (row : QueueRow) (project : Option Int) : Prop :=
  project = none ∨ row.projectCode = project

/-- What a reader sees of some rows. -/
structure RowPagesSpec (q : QueueRows) (project : Option Int) (pageSize : Nat) : Prop where
  /-- All pages together: each row of the project once, by increasing id, and no other row. -/
  whole : ∃ (last : Nat) (seen : List QueueRow), last ≤ q.rows.length ∧
    (∀ page, (q.list project page pageSize).items ≠ [] ↔ max page 1 ≤ last) ∧
      Page.readFirst (fun page => q.list project page pageSize) last = seen ∧
      (∀ r ∈ q.rows, r.InProject project → ∃! i : Nat, seen[i]? = some r) ∧
      (∀ r ∈ seen, r ∈ q.rows ∧ r.InProject project) ∧
      (seen.map QueueRow.id).Pairwise (· < ·)
  /-- In whatever order rows are scanned, they are sorted before they are cut into pages. -/
  scanned : ∀ scan : List QueueRow, scan.Perm q.rows → ∀ page, q.list project page pageSize =
    .of ((scan.filter fun r => project.isNone || r.projectCode == project).mergeSort
      fun r r' => decide (r.id ≤ r'.id)) page pageSize

/-- What is read page by page after programs have taken turns on the rows. -/
structure PagesSpec (l : QueueLedger) : Prop where
  /-- Any listing whose length is a word. -/
  paging : ∀ (α : Type) (all : List α), all.length ≤ Page.maxWord → ∀ pageSize,
    PagingSpec all pageSize
  rows : ∀ project pageSize, RowPagesSpec l.rows project pageSize
  /-- A manager that lists rows answers with such a page and changes nothing. -/
  answers : ∀ project page pageSize h r l',
    Runs QueueLedger.serves (QueueManager.list project page pageSize) l h r l' ↔
      r = .ok (l.rows.list project page pageSize) ∧
        h = [⟨.listRows project page pageSize, r⟩] ∧ l' = l

section Rows

variable {q : QueueRows} {project : Option Int} {row : QueueRow}

/-- The rows of a project, or all of them. -/
def QueueRows.ofProject (q : QueueRows) (project : Option Int) : List QueueRow :=
  q.rows.filter fun r => project.isNone || r.projectCode == project

theorem QueueRows.mem_ofProject :
    row ∈ q.ofProject project ↔ row ∈ q.rows ∧ row.InProject project := by
  simp [ofProject, QueueRow.InProject]

/-- Where ids increase, a row stands at one place only. -/
theorem existsUnique_getElem? {rows : List QueueRow}
    (hids : (rows.map QueueRow.id).Pairwise (· < ·)) (h : row ∈ rows) :
    ∃! i : Nat, rows[i]? = some row := by
  obtain ⟨i, hi⟩ := List.mem_iff_getElem?.1 h
  have hnodup : rows.Nodup := List.Nodup.of_map QueueRow.id (hids.imp ne_of_lt)
  refine ⟨i, hi, fun j hj => ?_⟩
  exact (List.getElem?_inj (List.getElem?_eq_some_iff.1 hj).1 hnodup).1 (hj.trans hi.symm)

theorem QueueRows.Ascending.rowPages (ha : q.Ascending) (hlen : q.rows.length ≤ Page.maxWord)
    (project : Option Int) (pageSize : Nat) : RowPagesSpec q project pageSize where
  whole := by
    have hkept : (q.ofProject project).length ≤ q.rows.length := List.length_filter_le _ _
    have hids : ((q.ofProject project).map QueueRow.id).Pairwise (· < ·) :=
      ha.increasing.sublist (List.filter_sublist.map QueueRow.id)
    obtain ⟨last, hlast, hnonempty, hread⟩ := (Page.paging (hkept.trans hlen) pageSize).whole
    refine ⟨last, q.ofProject project, hlast.trans hkept, hnonempty, hread, ?_, ?_, hids⟩
    · intro r hr hproject
      exact existsUnique_getElem? hids (mem_ofProject.2 ⟨hr, hproject⟩)
    · exact fun r hr => mem_ofProject.1 hr
  scanned scan hscan page := by
    rw [mergeSort_filter_of_scan ha.increasing hscan]
    rfl

end Rows

section Interleaves

variable {ι : Type} [DecidableEq ι] {res : ι → Type} {ps qs : (i : ι) → QueueProgram (res i)}
  {l₀ l : QueueLedger} {h : List (ι × QueueEvent)}

theorem runs_list_iff {project : Option Int} {page pageSize : Nat} {h : List QueueEvent}
    {r : Except QueueFault (Page QueueRow)} {l l' : QueueLedger} :
    Runs QueueLedger.serves (QueueManager.list project page pageSize) l h r l' ↔
      r = .ok (l.rows.list project page pageSize) ∧
        h = [⟨.listRows project page pageSize, r⟩] ∧ l' = l := by
  constructor
  · intro hr
    obtain ⟨x, l₁, h₁, ⟨rfl, rfl⟩, hrest, rfl⟩ := runs_ask_iff.1 hr
    obtain ⟨rfl, rfl, rfl⟩ := runs_done_iff.1 hrest
    exact ⟨rfl, rfl, rfl⟩
  · rintro ⟨rfl, rfl, rfl⟩
    exact .ask ⟨rfl, rfl⟩ (.done _ _)

/-- Whatever programs have taken turns on the rows, reading all pages shows each row of a project
once. -/
theorem pages_spec (hi : Interleaves QueueLedger.serves ps l₀ h qs l) (hempty : l₀.rows = .empty)
    (hlen : l.rows.rows.length ≤ Page.maxWord) : PagesSpec l where
  paging _ _ hall pageSize := Page.paging hall pageSize
  rows project pageSize :=
    (ascending_of_interleaves hi (hempty ▸ QueueRows.ascending_empty)).rowPages hlen project
      pageSize
  answers _ _ _ _ _ _ := runs_list_iff

end Interleaves

/-! ## Two rows -/

/-- The second row, of a project. -/
def QueueRow.speech : QueueRow :=
  { QueueRow.vision with id := 2, name := "speech", projectCode := some 7 }

/-- Two rows are stored, and the pages of any size and project show them. -/
theorem pages_of_speech : ∃ (h : List (Unit × QueueEvent)) (l : QueueLedger),
    Interleaves QueueLedger.serves
      (fun _ => perform (.insertRow .vision) >>= fun _ => perform (.insertRow .speech)) .empty h
      (fun _ => .done (.ok .speech)) l ∧
    QueueLedger.empty.rows = .empty ∧ l.rows.rows = [.vision, .speech] ∧
    l.rows.rows.length ≤ Page.maxWord ∧ PagesSpec l := by
  have hr : Runs QueueLedger.serves
      (perform (.insertRow .vision) >>= fun _ => perform (.insertRow .speech)) .empty
      [⟨.insertRow .vision, .ok .vision⟩, ⟨.insertRow .speech, .ok .speech⟩] (.ok .speech)
      { QueueLedger.empty with rows := ⟨[.vision, .speech], 3⟩ } :=
    .ask ⟨rfl, rfl⟩ (.ask ⟨rfl, rfl⟩ (.done _ _))
  have hlen : 2 ≤ Page.maxWord := by decide
  exact ⟨_, _, hr.interleaves, rfl, rfl, hlen, pages_spec hr.interleaves rfl hlen⟩

end ClusterJobs
