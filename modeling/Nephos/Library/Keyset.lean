import Mathlib.Data.List.Sort

/-!
# Reading a table page by page

A reader asks for the rows with keys above a cursor, in the order of the keys,
and takes the key of the last row of a page as its next cursor.  Rows may come
and go between the pages: each visit to the table sees rows of its own.  The
reader still sees increasing keys, and every key that is there at each visit.
-/

namespace Keyset

universe u

variable {Key : Type u}

/-- The keys of the table at one visit, and the page that was read. -/
structure Visit (Key : Type u) where
  rows : List Key
  page : List Key

/-- The keys of all pages. -/
def read (visits : List (Visit Key)) : List Key := visits.flatMap Visit.page

@[simp] theorem read_snoc (visits : List (Visit Key)) (visit : Visit Key) :
    read (visits ++ [visit]) = read visits ++ visit.page := by
  simp [read]

variable [LinearOrder Key]

/-- The keys above the cursor, in order. -/
def above (cursor : Key) (rows : List Key) : List Key :=
  (rows.filter fun key => cursor < key).insertionSort (· ≤ ·)

theorem mem_above {cursor key : Key} {rows : List Key} :
    key ∈ above cursor rows ↔ key ∈ rows ∧ cursor < key := by
  rw [above, (List.perm_insertionSort _ _).mem_iff, List.mem_filter,
    decide_eq_true_iff]

theorem above_increasing {rows : List Key} (distinct : rows.Nodup)
    (cursor : Key) : (above cursor rows).Pairwise (· < ·) := by
  have sorted := List.pairwise_insertionSort (· ≤ ·)
    (rows.filter fun key => cursor < key)
  have nodup : (above cursor rows).Nodup :=
    (List.perm_insertionSort _ _).nodup_iff.mpr (distinct.filter _)
  exact (sorted.and nodup).imp fun ⟨le, ne⟩ => lt_of_le_of_ne le ne

/-- Visits that lead a reader from one cursor to another. -/
inductive Steps (start : Key) : List (Visit Key) → Key → Prop where
  | nil : Steps start [] start
  | snoc {visits : List (Visit Key)} {cursor last : Key}
      {visit : Visit Key} :
      Steps start visits cursor →
      visit.page <+: above cursor visit.rows →
      visit.page.getLast? = some last →
      Steps start (visits ++ [visit]) last

/-- The last visit finds nothing above its page. -/
def Complete (start : Key) (visits : List (Visit Key)) : Prop :=
  ∃ front cursor last, visits = front ++ [last] ∧
    Steps start front cursor ∧ last.page = above cursor last.rows

/-- What the reader has seen at a cursor. -/
structure Seen (start : Key) (visits : List (Visit Key)) (cursor : Key) :
    Prop where
  forward : start ≤ cursor
  increasing : (read visits).Pairwise (· < ·)
  between : ∀ key ∈ read visits, start < key ∧ key ≤ cursor
  complete : ∀ key, start < key → key ≤ cursor →
    (∀ visit ∈ visits, key ∈ visit.rows) → key ∈ read visits

/-- The keys of a page begin with the least ones above the cursor. -/
theorem mem_page {cursor key last : Key} {visit : Visit Key}
    (distinct : visit.rows.Nodup)
    (isPage : visit.page <+: above cursor visit.rows)
    (isLast : visit.page.getLast? = some last) (present : key ∈ visit.rows)
    (lower : cursor < key) (upper : key ≤ last) : key ∈ visit.page := by
  obtain ⟨rest, split⟩ := isPage
  have increasing := above_increasing distinct cursor
  have member : key ∈ above cursor visit.rows :=
    mem_above.mpr ⟨present, lower⟩
  rw [← split] at increasing member
  rcases List.mem_append.mp member with inside | outside
  · exact inside
  · have beyond := (List.pairwise_append.mp increasing).2.2 last
      (List.mem_of_getLast? isLast) key outside
    exact absurd upper (not_le.mpr beyond)

theorem page_increasing {cursor : Key} {visit : Visit Key}
    (distinct : visit.rows.Nodup)
    (isPage : visit.page <+: above cursor visit.rows) :
    visit.page.Pairwise (· < ·) :=
  (above_increasing distinct cursor).sublist isPage.sublist

theorem page_above {cursor key : Key} {visit : Visit Key}
    (isPage : visit.page <+: above cursor visit.rows)
    (member : key ∈ visit.page) : key ∈ visit.rows ∧ cursor < key :=
  mem_above.mp (isPage.subset member)

/-- The last key of an increasing page is the largest. -/
theorem le_last {page : List Key} {key last : Key}
    (increasing : page.Pairwise (· < ·)) (isLast : page.getLast? = some last)
    (member : key ∈ page) : key ≤ last := by
  obtain ⟨front, rfl⟩ := List.getLast?_eq_some_iff.mp isLast
  rcases List.mem_append.mp member with inside | only
  · exact ((List.pairwise_append.mp increasing).2.2 key inside last
      (List.mem_singleton.mpr rfl)).le
  · exact (List.mem_singleton.mp only).le

theorem Seen.append_page {start cursor : Key} {visits : List (Visit Key)}
    {visit : Visit Key} (seen : Seen start visits cursor)
    (distinct : visit.rows.Nodup)
    (isPage : visit.page <+: above cursor visit.rows) :
    (read (visits ++ [visit])).Pairwise (· < ·) := by
  rw [read_snoc, List.pairwise_append]
  refine ⟨seen.increasing, page_increasing distinct isPage, ?_⟩
  intro earlier inRead later inPage
  exact lt_of_le_of_lt (seen.between earlier inRead).2
    (page_above isPage inPage).2

theorem Steps.seen {start cursor : Key} {visits : List (Visit Key)}
    (steps : Steps start visits cursor)
    (distinct : ∀ visit ∈ visits, visit.rows.Nodup) :
    Seen start visits cursor := by
  induction steps with
  | nil =>
      refine ⟨le_refl start, List.Pairwise.nil, ?_, ?_⟩
      · intro key member
        cases member
      · intro key lower upper
        exact absurd lower (not_lt.mpr upper)
  | @snoc visits cursor last visit steps isPage isLast induction =>
      have earlier := induction fun other member =>
        distinct other (List.mem_append_left _ member)
      have rows := distinct visit (List.mem_append_right _
        (List.mem_singleton.mpr rfl))
      have lastMember := List.mem_of_getLast? isLast
      have advances := (page_above isPage lastMember).2
      refine ⟨earlier.forward.trans advances.le,
        earlier.append_page rows isPage, ?_, ?_⟩
      · intro key member
        rw [read_snoc] at member
        rcases List.mem_append.mp member with old | new
        · obtain ⟨lower, upper⟩ := earlier.between key old
          exact ⟨lower, upper.trans advances.le⟩
        · exact ⟨lt_of_le_of_lt earlier.forward (page_above isPage new).2,
            le_last (page_increasing rows isPage) isLast new⟩
      · intro key lower upper present
        rw [read_snoc, List.mem_append]
        by_cases old : key ≤ cursor
        · exact .inl (earlier.complete key lower old fun other member =>
            present other (List.mem_append_left _ member))
        · exact .inr (mem_page rows isPage isLast
            (present visit (List.mem_append_right _
              (List.mem_singleton.mpr rfl))) (not_le.mp old) upper)

/-- A reader that comes to the end has seen every key that stayed. -/
theorem Complete.seen {start : Key} {visits : List (Visit Key)}
    (complete : Complete start visits)
    (distinct : ∀ visit ∈ visits, visit.rows.Nodup) :
    (read visits).Pairwise (· < ·) ∧ ∀ key, start < key →
      (∀ visit ∈ visits, key ∈ visit.rows) → key ∈ read visits := by
  obtain ⟨front, cursor, last, rfl, steps, isPage⟩ := complete
  have earlier := steps.seen fun visit member =>
    distinct visit (List.mem_append_left _ member)
  have rows := distinct last (List.mem_append_right _
    (List.mem_singleton.mpr rfl))
  refine ⟨earlier.append_page rows (isPage ▸ List.prefix_refl _), ?_⟩
  intro key lower present
  rw [read_snoc, List.mem_append]
  by_cases old : key ≤ cursor
  · exact .inl (earlier.complete key lower old fun visit member =>
      present visit (List.mem_append_left _ member))
  · rw [isPage, mem_above]
    exact .inr ⟨present last (List.mem_append_right _
      (List.mem_singleton.mpr rfl)), not_le.mp old⟩

/-- A table without insertions has no more pages than rows. -/
theorem Steps.length_le {start cursor : Key} {visits : List (Visit Key)}
    {rows : List Key} (steps : Steps start visits cursor)
    (distinct : ∀ visit ∈ visits, visit.rows.Nodup)
    (within : ∀ visit ∈ visits, visit.rows ⊆ rows) :
    visits.length ≤ rows.length := by
  have seen := steps.seen distinct
  have nodup : (read visits).Nodup := seen.increasing.imp ne_of_lt
  have subset : read visits ⊆ rows := by
    clear seen nodup distinct
    induction steps with
    | nil => exact List.nil_subset rows
    | @snoc visits cursor last visit steps isPage isLast induction =>
        rw [read_snoc, List.append_subset]
        refine ⟨induction fun other member =>
          within other (List.mem_append_left _ member), fun key member => ?_⟩
        exact within visit (List.mem_append_right _
          (List.mem_singleton.mpr rfl)) (page_above isPage member).1
  have pages : visits.length ≤ (read visits).length := by
    clear seen nodup subset within distinct
    induction steps with
    | nil => exact Nat.le_refl 0
    | @snoc visits cursor last visit steps isPage isLast induction =>
        have positive : 0 < visit.page.length :=
          List.length_pos_of_mem (List.mem_of_getLast? isLast)
        rw [read_snoc, List.length_append, List.length_append,
          List.length_singleton]
        omega
  exact pages.trans (List.subperm_of_subset nodup subset).length_le

end Keyset
