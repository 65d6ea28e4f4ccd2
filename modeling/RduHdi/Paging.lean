import Mathlib

/-!
# Items in pages, computed chunk by chunk

Items `0, 1, 2, …` are stored in pages of a fixed size and computed in chunks.  The pages a chunk
allocates are those between two page counts.  A page is allocated by the chunk that computes its
first item; it is the chunk that computes its last item, for every page, exactly when all chunk
boundaries are page boundaries.
-/

namespace Paging

/-- How many pages hold the first `items` items. -/
abbrev pageCount (pageSize items : ℕ) : ℕ := items ⌈/⌉ pageSize

/-- The items computed before a chunk. -/
def boundary (chunks : List ℕ) (index : ℕ) : ℕ := (chunks.take index).sum

/-- The last item of a page, when there are `items` items. -/
def lastItem (pageSize items page : ℕ) : ℕ := min ((page + 1) * pageSize) items - 1

/-- Every chunk starts on a page boundary. -/
def Aligned (pageSize : ℕ) (chunks : List ℕ) : Prop :=
  ∀ index < chunks.length, pageSize ∣ boundary chunks index

/-! ## Chunk boundaries -/

@[simp]
theorem boundary_zero (chunks : List ℕ) : boundary chunks 0 = 0 := by simp [boundary]

@[simp]
theorem boundary_succ_cons (chunk : ℕ) (chunks : List ℕ) (index : ℕ) :
    boundary (chunk :: chunks) (index + 1) = chunk + boundary chunks index := by
  simp [boundary]

@[simp]
theorem boundary_append_length (left right : List ℕ) :
    boundary (left ++ right) left.length = left.sum := by
  simp [boundary]

@[simp]
theorem boundary_append_succ (left right : List ℕ) (chunk : ℕ) :
    boundary (left ++ chunk :: right) (left.length + 1) = left.sum + chunk := by
  simp [boundary, List.take_append, List.take_of_length_le]

theorem exists_cut {chunks : List ℕ} {index : ℕ} (inside : index < chunks.length) :
    ∃ left chunk right, chunks = left ++ chunk :: right ∧ left.length = index := by
  refine ⟨chunks.take index, chunks[index], chunks.drop (index + 1), ?_, ?_⟩
  · rw [List.cons_getElem_drop_succ, List.take_append_drop]
  · rw [List.length_take, Nat.min_eq_left inside.le]

theorem boundary_mono (chunks : List ℕ) : Monotone (boundary chunks) := by
  intro first second ordered
  induction chunks generalizing first second with
  | nil => simp [boundary]
  | cons chunk chunks ih =>
      cases first with
      | zero => simp
      | succ first =>
          cases second with
          | zero => omega
          | succ second =>
              have rest := ih (Nat.le_of_succ_le_succ ordered)
              simp only [boundary_succ_cons]
              omega

theorem boundary_lt_sum {chunks : List ℕ} (positive : ∀ chunk ∈ chunks, 0 < chunk)
    {index : ℕ} (inside : index < chunks.length) : boundary chunks index < chunks.sum := by
  induction chunks generalizing index with
  | nil => simp at inside
  | cons chunk chunks ih =>
      have head := positive chunk List.mem_cons_self
      rw [List.sum_cons]
      cases index with
      | zero =>
          rw [boundary_zero]
          omega
      | succ index =>
          have later := ih (fun other member => positive other (List.mem_cons_of_mem _ member))
            (Nat.lt_of_succ_lt_succ inside)
          rw [boundary_succ_cons]
          omega

/-- Every item is computed by some chunk. -/
theorem exists_chunk {chunks : List ℕ} {item : ℕ} (inside : item < chunks.sum) :
    ∃ index < chunks.length,
      boundary chunks index ≤ item ∧ item < boundary chunks (index + 1) := by
  induction chunks generalizing item with
  | nil => simp at inside
  | cons chunk chunks ih =>
      rw [List.sum_cons] at inside
      rcases Nat.lt_or_ge item chunk with first | later
      · exact ⟨0, by simp, by simp, by simpa using first⟩
      · have shifted : item - chunk < chunks.sum := by omega
        obtain ⟨index, bound, lower, upper⟩ := ih shifted
        refine ⟨index + 1, by simpa using bound, ?_, ?_⟩
        · rw [boundary_succ_cons]
          omega
        · rw [boundary_succ_cons]
          omega

/-! ## Pages -/

theorem pageCount_le_iff {pageSize : ℕ} (positive : 0 < pageSize) {items pages : ℕ} :
    pageCount pageSize items ≤ pages ↔ items ≤ pageSize * pages :=
  ceilDiv_le_iff_le_mul positive

theorem pageCount_mono {pageSize : ℕ} (positive : 0 < pageSize) :
    Monotone (pageCount pageSize) := by
  intro fewer more ordered
  rw [pageCount_le_iff positive]
  exact ordered.trans ((pageCount_le_iff positive).mp le_rfl)

theorem pageCount_of_dvd {pageSize items : ℕ} (positive : 0 < pageSize)
    (whole : pageSize ∣ items) : pageSize * pageCount pageSize items = items := by
  obtain ⟨pages, rfl⟩ := whole
  have least : pageCount pageSize (pageSize * pages) ≤ pages :=
    (pageCount_le_iff positive).mpr le_rfl
  have enough : pageSize * pages ≤ pageSize * pageCount pageSize (pageSize * pages) :=
    (pageCount_le_iff positive).mp le_rfl
  exact le_antisymm (Nat.mul_le_mul_left pageSize least) enough

theorem pageCount_mul {ratio pageSize items : ℕ} (ratio_pos : 0 < ratio)
    (positive : 0 < pageSize) :
    pageCount (ratio * pageSize) items = pageCount ratio (pageCount pageSize items) := by
  apply eq_of_forall_ge_iff
  intro pages
  rw [pageCount_le_iff (Nat.mul_pos ratio_pos positive), pageCount_le_iff ratio_pos,
    pageCount_le_iff positive, Nat.mul_comm ratio, Nat.mul_assoc]

theorem pageCount_lt_of_dvd {pageSize computed items : ℕ} (positive : 0 < pageSize)
    (whole : pageSize ∣ computed) (more : computed < items) :
    pageCount pageSize computed < pageCount pageSize items := by
  by_contra enough
  have bound := (pageCount_le_iff positive).mp (Nat.le_of_not_lt enough)
  rw [pageCount_of_dvd positive whole] at bound
  omega

/-- Chunks start on page boundaries exactly when no page is allocated before the chunk that
computes its last item. -/
theorem aligned_iff {pageSize : ℕ} (pageSize_pos : 0 < pageSize) {chunks : List ℕ}
    (positive : ∀ chunk ∈ chunks, 0 < chunk) :
    Aligned pageSize chunks ↔
      ∀ page < pageCount pageSize chunks.sum, ∀ index < chunks.length,
        boundary chunks index ≤ lastItem pageSize chunks.sum page →
        lastItem pageSize chunks.sum page < boundary chunks (index + 1) →
          pageCount pageSize (boundary chunks index) ≤ page := by
  constructor
  · intro aligned page _ index inside started _
    rw [pageCount_le_iff pageSize_pos]
    obtain ⟨pages, whole⟩ := aligned index inside
    rw [whole] at started ⊢
    have before : pageSize * pages < pageSize * (page + 1) := by
      have last : lastItem pageSize chunks.sum page < (page + 1) * pageSize := by
        have filled : 0 < (page + 1) * pageSize := Nat.mul_pos (Nat.succ_pos page) pageSize_pos
        rw [lastItem]
        omega
      calc
        pageSize * pages ≤ lastItem pageSize chunks.sum page := started
        _ < (page + 1) * pageSize := last
        _ = pageSize * (page + 1) := Nat.mul_comm _ _
    have fewer : pages < page + 1 := Nat.lt_of_mul_lt_mul_left before
    exact Nat.mul_le_mul_left pageSize (Nat.le_of_lt_succ fewer)
  · intro early index inside
    by_contra ragged
    let start := boundary chunks index
    let page := start / pageSize
    have startsInside : start < chunks.sum := boundary_lt_sum positive inside
    have division : pageSize * page + start % pageSize = start := Nat.div_add_mod start pageSize
    have remainder : 0 < start % pageSize :=
      Nat.pos_of_ne_zero fun zero => ragged (Nat.dvd_of_mod_eq_zero zero)
    have short : start % pageSize < pageSize := Nat.mod_lt start pageSize_pos
    have ends : (page + 1) * pageSize = pageSize * page + pageSize := by
      rw [Nat.add_mul, Nat.one_mul, Nat.mul_comm]
    -- the chunk that computes the last item of the page starts no earlier than this one
    have afterStart : start ≤ lastItem pageSize chunks.sum page := by
      rw [lastItem]
      omega
    have lastInside : lastItem pageSize chunks.sum page < chunks.sum := by
      rw [lastItem]
      omega
    have pageInside : page < pageCount pageSize chunks.sum := by
      by_contra outside
      have bound := (pageCount_le_iff pageSize_pos).mp (Nat.le_of_not_lt outside)
      omega
    obtain ⟨last, lastBound, lower, upper⟩ := exists_chunk lastInside
    have ordered : index ≤ last := by
      by_contra reversed
      have mono := boundary_mono chunks (Nat.succ_le_of_lt (Nat.lt_of_not_le reversed))
      exact absurd (mono.trans afterStart) (Nat.not_le_of_lt upper)
    have allocated := early page pageInside last lastBound lower upper
    rw [pageCount_le_iff pageSize_pos] at allocated
    have mono : start ≤ boundary chunks last := boundary_mono chunks ordered
    omega

/-! ## Allocation -/

section Allocation

variable {α : Type*}

/-- The pages allocated between two item counts. -/
def allocated (pageSize : ℕ) (pages : List α) (computed upTo : ℕ) : List α :=
  (pages.take (pageCount pageSize upTo)).drop (pageCount pageSize computed)

/-- What is allocated in two stretches is what is allocated in both. -/
theorem allocated_append {pageSize : ℕ} (positive : 0 < pageSize) (pages : List α)
    {computed middle upTo : ℕ} (first : computed ≤ middle) (second : middle ≤ upTo) :
    allocated pageSize pages computed middle ++ allocated pageSize pages middle upTo =
      allocated pageSize pages computed upTo := by
  have low := pageCount_mono positive first
  have high := pageCount_mono positive second
  let whole := pages.take (pageCount pageSize upTo)
  have cut : pages.take (pageCount pageSize middle) =
      whole.take (pageCount pageSize middle) := by
    rw [List.take_take, Nat.min_eq_left high]
  rw [allocated, allocated, allocated, cut]
  change (whole.take _).drop _ ++ whole.drop _ = whole.drop _
  rw [List.drop_take]
  have shift : pageCount pageSize middle =
      pageCount pageSize computed + (pageCount pageSize middle - pageCount pageSize computed) := by
    omega
  conv_lhs =>
    enter [2]
    rw [shift, ← List.drop_drop]
  exact List.take_append_drop _ _

theorem allocated_self (pageSize : ℕ) (pages : List α) (items : ℕ) :
    allocated pageSize pages items items = [] := by
  rw [allocated, List.drop_eq_nil_iff, List.length_take]
  omega

theorem length_allocated {pageSize : ℕ} {pages : List α} {computed upTo : ℕ}
    (enough : pageCount pageSize upTo ≤ pages.length) :
    (allocated pageSize pages computed upTo).length =
      pageCount pageSize upTo - pageCount pageSize computed := by
  rw [allocated, List.length_drop, List.length_take, Nat.min_eq_left enough]

/-- A page is among those allocated from an item on exactly when the pages before the item do not
include it. -/
theorem mem_allocated_iff {pageSize : ℕ} {pages : List α} (nodup : pages.Nodup)
    {computed items : ℕ} (whole : pages.length ≤ pageCount pageSize items) {page : ℕ} {content : α}
    (found : pages[page]? = some content) :
    content ∈ allocated pageSize pages computed items ↔ pageCount pageSize computed ≤ page := by
  obtain ⟨inside, rfl⟩ := List.getElem?_eq_some_iff.mp found
  rw [allocated, List.take_of_length_le whole, List.mem_drop_iff_getElem]
  constructor
  · rintro ⟨offset, bound, equal⟩
    have same := (nodup.getElem_inj_iff).mp equal
    omega
  · intro later
    exact ⟨page - pageCount pageSize computed, by omega, by congr 1; omega⟩

end Allocation

end Paging
