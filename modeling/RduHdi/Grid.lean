import Mathlib

/-!
# Rows of equal width, laid end to end

A list made of rows of one width is indexed by row and column: cell `index * width + column` is
the cell of that row and column.  The same arithmetic on the number line cuts a stretch into
spans of one length, which tile it.
-/

namespace Grid

section Lists

variable {α β : Type*} {rows : List α} {row : α → List β} {width : ℕ}

theorem length_flatMap (uniform : ∀ entry ∈ rows, (row entry).length = width) :
    (rows.flatMap row).length = rows.length * width := by
  induction rows with
  | nil => simp
  | cons entry rows ih =>
      rw [List.flatMap_cons, List.length_append, uniform entry List.mem_cons_self,
        ih fun other member => uniform other (List.mem_cons_of_mem entry member),
        List.length_cons, Nat.succ_mul, Nat.add_comm]

theorem cell_lt {count index column : ℕ} (row_lt : index < count) (inside : column < width) :
    index * width + column < count * width :=
  calc index * width + column
      < (index + 1) * width := by rw [Nat.succ_mul]; omega
    _ ≤ count * width := Nat.mul_le_mul_right width row_lt

theorem getElem?_flatMap (uniform : ∀ entry ∈ rows, (row entry).length = width)
    (index : ℕ) {column : ℕ} (inside : column < width) :
    (rows.flatMap row)[index * width + column]? =
      rows[index]?.bind fun entry => (row entry)[column]? := by
  induction rows generalizing index with
  | nil => simp
  | cons entry rows ih =>
      have first := uniform entry List.mem_cons_self
      rw [List.flatMap_cons]
      cases index with
      | zero =>
          rw [Nat.zero_mul, Nat.zero_add, List.getElem?_append_left (by omega)]
          rfl
      | succ index =>
          have later : (index + 1) * width + column - (row entry).length =
              index * width + column := by
            rw [first, Nat.succ_mul]
            omega
          rw [List.getElem?_append_right (by rw [first, Nat.succ_mul]; omega), later,
            ih fun other member => uniform other (List.mem_cons_of_mem entry member)]
          rfl

theorem getElem?_flatten {rows : List (List β)} (uniform : ∀ row ∈ rows, row.length = width)
    (index : ℕ) {column : ℕ} (inside : column < width) :
    rows.flatten[index * width + column]? = rows[index]?.bind fun row => row[column]? := by
  rw [← List.flatMap_id]
  exact getElem?_flatMap uniform index inside

end Lists

/-! ## Rows of any width -/

section Ragged

variable {α : Type*} {rows : List (List α)}

/-- How many entries stand before a row. -/
def entriesBefore (rows : List (List α)) (row : ℕ) : ℕ :=
  ((rows.take row).map List.length).sum

theorem entriesBefore_succ (rows : List (List α)) (row : ℕ) :
    entriesBefore rows (row + 1) = entriesBefore rows row + (rows.getD row []).length := by
  rw [entriesBefore, entriesBefore, List.take_add_one, List.map_append, List.sum_append,
    List.getD_eq_getElem?_getD]
  cases rows[row]? <;> simp

theorem entriesBefore_mono (rows : List (List α)) : Monotone (entriesBefore rows) := by
  apply monotone_nat_of_le_succ
  intro row
  rw [entriesBefore_succ]
  exact Nat.le_add_right _ _

variable [DecidableEq α]

/-- The number of an entry when the rows are numbered one after another. -/
def raggedIndex (rows : List (List α)) (row : ℕ) (entry : α) : ℕ :=
  entriesBefore rows row + (rows.getD row []).idxOf entry

theorem raggedIndex_lt {row : ℕ} {entry : α} (member : entry ∈ rows.getD row []) :
    raggedIndex rows row entry < entriesBefore rows (row + 1) := by
  rw [raggedIndex, entriesBefore_succ]
  exact Nat.add_lt_add_left (List.idxOf_lt_length_iff.mpr member) _

theorem raggedIndex_lt_of_lt {row later : ℕ} {entry : α} (other : α)
    (member : entry ∈ rows.getD row []) (before : row < later) :
    raggedIndex rows row entry < raggedIndex rows later other :=
  calc raggedIndex rows row entry
      < entriesBefore rows (row + 1) := raggedIndex_lt member
    _ ≤ entriesBefore rows later := entriesBefore_mono rows before
    _ ≤ raggedIndex rows later other := Nat.le_add_right _ _

/-- Entries of one number are one entry of one row. -/
theorem raggedIndex_eq_iff {row other : ℕ} {entry otherEntry : α}
    (member : entry ∈ rows.getD row []) (otherMember : otherEntry ∈ rows.getD other []) :
    raggedIndex rows row entry = raggedIndex rows other otherEntry ↔
      row = other ∧ entry = otherEntry := by
  constructor
  · intro same
    rcases Nat.lt_trichotomy row other with before | rfl | after
    · have := raggedIndex_lt_of_lt otherEntry member before
      omega
    · rw [raggedIndex, raggedIndex, Nat.add_left_cancel_iff] at same
      exact ⟨rfl, (List.idxOf_inj member).mp same⟩
    · have := raggedIndex_lt_of_lt entry otherMember after
      omega
  · rintro ⟨rfl, rfl⟩
    rfl

end Ragged

/-! ## Tilings -/

section Tilings

variable {ι κ α : Type*}

/-- The pieces of an index set are pairwise disjoint and make up the whole. -/
structure Tiles (index : Set ι) (piece : ι → Set α) (whole : Set α) : Prop where
  /-- No two pieces overlap. -/
  disjoint : index.PairwiseDisjoint piece
  /-- Together they are the whole. -/
  covers : ⋃ i ∈ index, piece i = whole

theorem Tiles.reindex {index : Set ι} {names : Set κ} {piece : ι → Set α} {whole : Set α}
    (tiles : Tiles index piece whole) {rename : κ → ι} (bijective : Set.BijOn rename names index)
    {renamed : κ → Set α} (same : ∀ name ∈ names, renamed name = piece (rename name)) :
    Tiles names renamed whole where
  disjoint := by
    intro left isLeft right isRight differ
    change Disjoint (renamed left) (renamed right)
    rw [same left isLeft, same right isRight]
    apply tiles.disjoint (bijective.mapsTo isLeft) (bijective.mapsTo isRight)
    exact fun equal => differ (bijective.injOn isLeft isRight equal)
  covers := by
    rw [← tiles.covers, ← bijective.image_eq, Set.biUnion_image]
    exact Set.iUnion₂_congr same

/-- Spans of one length, end to end, tile a stretch. -/
theorem tiles_spans (start width count : ℕ) :
    Tiles (Set.Iio count) (fun i => Set.Ico (start + i * width) (start + i * width + width))
      (Set.Ico start (start + count * width)) where
  disjoint := by
    intro left _ right _ differ
    rw [Function.onFun, Set.disjoint_left]
    rintro byte ⟨leftStart, leftStop⟩ ⟨rightStart, rightStop⟩
    rcases Nat.lt_or_gt_of_ne differ with before | after
    · have := Nat.mul_le_mul_right width before
      rw [Nat.succ_mul] at this
      omega
    · have := Nat.mul_le_mul_right width after
      rw [Nat.succ_mul] at this
      omega
  covers := by
    ext byte
    simp only [Set.mem_iUnion, Set.mem_Iio, Set.mem_Ico, exists_prop]
    constructor
    · rintro ⟨i, inside, after, before⟩
      have := Nat.mul_le_mul_right width inside
      rw [Nat.succ_mul] at this
      omega
    · rintro ⟨after, before⟩
      have inside : byte - start < width * count := by
        rw [Nat.mul_comm]
        omega
      have split := Nat.div_add_mod (byte - start) width
      have isRest := Nat.mod_lt (byte - start) (Nat.pos_of_mul_pos_right (Nat.zero_lt_of_lt inside))
      refine ⟨(byte - start) / width, Nat.div_lt_of_lt_mul inside, ?_⟩
      rw [Nat.mul_comm] at split
      omega

end Tilings

end Grid
