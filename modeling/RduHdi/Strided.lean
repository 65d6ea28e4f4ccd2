import Mathlib

/-!
# Strided views of memory

A view has a shape and, for each dimension, the distance in memory between neighbours along it.
An allocation without gaps has its last dimension innermost.  Views of one memory differ by the
order of their dimensions: a permuted view reaches at a permuted index what the view reaches at the
index.
-/

/-- The items at the positions that an order names. -/
def List.pick {α : Type*} : List ℕ → List α → Option (List α)
  | [], _ => some []
  | position :: order, items =>
      match items[position]?, List.pick order items with
      | some item, some rest => some (item :: rest)
      | _, _ => none

namespace List

variable {α β γ : Type*}

theorem pick_cons_eq_some {position : ℕ} {order : List ℕ} {items picked : List α} :
    pick (position :: order) items = some picked ↔
      ∃ item rest, items[position]? = some item ∧ pick order items = some rest ∧
        picked = item :: rest := by
  rw [pick]
  cases items[position]? with
  | none => simp
  | some item =>
      cases pick order items with
      | none => simp
      | some rest => simp [eq_comm]

theorem pick_eq_filterMap {order : List ℕ} {items picked : List α}
    (taken : pick order items = some picked) : picked = order.filterMap (items[·]?) := by
  induction order generalizing picked with
  | nil =>
      cases taken
      rfl
  | cons position order ih =>
      obtain ⟨item, rest, here, there, rfl⟩ := pick_cons_eq_some.mp taken
      rw [List.filterMap_cons, here, ← ih there]

theorem filterMap_getElem?_range (items : List α) :
    (List.range items.length).filterMap (items[·]?) = items := by
  induction items with
  | nil => rfl
  | cons item items ih =>
      rw [List.length_cons, List.range_succ_eq_map, List.filterMap_cons, List.filterMap_map]
      exact congrArg (item :: ·) ih

theorem pick_perm {order : List ℕ} {items picked : List α}
    (whole : order.Perm (List.range items.length)) (taken : pick order items = some picked) :
    picked.Perm items := by
  rw [pick_eq_filterMap taken]
  exact (whole.filterMap _).trans (.of_eq (filterMap_getElem?_range items))

theorem pick_zipWith (f : α → β → γ) {order : List ℕ} {left picked : List α}
    {right chosen : List β} (leftTaken : pick order left = some picked)
    (rightTaken : pick order right = some chosen) :
    pick order (List.zipWith f left right) = some (List.zipWith f picked chosen) := by
  induction order generalizing picked chosen with
  | nil =>
      cases leftTaken
      cases rightTaken
      rfl
  | cons position order ih =>
      obtain ⟨first, firsts, here, others, rfl⟩ := pick_cons_eq_some.mp leftTaken
      obtain ⟨second, seconds, there, rest, rfl⟩ := pick_cons_eq_some.mp rightTaken
      refine pick_cons_eq_some.mpr ⟨f first second, _, ?_, ih others rest, rfl⟩
      rw [List.getElem?_zipWith_eq_some]
      exact ⟨first, second, here, there, rfl⟩

end List

structure StridedView where
  /-- The size of each dimension. -/
  shape : List ℕ
  /-- The step of each dimension. -/
  strides : List ℕ
  deriving DecidableEq

namespace StridedView

/-- The distances in an allocation without gaps. -/
def rowMajorStrides : List ℕ → List ℕ
  | [] => []
  | _ :: shape => shape.prod :: rowMajorStrides shape

/-- An allocation without gaps. -/
def rowMajor (shape : List ℕ) : StridedView := ⟨shape, rowMajorStrides shape⟩

/-- The view with its dimensions in another order; every dimension has to be named once. -/
def permute (order : List ℕ) (view : StridedView) : Option StridedView :=
  if order.Perm (List.range view.shape.length) then
    match List.pick order view.shape, List.pick order view.strides with
    | some shape, some strides => some ⟨shape, strides⟩
    | _, _ => none
  else
    none

/-- Where an element is, from the start of the memory. -/
def offset (view : StridedView) (index : List ℕ) : ℕ :=
  (List.zipWith (· * ·) index view.strides).sum

theorem offset_rowMajor_cons (size position : ℕ) (shape index : List ℕ) :
    (rowMajor (size :: shape)).offset (position :: index) =
      position * shape.prod + (rowMajor shape).offset index :=
  List.sum_cons

theorem offset_rowMajor_nil : (rowMajor []).offset [] = 0 := rfl

theorem permute_of_pick {order shape strides : List ℕ} {view : StridedView}
    (whole : order.Perm (List.range view.shape.length))
    (shapes : List.pick order view.shape = some shape)
    (distances : List.pick order view.strides = some strides) :
    view.permute order = some ⟨shape, strides⟩ := by
  rw [permute, if_pos whole, shapes, distances]

/-- A permuted view is a view of the same memory. -/
theorem offset_permute {order : List ℕ} {view permuted : StridedView} {index moved : List ℕ}
    (taken : view.permute order = some permuted) (picked : List.pick order index = some moved)
    (dimensions : view.strides.length = view.shape.length)
    (fits : index.length = view.shape.length) :
    permuted.offset moved = view.offset index := by
  rw [permute] at taken
  split at taken
  · rename_i whole
    split at taken
    · rename_i shape strides shapes distances
      cases taken
      have terms := List.pick_zipWith (· * ·) picked distances
      refine (List.pick_perm ?_ terms).sum_eq
      rwa [List.length_zipWith, dimensions, fits, Nat.min_self]
    · cases taken
  · cases taken

end StridedView
