import Mathlib

/-!
# Sorting by a key that can be missing

A stable sort by a key, where a comparison with a missing key raises.  The sort compares every
element with another one as soon as there are two, so it goes through exactly when there is at most
one element or every key is there, and then it returns the elements in the order of their keys.
-/

namespace KeyedSort

variable {α κ ε : Type*} [LinearOrder κ] (key : α → Option κ) (raised : ε)

/-- `key(first) < key(second)`. -/
def less (first second : α) : Except ε Bool :=
  match key first, key second with
  | some left, some right => .ok (left < right)
  | _, _ => .error raised

/-- Put an element in front of the first one with a larger key. -/
def insert (item : α) : List α → Except ε (List α)
  | [] => .ok [item]
  | other :: others =>
      match less key raised item other with
      | .error raised => .error raised
      | .ok true => .ok (item :: other :: others)
      | .ok false => (insert item others).map (other :: ·)

/-- Insert elements one after the other. -/
def insertAll (sorted : List α) : List α → Except ε (List α)
  | [] => .ok sorted
  | item :: items =>
      match insert key raised item sorted with
      | .error raised => .error raised
      | .ok sorted => insertAll sorted items

/-- `items.sort(key=key)`. -/
def sort (items : List α) : Except ε (List α) :=
  insertAll key raised [] items

/-- Every element has a key. -/
def Keyed (items : List α) : Prop :=
  ∀ item ∈ items, (key item).isSome

/-- An element with a smaller key never stands after one with a larger key. -/
def Sorted (items : List α) : Prop :=
  items.Pairwise fun first second =>
    ∀ left right, key first = some left → key second = some right → left ≤ right

variable {key raised}

theorem less_of_keyed {first second : α} {left right : κ} (isLeft : key first = some left)
    (isRight : key second = some right) : less key raised first second = .ok (left < right) := by
  rw [less, isLeft, isRight]

theorem less_of_missing {first second : α} (missing : key first = none ∨ key second = none) :
    less key raised first second = .error raised := by
  rw [less]
  cases left : key first with
  | none => rfl
  | some value =>
      cases right : key second with
      | none => rfl
      | some other => simp [left, right] at missing

/-- Among elements with keys an insertion goes through, and keeps the order. -/
theorem insert_of_keyed {item : α} {items : List α} (keyed : Keyed key (item :: items))
    (sorted : Sorted key items) :
    ∃ result, insert key raised item items = .ok result ∧ result.Perm (item :: items) ∧
      Sorted key result := by
  obtain ⟨value, hasKey⟩ := Option.isSome_iff_exists.mp (keyed item List.mem_cons_self)
  induction items with
  | nil => exact ⟨[item], rfl, List.Perm.refl _, List.pairwise_singleton _ _⟩
  | cons other others ih =>
      obtain ⟨bound, otherKey⟩ := Option.isSome_iff_exists.mp
        (keyed other (List.mem_cons_of_mem item List.mem_cons_self))
      obtain ⟨first, rest⟩ := List.pairwise_cons.mp sorted
      rw [insert, less_of_keyed hasKey otherKey]
      by_cases smaller : value < bound
      · rw [decide_eq_true smaller]
        refine ⟨_, rfl, List.Perm.refl _, List.pairwise_cons.mpr ⟨?_, sorted⟩⟩
        intro later member left right isLeft isRight
        obtain rfl := Option.some.inj (hasKey.symm.trans isLeft)
        rcases List.mem_cons.mp member with rfl | member
        · obtain rfl := Option.some.inj (otherKey.symm.trans isRight)
          exact smaller.le
        · exact smaller.le.trans (first later member _ _ otherKey isRight)
      · rw [decide_eq_false smaller]
        have keyedRest : Keyed key (item :: others) := by
          intro one member
          rcases List.mem_cons.mp member with rfl | member
          · exact keyed one List.mem_cons_self
          · exact keyed one (List.mem_cons_of_mem item (List.mem_cons_of_mem other member))
        obtain ⟨result, inserted, perm, ordered⟩ := ih keyedRest rest
        refine ⟨other :: result, by rw [inserted]; rfl,
          (perm.cons other).trans (List.Perm.swap item other others),
          List.pairwise_cons.mpr ⟨?_, ordered⟩⟩
        intro later member left right isLeft isRight
        obtain rfl := Option.some.inj (otherKey.symm.trans isLeft)
        rcases List.mem_cons.mp (perm.mem_iff.mp member) with rfl | member
        · obtain rfl := Option.some.inj (hasKey.symm.trans isRight)
          exact not_lt.mp smaller
        · exact first later member _ _ otherKey isRight

theorem insert_of_missing {item other : α} {others : List α}
    (missing : key item = none ∨ key other = none) :
    insert key raised item (other :: others) = .error raised := by
  rw [insert, less_of_missing missing]

theorem insertAll_of_keyed {items sorted : List α} (keyed : Keyed key (sorted ++ items))
    (ordered : Sorted key sorted) :
    ∃ result, insertAll key raised sorted items = .ok result ∧ result.Perm (sorted ++ items) ∧
      Sorted key result := by
  induction items generalizing sorted with
  | nil => exact ⟨sorted, rfl, by rw [List.append_nil], ordered⟩
  | cons item items ih =>
      have keyedOne : Keyed key (item :: sorted) := fun one member =>
        keyed one (by
          rcases List.mem_cons.mp member with rfl | member
          · simp
          · simp [member])
      obtain ⟨next, inserted, perm, nextOrdered⟩ := insert_of_keyed keyedOne ordered
      have rearranged : (next ++ items).Perm (sorted ++ item :: items) :=
        (perm.append_right items).trans List.perm_middle.symm
      obtain ⟨result, taken, resultPerm, resultOrdered⟩ :=
        ih (fun one member => keyed one (rearranged.mem_iff.mp member)) nextOrdered
      exact ⟨result, by rw [insertAll, inserted]; exact taken, resultPerm.trans rearranged,
        resultOrdered⟩

theorem sort_of_keyed (raised : ε) {items : List α} (keyed : Keyed key items) :
    ∃ result, sort key raised items = .ok result ∧ result.Perm items ∧ Sorted key result :=
  insertAll_of_keyed keyed List.Pairwise.nil

/-- Once there is an element to compare with, every later one needs a key. -/
theorem keyed_of_insertAll {sorted items result : List α} (nonempty : sorted ≠ [])
    (keyed : Keyed key sorted) (ordered : Sorted key sorted)
    (taken : insertAll key raised sorted items = .ok result) : Keyed key items := by
  induction items generalizing sorted with
  | nil => simp [Keyed]
  | cons item items ih =>
      have hasKey : (key item).isSome := by
        by_contra missing
        obtain ⟨other, others, rfl⟩ := List.exists_cons_of_ne_nil nonempty
        rw [insertAll, insert_of_missing (.inl (Option.not_isSome_iff_eq_none.mp missing))]
          at taken
        cases taken
      have keyedOne : Keyed key (item :: sorted) := by
        intro one member
        rcases List.mem_cons.mp member with rfl | member
        · exact hasKey
        · exact keyed one member
      obtain ⟨next, inserted, perm, nextOrdered⟩ := insert_of_keyed keyedOne ordered
      rw [insertAll, inserted] at taken
      have later := ih (fun empty => by simp [empty] at perm)
        (fun one member => keyedOne one (perm.mem_iff.mp member)) nextOrdered taken
      intro one member
      rcases List.mem_cons.mp member with rfl | member
      · exact hasKey
      · exact later one member

/-- The sort goes through exactly when it has nothing to compare or every key is there. -/
theorem sort_isOk_iff {items : List α} :
    (∃ result, sort key raised items = .ok result) ↔ items.length ≤ 1 ∨ Keyed key items := by
  constructor
  · rintro ⟨result, taken⟩
    match items with
    | [] | [_] => simp
    | first :: second :: rest =>
        right
        change insertAll key raised [first] (second :: rest) = .ok result at taken
        have hasKey : (key first).isSome := by
          by_contra missing
          rw [insertAll,
            insert_of_missing (.inr (Option.not_isSome_iff_eq_none.mp missing))] at taken
          cases taken
        have keyed : Keyed key [first] := by simpa [Keyed] using hasKey
        have later := keyed_of_insertAll (List.cons_ne_nil _ _) keyed
          (List.pairwise_singleton _ _) taken
        intro one member
        rcases List.mem_cons.mp member with rfl | member
        · exact hasKey
        · exact later one member
  · rintro (short | keyed)
    · match items, short with
      | [], _ => exact ⟨[], rfl⟩
      | [item], _ => exact ⟨[item], rfl⟩
    · obtain ⟨result, taken, _⟩ := sort_of_keyed raised keyed
      exact ⟨result, taken⟩

theorem perm_of_sort {items result : List α} (taken : sort key raised items = .ok result) :
    result.Perm items := by
  rcases sort_isOk_iff.mp ⟨result, taken⟩ with short | keyed
  · match items, short with
    | [], _ => cases taken; exact List.Perm.refl _
    | [item], _ => cases taken; exact List.Perm.refl _
  · obtain ⟨other, same, perm, _⟩ := sort_of_keyed raised keyed
    obtain rfl := Except.ok.inj (same.symm.trans taken)
    exact perm

end KeyedSort
