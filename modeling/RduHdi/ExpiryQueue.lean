import Mathlib

/-!
# Queues of deadlines

Keys with deadlines, looked at from the front: an entry is released when its deadline has passed,
and the first one that has not ends the look.  When the deadlines are sorted, this releases
exactly the entries whose deadline has passed.
-/

namespace ExpiryQueue

variable {κ τ : Type*} [LinearOrder τ]

/-- The deadlines do not decrease. -/
def Sorted (entries : List (Σ _ : κ, τ)) : Prop :=
  entries.Pairwise fun first second => first.2 ≤ second.2

/-- The entries released at a time. -/
def released (now : τ) (entries : List (Σ _ : κ, τ)) : List (Σ _ : κ, τ) :=
  entries.takeWhile fun entry => entry.2 ≤ now

/-- The entries kept at a time. -/
def kept (now : τ) (entries : List (Σ _ : κ, τ)) : List (Σ _ : κ, τ) :=
  entries.dropWhile fun entry => entry.2 ≤ now

theorem released_append_kept (now : τ) (entries : List (Σ _ : κ, τ)) :
    released now entries ++ kept now entries = entries :=
  List.takeWhile_append_dropWhile

theorem Sorted.sublist {fewer entries : List (Σ _ : κ, τ)} (sorted : Sorted entries)
    (inside : fewer.Sublist entries) : Sorted fewer :=
  List.Pairwise.sublist inside sorted

theorem Sorted.snoc {entries : List (Σ _ : κ, τ)} {entry : Σ _ : κ, τ} (sorted : Sorted entries)
    (latest : ∀ other ∈ entries, other.2 ≤ entry.2) : Sorted (entries ++ [entry]) := by
  refine List.pairwise_append.mpr ⟨sorted, List.pairwise_singleton _ _, ?_⟩
  intro other member last here
  rw [List.mem_singleton] at here
  subst here
  exact latest other member

theorem kept_of_lt {now : τ} {entry : Σ _ : κ, τ} {entries : List (Σ _ : κ, τ)}
    (sorted : Sorted (entry :: entries)) (later : now < entry.2) :
    ∀ other ∈ entry :: entries, now < other.2 := by
  intro other member
  rcases List.mem_cons.mp member with rfl | behind
  · exact later
  · exact lt_of_lt_of_le later (List.rel_of_pairwise_cons sorted behind)

/-- **Exactness of the early exit.**  In a sorted queue the entries released are those whose
deadline has passed. -/
theorem released_eq_filter {now : τ} {entries : List (Σ _ : κ, τ)} (sorted : Sorted entries) :
    released now entries = entries.filter fun entry => entry.2 ≤ now := by
  induction entries with
  | nil => rfl
  | cons entry entries ih =>
      rcases lt_or_ge now entry.2 with later | passed
      · have none_passed : (entry :: entries).filter (fun entry => entry.2 ≤ now) = [] := by
          rw [List.filter_eq_nil_iff]
          intro other member
          simpa using kept_of_lt sorted later other member
        rw [none_passed]
        simp [released, not_le.mpr later]
      · have rest : Sorted entries := (List.pairwise_cons.mp sorted).2
        have tail : released now entries = entries.filter fun entry => entry.2 ≤ now := ih rest
        rw [released] at tail
        simp [released, passed, tail]

theorem mem_released_iff {now : τ} {entries : List (Σ _ : κ, τ)} (sorted : Sorted entries)
    {entry : Σ _ : κ, τ} : entry ∈ released now entries ↔ entry ∈ entries ∧ entry.2 ≤ now := by
  rw [released_eq_filter sorted, List.mem_filter, decide_eq_true_eq]

theorem le_of_mem_released {now : τ} {entries : List (Σ _ : κ, τ)} {entry : Σ _ : κ, τ}
    (member : entry ∈ released now entries) : entry.2 ≤ now := by
  simpa using List.mem_takeWhile_imp member

/-- In a sorted queue the entries kept are those whose deadline has not passed. -/
theorem kept_eq_filter {now : τ} {entries : List (Σ _ : κ, τ)} (sorted : Sorted entries) :
    kept now entries = entries.filter fun entry => now < entry.2 := by
  induction entries with
  | nil => rfl
  | cons entry entries ih =>
      rcases lt_or_ge now entry.2 with later | passed
      · have all_later : (entry :: entries).filter (fun entry => now < entry.2) =
            entry :: entries := by
          rw [List.filter_eq_self]
          intro other member
          simpa using kept_of_lt sorted later other member
        rw [all_later]
        simp [kept, not_le.mpr later]
      · have tail : kept now entries = entries.filter fun entry => now < entry.2 :=
          ih (List.pairwise_cons.mp sorted).2
        rw [kept] at tail
        simp [kept, passed, not_lt.mpr passed, tail]

theorem mem_kept_iff {now : τ} {entries : List (Σ _ : κ, τ)} (sorted : Sorted entries)
    {entry : Σ _ : κ, τ} : entry ∈ kept now entries ↔ entry ∈ entries ∧ now < entry.2 := by
  rw [kept_eq_filter sorted, List.mem_filter, decide_eq_true_eq]

end ExpiryQueue
