import Mathlib

/-!
# Readers and sources of two group sizes

Two groups of ranks of which one size divides the other.  Each reader has its sources: a fair share
of them when there are more sources than readers, and one, shared by a fair share of the readers,
otherwise.  This file has what each source receives when every reader addresses its own sources.
-/

/-- Which sources each reader reads from. -/
structure RankLayout (readers sources : ℕ) where
  /-- The sources that a reader reads from. -/
  targets : ℕ → List ℕ
  /-- It reads from none twice. -/
  nodup : ∀ rank, (targets rank).Nodup
  /-- It reads from sources that there are. -/
  inRange : ∀ rank < readers, ∀ target ∈ targets rank, target < sources
  /-- All readers read from as many sources. -/
  fanOut : ∀ rank < readers,
    (targets rank).length = if readers < sources then sources / readers else 1
  /-- All sources have as many readers. -/
  fanIn : ∀ target < sources,
    ((List.range readers).filter fun rank => target ∈ targets rank).length =
      if readers < sources then 1 else readers / sources

namespace RankLayout

/-! ## The contiguous layout -/

/-- Neighbouring readers read from neighbouring sources. -/
def contiguousTargets (readers sources rank : ℕ) : List ℕ :=
  if readers < sources then
    (List.range (sources / readers)).map fun index => rank * (sources / readers) + index
  else
    [rank / (readers / sources)]

theorem mem_block_iff {width rank target : ℕ} (positive : 0 < width) :
    (target ∈ (List.range width).map fun index => rank * width + index) ↔
      target / width = rank := by
  rw [List.mem_map]
  constructor
  · rintro ⟨index, inside, rfl⟩
    rw [List.mem_range] at inside
    rw [Nat.mul_comm, Nat.mul_add_div positive, Nat.div_eq_of_lt inside, Nat.add_zero]
  · rintro rfl
    refine ⟨target % width, List.mem_range.mpr (Nat.mod_lt target positive), ?_⟩
    rw [Nat.mul_comm]
    exact Nat.div_add_mod target width

theorem nodup_block (width rank : ℕ) :
    ((List.range width).map fun index => rank * width + index).Nodup :=
  List.nodup_range.map fun _ _ same => Nat.add_left_cancel same

theorem length_filter_div {count width quotient : ℕ} (positive : 0 < width)
    (inside : quotient < count) :
    ((List.range (count * width)).filter fun rank => rank / width = quotient).length = width := by
  have same : ((List.range (count * width)).filter fun rank => rank / width = quotient).Perm
      ((List.range width).map fun index => quotient * width + index) := by
    apply (List.perm_ext_iff_of_nodup (List.nodup_range.filter _) (nodup_block _ _)).mpr
    intro rank
    rw [mem_block_iff positive, List.mem_filter, List.mem_range, decide_eq_true_eq]
    apply and_iff_right_of_imp
    intro here
    rw [← Nat.div_lt_iff_lt_mul positive, here]
    exact inside
  rw [same.length_eq, List.length_map, List.length_range]

theorem dvd_of_lt {readers sources : ℕ} (readers_pos : 0 < readers)
    (divides : readers ∣ sources ∨ sources ∣ readers) (fewer : readers < sources) :
    readers ∣ sources ∧ 0 < sources / readers := by
  refine ⟨divides.resolve_right fun more => ?_, Nat.div_pos (Nat.le_of_lt fewer) readers_pos⟩
  have small := Nat.le_of_dvd readers_pos more
  omega

theorem dvd_of_not_lt {readers sources : ℕ} (sources_pos : 0 < sources)
    (divides : readers ∣ sources ∨ sources ∣ readers) (more : ¬ readers < sources) :
    sources ∣ readers ∧ 0 < readers / sources := by
  refine ⟨?_, Nat.div_pos (Nat.not_lt.mp more) sources_pos⟩
  rcases divides with fewer | share
  · have same : readers = sources :=
      Nat.le_antisymm (Nat.le_of_dvd sources_pos fewer) (Nat.not_lt.mp more)
    exact same ▸ Nat.dvd_refl readers
  · exact share

/-- The contiguous layout of two groups of which one size divides the other. -/
def contiguous {readers sources : ℕ} (readers_pos : 0 < readers) (sources_pos : 0 < sources)
    (divides : readers ∣ sources ∨ sources ∣ readers) : RankLayout readers sources where
  targets := contiguousTargets readers sources
  nodup rank := by
    rw [contiguousTargets]
    split
    · exact nodup_block _ _
    · exact List.nodup_singleton _
  inRange rank inside target member := by
    rw [contiguousTargets] at member
    split at member
    · rename_i fewer
      obtain ⟨share, positive⟩ := dvd_of_lt readers_pos divides fewer
      rw [mem_block_iff positive] at member
      rw [← Nat.mul_div_cancel' share, ← Nat.div_lt_iff_lt_mul positive, member]
      exact inside
    · rename_i more
      obtain ⟨share, positive⟩ := dvd_of_not_lt sources_pos divides more
      rw [List.mem_singleton] at member
      rw [member, Nat.div_lt_iff_lt_mul positive, Nat.mul_div_cancel' share]
      exact inside
  fanOut rank _ := by
    rw [contiguousTargets]
    split
    · rw [List.length_map, List.length_range]
    · rfl
  fanIn target inside := by
    by_cases fewer : readers < sources
    · obtain ⟨share, positive⟩ := dvd_of_lt readers_pos divides fewer
      have only : target / (sources / readers) < readers := by
        rw [Nat.div_lt_iff_lt_mul positive, Nat.mul_div_cancel' share]
        exact inside
      have counted : ((List.range (readers * 1)).filter
          fun rank => rank / 1 = target / (sources / readers)).length = 1 :=
        length_filter_div Nat.one_pos only
      simp only [contiguousTargets, if_pos fewer, mem_block_iff positive]
      simpa [eq_comm] using counted
    · obtain ⟨share, positive⟩ := dvd_of_not_lt sources_pos divides fewer
      have counted := length_filter_div positive inside
      rw [Nat.mul_div_cancel' share] at counted
      simp only [contiguousTargets, if_neg fewer, List.mem_singleton, @eq_comm _ target]
      exact counted

theorem mem_contiguousTargets_iff {readers sources share rank target : ℕ}
    (shares : share * sources = readers) (sources_pos : 0 < sources) (share_pos : 0 < share) :
    target ∈ contiguousTargets readers sources rank ↔ rank / share = target := by
  have more : ¬ readers < sources := by
    rw [← shares, Nat.not_lt]
    exact Nat.le_mul_of_pos_left sources share_pos
  rw [contiguousTargets, if_neg more, List.mem_singleton, ← shares,
    Nat.mul_div_cancel _ sources_pos]
  exact eq_comm

theorem nodup_contiguousTargets (readers sources rank : ℕ) :
    (contiguousTargets readers sources rank).Nodup := by
  rw [contiguousTargets]
  split
  · exact nodup_block _ _
  · exact List.nodup_singleton _

theorem length_contiguousTargets {readers sources share rank : ℕ}
    (shares : share * readers = sources) (readers_pos : 0 < readers) (share_pos : 0 < share) :
    (contiguousTargets readers sources rank).length = share := by
  rw [contiguousTargets]
  split
  · rw [List.length_map, List.length_range, ← shares, Nat.mul_div_cancel _ readers_pos]
  · rename_i fewer
    rw [← shares, Nat.not_lt] at fewer
    have one : share ≤ 1 := Nat.le_of_mul_le_mul_right (by rwa [Nat.one_mul]) readers_pos
    rw [List.length_singleton]
    omega

/-- The neighbours that share a source have one remainder each. -/
theorem bijOn_mod {share sources target : ℕ} (share_pos : 0 < share) (inside : target < sources) :
    Set.BijOn (· % share) {rank | rank < share * sources ∧ rank / share = target}
      (Set.Iio share) where
  left := fun rank _ => Nat.mod_lt rank share_pos
  right.left := by
    rintro left ⟨_, isLeft⟩ right ⟨_, isRight⟩ same
    have remainder : left % share = right % share := same
    rw [← Nat.div_add_mod left share, ← Nat.div_add_mod right share, isLeft, isRight, remainder]
  right.right := by
    intro remainder isRemainder
    rw [Set.mem_Iio] at isRemainder
    refine ⟨target * share + remainder, ⟨?_, ?_⟩, ?_⟩
    · rw [Nat.mul_comm share]
      calc target * share + remainder
          < (target + 1) * share := by rw [Nat.succ_mul]; omega
        _ ≤ sources * share := Nat.mul_le_mul_right share inside
    · rw [Nat.mul_comm, Nat.mul_add_div share_pos, Nat.div_eq_of_lt isRemainder, Nat.add_zero]
    · change (target * share + remainder) % share = remainder
      rw [Nat.mul_comm, Nat.mul_add_mod, Nat.mod_eq_of_lt isRemainder]

/-! ## What arrives -/

section Received

variable {κ μ : Type*} [DecidableEq κ]

/-- The messages for an address, in order. -/
def received (address : κ) (sent : List (κ × μ)) : List μ :=
  sent.filterMap fun message => if message.1 = address then some message.2 else none

/-- Of messages to different targets, a target receives its own. -/
theorem received_map {address : ℕ → κ} (injective : Function.Injective address)
    {targets : List ℕ} (nodup : targets.Nodup) (message : ℕ → μ) (target : ℕ) :
    received (address target) (targets.map fun other => (address other, message other)) =
      if target ∈ targets then [message target] else [] := by
  induction targets with
  | nil => rfl
  | cons first rest ih =>
      obtain ⟨fresh, restNodup⟩ := List.nodup_cons.mp nodup
      have tail := ih restNodup
      rw [received] at tail ⊢
      rw [List.map_cons, List.filterMap_cons]
      by_cases here : first = target
      · subst here
        simp only [if_true, tail, if_neg fresh, List.mem_cons_self]
      · have elsewhere : address first ≠ address target := fun same => here (injective same)
        simp only [if_neg elsewhere, tail, List.mem_cons, Ne.symm here, false_or]

/-- When every reader sends one message to each of its targets, a target receives one message from
each of its readers. -/
theorem received_flatMap {readers sources : ℕ} (layout : RankLayout readers sources)
    {address : ℕ → κ} (injective : Function.Injective address) {sent : ℕ → List (κ × μ)}
    {message : ℕ → ℕ → μ}
    (sends : ∀ rank < readers,
      sent rank = (layout.targets rank).map fun target => (address target, message rank target))
    (target : ℕ) :
    received (address target) ((List.range readers).flatMap sent) =
      ((List.range readers).filter fun rank => target ∈ layout.targets rank).map
        fun rank => message rank target := by
  have inside : ∀ rank ∈ List.range readers, rank < readers := fun _ => List.mem_range.mp
  generalize List.range readers = ranks at inside
  induction ranks with
  | nil => rfl
  | cons rank ranks ih =>
      have first : received (address target) (sent rank) =
          if target ∈ layout.targets rank then [message rank target] else [] := by
        rw [sends rank (inside rank List.mem_cons_self)]
        exact received_map injective (layout.nodup rank) (message rank) target
      have rest := ih fun other member => inside other (List.mem_cons_of_mem rank member)
      rw [received] at first rest ⊢
      rw [List.flatMap_cons, List.filterMap_append, first, rest]
      by_cases reads : target ∈ layout.targets rank
      · simp [reads]
      · simp [reads]

end Received

end RankLayout
