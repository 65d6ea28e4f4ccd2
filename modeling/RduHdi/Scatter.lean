import Mathlib

/-!
# Copies into disjoint stretches

A list of copies, each of a stretch of some source into a memory.  When no two of them write to a
common cell, the memory has afterwards what each copy took from its source and is otherwise as it
was, in whatever order the copies are done.
-/

/-- Cells that follow each other. -/
structure Stretch where
  /-- The first cell. -/
  start : ℕ
  /-- How many cells there are. -/
  len : ℕ
  deriving DecidableEq

namespace Stretch

variable {stretch other : Stretch} {cell : ℕ}

def Covers (stretch : Stretch) (cell : ℕ) : Prop :=
  stretch.start ≤ cell ∧ cell < stretch.start + stretch.len

instance (stretch : Stretch) : DecidablePred stretch.Covers := fun cell => by
  unfold Covers
  infer_instance

/-- No cell is in both. -/
def Apart (stretch other : Stretch) : Prop :=
  stretch.start + stretch.len ≤ other.start ∨ other.start + other.len ≤ stretch.start

/-- All cells of a stretch are in another. -/
structure Within (stretch other : Stretch) : Prop where
  /-- It does not begin before. -/
  start_le : other.start ≤ stretch.start
  /-- It does not end after. -/
  stop_le : stretch.start + stretch.len ≤ other.start + other.len

theorem Apart.symm (apart : stretch.Apart other) : other.Apart stretch := Or.symm apart

theorem Within.covers (within : stretch.Within other) (covers : stretch.Covers cell) :
    other.Covers cell :=
  ⟨within.start_le.trans covers.1, covers.2.trans_le within.stop_le⟩

theorem Apart.mono {first second : Stretch} (apart : first.Apart second)
    (inFirst : stretch.Within first) (inSecond : other.Within second) : stretch.Apart other := by
  obtain ⟨first_start, first_stop⟩ := inFirst
  obtain ⟨second_start, second_stop⟩ := inSecond
  rcases apart with before | after
  · exact .inl (by omega)
  · exact .inr (by omega)

end Stretch

namespace Scatter

variable {σ β : Type*}

/-- A copy of as many cells of a source, from `start` on, as its destination has. -/
structure Copy (σ : Type*) where
  /-- What is copied from. -/
  source : σ
  /-- The first cell there. -/
  start : ℕ
  /-- Where the cells go. -/
  dest : Stretch

/-- What the memory has when a copy is done. -/
def Copy.run (sources : σ → ℕ → β) (memory : ℕ → β) (copy : Copy σ) : ℕ → β := fun cell =>
  if copy.dest.Covers cell then sources copy.source (copy.start + (cell - copy.dest.start))
  else memory cell

/-- What the memory has when all copies are done, one after another. -/
def run (sources : σ → ℕ → β) (copies : List (Copy σ)) (memory : ℕ → β) : ℕ → β :=
  copies.foldl (Copy.run sources) memory

/-- No two copies write to a common cell. -/
def Disjoint (copies : List (Copy σ)) : Prop :=
  copies.Pairwise fun copy other => copy.dest.Apart other.dest

variable {sources : σ → ℕ → β} {copies others : List (Copy σ)} {copy : Copy σ} {memory : ℕ → β}
  {cell : ℕ}

theorem Disjoint.perm (disjoint : Disjoint copies) (same : copies.Perm others) :
    Disjoint others :=
  (same.pairwise_iff Stretch.Apart.symm).mp disjoint

section Jobs

variable {κ ι : Type*} {related : κ → ι → Prop} {keys : List κ} {jobs : List ι}

end Jobs

end Scatter
