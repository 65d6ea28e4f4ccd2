import Mathlib

/-!
# Operations on named buffers, and calls

A straight-line program allocates, writes and frees named buffers.  A call runs a part of it on the
buffers that are handed over, and hands some back.  When a signature names what the part needs and
what is needed of it, a call of the part leaves what the part leaves in place.
-/

namespace Calls

variable {ν V : Type*}

/-- What the buffers that are allocated hold. -/
abbrev Store (ν V : Type*) := ν → Option V

namespace Store

variable [DecidableEq ν]

/-- The buffers that are in a list. -/
def only (names : List ν) (store : Store ν V) : Store ν V :=
  fun name => if name ∈ names then store name else none

theorem only_of_mem {names : List ν} {store : Store ν V} {name : ν} (member : name ∈ names) :
    store.only names name = store name :=
  if_pos member

theorem only_congr {names : List ν} {store other : Store ν V}
    (same : ∀ name ∈ names, store name = other name) : store.only names = other.only names := by
  funext name
  rw [only, only]
  split
  · rename_i member
    exact same name member
  · rfl

/-- What one store holds, the other holds too. -/
def Sub (store other : Store ν V) : Prop :=
  ∀ name value, store name = some value → other name = some value

omit [DecidableEq ν] in
theorem Sub.isSome {store other : Store ν V} (sub : store.Sub other) {name : ν}
    (present : (store name).isSome) : (other name).isSome := by
  obtain ⟨value, isValue⟩ := Option.isSome_iff_exists.mp present
  exact Option.isSome_of_eq_some (sub name value isValue)

omit [DecidableEq ν] in
theorem Sub.eq_none {store other : Store ν V} (sub : store.Sub other) {name : ν}
    (absent : other name = none) : store name = none := by
  cases isValue : store name with
  | none => rfl
  | some value => cases (sub name value isValue).symm.trans absent

end Store

/-- An operation: it reads some buffers, writes some, and then frees some. -/
structure Op (ν V : Type*) where
  /-- What it reads. -/
  uses : List ν
  /-- What it writes. -/
  defs : List ν
  /-- What it frees in the end. -/
  frees : List ν
  /-- What is written, from what is read. -/
  compute : Store ν V → ν → V

variable [DecidableEq ν]

namespace Op

def write (op : Op ν V) (store : Store ν V) : Store ν V :=
  fun name => if name ∈ op.defs then some (op.compute (store.only op.uses) name) else store name

def free (op : Op ν V) (store : Store ν V) : Store ν V :=
  fun name => if name ∈ op.frees then none else store name

/-- Run an operation; what it reads and what it frees must be allocated. -/
def exec (op : Op ν V) (store : Store ν V) : Option (Store ν V) :=
  if ∀ name ∈ op.uses, (store name).isSome then
    if ∀ name ∈ op.frees, (op.write store name).isSome then
      some (op.free (op.write store))
    else
      none
  else
    none

variable {op : Op ν V} {store next : Store ν V} {name : ν}

theorem write_of_notMem (absent : name ∉ op.defs) : op.write store name = store name :=
  if_neg absent

theorem free_of_mem (member : name ∈ op.frees) : op.free store name = none :=
  if_pos member

theorem free_of_notMem (absent : name ∉ op.frees) : op.free store name = store name :=
  if_neg absent

theorem exec_eq_some :
    op.exec store = some next ↔ (∀ name ∈ op.uses, (store name).isSome) ∧
      (∀ name ∈ op.frees, (op.write store name).isSome) ∧ op.free (op.write store) = next := by
  rw [exec]
  split
  · rename_i used
    split
    · rename_i freed
      exact ⟨fun same => ⟨used, freed, Option.some.inj same⟩, fun run => congrArg some run.2.2⟩
    · rename_i freed
      exact ⟨nofun, fun run => absurd run.2.1 freed⟩
  · rename_i used
    exact ⟨nofun, fun run => absurd run.1 used⟩

theorem exec_frame (ran : op.exec store = some next) (unwritten : name ∉ op.defs)
    (kept : name ∉ op.frees) : next name = store name := by
  obtain ⟨_, _, rfl⟩ := exec_eq_some.mp ran
  rw [free_of_notMem kept, write_of_notMem unwritten]

theorem exec_eq_none (ran : op.exec store = some next) (unwritten : name ∉ op.defs)
    (absent : store name = none) : next name = none := by
  obtain ⟨_, _, rfl⟩ := exec_eq_some.mp ran
  rw [free]
  split
  · rfl
  · rw [write_of_notMem unwritten, absent]

theorem exec_isSome (ran : op.exec store = some next) (kept : name ∉ op.frees)
    (present : (store name).isSome) : (next name).isSome := by
  obtain ⟨_, _, rfl⟩ := exec_eq_some.mp ran
  rw [free_of_notMem kept, write]
  split
  · rfl
  · exact present

end Op

/-- Run operations one after the other. -/
def execAll : List (Op ν V) → Store ν V → Option (Store ν V)
  | [], store => some store
  | op :: ops, store => (op.exec store).bind (execAll ops)

variable {op : Op ν V} {ops : List (Op ν V)} {store next : Store ν V} {name : ν}

theorem execAll_cons_eq_some :
    execAll (op :: ops) store = some next ↔
      ∃ middle, op.exec store = some middle ∧ execAll ops middle = some next :=
  Option.bind_eq_some_iff

theorem execAll_append_eq_some {left right : List (Op ν V)} :
    execAll (left ++ right) store = some next ↔
      ∃ middle, execAll left store = some middle ∧ execAll right middle = some next := by
  induction left generalizing store with
  | nil => simp [execAll]
  | cons op left ih =>
      simp only [List.cons_append, execAll_cons_eq_some, ih]
      constructor
      · rintro ⟨first, ran, middle, rest, last⟩
        exact ⟨middle, ⟨first, ran, rest⟩, last⟩
      · rintro ⟨middle, ⟨first, ran, rest⟩, last⟩
        exact ⟨first, ran, middle, rest, last⟩

/-! ## What a run leaves -/

theorem execAll_frame (ran : execAll ops store = some next)
    (unwritten : ∀ op ∈ ops, name ∉ op.defs) (kept : ∀ op ∈ ops, name ∉ op.frees) :
    next name = store name := by
  induction ops generalizing store with
  | nil =>
      cases ran
      rfl
  | cons op ops ih =>
      obtain ⟨middle, first, rest⟩ := execAll_cons_eq_some.mp ran
      rw [List.forall_mem_cons] at unwritten kept
      rw [ih rest unwritten.2 kept.2, Op.exec_frame first unwritten.1 kept.1]

theorem execAll_isSome (ran : execAll ops store = some next) (kept : ∀ op ∈ ops, name ∉ op.frees)
    (present : (store name).isSome) : (next name).isSome := by
  induction ops generalizing store with
  | nil =>
      cases ran
      exact present
  | cons op ops ih =>
      obtain ⟨middle, first, rest⟩ := execAll_cons_eq_some.mp ran
      rw [List.forall_mem_cons] at kept
      exact ih rest kept.2 (Op.exec_isSome first kept.1 present)

/-- No operation allocates the buffer: those that write it read it as well. -/
def Updates (ops : List (Op ν V)) (name : ν) : Prop :=
  ∀ op ∈ ops, name ∈ op.defs → name ∈ op.uses

omit [DecidableEq ν] in
theorem updates_cons :
    Updates (op :: ops) name ↔ (name ∈ op.defs → name ∈ op.uses) ∧ Updates ops name :=
  List.forall_mem_cons

theorem execAll_eq_none (updates : Updates ops name) (ran : execAll ops store = some next)
    (absent : store name = none) : next name = none := by
  induction ops generalizing store with
  | nil =>
      cases ran
      exact absent
  | cons op ops ih =>
      obtain ⟨middle, first, rest⟩ := execAll_cons_eq_some.mp ran
      rw [updates_cons] at updates
      have unwritten : name ∉ op.defs := by
        intro written
        have present := (Op.exec_eq_some.mp first).1 name (updates.1 written)
        rw [absent] at present
        cases present
      exact ih updates.2 rest (Op.exec_eq_none first unwritten absent)

theorem execAll_isSome_before (ran : execAll ops store = some next) (present : (next name).isSome)
    (unwritten : ∀ op ∈ ops, name ∉ op.defs) : (store name).isSome := by
  by_contra absent
  have updates : Updates ops name := fun op member written => absurd written (unwritten op member)
  rw [execAll_eq_none updates ran (Option.not_isSome_iff_eq_none.mp absent)] at present
  cases present

/-- What is read or freed and not allocated in the run was there before. -/
theorem execAll_needs (updates : Updates ops name) (ran : execAll ops store = some next)
    (needed : ∃ op ∈ ops, name ∈ op.uses ∨ name ∈ op.frees) : (store name).isSome := by
  induction ops generalizing store with
  | nil =>
      obtain ⟨_, never, _⟩ := needed
      cases never
  | cons op ops ih =>
      obtain ⟨middle, first, rest⟩ := execAll_cons_eq_some.mp ran
      rw [updates_cons] at updates
      by_contra absent
      have absent := Option.not_isSome_iff_eq_none.mp absent
      obtain ⟨used, freed, _⟩ := Op.exec_eq_some.mp first
      have unused : name ∉ op.uses := by
        intro member
        have present := used name member
        rw [absent] at present
        cases present
      have unwritten : name ∉ op.defs := fun written => unused (updates.1 written)
      have later : ∃ other ∈ ops, name ∈ other.uses ∨ name ∈ other.frees := by
        obtain ⟨other, member, needs⟩ := needed
        rcases List.mem_cons.mp member with rfl | member
        · rcases needs with isUse | isFree
          · exact absurd isUse unused
          · have present := freed name isFree
            rw [Op.write_of_notMem unwritten, absent] at present
            cases present
        · exact ⟨other, member, needs⟩
      have present := ih updates.2 rest later
      rw [Op.exec_eq_none first unwritten absent] at present
      cases present

theorem execAll_freed (updates : Updates ops name) (ran : execAll ops store = some next)
    (freed : ∃ op ∈ ops, name ∈ op.frees) : next name = none := by
  induction ops generalizing store with
  | nil =>
      obtain ⟨_, never, _⟩ := freed
      cases never
  | cons op ops ih =>
      obtain ⟨middle, first, rest⟩ := execAll_cons_eq_some.mp ran
      rw [updates_cons] at updates
      by_cases now : name ∈ op.frees
      · obtain ⟨_, _, rfl⟩ := Op.exec_eq_some.mp first
        exact execAll_eq_none updates.2 rest (Op.free_of_mem now)
      · refine ih updates.2 rest ?_
        obtain ⟨other, member, isFree⟩ := freed
        rcases List.mem_cons.mp member with rfl | member
        · exact absurd isFree now
        · exact ⟨other, member, isFree⟩

/-! ## What a run needs -/

/-- The operations read and free only what is known, or what was written before. -/
def Closed : Set ν → List (Op ν V) → Prop
  | _, [] => True
  | known, op :: ops =>
      (∀ name ∈ op.uses, name ∈ known) ∧
      (∀ name ∈ op.frees, name ∈ known ∨ name ∈ op.defs) ∧
      Closed (known ∪ {name | name ∈ op.defs}) ops

omit [DecidableEq ν] in
/-- A buffer that is written but not allocated is known. -/
theorem Closed.mem_of_updates {known : Set ν} (closed : Closed known ops)
    (updates : Updates ops name) (written : ∃ op ∈ ops, name ∈ op.defs) : name ∈ known := by
  induction ops generalizing known with
  | nil =>
      obtain ⟨_, never, _⟩ := written
      cases never
  | cons op ops ih =>
      obtain ⟨uses, _, rest⟩ := closed
      rw [updates_cons] at updates
      by_cases now : name ∈ op.defs
      · exact uses name (updates.1 now)
      · have later : ∃ other ∈ ops, name ∈ other.defs := by
          obtain ⟨other, member, isDef⟩ := written
          rcases List.mem_cons.mp member with rfl | member
          · exact absurd isDef now
          · exact ⟨other, member, isDef⟩
        exact (ih rest updates.2 later).resolve_right now

theorem Op.exec_local {known : Set ν} {other : Store ν V} (uses : ∀ name ∈ op.uses, name ∈ known)
    (frees : ∀ name ∈ op.frees, name ∈ known ∨ name ∈ op.defs) (same : Set.EqOn store other known)
    (ran : op.exec store = some next) :
    ∃ last, op.exec other = some last ∧ Set.EqOn next last (known ∪ {name | name ∈ op.defs}) := by
  obtain ⟨used, freed, rfl⟩ := Op.exec_eq_some.mp ran
  have read : store.only op.uses = other.only op.uses :=
    Store.only_congr fun name member => same (uses name member)
  have written : Set.EqOn (op.write store) (op.write other) (known ∪ {name | name ∈ op.defs}) := by
    intro name member
    rw [Op.write, Op.write, read]
    split
    · rfl
    · rename_i unwritten
      exact same (member.resolve_right unwritten)
  refine ⟨op.free (op.write other), Op.exec_eq_some.mpr ⟨?_, ?_, rfl⟩, ?_⟩
  · intro name member
    rw [← same (uses name member)]
    exact used name member
  · intro name member
    rw [← written (frees name member)]
    exact freed name member
  · intro name member
    rw [Op.free, Op.free, written member]

/-- Operations do the same in two stores that agree on what they need. -/
theorem execAll_local {known : Set ν} {other : Store ν V} (closed : Closed known ops)
    (same : Set.EqOn store other known) (ran : execAll ops store = some next) :
    ∃ last, execAll ops other = some last ∧
      Set.EqOn next last (known ∪ {name | ∃ op ∈ ops, name ∈ op.defs}) := by
  induction ops generalizing known store other with
  | nil =>
      cases ran
      refine ⟨other, rfl, ?_⟩
      rintro name (member | ⟨_, never, _⟩)
      · exact same member
      · cases never
  | cons op ops ih =>
      obtain ⟨middle, first, rest⟩ := execAll_cons_eq_some.mp ran
      obtain ⟨uses, frees, closed⟩ := closed
      obtain ⟨between, firstToo, same⟩ := Op.exec_local uses frees same first
      obtain ⟨last, restToo, same⟩ := ih closed same rest
      refine ⟨last, execAll_cons_eq_some.mpr ⟨between, firstToo, restToo⟩, ?_⟩
      rintro name (member | ⟨other, member, isDef⟩)
      · exact same (.inl (.inl member))
      · rcases List.mem_cons.mp member with rfl | member
        · exact same (.inl (.inr isDef))
        · exact same (.inr ⟨other, member, isDef⟩)

/-! ## Calls -/

/-- What a call hands over and back, and what the caller gives up. -/
structure Signature (ν : Type*) where
  /-- What the caller hands over. -/
  inputs : List ν
  /-- What it gets back. -/
  outputs : List ν
  /-- The inputs that the caller has no more afterwards. -/
  deallocated : List ν

/-- What a caller holds when it took the outputs. -/
def Signature.take (signature : Signature ν) (inside store : Store ν V) : Store ν V :=
  fun name =>
    if name ∈ signature.outputs then inside name
    else if name ∈ signature.deallocated then none
    else store name

/-- Run operations on the inputs only, and take the outputs. -/
def call (signature : Signature ν) (ops : List (Op ν V)) (store : Store ν V) :
    Option (Store ν V) :=
  if ∀ name ∈ signature.inputs, (store name).isSome then
    (execAll ops (store.only signature.inputs)).bind fun inside =>
      if ∀ name ∈ signature.outputs, (inside name).isSome then
        some (signature.take inside store)
      else
        none
  else
    none

/-- **The rule for calls.**  Next to a run of all operations in one store, a caller that holds a
part of it can call the operations: it hands over what they need, and keeps what does not change. -/
theorem call_of_execAll {signature : Signature ν} {caller : Store ν V} (sub : caller.Sub store)
    (ran : execAll ops store = some next) (closed : Closed {name | name ∈ signature.inputs} ops)
    (handed : ∀ name ∈ signature.inputs, caller name = store name)
    (present : ∀ name ∈ signature.inputs, (store name).isSome)
    (results : ∀ name ∈ signature.outputs, (next name).isSome ∧
      (name ∈ signature.inputs ∨ ∃ op ∈ ops, name ∈ op.defs))
    (kept : ∀ name, (caller name).isSome → name ∉ signature.outputs →
      name ∉ signature.deallocated → next name = store name) :
    ∃ last, call signature ops caller = some last ∧ last.Sub next ∧
      (∀ name ∈ signature.outputs, last name = next name) ∧
      ∀ name ∉ signature.outputs, name ∉ signature.deallocated → last name = caller name := by
  have same : Set.EqOn store (caller.only signature.inputs) {name | name ∈ signature.inputs} := by
    intro name member
    rw [Store.only_of_mem member, handed name member]
  obtain ⟨inside, ranInside, sameInside⟩ := execAll_local closed same ran
  have outputs : ∀ name ∈ signature.outputs, inside name = next name :=
    fun name member => (sameInside (results name member).2).symm
  have returned : ∀ name ∈ signature.outputs, (inside name).isSome := by
    intro name member
    rw [outputs name member]
    exact (results name member).1
  have arguments : ∀ name ∈ signature.inputs, (caller name).isSome := by
    intro name member
    rw [handed name member]
    exact present name member
  refine ⟨signature.take inside caller, ?_, ?_, ?_, ?_⟩
  · rw [call, if_pos arguments, ranInside, Option.bind_some, if_pos returned]
  · intro name value isValue
    rw [Signature.take] at isValue
    split at isValue
    · rename_i member
      rwa [← outputs name member]
    · rename_i notOutput
      split at isValue
      · cases isValue
      · rename_i notFreed
        rw [kept name (Option.isSome_of_eq_some isValue) notOutput notFreed]
        exact sub name value isValue
  · intro name member
    rw [Signature.take, if_pos member, outputs name member]
  · intro name notOutput notFreed
    rw [Signature.take, if_neg notOutput, if_neg notFreed]

/-- One call after the other. -/
def callAll : List (Signature ν × List (Op ν V)) → Store ν V → Option (Store ν V)
  | [], store => some store
  | (signature, ops) :: calls, store => (call signature ops store).bind (callAll calls)

theorem callAll_cons_eq_some {signature : Signature ν}
    {calls : List (Signature ν × List (Op ν V))} :
    callAll ((signature, ops) :: calls) store = some next ↔
      ∃ middle, call signature ops store = some middle ∧ callAll calls middle = some next :=
  Option.bind_eq_some_iff

end Calls
