import RduHdi.Dict

/-!
# Ledgers of resources

What is acquired has to be released.  A ledger records both, in order, and a holder accounts for
it when everything that was acquired was released or is held.  A library is watched by a ledger
beside its own state.  The resources that a dictionary holds are counted entry by entry, so that
an entry that is written over is seen to be lost.
-/

/-- What was acquired so far and what was released. -/
structure Ledger (ρ : Type*) where
  /-- What was given out. -/
  acquired : List ρ
  /-- What was given back. -/
  released : List ρ

namespace Ledger

variable {ρ : Type*}

def empty : Ledger ρ where
  acquired := []
  released := []

def acquire (resource : ρ) (ledger : Ledger ρ) : Ledger ρ :=
  { ledger with acquired := ledger.acquired ++ [resource] }

def release (resource : ρ) (ledger : Ledger ρ) : Ledger ρ :=
  { ledger with released := ledger.released ++ [resource] }

variable [DecidableEq ρ]

/-- Every resource was released as often as it was acquired. -/
def Balanced (ledger : Ledger ρ) : Prop :=
  ∀ resource, ledger.released.count resource = ledger.acquired.count resource

/-- What was acquired was released or is held. -/
def Accounts (ledger : Ledger ρ) (held : List ρ) : Prop :=
  ∀ resource,
    ledger.acquired.count resource = ledger.released.count resource + held.count resource

theorem accounts_empty : (empty : Ledger ρ).Accounts [] :=
  fun _ => rfl

theorem count_cons_held (resource other : ρ) (held : List ρ) :
    (resource :: held).count other = [resource].count other + held.count other := by
  rw [← List.count_append, List.singleton_append]

theorem count_acquired_acquire (ledger : Ledger ρ) (resource other : ρ) :
    (ledger.acquire resource).acquired.count other =
      ledger.acquired.count other + [resource].count other :=
  List.count_append

theorem count_released_release (ledger : Ledger ρ) (resource other : ρ) :
    (ledger.release resource).released.count other =
      ledger.released.count other + [resource].count other :=
  List.count_append

namespace Accounts

variable {ledger : Ledger ρ} {held others : List ρ} {resource : ρ}

/-- Only how often something is held matters. -/
theorem of_count (accounts : ledger.Accounts held)
    (same : ∀ resource, others.count resource = held.count resource) : ledger.Accounts others := by
  intro resource
  rw [same]
  exact accounts resource

theorem perm (accounts : ledger.Accounts held) (same : others.Perm held) :
    ledger.Accounts others :=
  accounts.of_count same.count_eq

theorem acquire (accounts : ledger.Accounts held) :
    (ledger.acquire resource).Accounts (resource :: held) := by
  intro other
  have before := accounts other
  have same : (ledger.acquire resource).released = ledger.released := rfl
  rw [count_acquired_acquire, count_cons_held resource other held, same]
  omega

theorem release (accounts : ledger.Accounts (resource :: held)) :
    (ledger.release resource).Accounts held := by
  intro other
  have before := accounts other
  have same : (ledger.release resource).acquired = ledger.acquired := rfl
  rw [count_cons_held] at before
  rw [count_released_release, same]
  omega

/-- What is given back one after another is not held any more. -/
theorem foldl_release {ω δ : Type*} {ledgerOf : ω → Ledger ρ} {giveBack : ω → δ → ω} {name : δ → ρ}
    (gives : ∀ world item, ledgerOf (giveBack world item) = (ledgerOf world).release (name item))
    {items : List δ} {world : ω} (accounts : (ledgerOf world).Accounts (items.map name ++ held)) :
    (ledgerOf (items.foldl giveBack world)).Accounts held := by
  induction items generalizing world with
  | nil => exact accounts
  | cons item items ih =>
      apply ih
      rw [gives]
      exact accounts.release

/-- A holder that accounts for everything leaves a balanced ledger when it holds nothing. -/
theorem balanced_iff (accounts : ledger.Accounts held) : ledger.Balanced ↔ held = [] := by
  constructor
  · intro balanced
    apply List.eq_nil_iff_forall_not_mem.mpr
    intro resource isHeld
    have once := List.count_pos_iff.mpr isHeld
    have total := accounts resource
    have same := balanced resource
    omega
  · rintro rfl resource
    exact (accounts resource).symm

end Accounts

end Ledger

/-! ## Watching a library -/

/-- The state of a library, with the ledger of what it gave out. -/
structure Watched (ω ρ : Type*) where
  /-- What is watched. -/
  world : ω
  /-- What was given out and given back. -/
  ledger : Ledger ρ

namespace Watched

variable {ω ρ ε α : Type*}

/-- A call that gives out a resource, unless it fails. -/
def acquiring (resource : α → ρ) (ledger : Ledger ρ) :
    ω × Except ε α → Watched ω ρ × Except ε α
  | (world, .ok value) => (⟨world, ledger.acquire (resource value)⟩, .ok value)
  | (world, .error raised) => (⟨world, ledger⟩, .error raised)

/-- A call that gives nothing out. -/
def keeping (ledger : Ledger ρ) : ω × α → Watched ω ρ × α
  | (world, result) => (⟨world, ledger⟩, result)

variable {resource : α → ρ} {ledger : Ledger ρ} {call : ω × Except ε α} {next : Watched ω ρ}

theorem acquiring_ok {value : α} (ran : acquiring resource ledger call = (next, .ok value)) :
    next.ledger = ledger.acquire (resource value) := by
  obtain ⟨world, result⟩ := call
  cases result with
  | ok found =>
      cases ran
      rfl
  | error raised => cases ran

theorem acquiring_error {raised : ε}
    (ran : acquiring resource ledger call = (next, .error raised)) : next.ledger = ledger := by
  obtain ⟨world, result⟩ := call
  cases result with
  | ok found => cases ran
  | error other =>
      cases ran
      rfl

end Watched

/-! ## What a dictionary holds -/

namespace AList

variable {α γ δ ρ : Type*}

/-- What the values of a dictionary hold. -/
def holdings (holds : γ → List ρ) (dict : AList fun _ : α => γ) : List ρ :=
  dict.entries.flatMap fun entry => holds entry.2

@[simp]
theorem holdings_empty (holds : γ → List ρ) : (∅ : AList fun _ : α => γ).holdings holds = [] :=
  rfl

theorem map_values (name : γ → ρ) (dict : AList fun _ : α => γ) :
    (dict.entries.map Sigma.snd).map name = dict.holdings fun value => [name value] := by
  rw [List.map_map, List.map_eq_flatMap]
  rfl

theorem map_lists (name : δ → ρ) (dict : AList fun _ : α => List δ) :
    (dict.entries.flatMap Sigma.snd).map name = dict.holdings (List.map name) := by
  rw [List.map_flatMap]
  rfl

theorem map_nested {β : Type*} (name : γ → ρ) (dict : AList fun _ : α => AList fun _ : β => γ) :
    (dict.entries.flatMap fun entry => entry.2.entries.map Sigma.snd).map name =
      dict.holdings (holdings fun value => [name value]) := by
  rw [List.map_flatMap, holdings]
  congr 1
  funext entry
  exact map_values name entry.2

/-- When every value holds something, only the empty dictionary holds nothing. -/
theorem holdings_eq_nil {holds : γ → List ρ} (some_held : ∀ value, holds value ≠ [])
    {dict : AList fun _ : α => γ} : dict.holdings holds = [] ↔ dict = ∅ := by
  constructor
  · intro nothing
    rw [holdings, List.flatMap_eq_nil_iff] at nothing
    apply AList.ext
    apply List.eq_nil_iff_forall_not_mem.mpr
    exact fun entry member => some_held entry.2 (nothing entry member)
  · rintro rfl
    rfl

theorem eq_empty_of_forall_notMem {dict : AList fun _ : α => γ} (absent : ∀ key, key ∉ dict) :
    dict = ∅ := by
  apply AList.ext
  apply List.eq_nil_iff_forall_not_mem.mpr
  exact fun entry member => absent entry.1 (List.mem_keys_of_mem member)

variable [DecidableEq α] [DecidableEq ρ] (holds : γ → List ρ) (dict : AList fun _ : α => γ)
  (key : α) (value : γ) (resource : ρ)

/-- An entry that is taken out takes what it holds. -/
theorem count_holdings_erase :
    ((dict.erase key).holdings holds).count resource +
        ((dict.lookup key).elim [] holds).count resource =
      (dict.holdings holds).count resource := by
  cases known : dict.lookup key with
  | none =>
      rw [erase_of_notMem (lookup_eq_none.mp known)]
      rfl
  | some value =>
      have split := ((entries_perm_of_lookup known).flatMap_right
        fun entry => holds entry.2).count_eq resource
      rw [List.flatMap_cons, List.count_append] at split
      exact (Nat.add_comm _ _).trans split.symm

/-- An entry that is written over is lost. -/
theorem count_holdings_set :
    ((dict.set key value).holdings holds).count resource +
        ((dict.lookup key).elim [] holds).count resource =
      (dict.holdings holds).count resource + (holds value).count resource := by
  have others := count_holdings_erase holds dict key resource
  have split : (dict.set key value).entries.Perm (⟨key, value⟩ :: (dict.erase key).entries) :=
    entries_set_perm
  have written := (split.flatMap_right fun entry => holds entry.2).count_eq resource
  rw [List.flatMap_cons, List.count_append] at written
  change ((dict.set key value).holdings holds).count resource =
    (holds value).count resource + ((dict.erase key).holdings holds).count resource at written
  omega

/-- A new entry adds what it holds. -/
theorem count_holdings_set_of_notMem (absent : key ∉ dict) :
    ((dict.set key value).holdings holds).count resource =
      (dict.holdings holds).count resource + (holds value).count resource := by
  have written := count_holdings_set holds dict key value resource
  rwa [lookup_eq_none.mpr absent] at written

/-- A list that is appended to, where a missing one is empty. -/
theorem count_holdings_append (dict : AList fun _ : α => List δ) (added : List δ) (name : δ → ρ) :
    ((dict.set key ((dict.lookup key).getD [] ++ added)).holdings (List.map name)).count resource =
      (dict.holdings (List.map name)).count resource + (added.map name).count resource := by
  have written := count_holdings_set (List.map name) dict key
    ((dict.lookup key).getD [] ++ added) resource
  rw [List.map_append, List.count_append] at written
  cases known : dict.lookup key with
  | none =>
      rw [known, Option.elim_none, Option.getD_none, List.map_nil, List.count_nil] at written
      rw [Option.getD_none]
      omega
  | some found =>
      rw [known, Option.elim_some, Option.getD_some] at written
      rw [Option.getD_some]
      omega

end AList
