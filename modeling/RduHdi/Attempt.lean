import Mathlib

/-!
# Computations that keep their state when they raise

A computation reads and writes a state and may raise.  An exception ends the computation and not
the state: what was written before stays written.  This file has the monad of such computations,
what a result says about the parts of a sequence, and the rule for what a computation may change.
-/

universe u v w

/-- A computation over a state that may raise. -/
def Attempt (ε : Type u) (σ : Type v) (α : Type w) : Type max u v w :=
  σ → σ × Except ε α

namespace Attempt

section Operations

variable {ε : Type u} {σ : Type v} {α β : Type w}

/-- Do one computation after another, unless the first raises. -/
def andThen (first : Attempt ε σ α) (rest : α → Attempt ε σ β) : Attempt ε σ β := fun state =>
  match first state with
  | (state, .ok value) => rest value state
  | (state, .error raised) => (state, .error raised)

instance : Monad (Attempt ε σ) where
  pure value := fun state => (state, .ok value)
  bind := andThen

/-- What the state says. -/
def read (f : σ → α) : Attempt ε σ α := fun state => (state, .ok (f state))

def raise (error : ε) : Attempt ε σ α := fun state => (state, .error error)

/-- Go on with a result, or raise its error. -/
def lift (result : Except ε α) : Attempt ε σ α := fun state => (state, result)

/-- Go on with a result that the state determines, or raise its error. -/
def readOk (f : σ → Except ε α) : Attempt ε σ α := fun state => (state, f state)

def write (f : σ → σ) : Attempt ε σ PUnit := fun state => (f state, .ok ⟨⟩)

/-- Raise an error unless a condition holds of the state. -/
def require (condition : σ → Prop) [DecidablePred condition] (error : ε) : Attempt ε σ PUnit :=
  fun state => (state, if condition state then .ok ⟨⟩ else .error error)

/-- Do a computation for every item in turn. -/
def forEach {ι : Type*} (body : ι → Attempt ε σ PUnit) : List ι → Attempt ε σ PUnit
  | [] => pure ⟨⟩
  | item :: items => body item >>= fun _ => forEach body items

end Operations

section Results

variable {ε : Type u} {σ : Type v} {α β : Type w} {state final : σ}

theorem bind_eq_ok {first : Attempt ε σ α} {rest : α → Attempt ε σ β} {value : β} :
    (first >>= rest) state = (final, .ok value) ↔
      ∃ middle source, first state = (middle, .ok source) ∧
        rest source middle = (final, .ok value) := by
  change andThen first rest state = _ ↔ _
  rw [andThen]
  cases reached : first state with
  | mk middle result =>
      cases result with
      | ok source => simp
      | error raised => simp

theorem bind_eq_error {first : Attempt ε σ α} {rest : α → Attempt ε σ β} {error : ε} :
    (first >>= rest) state = (final, .error error) ↔
      first state = (final, .error error) ∨
        ∃ middle source, first state = (middle, .ok source) ∧
          rest source middle = (final, .error error) := by
  change andThen first rest state = _ ↔ _
  rw [andThen]
  cases reached : first state with
  | mk middle result =>
      cases result with
      | ok source => simp
      | error raised => simp

theorem bind_run {first : Attempt ε σ α} {rest : α → Attempt ε σ β} :
    (first >>= rest) state =
      match first state with
      | (next, .ok value) => rest value next
      | (next, .error raised) => (next, .error raised) :=
  rfl

/-- What follows a computation that only looks. -/
theorem bind_of_same {first : Attempt ε σ α} {rest : α → Attempt ε σ β}
    (same : (first state).1 = state) :
    (first >>= rest) state =
      match (first state).2 with
      | .ok value => rest value state
      | .error raised => (state, .error raised) := by
  change andThen first rest state = _
  rw [andThen]
  cases ran : first state with
  | mk next result =>
      rw [ran] at same
      obtain rfl : next = state := same
      cases result with
      | ok value => rfl
      | error raised => rfl

/-- Looking after a computation leaves the state it left. -/
theorem state_bind_of_same {first : Attempt ε σ α} {rest : α → Attempt ε σ β}
    (same : ∀ value state, (rest value state).1 = state) :
    ((first >>= rest) state).1 = (first state).1 := by
  change (andThen first rest state).1 = _
  rw [andThen]
  cases first state with
  | mk next result =>
      cases result with
      | ok value => exact same value next
      | error raised => rfl

theorem exists_eq_ok {job : Attempt ε σ α} {value : α} (returns : (job state).2 = .ok value) :
    ∃ next, job state = (next, .ok value) :=
  ⟨(job state).1, Prod.ext rfl returns⟩

theorem exists_of_isOk {job : Attempt ε σ α} (returns : (job state).2.isOk = true) :
    ∃ next value, job state = (next, .ok value) := by
  cases ran : job state with
  | mk next result =>
      rw [ran] at returns
      cases result with
      | ok value => exact ⟨next, value, rfl⟩
      | error raised => cases returns

@[simp]
theorem pure_eq_ok {source value : α} :
    (pure source : Attempt ε σ α) state = (final, .ok value) ↔ state = final ∧ source = value := by
  change (state, Except.ok source) = _ ↔ _
  simp

@[simp]
theorem write_eq_ok {f : σ → σ} {value : PUnit} :
    (write f : Attempt ε σ PUnit.{w + 1}) state = (final, .ok value) ↔ f state = final := by
  simp [write]

@[simp]
theorem readOk_eq_ok {f : σ → Except ε α} {value : α} :
    readOk f state = (final, .ok value) ↔ state = final ∧ f state = .ok value := by
  simp [readOk]

@[simp]
theorem lift_eq_ok {result : Except ε α} {value : α} :
    lift result state = (final, .ok value) ↔ state = final ∧ result = .ok value := by
  simp [lift]

@[simp]
theorem require_eq_ok {condition : σ → Prop} [DecidablePred condition] {error : ε}
    {value : PUnit.{w + 1}} :
    require condition error state = (final, .ok value) ↔ state = final ∧ condition state := by
  rw [require]
  split <;> simp [*]

@[simp]
theorem pure_ne_error {source : α} {error : ε} :
    (pure source : Attempt ε σ α) state ≠ (final, .error error) := by
  change (state, Except.ok source) ≠ _
  simp

@[simp]
theorem write_ne_error {f : σ → σ} {error : ε} :
    (write f : Attempt ε σ PUnit.{w + 1}) state ≠ (final, .error error) := by
  simp [write]

@[simp]
theorem readOk_eq_error {f : σ → Except ε α} {error : ε} :
    readOk f state = (final, .error error) ↔ state = final ∧ f state = .error error := by
  simp [readOk]

@[simp]
theorem lift_eq_error {result : Except ε α} {error : ε} :
    lift result state = (final, .error error) ↔ state = final ∧ result = .error error := by
  simp [lift]

end Results

/-! ## Invariants -/

section Keeps

variable {ε : Type u} {σ : Type v} {α β : Type w} {invariant : σ → Prop}

/-- A computation keeps an invariant, whether it returns or raises. -/
def Keeps (invariant : σ → Prop) (job : Attempt ε σ α) : Prop :=
  ∀ state, invariant state → invariant (job state).1

namespace Keeps

/-- A computation that only looks keeps every invariant. -/
theorem of_same {job : Attempt ε σ α} (same : ∀ state, (job state).1 = state) :
    Keeps invariant job := fun state holds => (same state).symm ▸ holds

theorem write {f : σ → σ} (kept : ∀ state, invariant state → invariant (f state)) :
    Keeps invariant (Attempt.write f : Attempt ε σ PUnit.{w + 1}) :=
  kept

theorem bind {first : Attempt ε σ α} {rest : α → Attempt ε σ β} (before : Keeps invariant first)
    (after : ∀ value, Keeps invariant (rest value)) : Keeps invariant (first >>= rest) := by
  intro state holds
  have middle := before state holds
  change invariant (andThen first rest state).1
  rw [andThen]
  cases ran : first state with
  | mk next outcome =>
      rw [ran] at middle
      cases outcome with
      | ok value => exact after value next middle
      | error raised => exact middle

theorem forEach {ι : Type*} {body : ι → Attempt ε σ PUnit.{w + 1}}
    (each : ∀ item, Keeps invariant (body item)) (items : List ι) :
    Keeps invariant (Attempt.forEach body items) := by
  induction items with
  | nil => exact of_same fun _ => rfl
  | cons item items ih => exact bind (each item) fun _ => ih

end Keeps

end Keeps

/-! ## Triples -/

section Triples

variable {ε : Type u} {σ : Type v} {α β : Type w} {pre : σ → Prop} {failed : σ → Prop}

/-- A computation that starts where `pre` holds returns where `post` holds of its value, or raises
where `failed` holds. -/
def Triple (pre : σ → Prop) (job : Attempt ε σ α) (post : α → σ → Prop) (failed : σ → Prop) :
    Prop :=
  ∀ state, pre state →
    match job state with
    | (next, .ok value) => post value next
    | (next, .error _) => failed next

namespace Triple

theorem returned {job : Attempt ε σ α} {post : α → σ → Prop} (triple : Triple pre job post failed)
    {state next : σ} {value : α} (start : pre state) (ran : job state = (next, .ok value)) :
    post value next := by
  have met := triple state start
  rw [ran] at met
  exact met

/-- What holds wherever a computation ends. -/
theorem ended {job : Attempt ε σ α} (triple : Triple pre job (fun _ => failed) failed) {state : σ}
    (start : pre state) : failed (job state).1 := by
  have met := triple state start
  cases ran : job state with
  | mk next result =>
      rw [ran] at met
      cases result with
      | ok value => exact met
      | error raised => exact met

theorem consequence {job : Attempt ε σ α} {stronger : σ → Prop} {post weaker : α → σ → Prop}
    (triple : Triple pre job post failed) (start : ∀ state, stronger state → pre state)
    (result : ∀ value state, post value state → weaker value state) :
    Triple stronger job weaker failed := by
  intro state holds
  have met := triple state (start state holds)
  cases ran : job state with
  | mk next outcome =>
      rw [ran] at met
      cases outcome with
      | ok value => exact result value next met
      | error raised => exact met

theorem pure {value : α} {post : α → σ → Prop} (gives : ∀ state, pre state → post value state) :
    Triple pre (Pure.pure value : Attempt ε σ α) post failed :=
  gives

theorem bind {first : Attempt ε σ α} {rest : α → Attempt ε σ β} {middle : α → σ → Prop}
    {post : β → σ → Prop} (before : Triple pre first middle failed)
    (after : ∀ value, Triple (middle value) (rest value) post failed) :
    Triple pre (first >>= rest) post failed := by
  intro state start
  have met := before state start
  change match andThen first rest state with
    | (next, .ok value) => post value next
    | (next, .error _) => failed next
  rw [andThen]
  cases ran : first state with
  | mk next outcome =>
      rw [ran] at met
      cases outcome with
      | ok value => exact after value next met
      | error raised => exact met

theorem read {f : σ → α} {post : α → σ → Prop}
    (gives : ∀ state, pre state → post (f state) state) :
    Triple pre (Attempt.read f : Attempt ε σ α) post failed :=
  gives

theorem write {f : σ → σ} {post : PUnit.{w + 1} → σ → Prop}
    (gives : ∀ state, pre state → post ⟨⟩ (f state)) :
    Triple pre (Attempt.write f : Attempt ε σ PUnit) post failed :=
  gives

theorem readOk {f : σ → Except ε α} {post : α → σ → Prop}
    (gives : ∀ state value, pre state → f state = .ok value → post value state)
    (fails : ∀ state, pre state → failed state) : Triple pre (Attempt.readOk f) post failed := by
  intro state start
  rw [Attempt.readOk]
  cases result : f state with
  | ok value => exact gives state value start result
  | error raised => exact fails state start

theorem lift {result : Except ε α} {post : α → σ → Prop}
    (gives : ∀ state value, pre state → result = .ok value → post value state)
    (fails : ∀ state, pre state → failed state) : Triple pre (Attempt.lift result) post failed :=
  readOk gives fails

/-- A computation that only looks goes on from where it started. -/
theorem of_same {job : Attempt ε σ α} (same : ∀ state, (job state).1 = state)
    (fails : ∀ state, pre state → failed state) : Triple pre job (fun _ => pre) failed := by
  intro state start
  have stays := same state
  cases ran : job state with
  | mk next outcome =>
      rw [ran] at stays
      obtain rfl : next = state := stays
      cases outcome with
      | ok value => exact start
      | error raised => exact fails next start

/-- A loop, with an invariant over the items that are done. -/
theorem forEach {ι : Type*} {body : ι → Attempt ε σ PUnit.{w + 1}} {items : List ι}
    {invariant : List ι → σ → Prop}
    (each : ∀ done item rest, items = done ++ item :: rest →
      Triple (invariant done) (body item) (fun _ => invariant (done ++ [item])) failed) :
    Triple (invariant []) (Attempt.forEach body items) (fun _ => invariant items) failed := by
  induction items generalizing invariant with
  | nil => exact fun _ start => start
  | cons item items ih =>
      refine bind (each [] item items rfl) fun _ => ?_
      exact ih fun done other rest split => each (item :: done) other rest (by rw [split]; rfl)

/-- A loop whose items keep what held before. -/
theorem forEach_same {ι : Type*} {body : ι → Attempt ε σ PUnit.{w + 1}}
    (each : ∀ item, Triple pre (body item) (fun _ => pre) failed) (items : List ι) :
    Triple pre (Attempt.forEach body items) (fun _ => pre) failed := by
  induction items with
  | nil => exact fun _ start => start
  | cons item items ih => exact bind (each item) fun _ => ih

end Triple

end Triples

/-! ## Two runs side by side -/

section Alike

variable {ε : Type u} {σ : Type v} {α β : Type w} {related : σ → σ → Prop} {same : α → α → Prop}

/-- Two computations that start in related states both return, in related states and with values
that are the same, or both raise. -/
def Alike (related : σ → σ → Prop) (same : α → α → Prop) (job other : Attempt ε σ α) : Prop :=
  ∀ state start, related state start →
    match job state, other start with
    | (next, .ok value), (reached, .ok found) => related next reached ∧ same value found
    | (_, .error _), (_, .error _) => True
    | _, _ => False

namespace Alike

/-- Either of two computations that are alike returns when the other does. -/
theorem returns_iff {job other : Attempt ε σ α} (alike : Alike related same job other)
    {state start : σ} (begun : related state start) :
    (∃ value, (job state).2 = .ok value) ↔ ∃ value, (other start).2 = .ok value := by
  have met := alike state start begun
  cases ran : job state with
  | mk next result =>
      cases went : other start with
      | mk reached outcome =>
          rw [ran, went] at met
          cases result with
          | ok value =>
              cases outcome with
              | ok found => exact ⟨fun _ => ⟨found, rfl⟩, fun _ => ⟨value, rfl⟩⟩
              | error raised => exact met.elim
          | error raised =>
              cases outcome with
              | ok found => exact met.elim
              | error _ =>
                  constructor
                  · rintro ⟨value, ⟨⟩⟩
                  · rintro ⟨value, ⟨⟩⟩

theorem bind {first second : Attempt ε σ α} {rest others : α → Attempt ε σ β}
    {equal : β → β → Prop} (before : Alike related same first second)
    (after : ∀ value found, same value found →
      Alike related equal (rest value) (others found)) :
    Alike related equal (first >>= rest) (second >>= others) := by
  intro state start begun
  have met := before state start begun
  rw [bind_run, bind_run]
  cases ran : first state with
  | mk next result =>
      cases went : second start with
      | mk reached outcome =>
          rw [ran, went] at met
          cases result with
          | ok value =>
              cases outcome with
              | ok found => exact after value found met.2 next reached met.1
              | error raised => exact met.elim
          | error raised =>
              cases outcome with
              | ok found => exact met.elim
              | error _ => exact met

/-- The rule when the first computations return the same value. -/
theorem bind_same {first second : Attempt ε σ α} {rest others : α → Attempt ε σ β}
    {equal : β → β → Prop} (before : Alike related (· = ·) first second)
    (after : ∀ value, Alike related equal (rest value) (others value)) :
    Alike related equal (first >>= rest) (second >>= others) := by
  apply bind before
  rintro value _ rfl
  exact after value

theorem pure {value found : α} (equal : same value found) :
    Alike related same (Pure.pure value : Attempt ε σ α) (Pure.pure found) :=
  fun _ _ begun => ⟨begun, equal⟩

theorem write {f g : σ → σ} {same : PUnit.{w + 1} → PUnit.{w + 1} → Prop} (equal : same ⟨⟩ ⟨⟩)
    (kept : ∀ state start, related state start → related (f state) (g start)) :
    Alike related same (Attempt.write f : Attempt ε σ PUnit) (Attempt.write g) :=
  fun state start begun => ⟨kept state start begun, equal⟩

theorem raise {error raised : ε} :
    Alike related same (Attempt.raise error : Attempt ε σ α) (Attempt.raise raised) :=
  fun _ _ _ => trivial

/-- Looking at what related states agree on. -/
theorem readOk {f : σ → Except ε α}
    (agree : ∀ state start, related state start → f state = f start) :
    Alike related (· = ·) (Attempt.readOk f) (Attempt.readOk f) := by
  intro state start begun
  rw [Attempt.readOk, Attempt.readOk, agree state start begun]
  cases f start with
  | ok value => exact ⟨begun, rfl⟩
  | error raised => trivial

theorem read {f : σ → α} (agree : ∀ state start, related state start → f state = f start) :
    Alike related (· = ·) (Attempt.read f : Attempt ε σ α) (Attempt.read f) :=
  fun state start begun => ⟨begun, agree state start begun⟩

theorem lift {result : Except ε α} :
    Alike related (· = ·) (Attempt.lift result) (Attempt.lift result) :=
  readOk fun _ _ _ => rfl

theorem require {condition : σ → Prop} [DecidablePred condition] {error : ε}
    (agree : ∀ state start, related state start → (condition state ↔ condition start)) :
    Alike related (· = ·) (Attempt.require condition error : Attempt ε σ PUnit.{w + 1})
      (Attempt.require condition error) :=
  readOk fun state start begun => if_congr (agree state start begun) rfl rfl

/-- Two computations that always return, each keeping what the states agree on. -/
theorem of_returns {job other : Attempt ε σ α}
    (left : ∀ state start, related state start →
      ∃ next value, job state = (next, .ok value) ∧ related next start)
    (right : ∀ state start, related state start →
      ∃ reached found, other start = (reached, .ok found) ∧ related state reached) :
    Alike related (fun _ _ => True) job other := by
  intro state start begun
  obtain ⟨next, value, ran, middle⟩ := left state start begun
  obtain ⟨reached, found, went, ended⟩ := right next start middle
  rw [ran, went]
  exact ⟨ended, trivial⟩

end Alike

end Alike

end Attempt
