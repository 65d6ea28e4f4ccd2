import Mathlib

/-!
# Runs of a machine that may fail

A machine takes events one at a time; an event it fails on ends the run.  Besides the state a run
ends in, this file records what an observer sees along the run and what holds at every event of
it, and gives the induction rules for invariants: plain, conditional on every event, and indexed
by the history that led to the state.
-/

namespace Run

section Results

variable {δ α β : Type*}

theorem map_eq_ok {result : Except δ α} {f : α → β} {value : β} :
    result.map f = .ok value ↔ ∃ source, result = .ok source ∧ f source = value := by
  cases result with
  | error failure => simp [Except.map]
  | ok source => simp [Except.map]

theorem bind_eq_ok {α β : Type*} {result : Except δ α} {f : α → Except δ β} {value : β} :
    result.bind f = .ok value ↔ ∃ source, result = .ok source ∧ f source = .ok value := by
  cases result with
  | error failure => simp [Except.bind]
  | ok source => simp [Except.bind]

theorem toOption_eq_some {result : Except δ α} {value : α} :
    result.toOption = some value ↔ result = .ok value := by
  cases result with
  | error failure => simp [Except.toOption]
  | ok source => simp [Except.toOption]

/-- What a check sees of a result is so of it. -/
theorem exists_of_any {result : Except δ α} {check : α → Bool}
    (seen : result.toOption.any check = true) :
    ∃ value, result = .ok value ∧ check value = true := by
  cases result with
  | error failure => cases seen
  | ok value => exact ⟨value, rfl, seen⟩

/-- Is the failure the result? -/
def failsWith [DecidableEq δ] (failure : δ) : Except δ α → Bool
  | .ok _ => false
  | .error raised => decide (raised = failure)

theorem eq_error_of_failsWith [DecidableEq δ] {failure : δ} {result : Except δ α}
    (seen : failsWith failure result = true) : result = .error failure := by
  cases result with
  | ok value => cases seen
  | error raised => rw [of_decide_eq_true seen]

/-- Every item of a list that goes through has its result. -/
theorem forall₂_of_mapM {α β δ : Type} {f : α → Except δ β} {items : List α} {values : List β}
    (through : items.mapM f = .ok values) :
    List.Forall₂ (fun item value => f item = .ok value) items values := by
  induction items generalizing values with
  | nil =>
      cases through
      exact .nil
  | cons item items ih =>
      rw [List.mapM_cons] at through
      obtain ⟨value, first, through⟩ := bind_eq_ok.mp through
      obtain ⟨rest, others, through⟩ := bind_eq_ok.mp through
      cases through
      exact .cons first (ih others)

end Results

variable {σ ε ο δ : Type*} (step : σ → ε → Except δ σ)

/-- Take the events in order, stopping at the first failure. -/
def exec : σ → List ε → Except δ σ
  | state, [] => .ok state
  | state, event :: events =>
      match step state event with
      | .ok next => exec next events
      | .error failure => .error failure

/-- What an observer of single events sees along a run. -/
def observe (look : σ → ε → List ο) : σ → List ε → List ο
  | _, [] => []
  | state, event :: events =>
      look state event ++
        match step state event with
        | .ok next => observe look next events
        | .error _ => []

/-- A condition on the state and the event holds at every event of a run. -/
def Throughout (condition : σ → ε → Prop) : σ → List ε → Prop
  | _, [] => True
  | state, event :: events =>
      condition state event ∧
        ∀ next, step state event = .ok next → Throughout condition next events

instance decidableThroughout (condition : σ → ε → Prop)
    [∀ state event, Decidable (condition state event)] :
    (state : σ) → (events : List ε) → Decidable (Throughout step condition state events)
  | _, [] => .isTrue trivial
  | state, event :: events =>
      match taken : step state event with
      | .ok next =>
          have := decidableThroughout condition next events
          decidable_of_iff (condition state event ∧ Throughout step condition next events) (by
            rw [Throughout, taken]
            simp)
      | .error _ =>
          decidable_of_iff (condition state event) (by
            rw [Throughout, taken]
            simp)

variable {step}

@[simp]
theorem exec_nil (state : σ) : exec step state [] = .ok state := rfl

theorem exec_cons {state next : σ} {event : ε} {events : List ε}
    (taken : step state event = .ok next) :
    exec step state (event :: events) = exec step next events := by
  simp [exec, taken]

theorem exec_cons_eq_ok {state final : σ} {event : ε} {events : List ε} :
    exec step state (event :: events) = .ok final ↔
      ∃ next, step state event = .ok next ∧ exec step next events = .ok final := by
  rw [exec]
  cases taken : step state event with
  | ok next => simp
  | error failure => simp

theorem exec_append_eq_ok {state final : σ} {left right : List ε} :
    exec step state (left ++ right) = .ok final ↔
      ∃ middle, exec step state left = .ok middle ∧ exec step middle right = .ok final := by
  induction left generalizing state with
  | nil => simp
  | cons event left ih =>
      simp only [List.cons_append, exec_cons_eq_ok, ih]
      constructor
      · rintro ⟨next, taken, middle, first, second⟩
        exact ⟨middle, ⟨next, taken, first⟩, second⟩
      · rintro ⟨middle, ⟨next, taken, first⟩, second⟩
        exact ⟨next, taken, middle, first, second⟩

theorem exec_snoc_eq_ok {state final : σ} {events : List ε} {event : ε} :
    exec step state (events ++ [event]) = .ok final ↔
      ∃ middle, exec step state events = .ok middle ∧ step middle event = .ok final := by
  rw [exec_append_eq_ok]
  refine exists_congr fun middle => and_congr_right fun _ => ?_
  rw [exec_cons_eq_ok]
  simp

theorem exec_singleton (state : σ) (event : ε) : exec step state [event] = step state event := by
  rw [exec]
  cases step state event <;> rfl

theorem exec_snoc_eq_error {state : σ} {events : List ε} {event : ε} {failure : δ} :
    exec step state (events ++ [event]) = .error failure ↔
      exec step state events = .error failure ∨
        ∃ middle, exec step state events = .ok middle ∧ step middle event = .error failure := by
  induction events generalizing state with
  | nil =>
      rw [List.nil_append, exec_singleton]
      simp
  | cons first events ih =>
      rw [List.cons_append, exec, exec]
      cases step state first with
      | ok next => exact ih
      | error other => simp

@[simp]
theorem observe_nil (look : σ → ε → List ο) (state : σ) : observe step look state [] = [] := rfl

theorem observe_cons {look : σ → ε → List ο} {state next : σ} {event : ε} {events : List ε}
    (taken : step state event = .ok next) :
    observe step look state (event :: events) =
      look state event ++ observe step look next events := by
  simp [observe, taken]

theorem observe_append {look : σ → ε → List ο} {state middle : σ} {left right : List ε}
    (taken : exec step state left = .ok middle) :
    observe step look state (left ++ right) =
      observe step look state left ++ observe step look middle right := by
  induction left generalizing state with
  | nil =>
      obtain rfl : state = middle := by simpa using taken
      simp
  | cons event left ih =>
      obtain ⟨next, first, rest⟩ := exec_cons_eq_ok.mp taken
      rw [List.cons_append, observe_cons first, observe_cons first, ih rest, List.append_assoc]

/-- What is seen along a run is seen at one of its events. -/
theorem exists_of_mem_observe {look : σ → ε → List ο} {state : σ} {events : List ε} {item : ο}
    (member : item ∈ observe step look state events) :
    ∃ left event right middle, events = left ++ event :: right ∧
      exec step state left = .ok middle ∧ item ∈ look middle event := by
  induction events generalizing state with
  | nil => cases member
  | cons first events ih =>
      rw [observe, List.mem_append] at member
      rcases member with here | later
      · exact ⟨[], first, events, state, rfl, rfl, here⟩
      · cases taken : step state first with
        | error failure =>
            rw [taken] at later
            cases later
        | ok next =>
            rw [taken] at later
            obtain ⟨left, event, right, middle, split, reached, seen⟩ := ih later
            exact ⟨first :: left, event, right, middle, by rw [split, List.cons_append],
              (exec_cons taken).trans reached, seen⟩

theorem throughout_cons {condition : σ → ε → Prop} {state next : σ} {event : ε} {events : List ε}
    (taken : step state event = .ok next) :
    Throughout step condition state (event :: events) ↔
      condition state event ∧ Throughout step condition next events := by
  simp [Throughout, taken]

/-- A condition throughout a run holds at the event after any prefix of it. -/
theorem Throughout.after {condition : σ → ε → Prop} {state middle : σ} {left right : List ε}
    {event : ε} (holds : Throughout step condition state (left ++ event :: right))
    (taken : exec step state left = .ok middle) : condition middle event := by
  induction left generalizing state with
  | nil =>
      obtain rfl : state = middle := by simpa using taken
      exact holds.1
  | cons first left ih =>
      obtain ⟨next, moved, rest⟩ := exec_cons_eq_ok.mp taken
      exact ih (holds.2 next moved) rest

theorem Throughout.imp {condition conclusion : σ → ε → Prop} {state : σ} {events : List ε}
    (implies : ∀ {state event}, condition state event → conclusion state event)
    (holds : Throughout step condition state events) :
    Throughout step conclusion state events := by
  induction events generalizing state with
  | nil => trivial
  | cons event events ih => exact ⟨implies holds.1, fun next taken => ih (holds.2 next taken)⟩

theorem Throughout.and {first second : σ → ε → Prop} {state : σ} {events : List ε}
    (left : Throughout step first state events) (right : Throughout step second state events) :
    Throughout step (fun state event => first state event ∧ second state event) state events := by
  induction events generalizing state with
  | nil => trivial
  | cons event events ih =>
      exact ⟨⟨left.1, right.1⟩, fun next taken => ih (left.2 next taken) (right.2 next taken)⟩

theorem throughout_of_forall {condition : σ → ε → Prop} {state : σ} {events : List ε}
    (always : ∀ {left event right middle}, events = left ++ event :: right →
      exec step state left = .ok middle → condition middle event) :
    Throughout step condition state events := by
  induction events generalizing state with
  | nil => trivial
  | cons event events ih =>
      have first : condition state event := always (List.nil_append _).symm (exec_nil state)
      refine ⟨first, fun next taken => ih fun split reached => ?_⟩
      exact always (by rw [split, List.cons_append]) ((exec_cons taken).trans reached)

theorem throughout_of_mem {condition : σ → ε → Prop} {state : σ} {events : List ε}
    (always : ∀ event ∈ events, ∀ state, condition state event) :
    Throughout step condition state events := by
  apply throughout_of_forall
  intro left event right middle split _
  exact always event (split ▸ List.mem_append_right left List.mem_cons_self) middle

/-! ## Invariants -/

/-- When every event that meets the condition preserves an invariant, what the invariant and the
condition give at an event holds throughout every run that meets the condition. -/
theorem Throughout.of_invariant {invariant : σ → Prop} {condition conclusion : σ → ε → Prop}
    (preserved : ∀ {state event next}, invariant state → condition state event →
      step state event = .ok next → invariant next)
    (yields : ∀ {state event}, invariant state → condition state event → conclusion state event)
    {state : σ} {events : List ε} (start : invariant state)
    (holds : Throughout step condition state events) :
    Throughout step conclusion state events := by
  induction events generalizing state with
  | nil => trivial
  | cons event events ih =>
      refine ⟨yields start holds.1, fun next taken => ?_⟩
      exact ih (preserved start holds.1 taken) (holds.2 next taken)

/-- When every event that meets the condition goes through and preserves an invariant, so does
every run that meets it throughout. -/
theorem exists_exec {invariant : σ → Prop} {condition : σ → ε → Prop}
    (progress : ∀ {state event}, invariant state → condition state event →
      ∃ next, step state event = .ok next ∧ invariant next)
    {state : σ} {events : List ε} (start : invariant state)
    (holds : Throughout step condition state events) :
    ∃ final, exec step state events = .ok final ∧ invariant final := by
  induction events generalizing state with
  | nil => exact ⟨state, rfl, start⟩
  | cons event events ih =>
      obtain ⟨next, taken, kept⟩ := progress start holds.1
      obtain ⟨final, rest, reached⟩ := ih kept (holds.2 next taken)
      exact ⟨final, (exec_cons taken).trans rest, reached⟩

/-- What every event that meets the condition preserves, a run that meets it throughout
preserves. -/
theorem exec_invariant {invariant : σ → Prop} {condition : σ → ε → Prop}
    (preserved : ∀ {state event next}, invariant state → condition state event →
      step state event = .ok next → invariant next)
    {state final : σ} {events : List ε} (start : invariant state)
    (holds : Throughout step condition state events)
    (taken : exec step state events = .ok final) : invariant final := by
  induction events generalizing state with
  | nil =>
      obtain rfl : state = final := by simpa using taken
      exact start
  | cons event events ih =>
      obtain ⟨next, first, rest⟩ := exec_cons_eq_ok.mp taken
      exact ih (preserved start holds.1 first) (holds.2 next first) rest

/-- What every event preserves, a run preserves. -/
theorem exec_induction {invariant : σ → Prop}
    (preserved : ∀ {state event next}, invariant state → step state event = .ok next →
      invariant next)
    {state final : σ} {events : List ε} (start : invariant state)
    (taken : exec step state events = .ok final) : invariant final := by
  induction events generalizing state with
  | nil =>
      obtain rfl : state = final := by simpa using taken
      exact start
  | cons event events ih =>
      obtain ⟨next, first, rest⟩ := exec_cons_eq_ok.mp taken
      exact ih (preserved start first) rest

/-- Induction over a run, with the history so far as an index. -/
theorem history_induction {invariant : List ε → σ → Prop} {state : σ}
    (start : invariant [] state)
    (preserved : ∀ {history middle event next}, exec step state history = .ok middle →
      invariant history middle → step middle event = .ok next →
      invariant (history ++ [event]) next)
    {events : List ε} {final : σ} (taken : exec step state events = .ok final) :
    invariant events final := by
  induction events using List.reverseRecOn generalizing final with
  | nil =>
      obtain rfl : state = final := by simpa using taken
      exact start
  | append_singleton history event ih =>
      obtain ⟨middle, before, last⟩ := exec_snoc_eq_ok.mp taken
      exact preserved before (ih before) last

/-! ## Accounting -/

/-- What goes into a queue comes out of it or is still in it, in order. -/
theorem observe_append_queue {look : σ → ε → List ο} {queue : σ → List ο} {input : ε → List ο}
    (conserved : ∀ {state event next}, step state event = .ok next →
      look state event ++ queue next = queue state ++ input event)
    {state final : σ} {events : List ε} (taken : exec step state events = .ok final) :
    observe step look state events ++ queue final = queue state ++ events.flatMap input := by
  induction events generalizing state with
  | nil =>
      obtain rfl : state = final := by simpa using taken
      simp
  | cons event events ih =>
      obtain ⟨next, first, rest⟩ := exec_cons_eq_ok.mp taken
      calc observe step look state (event :: events) ++ queue final
          = look state event ++ (observe step look next events ++ queue final) := by
            rw [observe_cons first, List.append_assoc]
        _ = look state event ++ queue next ++ events.flatMap input := by
            rw [ih rest, List.append_assoc]
        _ = queue state ++ (event :: events).flatMap input := by
            rw [conserved first, List.flatMap_cons, List.append_assoc]

/-- What comes in goes out or is still held. -/
theorem observe_perm {into out : σ → ε → List ο} {held : σ → List ο}
    (balanced : ∀ {state event next}, step state event = .ok next →
      (out state event ++ held next).Perm (held state ++ into state event))
    {state final : σ} {events : List ε} (taken : exec step state events = .ok final) :
    (observe step out state events ++ held final).Perm
      (held state ++ observe step into state events) := by
  induction events generalizing state with
  | nil =>
      obtain rfl : state = final := by simpa using taken
      simp
  | cons event events ih =>
      obtain ⟨next, first, rest⟩ := exec_cons_eq_ok.mp taken
      have whole := (ih rest).append_left (out state event)
      have here := (balanced first).append_right (observe step into next events)
      rw [List.append_assoc] at here
      rw [observe_cons first, observe_cons first, List.append_assoc]
      exact whole.trans (List.append_assoc (held state) _ _ ▸ here)

/-- What every event takes from a stock is covered by the stock and by what comes in. -/
theorem count_observe_add_le [DecidableEq ο] {look : σ → ε → List ο} {stock : σ → ℕ}
    {input : ε → ℕ} {item : ο}
    (spent : ∀ {state event next}, step state event = .ok next →
      (look state event).count item + stock next ≤ stock state + input event)
    {state final : σ} {events : List ε} (taken : exec step state events = .ok final) :
    (observe step look state events).count item + stock final ≤
      stock state + (events.map input).sum := by
  induction events generalizing state with
  | nil =>
      obtain rfl : state = final := by simpa using taken
      simp
  | cons event events ih =>
      obtain ⟨next, first, rest⟩ := exec_cons_eq_ok.mp taken
      have now := spent first
      have later := ih rest
      rw [observe_cons first, List.count_append, List.map_cons, List.sum_cons]
      omega

/-- What every event takes from a stock is at most the stock in the end. -/
theorem count_observe_le [DecidableEq ο] {look : σ → ε → List ο} {stock : σ → ℕ} {item : ο}
    (spent : ∀ {state event next}, step state event = .ok next →
      (look state event).count item + stock next ≤ stock state)
    {state final : σ} {events : List ε} (taken : exec step state events = .ok final) :
    (observe step look state events).count item + stock final ≤ stock state := by
  have covered : _ ≤ stock state + (events.map fun _ => 0).sum := count_observe_add_le spent taken
  simpa using covered

theorem observe_sublist {less more : σ → ε → List ο}
    (inside : ∀ state event, (less state event).Sublist (more state event)) (state : σ)
    (events : List ε) :
    (observe step less state events).Sublist (observe step more state events) := by
  induction events generalizing state with
  | nil => exact List.Sublist.refl _
  | cons event events ih =>
      rw [observe, observe]
      apply (inside state event).append
      cases step state event with
      | ok next => exact ih next
      | error failure => exact List.Sublist.refl _

/-- An observer that sees a part of what another sees misses nothing in a run exactly when it
misses nothing at any event. -/
theorem observe_eq_iff {less more : σ → ε → List ο}
    (inside : ∀ state event, (less state event).Sublist (more state event)) {state final : σ}
    {events : List ε} (taken : exec step state events = .ok final) :
    observe step less state events = observe step more state events ↔
      Throughout step (fun state event => less state event = more state event) state events := by
  induction events generalizing state with
  | nil => simp [Throughout]
  | cons event events ih =>
      obtain ⟨next, first, rest⟩ := exec_cons_eq_ok.mp taken
      rw [throughout_cons first, ← ih rest, observe_cons first, observe_cons first]
      constructor
      · intro same
        have here := (inside state event).length_le
        have later : (observe step less next events).length ≤
            (observe step more next events).length :=
          (observe_sublist inside next events).length_le
        have total := congrArg List.length same
        rw [List.length_append, List.length_append] at total
        have equal : (less state event).length = (more state event).length := by omega
        have head := (inside state event).eq_of_length equal
        rw [head] at same
        exact ⟨head, List.append_cancel_left same⟩
      · rintro ⟨head, tail⟩
        rw [head, tail]

/-! ## Simulation -/

section Simulation

variable {σ' ε' : Type*} {abstractStep : σ' → ε' → Except δ σ'}

/-- When each concrete event is matched by a list of abstract events, with the same observations,
so is every run. -/
theorem simulate (abstraction : σ → σ') {events' : ε → List ε'} {look : σ → ε → List ο}
    {look' : σ' → ε' → List ο}
    (matched : ∀ {state event next}, step state event = .ok next →
      exec abstractStep (abstraction state) (events' event) = .ok (abstraction next) ∧
        look state event = observe abstractStep look' (abstraction state) (events' event))
    {state final : σ} {events : List ε} (taken : exec step state events = .ok final) :
    exec abstractStep (abstraction state) (events.flatMap events') = .ok (abstraction final) ∧
      observe step look state events =
        observe abstractStep look' (abstraction state) (events.flatMap events') := by
  induction events generalizing state with
  | nil =>
      obtain rfl : state = final := by simpa using taken
      exact ⟨rfl, rfl⟩
  | cons event events ih =>
      obtain ⟨next, first, rest⟩ := exec_cons_eq_ok.mp taken
      obtain ⟨moved, seen⟩ := matched first
      obtain ⟨reached, observed⟩ := ih rest
      rw [List.flatMap_cons]
      constructor
      · exact exec_append_eq_ok.mpr ⟨abstraction next, moved, reached⟩
      · rw [observe_cons first, observe_append moved, seen, observed]

end Simulation

/-! ## Parts -/

section Parts

variable {σ' ε' δ' : Type*} {partStep : σ' → ε' → Except δ' σ'} {part : σ → σ'}
  {partEvents : σ → ε → List ε'}

/-- When each event does to a part of the state what some events of the part do, so does every
run. -/
theorem exec_part
    (matched : ∀ {state event next}, step state event = .ok next →
      exec partStep (part state) (partEvents state event) = .ok (part next))
    {state final : σ} {events : List ε} (taken : exec step state events = .ok final) :
    exec partStep (part state) (observe step partEvents state events) = .ok (part final) := by
  induction events generalizing state with
  | nil =>
      obtain rfl : state = final := by simpa using taken
      rfl
  | cons event events ih =>
      obtain ⟨next, first, rest⟩ := exec_cons_eq_ok.mp taken
      rw [observe_cons first]
      exact exec_append_eq_ok.mpr ⟨part next, matched first, ih rest⟩

theorem Throughout.append {condition : σ → ε → Prop} {state middle : σ} {left right : List ε}
    (reached : exec step state left = .ok middle)
    (before : Throughout step condition state left)
    (after : Throughout step condition middle right) :
    Throughout step condition state (left ++ right) := by
  induction left generalizing state with
  | nil =>
      obtain rfl : state = middle := by simpa using reached
      exact after
  | cons first left ih =>
      obtain ⟨next, moved, rest⟩ := exec_cons_eq_ok.mp reached
      refine ⟨before.1, fun other taken => ?_⟩
      obtain rfl := Except.ok.inj (moved.symm.trans taken)
      exact ih rest (before.2 _ moved)

/-- A condition on the events of a part holds throughout when every event meets it. -/
theorem Throughout.within
    (matched : ∀ {state event next}, step state event = .ok next →
      exec partStep (part state) (partEvents state event) = .ok (part next))
    {condition : σ → ε → Prop} {partCondition : σ' → ε' → Prop}
    (implies : ∀ {state event}, condition state event →
      Throughout partStep partCondition (part state) (partEvents state event))
    {state final : σ} {events : List ε} (taken : exec step state events = .ok final)
    (holds : Throughout step condition state events) :
    Throughout partStep partCondition (part state) (observe step partEvents state events) := by
  induction events generalizing state with
  | nil => trivial
  | cons event events ih =>
      obtain ⟨next, first, rest⟩ := exec_cons_eq_ok.mp taken
      rw [observe_cons first]
      exact (implies holds.1).append (matched first) (ih rest (holds.2 next first))

end Parts

end Run
