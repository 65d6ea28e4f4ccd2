import RduHdi.Inductor.PartitionSignature

/-!
# Memory planning over nested subgraphs

`memory_plan_reuse_patched` of `vllm_env_override_torch22x.py`: the planning lines at the end that
are for no output go, and every other planning line is planned in the state of the graph it stands
in.  The loop keeps the states of the graphs that are open on a stack.  A text is a wrapper's lines
with their nesting, and planning one recursively gives every subgraph a state of its own.
-/

namespace RduHdi

/-- What `get_output_names` tells apart. -/
inductive GraphOutput where
  | noneAsConstantBuffer
  | shapeAsConstantBuffer
  | node (name : BufName)

inductive WrapperLine (π : Type) where
  /-- A `MemoryPlanningLine`. -/
  | planning (line : π)
  | enterSubgraph (graph : String)
  | exitSubgraph
  | other (text : String)

/-- What planning reads of the wrapper and of the graph. -/
structure PythonWrapper (π : Type) where
  /-- The name of the graph. -/
  graphName : String
  /-- `partition_signatures.output_nodes`, in the wrapper of a subgraph that has signatures. -/
  partitionOutputs : Option (List GraphOutput)
  /-- `V.graph.get_output_names()`. -/
  graphOutputNames : List BufName
  /-- The lines to plan. -/
  lines : List (WrapperLine π)

namespace PythonWrapper

variable {π : Type}

/-- `get_output_names`, from the counts of `NoneAsConstantBuffer` and `ShapeAsConstantBuffer`. -/
def getOutputNames (graphName : String) : ℕ → ℕ → List GraphOutput → List BufName
  | _, _, [] => []
  | nones, shapes, .noneAsConstantBuffer :: outputs =>
      (graphName ++ "_none" ++ toString nones) ::
        getOutputNames graphName (nones + 1) shapes outputs
  | nones, shapes, .shapeAsConstantBuffer :: outputs =>
      (graphName ++ "_shape" ++ toString shapes) ::
        getOutputNames graphName nones (shapes + 1) outputs
  | nones, shapes, .node name :: outputs => name :: getOutputNames graphName nones shapes outputs

def outNames (wrapper : PythonWrapper π) : List BufName :=
  match wrapper.partitionOutputs with
  | some outputs => getOutputNames wrapper.graphName 0 0 outputs
  | none => wrapper.graphOutputNames

end PythonWrapper

/-- What may raise. -/
inductive PlanError (ε : Type) where
  | attributeError
  | indexError
  | assertionError
  /-- Raised by the `plan` of a line. -/
  | raised (error : ε)
deriving DecidableEq

/-- The planning lines of Inductor. -/
structure MemoryPlanner (π σ ω ε : Type) where
  /-- `node.name`, of a line that has a node. -/
  nodeName : π → Option BufName
  /-- `MemoryPlanningState()`. -/
  newState : σ
  /-- `plan`, on the state and on the objects that lines and states share. -/
  plan : π → σ → ω → Except ε (π × σ × ω)

/-- The variables of the loop. -/
structure Planning (π σ ω : Type) where
  /-- The lines, as planned so far. -/
  lines : List (WrapperLine π)
  /-- The last one first. -/
  planningStates : List σ
  /-- The states of graphs that were left. -/
  pastPlanningStates : List σ
  /-- What lines and states share. -/
  shared : ω

namespace MemoryPlanner

variable {π σ ω ε : Type} (planner : MemoryPlanner π σ ω ε)

/-- `node.name not in out_names`. -/
def pointless (outNames : List BufName) (line : π) : Except (PlanError ε) Bool :=
  match planner.nodeName line with
  | none => .error .attributeError
  | some name => .ok (name ∉ outNames)

/-- The first loop, on the lines from the last to the first. -/
def popPointless (outNames : List BufName) :
    List (WrapperLine π) → Except (PlanError ε) (List (WrapperLine π))
  | .planning line :: lines => do
      if ← planner.pointless outNames line then popPointless outNames lines
      else .ok (.planning line :: lines)
  | lines => .ok lines

def withoutPointless (outNames : List BufName) (lines : List (WrapperLine π)) :
    Except (PlanError ε) (List (WrapperLine π)) :=
  (planner.popPointless outNames lines.reverse).map List.reverse

/-- One turn of the second loop. -/
def step (planning : Planning π σ ω) :
    WrapperLine π → Except (PlanError ε) (Planning π σ ω)
  | .planning line =>
      match planning.planningStates with
      | [] => .error .indexError
      | state :: states =>
          match planner.plan line state planning.shared with
          | .error error => .error (.raised error)
          | .ok (planned, state, shared) =>
              .ok { planning with
                lines := planning.lines ++ [.planning planned]
                planningStates := state :: states
                shared }
  | .enterSubgraph graph =>
      .ok { planning with
        lines := planning.lines ++ [.enterSubgraph graph]
        planningStates := planner.newState :: planning.planningStates }
  | .exitSubgraph =>
      match planning.planningStates with
      | [] => .error .indexError
      | state :: states =>
          .ok { planning with
            lines := planning.lines ++ [.exitSubgraph]
            planningStates := states
            pastPlanningStates := planning.pastPlanningStates ++ [state] }
  | .other text => .ok { planning with lines := planning.lines ++ [.other text] }

/-- What is left after the second loop: the state of the graph itself, and no other. -/
def finish (planning : Planning π σ ω) : Except (PlanError ε) (Planning π σ ω) :=
  match planning.planningStates with
  | [] => .error .indexError
  | [state] =>
      .ok { planning with
        planningStates := []
        pastPlanningStates := planning.pastPlanningStates ++ [state] }
  | _ :: _ :: _ => .error .assertionError

def memoryPlanReuse (wrapper : PythonWrapper π) (shared : ω) :
    Except (PlanError ε) (Planning π σ ω) := do
  let lines ← planner.withoutPointless wrapper.outNames wrapper.lines
  let planning ← Run.exec planner.step
    { lines := [], planningStates := [planner.newState], pastPlanningStates := [], shared } lines
  finish planning

end MemoryPlanner

/-! ## Texts -/

/-- The lines of a graph, with those of its subgraphs. -/
inductive GraphText (π : Type) where
  | nil
  | planning (line : π) (rest : GraphText π)
  | other (text : String) (rest : GraphText π)
  | subgraph (graph : String) (body rest : GraphText π)

/-- The lines of a wrapper.  The graph itself can be left, and another one entered in its place,
with no line to plan in between. -/
inductive WrapperText (π : Type) where
  | last (lines : GraphText π)
  | again (lines : GraphText π) (between : List String) (graph : String) (rest : WrapperText π)

variable {π σ ω ε : Type}

def GraphText.lines : GraphText π → List (WrapperLine π)
  | .nil => []
  | .planning line rest => .planning line :: rest.lines
  | .other text rest => .other text :: rest.lines
  | .subgraph graph body rest =>
      .enterSubgraph graph :: (body.lines ++ .exitSubgraph :: rest.lines)

def WrapperText.lines : WrapperText π → List (WrapperLine π)
  | .last text => text.lines
  | .again text between graph rest =>
      text.lines ++ .exitSubgraph :: (between.map .other ++ .enterSubgraph graph :: rest.lines)

/-- A graph that is planned: its state and those of its subgraphs. -/
structure PlannedGraph (π σ ω : Type) where
  /-- The graph with its lines planned. -/
  text : GraphText π
  /-- Its state. -/
  state : σ
  /-- The states of its subgraphs. -/
  past : List σ
  /-- What lines and states share. -/
  shared : ω

structure PlannedWrapper (π σ ω : Type) where
  /-- The text with its lines planned. -/
  text : WrapperText π
  /-- The states of all graphs. -/
  past : List σ
  /-- What lines and states share. -/
  shared : ω

def PlannedWrapper.planning (planned : PlannedWrapper π σ ω) : Planning π σ ω where
  lines := planned.text.lines
  planningStates := []
  pastPlanningStates := planned.past
  shared := planned.shared

namespace MemoryPlanner

variable (planner : MemoryPlanner π σ ω ε)

/-- The text of a graph without what is pointless at its end. -/
def graphWithoutPointless (outNames : List BufName) :
    GraphText π → Except (PlanError ε) (GraphText π)
  | .nil => .ok .nil
  | .planning line rest => do
      match ← graphWithoutPointless outNames rest with
      | .nil =>
          if ← planner.pointless outNames line then .ok .nil
          else .ok (.planning line .nil)
      | rest => .ok (.planning line rest)
  | .other text rest => (graphWithoutPointless outNames rest).map (.other text)
  | .subgraph graph body rest => (graphWithoutPointless outNames rest).map (.subgraph graph body)

def wrapperWithoutPointless (outNames : List BufName) :
    WrapperText π → Except (PlanError ε) (WrapperText π)
  | .last text => (planner.graphWithoutPointless outNames text).map .last
  | .again text between graph rest =>
      (wrapperWithoutPointless outNames rest).map (.again text between graph)

/-- Plan the lines of a graph, every subgraph in a state of its own. -/
def planGraph : GraphText π → σ → ω → Except (PlanError ε) (PlannedGraph π σ ω)
  | .nil, state, shared => .ok { text := .nil, state, past := [], shared }
  | .planning line rest, state, shared =>
      match planner.plan line state shared with
      | .error error => .error (.raised error)
      | .ok (planned, state, shared) =>
          (planGraph rest state shared).map fun done =>
            { done with text := .planning planned done.text }
  | .other text rest, state, shared =>
      (planGraph rest state shared).map fun done => { done with text := .other text done.text }
  | .subgraph graph body rest, state, shared => do
      let inner ← planGraph body planner.newState shared
      let outer ← planGraph rest state inner.shared
      return {
        text := .subgraph graph inner.text outer.text
        state := outer.state
        past := inner.past ++ inner.state :: outer.past
        shared := outer.shared }

def planWrapper : WrapperText π → ω → Except (PlanError ε) (PlannedWrapper π σ ω)
  | .last text, shared =>
      (planner.planGraph text planner.newState shared).map fun done =>
        { text := .last done.text, past := done.past ++ [done.state], shared := done.shared }
  | .again text between graph rest, shared => do
      let first ← planner.planGraph text planner.newState shared
      let others ← planWrapper rest first.shared
      return {
        text := .again first.text between graph others.text
        past := first.past ++ first.state :: others.past
        shared := others.shared }

/-! ## What is dropped -/

section Dropped

variable (outNames : List BufName)

theorem popPointless_append (later earlier : List (WrapperLine π)) :
    planner.popPointless outNames (later ++ earlier) =
      (planner.popPointless outNames later).bind fun kept =>
        if kept.isEmpty then planner.popPointless outNames earlier else .ok (kept ++ earlier) := by
  induction later with
  | nil => rfl
  | cons line later ih =>
      cases line with
      | planning line =>
          simp only [List.cons_append, popPointless]
          cases planner.pointless outNames line with
          | error raised => rfl
          | ok pointless =>
              cases pointless with
              | true => exact ih
              | false => rfl
      | enterSubgraph graph => rfl
      | exitSubgraph => rfl
      | other text => rfl

theorem withoutPointless_append (front rest : List (WrapperLine π)) :
    planner.withoutPointless outNames (front ++ rest) =
      (planner.withoutPointless outNames rest).bind fun kept =>
        if kept.isEmpty then planner.withoutPointless outNames front else .ok (front ++ kept) := by
  rw [withoutPointless, withoutPointless, withoutPointless, List.reverse_append,
    popPointless_append]
  cases planner.popPointless outNames rest.reverse with
  | error raised => rfl
  | ok kept =>
      cases kept with
      | nil => rfl
      | cons line kept => simp [Except.bind, Except.map]

theorem withoutPointless_planning (line : π) :
    planner.withoutPointless outNames [.planning line] =
      (planner.pointless outNames line).map fun pointless =>
        if pointless then [] else [.planning line] := by
  simp only [withoutPointless, List.reverse_singleton, popPointless]
  cases planner.pointless outNames line with
  | error raised => rfl
  | ok pointless => cases pointless <;> rfl

theorem withoutPointless_snoc {line : WrapperLine π} (other : ∀ planned, line ≠ .planning planned)
    (front : List (WrapperLine π)) :
    planner.withoutPointless outNames (front ++ [line]) = .ok (front ++ [line]) := by
  cases line with
  | planning line => exact absurd rfl (other line)
  | enterSubgraph graph => simp [withoutPointless, popPointless, Except.map]
  | exitSubgraph => simp [withoutPointless, popPointless, Except.map]
  | other text => simp [withoutPointless, popPointless, Except.map]

theorem withoutPointless_keeps {line : WrapperLine π}
    (other : ∀ planned, line ≠ .planning planned) (front rest : List (WrapperLine π)) :
    planner.withoutPointless outNames (front ++ line :: rest) =
      (planner.withoutPointless outNames rest).map fun kept => front ++ line :: kept := by
  rw [show front ++ line :: rest = front ++ [line] ++ rest by simp, withoutPointless_append,
    planner.withoutPointless_snoc outNames other]
  cases planner.withoutPointless outNames rest with
  | error raised => rfl
  | ok kept =>
      cases kept with
      | nil => rfl
      | cons next kept => simp [Except.bind, Except.map]

theorem withoutPointless_graph (text : GraphText π) :
    planner.withoutPointless outNames text.lines =
      (planner.graphWithoutPointless outNames text).map GraphText.lines := by
  induction text with
  | nil => rfl
  | planning line rest ih =>
      rw [GraphText.lines, ← List.singleton_append, withoutPointless_append, ih,
        withoutPointless_planning, graphWithoutPointless]
      cases planner.graphWithoutPointless outNames rest with
      | error raised => rfl
      | ok kept =>
          cases kept with
          | nil =>
              change Except.map _ (planner.pointless outNames line) = Except.map _ (Except.bind _ _)
              cases planner.pointless outNames line with
              | error raised => rfl
              | ok pointless => cases pointless <;> rfl
          | planning kept rest => rfl
          | other text rest => rfl
          | subgraph graph body rest => rfl
  | other text rest ih =>
      rw [GraphText.lines, graphWithoutPointless, ← List.nil_append (_ :: _),
        withoutPointless_keeps planner outNames (by simp), ih]
      cases planner.graphWithoutPointless outNames rest <;> rfl
  | subgraph graph body rest _ ih =>
      rw [GraphText.lines, graphWithoutPointless, ← List.cons_append,
        withoutPointless_keeps planner outNames (by simp), ih]
      cases planner.graphWithoutPointless outNames rest <;> rfl

theorem withoutPointless_wrapper (text : WrapperText π) :
    planner.withoutPointless outNames text.lines =
      (planner.wrapperWithoutPointless outNames text).map WrapperText.lines := by
  induction text with
  | last text =>
      rw [WrapperText.lines, wrapperWithoutPointless, withoutPointless_graph]
      cases planner.graphWithoutPointless outNames text <;> rfl
  | again text between graph rest ih =>
      rw [WrapperText.lines, wrapperWithoutPointless, ← List.cons_append, ← List.append_assoc,
        withoutPointless_keeps planner outNames (by simp), ih]
      cases planner.wrapperWithoutPointless outNames rest with
      | error raised => rfl
      | ok kept => simp [Except.map, WrapperText.lines]

/-- Only lines to plan are dropped, and only at the end. -/
theorem exists_dropped {lines kept : List (WrapperLine π)}
    (stays : planner.withoutPointless outNames lines = .ok kept) :
    ∃ dropped : List π, lines = kept ++ dropped.map .planning := by
  induction lines using List.reverseRecOn generalizing kept with
  | nil =>
      cases stays
      exact ⟨[], rfl⟩
  | append_singleton lines line ih =>
      cases line with
      | planning line =>
          rw [withoutPointless_append, withoutPointless_planning] at stays
          obtain ⟨last, judged, stays⟩ := Run.bind_eq_ok.mp stays
          obtain ⟨pointless, -, rfl⟩ := Run.map_eq_ok.mp judged
          cases pointless with
          | true =>
              obtain ⟨dropped, rfl⟩ := ih stays
              exact ⟨dropped ++ [line], by simp⟩
          | false =>
              cases stays
              exact ⟨[], by simp⟩
      | enterSubgraph graph =>
          rw [withoutPointless_snoc planner outNames (by simp)] at stays
          cases stays
          exact ⟨[], by simp⟩
      | exitSubgraph =>
          rw [withoutPointless_snoc planner outNames (by simp)] at stays
          cases stays
          exact ⟨[], by simp⟩
      | other text =>
          rw [withoutPointless_snoc planner outNames (by simp)] at stays
          cases stays
          exact ⟨[], by simp⟩

end Dropped

/-! ## The stack of states -/

/-- With its state on top of the stack, the lines of a graph are planned as the graph is. -/
theorem exec_graph (text : GraphText π) (rest before : List (WrapperLine π)) (state : σ)
    (states past : List σ) (shared : ω) :
    Run.exec planner.step
        { lines := before, planningStates := state :: states, pastPlanningStates := past, shared }
        (text.lines ++ rest) =
      (planner.planGraph text state shared).bind fun done =>
        Run.exec planner.step
          { lines := before ++ done.text.lines
            planningStates := done.state :: states
            pastPlanningStates := past ++ done.past
            shared := done.shared } rest := by
  induction text generalizing rest before state states past shared with
  | nil => simp [GraphText.lines, planGraph, Except.bind]
  | planning line text ih =>
      simp only [GraphText.lines, List.cons_append, Run.exec, step, planGraph]
      cases planner.plan line state shared with
      | error raised => rfl
      | ok planned =>
          obtain ⟨planned, state, shared⟩ := planned
          simp only [ih]
          cases planner.planGraph text state shared with
          | error raised => rfl
          | ok done => simp [Except.bind, Except.map, GraphText.lines]
  | other line text ih =>
      rw [GraphText.lines, List.cons_append, Run.exec, step, planGraph]
      simp only [ih]
      cases planner.planGraph text state shared with
      | error raised => rfl
      | ok done => simp [Except.bind, Except.map, GraphText.lines]
  | subgraph graph body text ihBody ih =>
      rw [GraphText.lines, List.cons_append, List.append_assoc, Run.exec, step, planGraph]
      simp only [ihBody]
      cases planner.planGraph body planner.newState shared with
      | error raised => rfl
      | ok inner =>
          -- The state of the subgraph leaves the stack, and the one below has not changed.
          simp only [Except.bind, List.cons_append, Run.exec, step, ih]
          change _ = Except.bind (Except.bind (planner.planGraph text state inner.shared) _) _
          cases planner.planGraph text state inner.shared with
          | error raised => rfl
          | ok outer => simp [Except.bind, pure, Except.pure, GraphText.lines]

theorem exec_between (between : List String) (rest : List (WrapperLine π))
    (planning : Planning π σ ω) :
    Run.exec planner.step planning (between.map .other ++ rest) =
      Run.exec planner.step
        { planning with lines := planning.lines ++ between.map .other } rest := by
  induction between generalizing planning with
  | nil => simp
  | cons text between ih =>
      rw [List.map_cons, List.cons_append, Run.exec, step]
      simp [ih]

theorem exec_wrapper (text : WrapperText π) (before : List (WrapperLine π)) (past : List σ)
    (shared : ω) :
    (Run.exec planner.step
        { lines := before
          planningStates := [planner.newState]
          pastPlanningStates := past
          shared } text.lines).bind finish =
      (planner.planWrapper text shared).map fun planned =>
        { lines := before ++ planned.text.lines
          planningStates := []
          pastPlanningStates := past ++ planned.past
          shared := planned.shared } := by
  induction text generalizing before past shared with
  | last text =>
      rw [WrapperText.lines, ← List.append_nil text.lines, exec_graph, planWrapper]
      cases planner.planGraph text planner.newState shared with
      | error raised => rfl
      | ok done => simp [Except.bind, Except.map, finish, WrapperText.lines]
  | again text between graph rest ih =>
      rw [WrapperText.lines, exec_graph, planWrapper]
      cases planner.planGraph text planner.newState shared with
      | error raised => rfl
      | ok first =>
          simp only [Except.bind, Run.exec, step, exec_between]
          refine (ih _ _ _).trans ?_
          change _ = Except.map _ (Except.bind (planner.planWrapper rest first.shared) _)
          cases planner.planWrapper rest first.shared with
          | error raised => rfl
          | ok others => simp [Except.bind, Except.map, pure, Except.pure, WrapperText.lines]

/-! ## What is planned at all -/

/-- The graphs that are open before the lines are left in them, all but one of them. -/
inductive Leaves : ℕ → List (WrapperLine π) → Prop where
  | last (text : GraphText π) : Leaves 1 text.lines
  | leave {depth : ℕ} {rest : List (WrapperLine π)} (text : GraphText π)
      (after : Leaves depth rest) : Leaves (depth + 1) (text.lines ++ .exitSubgraph :: rest)
  | other {rest : List (WrapperLine π)} (text : String) (after : Leaves 0 rest) :
      Leaves 0 (.other text :: rest)
  | enter {rest : List (WrapperLine π)} (graph : String) (after : Leaves 1 rest) :
      Leaves 0 (.enterSubgraph graph :: rest)

namespace Leaves

variable {depth : ℕ} {rest : List (WrapperLine π)}

theorem planning (line : π) (after : Leaves (depth + 1) rest) :
    Leaves (depth + 1) (.planning line :: rest) := by
  cases after with
  | last text => exact last (.planning line text)
  | leave text after => exact leave (.planning line text) after

theorem anyOther (text : String) (after : Leaves depth rest) :
    Leaves depth (.other text :: rest) := by
  cases after with
  | last lines => exact last (.other text lines)
  | leave lines after => exact leave (.other text lines) after
  | other line after => exact other text (other line after)
  | enter graph after => exact other text (enter graph after)

theorem subgraph (graph : String) (after : Leaves (depth + 2) rest) :
    Leaves (depth + 1) (.enterSubgraph graph :: rest) := by
  cases after with
  | leave body after =>
      cases after with
      | last text => exact last (.subgraph graph body text)
      | leave text after =>
          have whole := leave (.subgraph graph body text) after
          rwa [GraphText.lines, List.cons_append, List.append_assoc] at whole

theorem exists_text (leaves : Leaves depth rest) :
    (depth = 1 → ∃ text : WrapperText π, rest = text.lines) ∧
      (depth = 0 → ∃ (between : List String) (graph : String) (text : WrapperText π),
        rest = between.map .other ++ .enterSubgraph graph :: text.lines) := by
  induction leaves with
  | last text => exact ⟨fun _ => ⟨.last text, rfl⟩, by simp⟩
  | leave text _ ih =>
      refine ⟨fun one => ?_, by simp⟩
      obtain ⟨between, graph, others, rfl⟩ := ih.2 (by omega)
      exact ⟨.again text between graph others, rfl⟩
  | other line _ ih =>
      refine ⟨by simp, fun _ => ?_⟩
      obtain ⟨between, graph, text, rfl⟩ := ih.2 rfl
      exact ⟨line :: between, graph, text, rfl⟩
  | enter graph _ ih =>
      refine ⟨by simp, fun _ => ?_⟩
      obtain ⟨text, rfl⟩ := ih.1 rfl
      exact ⟨[], graph, text, rfl⟩

end Leaves

theorem step_planning_eq_ok {planning next : Planning π σ ω} {line : π}
    (taken : planner.step planning (.planning line) = .ok next) :
    planning.planningStates ≠ [] ∧
      next.planningStates.length = planning.planningStates.length := by
  cases states : planning.planningStates with
  | nil => simp [step, states] at taken
  | cons state below =>
      rw [step, states] at taken
      simp only at taken
      cases planned : planner.plan line state planning.shared with
      | error raised => simp [planned] at taken
      | ok done =>
          simp only [planned, Except.ok.injEq] at taken
          subst taken
          simp

theorem step_exit_eq_ok {planning next : Planning π σ ω}
    (taken : planner.step planning .exitSubgraph = .ok next) :
    planning.planningStates.length = next.planningStates.length + 1 := by
  cases states : planning.planningStates with
  | nil => simp [step, states] at taken
  | cons state below =>
      simp only [step, states, Except.ok.injEq] at taken
      subst taken
      rfl

theorem leaves_of_exec {lines : List (WrapperLine π)} {planning final : Planning π σ ω}
    (planned : Run.exec planner.step planning lines = .ok final)
    (one : final.planningStates.length = 1) :
    Leaves planning.planningStates.length lines := by
  induction lines generalizing planning with
  | nil =>
      cases planned
      rw [one]
      exact Leaves.last .nil
  | cons line lines ih =>
      obtain ⟨next, taken, planned⟩ := Run.exec_cons_eq_ok.mp planned
      have after := ih planned
      cases line with
      | planning line =>
          obtain ⟨opened, same⟩ := planner.step_planning_eq_ok taken
          obtain ⟨depth, above⟩ := Nat.exists_eq_succ_of_ne_zero
            (mt List.eq_nil_of_length_eq_zero opened)
          rw [same, above] at after
          rw [above]
          exact after.planning line
      | enterSubgraph graph =>
          cases taken
          cases states : planning.planningStates with
          | nil =>
              rw [states] at after
              exact .enter graph after
          | cons state below =>
              rw [states] at after
              exact after.subgraph graph
      | exitSubgraph =>
          rw [planner.step_exit_eq_ok taken]
          exact .leave .nil after
      | other text =>
          cases taken
          exact after.anyOther text

theorem finish_eq_ok {planning final : Planning π σ ω}
    (finished : (finish planning : Except (PlanError ε) (Planning π σ ω)) = .ok final) :
    planning.planningStates.length = 1 := by
  cases states : planning.planningStates with
  | nil => simp [finish, states] at finished
  | cons state below =>
      cases below with
      | nil => rfl
      | cons other below => simp [finish, states] at finished

theorem exists_graph_append (text : GraphText π) (dropped : List π) :
    ∃ longer : GraphText π, text.lines ++ dropped.map .planning = longer.lines := by
  induction text with
  | nil =>
      induction dropped with
      | nil => exact ⟨.nil, rfl⟩
      | cons line dropped ih =>
          obtain ⟨longer, same⟩ := ih
          exact ⟨.planning line longer, congrArg (WrapperLine.planning line :: ·) same⟩
  | planning line text ih =>
      obtain ⟨longer, same⟩ := ih
      exact ⟨.planning line longer, by rw [GraphText.lines, List.cons_append, same]; rfl⟩
  | other line text ih =>
      obtain ⟨longer, same⟩ := ih
      exact ⟨.other line longer, by rw [GraphText.lines, List.cons_append, same]; rfl⟩
  | subgraph graph body text _ ih =>
      obtain ⟨longer, same⟩ := ih
      exact ⟨.subgraph graph body longer, by simp [GraphText.lines, same]⟩

theorem exists_wrapper_append (text : WrapperText π) (dropped : List π) :
    ∃ longer : WrapperText π, text.lines ++ dropped.map .planning = longer.lines := by
  induction text with
  | last text =>
      obtain ⟨longer, same⟩ := exists_graph_append text dropped
      exact ⟨.last longer, same⟩
  | again text between graph rest ih =>
      obtain ⟨longer, same⟩ := ih
      exact ⟨.again text between graph longer, by simp [WrapperText.lines, same]⟩

theorem exists_text_of_eq_ok {wrapper : PythonWrapper π} {shared : ω} {final : Planning π σ ω}
    (planned : planner.memoryPlanReuse wrapper shared = .ok final) :
    ∃ text : WrapperText π, wrapper.lines = text.lines := by
  obtain ⟨kept, stays, planned⟩ := Run.bind_eq_ok.mp planned
  obtain ⟨planning, taken, finished⟩ := Run.bind_eq_ok.mp planned
  have leaves := planner.leaves_of_exec taken (finish_eq_ok finished)
  obtain ⟨text, rfl⟩ := leaves.exists_text.1 rfl
  obtain ⟨dropped, whole⟩ := planner.exists_dropped wrapper.outNames stays
  obtain ⟨longer, same⟩ := exists_wrapper_append text dropped
  exact ⟨longer, whole.trans same⟩

theorem memoryPlanReuse_text {wrapper : PythonWrapper π} {text : WrapperText π} (shared : ω)
    (whole : wrapper.lines = text.lines) :
    planner.memoryPlanReuse wrapper shared =
      (planner.wrapperWithoutPointless wrapper.outNames text).bind fun kept =>
        (planner.planWrapper kept shared).map PlannedWrapper.planning := by
  rw [memoryPlanReuse, whole, withoutPointless_wrapper]
  cases planner.wrapperWithoutPointless wrapper.outNames text with
  | error raised => rfl
  | ok kept =>
      refine (planner.exec_wrapper kept [] [] shared).trans ?_
      simp only [List.nil_append]
      rfl

/-- A wrapper whose subgraphs are nested is planned as recursive planning does it: without the
lines at its end that are for no output, every graph in a state that no other graph touches.  Any
other wrapper is refused. -/
theorem memory_plan_nested (wrapper : PythonWrapper π) (shared : ω) :
    (∃ text : WrapperText π, wrapper.lines = text.lines ∧
        planner.memoryPlanReuse wrapper shared =
          (planner.wrapperWithoutPointless wrapper.outNames text).bind fun kept =>
            (planner.planWrapper kept shared).map PlannedWrapper.planning) ∨
      (∀ text : WrapperText π, wrapper.lines ≠ text.lines) ∧
        ∃ error, planner.memoryPlanReuse wrapper shared = .error error := by
  by_cases nested : ∃ text : WrapperText π, wrapper.lines = text.lines
  · obtain ⟨text, whole⟩ := nested
    exact .inl ⟨text, whole, planner.memoryPlanReuse_text shared whole⟩
  · refine .inr ⟨fun text whole => nested ⟨text, whole⟩, ?_⟩
    cases planned : planner.memoryPlanReuse wrapper shared with
    | error error => exact ⟨error, rfl⟩
    | ok final => exact absurd (planner.exists_text_of_eq_ok planned) nested

end MemoryPlanner

end RduHdi
