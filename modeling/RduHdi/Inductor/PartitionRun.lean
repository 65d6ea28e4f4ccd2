import RduHdi.Calls
import RduHdi.Inductor.PartitionSignature

/-!
# Partitioned graphs compute what the graph computes

What partition signatures are for: every partition becomes a function that is called with its
inputs, and gives its outputs back.  When the nodes are in an order that the scheduler can leave
them in, the calls compute the outputs of the graph as the nodes in place do.  The code generator
is not part of this repository; what its code for a node is taken to touch is stated here.
-/

namespace RduHdi

open Calls

/-- How the function of a partition is called: it has its inputs and the constants. -/
def GraphPartitionSignature.callSignature (signature : GraphPartitionSignature) :
    Signature BufName where
  inputs := signature.inputNodes ++ signature.constantNames
  outputs := signature.outputNodes
  deallocated := (signature.inputDeallocation.filter Prod.snd).map Prod.fst

namespace Scheduler

variable (scheduler : Scheduler) {V : Type*}

/-! ## What nodes do -/

/-- The buffers that a node reads: of what it depends on, what it does not produce itself. -/
def uses (node : SchedulerNode) : List BufName :=
  (node.deps.filter fun name => !scheduler.isNone name && decide (name ∉ node.outputs)).map
    scheduler.realName

/-- The buffers that a node writes. -/
def defs (node : SchedulerNode) : List BufName :=
  (node.outputs.filter fun name => !scheduler.isNone name).map scheduler.realName

/-- The buffers that are freed after a node: one of `NoneLayout` was never allocated. -/
def frees (node : SchedulerNode) : List BufName :=
  node.lastUsage.filter fun name => decide (name ∈ scheduler.nameToNode) && !scheduler.isNone name

/-- What the code generator makes of nodes. -/
structure GeneratedCode (V : Type*) where
  /-- The code of a node. -/
  op : SchedulerNode → Op BufName V
  /-- It reads what the node depends on and does not produce. -/
  uses_eq : ∀ node, (op node).uses = scheduler.uses node
  /-- It writes what the node produces. -/
  defs_eq : ∀ node, (op node).defs = scheduler.defs node
  /-- It frees what the node is the last to use. -/
  frees_eq : ∀ node, (op node).frees = scheduler.frees node

/-- The code, when `kernel` says what nodes compute. -/
def GeneratedCode.ofKernel (kernel : SchedulerNode → Store BufName V → BufName → V) :
    scheduler.GeneratedCode V where
  op node :=
    { uses := scheduler.uses node
      defs := scheduler.defs node
      frees := scheduler.frees node
      compute := kernel node }
  uses_eq _ := rfl
  defs_eq _ := rfl
  frees_eq _ := rfl

/-- The nodes in an order that respects what they depend on: nothing is used or freed before it is
produced, and a buffer is not produced again.  A new name of a buffer is produced by a node that
reads the buffer, and only used afterwards; what a node is the last to use is not such a name. -/
structure Scheduled (nodes : List SchedulerNode) : Prop where
  /-- What a node depends on or is the last to use is not produced later. -/
  ordered : nodes.Pairwise fun node later =>
    ∀ name ∈ node.deps ++ node.lastUsage, name ∉ later.outputs
  /-- What a buffer stands for is not produced later. -/
  single : nodes.Pairwise fun node later =>
    ∀ name ∈ node.outputs, scheduler.realName name ∉ later.outputs
  /-- A new name is produced by a node that reads the buffer. -/
  mutates : ∀ node ∈ nodes, ∀ name ∈ node.outputs, scheduler.isNone name = false →
    scheduler.realName name = name ∨ scheduler.realName name ∈ scheduler.uses node
  /-- A new name is used once it is produced. -/
  produced : ∀ entry ∈ nodes.zipIdx, ∀ name ∈ entry.1.deps, scheduler.realName name = name ∨
    ∃ node ∈ nodes.take (entry.2 + 1), name ∈ node.outputs
  /-- What a node is the last to use is a buffer of its own. -/
  freed : ∀ node ∈ nodes, ∀ name ∈ node.lastUsage, name ∈ scheduler.nameToNode →
    scheduler.realName name = name
  /-- What is read is a buffer of the graph or a constant. -/
  used_known : ∀ node ∈ nodes, ∀ name ∈ scheduler.uses node,
    name ∈ scheduler.nameToNode ∨ name ∈ scheduler.constants
  /-- What is produced is of a buffer of the graph. -/
  outputs_known : ∀ node ∈ nodes, ∀ name ∈ node.outputs,
    scheduler.realName name ∈ scheduler.nameToNode

/-- `partition_input_names`. -/
def inputs (partition : List SchedulerNode) : KeySet BufName :=
  scheduler.partitionInputNames partition
    ((scheduler.mergeList partition).filter fun name => !scheduler.isNone name)

/-- `returned_output_names`. -/
def returned (unmet : KeySet BufName) (partition : List SchedulerNode) : KeySet BufName :=
  scheduler.returnedOutputNames unmet partition (scheduler.inputs partition)

/-- The signature that a turn of the loop builds. -/
def signature (unmet : KeySet BufName) (partition : List SchedulerNode) (skipCudagraph : Bool) :
    GraphPartitionSignature :=
  let inputNodes := (scheduler.inputs partition).keys.filter fun name => name ∈ scheduler.nameToNode
  { symbolInputs := scheduler.symbolInputs partition inputNodes
    inputNodes
    outputNodes := (scheduler.returned unmet partition).keys.filter fun name =>
      !scheduler.isNone name
    inputDeallocation := inputNodes.map fun name =>
      (name, decide (name ∈ bufferNamesToFree partition))
    skipCudagraph
    constantNames := (scheduler.inputs partition).keys.filter fun name =>
      name ∈ scheduler.constants }

/-- What is unmet before a partition. -/
def unmetBefore (unmet : KeySet BufName) (partition : List SchedulerNode) : KeySet BufName :=
  (scheduler.inputs partition).addAll
    (OrderedSet.diff unmet (scheduler.returned unmet partition)).keys

/-- What a partition produces. -/
abbrev outs (partition : List SchedulerNode) : List BufName :=
  partition.flatMap SchedulerNode.outputs

/-- A buffer of `NoneLayout` is last used in the partition that produces it: in another one, it
would be an input that nobody can give. -/
def FreesOwnNone (partition : List SchedulerNode) : Prop :=
  ∀ node ∈ partition, ∀ name ∈ node.lastUsage, name ∈ scheduler.nameToNode →
    scheduler.isNone name = true → name ∈ outs partition

variable {scheduler} {name : BufName} {node : SchedulerNode} {partition : List SchedulerNode}

theorem mem_uses : name ∈ scheduler.uses node ↔ ∃ dep ∈ node.deps, scheduler.isNone dep = false ∧
    dep ∉ node.outputs ∧ scheduler.realName dep = name := by
  simp only [uses, List.mem_map, List.mem_filter, Bool.and_eq_true, Bool.not_eq_true',
    decide_eq_true_iff, and_assoc]

theorem mem_defs : name ∈ scheduler.defs node ↔ ∃ output ∈ node.outputs,
    scheduler.isNone output = false ∧ scheduler.realName output = name := by
  simp only [defs, List.mem_map, List.mem_filter, Bool.not_eq_true', and_assoc]

theorem mem_frees : name ∈ scheduler.frees node ↔ name ∈ node.lastUsage ∧
    name ∈ scheduler.nameToNode ∧ scheduler.isNone name = false := by
  rw [frees, List.mem_filter, Bool.and_eq_true, decide_eq_true_iff, Bool.not_eq_true']

namespace GeneratedCode

variable (code : scheduler.GeneratedCode V)

theorem mem_uses : name ∈ (code.op node).uses ↔ ∃ dep ∈ node.deps, scheduler.isNone dep = false ∧
    dep ∉ node.outputs ∧ scheduler.realName dep = name := by
  rw [code.uses_eq, Scheduler.mem_uses]

theorem mem_defs : name ∈ (code.op node).defs ↔ ∃ output ∈ node.outputs,
    scheduler.isNone output = false ∧ scheduler.realName output = name := by
  rw [code.defs_eq, Scheduler.mem_defs]

theorem mem_frees : name ∈ (code.op node).frees ↔ name ∈ node.lastUsage ∧
    name ∈ scheduler.nameToNode ∧ scheduler.isNone name = false := by
  rw [code.frees_eq, Scheduler.mem_frees]

end GeneratedCode

theorem mem_bufferNamesToFree :
    name ∈ bufferNamesToFree partition ↔ ∃ node ∈ partition, name ∈ node.lastUsage := by
  rw [bufferNamesToFree, OrderedSet.mem_of, List.mem_flatMap]

/-- The inputs: what is used and not produced, and what is freed and not produced. -/
theorem mem_inputs :
    name ∈ scheduler.inputs partition ↔
      (∃ node ∈ partition, ∃ dep ∈ node.deps, scheduler.isNone dep = false ∧
        dep ∉ outs partition ∧ scheduler.realName dep = name) ∨
      (∃ node ∈ partition, name ∈ node.lastUsage ∧ name ∈ scheduler.nameToNode) ∧
        name ∉ outs partition := by
  rw [inputs, partitionInputNames]
  simp only [AList.mem_addAll, List.mem_filter, ← AList.mem_keys, OrderedSet.mem_diff,
    OrderedSet.mem_of, List.mem_map, outputNames, mem_bufferNamesToFree, decide_eq_true_iff,
    scheduler.mem_mergeList, Bool.not_eq_true']
  constructor
  · rintro (⟨⟨⟨node, member, used⟩, unproduced⟩, known⟩ | ⟨dep, ⟨⟨⟨node, member, isDep⟩, isSome⟩,
      unproduced⟩, isReal⟩)
    · exact .inr ⟨⟨node, member, used, known⟩, unproduced⟩
    · exact .inl ⟨node, member, dep, isDep, isSome, unproduced, isReal⟩
  · rintro (⟨node, member, dep, isDep, isSome, unproduced, isReal⟩ | ⟨⟨node, member, used, known⟩,
      unproduced⟩)
    · exact .inr ⟨dep, ⟨⟨⟨node, member, isDep⟩, isSome⟩, unproduced⟩, isReal⟩
    · exact .inl ⟨⟨⟨node, member, used⟩, unproduced⟩, known⟩

theorem mem_returned {unmet : KeySet BufName} :
    name ∈ scheduler.returned unmet partition ↔ ∃ output,
      (output ∈ outs partition ∧ output ∈ unmet ∨
        output ∈ scheduler.inputs partition ∧ output ∈ scheduler.nameToNode ∧
          output ∉ bufferNamesToFree partition) ∧
      scheduler.realName output = name := by
  rw [returned, returnedOutputNames]
  simp only [OrderedSet.mem_of, List.mem_map, ← AList.mem_keys, AList.mem_addAll, List.mem_filter,
    OrderedSet.mem_inter, outputNames, decide_eq_true_iff]
  exact exists_congr fun output => and_congr_left fun _ => or_comm

theorem mem_unmetBefore {unmet : KeySet BufName} :
    name ∈ scheduler.unmetBefore unmet partition ↔ name ∈ scheduler.inputs partition ∨
      name ∈ unmet ∧ name ∉ scheduler.returned unmet partition := by
  rw [unmetBefore, AList.mem_addAll, ← AList.mem_keys, OrderedSet.mem_diff, or_comm]

section Signature

variable {unmet : KeySet BufName} {skipCudagraph : Bool}

theorem mem_callInputs :
    name ∈ (scheduler.signature unmet partition skipCudagraph).callSignature.inputs ↔
      name ∈ scheduler.inputs partition ∧
        (name ∈ scheduler.nameToNode ∨ name ∈ scheduler.constants) := by
  simp only [GraphPartitionSignature.callSignature, signature, List.mem_append, List.mem_filter,
    ← AList.mem_keys, decide_eq_true_iff, and_or_left]

theorem mem_callOutputs :
    name ∈ (scheduler.signature unmet partition skipCudagraph).callSignature.outputs ↔
      name ∈ scheduler.returned unmet partition ∧ scheduler.isNone name = false := by
  simp only [GraphPartitionSignature.callSignature, signature, List.mem_filter, ← AList.mem_keys,
    Bool.not_eq_true']

theorem mem_callDeallocated :
    name ∈ (scheduler.signature unmet partition skipCudagraph).callSignature.deallocated ↔
      name ∈ scheduler.inputs partition ∧ name ∈ scheduler.nameToNode ∧
        name ∈ bufferNamesToFree partition := by
  simp only [GraphPartitionSignature.callSignature, signature, List.mem_map, List.mem_filter,
    ← AList.mem_keys, decide_eq_true_iff]
  constructor
  · rintro ⟨_, ⟨⟨other, ⟨isInput, known⟩, rfl⟩, isFreed⟩, rfl⟩
    exact ⟨isInput, known, of_decide_eq_true isFreed⟩
  · rintro ⟨isInput, known, isFreed⟩
    exact ⟨(name, _), ⟨⟨name, ⟨isInput, known⟩, rfl⟩, decide_eq_true isFreed⟩, rfl⟩

end Signature

/-! ## One partition -/

section Partition

variable {done rest : List SchedulerNode} (resolved : scheduler.Resolved)
  (scheduled : scheduler.Scheduled (done ++ partition ++ rest))
  (code : scheduler.GeneratedCode V)

theorem mem_schedule (member : node ∈ partition) : node ∈ done ++ partition ++ rest :=
  List.mem_append_left _ (List.mem_append_right _ member)

include scheduled

/-- What a version that is used and not produced stands for is not produced either. -/
theorem realName_notMem_outs (member : node ∈ partition) {dep : BufName} (isDep : dep ∈ node.deps)
    (unproduced : dep ∉ outs partition) : scheduler.realName dep ∉ outs partition := by
  obtain ⟨front, back, isPartition⟩ := List.append_of_mem member
  have split : done ++ partition ++ rest = done ++ front ++ [node] ++ (back ++ rest) := by
    rw [isPartition]
    simp only [List.append_assoc, List.cons_append, List.nil_append]
  have entry : (node, (done ++ front).length) ∈ (done ++ partition ++ rest).zipIdx := by
    rw [split, List.mem_zipIdx_iff_getElem?, List.append_assoc _ [node],
      List.getElem?_append_right (Nat.le_refl _), Nat.sub_self]
    rfl
  rcases scheduled.produced _ entry dep isDep with same | ⟨maker, early, isOutput⟩
  · rwa [same]
  · rw [split, List.take_left' (by rw [List.length_append]; rfl)] at early
    have outside : maker ∉ partition := fun inside =>
      unproduced (List.mem_flatMap.mpr ⟨maker, inside, isOutput⟩)
    have before : maker ∈ done := by
      rcases List.mem_append.mp early with early | now
      · rcases List.mem_append.mp early with before | inside
        · exact before
        · exact absurd (isPartition ▸ List.mem_append_left _ inside) outside
      · exact absurd (List.mem_singleton.mp now ▸ member) outside
    intro produced
    obtain ⟨later, isLater, isOutputLater⟩ := List.mem_flatMap.mp produced
    have single := scheduled.single
    rw [List.append_assoc, List.pairwise_append] at single
    exact single.2.2 maker before later (List.mem_append_left _ isLater) dep isOutput isOutputLater

include resolved in
theorem realName_of_mem_inputs (member : name ∈ scheduler.inputs partition) :
    scheduler.realName name = name := by
  rcases mem_inputs.mp member with ⟨node, _, dep, _, _, _, rfl⟩ | ⟨⟨node, inside, isLast, known⟩, _⟩
  · exact resolved.realName_real dep
  · exact scheduled.freed node (mem_schedule inside) name isLast known

theorem notMem_outs_of_mem_inputs (member : name ∈ scheduler.inputs partition) :
    name ∉ outs partition := by
  rcases mem_inputs.mp member with ⟨node, inside, dep, isDep, _, unproduced, rfl⟩ | ⟨_, unproduced⟩
  · exact realName_notMem_outs scheduled inside isDep unproduced
  · exact unproduced

omit scheduled in
theorem isNone_of_freed (ownNone : scheduler.FreesOwnNone partition)
    (isFreed : name ∈ bufferNamesToFree partition) (known : name ∈ scheduler.nameToNode)
    (unproduced : name ∉ outs partition) : scheduler.isNone name = false := by
  obtain ⟨node, inside, isLast⟩ := mem_bufferNamesToFree.mp isFreed
  by_contra isNone
  exact unproduced (ownNone node inside name isLast known (Bool.eq_true_of_not_eq_false isNone))

omit scheduled in
theorem inputs_needed (ownNone : scheduler.FreesOwnNone partition)
    (member : name ∈ scheduler.inputs partition) :
    ∃ op ∈ partition.map code.op, name ∈ op.uses ∨ name ∈ op.frees := by
  rcases mem_inputs.mp member with ⟨node, inside, dep, isDep, isSome, unproduced, isReal⟩ |
    ⟨⟨node, inside, isLast, known⟩, unproduced⟩
  · have own : dep ∉ node.outputs := fun isOutput =>
      unproduced (List.mem_flatMap.mpr ⟨node, inside, isOutput⟩)
    exact ⟨_, List.mem_map_of_mem inside,
      .inl (code.mem_uses.mpr ⟨dep, isDep, isSome, own, isReal⟩)⟩
  · have isSome := isNone_of_freed ownNone (mem_bufferNamesToFree.mpr ⟨node, inside, isLast⟩) known
      unproduced
    exact ⟨_, List.mem_map_of_mem inside, .inr (code.mem_frees.mpr ⟨isLast, known, isSome⟩)⟩

theorem updates_of_notMem_outs (unproduced : name ∉ outs partition) :
    Updates (partition.map code.op) name := by
  intro op member written
  obtain ⟨node, inside, rfl⟩ := List.mem_map.mp member
  obtain ⟨output, isOutput, isSome, rfl⟩ := code.mem_defs.mp written
  rcases scheduled.mutates node (mem_schedule inside) output isOutput isSome with same | used
  · rw [same] at unproduced
    exact absurd (List.mem_flatMap.mpr ⟨node, inside, isOutput⟩) unproduced
  · rwa [code.uses_eq]

/-- The nodes need the inputs only. -/
theorem closed_of_inputs (front : List SchedulerNode) {back : List SchedulerNode}
    (split : partition = front ++ back) (known : Set BufName)
    (inputs_known : ∀ name ∈ scheduler.inputs partition,
      name ∈ scheduler.nameToNode ∨ name ∈ scheduler.constants → name ∈ known)
    (front_known : ∀ node ∈ front, ∀ name ∈ (code.op node).defs, name ∈ known) :
    Closed known (back.map code.op) := by
  induction back generalizing front known with
  | nil => trivial
  | cons node back ih =>
      have inside : node ∈ partition := split ▸ List.mem_append_right _ List.mem_cons_self
      have scheduledNode : node ∈ done ++ partition ++ rest := mem_schedule inside
      -- A name that the node depends on or frees is not produced after it.
      have notLater : ∀ name ∈ node.deps ++ node.lastUsage, ∀ maker ∈ back,
          name ∉ maker.outputs := by
        have ordered := scheduled.ordered
        rw [split, List.append_assoc, List.append_assoc, List.pairwise_append,
          List.pairwise_append, List.cons_append, List.pairwise_cons] at ordered
        intro name needed maker later
        exact ordered.2.1.2.1.1 maker (List.mem_append_left _ later) name needed
      refine ⟨?_, ?_, ?_⟩
      · intro name isUse
        obtain ⟨dep, isDep, isSome, own, isReal⟩ := code.mem_uses.mp isUse
        by_cases produced : dep ∈ outs partition
        · obtain ⟨maker, isMaker, isOutput⟩ := List.mem_flatMap.mp produced
          rw [split] at isMaker
          rcases List.mem_append.mp isMaker with earlier | later
          · exact front_known maker earlier name
              (code.mem_defs.mpr ⟨dep, isOutput, isSome, isReal⟩)
          · rcases List.mem_cons.mp later with rfl | later
            · exact absurd isOutput own
            · exact absurd isOutput (notLater dep (List.mem_append_left _ isDep) maker later)
        · refine inputs_known name (mem_inputs.mpr (.inl ?_))
            (scheduled.used_known node scheduledNode name (code.uses_eq node ▸ isUse))
          exact ⟨node, inside, dep, isDep, isSome, produced, isReal⟩
      · intro name isFreed
        obtain ⟨isLast, isKnown, isSome⟩ := code.mem_frees.mp isFreed
        have isReal := scheduled.freed node scheduledNode name isLast isKnown
        by_cases produced : name ∈ outs partition
        · obtain ⟨maker, isMaker, isOutput⟩ := List.mem_flatMap.mp produced
          rw [split] at isMaker
          rcases List.mem_append.mp isMaker with earlier | later
          · exact .inl
              (front_known maker earlier name
                (code.mem_defs.mpr ⟨name, isOutput, isSome, isReal⟩))
          · rcases List.mem_cons.mp later with rfl | later
            · exact .inr (code.mem_defs.mpr ⟨name, isOutput, isSome, isReal⟩)
            · exact absurd isOutput (notLater name (List.mem_append_right _ isLast) maker later)
        · exact .inl (inputs_known name
            (mem_inputs.mpr (.inr ⟨⟨node, inside, isLast, isKnown⟩, produced⟩)) (.inl isKnown))
      · refine ih (front ++ [node]) (by rw [split, List.append_assoc]; rfl) _ ?_ ?_
        · exact fun name isInput isKnown => .inl (inputs_known name isInput isKnown)
        · intro maker isMaker name isDef
          rcases List.mem_append.mp isMaker with earlier | now
          · exact .inl (front_known maker earlier name isDef)
          · rw [List.mem_singleton] at now
            subst now
            exact .inr isDef

include resolved in
theorem returned_known {unmet : KeySet BufName}
    (member : name ∈ scheduler.returned unmet partition) : name ∈ scheduler.nameToNode := by
  obtain ⟨output, ⟨produced, _⟩ | ⟨isInput, known, _⟩, rfl⟩ := mem_returned.mp member
  · obtain ⟨node, inside, isOutput⟩ := List.mem_flatMap.mp produced
    exact scheduled.outputs_known node (mem_schedule inside) output isOutput
  · rwa [realName_of_mem_inputs resolved scheduled isInput]

include resolved in
theorem partitionSignature_eq (unmet : KeySet BufName) (skipCudagraph : Bool) :
    scheduler.partitionSignature unmet partition skipCudagraph =
      .ok (scheduler.signature unmet partition skipCudagraph,
        scheduler.unmetBefore unmet partition) := by
  have known : ∀ name ∈ (scheduler.returned unmet partition).keys,
      scheduler.isNone name = false → name ∈ scheduler.nameToNode :=
    fun name member _ => returned_known resolved scheduled (AList.mem_keys.mpr member)
  have outputs := resolved.outputNodes_eq known
  exact Run.bind_eq_ok.mpr ⟨_, resolved.allocatedNames_eq _,
    Run.bind_eq_ok.mpr ⟨_, outputs, rfl⟩⟩

section Run

variable {unmet : KeySet BufName} {skipCudagraph : Bool} {whole next : Store BufName V}
  (ran : execAll (partition.map code.op) whole = some next)

include ran

omit scheduled in
theorem eq_none_of_freed (updates : Updates (partition.map code.op) name)
    (known : name ∈ scheduler.nameToNode) (isSome : scheduler.isNone name = false)
    (isFreed : name ∈ bufferNamesToFree partition) : next name = none := by
  obtain ⟨node, inside, isLast⟩ := mem_bufferNamesToFree.mp isFreed
  exact execAll_freed updates ran
    ⟨_, List.mem_map_of_mem inside, code.mem_frees.mpr ⟨isLast, known, isSome⟩⟩

include scheduled

theorem inputs_isSome (ownNone : scheduler.FreesOwnNone partition)
    (member : name ∈ scheduler.inputs partition) : (whole name).isSome :=
  execAll_needs
    (updates_of_notMem_outs scheduled code (notMem_outs_of_mem_inputs scheduled member)) ran
    (inputs_needed code ownNone member)

include resolved

/-- What a partition neither produces, nor returns, nor deallocates stays as it is. -/
theorem unchanged (unproduced : name ∉ outs partition)
    (unreturned : name ∉
      (scheduler.signature unmet partition skipCudagraph).callSignature.outputs)
    (kept : name ∉
      (scheduler.signature unmet partition skipCudagraph).callSignature.deallocated) :
    next name = whole name := by
  have updates := updates_of_notMem_outs scheduled code unproduced
  rw [mem_callDeallocated] at kept
  refine execAll_frame ran ?_ ?_
  · -- What is written is an input, and would be returned.
    intro op member written
    obtain ⟨node, inside, rfl⟩ := List.mem_map.mp member
    obtain ⟨output, isOutput, isSome, isReal⟩ := code.mem_defs.mp written
    have known : name ∈ scheduler.nameToNode :=
      isReal ▸ scheduled.outputs_known node (mem_schedule inside) output isOutput
    have closed := closed_of_inputs scheduled code [] rfl
      {name | name ∈ scheduler.inputs partition} (fun _ isInput _ => isInput)
      (List.forall_mem_nil _)
    have isInput : name ∈ scheduler.inputs partition :=
      closed.mem_of_updates updates ⟨_, member, written⟩
    refine unreturned (mem_callOutputs.mpr ⟨mem_returned.mpr ⟨name, .inr ⟨isInput, known, ?_⟩,
      realName_of_mem_inputs resolved scheduled isInput⟩, ?_⟩)
    · exact fun isFreed => kept ⟨isInput, known, isFreed⟩
    · rw [← isReal, resolved.isNone_realName, isSome]
  · intro op member freed
    obtain ⟨node, inside, rfl⟩ := List.mem_map.mp member
    obtain ⟨isLast, known, _⟩ := code.mem_frees.mp freed
    exact kept ⟨mem_inputs.mpr (.inr ⟨⟨node, inside, isLast, known⟩, unproduced⟩), known,
      mem_bufferNamesToFree.mpr ⟨node, inside, isLast⟩⟩

omit resolved in
theorem unmetBefore_isSome (ownNone : scheduler.FreesOwnNone partition)
    (real : ∀ name ∈ unmet, scheduler.realName name = name)
    (alive : ∀ name ∈ unmet, (next name).isSome)
    (member : name ∈ scheduler.unmetBefore unmet partition) : (whole name).isSome := by
  rcases mem_unmetBefore.mp member with isInput | ⟨isUnmet, unreturned⟩
  · exact inputs_isSome scheduled code ran ownNone isInput
  · have unproduced : name ∉ outs partition := fun produced =>
      unreturned (mem_returned.mpr ⟨name, .inl ⟨produced, isUnmet⟩, real name isUnmet⟩)
    by_contra absent
    have gone := execAll_eq_none (updates_of_notMem_outs scheduled code unproduced) ran
      (Option.not_isSome_iff_eq_none.mp absent)
    have there := alive name isUnmet
    rw [gone] at there
    cases there

omit ran in
theorem realName_of_mem_unmetBefore (real : ∀ name ∈ unmet, scheduler.realName name = name)
    (member : name ∈ scheduler.unmetBefore unmet partition) : scheduler.realName name = name := by
  rcases mem_unmetBefore.mp member with isInput | ⟨isUnmet, _⟩
  · exact realName_of_mem_inputs resolved scheduled isInput
  · exact real name isUnmet

omit resolved in
/-- What is there is not produced later. -/
theorem fresh_after (fresh : ∀ name, (whole name).isSome → name ∉ outs (partition ++ rest))
    (present : (next name).isSome) : name ∉ outs rest := by
  by_cases before : (whole name).isSome
  · have unproduced := fresh name before
    rw [outs, List.flatMap_append, List.mem_append, not_or] at unproduced
    exact unproduced.2
  · have written : ∃ op ∈ partition.map code.op, name ∈ op.defs := by
      by_contra never
      push Not at never
      exact before (execAll_isSome_before ran present never)
    obtain ⟨op, member, written⟩ := written
    obtain ⟨node, inside, rfl⟩ := List.mem_map.mp member
    obtain ⟨output, isOutput, _, rfl⟩ := code.mem_defs.mp written
    intro produced
    obtain ⟨later, isLater, isOutputLater⟩ := List.mem_flatMap.mp produced
    have single := scheduled.single
    rw [List.pairwise_append] at single
    exact single.2.2 node (List.mem_append_right _ inside) later isLater output isOutput
      isOutputLater

/-- The call of a partition follows the run of its nodes, and the caller has afterwards what is
unmet. -/
theorem call_partition (ownNone : scheduler.FreesOwnNone partition)
    (real : ∀ name ∈ unmet, scheduler.realName name = name)
    (alive : ∀ name ∈ unmet, (next name).isSome)
    (fresh : ∀ name, (whole name).isSome → name ∉ outs (partition ++ rest))
    {caller : Store BufName V} (sub : caller.Sub whole)
    (agree : ∀ name ∈ scheduler.unmetBefore unmet partition, caller name = whole name) :
    ∃ last, call (scheduler.signature unmet partition skipCudagraph).callSignature
        (partition.map code.op) caller = some last ∧
      last.Sub next ∧ ∀ name ∈ unmet, last name = next name := by
  have handed : ∀ name ∈
      (scheduler.signature unmet partition skipCudagraph).callSignature.inputs,
      caller name = whole name :=
    fun name member => agree name (mem_unmetBefore.mpr (.inl (mem_callInputs.mp member).1))
  have freshHere : ∀ name, (whole name).isSome → name ∉ outs partition := by
    intro name present produced
    refine fresh name present ?_
    rw [outs, List.flatMap_append]
    exact List.mem_append_left _ produced
  obtain ⟨last, called, subLast, outputs, others⟩ := call_of_execAll sub ran
    (closed_of_inputs scheduled code [] rfl _
      (fun _ isInput isKnown => mem_callInputs.mpr ⟨isInput, isKnown⟩) (List.forall_mem_nil _))
    handed
    (fun name member => inputs_isSome scheduled code ran ownNone (mem_callInputs.mp member).1)
    (fun name member => by
      obtain ⟨isReturned, isSome⟩ := mem_callOutputs.mp member
      obtain ⟨output, ⟨produced, isUnmet⟩ | ⟨isInput, known, unfreed⟩, rfl⟩ :=
        mem_returned.mp isReturned
      · rw [real output isUnmet] at isSome ⊢
        obtain ⟨node, inside, isOutput⟩ := List.mem_flatMap.mp produced
        exact ⟨alive output isUnmet, .inr ⟨_, List.mem_map_of_mem inside,
          code.mem_defs.mpr ⟨output, isOutput, isSome, real output isUnmet⟩⟩⟩
      · rw [realName_of_mem_inputs resolved scheduled isInput]
        refine ⟨execAll_isSome ran ?_ (inputs_isSome scheduled code ran ownNone isInput),
          .inl (mem_callInputs.mpr ⟨isInput, .inl known⟩)⟩
        intro op member freed
        obtain ⟨node, inside, rfl⟩ := List.mem_map.mp member
        exact unfreed (mem_bufferNamesToFree.mpr ⟨node, inside, (code.mem_frees.mp freed).1⟩))
    (fun name present unreturned kept => unchanged resolved scheduled code ran
      (freshHere name (sub.isSome present)) unreturned kept)
  refine ⟨last, called, subLast, fun name isUnmet => ?_⟩
  by_cases isOutput : name ∈
      (scheduler.signature unmet partition skipCudagraph).callSignature.outputs
  · exact outputs name isOutput
  by_cases produced : name ∈ outs partition
  · -- It would be returned if it were allocated.
    have isReturned : name ∈ scheduler.returned unmet partition :=
      mem_returned.mpr ⟨name, .inl ⟨produced, isUnmet⟩, real name isUnmet⟩
    have isNone : scheduler.isNone name ≠ false := fun isSome =>
      isOutput (mem_callOutputs.mpr ⟨isReturned, isSome⟩)
    have there := execAll_isSome_before ran (alive name isUnmet) fun op member written => by
      obtain ⟨node, inside, rfl⟩ := List.mem_map.mp member
      obtain ⟨output, _, isSome, rfl⟩ := code.mem_defs.mp written
      rw [resolved.isNone_realName] at isNone
      exact isNone isSome
    exact absurd produced (freshHere name there)
  by_cases given : name ∈
      (scheduler.signature unmet partition skipCudagraph).callSignature.deallocated
  · obtain ⟨_, known, isFreed⟩ := mem_callDeallocated.mp given
    have gone := eq_none_of_freed code ran
      (updates_of_notMem_outs scheduled code produced) known
      (isNone_of_freed ownNone isFreed known produced) isFreed
    rw [gone, subLast.eq_none gone]
  · rw [others name isOutput given,
      unchanged resolved scheduled code ran produced isOutput given]
    refine agree name (mem_unmetBefore.mpr ?_)
    by_cases isReturned : name ∈ scheduler.returned unmet partition
    · obtain ⟨output, ⟨isProduced, outputUnmet⟩ | ⟨isInput, _⟩, rfl⟩ := mem_returned.mp isReturned
      · rw [real output outputUnmet] at produced
        exact absurd isProduced produced
      · exact .inl (by rwa [realName_of_mem_inputs resolved scheduled isInput])
    · exact .inr ⟨isUnmet, isReturned⟩

end Run

end Partition

/-! ## All partitions -/

/-- The signatures of partitions, and what is unmet before the first. -/
def signaturesFrom (scheduler : Scheduler) (unmet : KeySet BufName) :
    List (List SchedulerNode × Bool) → List GraphPartitionSignature × KeySet BufName
  | [] => ([], unmet)
  | (partition, skipCudagraph) :: partitions =>
      let later := signaturesFrom scheduler unmet partitions
      (scheduler.signature later.2 partition skipCudagraph :: later.1,
        scheduler.unmetBefore later.2 partition)

/-- The loop builds the signatures from the last to the first. -/
theorem signatureLoop_reverse (resolved : scheduler.Resolved)
    {partitions : List (List SchedulerNode × Bool)} {done : List SchedulerNode}
    (scheduled : scheduler.Scheduled (done ++ (partitions.map Prod.fst).flatten))
    (unmet : KeySet BufName) (more : List (List SchedulerNode × Bool))
    (signatures : List GraphPartitionSignature) :
    scheduler.signatureLoop (partitions.reverse ++ more) unmet signatures =
      scheduler.signatureLoop more (scheduler.signaturesFrom unmet partitions).2
        (signatures ++ (scheduler.signaturesFrom unmet partitions).1.reverse) := by
  induction partitions generalizing done more with
  | nil => rw [signaturesFrom, List.reverse_nil, List.nil_append, List.reverse_nil, List.append_nil]
  | cons head partitions ih =>
      obtain ⟨partition, skipCudagraph⟩ := head
      rw [List.map_cons, List.flatten_cons, ← List.append_assoc] at scheduled
      rw [List.reverse_cons, List.append_assoc, ih scheduled]
      have turn := partitionSignature_eq resolved scheduled
        (scheduler.signaturesFrom unmet partitions).2 skipCudagraph
      rw [List.singleton_append, signatureLoop, turn]
      change scheduler.signatureLoop more _ (_ ++ [_]) = _
      rw [signaturesFrom, List.reverse_cons, List.append_assoc]

/-- The calls of the partitions, with the signatures that were computed. -/
def calls (scheduler : Scheduler) (code : scheduler.GeneratedCode V)
    (signatures : List GraphPartitionSignature) (partitions : List (List SchedulerNode)) :
    List (Signature BufName × List (Op BufName V)) :=
  (signatures.zip partitions).map fun entry =>
    (entry.1.callSignature, entry.2.map code.op)

/-- Next to a run of the nodes, the calls of the partitions go through. -/
theorem callAll_partitions (resolved : scheduler.Resolved)
    (code : scheduler.GeneratedCode V) {unmet : KeySet BufName}
    (real : ∀ name ∈ unmet, scheduler.realName name = name)
    {partitions : List (List SchedulerNode × Bool)} {done : List SchedulerNode}
    (ownNone : ∀ partition ∈ partitions.map Prod.fst, scheduler.FreesOwnNone partition)
    (scheduled : scheduler.Scheduled (done ++ (partitions.map Prod.fst).flatten))
    {whole final : Store BufName V}
    (fresh : ∀ name, (whole name).isSome → name ∉ outs (partitions.map Prod.fst).flatten)
    (ran : execAll ((partitions.map Prod.fst).flatten.map code.op) whole = some final)
    (alive : ∀ name ∈ unmet, (final name).isSome) :
    (∀ name ∈ (scheduler.signaturesFrom unmet partitions).2,
      scheduler.realName name = name ∧ (whole name).isSome) ∧
    ∀ caller : Store BufName V, caller.Sub whole →
      (∀ name ∈ (scheduler.signaturesFrom unmet partitions).2, caller name = whole name) →
      ∃ last, callAll (scheduler.calls code (scheduler.signaturesFrom unmet partitions).1
          (partitions.map Prod.fst)) caller = some last ∧
        last.Sub final ∧ ∀ name ∈ unmet, last name = final name := by
  induction partitions generalizing done whole with
  | nil =>
      cases ran
      exact ⟨fun name member => ⟨real name member, alive name member⟩,
        fun caller sub agree => ⟨caller, rfl, sub, agree⟩⟩
  | cons head partitions ih =>
      obtain ⟨partition, skipCudagraph⟩ := head
      rw [List.map_cons, List.flatten_cons] at fresh ran
      rw [List.map_cons, List.flatten_cons, ← List.append_assoc] at scheduled
      rw [List.map_append, execAll_append_eq_some] at ran
      obtain ⟨next, ranHere, ranLater⟩ := ran
      rw [List.map_cons, List.forall_mem_cons] at ownNone
      obtain ⟨known, later⟩ := ih ownNone.2 scheduled
        (fun name present => fresh_after scheduled code ranHere fresh present) ranLater
      refine ⟨fun name member => ⟨?_, ?_⟩, fun caller sub agree => ?_⟩
      · exact realName_of_mem_unmetBefore resolved scheduled (fun name here => (known name here).1)
          member
      · exact unmetBefore_isSome scheduled code ranHere ownNone.1
          (fun name here => (known name here).1) (fun name here => (known name here).2) member
      · obtain ⟨middle, called, subMiddle, agreeMiddle⟩ :=
          call_partition resolved scheduled code ranHere ownNone.1
            (fun name here => (known name here).1) (fun name here => (known name here).2) fresh sub
            agree
        obtain ⟨last, calledLater, subLast, agreeLast⟩ := later middle subMiddle agreeMiddle
        exact ⟨last, callAll_cons_eq_some.mpr ⟨middle, called, calledLater⟩, subLast, agreeLast⟩

/-- **Partitioning keeps what the graph computes.**  When the nodes of the partitions run in place
and leave the outputs of the graph, signatures are computed for all partitions, and the calls of
the partitions go through and leave the same outputs; no other buffer that the caller is left with
differs from what the nodes in place leave. -/
theorem partitions_compute_outputs (scheduler : Scheduler) (resolved : scheduler.Resolved)
    (code : scheduler.GeneratedCode V)
    {partitions : List (List SchedulerNode)} {skipCudagraphs : List Bool}
    (sameLength : partitions.length = skipCudagraphs.length)
    (scheduled : scheduler.Scheduled partitions.flatten)
    (ownNone : ∀ partition ∈ partitions, scheduler.FreesOwnNone partition)
    {start final : Store BufName V}
    (fresh : ∀ node ∈ partitions.flatten, ∀ name ∈ node.outputs, start name = none)
    (ran : execAll (partitions.flatten.map code.op) start = some final)
    (real : ∀ name ∈ scheduler.graphOutputNames, scheduler.realName name = name)
    (alive : ∀ name ∈ scheduler.graphOutputNames, (final name).isSome) :
    ∃ signatures last,
      scheduler.getGraphPartitionSignature partitions skipCudagraphs = .ok signatures ∧
      callAll (scheduler.calls code signatures partitions) start = some last ∧
      (∀ name ∈ scheduler.graphOutputNames, last name = final name) ∧ last.Sub final := by
  have isPartitions : (partitions.zip skipCudagraphs).map Prod.fst = partitions :=
    List.map_fst_zip (Nat.le_of_eq sameLength)
  have isReverse : partitions.reverse.zip skipCudagraphs.reverse =
      (partitions.zip skipCudagraphs).reverse ++ [] := by
    rw [List.append_nil]
    exact (List.reverse_zipWith sameLength).symm
  let unmet := OrderedSet.of scheduler.graphOutputNames
  have scheduledAll : scheduler.Scheduled
      ([] ++ ((partitions.zip skipCudagraphs).map Prod.fst).flatten) := by
    rwa [isPartitions, List.nil_append]
  have looped := signatureLoop_reverse resolved scheduledAll unmet [] []
  rw [← isReverse, List.nil_append, signatureLoop] at looped
  have unmetReal : ∀ name ∈ unmet, scheduler.realName name = name :=
    fun name member => real name (OrderedSet.mem_of.mp member)
  have unmetAlive : ∀ name ∈ unmet, (final name).isSome :=
    fun name member => alive name (OrderedSet.mem_of.mp member)
  have freshAll : ∀ name, (start name).isSome →
      name ∉ outs ((partitions.zip skipCudagraphs).map Prod.fst).flatten := by
    rw [isPartitions]
    intro name present produced
    obtain ⟨node, inside, isOutput⟩ := List.mem_flatMap.mp produced
    rw [fresh node inside name isOutput] at present
    cases present
  obtain ⟨_, later⟩ := callAll_partitions resolved code unmetReal
    (by rwa [isPartitions]) scheduledAll freshAll (by rwa [isPartitions]) unmetAlive
  obtain ⟨last, called, subLast, agree⟩ :=
    later start (fun _ _ isValue => isValue) fun _ _ => rfl
  rw [isPartitions] at called
  refine ⟨(scheduler.signaturesFrom unmet (partitions.zip skipCudagraphs)).1, last, ?_, called,
    fun name member => agree name (OrderedSet.mem_of.mpr member), subLast⟩
  rw [getGraphPartitionSignature, looped]
  change Except.ok (List.reverse (List.reverse _)) = _
  rw [List.reverse_reverse]

/-! ## A graph with a mutation -/

/-- A buffer is computed, mutated by an operator with a partition of its own, and read. -/
def mutatedGraph : List (List SchedulerNode) :=
  [[⟨"op0", ["buf0"], ["arg0", "weight"], ["buf0"], ["weight"]⟩],
    [⟨"op1", ["buf1", "buf2"], ["arg0", "buf0"], ["buf1"], ["arg0", "buf1"]⟩],
    [⟨"op2", ["buf3"], ["buf2"], ["buf3"], ["buf0"]⟩]]

/-- `buf2` is what `buf0` is called when it is mutated; `buf1`, of `NoneLayout`, is what the
operator returns; `weight` is a constant. -/
def mutatedScheduler : Scheduler where
  nameToBuf :=
    ((((∅ : Dict BufName BufNode).set "buf0" ⟨false, false⟩).set "buf1" ⟨true, false⟩).set "buf2"
      ⟨true, true⟩).set "buf3" ⟨false, false⟩
  mutationRealName := (∅ : Dict BufName BufName).set "buf2" "buf0"
  nameToNode := OrderedSet.of ["arg0", "buf0", "buf1", "buf2", "buf3"]
  graphOutputNames := ["buf3"]
  constants := OrderedSet.of ["weight"]
  recursionLimit := 1000
  mergeList partition := partition.flatMap SchedulerNode.deps
  mem_mergeList _ _ := List.mem_flatMap
  symbolInputs _ _ := []

/-- Nodes add what they read. -/
def addingKernel (node : SchedulerNode) (store : Store BufName ℕ) (_ : BufName) : ℕ :=
  1 + (["arg0", "weight", "buf0"].map fun name => (store name).getD 0).sum + node.name.length

/-- The input and the constant. -/
def mutatedStart : Store BufName ℕ := fun name =>
  if name = "arg0" then some 10 else if name = "weight" then some 100 else none

theorem partitions_compute_outputs_mutatedGraph :
    ∃ signatures last,
      mutatedScheduler.getGraphPartitionSignature mutatedGraph [false, true, false] =
        .ok signatures ∧
      callAll (mutatedScheduler.calls (.ofKernel mutatedScheduler addingKernel) signatures
        mutatedGraph) mutatedStart = some last ∧
      last "buf3" = some 132 := by
  have resolved : mutatedScheduler.Resolved :=
    ⟨by decide +kernel, by decide +kernel, by decide +kernel⟩
  have scheduled : mutatedScheduler.Scheduled mutatedGraph.flatten :=
    ⟨by decide +kernel, by decide +kernel, by decide +kernel, by decide +kernel, by decide +kernel,
      by decide +kernel, by decide +kernel⟩
  have ownNone : ∀ partition ∈ mutatedGraph, mutatedScheduler.FreesOwnNone partition := by
    unfold FreesOwnNone
    decide +kernel
  have value : (execAll 
      (mutatedGraph.flatten.map (GeneratedCode.ofKernel mutatedScheduler addingKernel).op)
      mutatedStart).bind (fun final => final "buf3") = some 132 := by decide +kernel
  obtain ⟨final, ran, isValue⟩ := Option.bind_eq_some_iff.mp value
  have sameLength : mutatedGraph.length = [false, true, false].length := rfl
  obtain ⟨signatures, last, computed, called, agree, _⟩ :=
    partitions_compute_outputs mutatedScheduler resolved (.ofKernel mutatedScheduler addingKernel)
      sameLength scheduled ownNone (by decide +kernel) ran (by decide +kernel)
      (fun name member => by
        obtain rfl := List.mem_singleton.mp member
        rw [isValue]
        rfl)
  exact ⟨signatures, last, computed, called, (agree "buf3" List.mem_cons_self).trans isValue⟩

end Scheduler

end RduHdi
