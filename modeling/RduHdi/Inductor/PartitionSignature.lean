import RduHdi.Dict
import RduHdi.Run

/-!
# Signatures of graph partitions

`get_graph_partition_signature_patched` of `vllm_env_override_torch22x.py`: from the last partition
to the first, which buffers a partition takes, which it gives back, and which it deallocates.  A
buffer that is mutated goes by a new name afterwards; `mutation_real_name` has the buffer that such
a name stands for.  Nodes of buffers are spoken of by their names.
-/

namespace RduHdi

/-! ## Ordered sets -/

namespace OrderedSet

variable {κ : Type*} [DecidableEq κ]

def of (keys : List κ) : KeySet κ :=
  (∅ : KeySet κ).addAll keys

def inter (keys others : KeySet κ) : KeySet κ :=
  of (keys.keys.filter fun key => key ∈ others)

def diff (keys others : KeySet κ) : KeySet κ :=
  of (keys.keys.filter fun key => key ∉ others)

@[simp]
theorem mem_of {keys : List κ} {key : κ} : key ∈ of keys ↔ key ∈ keys := by
  rw [of, AList.mem_addAll]
  exact or_iff_left (AList.notMem_empty key)

@[simp]
theorem mem_inter {keys others : KeySet κ} {key : κ} :
    key ∈ inter keys others ↔ key ∈ keys ∧ key ∈ others := by
  rw [inter, mem_of, List.mem_filter, ← AList.mem_keys, decide_eq_true_iff]

@[simp]
theorem mem_diff {keys others : KeySet κ} {key : κ} :
    key ∈ diff keys others ↔ key ∈ keys ∧ key ∉ others := by
  rw [diff, mem_of, List.mem_filter, ← AList.mem_keys, decide_eq_true_iff]

end OrderedSet

abbrev BufName := String

/-- What `is_none_layout` looks at. -/
structure BufNode where
  /-- Its layout is `NoneLayout`. -/
  noneLayout : Bool
  /-- It is a `MutationOutput`. -/
  mutationOutput : Bool

structure SchedulerNode where
  /-- The name. -/
  name : String
  /-- The keys of `outputs_by_name`. -/
  outputs : List BufName
  /-- The names in `read_writes`. -/
  reads : List BufName
  /-- Those of what it writes. -/
  writes : List BufName
  /-- `last_usage`. -/
  lastUsage : List BufName

namespace SchedulerNode

/-- What a node depends on. -/
def deps (node : SchedulerNode) : List BufName :=
  node.reads ++ node.writes

end SchedulerNode

structure GraphPartitionSignature where
  /-- The symbols in the inputs. -/
  symbolInputs : List String
  /-- The inputs. -/
  inputNodes : List BufName
  /-- What is returned. -/
  outputNodes : List BufName
  /-- The inputs, and whether they are deallocated inside. -/
  inputDeallocation : List (BufName × Bool)
  /-- Whether the partition runs without a CUDA graph. -/
  skipCudagraph : Bool
  /-- The constants that are used. -/
  constantNames : List BufName

/-- What may raise. -/
inductive SignatureError where
  | keyError (name : BufName)
  | recursionError
deriving DecidableEq

/-- What the computation reads of the scheduler and of the graph. -/
structure Scheduler where
  /-- The nodes of buffers. -/
  nameToBuf : Dict BufName BufNode
  /-- The buffer that a new name stands for. -/
  mutationRealName : Dict BufName BufName
  /-- The keys of what `get_name_to_nodes` returns. -/
  nameToNode : KeySet BufName
  /-- `V.graph.get_output_names()`. -/
  graphOutputNames : List BufName
  /-- The constants of the graph. -/
  constants : KeySet BufName
  /-- How deep calls may nest. -/
  recursionLimit : ℕ
  /-- The names of `ReadWrites.merge_list`, reads and writes. -/
  mergeList : List SchedulerNode → List BufName
  /-- They are the names that the nodes depend on. -/
  mem_mergeList : ∀ partition name,
    name ∈ mergeList partition ↔ ∃ node ∈ partition, name ∈ node.deps
  /-- `get_graph_partition_symbol_inputs`. -/
  symbolInputs : List SchedulerNode → List BufName → List String

namespace Scheduler

variable (scheduler : Scheduler)

/-- `mutation_real_name.get(name, name)`. -/
def realName (name : BufName) : BufName :=
  (scheduler.mutationRealName.lookup name).getD name

/-- `is_none_layout`, in at most so many calls. -/
def isNoneLayout : ℕ → BufName → Except SignatureError Bool
  | 0, _ => .error .recursionError
  | calls + 1, bufName =>
      match scheduler.nameToBuf.lookup bufName with
      | none => .ok false
      | some buf =>
          if buf.noneLayout then
            match scheduler.mutationRealName.lookup bufName with
            | some realName =>
                if buf.mutationOutput ∧ realName ≠ "" then isNoneLayout calls realName
                else .ok true
            | none => .ok true
          else
            .ok false

/-- The names without those of `NoneLayout`. -/
def allocatedNames : List BufName → Except SignatureError (List BufName)
  | [] => .ok []
  | name :: names => do
      let isNone ← scheduler.isNoneLayout scheduler.recursionLimit name
      let allocated ← allocatedNames names
      return if isNone then allocated else name :: allocated

def outputNames (partition : List SchedulerNode) : KeySet BufName :=
  OrderedSet.of (partition.flatMap SchedulerNode.outputs)

def bufferNamesToFree (partition : List SchedulerNode) : KeySet BufName :=
  OrderedSet.of (partition.flatMap SchedulerNode.lastUsage)

/-- `partition_input_names`, from the names that are read or written and allocated. -/
def partitionInputNames (partition : List SchedulerNode) (allocated : List BufName) :
    KeySet BufName :=
  let partitionInputNames := OrderedSet.diff (OrderedSet.of allocated) (outputNames partition)
  let partitionInputNames := OrderedSet.of (partitionInputNames.keys.map scheduler.realName)
  let extraInputNames :=
    (OrderedSet.diff (bufferNamesToFree partition) (outputNames partition)).keys.filter
      fun name => name ∈ scheduler.nameToNode
  partitionInputNames.addAll extraInputNames

/-- `returned_output_names`: what is met, and the inputs that are not freed. -/
def returnedOutputNames (unmetOutputNames : KeySet BufName) (partition : List SchedulerNode)
    (partitionInputNames : KeySet BufName) : KeySet BufName :=
  let returnedOutputNames := OrderedSet.inter (outputNames partition) unmetOutputNames
  let extraOutputNames := partitionInputNames.keys.filter
    fun name => name ∈ scheduler.nameToNode ∧ name ∉ bufferNamesToFree partition
  OrderedSet.of ((returnedOutputNames.addAll extraOutputNames).keys.map scheduler.realName)

/-- The nodes of the names that are allocated. -/
def outputNodes : List BufName → Except SignatureError (List BufName)
  | [] => .ok []
  | name :: names => do
      let isNone ← scheduler.isNoneLayout scheduler.recursionLimit name
      if isNone then
        outputNodes names
      else if name ∈ scheduler.nameToNode then
        let nodes ← outputNodes names
        return name :: nodes
      else
        .error (.keyError name)

/-- One turn of the loop: a signature, and what is unmet before the partition. -/
def partitionSignature (unmetOutputNames : KeySet BufName) (partition : List SchedulerNode)
    (skipCudagraph : Bool) : Except SignatureError (GraphPartitionSignature × KeySet BufName) := do
  let allocated ← scheduler.allocatedNames (scheduler.mergeList partition)
  let partitionInputNames := scheduler.partitionInputNames partition allocated
  let inputNodes := partitionInputNames.keys.filter fun name => name ∈ scheduler.nameToNode
  let returnedOutputNames :=
    scheduler.returnedOutputNames unmetOutputNames partition partitionInputNames
  let outputNodes ← scheduler.outputNodes returnedOutputNames.keys
  return (
    { symbolInputs := scheduler.symbolInputs partition inputNodes
      inputNodes
      outputNodes
      inputDeallocation := inputNodes.map fun name =>
        (name, decide (name ∈ bufferNamesToFree partition))
      skipCudagraph
      constantNames := partitionInputNames.keys.filter fun name => name ∈ scheduler.constants },
    partitionInputNames.addAll (OrderedSet.diff unmetOutputNames returnedOutputNames).keys)

/-- The loop, over the partitions from the last to the first. -/
def signatureLoop : List (List SchedulerNode × Bool) → KeySet BufName →
    List GraphPartitionSignature → Except SignatureError (List GraphPartitionSignature)
  | [], _, signatures => .ok signatures
  | (partition, skipCudagraph) :: rest, unmetOutputNames, signatures => do
      let (signature, unmetOutputNames) ←
        scheduler.partitionSignature unmetOutputNames partition skipCudagraph
      signatureLoop rest unmetOutputNames (signatures ++ [signature])

/-- `get_graph_partition_signature`. -/
def getGraphPartitionSignature (partitions : List (List SchedulerNode))
    (skipCudagraphs : List Bool) : Except SignatureError (List GraphPartitionSignature) := do
  let signatures ← scheduler.signatureLoop (partitions.reverse.zip skipCudagraphs.reverse)
    (OrderedSet.of scheduler.graphOutputNames) []
  return signatures.reverse

/-! ## Layouts -/

/-- A name is of no buffer that is allocated, or it is not known whether it is. -/
def isNone (name : BufName) : Bool :=
  (scheduler.isNoneLayout scheduler.recursionLimit name).toOption.getD true

/-- What a name stands for is no name of a mutation itself, and it is allocated when the name is;
`is_none_layout` can call itself. -/
structure Resolved : Prop where
  /-- A name stands for a buffer, not for another name. -/
  real : ∀ entry ∈ scheduler.mutationRealName.entries, entry.2 ∉ scheduler.mutationRealName
  /-- A name is allocated when its buffer is. -/
  layout : ∀ entry ∈ scheduler.mutationRealName.entries,
    scheduler.isNone entry.2 = scheduler.isNone entry.1
  /-- `is_none_layout` may call itself. -/
  calls : 2 ≤ scheduler.recursionLimit

variable {scheduler}

namespace Resolved

theorem realName_of_notMem {name : BufName} (absent : name ∉ scheduler.mutationRealName) :
    scheduler.realName name = name := by
  rw [realName, AList.lookup_eq_none.mpr absent]
  rfl

theorem realName_real (resolved : scheduler.Resolved) (name : BufName) :
    scheduler.realName (scheduler.realName name) = scheduler.realName name := by
  cases known : scheduler.mutationRealName.lookup name with
  | none =>
      have same := realName_of_notMem (AList.lookup_eq_none.mp known)
      rw [same, same]
  | some real =>
      have isReal : scheduler.realName name = real := by
        rw [realName, known]
        rfl
      rw [isReal]
      exact realName_of_notMem (resolved.real ⟨name, real⟩ (AList.mem_lookup_iff.mp known))

theorem isNone_realName (resolved : scheduler.Resolved) (name : BufName) :
    scheduler.isNone (scheduler.realName name) = scheduler.isNone name := by
  cases known : scheduler.mutationRealName.lookup name with
  | none => rw [realName_of_notMem (AList.lookup_eq_none.mp known)]
  | some real =>
      have isReal : scheduler.realName name = real := by
        rw [realName, known]
        rfl
      rw [isReal]
      exact resolved.layout ⟨name, real⟩ (AList.mem_lookup_iff.mp known)

theorem exists_isNoneLayout_of_notMem {name : BufName} (absent : name ∉ scheduler.mutationRealName)
    (calls : ℕ) : ∃ isNone, scheduler.isNoneLayout (calls + 1) name = .ok isNone := by
  rw [isNoneLayout, AList.lookup_eq_none.mpr absent]
  cases scheduler.nameToBuf.lookup name with
  | none => exact ⟨false, rfl⟩
  | some buf =>
      simp only
      split
      · exact ⟨true, rfl⟩
      · exact ⟨false, rfl⟩

theorem exists_isNoneLayout (resolved : scheduler.Resolved) (name : BufName) :
    ∃ isNone, scheduler.isNoneLayout scheduler.recursionLimit name = .ok isNone := by
  obtain ⟨calls, isLimit⟩ := Nat.exists_eq_add_of_le resolved.calls
  have isLimit : scheduler.recursionLimit = calls + 1 + 1 := by omega
  rw [isLimit]
  cases known : scheduler.mutationRealName.lookup name with
  | none => exact exists_isNoneLayout_of_notMem (AList.lookup_eq_none.mp known) _
  | some real =>
      have isReal := resolved.real ⟨name, real⟩ (AList.mem_lookup_iff.mp known)
      rw [isNoneLayout]
      split
      · exact ⟨false, rfl⟩
      · split
        · rw [known]
          simp only
          split
          · exact exists_isNoneLayout_of_notMem isReal calls
          · exact ⟨true, rfl⟩
        · exact ⟨false, rfl⟩

theorem isNoneLayout_eq (resolved : scheduler.Resolved) (name : BufName) :
    scheduler.isNoneLayout scheduler.recursionLimit name = .ok (scheduler.isNone name) := by
  obtain ⟨isNone, answered⟩ := resolved.exists_isNoneLayout name
  rw [Scheduler.isNone, answered]
  rfl

theorem allocatedNames_eq (resolved : scheduler.Resolved) (names : List BufName) :
    scheduler.allocatedNames names = .ok (names.filter fun name => !scheduler.isNone name) := by
  induction names with
  | nil => rfl
  | cons name names ih =>
      rw [allocatedNames, resolved.isNoneLayout_eq, ih, List.filter_cons]
      cases scheduler.isNone name with
      | false => rfl
      | true => rfl

theorem outputNodes_eq (resolved : scheduler.Resolved) {names : List BufName}
    (known : ∀ name ∈ names, scheduler.isNone name = false → name ∈ scheduler.nameToNode) :
    scheduler.outputNodes names = .ok (names.filter fun name => !scheduler.isNone name) := by
  induction names with
  | nil => rfl
  | cons name names ih =>
      rw [List.forall_mem_cons] at known
      rw [outputNodes, resolved.isNoneLayout_eq, ih known.2, List.filter_cons]
      cases isNone : scheduler.isNone name with
      | false =>
          change (if name ∈ scheduler.nameToNode then _ else _) = _
          rw [if_pos (known.1 isNone)]
          rfl
      | true => rfl

end Resolved

end Scheduler

end RduHdi
