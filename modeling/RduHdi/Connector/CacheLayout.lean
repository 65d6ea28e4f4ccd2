import RduHdi.Connector.Metadata
import RduHdi.Grid
import RduHdi.Run

/-!
# The layout of the registered caches

A worker registers the tensors of its cache and cuts them into descriptors, one for each block of
each region.  When K and V share a region, every region is cut twice, first for K and then for V.
The descriptors of a remote worker are cut the same way from its metadata, and the worker's own
are cut once more for every ratio of block sizes and of group sizes that is met.
-/

namespace RduHdi

/-- A tensor of the KV cache. -/
structure KvTensor where
  /-- `data_ptr()`. -/
  dataPtr : ℕ
  /-- `shape[0]`. -/
  numBlocks : ℕ
  /-- `shape[block_size_position]`. -/
  blockSize : ℕ
  /-- `numel() * element_size()`. -/
  sizeBytes : ℕ
  /-- The index of the device. -/
  device : ℤ

/-- A stretch of memory on a device. -/
structure XferDesc where
  /-- Where it begins. -/
  addr : ℕ
  /-- How many bytes it has. -/
  len : ℕ
  /-- The device it is on. -/
  deviceId : ℕ
  deriving DecidableEq

/-- A chunk of a stretch, one of `chunks`. -/
def XferDesc.chunk (chunks index : ℕ) (desc : XferDesc) : XferDesc :=
  { desc with addr := desc.addr + index * (desc.len / chunks), len := desc.len / chunks }

/-- What `register_kv_caches` finds out about the caches. -/
structure CacheTables where
  /-- The tokens of a block. -/
  blockSize : ℕ
  /-- How many blocks the device has for one of the scheduler. -/
  physicalBlocksPerLogicalKvBlock : ℕ
  /-- The addresses of the caches, each once. -/
  seenBaseAddresses : List ℕ
  /-- The size of the first cache, which is that of all. -/
  tensorSizeBytes : Option ℕ
  /-- How many blocks a cache has. -/
  numBlocks : ℕ
  /-- The bytes of a block, for each address. -/
  blockLenPerLayer : List ℕ
  /-- The bytes of a token, for each address. -/
  slotSizePerLayer : List ℕ
  /-- The memory of the caches. -/
  cachesData : List XferDesc
  /-- The device they are on. -/
  deviceId : ℕ
  /-- How many regions there are: K and V are regions of their own when blocks come first. -/
  numRegions : ℕ
  /-- How many layers there are. -/
  numLayers : ℕ

namespace CacheTables

/-- The tables before any tensor is looked at. -/
def init (blockSize : ℕ) : CacheTables where
  blockSize
  physicalBlocksPerLogicalKvBlock := 1
  seenBaseAddresses := []
  tensorSizeBytes := none
  numBlocks := 0
  blockLenPerLayer := []
  slotSizePerLayer := []
  cachesData := []
  deviceId := 0
  numRegions := 0
  numLayers := 0

/-! ## Registration -/

/-- `a // b`. -/
def floorDiv (a b : ℕ) : Except PyError ℕ :=
  if b = 0 then .error .zeroDivisionError else .ok (a / b)

/-- The physical block size of a tensor overrides the configured one. -/
def adoptBlockSize (tables : CacheTables) (tensor : KvTensor) : Except PyError CacheTables :=
  if tables.blockSize = tensor.blockSize then
    .ok tables
  else
    (floorDiv tables.blockSize tensor.blockSize).map fun physicalBlocks =>
      { tables with
        physicalBlocksPerLogicalKvBlock := physicalBlocks
        blockSize := tensor.blockSize }

/-- The number of blocks, which the first tensor sets. -/
def blockCount (tables : CacheTables) (tensor : KvTensor) : ℕ :=
  if tables.tensorSizeBytes.isNone then tensor.numBlocks else tables.numBlocks

/-- One turn of the loop over the tensors; a tensor that layers share is registered once. -/
def registerTensor (useMla : Bool) (tables : CacheTables) (tensor : KvTensor) :
    Except PyError CacheTables :=
  if tensor.dataPtr ∈ tables.seenBaseAddresses then
    .ok tables
  else do
    let tables ← tables.adoptBlockSize tensor
    let tensorSizeBytes := tables.tensorSizeBytes.getD tensor.sizeBytes
    let numBlocks := tables.blockCount tensor
    if tensor.numBlocks = numBlocks then do
      let blockLen ← floorDiv tensor.sizeBytes numBlocks
      let slotSize ← floorDiv blockLen tables.blockSize
      if useMla || tensorSizeBytes = tensor.sizeBytes then
        let deviceId := (max tensor.device 0).toNat
        .ok
          { tables with
            seenBaseAddresses := tables.seenBaseAddresses ++ [tensor.dataPtr]
            tensorSizeBytes := some tensorSizeBytes
            numBlocks
            blockLenPerLayer := tables.blockLenPerLayer ++ [blockLen]
            slotSizePerLayer := tables.slotSizePerLayer ++ [slotSize]
            deviceId
            cachesData :=
              tables.cachesData ++ [{ addr := tensor.dataPtr, len := tensor.sizeBytes, deviceId }] }
      else
        .error .assertionError
    else
      .error .assertionError

/-- The layout part of `register_kv_caches`.  `layers` has the tensors of each layer: K and V when
the topology splits them, one tensor otherwise. -/
def registerKvCaches (useMla isKvLayoutBlocksFirst : Bool) (blockSize : ℕ)
    (layers : List (List KvTensor)) : Except PyError CacheTables := do
  let tables ← Run.exec (registerTensor useMla) (.init blockSize) layers.flatten
  if tables.numBlocks = 0 then
    .error .assertionError
  else
    let tables :=
      { tables with numRegions := tables.cachesData.length, numLayers := layers.length }
    if isKvLayoutBlocksFirst then
      if tables.slotSizePerLayer.all fun slotSize => slotSize % 2 = 0 then
        .ok
          { tables with
            slotSizePerLayer := tables.slotSizePerLayer.map (· / 2)
            numRegions := tables.numRegions * 2 }
      else
        .error .assertionError
    else
      .ok tables

/-! ## Cutting a region into blocks -/

/-- `get_backend_aware_kv_block_len`, of the block length of a layer. -/
def kvBlockLen (isKvLayoutBlocksFirst : Bool) (blockLen : ℕ) : ℕ :=
  if isKvLayoutBlocksFirst then blockLen / 2 else blockLen

/-- The descriptors of the blocks of a region, from an address on. -/
def blockDescs (start stride numBlocks len deviceId : ℕ) : List XferDesc :=
  (List.range numBlocks).map fun blockId => { addr := start + blockId * stride, len, deviceId }

/-- The descriptors of a cache: its blocks, and then the V half of each where K and V share a
block. -/
def cacheDescs (isKvLayoutBlocksFirst : Bool) (start stride vOffset numBlocks len deviceId : ℕ) :
    List XferDesc :=
  blockDescs start stride numBlocks len deviceId ++
    if isKvLayoutBlocksFirst then blockDescs (start + vOffset) stride numBlocks len deviceId
    else []

/-- The list of `register_local_xfer_handler`, for a ratio of block sizes. -/
def localBlocksData (tables : CacheTables) (isKvLayoutBlocksFirst : Bool) (blockSizeRatio : ℕ) :
    List XferDesc :=
  (tables.seenBaseAddresses.zip tables.blockLenPerLayer).flatMap fun (baseAddr, blockLen) =>
    let kvLen := kvBlockLen isKvLayoutBlocksFirst blockLen / blockSizeRatio
    cacheDescs isKvLayoutBlocksFirst baseAddr (blockLen / blockSizeRatio) kvLen
      (tables.numBlocks * blockSizeRatio) kvLen tables.deviceId

/-- A chunk of every descriptor, one of `chunks`. -/
def splitBlocksData (chunks index : ℕ) (blocksData : List XferDesc) : List XferDesc :=
  blocksData.map (XferDesc.chunk chunks index)

/-! ## Where a descriptor stands -/

/-- The regions a cache is cut into. -/
def halves (isKvLayoutBlocksFirst : Bool) : ℕ :=
  if isKvLayoutBlocksFirst then 2 else 1

theorem halves_pos (isKvLayoutBlocksFirst : Bool) : 0 < halves isKvLayoutBlocksFirst := by
  cases isKvLayoutBlocksFirst <;> decide

/-- The bytes that a region has of a block. -/
def halfLen (isKvLayoutBlocksFirst : Bool) (blockLen : ℕ) : ℕ :=
  blockLen / halves isKvLayoutBlocksFirst

theorem kvBlockLen_eq (isKvLayoutBlocksFirst : Bool) (blockLen : ℕ) :
    kvBlockLen isKvLayoutBlocksFirst blockLen = halfLen isKvLayoutBlocksFirst blockLen := by
  cases isKvLayoutBlocksFirst with
  | false => exact (Nat.div_one blockLen).symm
  | true => rfl

section Blocks

variable {isKvLayoutBlocksFirst : Bool} {start stride vOffset numBlocks len deviceId : ℕ}

theorem length_blockDescs :
    (blockDescs start stride numBlocks len deviceId).length = numBlocks := by
  rw [blockDescs, List.length_map, List.length_range]

theorem getElem?_blockDescs {block : ℕ} (inside : block < numBlocks) :
    (blockDescs start stride numBlocks len deviceId)[block]? =
      some { addr := start + block * stride, len, deviceId } := by
  rw [blockDescs, List.getElem?_map, List.getElem?_range inside]
  rfl

theorem length_cacheDescs :
    (cacheDescs isKvLayoutBlocksFirst start stride vOffset numBlocks len deviceId).length =
      halves isKvLayoutBlocksFirst * numBlocks := by
  rw [cacheDescs, List.length_append, length_blockDescs]
  cases isKvLayoutBlocksFirst with
  | false => simp [halves]
  | true =>
      rw [if_pos rfl, length_blockDescs]
      exact (Nat.two_mul numBlocks).symm

theorem getElem?_cacheDescs {half block : ℕ} (isHalf : half < halves isKvLayoutBlocksFirst)
    (inside : block < numBlocks) :
    (cacheDescs isKvLayoutBlocksFirst start stride vOffset numBlocks len
        deviceId)[half * numBlocks + block]? =
      some { addr := start + half * vOffset + block * stride, len, deviceId } := by
  rw [cacheDescs]
  cases half with
  | zero =>
      rw [Nat.zero_mul, Nat.zero_add, Nat.zero_mul, Nat.add_zero,
        List.getElem?_append_left (by rwa [length_blockDescs]), getElem?_blockDescs inside]
  | succ half =>
      cases isKvLayoutBlocksFirst with
      | false => exact absurd (Nat.lt_of_succ_lt_succ isHalf) (Nat.not_lt_zero half)
      | true =>
          obtain rfl : half = 0 := Nat.lt_one_iff.mp (Nat.lt_of_succ_lt_succ isHalf)
          have position : (0 + 1) * numBlocks + block - numBlocks = block := by omega
          rw [List.getElem?_append_right (by rw [length_blockDescs]; omega), length_blockDescs,
            position, if_pos rfl, getElem?_blockDescs inside, Nat.zero_add, Nat.one_mul]

end Blocks

/-- The descriptor of a block in a region of this worker, for a ratio of block sizes. -/
def localEntry (tables : CacheTables) (isKvLayoutBlocksFirst : Bool)
    (blockSizeRatio region block : ℕ) : Option XferDesc :=
  let halves := halves isKvLayoutBlocksFirst
  (tables.seenBaseAddresses.zip tables.blockLenPerLayer)[region / halves]?.map
    fun (baseAddr, blockLen) =>
      let len := halfLen isKvLayoutBlocksFirst blockLen / blockSizeRatio
      { addr := baseAddr + region % halves * len + block * (blockLen / blockSizeRatio)
        len
        deviceId := tables.deviceId }

/-- The list of this worker has the descriptors of a region one after another, by block. -/
theorem getElem?_localBlocksData (tables : CacheTables) (isKvLayoutBlocksFirst : Bool)
    {blockSizeRatio region block : ℕ} (inside : block < tables.numBlocks * blockSizeRatio) :
    (tables.localBlocksData isKvLayoutBlocksFirst
        blockSizeRatio)[region * (tables.numBlocks * blockSizeRatio) + block]? =
      tables.localEntry isKvLayoutBlocksFirst blockSizeRatio region block := by
  have positive := halves_pos isKvLayoutBlocksFirst
  have half := Nat.mod_lt region positive
  have index : region * (tables.numBlocks * blockSizeRatio) + block =
      region / halves isKvLayoutBlocksFirst *
          (halves isKvLayoutBlocksFirst * (tables.numBlocks * blockSizeRatio)) +
        (region % halves isKvLayoutBlocksFirst * (tables.numBlocks * blockSizeRatio) + block) := by
    rw [← Nat.add_assoc, ← Nat.mul_assoc (region / halves isKvLayoutBlocksFirst), ← Nat.add_mul,
      Nat.div_add_mod']
  have column : region % halves isKvLayoutBlocksFirst * (tables.numBlocks * blockSizeRatio) +
      block < halves isKvLayoutBlocksFirst * (tables.numBlocks * blockSizeRatio) :=
    Grid.cell_lt half inside
  rw [index, localBlocksData, Grid.getElem?_flatMap (fun _ _ => length_cacheDescs) _ column,
    localEntry]
  simp only [kvBlockLen_eq]
  cases (tables.seenBaseAddresses.zip tables.blockLenPerLayer)[
      region / halves isKvLayoutBlocksFirst]? with
  | none => rfl
  | some layer => exact getElem?_cacheDescs half inside

/-! ## What registration leaves -/

/-- The tables describe the registered memory. -/
structure Consistent (tables : CacheTables) : Prop where
  /-- There is a size once there is an address. -/
  first : tables.tensorSizeBytes = none → tables.seenBaseAddresses = []
  /-- No block without an address. -/
  nothing : tables.seenBaseAddresses = [] → tables.numBlocks = 0
  /-- Blocks have tokens. -/
  blockSize_ne : tables.seenBaseAddresses ≠ [] → tables.blockSize ≠ 0
  /-- The memory begins at the addresses. -/
  addresses : tables.cachesData.map XferDesc.addr = tables.seenBaseAddresses
  /-- The blocks are in the memory. -/
  fits : List.Forall₂ (fun data blockLen => blockLen * tables.numBlocks ≤ data.len)
    tables.cachesData tables.blockLenPerLayer

theorem consistent_init (blockSize : ℕ) : Consistent (init blockSize) where
  first _ := rfl
  nothing _ := rfl
  blockSize_ne some_seen := absurd rfl some_seen
  addresses := rfl
  fits := .nil

theorem floorDiv_eq_ok {a b quotient : ℕ} :
    floorDiv a b = .ok quotient ↔ b ≠ 0 ∧ a / b = quotient := by
  rw [floorDiv]
  split <;> simp [*]

theorem adoptBlockSize_eq_ok {tables next : CacheTables} {tensor : KvTensor}
    (taken : tables.adoptBlockSize tensor = .ok next) :
    ∃ physicalBlocks, next =
      { tables with
        physicalBlocksPerLogicalKvBlock := physicalBlocks
        blockSize := tensor.blockSize } := by
  rw [adoptBlockSize] at taken
  split at taken
  · rename_i same
    cases taken
    exact ⟨tables.physicalBlocksPerLogicalKvBlock, by rw [← same]⟩
  · obtain ⟨physicalBlocks, _, rfl⟩ := Run.map_eq_ok.mp taken
    exact ⟨physicalBlocks, rfl⟩

/-- A turn of the loop leaves the tables as they are, or registers a tensor. -/
theorem registerTensor_cases {useMla : Bool} {tables next : CacheTables} {tensor : KvTensor}
    (taken : tables.registerTensor useMla tensor = .ok next) :
    tensor.dataPtr ∈ tables.seenBaseAddresses ∧ next = tables ∨
      tensor.numBlocks = tables.blockCount tensor ∧ tables.blockCount tensor ≠ 0 ∧
        tensor.blockSize ≠ 0 ∧
        (useMla || tables.tensorSizeBytes.getD tensor.sizeBytes = tensor.sizeBytes) ∧
        ∃ physicalBlocks slotSize, next =
          { tables with
            physicalBlocksPerLogicalKvBlock := physicalBlocks
            blockSize := tensor.blockSize
            seenBaseAddresses := tables.seenBaseAddresses ++ [tensor.dataPtr]
            tensorSizeBytes := some (tables.tensorSizeBytes.getD tensor.sizeBytes)
            numBlocks := tables.blockCount tensor
            blockLenPerLayer :=
              tables.blockLenPerLayer ++ [tensor.sizeBytes / tables.blockCount tensor]
            slotSizePerLayer := tables.slotSizePerLayer ++ [slotSize]
            deviceId := (max tensor.device 0).toNat
            cachesData := tables.cachesData ++
              [{ addr := tensor.dataPtr
                 len := tensor.sizeBytes
                 deviceId := (max tensor.device 0).toNat }] } := by
  rw [registerTensor] at taken
  split at taken
  · rename_i seen
    cases taken
    exact .inl ⟨seen, rfl⟩
  · obtain ⟨adopted, adopts, taken⟩ := Run.bind_eq_ok.mp taken
    obtain ⟨physicalBlocks, rfl⟩ := adoptBlockSize_eq_ok adopts
    simp only at taken
    split at taken
    · rename_i sameCount
      obtain ⟨blockLen, divides, taken⟩ := Run.bind_eq_ok.mp taken
      obtain ⟨slotSize, slots, taken⟩ := Run.bind_eq_ok.mp taken
      obtain ⟨some_block, rfl⟩ := floorDiv_eq_ok.mp divides
      obtain ⟨blockSize_ne, _⟩ := floorDiv_eq_ok.mp slots
      split at taken
      · rename_i same
        cases taken
        exact .inr ⟨sameCount, some_block, blockSize_ne, same, physicalBlocks, slotSize, rfl⟩
      · cases taken
    · cases taken

theorem Consistent.blockCount_fits {tables : CacheTables} (consistent : tables.Consistent)
    (tensor : KvTensor) :
    List.Forall₂ (fun data blockLen => blockLen * tables.blockCount tensor ≤ data.len)
      tables.cachesData tables.blockLenPerLayer := by
  have fits := consistent.fits
  cases known : tables.tensorSizeBytes with
  | some bytes =>
      rw [blockCount, known]
      exact fits
  | none =>
      have none_seen := consistent.addresses.trans (consistent.first known)
      rw [List.map_eq_nil_iff.mp none_seen] at fits ⊢
      rw [List.forall₂_nil_left_iff.mp fits]
      exact .nil

theorem registerTensor_consistent {useMla : Bool} {tables next : CacheTables} {tensor : KvTensor}
    (consistent : tables.Consistent) (taken : tables.registerTensor useMla tensor = .ok next) :
    next.Consistent := by
  rcases registerTensor_cases taken with
    ⟨_, rfl⟩ | ⟨_, _, blockSize_ne, _, physicalBlocks, slotSize, rfl⟩
  · exact consistent
  · refine ⟨fun absent => (by cases absent), fun empty => (by simp at empty),
      fun _ => blockSize_ne, by simp [consistent.addresses], ?_⟩
    apply List.rel_append (consistent.blockCount_fits tensor)
    exact .cons (Nat.div_mul_le_self _ _) .nil

/-- **Registration.**  The tables describe the registered memory, with some block in it. -/
theorem registerKvCaches_consistent {useMla isKvLayoutBlocksFirst : Bool} {blockSize : ℕ}
    {layers : List (List KvTensor)} {tables : CacheTables}
    (registered : registerKvCaches useMla isKvLayoutBlocksFirst blockSize layers = .ok tables) :
    tables.Consistent ∧ 0 < tables.numBlocks ∧ 0 < tables.blockSize ∧
      tables.numRegions = tables.cachesData.length * halves isKvLayoutBlocksFirst := by
  rw [registerKvCaches] at registered
  obtain ⟨looped, reached, registered⟩ := Run.bind_eq_ok.mp registered
  have consistent : looped.Consistent :=
    Run.exec_induction registerTensor_consistent (consistent_init blockSize) reached
  split at registered
  · cases registered
  · rename_i some_block
    have some_seen := fun empty => some_block (consistent.nothing empty)
    have facts : looped.Consistent ∧ 0 < looped.numBlocks ∧ 0 < looped.blockSize :=
      ⟨consistent, Nat.pos_of_ne_zero some_block,
        Nat.pos_of_ne_zero (consistent.blockSize_ne some_seen)⟩
    simp only at registered
    split at registered
    · rename_i joint
      split at registered
      · cases registered
        refine ⟨⟨consistent.first, consistent.nothing, consistent.blockSize_ne,
          consistent.addresses, consistent.fits⟩, facts.2.1, facts.2.2, ?_⟩
        rw [halves, if_pos joint]
      · cases registered
    · rename_i apart
      cases registered
      refine ⟨⟨consistent.first, consistent.nothing, consistent.blockSize_ne,
        consistent.addresses, consistent.fits⟩, facts.2.1, facts.2.2, ?_⟩
      rw [halves, if_neg apart, Nat.mul_one]

/-! ## The tensors of a layer -/

/-- Where no tensor is shared, the tensors are registered in their order. -/
theorem seenBaseAddresses_of_nodup {useMla : Bool} {tensors : List KvTensor}
    {tables next : CacheTables}
    (distinct : (tables.seenBaseAddresses ++ tensors.map KvTensor.dataPtr).Nodup)
    (taken : Run.exec (registerTensor useMla) tables tensors = .ok next) :
    next.seenBaseAddresses = tables.seenBaseAddresses ++ tensors.map KvTensor.dataPtr := by
  induction tensors generalizing tables with
  | nil =>
      cases taken
      exact (List.append_nil _).symm
  | cons tensor tensors ih =>
      obtain ⟨middle, first, rest⟩ := Run.exec_cons_eq_ok.mp taken
      rw [List.map_cons, List.append_cons] at distinct ⊢
      have unseen : tensor.dataPtr ∉ tables.seenBaseAddresses := fun seen =>
        (List.nodup_append.mp (List.nodup_append.mp distinct).1).2.2 _ seen _
          List.mem_cons_self rfl
      rcases registerTensor_cases first with ⟨seen, _⟩ | ⟨_, _, _, _, _, _, rfl⟩
      · exact absurd seen unseen
      · exact ih distinct rest

/-- Where layers have as many tensors and share none, the regions of a layer follow one another:
those of K and then those of V. -/
def InLayers (tables : CacheTables) (isKvLayoutBlocksFirst : Bool)
    (layers : List (List KvTensor)) : Prop :=
  ∀ count, (∀ tensors ∈ layers, tensors.length = count) →
    (layers.flatten.map KvTensor.dataPtr).Nodup →
    tables.numLayers = layers.length ∧
      tables.numRegions = halves isKvLayoutBlocksFirst * count * layers.length ∧
      ∀ layerIdx, ∀ part < halves isKvLayoutBlocksFirst * count,
        tables.seenBaseAddresses[
            (halves isKvLayoutBlocksFirst * count * layerIdx + part) /
              halves isKvLayoutBlocksFirst]? =
          (layers[layerIdx]?.bind fun tensors =>
            tensors[part / halves isKvLayoutBlocksFirst]?).map KvTensor.dataPtr

theorem registerKvCaches_inLayers {useMla isKvLayoutBlocksFirst : Bool} {blockSize : ℕ}
    {layers : List (List KvTensor)} {tables : CacheTables}
    (registered : registerKvCaches useMla isKvLayoutBlocksFirst blockSize layers = .ok tables) :
    tables.InLayers isKvLayoutBlocksFirst layers := by
  intro count uniform distinct
  obtain ⟨consistent, _, _, regions⟩ := registerKvCaches_consistent registered
  have facts : tables.numLayers = layers.length ∧
      tables.seenBaseAddresses = layers.flatten.map KvTensor.dataPtr := by
    rw [registerKvCaches] at registered
    obtain ⟨looped, reached, registered⟩ := Run.bind_eq_ok.mp registered
    have none_seen : ((init blockSize).seenBaseAddresses ++
        layers.flatten.map KvTensor.dataPtr).Nodup := distinct
    have seen : looped.seenBaseAddresses = layers.flatten.map KvTensor.dataPtr :=
      seenBaseAddresses_of_nodup none_seen reached
    split at registered
    · cases registered
    · simp only at registered
      split at registered
      · split at registered
        · cases registered
          exact ⟨rfl, seen⟩
        · cases registered
      · cases registered
        exact ⟨rfl, seen⟩
  obtain ⟨isLayers, seen⟩ := facts
  have total : tables.cachesData.length = layers.length * count := by
    have sameLength := congrArg List.length (consistent.addresses.trans seen)
    rw [List.length_map, List.length_map, ← List.flatMap_id] at sameLength
    exact sameLength.trans (Grid.length_flatMap uniform)
  have positive := halves_pos isKvLayoutBlocksFirst
  refine ⟨isLayers, ?_, fun layerIdx part inside => ?_⟩
  · rw [regions, total, Nat.mul_comm, Nat.mul_comm layers.length, Nat.mul_assoc]
  · have column : part / halves isKvLayoutBlocksFirst < count :=
      Nat.div_lt_of_lt_mul inside
    rw [seen, List.getElem?_map, Nat.mul_assoc, Nat.mul_add_div positive, Nat.mul_comm count,
      Grid.getElem?_flatten uniform _ column]

/-! ## Block lengths -/

/-- All block lengths are the share of a block in the size that all tensors have. -/
def Uniform (tables : CacheTables) : Prop :=
  ∀ blockLen ∈ tables.blockLenPerLayer,
    ∃ bytes, tables.tensorSizeBytes = some bytes ∧ blockLen = bytes / tables.numBlocks

theorem registerTensor_uniform {tables next : CacheTables} {tensor : KvTensor}
    (uniform : tables.Uniform) (taken : tables.registerTensor false tensor = .ok next) :
    next.Uniform := by
  rcases registerTensor_cases taken with
    ⟨_, rfl⟩ | ⟨_, _, _, same, physicalBlocks, slotSize, rfl⟩
  · exact uniform
  · rw [Bool.false_or, decide_eq_true_eq] at same
    intro blockLen member
    rcases List.mem_append.mp member with earlier | last
    · obtain ⟨bytes, known, rfl⟩ := uniform blockLen earlier
      exact ⟨bytes, by rw [known, Option.getD_some], by simp [blockCount, known]⟩
    · obtain rfl := List.mem_singleton.mp last
      exact ⟨tensor.sizeBytes, congrArg some same, rfl⟩

/-- Caches that are no MLA caches have blocks of one length. -/
theorem registerKvCaches_uniform {isKvLayoutBlocksFirst : Bool} {blockSize : ℕ}
    {layers : List (List KvTensor)} {tables : CacheTables}
    (registered : registerKvCaches false isKvLayoutBlocksFirst blockSize layers = .ok tables) :
    tables.Uniform := by
  rw [registerKvCaches] at registered
  obtain ⟨looped, reached, registered⟩ := Run.bind_eq_ok.mp registered
  have uniform : looped.Uniform :=
    Run.exec_induction registerTensor_uniform (fun blockLen member => by cases member) reached
  split at registered
  · cases registered
  · simp only at registered
    split at registered
    · split at registered
      · cases registered
        exact uniform
      · cases registered
    · cases registered
      exact uniform

theorem Uniform.eq {tables : CacheTables} (uniform : tables.Uniform) {blockLen other : ℕ}
    (member : blockLen ∈ tables.blockLenPerLayer) (otherMember : other ∈ tables.blockLenPerLayer) :
    blockLen = other := by
  obtain ⟨bytes, known, rfl⟩ := uniform blockLen member
  obtain ⟨otherBytes, otherKnown, rfl⟩ := uniform other otherMember
  rw [Option.some.inj (known.symm.trans otherKnown)]

end CacheTables

end RduHdi
