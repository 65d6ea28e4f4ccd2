import RduHdi.Connector.Handshake
import RduHdi.Connector.ReadsSpec

/-!
# What descriptors address

A region and a block select an entry of each list of descriptors.  This file says which memory the
entry stands for: on this side a part of the registered cache of that region, on the remote side a
part of the cache of that region in the rank's metadata, as long as the part it is paired with.
-/

namespace RduHdi

/-- A stretch lies in `size` bytes from `start` on. -/
structure XferDesc.Within (desc : XferDesc) (start size : ℕ) : Prop where
  /-- It does not begin before. -/
  start_le : start ≤ desc.addr
  /-- It does not end after. -/
  stop_le : desc.addr + desc.len ≤ start + size

theorem XferDesc.Within.chunk {desc : XferDesc} {start size : ℕ} (within : desc.Within start size)
    {chunks index : ℕ} (isChunk : index < chunks) :
    (desc.chunk chunks index).Within start size := by
  have stop : (index + 1) * (desc.len / chunks) ≤ desc.len :=
    (Nat.mul_le_mul_right _ isChunk).trans (Nat.mul_div_le desc.len chunks)
  rw [Nat.succ_mul] at stop
  obtain ⟨start_le, stop_le⟩ := within
  constructor
  · change start ≤ desc.addr + _
    omega
  · change desc.addr + index * (desc.len / chunks) + desc.len / chunks ≤ _
    omega

/-! ## The descriptors of a transfer -/

/-- Two descriptors of one region, each of a block of its side. -/
def PairedDescs (numRegions localCount remoteCount : ℕ) (localBlockIds remoteBlockIds : List ℕ)
    (localDesc remoteDesc : ℕ) : Prop :=
  ∃ region block remoteBlock, region < numRegions ∧ block ∈ localBlockIds ∧
    remoteBlock ∈ remoteBlockIds ∧ localDesc = region * localCount + block ∧
    remoteDesc = region * remoteCount + remoteBlock

theorem PairedDescs.mono {numRegions localCount remoteCount : ℕ}
    {localBlockIds remoteBlockIds moreLocal moreRemote : List ℕ} {localDesc remoteDesc : ℕ}
    (paired : PairedDescs numRegions localCount remoteCount localBlockIds remoteBlockIds localDesc
      remoteDesc)
    (localSubset : localBlockIds ⊆ moreLocal) (remoteSubset : remoteBlockIds ⊆ moreRemote) :
    PairedDescs numRegions localCount remoteCount moreLocal moreRemote localDesc remoteDesc := by
  obtain ⟨region, block, remoteBlock, isRegion, isLocal, isRemote, isDesc, isRemoteDesc⟩ := paired
  exact ⟨region, block, remoteBlock, isRegion, localSubset isLocal, remoteSubset isRemote, isDesc,
    isRemoteDesc⟩

/-- Lists of as many blocks are paired region by region. -/
theorem forall₂_pairedDescs (numRegions localCount remoteCount : ℕ)
    {localBlockIds remoteBlockIds : List ℕ} (same : localBlockIds.length = remoteBlockIds.length)
    {regions : List ℕ} (areRegions : ∀ region ∈ regions, region < numRegions) :
    List.Forall₂ (PairedDescs numRegions localCount remoteCount localBlockIds remoteBlockIds)
      (regions.flatMap fun region => localBlockIds.map fun block => region * localCount + block)
      (regions.flatMap fun region => remoteBlockIds.map fun block =>
        region * remoteCount + block) := by
  induction regions with
  | nil => exact .nil
  | cons region regions ih =>
      rw [List.flatMap_cons, List.flatMap_cons]
      apply List.rel_append _ (ih fun other member => areRegions other (.tail _ member))
      rw [List.forall₂_map_left_iff, List.forall₂_map_right_iff, List.forall₂_iff_zip]
      refine ⟨same, fun {block remoteBlock} member => ?_⟩
      obtain ⟨isLocal, isRemote⟩ := List.of_mem_zip member
      exact ⟨region, block, remoteBlock, areRegions region List.mem_cons_self, isLocal, isRemote,
        rfl, rfl⟩

theorem length_lastBlocks {blockIds others : List ℕ} (same : blockIds.length = others.length)
    (count : ℕ) : (lastBlocks count blockIds).length = (lastBlocks count others).length := by
  rw [lastBlocks, lastBlocks]
  split
  · exact same
  · rw [List.length_drop, List.length_drop, same]

theorem lastBlocks_subset (count : ℕ) (blockIds : List ℕ) :
    lastBlocks count blockIds ⊆ blockIds := by
  rw [lastBlocks]
  split
  · exact List.Subset.refl _
  · exact List.drop_subset _ _

namespace ReadingWorker

variable {ω : Type*} {worker : ReadingWorker ω}

theorem regionIds_lt {layerIdx : Option ℕ} {regions : List ℕ}
    (taken : worker.regionIds layerIdx = .ok regions) :
    ∀ region ∈ regions, region < worker.numRegions := by
  intro region member
  cases layerIdx with
  | none =>
      cases taken
      exact List.mem_range.mp member
  | some layerIdx =>
      rw [regionIds] at taken
      split at taken
      · split at taken
        · split at taken
          · cases taken
            simp only [List.mem_cons, List.not_mem_nil, or_false] at member
            omega
          · cases taken
        · split at taken
          · cases taken
            obtain rfl := List.mem_singleton.mp member
            omega
          · cases taken
      · cases taken

variable {dstEngineId : EngineId} {blockSizeRatio localCount remoteCount : ℕ}
  {localBlockIds remoteBlockIds : List ℕ}

/-- The two sides of a layer, or of all layers, are paired. -/
theorem getBlockDescsIds_paired
    (localKnown : worker.dstNumBlocks.lookup worker.engineId = some localCount)
    (remoteKnown : worker.dstNumBlocks.lookup dstEngineId = some remoteCount)
    (same : localBlockIds.length = remoteBlockIds.length) {layerIdx : Option ℕ}
    {localDescs remoteDescs : List ℕ}
    (localTaken : worker.getBlockDescsIds worker.engineId localBlockIds layerIdx
      (some blockSizeRatio) = .ok localDescs)
    (remoteTaken : worker.getBlockDescsIds dstEngineId remoteBlockIds layerIdx none =
      .ok remoteDescs) :
    List.Forall₂ (PairedDescs worker.numRegions (localCount * blockSizeRatio) remoteCount
      localBlockIds remoteBlockIds) localDescs remoteDescs := by
  obtain ⟨count, regions, known, chosen, rfl⟩ := getBlockDescsIds_eq_ok localTaken
  obtain rfl : localCount = count := Option.some.inj (localKnown.symm.trans known)
  obtain ⟨count, others, known, alsoChosen, rfl⟩ := getBlockDescsIds_eq_ok remoteTaken
  obtain rfl : remoteCount = count := Option.some.inj (remoteKnown.symm.trans known)
  obtain rfl : regions = others := Except.ok.inj (chosen.symm.trans alsoChosen)
  rw [Option.getD_some, Option.getD_none, Nat.mul_one]
  exact forall₂_pairedDescs _ _ _ same (regionIds_lt chosen)

theorem windowDescs_paired
    (localKnown : worker.dstNumBlocks.lookup worker.engineId = some localCount)
    (remoteKnown : worker.dstNumBlocks.lookup dstEngineId = some remoteCount)
    (same : localBlockIds.length = remoteBlockIds.length) {windows : List (Option ℕ)}
    {layerIdx : ℕ} {descs : List ℕ × List ℕ}
    (taken : worker.windowDescs dstEngineId blockSizeRatio localBlockIds remoteBlockIds layerIdx
      windows = .ok descs) :
    List.Forall₂ (PairedDescs worker.numRegions (localCount * blockSizeRatio) remoteCount
      localBlockIds remoteBlockIds) descs.1 descs.2 := by
  induction windows generalizing layerIdx descs with
  | nil =>
      cases taken
      exact .nil
  | cons blockWindow windows ih =>
      rw [windowDescs] at taken
      simp only at taken
      obtain ⟨localDescs, localTaken, taken⟩ := Run.bind_eq_ok.mp taken
      obtain ⟨remoteDescs, remoteTaken, taken⟩ := Run.bind_eq_ok.mp taken
      obtain ⟨rest, others, taken⟩ := Run.bind_eq_ok.mp taken
      cases taken
      refine List.rel_append ?_ (ih others)
      cases blockWindow with
      | none => exact getBlockDescsIds_paired localKnown remoteKnown same localTaken remoteTaken
      | some count =>
          have paired := getBlockDescsIds_paired localKnown remoteKnown
            (length_lastBlocks same count) localTaken remoteTaken
          exact paired.imp fun _ _ pair =>
            pair.mono (lastBlocks_subset count _) (lastBlocks_subset count _)

theorem xferDescs_paired
    (localKnown : worker.dstNumBlocks.lookup worker.engineId = some localCount)
    (remoteKnown : worker.dstNumBlocks.lookup dstEngineId = some remoteCount)
    (same : localBlockIds.length = remoteBlockIds.length) {localDescs remoteDescs : List ℕ}
    (taken : worker.xferDescs dstEngineId blockSizeRatio localBlockIds remoteBlockIds =
      .ok (localDescs, remoteDescs)) :
    List.Forall₂ (PairedDescs worker.numRegions (localCount * blockSizeRatio) remoteCount
      localBlockIds remoteBlockIds) localDescs remoteDescs := by
  rw [xferDescs] at taken
  obtain ⟨descs, sides, taken⟩ := Run.bind_eq_ok.mp taken
  have isPair : descs = (localDescs, remoteDescs) := by
    split at taken
    · exact Except.ok.inj taken
    · cases taken
  subst isPair
  rw [sideDescs] at sides
  split at sides
  · obtain ⟨remoteSide, remoteTaken, sides⟩ := Run.bind_eq_ok.mp sides
    obtain ⟨localSide, localTaken, sides⟩ := Run.bind_eq_ok.mp sides
    cases sides
    exact getBlockDescsIds_paired localKnown remoteKnown same localTaken remoteTaken
  · exact windowDescs_paired localKnown remoteKnown same sides

end ReadingWorker

namespace CacheTables

/-! ## The worker's own regions -/

theorem half_stop_le (isKvLayoutBlocksFirst : Bool) (blockLen ratio : ℕ) {half : ℕ}
    (isHalf : half < halves isKvLayoutBlocksFirst) :
    half * (halfLen isKvLayoutBlocksFirst blockLen / ratio) +
        halfLen isKvLayoutBlocksFirst blockLen / ratio ≤ blockLen / ratio := by
  rw [halfLen, Nat.div_div_eq_div_mul, Nat.mul_comm (halves isKvLayoutBlocksFirst) ratio,
    ← Nat.div_div_eq_div_mul, ← Nat.succ_mul]
  exact (Nat.mul_le_mul_right _ isHalf).trans (Nat.mul_div_le _ _)

theorem half_mul_eq (isKvLayoutBlocksFirst : Bool) (blockLen : ℕ) {half : ℕ}
    (isHalf : half < halves isKvLayoutBlocksFirst) :
    half * (blockLen / 2) = half * halfLen isKvLayoutBlocksFirst blockLen := by
  cases isKvLayoutBlocksFirst with
  | false =>
      obtain rfl : half = 0 := Nat.lt_one_iff.mp isHalf
      rw [Nat.zero_mul, Nat.zero_mul]
  | true => rfl

theorem block_stop_le {block count blockLen : ℕ} (inside : block < count) :
    block * blockLen + blockLen ≤ count * blockLen := by
  rw [← Nat.succ_mul]
  exact Nat.mul_le_mul_right blockLen inside

variable {tables : CacheTables}

theorem Consistent.length_eq (consistent : tables.Consistent) :
    tables.seenBaseAddresses.length = tables.cachesData.length ∧
      tables.blockLenPerLayer.length = tables.cachesData.length := by
  rw [← consistent.addresses, List.length_map]
  exact ⟨rfl, consistent.fits.length_eq.symm⟩

theorem Consistent.exists_layer (consistent : tables.Consistent) {layer : ℕ}
    (isLayer : layer < tables.cachesData.length) :
    ∃ data blockLen, tables.cachesData[layer]? = some data ∧
      tables.blockLenPerLayer[layer]? = some blockLen ∧
      tables.seenBaseAddresses[layer]? = some data.addr ∧
      blockLen * tables.numBlocks ≤ data.len := by
  obtain ⟨_, lengths⟩ := consistent.length_eq
  have isLen : layer < tables.blockLenPerLayer.length := lengths ▸ isLayer
  refine ⟨tables.cachesData[layer], tables.blockLenPerLayer[layer],
    List.getElem?_eq_getElem isLayer, List.getElem?_eq_getElem isLen, ?_,
    (List.forall₂_iff_get.mp consistent.fits).2 layer isLayer isLen⟩
  rw [← consistent.addresses, List.getElem?_map, List.getElem?_eq_getElem isLayer]
  rfl

theorem localEntry_eq {isKvLayoutBlocksFirst : Bool} {ratio region block baseAddr blockLen : ℕ}
    (isBase : tables.seenBaseAddresses[region / halves isKvLayoutBlocksFirst]? = some baseAddr)
    (isLen : tables.blockLenPerLayer[region / halves isKvLayoutBlocksFirst]? = some blockLen) :
    tables.localEntry isKvLayoutBlocksFirst ratio region block =
      some {
        addr := baseAddr +
          region % halves isKvLayoutBlocksFirst *
            (halfLen isKvLayoutBlocksFirst blockLen / ratio) +
          block * (blockLen / ratio)
        len := halfLen isKvLayoutBlocksFirst blockLen / ratio
        deviceId := tables.deviceId } := by
  have layer : (tables.seenBaseAddresses.zip tables.blockLenPerLayer)[
      region / halves isKvLayoutBlocksFirst]? = some (baseAddr, blockLen) :=
    List.getElem?_zip_eq_some.mpr ⟨isBase, isLen⟩
  rw [localEntry, layer]
  rfl

/-- An entry of this worker lies in the registered cache of its region. -/
theorem Consistent.localEntry_within (consistent : tables.Consistent)
    {isKvLayoutBlocksFirst : Bool} {ratio region block : ℕ}
    (isRegion : region / halves isKvLayoutBlocksFirst < tables.cachesData.length)
    (inside : block < tables.numBlocks * ratio) :
    ∃ entry data blockLen,
      tables.localEntry isKvLayoutBlocksFirst ratio region block = some entry ∧
      tables.cachesData[region / halves isKvLayoutBlocksFirst]? = some data ∧
      tables.blockLenPerLayer[region / halves isKvLayoutBlocksFirst]? = some blockLen ∧
      entry.len = halfLen isKvLayoutBlocksFirst blockLen / ratio ∧
      entry.Within data.addr data.len := by
  obtain ⟨data, blockLen, isData, isLen, isBase, fits⟩ := consistent.exists_layer isRegion
  refine ⟨_, data, blockLen, localEntry_eq isBase isLen, isData, isLen, rfl, ?_⟩
  · have half := half_stop_le isKvLayoutBlocksFirst blockLen ratio
      (Nat.mod_lt region (halves_pos isKvLayoutBlocksFirst))
    have cell : block * (blockLen / ratio) + blockLen / ratio ≤
        tables.numBlocks * ratio * (blockLen / ratio) := block_stop_le inside
    have total : tables.numBlocks * ratio * (blockLen / ratio) ≤ data.len :=
      calc tables.numBlocks * ratio * (blockLen / ratio)
          = tables.numBlocks * (ratio * (blockLen / ratio)) := Nat.mul_assoc _ _ _
        _ ≤ tables.numBlocks * blockLen := Nat.mul_le_mul_left _ (Nat.mul_div_le blockLen ratio)
        _ = blockLen * tables.numBlocks := Nat.mul_comm _ _
        _ ≤ data.len := fits
    constructor
    · dsimp only
      omega
    · dsimp only
      omega

end CacheTables

namespace HandshakeWorker

variable {ω : Type} (worker : HandshakeWorker ω)

/-! ## The lists of a handshake -/

/-- Own regions are cut into a chunk for each of several remote ranks. -/
def Chunked (ratios : Ratios) : Prop := ratios.tpRatio < 0 ∧ ¬ worker.useMla

instance (ratios : Ratios) : Decidable (worker.Chunked ratios) := by
  unfold Chunked
  infer_instance

/-- Several ranks of this group share a remote rank, each with heads of its own. -/
def indexesIntoRemote (ratios : Ratios) : Bool :=
  !(worker.useMla || ratios.replicated) && ratios.tpRatio > 0

/-- The list of the side of this worker that the read at an index uses. -/
def ownBlocksData (ratios : Ratios) (index : ℕ) : List XferDesc :=
  if worker.Chunked ratios then
    CacheTables.splitBlocksData (-ratios.tpRatio).toNat index worker.srcBlocksData
  else
    worker.caches.localBlocksData worker.rules.isKvLayoutBlocksFirst ratios.blockSizeRatio

/-- The entry of a region and a block on this side. -/
def ownEntry (ratios : Ratios) (index region block : ℕ) : Option XferDesc :=
  let entry := worker.caches.localEntry worker.rules.isKvLayoutBlocksFirst ratios.blockSizeRatio
    region block
  if worker.Chunked ratios then
    entry.map fun whole =>
      { whole with
        addr := whole.addr + index * (whole.len / (-ratios.tpRatio).toNat)
        len := whole.len / (-ratios.tpRatio).toNat }
  else
    entry

/-- The bytes that a pair of entries of a layer moves. -/
def xferLen (ratios : Ratios) (blockLen : ℕ) : ℕ :=
  let unit := CacheTables.halfLen worker.rules.isKvLayoutBlocksFirst blockLen /
    ratios.blockSizeRatio
  if worker.Chunked ratios then unit / (-ratios.tpRatio).toNat else unit

/-- Where the heads of this rank begin in a half of a remote block. -/
def rankOffset (ratios : Ratios) (blockLen : ℕ) : ℕ :=
  if worker.indexesIntoRemote ratios then
    worker.tpRank % ratios.tpRatio.toNat *
      (CacheTables.halfLen worker.rules.isKvLayoutBlocksFirst blockLen / ratios.blockSizeRatio)
  else 0

/-- The entry of a region and a block of a remote rank. -/
def remoteEntry (agent : NixlAgentMetadata) (ratios : Ratios) (region block : ℕ) :
    Option XferDesc := do
  let halves := CacheTables.halves worker.rules.isKvLayoutBlocksFirst
  let baseAddr ← agent.kvCachesBaseAddr[region / halves]?
  let blockLen ← worker.caches.blockLenPerLayer[region / halves]?
  let remoteBlockLen ← agent.blockLens[region / halves]?
  return {
    addr := baseAddr + worker.rankOffset ratios blockLen + region % halves * (remoteBlockLen / 2) +
      block * remoteBlockLen
    len := worker.xferLen ratios blockLen
    deviceId := agent.deviceId }

/-- The metadata of a remote rank fits the caches of this worker. -/
structure Fits (agent : NixlAgentMetadata) (ratios : Ratios) : Prop where
  /-- A remote block has tokens. -/
  blockSizeRatio_pos : 0 < ratios.blockSizeRatio
  /-- There is a ratio. -/
  tpRatio_ne_zero : ratios.tpRatio ≠ 0
  /-- A replicated cache is not read in parts. -/
  notBoth : ¬ (ratios.tpRatio < 0 ∧ ratios.replicated)
  /-- The lengths of the blocks were compared. -/
  blockLens : worker.checkBlockLens agent ratios.replicated ratios.tpRatio ratios.blockSizeRatio =
    .ok ⟨⟩
  /-- The remote rank has as many regions. -/
  regions : agent.kvCachesBaseAddr.length = worker.caches.blockLenPerLayer.length

/-- The caches of the worker are registered. -/
structure Registered : Prop where
  /-- The tables belong together. -/
  consistent : worker.caches.Consistent
  /-- Without MLA all blocks have one length. -/
  uniform : worker.useMla = false → worker.caches.Uniform
  /-- Blocks have tokens. -/
  blockSize_pos : 0 < worker.caches.blockSize
  /-- Regions are counted by the halves of a block. -/
  numRegions_eq : worker.caches.numRegions =
    worker.caches.cachesData.length * CacheTables.halves worker.rules.isKvLayoutBlocksFirst

theorem registered_of_registerKvCaches {blockSize : ℕ} {layers : List (List KvTensor)}
    (registered : CacheTables.registerKvCaches worker.useMla worker.rules.isKvLayoutBlocksFirst
      blockSize layers = .ok worker.caches) : worker.Registered := by
  obtain ⟨consistent, _, blockSize_pos, numRegions_eq⟩ :=
    CacheTables.registerKvCaches_consistent registered
  refine ⟨consistent, fun noMla => ?_, blockSize_pos, numRegions_eq⟩
  rw [noMla] at registered
  exact CacheTables.registerKvCaches_uniform registered

/-- The block length of a remote layer, from the own one. -/
def remoteBlockLen (ratios : Ratios) (blockLen : ℕ) : ℕ :=
  if worker.useMla || ratios.replicated then
    blockLen / ratios.blockSizeRatio
  else if ratios.tpRatio > 0 then
    blockLen * ratios.tpRatio.toNat / ratios.blockSizeRatio
  else
    blockLen / (-ratios.tpRatio).toNat

variable {worker}

/-! ## What validation says about block lengths -/

theorem matchBlockLens_eq_ok {ratio : ℕ} {blockLens remoteBlockLens : List ℕ}
    (accepted : matchBlockLens ratio blockLens remoteBlockLens = .ok ⟨⟩) {layer blockLen : ℕ}
    (isLen : blockLens[layer]? = some blockLen) :
    remoteBlockLens[layer]? = some (blockLen / ratio) := by
  induction blockLens generalizing remoteBlockLens layer with
  | nil => cases isLen
  | cons first blockLens ih =>
      cases remoteBlockLens with
      | nil => cases accepted
      | cons remoteFirst remoteBlockLens =>
          rw [matchBlockLens] at accepted
          obtain ⟨scaled, divides, accepted⟩ := Run.bind_eq_ok.mp accepted
          obtain ⟨_, rfl⟩ := CacheTables.floorDiv_eq_ok.mp divides
          split at accepted
          · rename_i same
            cases layer with
            | zero =>
                obtain rfl : first = blockLen := Option.some.inj isLen
                rw [same]
                rfl
            | succ layer => exact ih accepted isLen
          · cases accepted

theorem Registered.first_blockLen (registered : worker.Registered) (noMla : worker.useMla = false)
    {first : ℕ} (isFirst : worker.caches.blockLenPerLayer[0]? = some first) {layer blockLen : ℕ}
    (isLen : worker.caches.blockLenPerLayer[layer]? = some blockLen) : first = blockLen :=
  (registered.uniform noMla).eq (List.mem_of_getElem? isFirst) (List.mem_of_getElem? isLen)

/-- The length that validation accepts for caches that are split by heads. -/
theorem matchSplitBlockLens_eq_ok {remoteBlockLens : List ℕ} {remoteFirst : ℕ} {tpRatio : ℤ}
    {ratio : ℕ}
    (accepted : worker.matchSplitBlockLens remoteBlockLens remoteFirst tpRatio ratio = .ok ⟨⟩) :
    (∀ remoteBlockLen ∈ remoteBlockLens, remoteBlockLen = remoteFirst) ∧
      ∃ first, worker.caches.blockLenPerLayer[0]? = some first ∧
        (0 < tpRatio → remoteFirst = first * tpRatio.toNat / ratio) ∧
        (¬ 0 < tpRatio → ratio = 1 ∧ remoteFirst = first / (-tpRatio).toNat) := by
  rw [matchSplitBlockLens] at accepted
  split at accepted
  · cases accepted
  · rename_i allSame
    refine ⟨fun remoteBlockLen member => ?_, ?_⟩
    · by_contra differs
      exact allSame (List.any_eq_true.mpr ⟨remoteBlockLen, member, by simpa using differs⟩)
    · split at accepted
      · cases accepted
      · rename_i first isFirst
        refine ⟨first, isFirst, fun positive => ?_, fun negative => ?_⟩
        · rw [if_pos positive] at accepted
          obtain ⟨expected, divides, accepted⟩ := Run.bind_eq_ok.mp accepted
          obtain ⟨_, rfl⟩ := CacheTables.floorDiv_eq_ok.mp divides
          split at accepted
          · assumption
          · cases accepted
        · rw [if_neg negative] at accepted
          split at accepted
          · cases accepted
          · rename_i one
            obtain ⟨expected, divides, accepted⟩ := Run.bind_eq_ok.mp accepted
            obtain ⟨_, rfl⟩ := CacheTables.floorDiv_eq_ok.mp divides
            split at accepted
            · exact ⟨not_not.mp one, by assumption⟩
            · cases accepted

/-- The checks of the block lengths, by the way the caches are split. -/
theorem checkBlockLens_eq_ok {agent : NixlAgentMetadata} {replicated : Bool} {tpRatio : ℤ}
    {ratio : ℕ} (accepted : worker.checkBlockLens agent replicated tpRatio ratio = .ok ⟨⟩) :
    ∃ remoteFirst, agent.blockLens[0]? = some remoteFirst ∧
      if worker.useMla || replicated then
        matchBlockLens ratio worker.caches.blockLenPerLayer agent.blockLens = .ok ⟨⟩
      else
        worker.matchSplitBlockLens agent.blockLens remoteFirst tpRatio ratio = .ok ⟨⟩ := by
  rw [checkBlockLens] at accepted
  split at accepted
  · cases accepted
  · rename_i remoteFirst isFirst
    refine ⟨remoteFirst, isFirst, ?_⟩
    split at accepted
    · rwa [if_pos ‹_›]
    · rwa [if_neg ‹_›]

theorem Fits.blockSizeRatio_eq_one {agent : NixlAgentMetadata} {ratios : Ratios}
    (fits : worker.Fits agent ratios) (chunked : worker.Chunked ratios) :
    ratios.blockSizeRatio = 1 := by
  obtain ⟨remoteFirst, _, accepted⟩ := checkBlockLens_eq_ok fits.blockLens
  have split : (worker.useMla || ratios.replicated) = false := by
    rw [Bool.or_eq_false_iff, ← Bool.not_eq_true, ← Bool.not_eq_true]
    exact ⟨chunked.2, fun replicated => fits.notBoth ⟨chunked.1, replicated⟩⟩
  rw [if_neg (by rw [split]; exact Bool.false_ne_true)] at accepted
  obtain ⟨_, first, _, _, negative⟩ := matchSplitBlockLens_eq_ok accepted
  exact (negative (Int.not_lt.mpr (Int.le_of_lt chunked.1))).1

/-- The block length of a remote layer is the one that validation expects. -/
theorem Fits.remoteBlockLen_eq {agent : NixlAgentMetadata} {ratios : Ratios}
    (fits : worker.Fits agent ratios) (registered : worker.Registered)
    {layer blockLen remoteBlockLen : ℕ}
    (isLen : worker.caches.blockLenPerLayer[layer]? = some blockLen)
    (isRemoteLen : agent.blockLens[layer]? = some remoteBlockLen) :
    remoteBlockLen = worker.remoteBlockLen ratios blockLen := by
  obtain ⟨remoteFirst, _, accepted⟩ := checkBlockLens_eq_ok fits.blockLens
  rw [HandshakeWorker.remoteBlockLen]
  split at accepted
  · rename_i whole
    rw [if_pos whole]
    exact Option.some.inj (isRemoteLen.symm.trans (matchBlockLens_eq_ok accepted isLen))
  · rename_i split
    rw [if_neg split]
    rw [Bool.not_eq_true, Bool.or_eq_false_iff] at split
    obtain ⟨allSame, first, isFirst, positive, negative⟩ := matchSplitBlockLens_eq_ok accepted
    rw [allSame _ (List.mem_of_getElem? isRemoteLen)]
    obtain rfl := registered.first_blockLen split.1 isFirst isLen
    split
    · exact positive ‹_›
    · exact (negative ‹_›).2

theorem Registered.layer_lt (registered : worker.Registered) {region : ℕ}
    (isRegion : region < worker.caches.numRegions) :
    region / CacheTables.halves worker.rules.isKvLayoutBlocksFirst <
      worker.caches.cachesData.length := by
  rw [registered.numRegions_eq] at isRegion
  exact Nat.div_lt_of_lt_mul (Nat.mul_comm _ _ ▸ isRegion)

/-! ## Selection on this side -/

/-- On this side a region and a block select their entry. -/
theorem getElem?_ownBlocksData {agent : NixlAgentMetadata} {ratios : Ratios}
    (fits : worker.Fits agent ratios) {index region block : ℕ}
    (inside : block < worker.caches.numBlocks * ratios.blockSizeRatio) :
    (worker.ownBlocksData ratios index)[
        region * (worker.caches.numBlocks * ratios.blockSizeRatio) + block]? =
      worker.ownEntry ratios index region block := by
  rw [ownBlocksData, ownEntry]
  split
  · rename_i chunked
    -- Validation accepts a larger remote group only with its own block size.
    have same : ratios.blockSizeRatio = 1 := fits.blockSizeRatio_eq_one chunked
    rw [same] at inside ⊢
    rw [CacheTables.splitBlocksData, List.getElem?_map, srcBlocksData,
      CacheTables.getElem?_localBlocksData _ _ inside]
    rfl
  · exact CacheTables.getElem?_localBlocksData _ _ inside

theorem Registered.ownEntry_within (registered : worker.Registered) {ratios : Ratios}
    {index region block : ℕ}
    (isRead : worker.Chunked ratios → index < (-ratios.tpRatio).toNat)
    (isRegion : region < worker.caches.numRegions)
    (inside : block < worker.caches.numBlocks * ratios.blockSizeRatio) :
    ∃ entry data blockLen,
      worker.ownEntry ratios index region block = some entry ∧
      worker.caches.cachesData[
        region / CacheTables.halves worker.rules.isKvLayoutBlocksFirst]? = some data ∧
      worker.caches.blockLenPerLayer[
        region / CacheTables.halves worker.rules.isKvLayoutBlocksFirst]? = some blockLen ∧
      entry.len = worker.xferLen ratios blockLen ∧ entry.Within data.addr data.len := by
  obtain ⟨entry, data, blockLen, isEntry, isData, isLen, len, within⟩ :=
    registered.consistent.localEntry_within (registered.layer_lt isRegion) inside
  rw [ownEntry, isEntry]
  by_cases chunked : worker.Chunked ratios
  · refine ⟨_, data, blockLen, if_pos chunked, isData, isLen, ?_, within.chunk (isRead chunked)⟩
    rw [xferLen, if_pos chunked, ← len]
  · refine ⟨entry, data, blockLen, if_neg chunked, isData, isLen, ?_, within⟩
    rw [xferLen, if_neg chunked, len]

/-! ## Selection on the remote side -/

theorem remoteCacheDescs_eq_ok {agent : NixlAgentMetadata} {ratios : Ratios}
    (fits : worker.Fits agent ratios) (some_block : agent.numBlocks ≠ 0) {baseAddr layer : ℕ}
    {descs : List XferDesc}
    (built : worker.remoteCacheDescs agent ratios.tpRatio ratios.blockSizeRatio
      (worker.indexesIntoRemote ratios) (baseAddr, layer) = .ok descs) :
    ∃ blockLen remoteBlockLen, worker.caches.blockLenPerLayer[layer]? = some blockLen ∧
      agent.blockLens[layer]? = some remoteBlockLen ∧
      descs = CacheTables.cacheDescs worker.rules.isKvLayoutBlocksFirst
        (baseAddr + worker.rankOffset ratios blockLen) remoteBlockLen (remoteBlockLen / 2)
        agent.numBlocks (worker.xferLen ratios blockLen) agent.deviceId := by
  rw [remoteCacheDescs] at built
  simp only [CacheTables.kvBlockLen_eq] at built
  split at built
  · cases built
  · rename_i blockLen isLen
    obtain ⟨unit, divides, built⟩ := Run.bind_eq_ok.mp built
    obtain ⟨_, rfl⟩ := CacheTables.floorDiv_eq_ok.mp divides
    obtain ⟨len, cut, built⟩ := Run.bind_eq_ok.mp built
    rw [if_neg some_block] at built
    split at built
    · cases built
    · rename_i remoteBlockLen isRemoteLen
      refine ⟨blockLen, remoteBlockLen, isLen, isRemoteLen, ?_⟩
      have isUnit : (if ratios.blockSizeRatio > 1 then
            CacheTables.halfLen worker.rules.isKvLayoutBlocksFirst blockLen /
              ratios.blockSizeRatio
          else CacheTables.halfLen worker.rules.isKvLayoutBlocksFirst blockLen) =
          CacheTables.halfLen worker.rules.isKvLayoutBlocksFirst blockLen /
            ratios.blockSizeRatio := by
        split
        · rfl
        · rename_i small
          have one : ratios.blockSizeRatio = 1 := by
            have := fits.blockSizeRatio_pos
            omega
          rw [one, Nat.div_one]
      have isLen : len = worker.xferLen ratios blockLen := by
        rw [isUnit, chunkLen] at cut
        rw [xferLen]
        split at cut
        · rename_i chunked
          obtain ⟨_, rfl⟩ := CacheTables.floorDiv_eq_ok.mp cut
          exact (if_pos chunked).symm
        · rename_i whole
          cases cut
          exact (if_neg whole).symm
      cases built
      rw [isLen, rankOffset]

/-- Every layer of a remote rank has its row in the list. -/
theorem remoteBlocksData_eq_ok {agent : NixlAgentMetadata} {ratios : Ratios}
    (fits : worker.Fits agent ratios) (some_block : agent.numBlocks ≠ 0)
    {remoteData : List XferDesc}
    (built : worker.remoteBlocksData agent ratios.tpRatio ratios.blockSizeRatio
      (worker.indexesIntoRemote ratios) = .ok remoteData) :
    ∃ rows : List (List XferDesc), remoteData = rows.flatten ∧
      (∀ row ∈ rows, row.length =
        CacheTables.halves worker.rules.isKvLayoutBlocksFirst * agent.numBlocks) ∧
      ∀ {layer baseAddr : ℕ}, agent.kvCachesBaseAddr[layer]? = some baseAddr →
        ∃ blockLen remoteBlockLen, worker.caches.blockLenPerLayer[layer]? = some blockLen ∧
          agent.blockLens[layer]? = some remoteBlockLen ∧
          rows[layer]? = some (CacheTables.cacheDescs worker.rules.isKvLayoutBlocksFirst
            (baseAddr + worker.rankOffset ratios blockLen) remoteBlockLen (remoteBlockLen / 2)
            agent.numBlocks (worker.xferLen ratios blockLen) agent.deviceId) := by
  obtain ⟨rows, through, rfl⟩ := Run.map_eq_ok.mp built
  have each := Run.forall₂_of_mapM through
  refine ⟨rows, rfl, fun row member => ?_, fun {layer baseAddr} isBase => ?_⟩
  · obtain ⟨layer, isRow, rfl⟩ := List.getElem_of_mem member
    have isLayer : layer < agent.kvCachesBaseAddr.zipIdx.length := each.length_eq ▸ isRow
    have cut := (List.forall₂_iff_get.mp each).2 layer isLayer isRow
    obtain ⟨blockLen, remoteBlockLen, _, _, same⟩ := remoteCacheDescs_eq_ok fits some_block cut
    rw [List.get_eq_getElem] at same
    rw [same, CacheTables.length_cacheDescs]
  · obtain ⟨isLayer, rfl⟩ := List.getElem?_eq_some_iff.mp isBase
    have isZip : layer < agent.kvCachesBaseAddr.zipIdx.length := by rwa [List.length_zipIdx]
    have isRow : layer < rows.length := each.length_eq ▸ isZip
    have cut := (List.forall₂_iff_get.mp each).2 layer isZip isRow
    rw [List.get_eq_getElem, List.getElem_zipIdx, Nat.zero_add] at cut
    obtain ⟨blockLen, remoteBlockLen, isLen, isRemoteLen, same⟩ :=
      remoteCacheDescs_eq_ok fits some_block cut
    exact ⟨blockLen, remoteBlockLen, isLen, isRemoteLen,
      (List.getElem?_eq_getElem isRow).trans (congrArg some same)⟩

/-- The heads of this rank lie in a half of a remote block. -/
theorem Fits.heads_stop_le {agent : NixlAgentMetadata} {ratios : Ratios}
    (fits : worker.Fits agent ratios) (blockLen : ℕ) :
    worker.rankOffset ratios blockLen + worker.xferLen ratios blockLen ≤
      worker.remoteBlockLen ratios blockLen /
        CacheTables.halves worker.rules.isKvLayoutBlocksFirst := by
  have split_unit : CacheTables.halfLen worker.rules.isKvLayoutBlocksFirst blockLen /
      ratios.blockSizeRatio = blockLen /
        (ratios.blockSizeRatio * CacheTables.halves worker.rules.isKvLayoutBlocksFirst) := by
    rw [CacheTables.halfLen, Nat.div_div_eq_div_mul, Nat.mul_comm]
  rw [rankOffset, xferLen, HandshakeWorker.remoteBlockLen, indexesIntoRemote]
  simp only [split_unit]
  by_cases whole : worker.useMla || ratios.replicated
  · have unchunked : ¬ worker.Chunked ratios := by
      rintro ⟨negative, noMla⟩
      rcases Bool.or_eq_true_iff.mp whole with mla | replicated
      · exact noMla mla
      · exact fits.notBoth ⟨negative, replicated⟩
    rw [if_pos whole, if_neg unchunked, whole, Bool.not_true, Bool.false_and,
      if_neg Bool.false_ne_true, Nat.zero_add, Nat.div_div_eq_div_mul]
  · have noMla : ¬ worker.useMla := fun mla => whole (Bool.or_eq_true_iff.mpr (.inl mla))
    rw [if_neg whole, Bool.eq_false_iff.mpr whole, Bool.not_false, Bool.true_and]
    by_cases positive : ratios.tpRatio > 0
    · have unchunked : ¬ worker.Chunked ratios := fun chunked => by
        have := chunked.1
        omega
      rw [if_pos (decide_eq_true positive), if_pos positive, if_neg unchunked, ← Nat.succ_mul,
        Nat.div_div_eq_div_mul]
      have rank : worker.tpRank % ratios.tpRatio.toNat + 1 ≤ ratios.tpRatio.toNat :=
        Nat.mod_lt _ (by omega)
      calc (worker.tpRank % ratios.tpRatio.toNat + 1) * (blockLen / _)
          ≤ ratios.tpRatio.toNat * (blockLen / _) := Nat.mul_le_mul_right _ rank
        _ ≤ ratios.tpRatio.toNat * blockLen / _ := Nat.mul_div_le_mul_div_assoc _ _ _
        _ = blockLen * ratios.tpRatio.toNat / _ := by rw [Nat.mul_comm]
    · have chunked : worker.Chunked ratios := by
        have := fits.tpRatio_ne_zero
        exact ⟨by omega, noMla⟩
      rw [if_neg (by simpa using positive), if_neg positive, if_pos chunked,
        fits.blockSizeRatio_eq_one chunked, Nat.zero_add, Nat.one_mul, Nat.div_div_eq_div_mul,
        Nat.div_div_eq_div_mul, Nat.mul_comm]

theorem remoteEntry_eq {agent : NixlAgentMetadata} {ratios : Ratios} {region block baseAddr
    blockLen remoteBlockLen : ℕ}
    (isBase : agent.kvCachesBaseAddr[
      region / CacheTables.halves worker.rules.isKvLayoutBlocksFirst]? = some baseAddr)
    (isLen : worker.caches.blockLenPerLayer[
      region / CacheTables.halves worker.rules.isKvLayoutBlocksFirst]? = some blockLen)
    (isRemoteLen : agent.blockLens[
      region / CacheTables.halves worker.rules.isKvLayoutBlocksFirst]? = some remoteBlockLen) :
    worker.remoteEntry agent ratios region block =
      some {
        addr := baseAddr + worker.rankOffset ratios blockLen +
          region % CacheTables.halves worker.rules.isKvLayoutBlocksFirst * (remoteBlockLen / 2) +
          block * remoteBlockLen
        len := worker.xferLen ratios blockLen
        deviceId := agent.deviceId } := by
  rw [remoteEntry, isBase, isLen, isRemoteLen]
  rfl

/-- On the remote side a region and a block select their entry, which lies in the cache of the
region. -/
theorem Registered.getElem?_remoteBlocksData (registered : worker.Registered)
    {agent : NixlAgentMetadata} {ratios : Ratios} (fits : worker.Fits agent ratios)
    {remoteData : List XferDesc}
    (built : worker.remoteBlocksData agent ratios.tpRatio ratios.blockSizeRatio
      (worker.indexesIntoRemote ratios) = .ok remoteData)
    {region block : ℕ} (isRegion : region < worker.caches.numRegions)
    (inside : block < agent.numBlocks) :
    ∃ entry baseAddr blockLen remoteBlockLen,
      remoteData[region * agent.numBlocks + block]? = some entry ∧
      worker.remoteEntry agent ratios region block = some entry ∧
      agent.kvCachesBaseAddr[
        region / CacheTables.halves worker.rules.isKvLayoutBlocksFirst]? = some baseAddr ∧
      worker.caches.blockLenPerLayer[
        region / CacheTables.halves worker.rules.isKvLayoutBlocksFirst]? = some blockLen ∧
      agent.blockLens[
        region / CacheTables.halves worker.rules.isKvLayoutBlocksFirst]? = some remoteBlockLen ∧
      entry.len = worker.xferLen ratios blockLen ∧
      entry.Within baseAddr (agent.numBlocks * remoteBlockLen) := by
  obtain ⟨rows, rfl, uniform, layers⟩ :=
    remoteBlocksData_eq_ok fits (Nat.ne_of_gt (Nat.zero_lt_of_lt inside)) built
  have positive := CacheTables.halves_pos worker.rules.isKvLayoutBlocksFirst
  have isHalf := Nat.mod_lt region positive
  have isLayer : region / CacheTables.halves worker.rules.isKvLayoutBlocksFirst <
      agent.kvCachesBaseAddr.length := by
    rw [fits.regions, registered.consistent.length_eq.2]
    exact registered.layer_lt isRegion
  have isBase := List.getElem?_eq_getElem isLayer
  obtain ⟨blockLen, remoteBlockLen, isLen, isRemoteLen, isRow⟩ := layers isBase
  have index : region * agent.numBlocks + block =
      region / CacheTables.halves worker.rules.isKvLayoutBlocksFirst *
          (CacheTables.halves worker.rules.isKvLayoutBlocksFirst * agent.numBlocks) +
        (region % CacheTables.halves worker.rules.isKvLayoutBlocksFirst * agent.numBlocks +
          block) := by
    rw [← Nat.add_assoc, ← Nat.mul_assoc (region / _), ← Nat.add_mul, Nat.div_add_mod']
  refine ⟨_, _, blockLen, remoteBlockLen, ?_, remoteEntry_eq isBase isLen isRemoteLen, isBase,
    isLen, isRemoteLen, rfl, ?_⟩
  · rw [index, Grid.getElem?_flatten uniform _ (Grid.cell_lt isHalf inside), isRow]
    exact CacheTables.getElem?_cacheDescs isHalf inside
  · have heads := fits.heads_stop_le blockLen
    rw [← fits.remoteBlockLen_eq registered isLen isRemoteLen, ← CacheTables.halfLen] at heads
    have half := CacheTables.half_stop_le worker.rules.isKvLayoutBlocksFirst remoteBlockLen 1 isHalf
    rw [Nat.div_one, Nat.div_one] at half
    have cell : block * remoteBlockLen + remoteBlockLen ≤ agent.numBlocks * remoteBlockLen :=
      CacheTables.block_stop_le inside
    rw [CacheTables.half_mul_eq _ _ isHalf]
    constructor
    · dsimp only
      omega
    · dsimp only
      omega

end HandshakeWorker

end RduHdi
