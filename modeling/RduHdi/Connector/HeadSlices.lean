import RduHdi.Connector.ReadAddresses

/-!
# Heads of ranks of two group sizes

The caches of a model that is neither MLA nor replicated hold some of its heads on each rank.  When
the local group is the larger one, the local ranks that share a remote rank read the heads of each
of its blocks once; when it is the smaller one, the reads from several remote ranks fill the heads
of each local block once.
-/

namespace RduHdi

/-- The bytes of a stretch. -/
def XferDesc.bytes (desc : XferDesc) : Set ℕ := Set.Ico desc.addr (desc.addr + desc.len)

/-- The bytes that an entry of a list stands for. -/
def bytesAt (blocksData : List XferDesc) (index : ℕ) : Set ℕ :=
  {byte | ∃ desc, blocksData[index]? = some desc ∧ byte ∈ desc.bytes}

theorem bytesAt_eq {blocksData : List XferDesc} {index : ℕ} {desc : XferDesc}
    (isDesc : blocksData[index]? = some desc) : bytesAt blocksData index = desc.bytes := by
  ext byte
  constructor
  · rintro ⟨other, isOther, member⟩
    obtain rfl := Option.some.inj (isDesc.symm.trans isOther)
    exact member
  · exact fun member => ⟨desc, isDesc, member⟩

/-- Where a region (K or V of a layer) begins in a block that begins at an address. -/
def halfStart (isKvLayoutBlocksFirst : Bool) (start blockLen region : ℕ) : ℕ :=
  start + region % CacheTables.halves isKvLayoutBlocksFirst *
    CacheTables.halfLen isKvLayoutBlocksFirst blockLen

/-- The bytes of a region in a block that begins at an address. -/
def halfBytes (isKvLayoutBlocksFirst : Bool) (start blockLen region : ℕ) : Set ℕ :=
  Set.Ico (halfStart isKvLayoutBlocksFirst start blockLen region)
    (halfStart isKvLayoutBlocksFirst start blockLen region +
      CacheTables.halfLen isKvLayoutBlocksFirst blockLen)

/-- A rank of a group that has the configuration of `common`. -/
def HandshakeWorker.atRank {ω : Type} (common : HandshakeWorker ω) (rank : ℕ)
    (caches : CacheTables) : HandshakeWorker ω :=
  { common with tpRank := rank, caches }

/-- A local group and a remote group with the heads of one model.  Each rank of the local group has
registered its caches and done some handshakes, those with the remote group among them. -/
structure HeadGroup (ω : Type) where
  /-- What the ranks of the local group have in common. -/
  common : HandshakeWorker ω
  /-- The registered caches of a local rank. -/
  caches : ℕ → CacheTables
  /-- What the library remembers. -/
  record : NixlRecord ω
  /-- The block size of the configuration. -/
  cacheBlockSize : ℕ
  /-- The tensors of the layers of a local rank. -/
  layers : ℕ → List (List KvTensor)
  /-- What the library keeps at a local rank when it starts. -/
  world : ℕ → ω
  /-- The tables of a local rank once its caches are registered. -/
  start : ℕ → Handshakes ω
  /-- The handshakes of a local rank. -/
  events : ℕ → List HandshakeEvent
  /-- The engine of the remote group. -/
  engineId : EngineId
  /-- The size of the remote group. -/
  remoteTpSize : ℕ
  /-- The metadata of a remote rank. -/
  agent : ℕ → NixlAgentMetadata
  /-- The remote ranks that a local rank reads from. -/
  targets : ℕ → List ℕ
  /-- The ratio of the two group sizes. -/
  tpRatio : ℤ
  /-- The heads that a local rank holds. -/
  localHeads : ℕ
  /-- The heads that a remote rank holds. -/
  remoteHeads : ℕ
  /-- The bytes of K or V of one head and one token. -/
  headBytes : ℕ
  /-- The library remembers what it is given. -/
  keeps : common.nixl.Keeps record
  /-- The cache has heads. -/
  notMla : common.useMla = false
  /-- No rank has a copy of another's heads. -/
  notReplicated : common.rules.isKvReplicated remoteTpSize = false
  /-- The ranks registered their caches. -/
  registered : ∀ rank < common.worldSize,
    CacheTables.registerKvCaches common.useMla common.rules.isKvLayoutBlocksFirst cacheBlockSize
      (layers rank) = .ok (caches rank)
  /-- Then they prepared their own lists. -/
  started : ∀ rank < common.worldSize,
    (common.atRank rank (caches rank)).registerOwn
      (.init common.engineId common.worldSize cacheBlockSize (world rank)) = (start rank, .ok ⟨⟩)
  /-- A rank of the remote group has one metadata, which it gives to all that ask. -/
  answers_eq : ∀ rank < common.worldSize, ∀ event ∈ events rank, ∀ target answer,
    event.Gives target answer → answer.engineId = engineId →
      answer = agent target ∧ event.remoteTpSize = remoteTpSize
  /-- They read from these ranks. -/
  isTargets : ∀ rank < common.worldSize,
    common.rules.targetRemoteRanks rank common.worldSize remoteTpSize = .ok (targets rank)
  /-- This is the ratio of the group sizes. -/
  isTpRatio : common.rules.tpRatio common.worldSize remoteTpSize = .ok tpRatio
  /-- Both groups have the same heads. -/
  heads_eq : localHeads * common.worldSize = remoteHeads * remoteTpSize
  /-- A block of a rank has its heads. -/
  blockLen_eq : ∀ rank < common.worldSize, ∀ blockLen ∈ (caches rank).blockLenPerLayer,
    blockLen = CacheTables.halves common.rules.isKvLayoutBlocksFirst *
      (localHeads * ((caches rank).blockSize * headBytes))

namespace HeadGroup

variable {ω : Type} (group : HeadGroup ω)

/-- A rank of the local group. -/
abbrev worker (rank : ℕ) : HandshakeWorker ω :=
  group.common.atRank rank (group.caches rank)

/-- The tables of a rank after its handshakes. -/
def tables (rank : ℕ) : Handshakes ω :=
  (group.events rank).foldl (group.worker rank).handshake (group.start rank)

/-- What is known of the read of a rank from the remote rank at an index: the lists behind its two
handles. -/
def Reads {ω' : Type*} (nixl : NixlReader ω') (windows : List (Option ℕ)) (rank index target : ℕ)
    (localData remoteData : List XferDesc) : Prop :=
  let tables := group.tables rank
  let reader := (group.worker rank).reader tables nixl windows
  ∃ localSide remoteSide,
    reader.sideHandles group.engineId (reader.kvTopo.tpRatioFromEngineId group.engineId) index
      target = .ok (localSide, remoteSide) ∧
    group.record.prepared tables.world localSide = some localData ∧
    group.record.prepared tables.world remoteSide = some remoteData

/-- The lists of a read are those that the ratios of the groups give. -/
structure Lists (rank index target : ℕ) (ratios : HandshakeWorker.Ratios)
    (localData remoteData : List XferDesc) : Prop where
  /-- The remote rank passed the checks. -/
  fits : (group.worker rank).Fits (group.agent target) ratios
  /-- Both sides were built with one ratio. -/
  tpRatio : ratios.tpRatio = group.tpRatio
  /-- The remote cache is not replicated. -/
  replicated : ratios.replicated = false
  /-- A local block is whole remote blocks. -/
  divides : ratios.blockSizeRatio ∣ (group.caches rank).blockSize
  /-- The own list has parts of the own blocks. -/
  own : localData = (group.worker rank).ownBlocksData ratios index
  /-- The remote list has the blocks of the remote rank. -/
  built : (group.worker rank).remoteBlocksData (group.agent target) ratios.tpRatio
    ratios.blockSizeRatio ((group.worker rank).indexesIntoRemote ratios) = .ok remoteData

variable {group} {rank index target : ℕ} {ratios : HandshakeWorker.Ratios}
  {localData remoteData : List XferDesc}

theorem isRegistered (isRank : rank < group.common.worldSize) :
    (group.worker rank).Registered :=
  HandshakeWorker.registered_of_registerKvCaches _ (group.registered rank isRank)

theorem sound (isRank : rank < group.common.worldSize) :
    (group.worker rank).Sound group.record (HandshakeEvent.Given (group.events rank))
      (group.tables rank) := by
  have keeps : (group.worker rank).nixl.Keeps group.record := group.keeps
  exact HandshakeWorker.Sound.handshakes keeps (isRegistered isRank) (group.events rank)
    (HandshakeWorker.registerOwn_sound keeps (group.started rank isRank))

/-- The handles of a read stand for lists of the metadata that the remote rank gives. -/
theorem Reads.lists {ω' : Type*} {nixl : NixlReader ω'} {windows : List (Option ℕ)}
    (isRank : rank < group.common.worldSize)
    (reads : group.Reads nixl windows rank index target localData remoteData) :
    ∃ ratios, group.Lists rank index target ratios localData remoteData := by
  obtain ⟨localSide, remoteSide, sides, isLocal, isRemote⟩ := reads
  obtain ⟨agent, ratios, others, isEngine, _, own, side⟩ :=
    (sound isRank).sideHandles (isRegistered isRank) sides
  obtain ⟨remoteTpSize, ⟨event, isEvent, sameSize, gives⟩, known⟩ := side.answered
  obtain ⟨rfl, isSize⟩ :=
    group.answers_eq rank isRank event isEvent target agent gives isEngine
  rw [← sameSize, isSize] at known
  obtain rfl : others = remoteData := Option.some.inj (side.stands.symm.trans isRemote)
  refine ⟨ratios, side.accepted.fits, ?_, ?_, ?_, Option.some.inj (isLocal.symm.trans own.2),
    side.built⟩
  · obtain ⟨size, isKnown, isRatio⟩ :=
      HandshakeWorker.tpRatioFromEngineId_eq_ok.mp side.accepted.tpRatio
    obtain rfl := Option.some.inj (known.symm.trans isKnown)
    exact Except.ok.inj (isRatio.symm.trans group.isTpRatio)
  · obtain ⟨size, isKnown, isReplicated⟩ :=
      HandshakeWorker.isKvReplicated_eq_ok.mp side.accepted.replicated
    obtain rfl := Option.some.inj (known.symm.trans isKnown)
    exact isReplicated.symm.trans group.notReplicated
  · obtain ⟨size, _, isRatio⟩ :=
      HandshakeWorker.blockSizeRatioFromEngineId_eq_ok.mp side.accepted.blockSizeRatio
    exact ⟨size, (group.common.rules.blockSizeRatio_mul isRatio).symm⟩

theorem Lists.indexesIntoRemote_eq
    (lists : group.Lists rank index target ratios localData remoteData) :
    (group.worker rank).indexesIntoRemote ratios = decide (0 < group.tpRatio) := by
  rw [HandshakeWorker.indexesIntoRemote, lists.tpRatio, lists.replicated]
  change (!(group.common.useMla || false) && _) = _
  rw [group.notMla]
  rfl

/-- The bytes of K or V in a block of a local rank. -/
def kvBytes (group : HeadGroup ω) (rank : ℕ) : ℕ :=
  group.localHeads * ((group.caches rank).blockSize * group.headBytes)

theorem halfLen_eq {blockLen : ℕ} (isRank : rank < group.common.worldSize)
    (member : blockLen ∈ (group.caches rank).blockLenPerLayer) :
    CacheTables.halfLen group.common.rules.isKvLayoutBlocksFirst blockLen = group.kvBytes rank := by
  rw [CacheTables.halfLen, group.blockLen_eq rank isRank blockLen member]
  exact Nat.mul_div_cancel_left _ (CacheTables.halves_pos _)

/-! ## A larger local group -/

/-- A half of a remote block holds the heads of as many local ranks as share it. -/
theorem Lists.remoteBlockLen_eq {blockLen : ℕ} (positive : 0 < group.tpRatio)
    (isRank : rank < group.common.worldSize)
    (lists : group.Lists rank index target ratios localData remoteData)
    (member : blockLen ∈ (group.caches rank).blockLenPerLayer) :
    CacheTables.halfLen group.common.rules.isKvLayoutBlocksFirst
        ((group.worker rank).remoteBlockLen ratios blockLen) =
      group.tpRatio.toNat * (group.kvBytes rank / ratios.blockSizeRatio) := by
  have divides : ratios.blockSizeRatio ∣ group.kvBytes rank :=
    (lists.divides.mul_right _).mul_left _
  have isLen : (group.worker rank).remoteBlockLen ratios blockLen =
      blockLen * group.tpRatio.toNat / ratios.blockSizeRatio := by
    rw [HandshakeWorker.remoteBlockLen, lists.tpRatio, lists.replicated]
    change (if group.common.useMla || false then _ else if group.tpRatio > 0 then _ else _) = _
    rw [group.notMla, Bool.or_self, if_neg Bool.false_ne_true, if_pos positive]
  rw [isLen, CacheTables.halfLen, group.blockLen_eq rank isRank blockLen member]
  change CacheTables.halves _ * group.kvBytes rank * group.tpRatio.toNat / ratios.blockSizeRatio /
    CacheTables.halves _ = _
  rw [Nat.mul_right_comm, Nat.mul_div_assoc _ divides, Nat.mul_assoc]
  exact Nat.mul_div_cancel_left _ (CacheTables.halves_pos _)

theorem Lists.xferLen_eq {blockLen : ℕ} (positive : 0 < group.tpRatio)
    (isRank : rank < group.common.worldSize)
    (lists : group.Lists rank index target ratios localData remoteData)
    (member : blockLen ∈ (group.caches rank).blockLenPerLayer) :
    (group.worker rank).xferLen ratios blockLen =
      group.kvBytes rank / ratios.blockSizeRatio := by
  have unchunked : ¬ (group.worker rank).Chunked ratios :=
    fun chunked => Int.lt_asymm (lists.tpRatio ▸ chunked.1) positive
  rw [HandshakeWorker.xferLen, if_neg unchunked]
  change CacheTables.halfLen group.common.rules.isKvLayoutBlocksFirst blockLen / _ = _
  rw [halfLen_eq isRank member]

theorem Lists.rankOffset_eq {blockLen : ℕ} (positive : 0 < group.tpRatio)
    (isRank : rank < group.common.worldSize)
    (lists : group.Lists rank index target ratios localData remoteData)
    (member : blockLen ∈ (group.caches rank).blockLenPerLayer) :
    (group.worker rank).rankOffset ratios blockLen =
      rank % group.tpRatio.toNat * (group.kvBytes rank / ratios.blockSizeRatio) := by
  rw [HandshakeWorker.rankOffset, lists.indexesIntoRemote_eq, if_pos (decide_eq_true positive),
    lists.tpRatio]
  change rank % group.tpRatio.toNat *
    (CacheTables.halfLen group.common.rules.isKvLayoutBlocksFirst blockLen / _) = _
  rw [halfLen_eq isRank member]

/-- What a local rank reads of a region in a remote block. -/
theorem Lists.bytesAt_remoteData {region block baseAddr remoteBlockLen : ℕ}
    (positive : 0 < group.tpRatio) (isRank : rank < group.common.worldSize)
    (lists : group.Lists rank index target ratios localData remoteData)
    (inside : block < (group.agent target).numBlocks)
    (isBase : (group.agent target).kvCachesBaseAddr[
      region / CacheTables.halves group.common.rules.isKvLayoutBlocksFirst]? = some baseAddr)
    (isRemoteLen : (group.agent target).blockLens[
      region / CacheTables.halves group.common.rules.isKvLayoutBlocksFirst]? =
        some remoteBlockLen) :
    ∃ len, CacheTables.halfLen group.common.rules.isKvLayoutBlocksFirst remoteBlockLen =
        group.tpRatio.toNat * len ∧
      bytesAt remoteData (region * (group.agent target).numBlocks + block) =
        let first := halfStart group.common.rules.isKvLayoutBlocksFirst
          (baseAddr + block * remoteBlockLen) remoteBlockLen region
        Set.Ico (first + rank % group.tpRatio.toNat * len)
          (first + rank % group.tpRatio.toNat * len + len) := by
  have registered := isRegistered isRank
  have isRegion : region < (group.caches rank).numRegions := by
    have halves_pos := CacheTables.halves_pos group.common.rules.isKvLayoutBlocksFirst
    have isLayer := (List.getElem?_eq_some_iff.mp isBase).choose
    rw [lists.fits.regions, registered.consistent.length_eq.2, Nat.div_lt_iff_lt_mul halves_pos]
      at isLayer
    exact registered.numRegions_eq ▸ isLayer
  obtain ⟨entry, _, blockLen, _, selected, isEntry, _, isLen, _, _, _⟩ :=
    registered.getElem?_remoteBlocksData lists.fits lists.built isRegion inside
  have member := List.mem_of_getElem? isLen
  refine ⟨group.kvBytes rank / ratios.blockSizeRatio, ?_, ?_⟩
  · rw [lists.fits.remoteBlockLen_eq registered isLen isRemoteLen]
    exact lists.remoteBlockLen_eq positive isRank member
  · rw [bytesAt_eq selected]
    have explicit : (group.worker rank).remoteEntry (group.agent target) ratios region block =
        some _ := HandshakeWorker.remoteEntry_eq isBase isLen isRemoteLen
    obtain rfl := Option.some.inj (isEntry.symm.trans explicit)
    have isHalf : region % CacheTables.halves (group.worker rank).rules.isKvLayoutBlocksFirst *
        (remoteBlockLen / 2) =
          region % CacheTables.halves group.common.rules.isKvLayoutBlocksFirst *
            CacheTables.halfLen group.common.rules.isKvLayoutBlocksFirst remoteBlockLen := by
      exact CacheTables.half_mul_eq _ _ (Nat.mod_lt region (CacheTables.halves_pos _))
    rw [XferDesc.bytes]
    simp only
    rw [lists.rankOffset_eq positive isRank member, lists.xferLen_eq positive isRank member,
      isHalf, halfStart]
    have order (half offset : ℕ) : baseAddr + offset + half + block * remoteBlockLen =
        baseAddr + block * remoteBlockLen + half + offset := by omega
    rw [order]

/-- The local ranks that share a remote rank read every half of its blocks once. -/
theorem larger_tiles {ω' : Type*} {nixl : NixlReader ω'} {windows : List (Option ℕ)}
    {remoteLists : ℕ → List XferDesc} {region block baseAddr remoteBlockLen : ℕ}
    (positive : 0 < group.tpRatio) (isTarget : target < group.remoteTpSize)
    (reads : ∀ rank < group.common.worldSize, target ∈ group.targets rank →
      ∃ index localData, group.Reads nixl windows rank index target localData (remoteLists rank))
    (inside : block < (group.agent target).numBlocks)
    (isBase : (group.agent target).kvCachesBaseAddr[
      region / CacheTables.halves group.common.rules.isKvLayoutBlocksFirst]? = some baseAddr)
    (isRemoteLen : (group.agent target).blockLens[
      region / CacheTables.halves group.common.rules.isKvLayoutBlocksFirst]? =
        some remoteBlockLen) :
    Grid.Tiles {rank | rank < group.common.worldSize ∧ target ∈ group.targets rank}
      (fun rank => bytesAt (remoteLists rank)
        (region * (group.agent target).numBlocks + block))
      (halfBytes group.common.rules.isKvLayoutBlocksFirst (baseAddr + block * remoteBlockLen)
        remoteBlockLen region) := by
  let first := halfStart group.common.rules.isKvLayoutBlocksFirst
    (baseAddr + block * remoteBlockLen) remoteBlockLen region
  have shares := group.common.rules.tpRatio_pos group.isTpRatio positive
  have share_pos : 0 < group.tpRatio.toNat := by omega
  have sharers : {rank | rank < group.common.worldSize ∧ target ∈ group.targets rank} =
      {rank | rank < group.tpRatio.toNat * group.remoteTpSize ∧
        rank / group.tpRatio.toNat = target} := by
    ext rank
    rw [shares]
    apply and_congr_right
    intro isRank
    rw [group.common.rules.targetRemoteRanks_eq (group.isTargets rank isRank)]
    exact RankLayout.mem_contiguousTargets_iff shares (Nat.zero_lt_of_lt isTarget) share_pos
  have spans {rank : ℕ} (isRank : rank < group.common.worldSize)
      (shared : target ∈ group.targets rank) :
      ∃ len, CacheTables.halfLen group.common.rules.isKvLayoutBlocksFirst remoteBlockLen =
          group.tpRatio.toNat * len ∧
        bytesAt (remoteLists rank) (region * (group.agent target).numBlocks + block) =
          Set.Ico (first + rank % group.tpRatio.toNat * len)
            (first + rank % group.tpRatio.toNat * len + len) := by
    obtain ⟨index, localData, read⟩ := reads rank isRank shared
    obtain ⟨ratios, lists⟩ := read.lists isRank
    exact lists.bytesAt_remoteData positive isRank inside isBase isRemoteLen
  -- Some rank shares the remote rank, so that the half of the block is a multiple of its heads.
  have first_shares : target * group.tpRatio.toNat < group.tpRatio.toNat * group.remoteTpSize ∧
      target * group.tpRatio.toNat / group.tpRatio.toNat = target := by
    refine ⟨?_, Nat.mul_div_cancel target share_pos⟩
    rw [Nat.mul_comm]
    exact Nat.mul_lt_mul_of_pos_left isTarget share_pos
  obtain ⟨isFirst, firstShares⟩ : target * group.tpRatio.toNat ∈
      {rank | rank < group.common.worldSize ∧ target ∈ group.targets rank} :=
    sharers ▸ first_shares
  obtain ⟨len, whole, _⟩ := spans isFirst firstShares
  have tiles := Grid.tiles_spans first len group.tpRatio.toNat
  have remainders : Set.BijOn (· % group.tpRatio.toNat)
      {rank | rank < group.common.worldSize ∧ target ∈ group.targets rank}
      (Set.Iio group.tpRatio.toNat) := by
    rw [sharers]
    exact RankLayout.bijOn_mod share_pos isTarget
  rw [← whole] at tiles
  refine tiles.reindex remainders fun rank shared => ?_
  -- The spans of all ranks are of one length, that of the half over the number of ranks.
  obtain ⟨other, alsoWhole, isSpan⟩ := spans shared.1 shared.2
  obtain rfl : other = len :=
    Nat.eq_of_mul_eq_mul_left share_pos (alsoWhole.symm.trans whole)
  exact isSpan

/-! ## A smaller local group -/

/-- What a read of a local rank fills of a region in a local block. -/
theorem Lists.bytesAt_ownData {region block blockLen : ℕ} {data : XferDesc}
    (negative : group.tpRatio < 0) (isRank : rank < group.common.worldSize)
    (lists : group.Lists rank index target ratios localData remoteData)
    (inside : block < (group.caches rank).numBlocks)
    (isData : (group.caches rank).cachesData[
      region / CacheTables.halves group.common.rules.isKvLayoutBlocksFirst]? = some data)
    (isLen : (group.caches rank).blockLenPerLayer[
      region / CacheTables.halves group.common.rules.isKvLayoutBlocksFirst]? = some blockLen) :
    bytesAt localData (region * (group.caches rank).numBlocks + block) =
      let first := halfStart group.common.rules.isKvLayoutBlocksFirst
        (data.addr + block * blockLen) blockLen region
      let len := group.kvBytes rank / (-group.tpRatio).toNat
      Set.Ico (first + index * len) (first + index * len + len) := by
  have chunked : (group.worker rank).Chunked ratios :=
    ⟨lists.tpRatio ▸ negative, Bool.eq_false_iff.mp group.notMla⟩
  have one : ratios.blockSizeRatio = 1 := lists.fits.blockSizeRatio_eq_one chunked
  have addresses : (group.caches rank).cachesData.map XferDesc.addr =
      (group.caches rank).seenBaseAddresses := (isRegistered isRank).consistent.addresses
  have isBase : (group.caches rank).seenBaseAddresses[
      region / CacheTables.halves group.common.rules.isKvLayoutBlocksFirst]? =
        some data.addr := by
    rw [← addresses, List.getElem?_map, isData]
    rfl
  have inUnits : block < (group.worker rank).caches.numBlocks * ratios.blockSizeRatio := by
    change block < (group.caches rank).numBlocks * ratios.blockSizeRatio
    rwa [one, Nat.mul_one]
  have selected : localData[
      region * ((group.caches rank).numBlocks * ratios.blockSizeRatio) + block]? =
        (group.worker rank).ownEntry ratios index region block := by
    rw [lists.own]
    exact HandshakeWorker.getElem?_ownBlocksData lists.fits inUnits
  have explicit : (group.caches rank).localEntry group.common.rules.isKvLayoutBlocksFirst
      ratios.blockSizeRatio region block = some _ := CacheTables.localEntry_eq isBase isLen
  have isEntry : (group.worker rank).ownEntry ratios index region block =
      ((group.caches rank).localEntry group.common.rules.isKvLayoutBlocksFirst
        ratios.blockSizeRatio region block).map
          (XferDesc.chunk (-ratios.tpRatio).toNat index) := if_pos chunked
  rw [isEntry, explicit, one, Nat.mul_one, Nat.div_one, Nat.div_one, lists.tpRatio,
    halfLen_eq isRank (List.mem_of_getElem? isLen)] at selected
  rw [bytesAt_eq selected, XferDesc.bytes, halfStart,
    halfLen_eq isRank (List.mem_of_getElem? isLen),
    Nat.add_right_comm data.addr _ (block * blockLen)]
  rfl

/-- The reads of a local rank from its remote ranks fill every half of its blocks once. -/
theorem smaller_tiles {ω' : Type*} {nixl : NixlReader ω'} {windows : List (Option ℕ)}
    {localLists : ℕ → List XferDesc} {region block blockLen : ℕ} {data : XferDesc}
    (negative : group.tpRatio < 0) (isRank : rank < group.common.worldSize)
    (reads : ∀ index target, (group.targets rank)[index]? = some target →
      ∃ remoteData, group.Reads nixl windows rank index target (localLists index) remoteData)
    (inside : block < (group.caches rank).numBlocks)
    (isData : (group.caches rank).cachesData[
      region / CacheTables.halves group.common.rules.isKvLayoutBlocksFirst]? = some data)
    (isLen : (group.caches rank).blockLenPerLayer[
      region / CacheTables.halves group.common.rules.isKvLayoutBlocksFirst]? = some blockLen) :
    Grid.Tiles (Set.Iio (group.targets rank).length)
      (fun index => bytesAt (localLists index)
        (region * (group.caches rank).numBlocks + block))
      (halfBytes group.common.rules.isKvLayoutBlocksFirst (data.addr + block * blockLen) blockLen
        region) := by
  have readers_pos := Nat.zero_lt_of_lt isRank
  have shares := group.common.rules.tpRatio_neg group.isTpRatio negative
  have share_pos : 0 < (-group.tpRatio).toNat := by omega
  have count : (group.targets rank).length = (-group.tpRatio).toNat := by
    rw [group.common.rules.targetRemoteRanks_eq (group.isTargets rank isRank)]
    exact RankLayout.length_contiguousTargets shares readers_pos share_pos
  have divides : (-group.tpRatio).toNat ∣ group.kvBytes rank := by
    have heads : group.localHeads = group.remoteHeads * (-group.tpRatio).toNat := by
      apply Nat.eq_of_mul_eq_mul_right readers_pos
      rw [group.heads_eq, ← shares, Nat.mul_assoc]
    rw [kvBytes, heads]
    exact (Nat.dvd_mul_left _ _).mul_right _
  have tiles := Grid.tiles_spans
    (halfStart group.common.rules.isKvLayoutBlocksFirst (data.addr + block * blockLen) blockLen
      region) (group.kvBytes rank / (-group.tpRatio).toNat) (-group.tpRatio).toNat
  rw [Nat.mul_div_cancel' divides, ← halfLen_eq isRank (List.mem_of_getElem? isLen)] at tiles
  rw [count]
  refine tiles.reindex (Set.bijOn_id _) fun index isIndex => ?_
  have isTarget : (group.targets rank)[index]? =
      some ((group.targets rank).get ⟨index, count ▸ isIndex⟩) :=
    List.getElem?_eq_getElem (count ▸ isIndex)
  obtain ⟨remoteData, read⟩ := reads index _ isTarget
  obtain ⟨ratios, lists⟩ := read.lists isRank
  rw [lists.bytesAt_ownData negative isRank inside isData isLen,
    halfLen_eq isRank (List.mem_of_getElem? isLen)]
  rfl

/-- **Heads.**  When the local group is the larger one, the lists behind the handles that the local
ranks have for a shared remote rank read each half of its blocks once.  When it is the smaller one,
the lists of the own side for the reads from several remote ranks fill each half of a local block
once. -/
theorem heads_tile_blocks {ω' : Type*} (group : HeadGroup ω) (nixl : NixlReader ω')
    (windows : List (Option ℕ)) :
    (0 < group.tpRatio →
      ∀ target < group.remoteTpSize, ∀ remoteLists : ℕ → List XferDesc,
      (∀ rank < group.common.worldSize, target ∈ group.targets rank →
        ∃ index localData,
          group.Reads nixl windows rank index target localData (remoteLists rank)) →
      ∀ block < (group.agent target).numBlocks, ∀ region baseAddr remoteBlockLen,
      (group.agent target).kvCachesBaseAddr[
        region / CacheTables.halves group.common.rules.isKvLayoutBlocksFirst]? = some baseAddr →
      (group.agent target).blockLens[
        region / CacheTables.halves group.common.rules.isKvLayoutBlocksFirst]? =
          some remoteBlockLen →
      Grid.Tiles {rank | rank < group.common.worldSize ∧ target ∈ group.targets rank}
        (fun rank => bytesAt (remoteLists rank)
          (region * (group.agent target).numBlocks + block))
        (halfBytes group.common.rules.isKvLayoutBlocksFirst (baseAddr + block * remoteBlockLen)
          remoteBlockLen region)) ∧
    (group.tpRatio < 0 →
      ∀ rank < group.common.worldSize, ∀ localLists : ℕ → List XferDesc,
      (∀ index target, (group.targets rank)[index]? = some target →
        ∃ remoteData,
          group.Reads nixl windows rank index target (localLists index) remoteData) →
      ∀ block < (group.caches rank).numBlocks, ∀ region data blockLen,
      (group.caches rank).cachesData[
        region / CacheTables.halves group.common.rules.isKvLayoutBlocksFirst]? = some data →
      (group.caches rank).blockLenPerLayer[
        region / CacheTables.halves group.common.rules.isKvLayoutBlocksFirst]? = some blockLen →
      Grid.Tiles (Set.Iio (group.targets rank).length)
        (fun index => bytesAt (localLists index)
          (region * (group.caches rank).numBlocks + block))
        (halfBytes group.common.rules.isKvLayoutBlocksFirst (data.addr + block * blockLen)
          blockLen region)) := by
  constructor
  · intro positive target isTarget remoteLists reads block inside region baseAddr remoteBlockLen
      isBase isRemoteLen
    exact larger_tiles positive isTarget reads inside isBase isRemoteLen
  · intro negative rank isRank localLists reads block inside region data blockLen isData isLen
    exact smaller_tiles negative isRank reads inside isData isLen

end HeadGroup

/-! ## A larger and a smaller group -/

namespace HeadGroup

open HandshakeWorker

/-- The configuration of a group of two that reads from a group of one. -/
def pairWorker : HandshakeWorker (List (List XferDesc)) :=
  { loneWorker listingNixl with worldSize := 2 }

/-- The only rank of a group, with all of the heads and half of the block size. -/
def wholeAgent : NixlAgentMetadata :=
  { halfAgent 0 with blockLens := [32], blockSize := 2 }

def wholeGroup : HandshakeEvent where
  answers _ := .ok { compatibilityHash := "hash", agentMetadata := .ok wholeAgent }
  remoteTpSize := 1
  engineId := "prefill"

def larger : HeadGroup (List (List XferDesc)) where
  common := pairWorker
  caches _ := oneLayerTables
  record := listed
  cacheBlockSize := 4
  layers _ := oneLayer
  world _ := []
  start rank := ((pairWorker.atRank rank oneLayerTables).registerOwn (.init "decode" 2 4 [])).1
  events _ := [wholeGroup]
  engineId := "prefill"
  remoteTpSize := 1
  agent _ := wholeAgent
  targets := RankLayout.contiguousTargets 2 1
  tpRatio := 2
  localHeads := 2
  remoteHeads := 4
  headBytes := 2
  keeps := listingNixl_keeps
  notMla := rfl
  notReplicated := rfl
  registered _ _ := oneLayer_registered
  started := by
    intro rank isRank
    obtain rfl | rfl := Nat.le_one_iff_eq_zero_or_eq_one.mp (Nat.le_of_lt_succ isRank)
    · exact Prod.ext rfl rfl
    · exact Prod.ext rfl rfl
  answers_eq := by
    intro _ _ event isEvent _ answer gives _
    obtain rfl := List.mem_singleton.mp isEvent
    obtain ⟨_, ⟨⟩, ⟨⟩⟩ := gives
    exact ⟨rfl, rfl⟩
  isTargets _ _ := rfl
  isTpRatio := rfl
  heads_eq := rfl
  blockLen_eq := by
    intro _ _ blockLen member
    exact List.mem_singleton.mp member

def smaller : HeadGroup (List (List XferDesc)) where
  common := loneWorker listingNixl
  caches _ := oneLayerTables
  record := listed
  cacheBlockSize := 4
  layers _ := oneLayer
  world _ := []
  start rank := ((loneWorker listingNixl).atRank rank oneLayerTables).registerOwn
    (.init "decode" 1 4 []) |>.1
  events _ := [halfGroup]
  engineId := "prefill"
  remoteTpSize := 2
  agent := halfAgent
  targets := RankLayout.contiguousTargets 1 2
  tpRatio := -2
  localHeads := 2
  remoteHeads := 1
  headBytes := 2
  keeps := listingNixl_keeps
  notMla := rfl
  notReplicated := rfl
  registered _ _ := oneLayer_registered
  started := by
    intro rank isRank
    obtain rfl : rank = 0 := Nat.lt_one_iff.mp isRank
    exact Prod.ext rfl rfl
  answers_eq := by
    intro _ _ event isEvent _ answer gives _
    obtain rfl := List.mem_singleton.mp isEvent
    obtain ⟨_, ⟨⟩, ⟨⟩⟩ := gives
    exact ⟨rfl, rfl⟩
  isTargets _ _ := rfl
  isTpRatio := rfl
  heads_eq := rfl
  blockLen_eq := by
    intro _ _ blockLen member
    exact List.mem_singleton.mp member

/-- What the handshakes of a rank have prepared, handle by handle. -/
def preparedAt (group : HeadGroup (List (List XferDesc))) (rank handle : ℕ) : List XferDesc :=
  (group.tables rank).world[handle]?.getD []

theorem heads_tile_blocks_twoGroups :
    Grid.Tiles {rank | rank < 2 ∧ 0 ∈ RankLayout.contiguousTargets 2 1 rank}
        (fun rank => bytesAt (preparedAt larger rank 1) (1 * 3 + 2))
        (halfBytes true (5000 + 2 * 32) 32 1) ∧
      Grid.Tiles (Set.Iio 2) (fun index => bytesAt (preparedAt smaller 0 (index + 1)) (1 * 2 + 1))
        (halfBytes true (1000 + 1 * 32) 32 1) := by
  have larger_reads : ∀ rank < 2, 0 ∈ RankLayout.contiguousTargets 2 1 rank →
      ∃ index localData,
        larger.Reads eagerReader [] rank index 0 localData (preparedAt larger rank 1) := by
    intro rank isRank _
    obtain rfl | rfl := Nat.le_one_iff_eq_zero_or_eq_one.mp (Nat.le_of_lt_succ isRank)
    · exact ⟨0, preparedAt larger 0 2, ⟨nixlInitAgent, 2⟩, ⟨String.singleton (Char.ofNat 1), 1⟩,
        by decide +kernel, by decide +kernel, by decide +kernel⟩
    · exact ⟨0, preparedAt larger 1 2, ⟨nixlInitAgent, 2⟩, ⟨String.singleton (Char.ofNat 1), 1⟩,
        by decide +kernel, by decide +kernel, by decide +kernel⟩
  have smaller_reads : ∀ index target,
      (RankLayout.contiguousTargets 1 2 0)[index]? = some target → ∃ remoteData,
        smaller.Reads eagerReader [] 0 index target (preparedAt smaller 0 (index + 1))
          remoteData := by
    intro index target isTarget
    have isIndex : index < 2 := (List.getElem?_eq_some_iff.mp isTarget).choose
    obtain rfl | rfl := Nat.le_one_iff_eq_zero_or_eq_one.mp (Nat.le_of_lt_succ isIndex)
    · cases isTarget
      exact ⟨preparedAt smaller 0 3, ⟨nixlInitAgent, 1⟩, ⟨String.singleton (Char.ofNat 1), 3⟩,
        by decide +kernel, by decide +kernel, by decide +kernel⟩
    · cases isTarget
      exact ⟨preparedAt smaller 0 4, ⟨nixlInitAgent, 2⟩, ⟨String.singleton (Char.ofNat 1), 4⟩,
        by decide +kernel, by decide +kernel, by decide +kernel⟩
  exact ⟨(heads_tile_blocks larger eagerReader []).1 (by decide) 0 (by decide)
      (fun rank => preparedAt larger rank 1) larger_reads 2 (by decide) 1 5000 32 rfl rfl,
    (heads_tile_blocks smaller eagerReader []).2 (by decide) 0 (by decide)
      (fun index => preparedAt smaller 0 (index + 1)) smaller_reads 1 (by decide) 1
      { addr := 1000, len := 64, deviceId := 0 } 32 rfl rfl⟩

end HeadGroup

end RduHdi
