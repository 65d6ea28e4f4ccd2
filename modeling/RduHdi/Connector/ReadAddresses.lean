import RduHdi.Connector.HandshakeRun

/-!
# What reads address

A read takes a handle of either side from the tables that handshakes left.  The index of a region
and a block selects bytes of that region on either side, inside the registered memory, and paired
descriptors are of one length.
-/

namespace RduHdi

namespace HandshakeWorker

variable {ω : Type}

/-- The lists of the two sides of a read address the registered memory of the regions. -/
structure AddressesRegions (worker : HandshakeWorker ω) {ω' : Type*} (reader : ReadingWorker ω')
    (agent : NixlAgentMetadata) (ratios : Ratios) (index : ℕ)
    (localData remoteData : List XferDesc) : Prop where
  /-- Without a layer, all regions are selected. -/
  everyRegion : reader.regionIds none = .ok (List.range worker.caches.numRegions)
  /-- A layer has its share of the regions: one, or K and V. -/
  ofLayer : ∀ {layerIdx regions}, reader.regionIds (some layerIdx) = .ok regions ↔
    layerIdx < worker.caches.numLayers ∧ ∃ share, (share = 1 ∨ share = 2) ∧
      share * worker.caches.numLayers = worker.caches.numRegions ∧
      regions = (List.range share).map fun part => share * layerIdx + part
  /-- The selected entries of the own list are those of the regions and the blocks. -/
  own : ∀ {layerIdx blockIds descs},
    (∀ block ∈ blockIds, block < worker.caches.numBlocks * ratios.blockSizeRatio) →
    reader.getBlockDescsIds reader.engineId blockIds layerIdx (some ratios.blockSizeRatio) =
      .ok descs →
    ∃ regions, reader.regionIds layerIdx = .ok regions ∧
      descs.map (localData[·]?) =
        regions.flatMap fun region => blockIds.map (worker.ownEntry ratios index region)
  /-- So are those of the remote list. -/
  remote : ∀ {layerIdx blockIds descs}, (∀ block ∈ blockIds, block < agent.numBlocks) →
    reader.getBlockDescsIds agent.engineId blockIds layerIdx none = .ok descs →
    ∃ regions, reader.regionIds layerIdx = .ok regions ∧
      descs.map (remoteData[·]?) =
        regions.flatMap fun region => blockIds.map (worker.remoteEntry agent ratios region)
  /-- The own entries lie in their regions. -/
  ownInside : ∀ region < worker.caches.numRegions,
    ∀ block < worker.caches.numBlocks * ratios.blockSizeRatio, ∃ entry data,
      worker.ownEntry ratios index region block = some entry ∧
      worker.caches.cachesData[
        region / CacheTables.halves worker.rules.isKvLayoutBlocksFirst]? = some data ∧
      entry.Within data.addr data.len
  /-- The remote entries lie in theirs. -/
  remoteInside : ∀ region < worker.caches.numRegions, ∀ block < agent.numBlocks,
    ∃ entry baseAddr remoteBlockLen,
      worker.remoteEntry agent ratios region block = some entry ∧
      agent.kvCachesBaseAddr[
        region / CacheTables.halves worker.rules.isKvLayoutBlocksFirst]? = some baseAddr ∧
      agent.blockLens[
        region / CacheTables.halves worker.rules.isKvLayoutBlocksFirst]? = some remoteBlockLen ∧
      entry.Within baseAddr (agent.numBlocks * remoteBlockLen)
  /-- The two lists of a read pair blocks of one region. -/
  pairs : ∀ {localBlockIds remoteBlockIds aligned localDescs remoteDescs},
    (∀ block ∈ localBlockIds, block < worker.caches.numBlocks) →
    (∀ block ∈ remoteBlockIds, block < agent.numBlocks) →
    alignLocalBlocks ratios.blockSizeRatio localBlockIds remoteBlockIds = aligned →
    aligned.length ≠ 0 → aligned.length ≤ remoteBlockIds.length →
    reader.xferDescs agent.engineId ratios.blockSizeRatio aligned
      (alignRemoteBlocks aligned.length remoteBlockIds) = .ok (localDescs, remoteDescs) →
    List.Forall₂
      (fun localDesc remoteDesc => ∃ region block remoteBlock entry other,
        region < worker.caches.numRegions ∧
        localData[localDesc]? = some entry ∧
        worker.ownEntry ratios index region block = some entry ∧
        remoteData[remoteDesc]? = some other ∧
        worker.remoteEntry agent ratios region remoteBlock = some other ∧
        entry.len = other.len)
      localDescs remoteDescs

section Addresses

variable {worker : HandshakeWorker ω} {agent : NixlAgentMetadata} {ratios : Ratios}
  {remoteData : List XferDesc}

theorem map_getElem?_eq {data : List XferDesc} {entry : ℕ → ℕ → Option XferDesc}
    {count numRegions : ℕ} {regions blockIds : List ℕ}
    (selects : ∀ region < numRegions, ∀ block ∈ blockIds,
      data[region * count + block]? = entry region block)
    (areRegions : ∀ region ∈ regions, region < numRegions) :
    (regions.flatMap fun region => blockIds.map fun block => region * count + block).map
        (data[·]?) = regions.flatMap fun region => blockIds.map (entry region) := by
  rw [List.map_flatMap]
  apply List.flatMap_congr
  intro region isRegion
  rw [List.map_map]
  apply List.map_congr_left
  intro block isBlock
  exact selects region (areRegions region isRegion) block isBlock

/-- A layer stands for its share of the regions, where all layers have as many. -/
theorem regionIds_some_eq_ok {ω' : Type*} {reader : ReadingWorker ω'} {layerIdx : ℕ}
    {regions : List ℕ} :
    reader.regionIds (some layerIdx) = .ok regions ↔
      layerIdx < reader.numLayers ∧ ∃ share, (share = 1 ∨ share = 2) ∧
        share * reader.numLayers = reader.numRegions ∧
        regions = (List.range share).map fun part => share * layerIdx + part := by
  rw [ReadingWorker.regionIds]
  constructor
  · intro taken
    split at taken
    · rename_i isLayer
      refine ⟨isLayer, ?_⟩
      split at taken
      · split at taken
        · rename_i two
          cases taken
          exact ⟨2, .inr rfl, two, rfl⟩
        · cases taken
      · split at taken
        · rename_i one
          cases taken
          exact ⟨1, .inl rfl, (Nat.one_mul _).trans one, by simp⟩
        · cases taken
    · cases taken
  · rintro ⟨isLayer, share, rfl | rfl, total, rfl⟩
    · have same : reader.numLayers = reader.numRegions := (Nat.one_mul _).symm.trans total
      rw [if_pos isLayer, if_neg (Nat.not_lt.mpr (Nat.le_of_eq same.symm)), if_pos same]
      simp
    · have more : reader.numLayers < reader.numRegions := by omega
      rw [if_pos isLayer, if_pos more, if_pos total]
      rfl

theorem addressesRegions {ω' : Type*} {tables : Handshakes ω} (registered : worker.Registered)
    (ownBlocks : tables.dstNumBlocks.lookup worker.engineId = some worker.caches.numBlocks)
    (accepted : worker.Accepted tables agent ratios)
    (built : worker.remoteBlocksData agent ratios.tpRatio ratios.blockSizeRatio
      (worker.indexesIntoRemote ratios) = .ok remoteData)
    {index : ℕ} (isRead : worker.Chunked ratios → index < (-ratios.tpRatio).toNat)
    (nixl : NixlReader ω') (windows : List (Option ℕ)) :
    worker.AddressesRegions (worker.reader tables nixl windows) agent ratios index
      (worker.ownBlocksData ratios index) remoteData where
  everyRegion := rfl
  ofLayer := regionIds_some_eq_ok
  own := by
    intro layerIdx blockIds descs valid taken
    obtain ⟨count, regions, known, chosen, rfl⟩ := ReadingWorker.getBlockDescsIds_eq_ok taken
    obtain rfl : worker.caches.numBlocks = count := Option.some.inj (ownBlocks.symm.trans known)
    refine ⟨regions, chosen, map_getElem?_eq ?_ (ReadingWorker.regionIds_lt chosen)⟩
    exact fun region _ block isBlock =>
      getElem?_ownBlocksData accepted.fits (valid block isBlock)
  remote := by
    intro layerIdx blockIds descs valid taken
    obtain ⟨count, regions, known, chosen, rfl⟩ := ReadingWorker.getBlockDescsIds_eq_ok taken
    obtain rfl : agent.numBlocks = count := Option.some.inj (accepted.numBlocks.symm.trans known)
    refine ⟨regions, chosen, map_getElem?_eq ?_ (ReadingWorker.regionIds_lt chosen)⟩
    intro region isRegion block isBlock
    obtain ⟨entry, _, _, _, selected, isEntry, _⟩ :=
      registered.getElem?_remoteBlocksData accepted.fits built isRegion (valid block isBlock)
    rw [Option.getD_none, Nat.mul_one, selected, isEntry]
  ownInside := by
    intro region isRegion block inside
    obtain ⟨entry, data, _, isEntry, isData, _, _, within⟩ :=
      registered.ownEntry_within isRead isRegion inside
    exact ⟨entry, data, isEntry, isData, within⟩
  remoteInside := by
    intro region isRegion block inside
    obtain ⟨entry, baseAddr, _, remoteBlockLen, _, isEntry, isBase, _, isRemoteLen, _, within⟩ :=
      registered.getElem?_remoteBlocksData accepted.fits built isRegion inside
    exact ⟨entry, baseAddr, remoteBlockLen, isEntry, isBase, isRemoteLen, within⟩
  pairs := by
    rintro localBlockIds remoteBlockIds _ localDescs remoteDescs valid remoteValid rfl some_read
      enough taken
    have inside : ∀ block ∈ alignLocalBlocks ratios.blockSizeRatio localBlockIds remoteBlockIds,
        block < worker.caches.numBlocks * ratios.blockSizeRatio :=
      lt_of_mem_alignLocalBlocks accepted.fits.blockSizeRatio_pos valid
    have same : (alignLocalBlocks ratios.blockSizeRatio localBlockIds remoteBlockIds).length =
        (alignRemoteBlocks (alignLocalBlocks ratios.blockSizeRatio localBlockIds
          remoteBlockIds).length remoteBlockIds).length := by
      rw [alignRemoteBlocks_eq some_read enough, List.length_drop]
      omega
    apply (ReadingWorker.xferDescs_paired ownBlocks accepted.numBlocks same taken).imp
    rintro _ _ ⟨region, block, remoteBlock, isRegion, isLocal, isRemote, rfl, rfl⟩
    rw [alignRemoteBlocks_eq some_read enough] at isRemote
    have isInside := inside block isLocal
    obtain ⟨entry, _, blockLen, isEntry, _, isLen, len, _⟩ :=
      registered.ownEntry_within isRead isRegion isInside
    obtain ⟨other, _, otherLen, _, selected, isOther, _, isOtherLen, _, otherXfer, _⟩ :=
      registered.getElem?_remoteBlocksData accepted.fits built isRegion
        (remoteValid remoteBlock (List.mem_of_mem_drop isRemote))
    obtain rfl : blockLen = otherLen := Option.some.inj (isLen.symm.trans isOtherLen)
    refine ⟨region, block, remoteBlock, entry, other, isRegion, ?_, isEntry, selected, isOther,
      len.trans otherXfer.symm⟩
    rw [← isEntry]
    exact getElem?_ownBlocksData accepted.fits isInside

/-- The handles of a read stand for the lists of its two sides. -/
theorem Sound.sideHandles {ω' : Type*} {record : NixlRecord ω}
    {given : ℕ → ℕ → NixlAgentMetadata → Prop} {tables : Handshakes ω}
    (sound : worker.Sound record given tables)
    (registered : worker.Registered) {nixl : NixlReader ω'} {windows : List (Option ℕ)}
    {engineId : EngineId} {index remoteRank : ℕ} {localSide remoteSide : SideHandle}
    (sides : (worker.reader tables nixl windows).sideHandles engineId
      ((worker.reader tables nixl windows).kvTopo.tpRatioFromEngineId engineId) index remoteRank =
        .ok (localSide, remoteSide)) :
    ∃ agent ratios remoteData, agent.engineId = engineId ∧
      (worker.Chunked ratios → index < (-ratios.tpRatio).toNat) ∧
      OwnSide record tables localSide (worker.ownBlocksData ratios index) ∧
      worker.RemoteSide record given tables remoteRank remoteSide agent ratios remoteData := by
  obtain ⟨remoteBlockSize, isSize, sides⟩ := Run.bind_eq_ok.mp sides
  obtain ⟨own, isOwn, sides⟩ := Run.bind_eq_ok.mp sides
  obtain ⟨ofEngine, isEngine, sides⟩ := Run.bind_eq_ok.mp sides
  obtain ⟨ofRank, isRank, sides⟩ := Run.bind_eq_ok.mp sides
  cases sides
  have listed : Dict.lookupAt tables.dstXferSideHandles engineId remoteRank = some remoteSide := by
    have known : tables.dstXferSideHandles.lookup engineId = some ofEngine :=
      Dict.get_eq_ok.mp isEngine
    rw [Dict.lookupAt, known]
    exact Dict.get_eq_ok.mp isRank
  obtain ⟨agent, ratios, remoteData, rfl, side⟩ := sound.remote listed
  have accepted := side.accepted
  have isTpRatio : (worker.reader tables nixl windows).kvTopo.tpRatioFromEngineId agent.engineId =
      ratios.tpRatio := by
    change (worker.tpRatioFromEngineId agent.engineId tables).2.toOption.getD 1 = _
    rw [accepted.tpRatio]
    rfl
  rw [isTpRatio, ReadingWorker.localSideHandle] at isOwn
  refine ⟨agent, ratios, remoteData, rfl, ?_⟩
  split at isOwn
  · rename_i chunks
    have chunked : worker.Chunked ratios := chunks
    split at isOwn
    · obtain ⟨handles, isHandles, isOwn⟩ := Run.bind_eq_ok.mp isOwn
      split at isOwn
      · rename_i handle isHandle
        cases isOwn
        obtain ⟨isChunk, isData⟩ := sound.byTpRatio (Dict.get_eq_ok.mp isHandles) isHandle
        refine ⟨fun _ => isChunk, ?_, side⟩
        rw [ownBlocksData, if_pos chunked]
        exact isData
      · cases isOwn
    · cases isOwn
  · rename_i unchunked
    have whole : ¬ worker.Chunked ratios := unchunked
    refine ⟨fun chunked => absurd chunked whole, ?_, side⟩
    obtain ⟨size, isRecorded, isQuotient⟩ :=
      blockSizeRatioFromEngineId_eq_ok.mp accepted.blockSizeRatio
    obtain rfl : size = remoteBlockSize :=
      Option.some.inj (isRecorded.symm.trans (Dict.get_eq_ok.mp isSize))
    have product := worker.rules.blockSizeRatio_mul isQuotient
    have size_pos : 0 < size := by
      apply Nat.pos_of_ne_zero
      rintro rfl
      have := registered.blockSize_pos
      omega
    rw [ownBlocksData, if_neg whole]
    have isData := sound.byBlockSize (Dict.get_eq_ok.mp isOwn)
    rwa [← product, Nat.mul_div_cancel _ size_pos] at isData

end Addresses

/-- **What reads address.**  After any handshakes, the lists behind the handles of a read address
the registered memory of the regions: on this side the worker's own, and on the other that of the
rank which is read from, as this rank has described it. -/
theorem reads_address_regions {ω' : Type*} {worker : HandshakeWorker ω} {record : NixlRecord ω}
    (keeps : worker.nixl.Keeps record) {blockSize : ℕ} {layers : List (List KvTensor)}
    (registered : CacheTables.registerKvCaches worker.useMla worker.rules.isKvLayoutBlocksFirst
      blockSize layers = .ok worker.caches)
    {world : ω} {start : Handshakes ω}
    (started : worker.registerOwn (.init worker.engineId worker.worldSize blockSize world) =
      (start, .ok ⟨⟩))
    (events : List HandshakeEvent) {tables : Handshakes ω}
    (reached : events.foldl worker.handshake start = tables) (nixl : NixlReader ω')
    (windows : List (Option ℕ)) {engineId : EngineId} {index remoteRank : ℕ}
    {localSide remoteSide : SideHandle}
    (sides : (worker.reader tables nixl windows).sideHandles engineId
      ((worker.reader tables nixl windows).kvTopo.tpRatioFromEngineId engineId) index remoteRank =
        .ok (localSide, remoteSide)) :
    worker.caches.InLayers worker.rules.isKvLayoutBlocksFirst layers ∧
      ∃ agent ratios localData remoteData,
        agent.engineId = engineId ∧ (∃ event ∈ events, event.Gives remoteRank agent) ∧
        worker.Accepted tables agent ratios ∧
        localSide.agent = nixlInitAgent ∧
        record.prepared tables.world localSide = some localData ∧
        record.added tables.world remoteSide.agent agent.agentMetadata ∧
        record.prepared tables.world remoteSide = some remoteData ∧
        worker.AddressesRegions (worker.reader tables nixl windows) agent ratios index localData
          remoteData := by
  have isRegistered := worker.registered_of_registerKvCaches registered
  have sound : worker.Sound record (HandshakeEvent.Given events) tables := by
    subst reached
    exact Sound.handshakes keeps isRegistered events (registerOwn_sound keeps started)
  obtain ⟨agent, ratios, remoteData, same, isRead, own, side⟩ :=
    sound.sideHandles isRegistered sides
  obtain ⟨_, ⟨event, isEvent, _, gives⟩, _⟩ := side.answered
  refine ⟨CacheTables.registerKvCaches_inLayers registered, agent, ratios,
    worker.ownBlocksData ratios index, remoteData, same, ⟨event, isEvent, gives⟩, side.accepted,
    own.1, own.2, side.added, side.stands, ?_⟩
  exact addressesRegions isRegistered sound.ownBlocks side.accepted side.built isRead nixl windows

/-! ## A worker with one layer and two remote ranks -/

/-- A library that keeps the prepared lists and numbers them. -/
def listingNixl : NixlHandshaker (List (List XferDesc)) where
  addRemoteAgent world metadata := (world, .ok (String.singleton (Char.ofNat metadata.size)))
  prepXferDlist world agent descs := (world ++ [descs], .ok ⟨agent, world.length⟩)

/-- The list with the number of a handle, and the name that an agent has from its metadata. -/
def listed : NixlRecord (List (List XferDesc)) where
  prepared world handle := world[handle.id]?
  added _ name metadata := name = String.singleton (Char.ofNat metadata.size)

theorem listingNixl_keeps : listingNixl.Keeps listed where
  prepares := by
    rintro world _ agent descs _ ⟨⟩
    exact ⟨rfl, List.getElem?_concat_length⟩
  adds := by
    rintro world _ metadata _ ⟨⟩
    rfl
  prep_grows := by
    intro world agent descs
    refine ⟨fun {handle data} known => ?_, id⟩
    obtain ⟨inside, _⟩ := List.getElem?_eq_some_iff.mp known
    exact (List.getElem?_append_left inside).trans known
  add_grows := fun _ _ => .refl listed _

/-- A layer of two blocks with joint K and V, of 32 bytes each. -/
def oneLayer : List (List KvTensor) :=
  [[{ dataPtr := 1000, numBlocks := 2, blockSize := 4, sizeBytes := 64, device := 0 }]]

def oneLayerTables : CacheTables where
  blockSize := 4
  physicalBlocksPerLogicalKvBlock := 1
  seenBaseAddresses := [1000]
  tensorSizeBytes := some 64
  numBlocks := 2
  blockLenPerLayer := [32]
  slotSizePerLayer := [4]
  cachesData := [{ addr := 1000, len := 64, deviceId := 0 }]
  deviceId := 0
  numRegions := 2
  numLayers := 1

theorem oneLayer_registered :
    CacheTables.registerKvCaches false true 4 oneLayer = .ok oneLayerTables := rfl

/-- The only worker of a group that reads from groups of two. -/
def loneWorker {ω : Type} (nixl : NixlHandshaker ω) : HandshakeWorker ω where
  nixl
  rules := .contiguous true 4
  engineId := "decode"
  tpRank := 0
  worldSize := 1
  useMla := false
  useHostBuffer := false
  kvCacheLayout := "HND"
  hostBufferKvCacheLayout := "HND"
  enablePermuteLocalKv := false
  enforceCompatHash := true
  compatHash := "hash"
  caches := oneLayerTables

/-- A rank of a group of two, with half of the heads. -/
def halfAgent (rank : ℕ) : NixlAgentMetadata where
  engineId := "prefill"
  agentMetadata := ⟨#[0]⟩
  deviceId := rank
  kvCachesBaseAddr := [5000]
  numBlocks := 3
  blockLens := [16]
  kvCacheLayout := "HND"
  blockSize := 4

def halfGroup : HandshakeEvent where
  answers rank := .ok { compatibilityHash := "hash", agentMetadata := .ok (halfAgent rank) }
  remoteTpSize := 2
  engineId := "prefill"

/-- The tables of the lone worker when its caches are registered. -/
def loneStart : Handshakes (List (List XferDesc)) :=
  ((loneWorker listingNixl).registerOwn (.init "decode" 1 4 [])).1

/-- The tables of the lone worker after a handshake with a group of two. -/
def loneTables : Handshakes (List (List XferDesc)) :=
  [halfGroup].foldl (loneWorker listingNixl).handshake loneStart

/-- A library that begins every transfer. -/
def eagerReader : NixlReader Unit where
  sendNotif world _ _ := (world, .ok ())
  makePreppedXfer world _ _ _ _ _ := (world, .ok 0)
  transfer world _ := (world, .ok ())
  releaseXferHandle world _ := world

theorem reads_address_regions_halfGroup :
    (loneWorker listingNixl).caches.InLayers true oneLayer ∧
      ∃ agent ratios localData remoteData,
        agent.engineId = "prefill" ∧ (∃ event ∈ [halfGroup], event.Gives 1 agent) ∧
        (loneWorker listingNixl).Accepted loneTables agent ratios ∧
        nixlInitAgent = nixlInitAgent ∧
        listed.prepared loneTables.world ⟨nixlInitAgent, 2⟩ = some localData ∧
        listed.added loneTables.world (String.singleton (Char.ofNat 1)) agent.agentMetadata ∧
        listed.prepared loneTables.world ⟨String.singleton (Char.ofNat 1), 4⟩ = some remoteData ∧
        (loneWorker listingNixl).AddressesRegions
          ((loneWorker listingNixl).reader loneTables eagerReader []) agent ratios 1 localData
          remoteData :=
  have sides : ((loneWorker listingNixl).reader loneTables eagerReader []).sideHandles "prefill"
      (((loneWorker listingNixl).reader loneTables eagerReader []).kvTopo.tpRatioFromEngineId
        "prefill") 1 1 =
      .ok (⟨nixlInitAgent, 2⟩, ⟨String.singleton (Char.ofNat 1), 4⟩) := by decide +kernel
  have registered : CacheTables.registerKvCaches (loneWorker listingNixl).useMla
      (loneWorker listingNixl).rules.isKvLayoutBlocksFirst 4 oneLayer =
        .ok (loneWorker listingNixl).caches := oneLayer_registered
  have started : (loneWorker listingNixl).registerOwn (.init "decode" 1 4 []) =
      (loneStart, .ok ⟨⟩) := Prod.ext rfl rfl
  reads_address_regions listingNixl_keeps registered started [halfGroup] rfl eagerReader [] sides

end HandshakeWorker

end RduHdi
