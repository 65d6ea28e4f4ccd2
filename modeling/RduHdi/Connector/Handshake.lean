import RduHdi.Attempt
import RduHdi.Connector.CacheLayout
import RduHdi.Connector.Reads
import RduHdi.RankLayout

/-!
# Handshakes

A worker asks each remote rank it reads from for its metadata, registers the rank's agent, checks
that the two caches fit together and prepares the lists of descriptors that reads refer to.  A
handshake that fails on its way keeps what it has written so far.
-/

namespace RduHdi

/-- `NixlAgentMetadata`. -/
structure NixlAgentMetadata where
  /-- The engine of the rank. -/
  engineId : EngineId
  /-- What the library needs to add the agent. -/
  agentMetadata : ByteArray
  /-- The device of its caches. -/
  deviceId : ℕ
  /-- Where its caches begin. -/
  kvCachesBaseAddr : List ℕ
  /-- How many blocks a cache has. -/
  numBlocks : ℕ
  /-- The bytes of a block, for each cache. -/
  blockLens : List ℕ
  /-- `HND` or `NHD`. -/
  kvCacheLayout : String
  /-- The tokens of a block. -/
  blockSize : ℕ

/-- The rules of vLLM's `TpKVTopology`, of the local and the remote size in turn.  A ratio is the
quotient of two sizes of which one divides the other, negative when the remote group is larger,
and the ranks are assigned contiguously. -/
structure TopologyRules where
  /-- Whether K and V of a block are together. -/
  isKvLayoutBlocksFirst : Bool
  /-- The ratio of two group sizes, negative when the remote one is larger. -/
  tpRatio : ℕ → ℕ → Except PyError ℤ
  /-- The ratio of two block sizes. -/
  blockSizeRatio : ℕ → ℕ → Except PyError ℕ
  /-- Whether a group of this size has copies of the heads. -/
  isKvReplicated : ℕ → Bool
  /-- Of the local rank and the two sizes. -/
  targetRemoteRanks : ℕ → ℕ → ℕ → Except PyError (List ℕ)
  /-- A block has the tokens of so many remote blocks. -/
  blockSizeRatio_mul : ∀ {localSize remoteSize ratio : ℕ},
    blockSizeRatio localSize remoteSize = .ok ratio → ratio * remoteSize = localSize
  /-- A positive ratio is how many local ranks there are for a remote one. -/
  tpRatio_pos : ∀ {localSize remoteSize : ℕ} {ratio : ℤ},
    tpRatio localSize remoteSize = .ok ratio → 0 < ratio → ratio.toNat * remoteSize = localSize
  /-- A negative one is how many remote ranks there are for a local one. -/
  tpRatio_neg : ∀ {localSize remoteSize : ℕ} {ratio : ℤ},
    tpRatio localSize remoteSize = .ok ratio → ratio < 0 →
      (-ratio).toNat * localSize = remoteSize
  /-- It has a sign. -/
  tpRatio_ne_zero : ∀ {localSize remoteSize : ℕ} {ratio : ℤ},
    tpRatio localSize remoteSize = .ok ratio → ratio ≠ 0
  /-- A rank reads from the ranks that have its heads. -/
  targetRemoteRanks_eq : ∀ {rank localSize remoteSize : ℕ} {ranks : List ℕ},
    targetRemoteRanks rank localSize remoteSize = .ok ranks →
      ranks = RankLayout.contiguousTargets localSize remoteSize rank

/-- The rules for groups of which one size divides the other. -/
def TopologyRules.contiguous (isKvLayoutBlocksFirst : Bool) (totalNumKvHeads : ℕ) :
    TopologyRules where
  isKvLayoutBlocksFirst
  tpRatio localSize remoteSize :=
    if 0 < localSize ∧ 0 < remoteSize then
      if remoteSize ≤ localSize then
        if remoteSize ∣ localSize then .ok (localSize / remoteSize : ℕ) else .error .assertionError
      else
        if localSize ∣ remoteSize then .ok (-(remoteSize / localSize : ℕ))
        else .error .assertionError
    else
      .error .zeroDivisionError
  blockSizeRatio localSize remoteSize :=
    if remoteSize ∣ localSize then .ok (localSize / remoteSize) else .error .assertionError
  isKvReplicated size := totalNumKvHeads ≤ size
  targetRemoteRanks rank localSize remoteSize :=
    .ok (RankLayout.contiguousTargets localSize remoteSize rank)
  blockSizeRatio_mul := by
    intro localSize remoteSize ratio taken
    split at taken
    · rename_i divides
      cases taken
      exact Nat.div_mul_cancel divides
    · cases taken
  tpRatio_pos := by
    intro localSize remoteSize ratio taken positive
    split at taken
    · split at taken
      · split at taken
        · rename_i divides
          cases taken
          exact Nat.div_mul_cancel divides
        · cases taken
      · split at taken
        · cases taken
          exact absurd positive (Int.not_lt.mpr (Int.neg_nonpos_of_nonneg (Int.natCast_nonneg _)))
        · cases taken
    · cases taken
  tpRatio_neg := by
    intro localSize remoteSize ratio taken negative
    split at taken
    · split at taken
      · split at taken
        · cases taken
          exact absurd negative (Int.not_lt.mpr (Int.natCast_nonneg _))
        · cases taken
      · split at taken
        · rename_i divides
          cases taken
          rw [Int.neg_neg, Int.toNat_natCast]
          exact Nat.div_mul_cancel divides
        · cases taken
    · cases taken
  tpRatio_ne_zero := by
    intro localSize remoteSize ratio taken
    split at taken
    · rename_i positive
      split at taken
      · rename_i smaller
        split at taken
        · cases taken
          have := Nat.div_pos smaller positive.2
          omega
        · cases taken
      · rename_i larger
        split at taken
        · cases taken
          have := Nat.div_pos (Nat.le_of_not_le larger) positive.1
          omega
        · cases taken
    · cases taken
  targetRemoteRanks_eq := by
    intro rank localSize remoteSize ranks taken
    exact (Except.ok.inj taken).symm

/-- The operations of the NIXL library a handshake uses. -/
structure NixlHandshaker (ω : Type*) where
  /-- `add_remote_agent`. -/
  addRemoteAgent : ω → ByteArray → ω × Except PyError AgentName
  /-- `prep_xfer_dlist(agent, get_xfer_descs(blocks_data))`. -/
  prepXferDlist : ω → AgentName → List XferDesc → ω × Except PyError SideHandle

/-- What a worker has from its configuration and the registration of its caches. -/
structure HandshakeWorker (ω : Type*) where
  /-- The library, as handshakes use it. -/
  nixl : NixlHandshaker ω
  /-- What vLLM's topology says. -/
  rules : TopologyRules
  /-- The own engine. -/
  engineId : EngineId
  /-- The own rank. -/
  tpRank : ℕ
  /-- The own group size. -/
  worldSize : ℕ
  /-- `use_mla`. -/
  useMla : Bool
  /-- `use_host_buffer`. -/
  useHostBuffer : Bool
  /-- The layout of the device caches. -/
  kvCacheLayout : String
  /-- The layout of the host buffers. -/
  hostBufferKvCacheLayout : String
  /-- `kv_transfer_config.enable_permute_local_kv`. -/
  enablePermuteLocalKv : Bool
  /-- Whether hashes are compared. -/
  enforceCompatHash : Bool
  /-- The own hash. -/
  compatHash : String
  /-- The caches, as registered. -/
  caches : CacheTables

/-- The part of `NixlConnectorWorker` that handshakes change. -/
structure Handshakes (ω : Type*) where
  /-- The group size of each engine. -/
  tpSize : Dict EngineId ℕ
  /-- The block size of each engine. -/
  blockSize : Dict EngineId ℕ
  /-- `_remote_agents`, by engine and rank. -/
  remoteAgents : Dict EngineId (Dict ℕ AgentName)
  /-- How many blocks a cache of each engine has. -/
  dstNumBlocks : Dict EngineId ℕ
  /-- Where the caches begin, by engine and rank. -/
  kvCachesBaseAddr : Dict EngineId (Dict ℕ (List ℕ))
  /-- Whether a handshake asked for a permutation. -/
  enablePermuteLocalKv : Bool
  /-- The own lists of parts of blocks, by the ratio of the group sizes. -/
  srcXferHandlesByTpRatio : Dict ℤ (List SideHandle)
  /-- The own lists of blocks, by the block size. -/
  srcXferHandlesByBlockSize : Dict ℕ SideHandle
  /-- The lists of the remote ranks, by engine and rank. -/
  dstXferSideHandles : Dict EngineId (Dict ℕ SideHandle)
  /-- The library. -/
  world : ω

/-- What a remote rank answers. -/
structure HandshakePayload where
  /-- The hash of the remote rank. -/
  compatibilityHash : String
  /-- The decoded metadata of its agent. -/
  agentMetadata : Except PyError NixlAgentMetadata

/-- `d[key][rank] = value`, where `d` makes the inner dictionary. -/
def Dict.setAt {α : Type*} (dict : Dict EngineId (Dict ℕ α)) (engineId : EngineId) (rank : ℕ)
    (value : α) : Dict EngineId (Dict ℕ α) :=
  AList.set engineId (AList.set rank value ((dict.lookup engineId).getD ∅)) dict

/-- `d[key][rank]`. -/
def Dict.lookupAt {α : Type*} (dict : Dict EngineId (Dict ℕ α)) (engineId : EngineId)
    (rank : ℕ) : Option α :=
  ((dict.lookup engineId).getD ∅).lookup rank

theorem Dict.lookupAt_setAt {α : Type*} {dict : Dict EngineId (Dict ℕ α)}
    {engineId other : EngineId} {rank otherRank : ℕ} {value found : α}
    (isFound : Dict.lookupAt (Dict.setAt dict engineId rank value) other otherRank = some found) :
    other = engineId ∧ otherRank = rank ∧ found = value ∨
      Dict.lookupAt dict other otherRank = some found := by
  rw [Dict.lookupAt, Dict.setAt] at isFound
  by_cases sameEngine : other = engineId
  · subst sameEngine
    rw [AList.lookup_set, Option.getD_some] at isFound
    by_cases sameRank : otherRank = rank
    · subst sameRank
      rw [AList.lookup_set] at isFound
      exact .inl ⟨rfl, rfl, (Option.some.inj isFound).symm⟩
    · rw [AList.lookup_set_ne sameRank] at isFound
      exact .inr isFound
  · rw [AList.lookup_set_ne sameEngine] at isFound
    exact .inr isFound

theorem Dict.lookupAt_setAt_self {α : Type*} {dict : Dict EngineId (Dict ℕ α)}
    {engineId : EngineId} {rank : ℕ} {value : α} :
    Dict.lookupAt (Dict.setAt dict engineId rank value) engineId rank = some value := by
  rw [Dict.lookupAt, Dict.setAt, AList.lookup_set, Option.getD_some, AList.lookup_set]

theorem Dict.lookupAt_setAt_ne {α : Type*} {dict : Dict EngineId (Dict ℕ α)}
    {engineId other : EngineId} {rank otherRank : ℕ} {value : α} (different : otherRank ≠ rank) :
    Dict.lookupAt (Dict.setAt dict engineId rank value) other otherRank =
      Dict.lookupAt dict other otherRank := by
  rw [Dict.lookupAt, Dict.lookupAt, Dict.setAt]
  by_cases sameEngine : other = engineId
  · subst sameEngine
    rw [AList.lookup_set, Option.getD_some, AList.lookup_set_ne different]
  · rw [AList.lookup_set_ne sameEngine]

/-- `NIXL_INIT_AGENT`. -/
def nixlInitAgent : AgentName := "NIXL_INIT_AGENT"

namespace HandshakeWorker

/-- What a handshake reads off the recorded sizes of the remote engine. -/
structure Ratios where
  /-- The ratio of the group sizes, with its sign. -/
  tpRatio : ℤ
  /-- The ratio of the block sizes. -/
  blockSizeRatio : ℕ
  /-- Whether the remote cache is replicated. -/
  replicated : Bool

variable {ω : Type} (worker : HandshakeWorker ω)

/-- A computation of the worker on its tables. -/
abbrev Job (ω : Type) (α : Type) : Type := Attempt PyError (Handshakes ω) α

open Attempt (read readOk write raise lift require)

/-! ## The topology -/

def tpRatioFromEngineId (engineId : EngineId) : Job ω ℤ :=
  readOk fun tables =>
    (Dict.get tables.tpSize engineId).bind (worker.rules.tpRatio worker.worldSize)

def blockSizeRatioFromEngineId (engineId : EngineId) : Job ω ℕ :=
  readOk fun tables =>
    (Dict.get tables.blockSize engineId).bind (worker.rules.blockSizeRatio worker.caches.blockSize)

def isKvReplicated (engineId : EngineId) : Job ω Bool :=
  readOk fun tables => (Dict.get tables.tpSize engineId).map worker.rules.isKvReplicated

/-! ## Validation -/

/-- The block lengths of replicated caches, layer by layer. -/
def matchBlockLens (blockSizeRatio : ℕ) : List ℕ → List ℕ → Except PyError PUnit
  | [], _ => .ok ⟨⟩
  | _ :: _, [] => .error .indexError
  | blockLen :: blockLens, remoteBlockLen :: remoteBlockLens => do
      let scaled ← CacheTables.floorDiv blockLen blockSizeRatio
      if scaled = remoteBlockLen then matchBlockLens blockSizeRatio blockLens remoteBlockLens
      else .error .assertionError

/-- The block lengths of caches that are split by heads. -/
def matchSplitBlockLens (remoteBlockLens : List ℕ) (remoteBlockLen : ℕ) (tpRatio : ℤ)
    (blockSizeRatio : ℕ) : Except PyError PUnit :=
  if remoteBlockLens.any (· ≠ remoteBlockLen) then
    .error .assertionError
  else
    match worker.caches.blockLenPerLayer[0]? with
    | none => .error .indexError
    | some blockLen =>
        if tpRatio > 0 then do
          let expected ← CacheTables.floorDiv (blockLen * tpRatio.toNat) blockSizeRatio
          if remoteBlockLen = expected then .ok ⟨⟩ else .error .assertionError
        else if blockSizeRatio ≠ 1 then
          .error .assertionError
        else do
          let expected ← CacheTables.floorDiv blockLen (-tpRatio).toNat
          if remoteBlockLen = expected then .ok ⟨⟩ else .error .assertionError

/-- The layout that transfers use on this side. -/
def xferLayout : String :=
  if worker.useHostBuffer then worker.hostBufferKvCacheLayout else worker.kvCacheLayout

/-- The remote cache has another layout. -/
def LayoutDiffers (agent : NixlAgentMetadata) : Prop :=
  ¬ worker.useMla ∧ agent.kvCacheLayout ≠ worker.xferLayout

instance (agent : NixlAgentMetadata) : Decidable (worker.LayoutDiffers agent) := by
  unfold LayoutDiffers
  infer_instance

/-- The check of the layouts, which may ask for a permutation of what is received. -/
def checkLayout (agent : NixlAgentMetadata) : Job ω PUnit :=
  if worker.LayoutDiffers agent then
    if worker.enablePermuteLocalKv ∧ agent.kvCacheLayout = "HND" then
      write fun tables => { tables with enablePermuteLocalKv := true }
    else
      raise .runtimeError
  else
    pure ⟨⟩

/-- The checks of the block lengths. -/
def checkBlockLens (agent : NixlAgentMetadata) (replicated : Bool) (tpRatio : ℤ)
    (blockSizeRatio : ℕ) : Except PyError PUnit :=
  match agent.blockLens[0]? with
  | none => .error .indexError
  | some remoteBlockLen =>
      if worker.useMla || replicated then
        matchBlockLens blockSizeRatio worker.caches.blockLenPerLayer agent.blockLens
      else
        worker.matchSplitBlockLens agent.blockLens remoteBlockLen tpRatio blockSizeRatio

/-- The first checks of `_validate_remote_agent_handshake`, of the sizes. -/
def checkSizes (agent : NixlAgentMetadata) (remoteTpSize : ℕ) : Job ω Ratios := do
  require (fun tables => tables.tpSize.lookup agent.engineId = some remoteTpSize) .assertionError
  let tpRatio ← worker.tpRatioFromEngineId agent.engineId
  let blockSizeRatio ← worker.blockSizeRatioFromEngineId agent.engineId
  let replicated ← worker.isKvReplicated agent.engineId
  require (fun _ => ¬ (tpRatio < 0 ∧ replicated)) .assertionError
  return ⟨tpRatio, blockSizeRatio, replicated⟩

/-- `_validate_remote_agent_handshake`. -/
def validateRemoteAgentHandshake (agent : NixlAgentMetadata) (remoteTpSize : ℕ) : Job ω PUnit := do
  let ratios ← worker.checkSizes agent remoteTpSize
  worker.checkLayout agent
  lift (worker.checkBlockLens agent ratios.replicated ratios.tpRatio ratios.blockSizeRatio)
  require (fun tables => tables.dstNumBlocks.lookup agent.engineId = some agent.numBlocks)
    .assertionError
  require (fun _ => agent.kvCachesBaseAddr.length = worker.caches.blockLenPerLayer.length)
    .assertionError

/-! ## Adding an agent -/

/-- The sizes of an engine are recorded once. -/
def recordSizes (agent : NixlAgentMetadata) (remoteTpSize : ℕ) (tables : Handshakes ω) :
    Handshakes ω :=
  { tables with
    tpSize := tables.tpSize.setDefault agent.engineId remoteTpSize
    blockSize := tables.blockSize.setDefault agent.engineId agent.blockSize }

/-- The number of blocks is recorded once, the addresses for every rank. -/
def recordCaches (agent : NixlAgentMetadata) (remoteTpRank : ℕ) (tables : Handshakes ω) :
    Handshakes ω :=
  { tables with
    dstNumBlocks := tables.dstNumBlocks.setDefault agent.engineId agent.numBlocks
    kvCachesBaseAddr :=
      Dict.setAt tables.kvCachesBaseAddr agent.engineId remoteTpRank agent.kvCachesBaseAddr }

/-- `nixl_wrapper.add_remote_agent`. -/
def nixlAddRemoteAgent (agentMetadata : ByteArray) : Job ω AgentName := fun tables =>
  match worker.nixl.addRemoteAgent tables.world agentMetadata with
  | (world, result) => ({ tables with world }, result)

/-- `nixl_wrapper.prep_xfer_dlist`. -/
def prepXferDlist (agent : AgentName) (blocksData : List XferDesc) : Job ω SideHandle :=
  fun tables =>
    match worker.nixl.prepXferDlist tables.world agent blocksData with
    | (world, result) => ({ tables with world }, result)

/-- `src_blocks_data`, the worker's own descriptors at its own block size. -/
def srcBlocksData : List XferDesc :=
  worker.caches.localBlocksData worker.rules.isKvLayoutBlocksFirst 1

/-- One chunk of the worker's own memory for each rank of a larger remote group. -/
def splitLocalMemory (tpRatio : ℤ) : Job ω PUnit := do
  let known ← read fun tables => decide (tpRatio ∈ tables.srcXferHandlesByTpRatio)
  if tpRatio < 0 ∧ ¬ worker.useMla ∧ ¬ known then
    write fun tables =>
      { tables with srcXferHandlesByTpRatio := tables.srcXferHandlesByTpRatio.set tpRatio [] }
    let chunks := (-tpRatio).toNat
    Attempt.forEach
      (fun index => do
        let handle ← worker.prepXferDlist nixlInitAgent
          (CacheTables.splitBlocksData chunks index worker.srcBlocksData)
        write fun tables =>
          { tables with
            srcXferHandlesByTpRatio := tables.srcXferHandlesByTpRatio.set tpRatio
              ((tables.srcXferHandlesByTpRatio.lookup tpRatio).getD [] ++ [handle]) })
      (List.range chunks)
  else
    pure ⟨⟩

/-- What one rank of a larger remote group holds of a length. -/
def chunkLen (tpRatio : ℤ) (localBlockLen : ℕ) : Except PyError ℕ :=
  if tpRatio < 0 ∧ ¬ worker.useMla then CacheTables.floorDiv localBlockLen (-tpRatio).toNat
  else .ok localBlockLen

/-- The descriptors of one cache of a remote rank: its blocks, or in them the heads of this
rank. -/
def remoteCacheDescs (agent : NixlAgentMetadata) (tpRatio : ℤ) (blockSizeRatio : ℕ)
    (indexesIntoRemote : Bool) (layer : ℕ × ℕ) : Except PyError (List XferDesc) := do
  let (baseAddr, index) := layer
  match worker.caches.blockLenPerLayer[index]? with
  | none => .error .indexError
  | some blockLen =>
      let ownLen := CacheTables.kvBlockLen worker.rules.isKvLayoutBlocksFirst blockLen
      let remoteKvBlockLen ← CacheTables.floorDiv ownLen blockSizeRatio
      let localBlockLen := if blockSizeRatio > 1 then remoteKvBlockLen else ownLen
      let localBlockLen ← worker.chunkLen tpRatio localBlockLen
      let rankOffset :=
        if indexesIntoRemote then worker.tpRank % tpRatio.toNat * remoteKvBlockLen else 0
      if agent.numBlocks = 0 then
        .ok []
      else
        match agent.blockLens[index]? with
        | none => .error .indexError
        | some remoteBlockLen =>
            .ok <| CacheTables.cacheDescs worker.rules.isKvLayoutBlocksFirst
              (baseAddr + rankOffset) remoteBlockLen (remoteBlockLen / 2) agent.numBlocks
              localBlockLen agent.deviceId

/-- The descriptors of all of the blocks of a remote rank. -/
def remoteBlocksData (agent : NixlAgentMetadata) (tpRatio : ℤ) (blockSizeRatio : ℕ)
    (indexesIntoRemote : Bool) : Except PyError (List XferDesc) :=
  (agent.kvCachesBaseAddr.zipIdx.mapM
    (worker.remoteCacheDescs agent tpRatio blockSizeRatio indexesIntoRemote)).map List.flatten

/-- `register_local_xfer_handler`. -/
def registerLocalXferHandler (blockSize : ℕ) : Job ω SideHandle := do
  let blockSizeRatio ← lift (CacheTables.floorDiv worker.caches.blockSize blockSize)
  require (fun _ => blockSizeRatio ≠ 0) .zeroDivisionError
  worker.prepXferDlist nixlInitAgent
    (worker.caches.localBlocksData worker.rules.isKvLayoutBlocksFirst blockSizeRatio)

/-- The first part of `add_remote_agent`: the agent is known to NIXL and its metadata is
recorded. -/
def registerAgent (agent : NixlAgentMetadata) (remoteTpRank remoteTpSize : ℕ) :
    Job ω (AgentName × ℕ) := do
  write (recordSizes agent remoteTpSize)
  let name ← worker.nixlAddRemoteAgent agent.agentMetadata
  let blockSizeRatio ← worker.blockSizeRatioFromEngineId agent.engineId
  write (recordCaches agent remoteTpRank)
  return (name, blockSizeRatio)

/-- The second part, once the metadata is validated: the lists of descriptors are prepared, the
own chunks first and the list of the remote rank last. -/
def prepareLists (agent : NixlAgentMetadata) (name : AgentName) (blockSizeRatio : ℕ) :
    Job ω SideHandle := do
  let tpRatio ← worker.tpRatioFromEngineId agent.engineId
  let replicated ← worker.isKvReplicated agent.engineId
  let indexesIntoRemote := !(worker.useMla || replicated) && tpRatio > 0
  worker.splitLocalMemory tpRatio
  let blocksData ←
    lift (worker.remoteBlocksData agent tpRatio blockSizeRatio indexesIntoRemote)
  worker.prepXferDlist name blocksData

/-- The second part: the metadata is checked and the lists of descriptors are prepared. -/
def prepareRemote (agent : NixlAgentMetadata) (remoteTpSize : ℕ) (name : AgentName)
    (blockSizeRatio : ℕ) : Job ω SideHandle := do
  worker.validateRemoteAgentHandshake agent remoteTpSize
  worker.prepareLists agent name blockSizeRatio

/-- The last part: the lists are put into the tables. -/
def keepHandles (agent : NixlAgentMetadata) (remoteTpRank blockSizeRatio : ℕ)
    (handle : SideHandle) : Job ω PUnit := do
  write fun tables =>
    { tables with
      dstXferSideHandles :=
        Dict.setAt tables.dstXferSideHandles agent.engineId remoteTpRank handle }
  if blockSizeRatio > 1 then
    let own ← worker.registerLocalXferHandler agent.blockSize
    write fun tables =>
      { tables with
        srcXferHandlesByBlockSize := tables.srcXferHandlesByBlockSize.set agent.blockSize own }
  else
    pure ⟨⟩

/-- `add_remote_agent`. -/
def addRemoteAgent (agent : NixlAgentMetadata) (remoteTpRank remoteTpSize : ℕ) :
    Job ω AgentName := do
  let known ← read fun tables =>
    ((tables.remoteAgents.lookup agent.engineId).getD ∅).lookup remoteTpRank
  match known with
  | some name => return name
  | none =>
      let (name, blockSizeRatio) ← worker.registerAgent agent remoteTpRank remoteTpSize
      let handle ← worker.prepareRemote agent remoteTpSize name blockSizeRatio
      worker.keepHandles agent remoteTpRank blockSizeRatio handle
      return name

/-! ## A handshake -/

/-- The metadata of a remote rank, from its answer. -/
def checkPayload (expectedEngineId : EngineId) (payload : HandshakePayload) :
    Except PyError NixlAgentMetadata :=
  if worker.enforceCompatHash ∧ payload.compatibilityHash ≠ worker.compatHash then
    .error .runtimeError
  else
    match payload.agentMetadata with
    | .error _ => .error .runtimeError
    | .ok agent => if agent.engineId = expectedEngineId then .ok agent else .error .runtimeError

/-- The loop over the remote ranks. -/
def handshakeRanks (answers : ℕ → Except PyError HandshakePayload) (remoteTpSize : ℕ)
    (expectedEngineId : EngineId) : List ℕ → Dict ℕ AgentName → Job ω (Dict ℕ AgentName)
  | [], agents => pure agents
  | rank :: ranks, agents => do
      let payload ← lift (answers rank)
      let agent ← lift (worker.checkPayload expectedEngineId payload)
      let name ← worker.addRemoteAgent agent rank remoteTpSize
      handshakeRanks answers remoteTpSize expectedEngineId ranks (agents.set rank name)

/-- `_nixl_handshake`; `answers` is what the ranks answer, or how asking or decoding fails. -/
def nixlHandshake (answers : ℕ → Except PyError HandshakePayload) (remoteTpSize : ℕ)
    (expectedEngineId : EngineId) : Job ω (Dict ℕ AgentName) := do
  let ranks ← lift (worker.rules.targetRemoteRanks worker.tpRank worker.worldSize remoteTpSize)
  worker.handshakeRanks answers remoteTpSize expectedEngineId ranks ∅

end HandshakeWorker

end RduHdi
