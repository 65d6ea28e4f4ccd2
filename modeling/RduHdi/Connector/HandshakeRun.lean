import RduHdi.Connector.DescAddresses

/-!
# Handshakes one after another

A worker registers its caches and then does handshakes, some of which fail.  Whatever the order,
every handle in its tables stands for the list that reads expect behind it, so that a region and a
block select bytes of that region on either side.
-/

namespace RduHdi

/-- What NIXL remembers. -/
structure NixlRecord (ω : Type*) where
  /-- The list that a handle stands for. -/
  prepared : ω → SideHandle → Option (List XferDesc)
  /-- An agent has its name from some metadata. -/
  added : ω → AgentName → ByteArray → Prop

/-- Nothing is forgotten from one state to another. -/
structure NixlRecord.Grows {ω : Type*} (record : NixlRecord ω) (world next : ω) : Prop where
  /-- A list that was prepared stays so. -/
  prepared : ∀ {handle descs}, record.prepared world handle = some descs →
    record.prepared next handle = some descs
  /-- An agent that was added stays so. -/
  added : ∀ {name metadata}, record.added world name metadata → record.added next name metadata

/-- The list of a handle, of no entry where there is none. -/
def NixlRecord.list {ω : Type*} (record : NixlRecord ω) (world : ω) (handle : SideHandle) :
    List XferDesc :=
  (record.prepared world handle).getD []

theorem NixlRecord.Grows.refl {ω : Type*} (record : NixlRecord ω) (world : ω) :
    record.Grows world world :=
  ⟨id, id⟩

/-- A prepared handle is one of its agent and stands for its list, and an agent is that of the
metadata it was added with, from then on. -/
structure NixlHandshaker.Keeps {ω : Type*} (nixl : NixlHandshaker ω) (record : NixlRecord ω) :
    Prop where
  /-- What is prepared is remembered under its handle. -/
  prepares : ∀ {world next agent descs handle},
    nixl.prepXferDlist world agent descs = (next, .ok handle) →
      handle.agent = agent ∧ record.prepared next handle = some descs
  /-- What is added is remembered under its name. -/
  adds : ∀ {world next metadata name},
    nixl.addRemoteAgent world metadata = (next, .ok name) → record.added next name metadata
  /-- Preparing forgets nothing. -/
  prep_grows : ∀ world agent descs,
    record.Grows world (nixl.prepXferDlist world agent descs).1
  /-- Adding forgets nothing. -/
  add_grows : ∀ world metadata, record.Grows world (nixl.addRemoteAgent world metadata).1

/-- The tables of a worker before its caches are registered. -/
def Handshakes.init {ω : Type*} (engineId : EngineId) (worldSize blockSize : ℕ) (world : ω) :
    Handshakes ω where
  tpSize := AList.set engineId worldSize ∅
  blockSize := AList.set engineId blockSize ∅
  remoteAgents := ∅
  dstNumBlocks := ∅
  kvCachesBaseAddr := ∅
  enablePermuteLocalKv := false
  srcXferHandlesByTpRatio := ∅
  srcXferHandlesByBlockSize := ∅
  dstXferSideHandles := ∅
  world

/-- A handshake: what the ranks answer, and whom it is with. -/
structure HandshakeEvent where
  /-- What each rank answers. -/
  answers : ℕ → Except PyError HandshakePayload
  /-- The group size of the engine. -/
  remoteTpSize : ℕ
  /-- The engine. -/
  engineId : EngineId

/-- A rank answers with some metadata. -/
def HandshakeEvent.Gives (event : HandshakeEvent) (rank : ℕ) (agent : NixlAgentMetadata) : Prop :=
  ∃ payload, event.answers rank = .ok payload ∧ payload.agentMetadata = .ok agent

/-- A rank of a group of some size has answered with some metadata. -/
def HandshakeEvent.Given (events : List HandshakeEvent) (rank remoteTpSize : ℕ)
    (agent : NixlAgentMetadata) : Prop :=
  ∃ event ∈ events, event.remoteTpSize = remoteTpSize ∧ event.Gives rank agent

namespace HandshakeWorker

variable {ω : Type} (worker : HandshakeWorker ω)

/-- What `register_kv_caches` does to the tables. -/
def registerOwn : Job ω PUnit := do
  Attempt.write fun tables =>
    { tables with
      blockSize := tables.blockSize.set worker.engineId worker.caches.blockSize
      kvCachesBaseAddr := Dict.setAt tables.kvCachesBaseAddr worker.engineId worker.tpRank
        worker.caches.seenBaseAddresses
      dstNumBlocks := tables.dstNumBlocks.set worker.engineId worker.caches.numBlocks }
  let handle ← worker.registerLocalXferHandler worker.caches.blockSize
  Attempt.write fun tables =>
    { tables with
      srcXferHandlesByBlockSize :=
        tables.srcXferHandlesByBlockSize.set worker.caches.blockSize handle }

/-- `_background_nixl_handshake`, up to the end of the handshake. -/
def handshake (tables : Handshakes ω) (event : HandshakeEvent) : Handshakes ω :=
  match worker.nixlHandshake event.answers event.remoteTpSize event.engineId tables with
  | (tables, .ok agents) =>
      { tables with remoteAgents := tables.remoteAgents.set event.engineId agents }
  | (tables, .error _) => tables

/-- The reading half of the worker, with the tables that handshakes left.  A ratio that would
raise here has raised in the handshake. -/
def reader {ω' : Type*} (tables : Handshakes ω) (nixl : NixlReader ω')
    (blockWindowPerLayer : List (Option ℕ)) : ReadingWorker ω' where
  nixl
  kvTopo :=
    { getTargetRemoteRanksFromEngineId := fun engineId =>
        ((Dict.get tables.tpSize engineId).bind
          (worker.rules.targetRemoteRanks worker.tpRank worker.worldSize)).toOption.getD []
      tpRatioFromEngineId := fun engineId =>
        (worker.tpRatioFromEngineId engineId tables).2.toOption.getD 1
      blockSizeRatioFromEngineId := fun engineId =>
        (worker.blockSizeRatioFromEngineId engineId tables).2.toOption.getD 1
      remoteBlockSize := tables.blockSize }
  engineId := worker.engineId
  worldSize := worker.worldSize
  useMla := worker.useMla
  blockSize := worker.caches.blockSize
  blockWindowPerLayer
  numRegions := worker.caches.numRegions
  numLayers := worker.caches.numLayers
  dstNumBlocks := tables.dstNumBlocks
  srcXferHandlesByTpRatio := tables.srcXferHandlesByTpRatio
  srcXferHandlesByBlockSize := tables.srcXferHandlesByBlockSize
  dstXferSideHandles := tables.dstXferSideHandles
  remoteAgents := tables.remoteAgents

/-- The metadata of a remote rank was accepted, with the ratios that the tables give. -/
structure Accepted (tables : Handshakes ω) (agent : NixlAgentMetadata) (ratios : Ratios) :
    Prop where
  /-- The tables have the ratio of the group sizes. -/
  tpRatio : (worker.tpRatioFromEngineId agent.engineId tables).2 = .ok ratios.tpRatio
  /-- They have that of the block sizes. -/
  blockSizeRatio :
    (worker.blockSizeRatioFromEngineId agent.engineId tables).2 = .ok ratios.blockSizeRatio
  /-- They say whether the cache is replicated. -/
  replicated : (worker.isKvReplicated agent.engineId tables).2 = .ok ratios.replicated
  /-- They have the number of blocks. -/
  numBlocks : tables.dstNumBlocks.lookup agent.engineId = some agent.numBlocks
  /-- The rank passed the checks. -/
  fits : worker.Fits agent ratios

variable (record : NixlRecord ω) (given : ℕ → ℕ → NixlAgentMetadata → Prop)

/-- A handle of the worker's own memory stands for a list. -/
def OwnSide (tables : Handshakes ω) (handle : SideHandle) (descs : List XferDesc) : Prop :=
  handle.agent = nixlInitAgent ∧ record.prepared tables.world handle = some descs

/-- A handle stands for the list of a remote rank: of metadata that this rank has given and that
was accepted, for the agent that was added with it. -/
structure RemoteSide (tables : Handshakes ω) (rank : ℕ) (handle : SideHandle)
    (agent : NixlAgentMetadata) (ratios : Ratios) (descs : List XferDesc) : Prop where
  /-- The rank gave this metadata. -/
  answered : ∃ remoteTpSize, given rank remoteTpSize agent ∧
    tables.tpSize.lookup agent.engineId = some remoteTpSize
  /-- It was accepted. -/
  accepted : worker.Accepted tables agent ratios
  /-- The list has the blocks of the rank. -/
  built : worker.remoteBlocksData agent ratios.tpRatio ratios.blockSizeRatio
    (worker.indexesIntoRemote ratios) = .ok descs
  /-- The agent was added with that metadata. -/
  added : record.added tables.world handle.agent agent.agentMetadata
  /-- The list is the one behind the handle. -/
  stands : record.prepared tables.world handle = some descs

/-- Every handle in the tables stands for the list that reads expect. -/
structure Sound (tables : Handshakes ω) : Prop where
  /-- The own number of blocks is there. -/
  ownBlocks : tables.dstNumBlocks.lookup worker.engineId = some worker.caches.numBlocks
  /-- Behind a handle for a block size is the list of the own blocks. -/
  byBlockSize : ∀ {size handle}, tables.srcXferHandlesByBlockSize.lookup size = some handle →
    OwnSide record tables handle (worker.caches.localBlocksData
      worker.rules.isKvLayoutBlocksFirst (worker.caches.blockSize / size))
  /-- Behind the handles for a ratio are the lists of the parts of blocks. -/
  byTpRatio : ∀ {tpRatio handles index handle},
    tables.srcXferHandlesByTpRatio.lookup tpRatio = some handles →
    handles[index]? = some handle →
    index < (-tpRatio).toNat ∧ OwnSide record tables handle
      (CacheTables.splitBlocksData (-tpRatio).toNat index worker.srcBlocksData)
  /-- Behind a handle of a remote rank is the list of its blocks. -/
  remote : ∀ {engineId rank handle},
    Dict.lookupAt tables.dstXferSideHandles engineId rank = some handle →
    ∃ agent ratios remoteData, agent.engineId = engineId ∧
      worker.RemoteSide record given tables rank handle agent ratios remoteData

/-- What handshakes know of sizes, they go on knowing. -/
structure Knows (tables next : Handshakes ω) : Prop where
  /-- A known group size stays. -/
  tpSize : ∀ {engineId size}, tables.tpSize.lookup engineId = some size →
    next.tpSize.lookup engineId = some size
  /-- A known block size stays. -/
  blockSize : ∀ {engineId size}, tables.blockSize.lookup engineId = some size →
    next.blockSize.lookup engineId = some size
  /-- A known number of blocks stays. -/
  dstNumBlocks : ∀ {engineId count}, tables.dstNumBlocks.lookup engineId = some count →
    next.dstNumBlocks.lookup engineId = some count

variable {worker record given}

theorem tpRatioFromEngineId_eq_ok {tables : Handshakes ω} {engineId : EngineId} {tpRatio : ℤ} :
    (worker.tpRatioFromEngineId engineId tables).2 = .ok tpRatio ↔
      ∃ size, tables.tpSize.lookup engineId = some size ∧
        worker.rules.tpRatio worker.worldSize size = .ok tpRatio := by
  simp only [← Dict.get_eq_ok]
  exact Run.bind_eq_ok

theorem blockSizeRatioFromEngineId_eq_ok {tables : Handshakes ω} {engineId : EngineId}
    {ratio : ℕ} :
    (worker.blockSizeRatioFromEngineId engineId tables).2 = .ok ratio ↔
      ∃ size, tables.blockSize.lookup engineId = some size ∧
        worker.rules.blockSizeRatio worker.caches.blockSize size = .ok ratio := by
  simp only [← Dict.get_eq_ok]
  exact Run.bind_eq_ok

theorem isKvReplicated_eq_ok {tables : Handshakes ω} {engineId : EngineId} {replicated : Bool} :
    (worker.isKvReplicated engineId tables).2 = .ok replicated ↔
      ∃ size, tables.tpSize.lookup engineId = some size ∧
        worker.rules.isKvReplicated size = replicated := by
  simp only [← Dict.get_eq_ok]
  exact Run.map_eq_ok

theorem Knows.blockSizeRatio {tables next : Handshakes ω} (more : Knows tables next)
    {engineId : EngineId} {ratio : ℕ}
    (known : (worker.blockSizeRatioFromEngineId engineId tables).2 = .ok ratio) :
    (worker.blockSizeRatioFromEngineId engineId next).2 = .ok ratio := by
  obtain ⟨size, isSize, isRatio⟩ := blockSizeRatioFromEngineId_eq_ok.mp known
  exact blockSizeRatioFromEngineId_eq_ok.mpr ⟨size, more.blockSize isSize, isRatio⟩

theorem Accepted.extend {tables next : Handshakes ω} {agent : NixlAgentMetadata} {ratios : Ratios}
    (accepted : worker.Accepted tables agent ratios) (more : Knows tables next) :
    worker.Accepted next agent ratios where
  tpRatio := by
    obtain ⟨size, known, isRatio⟩ := tpRatioFromEngineId_eq_ok.mp accepted.tpRatio
    exact tpRatioFromEngineId_eq_ok.mpr ⟨size, more.tpSize known, isRatio⟩
  blockSizeRatio := more.blockSizeRatio accepted.blockSizeRatio
  replicated := by
    obtain ⟨size, known, isReplicated⟩ := isKvReplicated_eq_ok.mp accepted.replicated
    exact isKvReplicated_eq_ok.mpr ⟨size, more.tpSize known, isReplicated⟩
  numBlocks := more.dstNumBlocks accepted.numBlocks
  fits := accepted.fits

theorem OwnSide.extend {tables next : Handshakes ω} {handle : SideHandle}
    {descs : List XferDesc} (own : OwnSide record tables handle descs)
    (grows : record.Grows tables.world next.world) : OwnSide record next handle descs :=
  ⟨own.1, grows.prepared own.2⟩

theorem RemoteSide.extend {tables next : Handshakes ω} {rank : ℕ} {handle : SideHandle}
    {agent : NixlAgentMetadata} {ratios : Ratios} {descs : List XferDesc}
    (side : worker.RemoteSide record given tables rank handle agent ratios descs)
    (more : Knows tables next) (grows : record.Grows tables.world next.world) :
    worker.RemoteSide record given next rank handle agent ratios descs where
  answered := side.answered.imp fun _ known => ⟨known.1, more.tpSize known.2⟩
  accepted := side.accepted.extend more
  built := side.built
  added := grows.added side.added
  stands := grows.prepared side.stands

theorem Sound.extend {tables next : Handshakes ω} (sound : worker.Sound record given tables)
    (more : Knows tables next) (grows : record.Grows tables.world next.world)
    (sameBlockSize : next.srcXferHandlesByBlockSize = tables.srcXferHandlesByBlockSize)
    (sameTpRatio : next.srcXferHandlesByTpRatio = tables.srcXferHandlesByTpRatio)
    (sameRemote : next.dstXferSideHandles = tables.dstXferSideHandles) :
    worker.Sound record given next where
  ownBlocks := more.dstNumBlocks sound.ownBlocks
  byBlockSize known := (sound.byBlockSize (sameBlockSize ▸ known)).extend grows
  byTpRatio known isHandle := by
    obtain ⟨isChunk, own⟩ := sound.byTpRatio (sameTpRatio ▸ known) isHandle
    exact ⟨isChunk, own.extend grows⟩
  remote known := by
    obtain ⟨agent, ratios, data, same, side⟩ := sound.remote (sameRemote ▸ known)
    exact ⟨agent, ratios, data, same, side.extend more grows⟩

/-! ## The steps of a handshake -/

open Attempt (Keeps Triple)

theorem Knows.of_same {tables next : Handshakes ω} (tpSize : next.tpSize = tables.tpSize)
    (blockSize : next.blockSize = tables.blockSize)
    (dstNumBlocks : next.dstNumBlocks = tables.dstNumBlocks) : Knows tables next :=
  ⟨fun known => tpSize ▸ known, fun known => blockSize ▸ known, fun known => dstNumBlocks ▸ known⟩

theorem Sound.of_world {tables : Handshakes ω} {world : ω}
    (sound : worker.Sound record given tables) (grows : record.Grows tables.world world) :
    worker.Sound record given { tables with world } :=
  sound.extend (.of_same rfl rfl rfl) grows rfl rfl rfl

/-- A prepared list has its handle; `frame` is what is known besides. -/
theorem prepXferDlist_sound (keeps : worker.nixl.Keeps record) (name : AgentName)
    (blocksData : List XferDesc) {frame : Handshakes ω → Prop}
    (stable : ∀ {tables : Handshakes ω} {world}, record.Grows tables.world world →
      frame tables → frame { tables with world }) :
    Triple (fun tables => worker.Sound record given tables ∧ frame tables)
      (worker.prepXferDlist name blocksData)
      (fun handle tables => (worker.Sound record given tables ∧ frame tables) ∧
        handle.agent = name ∧ record.prepared tables.world handle = some blocksData)
      (worker.Sound record given) := by
  rintro tables ⟨sound, framed⟩
  have grows := keeps.prep_grows tables.world name blocksData
  rw [prepXferDlist]
  cases outcome : worker.nixl.prepXferDlist tables.world name blocksData with
  | mk world result =>
      rw [outcome] at grows
      cases result with
      | ok handle => exact ⟨⟨sound.of_world grows, stable grows framed⟩, keeps.prepares outcome⟩
      | error raised => exact sound.of_world grows

/-- What the first part of `add_remote_agent` leaves: the agent is added, and the block size that
the ratio is of is recorded. -/
def Registers (worker : HandshakeWorker ω) (record : NixlRecord ω) (agent : NixlAgentMetadata)
    (name : AgentName) (blockSizeRatio : ℕ) (tables : Handshakes ω) : Prop :=
  record.added tables.world name agent.agentMetadata ∧
    (worker.blockSizeRatioFromEngineId agent.engineId tables).2 = .ok blockSizeRatio

theorem Registers.extend {agent : NixlAgentMetadata} {name : AgentName} {blockSizeRatio : ℕ}
    {tables next : Handshakes ω} (registers : worker.Registers record agent name blockSizeRatio
      tables) (more : Knows tables next) (grows : record.Grows tables.world next.world) :
    worker.Registers record agent name blockSizeRatio next :=
  ⟨grows.added registers.1, more.blockSizeRatio registers.2⟩

theorem registerAgent_sound (keeps : worker.nixl.Keeps record) (agent : NixlAgentMetadata)
    (remoteTpRank remoteTpSize : ℕ) :
    Triple (worker.Sound record given) (worker.registerAgent agent remoteTpRank remoteTpSize)
      (fun result tables => worker.Sound record given tables ∧
        worker.Registers record agent result.1 result.2 tables)
      (worker.Sound record given) := by
  have write : Triple (worker.Sound record given)
      (Attempt.write (recordSizes agent remoteTpSize) : Job ω PUnit)
      (fun _ => worker.Sound record given) (worker.Sound record given) := by
    refine .write fun tables sound => sound.extend ⟨?_, ?_, id⟩ (.refl record _) rfl rfl rfl
    · exact AList.lookup_setDefault_of_some
    · exact AList.lookup_setDefault_of_some
  have add : Triple (worker.Sound record given) (worker.nixlAddRemoteAgent agent.agentMetadata)
      (fun name tables => worker.Sound record given tables ∧
        record.added tables.world name agent.agentMetadata)
      (worker.Sound record given) := by
    intro tables sound
    have next := sound.of_world (keeps.add_grows tables.world agent.agentMetadata)
    rw [nixlAddRemoteAgent]
    cases outcome : worker.nixl.addRemoteAgent tables.world agent.agentMetadata with
    | mk world result =>
        rw [outcome] at next
        cases result with
        | ok name => exact ⟨next, keeps.adds outcome⟩
        | error raised => exact next
  have ask (name : AgentName) : Triple
      (fun tables => worker.Sound record given tables ∧
        record.added tables.world name agent.agentMetadata)
      (worker.blockSizeRatioFromEngineId agent.engineId)
      (fun ratio tables => worker.Sound record given tables ∧
        worker.Registers record agent name ratio tables)
      (worker.Sound record given) :=
    .readOk (fun tables ratio ready isRatio => ⟨ready.1, ready.2, isRatio⟩)
      fun tables ready => ready.1
  refine .bind write fun _ => .bind add fun name => .bind (ask name) fun ratio => ?_
  refine .bind (.write fun tables known => ?_) fun _ => .pure fun tables known => known
  have more : Knows tables (recordCaches agent remoteTpRank tables) :=
    ⟨id, id, AList.lookup_setDefault_of_some⟩
  exact ⟨known.1.extend more (.refl record _) rfl rfl rfl, known.2.extend more (.refl record _)⟩

theorem checkLayout_state (worker : HandshakeWorker ω) (agent : NixlAgentMetadata)
    (tables : Handshakes ω) :
    ∃ permutes, (worker.checkLayout agent tables).1 =
      { tables with enablePermuteLocalKv := permutes } := by
  rw [checkLayout]
  split
  · split
    · exact ⟨true, rfl⟩
    · exact ⟨tables.enablePermuteLocalKv, rfl⟩
  · exact ⟨tables.enablePermuteLocalKv, rfl⟩

theorem checkSizes_state (worker : HandshakeWorker ω) (agent : NixlAgentMetadata)
    (remoteTpSize : ℕ) (tables : Handshakes ω) :
    (worker.checkSizes agent remoteTpSize tables).1 = tables := by
  have looks : Keeps (· = tables) (worker.checkSizes agent remoteTpSize) :=
    .bind (.of_same fun _ => rfl) fun _ => .bind (.of_same fun _ => rfl) fun _ =>
      .bind (.of_same fun _ => rfl) fun _ => .bind (.of_same fun _ => rfl) fun _ =>
      .bind (.of_same fun _ => rfl) fun _ => .of_same fun _ => rfl
  exact looks tables rfl

/-- The sizes pass when the ratios that the tables give are supported. -/
theorem checkSizes_eq_ok {agent : NixlAgentMetadata} {remoteTpSize : ℕ}
    {tables next : Handshakes ω} {ratios : Ratios}
    (passed : worker.checkSizes agent remoteTpSize tables = (next, .ok ratios)) :
    tables.tpSize.lookup agent.engineId = some remoteTpSize ∧
      (worker.tpRatioFromEngineId agent.engineId tables).2 = .ok ratios.tpRatio ∧
      (worker.blockSizeRatioFromEngineId agent.engineId tables).2 = .ok ratios.blockSizeRatio ∧
      (worker.isKvReplicated agent.engineId tables).2 = .ok ratios.replicated ∧
      ¬ (ratios.tpRatio < 0 ∧ ratios.replicated) := by
  obtain ⟨_, _, held, passed⟩ := Attempt.bind_eq_ok.mp passed
  obtain ⟨rfl, sameSize⟩ := Attempt.require_eq_ok.mp held
  obtain ⟨_, tpRatio, asked, passed⟩ := Attempt.bind_eq_ok.mp passed
  obtain ⟨rfl, isTpRatio⟩ := Attempt.readOk_eq_ok.mp asked
  obtain ⟨_, blockSizeRatio, asked, passed⟩ := Attempt.bind_eq_ok.mp passed
  obtain ⟨rfl, isBlockSizeRatio⟩ := Attempt.readOk_eq_ok.mp asked
  obtain ⟨_, replicated, asked, passed⟩ := Attempt.bind_eq_ok.mp passed
  obtain ⟨rfl, isReplicated⟩ := Attempt.readOk_eq_ok.mp asked
  obtain ⟨_, _, held, passed⟩ := Attempt.bind_eq_ok.mp passed
  obtain ⟨rfl, notBoth⟩ := Attempt.require_eq_ok.mp held
  obtain ⟨_, rfl⟩ := Attempt.pure_eq_ok.mp passed
  exact ⟨sameSize, isTpRatio, isBlockSizeRatio, isReplicated, notBoth⟩

theorem validateRemoteAgentHandshake_keeps (worker : HandshakeWorker ω)
    {invariant : Handshakes ω → Prop}
    (agnostic : ∀ tables permutes, invariant tables →
      invariant { tables with enablePermuteLocalKv := permutes })
    (agent : NixlAgentMetadata) (remoteTpSize : ℕ) :
    Keeps invariant (worker.validateRemoteAgentHandshake agent remoteTpSize) := by
  have layout : Keeps invariant (worker.checkLayout agent) := by
    intro tables holds
    obtain ⟨permutes, same⟩ := worker.checkLayout_state agent tables
    rw [same]
    exact agnostic tables permutes holds
  exact .bind (.of_same (worker.checkSizes_state agent remoteTpSize)) fun _ =>
    .bind layout fun _ => .bind (.of_same fun _ => rfl) fun _ =>
    .bind (.of_same fun _ => rfl) fun _ => .of_same fun _ => rfl

/-- Metadata that passes validation is accepted. -/
theorem validateRemoteAgentHandshake_eq_ok (registered : worker.Registered)
    {agent : NixlAgentMetadata} {remoteTpSize : ℕ} {tables next : Handshakes ω}
    (passed : worker.validateRemoteAgentHandshake agent remoteTpSize tables = (next, .ok ⟨⟩)) :
    (∃ permutes, next = { tables with enablePermuteLocalKv := permutes }) ∧
      tables.tpSize.lookup agent.engineId = some remoteTpSize ∧
      ∃ ratios, worker.Accepted tables agent ratios := by
  obtain ⟨sized, ratios, sizes, rest⟩ := Attempt.bind_eq_ok.mp passed
  obtain rfl : sized = tables :=
    (congrArg Prod.fst sizes).symm.trans (worker.checkSizes_state agent remoteTpSize tables)
  obtain ⟨sameSize, isTpRatio, isBlockSizeRatio, isReplicated, notBoth⟩ := checkSizes_eq_ok sizes
  obtain ⟨permuted, _, layout, rest⟩ := Attempt.bind_eq_ok.mp rest
  obtain ⟨_, _, held, rest⟩ := Attempt.bind_eq_ok.mp rest
  obtain ⟨rfl, blockLens⟩ := Attempt.lift_eq_ok.mp held
  obtain ⟨_, _, held, rest⟩ := Attempt.bind_eq_ok.mp rest
  obtain ⟨rfl, numBlocks⟩ := Attempt.require_eq_ok.mp held
  obtain ⟨rfl, regions⟩ := Attempt.require_eq_ok.mp rest
  obtain ⟨permutes, kept⟩ := worker.checkLayout_state agent sized
  rw [layout] at kept
  obtain rfl : permuted = { sized with enablePermuteLocalKv := permutes } := kept
  refine ⟨⟨permutes, rfl⟩, sameSize, ratios, isTpRatio, isBlockSizeRatio, isReplicated, numBlocks,
    ?_⟩
  obtain ⟨_, _, isRatio⟩ := tpRatioFromEngineId_eq_ok.mp isTpRatio
  obtain ⟨remoteBlockSize, _, isQuotient⟩ := blockSizeRatioFromEngineId_eq_ok.mp isBlockSizeRatio
  refine ⟨?_, worker.rules.tpRatio_ne_zero isRatio, notBoth, blockLens, regions⟩
  apply Nat.pos_of_ne_zero
  intro zero
  have product := worker.rules.blockSizeRatio_mul isQuotient
  have := registered.blockSize_pos
  rw [zero, Nat.zero_mul] at product
  omega

theorem validateRemoteAgentHandshake_sound (registered : worker.Registered)
    (agent : NixlAgentMetadata) (remoteTpSize : ℕ) {frame : Handshakes ω → Prop}
    (stable : ∀ {tables next}, Knows tables next → record.Grows tables.world next.world →
      frame tables → frame next) :
    Triple (fun tables => worker.Sound record given tables ∧ frame tables)
      (worker.validateRemoteAgentHandshake agent remoteTpSize)
      (fun _ tables => worker.Sound record given tables ∧ frame tables ∧
        tables.tpSize.lookup agent.engineId = some remoteTpSize ∧
        ∃ ratios, worker.Accepted tables agent ratios)
      (worker.Sound record given) := by
  have agnostic : ∀ tables permutes, worker.Sound record given tables →
      worker.Sound record given { tables with enablePermuteLocalKv := permutes } :=
    fun tables permutes sound =>
      sound.extend (.of_same rfl rfl rfl) (.refl record _) rfl rfl rfl
  rintro tables ⟨sound, framed⟩
  have kept := worker.validateRemoteAgentHandshake_keeps agnostic agent remoteTpSize tables sound
  cases outcome : worker.validateRemoteAgentHandshake agent remoteTpSize tables with
  | mk next result =>
      rw [outcome] at kept
      cases result with
      | error raised => exact kept
      | ok _ =>
          obtain ⟨⟨permutes, rfl⟩, sameSize, ratios, accepted⟩ :=
            validateRemoteAgentHandshake_eq_ok registered outcome
          refine ⟨kept, stable ?_ (.refl record tables.world) framed, sameSize, ratios,
            accepted.extend (.of_same rfl rfl rfl)⟩
          exact .of_same rfl rfl rfl

theorem Sound.chunk {tables : Handshakes ω} (sound : worker.Sound record given tables) {tpRatio : ℤ}
    {index : ℕ} {handle : SideHandle}
    (isHandle : ((tables.srcXferHandlesByTpRatio.lookup tpRatio).getD [])[index]? = some handle) :
    index < (-tpRatio).toNat ∧ OwnSide record tables handle
      (CacheTables.splitBlocksData (-tpRatio).toNat index worker.srcBlocksData) := by
  cases known : tables.srcXferHandlesByTpRatio.lookup tpRatio with
  | none =>
      rw [known] at isHandle
      cases isHandle
  | some handles =>
      rw [known] at isHandle
      exact sound.byTpRatio known isHandle

/-- A handle that is added to the chunks of a ratio stands for its chunk. -/
theorem Sound.setTpRatio {tables : Handshakes ω} (sound : worker.Sound record given tables)
    {tpRatio : ℤ} {handles : List SideHandle}
    (stand : ∀ {index handle}, handles[index]? = some handle → index < (-tpRatio).toNat ∧
      OwnSide record tables handle
        (CacheTables.splitBlocksData (-tpRatio).toNat index worker.srcBlocksData)) :
    worker.Sound record given
      { tables with
        srcXferHandlesByTpRatio := tables.srcXferHandlesByTpRatio.set tpRatio handles } where
  ownBlocks := sound.ownBlocks
  byBlockSize := sound.byBlockSize
  byTpRatio := by
    intro other others index handle known isHandle
    by_cases same : other = tpRatio
    · subst same
      rw [AList.lookup_set] at known
      obtain rfl := Option.some.inj known
      exact stand isHandle
    · rw [AList.lookup_set_ne same] at known
      exact sound.byTpRatio known isHandle
  remote known := by
    obtain ⟨agent, ratios, data, same, side⟩ := sound.remote known
    exact ⟨agent, ratios, data, same, side.extend (.of_same rfl rfl rfl) (.refl record _)⟩

theorem Sound.setBlockSize {tables : Handshakes ω} (sound : worker.Sound record given tables)
    {size : ℕ} {handle : SideHandle}
    (stands : OwnSide record tables handle (worker.caches.localBlocksData
      worker.rules.isKvLayoutBlocksFirst (worker.caches.blockSize / size))) :
    worker.Sound record given
      { tables with
        srcXferHandlesByBlockSize := tables.srcXferHandlesByBlockSize.set size handle } where
  ownBlocks := sound.ownBlocks
  byBlockSize := by
    intro other found known
    by_cases same : other = size
    · subst same
      rw [AList.lookup_set] at known
      obtain rfl := Option.some.inj known
      exact stands
    · rw [AList.lookup_set_ne same] at known
      exact sound.byBlockSize known
  byTpRatio := sound.byTpRatio
  remote known := by
    obtain ⟨agent, ratios, data, same, side⟩ := sound.remote known
    exact ⟨agent, ratios, data, same, side.extend (.of_same rfl rfl rfl) (.refl record _)⟩

/-- The chunks of the own memory are prepared in order; `frame` is what is known besides. -/
theorem splitLocalMemory_sound (keeps : worker.nixl.Keeps record) (tpRatio : ℤ)
    {frame : Handshakes ω → Prop}
    (stable : ∀ {tables next}, Knows tables next → record.Grows tables.world next.world →
      frame tables → frame next) :
    Triple (fun tables => worker.Sound record given tables ∧ frame tables)
      (worker.splitLocalMemory tpRatio)
      (fun _ tables => worker.Sound record given tables ∧ frame tables)
      (worker.Sound record given) := by
  -- The handles of the chunks that are done are in the tables.
  let chunked (done : List ℕ) (tables : Handshakes ω) : Prop :=
    worker.Sound record given tables ∧ frame tables ∧
      ((tables.srcXferHandlesByTpRatio.lookup tpRatio).getD []).length = done.length
  have each : ∀ done index rest, List.range (-tpRatio).toNat = done ++ index :: rest →
      Triple (chunked done)
        (do
          let handle ← worker.prepXferDlist nixlInitAgent
            (CacheTables.splitBlocksData (-tpRatio).toNat index worker.srcBlocksData)
          Attempt.write fun tables =>
            { tables with
              srcXferHandlesByTpRatio := tables.srcXferHandlesByTpRatio.set tpRatio
                ((tables.srcXferHandlesByTpRatio.lookup tpRatio).getD [] ++ [handle]) })
        (fun _ => chunked (done ++ [index])) (worker.Sound record given) := by
    intro done index rest split
    have isIndex : done.length = index ∧ index < (-tpRatio).toNat := by
      have found : (List.range (-tpRatio).toNat)[done.length]? = some index := by
        rw [split, List.getElem?_append_right (Nat.le_refl _), Nat.sub_self]
        rfl
      obtain ⟨inside, same⟩ := List.getElem?_eq_some_iff.mp found
      rw [List.length_range] at inside
      rw [List.getElem_range] at same
      exact ⟨same, same ▸ inside⟩
    have prep : Triple (chunked done)
        (worker.prepXferDlist nixlInitAgent
          (CacheTables.splitBlocksData (-tpRatio).toNat index worker.srcBlocksData))
        (fun handle tables => chunked done tables ∧ OwnSide record tables handle
          (CacheTables.splitBlocksData (-tpRatio).toNat index worker.srcBlocksData))
        (worker.Sound record given) := by
      apply prepXferDlist_sound keeps
      rintro tables world grows ⟨framed, count⟩
      have knows : Knows tables { tables with world } := .of_same rfl rfl rfl
      exact ⟨stable knows grows framed, count⟩
    refine .bind prep fun handle => .write ?_
    rintro tables ⟨⟨sound, framed, count⟩, stands⟩
    refine ⟨sound.setTpRatio fun {position other} isOther => ?_, ?_, ?_⟩
    · rcases Nat.lt_or_ge position done.length with earlier | last
      · rw [List.getElem?_append_left (count ▸ earlier)] at isOther
        exact sound.chunk isOther
      · rw [List.getElem?_append_right (count ▸ last), count, List.getElem?_singleton] at isOther
        split at isOther
        · obtain rfl := Option.some.inj isOther
          obtain rfl : position = index := by omega
          exact ⟨isIndex.2, stands⟩
        · cases isOther
    · refine stable ?_ (.refl record tables.world) framed
      exact .of_same rfl rfl rfl
    · rw [AList.lookup_set, Option.getD_some, List.length_append, count, List.length_append]
      rfl
  have read : Triple (fun tables => worker.Sound record given tables ∧ frame tables)
      (Attempt.read fun tables => decide (tpRatio ∈ tables.srcXferHandlesByTpRatio) : Job ω Bool)
      (fun _ tables => worker.Sound record given tables ∧ frame tables)
      (worker.Sound record given) :=
    .read fun tables ready => ready
  refine .bind read fun known => ?_
  split
  · refine .bind (.write fun tables ready => ?_) fun _ =>
      (Triple.forEach each).consequence (fun tables start => start)
        fun _ tables final => ⟨final.1, final.2.1⟩
    refine ⟨ready.1.setTpRatio fun {position other} isOther => ?_, ?_, ?_⟩
    · cases isOther
    · refine stable ?_ (.refl record tables.world) ready.2
      exact .of_same rfl rfl rfl
    · rw [AList.lookup_set]
      rfl
  · exact .pure fun tables ready => ready

/-- Metadata that a rank has given is accepted, and its agent is added. -/
structure Awaits (worker : HandshakeWorker ω) (record : NixlRecord ω)
    (agent : NixlAgentMetadata) (remoteTpSize : ℕ) (name : AgentName) (ratios : Ratios)
    (tables : Handshakes ω) : Prop where
  /-- The agent was added. -/
  added : record.added tables.world name agent.agentMetadata
  /-- The group size is that of the handshake. -/
  sameSize : tables.tpSize.lookup agent.engineId = some remoteTpSize
  /-- The rank was accepted. -/
  accepted : worker.Accepted tables agent ratios

theorem Awaits.extend {agent : NixlAgentMetadata} {remoteTpSize : ℕ} {name : AgentName}
    {ratios : Ratios} {tables next : Handshakes ω}
    (awaits : worker.Awaits record agent remoteTpSize name ratios tables)
    (more : Knows tables next) (grows : record.Grows tables.world next.world) :
    worker.Awaits record agent remoteTpSize name ratios next where
  added := grows.added awaits.added
  sameSize := more.tpSize awaits.sameSize
  accepted := awaits.accepted.extend more

/-- The second part of `add_remote_agent` prepares the list of accepted metadata. -/
theorem prepareRemote_sound (keeps : worker.nixl.Keeps record) (registered : worker.Registered)
    {agent : NixlAgentMetadata} {remoteTpRank remoteTpSize : ℕ}
    (isGiven : given remoteTpRank remoteTpSize agent) (name : AgentName) (blockSizeRatio : ℕ) :
    Triple
      (fun tables => worker.Sound record given tables ∧
        worker.Registers record agent name blockSizeRatio tables)
      (worker.prepareRemote agent remoteTpSize name blockSizeRatio)
      (fun handle tables => worker.Sound record given tables ∧ ∃ ratios remoteData,
        worker.RemoteSide record given tables remoteTpRank handle agent ratios remoteData)
      (worker.Sound record given) := by
  have askTpRatio : Triple
      (fun tables => worker.Sound record given tables ∧
        worker.Registers record agent name blockSizeRatio tables ∧
        tables.tpSize.lookup agent.engineId = some remoteTpSize ∧
        ∃ ratios, worker.Accepted tables agent ratios)
      (worker.tpRatioFromEngineId agent.engineId)
      (fun tpRatio tables => worker.Sound record given tables ∧ ∃ replicated,
        worker.Awaits record agent remoteTpSize name ⟨tpRatio, blockSizeRatio, replicated⟩ tables)
      (worker.Sound record given) := by
    refine .readOk ?_ fun tables ready => ready.1
    rintro tables tpRatio ⟨sound, ⟨added, isRatio⟩, sameSize, ratios, accepted⟩ isTpRatio
    have sameTp : ratios.tpRatio = tpRatio := Except.ok.inj (accepted.tpRatio.symm.trans isTpRatio)
    have sameSizes : ratios.blockSizeRatio = blockSizeRatio :=
      Except.ok.inj (accepted.blockSizeRatio.symm.trans isRatio)
    subst sameTp sameSizes
    exact ⟨sound, ratios.replicated, added, sameSize, accepted⟩
  have askReplicated (tpRatio : ℤ) : Triple
      (fun tables => worker.Sound record given tables ∧ ∃ replicated,
        worker.Awaits record agent remoteTpSize name ⟨tpRatio, blockSizeRatio, replicated⟩ tables)
      (worker.isKvReplicated agent.engineId)
      (fun replicated tables => worker.Sound record given tables ∧
        worker.Awaits record agent remoteTpSize name ⟨tpRatio, blockSizeRatio, replicated⟩ tables)
      (worker.Sound record given) := by
    refine .readOk ?_ fun tables ready => ready.1
    rintro tables replicated ⟨sound, other, awaits⟩ isReplicated
    obtain rfl : other = replicated :=
      Except.ok.inj (awaits.accepted.replicated.symm.trans isReplicated)
    exact ⟨sound, awaits⟩
  refine .bind (validateRemoteAgentHandshake_sound registered agent remoteTpSize
      fun more grows registers => registers.extend more grows) fun _ =>
    .bind askTpRatio fun tpRatio => .bind (askReplicated tpRatio) fun replicated =>
    .bind (splitLocalMemory_sound keeps tpRatio
      fun more grows awaits => awaits.extend more grows) fun _ => ?_
  let ratios : Ratios := ⟨tpRatio, blockSizeRatio, replicated⟩
  have build : Triple
      (fun tables => worker.Sound record given tables ∧
        worker.Awaits record agent remoteTpSize name ratios tables)
      (Attempt.lift (worker.remoteBlocksData agent tpRatio blockSizeRatio
        (worker.indexesIntoRemote ratios)) : Job ω _)
      (fun blocksData tables => worker.Sound record given tables ∧
        worker.Awaits record agent remoteTpSize name ratios tables ∧
        worker.remoteBlocksData agent tpRatio blockSizeRatio
          (worker.indexesIntoRemote ratios) = .ok blocksData)
      (worker.Sound record given) :=
    .lift (fun tables blocksData ready built => ⟨ready.1, ready.2, built⟩)
      fun tables ready => ready.1
  refine .bind build fun blocksData => ?_
  refine (prepXferDlist_sound keeps name blocksData ?_).consequence (fun tables ready => ready) ?_
  · rintro tables world grows ⟨awaits, built⟩
    exact ⟨awaits.extend (.of_same rfl rfl rfl) grows, built⟩
  · rintro handle tables ⟨⟨sound, awaits, built⟩, isAgent, stands⟩
    exact ⟨sound, ratios, blocksData,
      { answered := ⟨remoteTpSize, isGiven, awaits.sameSize⟩
        accepted := awaits.accepted
        built
        added := isAgent ▸ awaits.added
        stands }⟩

theorem registerLocalXferHandler_sound (keeps : worker.nixl.Keeps record) (blockSize : ℕ) :
    Triple (worker.Sound record given) (worker.registerLocalXferHandler blockSize)
      (fun handle tables => worker.Sound record given tables ∧
        OwnSide record tables handle (worker.caches.localBlocksData
          worker.rules.isKvLayoutBlocksFirst (worker.caches.blockSize / blockSize)))
      (worker.Sound record given) := by
  have divide : Triple (worker.Sound record given)
      (Attempt.lift (CacheTables.floorDiv worker.caches.blockSize blockSize) : Job ω ℕ)
      (fun ratio tables => worker.Sound record given tables ∧
        worker.caches.blockSize / blockSize = ratio)
      (worker.Sound record given) :=
    .lift (fun tables ratio sound divides => ⟨sound, (CacheTables.floorDiv_eq_ok.mp divides).2⟩)
      fun tables sound => sound
  refine .bind divide fun ratio =>
    .bind (.of_same (fun _ => rfl) fun tables ready => ready.1) fun _ => ?_
  refine (prepXferDlist_sound keeps nixlInitAgent _ ?_).consequence (fun tables ready => ready) ?_
  · exact fun _ same => same
  · rintro handle tables ⟨⟨sound, rfl⟩, stands⟩
    exact ⟨sound, stands⟩

/-- The last part of `add_remote_agent` keeps handles that stand for their lists. -/
theorem keepHandles_sound (keeps : worker.nixl.Keeps record) (agent : NixlAgentMetadata)
    (remoteTpRank blockSizeRatio : ℕ) (handle : SideHandle) :
    Triple
      (fun tables => worker.Sound record given tables ∧ ∃ ratios remoteData,
        worker.RemoteSide record given tables remoteTpRank handle agent ratios remoteData)
      (worker.keepHandles agent remoteTpRank blockSizeRatio handle)
      (fun _ => worker.Sound record given) (worker.Sound record given) := by
  have keepRemote : Triple
      (fun tables => worker.Sound record given tables ∧ ∃ ratios remoteData,
        worker.RemoteSide record given tables remoteTpRank handle agent ratios remoteData)
      (Attempt.write fun tables =>
        { tables with
          dstXferSideHandles :=
            Dict.setAt tables.dstXferSideHandles agent.engineId remoteTpRank handle } : Job ω PUnit)
      (fun _ => worker.Sound record given) (worker.Sound record given) := by
    refine .write ?_
    rintro tables ⟨sound, ratios, remoteData, side⟩
    refine ⟨sound.ownBlocks, sound.byBlockSize, sound.byTpRatio, fun known => ?_⟩
    rcases Dict.lookupAt_setAt known with ⟨rfl, rfl, rfl⟩ | earlier
    · exact ⟨agent, ratios, remoteData, rfl, side.extend (.of_same rfl rfl rfl) (.refl record _)⟩
    · obtain ⟨other, others, data, same, side⟩ := sound.remote earlier
      exact ⟨other, others, data, same, side.extend (.of_same rfl rfl rfl) (.refl record _)⟩
  refine .bind keepRemote fun _ => ?_
  split
  · refine .bind (registerLocalXferHandler_sound keeps agent.blockSize) fun own => .write ?_
    exact fun tables ready => ready.1.setBlockSize ready.2
  · exact .pure fun tables sound => sound

/-! ## Whole handshakes -/

theorem addRemoteAgent_sound (keeps : worker.nixl.Keeps record) (registered : worker.Registered)
    {agent : NixlAgentMetadata} {remoteTpRank remoteTpSize : ℕ}
    (isGiven : given remoteTpRank remoteTpSize agent) :
    Triple (worker.Sound record given) (worker.addRemoteAgent agent remoteTpRank remoteTpSize)
      (fun _ => worker.Sound record given) (worker.Sound record given) := by
  refine .bind (.of_same (fun _ => rfl) fun tables sound => sound) fun known => ?_
  cases known with
  | some name => exact .pure fun tables sound => sound
  | none =>
      refine .bind (registerAgent_sound keeps agent remoteTpRank remoteTpSize) fun ⟨name, ratio⟩ =>
        .bind (prepareRemote_sound keeps registered isGiven name ratio) fun handle =>
        .bind (keepHandles_sound keeps agent remoteTpRank ratio handle) fun _ =>
        .pure fun tables sound => sound

theorem checkPayload_eq_ok {engineId : EngineId} {payload : HandshakePayload}
    {agent : NixlAgentMetadata} (passed : worker.checkPayload engineId payload = .ok agent) :
    payload.agentMetadata = .ok agent ∧ agent.engineId = engineId := by
  rw [checkPayload] at passed
  split at passed
  · cases passed
  · split at passed
    · cases passed
    · rename_i isAgent
      split at passed
      · rename_i expected
        cases passed
        exact ⟨isAgent, expected⟩
      · cases passed

theorem handshakeRanks_sound (keeps : worker.nixl.Keeps record) (registered : worker.Registered)
    {event : HandshakeEvent}
    (areGiven : ∀ {rank agent}, event.Gives rank agent → given rank event.remoteTpSize agent)
    (ranks : List ℕ) (agents : Dict ℕ AgentName) :
    Triple (worker.Sound record given)
      (worker.handshakeRanks event.answers event.remoteTpSize event.engineId ranks agents)
      (fun _ => worker.Sound record given) (worker.Sound record given) := by
  induction ranks generalizing agents with
  | nil => exact .pure fun tables sound => sound
  | cons rank ranks ih =>
      have ask : Triple (worker.Sound record given) (Attempt.lift (event.answers rank) : Job ω _)
          (fun payload tables => worker.Sound record given tables ∧
            event.answers rank = .ok payload)
          (worker.Sound record given) :=
        .lift (fun tables payload sound answered => ⟨sound, answered⟩) fun tables sound => sound
      refine .bind ask fun payload => ?_
      have check : Triple
          (fun tables => worker.Sound record given tables ∧ event.answers rank = .ok payload)
          (Attempt.lift (worker.checkPayload event.engineId payload) : Job ω _)
          (fun agent tables => worker.Sound record given tables ∧
            given rank event.remoteTpSize agent)
          (worker.Sound record given) :=
        .lift (fun tables agent ready passed => ⟨ready.1,
          areGiven ⟨payload, ready.2, (checkPayload_eq_ok passed).1⟩⟩) fun tables ready => ready.1
      refine .bind check fun agent => ?_
      rintro tables ⟨sound, isGiven⟩
      have rest := Triple.bind (addRemoteAgent_sound keeps registered isGiven) fun name =>
        ih (agents.set rank name)
      exact rest tables sound

theorem Sound.handshake (keeps : worker.nixl.Keeps record) (registered : worker.Registered)
    {tables : Handshakes ω} (sound : worker.Sound record given tables) {event : HandshakeEvent}
    (areGiven : ∀ {rank agent}, event.Gives rank agent → given rank event.remoteTpSize agent) :
    worker.Sound record given (worker.handshake tables event) := by
  have whole : Triple (worker.Sound record given)
      (worker.nixlHandshake event.answers event.remoteTpSize event.engineId)
      (fun _ => worker.Sound record given) (worker.Sound record given) := by
    refine .bind (.of_same (fun _ => rfl) fun tables sound => sound) fun ranks => ?_
    exact handshakeRanks_sound keeps registered areGiven ranks _
  have ended := whole.ended sound
  rw [HandshakeWorker.handshake]
  cases outcome : worker.nixlHandshake event.answers event.remoteTpSize event.engineId tables with
  | mk next result =>
      rw [outcome] at ended
      cases result with
      | error raised => exact ended
      | ok agents => exact ended.extend (.of_same rfl rfl rfl) (.refl record _) rfl rfl rfl

/-- After any handshakes the handles stand for lists of what the ranks have answered. -/
theorem Sound.handshakes (keeps : worker.nixl.Keeps record) (registered : worker.Registered)
    {tables : Handshakes ω} (events : List HandshakeEvent)
    (sound : worker.Sound record (HandshakeEvent.Given events) tables) :
    worker.Sound record (HandshakeEvent.Given events) (events.foldl worker.handshake tables) := by
  suffices ∀ some_events ⊆ events, ∀ tables,
      worker.Sound record (HandshakeEvent.Given events) tables →
      worker.Sound record (HandshakeEvent.Given events)
        (some_events.foldl worker.handshake tables) from
    this events (List.Subset.refl events) tables sound
  intro some_events
  induction some_events with
  | nil => exact fun _ _ sound => sound
  | cons event rest ih =>
      intro among tables sound
      obtain ⟨isEvent, restAmong⟩ := List.cons_subset.mp among
      exact ih restAmong _ (sound.handshake keeps registered
        fun gives => ⟨event, isEvent, rfl, gives⟩)

theorem registerOwn_sound (keeps : worker.nixl.Keeps record) {blockSize : ℕ} {world : ω}
    {tables : Handshakes ω}
    (started : worker.registerOwn (.init worker.engineId worker.worldSize blockSize world) =
      (tables, .ok ⟨⟩)) : worker.Sound record given tables := by
  have whole : Triple
      (fun tables => tables = .init worker.engineId worker.worldSize blockSize world)
      worker.registerOwn (fun _ => worker.Sound record given) (worker.Sound record given) := by
    refine .bind (.write ?_) fun _ => .bind
      (registerLocalXferHandler_sound keeps worker.caches.blockSize) fun handle => .write ?_
    · rintro _ rfl
      refine ⟨AList.lookup_set, fun known => ?_, fun known => ?_, fun known => ?_⟩
      · cases known
      · cases known
      · cases known
    · exact fun tables ready => ready.1.setBlockSize ready.2
  exact whole.returned rfl started

end HandshakeWorker

end RduHdi
