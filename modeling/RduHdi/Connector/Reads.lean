import RduHdi.Connector.Sending

/-!
# Reading blocks from the producer

`_read_blocks_for_req` and `_read_blocks` of a decode worker whose handshake with the producer is
done: which blocks are paired, which descriptors a transfer is set up with, and the completion
notif, sent alone on a full prefix hit and with the transfer otherwise.  Failures of the transfer
library are swallowed and recorded.
-/

namespace RduHdi

abbrev XferHandle := ℕ

/-- One side of a transfer, as prepared by `prep_xfer_dlist` for an agent. -/
structure SideHandle where
  /-- The agent the list is for. -/
  agent : AgentName
  /-- Which list it is. -/
  id : ℕ
  deriving DecidableEq

/-- The operations of the NIXL library used here; `ω` is whatever it keeps. -/
structure NixlReader (ω : Type*) where
  /-- `send_notif`. -/
  sendNotif : ω → AgentName → ByteArray → ω × Except PyError Unit
  /-- `make_prepped_xfer`: local side and descriptors, remote side and descriptors, notif. -/
  makePreppedXfer : ω → SideHandle → List ℕ → SideHandle → List ℕ → ByteArray →
    ω × Except PyError XferHandle
  /-- `transfer`. -/
  transfer : ω → XferHandle → ω × Except PyError Unit
  /-- `release_xfer_handle`, which is taken not to raise. -/
  releaseXferHandle : ω → XferHandle → ω

/-- vLLM's `TpKVTopology`, as far as it is asked here. -/
structure TpKVTopology where
  /-- `get_target_remote_ranks_from_engine_id`. -/
  getTargetRemoteRanksFromEngineId : EngineId → List ℕ
  /-- `tp_ratio_from_engine_id`. -/
  tpRatioFromEngineId : EngineId → ℤ
  /-- `block_size_ratio_from_engine_id`. -/
  blockSizeRatioFromEngineId : EngineId → ℕ
  /-- `remote_block_size`. -/
  remoteBlockSize : Dict EngineId ℕ

/-- What a decode worker has from its configuration and its handshakes. -/
structure ReadingWorker (ω : Type*) where
  /-- The library. -/
  nixl : NixlReader ω
  /-- `kv_topo`. -/
  kvTopo : TpKVTopology
  /-- `engine_id`. -/
  engineId : EngineId
  /-- `world_size`. -/
  worldSize : ℕ
  /-- `use_mla`. -/
  useMla : Bool
  /-- `block_size`. -/
  blockSize : ℕ
  /-- `block_window_per_layer`. -/
  blockWindowPerLayer : List (Option ℕ)
  /-- `num_regions`. -/
  numRegions : ℕ
  /-- `num_layers`. -/
  numLayers : ℕ
  /-- `dst_num_blocks`. -/
  dstNumBlocks : Dict EngineId ℕ
  /-- `src_xfer_handles_by_tp_ratio`. -/
  srcXferHandlesByTpRatio : Dict ℤ (List SideHandle)
  /-- `src_xfer_handles_by_block_size`. -/
  srcXferHandlesByBlockSize : Dict ℕ SideHandle
  /-- `dst_xfer_side_handles`, by engine and rank. -/
  dstXferSideHandles : Dict EngineId (Dict ℕ SideHandle)
  /-- `_remote_agents`, by engine and rank. -/
  remoteAgents : Dict EngineId (Dict ℕ AgentName)

/-- What a read asks of the outside. -/
inductive ReadCall where
  /-- A notif was sent on its own. -/
  | sendNotif (agent : AgentName) (notif : ByteArray)
  /-- A transfer was begun; its notif reaches the remote agent when it is done. -/
  | read (localSide : SideHandle) (localDescs : List ℕ) (remoteSide : SideHandle)
      (remoteDescs : List ℕ) (notif : ByteArray)

/-- The part of `NixlConnectorWorker` that reads change, and what NIXL answered so far, which
nothing reads. -/
structure Reading (ω : Type*) where
  /-- `_recving_metadata`. -/
  recvingMetadata : Dict ReqId ReqMeta
  /-- `_recving_transfers`. -/
  recvingTransfers : Dict ReqId (List XferHandle)
  /-- `_invalid_block_ids`. -/
  invalidBlockIds : KeySet ℕ
  /-- `_failed_recv_reqs`. -/
  failedRecvReqs : KeySet ReqId
  /-- The state of the library. -/
  world : ω
  /-- What was asked of the outside and went well, oldest first. -/
  calls : List ReadCall
  /-- The requests of which NIXL refused to set up or to begin a transfer. -/
  refused : KeySet ReqId
  /-- The transfers that NIXL began and has not called ended, with their requests. -/
  underway : List (ReqId × XferHandle)

def Reading.init {ω : Type*} (world : ω) : Reading ω where
  recvingMetadata := ∅
  recvingTransfers := ∅
  invalidBlockIds := ∅
  failedRecvReqs := ∅
  world
  calls := []
  refused := ∅
  underway := []

/-- The arguments of `_read_blocks`. -/
structure ReadArgs where
  /-- `local_block_ids`. -/
  localBlockIds : List ℕ
  /-- `remote_block_ids`. -/
  remoteBlockIds : List ℕ
  /-- `dst_engine_id`. -/
  dstEngineId : EngineId
  /-- `request_id`. -/
  requestId : ReqId
  /-- `remote_request_id`. -/
  remoteRequestId : ReqId
  /-- `remote_rank`. -/
  remoteRank : ℕ
  /-- `local_xfer_side_handle`. -/
  localXferSideHandle : SideHandle
  /-- `remote_xfer_side_handle`. -/
  remoteXferSideHandle : SideHandle

/-! ## Pairing blocks -/

/-- `get_mapped_blocks`. -/
def getMappedBlocks (blockIds : List ℕ) (blockSizeRatio : ℕ) : List ℕ :=
  blockIds.flatMap fun block =>
    (List.range blockSizeRatio).map fun offset => block * blockSizeRatio + offset

/-- The local blocks in units of remote blocks, clipped to the remote ones. -/
def alignLocalBlocks (blockSizeRatio : ℕ) (localBlockIds remoteBlockIds : List ℕ) : List ℕ :=
  if blockSizeRatio > 1 then
    let mapped := getMappedBlocks localBlockIds blockSizeRatio
    if mapped.length > remoteBlockIds.length then mapped.take remoteBlockIds.length else mapped
  else
    localBlockIds

/-- `block_ids[-count:]`. -/
def lastBlocks (count : ℕ) (blockIds : List ℕ) : List ℕ :=
  if count = 0 then blockIds else blockIds.drop (blockIds.length - count)

/-- The remote blocks that are not computed locally. -/
def alignRemoteBlocks (numLocalBlocks : ℕ) (remoteBlockIds : List ℕ) : List ℕ :=
  if numLocalBlocks < remoteBlockIds.length then lastBlocks numLocalBlocks remoteBlockIds
  else remoteBlockIds

namespace ReadingWorker

variable {ω : Type*} (worker : ReadingWorker ω)

/-! ## Descriptors -/

/-- The regions of a layer, or of all layers. -/
def regionIds : Option ℕ → Except PyError (List ℕ)
  | none => .ok (List.range worker.numRegions)
  | some layerIdx =>
      if layerIdx < worker.numLayers then
        if worker.numLayers < worker.numRegions then
          if 2 * worker.numLayers = worker.numRegions then
            .ok [2 * layerIdx, 2 * layerIdx + 1]
          else
            .error .assertionError
        else if worker.numLayers = worker.numRegions then
          .ok [layerIdx]
        else
          .error .assertionError
      else
        .error .assertionError

/-- `_get_block_descs_ids`. -/
def getBlockDescsIds (engineId : EngineId) (blockIds : List ℕ) (layerIdx : Option ℕ)
    (blockSizeRatio : Option ℕ) : Except PyError (List ℕ) := do
  let regions ← worker.regionIds layerIdx
  let numBlocks ← Dict.get worker.dstNumBlocks engineId
  let numBlocks := numBlocks * blockSizeRatio.getD 1
  return regions.flatMap fun region => blockIds.map fun block => region * numBlocks + block

/-- The loop over layers with their own attention windows. -/
def windowDescs (dstEngineId : EngineId) (blockSizeRatio : ℕ)
    (localBlockIds remoteBlockIds : List ℕ) :
    ℕ → List (Option ℕ) → Except PyError (List ℕ × List ℕ)
  | _, [] => .ok ([], [])
  | layerIdx, blockWindow :: windows => do
      let window (blockIds : List ℕ) : List ℕ :=
        match blockWindow with
        | none => blockIds
        | some blockWindow => lastBlocks blockWindow blockIds
      let localDescs ← worker.getBlockDescsIds worker.engineId (window localBlockIds)
        (some layerIdx) (some blockSizeRatio)
      let remoteDescs ← worker.getBlockDescsIds dstEngineId (window remoteBlockIds)
        (some layerIdx) none
      let (localRest, remoteRest) ← windowDescs dstEngineId blockSizeRatio localBlockIds
        remoteBlockIds (layerIdx + 1) windows
      return (localDescs ++ localRest, remoteDescs ++ remoteRest)

/-- The descriptors of both sides, layer by layer where layers have their own windows. -/
def sideDescs (dstEngineId : EngineId) (blockSizeRatio : ℕ)
    (localBlockIds remoteBlockIds : List ℕ) : Except PyError (List ℕ × List ℕ) :=
  if worker.blockWindowPerLayer.isEmpty then do
    let remoteDescs ← worker.getBlockDescsIds dstEngineId remoteBlockIds none none
    let localDescs ← worker.getBlockDescsIds worker.engineId localBlockIds none
      (some blockSizeRatio)
    return (localDescs, remoteDescs)
  else
    worker.windowDescs dstEngineId blockSizeRatio localBlockIds remoteBlockIds 0
      worker.blockWindowPerLayer

/-- The descriptors of a transfer: as many on either side. -/
def xferDescs (dstEngineId : EngineId) (blockSizeRatio : ℕ)
    (localBlockIds remoteBlockIds : List ℕ) : Except PyError (List ℕ × List ℕ) := do
  let descs ← worker.sideDescs dstEngineId blockSizeRatio localBlockIds remoteBlockIds
  if descs.1.length = descs.2.length then .ok descs else .error .assertionError

/-! ## One read -/

/-- `send_notif`. -/
def sendNotif (reading : Reading ω) (agent : AgentName) (notif : ByteArray) :
    Reading ω × Except PyError Unit :=
  match worker.nixl.sendNotif reading.world agent notif with
  | (world, .ok ()) =>
      ({ reading with world, calls := reading.calls ++ [.sendNotif agent notif] }, .ok ())
  | (world, .error raised) => ({ reading with world }, .error raised)

/-- What a failed set-up of a transfer leaves. -/
def failTransfer (reading : Reading ω) (requestId : ReqId) (handle : Option XferHandle) :
    Reading ω :=
  let invalidBlockIds :=
    match reading.recvingMetadata.lookup requestId with
    | some saved => reading.invalidBlockIds.addAll saved.localBlockIds
    | none => reading.invalidBlockIds
  let world :=
    match handle with
    | some handle => worker.nixl.releaseXferHandle reading.world handle
    | none => reading.world
  { reading with
    invalidBlockIds
    world
    failedRecvReqs := reading.failedRecvReqs.add requestId }

/-- `make_prepped_xfer`, for a read. -/
def makePreppedXfer (reading : Reading ω) (args : ReadArgs) (localDescs remoteDescs : List ℕ)
    (notif : ByteArray) : Reading ω × Except PyError XferHandle :=
  match worker.nixl.makePreppedXfer reading.world args.localXferSideHandle localDescs
    args.remoteXferSideHandle remoteDescs notif with
  | (world, .ok handle) => ({ reading with world }, .ok handle)
  | (world, .error raised) =>
      ({ reading with world, refused := reading.refused.add args.requestId }, .error raised)

/-- `transfer`, of what was prepared for a read. -/
def transfer (reading : Reading ω) (args : ReadArgs) (localDescs remoteDescs : List ℕ)
    (notif : ByteArray) (handle : XferHandle) : Reading ω × Except PyError Unit :=
  match worker.nixl.transfer reading.world handle with
  | (world, .ok ()) =>
      ({ reading with
          world
          calls := reading.calls ++
            [.read args.localXferSideHandle localDescs args.remoteXferSideHandle remoteDescs notif]
          underway := reading.underway ++ [(args.requestId, handle)] }, .ok ())
  | (world, .error raised) =>
      ({ reading with world, refused := reading.refused.add args.requestId }, .error raised)

/-- Set up a transfer and begin it; exceptions are swallowed. -/
def beginXfer (reading : Reading ω) (args : ReadArgs) (localDescs remoteDescs : List ℕ)
    (notif : ByteArray) : Reading ω :=
  match worker.makePreppedXfer reading args localDescs remoteDescs notif with
  | (reading, .error _) => worker.failTransfer reading args.requestId none
  | (reading, .ok handle) =>
      match worker.transfer reading args localDescs remoteDescs notif handle with
      | (reading, .error _) => worker.failTransfer reading args.requestId (some handle)
      | (reading, .ok ()) =>
          { reading with
            recvingTransfers := reading.recvingTransfers.set args.requestId
              ((reading.recvingTransfers.lookup args.requestId).getD [] ++ [handle]) }

/-- A read by what NIXL answers. -/
theorem beginXfer_eq (reading : Reading ω) (args : ReadArgs) (localDescs remoteDescs : List ℕ)
    (notif : ByteArray) :
    worker.beginXfer reading args localDescs remoteDescs notif =
      match worker.nixl.makePreppedXfer reading.world args.localXferSideHandle localDescs
        args.remoteXferSideHandle remoteDescs notif with
      | (world, .error _) =>
          worker.failTransfer
            { reading with world, refused := reading.refused.add args.requestId }
            args.requestId none
      | (world, .ok handle) =>
          match worker.nixl.transfer world handle with
          | (world, .error _) =>
              worker.failTransfer
                { reading with world, refused := reading.refused.add args.requestId }
                args.requestId (some handle)
          | (world, .ok ()) =>
              { reading with
                world
                recvingTransfers := reading.recvingTransfers.set args.requestId
                  ((reading.recvingTransfers.lookup args.requestId).getD [] ++ [handle])
                calls := reading.calls ++
                  [.read args.localXferSideHandle localDescs args.remoteXferSideHandle remoteDescs
                    notif]
                underway := reading.underway ++ [(args.requestId, handle)] } := by
  rw [beginXfer, makePreppedXfer]
  rcases worker.nixl.makePreppedXfer reading.world args.localXferSideHandle localDescs
    args.remoteXferSideHandle remoteDescs notif with ⟨world, raised | handle⟩
  · rfl
  · simp only [transfer]
    rcases worker.nixl.transfer world handle with ⟨later, raised | ⟨⟩⟩
    · rfl
    · rfl

/-- `_read_blocks`. -/
def readBlocks (reading : Reading ω) (args : ReadArgs) : Reading ω × Except PyError Unit :=
  let blockSizeRatio := worker.kvTopo.blockSizeRatioFromEngineId args.dstEngineId
  let localBlockIds := alignLocalBlocks blockSizeRatio args.localBlockIds args.remoteBlockIds
  let notif := (notifId args.remoteRequestId worker.worldSize).toUTF8
  if localBlockIds.length = 0 then
    let agents := (worker.remoteAgents.lookup args.dstEngineId).getD ∅
    match Dict.get agents args.remoteRank with
    | .error raised => (reading, .error raised)
    | .ok agent => ((worker.sendNotif reading agent notif).1, .ok ())
  else if localBlockIds.length ≤ args.remoteBlockIds.length then
    let remoteBlockIds := alignRemoteBlocks localBlockIds.length args.remoteBlockIds
    match worker.xferDescs args.dstEngineId blockSizeRatio localBlockIds remoteBlockIds with
    | .error raised => (reading, .error raised)
    | .ok (localDescs, remoteDescs) =>
        (worker.beginXfer reading args localDescs remoteDescs notif, .ok ())
  else
    (reading, .error .assertionError)

/-! ## All reads of a request -/

/-- Tell the other remote ranks, whose copy of the cache is not read. -/
def notifyOthers (remoteRank : ℕ) (notif : ByteArray) :
    List (Σ _ : ℕ, AgentName) → Reading ω → Reading ω × Except PyError Unit
  | [], reading => (reading, .ok ())
  | ⟨rankToNotify, agent⟩ :: agents, reading =>
      if rankToNotify ≠ remoteRank then
        match worker.sendNotif reading agent notif with
        | (reading, .ok ()) => notifyOthers remoteRank notif agents reading
        | (reading, .error raised) => (reading, .error raised)
      else
        notifyOthers remoteRank notif agents reading

/-- The local side for the read at an index: a chunk of its own when there are several reads, the
whole memory otherwise. -/
def localSideHandle (remoteBlockSize : ℕ) (tpRatio : ℤ) (index : ℕ) : Except PyError SideHandle :=
  if tpRatio < 0 ∧ ¬ worker.useMla then
    if remoteBlockSize = worker.blockSize then do
      let handles ← Dict.get worker.srcXferHandlesByTpRatio tpRatio
      match handles[index]? with
      | some handle => .ok handle
      | none => .error .indexError
    else
      .error .assertionError
  else
    Dict.get worker.srcXferHandlesByBlockSize remoteBlockSize

/-- The handles of both sides for the read at an index. -/
def sideHandles (engineId : EngineId) (tpRatio : ℤ) (index remoteRank : ℕ) :
    Except PyError (SideHandle × SideHandle) := do
  let remoteBlockSize ← Dict.get worker.kvTopo.remoteBlockSize engineId
  let localSide ← worker.localSideHandle remoteBlockSize tpRatio index
  let sides ← Dict.get worker.dstXferSideHandles engineId
  let remoteSide ← Dict.get sides remoteRank
  return (localSide, remoteSide)

/-- The loop over the remote ranks, from an index on. -/
def readRanks (reqId : ReqId) (localBlockIds : List ℕ) (remote : RemoteMeta) (tpRatio : ℤ) :
    ℕ → List ℕ → Reading ω → Reading ω × Except PyError Unit
  | _, [], reading => (reading, .ok ())
  | index, remoteRank :: remoteRanks, reading =>
      if worker.useMla ∧ tpRatio < 0 ∧ index > 0 then
        (reading, .ok ())
      else
        match worker.sideHandles remote.engineId tpRatio index remoteRank with
        | .error raised => (reading, .error raised)
        | .ok (localSide, remoteSide) =>
            let args : ReadArgs :=
              { localBlockIds
                remoteBlockIds := remote.blockIds
                dstEngineId := remote.engineId
                requestId := reqId
                remoteRequestId := remote.requestId
                remoteRank
                localXferSideHandle := localSide
                remoteXferSideHandle := remoteSide }
            match worker.readBlocks reading args with
            | (reading, .error raised) => (reading, .error raised)
            | (reading, .ok ()) =>
                if worker.useMla ∧ tpRatio < 0 then
                  let agents := (worker.remoteAgents.lookup remote.engineId).getD ∅
                  match worker.notifyOthers remoteRank (notifId reqId worker.worldSize).toUTF8
                    agents.entries reading with
                  | (reading, .error raised) => (reading, .error raised)
                  | (reading, .ok ()) =>
                      readRanks reqId localBlockIds remote tpRatio (index + 1) remoteRanks reading
                else
                  readRanks reqId localBlockIds remote tpRatio (index + 1) remoteRanks reading

/-- `_read_blocks_for_req`. -/
def readBlocksForReq (reading : Reading ω) (reqId : ReqId) (saved : ReqMeta) :
    Reading ω × Except PyError Unit :=
  match saved.remote with
  | none => (reading, .error .assertionError)
  | some remote =>
      worker.readRanks reqId saved.localPhysicalBlockIds remote
        (worker.kvTopo.tpRatioFromEngineId remote.engineId) 0
        (worker.kvTopo.getTargetRemoteRanksFromEngineId remote.engineId) reading

end ReadingWorker

end RduHdi
