import RduHdi.Connector.Metadata

/-!
# The scheduler side of the connector

`NixlConnectorScheduler` keeps, between two steps of the engine, what the next step's metadata
must tell the workers.  The clock readings of one call are one argument `now`; log lines are left
out except `[kv_ready]`, which reports what the bookkeeping holds.
-/

namespace RduHdi

/-- Configuration and environment variables the scheduler side reads. -/
structure SchedulerConfig where
  /-- `engine_id`. -/
  engineId : EngineId
  /-- The host of the listener. -/
  sideChannelHost : String
  /-- Its port. -/
  sideChannelPort : ℕ
  /-- The group size. -/
  tensorParallelSize : ℕ
  /-- `use_host_buffer`. -/
  useHostBuffer : Bool
  /-- `VLLM_PD_CHUNK_OVERLAP=1`. -/
  chunkOverlapEnabled : Bool
  /-- `VLLM_NIXL_ABORT_REQUEST_TIMEOUT`. -/
  abortRequestTimeout : ℚ

/-- A configuration with the environment's defaults. -/
def SchedulerConfig.withDefaults (useHostBuffer chunkOverlapEnabled : Bool) : SchedulerConfig where
  engineId := "prefill"
  sideChannelHost := "localhost"
  sideChannelPort := 5600
  tensorParallelSize := 1
  useHostBuffer
  chunkOverlapEnabled
  abortRequestTimeout := 480

/-- An entry of `_prefill_lifecycle`. -/
structure PrefillLifecycle where
  /-- When the prefill started. -/
  startTs : ℚ
  /-- The length of the prompt. -/
  promptTokens : ℕ
  /-- How many chunks were dispatched. -/
  chunksDispatched : ℕ
  /-- When the last one was. -/
  lastChunkTs : ℚ
  deriving DecidableEq

structure NixlConnectorScheduler where
  /-- `_pending_consumer_registrations`. -/
  pendingConsumerRegistrations : List PyObj
  /-- `_save_chunk_counter`. -/
  saveChunkCounter : Dict ReqId ℕ
  /-- `_reqs_need_recv`. -/
  reqsNeedRecv : Dict ReqId (Request × List ℕ)
  /-- `_reqs_need_save`. -/
  reqsNeedSave : Dict ReqId Request
  /-- `_reqs_need_send`. -/
  reqsNeedSend : Dict ReqId ℚ
  /-- `_reqs_in_batch`. -/
  reqsInBatch : KeySet ReqId
  /-- `_reqs_not_processed`. -/
  reqsNotProcessed : KeySet ReqId
  /-- `_prefill_lifecycle`. -/
  prefillLifecycle : Dict ReqId PrefillLifecycle

/-- The `[kv_ready]` log line. -/
structure KvReadyLine where
  /-- The request. -/
  req : String
  /-- How many blocks it has. -/
  blocks : ℕ
  /-- How many tokens its prompt has. -/
  promptTokens : ℕ
  /-- How long its prefill took. -/
  prefillElapsedMs : ℤ
  deriving DecidableEq

/-- What `request_finished` returns, logs, and leaves in the request object. -/
structure FinishResult where
  /-- Whether the blocks are freed later. -/
  delayFreeBlocks : Bool
  /-- What the response says about the transfer. -/
  kvTransferParams : Option KvTransferParams
  /-- The line that is logged. -/
  kvReady : Option KvReadyLine
  /-- The request afterwards. -/
  request : Request

namespace NixlConnectorScheduler

/-- `NixlConnectorScheduler.__init__`. -/
def init : NixlConnectorScheduler where
  pendingConsumerRegistrations := []
  saveChunkCounter := ∅
  reqsNeedRecv := ∅
  reqsNeedSave := ∅
  reqsNeedSend := ∅
  reqsInBatch := ∅
  reqsNotProcessed := ∅
  prefillLifecycle := ∅

/-- `_handle_consumer_registration`: the payload is stashed before the log line that reads a key
of it, which raises when the payload is no dictionary. -/
def handleConsumerRegistration (scheduler : NixlConnectorScheduler) (payload : PyObj) :
    NixlConnectorScheduler × Except PyError Unit :=
  ({ scheduler with
      pendingConsumerRegistrations := scheduler.pendingConsumerRegistrations ++ [payload] },
    (payload.get "engine_id" .none).map fun _ => ())

/-! ## Allocation -/

/-- `get_num_new_matched_tokens`: how many tokens are to be received, and whether the request
waits for them. -/
def getNumNewMatchedTokens (request : Request) (numComputedTokens : ℕ) : ℕ × Bool :=
  if request.kvTransferParams.doRemotePrefill then
    let count := (request.promptTokenIds.getD []).length - numComputedTokens
    if count > 0 then (count, true) else (0, false)
  else
    (0, false)

/-- The lifecycle entry after an allocation: a new one, or one more chunk on the old one. -/
def allocLifecycle (request : Request) (now : ℚ) : Option PrefillLifecycle → PrefillLifecycle
  | none =>
      { startTs := now
        promptTokens := (request.promptTokenIds.getD []).length
        chunksDispatched := 0
        lastChunkTs := now }
  | some life =>
      { life with chunksDispatched := life.chunksDispatched + 1, lastChunkTs := now }

/-- The bookkeeping of a request whose decode runs elsewhere. -/
def trackRemoteDecode (scheduler : NixlConnectorScheduler) (request : Request) (now : ℚ) :
    NixlConnectorScheduler :=
  { scheduler with
    reqsInBatch := scheduler.reqsInBatch.add request.requestId
    prefillLifecycle := scheduler.prefillLifecycle.set request.requestId
      (allocLifecycle request now (scheduler.prefillLifecycle.lookup request.requestId)) }

/-- `params["do_remote_prefill"] = False`. -/
def clearRemotePrefill (request : Request) : Request :=
  { request with kvTransferParams := { request.kvTransferParams with doRemotePrefill := false } }

/-- All of the keys a receive needs, besides the block ids, are present. -/
def hasRemoteKeys (params : KvTransferParams) : Bool :=
  params.remoteEngineId.isSome && params.remoteRequestId.isSome && params.remoteHost.isSome &&
    params.remotePort.isSome

/-- The remote-prefill branch of `update_state_after_alloc`.  With no external tokens the prompt
is fully cached here, and the receive only notifies the producer. -/
def needRecv (scheduler : NixlConnectorScheduler) (request : Request)
    (unhashedBlockIds : List ℕ) (numExternalTokens : ℕ) :
    Except PyError NixlConnectorScheduler :=
  let params := request.kvTransferParams
  if (params.remoteBlockIds.getD []).isEmpty then
    if numExternalTokens = 0 then .ok scheduler else .error .assertionError
  else if hasRemoteKeys params then
    let localBlockIds := if numExternalTokens > 0 then unhashedBlockIds else []
    .ok
      { scheduler with
        reqsNeedRecv := scheduler.reqsNeedRecv.set request.requestId (request, localBlockIds) }
  else
    .ok scheduler

/-- `update_state_after_alloc`, with the request object it leaves behind. -/
def updateStateAfterAlloc (config : SchedulerConfig) (scheduler : NixlConnectorScheduler)
    (request : Request) (unhashedBlockIds : List ℕ) (numExternalTokens : ℕ) (now : ℚ) :
    Except PyError (NixlConnectorScheduler × Request) :=
  let params := request.kvTransferParams
  let scheduler :=
    if params.doRemoteDecode then scheduler.trackRemoteDecode request now else scheduler
  if config.useHostBuffer && params.doRemoteDecode then
    .ok
      ({ scheduler with
          reqsNeedSave := scheduler.reqsNeedSave.set request.requestId request }, request)
  else if params.doRemotePrefill then
    (scheduler.needRecv request unhashedBlockIds numExternalTokens).map fun scheduler =>
      (scheduler, clearRemotePrefill request)
  else
    .ok (scheduler, request)

/-! ## Building the metadata of a step -/

/-- The step leaves part of the prompt for later steps. -/
def isPartial (request : Request) (scheduled : ScheduledReq) : Bool :=
  scheduled.numComputedTokens + scheduled.numScheduledTokens < request.numPromptTokens

/-- The labels a chunk gets when chunk overlap is on. -/
def labelChunk (config : SchedulerConfig) (scheduler : NixlConnectorScheduler)
    (metadata : NixlConnectorMetadata) (reqId : ReqId) (isLast : Bool) :
    NixlConnectorScheduler × NixlConnectorMetadata :=
  if config.chunkOverlapEnabled then
    let chunkIdx := (scheduler.saveChunkCounter.lookup reqId).getD 0
    ({ scheduler with saveChunkCounter := scheduler.saveChunkCounter.set reqId (chunkIdx + 1) },
      { metadata with
        saveChunkIdx := metadata.saveChunkIdx.set reqId chunkIdx
        saveIsLast := metadata.saveIsLast.set reqId isLast })
  else
    (scheduler, metadata)

/-- `_life["chunks_dispatched"] += 1`, where there is an entry. -/
def countChunk (scheduler : NixlConnectorScheduler) (reqId : ReqId) : NixlConnectorScheduler :=
  match scheduler.prefillLifecycle.lookup reqId with
  | some life =>
      { scheduler with
        prefillLifecycle := scheduler.prefillLifecycle.set reqId
          { life with chunksDispatched := life.chunksDispatched + 1 } }
  | none => scheduler

/-- The pops of a request whose whole prompt is scheduled. -/
def retireSaved (config : SchedulerConfig) (scheduler : NixlConnectorScheduler)
    (reqId : ReqId) : NixlConnectorScheduler :=
  { scheduler with
    reqsNeedSave := scheduler.reqsNeedSave.erase reqId
    saveChunkCounter :=
      if config.chunkOverlapEnabled then scheduler.saveChunkCounter.erase reqId
      else scheduler.saveChunkCounter
    prefillLifecycle := scheduler.prefillLifecycle.erase reqId }

/-- One turn of the save loop.  A request with no new blocks in this step is passed over. -/
def saveEntry (config : SchedulerConfig) (state : NixlConnectorScheduler × NixlConnectorMetadata)
    (scheduled : ScheduledReq) : NixlConnectorScheduler × NixlConnectorMetadata :=
  let (scheduler, metadata) := state
  match scheduler.reqsNeedSave.lookup scheduled.reqId, scheduled.newBlockIds with
  | some request, some blockIds =>
      let metadata :=
        metadata.addNewReqToSave scheduled.reqId blockIds request.kvTransferParams
      let partially := isPartial request scheduled
      let (scheduler, metadata) :=
        scheduler.labelChunk config metadata scheduled.reqId (!partially)
      let scheduler := scheduler.countChunk scheduled.reqId
      if partially then
        (scheduler, metadata)
      else
        (scheduler.retireSaved config scheduled.reqId, metadata)
  | _, _ => (scheduler, metadata)

/-- The receive loop: every request that needs a receive is put into the metadata. -/
def recvLoop (metadata : NixlConnectorMetadata) :
    List (Σ _ : ReqId, Request × List ℕ) → Except PyError NixlConnectorMetadata
  | [] => .ok metadata
  | ⟨reqId, request, blockIds⟩ :: rest =>
      match metadata.addNewReqToRecv reqId blockIds request.kvTransferParams with
      | .ok metadata => recvLoop metadata rest
      | .error raised => .error raised

/-- The end of `build_connector_meta`: what was collected since the last step moves into the
metadata. -/
def handOver (config : SchedulerConfig) (scheduler : NixlConnectorScheduler)
    (metadata : NixlConnectorMetadata) : NixlConnectorScheduler × NixlConnectorMetadata :=
  ({ scheduler with
      reqsNeedRecv := ∅
      reqsNeedSend := ∅
      reqsInBatch := ∅
      reqsNotProcessed := ∅
      pendingConsumerRegistrations :=
        if config.chunkOverlapEnabled then [] else scheduler.pendingConsumerRegistrations },
    { metadata with
      reqsToSend := scheduler.reqsNeedSend
      reqsInBatch := scheduler.reqsInBatch
      reqsNotProcessed := scheduler.reqsNotProcessed
      consumerRegistrations :=
        if config.chunkOverlapEnabled then scheduler.pendingConsumerRegistrations
        else metadata.consumerRegistrations })

/-- `build_connector_meta`. -/
def buildConnectorMeta (config : SchedulerConfig) (scheduler : NixlConnectorScheduler)
    (output : SchedulerOutput) : Except PyError (NixlConnectorScheduler × NixlConnectorMetadata) :=
  match recvLoop .init scheduler.reqsNeedRecv.entries with
  | .ok metadata =>
      let (scheduler, metadata) := output.reqData.foldl (saveEntry config) (scheduler, metadata)
      .ok (scheduler.handOver config metadata)
  | .error raised => .error raised

/-! ## Finishing a request -/

/-- Milliseconds, truncated towards zero. -/
def truncateMs (seconds : ℚ) : ℤ :=
  if 0 ≤ seconds then ⌊seconds * 1000⌋ else ⌈seconds * 1000⌉

/-- The `[kv_ready]` line; a missing lifecycle entry reports no tokens and no time. -/
def kvReadyLine (scheduler : NixlConnectorScheduler) (request : Request) (blockIds : List ℕ)
    (now : ℚ) : KvReadyLine :=
  let life := scheduler.prefillLifecycle.lookup request.requestId
  { req := String.ofList (request.requestId.toList.take 8)
    blocks := blockIds.length
    promptTokens := (life.map PrefillLifecycle.promptTokens).getD 0
    prefillElapsedMs := truncateMs (now - (life.map PrefillLifecycle.startTs).getD now) }

/-- `request_finished`. -/
def requestFinished (config : SchedulerConfig) (scheduler : NixlConnectorScheduler)
    (request : Request) (status : RequestStatus) (blockIds : List ℕ) (now : ℚ) :
    NixlConnectorScheduler × FinishResult :=
  let params := request.kvTransferParams
  let freed : FinishResult :=
    { delayFreeBlocks := false, kvTransferParams := none, kvReady := none, request }
  if params.doRemotePrefill then
    -- Never allocated here: an empty receive tells the producer to free its blocks.
    ({ scheduler with
        reqsNeedRecv := scheduler.reqsNeedRecv.set request.requestId (request, []) },
      { freed with request := clearRemotePrefill request })
  else if !params.doRemoteDecode then
    (scheduler, freed)
  else if status ≠ .finishedLengthCapped then
    ({ scheduler with
        reqsNotProcessed := scheduler.reqsNotProcessed.add request.requestId
        reqsNeedSave := scheduler.reqsNeedSave.erase request.requestId
        prefillLifecycle := scheduler.prefillLifecycle.erase request.requestId },
      freed)
  else
    let delayFreeBlocks := !blockIds.isEmpty
    ({ scheduler with
        reqsNeedSend :=
          if delayFreeBlocks then
            scheduler.reqsNeedSend.set request.requestId (now + config.abortRequestTimeout)
          else scheduler.reqsNeedSend },
      { delayFreeBlocks
        kvTransferParams := some
          { doRemoteDecode := false
            doRemotePrefill := true
            remoteBlockIds := some blockIds
            remoteEngineId := some config.engineId
            remoteRequestId := some request.requestId
            remoteHost := some config.sideChannelHost
            remotePort := some config.sideChannelPort
            tpSize := some config.tensorParallelSize }
        kvReady := some (scheduler.kvReadyLine request blockIds now)
        request })

end NixlConnectorScheduler

end RduHdi
