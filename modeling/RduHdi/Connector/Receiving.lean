import RduHdi.Connector.HandshakeRun
import RduHdi.Connector.HostStaging
import RduHdi.Connector.Sending

/-!
# The receiving half of the worker

What a decode worker does with the requests it loads: it reads their blocks when it knows the
producer, does a handshake in the background when it does not, and asks after its transfers until
they are done.  A handshake ends between two turns of the main thread, and its callbacks run then.
-/

namespace RduHdi

/-- What `check_xfer_state` says. -/
inductive XferState where
  /-- `DONE`. -/
  | done
  /-- `PROC`. -/
  | proc
  /-- Any other name. -/
  | other (name : String)

/-- What NIXL answers when it is asked after a transfer. -/
structure XferCheck where
  /-- What `check_xfer_state` returns or raises. -/
  state : Except PyError XferState
  /-- Whether `get_xfer_telemetry` raises. -/
  telemetry : Except PyError Unit

/-- The transfer goes on. -/
def XferCheck.isProc (check : XferCheck) : Bool :=
  match check.state with
  | .ok .proc => true
  | _ => false

/-- The transfer is done, and its telemetry is there. -/
def XferCheck.isDone (check : XferCheck) : Bool :=
  match check.state with
  | .ok .done => check.telemetry.isOk
  | _ => false

/-- The transfer failed. -/
def XferCheck.isFailed (check : XferCheck) : Bool :=
  !check.isProc && !check.isDone

/-- A handshake in the background, with the requests whose callbacks wait for it. -/
structure HandshakeFuture where
  /-- The size of the remote group. -/
  tpSize : ℕ
  /-- The requests of the callbacks, in their order. -/
  waiting : List (ReqId × ReqMeta)

/-- What is done with the blocks of a finished request. -/
inductive ReceiveCall where
  /-- `copy_blocks`, host to device. -/
  | syncToDevice (reqId : ReqId) (blockIds : List ℕ)
  /-- `post_process_device_kv_on_receive`. -/
  | postProcess (blockSizeRatio : ℕ) (blockIdsList : List (List ℕ))

/-- What happened to requests so far; nothing reads it. -/
structure ReceiveLog where
  /-- The requests that `get_finished` returned as received, in order. -/
  reported : List ReqId
  /-- The requests of which the handshake failed. -/
  handshakeFailed : KeySet ReqId
  /-- The requests of which the handshake failed, or NIXL said so of a transfer. -/
  failed : KeySet ReqId
  /-- The blocks that were ever invalid. -/
  invalidated : KeySet ℕ

/-- What may raise in the receiving half. -/
inductive ReceiveError where
  /-- The assertion of `get_finished` that the metadata of a request is there. -/
  | notFound (reqId : ReqId)
  /-- Anything else. -/
  | raised (error : PyError)
deriving DecidableEq

/-- The part of `NixlConnectorWorker` that receiving changes.  The library is one: its state is in
the tables, and the reading half works on that. -/
structure Receiving (ω : Type) where
  /-- What handshakes change. -/
  tables : Handshakes ω
  /-- What reads change. -/
  reading : Reading ω
  /-- `_handshake_futures`. -/
  handshakeFutures : Dict EngineId HandshakeFuture
  /-- `_ready_requests`. -/
  readyRequests : List (ReqId × ReqMeta)
  /-- What was done with received blocks so far, oldest first; nothing reads it. -/
  receiveCalls : List ReceiveCall
  /-- What happened to requests. -/
  log : ReceiveLog

def Receiving.init {ω : Type} (tables : Handshakes ω) : Receiving ω where
  tables
  reading := .init tables.world
  handshakeFutures := ∅
  readyRequests := []
  receiveCalls := []
  log := ⟨[], ∅, ∅, ∅⟩

/-- Put down whom NIXL refused a transfer, and which blocks are invalid. -/
def ReceiveLog.note {ω : Type} (log : ReceiveLog) (reading : Reading ω) : ReceiveLog :=
  { log with
    failed := log.failed.addAll reading.refused.keys
    invalidated := log.invalidated.addAll reading.invalidBlockIds.keys }

/-- Put down a request of which the handshake failed. -/
def ReceiveLog.withFailed (log : ReceiveLog) (reqId : ReqId) : ReceiveLog :=
  { log with
    handshakeFailed := log.handshakeFailed.add reqId
    failed := log.failed.add reqId }

/-- Let the reading half do something. -/
def Receiving.onReading {ω α : Type} (receiving : Receiving ω) (work : Reading ω → Reading ω × α) :
    Receiving ω × α :=
  match work { receiving.reading with world := receiving.tables.world } with
  | (reading, result) =>
      ({ receiving with
          tables := { receiving.tables with world := reading.world }
          reading
          log := receiving.log.note reading }, result)

/-- The invalid blocks, with those of a request whose metadata is there. -/
def Reading.withInvalid {ω : Type*} (reading : Reading ω) (reqId : ReqId) : KeySet ℕ :=
  match reading.recvingMetadata.lookup reqId with
  | some saved => reading.invalidBlockIds.addAll saved.localBlockIds
  | none => reading.invalidBlockIds

theorem Reading.mem_withInvalid {ω : Type*} {reading : Reading ω} {reqId : ReqId} {block : ℕ} :
    block ∈ reading.withInvalid reqId ↔ block ∈ reading.invalidBlockIds ∨
      ∃ saved, reading.recvingMetadata.lookup reqId = some saved ∧ block ∈ saved.localBlockIds := by
  rw [withInvalid]
  cases reading.recvingMetadata.lookup reqId with
  | none => simp
  | some saved => simp [or_comm]

/-- What a decode worker has from its configuration. -/
structure ReceivingWorker (ω : Type) where
  /-- The part that does handshakes. -/
  handshakes : HandshakeWorker ω
  /-- The library, as reads use it. -/
  nixl : NixlReader ω
  /-- `block_window_per_layer`. -/
  blockWindowPerLayer : List (Option ℕ)
  /-- How logical blocks map to kernel blocks. -/
  kernel : KernelBlocks

/-- What happens within the loop of `start_load_kv`: its next turn, or the end of a handshake. -/
inductive LoadTurn where
  /-- The next entry of `reqs_to_recv`. -/
  | request (reqId : ReqId) (saved : ReqMeta)
  /-- A handshake ends; what the remote ranks answered. -/
  | handshakeDone (engineId : EngineId) (answers : ℕ → Except PyError HandshakePayload)

namespace ReceivingWorker

variable {ω : Type} (worker : ReceivingWorker ω)

/-! ## Loading -/

/-- `_read_blocks_for_req`, with the tables that handshakes left. -/
def readBlocksForReq (receiving : Receiving ω) (reqId : ReqId) (saved : ReqMeta) :
    Receiving ω × Except PyError Unit :=
  receiving.onReading fun reading =>
    (worker.handshakes.reader receiving.tables worker.nixl
      worker.blockWindowPerLayer).readBlocksForReq reading reqId saved

/-- `_background_nixl_handshake`: at most one handshake with an engine is under way. -/
def backgroundNixlHandshake (receiving : Receiving ω) (reqId : ReqId) (engineId : EngineId)
    (saved : ReqMeta) : Receiving ω :=
  let future := (receiving.handshakeFutures.lookup engineId).getD ⟨saved.tpSize, []⟩
  { receiving with
    handshakeFutures := receiving.handshakeFutures.set engineId
      { future with waiting := future.waiting ++ [(reqId, saved)] } }

/-- What `request_ready` does when the handshake failed. -/
def failRequest (receiving : Receiving ω) (entry : ReqId × ReqMeta) : Receiving ω :=
  (receiving.onReading fun reading =>
    ({ reading with
        invalidBlockIds := reading.withInvalid entry.1
        failedRecvReqs := reading.failedRecvReqs.add entry.1 }, ())).1

/-- `request_ready`, of the future of a handshake. -/
def requestReady (outcome : Except PyError (Dict ℕ AgentName)) (receiving : Receiving ω)
    (entry : ReqId × ReqMeta) : Receiving ω :=
  match outcome with
  | .ok _ => { receiving with readyRequests := receiving.readyRequests ++ [entry] }
  | .error _ => failRequest receiving entry

/-- `done_callback`, of the future of a handshake. -/
def doneCallback (engineId : EngineId) (outcome : Except PyError (Dict ℕ AgentName))
    (receiving : Receiving ω) : Receiving ω :=
  let handshakeFutures := receiving.handshakeFutures.erase engineId
  match outcome with
  | .ok agents =>
      let remoteAgents := receiving.tables.remoteAgents.set engineId agents
      { receiving with tables := { receiving.tables with remoteAgents }, handshakeFutures }
  | .error _ => { receiving with handshakeFutures }

/-- Put down that the handshake failed that a request waits for. -/
def noteOutcome (outcome : Except PyError (Dict ℕ AgentName)) (receiving : Receiving ω)
    (reqId : ReqId) : Receiving ω :=
  match outcome with
  | .ok _ => receiving
  | .error _ => { receiving with log := receiving.log.withFailed reqId }

/-- The callbacks of a handshake: `done_callback` first, then `request_ready` for every request
that waits. -/
def runCallbacks (receiving : Receiving ω) (engineId : EngineId) (waiting : List (ReqId × ReqMeta))
    (outcome : Except PyError (Dict ℕ AgentName)) : Receiving ω :=
  waiting.foldl
    (fun receiving entry => requestReady outcome (noteOutcome outcome receiving entry.1) entry)
    (doneCallback engineId outcome receiving)

/-- The end of a handshake, with its callbacks. -/
def handshakeDone (receiving : Receiving ω) (engineId : EngineId)
    (answers : ℕ → Except PyError HandshakePayload) : Receiving ω :=
  match receiving.handshakeFutures.lookup engineId with
  | none => receiving
  | some future =>
      match worker.handshakes.nixlHandshake answers future.tpSize engineId receiving.tables with
      | (tables, outcome) =>
          runCallbacks { receiving with tables } engineId future.waiting outcome

/-- A request's metadata, in kernel blocks. -/
def inKernelBlocks (saved : ReqMeta) (remote : RemoteMeta) : ReqMeta :=
  { saved with
    localPhysicalBlockIds := worker.kernel.logicalToKernelBlockIds saved.localBlockIds
    remote := some
      { remote with blockIds := worker.kernel.logicalToKernelBlockIds remote.blockIds } }

/-- One turn of the loop of `start_load_kv`. -/
def loadRequest (receiving : Receiving ω) (reqId : ReqId) (saved : ReqMeta) :
    Receiving ω × Except PyError Unit :=
  match saved.remote with
  | none => (receiving, .error .assertionError)
  | some remote =>
      let saved := worker.inKernelBlocks saved remote
      let receiving :=
        { receiving with
          reading :=
            { receiving.reading with
              recvingMetadata := receiving.reading.recvingMetadata.set reqId saved } }
      if remote.engineId ∉ receiving.tables.remoteAgents then
        (backgroundNixlHandshake receiving reqId remote.engineId saved, .ok ())
      else
        worker.readBlocksForReq receiving reqId saved

/-- The loop of `start_load_kv`, with the handshakes that end meanwhile. -/
def loadLoop : List LoadTurn → Receiving ω → Receiving ω × Except PyError Unit
  | [], receiving => (receiving, .ok ())
  | .request reqId saved :: turns, receiving =>
      match worker.loadRequest receiving reqId saved with
      | (receiving, .ok ()) => loadLoop turns receiving
      | (receiving, .error raised) => (receiving, .error raised)
  | .handshakeDone engineId answers :: turns, receiving =>
      loadLoop turns (worker.handshakeDone receiving engineId answers)

/-- The loop over `_ready_requests`, from the front. -/
def readReady : List (ReqId × ReqMeta) → Receiving ω → Receiving ω × Except PyError Unit
  | [], receiving => (receiving, .ok ())
  | entry :: entries, receiving =>
      match worker.readBlocksForReq { receiving with readyRequests := entries } entry.1 entry.2 with
      | (receiving, .ok ()) => readReady entries receiving
      | (receiving, .error raised) => (receiving, .error raised)

/-- The receiving half of `start_load_kv`. -/
def startLoadKv (receiving : Receiving ω) (turns : List LoadTurn) :
    Receiving ω × Except PyError Unit :=
  match worker.loadLoop turns receiving with
  | (receiving, .ok ()) => worker.readReady receiving.readyRequests receiving
  | (receiving, .error raised) => (receiving, .error raised)

/-! ## Finishing -/

/-- `_handle_failed_transfer`. -/
def handleFailedTransfer (reading : Reading ω) (reqId : ReqId) (handle : XferHandle) : Reading ω :=
  { reading with
    invalidBlockIds := reading.withInvalid reqId
    world := worker.nixl.releaseXferHandle reading.world handle }

/-- The loop over the handles of a request: the ones that are in progress. -/
def checkHandles (checks : XferHandle → XferCheck) (reqId : ReqId) :
    List XferHandle → Reading ω → Reading ω × List XferHandle
  | [], reading => (reading, [])
  | handle :: handles, reading =>
      if (checks handle).isProc then
        match checkHandles checks reqId handles reading with
        | (reading, inProgress) => (reading, handle :: inProgress)
      else if (checks handle).isDone then
        checkHandles checks reqId handles
          { reading with world := worker.nixl.releaseXferHandle reading.world handle }
      else
        checkHandles checks reqId handles (worker.handleFailedTransfer reading reqId handle)

/-- The loop of `_pop_done_transfers`, over the entries that it starts with. -/
def popLoop (checks : XferHandle → XferCheck) :
    List (Σ _ : ReqId, List XferHandle) → KeySet ReqId → Reading ω → Reading ω × KeySet ReqId
  | [], done, reading => (reading, done)
  | ⟨reqId, handles⟩ :: entries, done, reading =>
      match worker.checkHandles checks reqId handles reading with
      | (reading, []) =>
          popLoop checks entries (done.add reqId)
            { reading with recvingTransfers := reading.recvingTransfers.erase reqId }
      | (reading, inProgress) =>
          popLoop checks entries done
            { reading with recvingTransfers := reading.recvingTransfers.set reqId inProgress }

/-- `done_recving`: what `_pop_done_transfers` returns, and the requests that failed. -/
def doneRecving (checks : XferHandle → XferCheck) (reading : Reading ω) :
    Reading ω × KeySet ReqId :=
  match worker.popLoop checks reading.recvingTransfers.entries ∅ reading with
  | (reading, done) =>
      ({ reading with failedRecvReqs := ∅ }, done.addAll reading.failedRecvReqs.keys)

/-- The requests of which NIXL says that a transfer under way failed. -/
def failedChecks (checks : XferHandle → XferCheck) (reading : Reading ω) : List ReqId :=
  (reading.underway.filter fun transfer => (checks transfer.2).isFailed).map Prod.fst

/-- The transfers of which NIXL says that they go on. -/
def stillUnderway (checks : XferHandle → XferCheck) (reading : Reading ω) :
    List (ReqId × XferHandle) :=
  reading.underway.filter fun transfer => (checks transfer.2).isProc

/-- The loop of `get_finished` over the requests that are received; `postProcess` is what it
collects for each ratio of block sizes. -/
def finishLoop : List ReqId → Dict ℕ (List (List ℕ)) → Receiving ω →
    Receiving ω × Except ReceiveError (Dict ℕ (List (List ℕ)))
  | [], postProcess, receiving => (receiving, .ok postProcess)
  | reqId :: reqIds, postProcess, receiving =>
      match receiving.reading.recvingMetadata.lookup reqId with
      | none => (receiving, .error (.notFound reqId))
      | some saved =>
          let receiving :=
            { receiving with
              reading :=
                { receiving.reading with
                  recvingMetadata := receiving.reading.recvingMetadata.erase reqId } }
          match saved.remote with
          | none => (receiving, .error (.raised .assertionError))
          | some remote =>
              let receiving :=
                if worker.handshakes.useHostBuffer then
                  { receiving with
                    receiveCalls := receiving.receiveCalls ++
                      [.syncToDevice reqId saved.localPhysicalBlockIds] }
                else
                  receiving
              match (worker.handshakes.blockSizeRatioFromEngineId remote.engineId
                receiving.tables).2 with
              | .error raised => (receiving, .error (.raised raised))
              | .ok ratio =>
                  if ¬ worker.handshakes.useMla ∧
                      (ratio > 1 ∨ receiving.tables.enablePermuteLocalKv) then
                    finishLoop reqIds
                      (postProcess.set ratio
                        ((postProcess.lookup ratio).getD [] ++ [saved.localPhysicalBlockIds]))
                      receiving
                  else
                    finishLoop reqIds postProcess receiving

/-- `post_process_device_kv_on_receive`, for every ratio. -/
def postProcessLoop : List (Σ _ : ℕ, List (List ℕ)) → Receiving ω →
    Receiving ω × Except ReceiveError Unit
  | [], receiving => (receiving, .ok ())
  | ⟨ratio, blockIdsList⟩ :: entries, receiving =>
      if ratio ≥ 1 then
        postProcessLoop entries
          { receiving with
            receiveCalls := receiving.receiveCalls ++ [.postProcess ratio blockIdsList] }
      else
        (receiving, .error (.raised .assertionError))

/-- The receiving half of `get_finished`; `order` is how `done_recving` is iterated over. -/
def getFinished (receiving : Receiving ω) (checks : XferHandle → XferCheck) (order : SetOrder) :
    Receiving ω × Except ReceiveError (KeySet ReqId) :=
  let failed := failedChecks checks receiving.reading
  let underway := stillUnderway checks receiving.reading
  match receiving.onReading (worker.doneRecving checks) with
  | (receiving, done) =>
      match worker.finishLoop (order.arrange done.keys) ∅ receiving with
      | (receiving, .error raised) => (receiving, .error raised)
      | (receiving, .ok postProcess) =>
          match postProcessLoop postProcess.entries receiving with
          | (receiving, .error raised) => (receiving, .error raised)
          | (receiving, .ok ()) =>
              ({ receiving with
                  reading := { receiving.reading with underway }
                  log :=
                    { receiving.log with
                      reported := receiving.log.reported ++ done.keys
                      failed := receiving.log.failed.addAll failed } }, .ok done)

/-- `get_block_ids_with_load_errors`. -/
def getBlockIdsWithLoadErrors (receiving : Receiving ω) : Receiving ω × KeySet ℕ :=
  ({ receiving with reading := { receiving.reading with invalidBlockIds := ∅ } },
    receiving.reading.invalidBlockIds)

/-! ## The callbacks by the outcome -/

/-- What the failure of a handshake does to a request that waits for it. -/
def failWaiting (receiving : Receiving ω) (entry : ReqId × ReqMeta) : Receiving ω :=
  failRequest { receiving with log := receiving.log.withFailed entry.1 } entry

theorem runCallbacks_error (receiving : Receiving ω) (engineId : EngineId)
    (waiting : List (ReqId × ReqMeta)) (raised : PyError) :
    runCallbacks receiving engineId waiting (.error raised) =
      waiting.foldl failWaiting
        { receiving with handshakeFutures := receiving.handshakeFutures.erase engineId } :=
  rfl

theorem runCallbacks_ok (receiving : Receiving ω) (engineId : EngineId)
    (waiting : List (ReqId × ReqMeta)) (agents : Dict ℕ AgentName) :
    runCallbacks receiving engineId waiting (.ok agents) =
      { receiving with
        tables :=
          { receiving.tables with
            remoteAgents := receiving.tables.remoteAgents.set engineId agents }
        handshakeFutures := receiving.handshakeFutures.erase engineId
        readyRequests := receiving.readyRequests ++ waiting } := by
  have queue : ∀ (receiving : Receiving ω),
      waiting.foldl (fun receiving entry => requestReady (.ok agents)
        (noteOutcome (.ok agents) receiving entry.1) entry) receiving =
        { receiving with readyRequests := receiving.readyRequests ++ waiting } := by
    induction waiting with
    | nil => exact fun receiving => by rw [List.foldl_nil, List.append_nil]
    | cons entry waiting ih =>
        intro receiving
        rw [List.foldl_cons, ih]
        simp [requestReady, noteOutcome]
  exact queue _

theorem runCallbacks_world (receiving : Receiving ω) (engineId : EngineId)
    (waiting : List (ReqId × ReqMeta)) (outcome : Except PyError (Dict ℕ AgentName)) :
    (runCallbacks receiving engineId waiting outcome).tables.world = receiving.tables.world := by
  cases outcome with
  | ok agents => rw [runCallbacks_ok]
  | error raised =>
      have loop : ∀ (receiving : Receiving ω),
          (waiting.foldl failWaiting receiving).tables.world = receiving.tables.world := by
        induction waiting with
        | nil => exact fun _ => rfl
        | cons entry waiting ih => exact fun receiving => ih (failWaiting receiving entry)
      rw [runCallbacks_error, loop]

end ReceivingWorker

end RduHdi
