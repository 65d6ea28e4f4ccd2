import RduHdi.Dict
import RduHdi.PyObj

/-!
# Requests and connector metadata

The data the scheduler side of `nixl_connector.py` reads from vLLM and the metadata it hands to
the workers.  A request object is read at different times: what never changes is in `Request`,
and what vLLM updates between steps (`status`, `num_computed_tokens`) is an argument of the call
that reads it.
-/

namespace RduHdi

abbrev ReqId := String
abbrev EngineId := String

/-- The name NIXL gives a remote agent. -/
abbrev AgentName := String

/-- `request.kv_transfer_params`.  `None` and `{}` are both falsy and set no flag, so they are
the value with every field absent; an optional field is `none` when its key is missing. -/
structure KvTransferParams where
  /-- `do_remote_decode`. -/
  doRemoteDecode : Bool
  /-- `do_remote_prefill`. -/
  doRemotePrefill : Bool
  /-- `remote_block_ids`. -/
  remoteBlockIds : Option (List ℕ)
  /-- `remote_engine_id`. -/
  remoteEngineId : Option EngineId
  /-- `remote_request_id`. -/
  remoteRequestId : Option ReqId
  /-- `remote_host`. -/
  remoteHost : Option String
  /-- `remote_port`. -/
  remotePort : Option ℕ
  /-- `tp_size`. -/
  tpSize : Option ℕ
  deriving DecidableEq

/-- The parameters of a request whose decode runs elsewhere. -/
def KvTransferParams.remoteDecode : KvTransferParams where
  doRemoteDecode := true
  doRemotePrefill := false
  remoteBlockIds := none
  remoteEngineId := none
  remoteRequestId := none
  remoteHost := none
  remotePort := none
  tpSize := none

/-- The fields of vLLM's `Request` which the connector reads and vLLM does not update. -/
structure Request where
  /-- The id. -/
  requestId : ReqId
  /-- The prompt, if it is given by tokens. -/
  promptTokenIds : Option (List ℕ)
  /-- How many tokens it has. -/
  numPromptTokens : ℕ
  /-- What the router says about the transfer. -/
  kvTransferParams : KvTransferParams
  deriving DecidableEq

/-- A request whose decode runs elsewhere. -/
def Request.remoteDecode (requestId : ReqId) (promptTokenIds : List ℕ) : Request where
  requestId
  promptTokenIds := some promptTokenIds
  numPromptTokens := promptTokenIds.length
  kvTransferParams := .remoteDecode

/-- The values of `request.status` which the connector tells apart. -/
inductive RequestStatus where
  | finishedLengthCapped
  | other
  deriving DecidableEq

/-- What one step schedules for one request: an item of `yield_req_data` together with
`num_scheduled_tokens[req_id]` and the request's `num_computed_tokens` at that step.
`newBlockIds` is the first KV cache group of the new block ids, `none` when there are none. -/
structure ScheduledReq where
  /-- The request. -/
  reqId : ReqId
  /-- The blocks that are new in this step. -/
  newBlockIds : Option (List ℕ)
  /-- The tokens of this step. -/
  numScheduledTokens : ℕ
  /-- The tokens of the steps before. -/
  numComputedTokens : ℕ
  deriving DecidableEq

/-- vLLM's `SchedulerOutput`: a step schedules a request at most once. -/
structure SchedulerOutput where
  /-- The requests of the step. -/
  reqData : List ScheduledReq
  /-- A request is scheduled once in a step. -/
  nodupReqs : (reqData.map ScheduledReq.reqId).Nodup

/-- A step that schedules one request. -/
def SchedulerOutput.single (scheduled : ScheduledReq) : SchedulerOutput where
  reqData := [scheduled]
  nodupReqs := List.nodup_singleton _

/-- The part of a step that concerns one request. -/
def SchedulerOutput.scheduledFor (output : SchedulerOutput) (reqId : ReqId) : Option ScheduledReq :=
  output.reqData.find? fun scheduled => scheduled.reqId = reqId

structure RemoteMeta where
  /-- Its blocks. -/
  blockIds : List ℕ
  /-- The host of the engine. -/
  host : String
  /-- Its port. -/
  port : ℕ
  /-- The engine. -/
  engineId : EngineId
  /-- What the engine calls the request. -/
  requestId : ReqId
  deriving DecidableEq

structure ReqMeta where
  /-- The local blocks. -/
  localBlockIds : List ℕ
  /-- Differs from `localBlockIds` when the kernel block size is not the logical one. -/
  localPhysicalBlockIds : List ℕ
  /-- The group size of the engine. -/
  tpSize : ℕ
  /-- What is read, if anything. -/
  remote : Option RemoteMeta
  deriving DecidableEq

structure NixlConnectorMetadata where
  /-- The requests to load. -/
  reqsToRecv : Dict ReqId ReqMeta
  /-- The chunks to save. -/
  reqsToSave : Dict ReqId ReqMeta
  /-- The requests to send, with their deadlines. -/
  reqsToSend : Dict ReqId ℚ
  /-- The requests to process. -/
  reqsInBatch : KeySet ReqId
  /-- The requests to process no more. -/
  reqsNotProcessed : KeySet ReqId
  /-- The registrations of consumers. -/
  consumerRegistrations : List PyObj
  /-- The number of each chunk. -/
  saveChunkIdx : Dict ReqId ℕ
  /-- Whether each chunk is the last. -/
  saveIsLast : Dict ReqId Bool

namespace NixlConnectorMetadata

/-- `NixlConnectorMetadata.__init__`. -/
def init : NixlConnectorMetadata where
  reqsToRecv := ∅
  reqsToSave := ∅
  reqsToSend := ∅
  reqsInBatch := ∅
  reqsNotProcessed := ∅
  consumerRegistrations := []
  saveChunkIdx := ∅
  saveIsLast := ∅

/-- `_add_new_req`. -/
def addNewReq (localBlockIds : List ℕ) (params : KvTransferParams) : ReqMeta where
  localBlockIds := localBlockIds
  localPhysicalBlockIds := localBlockIds
  tpSize := params.tpSize.getD 1
  remote := none

def addNewReqToSave (metadata : NixlConnectorMetadata) (requestId : ReqId)
    (localBlockIds : List ℕ) (params : KvTransferParams) : NixlConnectorMetadata :=
  { metadata with
    reqsToSave := metadata.reqsToSave.set requestId (addNewReq localBlockIds params) }

/-- `add_new_req_to_recv`: each `kv_transfer_params[key]` raises when the key is missing. -/
def addNewReqToRecv (metadata : NixlConnectorMetadata) (requestId : ReqId)
    (localBlockIds : List ℕ) (params : KvTransferParams) :
    Except PyError NixlConnectorMetadata :=
  match params.remoteBlockIds, params.remoteEngineId, params.remoteRequestId,
    params.remoteHost, params.remotePort with
  | some blockIds, some engineId, some remoteRequestId, some host, some port =>
      let remote : RemoteMeta :=
        { blockIds, host, port, engineId, requestId := remoteRequestId }
      .ok
        { metadata with
          reqsToRecv := metadata.reqsToRecv.set requestId
            { addNewReq localBlockIds params with remote := some remote } }
  | _, _, _, _, _ => .error .keyError

end NixlConnectorMetadata

end RduHdi
