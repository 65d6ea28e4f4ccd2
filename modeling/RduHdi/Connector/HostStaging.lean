import RduHdi.Connector.Metadata

/-!
# Staging saved blocks in host memory

`save_kv_to_host` and what it calls: the registration of consumers, the copy of each saved
chunk's blocks from the device to the host buffer, and the notif that tells the consumer about
the chunk.  Timing and debug dumps are left out.
-/

namespace RduHdi

/-- The operations of the NIXL library used here; `ω` is whatever it keeps. -/
structure NixlWrapper (ω : Type*) where
  /-- `add_remote_agent`. -/
  addRemoteAgent : ω → PyObj → ω × Except PyError AgentName
  /-- `send_notif`. -/
  sendNotif : ω → AgentName → ByteArray → ω × Except PyError Unit

/-- How logical blocks map to kernel blocks.  `mapToKernelBlocks` is vLLM's
`BlockTable.map_to_kernel_blocks`, which turns a block into consecutive kernel blocks. -/
structure KernelBlocks where
  /-- How many blocks the device has for one of the scheduler. -/
  physicalBlocksPerLogicalKvBlock : ℕ
  /-- There is one at least. -/
  ratio_pos : 0 < physicalBlocksPerLogicalKvBlock
  /-- vLLM's `map_to_kernel_blocks`. -/
  mapToKernelBlocks : List ℕ → ℕ → List ℕ → List ℕ
  /-- Each block becomes the blocks that it consists of. -/
  map_eq : ∀ blockIds ratio arange, mapToKernelBlocks blockIds ratio arange =
    blockIds.flatMap fun block => arange.map fun offset => block * ratio + offset

/-- Blocks of `ratio` kernel blocks each. -/
def KernelBlocks.consecutive (ratio : ℕ) (ratio_pos : 0 < ratio) : KernelBlocks where
  physicalBlocksPerLogicalKvBlock := ratio
  ratio_pos
  mapToKernelBlocks blockIds ratio arange :=
    blockIds.flatMap fun block => arange.map fun offset => block * ratio + offset
  map_eq := fun _ _ _ => rfl

/-- `_logical_to_kernel_block_ids`. -/
def KernelBlocks.logicalToKernelBlockIds (kernel : KernelBlocks) (blockIds : List ℕ) : List ℕ :=
  if kernel.physicalBlocksPerLogicalKvBlock = 1 then
    blockIds
  else
    kernel.mapToKernelBlocks blockIds kernel.physicalBlocksPerLogicalKvBlock
      (List.range kernel.physicalBlocksPerLogicalKvBlock)

/-- A saved chunk, as a notif reports it. -/
structure ChunkNotif where
  /-- The number of the chunk. -/
  chunkIdx : ℕ
  /-- Whether it ends the prompt. -/
  isLast : Bool
  /-- Its blocks. -/
  blockIds : List ℕ
  deriving DecidableEq

def chunkReadyNotifPrefix : ByteArray := "chunkready".toUTF8

/-- The text of a list of block ids, separated by commas. -/
def blockCsv (blockIds : List ℕ) : String :=
  String.intercalate "," (blockIds.map toString)

/-- The wire form of a chunk notif. -/
def chunkReadyNotif (reqId : ReqId) (chunk : ChunkNotif) : ByteArray :=
  chunkReadyNotifPrefix ++
    ("|" ++ reqId ++ "|" ++ toString chunk.chunkIdx ++ "|" ++
      (if chunk.isLast then "1" else "0") ++ "|" ++ blockCsv chunk.blockIds).toUTF8

/-- A call of `send_notif` and how it ended. -/
structure SendAttempt where
  /-- Who it goes to. -/
  agent : AgentName
  /-- What is sent. -/
  notif : ByteArray
  /-- What the library said. -/
  answer : Except PyError Unit

/-- What a staging pass asks of the outside. -/
inductive StagingCall where
  /-- Copy blocks from the device to the host buffer. -/
  | copyBlocks (reqId : ReqId) (blockIds : List ℕ)
  /-- Call `send_notif`. -/
  | sendNotif (attempt : SendAttempt)

/-- The part of `NixlConnectorWorker` that staging uses. -/
structure Staging (ω : Type*) where
  /-- `_consumer_agent_by_engine`. -/
  consumerAgentByEngine : Dict PyKey AgentName
  /-- `_consumer_engine_by_req`. -/
  consumerEngineByReq : Dict PyKey PyKey
  /-- `_pending_chunk_notifs`. -/
  pendingChunkNotifs : Dict ReqId (List ChunkNotif)
  /-- The state of the NIXL library. -/
  world : ω
  /-- What was asked of the outside so far, oldest first; nothing reads it. -/
  calls : List StagingCall
  /-- The registrations `_register_consumers` was called with so far, oldest first; nothing reads
  them. -/
  registered : List PyObj

/-- What a worker has from its configuration. -/
structure StagingWorker (ω : Type*) where
  /-- The library. -/
  nixl : NixlWrapper ω
  /-- How blocks map to blocks of the device. -/
  kernel : KernelBlocks
  /-- `VLLM_PD_CHUNK_OVERLAP=1`. -/
  chunkOverlapEnabled : Bool

namespace Staging

variable {ω : Type*}

def init (world : ω) : Staging ω where
  consumerAgentByEngine := ∅
  consumerEngineByReq := ∅
  pendingChunkNotifs := ∅
  world
  calls := []
  registered := []

/-- Note a call of `_register_consumers`. -/
def noteRegistrations (staging : Staging ω) (registrations : List PyObj) : Staging ω :=
  { staging with registered := staging.registered ++ registrations }

end Staging

namespace StagingWorker

variable {ω : Type*} (worker : StagingWorker ω)

/-! ## Sending a chunk notif -/

/-- `_resolve_consumer_agent`: the agent of the request's engine, or else the newest agent. -/
def resolveConsumerAgent (staging : Staging ω) (reqId : ReqId) : Option AgentName :=
  match staging.consumerEngineByReq.lookup (.str reqId) with
  | some engine => staging.consumerAgentByEngine.lookup engine
  | none => staging.consumerAgentByEngine.entries.getLast?.map Sigma.snd

/-- `nixl_wrapper.send_notif`. -/
def sendNotif (staging : Staging ω) (agent : AgentName) (notif : ByteArray) :
    Staging ω × Except PyError Unit :=
  match worker.nixl.sendNotif staging.world agent notif with
  | (world, answer) =>
      ({ staging with
          world
          calls := staging.calls ++ [.sendNotif { agent, notif, answer }] }, answer)

/-- Up to `attempts` attempts to send; exceptions are swallowed. -/
def sendAttempts (agent : AgentName) (notif : ByteArray) : ℕ → Staging ω → Staging ω
  | 0, staging => staging
  | attempts + 1, staging =>
      match worker.sendNotif staging agent notif with
      | (staging, .ok ()) => staging
      | (staging, .error _) => sendAttempts agent notif attempts staging

/-- `_send_chunk_ready`: `false` when no agent is known, `true` however the attempts end. -/
def sendChunkReady (staging : Staging ω) (reqId : ReqId) (chunk : ChunkNotif) :
    Staging ω × Bool :=
  match resolveConsumerAgent staging reqId with
  | none => (staging, false)
  | some agent => (worker.sendAttempts agent (chunkReadyNotif reqId chunk) 3 staging, true)

/-- `_notify_chunk_ready`. -/
def notifyChunkReady (staging : Staging ω) (reqId : ReqId) (chunk : ChunkNotif) : Staging ω :=
  match worker.sendChunkReady staging reqId chunk with
  | (staging, true) => staging
  | (staging, false) =>
      { staging with
        pendingChunkNotifs := staging.pendingChunkNotifs.set reqId
          ((staging.pendingChunkNotifs.lookup reqId).getD [] ++ [chunk]) }

/-! ## Registering consumers -/

/-- Add the agent of an engine unless it is known. -/
def ensureAgent (staging : Staging ω) (engine : PyKey) (agentMeta : PyObj) :
    Staging ω × Except PyError Unit :=
  if engine ∈ staging.consumerAgentByEngine then
    (staging, .ok ())
  else
    match worker.nixl.addRemoteAgent staging.world agentMeta with
    | (world, .ok agent) =>
        ({ staging with
            world
            consumerAgentByEngine := staging.consumerAgentByEngine.set engine agent }, .ok ())
    | (world, .error raised) => ({ staging with world }, .error raised)

/-- The loop over `req_ids`; an unhashable id ends it. -/
def mapReqIds (engine : PyKey) : List PyObj → Dict PyKey PyKey → Dict PyKey PyKey
  | [], engineByReq => engineByReq
  | reqId :: reqIds, engineByReq =>
      match reqId.hashKey with
      | .ok key => mapReqIds engine reqIds (engineByReq.set key engine)
      | .error _ => engineByReq

/-- `for rid in reg.get("req_ids", []) or []`. -/
def mapRequests (staging : Staging ω) (registration : PyObj) (engine : PyKey) : Staging ω :=
  match registration.get "req_ids" (.list []) with
  | .error _ => staging
  | .ok reqIds =>
      let reqIds := if reqIds.truthy then reqIds else .list []
      match reqIds.iterate with
      | .error _ => staging
      | .ok reqIds =>
          { staging with
            consumerEngineByReq := mapReqIds engine reqIds staging.consumerEngineByReq }

/-- One turn of the registration loop.  An exception ends the turn, and what the turn did before
it stays. -/
def registerConsumer (staging : Staging ω) (registration : PyObj) : Staging ω :=
  match registration.get "engine_id" .none, registration.get "agent_metadata" .none with
  | .ok engineId, .ok agentMeta =>
      if engineId.isNone || agentMeta.isNone then
        staging
      else
        match engineId.hashKey with
        | .error _ => staging
        | .ok engine =>
            match worker.ensureAgent staging engine agentMeta with
            | (staging, .ok ()) => mapRequests staging registration engine
            | (staging, .error _) => staging
  | _, _ => staging

/-- Send what is buffered for one request; what could not be sent stays in the second part. -/
def flushChunks (reqId : ReqId) :
    List ChunkNotif → Staging ω → Staging ω × List ChunkNotif
  | [], staging => (staging, [])
  | chunk :: chunks, staging =>
      match worker.sendChunkReady staging reqId chunk with
      | (staging, true) => flushChunks reqId chunks staging
      | (staging, false) =>
          let (staging, stillPending) := flushChunks reqId chunks staging
          (staging, chunk :: stillPending)

/-- One turn of the flush loop. -/
def flushRequest (staging : Staging ω) (reqId : ReqId) : Staging ω :=
  let buffered := (staging.pendingChunkNotifs.lookup reqId).getD []
  let (staging, stillPending) := worker.flushChunks reqId buffered staging
  if stillPending.isEmpty then
    { staging with pendingChunkNotifs := staging.pendingChunkNotifs.erase reqId }
  else
    { staging with pendingChunkNotifs := staging.pendingChunkNotifs.set reqId stillPending }

/-- The flush at the end of `_register_consumers`. -/
def flushPending (staging : Staging ω) : Staging ω :=
  if staging.pendingChunkNotifs.entries.isEmpty || staging.consumerAgentByEngine.entries.isEmpty
  then staging
  else staging.pendingChunkNotifs.keys.foldl worker.flushRequest staging

/-- `_register_consumers`. -/
def registerConsumers (staging : Staging ω) (registrations : List PyObj) : Staging ω :=
  worker.flushPending (registrations.foldl worker.registerConsumer
    (staging.noteRegistrations registrations))

/-! ## The steps of a registration or a notif -/

/-- What happens between two copies, one thing at a time. -/
inductive Step : Staging ω → Staging ω → Prop
  | sendNotif (staging : Staging ω) (agent : AgentName) (notif : ByteArray) :
      Step staging (worker.sendNotif staging agent notif).1
  | addRemoteAgent (staging : Staging ω) (agentMeta : PyObj) :
      Step staging
        { staging with world := (worker.nixl.addRemoteAgent staging.world agentMeta).1 }
  | setMaps (staging : Staging ω) (consumerAgentByEngine : Dict PyKey AgentName)
      (consumerEngineByReq : Dict PyKey PyKey)
      (pendingChunkNotifs : Dict ReqId (List ChunkNotif)) :
      Step staging
        { staging with consumerAgentByEngine, consumerEngineByReq, pendingChunkNotifs }

/-- Any number of such steps. -/
abbrev Steps : Staging ω → Staging ω → Prop := Relation.ReflTransGen worker.Step

theorem Step.steps {worker : StagingWorker ω} {staging next : Staging ω}
    (step : worker.Step staging next) : worker.Steps staging next :=
  .single step

theorem sendAttempts_steps (agent : AgentName) (notif : ByteArray) (attempts : ℕ)
    (staging : Staging ω) :
    worker.Steps staging (worker.sendAttempts agent notif attempts staging) := by
  induction attempts generalizing staging with
  | zero => exact .refl
  | succ attempts ih =>
      have first : worker.Step staging (worker.sendNotif staging agent notif).1 :=
        .sendNotif staging agent notif
      rw [sendAttempts]
      split
      · rename_i next sent
        rw [sent] at first
        exact first.steps
      · rename_i next raised refused
        rw [refused] at first
        exact first.steps.trans (ih next)

theorem sendChunkReady_steps (staging : Staging ω) (reqId : ReqId) (chunk : ChunkNotif) :
    worker.Steps staging (worker.sendChunkReady staging reqId chunk).1 := by
  rw [sendChunkReady]
  split
  · exact .refl
  · exact worker.sendAttempts_steps _ _ _ staging

theorem notifyChunkReady_steps (staging : Staging ω) (reqId : ReqId) (chunk : ChunkNotif) :
    worker.Steps staging (worker.notifyChunkReady staging reqId chunk) := by
  have sent := worker.sendChunkReady_steps staging reqId chunk
  rw [notifyChunkReady]
  split
  · rename_i next isSent
    rwa [isSent] at sent
  · rename_i next isKept
    rw [isKept] at sent
    exact sent.tail (.setMaps next _ _ _)

theorem ensureAgent_steps (staging : Staging ω) (engine : PyKey) (agentMeta : PyObj) :
    worker.Steps staging (worker.ensureAgent staging engine agentMeta).1 := by
  have asked : worker.Step staging _ := .addRemoteAgent staging agentMeta
  rw [ensureAgent]
  split
  · exact .refl
  · split
    · rename_i world agent added
      rw [added] at asked
      exact asked.steps.tail (.setMaps _ _ _ _)
    · rename_i world raised refused
      rw [refused] at asked
      exact asked.steps

theorem mapRequests_steps (staging : Staging ω) (registration : PyObj) (engine : PyKey) :
    worker.Steps staging (mapRequests staging registration engine) := by
  rw [mapRequests]
  split
  · exact .refl
  · simp only
    split
    · exact .refl
    · exact Relation.ReflTransGen.single (.setMaps staging _ _ _)

theorem registerConsumer_steps (staging : Staging ω) (registration : PyObj) :
    worker.Steps staging (worker.registerConsumer staging registration) := by
  rw [registerConsumer]
  split
  · rename_i engineId agentMeta _ _
    split
    · exact .refl
    · cases engineId.hashKey with
      | error raised => exact .refl
      | ok engine =>
          have ensured := worker.ensureAgent_steps staging engine agentMeta
          simp only
          split
          · rename_i next isEnsured
            rw [isEnsured] at ensured
            exact ensured.trans (worker.mapRequests_steps next registration engine)
          · rename_i next raised refused
            rwa [refused] at ensured
  · exact .refl

theorem flushChunks_steps (reqId : ReqId) (chunks : List ChunkNotif) (staging : Staging ω) :
    worker.Steps staging (worker.flushChunks reqId chunks staging).1 := by
  induction chunks generalizing staging with
  | nil => exact .refl
  | cons chunk chunks ih =>
      have first := worker.sendChunkReady_steps staging reqId chunk
      rw [flushChunks]
      split
      · rename_i next sent
        rw [sent] at first
        exact first.trans (ih next)
      · rename_i next kept
        rw [kept] at first
        exact first.trans (ih next)

theorem flushRequest_steps (staging : Staging ω) (reqId : ReqId) :
    worker.Steps staging (worker.flushRequest staging reqId) := by
  have flushed := worker.flushChunks_steps reqId
    ((staging.pendingChunkNotifs.lookup reqId).getD []) staging
  rw [flushRequest]
  simp only
  split
  · exact flushed.tail (.setMaps _ _ _ _)
  · exact flushed.tail (.setMaps _ _ _ _)

theorem foldl_steps {α : Type*} {turn : Staging ω → α → Staging ω}
    (each : ∀ staging entry, worker.Steps staging (turn staging entry)) (entries : List α)
    (staging : Staging ω) : worker.Steps staging (entries.foldl turn staging) := by
  induction entries generalizing staging with
  | nil => exact .refl
  | cons entry entries ih => exact (each staging entry).trans (ih _)

theorem registerConsumers_steps (staging : Staging ω) (registrations : List PyObj) :
    worker.Steps (staging.noteRegistrations registrations)
      (worker.registerConsumers staging registrations) := by
  have loop := worker.foldl_steps worker.registerConsumer_steps registrations
    (staging.noteRegistrations registrations)
  rw [registerConsumers, flushPending]
  split
  · exact loop
  · exact loop.trans (worker.foldl_steps worker.flushRequest_steps _ _)

/-! ## Saving -/

/-- The chunk notif for one entry of `reqs_to_save`. -/
def chunkOf (metadata : NixlConnectorMetadata) (reqId : ReqId) (saved : ReqMeta) : ChunkNotif where
  chunkIdx := (metadata.saveChunkIdx.lookup reqId).getD 0
  isLast := (metadata.saveIsLast.lookup reqId).getD false
  blockIds := saved.localBlockIds

/-- One turn of the save loop. -/
def saveRequest (metadata : NixlConnectorMetadata) (staging : Staging ω)
    (entry : Σ _ : ReqId, ReqMeta) : Staging ω :=
  let ⟨reqId, saved⟩ := entry
  let physicalBlockIds := worker.kernel.logicalToKernelBlockIds saved.localBlockIds
  let staging :=
    { staging with calls := staging.calls ++ [.copyBlocks reqId physicalBlockIds] }
  if worker.chunkOverlapEnabled then
    worker.notifyChunkReady staging reqId (chunkOf metadata reqId saved)
  else
    staging

/-- The registration part of `save_kv_to_host`. -/
def registerFrom (staging : Staging ω) (metadata : NixlConnectorMetadata) : Staging ω :=
  if worker.chunkOverlapEnabled then
    worker.registerConsumers staging metadata.consumerRegistrations
  else
    staging

/-- `save_kv_to_host`. -/
def saveKvToHost (staging : Staging ω) (metadata : NixlConnectorMetadata) : Staging ω :=
  metadata.reqsToSave.entries.foldl (worker.saveRequest metadata)
    (worker.registerFrom staging metadata)

/-- `save_kv_to_host` after `count` turns of its loop, where an exception of the copy cuts it
short. -/
def saveKvToHostUpTo (staging : Staging ω) (metadata : NixlConnectorMetadata) (count : ℕ) :
    Staging ω :=
  (metadata.reqsToSave.entries.take count).foldl (worker.saveRequest metadata)
    (worker.registerFrom staging metadata)

/-- The registrations of a metadata that a staging pass registers. -/
def registrationsOf (metadata : NixlConnectorMetadata) : List PyObj :=
  if worker.chunkOverlapEnabled then metadata.consumerRegistrations else []

theorem registerFrom_steps (staging : Staging ω) (metadata : NixlConnectorMetadata) :
    worker.Steps (staging.noteRegistrations (worker.registrationsOf metadata))
      (worker.registerFrom staging metadata) := by
  rw [registerFrom, registrationsOf]
  split
  · exact worker.registerConsumers_steps staging _
  · rw [Staging.noteRegistrations, List.append_nil]

/-! ## What was registered -/

theorem registered_steps {staging next : Staging ω} (steps : worker.Steps staging next) :
    next.registered = staging.registered := by
  induction steps with
  | refl => rfl
  | tail _ step ih => cases step <;> exact ih

theorem registered_saveRequest (metadata : NixlConnectorMetadata) (staging : Staging ω)
    (entry : Σ _ : ReqId, ReqMeta) :
    (worker.saveRequest metadata staging entry).registered = staging.registered := by
  rw [saveRequest]
  split
  · rw [worker.registered_steps (worker.notifyChunkReady_steps _ _ _)]
  · rfl

theorem registered_saveKvToHost (staging : Staging ω) (metadata : NixlConnectorMetadata) :
    (worker.saveKvToHost staging metadata).registered =
      staging.registered ++ worker.registrationsOf metadata := by
  have before : (worker.registerFrom staging metadata).registered =
      staging.registered ++ worker.registrationsOf metadata :=
    worker.registered_steps (worker.registerFrom_steps staging metadata)
  rw [saveKvToHost, ← before]
  generalize worker.registerFrom staging metadata = staging
  induction metadata.reqsToSave.entries generalizing staging with
  | nil => rfl
  | cons entry entries ih => rw [List.foldl_cons, ih, registered_saveRequest]

end StagingWorker

end RduHdi
