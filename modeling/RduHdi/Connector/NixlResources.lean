import RduHdi.Connector.Receiving
import RduHdi.Ledger
import RduHdi.Run

/-!
# What a worker holds of NIXL

A worker acquires transfer handles, prepared lists of descriptors, remote agents and registered
memory, keeps them in its tables and gives them back: a transfer handle when its transfer ends, and
everything else when it shuts down.  Handshakes run on a thread of their own, one rank after
another, while the main thread goes on.
-/

namespace RduHdi

/-- What `nixl_wrapper` gives out. -/
inductive NixlResource where
  /-- A transfer. -/
  | xferHandle (handle : XferHandle)
  /-- A prepared list of descriptors. -/
  | dlistHandle (handle : SideHandle)
  /-- An agent that was added. -/
  | remoteAgent (name : AgentName)
  /-- Registered memory. -/
  | memory (descs : List XferDesc)
  deriving DecidableEq

abbrev NixlLedger := Ledger NixlResource

/-- The operations of NIXL that registration and `shutdown` use.  They do not fail. -/
structure NixlMemory (ω : Type*) where
  /-- `register_memory`. -/
  registerMemory : ω → List XferDesc → ω
  /-- `deregister_memory`. -/
  deregisterMemory : ω → List XferDesc → ω
  /-- `release_dlist_handle`. -/
  releaseDlistHandle : ω → SideHandle → ω
  /-- `remove_remote_agent`. -/
  removeRemoteAgent : ω → AgentName → ω

/-! ## Watching NIXL -/

/-- The library with a ledger of what it gave out and took back. -/
abbrev WatchedNixl (ω : Type*) := Watched ω NixlResource

def NixlHandshaker.watched {ω : Type*} (nixl : NixlHandshaker ω) :
    NixlHandshaker (WatchedNixl ω) where
  addRemoteAgent nixlWorld metadata :=
    Watched.acquiring .remoteAgent nixlWorld.ledger (nixl.addRemoteAgent nixlWorld.world metadata)
  prepXferDlist nixlWorld agent descs :=
    Watched.acquiring .dlistHandle nixlWorld.ledger (nixl.prepXferDlist nixlWorld.world agent descs)

def NixlReader.watched {ω : Type*} (nixl : NixlReader ω) : NixlReader (WatchedNixl ω) where
  sendNotif nixlWorld agent notif :=
    Watched.keeping nixlWorld.ledger (nixl.sendNotif nixlWorld.world agent notif)
  makePreppedXfer nixlWorld localSide localDescs remoteSide remoteDescs notif :=
    Watched.acquiring .xferHandle nixlWorld.ledger
      (nixl.makePreppedXfer nixlWorld.world localSide localDescs remoteSide remoteDescs notif)
  transfer nixlWorld handle :=
    Watched.keeping nixlWorld.ledger (nixl.transfer nixlWorld.world handle)
  releaseXferHandle nixlWorld handle :=
    { world := nixl.releaseXferHandle nixlWorld.world handle
      ledger := nixlWorld.ledger.release (.xferHandle handle) }

def NixlWrapper.watched {ω : Type*} (nixl : NixlWrapper ω) : NixlWrapper (WatchedNixl ω) where
  addRemoteAgent nixlWorld metadata :=
    Watched.acquiring .remoteAgent nixlWorld.ledger (nixl.addRemoteAgent nixlWorld.world metadata)
  sendNotif nixlWorld agent notif :=
    Watched.keeping nixlWorld.ledger (nixl.sendNotif nixlWorld.world agent notif)

def NixlMemory.watched {ω : Type*} (nixl : NixlMemory ω) : NixlMemory (WatchedNixl ω) where
  registerMemory nixlWorld descs :=
    { world := nixl.registerMemory nixlWorld.world descs
      ledger := nixlWorld.ledger.acquire (.memory descs) }
  deregisterMemory nixlWorld descs :=
    { world := nixl.deregisterMemory nixlWorld.world descs
      ledger := nixlWorld.ledger.release (.memory descs) }
  releaseDlistHandle nixlWorld handle :=
    { world := nixl.releaseDlistHandle nixlWorld.world handle
      ledger := nixlWorld.ledger.release (.dlistHandle handle) }
  removeRemoteAgent nixlWorld name :=
    { world := nixl.removeRemoteAgent nixlWorld.world name
      ledger := nixlWorld.ledger.release (.remoteAgent name) }

/-! ## The worker -/

/-- What a worker has from its configuration, with the library it calls. -/
structure NixlConnectorWorker (ω : Type) where
  /-- The part that loads and receives. -/
  receiving : ReceivingWorker ω
  /-- The part that saves to host memory. -/
  staging : StagingWorker ω
  /-- The library, as registration and `shutdown` use it. -/
  memory : NixlMemory ω

/-- The worker on a watched library. -/
def NixlConnectorWorker.watched {ω : Type} (worker : NixlConnectorWorker ω) :
    NixlConnectorWorker (WatchedNixl ω) where
  receiving :=
    { worker.receiving with
      handshakes :=
        { worker.receiving.handshakes with nixl := worker.receiving.handshakes.nixl.watched }
      nixl := worker.receiving.nixl.watched }
  staging := { worker.staging with nixl := worker.staging.nixl.watched }
  memory := worker.memory.watched

/-- A handshake under way. -/
structure Shaking where
  /-- The engine. -/
  engineId : EngineId
  /-- The size of its group. -/
  remoteTpSize : ℕ
  /-- The ranks that are still to be asked. -/
  ranksLeft : List ℕ
  /-- `remote_rank_to_agent_name`: the agents so far. -/
  agents : Dict ℕ AgentName

/-- The part of `NixlConnectorWorker` that has to do with NIXL.  The library is one: its state is in
the tables of the receiving half, and staging works on that. -/
structure NixlConnector (ω : Type) where
  /-- What loading and receiving change. -/
  receiving : Receiving ω
  /-- What saving to host memory changes. -/
  staging : Staging ω
  /-- `_registered_descs`. -/
  registeredDescs : List (List XferDesc)
  /-- The thread of the handshakes does one at a time. -/
  shaking : Option Shaking

def NixlConnector.world {ω : Type} (connector : NixlConnector ω) : ω :=
  connector.receiving.tables.world

/-- Let the staging half do something. -/
def NixlConnector.onStaging {ω : Type} (connector : NixlConnector ω)
    (work : Staging ω → Staging ω) : NixlConnector ω :=
  let staging := work { connector.staging with world := connector.world }
  { connector with
    receiving :=
      { connector.receiving with
        tables := { connector.receiving.tables with world := staging.world } }
    staging }

/-- What happens to a worker.  The turns of `start_load_kv` are events of their own, so that the
handshakes go on between them. -/
inductive NixlEvent where
  /-- One turn of the loop over `reqs_to_recv`. -/
  | loadRequest (reqId : ReqId) (saved : ReqMeta)
  /-- The loop over `_ready_requests`. -/
  | readReady
  /-- The thread takes up a handshake that is waited for. -/
  | handshakeBegins (engineId : EngineId)
  /-- The next rank of the handshake answers. -/
  | handshakeRank (answer : Except PyError HandshakePayload)
  /-- All ranks have answered, and the callbacks run. -/
  | handshakeEnds
  /-- `get_finished`. -/
  | getFinished (checks : XferHandle → XferCheck) (order : SetOrder)
  /-- `get_block_ids_with_load_errors`. -/
  | getBlockIdsWithLoadErrors
  /-- `save_kv_to_host`. -/
  | saveKvToHost (metadata : NixlConnectorMetadata)

/-- What still happens once `shutdown` was called.  It does not wait for the thread of the
handshakes, which goes on with the one that is under way and with those that are waited for. -/
inductive ShutEvent where
  /-- `shutdown` is called again. -/
  | shutdown
  /-- The thread takes up a handshake that is waited for. -/
  | handshakeBegins (engineId : EngineId)
  /-- The next rank of the handshake answers. -/
  | handshakeRank (answer : Except PyError HandshakePayload)
  /-- All ranks have answered, and the callbacks run. -/
  | handshakeEnds

/-- One turn of the loop of `_nixl_handshake`. -/
def HandshakeWorker.shakeRank {ω : Type} (worker : HandshakeWorker ω)
    (answer : Except PyError HandshakePayload) (expectedEngineId : EngineId)
    (remoteTpRank remoteTpSize : ℕ) : Attempt PyError (Handshakes ω) AgentName := do
  let payload ← Attempt.lift answer
  let agent ← Attempt.lift (worker.checkPayload expectedEngineId payload)
  worker.addRemoteAgent agent remoteTpRank remoteTpSize

namespace NixlConnectorWorker

variable {ω : Type} (worker : NixlConnectorWorker ω)

/-! ## Registration -/

/-- A worker before its caches are registered. -/
def init (blockSize : ℕ) (world : ω) : NixlConnector ω where
  receiving := .init (.init worker.receiving.handshakes.engineId
    worker.receiving.handshakes.worldSize blockSize world)
  staging := .init world
  registeredDescs := []
  shaking := none

/-- What `register_kv_caches` does with the layout it found out. -/
def registerKvCaches (connector : NixlConnector ω) : NixlConnector ω × Except PyError PUnit :=
  let descs := worker.receiving.handshakes.caches.cachesData
  let world := worker.memory.registerMemory connector.world descs
  match worker.receiving.handshakes.registerOwn { connector.receiving.tables with world } with
  | (tables, result) =>
      ({ connector with
          receiving := { connector.receiving with tables }
          registeredDescs := connector.registeredDescs ++ [descs] }, result)

/-! ## Events -/

/-- A handshake is over, and its callbacks run. -/
def handshakeOver (connector : NixlConnector ω) (engineId : EngineId) (tables : Handshakes ω)
    (outcome : Except PyError (Dict ℕ AgentName)) : NixlConnector ω :=
  let waiting :=
    ((connector.receiving.handshakeFutures.lookup engineId).map HandshakeFuture.waiting).getD []
  { connector with
    receiving :=
      ReceivingWorker.runCallbacks { connector.receiving with tables } engineId waiting outcome
    shaking := none }

/-- The thread takes up a handshake. -/
def handshakeBegins (connector : NixlConnector ω) (engineId : EngineId) (remoteTpSize : ℕ) :
    NixlConnector ω :=
  match worker.receiving.handshakes.rules.targetRemoteRanks worker.receiving.handshakes.tpRank
    worker.receiving.handshakes.worldSize remoteTpSize with
  | .ok ranksLeft =>
      { connector with shaking := some { engineId, remoteTpSize, ranksLeft, agents := ∅ } }
  | .error raised => handshakeOver connector engineId connector.receiving.tables (.error raised)

/-- The next rank of a handshake. -/
def handshakeRank (connector : NixlConnector ω) (shaking : Shaking) (rank : ℕ) (ranks : List ℕ)
    (answer : Except PyError HandshakePayload) : NixlConnector ω :=
  match worker.receiving.handshakes.shakeRank answer shaking.engineId rank shaking.remoteTpSize
    connector.receiving.tables with
  | (tables, .ok name) =>
      { connector with
        receiving := { connector.receiving with tables }
        shaking := some
          { shaking with ranksLeft := ranks, agents := shaking.agents.set rank name } }
  | (tables, .error raised) => handshakeOver connector shaking.engineId tables (.error raised)

/-- All ranks have answered. -/
def handshakeEnds (connector : NixlConnector ω) (shaking : Shaking) : NixlConnector ω :=
  handshakeOver connector shaking.engineId connector.receiving.tables (.ok shaking.agents)

/-- What an event does; some cannot happen in some states.  An exception leaves what was done
before it. -/
def step (connector : NixlConnector ω) : NixlEvent → Except Unit (NixlConnector ω)
  | .loadRequest reqId saved =>
      .ok { connector with
        receiving := (worker.receiving.loadRequest connector.receiving reqId saved).1 }
  | .readReady =>
      .ok { connector with
        receiving :=
          (worker.receiving.readReady connector.receiving.readyRequests connector.receiving).1 }
  | .handshakeBegins engineId =>
      match connector.shaking, connector.receiving.handshakeFutures.lookup engineId with
      | none, some future => .ok (worker.handshakeBegins connector engineId future.tpSize)
      | _, _ => .error ()
  | .handshakeRank answer =>
      match connector.shaking with
      | some ⟨engineId, remoteTpSize, rank :: ranks, agents⟩ =>
          .ok (worker.handshakeRank connector ⟨engineId, remoteTpSize, rank :: ranks, agents⟩ rank
            ranks answer)
      | _ => .error ()
  | .handshakeEnds =>
      match connector.shaking with
      | some ⟨engineId, remoteTpSize, [], agents⟩ =>
          .ok (handshakeEnds connector ⟨engineId, remoteTpSize, [], agents⟩)
      | _ => .error ()
  | .getFinished checks order =>
      .ok { connector with
        receiving := (worker.receiving.getFinished connector.receiving checks order).1 }
  | .getBlockIdsWithLoadErrors =>
      .ok { connector with
        receiving := (ReceivingWorker.getBlockIdsWithLoadErrors connector.receiving).1 }
  | .saveKvToHost metadata =>
      .ok (connector.onStaging fun staging => worker.staging.saveKvToHost staging metadata)

/-! ## Shutting down -/

/-- `shutdown`, after it has told the executor of the handshakes to take no more. -/
def shutdown (connector : NixlConnector ω) : NixlConnector ω :=
  let receiving := connector.receiving
  let tables := receiving.tables
  let world := (receiving.reading.recvingTransfers.entries.flatMap Sigma.snd).foldl
    worker.receiving.nixl.releaseXferHandle tables.world
  let world := (tables.srcXferHandlesByBlockSize.entries.map Sigma.snd).foldl
    worker.memory.releaseDlistHandle world
  let world := (tables.srcXferHandlesByTpRatio.entries.flatMap Sigma.snd).foldl
    worker.memory.releaseDlistHandle world
  let world := (tables.dstXferSideHandles.entries.flatMap fun sides =>
    sides.2.entries.map Sigma.snd).foldl worker.memory.releaseDlistHandle world
  let world := (tables.remoteAgents.entries.flatMap fun agents =>
    agents.2.entries.map Sigma.snd).foldl worker.memory.removeRemoteAgent world
  let world := connector.registeredDescs.foldl worker.memory.deregisterMemory world
  { connector with
    receiving :=
      { receiving with
        reading := { receiving.reading with recvingTransfers := ∅ }
        tables :=
          { tables with
            srcXferHandlesByBlockSize := ∅
            srcXferHandlesByTpRatio := ∅
            dstXferSideHandles := ∅
            remoteAgents := ∅
            world } }
    registeredDescs := [] }

/-- What an event after the first call does. -/
def shutStep (connector : NixlConnector ω) : ShutEvent → Except Unit (NixlConnector ω)
  | .shutdown => .ok (worker.shutdown connector)
  | .handshakeBegins engineId => worker.step connector (.handshakeBegins engineId)
  | .handshakeRank answer => worker.step connector (.handshakeRank answer)
  | .handshakeEnds => worker.step connector .handshakeEnds

end NixlConnectorWorker

end RduHdi
