import RduHdi.Connector.NotifyOnly
import RduHdi.Connector.ReceiveAll
import RduHdi.Connector.RemotePrefill

/-!
# The consumer's side as a whole

The scheduler side of a decode engine, the metadata on their way, and its worker.  A request for
which `get_num_new_matched_tokens` promises tokens waits until the worker reports it.  This file
follows its receive from the promise to the worker: it is pending, in one metadata on its way, or
loaded.  The receives of the requests that wait read blocks, and all others have none.
-/

namespace RduHdi

/-- A handshake ends with what the remote ranks answered. -/
structure HandshakeEnd where
  /-- The engine of the handshake. -/
  engineId : EngineId
  /-- What each rank answered. -/
  answers : ℕ → Except PyError HandshakePayload

def HandshakeEnd.turn (ending : HandshakeEnd) : LoadTurn :=
  .handshakeDone ending.engineId ending.answers

/-- The turns of the loop of `start_load_kv` over `reqs_to_recv`, with the handshakes that end
before each turn. -/
def loadTurns (endings : ℕ → List HandshakeEnd) : ℕ → List (Σ _ : ReqId, ReqMeta) → List LoadTurn
  | turn, [] => (endings turn).map HandshakeEnd.turn
  | turn, ⟨reqId, saved⟩ :: entries =>
      (endings turn).map HandshakeEnd.turn ++
        .request reqId saved :: loadTurns endings (turn + 1) entries

/-- The receives in the metadata. -/
def NixlConnectorMetadata.receives (metadata : NixlConnectorMetadata) : List (ReqId × ReqMeta) :=
  metadata.reqsToRecv.entries.map fun entry => (entry.1, entry.2)

/-- The metadata a call hands to the workers. -/
def ServedScheduler.metadataOf (config : SchedulerConfig) (served : ServedScheduler) :
    ServeEvent → List NixlConnectorMetadata
  | .build output => served.scheduler.metadataOf config (.build output)
  | _ => []

structure ConsumerSystem (ω : Type) where
  /-- The scheduler side, and what vLLM keeps of the requests. -/
  served : ServedScheduler
  /-- Metadata built and not yet given to the worker, oldest first. -/
  wire : List NixlConnectorMetadata
  /-- The worker. -/
  receiving : Receiving ω

inductive ConsumerEvent where
  | serve (event : ServeEvent)
  /-- The worker starts the step of the oldest metadata. -/
  | startLoadKv (endings : ℕ → List HandshakeEnd)
  | handshakeDone (ending : HandshakeEnd)
  | getFinished (checks : XferHandle → XferCheck) (order : SetOrder)
  | getBlockIdsWithLoadErrors

/-- Which party raised. -/
inductive ConsumerFailure where
  | scheduler (raised : PyError)
  | worker (raised : ReceiveError)

namespace ConsumerSystem

variable {ω : Type}

def init (requests : RequestTable) (tables : Handshakes ω) : ConsumerSystem ω where
  served := .start requests
  wire := []
  receiving := .init tables

/-- The worker does something. -/
def work (worker : ReceivingWorker ω) (system : ConsumerSystem ω) (event : ReceiveEvent) :
    Except ConsumerFailure (ConsumerSystem ω) :=
  match worker.step system.receiving event with
  | .ok receiving => .ok { system with receiving }
  | .error raised => .error (.worker raised)

/-- Take one event; without metadata on the way the worker does not start a step. -/
def step (config : SchedulerConfig) (worker : ReceivingWorker ω) (system : ConsumerSystem ω) :
    ConsumerEvent → Except ConsumerFailure (ConsumerSystem ω)
  | .serve call =>
      match system.served.step config call with
      | .ok served =>
          .ok
            { system with
              served
              wire := system.wire ++ system.served.metadataOf config call }
      | .error raised => .error (.scheduler raised)
  | .startLoadKv endings =>
      match system.wire with
      | [] => .ok system
      | metadata :: wire =>
          { system with wire }.work worker
            (.startLoadKv (loadTurns endings 0 metadata.reqsToRecv.entries))
  | .handshakeDone ending => system.work worker (.handshakeDone ending.engineId ending.answers)
  | .getFinished checks order => system.work worker (.getFinished checks order)
  | .getBlockIdsWithLoadErrors => system.work worker .getBlockIdsWithLoadErrors

/-- What the worker does at an event. -/
def workerEvents (system : ConsumerSystem ω) : ConsumerEvent → List ReceiveEvent
  | .serve _ => []
  | .startLoadKv endings =>
      match system.wire with
      | [] => []
      | metadata :: _ => [.startLoadKv (loadTurns endings 0 metadata.reqsToRecv.entries)]
  | .handshakeDone ending => [.handshakeDone ending.engineId ending.answers]
  | .getFinished checks order => [.getFinished checks order]
  | .getBlockIdsWithLoadErrors => [.getBlockIdsWithLoadErrors]

/-- The requests that vLLM lets wait at an event. -/
def parks (system : ConsumerSystem ω) : ConsumerEvent → List ReqId
  | .serve (.schedule reqId numComputedTokens _ _) =>
      if (NixlConnectorScheduler.getNumNewMatchedTokens (system.served.requests.request reqId)
        numComputedTokens).2 then [reqId] else []
  | _ => []

/-- A request that waits has the keys of its producer, its blocks are not saved, and it was given
blocks for the promised tokens. -/
def Fulfils (config : SchedulerConfig) (system : ConsumerSystem ω) : ConsumerEvent → Prop
  | .serve (.schedule reqId numComputedTokens unhashedBlockIds _) =>
      let params := (system.served.requests.request reqId).kvTransferParams
      system.served.Parks reqId numComputedTokens →
        NixlConnectorScheduler.hasRemoteKeys params ∧
          ¬ (config.useHostBuffer ∧ params.doRemoteDecode) ∧ unhashedBlockIds ≠ []
  | _ => True

/-- When `get_finished` asks, no transfer goes on of a request that failed. -/
def Quiet (system : ConsumerSystem ω) : ConsumerEvent → Prop
  | .getFinished checks _ => ReceivingWorker.FailedEnded system.receiving.reading checks
  | _ => True

/-- The receive of a request is pending, in metadata on their way, or waits in the worker. -/
def Underway (system : ConsumerSystem ω) (reqId : ReqId) : Prop :=
  reqId ∈ system.served.pending ∨ (∃ metadata ∈ system.wire, reqId ∈ metadata.reqsToRecv) ∨
    reqId ∈ system.receiving.pending.map Prod.fst

end ConsumerSystem

/-! ## One call of the scheduler side -/

theorem loads_loadTurns (endings : ℕ → List HandshakeEnd) (turn : ℕ)
    (entries : List (Σ _ : ReqId, ReqMeta)) :
    (loadTurns endings turn entries).flatMap LoadTurn.loads =
      entries.map fun entry => (entry.1, entry.2) := by
  have silent (turn : ℕ) :
      ((endings turn).map HandshakeEnd.turn).flatMap LoadTurn.loads = [] := by
    rw [List.flatMap_map]
    exact List.flatMap_eq_nil_iff.mpr fun _ _ => rfl
  induction entries generalizing turn with
  | nil => exact silent turn
  | cons entry entries ih =>
      rw [loadTurns, List.flatMap_append, silent, List.nil_append, List.flatMap_cons, ih,
        List.map_cons]
      rfl

namespace ServedScheduler

open NixlConnectorScheduler

variable {config : SchedulerConfig} {served next : ServedScheduler}

/-- Some blocks are to be read into some blocks. -/
def Reads (request : Request) (blockIds : List ℕ) : Prop :=
  blockIds ≠ [] ∧ request.kvTransferParams.remoteBlockIds.getD [] ≠ []

/-- What a call but a build does to the pending receives: when it lets a request wait, a receive
enters that reads blocks, and otherwise only a receive without blocks may enter. -/
inductive Parked (served next : ServedScheduler) : List ReqId → Prop where
  /-- A request may lose its flag. -/
  | stays (same : next.scheduler.reqsNeedRecv = served.scheduler.reqsNeedRecv)
      (flags : ∀ reqId, (next.requests.request reqId).kvTransferParams.doRemotePrefill →
        (served.requests.request reqId).kvTransferParams.doRemotePrefill) :
      Parked served next []
  | notifies (reqId : ReqId)
      (flagged : (served.requests.request reqId).kvTransferParams.doRemotePrefill)
      (put : next.scheduler.reqsNeedRecv =
        served.scheduler.reqsNeedRecv.set reqId (served.requests.request reqId, []))
      (left : next.requests =
        served.requests.put (clearRemotePrefill (served.requests.request reqId))) :
      Parked served next []
  | waits (reqId : ReqId) (blockIds : List ℕ)
      (flagged : (served.requests.request reqId).kvTransferParams.doRemotePrefill)
      (reads : Reads (served.requests.request reqId) blockIds)
      (put : next.scheduler.reqsNeedRecv =
        served.scheduler.reqsNeedRecv.set reqId (served.requests.request reqId, blockIds))
      (left : next.requests =
        served.requests.put (clearRemotePrefill (served.requests.request reqId))) :
      Parked served next [reqId]

/-- A receive without external tokens has no blocks. -/
theorem needRecv_zero_put {scheduler received : NixlConnectorScheduler} {request : Request}
    {unhashedBlockIds : List ℕ}
    (taken : scheduler.needRecv request unhashedBlockIds 0 = .ok received) :
    received.reqsNeedRecv = scheduler.reqsNeedRecv ∨ received.reqsNeedRecv =
      scheduler.reqsNeedRecv.set request.requestId (request, []) := by
  rw [needRecv] at taken
  simp only at taken
  split at taken
  · rw [if_pos trivial] at taken
    cases taken
    exact .inl rfl
  · split at taken
    · cases taken
      exact .inr rfl
    · cases taken
      exact .inl rfl

theorem needRecv_put {scheduler received : NixlConnectorScheduler} {request : Request}
    {unhashedBlockIds : List ℕ} {numExternalTokens : ℕ}
    (keys : hasRemoteKeys request.kvTransferParams) (some_token : 0 < numExternalTokens)
    (taken : scheduler.needRecv request unhashedBlockIds numExternalTokens = .ok received) :
    request.kvTransferParams.remoteBlockIds.getD [] ≠ [] ∧ received.reqsNeedRecv =
      scheduler.reqsNeedRecv.set request.requestId (request, unhashedBlockIds) := by
  rw [needRecv] at taken
  simp only at taken
  split at taken
  · rw [if_neg (Nat.ne_of_gt some_token)] at taken
    cases taken
  · rename_i some_block
    cases taken
    exact ⟨fun none_left => some_block (List.isEmpty_iff.mpr none_left), rfl⟩

theorem reqsNeedRecv_track (scheduler : NixlConnectorScheduler) (request : Request) (now : ℚ) :
    (if request.kvTransferParams.doRemoteDecode then scheduler.trackRemoteDecode request now
      else scheduler).reqsNeedRecv = scheduler.reqsNeedRecv := by
  split
  · rfl
  · rfl

theorem allocate_zero_parked {reqId : ReqId} {unhashedBlockIds : List ℕ} {now : ℚ}
    (taken : served.allocate config reqId unhashedBlockIds 0 now = .ok next) :
    Parked served next [] := by
  obtain ⟨⟨scheduler, after⟩, allocated, rfl⟩ := Run.map_eq_ok.mp taken
  have tracked := reqsNeedRecv_track served.scheduler (served.requests.request reqId) now
  rw [updateStateAfterAlloc] at allocated
  split at allocated
  · cases allocated
    exact .stays tracked (flag_put_of_eq (.inl rfl))
  · split at allocated
    · rename_i flagged
      obtain ⟨received, needed, same⟩ := Run.map_eq_ok.mp allocated
      cases same
      rcases needRecv_zero_put needed with same | put
      · exact .stays (same.trans tracked) (flag_put_of_eq (.inr rfl))
      · rw [tracked, served.requests.requestId_request] at put
        exact .notifies reqId flagged put rfl
    · cases allocated
      exact .stays tracked (flag_put_of_eq (.inl rfl))

theorem allocate_parked {reqId : ReqId} {unhashedBlockIds : List ℕ} {numExternalTokens : ℕ}
    {now : ℚ} (flagged : (served.requests.request reqId).kvTransferParams.doRemotePrefill)
    (keys : hasRemoteKeys (served.requests.request reqId).kvTransferParams)
    (received : ¬ (config.useHostBuffer ∧
      (served.requests.request reqId).kvTransferParams.doRemoteDecode))
    (some_block : unhashedBlockIds ≠ []) (some_token : 0 < numExternalTokens)
    (taken : served.allocate config reqId unhashedBlockIds numExternalTokens now = .ok next) :
    Parked served next [reqId] := by
  obtain ⟨⟨scheduler, after⟩, allocated, rfl⟩ := Run.map_eq_ok.mp taken
  have tracked := reqsNeedRecv_track served.scheduler (served.requests.request reqId) now
  rw [updateStateAfterAlloc, if_neg (by rwa [Bool.and_eq_true]), if_pos flagged] at allocated
  obtain ⟨after, needed, same⟩ := Run.map_eq_ok.mp allocated
  cases same
  obtain ⟨some_remote, put⟩ := needRecv_put keys some_token needed
  rw [tracked, served.requests.requestId_request] at put
  exact .waits reqId unhashedBlockIds flagged ⟨some_block, some_remote⟩ put rfl

/-- The metadata has the blocks of a receive. -/
structure HandsOver (request : Request) (blockIds : List ℕ) (saved : ReqMeta) : Prop where
  /-- The local blocks are those that were allocated. -/
  localBlocks : saved.localBlockIds = blockIds
  /-- The remote blocks are those of the request. -/
  remoteBlocks : ∀ remote, saved.remote = some remote →
    request.kvTransferParams.remoteBlockIds = some remote.blockIds

theorem HandsOver.readsBlocks {request : Request} {blockIds : List ℕ} {saved : ReqMeta}
    (hands : HandsOver request blockIds saved) (reads : Reads request blockIds) :
    saved.ReadsBlocks where
  left := hands.localBlocks ▸ reads.1
  right remote isRemote := by
    have some_block := reads.2
    rwa [hands.remoteBlocks remote isRemote] at some_block

theorem addNewReqToRecv_handsOver {metadata received : NixlConnectorMetadata} {reqId : ReqId}
    {request : Request} {blockIds : List ℕ}
    (taken : metadata.addNewReqToRecv reqId blockIds request.kvTransferParams = .ok received) :
    ∃ saved, received.reqsToRecv = metadata.reqsToRecv.set reqId saved ∧
      HandsOver request blockIds saved := by
  rw [NixlConnectorMetadata.addNewReqToRecv] at taken
  split at taken
  · rename_i remoteBlocks engineId remoteRequestId host port isBlocks _ _ _ _
    cases taken
    refine ⟨_, rfl, rfl, fun remote isRemote => ?_⟩
    cases isRemote
    exact isBlocks
  · cases taken

/-- What the receive loop puts into the metadata hands over its entries. -/
theorem recvLoop_handsOver {entries : List (Σ _ : ReqId, Request × List ℕ)}
    {metadata received : NixlConnectorMetadata}
    (taken : recvLoop metadata entries = .ok received) {reqId : ReqId} {saved : ReqMeta}
    (isSaved : received.reqsToRecv.lookup reqId = some saved) :
    metadata.reqsToRecv.lookup reqId = some saved ∨ ∃ request blockIds,
      ⟨reqId, request, blockIds⟩ ∈ entries ∧ HandsOver request blockIds saved := by
  induction entries generalizing metadata with
  | nil =>
      cases taken
      exact .inl isSaved
  | cons entry entries ih =>
      obtain ⟨other, request, blockIds⟩ := entry
      rw [recvLoop] at taken
      split at taken
      · rename_i middle added
        obtain ⟨put, isPut, hands⟩ := addNewReqToRecv_handsOver added
        rcases ih taken with earlier | ⟨later, laterBlocks, member, laterHands⟩
        · rw [isPut] at earlier
          by_cases same : reqId = other
          · subst same
            obtain rfl := Option.some.inj (AList.lookup_set.symm.trans earlier)
            exact .inr ⟨request, blockIds, List.mem_cons_self, hands⟩
          · exact .inl ((AList.lookup_set_ne same).symm.trans earlier)
        · exact .inr ⟨later, laterBlocks, List.mem_cons_of_mem _ member, laterHands⟩
      · cases taken

theorem buildConnectorMeta_handsOver {scheduler built : NixlConnectorScheduler}
    {output : SchedulerOutput} {metadata : NixlConnectorMetadata}
    (taken : scheduler.buildConnectorMeta config output = .ok (built, metadata)) {reqId : ReqId}
    {saved : ReqMeta} (isSaved : metadata.reqsToRecv.lookup reqId = some saved) :
    ∃ request blockIds, scheduler.reqsNeedRecv.lookup reqId = some (request, blockIds) ∧
      HandsOver request blockIds saved := by
  obtain ⟨received, looped, both⟩ := buildConnectorMeta_eq_ok taken
  obtain ⟨_, rfl⟩ := Prod.mk.inj both
  have kept := reqsToRecv_saveLoop config (scheduler, received) output.reqData
  have isSaved : received.reqsToRecv.lookup reqId = some saved :=
    (congrArg (AList.lookup reqId) kept).symm.trans isSaved
  rcases recvLoop_handsOver looped isSaved with never | ⟨request, blockIds, member, hands⟩
  · cases never
  · exact ⟨request, blockIds, AList.mem_lookup_iff.mpr member, hands⟩

end ServedScheduler

namespace ConsumerSystem

open NixlConnectorScheduler

variable {ω : Type} {config : SchedulerConfig} {system : ConsumerSystem ω}
  {served : ServedScheduler}

/-- **What a call but a build does.** -/
theorem serve_parked {call : ServeEvent} (fulfils : system.Fulfils config (.serve call))
    (notBuild : ∀ output, call ≠ .build output)
    (taken : system.served.step config call = .ok served) :
    system.served.Parked served (system.parks (.serve call)) := by
  cases call with
  | query reqId numComputedTokens =>
      cases taken
      exact .stays rfl fun _ flagged => flagged
  | schedule reqId numComputedTokens unhashedBlockIds now =>
      rw [parks]
      split
      · rename_i parked
        obtain ⟨keys, received, some_block⟩ := fulfils parked
        have some_token : 0 < (getNumNewMatchedTokens (system.served.requests.request reqId)
            numComputedTokens).1 := by
          rw [getNumNewMatchedTokens] at parked ⊢
          split at parked
          · rename_i flagged
            rw [if_pos flagged]
            simp only at parked ⊢
            split at parked
            · rename_i some_left
              rwa [if_pos some_left]
            · cases parked
          · cases parked
        exact ServedScheduler.allocate_parked (ServedScheduler.flagged_of_parks parked) keys
          received some_block some_token taken
      · rename_i free
        rw [ServedScheduler.step, ServedScheduler.getNumNewMatchedTokens_of_not_parks free] at taken
        exact ServedScheduler.allocate_zero_parked taken
  | resume reqId unhashedBlockIds now => exact ServedScheduler.allocate_zero_parked taken
  | finish reqId status blockIds now =>
      cases taken
      rcases ServedScheduler.requestFinished_recv config system.served.scheduler
        (system.served.requests.request reqId) status blockIds now with
        ⟨same, left⟩ | ⟨flagged, left, put⟩
      · exact .stays same (ServedScheduler.flag_put_of_eq (.inl left))
      · rw [system.served.requests.requestId_request] at put
        exact .notifies reqId flagged put (congrArg system.served.requests.put left)
  | build output => exact absurd rfl (notBuild output)

/-! ## Where a receive is -/

/-- The requests whose receives are pending, on their way, or loaded. -/
def receivers (system : ConsumerSystem ω) (loads : List (ReqId × ReqMeta)) : List ReqId :=
  system.served.pending ++
    (system.wire.flatMap NixlConnectorMetadata.receives ++ loads).map Prod.fst

theorem mem_receivers_iff {loads : List (ReqId × ReqMeta)} {reqId : ReqId} :
    reqId ∈ system.receivers loads ↔ reqId ∈ system.served.pending ∨
      (∃ metadata ∈ system.wire, reqId ∈ metadata.reqsToRecv) ∨ reqId ∈ loads.map Prod.fst := by
  have sent : reqId ∈ (system.wire.flatMap NixlConnectorMetadata.receives).map Prod.fst ↔
      ∃ metadata ∈ system.wire, reqId ∈ metadata.reqsToRecv := by
    rw [List.map_flatMap, List.mem_flatMap]
    refine exists_congr fun metadata => and_congr_right fun _ => ?_
    rw [NixlConnectorMetadata.receives, List.map_map]
    exact AList.mem_keys.symm
  rw [receivers, List.map_append, List.mem_append, List.mem_append, sent]

/-- Each receive is in one place, and its request has lost its flag.  Every request that waits has
a receive; the receives of those that wait read blocks, and the others have none. -/
structure Tracks (parked : List ReqId) (loads : List (ReqId × ReqMeta))
    (system : ConsumerSystem ω) : Prop where
  /-- The receive of a request is in one place. -/
  nodup : (system.receivers loads).Nodup
  /-- Who has a receive is not told to wait again. -/
  unflagged : ∀ reqId ∈ system.receivers loads,
    (system.served.requests.request reqId).kvTransferParams.doRemotePrefill = false
  /-- No request waits twice. -/
  parked_nodup : parked.Nodup
  /-- Who waits has a receive. -/
  parked_receive : ∀ reqId ∈ parked, reqId ∈ system.receivers loads
  /-- A pending receive can be loaded. -/
  pending : ∀ reqId request blockIds,
    system.served.scheduler.reqsNeedRecv.lookup reqId = some (request, blockIds) →
      (reqId ∈ parked → ServedScheduler.Reads request blockIds) ∧ (reqId ∉ parked → blockIds = [])
  /-- Who waits has blocks to read, and nobody else has. -/
  loaded : ∀ load ∈ system.wire.flatMap NixlConnectorMetadata.receives ++ loads,
    (load.1 ∈ parked → load.2.ReadsBlocks) ∧ (load.1 ∉ parked → load.2.localBlockIds = [])

namespace Tracks

variable {parked now : List ReqId} {loads : List (ReqId × ReqMeta)} {next : ConsumerSystem ω}

theorem init (requests : RequestTable) (tables : Handshakes ω) :
    Tracks [] [] (ConsumerSystem.init requests tables) where
  nodup := List.nodup_nil
  unflagged := nofun
  parked_nodup := List.nodup_nil
  parked_receive := nofun
  pending _ _ _ known := by cases known
  loaded := nofun

theorem loads_nodup (tracks : Tracks parked loads system) : (loads.map Prod.fst).Nodup := by
  have distinct := tracks.nodup
  rw [receivers, List.map_append] at distinct
  obtain ⟨_, received, _⟩ := List.nodup_append.mp distinct
  exact (List.nodup_append.mp received).2.1

theorem fresh (tracks : Tracks parked loads system) {reqId : ReqId}
    (flagged : (system.served.requests.request reqId).kvTransferParams.doRemotePrefill) :
    reqId ∉ system.receivers loads := by
  intro member
  rw [tracks.unflagged reqId member] at flagged
  cases flagged

theorem stays (tracks : Tracks parked loads system) (sameWire : next.wire = system.wire)
    (same : next.served.scheduler.reqsNeedRecv = system.served.scheduler.reqsNeedRecv)
    (flags : ∀ reqId, (next.served.requests.request reqId).kvTransferParams.doRemotePrefill →
      (system.served.requests.request reqId).kvTransferParams.doRemotePrefill) :
    Tracks parked loads next := by
  have receivers_eq : next.receivers loads = system.receivers loads := by
    rw [receivers, receivers, ServedScheduler.pending, same, sameWire]
    rfl
  exact
    { nodup := by rw [receivers_eq]; exact tracks.nodup
      unflagged := fun reqId member => by
        rw [receivers_eq] at member
        exact Bool.eq_false_iff.mpr fun flagged => tracks.fresh (flags reqId flagged) member
      parked_nodup := tracks.parked_nodup
      parked_receive := by rw [receivers_eq]; exact tracks.parked_receive
      pending := by rw [same]; exact tracks.pending
      loaded := by rw [sameWire]; exact tracks.loaded }

theorem enters (tracks : Tracks parked loads system) (sameWire : next.wire = system.wire)
    {reqId : ReqId} {blockIds : List ℕ}
    (flagged : (system.served.requests.request reqId).kvTransferParams.doRemotePrefill)
    (put : next.served.scheduler.reqsNeedRecv = system.served.scheduler.reqsNeedRecv.set reqId
      (system.served.requests.request reqId, blockIds))
    (left : next.served.requests = system.served.requests.put
      (clearRemotePrefill (system.served.requests.request reqId)))
    (blocks : now = [reqId] ∧
        ServedScheduler.Reads (system.served.requests.request reqId) blockIds ∨
      now = [] ∧ blockIds = []) :
    Tracks (parked ++ now) loads next := by
  have fresh := tracks.fresh flagged
  have unparked : reqId ∉ parked := fun member => fresh (tracks.parked_receive reqId member)
  have others {other : ReqId} (different : other ≠ reqId) :
      other ∈ parked ++ now ↔ other ∈ parked := by
    rcases blocks with ⟨rfl, _⟩ | ⟨rfl, _⟩
    · simp [different]
    · simp
  have notPending : reqId ∉ system.served.scheduler.reqsNeedRecv := fun member =>
    fresh (List.mem_append_left _ (AList.mem_keys.mp member))
  have receivers_perm : (next.receivers loads).Perm (reqId :: system.receivers loads) := by
    rw [receivers, receivers, ServedScheduler.pending, put, sameWire,
      AList.keys_set_of_notMem notPending, List.append_assoc]
    exact List.perm_middle
  refine
    { nodup := receivers_perm.nodup_iff.mpr (List.nodup_cons.mpr ⟨fresh, tracks.nodup⟩)
      unflagged := fun other member => ?_
      parked_nodup := ?_
      parked_receive := fun other member => ?_
      pending := fun other request found known => ?_
      loaded := ?_ }
  · have name : (clearRemotePrefill (system.served.requests.request reqId)).requestId = reqId :=
      system.served.requests.requestId_request reqId
    rw [left, RequestTable.request_put, name]
    rcases List.mem_cons.mp (receivers_perm.mem_iff.mp member) with rfl | earlier
    · rw [if_pos rfl]
      rfl
    · have different : other ≠ reqId := by
        rintro rfl
        exact fresh earlier
      rw [if_neg different]
      exact tracks.unflagged other earlier
  · rcases blocks with ⟨rfl, _⟩ | ⟨rfl, _⟩
    · exact tracks.parked_nodup.append (List.nodup_singleton reqId)
        (List.disjoint_singleton.mpr unparked)
    · rw [List.append_nil]
      exact tracks.parked_nodup
  · refine receivers_perm.mem_iff.mpr ?_
    by_cases same : other = reqId
    · exact same ▸ List.mem_cons_self
    · exact List.mem_cons_of_mem _ (tracks.parked_receive other ((others same).mp member))
  · rw [put] at known
    by_cases same : other = reqId
    · subst same
      rw [AList.lookup_set] at known
      obtain ⟨rfl, rfl⟩ := Prod.mk.inj (Option.some.inj known)
      rcases blocks with ⟨rfl, reads⟩ | ⟨rfl, empty⟩
      · exact ⟨fun _ => reads, fun absent =>
          absurd (List.mem_append_right _ (List.mem_singleton_self _)) absent⟩
      · rw [List.append_nil]
        exact ⟨fun member => absurd member unparked, fun _ => empty⟩
    · rw [others same]
      exact tracks.pending other request found ((AList.lookup_set_ne same).symm.trans known)
  · rw [sameWire]
    intro load member
    have different : load.1 ≠ reqId := by
      rintro rfl
      exact fresh (List.mem_append_right _ (List.mem_map_of_mem member))
    rw [others different]
    exact tracks.loaded load member

theorem build (tracks : Tracks parked loads system) {metadata : NixlConnectorMetadata}
    {output : SchedulerOutput}
    (built : system.served.scheduler.buildConnectorMeta config output =
      .ok (next.served.scheduler, metadata))
    (same : next.served.requests = system.served.requests)
    (sent : next.wire = system.wire ++ [metadata]) : Tracks parked loads next := by
  obtain ⟨none_left, keys⟩ := ServedScheduler.buildConnectorMeta_recv built
  have handed : metadata.receives.map Prod.fst = system.served.pending := by
    rw [NixlConnectorMetadata.receives, List.map_map]
    exact keys
  have wire_eq : next.wire.flatMap NixlConnectorMetadata.receives =
      system.wire.flatMap NixlConnectorMetadata.receives ++ metadata.receives := by
    rw [sent, List.flatMap_append, List.flatMap_singleton]
  have receivers_perm : (next.receivers loads).Perm (system.receivers loads) := by
    rw [receivers, receivers, ServedScheduler.pending, none_left, wire_eq, List.append_assoc,
      List.map_append, List.map_append, List.map_append, handed]
    change ([] ++ _ : List ReqId).Perm _
    rw [List.nil_append]
    exact List.perm_append_comm_assoc _ _ _
  refine
    { nodup := receivers_perm.nodup_iff.mpr tracks.nodup
      unflagged := fun reqId member => ?_
      parked_nodup := tracks.parked_nodup
      parked_receive := fun reqId member =>
        receivers_perm.mem_iff.mpr (tracks.parked_receive reqId member)
      pending := fun reqId request blockIds known => ?_
      loaded := fun load member => ?_ }
  · rw [same]
    exact tracks.unflagged reqId (receivers_perm.mem_iff.mp member)
  · rw [none_left] at known
    cases known
  · rw [wire_eq, List.append_assoc, List.mem_append, List.mem_append] at member
    rcases member with earlier | now | earlier
    · exact tracks.loaded load (List.mem_append_left _ earlier)
    · obtain ⟨⟨reqId, saved⟩, isEntry, rfl⟩ := List.mem_map.mp now
      obtain ⟨request, blockIds, known, hands⟩ :=
        ServedScheduler.buildConnectorMeta_handsOver built (AList.mem_lookup_iff.mpr isEntry)
      obtain ⟨reads, empty⟩ := tracks.pending reqId request blockIds known
      exact ⟨fun member => hands.readsBlocks (reads member), fun absent =>
        hands.localBlocks.trans (empty absent)⟩
    · exact tracks.loaded load (List.mem_append_right _ earlier)

theorem load (tracks : Tracks parked loads system) {metadata : NixlConnectorMetadata}
    (same : next.served = system.served) (taken : system.wire = metadata :: next.wire) :
    Tracks parked (loads ++ metadata.receives) next := by
  have wire_perm : (next.wire.flatMap NixlConnectorMetadata.receives ++
      (loads ++ metadata.receives)).Perm
        (system.wire.flatMap NixlConnectorMetadata.receives ++ loads) := by
    rw [taken, List.flatMap_cons, ← List.append_assoc, List.append_assoc metadata.receives]
    exact List.perm_append_comm
  have receivers_perm :
      (next.receivers (loads ++ metadata.receives)).Perm (system.receivers loads) := by
    rw [receivers, receivers, same]
    exact (wire_perm.map Prod.fst).append_left _
  exact
    { nodup := receivers_perm.nodup_iff.mpr tracks.nodup
      unflagged := fun reqId member => by
        rw [same]
        exact tracks.unflagged reqId (receivers_perm.mem_iff.mp member)
      parked_nodup := tracks.parked_nodup
      parked_receive := fun reqId member =>
        receivers_perm.mem_iff.mpr (tracks.parked_receive reqId member)
      pending := by rw [same]; exact tracks.pending
      loaded := fun load member => tracks.loaded load (wire_perm.mem_iff.mp member) }

end Tracks

/-! ## Steps and runs -/

variable {worker : ReceivingWorker ω} {next final : ConsumerSystem ω} {event : ConsumerEvent}
  {events : List ConsumerEvent} {parked : List ReqId} {loads : List (ReqId × ReqMeta)}

theorem work_eq_ok {event : ReceiveEvent} (taken : system.work worker event = .ok next) :
    ∃ receiving, worker.step system.receiving event = .ok receiving ∧
      next = { system with receiving } := by
  rw [work] at taken
  split at taken
  · rename_i receiving did
    cases taken
    exact ⟨receiving, did, rfl⟩
  · cases taken

theorem serve_eq_ok {call : ServeEvent}
    (taken : system.step config worker (.serve call) = .ok next) :
    ∃ served, system.served.step config call = .ok served ∧ next =
      { system with
        served
        wire := system.wire ++ system.served.metadataOf config call } := by
  rw [step] at taken
  split at taken
  · rename_i served did
    cases taken
    exact ⟨served, did, rfl⟩
  · cases taken

/-- A step of the worker begins with the oldest metadata, if there is one. -/
theorem startLoadKv_eq_ok {endings : ℕ → List HandshakeEnd}
    (taken : system.step config worker (.startLoadKv endings) = .ok next) :
    system.wire = [] ∧ next = system ∨ ∃ metadata wire receiving,
      system.wire = metadata :: wire ∧
      worker.step system.receiving
        (.startLoadKv (loadTurns endings 0 metadata.reqsToRecv.entries)) = .ok receiving ∧
      next = { system with wire, receiving } := by
  rw [step] at taken
  split at taken
  · rename_i nothing
    cases taken
    exact .inl ⟨nothing, rfl⟩
  · rename_i metadata wire here
    obtain ⟨receiving, did, rfl⟩ := work_eq_ok taken
    exact .inr ⟨metadata, wire, receiving, here, did, rfl⟩

/-- What happens to the worker are its events. -/
theorem step_receiving (taken : system.step config worker event = .ok next) :
    Run.exec worker.step system.receiving (system.workerEvents event) = .ok next.receiving := by
  cases event with
  | serve call =>
      obtain ⟨served, _, rfl⟩ := serve_eq_ok taken
      rfl
  | startLoadKv endings =>
      rw [workerEvents]
      rcases startLoadKv_eq_ok taken with
        ⟨nothing, rfl⟩ | ⟨metadata, wire, receiving, here, did, rfl⟩
      · rw [nothing]
        rfl
      · rw [here]
        exact (Run.exec_singleton _ _).trans did
  | handshakeDone ending =>
      rw [step] at taken
      obtain ⟨receiving, did, rfl⟩ := work_eq_ok taken
      exact (Run.exec_singleton _ _).trans did
  | getFinished checks order =>
      rw [step] at taken
      obtain ⟨receiving, did, rfl⟩ := work_eq_ok taken
      exact (Run.exec_singleton _ _).trans did
  | getBlockIdsWithLoadErrors =>
      rw [step] at taken
      obtain ⟨receiving, did, rfl⟩ := work_eq_ok taken
      exact (Run.exec_singleton _ _).trans did

/-- **The step lemma.** -/
theorem Tracks.step (tracks : Tracks parked loads system) (fulfils : system.Fulfils config event)
    (taken : system.step config worker event = .ok next) :
    Tracks (parked ++ system.parks event)
      (loads ++ (system.workerEvents event).flatMap ReceiveEvent.loads) next := by
  have idle (sameServed : next.served = system.served) (sameWire : next.wire = system.wire) :
      Tracks (parked ++ []) (loads ++ []) next := by
    rw [List.append_nil, List.append_nil]
    exact tracks.stays sameWire (by rw [sameServed]) fun _ flagged => by
      rwa [sameServed] at flagged
  cases event with
  | serve call =>
      obtain ⟨served, did, rfl⟩ := serve_eq_ok taken
      rw [workerEvents, List.flatMap_nil, List.append_nil]
      by_cases builds : ∃ output, call = .build output
      · obtain ⟨output, rfl⟩ := builds
        obtain ⟨⟨scheduler, metadata⟩, built, rfl⟩ := Run.map_eq_ok.mp did
        have nobody_waits : system.parks (.serve (.build output)) = [] := rfl
        rw [nobody_waits, List.append_nil]
        refine tracks.build built rfl ?_
        rw [ServedScheduler.metadataOf, metadataOf, built]
      · have notBuild : ∀ output, call ≠ .build output := fun output same => builds ⟨output, same⟩
        have silent : system.wire ++ system.served.metadataOf config call = system.wire := by
          cases call with
          | build output => exact absurd rfl (notBuild output)
          | _ => exact List.append_nil _
        have moved := serve_parked fulfils notBuild did
        cases calls : system.parks (.serve call) with
        | nil =>
            rw [calls] at moved
            cases moved with
            | stays same flags =>
                rw [List.append_nil]
                exact tracks.stays silent same flags
            | notifies reqId flagged put left =>
                exact tracks.enters silent flagged put left (.inr ⟨rfl, rfl⟩)
        | cons reqId rest =>
            rw [calls] at moved
            cases moved with
            | waits _ blockIds flagged reads put left =>
                exact tracks.enters silent flagged put left (.inl ⟨rfl, reads⟩)
  | startLoadKv endings =>
      have nobody_waits : system.parks (.startLoadKv endings) = [] := rfl
      rw [nobody_waits, workerEvents]
      rcases startLoadKv_eq_ok taken with ⟨nothing, rfl⟩ | ⟨metadata, wire, receiving, here, _, rfl⟩
      · rw [nothing]
        exact idle rfl rfl
      · rw [here, List.append_nil, List.flatMap_singleton, ReceiveEvent.loads, loads_loadTurns]
        exact tracks.load rfl here
  | handshakeDone ending =>
      rw [ConsumerSystem.step] at taken
      obtain ⟨receiving, _, rfl⟩ := work_eq_ok taken
      exact idle rfl rfl
  | getFinished checks order =>
      rw [ConsumerSystem.step] at taken
      obtain ⟨receiving, _, rfl⟩ := work_eq_ok taken
      exact idle rfl rfl
  | getBlockIdsWithLoadErrors =>
      rw [ConsumerSystem.step] at taken
      obtain ⟨receiving, _, rfl⟩ := work_eq_ok taken
      exact idle rfl rfl

/-- Every receive is in its place after a run. -/
theorem Tracks.exec (tracks : Tracks parked loads system)
    (fulfils : Run.Throughout (ConsumerSystem.step config worker) (Fulfils config) system events)
    (reached : Run.exec (ConsumerSystem.step config worker) system events = .ok final) :
    Tracks (parked ++ Run.observe (ConsumerSystem.step config worker) parks system events)
      (loads ++ (Run.observe (ConsumerSystem.step config worker) workerEvents system
        events).flatMap ReceiveEvent.loads) final := by
  induction events generalizing system parked loads with
  | nil =>
      cases reached
      rw [Run.observe_nil, Run.observe_nil, List.flatMap_nil, List.append_nil, List.append_nil]
      exact tracks
  | cons event events ih =>
      obtain ⟨middle, taken, rest⟩ := Run.exec_cons_eq_ok.mp reached
      rw [Run.observe_cons taken, Run.observe_cons taken, List.flatMap_append, ← List.append_assoc,
        ← List.append_assoc]
      exact ih (tracks.step fulfils.1 taken) (fulfils.2 middle taken) rest

end ConsumerSystem

end RduHdi
