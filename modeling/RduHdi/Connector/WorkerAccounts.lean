import RduHdi.Connector.NewestConsumer
import RduHdi.Connector.NixlAccounts

/-!
# What the halves of a worker account for

The receiving half between two turns of the handshake thread, and the staging half with the agents
of its consumers.  Neither loses anything; what is never given back are the agents of consumers.
-/

namespace RduHdi

/-! ## The receiving half -/

/-- The receiving half leaves the tables alone, waits for handshakes with unknown engines only, and
accounts for its transfers. -/
structure Receiving.Settles {ω : Type} (ledger : ω → NixlLedger) (before after : Receiving ω) :
    Prop where
  /-- Only the library changes. -/
  tables : after.tables = { before.tables with world := after.tables.world }
  /-- A new handshake is with an engine that has no agents. -/
  handshakeFutures : ∀ engineId ∈ after.handshakeFutures,
    engineId ∈ before.handshakeFutures ∨ engineId ∉ before.tables.remoteAgents
  /-- The reading half accounts for its transfers. -/
  accounts : ∀ others,
    (ledger before.tables.world).Accounts (before.reading.resources ++ others) →
      (ledger after.tables.world).Accounts (after.reading.resources ++ others)

namespace Receiving.Settles

variable {ω : Type} {ledger : ω → NixlLedger} {before middle after : Receiving ω}

theorem of_same (tables : after.tables = before.tables)
    (handshakeFutures : ∀ engineId ∈ after.handshakeFutures,
      engineId ∈ before.handshakeFutures ∨ engineId ∉ before.tables.remoteAgents)
    (recvingTransfers : after.reading.recvingTransfers = before.reading.recvingTransfers) :
    Settles ledger before after where
  tables := by rw [tables]
  handshakeFutures := handshakeFutures
  accounts others accounts := by
    rw [tables, Reading.resources, recvingTransfers]
    exact accounts

theorem refl (receiving : Receiving ω) : Settles ledger receiving receiving :=
  .of_same rfl (fun _ => .inl) rfl

theorem trans (first : Settles ledger before middle) (second : Settles ledger middle after) :
    Settles ledger before after where
  tables := by
    have moved : ({ middle.tables with world := after.tables.world } : Handshakes ω) =
        { before.tables with world := after.tables.world } := by rw [first.tables]
    exact second.tables.trans moved
  handshakeFutures engineId member := by
    rcases second.handshakeFutures engineId member with earlier | unknown
    · exact first.handshakeFutures engineId earlier
    · rw [first.tables] at unknown
      exact .inr unknown
  accounts others accounts := second.accounts others (first.accounts others accounts)

end Receiving.Settles

namespace ReceivingWorker

variable {ω : Type} {worker : ReceivingWorker ω} {ledger : ω → NixlLedger}

theorem onReading_settles {α : Type} (receiving : Receiving ω) (work : Reading ω → Reading ω × α)
    (settles : ∀ reading, Reading.Settles ledger reading (work reading).1) :
    Receiving.Settles ledger receiving (receiving.onReading work).1 := by
  have settled := settles { receiving.reading with world := receiving.tables.world }
  rw [Receiving.onReading]
  cases worked : work { receiving.reading with world := receiving.tables.world } with
  | mk reading result =>
      rw [worked] at settled
      exact ⟨rfl, fun _ => .inl, settled⟩

theorem readBlocksForReq_receiving (notes : worker.nixl.Notes ledger) (receiving : Receiving ω)
    (reqId : ReqId) (saved : ReqMeta) :
    Receiving.Settles ledger receiving (worker.readBlocksForReq receiving reqId saved).1 := by
  apply onReading_settles
  intro reading
  have reads : (worker.handshakes.reader receiving.tables worker.nixl
      worker.blockWindowPerLayer).nixl.Notes ledger := notes
  exact ReadingWorker.readBlocksForReq_settles reads reading reqId saved

/-- A handshake is only begun with an engine that is unknown. -/
theorem loadRequest_settles (notes : worker.nixl.Notes ledger) (receiving : Receiving ω)
    (reqId : ReqId) (saved : ReqMeta) :
    Receiving.Settles ledger receiving (worker.loadRequest receiving reqId saved).1 := by
  rw [loadRequest]
  split
  · exact .refl receiving
  · rename_i remote isRemote
    have noted : Receiving.Settles ledger receiving
        { receiving with
          reading :=
            { receiving.reading with
              recvingMetadata := receiving.reading.recvingMetadata.set reqId
                (worker.inKernelBlocks saved remote) } } :=
      .of_same rfl (fun _ => .inl) rfl
    simp only
    split
    · rename_i unknown
      refine noted.trans (.of_same rfl (fun engineId member => ?_) rfl)
      rcases AList.mem_set.mp member with rfl | earlier
      · exact .inr unknown
      · exact .inl earlier
    · exact noted.trans (readBlocksForReq_receiving notes _ _ _)

theorem readReady_settles (notes : worker.nixl.Notes ledger)
    (entries : List (ReqId × ReqMeta)) (receiving : Receiving ω) :
    Receiving.Settles ledger receiving (worker.readReady entries receiving).1 := by
  induction entries generalizing receiving with
  | nil => exact .refl receiving
  | cons entry entries ih =>
      have taken : Receiving.Settles ledger receiving { receiving with readyRequests := entries } :=
        .of_same rfl (fun _ => .inl) rfl
      have read := taken.trans (readBlocksForReq_receiving notes _ entry.1 entry.2)
      rw [readReady]
      split
      · rename_i next done
        rw [done] at read
        exact read.trans (ih next)
      · rename_i next raised refused
        rw [refused] at read
        exact read

theorem failWaiting_settles (receiving : Receiving ω) (entry : ReqId × ReqMeta) :
    Receiving.Settles ledger receiving (failWaiting receiving entry) := by
  have noted : Receiving.Settles ledger receiving
      { receiving with log := receiving.log.withFailed entry.1 } :=
    .of_same rfl (fun _ => .inl) rfl
  refine noted.trans ?_
  apply onReading_settles
  exact fun reading => .of_same rfl rfl

theorem runCallbacks_error_settles (receiving : Receiving ω) (engineId : EngineId)
    (waiting : List (ReqId × ReqMeta)) (raised : PyError) :
    Receiving.Settles ledger receiving
      (runCallbacks receiving engineId waiting (.error raised)) := by
  have forgotten : Receiving.Settles ledger receiving
      { receiving with handshakeFutures := receiving.handshakeFutures.erase engineId } :=
    .of_same rfl (fun _ member => .inl (AList.mem_erase.mp member).2) rfl
  rw [runCallbacks_error]
  refine forgotten.trans ?_
  generalize ({ receiving with
    handshakeFutures := receiving.handshakeFutures.erase engineId } : Receiving ω) = receiving
  induction waiting generalizing receiving with
  | nil => exact .refl receiving
  | cons entry waiting ih => exact (failWaiting_settles receiving entry).trans (ih _)

/-- What is done with the blocks of finished requests has nothing to do with NIXL. -/
theorem finishLoop_settles (reqIds : List ReqId) (postProcess : Dict ℕ (List (List ℕ)))
    (receiving : Receiving ω) :
    Receiving.Settles ledger receiving (worker.finishLoop reqIds postProcess receiving).1 := by
  induction reqIds generalizing postProcess receiving with
  | nil => exact .refl receiving
  | cons reqId reqIds ih =>
      rw [finishLoop]
      split
      · exact .refl receiving
      · rename_i saved isSaved
        have forgotten : Receiving.Settles ledger receiving
            { receiving with
              reading :=
                { receiving.reading with
                  recvingMetadata := receiving.reading.recvingMetadata.erase reqId } } :=
          .of_same rfl (fun _ => .inl) rfl
        simp only
        split
        · exact forgotten
        · have called (calls : List ReceiveCall) : Receiving.Settles ledger receiving
              { receiving with
                reading :=
                  { receiving.reading with
                    recvingMetadata := receiving.reading.recvingMetadata.erase reqId }
                receiveCalls := calls } :=
            .of_same rfl (fun _ => .inl) rfl
          split
          · split
            · exact called _
            · exact forgotten
          · split
            · split
              · exact (called _).trans (ih _ _)
              · exact (called _).trans (ih _ _)
            · split
              · exact forgotten.trans (ih _ _)
              · exact forgotten.trans (ih _ _)

theorem postProcessLoop_settles (entries : List (Σ _ : ℕ, List (List ℕ)))
    (receiving : Receiving ω) :
    Receiving.Settles ledger receiving (postProcessLoop entries receiving).1 := by
  induction entries generalizing receiving with
  | nil => exact .refl receiving
  | cons entry entries ih =>
      obtain ⟨ratio, blockIdsList⟩ := entry
      rw [postProcessLoop]
      split
      · have called : Receiving.Settles ledger receiving
            { receiving with
              receiveCalls := receiving.receiveCalls ++ [.postProcess ratio blockIdsList] } :=
          .of_same rfl (fun _ => .inl) rfl
        exact called.trans (ih _)
      · exact .refl receiving

theorem getFinished_settles (notes : worker.nixl.Notes ledger) (receiving : Receiving ω)
    (checks : XferHandle → XferCheck) (order : SetOrder) :
    Receiving.Settles ledger receiving (worker.getFinished receiving checks order).1 := by
  have popped : Receiving.Settles ledger receiving
      (receiving.onReading (worker.doneRecving checks)).1 :=
    onReading_settles receiving _ (doneRecving_settles notes checks)
  rw [getFinished]
  simp only
  cases worked : receiving.onReading (worker.doneRecving checks) with
  | mk next done =>
      rw [worked] at popped
      have finished : Receiving.Settles ledger receiving
          (worker.finishLoop (order.arrange done.keys) ∅ next).1 :=
        popped.trans (finishLoop_settles _ _ next)
      simp only
      split
      · rename_i last raised refused
        rw [refused] at finished
        exact finished
      · rename_i last postProcess through
        rw [through] at finished
        have processed := finished.trans (postProcessLoop_settles postProcess.entries last)
        split
        · rename_i reached raised refused
          rw [refused] at processed
          exact processed
        · rename_i reached completed
          rw [completed] at processed
          exact processed.trans (.of_same rfl (fun _ => .inl) rfl)

theorem getBlockIdsWithLoadErrors_settles (receiving : Receiving ω) :
    Receiving.Settles ledger receiving (getBlockIdsWithLoadErrors receiving).1 :=
  .of_same rfl (fun _ => .inl) rfl

end ReceivingWorker

/-! ## The staging half -/

/-- The agents of consumers. -/
def Staging.resources {ω : Type*} (staging : Staging ω) : List NixlResource :=
  staging.consumerAgentByEngine.holdings fun agent => [.remoteAgent agent]

def Staging.HasConsumers {ω : Type*} (staging : Staging ω) : Prop :=
  ∃ engine, engine ∈ staging.consumerAgentByEngine

theorem Staging.resources_eq_nil {ω : Type*} {staging : Staging ω} :
    staging.resources = [] ↔ ¬ staging.HasConsumers := by
  rw [resources, AList.holdings_eq_nil (fun agent => List.cons_ne_nil _ _)]
  constructor
  · rintro empty ⟨engine, known⟩
    rw [empty] at known
    exact AList.notMem_empty engine known
  · intro none
    exact AList.eq_empty_of_forall_notMem fun engine known => none ⟨engine, known⟩

/-- Nothing is given out, and the agents stay. -/
structure Staging.Sends {ω : Type*} (ledger : ω → NixlLedger) (before after : Staging ω) :
    Prop where
  /-- Nothing is acquired. -/
  world : ledger after.world = ledger before.world
  /-- The agents stay. -/
  agents : after.consumerAgentByEngine = before.consumerAgentByEngine

theorem Staging.Sends.trans {ω : Type*} {ledger : ω → NixlLedger} {before middle after : Staging ω}
    (first : Sends ledger before middle) (second : Sends ledger middle after) :
    Sends ledger before after :=
  ⟨second.world.trans first.world, second.agents.trans first.agents⟩

namespace StagingWorker

variable {ω : Type*} {worker : StagingWorker ω} {ledger : ω → NixlLedger}

theorem sendAttempts_ledger (notes : worker.nixl.Notes ledger) (agent : AgentName)
    (notif : ByteArray) (attempts : ℕ) (staging : Staging ω) :
    ledger (worker.sendAttempts agent notif attempts staging).world = ledger staging.world := by
  induction attempts generalizing staging with
  | zero => rfl
  | succ attempts ih =>
      have same : ledger (worker.sendNotif staging agent notif).1.world = ledger staging.world :=
        notes.sendNotif staging.world agent notif
      rw [sendAttempts]
      split
      · rename_i next sent
        rw [sent] at same
        exact same
      · rename_i next raised refused
        rw [refused] at same
        exact (ih next).trans same

theorem sendChunkReady_sends (notes : worker.nixl.Notes ledger) (staging : Staging ω)
    (reqId : ReqId) (chunk : ChunkNotif) :
    Staging.Sends ledger staging (worker.sendChunkReady staging reqId chunk).1 := by
  refine ⟨?_, agents_sendChunkReady worker staging reqId chunk⟩
  rw [sendChunkReady]
  split
  · rfl
  · exact sendAttempts_ledger notes _ _ _ staging

theorem notifyChunkReady_sends (notes : worker.nixl.Notes ledger) (staging : Staging ω)
    (reqId : ReqId) (chunk : ChunkNotif) :
    Staging.Sends ledger staging (worker.notifyChunkReady staging reqId chunk) := by
  have sent := sendChunkReady_sends notes staging reqId chunk
  rw [notifyChunkReady]
  split
  · rename_i next isSent
    rw [isSent] at sent
    exact sent
  · rename_i next isKept
    rw [isKept] at sent
    exact ⟨sent.world, sent.agents⟩

theorem flushChunks_sends (notes : worker.nixl.Notes ledger) (reqId : ReqId)
    (chunks : List ChunkNotif) (staging : Staging ω) :
    Staging.Sends ledger staging (worker.flushChunks reqId chunks staging).1 := by
  induction chunks generalizing staging with
  | nil => exact ⟨rfl, rfl⟩
  | cons chunk chunks ih =>
      have first := sendChunkReady_sends notes staging reqId chunk
      rw [flushChunks]
      split
      · rename_i next sent
        rw [sent] at first
        exact first.trans (ih next)
      · rename_i next kept
        rw [kept] at first
        exact first.trans (ih next)

theorem flushRequest_sends (notes : worker.nixl.Notes ledger) (staging : Staging ω)
    (reqId : ReqId) : Staging.Sends ledger staging (worker.flushRequest staging reqId) := by
  have flushed := flushChunks_sends notes reqId
    ((staging.pendingChunkNotifs.lookup reqId).getD []) staging
  rw [flushRequest]
  simp only
  split
  · exact ⟨flushed.world, flushed.agents⟩
  · exact ⟨flushed.world, flushed.agents⟩

theorem flushPending_sends (notes : worker.nixl.Notes ledger) (staging : Staging ω) :
    Staging.Sends ledger staging (worker.flushPending staging) := by
  rw [flushPending]
  split
  · exact ⟨rfl, rfl⟩
  · rename_i busy
    clear busy
    generalize staging.pendingChunkNotifs.keys = reqIds
    induction reqIds generalizing staging with
    | nil => exact ⟨rfl, rfl⟩
    | cons reqId reqIds ih => exact (flushRequest_sends notes staging reqId).trans (ih _)

theorem mapRequests_sends (staging : Staging ω) (registration : PyObj) (engine : PyKey) :
    Staging.Sends ledger staging (mapRequests staging registration engine) := by
  refine ⟨?_, agents_mapRequests staging registration engine⟩
  rw [mapRequests]
  split
  · rfl
  · simp only
    split
    · rfl
    · rfl

theorem saveLoop_sends (notes : worker.nixl.Notes ledger) (metadata : NixlConnectorMetadata)
    (entries : List (Σ _ : ReqId, ReqMeta)) (staging : Staging ω) :
    Staging.Sends ledger staging (entries.foldl (worker.saveRequest metadata) staging) := by
  induction entries generalizing staging with
  | nil => exact ⟨rfl, rfl⟩
  | cons entry entries ih =>
      obtain ⟨reqId, saved⟩ := entry
      have once : Staging.Sends ledger staging
          (worker.saveRequest metadata staging ⟨reqId, saved⟩) := by
        rw [saveRequest]
        split
        · have notified := notifyChunkReady_sends notes
            { staging with
              calls := staging.calls ++
                [.copyBlocks reqId (worker.kernel.logicalToKernelBlockIds saved.localBlockIds)] }
            reqId (chunkOf metadata reqId saved)
          exact ⟨notified.world, notified.agents⟩
        · exact ⟨rfl, rfl⟩
      exact once.trans (ih _)

/-! ### Consumers -/

/-- A registration names an engine and its agent. -/
def NamesConsumer (payload : PyObj) : Prop :=
  ∃ registration : ConsumerRegistration, registration.payload = payload

/-- The consumers of a staging pass. -/
def Registers (worker : StagingWorker ω) (metadata : NixlConnectorMetadata) : Prop :=
  worker.chunkOverlapEnabled ∧
    ∃ payload ∈ metadata.consumerRegistrations, NamesConsumer payload

theorem registerConsumer_of_not_namesConsumer {payload : PyObj}
    (never : ¬ NamesConsumer payload) (staging : Staging ω) :
    worker.registerConsumer staging payload = staging := by
  rw [registerConsumer]
  cases hasEngineId : payload.get "engine_id" .none with
  | error raised => rfl
  | ok engineId =>
      cases hasAgentMeta : payload.get "agent_metadata" .none with
      | error raised => rfl
      | ok agentMeta =>
          simp only
          split
          · rfl
          · rename_i present
            rw [Bool.or_eq_true, not_or, Bool.not_eq_true, Bool.not_eq_true] at present
            cases isKey : engineId.hashKey with
            | error raised => rfl
            | ok engine =>
                exact absurd ⟨⟨payload, engineId, engine, agentMeta, hasEngineId, present.1, isKey,
                  hasAgentMeta, present.2⟩, rfl⟩ never

theorem registerConsumer_of_namesConsumer (registration : ConsumerRegistration)
    (staging : Staging ω) :
    worker.registerConsumer staging registration.payload =
      match worker.ensureAgent staging registration.engine registration.agentMeta with
      | (staging, .ok ()) => mapRequests staging registration.payload registration.engine
      | (staging, .error _) => staging := by
  rw [registerConsumer, registration.hasEngineId, registration.hasAgentMeta]
  have named : ¬ (registration.engineId.isNone || registration.agentMeta.isNone) := by
    simp [registration.engineId_some, registration.agentMeta_some]
  have key := registration.engineId_key
  refine (if_neg named).trans ?_
  generalize registration.engineId.hashKey = result at key
  subst key
  exact rfl

/-- The agents of consumers are accounted for. -/
def Settles (ledger : ω → NixlLedger) (before after : Staging ω) : Prop :=
  ∀ others, (ledger before.world).Accounts (before.resources ++ others) →
    (ledger after.world).Accounts (after.resources ++ others)

theorem settles_of_sends {before after : Staging ω} (sends : Staging.Sends ledger before after) :
    Settles ledger before after := by
  intro others accounts
  rw [sends.world, Staging.resources, sends.agents]
  exact accounts

theorem ensureAgent_settles (notes : worker.nixl.Notes ledger) (staging : Staging ω)
    (engine : PyKey) (agentMeta : PyObj) :
    Settles ledger staging (worker.ensureAgent staging engine agentMeta).1 := by
  rw [ensureAgent]
  split
  · exact fun _ => id
  · rename_i unknown
    split
    · rename_i world agent added
      intro others accounts
      have held : ((ledger staging.world).acquire (.remoteAgent agent)).Accounts
          (.remoteAgent agent :: (staging.resources ++ others)) := accounts.acquire
      rw [← notes.addRemoteAgent_ok added] at held
      refine held.of_count fun resource => ?_
      have written := AList.count_holdings_set_of_notMem
        (fun agent : AgentName => [NixlResource.remoteAgent agent]) staging.consumerAgentByEngine
        engine agent resource unknown
      rw [List.count_append, Staging.resources, written,
        Ledger.count_cons_held _ resource (staging.resources ++ others), List.count_append,
        Staging.resources]
      omega
    · rename_i world raised refused
      exact settles_of_sends ⟨notes.addRemoteAgent_error refused, rfl⟩

theorem registerConsumer_settles (notes : worker.nixl.Notes ledger) (staging : Staging ω)
    (payload : PyObj) : Settles ledger staging (worker.registerConsumer staging payload) := by
  rcases Classical.em (NamesConsumer payload) with ⟨registration, rfl⟩ | never
  · have ensured := ensureAgent_settles notes staging registration.engine registration.agentMeta
    rw [registerConsumer_of_namesConsumer]
    split
    · rename_i next added
      rw [added] at ensured
      exact fun others accounts =>
        settles_of_sends (mapRequests_sends next _ _) others (ensured others accounts)
    · rename_i next raised refused
      rw [refused] at ensured
      exact ensured
  · rw [registerConsumer_of_not_namesConsumer never]
    exact fun _ => id

theorem registerFrom_settles (notes : worker.nixl.Notes ledger) (staging : Staging ω)
    (metadata : NixlConnectorMetadata) :
    Settles ledger staging (worker.registerFrom staging metadata) := by
  rw [registerFrom]
  split
  · rw [registerConsumers]
    have loop : ∀ (registrations : List PyObj) (staging : Staging ω),
        Settles ledger staging (registrations.foldl worker.registerConsumer staging) := by
      intro registrations
      induction registrations with
      | nil => exact fun _ _ => id
      | cons payload registrations ih =>
          exact fun staging others accounts =>
            ih _ others (registerConsumer_settles notes staging payload others accounts)
    exact fun others accounts =>
      settles_of_sends (flushPending_sends notes _) others
        (loop _ (staging.noteRegistrations _) others accounts)
  · exact fun _ => id

theorem saveKvToHost_settles (notes : worker.nixl.Notes ledger) (staging : Staging ω)
    (metadata : NixlConnectorMetadata) :
    Settles ledger staging (worker.saveKvToHost staging metadata) :=
  fun others accounts => settles_of_sends (saveLoop_sends notes metadata _ _) others
    (registerFrom_settles notes staging metadata others accounts)

/-! ### Whether there are any -/

section HasConsumers

variable (adds : ∀ world agentMeta, ∃ next agent,
  worker.nixl.addRemoteAgent world agentMeta = (next, .ok agent))

include adds

theorem ensureAgent_known (staging : Staging ω) (engine : PyKey) (agentMeta : PyObj) :
    ∃ next, worker.ensureAgent staging engine agentMeta = (next, .ok ()) ∧
      engine ∈ next.consumerAgentByEngine := by
  rw [ensureAgent]
  split
  · rename_i known
    exact ⟨staging, rfl, known⟩
  · obtain ⟨world, agent, added⟩ := adds staging.world agentMeta
    rw [added]
    exact ⟨_, rfl, AList.mem_set.mpr (.inl rfl)⟩

theorem registerConsumer_hasConsumers (staging : Staging ω) (payload : PyObj) :
    (worker.registerConsumer staging payload).HasConsumers ↔
      staging.HasConsumers ∨ NamesConsumer payload := by
  rcases Classical.em (NamesConsumer payload) with ⟨registration, rfl⟩ | never
  · obtain ⟨next, ensured, known⟩ :=
      ensureAgent_known adds staging registration.engine registration.agentMeta
    rw [registerConsumer_of_namesConsumer, ensured]
    refine iff_of_true ⟨registration.engine, ?_⟩ (.inr ⟨registration, rfl⟩)
    change registration.engine ∈
      (mapRequests next registration.payload registration.engine).consumerAgentByEngine
    rw [agents_mapRequests]
    exact known
  · rw [registerConsumer_of_not_namesConsumer never]
    exact ⟨.inl, fun either => either.resolve_right never⟩

theorem registerLoop_hasConsumers (registrations : List PyObj) (staging : Staging ω) :
    (registrations.foldl worker.registerConsumer staging).HasConsumers ↔
      staging.HasConsumers ∨ ∃ payload ∈ registrations, NamesConsumer payload := by
  induction registrations generalizing staging with
  | nil => simp
  | cons payload registrations ih =>
      rw [List.foldl_cons, ih, registerConsumer_hasConsumers adds]
      simp only [List.mem_cons, exists_eq_or_imp]
      exact or_assoc

/-- There are consumers after a staging pass when there were some or it registers some. -/
theorem saveKvToHost_hasConsumers (notes : worker.nixl.Notes ledger) (staging : Staging ω)
    (metadata : NixlConnectorMetadata) :
    (worker.saveKvToHost staging metadata).HasConsumers ↔
      staging.HasConsumers ∨ worker.Registers metadata := by
  have registered : (worker.registerFrom staging metadata).HasConsumers ↔
      staging.HasConsumers ∨ worker.Registers metadata := by
    rw [registerFrom, Registers]
    split
    · rename_i enabled
      let noted := staging.noteRegistrations metadata.consumerRegistrations
      have flushed := flushPending_sends notes
        (metadata.consumerRegistrations.foldl worker.registerConsumer noted)
      rw [registerConsumers, Staging.HasConsumers, flushed.agents]
      have loop := registerLoop_hasConsumers adds metadata.consumerRegistrations noted
      rw [Staging.HasConsumers] at loop
      rw [loop, and_iff_right enabled]
      exact Iff.rfl
    · rename_i disabled
      exact ⟨.inl, fun either => either.resolve_right fun registers => disabled registers.1⟩
  have saved := saveLoop_sends notes metadata metadata.reqsToSave.entries
    (worker.registerFrom staging metadata)
  rw [← registered, Staging.HasConsumers, saveKvToHost, saved.agents]
  rfl

end HasConsumers

end StagingWorker

end RduHdi
