import RduHdi.Connector.PostProcess

/-!
# Steps of the decode worker and what they receive

Only `get_finished` receives requests.  The other steps call nothing on the device, keep what is
known of the loaded requests, and do not forget what a handshake settled: the sizes of blocks and
that a permutation was asked for.
-/

namespace RduHdi

namespace HandshakeWorker

variable {ω : Type} {worker : HandshakeWorker ω}

/-- The ratio of block sizes is known for every engine with a handshake. -/
def KnowsRatios (worker : HandshakeWorker ω) (tables : Handshakes ω) : Prop :=
  ∀ engineId ∈ tables.remoteAgents, ∃ size ratio, tables.blockSize.lookup engineId = some size ∧
    worker.rules.blockSizeRatio worker.caches.blockSize size = .ok ratio

/-- What is known of the sizes of blocks, and that a permutation was asked for, is not
forgotten. -/
structure Settles (worker : HandshakeWorker ω) (before after : Handshakes ω) : Prop where
  /-- A known block size stays. -/
  blockSize : ∀ {engineId size}, before.blockSize.lookup engineId = some size →
    after.blockSize.lookup engineId = some size
  /-- Once asked for, a permutation stays so. -/
  permutes : before.enablePermuteLocalKv = true → after.enablePermuteLocalKv = true
  /-- Known ratios stay known. -/
  ratios : 0 < worker.worldSize → worker.KnowsRatios before → worker.KnowsRatios after

theorem Settles.of_same {before after : Handshakes ω}
    (blockSize : after.blockSize = before.blockSize)
    (permutes : after.enablePermuteLocalKv = before.enablePermuteLocalKv)
    (remoteAgents : after.remoteAgents = before.remoteAgents) : worker.Settles before after where
  blockSize known := by rwa [blockSize]
  permutes asked := by rwa [permutes]
  ratios _ knows := by
    rw [KnowsRatios, remoteAgents, blockSize]
    exact knows

theorem Settles.trans {before middle after : Handshakes ω} (first : worker.Settles before middle)
    (second : worker.Settles middle after) : worker.Settles before after where
  blockSize known := second.blockSize (first.blockSize known)
  permutes asked := second.permutes (first.permutes asked)
  ratios someWorker knows := second.ratios someWorker (first.ratios someWorker knows)

/-- A handshake settles what it finds out, and its agents may be kept when it goes through. -/
theorem nixlHandshake_settles {answers : ℕ → Except PyError HandshakePayload} {remoteTpSize : ℕ}
    {engineId : EngineId} {tables next : Handshakes ω}
    {result : Except PyError (Dict ℕ AgentName)}
    (ran : worker.nixlHandshake answers remoteTpSize engineId tables = (next, result)) :
    worker.Settles tables next ∧ ∀ agents, result = .ok agents → worker.Settles tables
      { next with remoteAgents := next.remoteAgents.set engineId agents } := by
  have sizes : ∀ {other size}, tables.blockSize.lookup other = some size →
      next.blockSize.lookup other = some size := by
    intro other size known
    have keeps : KeepsSizes (fun _ blockSize _ => blockSize.lookup other = some size)
        (worker.nixlHandshake answers remoteTpSize engineId) :=
      nixlHandshake_keeps_sizes (fun _ _ _ _ _ _ => AList.lookup_setDefault_of_some)
        (fun _ _ _ => id) answers remoteTpSize engineId
    have stays := keeps tables known
    rwa [ran] at stays
  have permutes : tables.enablePermuteLocalKv = true → next.enablePermuteLocalKv = true := by
    intro asked
    have keeps : KeepsSizes (fun _ _ permutes => permutes = true)
        (worker.nixlHandshake answers remoteTpSize engineId) := by
      apply nixlHandshake_keeps_sizes
      · exact fun _ _ _ _ _ _ => id
      · exact fun _ _ _ _ => rfl
    have stays := keeps tables asked
    rwa [ran] at stays
  have sameAgents : next.remoteAgents = tables.remoteAgents := by
    have same := nixlHandshake_remoteAgents worker ⟨answers, remoteTpSize, engineId⟩ tables
    rwa [ran] at same
  have kept (knows : worker.KnowsRatios tables) : worker.KnowsRatios next := by
    intro other isKnown
    rw [sameAgents] at isKnown
    obtain ⟨size, ratio, isSize, fits⟩ := knows other isKnown
    exact ⟨size, ratio, sizes isSize, fits⟩
  refine ⟨⟨sizes, permutes, fun _ => kept⟩, ?_⟩
  rintro agents rfl
  refine ⟨sizes, permutes, fun someWorker knows other isKnown => ?_⟩
  rcases AList.mem_set.mp isKnown with rfl | earlier
  · by_cases fresh : other ∈ tables.remoteAgents
    · exact kept knows other (by rwa [sameAgents])
    · exact (nixlHandshake_sizes fresh someWorker ran).2.2
  · exact kept knows other earlier

end HandshakeWorker

namespace ReceivingWorker

variable {ω : Type} {worker : ReceivingWorker ω} {loads : List (ReqId × ReqMeta)}

/-- The metadata of a request is that of a load, in kernel blocks. -/
def IsLoaded (worker : ReceivingWorker ω) (loads : List (ReqId × ReqMeta)) (reqId : ReqId)
    (saved : ReqMeta) : Prop :=
  ∃ load remote, (reqId, load) ∈ loads ∧ load.remote = some remote ∧
    saved = worker.inKernelBlocks load remote

/-- Between two states nothing was received. -/
structure NoneReceived (worker : ReceivingWorker ω) (loads : List (ReqId × ReqMeta))
    (before after : Receiving ω) : Prop where
  /-- Nothing is done with received blocks. -/
  receiveCalls : after.receiveCalls = before.receiveCalls
  /-- Nobody is reported. -/
  reported : after.log.reported = before.log.reported
  /-- What is settled stays so. -/
  tables : worker.handshakes.Settles before.tables after.tables
  /-- New metadata are of loaded requests. -/
  metadata : ∀ reqId saved, after.reading.recvingMetadata.lookup reqId = some saved →
    before.reading.recvingMetadata.lookup reqId = some saved ∨ worker.IsLoaded loads reqId saved

namespace NoneReceived

variable {before middle after receiving : Receiving ω}

theorem of_same (receiveCalls : after.receiveCalls = before.receiveCalls)
    (reported : after.log.reported = before.log.reported)
    (blockSize : after.tables.blockSize = before.tables.blockSize)
    (permutes : after.tables.enablePermuteLocalKv = before.tables.enablePermuteLocalKv)
    (remoteAgents : after.tables.remoteAgents = before.tables.remoteAgents)
    (metadata : after.reading.recvingMetadata = before.reading.recvingMetadata) :
    worker.NoneReceived loads before after where
  receiveCalls := receiveCalls
  reported := reported
  tables := .of_same blockSize permutes remoteAgents
  metadata _ _ known := .inl (metadata ▸ known)

theorem trans (first : worker.NoneReceived loads before middle)
    (second : worker.NoneReceived loads middle after) :
    worker.NoneReceived loads before after where
  receiveCalls := second.receiveCalls.trans first.receiveCalls
  reported := second.reported.trans first.reported
  tables := first.tables.trans second.tables
  metadata reqId saved known :=
    (second.metadata reqId saved known).elim (first.metadata reqId saved) .inr

theorem failWaiting (entries : List (ReqId × ReqMeta)) (receiving : Receiving ω) :
    worker.NoneReceived loads receiving (entries.foldl failWaiting receiving) := by
  induction entries generalizing receiving with
  | nil => exact of_same rfl rfl rfl rfl rfl rfl
  | cons entry entries ih =>
      have here : worker.NoneReceived loads receiving
          (ReceivingWorker.failWaiting receiving entry) :=
        of_same rfl rfl rfl rfl rfl rfl
      exact here.trans (ih _)

theorem handshakeDone (receiving : Receiving ω) (engineId : EngineId)
    (answers : ℕ → Except PyError HandshakePayload) :
    worker.NoneReceived loads receiving (worker.handshakeDone receiving engineId answers) := by
  rw [ReceivingWorker.handshakeDone]
  split
  · exact of_same rfl rfl rfl rfl rfl rfl
  · rename_i future _
    cases ran : worker.handshakes.nixlHandshake answers future.tpSize engineId
        receiving.tables with
    | mk tables result =>
        obtain ⟨settles, kept⟩ := HandshakeWorker.nixlHandshake_settles ran
        cases result with
        | ok agents =>
            simp only
            rw [runCallbacks_ok]
            exact ⟨rfl, rfl, kept agents rfl, fun _ _ => .inl⟩
        | error raised =>
            have here : worker.NoneReceived loads receiving
                { receiving with
                  tables
                  handshakeFutures := receiving.handshakeFutures.erase engineId } :=
              ⟨rfl, rfl, settles, fun _ _ => .inl⟩
            exact here.trans (failWaiting future.waiting _)

theorem readBlocksForReq (receiving : Receiving ω) (reqId : ReqId) (saved : ReqMeta) :
    worker.NoneReceived loads receiving (worker.readBlocksForReq receiving reqId saved).1 :=
  of_same rfl rfl rfl rfl rfl
    (ReadingWorker.readBlocksForReq_readsFor _ _ reqId saved).recvingMetadata

theorem loadRequest {reqId : ReqId} {saved : ReqMeta} (member : (reqId, saved) ∈ loads)
    (receiving : Receiving ω) :
    worker.NoneReceived loads receiving (worker.loadRequest receiving reqId saved).1 := by
  rw [ReceivingWorker.loadRequest]
  split
  · exact of_same rfl rfl rfl rfl rfl rfl
  · rename_i remote isRemote
    let started : Receiving ω :=
      { receiving with
        reading :=
          { receiving.reading with
            recvingMetadata :=
              receiving.reading.recvingMetadata.set reqId (worker.inKernelBlocks saved remote) } }
    have begins : worker.NoneReceived loads receiving started := by
      refine ⟨rfl, rfl, ⟨id, id, fun _ => id⟩, fun other found known => ?_⟩
      by_cases same : other = reqId
      · subst same
        have isSaved := AList.lookup_set.symm.trans known
        exact .inr ⟨saved, remote, member, isRemote, (Option.some.inj isSaved).symm⟩
      · exact .inl ((AList.lookup_set_ne same).symm.trans known)
    simp only
    split
    · exact begins.trans (of_same rfl rfl rfl rfl rfl rfl)
    · exact begins.trans (readBlocksForReq started reqId _)

theorem loadLoop {turns : List LoadTurn} (inside : turns.flatMap LoadTurn.loads ⊆ loads)
    (receiving : Receiving ω) :
    worker.NoneReceived loads receiving (worker.loadLoop turns receiving).1 := by
  induction turns generalizing receiving with
  | nil => exact of_same rfl rfl rfl rfl rfl rfl
  | cons turn turns ih =>
      rw [List.flatMap_cons, List.append_subset] at inside
      cases turn with
      | handshakeDone engineId answers =>
          exact (handshakeDone receiving engineId answers).trans (ih inside.2 _)
      | request reqId saved =>
          have here : worker.NoneReceived loads receiving
              (worker.loadRequest receiving reqId saved).1 :=
            loadRequest (inside.1 (List.mem_singleton_self (reqId, saved))) receiving
          rw [ReceivingWorker.loadLoop]
          split
          · rename_i middle loaded
            rw [loaded] at here
            exact here.trans (ih inside.2 middle)
          · rename_i middle raised loaded
            rw [loaded] at here
            exact here

theorem readReady (entries : List (ReqId × ReqMeta)) (receiving : Receiving ω) :
    worker.NoneReceived loads receiving (worker.readReady entries receiving).1 := by
  induction entries generalizing receiving with
  | nil => exact of_same rfl rfl rfl rfl rfl rfl
  | cons entry entries ih =>
      have start : worker.NoneReceived loads receiving
          { receiving with readyRequests := entries } :=
        of_same rfl rfl rfl rfl rfl rfl
      have here := start.trans (readBlocksForReq _ entry.1 entry.2)
      rw [ReceivingWorker.readReady]
      split
      · rename_i middle read
        rw [read] at here
        exact here.trans (ih middle)
      · rename_i middle raised read
        rw [read] at here
        exact here

theorem startLoadKv {turns : List LoadTurn} (inside : turns.flatMap LoadTurn.loads ⊆ loads)
    (receiving : Receiving ω) :
    worker.NoneReceived loads receiving (worker.startLoadKv receiving turns).1 := by
  have loaded : worker.NoneReceived loads receiving (worker.loadLoop turns receiving).1 :=
    loadLoop inside receiving
  rw [ReceivingWorker.startLoadKv]
  split
  · rename_i middle looped
    rw [looped] at loaded
    exact loaded.trans (readReady middle.readyRequests middle)
  · rename_i middle raised looped
    rw [looped] at loaded
    exact loaded

end NoneReceived

/-! ## Runs -/

variable {receiving next : Receiving ω}

theorem NoneReceived.deviceCalls {event : ReceiveEvent}
    (noneReceived : worker.NoneReceived loads receiving next)
    (taken : worker.step receiving event = .ok next) (layers : List (List KvTensor)) :
    worker.deviceCalls layers receiving event = [] := by
  rw [ReceivingWorker.deviceCalls, taken]
  simp only
  rw [noneReceived.receiveCalls, List.drop_length, List.flatMap_nil]

theorem NoneReceived.reports {event : ReceiveEvent}
    (noneReceived : worker.NoneReceived loads receiving next)
    (taken : worker.step receiving event = .ok next) (permutes : Bool) :
    worker.reports permutes receiving event = [] := by
  rw [ReceivingWorker.reports, taken]
  simp only
  rw [noneReceived.reported, List.drop_length, ite_self]

theorem Finishes.reports {event : ReceiveEvent} {layers : List (List KvTensor)}
    {done : List ReqId} {calls : List DeviceCall}
    (finishes : worker.Finishes layers receiving next done calls)
    (taken : worker.step receiving event = .ok next) (permutes : Bool) :
    worker.reports permutes receiving event =
      if receiving.tables.enablePermuteLocalKv = permutes then done else [] := by
  rw [ReceivingWorker.reports, taken]
  simp only
  rw [finishes.reported, List.drop_left]

theorem step_getFinished_eq_ok {checks : XferHandle → XferCheck} {order : SetOrder}
    (taken : worker.step receiving (.getFinished checks order) = .ok next) :
    ∃ done, worker.getFinished receiving checks order = (next, .ok done) := by
  rw [step] at taken
  split at taken
  · rename_i last done finished
    cases taken
    exact ⟨done, finished⟩
  · cases taken

/-- Every step receives nothing, or reports some requests. -/
theorem step_cases {event : ReceiveEvent} (inside : event.loads ⊆ loads)
    (taken : worker.step receiving event = .ok next) :
    worker.NoneReceived loads receiving next ∨ ∃ done : KeySet ReqId, ∀ layers,
      worker.Finishes layers receiving next done.keys
        (worker.deviceCalls layers receiving event) := by
  cases event with
  | startLoadKv turns =>
      have loaded : worker.NoneReceived loads receiving (worker.startLoadKv receiving turns).1 :=
        .startLoadKv inside receiving
      rw [step] at taken
      split at taken
      · rename_i last ran
        cases taken
        rw [ran] at loaded
        exact .inl loaded
      · cases taken
  | handshakeDone engineId answers =>
      cases taken
      exact .inl (.handshakeDone receiving engineId answers)
  | getFinished checks order =>
      obtain ⟨done, finished⟩ := step_getFinished_eq_ok taken
      exact .inr ⟨done, fun layers => getFinished_finishes layers finished⟩
  | getBlockIdsWithLoadErrors =>
      cases taken
      exact .inl (.of_same rfl rfl rfl rfl rfl rfl)

/-- Every request has metadata or was reported, and was loaded; none was reported twice. -/
structure Unrepeated (loads : List (ReqId × ReqMeta)) (receiving : Receiving ω) : Prop where
  /-- A request is tracked or reported, once. -/
  nodup : (receiving.reading.recvingMetadata.keys ++ receiving.log.reported).Nodup
  /-- Only loaded requests are. -/
  loaded : ∀ reqId ∈ receiving.reading.recvingMetadata.keys ++ receiving.log.reported,
    reqId ∈ loads.map Prod.fst

theorem Unrepeated.step {event : ReceiveEvent} (unrepeated : Unrepeated loads receiving)
    (distinct : ((loads ++ event.loads).map Prod.fst).Nodup)
    (taken : worker.step receiving event = .ok next) :
    Unrepeated (loads ++ event.loads) next := by
  rw [List.map_append, List.nodup_append] at distinct
  rcases step_cases (List.Subset.refl event.loads) taken with noneReceived | ⟨done, finishes⟩
  · have keys : ∀ reqId ∈ next.reading.recvingMetadata.keys,
        reqId ∈ receiving.reading.recvingMetadata.keys ∨ reqId ∈ event.loads.map Prod.fst := by
      intro reqId member
      obtain ⟨saved, known⟩ := Option.isSome_iff_exists.mp
        (AList.lookup_isSome.mpr (AList.mem_keys.mpr member))
      rcases noneReceived.metadata reqId saved known with earlier | ⟨load, _, isLoad, _⟩
      · exact .inl (AList.mem_keys.mp
          (AList.lookup_isSome.mp (Option.isSome_of_eq_some earlier)))
      · exact .inr (List.mem_map_of_mem isLoad)
    obtain ⟨_, once, apart⟩ := List.nodup_append.mp unrepeated.nodup
    refine ⟨?_, ?_⟩
    · rw [noneReceived.reported]
      refine List.nodup_append.mpr ⟨next.reading.recvingMetadata.keys_nodup, once, ?_⟩
      rintro reqId isKey other reported rfl
      rcases keys reqId isKey with earlier | isNew
      · exact apart reqId earlier reqId reported rfl
      · exact distinct.2.2 reqId (unrepeated.loaded reqId (List.mem_append_right _ reported))
          reqId isNew rfl
    · intro reqId member
      rw [noneReceived.reported] at member
      rw [List.map_append]
      rcases List.mem_append.mp member with isKey | reported
      · rcases keys reqId isKey with earlier | isNew
        · exact List.mem_append_left _ (unrepeated.loaded reqId (List.mem_append_left _ earlier))
        · exact List.mem_append_right _ isNew
      · exact List.mem_append_left _ (unrepeated.loaded reqId (List.mem_append_right _ reported))
  · have finishes := finishes []
    have same : (receiving.reading.recvingMetadata.keys ++ receiving.log.reported).Perm
        (next.reading.recvingMetadata.keys ++ next.log.reported) := by
      rw [finishes.reported]
      have moved := finishes.keys.append_right receiving.log.reported
      rw [List.append_assoc] at moved
      refine moved.trans (List.perm_append_comm.trans ?_)
      rw [List.append_assoc]
    refine ⟨same.nodup_iff.mp unrepeated.nodup, fun reqId member => ?_⟩
    rw [List.map_append]
    exact List.mem_append_left _ (unrepeated.loaded reqId (same.mem_iff.mpr member))

theorem Unrepeated.exec {events : List ReceiveEvent} {final : Receiving ω}
    (unrepeated : Unrepeated loads receiving)
    (distinct : ((loads ++ events.flatMap ReceiveEvent.loads).map Prod.fst).Nodup)
    (reached : Run.exec worker.step receiving events = .ok final) :
    Unrepeated (loads ++ events.flatMap ReceiveEvent.loads) final := by
  induction events generalizing receiving loads with
  | nil =>
      cases reached
      rw [List.flatMap_nil, List.append_nil]
      exact unrepeated
  | cons event events ih =>
      obtain ⟨middle, taken, rest⟩ := Run.exec_cons_eq_ok.mp reached
      rw [List.flatMap_cons, ← List.append_assoc] at distinct ⊢
      have here : ((loads ++ event.loads).map Prod.fst).Nodup := by
        rw [List.map_append] at distinct
        exact (List.nodup_append.mp distinct).1
      exact ih (unrepeated.step here taken) distinct rest

theorem step_settles {event : ReceiveEvent} (taken : worker.step receiving event = .ok next) :
    worker.handshakes.Settles receiving.tables next.tables := by
  rcases step_cases (List.Subset.refl event.loads) taken with noneReceived | ⟨done, finishes⟩
  · exact noneReceived.tables
  · exact .of_same (finishes []).blockSize (finishes []).permutes (finishes []).remoteAgents

theorem exec_settles {events : List ReceiveEvent} {final : Receiving ω}
    (reached : Run.exec worker.step receiving events = .ok final) :
    worker.handshakes.Settles receiving.tables final.tables := by
  induction events generalizing receiving with
  | nil =>
      cases reached
      exact .of_same rfl rfl rfl
  | cons event events ih =>
      obtain ⟨middle, taken, rest⟩ := Run.exec_cons_eq_ok.mp reached
      exact (step_settles taken).trans (ih rest)

theorem lookup_of_mem (distinct : (loads.map Prod.fst).Nodup) {reqId : ReqId} {saved : ReqMeta}
    (member : (reqId, saved) ∈ loads) : loads.lookup reqId = some saved := by
  induction loads with
  | nil => cases member
  | cons load loads ih =>
      obtain ⟨fresh, distinct⟩ := List.nodup_cons.mp distinct
      rcases List.mem_cons.mp member with rfl | member
      · rw [List.lookup_cons, BEq.rfl]
      · have different : (reqId == load.1) = false := by
          refine beq_eq_false_iff_ne.mpr fun same => fresh ?_
          exact List.mem_map.mpr ⟨(reqId, saved), member, same⟩
        rw [List.lookup_cons, different]
        exact ih distinct member

theorem receivedRatio_eq (distinct : (loads.map Prod.fst).Nodup) {metadata : Dict ReqId ReqMeta}
    {reqId : ReqId} {saved : ReqMeta} (isSaved : metadata.lookup reqId = some saved)
    (loaded : worker.IsLoaded loads reqId saved) (tables : Handshakes ω) :
    worker.receivedRatio tables metadata reqId = worker.producerRatio loads tables reqId := by
  obtain ⟨load, remote, member, isRemote, rfl⟩ := loaded
  rw [receivedRatio, isSaved, producerRatio, lookup_of_mem distinct member]
  change _ = load.remote.bind _
  rw [isRemote]
  rfl

theorem producerRatio_settles {tables later : Handshakes ω}
    (settles : worker.handshakes.Settles tables later) {reqId : ReqId} {ratio : ℕ}
    (known : worker.producerRatio loads tables reqId = some ratio) :
    worker.producerRatio loads later reqId = some ratio := by
  obtain ⟨load, isLoad, known⟩ := Option.bind_eq_some_iff.mp known
  obtain ⟨remote, isRemote, known⟩ := Option.bind_eq_some_iff.mp known
  obtain ⟨size, isSize, fits⟩ :=
    HandshakeWorker.blockSizeRatioFromEngineId_eq_ok.mp (Run.toOption_eq_some.mp known)
  refine Option.bind_eq_some_iff.mpr ⟨load, isLoad, ?_⟩
  refine Option.bind_eq_some_iff.mpr ⟨remote, isRemote, Run.toOption_eq_some.mpr ?_⟩
  exact HandshakeWorker.blockSizeRatioFromEngineId_eq_ok.mpr
    ⟨size, settles.blockSize isSize, fits⟩

/-- A received request has the blocks and the ratio of its load, also after the run. -/
theorem received_of_loaded (distinct : (loads.map Prod.fst).Nodup) {tables later : Handshakes ω}
    (settles : worker.handshakes.Settles tables later) {metadata : Dict ReqId ReqMeta}
    (loaded : ∀ reqId saved, metadata.lookup reqId = some saved →
      worker.IsLoaded loads reqId saved) {reqId : ReqId}
    (known : (worker.receivedRatio tables metadata reqId).isSome) :
    receivedBlocks metadata reqId = worker.deviceBlocks loads reqId ∧
      ∃ ratio, worker.receivedRatio tables metadata reqId = some ratio ∧
        worker.producerRatio loads later reqId = some ratio := by
  obtain ⟨ratio, isRatio⟩ := Option.isSome_iff_exists.mp known
  obtain ⟨saved, isSaved, _⟩ := Option.bind_eq_some_iff.mp isRatio
  have isLoaded := loaded reqId saved isSaved
  refine ⟨?_, ratio, isRatio, ?_⟩
  · obtain ⟨load, remote, member, _, rfl⟩ := isLoaded
    rw [receivedBlocks, isSaved, deviceBlocks, lookup_of_mem distinct member]
    rfl
  · rw [receivedRatio_eq distinct isSaved isLoaded] at isRatio
    exact producerRatio_settles settles isRatio

/-- All metadata are of loads. -/
def AllLoaded (worker : ReceivingWorker ω) (loads : List (ReqId × ReqMeta))
    (receiving : Receiving ω) : Prop :=
  ∀ reqId saved, receiving.reading.recvingMetadata.lookup reqId = some saved →
    worker.IsLoaded loads reqId saved

theorem AllLoaded.step {event : ReceiveEvent} (loaded : worker.AllLoaded loads receiving)
    (inside : event.loads ⊆ loads) (taken : worker.step receiving event = .ok next) :
    worker.AllLoaded loads next := by
  intro reqId saved known
  rcases step_cases inside taken with noneReceived | ⟨done, finishes⟩
  · exact (noneReceived.metadata reqId saved known).elim (loaded reqId saved) id
  · exact loaded reqId saved ((finishes []).metadata reqId saved known)

theorem AllLoaded.exec {events : List ReceiveEvent} {final : Receiving ω}
    (loaded : worker.AllLoaded loads receiving)
    (inside : events.flatMap ReceiveEvent.loads ⊆ loads)
    (reached : Run.exec worker.step receiving events = .ok final) :
    worker.AllLoaded loads final := by
  induction events generalizing receiving with
  | nil =>
      cases reached
      exact loaded
  | cons event events ih =>
      obtain ⟨middle, taken, rest⟩ := Run.exec_cons_eq_ok.mp reached
      rw [List.flatMap_cons, List.append_subset] at inside
      exact ih (loaded.step inside.1 taken) inside.2 rest


end ReceivingWorker

end RduHdi
