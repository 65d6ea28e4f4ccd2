import RduHdi.Connector.ReceiveSteps

/-!
# When `get_finished` raises

Requests of an engine whose ratio of block sizes is not known are taken for received when their
handshake failed.  `get_finished` raises on them, and what it received with them is lost.
-/

namespace RduHdi

/-- What `get_finished` takes for received. -/
def Reading.Receives {ω : Type} (reading : Reading ω) (checks : XferHandle → XferCheck)
    (reqId : ReqId) : Prop :=
  reqId ∈ reading.failedRecvReqs ∨ ∃ handles, reading.recvingTransfers.lookup reqId = some handles ∧
    ∀ handle ∈ handles, (checks handle).isProc = false

namespace ReceivingWorker

variable {ω : Type} {worker : ReceivingWorker ω} {loads : List (ReqId × ReqMeta)}
variable {receiving next : Receiving ω}

/-- What the loop changes, also when it raises. -/
theorem finishLoop_state (worker : ReceivingWorker ω) (reqIds : List ReqId)
    (start : Dict ℕ (List (List ℕ))) (receiving : Receiving ω) :
    ∃ recvingMetadata receiveCalls, (worker.finishLoop reqIds start receiving).1 =
      { receiving with
        reading := { receiving.reading with recvingMetadata }
        receiveCalls } := by
  induction reqIds generalizing start receiving with
  | nil => exact ⟨receiving.reading.recvingMetadata, receiving.receiveCalls, rfl⟩
  | cons reqId reqIds ih =>
      cases known : worker.receivedRatio receiving.tables receiving.reading.recvingMetadata
          reqId with
      | some ratio =>
          rw [finishLoop_of_some known]
          obtain ⟨recvingMetadata, receiveCalls, same⟩ := ih _ _
          exact ⟨recvingMetadata, receiveCalls, same⟩
      | none =>
          obtain ⟨recvingMetadata, receiveCalls, raised, raises⟩ := finishLoop_of_none known
          rw [raises]
          exact ⟨recvingMetadata, receiveCalls, rfl⟩

theorem postProcessLoop_state (entries : List (Σ _ : ℕ, List (List ℕ)))
    (receiving : Receiving ω) :
    ∃ receiveCalls, (postProcessLoop entries receiving).1 = { receiving with receiveCalls } := by
  induction entries generalizing receiving with
  | nil => exact ⟨receiving.receiveCalls, rfl⟩
  | cons entry entries ih =>
      rw [postProcessLoop]
      split
      · obtain ⟨receiveCalls, same⟩ := ih _
        exact ⟨receiveCalls, same⟩
      · exact ⟨receiving.receiveCalls, rfl⟩

theorem receivedRatio_pos (sized : 0 < worker.handshakes.caches.blockSize) {tables : Handshakes ω}
    {metadata : Dict ReqId ReqMeta} {reqId : ReqId} {ratio : ℕ}
    (known : worker.receivedRatio tables metadata reqId = some ratio) : ratio ≥ 1 := by
  obtain ⟨saved, _, known⟩ := Option.bind_eq_some_iff.mp known
  obtain ⟨remote, _, known⟩ := Option.bind_eq_some_iff.mp known
  obtain ⟨size, _, fits⟩ :=
    HandshakeWorker.blockSizeRatioFromEngineId_eq_ok.mp (Run.toOption_eq_some.mp known)
  have product := worker.handshakes.rules.blockSizeRatio_mul fits
  refine Nat.one_le_iff_ne_zero.mpr fun zero => ?_
  rw [zero, Nat.zero_mul] at product
  omega

/-- The ratios that the loop collects are those of requests. -/
theorem finishLoop_ratios (sized : 0 < worker.handshakes.caches.blockSize) {reqIds : List ReqId}
    {start postProcess : Dict ℕ (List (List ℕ))} {receiving next : Receiving ω}
    (positive : ∀ ratio ∈ start, ratio ≥ 1)
    (finished : worker.finishLoop reqIds start receiving = (next, .ok postProcess)) :
    ∀ ratio ∈ postProcess, ratio ≥ 1 := by
  induction reqIds generalizing start receiving with
  | nil =>
      cases finished
      exact positive
  | cons reqId reqIds ih =>
      cases known : worker.receivedRatio receiving.tables receiving.reading.recvingMetadata
          reqId with
      | none =>
          obtain ⟨_, _, _, raises⟩ := finishLoop_of_none known
          cases raises.symm.trans finished
      | some ratio =>
          rw [finishLoop_of_some known] at finished
          refine ih ?_ finished
          split
          · intro other member
            rcases AList.mem_set.mp member with rfl | earlier
            · exact receivedRatio_pos sized known
            · exact positive other earlier
          · exact positive

variable {checks : XferHandle → XferCheck} {order : SetOrder}

/-- A call returns when the ratio of every request that it takes for received is known. -/
theorem getFinished_returns_iff (sized : 0 < worker.handshakes.caches.blockSize) :
    (∃ next done, worker.getFinished receiving checks order = (next, .ok done)) ↔
      ∀ reqId, receiving.reading.Receives checks reqId → (worker.receivedRatio receiving.tables
        receiving.reading.recvingMetadata reqId).isSome := by
  constructor
  · rintro ⟨next, done, finished⟩ reqId receives
    obtain ⟨_, _, _, _, _, received, _⟩ := getFinished_parts finished
    have member : reqId ∈ done.keys := AList.mem_keys.mp ((received.mem_iff reqId).mpr receives)
    exact (getFinished_finishes [] finished).known reqId member
  · intro known
    have received := received_onReading worker checks receiving
    cases taken : receiving.onReading (worker.doneRecving checks) with
    | mk middle isDone =>
        rw [taken] at received
        have blockSize : middle.tables.blockSize = receiving.tables.blockSize := by
          have isMiddle : middle = (receiving.onReading (worker.doneRecving checks)).1 := by
            rw [taken]
          rw [isMiddle]
          rfl
        have nodup : (order.arrange isDone.keys).Nodup :=
          (order.perm isDone.keys).nodup_iff.mpr isDone.keys_nodup
        have all : ∀ reqId ∈ order.arrange isDone.keys, (worker.receivedRatio middle.tables
            middle.reading.recvingMetadata reqId).isSome := by
          intro reqId member
          rw [receivedRatio_congr blockSize, received.recvingMetadata]
          apply known reqId
          exact (received.mem_iff reqId).mp
            (AList.mem_keys.mpr ((order.perm isDone.keys).mem_iff.mp member))
        obtain ⟨forgotten, postProcess, looped⟩ : ∃ forgotten postProcess,
            worker.finishLoop (order.arrange isDone.keys) ∅ middle = (forgotten, .ok postProcess) :=
          (finishLoop_returns_iff nodup).mpr all
        have ratios : ∀ ratio ∈ postProcess, ratio ≥ 1 :=
          finishLoop_ratios sized (fun _ member => absurd member (AList.notMem_empty _)) looped
        obtain ⟨last, processed⟩ : ∃ last,
            postProcessLoop postProcess.entries forgotten = (last, .ok ()) :=
          postProcessLoop_returns fun entry isEntry =>
            ratios entry.1 (AList.mem_keys.mpr (List.mem_keys_of_mem isEntry))
        rw [getFinished, taken]
        simp only [looped, processed]
        exact ⟨_, _, rfl⟩

/-- What a call that raises took for received is forgotten and not reported. -/
theorem getFinished_forgets (ended : FailedEnded receiving.reading checks)
    {raised : ReceiveError}
    (raises : worker.getFinished receiving checks order = (next, .error raised)) :
    next.log.reported = receiving.log.reported ∧
      ∀ reqId, receiving.reading.Receives checks reqId → ¬ next.reading.Handles reqId := by
  have received := received_onReading worker checks receiving
  have kept : next.log.reported = receiving.log.reported ∧
      next.reading.recvingTransfers =
        (receiving.onReading (worker.doneRecving checks)).1.reading.recvingTransfers ∧
      next.reading.failedRecvReqs =
        (receiving.onReading (worker.doneRecving checks)).1.reading.failedRecvReqs := by
    rw [getFinished] at raises
    simp only at raises
    split at raises
    · rename_i last error looped
      cases raises
      obtain ⟨recvingMetadata, receiveCalls, same⟩ := worker.finishLoop_state
        (order.arrange (receiving.onReading (worker.doneRecving checks)).2.keys) ∅
        (receiving.onReading (worker.doneRecving checks)).1
      rw [looped] at same
      obtain rfl : next = _ := same
      exact ⟨rfl, rfl, rfl⟩
    · rename_i forgotten postProcess looped
      obtain ⟨_, _, recvingMetadata, receiveCalls, rfl⟩ := worker.finishLoop_eq_ok looped
      split at raises
      · rename_i last error processed
        cases raises
        obtain ⟨laterCalls, same⟩ := postProcessLoop_state postProcess.entries
          { (receiving.onReading (worker.doneRecving checks)).1 with
            reading :=
              { (receiving.onReading (worker.doneRecving checks)).1.reading with recvingMetadata }
            receiveCalls }
        rw [processed] at same
        obtain rfl : next = _ := same
        exact ⟨rfl, rfl, rfl⟩
      · cases raises
  obtain ⟨reported, transfers, failures⟩ := kept
  refine ⟨reported, fun reqId receives handled => ?_⟩
  rcases handled with read | failed
  · rw [transfers] at read
    obtain ⟨handles, known, handle, isHandle, goesOn⟩ := received.recvingTransfers reqId read
    rcases receives with failed | ⟨others, isOther, stopped⟩
    · cases (ended reqId failed handles known handle isHandle).symm.trans goesOn
    · obtain rfl := Option.some.inj (isOther.symm.trans known)
      cases (stopped handle isHandle).symm.trans goesOn
  · rw [failures, received.failedRecvReqs] at failed
    exact AList.notMem_empty _ failed

theorem receives_known {pending : List (ReqId × ReqMeta)} {reading : Reading ω} {log : ReceiveLog}
    (placed : Placed loads pending reading log) {reqId : ReqId}
    (receives : reading.Receives checks reqId) : reqId ∈ reading.recvingMetadata := by
  rcases receives with failed | ⟨handles, known, _⟩
  · exact placed.failed_known reqId failed
  · exact placed.transfers_known reqId (AList.lookup_isSome.mp (Option.isSome_of_eq_some known))

/-- **When `get_finished` raises.**  In every state of a run that loads distinct requests (and in
which no transfer goes on of a request that failed when `get_finished` asks), the next call of
`get_finished` raises exactly when it takes a request for received of which the ratio of block
sizes is not known; this is no request of an engine with which a handshake has gone through.  What
the call took for received is then neither reported nor found again. -/
theorem get_finished_raises_iff (worker : ReceivingWorker ω)
    (sized : 0 < worker.handshakes.caches.blockSize)
    (someWorker : 0 < worker.handshakes.worldSize) {tables : Handshakes ω}
    (fresh : tables.remoteAgents = ∅) {events : List ReceiveEvent}
    (distinct : ((events.flatMap ReceiveEvent.loads).map Prod.fst).Nodup)
    (quiet : Run.Throughout worker.step FailedAreQuiet (.init tables) events) {final : Receiving ω}
    (reached : Run.exec worker.step (.init tables) events = .ok final)
    {checks : XferHandle → XferCheck} (order : SetOrder)
    (ended : FailedAreQuiet final (.getFinished checks order)) :
    let loads := events.flatMap ReceiveEvent.loads
    ((∃ raised, (worker.getFinished final checks order).2 = .error raised) ↔
      ∃ load ∈ loads, final.reading.Receives checks load.1 ∧
        worker.producerRatio loads final.tables load.1 = none) ∧
    (∀ load ∈ loads, ∀ remote, load.2.remote = some remote →
      remote.engineId ∈ final.tables.remoteAgents →
        worker.producerRatio loads final.tables load.1 ≠ none) ∧
    ∀ last raised, worker.getFinished final checks order = (last, .error raised) →
      last.log.reported = final.log.reported ∧
        ∀ reqId, final.reading.Receives checks reqId → ¬ last.reading.Handles reqId := by
  intro loads
  have start : AllPlaced [] (Receiving.init tables) := .init tables.world
  have placed : AllPlaced loads final := exec_placed worker start distinct quiet reached
  have nothing_loaded : worker.AllLoaded loads (.init tables) := nofun
  have loaded := nothing_loaded.exec (List.Subset.refl _) reached
  have ratio_eq : ∀ reqId, final.reading.Receives checks reqId →
      (∃ saved, (reqId, saved) ∈ loads) ∧
      worker.receivedRatio final.tables final.reading.recvingMetadata reqId =
        worker.producerRatio loads final.tables reqId := by
    intro reqId receives
    obtain ⟨saved, isSaved⟩ := Option.isSome_iff_exists.mp
      (AList.lookup_isSome.mpr (receives_known placed receives))
    have isLoaded := loaded reqId saved isSaved
    refine ⟨?_, receivedRatio_eq distinct isSaved isLoaded final.tables⟩
    obtain ⟨load, _, member, _⟩ := isLoaded
    exact ⟨load, member⟩
  refine ⟨⟨?_, ?_⟩, ?_, fun last raised raises => getFinished_forgets ended raises⟩
  · rintro ⟨raised, raises⟩
    by_contra none
    have returns : ∀ reqId, final.reading.Receives checks reqId → (worker.receivedRatio
        final.tables final.reading.recvingMetadata reqId).isSome := by
      intro reqId receives
      obtain ⟨⟨saved, member⟩, same⟩ := ratio_eq reqId receives
      rw [same]
      refine Option.isSome_iff_ne_none.mpr fun unknown => none ?_
      exact ⟨(reqId, saved), member, receives, unknown⟩
    obtain ⟨next, done, finished⟩ := (getFinished_returns_iff sized).mpr returns
    rw [finished] at raises
    cases raises
  · rintro ⟨load, _, receives, unknown⟩
    cases finished : worker.getFinished final checks order with
    | mk next result =>
        cases result with
        | error raised => exact ⟨raised, rfl⟩
        | ok done =>
            have known := (getFinished_returns_iff sized).mp ⟨next, done, finished⟩ load.1 receives
            rw [(ratio_eq load.1 receives).2, unknown] at known
            cases known
  · intro load member remote isRemote isKnown
    have knows : worker.handshakes.KnowsRatios tables := by
      intro engineId never
      rw [fresh] at never
      cases never
    obtain ⟨size, ratio, isSize, fits⟩ :=
      (exec_settles reached).ratios someWorker knows remote.engineId isKnown
    have isRatio := HandshakeWorker.blockSizeRatioFromEngineId_eq_ok.mpr ⟨size, isSize, fits⟩
    rw [producerRatio, lookup_of_mem distinct member]
    change load.2.remote.bind _ ≠ none
    rw [isRemote]
    change (worker.handshakes.blockSizeRatioFromEngineId remote.engineId
      final.tables).2.toOption ≠ none
    rw [isRatio]
    exact Option.some_ne_none ratio

/-! ## A handshake that fails -/

/-- The producer does not answer. -/
def failedRun : List ReceiveEvent :=
  [.startLoadKv [.request "request" halvesRequest],
    .handshakeDone "prefill" fun _ => .error .runtimeError]

theorem get_finished_raises_iff_failedRun :
    ∃ final last raised, Run.exec pickyWorker.step (.init HandshakeWorker.loneStart) failedRun =
        .ok final ∧
      pickyWorker.getFinished final (allChecks .done) listOrder = (last, .error raised) ∧
      "request" ∉ last.log.reported ∧ ¬ last.reading.Handles "request" := by
  have ran : (Run.exec pickyWorker.step (.init HandshakeWorker.loneStart) failedRun).toOption.any
      (fun final => decide ("request" ∈ final.reading.failedRecvReqs ∧ final.log.reported = [] ∧
        pickyWorker.producerRatio (failedRun.flatMap ReceiveEvent.loads) final.tables "request" =
          none)) = true := by decide +kernel
  obtain ⟨final, reached, seen⟩ := Run.exists_of_any ran
  obtain ⟨failed, none_reported, unknown⟩ := of_decide_eq_true seen
  have quiet : Run.Throughout pickyWorker.step FailedAreQuiet (.init HandshakeWorker.loneStart)
      failedRun := ⟨trivial, fun _ _ => ⟨trivial, fun _ _ => trivial⟩⟩
  have distinct : ((failedRun.flatMap ReceiveEvent.loads).map Prod.fst).Nodup :=
    List.nodup_singleton "request"
  have ended : FailedAreQuiet final (.getFinished (allChecks .done) listOrder) :=
    fun _ _ _ _ _ _ => rfl
  obtain ⟨raises_iff, _, forgets⟩ := get_finished_raises_iff pickyWorker (Nat.succ_pos 3)
    Nat.one_pos rfl distinct quiet reached listOrder ended
  obtain ⟨raised, raises⟩ := raises_iff.mpr ⟨("request", halvesRequest),
    List.mem_singleton_self _, .inl failed, unknown⟩
  cases finished : pickyWorker.getFinished final (allChecks .done) listOrder with
  | mk last result =>
      rw [finished] at raises
      obtain rfl : result = .error raised := raises
      obtain ⟨same, forgotten⟩ := forgets last raised finished
      refine ⟨final, last, raised, reached, finished, ?_, forgotten "request" (.inl failed)⟩
      rw [same, none_reported]
      exact List.not_mem_nil

end ReceivingWorker

end RduHdi
