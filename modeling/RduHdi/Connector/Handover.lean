import RduHdi.Connector.SchedulerRun

/-!
# What the scheduler side hands over

Besides the requests of the step, a metadata takes over everything the scheduler side collected
since the last one: expirations, batch entries, aborts and consumer registrations.  The loops of
`build_connector_meta` do not touch these.
-/

namespace RduHdi

/-- What waits for the next metadata. -/
structure Collected where
  /-- `_reqs_need_send`. -/
  reqsNeedSend : Dict ReqId ℚ
  /-- `_reqs_in_batch`. -/
  reqsInBatch : KeySet ReqId
  /-- `_reqs_not_processed`. -/
  reqsNotProcessed : KeySet ReqId
  /-- The pending registrations of consumers. -/
  registrations : List PyObj

namespace NixlConnectorScheduler

def collected (scheduler : NixlConnectorScheduler) : Collected where
  reqsNeedSend := scheduler.reqsNeedSend
  reqsInBatch := scheduler.reqsInBatch
  reqsNotProcessed := scheduler.reqsNotProcessed
  registrations := scheduler.pendingConsumerRegistrations

theorem collected_saveEntry (config : SchedulerConfig)
    (state : NixlConnectorScheduler × NixlConnectorMetadata) (scheduled : ScheduledReq) :
    (saveEntry config state scheduled).1.collected = state.1.collected := by
  obtain ⟨scheduler, metadata⟩ := state
  have labelled : ∀ metadata isLast,
      (scheduler.labelChunk config metadata scheduled.reqId isLast).1.collected =
        scheduler.collected := by
    intro metadata isLast
    rw [labelChunk]
    split <;> rfl
  have counted : ∀ scheduler : NixlConnectorScheduler,
      (scheduler.countChunk scheduled.reqId).collected = scheduler.collected := by
    intro scheduler
    rw [countChunk]
    split <;> rfl
  rw [saveEntry]
  simp only
  split
  · split
    · rw [counted, labelled]
    · exact (counted _).trans (labelled _ _)
  · rfl

theorem collected_saveLoop (config : SchedulerConfig) (entries : List ScheduledReq)
    (state : NixlConnectorScheduler × NixlConnectorMetadata) :
    (entries.foldl (saveEntry config) state).1.collected = state.1.collected := by
  induction entries generalizing state with
  | nil => rfl
  | cons scheduled entries ih => rw [List.foldl_cons, ih, collected_saveEntry]

/-- A build moves what is collected into the metadata. -/
theorem collected_build {config : SchedulerConfig} {scheduler next : NixlConnectorScheduler}
    {output : SchedulerOutput} {metadata : NixlConnectorMetadata}
    (taken : scheduler.buildConnectorMeta config output = .ok (next, metadata)) :
    metadata.reqsToSend = scheduler.reqsNeedSend ∧
      metadata.reqsInBatch = scheduler.reqsInBatch ∧
      metadata.reqsNotProcessed = scheduler.reqsNotProcessed ∧
      next.reqsNeedSend = ∅ ∧ next.reqsInBatch = ∅ ∧ next.reqsNotProcessed = ∅ ∧
      (config.chunkOverlapEnabled = true →
        metadata.consumerRegistrations = scheduler.pendingConsumerRegistrations ∧
          next.pendingConsumerRegistrations = []) := by
  obtain ⟨received, _, pair⟩ := buildConnectorMeta_eq_ok taken
  have kept := collected_saveLoop config output.reqData (scheduler, received)
  obtain ⟨rfl, rfl⟩ := Prod.mk.inj pair
  refine ⟨congrArg Collected.reqsNeedSend kept, congrArg Collected.reqsInBatch kept,
    congrArg Collected.reqsNotProcessed kept, rfl, rfl, rfl, fun overlap => ?_⟩
  have registrations := congrArg Collected.registrations kept
  exact ⟨(if_pos overlap).trans registrations, if_pos overlap⟩

theorem collected_alloc {config : SchedulerConfig} {scheduler next : NixlConnectorScheduler}
    {request after : Request} {unhashedBlockIds : List ℕ} {numExternalTokens : ℕ} {now : ℚ}
    (taken : scheduler.updateStateAfterAlloc config request unhashedBlockIds numExternalTokens
      now = .ok (next, after)) :
    next.reqsNeedSend = scheduler.reqsNeedSend ∧
      next.reqsNotProcessed = scheduler.reqsNotProcessed ∧
      next.pendingConsumerRegistrations = scheduler.pendingConsumerRegistrations := by
  obtain ⟨needed, rfl⟩ := updateStateAfterAlloc_eq_ok taken
  simp only [allocEffect]
  split <;> exact ⟨rfl, rfl, rfl⟩

/-- A finish collects an expiration, an abort, or nothing. -/
theorem collected_finish (config : SchedulerConfig) (scheduler : NixlConnectorScheduler)
    (call : FinishCall) :
    let next := (scheduler.requestFinished config call.request call.status call.blockIds
      call.now).1
    next.pendingConsumerRegistrations = scheduler.pendingConsumerRegistrations ∧
      ((next.reqsNeedSend = scheduler.reqsNeedSend ∧
          next.reqsNotProcessed = scheduler.reqsNotProcessed) ∨
        (call.status = .finishedLengthCapped ∧
          next.reqsNeedSend = scheduler.reqsNeedSend.set call.request.requestId
            (call.now + config.abortRequestTimeout) ∧
          next.reqsNotProcessed = scheduler.reqsNotProcessed) ∨
        (call.status = .other ∧ next.reqsNeedSend = scheduler.reqsNeedSend ∧
          next.reqsNotProcessed = scheduler.reqsNotProcessed.add call.request.requestId)) := by
  intro next
  have unfolded : next = (scheduler.requestFinished config call.request call.status call.blockIds
    call.now).1 := rfl
  simp only [requestFinished] at unfolded
  cases prefilled : call.request.kvTransferParams.doRemotePrefill with
  | true =>
      rw [if_pos prefilled] at unfolded
      rw [unfolded]
      exact ⟨rfl, Or.inl ⟨rfl, rfl⟩⟩
  | false =>
      rw [if_neg (by simp [prefilled])] at unfolded
      cases decodes : call.request.kvTransferParams.doRemoteDecode with
      | false =>
          rw [if_pos (by simp [decodes])] at unfolded
          rw [unfolded]
          exact ⟨rfl, Or.inl ⟨rfl, rfl⟩⟩
      | true =>
          rw [if_neg (by simp [decodes])] at unfolded
          cases status : call.status with
          | other =>
              rw [if_pos (by simp [status])] at unfolded
              rw [unfolded]
              exact ⟨rfl, Or.inr (Or.inr ⟨rfl, rfl, rfl⟩)⟩
          | finishedLengthCapped =>
              rw [if_neg (by simp [status])] at unfolded
              rw [unfolded]
              by_cases empty : call.blockIds.isEmpty
              · exact ⟨rfl, Or.inl ⟨by simp [empty], rfl⟩⟩
              · exact ⟨rfl, Or.inr (Or.inl ⟨rfl, by simp [empty], rfl⟩)⟩

end NixlConnectorScheduler

end RduHdi
