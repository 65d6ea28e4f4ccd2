import RduHdi.Connector.ChunkLabels
import RduHdi.Connector.ChunkNotify
import RduHdi.Connector.ChunkWire
import RduHdi.Connector.StagingCoverage

/-!
# The stream of chunks, end to end

From the scheduler's labels to what a consumer decodes: the chunks that are handed out for a request
arrive as they were labelled, in order, or wait for a consumer; and a chunk is announced only when
its blocks are in host memory.
-/

namespace RduHdi

namespace ChunkPipeline

open ChunkNotify StagingCoverage StagingWorker

variable {ω : Type*} (worker : StagingWorker ω)

/-! ## Attempts after copies -/

/-- The blocks in host memory of a chunk. -/
def hostBlocks (chunk : ChunkNotif) : List ℕ :=
  worker.kernel.logicalToKernelBlockIds chunk.blockIds

/-- The blocks that some sends announce for a request. -/
def announced (reqId : ReqId) (sends : List ChunkSend) : List (List ℕ) :=
  (Outbox.ofKey reqId (sends.map ChunkSend.label)).map (hostBlocks worker)

/-- At every point of a log, the attempts so far belong to sends of which all blocks have been
copied. -/
def CopiesLead (sends : List ChunkSend) (calls : List StagingCall) : Prop :=
  ∀ front, front <+: calls → ∃ begun, begun <+: sends ∧
    front.filterMap attemptOf <+: begun.flatMap ChunkSend.attempts ∧
    ∀ reqId, announced worker reqId begun <+: front.filterMap (copyFor reqId)

theorem copiesLead_nil : CopiesLead worker [] [] := by
  intro front isFront
  rw [List.prefix_nil.mp isFront]
  exact ⟨[], List.prefix_rfl, List.prefix_rfl, fun _ => List.prefix_rfl⟩

variable {worker} {sends newSends : List ChunkSend} {log more : List StagingCall}

theorem CopiesLead.copy (leads : CopiesLead worker sends log) (reqId : ReqId)
    (blockIds : List ℕ) : CopiesLead worker sends (log ++ [.copyBlocks reqId blockIds]) := by
  intro front isFront
  rcases List.prefix_concat_iff.mp isFront with rfl | earlier
  · obtain ⟨begun, isBegun, tried, copied⟩ := leads log List.prefix_rfl
    refine ⟨begun, isBegun, ?_, fun other => ?_⟩
    · have none : [StagingCall.copyBlocks reqId blockIds].filterMap attemptOf = [] := rfl
      rwa [List.filterMap_append, none, List.append_nil]
    · rw [List.filterMap_append]
      exact (copied other).trans (List.prefix_append _ _)
  · exact leads front earlier

/-- More is sent, of what was copied. -/
theorem CopiesLead.append (leads : CopiesLead worker sends log)
    (tried : (log ++ more).filterMap attemptOf = (sends ++ newSends).flatMap ChunkSend.attempts)
    (bounded : ∀ reqId,
      announced worker reqId (sends ++ newSends) <+: log.filterMap (copyFor reqId)) :
    CopiesLead worker (sends ++ newSends) (log ++ more) := by
  intro front isFront
  rcases List.prefix_or_prefix_of_prefix isFront (List.prefix_append log more) with earlier | later
  · obtain ⟨begun, isBegun, rest⟩ := leads front earlier
    exact ⟨begun, isBegun.trans (List.prefix_append _ _), rest⟩
  · obtain ⟨part, rfl⟩ := later
    refine ⟨sends ++ newSends, List.prefix_rfl, ?_, fun reqId => ?_⟩
    · rw [← tried]
      exact isFront.filterMap attemptOf
    · rw [List.filterMap_append]
      exact (bounded reqId).trans (List.prefix_append _ _)

variable (worker)

/-- The chunks that were saved for each request are kept and copied, and every one is copied before
it is announced. -/
structure Piped (saved : ReqId → List ChunkNotif) (sends : List ChunkSend)
    (staging : Staging ω) : Prop where
  /-- What is saved is sent or buffered. -/
  kept : Kept saved sends staging
  /-- What is saved was copied to host memory. -/
  copied : ∀ reqId, copies reqId staging = (saved reqId).map (hostBlocks worker)
  /-- Copies come before the sends of their blocks. -/
  leads : CopiesLead worker sends staging.calls

theorem piped_init (world : ω) : Piped worker (fun _ => []) [] (Staging.init world) where
  kept := kept_init world
  copied _ := rfl
  leads := copiesLead_nil worker

variable {worker} {saved : ReqId → List ChunkNotif} {staging next : Staging ω}

theorem announced_prefix (kept : Kept saved sends staging) (reqId : ReqId) :
    announced worker reqId sends <+: (saved reqId).map (hostBlocks worker) := by
  rw [← kept.stream reqId, Outbox.stream, List.map_append]
  exact List.prefix_append _ _

theorem calls_steps (steps : worker.Steps staging next) : staging.calls <+: next.calls := by
  induction steps with
  | refl => exact List.prefix_rfl
  | tail _ step ih =>
      cases step with
      | sendNotif agent notif => exact ih.trans (List.prefix_append _ _)
      | addRemoteAgent agentMeta => exact ih
      | setMaps agents engines pending => exact ih

theorem Piped.of_steps
    (copied : ∀ reqId, copies reqId staging = (saved reqId).map (hostBlocks worker))
    (leads : CopiesLead worker sends staging.calls) (steps : worker.Steps staging next)
    (kept : Kept saved (sends ++ newSends) next) : Piped worker saved (sends ++ newSends) next := by
  refine ⟨kept, fun reqId => (copies_steps reqId steps).trans (copied reqId), ?_⟩
  obtain ⟨more, isMore⟩ := calls_steps steps
  rw [← isMore]
  refine leads.append (isMore ▸ kept.tracks.attempts) fun reqId => ?_
  rw [show staging.calls.filterMap (copyFor reqId) = _ from copied reqId]
  exact announced_prefix kept reqId

/-! ## Steps -/

theorem Piped.registerFrom (overlap : worker.chunkOverlapEnabled = true)
    (piped : Piped worker saved sends staging) (metadata : NixlConnectorMetadata) :
    ∃ flushed, Piped worker saved (sends ++ flushed) (worker.registerFrom staging metadata) := by
  obtain ⟨flushed, kept⟩ := kept_register worker overlap piped.kept metadata
  have copied : ∀ reqId,
      copies reqId (staging.noteRegistrations (worker.registrationsOf metadata)) =
        (saved reqId).map (hostBlocks worker) := piped.copied
  exact ⟨flushed, .of_steps copied piped.leads (worker.registerFrom_steps staging metadata) kept⟩

/-- One turn of the save loop copies its chunk, and then announces it or keeps it. -/
theorem Piped.saveRequest (overlap : worker.chunkOverlapEnabled = true)
    (piped : Piped worker saved sends staging) (metadata : NixlConnectorMetadata)
    (entry : Σ _ : ReqId, ReqMeta) :
    ∃ here, Piped worker (fun reqId => saved reqId ++ chunksOfEntries metadata reqId [entry])
      (sends ++ here) (worker.saveRequest metadata staging entry) := by
  obtain ⟨here, kept⟩ := kept_saveRequest worker overlap metadata entry piped.kept
  obtain ⟨owner, request⟩ := entry
  let copied : Staging ω :=
    { staging with
      calls := staging.calls ++
        [.copyBlocks owner (worker.kernel.logicalToKernelBlockIds request.localBlockIds)] }
  have moved : worker.saveRequest metadata staging ⟨owner, request⟩ =
      worker.notifyChunkReady copied owner (chunkOf metadata owner request) := by
    rw [StagingWorker.saveRequest]
    exact if_pos overlap
  rw [moved] at kept ⊢
  have copies_copied : ∀ reqId, copies reqId copied =
      (saved reqId ++ chunksOfEntries metadata reqId [⟨owner, request⟩]).map
        (hostBlocks worker) := by
    intro reqId
    rw [List.map_append, ← piped.copied reqId]
    simp only [copies, copied, List.filterMap_append]
    congr 1
    simp only [chunksOfEntries, List.map_cons, List.map_nil, Outbox.ofKey_singleton,
      List.filterMap_cons, List.filterMap_nil, copyFor]
    by_cases same : owner = reqId
    · simp [same, hostBlocks, chunkOf]
    · simp [same]
  exact ⟨here, .of_steps copies_copied (piped.leads.copy owner _)
    (worker.notifyChunkReady_steps copied owner _) kept⟩

theorem Piped.saveLoop (overlap : worker.chunkOverlapEnabled = true)
    (metadata : NixlConnectorMetadata) (entries : List (Σ _ : ReqId, ReqMeta))
    (piped : Piped worker saved sends staging) :
    ∃ here, Piped worker (fun reqId => saved reqId ++ chunksOfEntries metadata reqId entries)
      (sends ++ here) (entries.foldl (worker.saveRequest metadata) staging) := by
  induction entries generalizing staging saved sends with
  | nil => exact ⟨[], by simpa [chunksOfEntries] using piped⟩
  | cons entry entries ih =>
      obtain ⟨here, first⟩ := piped.saveRequest overlap metadata entry
      obtain ⟨later, rest⟩ := ih first
      simp only [List.append_assoc, ← chunksOfEntries_cons] at rest
      exact ⟨here ++ later, rest⟩

/-! ## Runs -/

/-- What a chunk that is handed out is announced as. -/
def notifOf (chunk : SavedChunk) : ChunkNotif where
  chunkIdx := chunk.chunkIdx.getD 0
  isLast := chunk.isLast.getD false
  blockIds := chunk.saved.localBlockIds

theorem savedChunks_eq (reqId : ReqId) (metadata : NixlConnectorMetadata) :
    savedChunks reqId metadata = ((metadata.savedChunk? reqId).map notifOf).toList := by
  have found := @AList.filterMap_entries _ _ _ metadata.reqsToSave _ reqId
    fun saved => chunkOf metadata reqId saved
  have own : metadata.reqsToSave.entries.filterMap (fun entry =>
        if entry.1 = reqId then some (chunkOf metadata entry.1 entry.2) else none) =
      metadata.reqsToSave.entries.filterMap fun entry =>
        if entry.1 = reqId then some (chunkOf metadata reqId entry.2) else none := by
    refine List.filterMap_congr fun entry _ => ?_
    split
    · rename_i same
      rw [same]
    · rfl
  rw [savedChunks, chunksOfEntries, Outbox.ofKey, List.filterMap_map]
  refine (own.trans found).trans ?_
  rw [NixlConnectorMetadata.savedChunk?, Option.map_map]
  rfl

theorem Piped.saveKvToHost (overlap : worker.chunkOverlapEnabled = true)
    (piped : Piped worker saved sends staging) (metadata : NixlConnectorMetadata) :
    ∃ here, Piped worker
      (fun reqId => saved reqId ++ ((metadata.savedChunk? reqId).map notifOf).toList)
      (sends ++ here) (worker.saveKvToHost staging metadata) := by
  obtain ⟨flushed, registered⟩ := piped.registerFrom overlap metadata
  obtain ⟨here, looped⟩ := registered.saveLoop overlap metadata metadata.reqsToSave.entries
  simp only [List.append_assoc, ← savedChunks_eq] at looped ⊢
  exact ⟨flushed ++ here, looped⟩

theorem Piped.saves (overlap : worker.chunkOverlapEnabled = true)
    (metas : List NixlConnectorMetadata) (piped : Piped worker saved sends staging) :
    ∃ here, Piped worker
      (fun reqId => saved reqId ++
        (metas.filterMap fun metadata => metadata.savedChunk? reqId).map notifOf)
      (sends ++ here) (metas.foldl worker.saveKvToHost staging) := by
  induction metas generalizing staging saved sends with
  | nil => exact ⟨[], by simpa using piped⟩
  | cons metadata metas ih =>
      have split : ∀ reqId,
          ((metadata :: metas).filterMap fun metadata => metadata.savedChunk? reqId).map notifOf =
            ((metadata.savedChunk? reqId).map notifOf).toList ++
              (metas.filterMap fun metadata => metadata.savedChunk? reqId).map notifOf := by
        intro reqId
        cases found : metadata.savedChunk? reqId with
        | none => simp [found]
        | some chunk => simp [found]
      obtain ⟨here, first⟩ := piped.saveKvToHost overlap metadata
      obtain ⟨later, rest⟩ := ih first
      simp only [List.append_assoc, ← split] at rest
      exact ⟨here ++ later, rest⟩

/-- The chunks that the scheduler side hands out for a request. -/
abbrev handedOver (config : SchedulerConfig) (scheduler : NixlConnectorScheduler)
    (events : List SchedulerEvent) (reqId : ReqId) : List SavedChunk :=
  Run.observe (NixlConnectorScheduler.step config) (NixlConnectorScheduler.chunksOf config reqId)
    scheduler events

theorem Piped.exec {config : SchedulerConfig} (overlap : worker.chunkOverlapEnabled = true)
    {producer final : Producer ω} (piped : Piped worker saved sends producer.staging)
    {events : List SchedulerEvent}
    (reached : Run.exec (Producer.step worker config) producer events = .ok final) :
    ∃ here, Piped worker
      (fun reqId => saved reqId ++
        (handedOver config producer.scheduler events reqId).map notifOf)
      (sends ++ here) final.staging := by
  induction events generalizing producer saved sends with
  | nil =>
      cases reached
      exact ⟨[], by simpa [handedOver] using piped⟩
  | cons event events ih =>
      obtain ⟨next, taken, rest⟩ := Run.exec_cons_eq_ok.mp reached
      rw [Producer.step] at taken
      split at taken
      · rename_i scheduler stepped
        cases taken
        have split : ∀ reqId,
            (handedOver config producer.scheduler (event :: events) reqId).map notifOf =
              ((producer.scheduler.metadataOf config event).filterMap fun metadata =>
                metadata.savedChunk? reqId).map notifOf ++
              (handedOver config scheduler events reqId).map notifOf := by
          intro reqId
          rw [handedOver, Run.observe_cons stepped, List.map_append]
          rfl
        obtain ⟨here, first⟩ := piped.saves overlap (producer.scheduler.metadataOf config event)
        obtain ⟨later, whole⟩ := ih first rest
        simp only [List.append_assoc, ← split] at whole
        exact ⟨here ++ later, whole⟩
      · cases taken

/-- The log of a run has what the library keeps. -/
theorem attempts_exec {config : SchedulerConfig} {attempts : ω → List SendAttempt}
    (remembers : Remembers worker.nixl attempts) {before : List SendAttempt}
    {producer final : Producer ω}
    (same : attempts producer.staging.world =
      before ++ producer.staging.calls.filterMap attemptOf)
    {events : List SchedulerEvent}
    (reached : Run.exec (Producer.step worker config) producer events = .ok final) :
    attempts final.staging.world = before ++ final.staging.calls.filterMap attemptOf := by
  induction events generalizing producer with
  | nil =>
      cases reached
      exact same
  | cons event events ih =>
      obtain ⟨next, taken, rest⟩ := Run.exec_cons_eq_ok.mp reached
      rw [Producer.step] at taken
      split at taken
      · cases taken
        exact ih (attempts_calls worker remembers _ same) rest
      · cases taken

/-- **The chunk stream, end to end.**  In every run of the scheduler side with a worker that saves
after every step, chunk overlap on: the library is given the attempts of some sends, one after
another.  For each request, what consumers decode from them, followed by what waits for a consumer,
is what the scheduler side handed out, label by label; nothing waits once a consumer is known; and
at every point, the sends begun so far announce blocks that were copied to host memory, in the
order of the copies. -/
theorem chunk_stream (worker : StagingWorker ω) (overlap : worker.chunkOverlapEnabled = true)
    {attempts : ω → List SendAttempt} (remembers : Remembers worker.nixl attempts)
    (config : SchedulerConfig) (scheduler : NixlConnectorScheduler) (world : ω)
    {events : List SchedulerEvent} {final : Producer ω}
    (reached : Run.exec (Producer.step worker config) ⟨scheduler, .init world⟩ events =
      .ok final) :
    (final.staging.consumerAgentByEngine ≠ ∅ → final.staging.pendingChunkNotifs = ∅) ∧
      ∃ sends : List ChunkSend,
        attempts final.staging.world = attempts world ++ sends.flatMap ChunkSend.attempts ∧
        final.staging.calls.filterMap attemptOf = sends.flatMap ChunkSend.attempts ∧
        (∀ reqId, Outbox.ofKey reqId (sends.map ChunkSend.label) ++
            (final.staging.pendingChunkNotifs.lookup reqId).getD [] =
          (handedOver config scheduler events reqId).map notifOf) ∧
        CopiesLead worker sends final.staging.calls := by
  obtain ⟨sends, piped⟩ := (piped_init worker world).exec overlap reached
  have started : attempts (Staging.init world).world = attempts world ++
      (Staging.init world).calls.filterMap attemptOf := (List.append_nil _).symm
  have logged := piped.kept.tracks.attempts
  refine ⟨fun known => piped.kept.settled ?_, sends, ?_, logged, piped.kept.stream, piped.leads⟩
  · have nonempty : final.staging.consumerAgentByEngine.entries ≠ [] := fun empty =>
      known (AList.ext empty)
    exact Bool.not_eq_true' _ |>.mpr (List.isEmpty_eq_false_iff.mpr nonempty)
  · exact (attempts_exec remembers started reached).trans (congrArg _ logged)

/-- A consumer registers between the two chunks of a prompt. -/
def lateConsumerRun : List SchedulerEvent :=
  [.alloc ChunkLabels.fourTokens [7] 0 2, .build (ChunkLabels.stepOf 0 2 (some [7])),
    .register (.dict [(.str "engine_id", .str "decode"), (.str "agent_metadata", .str "metadata")]),
    .build (ChunkLabels.stepOf 2 2 (some [8]))]

theorem chunk_stream_lateConsumer :
    ∃ final, Run.exec (Producer.step overlapWorker ChunkLabels.overlapConfig)
        ⟨.init, .init []⟩ lateConsumerRun = .ok final ∧
      ∃ sends : List ChunkSend,
        final.staging.world = sends.flatMap ChunkSend.attempts ∧
        Outbox.ofKey "cmpl-1" (sends.map ChunkSend.label) = [⟨0, false, [7]⟩, ⟨1, true, [8]⟩] ∧
        CopiesLead overlapWorker sends final.staging.calls := by
  have ran : (Run.exec (Producer.step overlapWorker ChunkLabels.overlapConfig)
      ⟨.init, .init []⟩ lateConsumerRun).toOption.any
      (fun final => !final.staging.consumerAgentByEngine.entries.isEmpty) = true := by
    decide +kernel
  obtain ⟨final, reached, seen⟩ := Run.exists_of_any ran
  obtain ⟨settled, sends, remembered, _, stream, leads⟩ := chunk_stream overlapWorker rfl
    everyOther_remembers ChunkLabels.overlapConfig .init [] reached
  refine ⟨final, reached, sends, remembered, ?_, leads⟩
  have known : final.staging.consumerAgentByEngine ≠ ∅ := by
    intro empty
    rw [empty] at seen
    cases seen
  have labels : (handedOver ChunkLabels.overlapConfig .init lateConsumerRun "cmpl-1").map notifOf =
      [⟨0, false, [7]⟩, ⟨1, true, [8]⟩] := by decide +kernel
  have whole := stream "cmpl-1"
  rw [settled known, labels] at whole
  exact (List.append_nil _).symm.trans whole

end ChunkPipeline

end RduHdi
