import RduHdi.Connector.SettledRequests
import RduHdi.Connector.Timeout

/-!
# Blocks are freed once

A request whose blocks are not freed when it finishes is freed when the worker reports it as sent.
This file counts, for each request, what holds it on its way from an allocation to that report: the
batch that the scheduler side collects, the metadata on their way, and the worker.  A report takes
the request from the worker for good, so there are no more reports than allocations; and a request
that is to be read remotely is held until it is reported.
-/

namespace RduHdi

/-! ## One call -/

namespace Sending

/-- Between two states the requests that were collected since left `reqsToProcess`, and no
others. -/
structure Reports (before : Sending) (collected : KeySet ReqId) (after : Sending)
    (final : KeySet ReqId) : Prop where
  /-- Nothing is processed anew. -/
  fewer : ∀ reqId ∈ after.reqsToProcess, reqId ∈ before.reqsToProcess
  /-- Reported is what was collected, and what is no longer processed. -/
  mem_iff : ∀ reqId, reqId ∈ final ↔
    reqId ∈ collected ∨ reqId ∈ before.reqsToProcess ∧ reqId ∉ after.reqsToProcess

namespace Reports

variable {before middle after : Sending} {collected notified final : KeySet ReqId}

theorem of_same (same : after.reqsToProcess = before.reqsToProcess) :
    Reports before collected after collected where
  fewer := by
    rw [same]
    exact fun _ => id
  mem_iff reqId := by
    rw [same]
    exact (or_iff_left fun left => left.2 left.1).symm

theorem trans (first : Reports before collected middle notified)
    (second : Reports middle notified after final) : Reports before collected after final where
  fewer reqId member := first.fewer reqId (second.fewer reqId member)
  mem_iff reqId := by
    rw [second.mem_iff, first.mem_iff]
    have outer := first.fewer reqId
    have inner := second.fewer reqId
    tauto

theorem of_erase {reqId : ReqId} (processed : reqId ∈ before.reqsToProcess)
    (erased : after.reqsToProcess = before.reqsToProcess.erase reqId) :
    Reports before collected after (collected.add reqId) where
  fewer other member := by
    rw [erased] at member
    exact (AList.mem_erase.mp member).2
  mem_iff other := by
    rw [AList.mem_add, erased, AList.mem_erase]
    constructor
    · rintro (rfl | earlier)
      · exact .inr ⟨processed, fun member => member.1 rfl⟩
      · exact .inl earlier
    · rintro (earlier | ⟨present, left⟩)
      · exact .inr earlier
      · exact .inl (not_not.mp fun different => left ⟨different, present⟩)

end Reports

theorem reports_releaseLoop {now : ℚ} {entries : List (Σ _ : ReqId, ℚ)} {sending next : Sending}
    {done final : KeySet ReqId}
    (taken : releaseLoop now entries sending done = (next, .ok final)) :
    Reports sending done next final := by
  induction entries generalizing sending done with
  | nil =>
      cases taken
      exact .of_same rfl
  | cons entry entries ih =>
      rw [releaseLoop] at taken
      split at taken
      · cases taken
        exact .of_same rfl
      · simp only at taken
        split at taken
        · rename_i processed
          exact (Reports.of_erase processed rfl).trans (ih taken)
        · cases taken

end Sending

namespace SendingWorker

variable {worker : SendingWorker}

theorem reports_notifLoop {notifs : List Notif} {sending next : Sending}
    {collected notified : KeySet ReqId}
    (taken : worker.notifLoop notifs sending collected = (next, .ok notified)) :
    sending.Reports collected next notified := by
  induction notifs generalizing sending collected with
  | nil =>
      cases taken
      exact .of_same rfl
  | cons notif notifs ih =>
      rw [notifLoop] at taken
      split at taken
      · rename_i middle released outcome
        cases handleNotif_eq_ok outcome with
        | released _ _ processed => exact (Sending.Reports.of_erase processed rfl).trans (ih taken)
      · rename_i middle outcome
        refine .trans ?_ (ih taken)
        cases handleNotif_eq_ok outcome with
        | skipped => exact .of_same rfl
        | counted _ _ => exact .of_same rfl
      · cases taken

theorem mem_done_iff {sending next : Sending} {notifs : List Notif} {now : ℚ}
    {done : KeySet ReqId} (taken : worker.getFinished sending notifs now = (next, .ok done))
    (reqId : ReqId) :
    reqId ∈ done ↔ reqId ∈ sending.reqsToProcess ∧ reqId ∉ next.reqsToProcess := by
  rw [getFinished] at taken
  split at taken
  · rename_i middle notified counted
    have whole := (reports_notifLoop counted).trans (Sending.reports_releaseLoop taken)
    rw [whole.mem_iff]
    exact or_iff_right (AList.notMem_empty _)
  · cases taken

end SendingWorker

namespace NixlConnectorScheduler

theorem mem_reqsInBatch_alloc_iff {config : SchedulerConfig}
    {scheduler next : NixlConnectorScheduler} {request after : Request}
    {unhashedBlockIds : List ℕ} {numExternalTokens : ℕ} {now : ℚ}
    (taken : scheduler.updateStateAfterAlloc config request unhashedBlockIds numExternalTokens
      now = .ok (next, after)) (reqId : ReqId) :
    reqId ∈ next.reqsInBatch ↔
      reqId ∈ scheduler.reqsInBatch ∨
        request.kvTransferParams.doRemoteDecode = true ∧ reqId = request.requestId := by
  obtain ⟨needed, rfl⟩ := updateStateAfterAlloc_eq_ok taken
  by_cases decodes : request.kvTransferParams.doRemoteDecode = true
  · simp [allocEffect, trackRemoteDecode, decodes, AList.mem_add, or_comm]
  · simp [allocEffect, decodes]

/-- A finish that asks not to free the blocks collects an expiration. -/
theorem collectsEnd_of_delayFreeBlocks {config : SchedulerConfig}
    {scheduler : NixlConnectorScheduler} {request : Request} {status : RequestStatus}
    {blockIds : List ℕ} {now : ℚ}
    (delays : (scheduler.requestFinished config request status blockIds now).2.delayFreeBlocks =
      true) :
    CollectsEnd request status blockIds ∧ status = .finishedLengthCapped := by
  rw [requestFinished] at delays
  cases prefill : request.kvTransferParams.doRemotePrefill with
  | true => simp [prefill] at delays
  | false =>
      cases decodes : request.kvTransferParams.doRemoteDecode with
      | false => simp [prefill, decodes] at delays
      | true =>
          cases status with
          | other => simp [prefill, decodes] at delays
          | finishedLengthCapped =>
              refine ⟨⟨decodes, prefill, fun _ => ?_⟩, rfl⟩
              rintro rfl
              simp [prefill, decodes] at delays

end NixlConnectorScheduler

/-! ## What holds a request -/

/-- How often an allocation enters a request into the batch. -/
def SystemEvent.enters (reqId : ReqId) : SystemEvent → ℕ
  | .schedule (.alloc request _ _ _) =>
      if request.kvTransferParams.doRemoteDecode = true ∧ reqId = request.requestId then 1 else 0
  | _ => 0

namespace ProducerSystem

variable {config : SchedulerConfig} {worker : SendingWorker} {system next final : ProducerSystem}
  {event : SystemEvent} {events : List SystemEvent} {reqId : ReqId}

/-- What a call of `get_finished` reports as sent. -/
def reports (worker : SendingWorker) (system : ProducerSystem) : SystemEvent → List ReqId
  | .getFinished notifs now =>
      match worker.getFinished system.sending notifs now with
      | (_, .ok done) => done.keys
      | (_, .error _) => []
  | _ => []

/-- How many things hold a request on its way to a report. -/
def holders (system : ProducerSystem) (reqId : ReqId) : ℕ :=
  (if reqId ∈ system.scheduler.reqsInBatch then 1 else 0) +
    system.wire.countP (fun metadata => reqId ∈ metadata.reqsInBatch) +
    if reqId ∈ system.sending.reqsToProcess then 1 else 0

theorem holders_pos_iff : 0 < system.holders reqId ↔ system.Holds reqId := by
  have onTheWay := List.countP_pos_iff (p := fun metadata : NixlConnectorMetadata =>
    decide (reqId ∈ metadata.reqsInBatch)) (l := system.wire)
  simp only [decide_eq_true_eq] at onTheWay
  rw [Holds, ← onTheWay, holders]
  by_cases batched : reqId ∈ system.scheduler.reqsInBatch
  · rw [if_pos batched]
    exact ⟨fun _ => .inl batched, fun _ => by omega⟩
  · by_cases processed : reqId ∈ system.sending.reqsToProcess
    · rw [if_pos processed]
      exact ⟨fun _ => .inr (.inr processed), fun _ => by omega⟩
    · simp [batched, processed]

theorem holders_of_batch {scheduler : NixlConnectorScheduler}
    (same : scheduler.reqsInBatch = system.scheduler.reqsInBatch) :
    { system with scheduler }.holders reqId = system.holders reqId := by
  rw [holders, holders]
  simp only
  rw [same]

/-- A report takes one holder away, and only an allocation adds one. -/
theorem holders_step (taken : system.step config worker event = .ok next) :
    (reports worker system event).count reqId + next.holders reqId ≤
      system.holders reqId + event.enters reqId := by
  cases step_eq_ok taken with
  | @schedule event scheduler moved =>
      cases event with
      | alloc request unhashedBlockIds numExternalTokens now =>
          obtain ⟨_, allocated⟩ := NixlConnectorScheduler.step_alloc_eq_ok moved
          have batch := NixlConnectorScheduler.mem_reqsInBatch_alloc_iff allocated reqId
          simp only [reports, holders, NixlConnectorScheduler.metadataOf, List.append_nil,
            List.count_nil, SystemEvent.enters]
          split_ifs <;> first | omega | tauto
      | build output =>
          obtain ⟨metadata, built⟩ := NixlConnectorScheduler.step_build_eq_ok moved
          obtain ⟨_, batch, _, _, noBatch, _⟩ := NixlConnectorScheduler.collected_build built
          simp only [reports, holders, NixlConnectorScheduler.metadataOf, built,
            List.countP_append, List.countP_singleton, List.count_nil, noBatch, batch,
            AList.notMem_empty, if_false, SystemEvent.enters, decide_eq_true_eq]
          omega
      | finish request status blockIds now =>
          obtain rfl := Except.ok.inj moved
          obtain ⟨batch, _⟩ := NixlConnectorScheduler.requestFinished_keeps config
            system.scheduler { request, status, blockIds, now }
          simp only [reports, NixlConnectorScheduler.metadataOf, List.append_nil, List.count_nil,
            SystemEvent.enters]
          exact (Nat.zero_add _).trans_le (holders_of_batch batch).le
      | register payload =>
          obtain rfl := Except.ok.inj moved
          simp only [reports, NixlConnectorScheduler.metadataOf, List.append_nil, List.count_nil,
            SystemEvent.enters]
          exact (Nat.zero_add _).trans_le (holders_of_batch rfl).le
  | idle nothing => simp [reports, SystemEvent.enters]
  | @startLoadKv metadata wire sending here loads =>
      have process := (Sending.startLoadKv_loaded loads).process reqId
      simp only [reports, holders, here, List.countP_cons, List.count_nil, SystemEvent.enters,
        decide_eq_true_eq]
      split_ifs <;> first | omega | tauto
  | @getFinished notifs now sending done finished =>
      have members := SendingWorker.mem_done_iff finished reqId
      have fewer := (SendingWorker.getFinished_releases finished).process reqId
      have counted : done.keys.count reqId = if reqId ∈ done.keys then 1 else 0 :=
        List.Nodup.count done.keys_nodup
      rw [AList.mem_keys] at members
      simp only [reports, finished, holders, counted, SystemEvent.enters]
      split_ifs <;> first | omega | tauto

/-- A request that is not aborted stays held until it is reported. -/
theorem holds_step {history : List SystemEvent} (consistent : Consistent config history system)
    (unaborted : ∀ call ∈ finishCalls history, call.request.requestId = reqId →
      call.status ≠ .other)
    (taken : system.step config worker event = .ok next)
    (held : system.Holds reqId ∨ 0 < event.enters reqId) :
    next.Holds reqId ∨ reqId ∈ reports worker system event := by
  cases step_eq_ok taken with
  | @schedule event scheduler moved =>
      left
      cases event with
      | alloc request unhashedBlockIds numExternalTokens now =>
          obtain ⟨_, allocated⟩ := NixlConnectorScheduler.step_alloc_eq_ok moved
          have batch := NixlConnectorScheduler.mem_reqsInBatch_alloc_iff allocated reqId
          simp only [Holds, NixlConnectorScheduler.metadataOf, List.append_nil, batch]
          rcases held with (batched | onTheWay) | entered
          · exact .inl (.inl batched)
          · exact .inr onTheWay
          · rw [SystemEvent.enters] at entered
            split at entered
            · rename_i enters
              exact .inl (.inr enters)
            · cases entered
      | build output =>
          obtain ⟨metadata, built⟩ := NixlConnectorScheduler.step_build_eq_ok moved
          obtain ⟨_, batch, _⟩ := NixlConnectorScheduler.collected_build built
          simp only [Holds, NixlConnectorScheduler.metadataOf, built, List.mem_append,
            List.mem_singleton]
          rcases held with (batched | ⟨other, member, entered⟩ | processed) | entered
          · exact .inr (.inl ⟨metadata, .inr rfl, batch ▸ batched⟩)
          · exact .inr (.inl ⟨other, .inl member, entered⟩)
          · exact .inr (.inr processed)
          · cases entered
      | finish request status blockIds now =>
          obtain rfl := Except.ok.inj moved
          obtain ⟨batch, _⟩ := NixlConnectorScheduler.requestFinished_keeps config
            system.scheduler { request, status, blockIds, now }
          simp only [Holds, NixlConnectorScheduler.metadataOf, List.append_nil]
          rcases held with (batched | elsewhere) | entered
          · exact .inl (batch ▸ batched)
          · exact .inr elsewhere
          · cases entered
      | register payload =>
          obtain rfl := Except.ok.inj moved
          simp only [Holds, NixlConnectorScheduler.metadataOf, List.append_nil]
          exact held.resolve_right (by simp [SystemEvent.enters])
  | idle nothing => exact .inl (held.resolve_right (by simp [SystemEvent.enters]))
  | @startLoadKv metadata wire sending here loads =>
      left
      have loaded := Sending.startLoadKv_loaded loads
      have spared : reqId ∉ metadata.reqsNotProcessed := by
        intro aborted
        obtain ⟨call, member, other, same⟩ := consistent.aborting reqId
          (.inr ⟨metadata, by rw [here]; exact List.mem_cons_self, aborted⟩)
        exact unaborted call member same other
      rcases held with (batched | ⟨other, member, entered⟩ | processed) | entered
      · exact .inl batched
      · rw [here] at member
        rcases List.mem_cons.mp member with rfl | later
        · exact .inr (.inr ((loaded.process reqId).mpr ⟨.inl entered, spared⟩))
        · exact .inr (.inl ⟨other, later, entered⟩)
      · exact .inr (.inr ((loaded.process reqId).mpr ⟨.inr processed, spared⟩))
      · cases entered
  | @getFinished notifs now sending done finished =>
      rcases held with (batched | onTheWay | processed) | entered
      · exact .inl (.inl batched)
      · exact .inl (.inr (.inl onTheWay))
      · by_cases still : reqId ∈ sending.reqsToProcess
        · exact .inl (.inr (.inr still))
        · right
          rw [reports, finished]
          exact AList.mem_keys.mp ((SendingWorker.mem_done_iff finished reqId).mpr
            ⟨processed, still⟩)
      · cases entered

/-! ## Runs -/

/-- What the worker reports as sent over a run, in order. -/
def reported (config : SchedulerConfig) (worker : SendingWorker) (events : List SystemEvent) :
    List ReqId :=
  Run.observe (step config worker) (reports worker) init events

theorem count_reported_le (reached : Run.exec (step config worker) init events = .ok final)
    (reqId : ReqId) :
    (reported config worker events).count reqId + final.holders reqId ≤
      (events.map (SystemEvent.enters reqId)).sum := by
  have nobody : init.holders reqId = 0 := by
    simp [holders, init, NixlConnectorScheduler.init, Sending.init]
  rw [reported, ← Nat.zero_add (List.sum _), ← nobody]
  apply Run.count_observe_add_le _ reached
  exact holders_step

theorem holds_exec (once : FinishOnce events)
    (reached : Run.exec (step config worker) init events = .ok final)
    (unaborted : ∀ call ∈ finishCalls events, call.request.requestId = reqId →
      call.status ≠ .other)
    (entered : 0 < (events.map (SystemEvent.enters reqId)).sum) :
    final.Holds reqId ∨ reqId ∈ reported config worker events := by
  let invariant (history : List SystemEvent) (system : ProducerSystem) : Prop :=
    FinishOnce history →
    (∀ call ∈ finishCalls history, call.request.requestId = reqId → call.status ≠ .other) →
    0 < (history.map (SystemEvent.enters reqId)).sum →
      system.Holds reqId ∨ reqId ∈ reported config worker history
  suffices holds : invariant events final from holds once unaborted entered
  refine Run.history_induction (fun _ _ never => absurd never (lt_irrefl 0)) ?_ reached
  intro history middle event next before ih moved once unaborted entered
  rw [finishCalls_append] at unaborted
  have earlier : ∀ call ∈ finishCalls history, call.request.requestId = reqId →
      call.status ≠ .other :=
    fun call member => unaborted call (List.mem_append_left _ member)
  have seen : reported config worker (history ++ [event]) =
      reported config worker history ++ reports worker middle event := by
    rw [reported, Run.observe_append before, Run.observe_cons moved, Run.observe_nil,
      List.append_nil]
    rfl
  rw [seen, List.mem_append, or_left_comm]
  rw [List.map_append, List.sum_append, List.map_singleton, List.sum_singleton] at entered
  have consistent := consistent_exec once.of_append before
  by_cases past : reqId ∈ reported config worker history
  · exact .inl past
  · right
    apply holds_step consistent earlier moved
    by_cases before : 0 < (history.map (SystemEvent.enters reqId)).sum
    · exact .inl ((ih once.of_append earlier before).resolve_right past)
    · exact .inr (by omega)

/-- When the end of a request has arrived, no batch entry of it is on its way, and it waits for its
expiration if it is processed. -/
theorem settled_exec {left right : List SystemEvent} {request : Request} {status : RequestStatus}
    {blockIds : List ℕ} {now : ℚ}
    (order : AllocatedBeforeFinish
      (left ++ .schedule (.finish request status blockIds now) :: right))
    (collects : NixlConnectorScheduler.CollectsEnd request status blockIds)
    (reached : Run.exec (step config worker) init
      (left ++ .schedule (.finish request status blockIds now) :: right) = .ok final)
    (arrived : final.wire.length < (right.map SystemEvent.builds).sum)
    (held : final.Holds request.requestId) :
    request.requestId ∈ final.sending.reqsToProcess ∧
      request.requestId ∈ final.sending.reqsToSend := by
  obtain ⟨middle, _, after⟩ := Run.exec_append_eq_ok.mp reached
  obtain ⟨next, taken, rest⟩ := Run.exec_cons_eq_ok.mp after
  have others : ∀ later ∈ right, request.requestId ∉ later.allocated? := fun later member =>
    (List.pairwise_cons.mp (List.pairwise_append.mp order).2.1).1 later member _ rfl
  have start : Ending request.requestId 0 next := by
    cases taken
    simp only [NixlConnectorScheduler.metadataOf, List.append_nil]
    exact ending_finish now fun _ => collects
  have ending := ending_exec start others rest
  rw [Nat.zero_add] at ending
  cases ending with
  | collected none _ => omega
  | onTheWay earlier metadata later split position _ _ _ =>
      have inside := congrArg List.length split
      rw [List.length_append, List.length_cons] at inside
      omega
  | settled quiet left waits =>
      rcases held with batched | ⟨metadata, member, entered⟩ | processed
      · exact absurd batched left
      · exact absurd entered (quiet metadata member)
      · exact ⟨processed, waits processed⟩

/-- A `get_finished` at the deadline of a request, or after it, leaves no such request waiting. -/
theorem done_of_expired (once : FinishOnce events) (steady : ClockSteady events)
    (reached : Run.exec (step config worker) init events = .ok final) {call : FinishCall}
    (finished : call ∈ finishCalls events)
    (processed : call.request.requestId ∈ final.sending.reqsToProcess)
    (expiring : call.request.requestId ∈ final.sending.reqsToSend) {notifs : List Notif}
    {late : ℚ} {sending : Sending} {done : KeySet ReqId}
    (passed : call.now + config.abortRequestTimeout ≤ late)
    (taken : worker.getFinished final.sending notifs late = (sending, .ok done)) :
    call.request.requestId ∈ done := by
  have consistent := consistent_exec once reached
  cases outcome : worker.getNewNotifs final.sending notifs with
  | mk middle result =>
      cases result with
      | error raised =>
          rw [SendingWorker.getFinished, outcome] at taken
          cases taken
      | ok notified =>
          obtain ⟨_, _, other, expired, _⟩ :=
            SendingWorker.getFinished_of_notified outcome consistent.tracked late
          rw [taken] at other
          cases other
          rw [expired.done]
          by_cases named : call.request.requestId ∈ notified
          · exact .inr named
          -- No notif released it, so it still has the expiration of its finish.
          · left
            have counted := SendingWorker.reports_notifLoop outcome
            have still : call.request.requestId ∈ middle.reqsToProcess := by
              by_contra gone
              exact named ((counted.mem_iff _).mpr (.inr ⟨processed, gone⟩))
            have waiting := (SendingWorker.notifLoop_releases outcome).send _ still expiring
            obtain ⟨expires, present⟩ :=
              Option.isSome_iff_exists.mp (AList.lookup_isSome.mpr waiting)
            obtain ⟨_, fewer⟩ := SendingWorker.getNewNotifs_eq_ok outcome consistent.tracked
            have entry := fewer.subset (AList.mem_lookup_iff.mp present)
            obtain ⟨finish, member, _, same, deadline⟩ :=
              consistent.expiring _ (List.mem_append_left _ entry)
            obtain rfl := once.unique member finished same
            have sorted : ExpiryQueue.Sorted middle.reqsToSend.entries :=
              ((sorted_exec once steady reached).sublist (List.sublist_append_left _ _)).sublist
                fewer
            exact (mem_keys_released sorted).mpr ⟨expires, present, deadline.trans_le passed⟩

/-- The worker reports no request as sent more often than allocations entered it into a batch.  When
`request_finished` delays the free of a request that was entered once, either the request was
reported once or one thing still holds it; and when the worker knows of the end, a `get_finished`
after the deadline reports it at the latest. -/
theorem freed_once (once : FinishOnce events) (order : AllocatedBeforeFinish events)
    (steady : ClockSteady events)
    (reached : Run.exec (step config worker) init events = .ok final) :
    (∀ reqId, (reported config worker events).count reqId + final.holders reqId ≤
        (events.map (SystemEvent.enters reqId)).sum) ∧
      ∀ left request status blockIds now right middle,
        events = left ++ .schedule (.finish request status blockIds now) :: right →
        Run.exec (step config worker) init left = .ok middle →
        (middle.scheduler.requestFinished config request status blockIds now).2.delayFreeBlocks =
          true →
        (events.map (SystemEvent.enters request.requestId)).sum = 1 →
          (reported config worker events).count request.requestId +
            final.holders request.requestId = 1 ∧
          (final.wire.length < (right.map SystemEvent.builds).sum →
            ∀ notifs late sending done, now + config.abortRequestTimeout ≤ late →
              worker.getFinished final.sending notifs late = (sending, .ok done) →
              request.requestId ∈ reported config worker events ∨ request.requestId ∈ done) := by
  refine ⟨count_reported_le reached, ?_⟩
  rintro left request status blockIds now right middle rfl _ delays single
  obtain ⟨collects, capped⟩ := NixlConnectorScheduler.collectsEnd_of_delayFreeBlocks delays
  let call : FinishCall := { request, status, blockIds, now }
  have finished : call ∈ finishCalls
      (left ++ .schedule (.finish request status blockIds now) :: right) := by
    rw [finishCalls_append]
    exact List.mem_append_right _ List.mem_cons_self
  have unaborted : ∀ other ∈ finishCalls
      (left ++ .schedule (.finish request status blockIds now) :: right),
      other.request.requestId = request.requestId → other.status ≠ .other := by
    intro other member same
    rw [once.unique member finished same]
    simp [call, capped]
  have kept := holds_exec once reached unaborted (by omega)
  refine ⟨?_, fun arrived notifs late sending done passed taken => ?_⟩
  · have most := count_reported_le reached request.requestId
    rw [single] at most
    rcases kept with held | past
    · have here := holders_pos_iff.mpr held
      omega
    · have here := List.count_pos_iff.mpr past
      omega
  · rcases kept with held | past
    · obtain ⟨processed, expiring⟩ := settled_exec order collects reached arrived held
      exact .inr (done_of_expired once steady reached finished processed expiring passed taken)
    · exact .inl past

/-- A request is prefilled and finishes; when it has expired, it is reported. -/
theorem freed_once_finishRun :
    ∃ final, Run.exec (step (.withDefaults false false) (.ofSize 1)) init
        (batchedRun (finishRun .finishedLengthCapped [5])) = .ok final ∧
      (reported (.withDefaults false false) (.ofSize 1)
          (batchedRun (finishRun .finishedLengthCapped [5]))).count prefixedRequest.requestId +
        final.holders prefixedRequest.requestId = 1 ∧
      ∀ sending done,
        (SendingWorker.ofSize 1).getFinished final.sending [] 481 = (sending, .ok done) →
          prefixedRequest.requestId ∈ reported (.withDefaults false false) (.ofSize 1)
            (batchedRun (finishRun .finishedLengthCapped [5])) ∨
          prefixedRequest.requestId ∈ done := by
  have runs : (Run.exec (step (.withDefaults false false) (.ofSize 1)) init
      (batchedRun (finishRun .finishedLengthCapped [5]))).toOption.any
        (fun final => final.wire.isEmpty) = true := by
    decide +kernel
  have starts : (Run.exec (step (.withDefaults false false) (.ofSize 1)) init
      (batchedRun [])).toOption.any (fun _ => true) = true := by
    decide +kernel
  have once : FinishOnce (batchedRun (finishRun .finishedLengthCapped [5])) := by decide +kernel
  have order : AllocatedBeforeFinish (batchedRun (finishRun .finishedLengthCapped [5])) := by
    decide +kernel
  have steady : ClockSteady (batchedRun (finishRun .finishedLengthCapped [5])) := by
    decide +kernel
  have single : ((batchedRun (finishRun .finishedLengthCapped [5])).map
      (SystemEvent.enters prefixedRequest.requestId)).sum = 1 := by
    decide +kernel
  obtain ⟨final, reached, arrived⟩ := Run.exists_of_any runs
  obtain ⟨middle, before, _⟩ := Run.exists_of_any starts
  obtain ⟨_, delayed⟩ := freed_once once order steady reached
  obtain ⟨counted, late⟩ := delayed (batchedRun []) prefixedRequest .finishedLengthCapped [5] 1
    [.schedule (.build ⟨[], List.nodup_nil⟩), .startLoadKv] middle rfl before rfl single
  refine ⟨final, reached, counted, fun sending done => late ?_ [] 481 sending done ?_⟩
  · rw [List.isEmpty_iff.mp arrived]
    decide
  · decide +kernel

end ProducerSystem

end RduHdi
