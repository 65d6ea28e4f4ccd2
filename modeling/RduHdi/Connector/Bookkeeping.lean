import RduHdi.Connector.SchedulerRun

/-!
# Per-request bookkeeping at the finish of a request

A finish should find the lifecycle entry of an allocated request, for the `[kv_ready]` line, and
leave nothing about the id behind.  This file says in which runs that happens.  A length-capped
finish clears nothing, so it is right only for a request that was never allocated; any other
finish clears two of the three maps, so it is right when the third is already clear.
-/

namespace RduHdi

namespace Bookkeeping

/-! ## The current use of an id -/

/-- The request of an id and the time of its allocation, from the allocation that starts its
current use; `none` before it and after the finish. -/
def currentUse (reqId : ReqId) (use : Option (Request × ℚ)) :
    SchedulerEvent → Option (Request × ℚ)
  | .alloc request _ _ now =>
      if reqId = request.requestId then use.or (some (request, now)) else use
  | .finish request _ _ _ => if reqId = request.requestId then none else use
  | _ => use

def useOf (reqId : ReqId) (history : List SchedulerEvent) : Option (Request × ℚ) :=
  history.foldl (currentUse reqId) none

theorem useOf_snoc (reqId : ReqId) (history : List SchedulerEvent) (event : SchedulerEvent) :
    useOf reqId (history ++ [event]) = currentUse reqId (useOf reqId history) event := by
  simp [useOf]

/-- Only requests whose decode runs elsewhere. -/
def RemoteDecode : SchedulerEvent → Prop
  | .alloc request _ _ _ | .finish request _ _ _ =>
      request.kvTransferParams.doRemoteDecode = true ∧
        request.kvTransferParams.doRemotePrefill = false
  | _ => True

/-! ## What a finish should do and when it does -/

/-- A property of every finish in a run, given the history before it and the state it meets. -/
def AtFinishes (config : SchedulerConfig) (events : List SchedulerEvent)
    (property : List SchedulerEvent → NixlConnectorScheduler → FinishCall → Prop) : Prop :=
  ∀ history call, history ++ [call.event] <+: events → ∀ scheduler,
    Run.exec (NixlConnectorScheduler.step config) .init history = .ok scheduler →
      property history scheduler call

/-- The bookkeeping of the finished id is there when it is needed and gone afterwards. -/
structure Restored (config : SchedulerConfig) (history : List SchedulerEvent)
    (scheduler : NixlConnectorScheduler) (call : FinishCall) : Prop where
  /-- A request that finishes by its length is there with the blocks it was allocated. -/
  present : ∀ request start, call.status = .finishedLengthCapped →
    useOf call.request.requestId history = some (request, start) →
      call.request.requestId ∈ scheduler.prefillLifecycle ∧
        (scheduler.requestFinished config call.request call.status call.blockIds
            call.now).2.kvReady =
          some
            { req := String.ofList (call.request.requestId.toList.take 8)
              blocks := call.blockIds.length
              promptTokens := (request.promptTokenIds.getD []).length
              prefillElapsedMs := NixlConnectorScheduler.truncateMs (call.now - start) }
  /-- After a finish nothing is there. -/
  gone : (scheduler.requestFinished config call.request call.status call.blockIds
      call.now).1.saveView call.request.requestId = .empty

/-- A length-capped finish is of a request that was not allocated, and any other finish finds no
chunk count of the id. -/
def RestoreCondition (history : List SchedulerEvent) (scheduler : NixlConnectorScheduler)
    (call : FinishCall) : Prop :=
  match call.status with
  | .finishedLengthCapped => useOf call.request.requestId history = none
  | .other => call.request.requestId ∉ scheduler.saveChunkCounter

/-! ## The view across a finish -/

theorem SaveView.finish_lengthCapped (request : Request) (view : SaveView) :
    view.finish request .finishedLengthCapped = view := by
  simp [SaveView.finish]

theorem SaveView.finish_other {request : Request}
    (decode : request.kvTransferParams.doRemoteDecode = true)
    (noPrefill : request.kvTransferParams.doRemotePrefill = false) (view : SaveView) :
    view.finish request .other = { view with saving := none, life := none } := by
  simp [SaveView.finish, decode, noPrefill]

theorem SaveView.advance_empty (config : SchedulerConfig) (scheduled : ScheduledReq) :
    SaveView.empty.advance config scheduled = .empty := by
  simp [SaveView.advance, SaveView.empty]

/-- A finish that meets the condition leaves nothing about the id behind, provided an id that is
not in use had nothing before. -/
theorem view_gone {config : SchedulerConfig} {history : List SchedulerEvent}
    {scheduler : NixlConnectorScheduler} {call : FinishCall} (remote : RemoteDecode call.event)
    (unused : useOf call.request.requestId history = none →
      scheduler.saveView call.request.requestId = .empty)
    (condition : RestoreCondition history scheduler call) :
    (scheduler.requestFinished config call.request call.status call.blockIds
      call.now).1.saveView call.request.requestId = .empty := by
  obtain ⟨decode, noPrefill⟩ := remote
  rw [NixlConnectorScheduler.saveView_finish, if_pos rfl]
  cases status : call.status with
  | finishedLengthCapped =>
      rw [SaveView.finish_lengthCapped]
      rw [RestoreCondition, status] at condition
      exact unused condition
  | other =>
      rw [SaveView.finish_other decode noPrefill]
      rw [RestoreCondition, status] at condition
      have counter := AList.lookup_eq_none.mpr condition
      simp [NixlConnectorScheduler.saveView, SaveView.empty, counter]

/-! ## Runs -/

theorem AtFinishes.of_snoc {config : SchedulerConfig} {history : List SchedulerEvent}
    {event : SchedulerEvent}
    {property : List SchedulerEvent → NixlConnectorScheduler → FinishCall → Prop}
    (holds : AtFinishes config (history ++ [event]) property) :
    AtFinishes config history property := fun earlier call inside =>
  holds earlier call (inside.trans (List.prefix_append history [event]))

/-- In a run whose finishes meet the condition, nothing is kept about an id not in use. -/
theorem view_of_unused {config : SchedulerConfig} {events : List SchedulerEvent}
    {final : NixlConnectorScheduler} (remote : ∀ event ∈ events, RemoteDecode event)
    (condition : AtFinishes config events fun history scheduler call =>
      RestoreCondition history scheduler call)
    (taken : Run.exec (NixlConnectorScheduler.step config) .init events = .ok final)
    (reqId : ReqId) (unused : useOf reqId events = none) : final.saveView reqId = .empty := by
  let invariant (history : List SchedulerEvent) (scheduler : NixlConnectorScheduler) : Prop :=
    (∀ event ∈ history, RemoteDecode event) →
      AtFinishes config history (fun history scheduler call =>
        RestoreCondition history scheduler call) →
      ∀ reqId, useOf reqId history = none → scheduler.saveView reqId = .empty
  suffices holds : invariant events final from holds remote condition reqId unused
  refine Run.history_induction (fun _ _ _ _ => rfl) ?_ taken
  intro history middle event next before ih moved remote condition reqId unused
  have earlier := ih (fun other member => remote other (List.mem_append_left _ member))
    condition.of_snoc
  rw [useOf_snoc] at unused
  cases event with
  | alloc request unhashedBlockIds numExternalTokens now =>
      obtain ⟨after, allocated⟩ := NixlConnectorScheduler.step_alloc_eq_ok moved
      rw [NixlConnectorScheduler.saveView_alloc allocated]
      by_cases same : reqId = request.requestId
      · simp [currentUse, same] at unused
      · rw [if_neg same]
        exact earlier reqId (by simpa [currentUse, same] using unused)
  | build output =>
      obtain ⟨metadata, built⟩ := NixlConnectorScheduler.step_build_eq_ok moved
      rw [(NixlConnectorScheduler.saveView_build built reqId).1, earlier reqId unused]
      cases output.scheduledFor reqId with
      | none => rfl
      | some scheduled => exact SaveView.advance_empty config scheduled
  | finish request status blockIds now =>
      obtain rfl := Except.ok.inj moved
      let call : FinishCall := { request, status, blockIds, now }
      by_cases same : reqId = request.requestId
      · subst same
        have remoteCall : RemoteDecode call.event :=
          remote call.event (by simp [call, FinishCall.event])
        exact view_gone remoteCall (earlier request.requestId)
          (condition history call List.prefix_rfl middle before)
      · rw [NixlConnectorScheduler.saveView_finish, if_neg same]
        exact earlier reqId (by simpa [currentUse, same] using unused)
  | register payload =>
      obtain rfl := Except.ok.inj moved
      exact earlier reqId unused

/-- **Bookkeeping at the finish.**  In every run over remote-decode requests, every finish is
right exactly when every finish meets the condition. -/
theorem restored_iff {config : SchedulerConfig} {events : List SchedulerEvent}
    (remote : ∀ event ∈ events, RemoteDecode event) :
    AtFinishes config events (Restored config) ↔ AtFinishes config events RestoreCondition := by
  constructor
  · intro restored history call inside scheduler taken
    obtain ⟨present, gone⟩ := restored history call inside scheduler taken
    rw [NixlConnectorScheduler.saveView_finish, if_pos rfl] at gone
    obtain ⟨decode, noPrefill⟩ := remote call.event (inside.subset (by simp))
    cases status : call.status with
    | finishedLengthCapped =>
        rw [RestoreCondition, status]
        cases use : useOf call.request.requestId history with
        | none => rfl
        | some started =>
            -- the entry the line needs is the entry that stays behind
            have kept := (present started.1 started.2 status use).1
            rw [status, SaveView.finish_lengthCapped] at gone
            have absent := AList.lookup_eq_none.mp (congrArg SaveView.life gone)
            exact absurd kept absent
    | other =>
        rw [RestoreCondition, status]
        rw [status, SaveView.finish_other decode noPrefill] at gone
        exact AList.lookup_eq_none.mp (congrArg SaveView.counter gone)
  · intro condition history call inside scheduler taken
    have remoteCall := remote call.event (inside.subset (by simp))
    have remoteHistory : ∀ event ∈ history, RemoteDecode event := fun event member =>
      remote event (inside.subset (List.mem_append_left _ member))
    have conditionHistory : AtFinishes config history RestoreCondition :=
      fun earlier other before =>
        condition earlier other (before.trans ((List.prefix_append history _).trans inside))
    have here := condition history call inside scheduler taken
    refine ⟨?_, view_gone remoteCall
      (view_of_unused remoteHistory conditionHistory taken call.request.requestId) here⟩
    intro request start capped use
    rw [RestoreCondition, capped, use] at here
    cases here

/-! ## Finishes that are not right -/

/-- A request with a prompt of two tokens. -/
def twoTokens : Request := .remoteDecode "cmpl-2" [21, 22]

/-- The step that schedules some of the tokens of the request into one new block. -/
def tokensStep (scheduled : ℕ) : SchedulerOutput :=
  .single
    { reqId := twoTokens.requestId
      newBlockIds := some [3]
      numScheduledTokens := scheduled
      numComputedTokens := 0 }

def prefillOf (scheduled : ℕ) : List SchedulerEvent :=
  [.alloc twoTokens [3] 0 1, .build (tokensStep scheduled)]

def finishCall (status : RequestStatus) : FinishCall where
  request := twoTokens
  status
  blockIds := [3]
  now := 2

/-- A request aborted with no chunk count open. -/
theorem restored_of_device_abort :
    AtFinishes (.withDefaults false true) (prefillOf 1 ++ [(finishCall .other).event])
      (Restored (.withDefaults false true)) := by
  refine (restored_iff ?_).mpr fun history call inside scheduler taken => ?_
  · simp [prefillOf, FinishCall.event, finishCall, RemoteDecode, twoTokens, Request.remoteDecode,
      KvTransferParams.remoteDecode]
  · obtain ⟨back, shape⟩ := inside
    obtain ⟨request, status, blockIds, now⟩ := call
    match history, shape with
    | [], shape => cases shape
    | [_], shape => cases shape
    | [_, _], shape =>
        cases shape
        cases taken
        exact AList.notMem_empty _
    | _ :: _ :: _ :: _, shape => simp [prefillOf] at shape

/-- A whole prefill into device memory leaves its lifecycle entry behind, one into host memory
finds no entry at its finish, and an abort after a first chunk leaves the chunk count behind. -/
theorem not_restored :
    (¬AtFinishes (.withDefaults false true)
        (prefillOf 2 ++ [(finishCall .finishedLengthCapped).event])
        (Restored (.withDefaults false true))) ∧
      (¬AtFinishes (.withDefaults true true)
        (prefillOf 2 ++ [(finishCall .finishedLengthCapped).event])
        (Restored (.withDefaults true true))) ∧
      ¬AtFinishes (.withDefaults true true) (prefillOf 1 ++ [(finishCall .other).event])
        (Restored (.withDefaults true true)) := by
  refine ⟨fun restored => ?_, fun restored => ?_, fun restored => ?_⟩
  · have gone := (restored (prefillOf 2) _ List.prefix_rfl _ rfl).gone
    cases congrArg SaveView.life gone
  · have present := (restored (prefillOf 2) _ List.prefix_rfl _ rfl).present twoTokens 1 rfl rfl
    revert present
    decide
  · have gone := (restored (prefillOf 1) _ List.prefix_rfl _ rfl).gone
    cases congrArg SaveView.counter gone

end Bookkeeping

end RduHdi
