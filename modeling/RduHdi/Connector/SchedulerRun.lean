import RduHdi.Connector.Scheduler
import RduHdi.Run

/-!
# Runs of the scheduler side, seen from one request

The scheduler side is driven by four calls in any order.  What its three per-request maps hold for
one request id depends only on the calls about that id, so a run is followed through the view of
a single id: the maps at that id, advanced by allocations, by the entries of the steps' outputs
and by the finish.
-/

namespace RduHdi

/-- A call into the scheduler side. -/
inductive SchedulerEvent where
  | alloc (request : Request) (unhashedBlockIds : List ℕ) (numExternalTokens : ℕ) (now : ℚ)
  | build (output : SchedulerOutput)
  | finish (request : Request) (status : RequestStatus) (blockIds : List ℕ) (now : ℚ)
  /-- A registration arrives at the listener thread. -/
  | register (payload : PyObj)

/-- The arguments of a call of `request_finished`. -/
structure FinishCall where
  /-- The request that finishes. -/
  request : Request
  /-- Its status. -/
  status : RequestStatus
  /-- Its blocks. -/
  blockIds : List ℕ
  /-- The time of the call. -/
  now : ℚ

def FinishCall.event (call : FinishCall) : SchedulerEvent :=
  .finish call.request call.status call.blockIds call.now

/-- The call of `request_finished`, if the event is one. -/
def SchedulerEvent.finishCall? : SchedulerEvent → Option FinishCall
  | .finish request status blockIds now => some { request, status, blockIds, now }
  | _ => none

namespace NixlConnectorScheduler

/-- Take one call; an exception ends the engine process. -/
def step (config : SchedulerConfig) (scheduler : NixlConnectorScheduler) :
    SchedulerEvent → Except PyError NixlConnectorScheduler
  | .alloc request unhashedBlockIds numExternalTokens now =>
      (scheduler.updateStateAfterAlloc config request unhashedBlockIds numExternalTokens now).map
        Prod.fst
  | .build output => (scheduler.buildConnectorMeta config output).map Prod.fst
  | .finish request status blockIds now =>
      .ok (scheduler.requestFinished config request status blockIds now).1
  | .register payload => .ok (scheduler.handleConsumerRegistration payload).1

theorem step_alloc_eq_ok {config : SchedulerConfig} {scheduler next : NixlConnectorScheduler}
    {request : Request} {unhashedBlockIds : List ℕ} {numExternalTokens : ℕ} {now : ℚ}
    (taken : scheduler.step config (.alloc request unhashedBlockIds numExternalTokens now) =
      .ok next) :
    ∃ after, scheduler.updateStateAfterAlloc config request unhashedBlockIds numExternalTokens
      now = .ok (next, after) := by
  obtain ⟨⟨_, after⟩, allocated, rfl⟩ := Run.map_eq_ok.mp taken
  exact ⟨after, allocated⟩

theorem step_build_eq_ok {config : SchedulerConfig} {scheduler next : NixlConnectorScheduler}
    {output : SchedulerOutput} (taken : scheduler.step config (.build output) = .ok next) :
    ∃ metadata, scheduler.buildConnectorMeta config output = .ok (next, metadata) := by
  obtain ⟨⟨_, metadata⟩, built, rfl⟩ := Run.map_eq_ok.mp taken
  exact ⟨metadata, built⟩

/-- The metadata a call hands to the workers. -/
def metadataOf (config : SchedulerConfig) (scheduler : NixlConnectorScheduler) :
    SchedulerEvent → List NixlConnectorMetadata
  | .build output =>
      match scheduler.buildConnectorMeta config output with
      | .ok (_, metadata) => [metadata]
      | .error _ => []
  | _ => []

end NixlConnectorScheduler

/-! ## The view of one request -/

/-- The three per-request maps at one id. -/
structure SaveView where
  /-- The entry in `_reqs_need_save`. -/
  saving : Option Request
  /-- The entry in `_save_chunk_counter`. -/
  counter : Option ℕ
  /-- The entry in `_prefill_lifecycle`. -/
  life : Option PrefillLifecycle
  deriving DecidableEq

/-- What a metadata says about saving one request. -/
structure SavedChunk where
  /-- What is saved. -/
  saved : ReqMeta
  /-- The number of the chunk. -/
  chunkIdx : Option ℕ
  /-- Whether it is the last. -/
  isLast : Option Bool
  deriving DecidableEq

def NixlConnectorScheduler.saveView (scheduler : NixlConnectorScheduler) (reqId : ReqId) :
    SaveView where
  saving := scheduler.reqsNeedSave.lookup reqId
  counter := scheduler.saveChunkCounter.lookup reqId
  life := scheduler.prefillLifecycle.lookup reqId

def NixlConnectorMetadata.savedChunk? (metadata : NixlConnectorMetadata) (reqId : ReqId) :
    Option SavedChunk :=
  (metadata.reqsToSave.lookup reqId).map fun saved =>
    { saved
      chunkIdx := metadata.saveChunkIdx.lookup reqId
      isLast := metadata.saveIsLast.lookup reqId }

namespace SaveView

/-- The view of a request nothing is known about. -/
def empty : SaveView := { saving := none, counter := none, life := none }

/-- The effect of `update_state_after_alloc` on the view of the allocated request. -/
def alloc (config : SchedulerConfig) (request : Request) (now : ℚ) (view : SaveView) : SaveView :=
  if request.kvTransferParams.doRemoteDecode then
    { view with
      saving := if config.useHostBuffer then some request else view.saving
      life := some (NixlConnectorScheduler.allocLifecycle request now view.life) }
  else
    view

/-- The effect of a step's entry on the view of its request. -/
def advance (config : SchedulerConfig) (scheduled : ScheduledReq) (view : SaveView) : SaveView :=
  match view.saving, scheduled.newBlockIds with
  | some request, some _ =>
      if NixlConnectorScheduler.isPartial request scheduled then
        { view with
          counter :=
            if config.chunkOverlapEnabled then some (view.counter.getD 0 + 1) else view.counter
          life := view.life.map fun life =>
            { life with chunksDispatched := life.chunksDispatched + 1 } }
      else
        { saving := none
          counter := if config.chunkOverlapEnabled then none else view.counter
          life := none }
  | _, _ => view

/-- What a step's entry puts into the metadata for its request. -/
def emit (config : SchedulerConfig) (scheduled : ScheduledReq) (view : SaveView) :
    Option SavedChunk :=
  match view.saving, scheduled.newBlockIds with
  | some request, some blockIds =>
      let label {α : Type} (value : α) : Option α :=
        if config.chunkOverlapEnabled then some value else none
      some
        { saved := NixlConnectorMetadata.addNewReq blockIds request.kvTransferParams
          chunkIdx := label (view.counter.getD 0)
          isLast := label (!NixlConnectorScheduler.isPartial request scheduled) }
  | _, _ => none

/-- The effect of `request_finished` on the view of the finished request. -/
def finish (request : Request) (status : RequestStatus) (view : SaveView) : SaveView :=
  let params := request.kvTransferParams
  if !params.doRemotePrefill && params.doRemoteDecode && status ≠ .finishedLengthCapped then
    { view with saving := none, life := none }
  else
    view

/-! ### The view across one entry -/

section Advance

variable {config : SchedulerConfig} {request : Request} {scheduled : ScheduledReq}
  {view : SaveView}

theorem advance_of_noBlocks (noBlocks : scheduled.newBlockIds = none) :
    view.advance config scheduled = view := by
  simp [advance, noBlocks]

theorem emit_of_noBlocks (noBlocks : scheduled.newBlockIds = none) :
    view.emit config scheduled = none := by
  simp [emit, noBlocks]

theorem saving_advance_of_partial (saving : view.saving = some request)
    (remains : NixlConnectorScheduler.isPartial request scheduled = true) :
    (view.advance config scheduled).saving = some request := by
  cases blocks : scheduled.newBlockIds with
  | none => rwa [advance_of_noBlocks blocks]
  | some blockIds => simp [advance, saving, blocks, remains]

theorem saving_advance_of_complete {blockIds : List ℕ} (saving : view.saving = some request)
    (blocks : scheduled.newBlockIds = some blockIds)
    (completed : NixlConnectorScheduler.isPartial request scheduled = false) :
    (view.advance config scheduled).saving = none := by
  simp [advance, saving, blocks, completed]

theorem localBlockIds_emit {blockIds : List ℕ} (saving : view.saving = some request)
    (blocks : scheduled.newBlockIds = some blockIds) :
    (view.emit config scheduled).map (fun chunk => chunk.saved.localBlockIds) =
      some blockIds := by
  simp [emit, saving, blocks, NixlConnectorMetadata.addNewReq]

end Advance

end SaveView

/-! ## The view advances with the calls about its id -/

namespace NixlConnectorScheduler

open SaveView

theorem needRecv_eq_ok {scheduler next : NixlConnectorScheduler} {request : Request}
    {unhashedBlockIds : List ℕ} {numExternalTokens : ℕ}
    (taken : scheduler.needRecv request unhashedBlockIds numExternalTokens = .ok next) :
    ∃ needed, next = { scheduler with reqsNeedRecv := needed } := by
  simp only [needRecv] at taken
  by_cases noBlocks : (request.kvTransferParams.remoteBlockIds.getD []).isEmpty
  · rw [if_pos noBlocks] at taken
    by_cases noTokens : numExternalTokens = 0
    · rw [if_pos noTokens] at taken
      cases taken
      exact ⟨scheduler.reqsNeedRecv, rfl⟩
    · rw [if_neg noTokens] at taken
      cases taken
  · rw [if_neg noBlocks] at taken
    by_cases keys : hasRemoteKeys request.kvTransferParams
    · rw [if_pos keys] at taken
      cases taken
      exact ⟨_, rfl⟩
    · rw [if_neg keys] at taken
      cases taken
      exact ⟨scheduler.reqsNeedRecv, rfl⟩

/-- The effect of an allocation outside the receive map. -/
def allocEffect (config : SchedulerConfig) (scheduler : NixlConnectorScheduler)
    (request : Request) (now : ℚ) : NixlConnectorScheduler :=
  if request.kvTransferParams.doRemoteDecode then
    let tracked := scheduler.trackRemoteDecode request now
    { tracked with
      reqsNeedSave :=
        if config.useHostBuffer then tracked.reqsNeedSave.set request.requestId request
        else tracked.reqsNeedSave }
  else
    scheduler

theorem updateStateAfterAlloc_eq_ok {config : SchedulerConfig}
    {scheduler next : NixlConnectorScheduler} {request after : Request}
    {unhashedBlockIds : List ℕ} {numExternalTokens : ℕ} {now : ℚ}
    (taken : scheduler.updateStateAfterAlloc config request unhashedBlockIds numExternalTokens
      now = .ok (next, after)) :
    ∃ needed, next = { scheduler.allocEffect config request now with reqsNeedRecv := needed } := by
  simp only [updateStateAfterAlloc] at taken
  by_cases saves : config.useHostBuffer && request.kvTransferParams.doRemoteDecode
  · rw [if_pos saves] at taken
    rw [Bool.and_eq_true] at saves
    cases taken
    exact ⟨scheduler.reqsNeedRecv, by simp [allocEffect, saves, trackRemoteDecode]⟩
  · rw [if_neg saves] at taken
    have effect : (if request.kvTransferParams.doRemoteDecode then
        scheduler.trackRemoteDecode request now else scheduler) =
          scheduler.allocEffect config request now := by
      by_cases decode : request.kvTransferParams.doRemoteDecode
      · have device : config.useHostBuffer = false := by simpa [decode] using saves
        simp [allocEffect, decode, device]
      · simp [allocEffect, decode]
    rw [effect] at taken
    by_cases prefill : request.kvTransferParams.doRemotePrefill
    · rw [if_pos prefill] at taken
      cases needed : (scheduler.allocEffect config request now).needRecv request
          unhashedBlockIds numExternalTokens with
      | ok received =>
          rw [needed] at taken
          cases taken
          exact needRecv_eq_ok needed
      | error raised =>
          rw [needed] at taken
          cases taken
    · rw [if_neg prefill] at taken
      cases taken
      exact ⟨_, rfl⟩

/-- An allocation moves the view of the allocated request only. -/
theorem saveView_alloc {config : SchedulerConfig} {scheduler next : NixlConnectorScheduler}
    {request after : Request} {unhashedBlockIds : List ℕ} {numExternalTokens : ℕ} {now : ℚ}
    (taken : scheduler.updateStateAfterAlloc config request unhashedBlockIds numExternalTokens
      now = .ok (next, after))
    (reqId : ReqId) :
    next.saveView reqId =
      if reqId = request.requestId then (scheduler.saveView reqId).alloc config request now
      else scheduler.saveView reqId := by
  obtain ⟨needed, rfl⟩ := updateStateAfterAlloc_eq_ok taken
  by_cases decode : request.kvTransferParams.doRemoteDecode
  · by_cases same : reqId = request.requestId
    · subst same
      by_cases host : config.useHostBuffer <;>
        simp [saveView, allocEffect, trackRemoteDecode, SaveView.alloc, decode, host]
    · by_cases host : config.useHostBuffer <;>
        simp [saveView, allocEffect, trackRemoteDecode, decode, host, same]
  · simp [saveView, allocEffect, SaveView.alloc, decode]

/-- A finish moves the view of the finished request only. -/
theorem saveView_finish (config : SchedulerConfig) (scheduler : NixlConnectorScheduler)
    (request : Request) (status : RequestStatus) (blockIds : List ℕ) (now : ℚ)
    (reqId : ReqId) :
    (scheduler.requestFinished config request status blockIds now).1.saveView reqId =
      if reqId = request.requestId then (scheduler.saveView reqId).finish request status
      else scheduler.saveView reqId := by
  by_cases same : reqId = request.requestId
  · subst same
    cases prefill : request.kvTransferParams.doRemotePrefill <;>
      cases decode : request.kvTransferParams.doRemoteDecode <;>
      cases status <;>
      simp [requestFinished, saveView, SaveView.finish, prefill, decode]
  · cases prefill : request.kvTransferParams.doRemotePrefill <;>
      cases decode : request.kvTransferParams.doRemoteDecode <;>
      cases status <;>
      simp [requestFinished, saveView, prefill, decode, same]

/-! ## The save loop -/

theorem saveView_labelChunk (config : SchedulerConfig) (scheduler : NixlConnectorScheduler)
    (metadata : NixlConnectorMetadata) (labelled : ReqId) (isLast : Bool) (reqId : ReqId) :
    (scheduler.labelChunk config metadata labelled isLast).1.saveView reqId =
      { scheduler.saveView reqId with
        counter :=
          if config.chunkOverlapEnabled ∧ reqId = labelled then
            some ((scheduler.saveView reqId).counter.getD 0 + 1)
          else (scheduler.saveView reqId).counter } := by
  by_cases overlap : config.chunkOverlapEnabled
  · by_cases same : reqId = labelled
    · subst same
      simp [labelChunk, saveView, overlap]
    · simp [labelChunk, saveView, overlap, same]
  · simp [labelChunk, overlap]

theorem saveView_countChunk (scheduler : NixlConnectorScheduler) (counted reqId : ReqId) :
    (scheduler.countChunk counted).saveView reqId =
      { scheduler.saveView reqId with
        life :=
          if reqId = counted then
            (scheduler.saveView reqId).life.map fun life =>
              { life with chunksDispatched := life.chunksDispatched + 1 }
          else (scheduler.saveView reqId).life } := by
  cases found : scheduler.prefillLifecycle.lookup counted with
  | none =>
      by_cases same : reqId = counted
      · subst same
        simp [countChunk, saveView, found]
      · simp [countChunk, saveView, found, same]
  | some life =>
      by_cases same : reqId = counted
      · subst same
        simp [countChunk, saveView, found]
      · simp [countChunk, saveView, found, same]

theorem saveView_retireSaved (config : SchedulerConfig) (scheduler : NixlConnectorScheduler)
    (retired reqId : ReqId) :
    (scheduler.retireSaved config retired).saveView reqId =
      if reqId = retired then
        { saving := none
          counter :=
            if config.chunkOverlapEnabled then none else (scheduler.saveView reqId).counter
          life := none }
      else scheduler.saveView reqId := by
  by_cases same : reqId = retired
  · subst same
    by_cases overlap : config.chunkOverlapEnabled <;> simp [retireSaved, saveView, overlap]
  · by_cases overlap : config.chunkOverlapEnabled <;>
      simp [retireSaved, saveView, overlap, same]

theorem saveView_saveEntry (config : SchedulerConfig) (scheduler : NixlConnectorScheduler)
    (metadata : NixlConnectorMetadata) (scheduled : ScheduledReq) (reqId : ReqId) :
    (saveEntry config (scheduler, metadata) scheduled).1.saveView reqId =
      if reqId = scheduled.reqId then (scheduler.saveView reqId).advance config scheduled
      else scheduler.saveView reqId := by
  cases saving : scheduler.reqsNeedSave.lookup scheduled.reqId with
  | none =>
      by_cases same : reqId = scheduled.reqId
      · subst same
        simp [saveEntry, SaveView.advance, saveView, saving]
      · simp [saveEntry, saving, same]
  | some request =>
      cases blocks : scheduled.newBlockIds with
      | none =>
          by_cases same : reqId = scheduled.reqId
          · subst same
            simp [saveEntry, SaveView.advance, saveView, saving, blocks]
          · simp [saveEntry, saving, blocks, same]
      | some blockIds =>
          by_cases same : reqId = scheduled.reqId
          · subst same
            have viewed : (scheduler.saveView scheduled.reqId).saving = some request := saving
            by_cases remains : isPartial request scheduled
            · simp [saveEntry, SaveView.advance, saveView_countChunk, saveView_labelChunk,
                viewed, saving, blocks, remains]
            · simp [saveEntry, SaveView.advance, saveView_retireSaved, saveView_countChunk,
                saveView_labelChunk, viewed, saving, blocks, remains]
              by_cases overlap : config.chunkOverlapEnabled <;> simp [overlap]
          · by_cases remains : isPartial request scheduled <;>
              simp [saveEntry, saveView_retireSaved, saveView_countChunk, saveView_labelChunk,
                saving, blocks, remains, same]

/-- What a metadata holds about saving one request, map by map. -/
def savedSlots (metadata : NixlConnectorMetadata) (reqId : ReqId) :
    Option ReqMeta × Option ℕ × Option Bool :=
  (metadata.reqsToSave.lookup reqId, metadata.saveChunkIdx.lookup reqId,
    metadata.saveIsLast.lookup reqId)

theorem savedSlots_saveEntry_ne {config : SchedulerConfig} {scheduler : NixlConnectorScheduler}
    {metadata : NixlConnectorMetadata} {scheduled : ScheduledReq} {reqId : ReqId}
    (different : reqId ≠ scheduled.reqId) :
    savedSlots (saveEntry config (scheduler, metadata) scheduled).2 reqId =
      savedSlots metadata reqId := by
  cases saving : scheduler.reqsNeedSave.lookup scheduled.reqId with
  | none => simp [saveEntry, saving]
  | some request =>
      cases blocks : scheduled.newBlockIds with
      | none => simp [saveEntry, saving, blocks]
      | some blockIds =>
          by_cases remains : isPartial request scheduled <;>
            by_cases overlap : config.chunkOverlapEnabled <;>
            simp [saveEntry, savedSlots, labelChunk, NixlConnectorMetadata.addNewReqToSave,
              saving, blocks, remains, overlap, different]

theorem savedChunk?_saveEntry (config : SchedulerConfig) (scheduler : NixlConnectorScheduler)
    {metadata : NixlConnectorMetadata} {scheduled : ScheduledReq}
    (blank : savedSlots metadata scheduled.reqId = (none, none, none)) :
    (saveEntry config (scheduler, metadata) scheduled).2.savedChunk? scheduled.reqId =
      (scheduler.saveView scheduled.reqId).emit config scheduled := by
  simp only [savedSlots, Prod.mk.injEq] at blank
  obtain ⟨noSave, noIdx, noLast⟩ := blank
  cases saving : scheduler.reqsNeedSave.lookup scheduled.reqId with
  | none =>
      simp [saveEntry, NixlConnectorMetadata.savedChunk?, SaveView.emit, saveView, saving, noSave]
  | some request =>
      cases blocks : scheduled.newBlockIds with
      | none =>
          simp [saveEntry, NixlConnectorMetadata.savedChunk?, SaveView.emit, saveView, saving,
            blocks, noSave]
      | some blockIds =>
          by_cases remains : isPartial request scheduled <;>
            by_cases overlap : config.chunkOverlapEnabled <;>
            simp [saveEntry, NixlConnectorMetadata.savedChunk?, SaveView.emit, saveView,
              labelChunk, NixlConnectorMetadata.addNewReqToSave, saving, blocks, remains,
              overlap, noIdx, noLast]

/-- The loop over a step's entries acts on one id through that id's entry alone. -/
theorem saveLoop_of_notMem (config : SchedulerConfig) {entries : List ScheduledReq}
    {reqId : ReqId} (absent : reqId ∉ entries.map ScheduledReq.reqId)
    (state : NixlConnectorScheduler × NixlConnectorMetadata) :
    (entries.foldl (saveEntry config) state).1.saveView reqId = state.1.saveView reqId ∧
      savedSlots (entries.foldl (saveEntry config) state).2 reqId = savedSlots state.2 reqId := by
  induction entries generalizing state with
  | nil => exact ⟨rfl, rfl⟩
  | cons scheduled entries ih =>
      obtain ⟨scheduler, metadata⟩ := state
      rw [List.map_cons, List.mem_cons, not_or] at absent
      obtain ⟨view, slots⟩ := ih absent.2 (saveEntry config (scheduler, metadata) scheduled)
      rw [List.foldl_cons]
      constructor
      · rw [view, saveView_saveEntry, if_neg absent.1]
      · rw [slots, savedSlots_saveEntry_ne absent.1]

theorem savedChunk?_congr {left right : NixlConnectorMetadata} {reqId : ReqId}
    (same : savedSlots left reqId = savedSlots right reqId) :
    left.savedChunk? reqId = right.savedChunk? reqId := by
  simp only [savedSlots, Prod.mk.injEq] at same
  simp [NixlConnectorMetadata.savedChunk?, same]

theorem saveLoop_eq (config : SchedulerConfig) {entries : List ScheduledReq}
    (nodup : (entries.map ScheduledReq.reqId).Nodup) {reqId : ReqId}
    (state : NixlConnectorScheduler × NixlConnectorMetadata)
    (blank : savedSlots state.2 reqId = (none, none, none)) :
    let final := entries.foldl (saveEntry config) state
    let found := entries.find? fun scheduled => scheduled.reqId = reqId
    final.1.saveView reqId =
        (found.map fun scheduled => (state.1.saveView reqId).advance config scheduled).getD
          (state.1.saveView reqId) ∧
      final.2.savedChunk? reqId =
        found.bind fun scheduled => (state.1.saveView reqId).emit config scheduled := by
  induction entries generalizing state with
  | nil =>
      simp only [savedSlots, Prod.mk.injEq] at blank
      simp [NixlConnectorMetadata.savedChunk?, blank]
  | cons scheduled entries ih =>
      obtain ⟨scheduler, metadata⟩ := state
      rw [List.map_cons, List.nodup_cons] at nodup
      by_cases same : scheduled.reqId = reqId
      · subst same
        obtain ⟨view, slots⟩ :=
          saveLoop_of_notMem config nodup.1 (saveEntry config (scheduler, metadata) scheduled)
        constructor
        · simp [view, saveView_saveEntry]
        · rw [List.foldl_cons, savedChunk?_congr slots, savedChunk?_saveEntry config _ blank]
          simp
      · have different : reqId ≠ scheduled.reqId := fun equal => same equal.symm
        have remains :
            savedSlots (saveEntry config (scheduler, metadata) scheduled).2 reqId =
              (none, none, none) := by
          rw [savedSlots_saveEntry_ne different, blank]
        have later := ih nodup.2 (saveEntry config (scheduler, metadata) scheduled) remains
        simpa [saveView_saveEntry, different, same] using later

theorem savedSlots_recvLoop {entries : List (Σ _ : ReqId, Request × List ℕ)}
    {metadata final : NixlConnectorMetadata} (taken : recvLoop metadata entries = .ok final)
    (reqId : ReqId) : savedSlots final reqId = savedSlots metadata reqId := by
  induction entries generalizing metadata with
  | nil =>
      cases taken
      rfl
  | cons entry entries ih =>
      obtain ⟨received, request, blockIds⟩ := entry
      rw [recvLoop] at taken
      cases added : metadata.addNewReqToRecv received blockIds request.kvTransferParams with
      | error raised =>
          rw [added] at taken
          cases taken
      | ok next =>
          rw [added] at taken
          rw [ih taken]
          simp only [NixlConnectorMetadata.addNewReqToRecv] at added
          split at added
          · cases added
            rfl
          · cases added

/-- A build is the receive loop, the save loop and the hand-over. -/
theorem buildConnectorMeta_eq_ok {config : SchedulerConfig}
    {scheduler next : NixlConnectorScheduler} {output : SchedulerOutput}
    {metadata : NixlConnectorMetadata}
    (taken : scheduler.buildConnectorMeta config output = .ok (next, metadata)) :
    ∃ received, recvLoop .init scheduler.reqsNeedRecv.entries = .ok received ∧
      (next, metadata) =
        let looped := output.reqData.foldl (saveEntry config) (scheduler, received)
        looped.1.handOver config looped.2 := by
  unfold buildConnectorMeta at taken
  cases received : recvLoop .init scheduler.reqsNeedRecv.entries with
  | error raised =>
      rw [received] at taken
      cases taken
  | ok first =>
      rw [received] at taken
      exact ⟨first, rfl, (Except.ok.inj taken).symm⟩

/-- **The build, seen from one request.**  The view advances by the request's entry, if the step
has one, and the metadata carries what that entry emits. -/
theorem saveView_build {config : SchedulerConfig} {scheduler next : NixlConnectorScheduler}
    {output : SchedulerOutput} {metadata : NixlConnectorMetadata}
    (taken : scheduler.buildConnectorMeta config output = .ok (next, metadata))
    (reqId : ReqId) :
    next.saveView reqId =
        ((output.scheduledFor reqId).map fun scheduled =>
          (scheduler.saveView reqId).advance config scheduled).getD (scheduler.saveView reqId) ∧
      metadata.savedChunk? reqId =
        (output.scheduledFor reqId).bind fun scheduled =>
          (scheduler.saveView reqId).emit config scheduled := by
  obtain ⟨received, loop, pair⟩ := buildConnectorMeta_eq_ok taken
  have blank : savedSlots received reqId = (none, none, none) := by
    rw [savedSlots_recvLoop loop]
    rfl
  obtain ⟨view, chunk⟩ :=
    saveLoop_eq config output.nodupReqs (scheduler, received) blank
  obtain ⟨rfl, rfl⟩ := Prod.mk.inj pair
  exact ⟨view, chunk⟩

end NixlConnectorScheduler

/-! ## Projecting a run to one request -/

/-- What a call says about one request. -/
inductive SaveItem where
  | alloc (request : Request) (now : ℚ)
  | entry (scheduled : ScheduledReq)
  | finish (request : Request) (status : RequestStatus)

/-- The part of a call that concerns one request. -/
def SchedulerEvent.items (reqId : ReqId) : SchedulerEvent → List SaveItem
  | .alloc request _ _ now => if reqId = request.requestId then [.alloc request now] else []
  | .build output => (output.scheduledFor reqId).toList.map .entry
  | .finish request status _ _ =>
      if reqId = request.requestId then [.finish request status] else []
  | .register _ => []

theorem SchedulerEvent.items_eq_nil_or_singleton (reqId : ReqId) (event : SchedulerEvent) :
    event.items reqId = [] ∨ ∃ item, event.items reqId = [item] := by
  cases event with
  | alloc request _ _ now =>
      by_cases same : reqId = request.requestId
      · exact Or.inr ⟨.alloc request now, if_pos same⟩
      · exact Or.inl (if_neg same)
  | build output =>
      cases found : output.scheduledFor reqId with
      | none => exact Or.inl (by simp [SchedulerEvent.items, found])
      | some scheduled => exact Or.inr ⟨.entry scheduled, by simp [SchedulerEvent.items, found]⟩
  | finish request status _ _ =>
      by_cases same : reqId = request.requestId
      · exact Or.inr ⟨.finish request status, if_pos same⟩
      · exact Or.inl (if_neg same)
  | register _ => exact Or.inl rfl

/-- An entry among the items of a run comes from a build of the run. -/
theorem SchedulerEvent.exists_build {reqId : ReqId} {events : List SchedulerEvent}
    {front back : List SaveItem} {scheduled : ScheduledReq}
    (shape : events.flatMap (SchedulerEvent.items reqId) = front ++ .entry scheduled :: back) :
    ∃ before output after, events = before ++ .build output :: after ∧
      output.scheduledFor reqId = some scheduled ∧
      before.flatMap (SchedulerEvent.items reqId) = front := by
  induction events generalizing front with
  | nil => simp at shape
  | cons event events ih =>
      rw [List.flatMap_cons] at shape
      rcases event.items_eq_nil_or_singleton reqId with silent | ⟨item, single⟩
      · rw [silent, List.nil_append] at shape
        obtain ⟨before, output, after, rfl, here, items⟩ := ih shape
        exact ⟨event :: before, output, after, rfl, here, by
          rw [List.flatMap_cons, silent, items, List.nil_append]⟩
      · rw [single, List.singleton_append] at shape
        cases front with
        | nil =>
            obtain ⟨rfl, _⟩ := List.cons_eq_cons.mp shape
            cases event with
            | build output =>
                cases found : output.scheduledFor reqId with
                | none => simp [SchedulerEvent.items, found] at single
                | some other =>
                    obtain rfl : other = scheduled := by
                      simpa [SchedulerEvent.items, found] using single
                    exact ⟨[], output, events, rfl, found, rfl⟩
            | alloc request _ _ now =>
                simp only [SchedulerEvent.items] at single
                split at single <;> simp at single
            | finish request status _ _ =>
                simp only [SchedulerEvent.items] at single
                split at single <;> simp at single
            | register _ => cases single
        | cons first front =>
            obtain ⟨rfl, rest⟩ := List.cons_eq_cons.mp shape
            obtain ⟨before, output, after, rfl, here, items⟩ := ih rest
            exact ⟨event :: before, output, after, rfl, here, by
              rw [List.flatMap_cons, single, items, List.singleton_append]⟩

namespace SaveView

/-- The effect of an item on the view.  It never fails. -/
def step (config : SchedulerConfig) (view : SaveView) : SaveItem → Except PyError SaveView
  | .alloc request now => .ok (view.alloc config request now)
  | .entry scheduled => .ok (view.advance config scheduled)
  | .finish request status => .ok (view.finish request status)

/-- The chunk an item puts into a metadata. -/
def chunks (config : SchedulerConfig) (view : SaveView) : SaveItem → List SavedChunk
  | .entry scheduled => (view.emit config scheduled).toList
  | _ => []

end SaveView

/-- The chunks of one request which a call hands to the workers. -/
def NixlConnectorScheduler.chunksOf (config : SchedulerConfig) (reqId : ReqId)
    (scheduler : NixlConnectorScheduler) (event : SchedulerEvent) : List SavedChunk :=
  (scheduler.metadataOf config event).filterMap fun metadata => metadata.savedChunk? reqId

open NixlConnectorScheduler in
theorem saveView_step {config : SchedulerConfig} {scheduler next : NixlConnectorScheduler}
    {event : SchedulerEvent} (taken : scheduler.step config event = .ok next) (reqId : ReqId) :
    Run.exec (SaveView.step config) (scheduler.saveView reqId) (event.items reqId) =
        .ok (next.saveView reqId) ∧
      scheduler.chunksOf config reqId event =
        Run.observe (SaveView.step config) (SaveView.chunks config) (scheduler.saveView reqId)
          (event.items reqId) := by
  cases event with
  | alloc request unhashedBlockIds numExternalTokens now =>
      obtain ⟨after, allocated⟩ := step_alloc_eq_ok taken
      have view := saveView_alloc allocated reqId
      by_cases same : reqId = request.requestId
      · subst same
        simp [SchedulerEvent.items, view, Run.exec, Run.observe, SaveView.step,
          SaveView.chunks, chunksOf, metadataOf]
      · simp [SchedulerEvent.items, same, view, chunksOf, metadataOf]
  | build output =>
      obtain ⟨metadata, built⟩ := step_build_eq_ok taken
      obtain ⟨view, chunk⟩ := saveView_build built reqId
      have seen : scheduler.chunksOf config reqId (.build output) =
          (metadata.savedChunk? reqId).toList := by
        rw [chunksOf, metadataOf, built]
        cases found : metadata.savedChunk? reqId <;> simp [found]
      rw [seen, view, chunk]
      cases scheduled : output.scheduledFor reqId <;>
        simp [SchedulerEvent.items, scheduled, Run.exec, Run.observe, SaveView.step,
          SaveView.chunks]
  | finish request status blockIds now =>
      obtain rfl := Except.ok.inj taken
      have view := saveView_finish config scheduler request status blockIds now reqId
      by_cases same : reqId = request.requestId
      · subst same
        simp [SchedulerEvent.items, view, Run.exec, Run.observe, SaveView.step,
          SaveView.chunks, chunksOf, metadataOf]
      · simp [SchedulerEvent.items, same, view, chunksOf, metadataOf]
  | register payload =>
      obtain rfl := Except.ok.inj taken
      exact ⟨rfl, rfl⟩

/-- **Projection.**  A run of the scheduler side acts on one request's view as the run of the
request's items, and hands out the chunks these items emit. -/
theorem saveView_exec {config : SchedulerConfig} {scheduler final : NixlConnectorScheduler}
    {events : List SchedulerEvent}
    (taken : Run.exec (NixlConnectorScheduler.step config) scheduler events = .ok final)
    (reqId : ReqId) :
    Run.exec (SaveView.step config) (scheduler.saveView reqId)
          (events.flatMap (SchedulerEvent.items reqId)) = .ok (final.saveView reqId) ∧
      Run.observe (NixlConnectorScheduler.step config)
          (NixlConnectorScheduler.chunksOf config reqId) scheduler events =
        Run.observe (SaveView.step config) (SaveView.chunks config) (scheduler.saveView reqId)
          (events.flatMap (SchedulerEvent.items reqId)) :=
  Run.simulate (fun scheduler => scheduler.saveView reqId)
    (fun taken => saveView_step taken reqId) taken

end RduHdi
