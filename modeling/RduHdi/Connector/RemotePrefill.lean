import RduHdi.Connector.SchedulerRun

/-!
# Remote prefills

A request whose prefill runs elsewhere is received once.  The scheduler side reads its parameters
in four calls, each a different part of them.  When every call that promises a receive finds all
of what the metadata will need, nothing raises and every receive is handed out exactly once.
-/

namespace RduHdi

/-- The request objects of the engine, which the calls share and update. -/
structure RequestTable where
  /-- The request with an id. -/
  request : ReqId → Request
  /-- It has this id. -/
  requestId_request : ∀ reqId, (request reqId).requestId = reqId

namespace RequestTable

/-- The table after a call has left its request object behind. -/
def put (requests : RequestTable) (after : Request) : RequestTable where
  request := Function.update requests.request after.requestId after
  requestId_request reqId := by
    by_cases same : reqId = after.requestId
    · rw [same, Function.update_self]
    · rw [Function.update_of_ne same]
      exact requests.requestId_request reqId

@[simp]
theorem request_put (requests : RequestTable) (after : Request) (reqId : ReqId) :
    (requests.put after).request reqId =
      if reqId = after.requestId then after else requests.request reqId :=
  Function.update_apply requests.request after.requestId after reqId

end RequestTable

/-- The scheduler side together with the request objects. -/
structure ServedScheduler where
  /-- The scheduler side. -/
  scheduler : NixlConnectorScheduler
  /-- What vLLM keeps of the requests. -/
  requests : RequestTable

/-- A call of vLLM into the scheduler side. -/
inductive ServeEvent where
  /-- `get_num_new_matched_tokens`, after which no blocks are found for the request. -/
  | query (reqId : ReqId) (numComputedTokens : ℕ)
  /-- `get_num_new_matched_tokens`, and the request is allocated with what it returns. -/
  | schedule (reqId : ReqId) (numComputedTokens : ℕ) (unhashedBlockIds : List ℕ) (now : ℚ)
  /-- The allocation of a request that has computed tokens, with no external ones. -/
  | resume (reqId : ReqId) (unhashedBlockIds : List ℕ) (now : ℚ)
  | finish (reqId : ReqId) (status : RequestStatus) (blockIds : List ℕ) (now : ℚ)
  | build (output : SchedulerOutput)

namespace ServedScheduler

open NixlConnectorScheduler

def allocate (config : SchedulerConfig) (served : ServedScheduler) (reqId : ReqId)
    (unhashedBlockIds : List ℕ) (numExternalTokens : ℕ) (now : ℚ) :
    Except PyError ServedScheduler :=
  (served.scheduler.updateStateAfterAlloc config (served.requests.request reqId)
    unhashedBlockIds numExternalTokens now).map fun (scheduler, after) =>
      { scheduler, requests := served.requests.put after }

/-- Take one call; an exception ends the engine process. -/
def step (config : SchedulerConfig) (served : ServedScheduler) :
    ServeEvent → Except PyError ServedScheduler
  | .query _ _ => .ok served
  | .schedule reqId numComputedTokens unhashedBlockIds now =>
      served.allocate config reqId unhashedBlockIds
        (getNumNewMatchedTokens (served.requests.request reqId) numComputedTokens).1 now
  | .resume reqId unhashedBlockIds now => served.allocate config reqId unhashedBlockIds 0 now
  | .finish reqId status blockIds now =>
      let (scheduler, result) := served.scheduler.requestFinished config
        (served.requests.request reqId) status blockIds now
      .ok { scheduler, requests := served.requests.put result.request }
  | .build output =>
      (served.scheduler.buildConnectorMeta config output).map fun (scheduler, _) =>
        { served with scheduler }

/-! ## What a run must keep -/

/-- The requests whose receive is still to be handed out. -/
def pending (served : ServedScheduler) : List ReqId :=
  served.scheduler.reqsNeedRecv.keys

/-- The requests a call puts among the pending ones. -/
def entered (config : SchedulerConfig) (served : ServedScheduler) (event : ServeEvent) :
    List ReqId :=
  match served.step config event with
  | .ok next => next.pending.filter fun reqId => reqId ∉ served.pending
  | .error _ => []

/-- The requests in the metadata of a call. -/
def emitted (config : SchedulerConfig) (served : ServedScheduler) : ServeEvent → List ReqId
  | .build output =>
      match served.scheduler.buildConnectorMeta config output with
      | .ok (_, metadata) => metadata.reqsToRecv.keys
      | .error _ => []
  | _ => []

/-- vLLM parks the request until its receive completes. -/
def Parks (served : ServedScheduler) (reqId : ReqId) (numComputedTokens : ℕ) : Prop :=
  (getNumNewMatchedTokens (served.requests.request reqId) numComputedTokens).2 = true

/-- A request that is parked waits for a receive. -/
def Receives (config : SchedulerConfig) (served : ServedScheduler) (event : ServeEvent) : Prop :=
  match event with
  | .schedule reqId numComputedTokens _ _ =>
      served.Parks reqId numComputedTokens →
        ∀ next, served.step config event = .ok next → reqId ∈ next.pending
  | _ => True

/-- No call of a run raises, nor does a build after it; a request that is parked waits for a
receive; and each receive is in exactly one metadata. -/
structure Unwedged (config : SchedulerConfig) (served : ServedScheduler)
    (events : List ServeEvent) : Prop where
  /-- The next metadata can be built. -/
  raises_never : ∀ output, ∃ final,
    Run.exec (step config) served (events ++ [.build output]) = .ok final
  /-- Every call has the receives that it should have. -/
  receives : Run.Throughout (step config) (Receives config) served events
  /-- A receive that entered is emitted once. -/
  emitted_once : ∀ output, ∀ reqId ∈ Run.observe (step config) (entered config) served events,
    (Run.observe (step config) (emitted config) served (events ++ [.build output])).count
      reqId = 1

/-- All that the metadata of a receive reads is there. -/
def Receivable (params : KvTransferParams) : Prop :=
  params.remoteBlockIds.isSome ∧ hasRemoteKeys params

/-- A call that promises a receive finds what the receive will need. -/
def Complete (config : SchedulerConfig) (served : ServedScheduler) (event : ServeEvent) : Prop :=
  match event with
  | .schedule reqId numComputedTokens _ _ =>
      let params := (served.requests.request reqId).kvTransferParams
      served.Parks reqId numComputedTokens →
        params.remoteBlockIds.getD [] ≠ [] ∧ hasRemoteKeys params ∧
          ¬ (config.useHostBuffer ∧ params.doRemoteDecode)
  | .finish reqId _ _ _ =>
      let params := (served.requests.request reqId).kvTransferParams
      params.doRemotePrefill → Receivable params
  | _ => True

/-! ## One call -/

section Calls

/-- A receive that is needed has all of its keys. -/
theorem needRecv_recv {scheduler next : NixlConnectorScheduler} {request : Request}
    {unhashedBlockIds : List ℕ} {numExternalTokens : ℕ}
    (taken : scheduler.needRecv request unhashedBlockIds numExternalTokens = .ok next) :
    next.reqsNeedRecv = scheduler.reqsNeedRecv ∨
      Receivable request.kvTransferParams ∧ ∃ blockIds, next.reqsNeedRecv =
        scheduler.reqsNeedRecv.set request.requestId (request, blockIds) := by
  rw [needRecv] at taken
  simp only at taken
  split at taken
  · split at taken
    · cases taken
      exact Or.inl rfl
    · cases taken
  · rename_i some_block
    split at taken
    · rename_i keys
      cases taken
      refine Or.inr ⟨⟨?_, keys⟩, _, rfl⟩
      cases found : request.kvTransferParams.remoteBlockIds with
      | none => exact absurd (by rw [found]; rfl) some_block
      | some blockIds => rfl
    · cases taken
      exact Or.inl rfl

theorem needRecv_of_keys (scheduler : NixlConnectorScheduler) {request : Request}
    (some_block : request.kvTransferParams.remoteBlockIds.getD [] ≠ [])
    (keys : hasRemoteKeys request.kvTransferParams) (unhashedBlockIds : List ℕ)
    (numExternalTokens : ℕ) :
    ∃ next, scheduler.needRecv request unhashedBlockIds numExternalTokens = .ok next ∧
      request.requestId ∈ next.reqsNeedRecv := by
  rw [needRecv]
  simp only
  rw [if_neg (by rwa [List.isEmpty_iff]), if_pos keys]
  exact ⟨_, rfl, AList.mem_set.mpr (Or.inl rfl)⟩

theorem needRecv_zero (scheduler : NixlConnectorScheduler) (request : Request)
    (unhashedBlockIds : List ℕ) :
    ∃ next, scheduler.needRecv request unhashedBlockIds 0 = .ok next := by
  rw [needRecv]
  simp only
  split
  · exact ⟨_, if_pos trivial⟩
  · split <;> exact ⟨_, rfl⟩

/-- An allocation leaves the pending receives alone, or puts the receive of a request with all of
its keys among them and takes its flag away. -/
theorem updateStateAfterAlloc_recv {config : SchedulerConfig}
    {scheduler next : NixlConnectorScheduler} {request left : Request}
    {unhashedBlockIds : List ℕ} {numExternalTokens : ℕ} {now : ℚ}
    (taken : scheduler.updateStateAfterAlloc config request unhashedBlockIds numExternalTokens
      now = .ok (next, left)) :
    (next.reqsNeedRecv = scheduler.reqsNeedRecv ∧
        (left = request ∨ left = clearRemotePrefill request)) ∨
      request.kvTransferParams.doRemotePrefill ∧ Receivable request.kvTransferParams ∧
        left = clearRemotePrefill request ∧
        ∃ blockIds, next.reqsNeedRecv =
          scheduler.reqsNeedRecv.set request.requestId (request, blockIds) := by
  have tracked : (if request.kvTransferParams.doRemoteDecode then
      scheduler.trackRemoteDecode request now else scheduler).reqsNeedRecv =
        scheduler.reqsNeedRecv := by
    split <;> rfl
  rw [updateStateAfterAlloc] at taken
  split at taken
  · cases taken
    exact Or.inl ⟨tracked, Or.inl rfl⟩
  · split at taken
    · rename_i flagged
      obtain ⟨received, needed, same⟩ := Run.map_eq_ok.mp taken
      cases same
      rw [← tracked]
      rcases needRecv_recv needed with same | ⟨receivable, put⟩
      · exact Or.inl ⟨same, Or.inr rfl⟩
      · exact Or.inr ⟨flagged, receivable, rfl, put⟩
    · cases taken
      exact Or.inl ⟨tracked, Or.inl rfl⟩

/-- A finish leaves the pending receives alone, or puts an empty receive of a request with its
flag among them. -/
theorem requestFinished_recv (config : SchedulerConfig) (scheduler : NixlConnectorScheduler)
    (request : Request) (status : RequestStatus) (blockIds : List ℕ) (now : ℚ) :
    let result := scheduler.requestFinished config request status blockIds now
    (result.1.reqsNeedRecv = scheduler.reqsNeedRecv ∧ result.2.request = request) ∨
      request.kvTransferParams.doRemotePrefill ∧
        result.2.request = clearRemotePrefill request ∧
        result.1.reqsNeedRecv = scheduler.reqsNeedRecv.set request.requestId (request, []) := by
  cases flagged : request.kvTransferParams.doRemotePrefill with
  | true =>
      right
      simp [requestFinished, flagged]
  | false =>
      left
      cases decode : request.kvTransferParams.doRemoteDecode <;> cases status <;>
        simp [requestFinished, flagged, decode]

theorem addNewReqToRecv_eq_ok {metadata next : NixlConnectorMetadata} {reqId : ReqId}
    {blockIds : List ℕ} {params : KvTransferParams}
    (taken : metadata.addNewReqToRecv reqId blockIds params = .ok next) :
    ∃ received, next.reqsToRecv = metadata.reqsToRecv.set reqId received := by
  rw [NixlConnectorMetadata.addNewReqToRecv] at taken
  split at taken
  · cases taken
    exact ⟨_, rfl⟩
  · cases taken

theorem addNewReqToRecv_of_receivable (metadata : NixlConnectorMetadata) (reqId : ReqId)
    (blockIds : List ℕ) {params : KvTransferParams} (receivable : Receivable params) :
    ∃ next, metadata.addNewReqToRecv reqId blockIds params = .ok next := by
  obtain ⟨blocks, keys⟩ := receivable
  simp only [hasRemoteKeys, Bool.and_eq_true] at keys
  obtain ⟨⟨⟨engine, request⟩, host⟩, port⟩ := keys
  obtain ⟨_, blocks⟩ := Option.isSome_iff_exists.mp blocks
  obtain ⟨_, engine⟩ := Option.isSome_iff_exists.mp engine
  obtain ⟨_, request⟩ := Option.isSome_iff_exists.mp request
  obtain ⟨_, host⟩ := Option.isSome_iff_exists.mp host
  obtain ⟨_, port⟩ := Option.isSome_iff_exists.mp port
  rw [NixlConnectorMetadata.addNewReqToRecv, blocks, engine, request, host, port]
  exact ⟨_, rfl⟩

theorem recvLoop_of_receivable {entries : List (Σ _ : ReqId, Request × List ℕ)}
    (receivable : ∀ entry ∈ entries, Receivable entry.2.1.kvTransferParams)
    (metadata : NixlConnectorMetadata) : ∃ received, recvLoop metadata entries = .ok received := by
  induction entries generalizing metadata with
  | nil => exact ⟨metadata, rfl⟩
  | cons entry entries ih =>
      obtain ⟨next, added⟩ := addNewReqToRecv_of_receivable metadata entry.1 entry.2.2
        (receivable entry List.mem_cons_self)
      obtain ⟨received, rest⟩ :=
        ih (fun other member => receivable other (List.mem_cons_of_mem entry member)) next
      rw [recvLoop, added]
      exact ⟨received, rest⟩

theorem keys_recvLoop {entries : List (Σ _ : ReqId, Request × List ℕ)}
    {metadata received : NixlConnectorMetadata}
    (taken : recvLoop metadata entries = .ok received)
    (nodup : (metadata.reqsToRecv.keys ++ entries.keys).Nodup) :
    received.reqsToRecv.keys = metadata.reqsToRecv.keys ++ entries.keys := by
  induction entries generalizing metadata with
  | nil =>
      cases taken
      exact (List.append_nil _).symm
  | cons entry entries ih =>
      obtain ⟨reqId, request, blockIds⟩ := entry
      rw [recvLoop] at taken
      split at taken
      · rename_i next added
        obtain ⟨received, put⟩ := addNewReqToRecv_eq_ok added
        have fresh : reqId ∉ metadata.reqsToRecv := fun present =>
          (List.nodup_append.mp nodup).2.2 reqId (AList.mem_keys.mp present) reqId
            List.mem_cons_self rfl
        have keys : next.reqsToRecv.keys = metadata.reqsToRecv.keys ++ [reqId] := by
          rw [put, AList.keys_set_of_notMem fresh]
        rw [List.keys_cons] at nodup ⊢
        rw [ih taken (by simpa [keys] using nodup), keys, List.append_assoc, List.singleton_append]
      · cases taken

theorem reqsToRecv_labelChunk (config : SchedulerConfig) (scheduler : NixlConnectorScheduler)
    (metadata : NixlConnectorMetadata) (reqId : ReqId) (isLast : Bool) :
    (scheduler.labelChunk config metadata reqId isLast).2.reqsToRecv = metadata.reqsToRecv := by
  rw [labelChunk]
  split <;> rfl

theorem reqsToRecv_saveEntry (config : SchedulerConfig)
    (state : NixlConnectorScheduler × NixlConnectorMetadata) (scheduled : ScheduledReq) :
    (saveEntry config state scheduled).2.reqsToRecv = state.2.reqsToRecv := by
  rw [saveEntry]
  simp only
  split
  · split <;> exact reqsToRecv_labelChunk config _ _ _ _
  · rfl

theorem reqsToRecv_saveLoop (config : SchedulerConfig)
    (state : NixlConnectorScheduler × NixlConnectorMetadata) (entries : List ScheduledReq) :
    (entries.foldl (saveEntry config) state).2.reqsToRecv = state.2.reqsToRecv := by
  induction entries generalizing state with
  | nil => rfl
  | cons scheduled entries ih => rw [List.foldl_cons, ih, reqsToRecv_saveEntry]

theorem buildConnectorMeta_recv {config : SchedulerConfig}
    {scheduler next : NixlConnectorScheduler} {output : SchedulerOutput}
    {metadata : NixlConnectorMetadata}
    (taken : scheduler.buildConnectorMeta config output = .ok (next, metadata)) :
    next.reqsNeedRecv = ∅ ∧ metadata.reqsToRecv.keys = scheduler.reqsNeedRecv.keys := by
  obtain ⟨received, looped, both⟩ := buildConnectorMeta_eq_ok taken
  obtain ⟨rfl, rfl⟩ := Prod.mk.inj both
  refine ⟨rfl, ?_⟩
  have kept := reqsToRecv_saveLoop config (scheduler, received) output.reqData
  exact (congrArg AList.keys kept).trans (keys_recvLoop looped scheduler.reqsNeedRecv.nodupKeys)

theorem buildConnectorMeta_of_receivable (config : SchedulerConfig)
    {scheduler : NixlConnectorScheduler} (output : SchedulerOutput)
    (receivable : ∀ entry ∈ scheduler.reqsNeedRecv.entries,
      Receivable entry.2.1.kvTransferParams) :
    ∃ next metadata, scheduler.buildConnectorMeta config output = .ok (next, metadata) := by
  obtain ⟨received, looped⟩ := recvLoop_of_receivable receivable .init
  rw [buildConnectorMeta, looped]
  exact ⟨_, _, rfl⟩

/-- What a call does to the pending receives and to the requests, and the receives it hands
out. -/
inductive Moves (complete : Prop) (served next : ServedScheduler) : List ReqId → Prop where
  /-- A request may lose its flag. -/
  | stays (same : next.scheduler.reqsNeedRecv = served.scheduler.reqsNeedRecv)
      (flags : ∀ reqId, (next.requests.request reqId).kvTransferParams.doRemotePrefill →
        (served.requests.request reqId).kvTransferParams.doRemotePrefill) :
      Moves complete served next []
  /-- A request with its flag enters, and the flag goes. -/
  | enters (reqId : ReqId) (blockIds : List ℕ)
      (flagged : (served.requests.request reqId).kvTransferParams.doRemotePrefill)
      (receivable : complete → Receivable (served.requests.request reqId).kvTransferParams)
      (put : next.scheduler.reqsNeedRecv = served.scheduler.reqsNeedRecv.set reqId
        (served.requests.request reqId, blockIds))
      (left : next.requests =
        served.requests.put (clearRemotePrefill (served.requests.request reqId))) :
      Moves complete served next []
  | handsOut (none_left : next.scheduler.reqsNeedRecv = ∅)
      (same : next.requests = served.requests) : Moves complete served next served.pending

variable {config : SchedulerConfig} {served next : ServedScheduler}

theorem flag_put_of_eq {requests : RequestTable} {reqId : ReqId} {after : Request}
    (left : after = requests.request reqId ∨
      after = clearRemotePrefill (requests.request reqId)) (other : ReqId)
    (flagged : ((requests.put after).request other).kvTransferParams.doRemotePrefill) :
    (requests.request other).kvTransferParams.doRemotePrefill := by
  have name := requests.requestId_request reqId
  rcases left with rfl | rfl
  · rw [RequestTable.request_put, name] at flagged
    split at flagged
    · rename_i same
      rwa [same]
    · exact flagged
  · rw [RequestTable.request_put] at flagged
    split at flagged
    · cases flagged
    · exact flagged

theorem allocate_moves {reqId : ReqId} {unhashedBlockIds : List ℕ} {numExternalTokens : ℕ}
    {now : ℚ} (complete : Prop)
    (taken : served.allocate config reqId unhashedBlockIds numExternalTokens now = .ok next) :
    Moves complete served next [] := by
  obtain ⟨⟨scheduler, after⟩, allocated, rfl⟩ := Run.map_eq_ok.mp taken
  rcases updateStateAfterAlloc_recv allocated with
    ⟨same, left⟩ | ⟨flagged, receivable, rfl, blockIds, put⟩
  · exact .stays same (flag_put_of_eq left)
  · rw [served.requests.requestId_request] at put
    exact .enters reqId blockIds flagged (fun _ => receivable) put rfl

/-- **The step lemma.** -/
theorem step_moves {event : ServeEvent} (taken : served.step config event = .ok next) :
    Moves (Complete config served event) served next (served.emitted config event) := by
  cases event with
  | query reqId numComputedTokens =>
      cases taken
      exact .stays rfl fun _ flagged => flagged
  | schedule reqId numComputedTokens unhashedBlockIds now => exact allocate_moves _ taken
  | resume reqId unhashedBlockIds now => exact allocate_moves _ taken
  | finish reqId status blockIds now =>
      cases taken
      rcases requestFinished_recv config served.scheduler (served.requests.request reqId) status
        blockIds now with ⟨same, left⟩ | ⟨flagged, left, put⟩
      · exact .stays same (flag_put_of_eq (Or.inl left))
      · rw [served.requests.requestId_request] at put
        exact .enters reqId [] flagged (fun complete => complete flagged) put
          (congrArg served.requests.put left)
  | build output =>
      obtain ⟨⟨scheduler, metadata⟩, built, rfl⟩ := Run.map_eq_ok.mp taken
      obtain ⟨none_left, keys⟩ := buildConnectorMeta_recv built
      have handed : served.emitted config (.build output) = served.pending := by
        rw [emitted, built]
        exact keys
      rw [handed]
      exact .handsOut none_left rfl

end Calls

/-! ## Runs -/

section Runs

variable {config : SchedulerConfig} {served final : ServedScheduler} {events : List ServeEvent}

theorem Moves.perm {complete : Prop} {next : ServedScheduler} {handed : List ReqId}
    (moves : Moves complete served next handed) :
    (handed ++ next.pending).Perm
      (served.pending ++ next.pending.filter fun reqId => reqId ∉ served.pending) := by
  cases moves with
  | stays same _ =>
      have kept : next.pending = served.pending := congrArg AList.keys same
      rw [kept, List.filter_eq_nil_iff.mpr (by simp), List.append_nil, List.nil_append]
  | enters reqId blockIds _ _ put _ =>
      rw [List.nil_append]
      have pending : next.pending = _ := congrArg AList.keys put
      by_cases present : reqId ∈ served.scheduler.reqsNeedRecv
      · have kept : next.pending = served.pending := pending.trans (AList.keys_set_of_mem present)
        rw [kept, List.filter_eq_nil_iff.mpr (by simp), List.append_nil]
      · have more : next.pending = served.pending ++ [reqId] :=
          pending.trans (AList.keys_set_of_notMem present)
        have fresh : reqId ∉ served.pending := AList.mem_keys.not.mp present
        rw [more, List.filter_append, List.filter_eq_nil_iff.mpr (by simp), List.nil_append,
          List.filter_singleton]
        simp [fresh]
  | handsOut none_left _ =>
      have nothing : next.pending = [] := congrArg AList.keys none_left
      rw [nothing, List.filter_nil]

theorem emitted_perm (taken : Run.exec (step config) served events = .ok final) :
    (Run.observe (step config) (emitted config) served events ++ final.pending).Perm
      (served.pending ++ Run.observe (step config) (entered config) served events) := by
  apply Run.observe_perm _ taken
  intro served event next taken
  rw [entered, taken]
  exact (step_moves taken).perm

/-- How often a request may still enter. -/
def entriesLeft (reqId : ReqId) (served : ServedScheduler) : ℕ :=
  if (served.requests.request reqId).kvTransferParams.doRemotePrefill then 1 else 0

theorem Moves.entriesLeft_le {complete : Prop} {next : ServedScheduler} {handed : List ReqId}
    (moves : Moves complete served next handed) (reqId : ReqId) :
    (next.pending.filter fun reqId => reqId ∉ served.pending).count reqId +
      entriesLeft reqId next ≤ entriesLeft reqId served := by
  cases moves with
  | stays same flags =>
      have kept : next.pending = served.pending := congrArg AList.keys same
      rw [kept, List.filter_eq_nil_iff.mpr (by simp), List.count_nil, Nat.zero_add, entriesLeft,
        entriesLeft]
      split
      · rename_i flagged
        rw [if_pos (flags reqId flagged)]
      · exact Nat.zero_le _
  | enters entering blockIds flagged _ put left =>
      have name := served.requests.requestId_request entering
      by_cases here : reqId = entering
      · subst here
        have once : (next.pending.filter fun reqId => reqId ∉ served.pending).count reqId ≤ 1 :=
          List.nodup_iff_count_le_one.mp (next.scheduler.reqsNeedRecv.keys_nodup.filter _) reqId
        have none_left : entriesLeft reqId next = 0 := by
          rw [entriesLeft, left, RequestTable.request_put, clearRemotePrefill, if_pos name.symm]
          rfl
        rwa [none_left, Nat.add_zero, entriesLeft, if_pos flagged]
      · have absent : reqId ∉ next.pending.filter fun reqId => reqId ∉ served.pending := by
          intro member
          obtain ⟨present, fresh⟩ := List.mem_filter.mp member
          rw [pending, put, ← AList.mem_keys, AList.mem_set] at present
          exact of_decide_eq_true fresh (AList.mem_keys.mp (present.resolve_left here))
        have elsewhere :
            reqId ≠ (clearRemotePrefill (served.requests.request entering)).requestId :=
          fun same => here (same.trans name)
        rw [List.count_eq_zero_of_not_mem absent, Nat.zero_add, entriesLeft, left,
          RequestTable.request_put, if_neg elsewhere, entriesLeft]
  | handsOut none_left same =>
      have nothing : next.pending = [] := congrArg AList.keys none_left
      rw [nothing, List.filter_nil, List.count_nil, Nat.zero_add, entriesLeft, same, entriesLeft]

theorem count_entered_le (taken : Run.exec (step config) served events = .ok final)
    (reqId : ReqId) :
    (Run.observe (step config) (entered config) served events).count reqId ≤ 1 := by
  have left : (Run.observe (step config) (entered config) served events).count reqId +
      entriesLeft reqId final ≤ entriesLeft reqId served := by
    apply Run.count_observe_le _ taken
    intro served event next taken
    rw [entered, taken]
    exact (step_moves taken).entriesLeft_le reqId
  have once : entriesLeft reqId served ≤ 1 := by
    rw [entriesLeft]
    split <;> omega
  omega

/-- The pending receives have all that the metadata reads. -/
def Ready (served : ServedScheduler) : Prop :=
  ∀ reqId request blockIds, served.scheduler.reqsNeedRecv.lookup reqId =
    some (request, blockIds) → Receivable request.kvTransferParams

theorem Moves.ready {complete : Prop} {next : ServedScheduler} {handed : List ReqId}
    (moves : Moves complete served next handed) (isComplete : complete) (ready : served.Ready) :
    next.Ready := by
  intro reqId request blockIds found
  cases moves with
  | stays same _ => exact ready reqId request blockIds (same ▸ found)
  | enters entering _ _ receivable put _ =>
      rw [put] at found
      by_cases here : reqId = entering
      · subst here
        rw [AList.lookup_set] at found
        cases found
        exact receivable isComplete
      · rw [AList.lookup_set_ne here] at found
        exact ready reqId request blockIds found
  | handsOut none_left _ =>
      rw [none_left] at found
      cases found

theorem getNumNewMatchedTokens_of_not_parks {reqId : ReqId} {numComputedTokens : ℕ}
    (free : ¬ served.Parks reqId numComputedTokens) :
    (getNumNewMatchedTokens (served.requests.request reqId) numComputedTokens).1 = 0 := by
  rw [Parks] at free
  rw [getNumNewMatchedTokens] at free ⊢
  split at free
  · rename_i flagged
    rw [if_pos flagged]
    simp only at free ⊢
    split at free
    · exact absurd rfl free
    · rename_i nothing
      rw [if_neg nothing]
  · rename_i unflagged
    rw [if_neg unflagged]

theorem flagged_of_parks {reqId : ReqId} {numComputedTokens : ℕ}
    (parks : served.Parks reqId numComputedTokens) :
    (served.requests.request reqId).kvTransferParams.doRemotePrefill := by
  by_contra unflagged
  rw [Parks, getNumNewMatchedTokens, if_neg unflagged] at parks
  cases parks

theorem allocate_zero (config : SchedulerConfig) (served : ServedScheduler) (reqId : ReqId)
    (unhashedBlockIds : List ℕ) (now : ℚ) :
    ∃ next, served.allocate config reqId unhashedBlockIds 0 now = .ok next := by
  rw [allocate, updateStateAfterAlloc]
  simp only
  split
  · exact ⟨_, rfl⟩
  · split
    · obtain ⟨received, needed⟩ := needRecv_zero
        (if (served.requests.request reqId).kvTransferParams.doRemoteDecode then
          served.scheduler.trackRemoteDecode (served.requests.request reqId) now
        else served.scheduler) (served.requests.request reqId) unhashedBlockIds
      rw [needed]
      exact ⟨_, rfl⟩
    · exact ⟨_, rfl⟩

/-- A request that is parked with all of its keys is put among the pending receives. -/
theorem allocate_of_parks {reqId : ReqId} {numComputedTokens : ℕ}
    (parks : served.Parks reqId numComputedTokens)
    (some_block : (served.requests.request reqId).kvTransferParams.remoteBlockIds.getD [] ≠ [])
    (keys : hasRemoteKeys (served.requests.request reqId).kvTransferParams)
    (received : ¬ (config.useHostBuffer ∧
      (served.requests.request reqId).kvTransferParams.doRemoteDecode))
    (unhashedBlockIds : List ℕ) (numExternalTokens : ℕ) (now : ℚ) :
    ∃ next, served.allocate config reqId unhashedBlockIds numExternalTokens now = .ok next ∧
      reqId ∈ next.pending := by
  obtain ⟨next, needed, member⟩ := needRecv_of_keys
    (if (served.requests.request reqId).kvTransferParams.doRemoteDecode then
      served.scheduler.trackRemoteDecode (served.requests.request reqId) now
    else served.scheduler) some_block keys unhashedBlockIds numExternalTokens
  rw [allocate, updateStateAfterAlloc]
  simp only
  rw [if_neg (by rwa [Bool.and_eq_true]), if_pos (flagged_of_parks parks), needed]
  rw [served.requests.requestId_request] at member
  exact ⟨_, rfl, AList.mem_keys.mp member⟩

/-- A complete call goes through. -/
theorem step_of_complete {event : ServeEvent} (ready : served.Ready)
    (complete : Complete config served event) :
    ∃ next, served.step config event = .ok next ∧ next.Ready := by
  have goes : ∃ next, served.step config event = .ok next := by
    cases event with
    | query reqId numComputedTokens => exact ⟨served, rfl⟩
    | schedule reqId numComputedTokens unhashedBlockIds now =>
        by_cases parks : served.Parks reqId numComputedTokens
        · obtain ⟨some_block, keys, received⟩ := complete parks
          obtain ⟨next, taken, _⟩ :=
            allocate_of_parks parks some_block keys received unhashedBlockIds _ now
          exact ⟨next, taken⟩
        · rw [step, getNumNewMatchedTokens_of_not_parks parks]
          exact allocate_zero config served reqId unhashedBlockIds now
    | resume reqId unhashedBlockIds now =>
        exact allocate_zero config served reqId unhashedBlockIds now
    | finish reqId status blockIds now => exact ⟨_, rfl⟩
    | build output =>
        have receivable : ∀ entry ∈ served.scheduler.reqsNeedRecv.entries,
            Receivable entry.2.1.kvTransferParams := by
          intro entry member
          exact ready entry.1 entry.2.1 entry.2.2 (AList.mem_lookup_iff.mpr member)
        obtain ⟨next, metadata, built⟩ := buildConnectorMeta_of_receivable config output receivable
        rw [step, built]
        exact ⟨_, rfl⟩
  obtain ⟨next, taken⟩ := goes
  exact ⟨next, taken, (step_moves taken).ready complete ready⟩

theorem receives_of_complete {event : ServeEvent} (complete : Complete config served event) :
    Receives config served event := by
  cases event with
  | schedule reqId numComputedTokens unhashedBlockIds now =>
      intro parks next taken
      obtain ⟨some_block, keys, received⟩ := complete parks
      obtain ⟨other, allocated, member⟩ :=
        allocate_of_parks parks some_block keys received unhashedBlockIds
          (getNumNewMatchedTokens (served.requests.request reqId) numComputedTokens).1 now
      obtain rfl := Except.ok.inj (allocated.symm.trans taken)
      exact member
  | _ => trivial

/-- The engine starts with its requests and nothing to hand out. -/
def start (requests : RequestTable) : ServedScheduler where
  scheduler := .init
  requests

theorem pending_build {output : SchedulerOutput}
    (taken : served.step config (.build output) = .ok final) : final.pending = [] := by
  obtain ⟨⟨scheduler, metadata⟩, built, rfl⟩ := Run.map_eq_ok.mp taken
  exact congrArg AList.keys (buildConnectorMeta_recv built).1

/-- **Remote prefills cannot wedge the scheduler** in a run each of whose calls finds what the
receive it promises will need. -/
theorem unwedged_of_complete (config : SchedulerConfig) (requests : RequestTable)
    (events : List ServeEvent)
    (complete : Run.Throughout (step config) (Complete config) (start requests) events) :
    Unwedged config (start requests) events := by
  have ready : (start requests).Ready := by
    intro reqId request blockIds found
    cases found
  have goes : ∃ middle, Run.exec (step config) (start requests) events = .ok middle ∧
      middle.Ready := Run.exists_exec step_of_complete ready complete
  obtain ⟨middle, reached, middle_ready⟩ := goes
  have closes (output : SchedulerOutput) :
      ∃ final, middle.step config (.build output) = .ok final := by
    obtain ⟨final, taken, _⟩ := step_of_complete middle_ready
      (show Complete config middle (.build output) from trivial)
    exact ⟨final, taken⟩
  refine ⟨fun output => ?_, ?_, fun output reqId member => ?_⟩
  · obtain ⟨final, taken⟩ := closes output
    exact ⟨final, Run.exec_snoc_eq_ok.mpr ⟨middle, reached, taken⟩⟩
  · apply Run.throughout_of_forall
    intro before event after state split taken
    exact receives_of_complete ((split ▸ complete).after taken)
  · obtain ⟨final, taken⟩ := closes output
    have whole := Run.exec_snoc_eq_ok.mpr ⟨middle, reached, taken⟩
    have balance := (emitted_perm whole).count_eq reqId
    have once := count_entered_le whole reqId
    have enters : 0 < (Run.observe (step config) (entered config) (start requests) events).count
        reqId := List.count_pos_iff.mpr member
    have none_pending : (start requests).pending = [] := rfl
    rw [pending_build taken, none_pending, List.append_nil, List.nil_append] at balance
    rw [Run.observe_append reached, List.count_append] at once
    rw [balance, Run.observe_append reached, List.count_append]
    omega

/-- Requests of four tokens that share their parameters. -/
def sharedParams (params : KvTransferParams) : RequestTable where
  request requestId :=
    { requestId
      promptTokenIds := some [1, 2, 3, 4]
      numPromptTokens := 4
      kvTransferParams := params }
  requestId_request _ := rfl

/-- The parameters a prefill instance returns for a request with one block. -/
def remotePrefill : KvTransferParams where
  doRemoteDecode := false
  doRemotePrefill := true
  remoteBlockIds := some [3]
  remoteEngineId := some "prefill"
  remoteRequestId := some "p"
  remoteHost := some "localhost"
  remotePort := some 5600
  tpSize := some 1

/-- One request is received, and another is aborted before its allocation. -/
theorem unwedged_twoRequests : Unwedged (.withDefaults false false)
    (start (sharedParams remotePrefill))
    [.schedule "a" 0 [7] 0, .finish "b" .other [] 0] := by
  apply unwedged_of_complete
  refine ⟨fun _ => ⟨by decide, by decide, by decide⟩, fun next taken => ?_⟩
  cases taken
  exact ⟨fun _ => ⟨by decide, by decide⟩, fun _ _ => trivial⟩

/-- Without the block ids an allocation raises; without a key a parked request waits for nothing,
or its empty receive makes the next build raise. -/
theorem not_unwedged :
    ¬ Unwedged (.withDefaults false false)
        (start (sharedParams { remotePrefill with remoteBlockIds := none }))
        [.schedule "a" 0 [7] 0] ∧
      ¬ Unwedged (.withDefaults false false)
        (start (sharedParams { remotePrefill with remoteHost := none }))
        [.schedule "a" 0 [7] 0] ∧
      ¬ Unwedged (.withDefaults false false)
        (start (sharedParams { remotePrefill with remoteHost := none }))
        [.finish "a" .other [] 0] := by
  have empty : SchedulerOutput := { reqData := [], nodupReqs := List.nodup_nil }
  refine ⟨fun unwedged => ?_, fun unwedged => ?_, fun unwedged => ?_⟩
  · obtain ⟨final, taken⟩ := unwedged.raises_never empty
    cases taken
  · exact absurd (unwedged.receives.1 rfl _ rfl) (by decide)
  · obtain ⟨final, taken⟩ := unwedged.raises_never empty
    cases taken

end Runs

end ServedScheduler

end RduHdi
