import RduHdi.Connector.ChunkWire
import RduHdi.Outbox

/-!
# Buffered chunk notifs

The producer buffers the notif of a chunk until it knows a consumer's agent.  Its three maps
refine an outbox that is connected as soon as any agent is known, provided every engine a request
is mapped to has its agent: then a notif is buffered only while no agent is known, and the flush
at the end of a registration leaves nothing behind.
-/

namespace RduHdi

namespace ChunkNotify

open StagingWorker

variable {ω : Type*}

/-! ## What reaches the library -/

/-- The library keeps its calls of `send_notif`, oldest first. -/
structure Remembers (nixl : NixlWrapper ω) (attempts : ω → List SendAttempt) : Prop where
  /-- A notif is remembered, with the agent and what was answered. -/
  sendNotif : ∀ world agent notif, attempts (nixl.sendNotif world agent notif).1 =
    attempts world ++ [{ agent, notif, answer := (nixl.sendNotif world agent notif).2 }]
  /-- An agent is not a notif. -/
  addRemoteAgent : ∀ world agentMeta,
    attempts (nixl.addRemoteAgent world agentMeta).1 = attempts world

/-- Attempts that raise, and then perhaps one that does not. -/
def tries (agent : AgentName) (notif : ByteArray) (raised : List PyError) (sent : Bool) :
    List SendAttempt :=
  (raised.map fun error => { agent, notif, answer := .error error }) ++
    if sent then [{ agent, notif, answer := .ok () }] else []

/-- A chunk on its way to an agent: some attempts that raise and then one that does not, or three
that raise. -/
structure ChunkSend where
  /-- The agent that it goes to. -/
  agent : AgentName
  /-- The request of the chunk. -/
  reqId : ReqId
  /-- The chunk. -/
  chunk : ChunkNotif
  /-- What every attempt is given. -/
  notif : ByteArray
  /-- What the attempts raise. -/
  raised : List PyError
  /-- The last attempt goes through. -/
  sent : Bool
  /-- The blob says which chunk of which request it is. -/
  decodes : decodeChunkReady notif = some (reqId, chunk)
  /-- It is tried three times at most. -/
  tried : if sent then raised.length < 3 else raised.length = 3

namespace ChunkSend

/-- The calls of `send_notif`. -/
def attempts (send : ChunkSend) : List SendAttempt :=
  tries send.agent send.notif send.raised send.sent

/-- The request and its chunk. -/
def label (send : ChunkSend) : ReqId × ChunkNotif := (send.reqId, send.chunk)

end ChunkSend

/-- The call of `send_notif` that an entry of the log is. -/
def attemptOf : StagingCall → Option SendAttempt
  | .sendNotif attempt => some attempt
  | .copyBlocks _ _ => none

/-- The log has what the library keeps. -/
theorem attempts_steps {worker : StagingWorker ω} {attempts : ω → List SendAttempt}
    (remembers : Remembers worker.nixl attempts) {before : List SendAttempt}
    {staging next : Staging ω} (steps : worker.Steps staging next)
    (same : attempts staging.world = before ++ staging.calls.filterMap attemptOf) :
    attempts next.world = before ++ next.calls.filterMap attemptOf := by
  induction steps with
  | refl => exact same
  | tail _ step ih =>
      cases step with
      | sendNotif agent notif =>
          rename_i middle _
          change attempts (worker.nixl.sendNotif middle.world agent notif).1 = _
          rw [remembers.sendNotif, ih, List.append_assoc]
          change _ = before ++ (middle.calls ++ [StagingCall.sendNotif _]).filterMap attemptOf
          rw [List.filterMap_append]
          rfl
      | addRemoteAgent agentMeta => exact (remembers.addRemoteAgent _ agentMeta).trans ih
      | setMaps agents engines pending => exact ih

/-! ## The outbox -/

/-- The outbox the three maps stand for, when some chunks were sent. -/
def outbox (sends : List ChunkSend) (staging : Staging ω) : Outbox ReqId ChunkNotif where
  connected := !staging.consumerAgentByEngine.entries.isEmpty
  held := staging.pendingChunkNotifs
  sent := sends.map ChunkSend.label

/-- Every engine a request is mapped to has its agent. -/
def Linked (staging : Staging ω) : Prop :=
  ∀ request engine, staging.consumerEngineByReq.lookup request = some engine →
    engine ∈ staging.consumerAgentByEngine

/-- The agent of some engine. -/
def HasAgent (staging : Staging ω) (agent : AgentName) : Prop :=
  ∃ engine, staging.consumerAgentByEngine.lookup engine = some agent

/-- The maps are linked, and the log has the attempts of some sends, each to a known agent. -/
structure Tracks (sends : List ChunkSend) (staging : Staging ω) : Prop where
  /-- A request's engine has an agent. -/
  linked : Linked staging
  /-- What the library was given are the attempts of the sends. -/
  attempts : staging.calls.filterMap attemptOf = sends.flatMap ChunkSend.attempts
  /-- Sends go to known agents. -/
  agents : ∀ send ∈ sends, HasAgent staging send.agent

theorem tracks_init (world : ω) : Tracks [] (Staging.init world) where
  linked := by
    intro request engine mapped
    cases mapped
  attempts := rfl
  agents := fun _ isSend => absurd isSend List.not_mem_nil

theorem hasAgent_of_getLast {staging : Staging ω} {entry : Σ _ : PyKey, AgentName}
    (isLast : staging.consumerAgentByEngine.entries.getLast? = some entry) :
    HasAgent staging entry.2 := by
  refine ⟨entry.1, ?_⟩
  exact AList.mem_lookup_iff.mpr (List.mem_of_getLast? isLast)

theorem hasAgent_of_resolve {staging : Staging ω} {reqId : ReqId} {agent : AgentName}
    (resolved : resolveConsumerAgent staging reqId = some agent) : HasAgent staging agent := by
  rw [resolveConsumerAgent] at resolved
  split at resolved
  · rename_i engine _
    exact ⟨engine, resolved⟩
  · obtain ⟨entry, isLast, rfl⟩ := Option.map_eq_some_iff.mp resolved
    exact hasAgent_of_getLast isLast

/-- With the maps linked, an agent is found exactly when one is known. -/
theorem resolveConsumerAgent_isSome (sends : List ChunkSend) {staging : Staging ω}
    (linked : Linked staging) (reqId : ReqId) :
    (resolveConsumerAgent staging reqId).isSome = (outbox sends staging).connected := by
  rw [resolveConsumerAgent]
  cases mapped : staging.consumerEngineByReq.lookup (.str reqId) with
  | some engine =>
      have member := linked _ engine mapped
      have found := AList.lookup_isSome.mpr member
      have nonempty : staging.consumerAgentByEngine.entries ≠ [] := by
        intro empty
        simp [AList.mem_keys, AList.keys, empty] at member
      simp [outbox, found, nonempty]
  | none =>
      cases entries : staging.consumerAgentByEngine.entries with
      | nil => simp [outbox, entries]
      | cons first rest => simp [outbox, entries]

/-! ## One chunk -/

section OneChunk

variable (worker : StagingWorker ω) {sends : List ChunkSend}

/-- The attempts to send add their calls to the log, and the maps stay. -/
theorem sendAttempts_eq (agent : AgentName) (notif : ByteArray) (attempts : ℕ)
    (staging : Staging ω) :
    ∃ world raised sent, worker.sendAttempts agent notif attempts staging =
        { staging with
          world
          calls := staging.calls ++ (tries agent notif raised sent).map .sendNotif } ∧
      if sent then raised.length < attempts else raised.length = attempts := by
  induction attempts generalizing staging with
  | zero => exact ⟨staging.world, [], false, by simp [sendAttempts, tries], rfl⟩
  | succ attempts ih =>
      rw [sendAttempts, sendNotif]
      cases answered : worker.nixl.sendNotif staging.world agent notif with
      | mk world answer =>
          cases answer with
          | ok sent =>
              exact ⟨world, [], true, by simp [tries], Nat.succ_pos attempts⟩
          | error error =>
              obtain ⟨last, raised, sent, isState, tried⟩ := ih
                { staging with
                  world
                  calls := staging.calls ++ [.sendNotif ⟨agent, notif, .error error⟩] }
              refine ⟨last, error :: raised, sent, ?_, ?_⟩
              · simp only
                rw [isState]
                simp [tries]
              · cases sent with
                | true => exact Nat.succ_lt_succ tried
                | false => exact congrArg Nat.succ tried

/-- A send with an agent known: the chunk reaches its attempts, and the maps stay. -/
theorem sendChunkReady_connected {staging : Staging ω} (tracks : Tracks sends staging)
    (connected : (outbox sends staging).connected = true) (reqId : ReqId) (chunk : ChunkNotif) :
    ∃ send next, worker.sendChunkReady staging reqId chunk = (next, true) ∧
      Tracks (sends ++ [send]) next ∧
      outbox (sends ++ [send]) next =
        { outbox sends staging with sent := (outbox sends staging).sent ++ [(reqId, chunk)] } := by
  have found := resolveConsumerAgent_isSome sends tracks.linked reqId
  rw [connected, Option.isSome_iff_exists] at found
  obtain ⟨agent, resolved⟩ := found
  obtain ⟨world, raised, sent, isState, tried⟩ :=
    sendAttempts_eq worker agent (chunkReadyNotif reqId chunk) 3 staging
  let send : ChunkSend :=
    { agent, reqId, chunk, raised, sent, tried
      notif := chunkReadyNotif reqId chunk
      decodes := decodeChunkReady_encoded reqId chunk }
  refine ⟨send, _, by rw [sendChunkReady, resolved], ?_, ?_⟩
  · rw [isState]
    refine ⟨tracks.linked, ?_, ?_⟩
    · rw [List.filterMap_append, tracks.attempts, List.flatMap_append, List.flatMap_singleton,
        List.filterMap_map]
      congr 1
      exact List.filterMap_some
    · intro other isOther
      rcases List.mem_append.mp isOther with earlier | here
      · exact tracks.agents other earlier
      · obtain rfl := List.mem_singleton.mp here
        exact hasAgent_of_resolve resolved
  · rw [isState]
    simp [outbox, ChunkSend.label, send]

theorem sendChunkReady_disconnected {staging : Staging ω} (linked : Linked staging)
    (disconnected : (outbox sends staging).connected = false) (reqId : ReqId)
    (chunk : ChunkNotif) : worker.sendChunkReady staging reqId chunk = (staging, false) := by
  have found := resolveConsumerAgent_isSome sends linked reqId
  rw [disconnected, Option.isSome_eq_false_iff, Option.isNone_iff_eq_none] at found
  rw [sendChunkReady, found]

/-- Notifying about a chunk posts it. -/
theorem notifyChunkReady_refines {staging : Staging ω} (tracks : Tracks sends staging)
    (reqId : ReqId) (chunk : ChunkNotif) :
    ∃ more, Tracks (sends ++ more) (worker.notifyChunkReady staging reqId chunk) ∧
      outbox (sends ++ more) (worker.notifyChunkReady staging reqId chunk) =
        (outbox sends staging).post reqId chunk := by
  cases connected : (outbox sends staging).connected with
  | true =>
      obtain ⟨send, next, isSent, tracked, posted⟩ :=
        sendChunkReady_connected worker tracks connected reqId chunk
      refine ⟨[send], ?_⟩
      rw [notifyChunkReady, isSent, Outbox.post, if_pos connected]
      exact ⟨tracked, posted⟩
  | false =>
      refine ⟨[], ?_⟩
      rw [notifyChunkReady, sendChunkReady_disconnected worker tracks.linked connected,
        List.append_nil, Outbox.post, if_neg (by simp [connected])]
      exact ⟨⟨tracks.linked, tracks.attempts, tracks.agents⟩, rfl⟩

/-- One turn of the save loop posts its chunk. -/
theorem saveRequest_refines (overlap : worker.chunkOverlapEnabled = true) {staging : Staging ω}
    (tracks : Tracks sends staging) (metadata : NixlConnectorMetadata)
    (entry : Σ _ : ReqId, ReqMeta) :
    ∃ more, Tracks (sends ++ more) (worker.saveRequest metadata staging entry) ∧
      outbox (sends ++ more) (worker.saveRequest metadata staging entry) =
        (outbox sends staging).post entry.1 (chunkOf metadata entry.1 entry.2) := by
  obtain ⟨reqId, saved⟩ := entry
  let copied : Staging ω :=
    { staging with
      calls := staging.calls ++
        [.copyBlocks reqId (worker.kernel.logicalToKernelBlockIds saved.localBlockIds)] }
  have tracked : Tracks sends copied := by
    refine ⟨tracks.linked, ?_, tracks.agents⟩
    simp [copied, attemptOf, tracks.attempts]
  have moved : worker.saveRequest metadata staging ⟨reqId, saved⟩ =
      worker.notifyChunkReady copied reqId (chunkOf metadata reqId saved) := by
    simp [saveRequest, overlap, copied]
  rw [moved]
  exact notifyChunkReady_refines worker tracked reqId _

end OneChunk

/-! ## Registration -/

section Registration

variable (worker : StagingWorker ω)

/-- What a registration may change before the flush: agents are added, and the outside is
asked for them. -/
structure Extends (staging next : Staging ω) : Prop where
  /-- A request's engine has an agent. -/
  linked : Linked next
  /-- Nothing is buffered or sent. -/
  pending : next.pendingChunkNotifs = staging.pendingChunkNotifs
  /-- The library is given no notif. -/
  calls : next.calls = staging.calls
  /-- No agent is forgotten. -/
  agents : ∀ {agent}, HasAgent staging agent → HasAgent next agent

theorem Extends.trans {staging middle next : Staging ω} (first : Extends staging middle)
    (second : Extends middle next) : Extends staging next where
  linked := second.linked
  pending := second.pending.trans first.pending
  calls := second.calls.trans first.calls
  agents := fun has => second.agents (first.agents has)

theorem ensureAgent_spec {staging : Staging ω} (linked : Linked staging) (engine : PyKey)
    (agentMeta : PyObj) :
    Extends staging (worker.ensureAgent staging engine agentMeta).1 ∧
      ((worker.ensureAgent staging engine agentMeta).2 = .ok () →
        engine ∈ (worker.ensureAgent staging engine agentMeta).1.consumerAgentByEngine) := by
  by_cases known : engine ∈ staging.consumerAgentByEngine
  · rw [ensureAgent, if_pos known]
    exact ⟨⟨linked, rfl, rfl, id⟩, fun _ => known⟩
  · rw [ensureAgent, if_neg known]
    obtain ⟨world, outcome⟩ := worker.nixl.addRemoteAgent staging.world agentMeta
    cases outcome with
    | error raised => exact ⟨⟨linked, rfl, rfl, id⟩, fun failed => by cases failed⟩
    | ok agent =>
        refine ⟨⟨?_, rfl, rfl, ?_⟩, fun _ => by simp⟩
        · intro request other mapped
          rw [AList.mem_set]
          exact Or.inr (linked request other mapped)
        · rintro former ⟨other, isFormer⟩
          have differ : other ≠ engine := by
            rintro rfl
            exact known (AList.lookup_isSome.mp (Option.isSome_of_eq_some isFormer))
          exact ⟨other, (AList.lookup_set_ne differ).trans isFormer⟩

theorem lookup_mapReqIds {engine : PyKey} {reqIds : List PyObj} {engineByReq : Dict PyKey PyKey}
    {request other : PyKey}
    (mapped : (mapReqIds engine reqIds engineByReq).lookup request = some other) :
    other = engine ∨ engineByReq.lookup request = some other := by
  induction reqIds generalizing engineByReq with
  | nil => exact Or.inr mapped
  | cons reqId reqIds ih =>
      rw [mapReqIds] at mapped
      cases hashed : reqId.hashKey with
      | error raised =>
          rw [hashed] at mapped
          exact Or.inr mapped
      | ok key =>
          rw [hashed] at mapped
          rcases ih mapped with same | earlier
          · exact Or.inl same
          · by_cases here : request = key
            · subst here
              rw [AList.lookup_set, Option.some.injEq] at earlier
              exact Or.inl earlier.symm
            · rw [AList.lookup_set_ne here] at earlier
              exact Or.inr earlier

theorem mapRequests_extends {staging : Staging ω} (linked : Linked staging)
    (registration : PyObj) {engine : PyKey} (known : engine ∈ staging.consumerAgentByEngine) :
    Extends staging (mapRequests staging registration engine) := by
  rw [mapRequests]
  split
  · exact ⟨linked, rfl, rfl, id⟩
  · simp only
    split
    · exact ⟨linked, rfl, rfl, id⟩
    · refine ⟨?_, rfl, rfl, id⟩
      intro request other mapped
      rcases lookup_mapReqIds mapped with rfl | earlier
      · exact known
      · exact linked request other earlier

theorem registerConsumer_extends {staging : Staging ω} (linked : Linked staging)
    (registration : PyObj) : Extends staging (worker.registerConsumer staging registration) := by
  have unchanged : Extends staging staging := ⟨linked, rfl, rfl, id⟩
  rw [registerConsumer]
  split
  · rename_i engineId agentMeta _ _
    split
    · exact unchanged
    · cases engineId.hashKey with
      | error raised => exact unchanged
      | ok engine =>
          obtain ⟨extended, present⟩ := ensureAgent_spec worker linked engine agentMeta
          simp only
          split
          · rename_i next ensured
            rw [ensured] at extended present
            exact extended.trans
              (mapRequests_extends extended.linked registration (present rfl))
          · rename_i next raised ensured
            rw [ensured] at extended
            exact extended
  · exact unchanged

theorem registerLoop_extends {staging : Staging ω} (linked : Linked staging)
    (registrations : List PyObj) :
    Extends staging (registrations.foldl worker.registerConsumer staging) := by
  induction registrations generalizing staging with
  | nil => exact ⟨linked, rfl, rfl, id⟩
  | cons registration registrations ih =>
      have first := registerConsumer_extends worker linked registration
      exact first.trans (ih first.linked)

/-! ## The flush -/

variable {sends : List ChunkSend}

/-- With an agent known, the flush of a request sends everything buffered for it. -/
theorem flushChunks_connected (reqId : ReqId) (chunks : List ChunkNotif) {staging : Staging ω}
    (tracks : Tracks sends staging) (connected : (outbox sends staging).connected = true) :
    ∃ more next, worker.flushChunks reqId chunks staging = (next, []) ∧
      Tracks (sends ++ more) next ∧
      outbox (sends ++ more) next =
        { outbox sends staging with
          sent := (outbox sends staging).sent ++ chunks.map fun chunk => (reqId, chunk) } := by
  induction chunks generalizing staging sends with
  | nil =>
      refine ⟨[], staging, rfl, ?_⟩
      rw [List.append_nil]
      exact ⟨tracks, by simp⟩
  | cons chunk chunks ih =>
      obtain ⟨send, middle, isSent, tracked, posted⟩ :=
        sendChunkReady_connected worker tracks connected reqId chunk
      have stays : (outbox (sends ++ [send]) middle).connected = true := by rw [posted, connected]
      obtain ⟨more, next, flushed, trackedAll, postedAll⟩ := ih tracked stays
      rw [List.append_assoc] at trackedAll postedAll
      refine ⟨[send] ++ more, next, ?_, trackedAll, ?_⟩
      · rw [flushChunks, isSent]
        exact flushed
      · rw [postedAll, posted]
        simp

/-- The flush loop drains the buffers in order. -/
theorem flushLoop_connected (held : List (Σ _ : ReqId, List ChunkNotif)) {staging : Staging ω}
    (tracks : Tracks sends staging) (connected : (outbox sends staging).connected = true)
    (entries : staging.pendingChunkNotifs.entries = held) :
    ∃ more, Tracks (sends ++ more) (held.keys.foldl worker.flushRequest staging) ∧
      outbox (sends ++ more) (held.keys.foldl worker.flushRequest staging) =
        { connected := true
          held := ∅
          sent := (outbox sends staging).sent ++ Outbox.drained held } := by
  induction held generalizing staging sends with
  | nil =>
      refine ⟨[], ?_⟩
      have empty : staging.pendingChunkNotifs = ∅ := AList.ext entries
      simp only [List.keys, List.map_nil, List.foldl_nil, List.append_nil]
      refine ⟨tracks, ?_⟩
      rw [← connected]
      simp [outbox, empty, Outbox.drained]
  | cons entry held ih =>
      obtain ⟨reqId, buffered⟩ := entry
      have found : staging.pendingChunkNotifs.lookup reqId = some buffered := by
        rw [AList.lookup, entries, List.dlookup_cons_eq]
      obtain ⟨here, middle, flushed, tracked, posted⟩ :=
        flushChunks_connected worker reqId buffered tracks connected
      have first : worker.flushRequest staging reqId =
          { middle with pendingChunkNotifs := middle.pendingChunkNotifs.erase reqId } := by
        rw [flushRequest, found, Option.getD_some, flushed]
        rfl
      have samePending : middle.pendingChunkNotifs = staging.pendingChunkNotifs :=
        congrArg Outbox.held posted
      have rest : (worker.flushRequest staging reqId).pendingChunkNotifs.entries = held := by
        rw [first]
        change middle.pendingChunkNotifs.entries.kerase reqId = held
        rw [samePending, entries]
        exact List.kerase_cons_eq rfl
      have trackedFirst : Tracks (sends ++ here) (worker.flushRequest staging reqId) := by
        rw [first]
        exact ⟨tracked.linked, tracked.attempts, tracked.agents⟩
      have stays : (outbox (sends ++ here) (worker.flushRequest staging reqId)).connected =
          true := by
        rw [first]
        exact (congrArg Outbox.connected posted).trans connected
      obtain ⟨later, trackedAll, drained⟩ := ih trackedFirst stays rest
      rw [List.append_assoc] at trackedAll drained
      refine ⟨here ++ later, trackedAll, drained.trans ?_⟩
      have sentSoFar : (outbox (sends ++ here) (worker.flushRequest staging reqId)).sent =
          (outbox sends staging).sent ++ buffered.map fun chunk => (reqId, chunk) :=
        congrArg Outbox.sent posted
      rw [sentSoFar]
      simp [Outbox.drained]

/-- `_register_consumers` connects the outbox once an agent is known. -/
theorem registerConsumers_refines {staging : Staging ω} (tracks : Tracks sends staging)
    (registrations : List PyObj) :
    ∃ more, Tracks (sends ++ more) (worker.registerConsumers staging registrations) ∧
      (outbox (sends ++ more) (worker.registerConsumers staging registrations)).Settled ∧
      ∀ reqId, (outbox (sends ++ more) (worker.registerConsumers staging registrations)).stream
        reqId = (outbox sends staging).stream reqId := by
  have linked : Linked (staging.noteRegistrations registrations) := tracks.linked
  have loop := registerLoop_extends worker linked registrations
  rw [registerConsumers]
  generalize registrations.foldl worker.registerConsumer
    (staging.noteRegistrations registrations) = looped at loop
  have tracked : Tracks sends looped :=
    ⟨loop.linked, (congrArg _ loop.calls).trans tracks.attempts,
      fun send isSend => loop.agents (tracks.agents send isSend)⟩
  have stream : ∀ reqId, (outbox sends looped).stream reqId =
      (outbox sends staging).stream reqId := by
    intro reqId
    simp [Outbox.stream, outbox, loop.pending, Staging.noteRegistrations]
  rw [flushPending]
  by_cases idle : (looped.pendingChunkNotifs.entries.isEmpty ||
      looped.consumerAgentByEngine.entries.isEmpty) = true
  · refine ⟨[], ?_⟩
    rw [if_pos idle, List.append_nil]
    refine ⟨tracked, ?_, stream⟩
    intro connected
    have nothing : looped.pendingChunkNotifs.entries = [] := by
      rw [Bool.or_eq_true, List.isEmpty_iff, List.isEmpty_iff] at idle
      rcases idle with nothing | unknown
      · exact nothing
      · simp [outbox, unknown] at connected
    exact AList.ext nothing
  · rw [if_neg idle]
    rw [Bool.or_eq_true, not_or] at idle
    have connected : (outbox sends looped).connected = true := by
      simpa [outbox] using idle.2
    obtain ⟨more, trackedAfter, flushed⟩ :=
      flushLoop_connected worker _ tracked connected rfl
    have connects : outbox (sends ++ more)
        (looped.pendingChunkNotifs.keys.foldl worker.flushRequest looped) =
          (outbox sends looped).connect := flushed
    refine ⟨more, trackedAfter, ?_, fun reqId => ?_⟩
    · rw [connects]
      exact Outbox.settled_connect _
    · rw [connects, Outbox.stream_connect, stream]

end Registration

/-! ## Calls -/

section Calls

variable (worker : StagingWorker ω)

/-- The chunks some entries of `reqs_to_save` save for a request. -/
def chunksOfEntries (metadata : NixlConnectorMetadata) (reqId : ReqId)
    (entries : List (Σ _ : ReqId, ReqMeta)) : List ChunkNotif :=
  Outbox.ofKey reqId (entries.map fun entry => (entry.1, chunkOf metadata entry.1 entry.2))

/-- The chunks a whole call saves for a request. -/
def savedChunks (reqId : ReqId) (metadata : NixlConnectorMetadata) : List ChunkNotif :=
  chunksOfEntries metadata reqId metadata.reqsToSave.entries

/-- What holds between two chunks: a known agent means empty buffers, and the stream of every
request is what was saved for it. -/
structure Kept (saved : ReqId → List ChunkNotif) (sends : List ChunkSend) (staging : Staging ω) :
    Prop where
  /-- The sends are what the library was given. -/
  tracks : Tracks sends staging
  /-- A known agent leaves nothing buffered. -/
  settled : (outbox sends staging).Settled
  /-- What is sent and buffered is what was saved. -/
  stream : ∀ reqId, (outbox sends staging).stream reqId = saved reqId

theorem kept_init (world : ω) : Kept (fun _ => []) [] (Staging.init world) where
  tracks := tracks_init world
  settled := fun connected => by cases connected
  stream := fun _ => rfl

variable {saved : ReqId → List ChunkNotif} {sends : List ChunkSend}

theorem kept_register (overlap : worker.chunkOverlapEnabled = true) {staging : Staging ω}
    (kept : Kept saved sends staging) (metadata : NixlConnectorMetadata) :
    ∃ more, Kept saved (sends ++ more) (worker.registerFrom staging metadata) := by
  obtain ⟨more, tracks, settled, stream⟩ :=
    registerConsumers_refines worker kept.tracks metadata.consumerRegistrations
  rw [registerFrom, if_pos overlap]
  exact ⟨more, tracks, settled, fun reqId => (stream reqId).trans (kept.stream reqId)⟩

theorem kept_saveRequest (overlap : worker.chunkOverlapEnabled = true)
    (metadata : NixlConnectorMetadata) (entry : Σ _ : ReqId, ReqMeta) {staging : Staging ω}
    (kept : Kept saved sends staging) :
    ∃ more, Kept (fun reqId => saved reqId ++ chunksOfEntries metadata reqId [entry])
      (sends ++ more) (worker.saveRequest metadata staging entry) := by
  obtain ⟨more, tracks, posted⟩ := saveRequest_refines worker overlap kept.tracks metadata entry
  have settled := Outbox.settled_post kept.settled entry.1 (chunkOf metadata entry.1 entry.2)
  refine ⟨more, tracks, by rwa [posted], fun reqId => ?_⟩
  rw [posted, Outbox.stream_post kept.settled, kept.stream, chunksOfEntries, List.map_singleton,
    Outbox.ofKey_singleton]

theorem chunksOfEntries_cons (metadata : NixlConnectorMetadata) (reqId : ReqId)
    (entry : Σ _ : ReqId, ReqMeta) (entries : List (Σ _ : ReqId, ReqMeta)) :
    chunksOfEntries metadata reqId (entry :: entries) =
      chunksOfEntries metadata reqId [entry] ++ chunksOfEntries metadata reqId entries :=
  Outbox.ofKey_append reqId [_] _

variable {attempts : ω → List SendAttempt} {before : List SendAttempt}

/-- A copy is not a call of the library. -/
theorem attempts_saveRequest (remembers : Remembers worker.nixl attempts)
    (metadata : NixlConnectorMetadata) (entry : Σ _ : ReqId, ReqMeta) {staging : Staging ω}
    (same : attempts staging.world = before ++ staging.calls.filterMap attemptOf) :
    attempts (worker.saveRequest metadata staging entry).world =
      before ++ (worker.saveRequest metadata staging entry).calls.filterMap attemptOf := by
  obtain ⟨reqId, saved⟩ := entry
  have copied : ∀ blockIds, attempts staging.world = before ++
      (staging.calls ++ [StagingCall.copyBlocks reqId blockIds]).filterMap attemptOf := by
    intro blockIds
    rw [same, List.filterMap_append]
    simp [attemptOf]
  rw [saveRequest]
  split
  · exact attempts_steps remembers (worker.notifyChunkReady_steps _ reqId _) (copied _)
  · exact copied _

theorem attempts_saveLoop (remembers : Remembers worker.nixl attempts)
    (metadata : NixlConnectorMetadata) (entries : List (Σ _ : ReqId, ReqMeta))
    {staging : Staging ω}
    (same : attempts staging.world = before ++ staging.calls.filterMap attemptOf) :
    attempts (entries.foldl (worker.saveRequest metadata) staging).world = before ++
      (entries.foldl (worker.saveRequest metadata) staging).calls.filterMap attemptOf := by
  induction entries generalizing staging with
  | nil => exact same
  | cons entry entries ih => exact ih (attempts_saveRequest worker remembers metadata entry same)

theorem attempts_saveKvToHostUpTo (remembers : Remembers worker.nixl attempts)
    (metadata : NixlConnectorMetadata) (count : ℕ) {staging : Staging ω}
    (same : attempts staging.world = before ++ staging.calls.filterMap attemptOf) :
    attempts (worker.saveKvToHostUpTo staging metadata count).world = before ++
      (worker.saveKvToHostUpTo staging metadata count).calls.filterMap attemptOf :=
  attempts_saveLoop worker remembers metadata _
    (attempts_steps remembers (worker.registerFrom_steps staging metadata) same)

theorem saveKvToHost_eq_upTo (staging : Staging ω) (metadata : NixlConnectorMetadata) :
    worker.saveKvToHost staging metadata =
      worker.saveKvToHostUpTo staging metadata metadata.reqsToSave.entries.length := by
  rw [saveKvToHost, saveKvToHostUpTo, List.take_length]

theorem attempts_calls (remembers : Remembers worker.nixl attempts)
    (calls : List NixlConnectorMetadata) {staging : Staging ω}
    (same : attempts staging.world = before ++ staging.calls.filterMap attemptOf) :
    attempts (calls.foldl worker.saveKvToHost staging).world = before ++
      (calls.foldl worker.saveKvToHost staging).calls.filterMap attemptOf := by
  induction calls generalizing staging with
  | nil => exact same
  | cons metadata calls ih =>
      rw [List.foldl_cons, saveKvToHost_eq_upTo]
      exact ih (attempts_saveKvToHostUpTo worker remembers metadata _ same)

end Calls

/-! ## A chunk saved before its consumer is known -/

/-- A library on which every other attempt to send raises. -/
def everyOther : NixlWrapper (List SendAttempt) where
  addRemoteAgent attempts _ := (attempts, .ok "agent")
  sendNotif attempts agent notif :=
    let answer : Except PyError Unit :=
      if attempts.length % 2 = 0 then .error .runtimeError else .ok ()
    (attempts ++ [{ agent, notif, answer }], answer)

theorem everyOther_remembers : Remembers everyOther id where
  sendNotif _ _ _ := rfl
  addRemoteAgent _ _ := rfl

def overlapWorker : StagingWorker (List SendAttempt) where
  nixl := everyOther
  kernel := .consecutive 1 Nat.one_pos
  chunkOverlapEnabled := true

end ChunkNotify

end RduHdi
