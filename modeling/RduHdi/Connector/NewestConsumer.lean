import RduHdi.Connector.HostStaging

/-!
# The fallback consumer

A request without an engine of its own is notified through the newest agent.  An engine is added
once: a registration that names it again changes nothing, so the newest agent is that of the last
registration to name a new engine.
-/

namespace RduHdi

/-- A well-formed consumer registration: its engine and the metadata of its agent. -/
structure ConsumerRegistration where
  /-- What was sent. -/
  payload : PyObj
  /-- Its engine id. -/
  engineId : PyObj
  /-- The same, as a key. -/
  engine : PyKey
  /-- Its agent metadata. -/
  agentMeta : PyObj
  /-- There is an engine id. -/
  hasEngineId : payload.get "engine_id" .none = .ok engineId
  /-- It is not null. -/
  engineId_some : engineId.isNone = false
  /-- It is hashable. -/
  engineId_key : engineId.hashKey = .ok engine
  /-- There are agent metadata. -/
  hasAgentMeta : payload.get "agent_metadata" .none = .ok agentMeta
  /-- They are not null. -/
  agentMeta_some : agentMeta.isNone = false

namespace StagingWorker

variable {ω : Type*} (worker : StagingWorker ω)

/-! ## The agents do not change -/

theorem agents_sendAttempts (agent : AgentName) (notif : ByteArray) (attempts : ℕ)
    (staging : Staging ω) :
    (worker.sendAttempts agent notif attempts staging).consumerAgentByEngine =
      staging.consumerAgentByEngine := by
  induction attempts generalizing staging with
  | zero => rfl
  | succ attempts ih =>
      have same : (worker.sendNotif staging agent notif).1.consumerAgentByEngine =
          staging.consumerAgentByEngine := rfl
      rw [sendAttempts]
      split
      · rename_i next sent
        rwa [sent] at same
      · rename_i next raised refused
        rw [refused] at same
        exact (ih next).trans same

theorem agents_sendChunkReady (staging : Staging ω) (reqId : ReqId) (chunk : ChunkNotif) :
    (worker.sendChunkReady staging reqId chunk).1.consumerAgentByEngine =
      staging.consumerAgentByEngine := by
  rw [sendChunkReady]
  split
  · rfl
  · exact agents_sendAttempts worker _ _ _ staging

theorem agents_flushChunks (reqId : ReqId) (chunks : List ChunkNotif) (staging : Staging ω) :
    (worker.flushChunks reqId chunks staging).1.consumerAgentByEngine =
      staging.consumerAgentByEngine := by
  induction chunks generalizing staging with
  | nil => rfl
  | cons chunk chunks ih =>
      have first := agents_sendChunkReady worker staging reqId chunk
      rw [flushChunks]
      split
      · rename_i next sent
        rw [sent] at first
        rw [ih, first]
      · rename_i next kept
        rw [kept] at first
        rw [ih, first]

theorem agents_flushRequest (staging : Staging ω) (reqId : ReqId) :
    (worker.flushRequest staging reqId).consumerAgentByEngine =
      staging.consumerAgentByEngine := by
  have flushed := agents_flushChunks worker reqId
    ((staging.pendingChunkNotifs.lookup reqId).getD []) staging
  rw [flushRequest]
  simp only
  split <;> exact flushed

theorem agents_flushPending (staging : Staging ω) :
    (worker.flushPending staging).consumerAgentByEngine = staging.consumerAgentByEngine := by
  rw [flushPending]
  split
  · rfl
  · rename_i busy
    clear busy
    generalize staging.pendingChunkNotifs.keys = reqIds
    induction reqIds generalizing staging with
    | nil => rfl
    | cons reqId reqIds ih => rw [List.foldl_cons, ih, agents_flushRequest]

theorem agents_mapRequests (staging : Staging ω) (registration : PyObj) (engine : PyKey) :
    (mapRequests staging registration engine).consumerAgentByEngine =
      staging.consumerAgentByEngine := by
  rw [mapRequests]
  split
  · rfl
  · simp only
    split <;> rfl

/-! ## Registering -/

section Answers

variable {worker} {agentOf : PyObj → AgentName}
  (answers : ∀ world agentMeta, ∃ next,
    worker.nixl.addRemoteAgent world agentMeta = (next, .ok (agentOf agentMeta)))

include answers

theorem agents_registerConsumer (staging : Staging ω) (registration : ConsumerRegistration) :
    (worker.registerConsumer staging registration.payload).consumerAgentByEngine =
      staging.consumerAgentByEngine.setDefault registration.engine
        (agentOf registration.agentMeta) := by
  obtain ⟨world, added⟩ := answers staging.world registration.agentMeta
  rw [registerConsumer, registration.hasEngineId, registration.hasAgentMeta]
  simp only [registration.engineId_some, registration.agentMeta_some, Bool.or_false,
    registration.engineId_key, ensureAgent, AList.setDefault]
  by_cases known : registration.engine ∈ staging.consumerAgentByEngine
  · simp only [if_pos known, Bool.false_eq_true, if_false]
    exact agents_mapRequests _ _ _
  · simp only [if_neg known, added, Bool.false_eq_true, if_false]
    exact agents_mapRequests _ _ _

/-- The engine and the agent of a registration. -/
def agentEntry (agentOf : PyObj → AgentName) (registration : ConsumerRegistration) :
    Σ _ : PyKey, AgentName :=
  ⟨registration.engine, agentOf registration.agentMeta⟩

omit answers in
/-- Several calls of `_register_consumers`. -/
def registerAll (worker : StagingWorker ω) (staging : Staging ω)
    (batches : List (List ConsumerRegistration)) : Staging ω :=
  batches.foldl (fun staging registrations =>
    worker.registerConsumers staging (registrations.map ConsumerRegistration.payload)) staging

theorem agents_registerLoop (staging : Staging ω)
    (registrations : List ConsumerRegistration) :
    ((registrations.map ConsumerRegistration.payload).foldl
      worker.registerConsumer staging).consumerAgentByEngine =
      staging.consumerAgentByEngine.setDefaults (registrations.map (agentEntry agentOf)) := by
  induction registrations generalizing staging with
  | nil => rfl
  | cons registration registrations ih =>
      rw [List.map_cons, List.foldl_cons, ih, agents_registerConsumer answers]
      rfl

theorem agents_registerConsumers (staging : Staging ω)
    (registrations : List ConsumerRegistration) :
    (worker.registerConsumers staging
      (registrations.map ConsumerRegistration.payload)).consumerAgentByEngine =
      staging.consumerAgentByEngine.setDefaults (registrations.map (agentEntry agentOf)) := by
  rw [registerConsumers, agents_flushPending, agents_registerLoop answers]
  rfl

theorem agents_registerAll (staging : Staging ω) (batches : List (List ConsumerRegistration)) :
    (worker.registerAll staging batches).consumerAgentByEngine =
      staging.consumerAgentByEngine.setDefaults (batches.flatten.map (agentEntry agentOf)) := by
  induction batches generalizing staging with
  | nil => rfl
  | cons registrations batches ih =>
      rw [registerAll, List.foldl_cons, ← registerAll, ih, agents_registerConsumers answers,
        List.flatten_cons, List.map_append, AList.setDefaults_append]

omit answers in
/-- A registration is the last to name an engine that was not named before. -/
def Newest (registrations : List ConsumerRegistration) (newest : ConsumerRegistration) : Prop :=
  ∃ before after, registrations = before ++ newest :: after ∧
    (∀ registration ∈ before, registration.engine ≠ newest.engine) ∧
    ∀ registration ∈ after, registration.engine = newest.engine ∨
      ∃ earlier ∈ before, earlier.engine = registration.engine

omit answers in
theorem keys_agentEntries (registrations : List ConsumerRegistration) :
    (registrations.map (agentEntry agentOf)).keys =
      registrations.map ConsumerRegistration.engine := by
  rw [List.keys, List.map_map]
  rfl

omit answers in
theorem Newest.entry {registrations : List ConsumerRegistration} {newest : ConsumerRegistration}
    (isNewest : Newest registrations newest) :
    AList.NewestEntry (registrations.map (agentEntry agentOf)) (agentEntry agentOf newest) := by
  obtain ⟨before, after, rfl, fresh, known⟩ := isNewest
  refine ⟨before.map (agentEntry agentOf), after.map (agentEntry agentOf), by simp, ?_, ?_⟩
  · rw [keys_agentEntries, List.mem_map]
    rintro ⟨registration, member, same⟩
    exact fresh registration member same
  · intro entry member
    obtain ⟨registration, inside, rfl⟩ := List.mem_map.mp member
    rw [keys_agentEntries, List.mem_map]
    exact known registration inside

omit answers in
theorem exists_newest {registrations : List ConsumerRegistration}
    (some_registration : registrations ≠ []) : ∃ newest, Newest registrations newest := by
  let key (registration : ConsumerRegistration) : Σ _ : PyKey, ConsumerRegistration :=
    ⟨registration.engine, registration⟩
  have keys (some : List ConsumerRegistration) :
      (some.map key).keys = some.map ConsumerRegistration.engine := by
    rw [List.keys, List.map_map]
    rfl
  obtain ⟨entry, before, after, split, fresh, known⟩ :=
    AList.exists_newestEntry (show registrations.map key ≠ [] by simpa using some_registration)
  obtain ⟨earlier, rest, rfl, rfl, cut⟩ := List.map_eq_append_iff.mp split
  obtain ⟨newest, later, rfl, rfl, rfl⟩ := List.map_eq_cons_iff.mp cut
  rw [keys, List.mem_map] at fresh
  refine ⟨newest, earlier, later, rfl, fun registration member same => ?_, ?_⟩
  · exact fresh ⟨registration, member, same⟩
  · intro registration member
    have named := known (key registration) (List.mem_map_of_mem member)
    rw [keys, List.mem_map] at named
    exact named

/-- **The fallback consumer.**  A request without an engine is notified through the agent of the
last registration exactly when the last registration to name a new engine has the same agent. -/
theorem newest_consumer_iff (world : ω) (batches : List (List ConsumerRegistration))
    {last : ConsumerRegistration} (isLast : batches.flatten.getLast? = some last) {reqId : ReqId}
    (unmapped : (worker.registerAll (.init world) batches).consumerEngineByReq.lookup
      (.str reqId) = none) :
    resolveConsumerAgent (worker.registerAll (.init world) batches) reqId =
        some (agentOf last.agentMeta) ↔
      ∀ newest, Newest batches.flatten newest →
        agentOf newest.agentMeta = agentOf last.agentMeta := by
  have resolved {newest : ConsumerRegistration} (isNewest : Newest batches.flatten newest) :
      resolveConsumerAgent (worker.registerAll (.init world) batches) reqId =
        some (agentOf newest.agentMeta) := by
    rw [resolveConsumerAgent, unmapped]
    simp only
    rw [agents_registerAll answers, Staging.init, AList.getLast?_setDefaults isNewest.entry]
    rfl
  constructor
  · intro same newest isNewest
    exact Option.some.inj ((resolved isNewest).symm.trans same)
  · intro same
    have some_registration : batches.flatten ≠ [] := by
      intro nothing
      rw [nothing] at isLast
      cases isLast
    obtain ⟨newest, isNewest⟩ := exists_newest some_registration
    rw [resolved isNewest, same newest isNewest]

end Answers

/-! ## Registrations in a row -/

/-- A library that reads the name of an agent from its metadata. -/
def namingNixl : NixlWrapper Unit where
  addRemoteAgent _ agentMeta :=
    match agentMeta with
    | .str name => ((), .ok name)
    | _ => ((), .ok "")
  sendNotif _ _ _ := ((), .ok ())

def nameOf : PyObj → AgentName
  | .str name => name
  | _ => ""

theorem namingNixl_answers (world : Unit) (agentMeta : PyObj) :
    ∃ next, namingNixl.addRemoteAgent world agentMeta = (next, .ok (nameOf agentMeta)) := by
  cases agentMeta <;> exact ⟨_, rfl⟩

def namingWorker : StagingWorker Unit where
  nixl := namingNixl
  kernel := .consecutive 1 Nat.one_pos
  chunkOverlapEnabled := true

/-- A registration of an engine with an agent. -/
def registration (engine agent : String) : ConsumerRegistration where
  payload := .dict
    [(.str "engine_id", .str engine), (.str "agent_metadata", .str agent),
      (.str "req_ids", .list [])]
  engineId := .str engine
  engine := .str engine
  agentMeta := .str agent
  hasEngineId := rfl
  engineId_some := rfl
  engineId_key := rfl
  hasAgentMeta := rfl
  agentMeta_some := rfl

theorem newest_second (first second newest : ConsumerRegistration)
    (isNewest : Newest [first, second] newest) (other : first.engine ≠ second.engine) :
    newest = second := by
  obtain ⟨before, after, split, fresh, known⟩ := isNewest
  cases before with
  | nil =>
      obtain ⟨rfl, rfl⟩ := List.cons.inj split
      obtain same | ⟨_, nowhere, _⟩ := known second List.mem_cons_self
      · exact absurd same.symm other
      · cases nowhere
  | cons _ before =>
      obtain ⟨rfl, rest⟩ := List.cons.inj split
      cases before with
      | nil => exact (List.cons.inj rest).1.symm
      | cons _ before => simp at rest

/-- Two engines register one after the other. -/
theorem newest_consumer_second : resolveConsumerAgent
    (namingWorker.registerAll (.init ()) [[registration "d0" "a0"], [registration "d1" "a1"]])
      "r" = some "a1" := by
  have isLast : [[registration "d0" "a0"], [registration "d1" "a1"]].flatten.getLast? =
      some (registration "d1" "a1") := rfl
  have unmapped : (namingWorker.registerAll (.init ())
      [[registration "d0" "a0"], [registration "d1" "a1"]]).consumerEngineByReq.lookup
        (.str "r") = none := by decide
  have engines : (registration "d0" "a0").engine ≠ (registration "d1" "a1").engine := by decide
  apply (newest_consumer_iff namingNixl_answers () _ isLast unmapped).mpr
  intro newest isNewest
  rw [newest_second _ _ newest isNewest engines]

/-- The first of two engines restarts, and the agent of the second stays the newest. -/
theorem not_newest_consumer_restarted :
    let restarted := registration "d0" "a2"
    let staging := namingWorker.registerAll (.init ())
      [[registration "d0" "a0"], [registration "d1" "a1"], [restarted]]
    staging.consumerEngineByReq.lookup (.str "r") = none ∧
      resolveConsumerAgent staging "r" ≠ some (nameOf restarted.agentMeta) := by
  decide

end StagingWorker

end RduHdi
