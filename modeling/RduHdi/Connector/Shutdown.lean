import RduHdi.Connector.ReceiveOnce
import RduHdi.Connector.WorkerAccounts

/-!
# Shutting down

Over a whole run, what NIXL gave out was given back, or is held in the tables that `shutdown`
empties, or is one of three things that it does not know of: the agents of consumers, those of a
handshake that is under way, and the own lists that were prepared again for a block size.  What the
thread of the handshakes adds after the call stays as well.
-/

namespace RduHdi

/-- What the tables hold that `shutdown` empties. -/
def NixlConnector.resources {ω : Type} (connector : NixlConnector ω) : List NixlResource :=
  connector.receiving.reading.resources ++ connector.receiving.tables.resources ++
    connector.registeredDescs.map .memory

/-- The agents of the ranks that a handshake has done so far. -/
def Shaking.resources (shaking : Shaking) : List NixlResource :=
  shaking.agents.holdings fun name => [.remoteAgent name]

/-- What is held elsewhere. -/
def NixlConnector.strays {ω : Type} (connector : NixlConnector ω) : List NixlResource :=
  connector.staging.resources ++ connector.shaking.elim [] Shaking.resources

/-- A rank of a handshake answers. -/
def ShutEvent.IsRank : ShutEvent → Prop
  | .handshakeRank _ => True
  | _ => False

/-- Everything that was given out was given back, is held, or is lost.  A handshake under way is
with an engine that is unknown, and its ranks have no lists yet. -/
structure Accounted {ω : Type} (ledger : ω → NixlLedger) (connector : NixlConnector ω)
    (lost : List NixlResource) : Prop where
  /-- The connector's tables, strays and losses are what is held. -/
  accounts : (ledger connector.world).Accounts (connector.resources ++ (connector.strays ++ lost))
  /-- An engine that is waited for has no agents yet. -/
  unknown : ∀ engineId ∈ connector.receiving.handshakeFutures,
    engineId ∉ connector.receiving.tables.remoteAgents
  /-- Neither has one of which the handshake is under way. -/
  engine : ∀ shaking, connector.shaking = some shaking →
    shaking.engineId ∉ connector.receiving.tables.remoteAgents
  /-- Its ranks are asked once each. -/
  ranks : ∀ shaking, connector.shaking = some shaking →
    shaking.ranksLeft.Nodup ∧ ∀ rank ∈ shaking.ranksLeft, rank ∉ shaking.agents
  /-- Only an engine with agents has lists. -/
  sides : ∀ engineId rank,
    Dict.lookupAt connector.receiving.tables.dstXferSideHandles engineId rank ≠ none →
      engineId ∈ connector.receiving.tables.remoteAgents ∨
        ∃ shaking, connector.shaking = some shaking ∧ shaking.engineId = engineId ∧
          rank ∉ shaking.ranksLeft

namespace NixlConnectorWorker

variable {ω : Type} {worker : NixlConnectorWorker ω}

/-- A ledger notes all that the worker does. -/
structure Notes (worker : NixlConnectorWorker ω) (ledger : ω → NixlLedger) : Prop where
  /-- For handshakes. -/
  handshakes : worker.receiving.handshakes.nixl.Notes ledger
  /-- For reads. -/
  reading : worker.receiving.nixl.Notes ledger
  /-- For consumers. -/
  staging : worker.staging.nixl.Notes ledger
  /-- For the caches. -/
  memory : worker.memory.Notes ledger

theorem watched_notes (worker : NixlConnectorWorker ω) : worker.watched.Notes Watched.ledger where
  handshakes := worker.receiving.handshakes.nixl.watched_notes
  reading := worker.receiving.nixl.watched_notes
  staging := worker.staging.nixl.watched_notes
  memory := worker.memory.watched_notes

/-- A rank that answers is valid: `add_remote_agent` returns. -/
def Validates (worker : NixlConnectorWorker ω) (connector : NixlConnector ω) : NixlEvent → Prop
  | .handshakeRank answer =>
      match connector.shaking with
      | some ⟨engineId, remoteTpSize, rank :: _, _⟩ =>
          (worker.receiving.handshakes.shakeRank answer engineId rank remoteTpSize
            connector.receiving.tables).2.isOk
      | _ => True
  | _ => True

instance (connector : NixlConnector ω) (event : NixlEvent) :
    Decidable (worker.Validates connector event) := by
  unfold Validates
  split
  · split
    · infer_instance
    · infer_instance
  · infer_instance

/-- The same after `shutdown` was called. -/
def ShutValidates (worker : NixlConnectorWorker ω) (connector : NixlConnector ω) :
    ShutEvent → Prop
  | .handshakeRank answer => worker.Validates connector (.handshakeRank answer)
  | _ => True

/-- Nothing is given out that `shutdown` does not know of: no consumer is registered, and no rank
with smaller blocks comes whose block size is known. -/
def KeepsTrack (worker : NixlConnectorWorker ω) (connector : NixlConnector ω) : NixlEvent → Prop
  | .handshakeRank answer => ∀ shaking payload agent, connector.shaking = some shaking →
      answer = .ok payload →
      worker.receiving.handshakes.checkPayload shaking.engineId payload = .ok agent →
        ¬ worker.receiving.handshakes.Overwrites connector.receiving.tables agent
  | .saveKvToHost metadata => ¬ worker.staging.Registers metadata
  | _ => True

/-! ## What `shutdown` does -/

section Shutdown

variable {ledger : ω → NixlLedger}

/-- `shutdown` gives back everything in the tables. -/
theorem shutdown_accounts (notes : worker.Notes ledger) {connector : NixlConnector ω}
    {others : List NixlResource}
    (accounts : (ledger connector.world).Accounts (connector.resources ++ others)) :
    (ledger (worker.shutdown connector).world).Accounts
      ((worker.shutdown connector).resources ++ others) := by
  have all : (ledger connector.world).Accounts
      ((connector.receiving.reading.recvingTransfers.entries.flatMap Sigma.snd).map .xferHandle ++
        ((connector.receiving.tables.srcXferHandlesByBlockSize.entries.map Sigma.snd).map
            .dlistHandle ++
        ((connector.receiving.tables.srcXferHandlesByTpRatio.entries.flatMap Sigma.snd).map
            .dlistHandle ++
        ((connector.receiving.tables.dstXferSideHandles.entries.flatMap fun sides =>
            sides.2.entries.map Sigma.snd).map .dlistHandle ++
        ((connector.receiving.tables.remoteAgents.entries.flatMap fun agents =>
            agents.2.entries.map Sigma.snd).map .remoteAgent ++
        (connector.registeredDescs.map .memory ++ others)))))) := by
    rw [AList.map_lists, AList.map_values, AList.map_lists, AList.map_nested, AList.map_nested]
    simpa only [NixlConnector.resources, Reading.resources, Handshakes.resources,
      List.append_assoc] using accounts
  have transfers := all.foldl_release notes.reading.releaseXferHandle
  have sizes := transfers.foldl_release notes.memory.releaseDlistHandle
  have ratios := sizes.foldl_release notes.memory.releaseDlistHandle
  have sides := ratios.foldl_release notes.memory.releaseDlistHandle
  have agents := sides.foldl_release notes.memory.removeRemoteAgent
  exact agents.foldl_release notes.memory.deregisterMemory

theorem shutdown_balanced_iff (notes : worker.Notes ledger) {connector : NixlConnector ω}
    {lost : List NixlResource} (accounted : Accounted ledger connector lost) :
    (ledger (worker.shutdown connector).world).Balanced ↔ connector.strays ++ lost = [] :=
  (shutdown_accounts notes accounted.accounts).balanced_iff

theorem shutdown_accounted (notes : worker.Notes ledger) {connector : NixlConnector ω}
    {lost : List NixlResource} (accounted : Accounted ledger connector lost) :
    Accounted ledger (worker.shutdown connector) lost where
  accounts := shutdown_accounts notes accounted.accounts
  unknown engineId _ := AList.notMem_empty engineId
  engine shaking _ := AList.notMem_empty shaking.engineId
  ranks := accounted.ranks
  sides _ _ known := absurd rfl known

end Shutdown

end NixlConnectorWorker

/-! ## What the halves do -/

namespace Accounted

variable {ω : Type} {ledger : ω → NixlLedger} {connector : NixlConnector ω}
  {lost : List NixlResource}

theorem receiving (accounted : Accounted ledger connector lost) {after : Receiving ω}
    (settles : Receiving.Settles ledger connector.receiving after) :
    Accounted ledger { connector with receiving := after } lost := by
  have same : after.tables.remoteAgents = connector.receiving.tables.remoteAgents := by
    rw [settles.tables]
  have sameSides : after.tables.dstXferSideHandles =
      connector.receiving.tables.dstXferSideHandles := by
    rw [settles.tables]
  have held : after.tables.resources = connector.receiving.tables.resources := by
    rw [settles.tables]
    rfl
  refine ⟨?_, fun engineId member => ?_, ?_, accounted.ranks, ?_⟩
  · have split := accounted.accounts
    rw [NixlConnector.resources, List.append_assoc, List.append_assoc] at split
    have settled := settles.accounts _ split
    change (ledger after.tables.world).Accounts
      (after.reading.resources ++ after.tables.resources ++
        connector.registeredDescs.map .memory ++ (connector.strays ++ lost))
    rw [held, List.append_assoc, List.append_assoc]
    exact settled
  · rw [same]
    exact (settles.handshakeFutures engineId member).elim (accounted.unknown engineId) id
  · rw [same]
    exact accounted.engine
  · rw [same, sameSides]
    exact accounted.sides

theorem staging (accounted : Accounted ledger connector lost)
    {work : Staging ω → Staging ω}
    (settles : ∀ staging, StagingWorker.Settles ledger staging (work staging)) :
    Accounted ledger (connector.onStaging work) lost := by
  refine ⟨?_, accounted.unknown, accounted.engine, accounted.ranks, accounted.sides⟩
  have start := accounted.accounts
  rw [NixlConnector.strays, List.append_assoc] at start
  have moved := start.perm (List.perm_append_comm_assoc connector.staging.resources
    connector.resources _)
  have settled := settles { connector.staging with world := connector.world } _ moved
  have back := settled.perm (List.perm_append_comm_assoc _ _ _)
  rw [← List.append_assoc (work _).resources] at back
  exact back

/-- The rank that a handshake asks next has no agent and no lists yet. -/
theorem next_unknown (accounted : Accounted ledger connector lost) {shaking : Shaking} {rank : ℕ}
    {ranks : List ℕ} (busy : connector.shaking = some shaking)
    (left : shaking.ranksLeft = rank :: ranks) :
    Dict.lookupAt connector.receiving.tables.remoteAgents shaking.engineId rank = none ∧
      Dict.lookupAt connector.receiving.tables.dstXferSideHandles shaking.engineId rank = none := by
  have isNew := accounted.engine shaking busy
  constructor
  · rw [Dict.lookupAt, AList.lookup_eq_none.mpr isNew]
    rfl
  · apply Classical.byContradiction
    intro known
    rcases accounted.sides shaking.engineId rank known with isKnown | ⟨other, isOther, _, done⟩
    · exact isNew isKnown
    · obtain rfl := Option.some.inj (busy.symm.trans isOther)
      rw [left] at done
      exact done List.mem_cons_self

end Accounted

namespace NixlConnectorWorker

/-! ## What events do -/

section Events

variable {ω : Type} {worker : NixlConnectorWorker ω} {ledger : ω → NixlLedger}
  {connector : NixlConnector ω} {lost : List NixlResource}

theorem handshakeOver_error_accounted (accounted : Accounted ledger connector lost)
    (idle : connector.shaking = none) (engineId : EngineId) (raised : PyError) :
    Accounted ledger
      (handshakeOver connector engineId connector.receiving.tables (.error raised)) lost := by
  obtain ⟨receiving, staging, registeredDescs, shaking⟩ := connector
  obtain rfl : shaking = none := idle
  exact accounted.receiving (ReceivingWorker.runCallbacks_error_settles _ _ _ raised)

theorem handshakeBegins_accounted (accounted : Accounted ledger connector lost)
    (idle : connector.shaking = none) {engineId : EngineId}
    (waited : engineId ∈ connector.receiving.handshakeFutures) (remoteTpSize : ℕ) :
    Accounted ledger (worker.handshakeBegins connector engineId remoteTpSize) lost := by
  rw [handshakeBegins]
  split
  · rename_i ranksLeft isRanks
    have nodup : ranksLeft.Nodup := by
      rw [worker.receiving.handshakes.rules.targetRemoteRanks_eq isRanks]
      exact RankLayout.nodup_contiguousTargets _ _ _
    refine ⟨?_, accounted.unknown, ?_, ?_, fun other rank known => ?_⟩
    · have start := accounted.accounts
      rw [NixlConnector.strays, idle] at start
      exact start
    · rintro _ ⟨⟩
      exact accounted.unknown engineId waited
    · rintro _ ⟨⟩
      exact ⟨nodup, fun rank _ => AList.notMem_empty rank⟩
    · rcases accounted.sides other rank known with isKnown | ⟨shaking, isShaking, _⟩
      · exact .inl isKnown
      · rw [idle] at isShaking
        cases isShaking
  · exact handshakeOver_error_accounted accounted idle engineId _

/-- A handshake that ends hands its agents to the tables. -/
theorem handshakeEnds_accounted (accounted : Accounted ledger connector lost) {shaking : Shaking}
    (busy : connector.shaking = some shaking) :
    Accounted ledger (handshakeEnds connector shaking) lost := by
  have unknown := accounted.engine shaking busy
  rw [handshakeEnds, handshakeOver]
  simp only
  rw [ReceivingWorker.runCallbacks_ok]
  refine ⟨accounted.accounts.of_count fun resource => ?_, fun engineId member => ?_, nofun, nofun,
    fun engineId rank known => ?_⟩
  · have written := AList.count_holdings_set_of_notMem
      (AList.holdings fun name : AgentName => [NixlResource.remoteAgent name])
      connector.receiving.tables.remoteAgents shaking.engineId shaking.agents resource unknown
    simp only [NixlConnector.resources, NixlConnector.strays, Handshakes.resources, busy,
      Option.elim_none, Option.elim_some, Shaking.resources, List.count_append, written,
      List.count_nil]
    omega
  · obtain ⟨different, member⟩ := AList.mem_erase.mp member
    intro isKnown
    rcases AList.mem_set.mp isKnown with same | earlier
    · exact different same
    · exact accounted.unknown engineId member earlier
  · refine .inl (AList.mem_set.mpr ?_)
    rcases accounted.sides engineId rank known with isKnown | ⟨other, isOther, same, _⟩
    · exact .inr isKnown
    · obtain rfl := Option.some.inj (busy.symm.trans isOther)
      exact .inl same.symm

/-- A rank whose payload validates adds the agent of the payload. -/
theorem Validates.exists_agent {shaking : Shaking} {rank : ℕ} {ranks : List ℕ}
    {answer : Except PyError HandshakePayload} (busy : connector.shaking = some shaking)
    (left : shaking.ranksLeft = rank :: ranks)
    (validates : worker.Validates connector (.handshakeRank answer)) :
    ∃ payload agent tables name, answer = .ok payload ∧
      worker.receiving.handshakes.checkPayload shaking.engineId payload = .ok agent ∧
      worker.receiving.handshakes.addRemoteAgent agent rank shaking.remoteTpSize
        connector.receiving.tables = (tables, .ok name) ∧
      worker.handshakeRank connector shaking rank ranks answer =
        { connector with
          receiving := { connector.receiving with tables }
          shaking := some
            { shaking with ranksLeft := ranks, agents := shaking.agents.set rank name } } := by
  obtain ⟨after, name, ran⟩ : ∃ after name,
      worker.receiving.handshakes.shakeRank answer shaking.engineId rank shaking.remoteTpSize
        connector.receiving.tables = (after, .ok name) := by
    obtain ⟨engineId, remoteTpSize, ranksLeft, agents⟩ := shaking
    obtain rfl : ranksLeft = rank :: ranks := left
    rw [Validates, busy] at validates
    exact Attempt.exists_of_isOk validates
  have did := ran
  rw [HandshakeWorker.shakeRank] at ran
  obtain ⟨_, payload, answered, checks⟩ := Attempt.bind_eq_ok.mp ran
  obtain ⟨rfl, rfl⟩ := Attempt.lift_eq_ok.mp answered
  obtain ⟨_, agent, checked, added⟩ := Attempt.bind_eq_ok.mp checks
  obtain ⟨rfl, isAgent⟩ := Attempt.lift_eq_ok.mp checked
  exact ⟨payload, agent, after, name, rfl, isAgent, added, by rw [handshakeRank, did]⟩

/-- A rank adds its agent to those of its handshake, and loses what it writes over. -/
theorem handshakeRank_accounted (notes : worker.Notes ledger)
    (accounted : Accounted ledger connector lost) {shaking : Shaking} {rank : ℕ} {ranks : List ℕ}
    {answer : Except PyError HandshakePayload} (busy : connector.shaking = some shaking)
    (left : shaking.ranksLeft = rank :: ranks)
    (validates : worker.Validates connector (.handshakeRank answer)) :
    ∃ more, Accounted ledger (worker.handshakeRank connector shaking rank ranks answer)
        (lost ++ more) ∧
      (more = [] ↔ worker.KeepsTrack connector (.handshakeRank answer)) := by
  obtain ⟨payload, agent, after, name, rfl, isAgent, added, did⟩ :=
    Validates.exists_agent busy left validates
  have sameEngine : agent.engineId = shaking.engineId :=
    HandshakeWorker.checkPayload_engineId isAgent
  obtain ⟨unknown, fresh⟩ := accounted.next_unknown busy left
  rw [← sameEngine] at unknown fresh
  have isNew := accounted.engine shaking busy
  obtain ⟨nodup, unasked⟩ := accounted.ranks shaking busy
  rw [left] at nodup unasked
  rw [did]
  obtain ⟨more, adds⟩ := HandshakeWorker.addRemoteAgent_adds notes.handshakes unknown fresh added
  obtain ⟨handle, sides⟩ := adds.dstXferSideHandles
  refine ⟨more, ⟨?_, fun engineId member => ?_, ?_, ?_, fun engineId other known => ?_⟩, ?_⟩
  · have start : connector.receiving.tables.Accounts ledger
        (connector.receiving.reading.resources ++ (connector.registeredDescs.map .memory ++
          (connector.strays ++ lost))) := by
      refine accounted.accounts.of_count fun resource => ?_
      simp only [NixlConnector.resources, List.count_append]
      omega
    have moved := adds.accounts _ start
    refine Ledger.Accounts.of_count moved fun resource => ?_
    have written := AList.count_holdings_set_of_notMem
      (fun name : AgentName => [NixlResource.remoteAgent name]) shaking.agents rank name resource
      (unasked rank List.mem_cons_self)
    simp only [NixlConnector.resources, NixlConnector.strays, busy, Option.elim_some,
      Shaking.resources, List.count_append, written,
      Ledger.count_cons_held (.remoteAgent name) resource (more ++ _)]
    omega
  · exact adds.remoteAgents.symm ▸ accounted.unknown engineId member
  · rintro _ ⟨⟩
    exact adds.remoteAgents.symm ▸ isNew
  · rintro _ ⟨⟩
    refine ⟨(List.nodup_cons.mp nodup).2, fun other member isKnown => ?_⟩
    rcases AList.mem_set.mp isKnown with rfl | earlier
    · exact (List.nodup_cons.mp nodup).1 member
    · exact unasked other (List.mem_cons_of_mem _ member) earlier
  · obtain ⟨found, isFound⟩ := Option.ne_none_iff_exists'.mp known
    rw [sides] at isFound
    rcases Dict.lookupAt_setAt isFound with ⟨rfl, rfl, rfl⟩ | earlier
    · exact .inr ⟨_, rfl, sameEngine.symm, (List.nodup_cons.mp nodup).1⟩
    · rcases accounted.sides engineId other (Option.ne_none_iff_exists'.mpr ⟨found, earlier⟩) with
        isKnown | ⟨shaken, isShaken, same, done⟩
      · exact .inl (adds.remoteAgents.symm ▸ isKnown)
      · obtain rfl := Option.some.inj (busy.symm.trans isShaken)
        rw [left] at done
        exact .inr ⟨_, rfl, same, fun member => done (List.mem_cons_of_mem _ member)⟩
  · rw [adds.lost_iff]
    constructor
    · rintro keeps shaken other found isShaken ⟨⟩ isFound
      obtain rfl := Option.some.inj (busy.symm.trans isShaken)
      obtain rfl := Except.ok.inj (isAgent.symm.trans isFound)
      exact keeps
    · exact fun keeps => keeps shaking payload agent busy rfl isAgent

theorem handshakeBegins_staging (engineId : EngineId) (remoteTpSize : ℕ) :
    (worker.handshakeBegins connector engineId remoteTpSize).staging = connector.staging := by
  rw [handshakeBegins]
  split
  · rfl
  · rfl

theorem handshakeRank_staging (shaking : Shaking) (rank : ℕ) (ranks : List ℕ)
    (answer : Except PyError HandshakePayload) :
    (worker.handshakeRank connector shaking rank ranks answer).staging = connector.staging := by
  rw [handshakeRank]
  split
  · rfl
  · rfl

/-- What an event loses, and when it loses nothing. -/
theorem step_accounted (notes : worker.Notes ledger)
    (adds : ∀ world agentMeta, ∃ next agent,
      worker.staging.nixl.addRemoteAgent world agentMeta = (next, .ok agent))
    (accounted : Accounted ledger connector lost) {event : NixlEvent} {next : NixlConnector ω}
    (validates : worker.Validates connector event)
    (taken : worker.step connector event = .ok next) :
    ∃ now, Accounted ledger next now ∧
      ((¬ next.staging.HasConsumers ∧ now = []) ↔
        (¬ connector.staging.HasConsumers ∧ lost = []) ∧ worker.KeepsTrack connector event) := by
  cases event with
  | loadRequest reqId saved =>
      cases taken
      exact ⟨lost, accounted.receiving
        (ReceivingWorker.loadRequest_settles notes.reading _ reqId saved),
        (and_iff_left trivial).symm⟩
  | readReady =>
      cases taken
      exact ⟨lost, accounted.receiving (ReceivingWorker.readReady_settles notes.reading _ _),
        (and_iff_left trivial).symm⟩
  | handshakeBegins engineId =>
      rw [step] at taken
      split at taken
      · rename_i future idle waited
        cases taken
        have known : engineId ∈ connector.receiving.handshakeFutures :=
          AList.lookup_isSome.mp (Option.isSome_of_eq_some waited)
        refine ⟨lost, handshakeBegins_accounted accounted idle known _, ?_⟩
        rw [handshakeBegins_staging]
        exact (and_iff_left trivial).symm
      · cases taken
  | handshakeRank answer =>
      rw [step] at taken
      split at taken
      · rename_i engineId remoteTpSize rank ranks agents busy
        cases taken
        obtain ⟨more, kept, keeps⟩ := handshakeRank_accounted notes accounted busy rfl validates
        refine ⟨lost ++ more, kept, ?_⟩
        rw [handshakeRank_staging, List.append_eq_nil_iff, keeps, and_assoc]
      · cases taken
  | handshakeEnds =>
      rw [step] at taken
      split at taken
      · rename_i engineId remoteTpSize agents busy
        cases taken
        exact ⟨lost, handshakeEnds_accounted accounted busy, (and_iff_left trivial).symm⟩
      · cases taken
  | getFinished checks order =>
      cases taken
      exact ⟨lost, accounted.receiving
        (ReceivingWorker.getFinished_settles notes.reading _ checks order),
        (and_iff_left trivial).symm⟩
  | getBlockIdsWithLoadErrors =>
      cases taken
      exact ⟨lost, accounted.receiving (ReceivingWorker.getBlockIdsWithLoadErrors_settles _),
        (and_iff_left trivial).symm⟩
  | saveKvToHost metadata =>
      cases taken
      refine ⟨lost, accounted.staging fun staging =>
        StagingWorker.saveKvToHost_settles notes.staging staging metadata, ?_⟩
      have consumers := StagingWorker.saveKvToHost_hasConsumers adds notes.staging
        { connector.staging with world := connector.world } metadata
      change (¬ (worker.staging.saveKvToHost _ metadata).HasConsumers ∧ lost = []) ↔
        (¬ connector.staging.HasConsumers ∧ lost = []) ∧ ¬ worker.staging.Registers metadata
      rw [consumers, not_or]
      change (¬ connector.staging.HasConsumers ∧ _) ∧ _ ↔ _
      exact and_right_comm

theorem exec_accounted (notes : worker.Notes ledger)
    (adds : ∀ world agentMeta, ∃ next agent,
      worker.staging.nixl.addRemoteAgent world agentMeta = (next, .ok agent))
    (accounted : Accounted ledger connector lost) {events : List NixlEvent}
    {final : NixlConnector ω}
    (validates : Run.Throughout worker.step worker.Validates connector events)
    (ran : Run.exec worker.step connector events = .ok final) :
    ∃ now, Accounted ledger final now ∧
      ((¬ final.staging.HasConsumers ∧ now = []) ↔
        (¬ connector.staging.HasConsumers ∧ lost = []) ∧
          Run.Throughout worker.step worker.KeepsTrack connector events) := by
  induction events generalizing connector lost with
  | nil =>
      cases ran
      exact ⟨lost, accounted, (and_iff_left trivial).symm⟩
  | cons event events ih =>
      obtain ⟨next, taken, rest⟩ := Run.exec_cons_eq_ok.mp ran
      obtain ⟨middle, kept, keeps⟩ := step_accounted notes adds accounted validates.1 taken
      obtain ⟨now, last, clean⟩ := ih kept (validates.2 next taken) rest
      refine ⟨now, last, ?_⟩
      rw [clean, keeps, Run.throughout_cons taken, and_assoc]

/-- When the caches are registered, they and their list are held. -/
theorem registerKvCaches_accounted (notes : worker.Notes ledger) {blockSize : ℕ} {world : ω}
    (clean : (ledger world).Accounts []) {start : NixlConnector ω}
    (started : worker.registerKvCaches (worker.init blockSize world) = (start, .ok ⟨⟩)) :
    Accounted ledger start [] ∧ ¬ start.staging.HasConsumers := by
  rw [registerKvCaches, Prod.mk.injEq] at started
  obtain ⟨rfl, returns⟩ := started
  obtain ⟨tables, ran⟩ := Attempt.exists_eq_ok returns
  have memory : Handshakes.Accounts ledger
      [.memory worker.receiving.handshakes.caches.cachesData]
      { (worker.init blockSize world).receiving.tables with
        world := worker.memory.registerMemory (worker.init blockSize world).world
          worker.receiving.handshakes.caches.cachesData } := by
    have held : ((ledger world).acquire
        (.memory worker.receiving.handshakes.caches.cachesData)).Accounts
          [.memory worker.receiving.handshakes.caches.cachesData] := clean.acquire
    rw [← notes.memory.registerMemory] at held
    exact held
  obtain ⟨accounts, sides, agents⟩ :=
    HandshakeWorker.registerOwn_accounts notes.handshakes rfl memory ran
  rw [ran]
  refine ⟨⟨?_, nofun, nofun, nofun, fun engineId rank known => ?_⟩, fun ⟨engine, known⟩ => ?_⟩
  · change (ledger tables.world).Accounts ([] ++ tables.resources ++
      [.memory worker.receiving.handshakes.caches.cachesData] ++ [])
    rw [List.nil_append, List.append_nil]
    exact accounts
  · change Dict.lookupAt tables.dstXferSideHandles engineId rank ≠ none at known
    rw [sides] at known
    exact absurd rfl known
  · exact AList.notMem_empty engine known

end Events

/-! ## After the first call -/

/-- The books are balanced whatever of some later events has happened. -/
def StaysBalanced {ω : Type} (worker : NixlConnectorWorker ω) (ledger : ω → NixlLedger)
    (connector : NixlConnector ω) (later : List ShutEvent) : Prop :=
  ∀ done left middle, later = done ++ left →
    Run.exec worker.shutStep connector done = .ok middle → (ledger middle.world).Balanced

section After

variable {ω : Type} {worker : NixlConnectorWorker ω} {ledger : ω → NixlLedger}
  {connector next : NixlConnector ω} {lost : List NixlResource}

theorem handshakeBegins_world (engineId : EngineId) (remoteTpSize : ℕ) :
    (worker.handshakeBegins connector engineId remoteTpSize).world = connector.world := by
  rw [handshakeBegins]
  split
  · rfl
  · exact ReceivingWorker.runCallbacks_world _ _ _ _

/-- Nothing is added but by a rank. -/
theorem shutStep_balanced (notes : worker.Notes ledger)
    (accounted : Accounted ledger connector lost)
    (balanced : (ledger connector.world).Balanced) {event : ShutEvent} (quiet : ¬ event.IsRank)
    (taken : worker.shutStep connector event = .ok next) :
    Accounted ledger next lost ∧ (ledger next.world).Balanced := by
  cases event with
  | shutdown =>
      cases taken
      have nothing := accounted.accounts.balanced_iff.mp balanced
      exact ⟨shutdown_accounted notes accounted,
        (shutdown_balanced_iff notes accounted).mpr (List.append_eq_nil_iff.mp nothing).2⟩
  | handshakeBegins engineId =>
      rw [shutStep, step] at taken
      split at taken
      · rename_i future idle waited
        cases taken
        have known : engineId ∈ connector.receiving.handshakeFutures :=
          AList.lookup_isSome.mp (Option.isSome_of_eq_some waited)
        refine ⟨handshakeBegins_accounted accounted idle known _, ?_⟩
        rwa [handshakeBegins_world]
      · cases taken
  | handshakeRank answer => exact absurd trivial quiet
  | handshakeEnds =>
      rw [shutStep, step] at taken
      split at taken
      · rename_i engineId remoteTpSize agents busy
        cases taken
        refine ⟨handshakeEnds_accounted accounted busy, ?_⟩
        have same := ReceivingWorker.runCallbacks_world connector.receiving engineId
          (((connector.receiving.handshakeFutures.lookup engineId).map
            HandshakeFuture.waiting).getD []) (.ok agents)
        change (ledger (ReceivingWorker.runCallbacks _ _ _ _).tables.world).Balanced
        rwa [same]
      · cases taken

/-- The agent of a rank that answers is with its handshake. -/
theorem shutStep_rank (notes : worker.Notes ledger) (accounted : Accounted ledger connector lost)
    {answer : Except PyError HandshakePayload}
    (validates : worker.Validates connector (.handshakeRank answer))
    (taken : worker.shutStep connector (.handshakeRank answer) = .ok next) :
    ¬ (ledger next.world).Balanced := by
  rw [shutStep, step] at taken
  split at taken
  · rename_i engineId remoteTpSize rank ranks agents busy
    cases taken
    obtain ⟨more, kept, _⟩ := handshakeRank_accounted notes accounted busy rfl validates
    rw [kept.accounts.balanced_iff]
    rw [Validates, busy] at validates
    obtain ⟨after, name, shaken⟩ := Attempt.exists_of_isOk validates
    rw [handshakeRank, shaken]
    intro nothing
    have strays := (List.append_eq_nil_iff.mp (List.append_eq_nil_iff.mp nothing).2).1
    have none_shaking := (List.append_eq_nil_iff.mp strays).2
    rw [Option.elim_some, Shaking.resources,
      AList.holdings_eq_nil fun name => List.cons_ne_nil _ _] at none_shaking
    have none_added : agents.set rank name = ∅ := none_shaking
    have isAgent : rank ∈ agents.set rank name := AList.mem_set.mpr (.inl rfl)
    rw [none_added] at isAgent
    exact AList.notMem_empty rank isAgent
  · cases taken

/-- Balanced books stay so as long as no rank answers. -/
theorem staysBalanced_iff (notes : worker.Notes ledger)
    (accounted : Accounted ledger connector lost)
    (balanced : (ledger connector.world).Balanced) {later : List ShutEvent}
    {last : NixlConnector ω}
    (validates : Run.Throughout worker.shutStep worker.ShutValidates connector later)
    (ran : Run.exec worker.shutStep connector later = .ok last) :
    worker.StaysBalanced ledger connector later ↔ ∀ event ∈ later, ¬ event.IsRank := by
  induction later generalizing connector with
  | nil =>
      refine iff_of_true (fun done left middle split reached => ?_) (List.forall_mem_nil _)
      obtain ⟨rfl, rfl⟩ := List.append_eq_nil_iff.mp split.symm
      cases reached
      exact balanced
  | cons event later ih =>
      obtain ⟨next, taken, rest⟩ := Run.exec_cons_eq_ok.mp ran
      by_cases isRank : event.IsRank
      · -- The agent that it adds is not given back by then.
        refine iff_of_false (fun stays => ?_) fun none => none event List.mem_cons_self isRank
        have after := stays [event] later next rfl
          ((Run.exec_singleton connector event).trans taken)
        cases event with
        | handshakeRank answer => exact shutStep_rank notes accounted validates.1 taken after
        | _ => exact isRank
      · obtain ⟨kept, still⟩ := shutStep_balanced notes accounted balanced isRank taken
        rw [List.forall_mem_cons, and_iff_right isRank,
          ← ih kept still (validates.2 next taken) rest]
        constructor
        · intro stays done left middle split reached
          exact stays (event :: done) left middle (by rw [split, List.cons_append])
            ((Run.exec_cons taken).trans reached)
        · intro stays done left middle split reached
          cases done with
          | nil =>
              cases reached
              exact balanced
          | cons first done =>
              obtain ⟨rfl, rfl⟩ := List.cons_eq_cons.mp split
              rw [Run.exec_cons taken] at reached
              exact stays done left middle rfl reached

end After

/-- **NIXL resources balance.**  From the first call of `shutdown` on, every resource was given back
as often as it was given out exactly when the run before it registered no consumer, met no rank with
smaller blocks of a block size that was known, and left no handshake with agents under way, and no
rank of a handshake answers any more. -/
theorem resources_balance_iff {ω : Type} (worker : NixlConnectorWorker ω)
    (adds : ∀ world agentMeta, ∃ next agent,
      worker.staging.nixl.addRemoteAgent world agentMeta = (next, .ok agent))
    {blockSize : ℕ} {world : ω} {start : NixlConnector (WatchedNixl ω)}
    (started : worker.watched.registerKvCaches (worker.watched.init blockSize ⟨world, .empty⟩) =
      (start, .ok ⟨⟩))
    {events : List NixlEvent} {final : NixlConnector (WatchedNixl ω)}
    (ran : Run.exec worker.watched.step start events = .ok final)
    (validates : Run.Throughout worker.watched.step worker.watched.Validates start events)
    {later : List ShutEvent} {last : NixlConnector (WatchedNixl ω)}
    (ended : Run.exec worker.watched.shutStep (worker.watched.shutdown final) later = .ok last)
    (validatesLater : Run.Throughout worker.watched.shutStep worker.watched.ShutValidates
      (worker.watched.shutdown final) later) :
    worker.watched.StaysBalanced Watched.ledger (worker.watched.shutdown final) later ↔
      Run.Throughout worker.watched.step worker.watched.KeepsTrack start events ∧
        (∀ shaking, final.shaking = some shaking → shaking.agents = ∅) ∧
        ∀ event ∈ later, ¬ event.IsRank := by
  have watchedAdds : ∀ world agentMeta, ∃ next agent,
      worker.watched.staging.nixl.addRemoteAgent world agentMeta = (next, .ok agent) := by
    intro watched agentMeta
    obtain ⟨next, agent, added⟩ := adds watched.world agentMeta
    refine ⟨⟨next, watched.ledger.acquire (.remoteAgent agent)⟩, agent, ?_⟩
    change Watched.acquiring _ _ (worker.staging.nixl.addRemoteAgent _ _) = _
    rw [added]
    rfl
  obtain ⟨begun, lonely⟩ :=
    registerKvCaches_accounted worker.watched_notes Ledger.accounts_empty started
  obtain ⟨lost, accounted, clean⟩ :=
    exec_accounted worker.watched_notes watchedAdds begun validates ran
  have idle : final.shaking.elim [] Shaking.resources = [] ↔
      ∀ shaking, final.shaking = some shaking → shaking.agents = ∅ := by
    cases final.shaking with
    | none => exact iff_of_true rfl nofun
    | some shaking =>
        rw [Option.elim_some, Shaking.resources,
          AList.holdings_eq_nil fun name => List.cons_ne_nil _ _]
        constructor
        · rintro isEmpty _ ⟨⟩
          exact isEmpty
        · exact fun every => every shaking rfl
  have first : (worker.watched.shutdown final).world.ledger.Balanced ↔
      Run.Throughout worker.watched.step worker.watched.KeepsTrack start events ∧
        ∀ shaking, final.shaking = some shaking → shaking.agents = ∅ := by
    rw [shutdown_balanced_iff worker.watched_notes accounted, NixlConnector.strays,
      List.append_eq_nil_iff, List.append_eq_nil_iff, Staging.resources_eq_nil, idle,
      and_right_comm, clean, and_iff_right (And.intro lonely rfl)]
  rw [← and_assoc, ← first]
  have after := shutdown_accounted worker.watched_notes accounted
  constructor
  · intro stays
    have balanced := stays [] later _ rfl rfl
    exact ⟨balanced, (staysBalanced_iff worker.watched_notes after balanced validatesLater
      ended).mp stays⟩
  · rintro ⟨balanced, quiet⟩
    exact (staysBalanced_iff worker.watched_notes after balanced validatesLater ended).mpr quiet

/-! ## Handshakes that nothing interrupts -/

section Uninterrupted

variable {ω : Type} {worker : NixlConnectorWorker ω} {connector : NixlConnector ω}
  {answers : ℕ → Except PyError HandshakePayload} {engineId : EngineId}

theorem exec_handshakeRanks {remoteTpSize : ℕ} {ranks : List ℕ} {agents found : Dict ℕ AgentName}
    {tables : Handshakes ω}
    (busy : connector.shaking = some ⟨engineId, remoteTpSize, ranks, agents⟩)
    (ran : worker.receiving.handshakes.handshakeRanks answers remoteTpSize engineId ranks agents
      connector.receiving.tables = (tables, .ok found)) :
    Run.exec worker.step connector (ranks.map fun rank => .handshakeRank (answers rank)) =
      .ok
        { connector with
          receiving := { connector.receiving with tables }
          shaking := some ⟨engineId, remoteTpSize, [], found⟩ } := by
  induction ranks generalizing connector agents with
  | nil =>
      obtain ⟨rfl, rfl⟩ := Attempt.pure_eq_ok.mp ran
      rw [← busy]
      rfl
  | cons rank ranks ih =>
      obtain ⟨_, payload, answered, checks⟩ := Attempt.bind_eq_ok.mp ran
      obtain ⟨rfl, isAnswer⟩ := Attempt.lift_eq_ok.mp answered
      obtain ⟨_, agent, checked, adds⟩ := Attempt.bind_eq_ok.mp checks
      obtain ⟨rfl, isAgent⟩ := Attempt.lift_eq_ok.mp checked
      obtain ⟨middle, name, added, rest⟩ := Attempt.bind_eq_ok.mp adds
      have shaken : worker.receiving.handshakes.shakeRank (answers rank) engineId rank remoteTpSize
          connector.receiving.tables = (middle, .ok name) := by
        rw [HandshakeWorker.shakeRank]
        refine Attempt.bind_eq_ok.mpr ⟨_, payload, Attempt.lift_eq_ok.mpr ⟨rfl, isAnswer⟩, ?_⟩
        exact Attempt.bind_eq_ok.mpr ⟨_, agent, Attempt.lift_eq_ok.mpr ⟨rfl, isAgent⟩, added⟩
      have taken : worker.step connector (.handshakeRank (answers rank)) =
          .ok
            { connector with
              receiving := { connector.receiving with tables := middle }
              shaking := some ⟨engineId, remoteTpSize, ranks, agents.set rank name⟩ } := by
        rw [step, busy]
        simp only [handshakeRank, shaken]
      rw [List.map_cons, Run.exec_cons taken]
      exact ih rfl rest

/-- A handshake that succeeds and is not interrupted does what it does in one step. -/
theorem exec_handshake {future : HandshakeFuture} {ranks : List ℕ} {agents : Dict ℕ AgentName}
    {tables : Handshakes ω} (idle : connector.shaking = none)
    (waited : connector.receiving.handshakeFutures.lookup engineId = some future)
    (isRanks : worker.receiving.handshakes.rules.targetRemoteRanks
      worker.receiving.handshakes.tpRank worker.receiving.handshakes.worldSize future.tpSize =
        .ok ranks)
    (ran : worker.receiving.handshakes.nixlHandshake answers future.tpSize engineId
      connector.receiving.tables = (tables, .ok agents)) :
    Run.exec worker.step connector
        (.handshakeBegins engineId :: ranks.map (fun rank => .handshakeRank (answers rank)) ++
          [.handshakeEnds]) =
      .ok
        { connector with
          receiving := worker.receiving.handshakeDone connector.receiving engineId answers } := by
  have begun : worker.step connector (.handshakeBegins engineId) =
      .ok { connector with shaking := some ⟨engineId, future.tpSize, ranks, ∅⟩ } := by
    rw [step, idle, waited]
    simp only [handshakeBegins, isRanks]
  obtain ⟨_, others, targeted, loop⟩ := Attempt.bind_eq_ok.mp ran
  obtain ⟨rfl, isOthers⟩ := Attempt.lift_eq_ok.mp targeted
  obtain rfl := Except.ok.inj (isRanks.symm.trans isOthers)
  have ranksDone := @exec_handshakeRanks ω worker
    { connector with shaking := some ⟨engineId, future.tpSize, ranks, ∅⟩ } answers engineId
    _ _ _ _ _ rfl loop
  rw [List.cons_append, Run.exec_cons begun, Run.exec_snoc_eq_ok]
  refine ⟨_, ranksDone, ?_⟩
  rw [step, ReceivingWorker.handshakeDone]
  simp only [handshakeEnds, handshakeOver, waited, ran, idle]
  rfl

end Uninterrupted

/-! ## A worker with one layer -/

/-- The lone worker on a library that numbers what it gives out. -/
def numberingWorker : NixlConnectorWorker ℕ where
  receiving :=
    { handshakes := HandshakeWorker.loneWorker
        { addRemoteAgent := fun world metadata =>
            (world, .ok (String.singleton (Char.ofNat metadata.size)))
          prepXferDlist := fun world agent _ => (world + 1, .ok ⟨agent, world⟩) }
      nixl :=
        { sendNotif := fun world _ _ => (world, .ok ())
          makePreppedXfer := fun world _ _ _ _ _ => (world + 1, .ok world)
          transfer := fun world _ => (world, .ok ())
          releaseXferHandle := fun world _ => world }
      blockWindowPerLayer := []
      kernel := .consecutive 1 Nat.one_pos }
  staging :=
    { nixl :=
        { addRemoteAgent := fun world _ => (world, .ok "consumer")
          sendNotif := fun world _ _ => (world, .ok ()) }
      kernel := .consecutive 1 Nat.one_pos
      chunkOverlapEnabled := true }
  memory :=
    { registerMemory := fun world _ => world
      deregisterMemory := fun world _ => world
      releaseDlistHandle := fun world _ => world
      removeRemoteAgent := fun world _ => world }

/-- The worker when its caches are registered. -/
def numberingStart : NixlConnector (WatchedNixl ℕ) :=
  (numberingWorker.watched.registerKvCaches (numberingWorker.watched.init 4 ⟨0, .empty⟩)).1

/-- A request is read from both ranks of the group of two. -/
def tidyRun : List NixlEvent :=
  [.loadRequest "request" ReceivingWorker.halvesRequest, .handshakeBegins "prefill",
    .handshakeRank (HandshakeWorker.halfGroup.answers 0),
    .handshakeRank (HandshakeWorker.halfGroup.answers 1), .handshakeEnds, .readReady,
    .getFinished (ReceivingWorker.allChecks .done) ReceivingWorker.listOrder]

theorem resources_balance_iff_tidyRun :
    ∃ final, Run.exec numberingWorker.watched.step numberingStart tidyRun = .ok final ∧
      (numberingWorker.watched.StaysBalanced Watched.ledger
          (numberingWorker.watched.shutdown final) [.shutdown] ↔
        Run.Throughout numberingWorker.watched.step numberingWorker.watched.KeepsTrack
            numberingStart tidyRun ∧
          (∀ shaking, final.shaking = some shaking → shaking.agents = ∅) ∧
          ∀ event ∈ [ShutEvent.shutdown], ¬ event.IsRank) := by
  have goes : (Run.exec numberingWorker.watched.step numberingStart tidyRun).isOk = true := by
    decide +kernel
  have validates : Run.Throughout numberingWorker.watched.step numberingWorker.watched.Validates
      numberingStart tidyRun := by
    decide +kernel
  cases ran : Run.exec numberingWorker.watched.step numberingStart tidyRun with
  | ok final =>
      exact ⟨final, rfl, resources_balance_iff numberingWorker
        (fun world _ => ⟨world, "consumer", rfl⟩) (Prod.ext rfl rfl) ran validates rfl
        ⟨trivial, fun _ _ => trivial⟩⟩
  | error _ =>
      rw [ran] at goes
      cases goes

/-- A consumer registers. -/
def consumerRun : List NixlEvent :=
  [.saveKvToHost
    { NixlConnectorMetadata.init with
      consumerRegistrations := [(StagingWorker.registration "decode" "agent").payload] }]

/-- The only rank of an engine with blocks of half the size. -/
def smallAgent (engineId : EngineId) : HandshakePayload where
  compatibilityHash := "hash"
  agentMetadata := .ok
    { engineId
      agentMetadata := ⟨#[0]⟩
      deviceId := 0
      kvCachesBaseAddr := [5000]
      numBlocks := 3
      blockLens := [16]
      kvCacheLayout := "HND"
      blockSize := 2 }

/-- A request whose blocks are with an engine of one rank. -/
def smallRequest (engineId : EngineId) : ReqMeta where
  localBlockIds := [0]
  localPhysicalBlockIds := [0]
  tpSize := 1
  remote := some
    { blockIds := [1], host := "host", port := 5600, engineId, requestId := "remote" }

/-- The handshake with an engine that has smaller blocks. -/
def smallHandshake (reqId : ReqId) (engineId : EngineId) : List NixlEvent :=
  [.loadRequest reqId (smallRequest engineId), .handshakeBegins engineId,
    .handshakeRank (.ok (smallAgent engineId)), .handshakeEnds]

/-- Two engines with the same smaller blocks. -/
def smallRun : List NixlEvent :=
  smallHandshake "first" "left" ++ smallHandshake "second" "right"

/-- A request waits for its handshake when `shutdown` is called. -/
def queuedRun : List NixlEvent :=
  [.loadRequest "request" (smallRequest "left")]

/-- The handshake goes on, and adds the agent of its only rank. -/
def lateHandshake : List ShutEvent :=
  [.handshakeBegins "left", .handshakeRank (.ok (smallAgent "left")), .handshakeEnds]

/-- The agent of the consumer and the list that was written over are never given back, and neither
is what a handshake adds that goes on. -/
theorem not_resources_balance :
    (∃ final, Run.exec numberingWorker.watched.step numberingStart consumerRun = .ok final ∧
      Run.Throughout numberingWorker.watched.step numberingWorker.watched.Validates numberingStart
        consumerRun ∧
      ¬ (numberingWorker.watched.shutdown final).world.ledger.Balanced) ∧
    (∃ final, Run.exec numberingWorker.watched.step numberingStart smallRun = .ok final ∧
      Run.Throughout numberingWorker.watched.step numberingWorker.watched.Validates numberingStart
        smallRun ∧
      ¬ (numberingWorker.watched.shutdown final).world.ledger.Balanced) ∧
    ∃ final last, Run.exec numberingWorker.watched.step numberingStart queuedRun = .ok final ∧
      Run.exec numberingWorker.watched.shutStep (numberingWorker.watched.shutdown final)
        lateHandshake = .ok last ∧ ¬ last.world.ledger.Balanced := by
  have unbalanced : ∀ {connector : NixlConnector (WatchedNixl ℕ)} {resource : NixlResource},
      decide (connector.world.ledger.released.count resource ≠
        connector.world.ledger.acquired.count resource) = true →
      ¬ connector.world.ledger.Balanced :=
    fun {_ resource} differs balanced => of_decide_eq_true differs (balanced resource)
  have leaks : ∀ (events : List NixlEvent) (resource : NixlResource),
      (Run.exec numberingWorker.watched.step numberingStart events).toOption.any (fun final =>
        let ledger := (numberingWorker.watched.shutdown final).world.ledger
        decide (ledger.released.count resource ≠ ledger.acquired.count resource)) = true →
      ∃ final, Run.exec numberingWorker.watched.step numberingStart events = .ok final ∧
        ¬ (numberingWorker.watched.shutdown final).world.ledger.Balanced := by
    intro events resource differs
    obtain ⟨final, ran, differs⟩ := Run.exists_of_any differs
    exact ⟨final, ran, unbalanced differs⟩
  refine ⟨?_, ?_, ?_⟩
  · obtain ⟨final, ran, unbalanced⟩ :=
      leaks consumerRun (.remoteAgent "consumer") (by decide +kernel)
    exact ⟨final, ran, by decide +kernel, unbalanced⟩
  · obtain ⟨final, ran, unbalanced⟩ :=
      leaks smallRun (.dlistHandle ⟨nixlInitAgent, 2⟩) (by decide +kernel)
    exact ⟨final, ran, by decide +kernel, unbalanced⟩
  · have goes : (Run.exec numberingWorker.watched.step numberingStart queuedRun).toOption.any
        (fun final => (Run.exec numberingWorker.watched.shutStep
          (numberingWorker.watched.shutdown final) lateHandshake).toOption.any fun last =>
            let ledger := last.world.ledger
            decide (ledger.released.count (.remoteAgent "\x01") ≠
              ledger.acquired.count (.remoteAgent "\x01"))) = true := by decide +kernel
    obtain ⟨final, ran, goes⟩ := Run.exists_of_any goes
    obtain ⟨last, ended, differs⟩ := Run.exists_of_any goes
    exact ⟨final, last, ran, ended, unbalanced differs⟩

end NixlConnectorWorker

end RduHdi
