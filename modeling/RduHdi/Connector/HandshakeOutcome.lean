import RduHdi.Connector.HandshakeRun

/-!
# The outcome of a handshake

Whether a handshake succeeds depends on the sizes that are recorded and on the agents that are
known, and on nothing else in the tables.
-/

namespace RduHdi

/-- What NIXL answers depends on what it is asked, and any list can be prepared. -/
structure NixlHandshaker.Steady {ω : Type*} (nixl : NixlHandshaker ω) : Prop where
  /-- What adding an agent answers does not depend on the state of the library. -/
  add : ∀ world other metadata,
    (nixl.addRemoteAgent world metadata).2 = (nixl.addRemoteAgent other metadata).2
  /-- Lists can be prepared. -/
  prep : ∀ world agent descs, ∃ handle, (nixl.prepXferDlist world agent descs).2 = .ok handle

namespace HandshakeWorker

open Attempt (Alike Triple)

variable {ω : Type} {worker : HandshakeWorker ω}

/-- The tables agree on everything that the outcome of a handshake depends on. -/
def SameSizes (tables others : Handshakes ω) : Prop :=
  tables.tpSize = others.tpSize ∧ tables.blockSize = others.blockSize ∧
    tables.dstNumBlocks = others.dstNumBlocks ∧ tables.remoteAgents = others.remoteAgents

theorem SameSizes.symm {tables others : Handshakes ω} (same : SameSizes tables others) :
    SameSizes others tables :=
  ⟨same.1.symm, same.2.1.symm, same.2.2.1.symm, same.2.2.2.symm⟩

/-- A computation succeeds in two tables that agree, or in neither. -/
abbrev Steadily {α : Type} (same : α → α → Prop) (job : Job ω α) : Prop :=
  Alike SameSizes same job job

theorem tpRatioFromEngineId_steadily (engineId : EngineId) :
    Steadily (· = ·) (worker.tpRatioFromEngineId engineId) :=
  .readOk fun tables others same => by rw [same.1]

theorem blockSizeRatioFromEngineId_steadily (engineId : EngineId) :
    Steadily (· = ·) (worker.blockSizeRatioFromEngineId engineId) :=
  .readOk fun tables others same => by rw [same.2.1]

theorem isKvReplicated_steadily (engineId : EngineId) :
    Steadily (· = ·) (worker.isKvReplicated engineId) :=
  .readOk fun tables others same => by rw [same.1]

theorem prepXferDlist_steadily (steady : worker.nixl.Steady) (name : AgentName)
    (descs : List XferDesc) : Steadily (fun _ _ => True) (worker.prepXferDlist name descs) := by
  apply Alike.of_returns
  · intro tables others same
    obtain ⟨handle, isHandle⟩ := steady.prep tables.world name descs
    exact ⟨_, handle, Prod.ext rfl isHandle, same⟩
  · intro tables others same
    obtain ⟨handle, isHandle⟩ := steady.prep others.world name descs
    exact ⟨_, handle, Prod.ext rfl isHandle, same⟩

/-- Whether or not the own chunks are there, there are in the end. -/
theorem splitLocalMemory_steadily (steady : worker.nixl.Steady) (tpRatio : ℤ) :
    Steadily (fun _ _ => True) (worker.splitLocalMemory tpRatio) := by
  have prep (tables : Handshakes ω) (descs : List XferDesc) : Triple (SameSizes tables)
      (worker.prepXferDlist nixlInitAgent descs) (fun _ => SameSizes tables) fun _ => False := by
    intro others same
    obtain ⟨handle, isHandle⟩ := steady.prep others.world nixlInitAgent descs
    rw [prepXferDlist]
    cases outcome : worker.nixl.prepXferDlist others.world nixlInitAgent descs with
    | mk world result =>
        rw [outcome] at isHandle
        obtain rfl : result = .ok handle := isHandle
        exact same
  have look (tables : Handshakes ω) : Triple (SameSizes tables)
      (Attempt.read fun tables => decide (tpRatio ∈ tables.srcXferHandlesByTpRatio) : Job ω Bool)
      (fun _ => SameSizes tables) fun _ => False :=
    .read fun _ same => same
  have returns (tables : Handshakes ω) : Triple (SameSizes tables)
      (worker.splitLocalMemory tpRatio) (fun _ => SameSizes tables) fun _ => False := by
    refine .bind (look tables) fun known => ?_
    split
    · have start : Triple (SameSizes tables)
          (Attempt.write fun tables =>
            { tables with
              srcXferHandlesByTpRatio := tables.srcXferHandlesByTpRatio.set tpRatio [] } :
            Job ω PUnit)
          (fun _ => SameSizes tables) fun _ => False :=
        .write fun _ same => same
      refine .bind start fun _ => Triple.forEach_same (fun index => ?_) _
      exact .bind (prep tables _) fun handle => .write fun _ same => same
    · exact .pure fun _ same => same
  have ends (tables others : Handshakes ω) (same : SameSizes tables others) :
      ∃ next, worker.splitLocalMemory tpRatio others = (next, .ok ⟨⟩) ∧ SameSizes tables next := by
    have met := returns tables others same
    cases ran : worker.splitLocalMemory tpRatio others with
    | mk next result =>
        rw [ran] at met
        cases result with
        | ok _ => exact ⟨next, rfl, met⟩
        | error raised => exact met.elim
  apply Alike.of_returns
  · intro tables others same
    obtain ⟨next, ran, stays⟩ := ends others tables same.symm
    exact ⟨next, ⟨⟩, ran, stays.symm⟩
  · intro tables others same
    obtain ⟨next, ran, stays⟩ := ends tables others same
    exact ⟨next, ⟨⟩, ran, stays⟩

theorem checkSizes_steadily (agent : NixlAgentMetadata) (remoteTpSize : ℕ) :
    Steadily (· = ·) (worker.checkSizes agent remoteTpSize) := by
  refine .bind_same (.require fun tables others same => by rw [same.1]) fun _ => ?_
  exact .bind_same (tpRatioFromEngineId_steadily _) fun _ =>
    .bind_same (blockSizeRatioFromEngineId_steadily _) fun _ =>
    .bind_same (isKvReplicated_steadily _) fun _ =>
    .bind_same (.require fun _ _ _ => Iff.rfl) fun _ => .pure rfl

theorem validateRemoteAgentHandshake_steadily (agent : NixlAgentMetadata) (remoteTpSize : ℕ) :
    Steadily (· = ·) (worker.validateRemoteAgentHandshake agent remoteTpSize) := by
  have layout : Steadily (· = ·) (worker.checkLayout agent) := by
    rw [checkLayout]
    split
    · split
      · exact .write rfl fun _ _ same => same
      · exact .raise
    · exact .pure rfl
  refine .bind_same (checkSizes_steadily agent remoteTpSize) fun ratios =>
    .bind_same layout fun _ => .bind_same .lift fun _ => .bind_same ?_ fun _ =>
    .require fun _ _ _ => Iff.rfl
  exact .require fun tables others same => by rw [same.2.2.1]

theorem registerAgent_steadily (steady : worker.nixl.Steady) (agent : NixlAgentMetadata)
    (remoteTpRank remoteTpSize : ℕ) :
    Steadily (· = ·) (worker.registerAgent agent remoteTpRank remoteTpSize) := by
  have add : Steadily (· = ·) (worker.nixlAddRemoteAgent agent.agentMetadata) := by
    intro tables others same
    have answer := steady.add tables.world others.world agent.agentMetadata
    rw [nixlAddRemoteAgent, nixlAddRemoteAgent]
    cases outcome : worker.nixl.addRemoteAgent tables.world agent.agentMetadata with
    | mk world result =>
        cases other : worker.nixl.addRemoteAgent others.world agent.agentMetadata with
        | mk otherWorld otherResult =>
            rw [outcome, other] at answer
            obtain rfl : result = otherResult := answer
            cases result with
            | ok name => exact ⟨same, rfl⟩
            | error raised => trivial
  refine .bind_same (.write rfl ?_) fun _ => .bind_same add fun name =>
    .bind_same (blockSizeRatioFromEngineId_steadily _) fun ratio =>
    .bind_same (.write rfl ?_) fun _ => .pure rfl
  · rintro tables others ⟨tpSize, blockSize, rest⟩
    refine ⟨?_, ?_, rest⟩
    · rw [recordSizes, recordSizes, tpSize]
    · rw [recordSizes, recordSizes, blockSize]
  · rintro tables others ⟨tpSize, blockSize, dstNumBlocks, remoteAgents⟩
    refine ⟨tpSize, blockSize, ?_, remoteAgents⟩
    rw [recordCaches, recordCaches, dstNumBlocks]

theorem prepareRemote_steadily (steady : worker.nixl.Steady) (agent : NixlAgentMetadata)
    (remoteTpSize : ℕ) (name : AgentName) (blockSizeRatio : ℕ) :
    Steadily (fun _ _ => True) (worker.prepareRemote agent remoteTpSize name blockSizeRatio) := by
  refine .bind_same (validateRemoteAgentHandshake_steadily agent remoteTpSize) fun _ =>
    .bind_same (tpRatioFromEngineId_steadily _) fun tpRatio =>
    .bind_same (isKvReplicated_steadily _) fun replicated =>
    .bind (splitLocalMemory_steadily steady tpRatio) fun _ _ _ => .bind_same .lift fun descs => ?_
  exact prepXferDlist_steadily steady name descs

theorem keepHandles_alike (steady : worker.nixl.Steady) (agent : NixlAgentMetadata)
    (remoteTpRank blockSizeRatio : ℕ) (handle other : SideHandle) :
    Alike SameSizes (· = ·) (worker.keepHandles agent remoteTpRank blockSizeRatio handle)
      (worker.keepHandles agent remoteTpRank blockSizeRatio other) := by
  refine .bind_same (.write rfl fun _ _ same => same) fun _ => ?_
  split
  · have own : Steadily (fun _ _ => True) (worker.registerLocalXferHandler agent.blockSize) :=
      .bind_same .lift fun ratio => .bind_same (.require fun _ _ _ => Iff.rfl) fun _ =>
        prepXferDlist_steadily steady _ _
    exact .bind own fun own another _ => .write rfl fun _ _ same => same
  · exact .pure rfl

theorem addRemoteAgent_steadily (steady : worker.nixl.Steady) (agent : NixlAgentMetadata)
    (remoteTpRank remoteTpSize : ℕ) :
    Steadily (· = ·) (worker.addRemoteAgent agent remoteTpRank remoteTpSize) := by
  refine .bind_same (.read fun tables others same => by rw [same.2.2.2]) fun known => ?_
  cases known with
  | some name => exact .pure rfl
  | none =>
      refine .bind_same (registerAgent_steadily steady agent remoteTpRank remoteTpSize)
        fun ⟨name, ratio⟩ => .bind (prepareRemote_steadily steady agent remoteTpSize name ratio)
        fun handle other _ => ?_
      exact .bind_same (keepHandles_alike steady agent remoteTpRank ratio handle other) fun _ =>
        .pure rfl

theorem handshakeRanks_steadily (steady : worker.nixl.Steady)
    (answers : ℕ → Except PyError HandshakePayload) (remoteTpSize : ℕ)
    (expectedEngineId : EngineId) (ranks : List ℕ) (agents : Dict ℕ AgentName) :
    Steadily (· = ·)
      (worker.handshakeRanks answers remoteTpSize expectedEngineId ranks agents) := by
  induction ranks generalizing agents with
  | nil => exact .pure rfl
  | cons rank ranks ih =>
      exact .bind_same .lift fun payload => .bind_same .lift fun agent =>
        .bind_same (addRemoteAgent_steadily steady agent rank remoteTpSize) fun name => ih _

theorem nixlHandshake_steadily (steady : worker.nixl.Steady) (event : HandshakeEvent) :
    Steadily (· = ·)
      (worker.nixlHandshake event.answers event.remoteTpSize event.engineId) :=
  .bind_same .lift fun ranks => handshakeRanks_steadily steady _ _ _ ranks _

/-- A handshake with an engine would succeed. -/
def Succeeds (worker : HandshakeWorker ω) (tables : Handshakes ω) (event : HandshakeEvent) : Prop :=
  ∃ agents, (worker.nixlHandshake event.answers event.remoteTpSize event.engineId tables).2 =
    .ok agents

end HandshakeWorker

end RduHdi
