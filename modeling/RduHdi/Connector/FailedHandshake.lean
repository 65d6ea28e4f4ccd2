import RduHdi.Connector.HandshakeOutcome
import RduHdi.Connector.ReadAddresses

/-!
# Handshakes that fail

A handshake writes what it learns before it checks it, and takes nothing back when it fails.  This
file says exactly which failed handshakes leave the tables as they were: those whose first rank is
refused when everything that was written for it was there already.
-/

namespace RduHdi

/-- The tables of the engines are as before. -/
structure NoTrace {ω : Type*} (before after : Handshakes ω) : Prop where
  /-- The group size is as before. -/
  tpSize : after.tpSize = before.tpSize
  /-- So is the block size. -/
  blockSize : after.blockSize = before.blockSize
  /-- So is the number of blocks. -/
  dstNumBlocks : after.dstNumBlocks = before.dstNumBlocks
  /-- So are the addresses. -/
  kvCachesBaseAddr : after.kvCachesBaseAddr = before.kvCachesBaseAddr
  /-- So are the handles. -/
  dstXferSideHandles : after.dstXferSideHandles = before.dstXferSideHandles
  /-- No permutation was asked for. -/
  enablePermuteLocalKv : after.enablePermuteLocalKv = before.enablePermuteLocalKv

/-- The tables of the engines but for the permutation. -/
def Handshakes.records {ω : Type*} (tables : Handshakes ω) :
    Dict EngineId ℕ × Dict EngineId ℕ × Dict EngineId ℕ × Dict EngineId (Dict ℕ (List ℕ)) ×
      Dict EngineId (Dict ℕ SideHandle) :=
  (tables.tpSize, tables.blockSize, tables.dstNumBlocks, tables.kvCachesBaseAddr,
    tables.dstXferSideHandles)

theorem noTrace_iff {ω : Type*} {before after : Handshakes ω} :
    NoTrace before after ↔
      after.records = before.records ∧
        after.enablePermuteLocalKv = before.enablePermuteLocalKv := by
  simp only [Handshakes.records, Prod.mk.injEq]
  constructor
  · exact fun clean => ⟨⟨clean.tpSize, clean.blockSize, clean.dstNumBlocks,
      clean.kvCachesBaseAddr, clean.dstXferSideHandles⟩, clean.enablePermuteLocalKv⟩
  · rintro ⟨⟨tpSize, blockSize, dstNumBlocks, kvCachesBaseAddr, dstXferSideHandles⟩, permutes⟩
    exact ⟨tpSize, blockSize, dstNumBlocks, kvCachesBaseAddr, dstXferSideHandles, permutes⟩

/-- The library issues new handles; an issued handle goes on being one. -/
structure NixlHandshaker.Issues {ω : Type*} (nixl : NixlHandshaker ω)
    (issued : ω → SideHandle → Prop) : Prop where
  /-- A handle is given out once. -/
  fresh : ∀ {world next agent descs handle},
    nixl.prepXferDlist world agent descs = (next, .ok handle) → ¬ issued world handle
  /-- What was given out stays so, whatever is prepared. -/
  prep_keeps : ∀ world agent descs handle, issued world handle →
    issued (nixl.prepXferDlist world agent descs).1 handle
  /-- What was given out stays so, whatever agent is added. -/
  add_keeps : ∀ world metadata handle, issued world handle →
    issued (nixl.addRemoteAgent world metadata).1 handle

theorem Dict.setAt_eq_self {α : Type*} {dict : Dict EngineId (Dict ℕ α)} {engineId : EngineId}
    {rank : ℕ} {value : α} :
    Dict.setAt dict engineId rank value = dict ↔
      Dict.lookupAt dict engineId rank = some value := by
  constructor
  · intro same
    rw [← same, Dict.lookupAt_setAt_self]
  · intro known
    rw [Dict.lookupAt] at known
    cases inner : dict.lookup engineId with
    | none =>
        rw [inner] at known
        cases known
    | some ranks =>
        rw [inner, Option.getD_some] at known
        rw [Dict.setAt, inner, Option.getD_some, AList.set_eq_self known, AList.set_eq_self inner]

namespace HandshakeWorker

open Attempt (Keeps)

variable {ω : Type} (worker : HandshakeWorker ω)

/-- Validation of the metadata gets to the layouts and asks for a permutation. -/
structure AsksPermutation (tables : Handshakes ω) (agent : NixlAgentMetadata)
    (remoteTpSize : ℕ) : Prop where
  /-- The sizes fit. -/
  supported : ∃ ratios, (worker.checkSizes agent remoteTpSize tables).2 = .ok ratios
  /-- The layouts differ. -/
  differs : worker.LayoutDiffers agent
  /-- Permutations are enabled. -/
  enabled : worker.enablePermuteLocalKv
  /-- The remote layout is HND. -/
  isHnd : agent.kvCacheLayout = "HND"

/-- What is written for the metadata of a rank up to its refusal was there already, and the
metadata is refused: by the library, for its block size, by validation, or because its lists
cannot be prepared. -/
structure Harmless (before : Handshakes ω) (agent : NixlAgentMetadata)
    (remoteTpRank remoteTpSize : ℕ) : Prop where
  /-- The group size is known. -/
  tpSize : agent.engineId ∈ before.tpSize
  /-- So is the block size. -/
  blockSize : agent.engineId ∈ before.blockSize
  /-- So is the number of blocks, when the rank gets as far. -/
  dstNumBlocks : ∀ {world name ratio},
    worker.nixl.addRemoteAgent before.world agent.agentMetadata = (world, .ok name) →
    (worker.blockSizeRatioFromEngineId agent.engineId before).2 = .ok ratio →
    agent.engineId ∈ before.dstNumBlocks
  /-- So are its addresses, when it gets as far. -/
  kvCachesBaseAddr : ∀ {world name ratio},
    worker.nixl.addRemoteAgent before.world agent.agentMetadata = (world, .ok name) →
    (worker.blockSizeRatioFromEngineId agent.engineId before).2 = .ok ratio →
    Dict.lookupAt before.kvCachesBaseAddr agent.engineId remoteTpRank =
      some agent.kvCachesBaseAddr
  /-- A permutation was asked for before, if it asks for one. -/
  permutes : ∀ {world name ratio},
    worker.nixl.addRemoteAgent before.world agent.agentMetadata = (world, .ok name) →
    (worker.blockSizeRatioFromEngineId agent.engineId before).2 = .ok ratio →
    worker.AsksPermutation { before with world } agent remoteTpSize →
      before.enablePermuteLocalKv = true
  /-- Nothing was prepared for it, if it is refused in the end. -/
  refused : ∀ {world name ratio},
    worker.nixl.addRemoteAgent before.world agent.agentMetadata = (world, .ok name) →
    (worker.blockSizeRatioFromEngineId agent.engineId before).2 = .ok ratio →
    (worker.validateRemoteAgentHandshake agent remoteTpSize { before with world }).2 = .ok ⟨⟩ →
    ∀ handle, (worker.prepareLists agent name ratio { before with world }).2 ≠ .ok handle

/-! ## What the stages write -/

/-- Validation switches the permutation on when it asks for it. -/
theorem validateRemoteAgentHandshake_state (agent : NixlAgentMetadata) (remoteTpSize : ℕ)
    (tables : Handshakes ω) :
    (worker.AsksPermutation tables agent remoteTpSize →
        (worker.validateRemoteAgentHandshake agent remoteTpSize tables).1 =
          { tables with enablePermuteLocalKv := true }) ∧
      (¬ worker.AsksPermutation tables agent remoteTpSize →
        (worker.validateRemoteAgentHandshake agent remoteTpSize tables).1 = tables) := by
  rw [validateRemoteAgentHandshake,
    Attempt.bind_of_same (worker.checkSizes_state agent remoteTpSize tables)]
  cases sizes : (worker.checkSizes agent remoteTpSize tables).2 with
  | error raised =>
      refine ⟨fun asks => ?_, fun _ => rfl⟩
      obtain ⟨ratios, passed⟩ := asks.supported
      cases sizes.symm.trans passed
  | ok ratios =>
      simp only
      rw [Attempt.state_bind_of_same, checkLayout]
      · constructor
        · intro asks
          rw [if_pos asks.differs, if_pos ⟨asks.enabled, asks.isHnd⟩]
          rfl
        · intro never
          split
          · rename_i differs
            split
            · rename_i permitted
              exact absurd ⟨⟨ratios, sizes⟩, differs, permitted.1, permitted.2⟩ never
            · rfl
          · rfl
      · intro _ state
        have looks : Keeps (· = state) (Attempt.lift (worker.checkBlockLens agent ratios.replicated
            ratios.tpRatio ratios.blockSizeRatio) >>= fun _ =>
          Attempt.require (fun tables =>
            tables.dstNumBlocks.lookup agent.engineId = some agent.numBlocks) .assertionError >>=
          fun _ => Attempt.require (fun _ =>
            agent.kvCachesBaseAddr.length = worker.caches.blockLenPerLayer.length)
              .assertionError : Job ω PUnit) :=
          .bind (.of_same fun _ => rfl) fun _ => .bind (.of_same fun _ => rfl) fun _ =>
            .of_same fun _ => rfl
        exact looks state rfl

variable {worker}

theorem splitLocalMemory_keeps {invariant : Handshakes ω → Prop}
    (world : ∀ tables name descs, invariant tables →
      invariant { tables with world := (worker.nixl.prepXferDlist tables.world name descs).1 })
    (chunks : ∀ tables handles, invariant tables →
      invariant { tables with srcXferHandlesByTpRatio := handles }) (tpRatio : ℤ) :
    Keeps invariant (worker.splitLocalMemory tpRatio) := by
  refine .bind (.of_same fun _ => rfl) fun known => ?_
  split
  · refine .bind (.write fun tables holds => chunks tables _ holds) fun _ => .forEach ?_ _
    intro index
    refine .bind ?_ fun handle => .write fun tables holds => chunks tables _ holds
    exact fun tables holds => world tables _ _ holds
  · exact .of_same fun _ => rfl

theorem prepareLists_keeps {invariant : Handshakes ω → Prop}
    (world : ∀ tables name descs, invariant tables →
      invariant { tables with world := (worker.nixl.prepXferDlist tables.world name descs).1 })
    (chunks : ∀ tables handles, invariant tables →
      invariant { tables with srcXferHandlesByTpRatio := handles })
    (agent : NixlAgentMetadata) (name : AgentName) (blockSizeRatio : ℕ) :
    Keeps invariant (worker.prepareLists agent name blockSizeRatio) := by
  refine .bind (.of_same fun _ => rfl) fun tpRatio => .bind (.of_same fun _ => rfl) fun _ => ?_
  refine .bind (splitLocalMemory_keeps world chunks tpRatio) fun _ =>
    .bind (.of_same fun _ => rfl) fun _ => ?_
  exact fun tables holds => world tables _ _ holds

/-- The handle of a remote rank is a new one. -/
theorem prepareLists_fresh {issued : ω → SideHandle → Prop} (issues : worker.nixl.Issues issued)
    {agent : NixlAgentMetadata} {name : AgentName} {blockSizeRatio : ℕ}
    {tables next : Handshakes ω} {handle : SideHandle}
    (prepared : worker.prepareLists agent name blockSizeRatio tables = (next, .ok handle)) :
    ¬ issued tables.world handle := by
  obtain ⟨first, tpRatio, asked, prepared⟩ := Attempt.bind_eq_ok.mp prepared
  obtain ⟨rfl, _⟩ := Attempt.readOk_eq_ok.mp asked
  obtain ⟨source, _, asked, prepared⟩ := Attempt.bind_eq_ok.mp prepared
  obtain ⟨rfl, _⟩ := Attempt.readOk_eq_ok.mp asked
  obtain ⟨split, _, chunked, prepared⟩ := Attempt.bind_eq_ok.mp prepared
  obtain ⟨_, descs, built, prepared⟩ := Attempt.bind_eq_ok.mp prepared
  obtain ⟨rfl, _⟩ := Attempt.lift_eq_ok.mp built
  have grown : issued tables.world handle → issued split.world handle := by
    intro earlier
    have keeps : Keeps (fun tables => issued tables.world handle)
        (worker.splitLocalMemory tpRatio) :=
      splitLocalMemory_keeps
        (fun tables name descs => issues.prep_keeps tables.world name descs handle)
        (fun _ _ holds => holds) tpRatio
    have kept := keeps tables earlier
    rwa [chunked] at kept
  have isNew : ¬ issued split.world handle :=
    issues.fresh (Prod.ext rfl (congrArg Prod.snd prepared :
      (worker.nixl.prepXferDlist split.world name descs).2 = .ok handle))
  exact fun earlier => isNew (grown earlier)

theorem recordSizes_eq_self {agent : NixlAgentMetadata} {remoteTpSize : ℕ}
    {tables : Handshakes ω} (tpSize : agent.engineId ∈ tables.tpSize)
    (blockSize : agent.engineId ∈ tables.blockSize) :
    recordSizes agent remoteTpSize tables = tables := by
  rw [recordSizes, AList.setDefault_eq_self.mpr tpSize, AList.setDefault_eq_self.mpr blockSize]

theorem recordCaches_eq_self {agent : NixlAgentMetadata} {remoteTpRank : ℕ}
    {tables : Handshakes ω} (dstNumBlocks : agent.engineId ∈ tables.dstNumBlocks)
    (kvCachesBaseAddr : Dict.lookupAt tables.kvCachesBaseAddr agent.engineId remoteTpRank =
      some agent.kvCachesBaseAddr) :
    recordCaches agent remoteTpRank tables = tables := by
  rw [recordCaches, AList.setDefault_eq_self.mpr dstNumBlocks,
    Dict.setAt_eq_self.mpr kvCachesBaseAddr]

section RegisterAgent

variable {agent : NixlAgentMetadata} {remoteTpRank remoteTpSize : ℕ} {before next : Handshakes ω}

theorem recordSizes_records_iff {world : ω} :
    ({ recordSizes agent remoteTpSize before with world } : Handshakes ω).records =
        before.records ↔
      agent.engineId ∈ before.tpSize ∧ agent.engineId ∈ before.blockSize := by
  simp only [Handshakes.records, recordSizes, Prod.mk.injEq, AList.setDefault_eq_self, and_true]

theorem recordAgent_records_iff {world : ω} :
    (recordCaches agent remoteTpRank
        { recordSizes agent remoteTpSize before with world }).records = before.records ↔
      agent.engineId ∈ before.tpSize ∧ agent.engineId ∈ before.blockSize ∧
        agent.engineId ∈ before.dstNumBlocks ∧
        Dict.lookupAt before.kvCachesBaseAddr agent.engineId remoteTpRank =
          some agent.kvCachesBaseAddr := by
  simp only [Handshakes.records, recordCaches, recordSizes, Prod.mk.injEq,
    AList.setDefault_eq_self, Dict.setAt_eq_self, and_true]

theorem nixlAddRemoteAgent_eq {agentMetadata : ByteArray} {tables : Handshakes ω}
    {result : Except PyError AgentName} :
    worker.nixlAddRemoteAgent agentMetadata tables = (next, result) ↔
      ∃ world, worker.nixl.addRemoteAgent tables.world agentMetadata = (world, result) ∧
        { tables with world } = next := by
  rw [nixlAddRemoteAgent]
  cases worker.nixl.addRemoteAgent tables.world agentMetadata with
  | mk world outcome => simp [and_comm]

theorem registerAgent_eq_ok {name : AgentName} {ratio : ℕ}
    (ran : worker.registerAgent agent remoteTpRank remoteTpSize before =
      (next, .ok (name, ratio))) :
    ∃ world, worker.nixl.addRemoteAgent before.world agent.agentMetadata = (world, .ok name) ∧
      (worker.blockSizeRatioFromEngineId agent.engineId
        (recordSizes agent remoteTpSize before)).2 = .ok ratio ∧
      next =
        recordCaches agent remoteTpRank { recordSizes agent remoteTpSize before with world } := by
  obtain ⟨_, _, recorded, ran⟩ := Attempt.bind_eq_ok.mp ran
  obtain rfl := Attempt.write_eq_ok.mp recorded
  obtain ⟨_, _, added, ran⟩ := Attempt.bind_eq_ok.mp ran
  obtain ⟨world, isAdded, rfl⟩ := nixlAddRemoteAgent_eq.mp added
  obtain ⟨_, _, asked, ran⟩ := Attempt.bind_eq_ok.mp ran
  obtain ⟨rfl, isRatio⟩ := Attempt.readOk_eq_ok.mp asked
  obtain ⟨_, _, recorded, ran⟩ := Attempt.bind_eq_ok.mp ran
  obtain rfl := Attempt.write_eq_ok.mp recorded
  obtain ⟨rfl, same⟩ := Attempt.pure_eq_ok.mp ran
  obtain ⟨rfl, rfl⟩ := Prod.mk.inj same
  exact ⟨world, isAdded, isRatio, rfl⟩

theorem registerAgent_eq_error {raised : PyError}
    (ran : worker.registerAgent agent remoteTpRank remoteTpSize before = (next, .error raised)) :
    ∃ world, next = { recordSizes agent remoteTpSize before with world } ∧
      ∀ world name, worker.nixl.addRemoteAgent before.world agent.agentMetadata =
        (world, .ok name) → ∀ ratio, (worker.blockSizeRatioFromEngineId agent.engineId
          (recordSizes agent remoteTpSize before)).2 ≠ .ok ratio := by
  rcases Attempt.bind_eq_error.mp ran with never | ⟨_, _, recorded, ran⟩
  · exact absurd never Attempt.write_ne_error
  obtain rfl := Attempt.write_eq_ok.mp recorded
  rcases Attempt.bind_eq_error.mp ran with refused | ⟨_, name, added, ran⟩
  · obtain ⟨world, isRefused, rfl⟩ := nixlAddRemoteAgent_eq.mp refused
    refine ⟨world, rfl, fun _ _ isAdded => ?_⟩
    cases isRefused.symm.trans isAdded
  obtain ⟨world, isAdded, rfl⟩ := nixlAddRemoteAgent_eq.mp added
  rcases Attempt.bind_eq_error.mp ran with asked | ⟨_, _, _, ran⟩
  · obtain ⟨rfl, noRatio⟩ := Attempt.readOk_eq_error.mp asked
    refine ⟨world, rfl, fun _ _ _ ratio isRatio => ?_⟩
    cases noRatio.symm.trans isRatio
  · rcases Attempt.bind_eq_error.mp ran with never | ⟨_, _, _, ran⟩
    · exact absurd never Attempt.write_ne_error
    · exact absurd ran Attempt.pure_ne_error

end RegisterAgent

/-! ## The first rank -/

/-- The second part of `add_remote_agent` leaves the records, and the permutation as validation
leaves it. -/
theorem prepareRemote_records (agent : NixlAgentMetadata) (remoteTpSize : ℕ) (name : AgentName)
    (blockSizeRatio : ℕ) (tables : Handshakes ω) :
    (worker.prepareRemote agent remoteTpSize name blockSizeRatio tables).1.records =
        tables.records ∧
      (worker.prepareRemote agent remoteTpSize name blockSizeRatio tables).1.enablePermuteLocalKv =
        (worker.validateRemoteAgentHandshake agent remoteTpSize tables).1.enablePermuteLocalKv := by
  have validated : Keeps (fun next => next.records = tables.records)
      (worker.validateRemoteAgentHandshake agent remoteTpSize) :=
    worker.validateRemoteAgentHandshake_keeps (fun _ _ same => same) agent remoteTpSize
  have same : _ = tables.records := validated tables rfl
  rw [prepareRemote, Attempt.bind_run]
  cases ran : worker.validateRemoteAgentHandshake agent remoteTpSize tables with
  | mk middle result =>
      rw [ran] at same
      cases result with
      | error raised => exact ⟨same, rfl⟩
      | ok _ =>
          have prepares : Keeps (fun next => next.records = tables.records ∧
              next.enablePermuteLocalKv = middle.enablePermuteLocalKv)
              (worker.prepareLists agent name blockSizeRatio) :=
            prepareLists_keeps (fun _ _ _ kept => kept) (fun _ _ kept => kept) agent name
              blockSizeRatio
          exact prepares middle ⟨same, rfl⟩

theorem validateRemoteAgentHandshake_permutes {agent : NixlAgentMetadata} {remoteTpSize : ℕ}
    {tables : Handshakes ω} :
    (worker.validateRemoteAgentHandshake agent remoteTpSize tables).1.enablePermuteLocalKv =
        tables.enablePermuteLocalKv ↔
      (worker.AsksPermutation tables agent remoteTpSize → tables.enablePermuteLocalKv = true) := by
  obtain ⟨whenAsked, otherwise⟩ :=
    worker.validateRemoteAgentHandshake_state agent remoteTpSize tables
  rcases Classical.em (worker.AsksPermutation tables agent remoteTpSize) with asks | never
  · rw [whenAsked asks]
    exact ⟨fun same _ => same.symm, fun on => (on asks).symm⟩
  · rw [otherwise never]
    exact ⟨fun _ asks => absurd asks never, fun _ => rfl⟩

theorem validateRemoteAgentHandshake_same {agent : NixlAgentMetadata} {remoteTpSize : ℕ}
    {tables : Handshakes ω}
    (permutes : worker.AsksPermutation tables agent remoteTpSize →
      tables.enablePermuteLocalKv = true) :
    (worker.validateRemoteAgentHandshake agent remoteTpSize tables).1 = tables := by
  obtain ⟨whenAsked, otherwise⟩ :=
    worker.validateRemoteAgentHandshake_state agent remoteTpSize tables
  rcases Classical.em (worker.AsksPermutation tables agent remoteTpSize) with asks | never
  · rw [whenAsked asks, ← permutes asks]
  · exact otherwise never

theorem prepareRemote_fresh {issued : ω → SideHandle → Prop} (issues : worker.nixl.Issues issued)
    {agent : NixlAgentMetadata} {remoteTpSize : ℕ} {name : AgentName} {blockSizeRatio : ℕ}
    {tables next : Handshakes ω} {handle : SideHandle}
    (prepared : worker.prepareRemote agent remoteTpSize name blockSizeRatio tables =
      (next, .ok handle)) : ¬ issued tables.world handle := by
  obtain ⟨middle, _, validated, prepared⟩ := Attempt.bind_eq_ok.mp prepared
  have keeps : Keeps (fun next => next.world = tables.world)
      (worker.validateRemoteAgentHandshake agent remoteTpSize) :=
    worker.validateRemoteAgentHandshake_keeps (fun _ _ same => same) agent remoteTpSize
  have same := keeps tables rfl
  rw [validated] at same
  rw [← same]
  exact prepareLists_fresh issues prepared

section FirstRank

variable {agent : NixlAgentMetadata} {remoteTpRank remoteTpSize : ℕ} {before : Handshakes ω}

theorem recordAgent_eq_self {world : ω} (tpSize : agent.engineId ∈ before.tpSize)
    (blockSize : agent.engineId ∈ before.blockSize)
    (dstNumBlocks : agent.engineId ∈ before.dstNumBlocks)
    (kvCachesBaseAddr : Dict.lookupAt before.kvCachesBaseAddr agent.engineId remoteTpRank =
      some agent.kvCachesBaseAddr) :
    recordCaches agent remoteTpRank { recordSizes agent remoteTpSize before with world } =
      { before with world } := by
  rw [recordSizes_eq_self tpSize blockSize]
  exact recordCaches_eq_self dstNumBlocks kvCachesBaseAddr

/-- A rank whose list is prepared is not harmless, and its handle is new. -/
theorem not_harmless {issued : ω → SideHandle → Prop} (issues : worker.nixl.Issues issued)
    {name : AgentName} {ratio : ℕ} {middle next : Handshakes ω} {handle : SideHandle}
    (registered : worker.registerAgent agent remoteTpRank remoteTpSize before =
      (middle, .ok (name, ratio)))
    (prepared : worker.prepareRemote agent remoteTpSize name ratio middle = (next, .ok handle)) :
    ¬ issued before.world handle ∧ next.dstXferSideHandles = before.dstXferSideHandles ∧
      ¬ worker.Harmless before agent remoteTpRank remoteTpSize := by
  obtain ⟨world, added, isRatio, rfl⟩ := registerAgent_eq_ok registered
  refine ⟨fun earlier => ?_, ?_, fun harmless => ?_⟩
  · have grown := issues.add_keeps before.world agent.agentMetadata handle earlier
    rw [added] at grown
    exact prepareRemote_fresh issues prepared grown
  · have kept := worker.prepareRemote_records agent remoteTpSize name ratio
      (recordCaches agent remoteTpRank { recordSizes agent remoteTpSize before with world })
    rw [prepared] at kept
    exact congrArg (fun records => records.2.2.2.2) kept.1
  · rw [recordSizes_eq_self harmless.tpSize harmless.blockSize] at isRatio
    rw [recordAgent_eq_self harmless.tpSize harmless.blockSize
      (harmless.dstNumBlocks added isRatio) (harmless.kvCachesBaseAddr added isRatio)] at prepared
    obtain ⟨validated, _, passed, prepared⟩ := Attempt.bind_eq_ok.mp prepared
    have same : (worker.validateRemoteAgentHandshake agent remoteTpSize { before with world }).1 =
        { before with world } :=
      validateRemoteAgentHandshake_same (harmless.permutes added isRatio)
    rw [passed] at same
    subst same
    exact harmless.refused added isRatio (congrArg Prod.snd passed) handle
      (congrArg Prod.snd prepared)

theorem addRemoteAgent_of_unknown
    (unknown : Dict.lookupAt before.remoteAgents agent.engineId remoteTpRank = none) :
    worker.addRemoteAgent agent remoteTpRank remoteTpSize before =
      (worker.registerAgent agent remoteTpRank remoteTpSize >>= fun registered =>
        worker.prepareRemote agent remoteTpSize registered.1 registered.2 >>= fun handle =>
        worker.keepHandles agent remoteTpRank registered.2 handle >>= fun _ =>
        pure registered.1 : Job ω AgentName) before := by
  rw [Dict.lookupAt] at unknown
  rw [addRemoteAgent, Attempt.bind_run]
  simp only [Attempt.read, unknown]

/-- The last part of `add_remote_agent` records the list of the rank first of all. -/
theorem keepHandles_setAt (worker : HandshakeWorker ω) (agent : NixlAgentMetadata)
    (remoteTpRank ratio : ℕ) (handle : SideHandle) (tables : Handshakes ω) :
    (worker.keepHandles agent remoteTpRank ratio handle tables).1.dstXferSideHandles =
        Dict.setAt tables.dstXferSideHandles agent.engineId remoteTpRank handle ∧
      (worker.keepHandles agent remoteTpRank ratio handle tables).1.remoteAgents =
        tables.remoteAgents := by
  have own : Keeps (fun next => next.dstXferSideHandles =
      Dict.setAt tables.dstXferSideHandles agent.engineId remoteTpRank handle ∧
        next.remoteAgents = tables.remoteAgents)
      (if ratio > 1 then
        worker.registerLocalXferHandler agent.blockSize >>= fun own =>
        Attempt.write fun tables =>
          { tables with
            srcXferHandlesByBlockSize := tables.srcXferHandlesByBlockSize.set agent.blockSize own }
      else
        pure ⟨⟩ : Job ω PUnit) := by
    split
    · refine .bind (.bind (.of_same fun _ => rfl) fun _ => .bind (.of_same fun _ => rfl) fun _ =>
        fun _ same => same) fun _ => .write fun _ same => same
    · exact .of_same fun _ => rfl
  exact own _ ⟨rfl, rfl⟩

/-- The failed first rank of an engine leaves no trace exactly when it is harmless. -/
theorem addRemoteAgent_noTrace_iff {issued : ω → SideHandle → Prop}
    (issues : worker.nixl.Issues issued)
    (recorded : ∀ {engineId rank handle},
      Dict.lookupAt before.dstXferSideHandles engineId rank = some handle →
        issued before.world handle)
    (unknown : Dict.lookupAt before.remoteAgents agent.engineId remoteTpRank = none)
    {after : Handshakes ω} {raised : PyError}
    (failed : worker.addRemoteAgent agent remoteTpRank remoteTpSize before =
      (after, .error raised)) :
    NoTrace before after ↔ worker.Harmless before agent remoteTpRank remoteTpSize := by
  rw [addRemoteAgent_of_unknown unknown] at failed
  rcases Attempt.bind_eq_error.mp failed with refused | ⟨_, ⟨name, ratio⟩, registered, failed⟩
  · obtain ⟨world, rfl, noRatio⟩ := registerAgent_eq_error refused
    rw [noTrace_iff, recordSizes_records_iff]
    constructor
    · rintro ⟨⟨tpSize, blockSize⟩, -⟩
      rw [recordSizes_eq_self tpSize blockSize] at noRatio
      exact ⟨tpSize, blockSize, fun added isRatio => absurd isRatio (noRatio _ _ added _),
        fun added isRatio => absurd isRatio (noRatio _ _ added _),
        fun added isRatio => absurd isRatio (noRatio _ _ added _),
        fun added isRatio => absurd isRatio (noRatio _ _ added _)⟩
    · exact fun harmless => ⟨⟨harmless.tpSize, harmless.blockSize⟩, rfl⟩
  rcases Attempt.bind_eq_error.mp failed with refused | ⟨listed, handle, prepared, failed⟩
  · obtain ⟨world, added, isRatio, rfl⟩ := registerAgent_eq_ok registered
    obtain ⟨records, permutes⟩ := worker.prepareRemote_records agent remoteTpSize name ratio
      (recordCaches agent remoteTpRank { recordSizes agent remoteTpSize before with world })
    rw [refused] at records permutes
    rw [noTrace_iff, show after.records = _ from records, recordAgent_records_iff,
      show after.enablePermuteLocalKv = _ from permutes]
    constructor
    · rintro ⟨⟨tpSize, blockSize, dstNumBlocks, kvCachesBaseAddr⟩, samePermute⟩
      have same : recordCaches agent remoteTpRank
          { recordSizes agent remoteTpSize before with world } = { before with world } :=
        recordAgent_eq_self tpSize blockSize dstNumBlocks kvCachesBaseAddr
      rw [same] at samePermute refused
      rw [recordSizes_eq_self tpSize blockSize] at isRatio
      refine ⟨tpSize, blockSize, fun _ _ => dstNumBlocks, fun _ _ => kvCachesBaseAddr, ?_, ?_⟩
      · intro other _ _ isAdded _
        obtain rfl : world = other := congrArg Prod.fst (added.symm.trans isAdded)
        exact validateRemoteAgentHandshake_permutes.mp samePermute
      · intro other otherName otherRatio isAdded isOther passed handle lists
        obtain ⟨rfl, sameName⟩ := Prod.mk.inj (added.symm.trans isAdded)
        obtain rfl := Except.ok.inj sameName
        obtain rfl : ratio = otherRatio := Except.ok.inj (isRatio.symm.trans isOther)
        have stays : (worker.validateRemoteAgentHandshake agent remoteTpSize
            { before with world }).1 = { before with world } :=
          validateRemoteAgentHandshake_same (validateRemoteAgentHandshake_permutes.mp samePermute)
        have passes : worker.validateRemoteAgentHandshake agent remoteTpSize
            { before with world } = ({ before with world }, .ok ⟨⟩) := Prod.ext stays passed
        rw [prepareRemote, Attempt.bind_run, passes] at refused
        cases (congrArg Prod.snd refused).symm.trans lists
    · intro harmless
      rw [recordSizes_eq_self harmless.tpSize harmless.blockSize] at isRatio
      have same : recordCaches agent remoteTpRank
          { recordSizes agent remoteTpSize before with world } = { before with world } :=
        recordAgent_eq_self harmless.tpSize harmless.blockSize (harmless.dstNumBlocks added isRatio)
          (harmless.kvCachesBaseAddr added isRatio)
      refine ⟨⟨harmless.tpSize, harmless.blockSize, harmless.dstNumBlocks added isRatio,
        harmless.kvCachesBaseAddr added isRatio⟩, ?_⟩
      rw [same]
      exact validateRemoteAgentHandshake_permutes.mpr (harmless.permutes added isRatio)
  · obtain ⟨isNew, same, harmful⟩ := not_harmless issues registered prepared
    refine iff_of_false (fun clean => ?_) harmful
    rcases Attempt.bind_eq_error.mp failed with failed | ⟨_, _, _, never⟩
    · have kept := (worker.keepHandles_setAt agent remoteTpRank ratio handle listed).1
      rw [failed] at kept
      apply isNew
      apply recorded
      rw [← clean.dstXferSideHandles, kept, Dict.lookupAt_setAt_self]
    · exact absurd never Attempt.pure_ne_error

end FirstRank

/-! ## The ranks after the first -/

/-- What holds of the remote lists and of the agents, a further agent keeps if its own list
does. -/
theorem addRemoteAgent_keeps_lists
    (held : Dict EngineId (Dict ℕ SideHandle) → Dict EngineId (Dict ℕ AgentName) → Prop)
    {agent : NixlAgentMetadata} {remoteTpRank : ℕ}
    (kept : ∀ lists agents handle, held lists agents →
      held (Dict.setAt lists agent.engineId remoteTpRank handle) agents) (remoteTpSize : ℕ) :
    Keeps (fun tables => held tables.dstXferSideHandles tables.remoteAgents)
      (worker.addRemoteAgent agent remoteTpRank remoteTpSize) := by
  refine .bind (.of_same fun _ => rfl) fun known => ?_
  cases known with
  | some name => exact .of_same fun _ => rfl
  | none =>
      have register : Keeps (fun tables => held tables.dstXferSideHandles tables.remoteAgents)
          (worker.registerAgent agent remoteTpRank remoteTpSize) :=
        .bind (.write fun _ holds => holds) fun _ => .bind (fun _ holds => holds) fun _ =>
          .bind (.of_same fun _ => rfl) fun _ => .bind (.write fun _ holds => holds) fun _ =>
          .of_same fun _ => rfl
      refine .bind register fun ⟨name, ratio⟩ => .bind ?_ fun handle => .bind ?_ fun _ =>
        .of_same fun _ => rfl
      · exact .bind (worker.validateRemoteAgentHandshake_keeps (fun _ _ holds => holds) agent
          remoteTpSize) fun _ => prepareLists_keeps (fun _ _ _ holds => holds)
          (fun _ _ holds => holds) agent name ratio
      · intro tables holds
        obtain ⟨lists, agents⟩ := worker.keepHandles_setAt agent remoteTpRank ratio handle tables
        change held (worker.keepHandles agent remoteTpRank ratio handle tables).1.dstXferSideHandles
          (worker.keepHandles agent remoteTpRank ratio handle tables).1.remoteAgents
        rw [lists, agents]
        exact kept _ _ handle holds

/-- The loop keeps what every list that it records keeps. -/
theorem handshakeRanks_keeps_lists
    (held : Dict EngineId (Dict ℕ SideHandle) → Dict EngineId (Dict ℕ AgentName) → Prop)
    (answers : ℕ → Except PyError HandshakePayload) (remoteTpSize : ℕ)
    (expectedEngineId : EngineId) {ranks : List ℕ}
    (kept : ∀ rank ∈ ranks, ∀ lists agents engineId handle, held lists agents →
      held (Dict.setAt lists engineId rank handle) agents) (agents : Dict ℕ AgentName) :
    Keeps (fun tables => held tables.dstXferSideHandles tables.remoteAgents)
      (worker.handshakeRanks answers remoteTpSize expectedEngineId ranks agents) := by
  induction ranks generalizing agents with
  | nil => exact .of_same fun _ => rfl
  | cons rank ranks ih =>
      refine .bind (.of_same fun _ => rfl) fun payload => .bind (.of_same fun _ => rfl)
        fun agent => .bind ?_ fun name => ih (fun other isOther => kept other (.tail _ isOther)) _
      exact addRemoteAgent_keeps_lists held
        (fun lists agents handle => kept rank List.mem_cons_self lists agents agent.engineId handle)
        remoteTpSize

/-- An agent that is added has a new handle in the tables, and its metadata was not harmless. -/
theorem addRemoteAgent_returned {issued : ω → SideHandle → Prop}
    (issues : worker.nixl.Issues issued) {agent : NixlAgentMetadata}
    {remoteTpRank remoteTpSize : ℕ} {before next : Handshakes ω} {name : AgentName}
    (unknown : Dict.lookupAt before.remoteAgents agent.engineId remoteTpRank = none)
    (added : worker.addRemoteAgent agent remoteTpRank remoteTpSize before = (next, .ok name)) :
    ∃ handle, ¬ issued before.world handle ∧
      Dict.lookupAt next.dstXferSideHandles agent.engineId remoteTpRank = some handle ∧
      ¬ worker.Harmless before agent remoteTpRank remoteTpSize := by
  rw [addRemoteAgent_of_unknown unknown] at added
  obtain ⟨_, ⟨name, ratio⟩, registered, added⟩ := Attempt.bind_eq_ok.mp added
  obtain ⟨listed, handle, prepared, added⟩ := Attempt.bind_eq_ok.mp added
  obtain ⟨kept, _, keeps, added⟩ := Attempt.bind_eq_ok.mp added
  obtain ⟨rfl, _⟩ := Attempt.pure_eq_ok.mp added
  obtain ⟨isNew, _, harmful⟩ := not_harmless issues registered prepared
  refine ⟨handle, isNew, ?_, harmful⟩
  have set := (worker.keepHandles_setAt agent remoteTpRank ratio handle listed).1
  rw [keeps] at set
  rw [show kept.dstXferSideHandles = _ from set, Dict.lookupAt_setAt_self]

/-! ## Failed handshakes -/

/-- The metadata of its first rank, when a handshake gets that far. -/
structure FirstAgent (worker : HandshakeWorker ω) (event : HandshakeEvent) (rank : ℕ)
    (agent : NixlAgentMetadata) : Prop where
  /-- The rank is the first to be asked. -/
  isFirst : ∃ ranks, worker.rules.targetRemoteRanks worker.tpRank worker.worldSize
    event.remoteTpSize = .ok (rank :: ranks)
  /-- Its answer has the metadata. -/
  isAgent : ∃ payload, event.answers rank = .ok payload ∧
    worker.checkPayload event.engineId payload = .ok agent

theorem FirstAgent.eq {event : HandshakeEvent} {rank other : ℕ}
    {agent another : NixlAgentMetadata} (first : worker.FirstAgent event rank agent)
    (second : worker.FirstAgent event other another) : rank = other ∧ agent = another := by
  obtain ⟨_, isFirst⟩ := first.isFirst
  obtain ⟨_, isOther⟩ := second.isFirst
  cases isFirst.symm.trans isOther
  obtain ⟨_, answered, isAgent⟩ := first.isAgent
  obtain ⟨_, answeredOther, isAnother⟩ := second.isAgent
  cases answered.symm.trans answeredOther
  exact ⟨rfl, Except.ok.inj (isAgent.symm.trans isAnother)⟩

theorem checkPayload_engineId {expectedEngineId : EngineId} {payload : HandshakePayload}
    {agent : NixlAgentMetadata}
    (checked : worker.checkPayload expectedEngineId payload = .ok agent) :
    agent.engineId = expectedEngineId := by
  rw [checkPayload] at checked
  split at checked
  · cases checked
  · split at checked
    · cases checked
    · split at checked
      · cases checked
        assumption
      · cases checked

theorem nixlHandshake_remoteAgents (worker : HandshakeWorker ω) (event : HandshakeEvent)
    (tables : Handshakes ω) :
    (worker.nixlHandshake event.answers event.remoteTpSize event.engineId tables).1.remoteAgents =
      tables.remoteAgents := by
  have keeps : Keeps (fun next => next.remoteAgents = tables.remoteAgents)
      (worker.nixlHandshake event.answers event.remoteTpSize event.engineId) :=
    .bind (.of_same fun _ => rfl) fun ranks =>
      handshakeRanks_keeps_lists (fun _ agents => agents = tables.remoteAgents) _ _ _
        (fun _ _ _ _ _ _ same => same) _
  exact keeps tables rfl

/-- After a failed handshake that leaves no trace, handshakes have the outcomes that they would
have had before. -/
theorem succeeds_iff_of_noTrace (steady : worker.nixl.Steady) {before : Handshakes ω}
    {event : HandshakeEvent}
    (clean : NoTrace before
      (worker.nixlHandshake event.answers event.remoteTpSize event.engineId before).1)
    (later : HandshakeEvent) :
    worker.Succeeds
        (worker.nixlHandshake event.answers event.remoteTpSize event.engineId before).1 later ↔
      worker.Succeeds before later := by
  apply (nixlHandshake_steadily steady later).returns_iff
  exact ⟨clean.tpSize, clean.blockSize, clean.dstNumBlocks,
    nixlHandshake_remoteAgents worker event before⟩

/-- A failed handshake leaves no trace exactly when its first rank is harmless. -/
theorem nixlHandshake_noTrace_iff {issued : ω → SideHandle → Prop}
    (issues : worker.nixl.Issues issued) {before after : Handshakes ω}
    (recorded : ∀ {engineId rank handle},
      Dict.lookupAt before.dstXferSideHandles engineId rank = some handle →
        issued before.world handle)
    {event : HandshakeEvent} (unknown : before.remoteAgents.lookup event.engineId = none)
    {raised : PyError}
    (failed : worker.nixlHandshake event.answers event.remoteTpSize event.engineId before =
      (after, .error raised)) :
    NoTrace before after ↔
      ∀ {rank agent}, worker.FirstAgent event rank agent →
        worker.Harmless before agent rank event.remoteTpSize := by
  have clean : NoTrace before before := ⟨rfl, rfl, rfl, rfl, rfl, rfl⟩
  rcases Attempt.bind_eq_error.mp failed with refused | ⟨_, ranks, targeted, failed⟩
  · obtain ⟨rfl, noRanks⟩ := Attempt.lift_eq_error.mp refused
    refine iff_of_true clean fun first => ?_
    obtain ⟨_, isFirst⟩ := first.isFirst
    cases noRanks.symm.trans isFirst
  obtain ⟨rfl, isRanks⟩ := Attempt.lift_eq_ok.mp targeted
  cases ranks with
  | nil => exact absurd failed Attempt.pure_ne_error
  | cons rank ranks =>
      rcases Attempt.bind_eq_error.mp failed with refused | ⟨_, payload, answered, failed⟩
      · obtain ⟨rfl, noAnswer⟩ := Attempt.lift_eq_error.mp refused
        refine iff_of_true clean fun first => ?_
        obtain ⟨_, isFirst⟩ := first.isFirst
        cases isRanks.symm.trans isFirst
        obtain ⟨_, isAnswer, _⟩ := first.isAgent
        cases noAnswer.symm.trans isAnswer
      obtain ⟨rfl, isAnswer⟩ := Attempt.lift_eq_ok.mp answered
      rcases Attempt.bind_eq_error.mp failed with refused | ⟨_, agent, checked, failed⟩
      · obtain ⟨rfl, noAgent⟩ := Attempt.lift_eq_error.mp refused
        refine iff_of_true clean fun first => ?_
        obtain ⟨_, isFirst⟩ := first.isFirst
        cases isRanks.symm.trans isFirst
        obtain ⟨_, isOther, isAgent⟩ := first.isAgent
        cases isAnswer.symm.trans isOther
        cases noAgent.symm.trans isAgent
      obtain ⟨rfl, isAgent⟩ := Attempt.lift_eq_ok.mp checked
      have reached : worker.FirstAgent event rank agent :=
        ⟨⟨ranks, isRanks⟩, ⟨payload, isAnswer, isAgent⟩⟩
      have isUnknown : Dict.lookupAt before.remoteAgents agent.engineId rank = none := by
        rw [checkPayload_engineId isAgent, Dict.lookupAt, unknown]
        rfl
      have only : (∀ {rank agent}, worker.FirstAgent event rank agent →
          worker.Harmless before agent rank event.remoteTpSize) ↔
            worker.Harmless before agent rank event.remoteTpSize := by
        refine ⟨fun every => every reached, fun harmless _ _ other => ?_⟩
        obtain ⟨rfl, rfl⟩ := reached.eq other
        exact harmless
      rw [only]
      rcases Attempt.bind_eq_error.mp failed with refused | ⟨added, name, returned, failed⟩
      · exact addRemoteAgent_noTrace_iff issues recorded isUnknown refused
      · obtain ⟨handle, isNew, isListed, harmful⟩ :=
          addRemoteAgent_returned issues isUnknown returned
        have distinct : rank ∉ ranks := by
          have nodup := RankLayout.nodup_contiguousTargets worker.worldSize event.remoteTpSize
            worker.tpRank
          rw [← worker.rules.targetRemoteRanks_eq isRanks] at nodup
          exact (List.nodup_cons.mp nodup).1
        have keeps : Keeps
            (fun tables =>
              Dict.lookupAt tables.dstXferSideHandles agent.engineId rank = some handle)
            (worker.handshakeRanks event.answers event.remoteTpSize event.engineId ranks
              (AList.set rank name ∅)) := by
          apply handshakeRanks_keeps_lists fun lists _ =>
            Dict.lookupAt lists agent.engineId rank = some handle
          intro other isOther lists _ engineId _ held
          have different : rank ≠ other := fun same => distinct (same ▸ isOther)
          rwa [Dict.lookupAt_setAt_ne different]
        have stays := keeps added isListed
        rw [failed] at stays
        refine iff_of_false (fun clean => ?_) harmful
        apply isNew
        apply recorded
        rw [← clean.dstXferSideHandles]
        exact stays

/-- **Failed handshakes.**  A failed handshake with an engine that is not known leaves no trace, and
so changes no later outcome, exactly when its first rank is harmless. -/
theorem leaves_no_trace_iff {issued : ω → SideHandle → Prop} (issues : worker.nixl.Issues issued)
    {before after : Handshakes ω}
    (recorded : ∀ {engineId rank handle},
      Dict.lookupAt before.dstXferSideHandles engineId rank = some handle →
        issued before.world handle)
    {event : HandshakeEvent} (unknown : before.remoteAgents.lookup event.engineId = none)
    {raised : PyError}
    (failed : worker.nixlHandshake event.answers event.remoteTpSize event.engineId before =
      (after, .error raised)) :
    (NoTrace before after ∧
        (worker.nixl.Steady → ∀ later : HandshakeEvent, later.engineId = event.engineId →
          (worker.Succeeds after later ↔ worker.Succeeds before later))) ↔
      ∀ {rank agent}, worker.FirstAgent event rank agent →
        worker.Harmless before agent rank event.remoteTpSize := by
  rw [← nixlHandshake_noTrace_iff issues recorded unknown failed]
  obtain rfl : _ = after := congrArg Prod.fst failed
  exact ⟨fun property => property.1, fun clean =>
    ⟨clean, fun steady later _ => succeeds_iff_of_noTrace steady clean later⟩⟩

/-! ## A group that is set up wrongly first -/

theorem listingNixl_issues :
    listingNixl.Issues fun world handle => handle.id < world.length where
  fresh := by
    rintro world _ agent descs _ ⟨⟩
    exact Nat.lt_irrefl world.length
  prep_keeps world agent descs handle earlier := by
    change handle.id < (world ++ [descs]).length
    rw [List.length_append]
    omega
  add_keeps := fun _ _ _ => id

/-- The group of two, with whole blocks where half of the heads were due and another number of
blocks. -/
def faultyGroup : HandshakeEvent where
  answers rank := .ok
    { compatibilityHash := "hash"
      agentMetadata := .ok { halfAgent rank with numBlocks := 7, blockLens := [32] } }
  remoteTpSize := 2
  engineId := "prefill"

def faultyTables : Handshakes (List (List XferDesc)) :=
  ((loneWorker listingNixl).nixlHandshake faultyGroup.answers 2 "prefill" loneStart).1

theorem leaves_no_trace_iff_faultyGroup :
    (NoTrace loneStart faultyTables ∧
        (listingNixl.Steady → ∀ later : HandshakeEvent, later.engineId = "prefill" →
          ((loneWorker listingNixl).Succeeds faultyTables later ↔
            (loneWorker listingNixl).Succeeds loneStart later))) ↔
      ∀ {rank agent}, (loneWorker listingNixl).FirstAgent faultyGroup rank agent →
        (loneWorker listingNixl).Harmless loneStart agent rank 2 :=
  have unknown : loneStart.remoteAgents.lookup faultyGroup.engineId = none := rfl
  have failed : (loneWorker listingNixl).nixlHandshake faultyGroup.answers faultyGroup.remoteTpSize
      faultyGroup.engineId loneStart = (faultyTables, .error .assertionError) := Prod.ext rfl rfl
  leaves_no_trace_iff listingNixl_issues (fun listed => by cases listed) unknown failed

/-- Set up properly, the group is refused, which would have been accepted at first. -/
theorem faultyGroup_leaves_trace :
    (∃ raised, (loneWorker listingNixl).nixlHandshake faultyGroup.answers 2 "prefill" loneStart =
        (faultyTables, .error raised)) ∧
      ¬ NoTrace loneStart faultyTables ∧
      (loneWorker listingNixl).Succeeds loneStart halfGroup ∧
      ¬ (loneWorker listingNixl).Succeeds faultyTables halfGroup := by
  refine ⟨⟨.assertionError, Prod.ext rfl rfl⟩, fun clean => ?_, ?_, ?_⟩
  · have same : faultyTables.dstNumBlocks.lookup "prefill" =
        loneStart.dstNumBlocks.lookup "prefill" := by rw [clean.dstNumBlocks]
    revert same
    decide +kernel
  · have accepted : ((loneWorker listingNixl).nixlHandshake halfGroup.answers 2 "prefill"
        loneStart).2.isOk = true := by decide +kernel
    cases outcome : ((loneWorker listingNixl).nixlHandshake halfGroup.answers 2 "prefill"
        loneStart).2 with
    | ok agents => exact ⟨agents, outcome⟩
    | error raised =>
        rw [outcome] at accepted
        cases accepted
  · rintro ⟨agents, accepted⟩
    have refused : ((loneWorker listingNixl).nixlHandshake halfGroup.answers 2 "prefill"
        faultyTables).2 = .error .assertionError := rfl
    cases refused.symm.trans accepted

end HandshakeWorker

end RduHdi
