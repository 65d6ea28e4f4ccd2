import RduHdi.Connector.FailedHandshake
import RduHdi.Connector.ReceiveOnce

/-!
# Every request is received

A request that is loaded waits for its handshake, has transfers, has failed, or was reported.  Once
no handshake is under way and no transfer goes on, every request that was loaded is reported by the
next calls, whether its handshake and its reads failed or not.
-/

namespace RduHdi

/-! ## Reads forget nothing -/

/-- Between two states no transfer and no failure was forgotten. -/
structure Remembers {ω : Type*} (before after : Reading ω) : Prop where
  /-- Who has a transfer keeps one. -/
  recvingTransfers : ∀ reqId ∈ before.recvingTransfers, reqId ∈ after.recvingTransfers
  /-- Who has failed stays failed. -/
  failedRecvReqs : ∀ reqId ∈ before.failedRecvReqs, reqId ∈ after.failedRecvReqs

/-- A request is read, or has failed. -/
def Reading.Handles {ω : Type*} (reading : Reading ω) (reqId : ReqId) : Prop :=
  reqId ∈ reading.recvingTransfers ∨ reqId ∈ reading.failedRecvReqs

namespace Remembers

variable {ω : Type*} {before middle after : Reading ω}

theorem refl (reading : Reading ω) : Remembers reading reading :=
  ⟨fun _ => id, fun _ => id⟩

theorem trans (first : Remembers before middle) (second : Remembers middle after) :
    Remembers before after :=
  ⟨fun reqId member => second.recvingTransfers reqId (first.recvingTransfers reqId member),
    fun reqId member => second.failedRecvReqs reqId (first.failedRecvReqs reqId member)⟩

theorem handles (remembers : Remembers before after) {reqId : ReqId}
    (handled : before.Handles reqId) : after.Handles reqId :=
  handled.imp (remembers.recvingTransfers reqId) (remembers.failedRecvReqs reqId)

end Remembers

namespace ReadingWorker

variable {ω : Type*} (worker : ReadingWorker ω)

theorem sendNotif_remembers (reading : Reading ω) (agent : AgentName) (notif : ByteArray) :
    Remembers reading (worker.sendNotif reading agent notif).1 := by
  rw [sendNotif]
  split
  · exact ⟨fun _ => id, fun _ => id⟩
  · exact ⟨fun _ => id, fun _ => id⟩

theorem failTransfer_remembers (reading : Reading ω) (requestId : ReqId)
    (handle : Option XferHandle) :
    Remembers reading (worker.failTransfer reading requestId handle) :=
  ⟨fun _ => id, fun _ member => AList.mem_add.mpr (.inr member)⟩

/-- A transfer is under way or has failed. -/
theorem beginXfer_remembers (reading : Reading ω) (args : ReadArgs)
    (localDescs remoteDescs : List ℕ) (notif : ByteArray) :
    Remembers reading (worker.beginXfer reading args localDescs remoteDescs notif) ∧
      (worker.beginXfer reading args localDescs remoteDescs notif).Handles args.requestId := by
  have failed (world : ω) (handle : Option XferHandle) :
      let refused : Reading ω :=
        { reading with world, refused := reading.refused.add args.requestId }
      Remembers reading (worker.failTransfer refused args.requestId handle) ∧
        (worker.failTransfer refused args.requestId handle).Handles args.requestId := by
    intro refused
    have moved : Remembers reading refused := ⟨fun _ => id, fun _ => id⟩
    exact ⟨moved.trans (worker.failTransfer_remembers _ args.requestId handle),
      .inr (AList.mem_add.mpr (.inl rfl))⟩
  rw [beginXfer_eq]
  split
  · rename_i world raised refused
    exact failed world none
  · rename_i world handle prepared
    split
    · rename_i later raised refused
      exact failed later (some handle)
    · exact ⟨⟨fun _ member => AList.mem_set.mpr (.inr member), fun _ => id⟩,
        .inl (AList.mem_set.mpr (.inl rfl))⟩

theorem readBlocks_remembers (reading : Reading ω) (args : ReadArgs) :
    Remembers reading (worker.readBlocks reading args).1 := by
  rw [readBlocks]
  simp only
  split
  · split
    · exact .refl reading
    · exact worker.sendNotif_remembers reading _ _
  · split
    · split
      · exact .refl reading
      · exact (worker.beginXfer_remembers reading args _ _ _).1
    · exact .refl reading

theorem readBlocks_handles {reading next : Reading ω} {args : ReadArgs}
    (some_read : (alignLocalBlocks (worker.kvTopo.blockSizeRatioFromEngineId args.dstEngineId)
      args.localBlockIds args.remoteBlockIds).length ≠ 0)
    (taken : worker.readBlocks reading args = (next, .ok ())) : next.Handles args.requestId := by
  rw [readBlocks] at taken
  simp only at taken
  rw [if_neg some_read] at taken
  split at taken
  · split at taken
    · cases taken
    · cases taken
      exact (worker.beginXfer_remembers reading args _ _ _).2
  · cases taken

theorem notifyOthers_remembers (remoteRank : ℕ) (notif : ByteArray)
    (agents : List (Σ _ : ℕ, AgentName)) (reading : Reading ω) :
    Remembers reading (worker.notifyOthers remoteRank notif agents reading).1 := by
  induction agents generalizing reading with
  | nil => exact .refl reading
  | cons entry agents ih =>
      obtain ⟨rankToNotify, agent⟩ := entry
      rw [notifyOthers]
      split
      · have sent := worker.sendNotif_remembers reading agent notif
        split
        · rename_i next notified
          rw [notified] at sent
          exact sent.trans (ih next)
        · rename_i next raised refused
          rw [refused] at sent
          exact sent
      · exact ih reading

theorem readRanks_remembers (reqId : ReqId) (localBlockIds : List ℕ) (remote : RemoteMeta)
    (tpRatio : ℤ) (index : ℕ) (remoteRanks : List ℕ) (reading : Reading ω) :
    Remembers reading
      (worker.readRanks reqId localBlockIds remote tpRatio index remoteRanks reading).1 := by
  induction remoteRanks generalizing index reading with
  | nil => exact .refl reading
  | cons remoteRank remoteRanks ih =>
      rw [readRanks]
      split
      · exact .refl reading
      · split
        · exact .refl reading
        · rename_i localSide remoteSide sides
          have read := worker.readBlocks_remembers reading
            { localBlockIds
              remoteBlockIds := remote.blockIds
              dstEngineId := remote.engineId
              requestId := reqId
              remoteRequestId := remote.requestId
              remoteRank
              localXferSideHandle := localSide
              remoteXferSideHandle := remoteSide }
          simp only
          split
          · rename_i next raised refused
            rw [refused] at read
            exact read
          · rename_i next done
            rw [done] at read
            split
            · have notified := worker.notifyOthers_remembers remoteRank
                (notifId reqId worker.worldSize).toUTF8
                ((worker.remoteAgents.lookup remote.engineId).getD ∅).entries next
              split
              · rename_i last raised refused
                rw [refused] at notified
                exact read.trans notified
              · rename_i last told
                rw [told] at notified
                exact read.trans (notified.trans (ih _ _))
            · exact read.trans (ih _ _)

theorem readBlocksForReq_remembers (reading : Reading ω) (reqId : ReqId) (saved : ReqMeta) :
    Remembers reading (worker.readBlocksForReq reading reqId saved).1 := by
  rw [readBlocksForReq]
  split
  · exact .refl reading
  · exact worker.readRanks_remembers _ _ _ _ _ _ reading

/-- A request with blocks and a rank to read them from is handled by the first of its reads. -/
theorem readBlocksForReq_handles {reading next : Reading ω} {reqId : ReqId} {saved : ReqMeta}
    {remote : RemoteMeta} (isRemote : saved.remote = some remote)
    (some_read : (alignLocalBlocks (worker.kvTopo.blockSizeRatioFromEngineId remote.engineId)
      saved.localPhysicalBlockIds remote.blockIds).length ≠ 0)
    {rank : ℕ} {ranks : List ℕ}
    (targets : worker.kvTopo.getTargetRemoteRanksFromEngineId remote.engineId = rank :: ranks)
    (taken : worker.readBlocksForReq reading reqId saved = (next, .ok ())) :
    next.Handles reqId := by
  rw [readBlocksForReq, isRemote] at taken
  simp only [targets] at taken
  rw [readRanks, if_neg fun copies => Nat.lt_irrefl 0 copies.2.2] at taken
  split at taken
  · cases taken
  · simp only at taken
    split at taken
    · cases taken
    · rename_i middle read
      have handled := worker.readBlocks_handles some_read read
      have remembers : Remembers middle next := by
        split at taken
        · have notified := worker.notifyOthers_remembers rank
            (notifId reqId worker.worldSize).toUTF8
            ((worker.remoteAgents.lookup remote.engineId).getD ∅).entries middle
          split at taken
          · cases taken
          · rename_i last told
            rw [told] at notified
            have rest := worker.readRanks_remembers reqId saved.localPhysicalBlockIds remote
              (worker.kvTopo.tpRatioFromEngineId remote.engineId) 1 ranks last
            rw [taken] at rest
            exact notified.trans rest
        · have rest := worker.readRanks_remembers reqId saved.localPhysicalBlockIds remote
            (worker.kvTopo.tpRatioFromEngineId remote.engineId) 1 ranks middle
          rw [taken] at rest
          exact rest
      exact remembers.handles handled

end ReadingWorker

theorem KernelBlocks.logicalToKernelBlockIds_ne_nil (kernel : KernelBlocks) {blockIds : List ℕ}
    (some_block : blockIds ≠ []) : kernel.logicalToKernelBlockIds blockIds ≠ [] := by
  rw [logicalToKernelBlockIds]
  split
  · exact some_block
  · obtain ⟨block, isBlock⟩ := List.exists_mem_of_ne_nil _ some_block
    rw [kernel.map_eq]
    exact List.ne_nil_of_mem (List.mem_flatMap.mpr ⟨block, isBlock,
      List.mem_map.mpr ⟨0, List.mem_range.mpr kernel.ratio_pos, rfl⟩⟩)

/-! ## Ranks to read from -/

theorem contiguousTargets_ne_nil {readers : ℕ} (readers_pos : 0 < readers) (sources rank : ℕ) :
    RankLayout.contiguousTargets readers sources rank ≠ [] := by
  rw [RankLayout.contiguousTargets]
  split
  · rename_i fewer
    have share_pos : 0 < sources / readers := Nat.div_pos (Nat.le_of_lt fewer) readers_pos
    exact List.ne_nil_of_mem (List.mem_map.mpr ⟨0, List.mem_range.mpr share_pos, rfl⟩)
  · exact List.cons_ne_nil _ _

namespace HandshakeWorker

variable {ω : Type} {worker : HandshakeWorker ω}

section Sizes

variable (invariant : Dict EngineId ℕ → Dict EngineId ℕ → Bool → Prop)

/-- A computation keeps an invariant of the recorded sizes and of the permutation. -/
abbrev KeepsSizes {α : Type} (job : Job ω α) : Prop :=
  Attempt.Keeps
    (fun tables => invariant tables.tpSize tables.blockSize tables.enablePermuteLocalKv) job

theorem keepHandles_keeps_sizes (agent : NixlAgentMetadata) (remoteTpRank blockSizeRatio : ℕ)
    (handle : SideHandle) :
    KeepsSizes invariant (worker.keepHandles agent remoteTpRank blockSizeRatio handle) := by
  refine .bind (.write fun _ holds => holds) fun _ => ?_
  split
  · exact .bind (.bind (.of_same fun _ => rfl) fun _ => .bind (.of_same fun _ => rfl) fun _ =>
      fun _ holds => holds) fun _ => .write fun _ holds => holds
  · exact .of_same fun _ => rfl

variable {invariant}

/-- The sizes that a further agent records are added to those that are known, and the permutation
stays when it was asked for. -/
theorem addRemoteAgent_keeps_sizes
    (recorded : ∀ tpSize blockSize permutes engineId size other,
      invariant tpSize blockSize permutes →
        invariant (tpSize.setDefault engineId size) (blockSize.setDefault engineId other) permutes)
    (asked : ∀ tpSize blockSize permutes, invariant tpSize blockSize permutes →
      invariant tpSize blockSize true)
    (agent : NixlAgentMetadata) (remoteTpRank remoteTpSize : ℕ) :
    KeepsSizes invariant (worker.addRemoteAgent agent remoteTpRank remoteTpSize) := by
  refine .bind (.of_same fun _ => rfl) fun known => ?_
  cases known with
  | some name => exact .of_same fun _ => rfl
  | none =>
      have register : KeepsSizes invariant
          (worker.registerAgent agent remoteTpRank remoteTpSize) :=
        .bind (.write fun _ holds => recorded _ _ _ _ _ _ holds) fun _ =>
          .bind (fun _ holds => holds) fun _ => .bind (.of_same fun _ => rfl) fun _ =>
          .bind (.write fun _ holds => holds) fun _ => .of_same fun _ => rfl
      have validate : KeepsSizes invariant
          (worker.validateRemoteAgentHandshake agent remoteTpSize) := by
        intro tables holds
        obtain ⟨whenAsked, otherwise⟩ :=
          worker.validateRemoteAgentHandshake_state agent remoteTpSize tables
        rcases Classical.em (worker.AsksPermutation tables agent remoteTpSize) with asks | never
        · rw [whenAsked asks]
          exact asked _ _ _ holds
        · rwa [otherwise never]
      have prepare (name : AgentName) (ratio : ℕ) : KeepsSizes invariant
          (worker.prepareRemote agent remoteTpSize name ratio) :=
        .bind validate fun _ =>
          prepareLists_keeps (fun _ _ _ holds => holds) (fun _ _ holds => holds) agent name ratio
      exact .bind register fun ⟨name, ratio⟩ => .bind (prepare name ratio) fun handle =>
        .bind (keepHandles_keeps_sizes invariant agent remoteTpRank ratio handle) fun _ =>
        .of_same fun _ => rfl

theorem handshakeRanks_keeps_sizes
    (recorded : ∀ tpSize blockSize permutes engineId size other,
      invariant tpSize blockSize permutes →
        invariant (tpSize.setDefault engineId size) (blockSize.setDefault engineId other) permutes)
    (asked : ∀ tpSize blockSize permutes, invariant tpSize blockSize permutes →
      invariant tpSize blockSize true)
    (answers : ℕ → Except PyError HandshakePayload) (remoteTpSize : ℕ)
    (expectedEngineId : EngineId) (ranks : List ℕ) (agents : Dict ℕ AgentName) :
    KeepsSizes invariant
      (worker.handshakeRanks answers remoteTpSize expectedEngineId ranks agents) := by
  induction ranks generalizing agents with
  | nil => exact .of_same fun _ => rfl
  | cons rank ranks ih =>
      exact .bind (.of_same fun _ => rfl) fun payload => .bind (.of_same fun _ => rfl)
        fun agent => .bind (addRemoteAgent_keeps_sizes recorded asked agent rank remoteTpSize)
        fun name => ih _

theorem nixlHandshake_keeps_sizes
    (recorded : ∀ tpSize blockSize permutes engineId size other,
      invariant tpSize blockSize permutes →
        invariant (tpSize.setDefault engineId size) (blockSize.setDefault engineId other) permutes)
    (asked : ∀ tpSize blockSize permutes, invariant tpSize blockSize permutes →
      invariant tpSize blockSize true)
    (answers : ℕ → Except PyError HandshakePayload) (remoteTpSize : ℕ)
    (expectedEngineId : EngineId) :
    KeepsSizes invariant (worker.nixlHandshake answers remoteTpSize expectedEngineId) :=
  .bind (.of_same fun _ => rfl) fun ranks =>
    handshakeRanks_keeps_sizes recorded asked answers remoteTpSize expectedEngineId ranks ∅

end Sizes

/-- An agent that is added is of a group of the size that the handshake is with, and of a block
size that fits. -/
theorem addRemoteAgent_sizes {agent : NixlAgentMetadata} {remoteTpRank remoteTpSize : ℕ}
    {before next : Handshakes ω} {name : AgentName}
    (unknown : Dict.lookupAt before.remoteAgents agent.engineId remoteTpRank = none)
    (added : worker.addRemoteAgent agent remoteTpRank remoteTpSize before = (next, .ok name)) :
    next.tpSize.lookup agent.engineId = some remoteTpSize ∧
      ∃ size ratio, next.blockSize.lookup agent.engineId = some size ∧
        worker.rules.blockSizeRatio worker.caches.blockSize size = .ok ratio := by
  rw [addRemoteAgent_of_unknown unknown] at added
  obtain ⟨recorded, ⟨name, ratio⟩, _, added⟩ := Attempt.bind_eq_ok.mp added
  obtain ⟨listed, handle, prepared, added⟩ := Attempt.bind_eq_ok.mp added
  obtain ⟨kept, _, keeps, added⟩ := Attempt.bind_eq_ok.mp added
  obtain ⟨rfl, _⟩ := Attempt.pure_eq_ok.mp added
  obtain ⟨sameRecords, _⟩ :=
    worker.prepareRemote_records agent remoteTpSize name ratio recorded
  rw [prepared] at sameRecords
  obtain ⟨_, _, validated, _⟩ := Attempt.bind_eq_ok.mp prepared
  obtain ⟨_, ratios, sizes, _⟩ := Attempt.bind_eq_ok.mp validated
  obtain ⟨isSize, _, isRatio, _⟩ := checkSizes_eq_ok sizes
  obtain ⟨blockSize, isBlockSize, fits⟩ := blockSizeRatioFromEngineId_eq_ok.mp isRatio
  have sameTpSize : listed.tpSize = recorded.tpSize := congrArg Prod.fst sameRecords
  have sameBlockSize : listed.blockSize = recorded.blockSize :=
    congrArg (fun records => records.2.1) sameRecords
  rw [← sameTpSize] at isSize
  rw [← sameBlockSize] at isBlockSize
  have remembers : KeepsSizes (fun tpSize blockSizes _ =>
      tpSize.lookup agent.engineId = some remoteTpSize ∧
        blockSizes.lookup agent.engineId = some blockSize)
      (worker.keepHandles agent remoteTpRank ratio handle) :=
    keepHandles_keeps_sizes _ agent remoteTpRank ratio handle
  have stays := remembers listed ⟨isSize, isBlockSize⟩
  rw [keeps] at stays
  exact ⟨stays.1, blockSize, _, stays.2, fits⟩

/-- A handshake that goes through leaves the sizes of the group it was with. -/
theorem nixlHandshake_sizes {answers : ℕ → Except PyError HandshakePayload} {remoteTpSize : ℕ}
    {engineId : EngineId} {before next : Handshakes ω} {agents : Dict ℕ AgentName}
    (fresh : engineId ∉ before.remoteAgents) (someWorker : 0 < worker.worldSize)
    (done : worker.nixlHandshake answers remoteTpSize engineId before = (next, .ok agents)) :
    (∃ rank ranks, worker.rules.targetRemoteRanks worker.tpRank worker.worldSize remoteTpSize =
        .ok (rank :: ranks)) ∧
      next.tpSize.lookup engineId = some remoteTpSize ∧
      ∃ size ratio, next.blockSize.lookup engineId = some size ∧
        worker.rules.blockSizeRatio worker.caches.blockSize size = .ok ratio := by
  obtain ⟨_, targets, held, done⟩ := Attempt.bind_eq_ok.mp done
  obtain ⟨rfl, isTargets⟩ := Attempt.lift_eq_ok.mp held
  have someTarget : targets ≠ [] := by
    rw [worker.rules.targetRemoteRanks_eq isTargets]
    exact contiguousTargets_ne_nil someWorker remoteTpSize worker.tpRank
  obtain ⟨rank, ranks, rfl⟩ := List.exists_cons_of_ne_nil someTarget
  refine ⟨⟨rank, ranks, isTargets⟩, ?_⟩
  obtain ⟨_, payload, held, done⟩ := Attempt.bind_eq_ok.mp done
  obtain ⟨rfl, _⟩ := Attempt.lift_eq_ok.mp held
  obtain ⟨_, agent, held, done⟩ := Attempt.bind_eq_ok.mp done
  obtain ⟨rfl, checked⟩ := Attempt.lift_eq_ok.mp held
  obtain ⟨middle, name, added, done⟩ := Attempt.bind_eq_ok.mp done
  obtain rfl := checkPayload_engineId checked
  have unknown : Dict.lookupAt before.remoteAgents agent.engineId rank = none := by
    rw [Dict.lookupAt, AList.lookup_eq_none.mpr fresh]
    rfl
  obtain ⟨isSize, size, ratio, isBlockSize, fits⟩ := addRemoteAgent_sizes unknown added
  have keeps : KeepsSizes (fun tpSize blockSize _ =>
      tpSize.lookup agent.engineId = some remoteTpSize ∧
        blockSize.lookup agent.engineId = some size)
      (worker.handshakeRanks answers remoteTpSize agent.engineId ranks (AList.set rank name ∅)) :=
    handshakeRanks_keeps_sizes
      (fun _ _ _ _ _ _ known => ⟨AList.lookup_setDefault_of_some known.1,
        AList.lookup_setDefault_of_some known.2⟩)
      (fun _ _ _ => id) _ _ _ ranks _
  have stays := keeps middle ⟨isSize, isBlockSize⟩
  rw [done] at stays
  exact ⟨stays.1, size, ratio, stays.2, fits⟩

/-- The ranks to read from are known, and at least one, for every engine with a handshake. -/
def KnowsTargets (worker : HandshakeWorker ω) (tables : Handshakes ω) : Prop :=
  ∀ engineId ∈ tables.remoteAgents, ∃ size rank ranks,
    tables.tpSize.lookup engineId = some size ∧
    worker.rules.targetRemoteRanks worker.tpRank worker.worldSize size = .ok (rank :: ranks)

theorem KnowsTargets.reader {tables : Handshakes ω} (knows : worker.KnowsTargets tables)
    {engineId : EngineId} (known : engineId ∈ tables.remoteAgents) {ω' : Type*}
    (nixl : NixlReader ω') (windows : List (Option ℕ)) :
    ∃ rank ranks, (worker.reader tables nixl windows).kvTopo.getTargetRemoteRanksFromEngineId
      engineId = rank :: ranks := by
  obtain ⟨size, rank, ranks, isSize, isTargets⟩ := knows engineId known
  refine ⟨rank, ranks, ?_⟩
  change ((Dict.get tables.tpSize engineId).bind
    (worker.rules.targetRemoteRanks worker.tpRank worker.worldSize)).toOption.getD [] = _
  rw [Dict.get_eq_ok.mpr isSize]
  change (worker.rules.targetRemoteRanks worker.tpRank worker.worldSize
    size).toOption.getD [] = _
  rw [isTargets]
  rfl

/-- A handshake keeps the ranks that are known, and adds its own when it goes through. -/
theorem KnowsTargets.nixlHandshake {tables next : Handshakes ω} (knows : worker.KnowsTargets tables)
    (someWorker : 0 < worker.worldSize) {answers : ℕ → Except PyError HandshakePayload}
    {remoteTpSize : ℕ} {engineId : EngineId} {result : Except PyError (Dict ℕ AgentName)}
    (ran : worker.nixlHandshake answers remoteTpSize engineId tables = (next, result)) :
    worker.KnowsTargets next ∧ ∀ agents, result = .ok agents →
      worker.KnowsTargets { next with remoteAgents := next.remoteAgents.set engineId agents } := by
  have sameAgents := nixlHandshake_remoteAgents worker ⟨answers, remoteTpSize, engineId⟩ tables
  rw [ran] at sameAgents
  have kept : worker.KnowsTargets next := by
    intro other isKnown
    rw [show next.remoteAgents = tables.remoteAgents from sameAgents] at isKnown
    obtain ⟨size, rank, ranks, isSize, isTargets⟩ := knows other isKnown
    refine ⟨size, rank, ranks, ?_, isTargets⟩
    have stays : KeepsSizes (fun tpSize _ _ => tpSize.lookup other = some size)
        (worker.nixlHandshake answers remoteTpSize engineId) :=
      nixlHandshake_keeps_sizes (fun _ _ _ _ _ _ => AList.lookup_setDefault_of_some)
        (fun _ _ _ => id) answers remoteTpSize engineId
    have here := stays tables isSize
    rwa [ran] at here
  refine ⟨kept, ?_⟩
  rintro agents rfl other isKnown
  rcases AList.mem_set.mp isKnown with rfl | earlier
  · by_cases fresh : other ∈ tables.remoteAgents
    · exact kept other (by rwa [show next.remoteAgents = tables.remoteAgents from sameAgents])
    · obtain ⟨⟨rank, ranks, isTargets⟩, isSize, _⟩ := nixlHandshake_sizes fresh someWorker ran
      exact ⟨remoteTpSize, rank, ranks, isSize, isTargets⟩
  · exact kept other earlier

end HandshakeWorker

/-! ## Where a request is found -/

/-- Every request that is followed and was loaded is pending, is read, has failed, or was
reported. -/
def Located {ω : Type*} (followed : ReqId → Prop) (loads pending : List (ReqId × ReqMeta))
    (reading : Reading ω) (log : ReceiveLog) : Prop :=
  ∀ load ∈ loads, followed load.1 →
    load.1 ∈ pending.map Prod.fst ∨ reading.Handles load.1 ∨ load.1 ∈ log.reported

namespace Located

open ReceivingWorker (Received failedChecks)

variable {ω : Type} {followed : ReqId → Prop} {loads pending others : List (ReqId × ReqMeta)}
  {reading next : Reading ω} {log later : ReceiveLog}

theorem mono (located : Located followed loads pending reading log)
    (kept : ∀ reqId ∈ pending.map Prod.fst, followed reqId →
      reqId ∈ others.map Prod.fst ∨ next.Handles reqId)
    (remembers : Remembers reading next) (reported : later.reported = log.reported) :
    Located followed loads others next later := by
  intro load member isFollowed
  rcases located load member isFollowed with waits | handled | done
  · exact (kept _ waits isFollowed).imp_right .inl
  · exact .inr (.inl (remembers.handles handled))
  · exact .inr (.inr (reported ▸ done))

theorem perm (located : Located followed loads pending reading log) (same : others.Perm pending) :
    Located followed loads others reading log :=
  located.mono (fun _ member _ => .inl ((same.map Prod.fst).mem_iff.mpr member)) (.refl reading)
    rfl

theorem handled {entry : ReqId × ReqMeta}
    (located : Located followed loads (entry :: pending) reading log)
    (remembers : Remembers reading next) (handled : followed entry.1 → next.Handles entry.1)
    (reported : later.reported = log.reported) : Located followed loads pending next later := by
  refine located.mono (fun reqId member isFollowed => ?_) remembers reported
  rcases List.mem_cons.mp member with rfl | member
  · exact .inr (handled isFollowed)
  · exact .inl member

theorem load {reqId : ReqId} {saved kept : ReqMeta}
    (located : Located followed loads pending reading log) (remembers : Remembers reading next) :
    Located followed (loads ++ [(reqId, saved)]) ((reqId, kept) :: pending) next log := by
  intro load member isFollowed
  rcases List.mem_append.mp member with member | member
  · have kept : ∀ other ∈ pending.map Prod.fst, followed other →
        other ∈ ((reqId, kept) :: pending).map Prod.fst ∨ next.Handles other :=
      fun _ waits _ => .inl (List.mem_cons_of_mem _ waits)
    exact located.mono kept remembers rfl load member isFollowed
  · obtain rfl := List.mem_singleton.mp member
    exact .inl List.mem_cons_self

/-- What `get_finished` leaves: what is not pending was reported, or has a transfer that goes
on. -/
theorem finish {checks : XferHandle → XferCheck} {done : KeySet ReqId}
    (located : Located followed loads pending reading log)
    (received : Received checks reading next done) :
    ∀ load ∈ loads, followed load.1 →
      load.1 ∈ pending.map Prod.fst ∨ load.1 ∈ log.reported ++ done.keys ∨
        ∃ handles, reading.recvingTransfers.lookup load.1 = some handles ∧
          ∃ handle ∈ handles, (checks handle).isProc := by
  intro load member isFollowed
  rcases located load member isFollowed with waits | (read | failed) | reported
  · exact .inl waits
  · obtain ⟨handles, known⟩ := Option.isSome_iff_exists.mp (AList.lookup_isSome.mpr read)
    by_cases goesOn : ∃ handle ∈ handles, (checks handle).isProc
    · exact .inr (.inr ⟨handles, known, goesOn⟩)
    · refine .inr (.inl (List.mem_append_right _ (AList.mem_keys.mp ?_)))
      refine (received.mem_iff load.1).mpr (.inr ⟨handles, known, fun handle isHandle => ?_⟩)
      exact Bool.eq_false_iff.mpr fun isProc => goesOn ⟨handle, isHandle, isProc⟩
  · exact .inr (.inl (List.mem_append_right _
      (AList.mem_keys.mp ((received.mem_iff load.1).mpr (.inl failed)))))
  · exact .inr (.inl (List.mem_append_left _ reported))

end Located

/-! ## Steps -/

/-- Metadata with which a read from an engine reads something. -/
def Readable (engineId : EngineId) (saved : ReqMeta) : Prop :=
  ∃ remote, saved.remote = some remote ∧ remote.engineId = engineId ∧ remote.blockIds ≠ [] ∧
    saved.localPhysicalBlockIds ≠ []

/-- Some blocks are to be read, into some blocks. -/
def ReqMeta.ReadsBlocks (saved : ReqMeta) : Prop :=
  saved.localBlockIds ≠ [] ∧ ∀ remote, saved.remote = some remote → remote.blockIds ≠ []

namespace ReceivingWorker

variable {ω : Type}

/-- The ranks to read from are known, and the requests that are followed and wait for an engine
have something to read from it. -/
structure Prepared (worker : ReceivingWorker ω) (followed : ReqId → Prop)
    (receiving : Receiving ω) : Prop where
  /-- The ranks to read from are known. -/
  knows : worker.handshakes.KnowsTargets receiving.tables
  /-- Who waits for a handshake can be read after it. -/
  waiting : ∀ engineId future, receiving.handshakeFutures.lookup engineId = some future →
    ∀ entry ∈ future.waiting, followed entry.1 → Readable engineId entry.2
  /-- Who waits to be read can be read. -/
  ready : ∀ entry ∈ receiving.readyRequests, followed entry.1 →
    ∃ engineId ∈ receiving.tables.remoteAgents, Readable engineId entry.2

/-- No request that is followed is lost: every one is found somewhere. -/
structure Accounted (worker : ReceivingWorker ω) (followed : ReqId → Prop)
    (loads : List (ReqId × ReqMeta)) (receiving : Receiving ω) : Prop
    extends worker.Prepared followed receiving where
  /-- Every request is somewhere. -/
  located : Located followed loads receiving.pending receiving.reading receiving.log

variable {worker : ReceivingWorker ω} {followed : ReqId → Prop} {loads : List (ReqId × ReqMeta)}
  {receiving next : Receiving ω}

theorem inKernelBlocks_readable {saved : ReqMeta} {remote : RemoteMeta}
    (isRemote : saved.remote = some remote) (reads : saved.ReadsBlocks) :
    Readable remote.engineId (worker.inKernelBlocks saved remote) :=
  ⟨_, rfl, rfl, worker.kernel.logicalToKernelBlockIds_ne_nil (reads.2 remote isRemote),
    worker.kernel.logicalToKernelBlockIds_ne_nil reads.1⟩

theorem Prepared.readBlocksForReq {entry : ReqId × ReqMeta}
    (prepared : worker.Prepared followed receiving)
    (readable : followed entry.1 → ∃ engineId ∈ receiving.tables.remoteAgents,
      Readable engineId entry.2)
    (located : Located followed loads (entry :: receiving.pending) receiving.reading
      receiving.log)
    (taken : worker.readBlocksForReq receiving entry.1 entry.2 = (next, .ok ())) :
    worker.Accounted followed loads next ∧ next.readyRequests = receiving.readyRequests := by
  let reader := worker.handshakes.reader receiving.tables worker.nixl worker.blockWindowPerLayer
  let start : Reading ω := { receiving.reading with world := receiving.tables.world }
  have isDone : (reader.readBlocksForReq start entry.1 entry.2).2 = .ok () :=
    congrArg Prod.snd taken
  have isNext : next = (worker.readBlocksForReq receiving entry.1 entry.2).1 :=
    (congrArg Prod.fst taken).symm
  have handled (isFollowed : followed entry.1) :
      (reader.readBlocksForReq start entry.1 entry.2).1.Handles entry.1 := by
    obtain ⟨engineId, known, remote, isRemote, rfl, some_remote, some_local⟩ := readable isFollowed
    obtain ⟨rank, ranks, targets⟩ :=
      prepared.knows.reader known worker.nixl worker.blockWindowPerLayer
    exact reader.readBlocksForReq_handles isRemote
      (length_alignLocalBlocks_ne_zero some_local some_remote) targets (Prod.ext rfl isDone)
  have moved : Remembers receiving.reading start := ⟨fun _ => id, fun _ => id⟩
  have remembers := moved.trans (reader.readBlocksForReq_remembers start entry.1 entry.2)
  subst isNext
  exact ⟨⟨⟨prepared.knows, prepared.waiting, prepared.ready⟩,
    located.handled remembers handled rfl⟩, rfl⟩

theorem Prepared.failWaiting {entries : List (ReqId × ReqMeta)}
    (prepared : worker.Prepared followed receiving)
    (located : Located followed loads (entries ++ receiving.pending) receiving.reading
      receiving.log) :
    worker.Accounted followed loads (entries.foldl failWaiting receiving) := by
  induction entries generalizing receiving with
  | nil => exact ⟨prepared, located⟩
  | cons entry entries ih =>
      have remembers : Remembers receiving.reading (failWaiting receiving entry).reading :=
        ⟨fun _ => id, fun _ member => AList.mem_add.mpr (.inr member)⟩
      have failed : (failWaiting receiving entry).reading.Handles entry.1 :=
        .inr (AList.mem_add.mpr (.inl rfl))
      have still : worker.Prepared followed (failWaiting receiving entry) :=
        ⟨prepared.knows, prepared.waiting, prepared.ready⟩
      have rest : Located followed loads (entries ++ (failWaiting receiving entry).pending)
          (failWaiting receiving entry).reading (failWaiting receiving entry).log :=
        located.handled remembers (fun _ => failed) rfl
      exact ih still rest

namespace Accounted

theorem init {tables : Handshakes ω} (knows : worker.handshakes.KnowsTargets tables) :
    worker.Accounted followed [] (.init tables) where
  knows := knows
  waiting engineId future known := by cases known
  ready entry member := by cases member
  located load member := by cases member

theorem handshakeDone (someWorker : 0 < worker.handshakes.worldSize)
    (accounted : worker.Accounted followed loads receiving) (engineId : EngineId)
    (answers : ℕ → Except PyError HandshakePayload) :
    worker.Accounted followed loads (worker.handshakeDone receiving engineId answers) := by
  rw [ReceivingWorker.handshakeDone]
  split
  · exact accounted
  · rename_i future known
    have split := pending_perm known
    have others : ∀ other found,
        (receiving.handshakeFutures.erase engineId).lookup other = some found →
          ∀ entry ∈ found.waiting, followed entry.1 → Readable other entry.2 := by
      intro other found isFound
      have different : other ≠ engineId := by
        rintro rfl
        rw [AList.lookup_erase] at isFound
        cases isFound
      rw [AList.lookup_erase_ne different] at isFound
      exact accounted.waiting other found isFound
    have sameAgents := HandshakeWorker.nixlHandshake_remoteAgents worker.handshakes
      ⟨answers, future.tpSize, engineId⟩ receiving.tables
    rcases ended : worker.handshakes.nixlHandshake answers future.tpSize engineId
      receiving.tables with ⟨tables, raised | agents⟩
    · rw [ended] at sameAgents
      simp only
      rw [runCallbacks_error]
      refine Prepared.failWaiting ⟨?_, others, ?_⟩ (accounted.located.perm split.symm)
      · exact (accounted.knows.nixlHandshake someWorker ended).1
      · intro entry member isFollowed
        obtain ⟨other, isKnown, readable⟩ := accounted.ready entry member isFollowed
        refine ⟨other, ?_, readable⟩
        rwa [show tables.remoteAgents = receiving.tables.remoteAgents from sameAgents]
    · rw [ended] at sameAgents
      simp only
      rw [runCallbacks_ok]
      refine ⟨⟨(accounted.knows.nixlHandshake someWorker ended).2 agents rfl, others, ?_⟩, ?_⟩
      · intro entry member isFollowed
        rcases List.mem_append.mp member with member | member
        · obtain ⟨other, isKnown, readable⟩ := accounted.ready entry member isFollowed
          refine ⟨other, AList.mem_set.mpr (.inr ?_), readable⟩
          rwa [show tables.remoteAgents = receiving.tables.remoteAgents from sameAgents]
        · exact ⟨engineId, AList.mem_set.mpr (.inl rfl),
            accounted.waiting engineId future known entry member isFollowed⟩
      · refine accounted.located.perm (.trans ?_ split.symm)
        rw [Receiving.pending, ← List.append_assoc]
        exact List.perm_append_comm

theorem loadRequest (accounted : worker.Accounted followed loads receiving) {reqId : ReqId}
    {saved : ReqMeta} (reads : followed reqId → saved.ReadsBlocks)
    (loaded : worker.loadRequest receiving reqId saved = (next, .ok ())) :
    worker.Accounted followed (loads ++ [(reqId, saved)]) next := by
  rw [ReceivingWorker.loadRequest] at loaded
  split at loaded
  · cases loaded
  · rename_i remote isRemote
    let entry : ReqId × ReqMeta := (reqId, worker.inKernelBlocks saved remote)
    have readable (isFollowed : followed reqId) : Readable remote.engineId entry.2 :=
      inKernelBlocks_readable isRemote (reads isFollowed)
    let started : Receiving ω :=
      { receiving with
        reading :=
          { receiving.reading with
            recvingMetadata :=
              receiving.reading.recvingMetadata.set reqId (worker.inKernelBlocks saved remote) } }
    have prepared : worker.Prepared followed started :=
      ⟨accounted.knows, accounted.waiting, accounted.ready⟩
    have located : Located followed (loads ++ [(reqId, saved)]) (entry :: started.pending)
        started.reading started.log := accounted.located.load ⟨fun _ => id, fun _ => id⟩
    simp only at loaded
    split at loaded
    · cases loaded
      refine ⟨⟨accounted.knows, ?_, accounted.ready⟩,
        located.perm backgroundNixlHandshake_pending⟩
      intro other found isFound entry member
      by_cases same : other = remote.engineId
      · subst same
        have isFuture := AList.lookup_set.symm.trans isFound
        obtain rfl := Option.some.inj isFuture
        rcases List.mem_append.mp member with member | member
        · cases known : receiving.handshakeFutures.lookup remote.engineId with
          | none =>
              rw [known] at member
              cases member
          | some future =>
              rw [known] at member
              exact accounted.waiting _ future known entry member
        · obtain rfl := List.mem_singleton.mp member
          exact readable
      · have isFuture := (AList.lookup_set_ne same).symm.trans isFound
        exact accounted.waiting other found isFuture entry member
    · rename_i known
      have known := not_not.mp known
      exact (prepared.readBlocksForReq (fun isFollowed => ⟨_, known, readable isFollowed⟩) located
        loaded).1

theorem loadLoop (someWorker : 0 < worker.handshakes.worldSize) {turns : List LoadTurn}
    (accounted : worker.Accounted followed loads receiving)
    (reads : ∀ load ∈ turns.flatMap LoadTurn.loads, followed load.1 → load.2.ReadsBlocks)
    (looped : worker.loadLoop turns receiving = (next, .ok ())) :
    worker.Accounted followed (loads ++ turns.flatMap LoadTurn.loads) next := by
  induction turns generalizing loads receiving with
  | nil =>
      cases looped
      rw [List.flatMap_nil, List.append_nil]
      exact accounted
  | cons turn turns ih =>
      rw [List.flatMap_cons, List.forall_mem_append] at reads
      cases turn with
      | handshakeDone engineId answers =>
          exact ih (accounted.handshakeDone someWorker engineId answers) reads.2 looped
      | request reqId saved =>
          rw [List.flatMap_cons, ← List.append_assoc]
          rw [ReceivingWorker.loadLoop] at looped
          split at looped
          · rename_i middle loaded
            have here := reads.1 (reqId, saved) (List.mem_singleton_self _)
            exact ih (accounted.loadRequest here loaded) reads.2 looped
          · cases looped

theorem readReady {entries : List (ReqId × ReqMeta)}
    (accounted : worker.Accounted followed loads receiving)
    (ready : receiving.readyRequests = entries)
    (looped : worker.readReady entries receiving = (next, .ok ())) :
    worker.Accounted followed loads next ∧ next.readyRequests = [] := by
  induction entries generalizing receiving with
  | nil =>
      cases looped
      exact ⟨accounted, ready⟩
  | cons entry entries ih =>
      rw [ReceivingWorker.readReady] at looped
      have readable := accounted.ready entry (ready ▸ List.mem_cons_self)
      have prepared : worker.Prepared followed { receiving with readyRequests := entries } :=
        ⟨accounted.knows, accounted.waiting, fun other member =>
          accounted.ready other (ready ▸ List.mem_cons_of_mem _ member)⟩
      have front : Located followed loads
          (entry :: ({ receiving with readyRequests := entries } : Receiving ω).pending)
          receiving.reading receiving.log := by
        refine accounted.located.perm ?_
        rw [Receiving.pending, Receiving.pending, ready]
        exact List.perm_middle.symm
      split at looped
      · rename_i middle went
        obtain ⟨read, left⟩ := prepared.readBlocksForReq readable front went
        exact ih read left looped
      · cases looped

end Accounted

/-- A request with a transfer that goes on is still read. -/
theorem mem_popLoop {checks : XferHandle → XferCheck}
    {entries : List (Σ _ : ReqId, List XferHandle)} {reqId : ReqId}
    (goesOn : ∀ handles, ⟨reqId, handles⟩ ∈ entries → ∃ handle ∈ handles, (checks handle).isProc)
    {reading : Reading ω} (read : reqId ∈ reading.recvingTransfers) (done : KeySet ReqId) :
    reqId ∈ (worker.popLoop checks entries done reading).1.recvingTransfers := by
  induction entries generalizing reading done with
  | nil => exact read
  | cons entry entries ih =>
      obtain ⟨other, handles⟩ := entry
      obtain ⟨kept, transfers, _, _⟩ := worker.checkHandles_spec checks other handles reading
      have later : ∀ handles, ⟨reqId, handles⟩ ∈ entries →
          ∃ handle ∈ handles, (checks handle).isProc :=
        fun found member => goesOn found (List.mem_cons_of_mem _ member)
      rw [popLoop]
      cases checked : worker.checkHandles checks other handles reading with
      | mk next inProgress =>
          rw [checked] at kept transfers
          change inProgress = _ at kept
          change next.recvingTransfers = _ at transfers
          have still : reqId ∈ next.recvingTransfers := transfers ▸ read
          cases inProgress with
          | nil =>
              refine ih later (AList.mem_erase.mpr ⟨?_, still⟩) _
              rintro rfl
              obtain ⟨handle, member, isProc⟩ := goesOn handles List.mem_cons_self
              exact List.filter_eq_nil_iff.mp kept.symm handle member isProc
          | cons first inProgress => exact ih later (AList.mem_set.mpr (.inr still)) _

theorem mem_doneRecving {checks : XferHandle → XferCheck} (reading : Reading ω) {reqId : ReqId}
    {handles : List XferHandle} (known : reading.recvingTransfers.lookup reqId = some handles)
    (goesOn : ∃ handle ∈ handles, (checks handle).isProc) :
    reqId ∈ (worker.doneRecving checks reading).1.recvingTransfers := by
  refine mem_popLoop (fun found member => ?_)
    (AList.lookup_isSome.mp (Option.isSome_of_eq_some known)) ∅
  have isFound := AList.mem_lookup_iff.mpr member
  obtain rfl := Option.some.inj (known.symm.trans isFound)
  exact goesOn

/-- After `get_finished`, what is not pending was reported, or has a transfer that goes on. -/
theorem Accounted.getFinished (accounted : worker.Accounted followed loads receiving)
    {checks : XferHandle → XferCheck} {order : SetOrder} {done : KeySet ReqId}
    (finished : worker.getFinished receiving checks order = (next, .ok done)) :
    worker.Accounted followed loads next ∧ next.pending = receiving.pending ∧
      ∀ load ∈ loads, followed load.1 →
        load.1 ∈ receiving.pending.map Prod.fst ∨ load.1 ∈ next.log.reported ∨
          ∃ handles, receiving.reading.recvingTransfers.lookup load.1 = some handles ∧
            ∃ handle ∈ handles, (checks handle).isProc := by
  have received := received_onReading worker checks receiving
  have whole := accounted.located.finish received
  rw [ReceivingWorker.getFinished] at finished
  simp only at finished
  split at finished
  · cases finished
  · rename_i forgotten postProcess looped
    obtain ⟨_, _, recvingMetadata, receiveCalls, rfl⟩ := worker.finishLoop_eq_ok looped
    split at finished
    · cases finished
    · rename_i last processed
      obtain ⟨laterCalls, rfl⟩ := postProcessLoop_eq_ok processed
      cases finished
      refine ⟨⟨⟨accounted.knows, accounted.waiting, accounted.ready⟩, ?_⟩, rfl, whole⟩
      intro load member isFollowed
      rcases whole load member isFollowed with waits | reported | ⟨handles, known, goesOn⟩
      · exact .inl waits
      · exact .inr (.inr reported)
      · exact .inr (.inl (.inl (mem_doneRecving
          { receiving.reading with world := receiving.tables.world } known goesOn)))

theorem Accounted.startLoadKv (someWorker : 0 < worker.handshakes.worldSize)
    (accounted : worker.Accounted followed loads receiving) {turns : List LoadTurn}
    (reads : ∀ load ∈ turns.flatMap LoadTurn.loads, followed load.1 → load.2.ReadsBlocks)
    (taken : worker.startLoadKv receiving turns = (next, .ok ())) :
    worker.Accounted followed (loads ++ turns.flatMap LoadTurn.loads) next ∧
      next.readyRequests = [] := by
  rw [ReceivingWorker.startLoadKv] at taken
  split at taken
  · rename_i middle looped
    exact (accounted.loadLoop someWorker reads looped).readReady rfl taken
  · cases taken

/-! ## Runs -/

theorem Accounted.step (someWorker : 0 < worker.handshakes.worldSize)
    (accounted : worker.Accounted followed loads receiving) {event : ReceiveEvent}
    (reads : ∀ load ∈ event.loads, followed load.1 → load.2.ReadsBlocks)
    (taken : worker.step receiving event = .ok next) :
    worker.Accounted followed (loads ++ event.loads) next := by
  cases event with
  | startLoadKv turns =>
      rw [ReceivingWorker.step] at taken
      split at taken
      · rename_i last loaded
        cases taken
        exact (accounted.startLoadKv someWorker reads loaded).1
      · cases taken
  | handshakeDone engineId answers =>
      cases taken
      rw [ReceiveEvent.loads, List.append_nil]
      exact accounted.handshakeDone someWorker engineId answers
  | getFinished checks order =>
      rw [ReceiveEvent.loads, List.append_nil]
      rw [ReceivingWorker.step] at taken
      split at taken
      · rename_i last done finished
        cases taken
        exact (accounted.getFinished finished).1
      · cases taken
  | getBlockIdsWithLoadErrors =>
      cases taken
      rw [ReceiveEvent.loads, List.append_nil]
      refine ⟨⟨accounted.knows, accounted.waiting, accounted.ready⟩, ?_⟩
      exact accounted.located.mono (fun _ waits _ => .inl waits) ⟨fun _ => id, fun _ => id⟩ rfl

theorem Accounted.exec (someWorker : 0 < worker.handshakes.worldSize) {events : List ReceiveEvent}
    (accounted : worker.Accounted followed loads receiving)
    (reads : ∀ load ∈ events.flatMap ReceiveEvent.loads, followed load.1 → load.2.ReadsBlocks)
    (reached : Run.exec worker.step receiving events = .ok next) :
    worker.Accounted followed (loads ++ events.flatMap ReceiveEvent.loads) next := by
  induction events generalizing receiving loads with
  | nil =>
      cases reached
      rw [List.flatMap_nil, List.append_nil]
      exact accounted
  | cons event events ih =>
      obtain ⟨middle, taken, rest⟩ := Run.exec_cons_eq_ok.mp reached
      rw [List.flatMap_cons, List.forall_mem_append] at reads
      rw [List.flatMap_cons, ← List.append_assoc]
      exact ih (accounted.step someWorker reads.1 taken) reads.2 rest

theorem readReady_handshakeFutures {entries : List (ReqId × ReqMeta)}
    (looped : worker.readReady entries receiving = (next, .ok ())) :
    next.handshakeFutures = receiving.handshakeFutures := by
  induction entries generalizing receiving with
  | nil =>
      cases looped
      rfl
  | cons entry entries ih =>
      rw [readReady] at looped
      split at looped
      · rename_i middle went
        rw [ih looped, show middle = _ from (congrArg Prod.fst went).symm]
        rfl
      · cases looped

theorem startLoadKv_nil_pending (idle : receiving.handshakeFutures = ∅)
    (taken : worker.step receiving (.startLoadKv []) = .ok next)
    (none_ready : next.readyRequests = []) : next.pending = [] := by
  rw [step, startLoadKv] at taken
  simp only [loadLoop] at taken
  split at taken
  · rename_i last read
    cases taken
    rw [Receiving.pending, readReady_handshakeFutures read, idle, none_ready]
    rfl
  · cases taken

/-- **Everything is received.**  In every run of loading, handshakes and `get_finished`, each
request that was loaded with blocks to read waits for its handshake or to be read, is being read,
has failed, or was reported.  And when no handshake is under way and no transfer goes on any more,
the next `start_load_kv` and `get_finished` leave every request reported. -/
theorem received_all (worker : ReceivingWorker ω) (someWorker : 0 < worker.handshakes.worldSize)
    {tables : Handshakes ω} (fresh : tables.remoteAgents = ∅) {events : List ReceiveEvent}
    (reads : ∀ load ∈ events.flatMap ReceiveEvent.loads, load.2.ReadsBlocks) {final : Receiving ω}
    (reached : Run.exec worker.step (.init tables) events = .ok final) :
    (∀ load ∈ events.flatMap ReceiveEvent.loads, load.1 ∈ final.pending.map Prod.fst ∨
      final.reading.Handles load.1 ∨ load.1 ∈ final.log.reported) ∧
    ∀ read last checks order, final.handshakeFutures = ∅ →
      worker.step final (.startLoadKv []) = .ok read →
      (∀ reqId handles, read.reading.recvingTransfers.lookup reqId = some handles →
        ∀ handle ∈ handles, (checks handle).isProc = false) →
      worker.step read (.getFinished checks order) = .ok last →
      ∀ load ∈ events.flatMap ReceiveEvent.loads, load.1 ∈ last.log.reported := by
  have knows : worker.handshakes.KnowsTargets tables := by
    intro engineId known
    rw [fresh] at known
    cases known
  have start : worker.Accounted (fun _ => True) [] (.init tables) := .init knows
  have accounted := start.exec someWorker (fun load member _ => reads load member) reached
  refine ⟨fun load member => accounted.located load member trivial, ?_⟩
  intro read last checks order idle loaded ended finished load member
  have start : worker.Accounted (fun _ => True) (events.flatMap ReceiveEvent.loads) read ∧
      read.readyRequests = [] := by
    have isStep := loaded
    rw [step] at isStep
    split at isStep
    · rename_i middle ran
      cases isStep
      have none_loaded : ∀ load ∈ ([] : List LoadTurn).flatMap LoadTurn.loads,
          True → load.2.ReadsBlocks := List.forall_mem_nil _
      have kept := accounted.startLoadKv someWorker none_loaded ran
      rwa [List.flatMap_nil, List.append_nil] at kept
    · cases isStep
  have nothing_waits := startLoadKv_nil_pending idle loaded start.2
  rw [step] at finished
  split at finished
  · rename_i middle done ran
    cases finished
    have found := (start.1.getFinished ran).2.2 load member trivial
    rcases found with waits | reported | ⟨handles, known, goesOn⟩
    · rw [nothing_waits] at waits
      cases waits
    · exact reported
    · obtain ⟨handle, isHandle, isProc⟩ := goesOn
      cases (ended load.1 handles known handle isHandle).symm.trans isProc
  · cases finished

/-- A request of which one transfer began and the other was refused is reported when the first is
done. -/
theorem received_all_readHalves :
    ∃ last, Run.exec pickyWorker.step (.init HandshakeWorker.loneStart)
        (readHalves ++ [.startLoadKv [], .getFinished (allChecks .done) listOrder]) = .ok last ∧
      "request" ∈ last.log.reported := by
  have ran : (Run.exec pickyWorker.step (.init HandshakeWorker.loneStart) readHalves).toOption.any
      (fun final => final.handshakeFutures.entries.isEmpty &&
        (pickyWorker.step final (.startLoadKv [])).toOption.any fun read =>
          (pickyWorker.step read (.getFinished (allChecks .done) listOrder)).toOption.isSome) =
      true := by decide +kernel
  obtain ⟨final, reached, seen⟩ := Run.exists_of_any ran
  obtain ⟨idle, seen⟩ := Bool.and_eq_true_iff.mp seen
  obtain ⟨read, loaded, seen⟩ := Run.exists_of_any seen
  obtain ⟨last, finished⟩ : ∃ last,
      pickyWorker.step read (.getFinished (allChecks .done) listOrder) = .ok last := by
    cases took : pickyWorker.step read (.getFinished (allChecks .done) listOrder) with
    | ok last => exact ⟨last, rfl⟩
    | error raised =>
        rw [took] at seen
        cases seen
  have reads : ∀ load ∈ readHalves.flatMap ReceiveEvent.loads, load.2.ReadsBlocks := by
    intro load member
    obtain rfl : load = ("request", halvesRequest) := List.mem_singleton.mp member
    refine ⟨List.cons_ne_nil _ _, fun remote isRemote => ?_⟩
    cases isRemote
    exact List.cons_ne_nil _ _
  have all := (received_all pickyWorker Nat.one_pos rfl reads reached).2 read last
    (allChecks .done) listOrder (AList.ext (List.isEmpty_iff.mp idle)) loaded
    (fun _ _ _ _ _ => rfl) finished ("request", halvesRequest) (List.mem_singleton_self _)
  exact ⟨last, Run.exec_append_eq_ok.mpr ⟨final, reached, Run.exec_cons_eq_ok.mpr
    ⟨read, loaded, Run.exec_cons_eq_ok.mpr ⟨last, finished, rfl⟩⟩⟩, all⟩

end ReceivingWorker

end RduHdi
