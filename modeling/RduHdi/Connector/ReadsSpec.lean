import RduHdi.Connector.Reads
import RduHdi.Grid
import RduHdi.Run

/-!
# What the reads of a request send

With a transfer library that does not fail, every remote rank of a request is sent one completion
notif: alone, with the transfer, or, for the ranks whose copy of the cache is not read, as one of
the notifs that follow the only read.
-/

namespace RduHdi

/-! ## Which blocks are read -/

/-- Of some local and some remote blocks some are read. -/
theorem length_alignLocalBlocks_ne_zero {ratio : ℕ} {localBlockIds remoteBlockIds : List ℕ}
    (some_local : localBlockIds ≠ []) (some_remote : remoteBlockIds ≠ []) :
    (alignLocalBlocks ratio localBlockIds remoteBlockIds).length ≠ 0 := by
  rw [alignLocalBlocks]
  split
  · rename_i several
    obtain ⟨block, isBlock⟩ := List.exists_mem_of_ne_nil _ some_local
    have ratio_pos : 0 < ratio := by omega
    have mapped : getMappedBlocks localBlockIds ratio ≠ [] :=
      List.ne_nil_of_mem (List.mem_flatMap.mpr ⟨block, isBlock,
        List.mem_map.mpr ⟨0, List.mem_range.mpr ratio_pos, rfl⟩⟩)
    have mapped_pos := List.length_pos_of_ne_nil mapped
    have remote_pos := List.length_pos_of_ne_nil some_remote
    simp only
    split
    · rw [List.length_take]
      omega
    · omega
  · exact Nat.ne_of_gt (List.length_pos_of_ne_nil some_local)

theorem getMappedBlocks_one (blocks : List ℕ) : getMappedBlocks blocks 1 = blocks := by
  simp [getMappedBlocks]

theorem alignLocalBlocks_eq {ratio : ℕ} (positive : 0 < ratio) {localBlocks remoteBlocks : List ℕ}
    (enough : ratio = 1 → localBlocks.length ≤ remoteBlocks.length) :
    alignLocalBlocks ratio localBlocks remoteBlocks =
      (getMappedBlocks localBlocks ratio).take remoteBlocks.length := by
  rw [alignLocalBlocks]
  split
  · simp only
    split
    · rfl
    · rename_i fits
      exact (List.take_of_length_le (Nat.le_of_not_gt fits)).symm
  · obtain rfl : ratio = 1 := by omega
    rw [getMappedBlocks_one, List.take_of_length_le (enough rfl)]

/-- The local blocks of a read are valid in units of remote blocks. -/
theorem lt_of_mem_alignLocalBlocks {ratio count : ℕ} (positive : 0 < ratio)
    {localBlocks remoteBlocks : List ℕ} (valid : ∀ block ∈ localBlocks, block < count) :
    ∀ block ∈ alignLocalBlocks ratio localBlocks remoteBlocks, block < count * ratio := by
  have mapped : ∀ block ∈ getMappedBlocks localBlocks ratio, block < count * ratio := by
    intro unit member
    obtain ⟨block, isBlock, member⟩ := List.mem_flatMap.mp member
    obtain ⟨offset, inside, rfl⟩ := List.mem_map.mp member
    exact Grid.cell_lt (valid block isBlock) (List.mem_range.mp inside)
  intro block member
  rw [alignLocalBlocks] at member
  split at member
  · simp only at member
    split at member
    · exact mapped block (List.mem_of_mem_take member)
    · exact mapped block member
  · obtain rfl : ratio = 1 := by omega
    rw [Nat.mul_one]
    exact valid block member

theorem alignRemoteBlocks_eq {count : ℕ} {remoteBlocks : List ℕ} (some_read : count ≠ 0)
    (enough : count ≤ remoteBlocks.length) :
    alignRemoteBlocks count remoteBlocks = remoteBlocks.drop (remoteBlocks.length - count) := by
  rw [alignRemoteBlocks]
  split
  · rw [lastBlocks, if_neg some_read]
  · have all : remoteBlocks.length - count = 0 := by omega
    rw [all, List.drop_zero]

theorem ReadingWorker.getBlockDescsIds_eq_ok {ω : Type*} {worker : ReadingWorker ω}
    {engineId : EngineId} {blockIds descs : List ℕ} {layerIdx blockSizeRatio : Option ℕ}
    (taken : worker.getBlockDescsIds engineId blockIds layerIdx blockSizeRatio = .ok descs) :
    ∃ count regions, worker.dstNumBlocks.lookup engineId = some count ∧
      worker.regionIds layerIdx = .ok regions ∧
      descs = regions.flatMap fun region =>
        blockIds.map fun block => region * (count * blockSizeRatio.getD 1) + block := by
  rw [getBlockDescsIds] at taken
  obtain ⟨regions, chosen, taken⟩ := Run.bind_eq_ok.mp taken
  obtain ⟨count, known, taken⟩ := Run.bind_eq_ok.mp taken
  cases taken
  exact ⟨count, regions, Dict.get_eq_ok.mp known, chosen, rfl⟩

/-! ## What is sent -/

/-- Operations that do not fail. -/
structure NixlReader.Reliable {ω : Type*} (nixl : NixlReader ω) : Prop where
  /-- A notif is sent. -/
  sendNotif : ∀ world agent notif, (nixl.sendNotif world agent notif).2 = .ok ()
  /-- A transfer is set up. -/
  makePreppedXfer : ∀ world localSide localDescs remoteSide remoteDescs notif, ∃ handle,
    (nixl.makePreppedXfer world localSide localDescs remoteSide remoteDescs notif).2 = .ok handle
  /-- It begins. -/
  transfer : ∀ world handle, (nixl.transfer world handle).2 = .ok ()

/-- The notif of a call, with the agent it reaches. -/
def ReadCall.post : ReadCall → AgentName × ByteArray
  | .sendNotif agent notif => (agent, notif)
  | .read _ _ remoteSide _ notif => (remoteSide.agent, notif)

/-- Between two states the given notifs were sent. -/
def Sent {ω : Type*} (before after : Reading ω) (posts : List (AgentName × ByteArray)) : Prop :=
  ∃ calls, after.calls = before.calls ++ calls ∧ calls.map ReadCall.post = posts

section Sent

variable {ω : Type*} {before middle after : Reading ω}

theorem Sent.refl (reading : Reading ω) : Sent reading reading [] :=
  ⟨[], (List.append_nil _).symm, rfl⟩

theorem Sent.trans {first second : List (AgentName × ByteArray)} (left : Sent before middle first)
    (right : Sent middle after second) : Sent before after (first ++ second) := by
  obtain ⟨early, earlyCalls, rfl⟩ := left
  obtain ⟨late, lateCalls, rfl⟩ := right
  refine ⟨early ++ late, ?_, List.map_append⟩
  rw [lateCalls, earlyCalls, List.append_assoc]

end Sent

namespace ReadingWorker

variable {ω : Type*} {worker : ReadingWorker ω}

theorem sendNotif_sent (reliable : worker.nixl.Reliable) (reading : Reading ω)
    (agent : AgentName) (notif : ByteArray) :
    ∃ next, worker.sendNotif reading agent notif = (next, .ok ()) ∧
      Sent reading next [(agent, notif)] := by
  have succeeds := reliable.sendNotif reading.world agent notif
  rw [sendNotif]
  cases outcome : worker.nixl.sendNotif reading.world agent notif with
  | mk world result =>
      rw [outcome] at succeeds
      cases succeeds
      exact ⟨_, rfl, [.sendNotif agent notif], rfl, rfl⟩

theorem beginXfer_sent (reliable : worker.nixl.Reliable) (reading : Reading ω) (args : ReadArgs)
    (localDescs remoteDescs : List ℕ) (notif : ByteArray) :
    Sent reading (worker.beginXfer reading args localDescs remoteDescs notif)
      [(args.remoteXferSideHandle.agent, notif)] := by
  obtain ⟨handle, prepared⟩ := reliable.makePreppedXfer reading.world args.localXferSideHandle
    localDescs args.remoteXferSideHandle remoteDescs notif
  rw [beginXfer_eq]
  cases outcome : worker.nixl.makePreppedXfer reading.world args.localXferSideHandle localDescs
      args.remoteXferSideHandle remoteDescs notif with
  | mk world result =>
      rw [outcome] at prepared
      cases prepared
      have begun := reliable.transfer world handle
      simp only
      cases started : worker.nixl.transfer world handle with
      | mk later result =>
          rw [started] at begun
          cases begun
          exact ⟨[.read args.localXferSideHandle localDescs args.remoteXferSideHandle remoteDescs
            notif], rfl, rfl⟩

/-- One read sends one notif, to the agent of the remote rank. -/
theorem readBlocks_sent (reliable : worker.nixl.Reliable) {reading next : Reading ω}
    {args : ReadArgs} {agents : Dict ℕ AgentName} {agent : AgentName}
    (known : worker.remoteAgents.lookup args.dstEngineId = some agents)
    (named : agents.lookup args.remoteRank = some agent)
    (prepared : args.remoteXferSideHandle.agent = agent)
    (taken : worker.readBlocks reading args = (next, .ok ())) :
    Sent reading next
      [(agent, (notifId args.remoteRequestId worker.worldSize).toUTF8)] := by
  rw [readBlocks] at taken
  simp only [known, Option.getD_some, Dict.get, named] at taken
  split at taken
  · obtain ⟨sent, succeeds, posts⟩ := sendNotif_sent reliable reading agent
      (notifId args.remoteRequestId worker.worldSize).toUTF8
    rw [succeeds] at taken
    cases taken
    exact posts
  · split at taken
    · split at taken
      · cases taken
      · cases taken
        rw [← prepared]
        exact beginXfer_sent reliable reading args _ _ _
    · cases taken

theorem notifyOthers_sent (reliable : worker.nixl.Reliable) (remoteRank : ℕ) (notif : ByteArray)
    (agents : List (Σ _ : ℕ, AgentName)) (reading : Reading ω) :
    ∃ next, worker.notifyOthers remoteRank notif agents reading = (next, .ok ()) ∧
      Sent reading next ((agents.filter fun entry => entry.1 ≠ remoteRank).map
        fun entry => (entry.2, notif)) := by
  induction agents generalizing reading with
  | nil => exact ⟨reading, rfl, .refl reading⟩
  | cons entry agents ih =>
      obtain ⟨rankToNotify, agent⟩ := entry
      rw [notifyOthers]
      by_cases other : rankToNotify ≠ remoteRank
      · obtain ⟨sent, succeeds, first⟩ := sendNotif_sent reliable reading agent notif
        obtain ⟨next, taken, rest⟩ := ih sent
        refine ⟨next, ?_, ?_⟩
        · rw [if_pos other, succeeds]
          exact taken
        · rw [List.filter_cons_of_pos (by simpa using other), List.map_cons]
          exact first.trans rest
      · obtain ⟨next, taken, rest⟩ := ih reading
        refine ⟨next, ?_, ?_⟩
        · rw [if_neg other]
          exact taken
        · rw [List.filter_cons_of_neg (by simpa using other)]
          exact rest

theorem sideHandles_eq_ok {engineId : EngineId} {tpRatio : ℤ} {index remoteRank : ℕ}
    {localSide remoteSide : SideHandle}
    (taken : worker.sideHandles engineId tpRatio index remoteRank = .ok (localSide, remoteSide)) :
    ∃ sides, worker.dstXferSideHandles.lookup engineId = some sides ∧
      sides.lookup remoteRank = some remoteSide := by
  rw [sideHandles] at taken
  obtain ⟨_, _, taken⟩ := Run.bind_eq_ok.mp taken
  obtain ⟨_, _, taken⟩ := Run.bind_eq_ok.mp taken
  obtain ⟨sides, known, taken⟩ := Run.bind_eq_ok.mp taken
  obtain ⟨remote, prepared, taken⟩ := Run.bind_eq_ok.mp taken
  cases taken
  exact ⟨sides, Dict.get_eq_ok.mp known, Dict.get_eq_ok.mp prepared⟩

/-- What a handshake with the target ranks of an engine leaves: their agents, in order, and sides
that are prepared for these agents. -/
structure Handshaken (worker : ReadingWorker ω) (engineId : EngineId) (address : ℕ → AgentName)
    (targets : List ℕ) : Prop where
  /-- There is an agent for each rank to read from. -/
  agents : ∃ agents, worker.remoteAgents.lookup engineId = some agents ∧
    agents.entries = targets.map fun target => ⟨target, address target⟩
  /-- A list is for the agent of its rank. -/
  sides : ∀ sides, worker.dstXferSideHandles.lookup engineId = some sides →
    ∀ target side, sides.lookup target = some side → side.agent = address target

section Ranks

variable {remote : RemoteMeta} {address : ℕ → AgentName} {targets : List ℕ} {tpRatio : ℤ}
  {reading next : Reading ω}

theorem read_sent (reliable : worker.nixl.Reliable)
    (handshaken : Handshaken worker remote.engineId address targets) {remoteRank index : ℕ}
    (inside : remoteRank ∈ targets) {localSide remoteSide : SideHandle}
    (handles : worker.sideHandles remote.engineId tpRatio index remoteRank =
      .ok (localSide, remoteSide)) {reqId : ReqId} {localBlockIds : List ℕ}
    (taken : worker.readBlocks reading
      { localBlockIds
        remoteBlockIds := remote.blockIds
        dstEngineId := remote.engineId
        requestId := reqId
        remoteRequestId := remote.requestId
        remoteRank
        localXferSideHandle := localSide
        remoteXferSideHandle := remoteSide } = (next, .ok ())) :
    Sent reading next
      [(address remoteRank, (notifId remote.requestId worker.worldSize).toUTF8)] := by
  obtain ⟨agents, known, entries⟩ := handshaken.agents
  obtain ⟨sides, prepared, side⟩ := sideHandles_eq_ok handles
  have named : agents.lookup remoteRank = some (address remoteRank) := by
    rw [← Option.mem_def, AList.mem_lookup_iff, entries]
    exact List.mem_map_of_mem inside
  exact readBlocks_sent reliable known named
    (handshaken.sides sides prepared remoteRank remoteSide side) taken

/-- Without the single read every target rank is read from. -/
theorem readRanks_each (reliable : worker.nixl.Reliable)
    (handshaken : Handshaken worker remote.engineId address targets)
    (each : ¬ (worker.useMla ∧ tpRatio < 0)) {reqId : ReqId} {localBlockIds ranks : List ℕ}
    (inside : ranks ⊆ targets) {index : ℕ}
    (taken : worker.readRanks reqId localBlockIds remote tpRatio index ranks reading =
      (next, .ok ())) :
    Sent reading next (ranks.map fun rank =>
      (address rank, (notifId remote.requestId worker.worldSize).toUTF8)) := by
  induction ranks generalizing index reading with
  | nil =>
      cases taken
      exact .refl _
  | cons remoteRank ranks ih =>
      obtain ⟨here, rest⟩ := List.cons_subset.mp inside
      have goes : ¬ (worker.useMla ∧ tpRatio < 0 ∧ index > 0) :=
        fun stops => each ⟨stops.1, stops.2.1⟩
      rw [readRanks, if_neg goes] at taken
      split at taken
      · cases taken
      · rename_i localSide remoteSide handles
        simp only at taken
        split at taken
        · cases taken
        · rename_i middle read
          rw [if_neg each] at taken
          exact (read_sent reliable handshaken here handles read).trans (ih rest taken)

/-- With the single read the first target rank is read from, and the others are notified with the
local request id. -/
theorem readRanks_first (reliable : worker.nixl.Reliable) {first : ℕ} {others : List ℕ}
    (handshaken : Handshaken worker remote.engineId address (first :: others))
    (fresh : first ∉ others) (single : worker.useMla ∧ tpRatio < 0) {reqId : ReqId}
    {localBlockIds : List ℕ}
    (taken : worker.readRanks reqId localBlockIds remote tpRatio 0 (first :: others) reading =
      (next, .ok ())) :
    Sent reading next
      ((address first, (notifId remote.requestId worker.worldSize).toUTF8) ::
        others.map fun rank => (address rank, (notifId reqId worker.worldSize).toUTF8)) := by
  obtain ⟨agents, known, entries⟩ := handshaken.agents
  have rest : ((agents.entries.filter fun entry => entry.1 ≠ first).map fun entry =>
      (entry.2, (notifId reqId worker.worldSize).toUTF8)) =
      others.map fun rank => (address rank, (notifId reqId worker.worldSize).toUTF8) := by
    have kept : others.filter (fun rank => rank ≠ first) = others := by
      rw [List.filter_eq_self]
      intro rank member
      exact decide_eq_true fun same => fresh (same ▸ member)
    rw [entries, List.filter_map, List.map_map, List.filter_cons_of_neg (by simp)]
    exact congrArg _ kept
  rw [readRanks, if_neg (by simp)] at taken
  split at taken
  · cases taken
  · rename_i localSide remoteSide handles
    simp only at taken
    split at taken
    · cases taken
    · rename_i middle read
      obtain ⟨last, notified, posts⟩ := notifyOthers_sent reliable first
        (notifId reqId worker.worldSize).toUTF8 agents.entries middle
      simp only [if_pos single, known, Option.getD_some, notified] at taken
      have stopped : worker.readRanks reqId localBlockIds remote tpRatio (0 + 1) others last =
          (last, .ok ()) := by
        cases others with
        | nil => rfl
        | cons rank others =>
            rw [readRanks, if_pos ⟨single.1, single.2, Nat.one_pos⟩]
      rw [stopped] at taken
      cases taken
      rw [rest] at posts
      exact (read_sent reliable handshaken List.mem_cons_self handles read).trans posts

end Ranks

/-- The request id in the notif for a target rank. -/
def notifiedId (worker : ReadingWorker ω) (tpRatio : ℤ) (targets : List ℕ)
    (reqId remoteRequestId : ReqId) (target : ℕ) : ReqId :=
  if worker.useMla ∧ tpRatio < 0 ∧ targets.head? ≠ some target then reqId else remoteRequestId

/-- The reads of a request send one notif to each target rank. -/
theorem readBlocksForReq_sent (reliable : worker.nixl.Reliable) {saved : ReqMeta}
    {remote : RemoteMeta} (remoteIs : saved.remote = some remote) {address : ℕ → AgentName}
    {targets : List ℕ} (nodup : targets.Nodup)
    (ranks : worker.kvTopo.getTargetRemoteRanksFromEngineId remote.engineId = targets)
    (handshaken : Handshaken worker remote.engineId address targets) {reading next : Reading ω}
    {reqId : ReqId} (taken : worker.readBlocksForReq reading reqId saved = (next, .ok ())) :
    Sent reading next (targets.map fun target => (address target,
      (notifId (worker.notifiedId (worker.kvTopo.tpRatioFromEngineId remote.engineId) targets reqId
        remote.requestId target) worker.worldSize).toUTF8)) := by
  rw [readBlocksForReq, remoteIs] at taken
  simp only [ranks] at taken
  generalize worker.kvTopo.tpRatioFromEngineId remote.engineId = tpRatio at taken ⊢
  by_cases single : worker.useMla ∧ tpRatio < 0
  · cases targets with
    | nil =>
        cases taken
        exact .refl _
    | cons first others =>
        have fresh := (List.nodup_cons.mp nodup).1
        have sent := readRanks_first reliable handshaken fresh single taken
        have head : worker.notifiedId tpRatio (first :: others) reqId remote.requestId first =
            remote.requestId := by
          simp [notifiedId]
        have tail : ∀ rank ∈ others, worker.notifiedId tpRatio (first :: others) reqId
            remote.requestId rank = reqId := by
          intro rank member
          refine if_pos ⟨single.1, single.2, fun same => ?_⟩
          exact fresh (Option.some.inj same ▸ member)
        rw [List.map_cons, head, List.map_congr_left fun rank member => by rw [tail rank member]]
        exact sent
  · have always : ∀ target, worker.notifiedId tpRatio targets reqId remote.requestId target =
        remote.requestId :=
      fun target => if_neg fun fans => single ⟨fans.1, fans.2.1⟩
    simp only [always]
    exact readRanks_each reliable handshaken single (List.Subset.refl targets) taken

end ReadingWorker

end RduHdi
