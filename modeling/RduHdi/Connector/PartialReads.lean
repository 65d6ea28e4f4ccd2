import RduHdi.Connector.Completion

/-!
# Reads that may fail

With a transfer library that may fail at any call, the reads of a request send each of its remote
ranks the notif that is meant for it, or nothing: what is sent is always a part of what reads that
go through send.
-/

namespace RduHdi

/-- Between two states some of the given notifs were sent, in order. -/
def SentSome {ω : Type*} (before after : Reading ω) (posts : List (AgentName × ByteArray)) : Prop :=
  ∃ sent, Sent before after sent ∧ sent.Sublist posts

section SentSome

variable {ω : Type*} {before middle after : Reading ω} {posts : List (AgentName × ByteArray)}

theorem SentSome.of_calls (same : after.calls = before.calls) : SentSome before after posts :=
  ⟨[], ⟨[], by rw [same, List.append_nil], rfl⟩, List.nil_sublist posts⟩

theorem Sent.some (sent : Sent before after posts) : SentSome before after posts :=
  ⟨posts, sent, List.Sublist.refl posts⟩

theorem SentSome.trans {first second : List (AgentName × ByteArray)}
    (left : SentSome before middle first) (right : SentSome middle after second) :
    SentSome before after (first ++ second) := by
  obtain ⟨early, earlySent, earlyPart⟩ := left
  obtain ⟨late, lateSent, latePart⟩ := right
  exact ⟨early ++ late, earlySent.trans lateSent, earlyPart.append latePart⟩

theorem SentSome.mono {more : List (AgentName × ByteArray)} (sent : SentSome before after posts)
    (part : posts.Sublist more) : SentSome before after more := by
  obtain ⟨these, went, inside⟩ := sent
  exact ⟨these, went, inside.trans part⟩

theorem SentSome.left {others : List (AgentName × ByteArray)}
    (sent : SentSome before after posts) : SentSome before after (posts ++ others) :=
  sent.mono (List.sublist_append_left posts others)

theorem SentSome.newPosts_sublist (sent : SentSome before after posts) :
    (newPosts before after).Sublist posts := by
  obtain ⟨these, went, inside⟩ := sent
  rw [went.newPosts_eq]
  exact inside

end SentSome

namespace ReadingWorker

variable {ω : Type*} {worker : ReadingWorker ω}

theorem sendNotif_some (worker : ReadingWorker ω) (reading : Reading ω) (agent : AgentName)
    (notif : ByteArray) :
    SentSome reading (worker.sendNotif reading agent notif).1 [(agent, notif)] := by
  rw [sendNotif]
  split
  · exact Sent.some ⟨[.sendNotif agent notif], rfl, rfl⟩
  · exact SentSome.of_calls rfl

theorem beginXfer_some (worker : ReadingWorker ω) (reading : Reading ω) (args : ReadArgs)
    (localDescs remoteDescs : List ℕ) (notif : ByteArray) :
    SentSome reading (worker.beginXfer reading args localDescs remoteDescs notif)
      [(args.remoteXferSideHandle.agent, notif)] := by
  rw [beginXfer_eq]
  split
  · exact SentSome.of_calls rfl
  · split
    · exact SentSome.of_calls rfl
    · exact Sent.some ⟨[.read args.localXferSideHandle localDescs args.remoteXferSideHandle
        remoteDescs notif], rfl, rfl⟩

/-- One read sends at most one notif, to the agent of the remote rank. -/
theorem readBlocks_some {reading : Reading ω} {args : ReadArgs} {agents : Dict ℕ AgentName}
    {agent : AgentName} (known : worker.remoteAgents.lookup args.dstEngineId = some agents)
    (named : agents.lookup args.remoteRank = some agent)
    (prepared : args.remoteXferSideHandle.agent = agent) :
    SentSome reading (worker.readBlocks reading args).1
      [(agent, (notifId args.remoteRequestId worker.worldSize).toUTF8)] := by
  rw [readBlocks]
  simp only [known, Option.getD_some, Dict.get, named]
  split
  · exact sendNotif_some worker reading agent _
  · split
    · split
      · exact SentSome.of_calls rfl
      · rw [← prepared]
        exact beginXfer_some worker reading args _ _ _
    · exact SentSome.of_calls rfl

theorem notifyOthers_some (worker : ReadingWorker ω) (remoteRank : ℕ) (notif : ByteArray)
    (agents : List (Σ _ : ℕ, AgentName)) (reading : Reading ω) :
    SentSome reading (worker.notifyOthers remoteRank notif agents reading).1
      ((agents.filter fun entry => entry.1 ≠ remoteRank).map fun entry => (entry.2, notif)) := by
  induction agents generalizing reading with
  | nil => exact SentSome.of_calls rfl
  | cons entry agents ih =>
      obtain ⟨rankToNotify, agent⟩ := entry
      rw [notifyOthers]
      by_cases other : rankToNotify ≠ remoteRank
      · have first := sendNotif_some worker reading agent notif
        rw [if_pos other, List.filter_cons_of_pos (by simpa using other), List.map_cons]
        split
        · rename_i middle sent
          rw [sent] at first
          exact first.trans (ih middle)
        · rename_i middle raised failed
          rw [failed] at first
          exact first.left
      · rw [if_neg other, List.filter_cons_of_neg (by simpa using other)]
        exact ih reading

section Ranks

variable {remote : RemoteMeta} {address : ℕ → AgentName} {targets : List ℕ} {tpRatio : ℤ}

theorem read_some (handshaken : Handshaken worker remote.engineId address targets)
    {remoteRank index : ℕ} (inside : remoteRank ∈ targets) {localSide remoteSide : SideHandle}
    (handles : worker.sideHandles remote.engineId tpRatio index remoteRank =
      .ok (localSide, remoteSide)) (reqId : ReqId) (localBlockIds : List ℕ)
    (reading : Reading ω) :
    SentSome reading (worker.readBlocks reading
      { localBlockIds
        remoteBlockIds := remote.blockIds
        dstEngineId := remote.engineId
        requestId := reqId
        remoteRequestId := remote.requestId
        remoteRank
        localXferSideHandle := localSide
        remoteXferSideHandle := remoteSide }).1
      [(address remoteRank, (notifId remote.requestId worker.worldSize).toUTF8)] := by
  obtain ⟨agents, known, entries⟩ := handshaken.agents
  obtain ⟨sides, prepared, side⟩ := sideHandles_eq_ok handles
  have named : agents.lookup remoteRank = some (address remoteRank) := by
    rw [← Option.mem_def, AList.mem_lookup_iff, entries]
    exact List.mem_map_of_mem inside
  exact readBlocks_some known named (handshaken.sides sides prepared remoteRank remoteSide side)

/-- Without the single read every target rank is read from, until a read fails. -/
theorem readRanks_each_some (handshaken : Handshaken worker remote.engineId address targets)
    (each : ¬ (worker.useMla ∧ tpRatio < 0)) (reqId : ReqId) (localBlockIds : List ℕ)
    {ranks : List ℕ} (inside : ranks ⊆ targets) (index : ℕ) (reading : Reading ω) :
    SentSome reading (worker.readRanks reqId localBlockIds remote tpRatio index ranks reading).1
      (ranks.map fun rank =>
        (address rank, (notifId remote.requestId worker.worldSize).toUTF8)) := by
  induction ranks generalizing index reading with
  | nil => exact SentSome.of_calls rfl
  | cons remoteRank ranks ih =>
      obtain ⟨here, rest⟩ := List.cons_subset.mp inside
      have goes : ¬ (worker.useMla ∧ tpRatio < 0 ∧ index > 0) :=
        fun stops => each ⟨stops.1, stops.2.1⟩
      rw [readRanks, if_neg goes, List.map_cons]
      split
      · exact SentSome.of_calls rfl
      · rename_i localSide remoteSide handles
        have first := read_some handshaken here handles reqId localBlockIds reading
        simp only
        split
        · rename_i middle raised failed
          rw [failed] at first
          exact first.left
        · rename_i middle read
          rw [read] at first
          rw [if_neg each]
          exact first.trans (ih rest (index + 1) middle)

/-- With the single read at most the first target rank is read from, and the others are notified
with the local request id. -/
theorem readRanks_first_some {first : ℕ} {others : List ℕ}
    (handshaken : Handshaken worker remote.engineId address (first :: others))
    (fresh : first ∉ others) (single : worker.useMla ∧ tpRatio < 0) (reqId : ReqId)
    (localBlockIds : List ℕ) (reading : Reading ω) :
    SentSome reading
      (worker.readRanks reqId localBlockIds remote tpRatio 0 (first :: others) reading).1
      ((address first, (notifId remote.requestId worker.worldSize).toUTF8) ::
        others.map fun rank => (address rank, (notifId reqId worker.worldSize).toUTF8)) := by
  obtain ⟨agents, known, entries⟩ := handshaken.agents
  have rest : ((agents.entries.filter fun entry => entry.1 ≠ first).map fun entry =>
      (entry.2, (notifId reqId worker.worldSize).toUTF8)) =
      others.map fun rank => (address rank, (notifId reqId worker.worldSize).toUTF8) := by
    have kept : others.filter (fun rank => rank ≠ first) = others := by
      rw [List.filter_eq_self]
      intro rank member
      exact decide_eq_true fun same => fresh (same ▸ member)
    rw [entries, List.filter_map, List.map_map, List.filter_cons_of_neg (by simp)]
    exact congrArg _ kept
  rw [readRanks, if_neg (by simp)]
  split
  · exact SentSome.of_calls rfl
  · rename_i localSide remoteSide handles
    have read := read_some handshaken List.mem_cons_self handles reqId localBlockIds reading
    simp only
    split
    · rename_i middle raised failed
      rw [failed] at read
      exact read.left
    · rename_i middle went
      rw [went] at read
      have notified := notifyOthers_some worker first (notifId reqId worker.worldSize).toUTF8
        agents.entries middle
      rw [rest] at notified
      simp only [if_pos single, known, Option.getD_some]
      split
      · rename_i last raised failed
        rw [failed] at notified
        exact read.trans notified
      · rename_i last told
        rw [told] at notified
        have stopped : worker.readRanks reqId localBlockIds remote tpRatio (0 + 1) others last =
            (last, .ok ()) := by
          cases others with
          | nil => rfl
          | cons rank others =>
              rw [readRanks, if_pos ⟨single.1, single.2, Nat.one_pos⟩]
        rw [stopped]
        exact read.trans notified

end Ranks

/-- Whatever fails, the reads of a request send each target rank its notif at most once. -/
theorem readBlocksForReq_some {saved : ReqMeta} {remote : RemoteMeta}
    (remoteIs : saved.remote = some remote) {address : ℕ → AgentName} {targets : List ℕ}
    (nodup : targets.Nodup)
    (ranks : worker.kvTopo.getTargetRemoteRanksFromEngineId remote.engineId = targets)
    (handshaken : Handshaken worker remote.engineId address targets) (reading : Reading ω)
    (reqId : ReqId) :
    SentSome reading (worker.readBlocksForReq reading reqId saved).1
      (targets.map fun target => (address target,
        (notifId (worker.notifiedId (worker.kvTopo.tpRatioFromEngineId remote.engineId) targets
          reqId remote.requestId target) worker.worldSize).toUTF8)) := by
  rw [readBlocksForReq, remoteIs]
  simp only [ranks]
  generalize worker.kvTopo.tpRatioFromEngineId remote.engineId = tpRatio
  by_cases single : worker.useMla ∧ tpRatio < 0
  · cases targets with
    | nil => exact SentSome.of_calls rfl
    | cons first others =>
        have fresh := (List.nodup_cons.mp nodup).1
        have head : worker.notifiedId tpRatio (first :: others) reqId remote.requestId first =
            remote.requestId := by
          simp [notifiedId]
        have tail : ∀ rank ∈ others, worker.notifiedId tpRatio (first :: others) reqId
            remote.requestId rank = reqId := by
          intro rank member
          refine if_pos ⟨single.1, single.2, fun same => ?_⟩
          exact fresh (Option.some.inj same ▸ member)
        rw [List.map_cons, head, List.map_congr_left fun rank member => by rw [tail rank member]]
        exact readRanks_first_some handshaken fresh single reqId saved.localPhysicalBlockIds
          reading
  · have always : ∀ target, worker.notifiedId tpRatio targets reqId remote.requestId target =
        remote.requestId :=
      fun target => if_neg fun fans => single ⟨fans.1, fans.2.1⟩
    simp only [always]
    exact readRanks_each_some handshaken single reqId saved.localPhysicalBlockIds
      (List.Subset.refl targets) 0 reading

end ReadingWorker

end RduHdi
