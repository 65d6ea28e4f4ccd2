import RduHdi.Connector.Receiving

/-!
# Where a loaded request is

A request that is loaded waits for a handshake, is read, or is reported.  This file says what each
piece of the receiving half does to the requests: what the reads of one request may change, and
what becomes of the transfers when they are asked after.
-/

namespace RduHdi

/-! ## Reads of one request -/

/-- The blocks of a request are invalid, as far as its metadata says which they are. -/
def Marked {ω : Type*} (before after : Reading ω) (reqId : ReqId) : Prop :=
  ∀ saved, before.recvingMetadata.lookup reqId = some saved →
    ∀ block ∈ saved.localBlockIds, block ∈ after.invalidBlockIds

/-- The transfers under way are the ones that are kept with their requests. -/
structure Reading.Tracked {ω : Type*} (reading : Reading ω) : Prop where
  /-- A transfer under way is kept. -/
  kept : ∀ transfer ∈ reading.underway, ∃ handles,
    reading.recvingTransfers.lookup transfer.1 = some handles ∧ transfer.2 ∈ handles
  /-- A transfer that is kept is under way. -/
  underway : ∀ reqId handles, reading.recvingTransfers.lookup reqId = some handles →
    ∀ handle ∈ handles, (reqId, handle) ∈ reading.underway

theorem Reading.Tracked.of_same {ω : Type*} {reading next : Reading ω} (tracked : reading.Tracked)
    (recvingTransfers : next.recvingTransfers = reading.recvingTransfers)
    (underway : next.underway = reading.underway) : next.Tracked where
  kept := by rw [recvingTransfers, underway]; exact tracked.kept
  underway := by rw [recvingTransfers, underway]; exact tracked.underway

/-- A transfer that is begun is kept with its request. -/
theorem Reading.Tracked.begun {ω : Type*} {reading next : Reading ω} (tracked : reading.Tracked)
    {reqId : ReqId} {handle : XferHandle}
    (transfers : next.recvingTransfers = reading.recvingTransfers.set reqId
      ((reading.recvingTransfers.lookup reqId).getD [] ++ [handle]))
    (underway : next.underway = reading.underway ++ [(reqId, handle)]) : next.Tracked where
  kept transfer member := by
    rw [underway] at member
    rw [transfers]
    by_cases same : transfer.1 = reqId
    · rw [same, AList.lookup_set]
      refine ⟨_, rfl, List.mem_append.mpr ?_⟩
      rcases List.mem_append.mp member with earlier | now
      · obtain ⟨handles, known, isHandle⟩ := tracked.kept transfer earlier
        rw [← same, known]
        exact .inl isHandle
      · rw [List.mem_singleton.mp now]
        exact .inr (List.mem_singleton_self handle)
    · rw [AList.lookup_set_ne same]
      rcases List.mem_append.mp member with earlier | now
      · exact tracked.kept transfer earlier
      · exact absurd (congrArg Prod.fst (List.mem_singleton.mp now)) same
  underway other handles known found isFound := by
    rw [transfers] at known
    rw [underway]
    by_cases same : other = reqId
    · subst same
      rw [AList.lookup_set] at known
      obtain rfl := Option.some.inj known
      rcases List.mem_append.mp isFound with earlier | now
      · cases before : reading.recvingTransfers.lookup other with
        | none =>
            rw [before] at earlier
            cases earlier
        | some others =>
            rw [before] at earlier
            exact List.mem_append_left _ (tracked.underway other others before found earlier)
      · rw [List.mem_singleton.mp now]
        exact List.mem_append_right _ (List.mem_singleton_self _)
    · rw [AList.lookup_set_ne same] at known
      exact List.mem_append_left _ (tracked.underway other handles known found isFound)

/-- Between two states only reads of one request were done, and if NIXL refused one, the blocks of
the request are invalid. -/
structure ReadsFor {ω : Type*} (reqId : ReqId) (before after : Reading ω) : Prop where
  /-- The metadata stay. -/
  recvingMetadata : after.recvingMetadata = before.recvingMetadata
  /-- Only this request gets a transfer. -/
  recvingTransfers : ∀ other ∈ after.recvingTransfers,
    other = reqId ∨ other ∈ before.recvingTransfers
  /-- Only this request fails. -/
  failedRecvReqs : ∀ other ∈ after.failedRecvReqs, other = reqId ∨ other ∈ before.failedRecvReqs
  /-- Invalid blocks stay so. -/
  invalidBlockIds : ∀ block ∈ before.invalidBlockIds, block ∈ after.invalidBlockIds
  /-- Only this request is refused. -/
  refused : ∀ other ∈ after.refused, other = reqId ∨ other ∈ before.refused
  /-- When it is, its blocks are invalid. -/
  marks : reqId ∈ after.refused → reqId ∈ before.refused ∨ Marked before after reqId
  /-- The transfers under way stay kept. -/
  tracked : before.Tracked → after.Tracked

namespace ReadsFor

variable {ω : Type*} {reqId : ReqId} {before middle after : Reading ω}

theorem of_same (recvingMetadata : after.recvingMetadata = before.recvingMetadata)
    (recvingTransfers : after.recvingTransfers = before.recvingTransfers)
    (failedRecvReqs : after.failedRecvReqs = before.failedRecvReqs)
    (invalidBlockIds : after.invalidBlockIds = before.invalidBlockIds)
    (refused : after.refused = before.refused) (underway : after.underway = before.underway) :
    ReadsFor reqId before after where
  recvingMetadata := recvingMetadata
  recvingTransfers _ member := .inr (recvingTransfers ▸ member)
  failedRecvReqs _ member := .inr (failedRecvReqs ▸ member)
  invalidBlockIds _ member := invalidBlockIds ▸ member
  refused _ member := .inr (refused ▸ member)
  marks isRefused := .inl (refused ▸ isRefused)
  tracked tracked := tracked.of_same recvingTransfers underway

theorem refl (reqId : ReqId) (reading : Reading ω) : ReadsFor reqId reading reading :=
  .of_same rfl rfl rfl rfl rfl rfl

theorem trans (first : ReadsFor reqId before middle) (second : ReadsFor reqId middle after) :
    ReadsFor reqId before after where
  recvingMetadata := second.recvingMetadata.trans first.recvingMetadata
  recvingTransfers other member :=
    (second.recvingTransfers other member).elim .inl (first.recvingTransfers other)
  failedRecvReqs other member :=
    (second.failedRecvReqs other member).elim .inl (first.failedRecvReqs other)
  invalidBlockIds block member :=
    second.invalidBlockIds block (first.invalidBlockIds block member)
  refused other member := (second.refused other member).elim .inl (first.refused other)
  marks refused := by
    rcases second.marks refused with earlier | marked
    · rcases first.marks earlier with start | marked
      · exact .inl start
      · exact .inr fun saved known block member =>
          second.invalidBlockIds block (marked saved known block member)
    · exact .inr fun saved known => marked saved (first.recvingMetadata ▸ known)
  tracked tracked := second.tracked (first.tracked tracked)

end ReadsFor

namespace ReadingWorker

variable {ω : Type*} (worker : ReadingWorker ω) (reading : Reading ω)

theorem sendNotif_readsFor (reqId : ReqId) (agent : AgentName) (notif : ByteArray) :
    ReadsFor reqId reading (worker.sendNotif reading agent notif).1 := by
  rw [sendNotif]
  cases worker.nixl.sendNotif reading.world agent notif with
  | mk world result =>
      cases result with
      | ok _ => exact .of_same rfl rfl rfl rfl rfl rfl
      | error raised => exact .of_same rfl rfl rfl rfl rfl rfl

theorem failTransfer_readsFor (reqId : ReqId) (handle : Option XferHandle) (world : ω) :
    ReadsFor reqId reading
      (worker.failTransfer { reading with world, refused := reading.refused.add reqId } reqId
        handle) where
  recvingMetadata := rfl
  recvingTransfers _ member := .inr member
  failedRecvReqs _ member := AList.mem_add.mp member
  invalidBlockIds _ member := Reading.mem_withInvalid.mpr (.inl member)
  refused _ member := AList.mem_add.mp member
  marks _ := .inr fun saved known _ member =>
    Reading.mem_withInvalid.mpr (.inr ⟨saved, known, member⟩)
  tracked tracked := tracked.of_same rfl rfl

theorem beginXfer_readsFor (args : ReadArgs) (localDescs remoteDescs : List ℕ)
    (notif : ByteArray) :
    ReadsFor args.requestId reading
      (worker.beginXfer reading args localDescs remoteDescs notif) := by
  rw [beginXfer_eq]
  split
  · rename_i world raised prepared
    exact worker.failTransfer_readsFor reading args.requestId none world
  · rename_i world handle prepared
    split
    · rename_i later raised begun
      exact worker.failTransfer_readsFor reading args.requestId (some handle) later
    · exact
        { recvingMetadata := rfl
          recvingTransfers := fun _ => AList.mem_set.mp
          failedRecvReqs := fun _ => .inr
          invalidBlockIds := fun _ => id
          refused := fun _ => .inr
          marks := .inl
          tracked := fun tracked => tracked.begun rfl rfl }

theorem readBlocks_readsFor (args : ReadArgs) :
    ReadsFor args.requestId reading (worker.readBlocks reading args).1 := by
  rw [readBlocks]
  simp only
  split
  · split
    · exact .refl _ _
    · exact worker.sendNotif_readsFor _ _ _ _
  · split
    · split
      · exact .refl _ _
      · exact worker.beginXfer_readsFor _ args _ _ _
    · exact .refl _ _

theorem notifyOthers_readsFor (reqId : ReqId) (remoteRank : ℕ) (notif : ByteArray)
    (agents : List (Σ _ : ℕ, AgentName)) :
    ReadsFor reqId reading (worker.notifyOthers remoteRank notif agents reading).1 := by
  induction agents generalizing reading with
  | nil => exact .refl _ _
  | cons entry agents ih =>
      obtain ⟨rankToNotify, agent⟩ := entry
      rw [notifyOthers]
      split
      · have sent := worker.sendNotif_readsFor reading reqId agent notif
        split
        · rename_i next notified
          rw [notified] at sent
          exact sent.trans (ih next)
        · rename_i next raised refused
          rw [refused] at sent
          exact sent
      · exact ih reading

/-- The reads of a request are as the reads from its ranks are. -/
theorem readRanks_readsFor_of {reqId other : ReqId} {localBlockIds : List ℕ}
    (reads : ∀ (reading : Reading ω) (args : ReadArgs), args.requestId = reqId →
      args.localBlockIds = localBlockIds →
        ReadsFor other reading (worker.readBlocks reading args).1)
    (remote : RemoteMeta) (tpRatio : ℤ) (index : ℕ) (remoteRanks : List ℕ) :
    ReadsFor other reading
      (worker.readRanks reqId localBlockIds remote tpRatio index remoteRanks reading).1 := by
  induction remoteRanks generalizing index reading with
  | nil => exact .refl _ _
  | cons remoteRank remoteRanks ih =>
      rw [readRanks]
      split
      · exact .refl _ _
      · split
        · exact .refl _ _
        · rename_i localSide remoteSide sides
          have read := reads reading
            { localBlockIds
              remoteBlockIds := remote.blockIds
              dstEngineId := remote.engineId
              requestId := reqId
              remoteRequestId := remote.requestId
              remoteRank
              localXferSideHandle := localSide
              remoteXferSideHandle := remoteSide } rfl rfl
          simp only
          split
          · rename_i next raised refused
            rw [refused] at read
            exact read
          · rename_i next done
            rw [done] at read
            split
            · have notified := worker.notifyOthers_readsFor next other remoteRank
                (notifId reqId worker.worldSize).toUTF8
                ((worker.remoteAgents.lookup remote.engineId).getD ∅).entries
              split
              · rename_i last raised refused
                rw [refused] at notified
                exact read.trans notified
              · rename_i last told
                rw [told] at notified
                exact read.trans (notified.trans (ih _ _))
            · exact read.trans (ih _ _)

theorem readRanks_readsFor (reqId : ReqId) (localBlockIds : List ℕ) (remote : RemoteMeta)
    (tpRatio : ℤ) (index : ℕ) (remoteRanks : List ℕ) :
    ReadsFor reqId reading
      (worker.readRanks reqId localBlockIds remote tpRatio index remoteRanks reading).1 := by
  apply worker.readRanks_readsFor_of
  rintro reading args rfl _
  exact worker.readBlocks_readsFor reading args

theorem readBlocksForReq_readsFor (reqId : ReqId) (saved : ReqMeta) :
    ReadsFor reqId reading (worker.readBlocksForReq reading reqId saved).1 := by
  rw [readBlocksForReq]
  split
  · exact .refl _ _
  · exact worker.readRanks_readsFor _ _ _ _ _ _ _

end ReadingWorker

/-! ## Asking after transfers -/

/-- Between two states nothing happened to requests but that blocks became invalid. -/
structure OnlyMarks {ω : Type*} (before after : Reading ω) : Prop where
  /-- The metadata stay. -/
  recvingMetadata : after.recvingMetadata = before.recvingMetadata
  /-- So do the failed requests. -/
  failedRecvReqs : after.failedRecvReqs = before.failedRecvReqs
  /-- So do the refused ones. -/
  refused : after.refused = before.refused
  /-- Invalid blocks stay so. -/
  invalidBlockIds : ∀ block ∈ before.invalidBlockIds, block ∈ after.invalidBlockIds

theorem OnlyMarks.trans {ω : Type*} {before middle after : Reading ω}
    (first : OnlyMarks before middle) (second : OnlyMarks middle after) :
    OnlyMarks before after where
  recvingMetadata := second.recvingMetadata.trans first.recvingMetadata
  failedRecvReqs := second.failedRecvReqs.trans first.failedRecvReqs
  refused := second.refused.trans first.refused
  invalidBlockIds block member :=
    second.invalidBlockIds block (first.invalidBlockIds block member)

theorem Marked.of_onlyMarks {ω : Type*} {before middle after : Reading ω} {reqId : ReqId}
    (marked : Marked middle after reqId) (marks : OnlyMarks before middle) :
    Marked before after reqId :=
  fun saved known => marked saved (marks.recvingMetadata ▸ known)

theorem Marked.later {ω : Type*} {before middle after : Reading ω} {reqId : ReqId}
    (marked : Marked before middle reqId) (marks : OnlyMarks middle after) :
    Marked before after reqId :=
  fun saved known block member => marks.invalidBlockIds block (marked saved known block member)

/-- What the loop of `_pop_done_transfers` does: requests without a transfer that goes on are done
and forgotten, and the blocks of those with a failed one are marked. -/
structure Pops {ω : Type*} (checks : XferHandle → XferCheck)
    (entries : List (Σ _ : ReqId, List XferHandle)) (before after : Reading ω)
    (done finished : KeySet ReqId) : Prop where
  /-- Blocks may become invalid. -/
  marks : OnlyMarks before after
  /-- Finished is who has no transfer in progress. -/
  finished_iff : ∀ reqId, reqId ∈ finished ↔ reqId ∈ done ∨ ∃ handles,
    ⟨reqId, handles⟩ ∈ entries ∧ ∀ handle ∈ handles, (checks handle).isProc = false
  /-- Who keeps a transfer has one in progress. -/
  recvingTransfers : ∀ reqId ∈ after.recvingTransfers, reqId ∈ before.recvingTransfers ∧
    ∀ handles, ⟨reqId, handles⟩ ∈ entries → ∃ handle ∈ handles, (checks handle).isProc
  /-- The blocks of a failed transfer are invalid. -/
  marked : ∀ entry ∈ entries, (∃ handle ∈ entry.2, (checks handle).isFailed) →
    Marked before after entry.1
  /-- A transfer in progress is kept. -/
  stays : ∀ entry ∈ entries, ∀ handle ∈ entry.2, (checks handle).isProc → ∃ kept,
    after.recvingTransfers.lookup entry.1 = some kept ∧ handle ∈ kept
  /-- A transfer that is kept is in progress. -/
  remains : ∀ entry ∈ entries, ∀ kept, after.recvingTransfers.lookup entry.1 = some kept →
    ∀ handle ∈ kept, handle ∈ entry.2 ∧ (checks handle).isProc
  /-- Transfers that were not asked about stay. -/
  others : ∀ reqId, (∀ entry ∈ entries, entry.1 ≠ reqId) →
    after.recvingTransfers.lookup reqId = before.recvingTransfers.lookup reqId

theorem Pops.cons {ω : Type*} {checks : XferHandle → XferCheck} {reqId : ReqId}
    {handles : List XferHandle} {entries : List (Σ _ : ReqId, List XferHandle)}
    {before middle after : Reading ω} {done later finished : KeySet ReqId}
    (marks : OnlyMarks before middle)
    (marked : (∃ handle ∈ handles, (checks handle).isFailed) → Marked before middle reqId)
    (added : ∀ other, other ∈ later ↔
      other ∈ done ∨ other = reqId ∧ ∀ handle ∈ handles, (checks handle).isProc = false)
    (transfers : ∀ other ∈ middle.recvingTransfers, other ∈ before.recvingTransfers ∧
      (other = reqId → ∃ handle ∈ handles, (checks handle).isProc))
    (fresh : ∀ entry ∈ entries, entry.1 ≠ reqId)
    (stays : ∀ handle ∈ handles, (checks handle).isProc → ∃ kept,
      middle.recvingTransfers.lookup reqId = some kept ∧ handle ∈ kept)
    (remains : ∀ kept, middle.recvingTransfers.lookup reqId = some kept →
      ∀ handle ∈ kept, handle ∈ handles ∧ (checks handle).isProc)
    (others : ∀ other, other ≠ reqId →
      middle.recvingTransfers.lookup other = before.recvingTransfers.lookup other)
    (rest : Pops checks entries middle after later finished) :
    Pops checks (⟨reqId, handles⟩ :: entries) before after done finished where
  marks := marks.trans rest.marks
  finished_iff other := by
    rw [rest.finished_iff, added]
    constructor
    · rintro ((earlier | ⟨rfl, ended⟩) | ⟨found, member, ended⟩)
      · exact .inl earlier
      · exact .inr ⟨handles, List.mem_cons_self, ended⟩
      · exact .inr ⟨found, List.mem_cons_of_mem _ member, ended⟩
    · rintro (earlier | ⟨found, member, ended⟩)
      · exact .inl (.inl earlier)
      · rcases List.mem_cons.mp member with same | member
        · cases same
          exact .inl (.inr ⟨rfl, ended⟩)
        · exact .inr ⟨found, member, ended⟩
  recvingTransfers other member := by
    obtain ⟨kept, goesOn⟩ := rest.recvingTransfers other member
    obtain ⟨earlier, head⟩ := transfers other kept
    refine ⟨earlier, fun found isEntry => ?_⟩
    rcases List.mem_cons.mp isEntry with same | isEntry
    · cases same
      exact head rfl
    · exact goesOn found isEntry
  marked entry member isFailed := by
    rcases List.mem_cons.mp member with rfl | member
    · exact (marked isFailed).later rest.marks
    · exact (rest.marked entry member isFailed).of_onlyMarks marks
  stays entry member handle isHandle goesOn := by
    rcases List.mem_cons.mp member with rfl | member
    · rw [rest.others _ fresh]
      exact stays handle isHandle goesOn
    · exact rest.stays entry member handle isHandle goesOn
  remains entry member kept known := by
    rcases List.mem_cons.mp member with rfl | member
    · rw [rest.others _ fresh] at known
      exact remains kept known
    · exact rest.remains entry member kept known
  others other apart := by
    rw [rest.others other fun entry member => apart entry (List.mem_cons_of_mem _ member)]
    exact others other (apart _ List.mem_cons_self).symm

section Cons

variable {ω : Type*} {checks : XferHandle → XferCheck} {reqId : ReqId} {handles : List XferHandle}
  {entries : List (Σ _ : ReqId, List XferHandle)} {before middle after : Reading ω}
  {done finished : KeySet ReqId} (marks : OnlyMarks before middle)
  (marked : (∃ handle ∈ handles, (checks handle).isFailed) → Marked before middle reqId)
  (transfers : middle.recvingTransfers = before.recvingTransfers)
  (fresh : ∀ entry ∈ entries, entry.1 ≠ reqId)

include marks marked transfers fresh

/-- A request of which no transfer goes on is done and forgotten. -/
theorem Pops.cons_ended (ended : ∀ handle ∈ handles, (checks handle).isProc = false)
    (rest : Pops checks entries
      { middle with recvingTransfers := middle.recvingTransfers.erase reqId } after
      (done.add reqId) finished) :
    Pops checks (⟨reqId, handles⟩ :: entries) before after done finished := by
  have marksHere : OnlyMarks before
      { middle with recvingTransfers := middle.recvingTransfers.erase reqId } :=
    ⟨marks.1, marks.2, marks.3, marks.4⟩
  refine .cons marksHere marked ?_ ?_ fresh ?_ ?_ ?_ rest
  · intro other
    rw [AList.mem_add, or_comm]
    exact or_congr_right (and_iff_left ended).symm
  · intro other member
    obtain ⟨different, earlier⟩ := AList.mem_erase.mp member
    exact ⟨transfers ▸ earlier, fun same => absurd same different⟩
  · intro handle isHandle goesOn
    cases (ended handle isHandle).symm.trans goesOn
  · intro found isFound
    rw [AList.lookup_erase] at isFound
    cases isFound
  · intro other different
    exact (AList.lookup_erase_ne different).trans (by rw [transfers])

/-- A request of which a transfer goes on keeps those that do. -/
theorem Pops.cons_goesOn {inProgress : List XferHandle}
    (kept : inProgress = handles.filter fun handle => (checks handle).isProc)
    (some_left : inProgress ≠ []) (present : reqId ∈ before.recvingTransfers)
    (rest : Pops checks entries
      { middle with recvingTransfers := middle.recvingTransfers.set reqId inProgress } after
      done finished) :
    Pops checks (⟨reqId, handles⟩ :: entries) before after done finished := by
  have mem_kept {handle : XferHandle} :
      handle ∈ inProgress ↔ handle ∈ handles ∧ (checks handle).isProc := by
    rw [kept, List.mem_filter]
  have goesOn : ∃ handle ∈ handles, (checks handle).isProc := by
    obtain ⟨handle, isLeft⟩ := List.exists_mem_of_ne_nil _ some_left
    exact ⟨handle, mem_kept.mp isLeft⟩
  have marksHere : OnlyMarks before
      { middle with recvingTransfers := middle.recvingTransfers.set reqId inProgress } :=
    ⟨marks.1, marks.2, marks.3, marks.4⟩
  refine .cons marksHere marked ?_ ?_ fresh ?_ ?_ ?_ rest
  · intro other
    constructor
    · exact .inl
    · rintro (earlier | ⟨rfl, ended⟩)
      · exact earlier
      · obtain ⟨handle, member, isProc⟩ := goesOn
        cases (ended handle member).symm.trans isProc
  · intro other member
    refine ⟨?_, fun _ => goesOn⟩
    rcases AList.mem_set.mp member with rfl | earlier
    · exact present
    · exact transfers ▸ earlier
  · exact fun handle isHandle isProc =>
      ⟨inProgress, AList.lookup_set, mem_kept.mpr ⟨isHandle, isProc⟩⟩
  · intro found isFound handle isHandle
    rw [AList.lookup_set] at isFound
    obtain rfl := Option.some.inj isFound
    exact mem_kept.mp isHandle
  · intro other different
    exact (AList.lookup_set_ne different).trans (by rw [transfers])

end Cons

namespace ReceivingWorker

variable {ω : Type} (worker : ReceivingWorker ω) (checks : XferHandle → XferCheck)

theorem handleFailedTransfer_marks (reading : Reading ω) (reqId : ReqId) (handle : XferHandle) :
    OnlyMarks reading (worker.handleFailedTransfer reading reqId handle) ∧
      Marked reading (worker.handleFailedTransfer reading reqId handle) reqId :=
  ⟨⟨rfl, rfl, rfl, fun _ member => Reading.mem_withInvalid.mpr (.inl member)⟩,
    fun saved known _ member => Reading.mem_withInvalid.mpr (.inr ⟨saved, known, member⟩)⟩

/-- The handles that go on are kept, and a failed one marks the blocks. -/
theorem checkHandles_spec (reqId : ReqId) (handles : List XferHandle) (reading : Reading ω) :
    (worker.checkHandles checks reqId handles reading).2 =
        handles.filter (fun handle => (checks handle).isProc) ∧
      (worker.checkHandles checks reqId handles reading).1.recvingTransfers =
        reading.recvingTransfers ∧
      OnlyMarks reading (worker.checkHandles checks reqId handles reading).1 ∧
      ((∃ handle ∈ handles, (checks handle).isFailed) →
        Marked reading (worker.checkHandles checks reqId handles reading).1 reqId) := by
  induction handles generalizing reading with
  | nil => exact ⟨rfl, rfl, ⟨rfl, rfl, rfl, fun _ => id⟩, fun ⟨_, never, _⟩ => by cases never⟩
  | cons handle handles ih =>
      rw [checkHandles]
      split
      · rename_i goesOn
        obtain ⟨kept, transfers, marks, marked⟩ := ih reading
        refine ⟨?_, transfers, marks, ?_⟩
        · simp only [List.filter_cons, goesOn, if_true, kept]
        · rintro ⟨failed, member, isFailed⟩
          rcases List.mem_cons.mp member with rfl | member
          · rw [XferCheck.isFailed, goesOn] at isFailed
            cases isFailed
          · exact marked ⟨failed, member, isFailed⟩
      · rename_i ended
        simp only [List.filter_cons, ended]
        split
        · rename_i isDone
          obtain ⟨kept, transfers, marks, marked⟩ :=
            ih { reading with world := worker.nixl.releaseXferHandle reading.world handle }
          refine ⟨kept, transfers, ⟨marks.1, marks.2, marks.3, marks.4⟩, ?_⟩
          rintro ⟨failed, member, isFailed⟩
          rcases List.mem_cons.mp member with rfl | member
          · rw [XferCheck.isFailed, isDone, Bool.not_true, Bool.and_false] at isFailed
            cases isFailed
          · exact marked ⟨failed, member, isFailed⟩
        · obtain ⟨kept, transfers, marks, _⟩ :=
            ih (worker.handleFailedTransfer reading reqId handle)
          obtain ⟨first, marked⟩ := worker.handleFailedTransfer_marks reading reqId handle
          exact ⟨kept, transfers, first.trans marks, fun _ => marked.later marks⟩

theorem popLoop_pops {entries : List (Σ _ : ReqId, List XferHandle)} (nodup : entries.NodupKeys)
    {reading : Reading ω} (present : ∀ entry ∈ entries, entry.1 ∈ reading.recvingTransfers)
    (done : KeySet ReqId) :
    Pops checks entries reading (worker.popLoop checks entries done reading).1 done
      (worker.popLoop checks entries done reading).2 := by
  induction entries generalizing reading done with
  | nil =>
      refine ⟨⟨rfl, rfl, rfl, fun _ => id⟩, fun reqId => ?_, fun _ member => ⟨member, nofun⟩, nofun,
        nofun, nofun, fun _ _ => rfl⟩
      constructor
      · exact .inl
      · rintro (earlier | ⟨_, never, _⟩)
        · exact earlier
        · cases never
  | cons entry entries ih =>
      obtain ⟨reqId, handles⟩ := entry
      rw [List.nodupKeys_cons] at nodup
      have others : ∀ other ∈ entries, other.1 ≠ reqId := by
        rintro other member rfl
        exact nodup.1 (List.mem_keys.mpr ⟨other.2, member⟩)
      obtain ⟨kept, transfers, marks, marked⟩ :=
        worker.checkHandles_spec checks reqId handles reading
      have laterPresent : ∀ other ∈ entries, other.1 ∈ reading.recvingTransfers :=
        fun other member => present other (.tail _ member)
      rw [popLoop]
      cases checked : worker.checkHandles checks reqId handles reading with
      | mk next inProgress =>
          rw [checked] at kept transfers marks marked
          change inProgress = _ at kept
          change next.recvingTransfers = _ at transfers
          cases inProgress with
          | nil =>
              refine .cons_ended marks marked transfers others ?_
                (ih nodup.2 (fun other member => ?_) (done.add reqId))
              · intro handle member
                simpa using List.filter_eq_nil_iff.mp kept.symm handle member
              · refine AList.mem_erase.mpr ⟨others other member, ?_⟩
                rw [transfers]
                exact laterPresent other member
          | cons first inProgress =>
              refine .cons_goesOn marks marked transfers others kept (List.cons_ne_nil _ _)
                (present ⟨reqId, handles⟩ List.mem_cons_self)
                (ih nodup.2 (fun other member => ?_) done)
              refine AList.mem_set.mpr (.inr ?_)
              rw [transfers]
              exact laterPresent other member

theorem exists_of_failedChecks {reading : Reading ω} (tracked : reading.Tracked)
    {checks : XferHandle → XferCheck} {reqId : ReqId}
    (failed : reqId ∈ failedChecks checks reading) : ∃ handles,
      reading.recvingTransfers.lookup reqId = some handles ∧
        ∃ handle ∈ handles, (checks handle).isFailed := by
  obtain ⟨transfer, isTransfer, rfl⟩ := List.mem_map.mp failed
  obtain ⟨begun, isFailed⟩ := List.mem_filter.mp isTransfer
  obtain ⟨handles, known, isHandle⟩ := tracked.kept transfer begun
  exact ⟨handles, known, transfer.2, isHandle, isFailed⟩

/-- What `get_finished` takes for received. -/
structure Received (checks : XferHandle → XferCheck) (before after : Reading ω)
    (done : KeySet ReqId) : Prop where
  /-- The metadata stay. -/
  recvingMetadata : after.recvingMetadata = before.recvingMetadata
  /-- No failed request is left. -/
  failedRecvReqs : after.failedRecvReqs = ∅
  /-- Invalid blocks stay so. -/
  invalidBlockIds : ∀ block ∈ before.invalidBlockIds, block ∈ after.invalidBlockIds
  /-- Received is who failed, or has no transfer in progress. -/
  mem_iff : ∀ reqId, reqId ∈ done ↔ reqId ∈ before.failedRecvReqs ∨
    ∃ handles, before.recvingTransfers.lookup reqId = some handles ∧
      ∀ handle ∈ handles, (checks handle).isProc = false
  /-- Who keeps a transfer has one in progress. -/
  recvingTransfers : ∀ reqId ∈ after.recvingTransfers,
    ∃ handles, before.recvingTransfers.lookup reqId = some handles ∧
      ∃ handle ∈ handles, (checks handle).isProc
  /-- A transfer in progress is kept. -/
  stays : ∀ reqId handles, before.recvingTransfers.lookup reqId = some handles →
    ∀ handle ∈ handles, (checks handle).isProc → ∃ kept,
      after.recvingTransfers.lookup reqId = some kept ∧ handle ∈ kept
  /-- A transfer that is kept is in progress. -/
  remains : ∀ reqId kept, after.recvingTransfers.lookup reqId = some kept → ∃ handles,
    before.recvingTransfers.lookup reqId = some handles ∧
      ∀ handle ∈ kept, handle ∈ handles ∧ (checks handle).isProc
  /-- The blocks of a failed transfer are invalid. -/
  marked : ∀ reqId handles, before.recvingTransfers.lookup reqId = some handles →
    (∃ handle ∈ handles, (checks handle).isFailed) → Marked before after reqId
  /-- Nobody is refused. -/
  refused : after.refused = before.refused

/-- The transfers that go on are the ones that are kept. -/
theorem Received.tracked {checks : XferHandle → XferCheck} {before after : Reading ω}
    {done : KeySet ReqId} (received : Received checks before after done)
    (tracked : before.Tracked) (recvingMetadata : Dict ReqId ReqMeta) :
    Reading.Tracked { after with recvingMetadata, underway := stillUnderway checks before } where
  kept transfer member := by
    obtain ⟨begun, goesOn⟩ := List.mem_filter.mp member
    obtain ⟨handles, known, isHandle⟩ := tracked.kept transfer begun
    exact received.stays transfer.1 handles known transfer.2 isHandle goesOn
  underway reqId kept known handle isHandle := by
    obtain ⟨handles, earlier, remains⟩ := received.remains reqId kept known
    obtain ⟨isEarlier, goesOn⟩ := remains handle isHandle
    exact List.mem_filter.mpr ⟨tracked.underway reqId handles earlier handle isEarlier, goesOn⟩

theorem doneRecving_received (reading : Reading ω) :
    Received checks reading (worker.doneRecving checks reading).1
      (worker.doneRecving checks reading).2 := by
  have pops := worker.popLoop_pops checks reading.recvingTransfers.nodupKeys
    (fun entry member => AList.mem_keys.mpr (List.mem_keys_of_mem member)) ∅
  rw [doneRecving]
  cases ran : worker.popLoop checks reading.recvingTransfers.entries ∅ reading with
  | mk next finished =>
      rw [ran] at pops
      refine ⟨pops.marks.recvingMetadata, rfl, pops.marks.invalidBlockIds, fun reqId => ?_,
        fun reqId member => ?_, fun reqId handles known => ?_, fun reqId kept known => ?_,
        fun reqId handles known => ?_, pops.marks.refused⟩
      · have fromPop := pops.finished_iff reqId
        simp only [← AList.mem_lookup_iff, Option.mem_def] at fromPop
        change reqId ∈ finished.addAll next.failedRecvReqs.keys ↔ _
        rw [AList.mem_addAll, fromPop, pops.marks.failedRecvReqs, ← AList.mem_keys]
        exact or_congr_right (or_iff_right (AList.notMem_empty reqId))
      · obtain ⟨earlier, goesOn⟩ := pops.recvingTransfers reqId member
        obtain ⟨handles, known⟩ := Option.isSome_iff_exists.mp (AList.lookup_isSome.mpr earlier)
        exact ⟨handles, known, goesOn handles (AList.mem_lookup_iff.mp known)⟩
      · exact pops.stays ⟨reqId, handles⟩ (AList.mem_lookup_iff.mp known)
      · have later := AList.lookup_isSome.mp (Option.isSome_of_eq_some known)
        obtain ⟨earlier, _⟩ := pops.recvingTransfers reqId later
        obtain ⟨handles, before⟩ := Option.isSome_iff_exists.mp (AList.lookup_isSome.mpr earlier)
        exact ⟨handles, before,
          pops.remains ⟨reqId, handles⟩ (AList.mem_lookup_iff.mp before) kept known⟩
      · exact pops.marked ⟨reqId, handles⟩ (AList.mem_lookup_iff.mp known)

/-- What the loop of `get_finished` leaves: it forgets the metadata of the requests. -/
theorem finishLoop_eq_ok {reqIds : List ReqId} {start postProcess : Dict ℕ (List (List ℕ))}
    {receiving next : Receiving ω}
    (finished : worker.finishLoop reqIds start receiving = (next, .ok postProcess)) :
    receiving.reading.recvingMetadata.keys.Perm (reqIds ++ next.reading.recvingMetadata.keys) ∧
      (∀ reqId saved, next.reading.recvingMetadata.lookup reqId = some saved →
        receiving.reading.recvingMetadata.lookup reqId = some saved) ∧
      ∃ recvingMetadata receiveCalls, next =
        { receiving with
          reading := { receiving.reading with recvingMetadata }
          receiveCalls } := by
  induction reqIds generalizing receiving start with
  | nil =>
      cases finished
      exact ⟨.refl _, fun _ _ => id, next.reading.recvingMetadata, next.receiveCalls, rfl⟩
  | cons reqId reqIds ih =>
      rw [finishLoop] at finished
      split at finished
      · cases finished
      · rename_i saved known
        simp only at finished
        have present : reqId ∈ receiving.reading.recvingMetadata :=
          AList.lookup_isSome.mp (Option.isSome_of_eq_some known)
        -- Either way the loop goes on without the metadata of this request.
        have goes : ∃ receiveCalls between, worker.finishLoop reqIds between
            { receiving with
              reading :=
                { receiving.reading with
                  recvingMetadata := receiving.reading.recvingMetadata.erase reqId }
              receiveCalls } = (next, .ok postProcess) := by
          split at finished
          · cases finished
          · split at finished
            · cases finished
            · split at finished
              all_goals
                split at finished
                · exact ⟨_, _, finished⟩
                · exact ⟨_, _, finished⟩
        obtain ⟨receiveCalls, between, goes⟩ := goes
        obtain ⟨keys, lookups, recvingMetadata, calls, rfl⟩ := ih goes
        refine ⟨?_, fun other found isFound => ?_, recvingMetadata, calls, rfl⟩
        · rw [AList.keys_erase] at keys
          exact (List.perm_cons_erase (AList.mem_keys.mp present)).trans (keys.cons reqId)
        · have earlier := lookups other found isFound
          by_cases same : other = reqId
          · subst same
            rw [AList.lookup_erase] at earlier
            cases earlier
          · rwa [AList.lookup_erase_ne same] at earlier

/-- The metadata of different requests is found when it is there. -/
theorem finishLoop_ne_notFound {reqIds : List ReqId} (nodup : reqIds.Nodup)
    (start : Dict ℕ (List (List ℕ))) {receiving : Receiving ω}
    (present : ∀ reqId ∈ reqIds, reqId ∈ receiving.reading.recvingMetadata) (missing : ReqId) :
    (worker.finishLoop reqIds start receiving).2 ≠ .error (.notFound missing) := by
  induction reqIds generalizing receiving start with
  | nil => exact nofun
  | cons reqId reqIds ih =>
      obtain ⟨fresh, nodup⟩ := List.nodup_cons.mp nodup
      obtain ⟨saved, known⟩ := Option.isSome_iff_exists.mp
        (AList.lookup_isSome.mpr (present reqId List.mem_cons_self))
      have still (receiveCalls : List ReceiveCall) (start : Dict ℕ (List (List ℕ))) :
          (worker.finishLoop reqIds start
            { receiving with
              reading :=
                { receiving.reading with
                  recvingMetadata := receiving.reading.recvingMetadata.erase reqId }
              receiveCalls }).2 ≠ .error (.notFound missing) := by
        apply ih nodup
        intro other member
        refine AList.mem_erase.mpr ⟨?_, present other (.tail _ member)⟩
        rintro rfl
        exact fresh member
      rw [finishLoop]
      simp only [known]
      split
      · exact nofun
      · split
        · exact nofun
        · split
          all_goals
            split
            · exact still _ _
            · exact still _ _

theorem postProcessLoop_eq_ok {entries : List (Σ _ : ℕ, List (List ℕ))}
    {receiving next : Receiving ω}
    (processed : postProcessLoop entries receiving = (next, .ok ())) :
    ∃ receiveCalls, next = { receiving with receiveCalls } := by
  induction entries generalizing receiving with
  | nil =>
      cases processed
      exact ⟨next.receiveCalls, rfl⟩
  | cons entry entries ih =>
      rw [postProcessLoop] at processed
      split at processed
      · obtain ⟨receiveCalls, rfl⟩ := ih processed
        exact ⟨receiveCalls, rfl⟩
      · cases processed

theorem postProcessLoop_ne_notFound (entries : List (Σ _ : ℕ, List (List ℕ)))
    (receiving : Receiving ω) (missing : ReqId) :
    (postProcessLoop entries receiving).2 ≠ .error (.notFound missing) := by
  induction entries generalizing receiving with
  | nil => exact nofun
  | cons entry entries ih =>
      rw [postProcessLoop]
      split
      · exact ih _
      · exact nofun

end ReceivingWorker

end RduHdi
