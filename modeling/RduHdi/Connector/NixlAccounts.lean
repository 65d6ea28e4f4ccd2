import RduHdi.Connector.FailedHandshake
import RduHdi.Connector.NixlResources
import RduHdi.Connector.ReceivePlaces

/-!
# Accounting for what NIXL gives out

What each piece of the worker does to the ledger and to what the tables hold.  A piece settles when
it accounts afterwards for whatever was accounted for before it, beside anything else that is held.
-/

namespace RduHdi

section Notes

variable {ω : Type*}

/-- A ledger notes what handshakes are given. -/
structure NixlHandshaker.Notes (nixl : NixlHandshaker ω) (ledger : ω → NixlLedger) : Prop where
  /-- An agent is acquired when it is added. -/
  addRemoteAgent : ∀ {world next metadata name},
    nixl.addRemoteAgent world metadata = (next, .ok name) →
      ledger next = (ledger world).acquire (.remoteAgent name)
  /-- A list is acquired when it is prepared. -/
  prepXferDlist : ∀ {world next agent descs handle},
    nixl.prepXferDlist world agent descs = (next, .ok handle) →
      ledger next = (ledger world).acquire (.dlistHandle handle)

/-- A ledger notes the transfers. -/
structure NixlReader.Notes (nixl : NixlReader ω) (ledger : ω → NixlLedger) : Prop where
  /-- A notif acquires nothing. -/
  sendNotif : ∀ world agent notif, ledger (nixl.sendNotif world agent notif).1 = ledger world
  /-- A transfer is acquired when it is set up. -/
  makePreppedXfer_ok : ∀ {world next localSide localDescs remoteSide remoteDescs notif handle},
    nixl.makePreppedXfer world localSide localDescs remoteSide remoteDescs notif =
      (next, .ok handle) → ledger next = (ledger world).acquire (.xferHandle handle)
  /-- When that fails, nothing is. -/
  makePreppedXfer_error : ∀ {world next localSide localDescs remoteSide remoteDescs notif raised},
    nixl.makePreppedXfer world localSide localDescs remoteSide remoteDescs notif =
      (next, .error raised) → ledger next = ledger world
  /-- To begin it acquires nothing. -/
  transfer : ∀ world handle, ledger (nixl.transfer world handle).1 = ledger world
  /-- A transfer can be released. -/
  releaseXferHandle : ∀ world handle,
    ledger (nixl.releaseXferHandle world handle) = (ledger world).release (.xferHandle handle)

/-- A ledger notes the agents of consumers. -/
structure NixlWrapper.Notes (nixl : NixlWrapper ω) (ledger : ω → NixlLedger) : Prop where
  /-- An agent is acquired when it is added. -/
  addRemoteAgent_ok : ∀ {world next metadata name},
    nixl.addRemoteAgent world metadata = (next, .ok name) →
      ledger next = (ledger world).acquire (.remoteAgent name)
  /-- When that fails, nothing is. -/
  addRemoteAgent_error : ∀ {world next metadata raised},
    nixl.addRemoteAgent world metadata = (next, .error raised) → ledger next = ledger world
  /-- A notif acquires nothing. -/
  sendNotif : ∀ world agent notif, ledger (nixl.sendNotif world agent notif).1 = ledger world

/-- A ledger notes memory, and what `shutdown` gives back. -/
structure NixlMemory.Notes (nixl : NixlMemory ω) (ledger : ω → NixlLedger) : Prop where
  /-- Memory is acquired when it is registered. -/
  registerMemory : ∀ world descs,
    ledger (nixl.registerMemory world descs) = (ledger world).acquire (.memory descs)
  /-- It can be released. -/
  deregisterMemory : ∀ world descs,
    ledger (nixl.deregisterMemory world descs) = (ledger world).release (.memory descs)
  /-- So can a list. -/
  releaseDlistHandle : ∀ world handle,
    ledger (nixl.releaseDlistHandle world handle) = (ledger world).release (.dlistHandle handle)
  /-- So can an agent. -/
  removeRemoteAgent : ∀ world name,
    ledger (nixl.removeRemoteAgent world name) = (ledger world).release (.remoteAgent name)

theorem NixlHandshaker.watched_notes (nixl : NixlHandshaker ω) :
    nixl.watched.Notes Watched.ledger :=
  ⟨Watched.acquiring_ok, Watched.acquiring_ok⟩

theorem NixlReader.watched_notes (nixl : NixlReader ω) : nixl.watched.Notes Watched.ledger where
  sendNotif _ _ _ := rfl
  makePreppedXfer_ok := Watched.acquiring_ok
  makePreppedXfer_error := Watched.acquiring_error
  transfer _ _ := rfl
  releaseXferHandle _ _ := rfl

theorem NixlWrapper.watched_notes (nixl : NixlWrapper ω) : nixl.watched.Notes Watched.ledger :=
  ⟨Watched.acquiring_ok, Watched.acquiring_error, fun _ _ _ => rfl⟩

theorem NixlMemory.watched_notes (nixl : NixlMemory ω) : nixl.watched.Notes Watched.ledger :=
  ⟨fun _ _ => rfl, fun _ _ => rfl, fun _ _ => rfl, fun _ _ => rfl⟩

end Notes

/-! ## Transfers -/

/-- The transfers that are asked after. -/
def Reading.resources {ω : Type*} (reading : Reading ω) : List NixlResource :=
  reading.recvingTransfers.holdings (List.map .xferHandle)

/-- The reading half accounts afterwards for what it accounted for before. -/
def Reading.Settles {ω : Type*} (ledger : ω → NixlLedger) (before after : Reading ω) : Prop :=
  ∀ others, (ledger before.world).Accounts (before.resources ++ others) →
    (ledger after.world).Accounts (after.resources ++ others)

namespace Reading.Settles

variable {ω : Type*} {ledger : ω → NixlLedger} {before middle after : Reading ω}

theorem refl (reading : Reading ω) : Settles ledger reading reading :=
  fun _ => id

theorem trans (first : Settles ledger before middle) (second : Settles ledger middle after) :
    Settles ledger before after :=
  fun others accounts => second others (first others accounts)

theorem of_same (same : ledger after.world = ledger before.world)
    (recvingTransfers : after.recvingTransfers = before.recvingTransfers) :
    Settles ledger before after := by
  intro others accounts
  rw [same, resources, recvingTransfers]
  exact accounts

end Reading.Settles

namespace ReadingWorker

variable {ω : Type*} {worker : ReadingWorker ω} {ledger : ω → NixlLedger}

theorem sendNotif_settles (notes : worker.nixl.Notes ledger) (reading : Reading ω)
    (agent : AgentName) (notif : ByteArray) :
    Reading.Settles ledger reading (worker.sendNotif reading agent notif).1 := by
  have same := notes.sendNotif reading.world agent notif
  rw [sendNotif]
  cases sent : worker.nixl.sendNotif reading.world agent notif with
  | mk world result =>
      rw [sent] at same
      cases result with
      | ok _ => exact .of_same same rfl
      | error raised => exact .of_same same rfl

/-- A transfer that was set up is put down, or given back when it cannot begin. -/
theorem beginXfer_settles (notes : worker.nixl.Notes ledger) (reading : Reading ω)
    (args : ReadArgs) (localDescs remoteDescs : List ℕ) (notif : ByteArray) :
    Reading.Settles ledger reading
      (worker.beginXfer reading args localDescs remoteDescs notif) := by
  rw [beginXfer_eq]
  split
  · rename_i world raised prepared
    exact .of_same (notes.makePreppedXfer_error prepared) rfl
  · rename_i world handle prepared
    have acquired := notes.makePreppedXfer_ok prepared
    have kept := notes.transfer world handle
    intro others accounts
    have held : ((ledger reading.world).acquire (.xferHandle handle)).Accounts
        (.xferHandle handle :: (reading.resources ++ others)) := accounts.acquire
    rw [← acquired, ← kept] at held
    split
    · rename_i later raised begun
      rw [begun] at held
      have given := held.release
      rw [← notes.releaseXferHandle] at given
      exact given
    · rename_i later begun
      rw [begun] at held
      refine held.of_count fun resource => ?_
      have written := AList.count_holdings_append args.requestId resource
        reading.recvingTransfers [handle] NixlResource.xferHandle
      rw [List.count_append, Reading.resources, written, Ledger.count_cons_held,
        List.count_append, Reading.resources, List.map_singleton]
      omega

theorem readBlocks_settles (notes : worker.nixl.Notes ledger) (reading : Reading ω)
    (args : ReadArgs) : Reading.Settles ledger reading (worker.readBlocks reading args).1 := by
  rw [readBlocks]
  simp only
  split
  · split
    · exact .refl reading
    · exact sendNotif_settles notes _ _ _
  · split
    · split
      · exact .refl reading
      · exact beginXfer_settles notes _ args _ _ _
    · exact .refl reading

theorem notifyOthers_settles (notes : worker.nixl.Notes ledger) (remoteRank : ℕ)
    (notif : ByteArray) (agents : List (Σ _ : ℕ, AgentName)) (reading : Reading ω) :
    Reading.Settles ledger reading
      (worker.notifyOthers remoteRank notif agents reading).1 := by
  induction agents generalizing reading with
  | nil => exact .refl reading
  | cons entry agents ih =>
      obtain ⟨rankToNotify, agent⟩ := entry
      rw [notifyOthers]
      split
      · have sent := sendNotif_settles notes reading agent notif
        split
        · rename_i next notified
          rw [notified] at sent
          exact sent.trans (ih next)
        · rename_i next raised refused
          rw [refused] at sent
          exact sent
      · exact ih reading

theorem readRanks_settles (notes : worker.nixl.Notes ledger) (reqId : ReqId)
    (localBlockIds : List ℕ) (remote : RemoteMeta) (tpRatio : ℤ) (index : ℕ)
    (remoteRanks : List ℕ) (reading : Reading ω) :
    Reading.Settles ledger reading
      (worker.readRanks reqId localBlockIds remote tpRatio index remoteRanks reading).1 := by
  induction remoteRanks generalizing index reading with
  | nil => exact .refl reading
  | cons remoteRank remoteRanks ih =>
      rw [readRanks]
      split
      · exact .refl reading
      · split
        · exact .refl reading
        · rename_i localSide remoteSide sides
          have read := readBlocks_settles notes reading
            { localBlockIds
              remoteBlockIds := remote.blockIds
              dstEngineId := remote.engineId
              requestId := reqId
              remoteRequestId := remote.requestId
              remoteRank
              localXferSideHandle := localSide
              remoteXferSideHandle := remoteSide }
          simp only
          split
          · rename_i next raised refused
            rw [refused] at read
            exact read
          · rename_i next done
            rw [done] at read
            split
            · have notified := notifyOthers_settles notes remoteRank
                (notifId reqId worker.worldSize).toUTF8
                ((worker.remoteAgents.lookup remote.engineId).getD ∅).entries next
              split
              · rename_i last raised refused
                rw [refused] at notified
                exact read.trans notified
              · rename_i last told
                rw [told] at notified
                exact read.trans (notified.trans (ih _ _))
            · exact read.trans (ih _ _)

theorem readBlocksForReq_settles (notes : worker.nixl.Notes ledger) (reading : Reading ω)
    (reqId : ReqId) (saved : ReqMeta) :
    Reading.Settles ledger reading (worker.readBlocksForReq reading reqId saved).1 := by
  rw [readBlocksForReq]
  split
  · exact .refl reading
  · exact readRanks_settles notes _ _ _ _ _ _ _

end ReadingWorker

namespace ReceivingWorker

variable {ω : Type} {worker : ReceivingWorker ω} {ledger : ω → NixlLedger}

/-- A transfer that ended is given back, however it ended. -/
theorem checkHandles_accounts (notes : worker.nixl.Notes ledger)
    (checks : XferHandle → XferCheck) (reqId : ReqId) (handles : List XferHandle)
    {reading : Reading ω} {others : List NixlResource}
    (accounts : (ledger reading.world).Accounts (handles.map .xferHandle ++ others)) :
    (ledger (worker.checkHandles checks reqId handles reading).1.world).Accounts
      ((worker.checkHandles checks reqId handles reading).2.map .xferHandle ++ others) := by
  induction handles generalizing reading others with
  | nil => exact accounts
  | cons handle handles ih =>
      have given : (ledger (worker.nixl.releaseXferHandle reading.world handle)).Accounts
          (handles.map .xferHandle ++ others) := by
        rw [notes.releaseXferHandle]
        exact accounts.release
      rw [checkHandles]
      split
      · -- It goes on: it is one of the others for the rest of the loop.
        have aside : (ledger reading.world).Accounts
            (handles.map .xferHandle ++ .xferHandle handle :: others) :=
          accounts.perm List.perm_middle
        exact (ih aside).perm List.perm_middle.symm
      · split
        · exact ih given
        · exact ih given

theorem popLoop_settles (notes : worker.nixl.Notes ledger) (checks : XferHandle → XferCheck)
    {entries : List (Σ _ : ReqId, List XferHandle)} (nodup : entries.NodupKeys)
    {reading : Reading ω}
    (present : ∀ entry ∈ entries, reading.recvingTransfers.lookup entry.1 = some entry.2)
    (done : KeySet ReqId) :
    Reading.Settles ledger reading (worker.popLoop checks entries done reading).1 := by
  induction entries generalizing reading done with
  | nil => exact .refl reading
  | cons entry entries ih =>
      obtain ⟨reqId, handles⟩ := entry
      rw [List.nodupKeys_cons] at nodup
      have known : reading.recvingTransfers.lookup reqId = some handles :=
        present _ List.mem_cons_self
      have apart : ∀ other ∈ entries, other.1 ≠ reqId := by
        intro other member same
        apply nodup.1
        rw [← same]
        exact (List.mem_keys_of_mem member : other.1 ∈ entries.keys)
      obtain ⟨-, transfers, -, -⟩ := worker.checkHandles_spec checks reqId handles reading
      rw [popLoop]
      cases checked : worker.checkHandles checks reqId handles reading with
      | mk next inProgress =>
          rw [checked] at transfers
          -- The handles of this request leave the table, and those in progress come back.
          have moved : ∀ others,
              (ledger reading.world).Accounts (reading.resources ++ others) →
              (ledger next.world).Accounts (inProgress.map .xferHandle ++
                ((reading.recvingTransfers.erase reqId).holdings (List.map .xferHandle) ++
                  others)) := by
            intro others accounts
            have split : (ledger reading.world).Accounts (handles.map .xferHandle ++
                ((reading.recvingTransfers.erase reqId).holdings (List.map .xferHandle) ++
                  others)) := by
              refine accounts.of_count fun resource => ?_
              have taken := AList.count_holdings_erase (List.map NixlResource.xferHandle)
                reading.recvingTransfers reqId resource
              rw [known, Option.elim_some] at taken
              simp only [List.count_append, Reading.resources]
              omega
            have checkedAll := checkHandles_accounts notes checks reqId handles split
            rw [checked] at checkedAll
            exact checkedAll
          cases inProgress with
          | nil =>
              refine Reading.Settles.trans (fun others accounts => ?_) (ih nodup.2 ?_ _)
              · rw [Reading.resources, transfers]
                exact moved others accounts
              · intro other member
                rw [transfers, AList.lookup_erase_ne (apart other member)]
                exact present other (List.mem_cons_of_mem _ member)
          | cons handle inProgress =>
              refine Reading.Settles.trans (fun others accounts => ?_) (ih nodup.2 ?_ _)
              · refine (moved others accounts).of_count fun resource => ?_
                have taken := AList.count_holdings_erase (List.map NixlResource.xferHandle)
                  reading.recvingTransfers reqId resource
                have written := AList.count_holdings_set (List.map NixlResource.xferHandle)
                  reading.recvingTransfers reqId (handle :: inProgress) resource
                rw [Reading.resources, transfers]
                simp only [List.count_append]
                omega
              · intro other member
                rw [transfers, AList.lookup_set_ne (apart other member)]
                exact present other (List.mem_cons_of_mem _ member)

theorem doneRecving_settles (notes : worker.nixl.Notes ledger) (checks : XferHandle → XferCheck)
    (reading : Reading ω) :
    Reading.Settles ledger reading (worker.doneRecving checks reading).1 := by
  have popped : Reading.Settles ledger reading
      (worker.popLoop checks reading.recvingTransfers.entries ∅ reading).1 :=
    popLoop_settles notes checks reading.recvingTransfers.nodupKeys
      (fun entry member => AList.mem_lookup_iff.mpr member) ∅
  exact popped.trans (.of_same rfl rfl)

end ReceivingWorker

/-! ## Handshakes -/

/-- The prepared lists and the agents in the tables. -/
def Handshakes.resources {ω : Type*} (tables : Handshakes ω) : List NixlResource :=
  tables.srcXferHandlesByBlockSize.holdings (fun handle => [.dlistHandle handle]) ++
    tables.srcXferHandlesByTpRatio.holdings (List.map .dlistHandle) ++
    tables.dstXferSideHandles.holdings (AList.holdings fun handle => [.dlistHandle handle]) ++
    tables.remoteAgents.holdings (AList.holdings fun name => [.remoteAgent name])

/-- The tables hold something, and others the rest. -/
def Handshakes.Accounts {ω : Type*} (ledger : ω → NixlLedger) (others : List NixlResource)
    (tables : Handshakes ω) : Prop :=
  (ledger tables.world).Accounts (tables.resources ++ others)

namespace HandshakeWorker

open Attempt (Keeps Triple)

variable {ω : Type} {worker : HandshakeWorker ω} {ledger : ω → NixlLedger}
  {others : List NixlResource}

theorem prepXferDlist_accounts (notes : worker.nixl.Notes ledger) (agent : AgentName)
    (descs : List XferDesc) (others : List NixlResource) :
    Triple (Handshakes.Accounts ledger others) (worker.prepXferDlist agent descs)
      (fun handle => Handshakes.Accounts ledger (.dlistHandle handle :: others))
      (fun _ => True) := by
  intro tables accounts
  rw [prepXferDlist]
  cases prepared : worker.nixl.prepXferDlist tables.world agent descs with
  | mk world result =>
      cases result with
      | error raised => trivial
      | ok handle =>
          have held : ((ledger tables.world).acquire (.dlistHandle handle)).Accounts
              (.dlistHandle handle :: (tables.resources ++ others)) :=
            Ledger.Accounts.acquire accounts
          rw [← notes.prepXferDlist prepared] at held
          exact held.perm List.perm_middle

/-- The own chunks are put down as they are prepared. -/
theorem splitLocalMemory_accounts (notes : worker.nixl.Notes ledger) (tpRatio : ℤ)
    (others : List NixlResource) :
    Triple (Handshakes.Accounts ledger others) (worker.splitLocalMemory tpRatio)
      (fun _ => Handshakes.Accounts ledger others) (fun _ => True) := by
  have look : Triple (Handshakes.Accounts ledger others)
      (Attempt.read fun tables => decide (tpRatio ∈ tables.srcXferHandlesByTpRatio) : Job ω Bool)
      (fun known tables => Handshakes.Accounts ledger others tables ∧
        known = decide (tpRatio ∈ tables.srcXferHandlesByTpRatio)) (fun _ => True) :=
    .read fun tables accounts => ⟨accounts, rfl⟩
  refine .bind look fun known => ?_
  split
  · rename_i wanted
    refine .bind (.write ?_) fun _ => .forEach_same (fun index => ?_) _
    · rintro tables ⟨accounts, rfl⟩
      have absent : tpRatio ∉ tables.srcXferHandlesByTpRatio := by simpa using wanted.2.2
      refine Ledger.Accounts.of_count accounts fun resource => ?_
      have written := AList.count_holdings_set_of_notMem (List.map NixlResource.dlistHandle)
        tables.srcXferHandlesByTpRatio tpRatio [] resource absent
      simp only [Handshakes.resources, List.count_append, written, List.map_nil, List.count_nil]
      omega
    · refine .bind (prepXferDlist_accounts notes _ _ others) fun handle => .write ?_
      intro tables accounts
      refine Ledger.Accounts.of_count accounts fun resource => ?_
      have written := AList.count_holdings_append tpRatio resource
        tables.srcXferHandlesByTpRatio [handle] NixlResource.dlistHandle
      simp only [Handshakes.resources, List.count_append, written,
        Ledger.count_cons_held (.dlistHandle handle) resource others, List.map_singleton]
      omega
  · exact .pure fun tables ready => ready.1

theorem prepareLists_accounts (notes : worker.nixl.Notes ledger) (agent : NixlAgentMetadata)
    (name : AgentName) (blockSizeRatio : ℕ) (others : List NixlResource) :
    Triple (Handshakes.Accounts ledger others) (worker.prepareLists agent name blockSizeRatio)
      (fun handle => Handshakes.Accounts ledger (.dlistHandle handle :: others))
      (fun _ => True) := by
  refine .bind (.of_same (fun _ => rfl) fun _ _ => trivial) fun tpRatio =>
    .bind (.of_same (fun _ => rfl) fun _ _ => trivial) fun replicated =>
    .bind (splitLocalMemory_accounts notes tpRatio others) fun _ =>
    .bind (.of_same (fun _ => rfl) fun _ _ => trivial) fun blocksData => ?_
  exact prepXferDlist_accounts notes name blocksData others

theorem registerLocalXferHandler_accounts (notes : worker.nixl.Notes ledger) (blockSize : ℕ)
    (others : List NixlResource) :
    Triple (Handshakes.Accounts ledger others) (worker.registerLocalXferHandler blockSize)
      (fun handle => Handshakes.Accounts ledger (.dlistHandle handle :: others))
      (fun _ => True) := by
  refine .bind (.of_same (fun _ => rfl) fun _ _ => trivial) fun ratio =>
    .bind (.of_same (fun _ => rfl) fun _ _ => trivial) fun _ => ?_
  exact prepXferDlist_accounts notes nixlInitAgent _ others

/-- The list of an own block size that the metadata of a rank writes over. -/
def overwritten (tables : Handshakes ω) (agent : NixlAgentMetadata) (blockSizeRatio : ℕ) :
    List NixlResource :=
  if blockSizeRatio > 1 then
    (tables.srcXferHandlesByBlockSize.lookup agent.blockSize).elim []
      fun handle => [.dlistHandle handle]
  else
    []

/-- A rank with smaller blocks comes whose block size is known: the own list for the size is
prepared again.  The ratio is that of the size that was recorded first. -/
def Overwrites (worker : HandshakeWorker ω) (tables : Handshakes ω) (agent : NixlAgentMetadata) :
    Prop :=
  ∃ ratio, worker.rules.blockSizeRatio worker.caches.blockSize
      ((tables.blockSize.lookup agent.engineId).getD agent.blockSize) = .ok ratio ∧
    1 < ratio ∧ agent.blockSize ∈ tables.srcXferHandlesByBlockSize

theorem count_holdings_setAt {sides : Dict EngineId (Dict ℕ SideHandle)} {engineId : EngineId}
    {rank : ℕ} (fresh : Dict.lookupAt sides engineId rank = none) (handle : SideHandle)
    (resource : NixlResource) :
    ((Dict.setAt sides engineId rank handle).holdings
        (AList.holdings fun handle => [.dlistHandle handle])).count resource =
      (sides.holdings (AList.holdings fun handle => [.dlistHandle handle])).count resource +
        [NixlResource.dlistHandle handle].count resource := by
  have absent : rank ∉ (sides.lookup engineId).getD ∅ := AList.lookup_eq_none.mp fresh
  have inner := AList.count_holdings_set_of_notMem
    (fun handle : SideHandle => [NixlResource.dlistHandle handle])
    ((sides.lookup engineId).getD ∅) rank handle resource absent
  have written := AList.count_holdings_set
    (AList.holdings fun handle : SideHandle => [NixlResource.dlistHandle handle]) sides engineId
    (AList.set rank handle ((sides.lookup engineId).getD ∅)) resource
  rw [Dict.setAt]
  cases known : sides.lookup engineId with
  | none =>
      rw [known, Option.getD_none] at inner written
      rw [AList.holdings_empty, List.count_nil] at inner
      rw [Option.elim_none, List.count_nil] at written
      rw [Option.getD_none]
      omega
  | some ranks =>
      rw [known, Option.getD_some] at inner written
      rw [Option.elim_some] at written
      rw [Option.getD_some]
      omega

/-- The last part of `add_remote_agent` puts the list of the rank down, and the own list for its
block size over the one that was there. -/
theorem keepHandles_accounts (notes : worker.nixl.Notes ledger) {agent : NixlAgentMetadata}
    {remoteTpRank ratio : ℕ} {handle : SideHandle} {tables next : Handshakes ω}
    (fresh : Dict.lookupAt tables.dstXferSideHandles agent.engineId remoteTpRank = none)
    (accounts : tables.Accounts ledger (.dlistHandle handle :: others))
    (ran : worker.keepHandles agent remoteTpRank ratio handle tables = (next, .ok ⟨⟩)) :
    next.Accounts ledger (overwritten tables agent ratio ++ others) := by
  obtain ⟨sided, _, written, ran⟩ := Attempt.bind_eq_ok.mp ran
  obtain rfl := Attempt.write_eq_ok.mp written
  have kept : Handshakes.Accounts ledger others
      { tables with
        dstXferSideHandles :=
          Dict.setAt tables.dstXferSideHandles agent.engineId remoteTpRank handle } := by
    refine Ledger.Accounts.of_count accounts fun resource => ?_
    have one := count_holdings_setAt fresh handle resource
    simp only [Handshakes.resources, List.count_append, one,
      Ledger.count_cons_held (.dlistHandle handle) resource others]
    omega
  rw [overwritten]
  split at ran
  · rename_i smaller
    rw [if_pos smaller]
    obtain ⟨prepared, own, registered, ran⟩ := Attempt.bind_eq_ok.mp ran
    obtain rfl := Attempt.write_eq_ok.mp ran
    have held := (registerLocalXferHandler_accounts notes agent.blockSize others).returned kept
      registered
    have looks : Keeps (fun next =>
        next.srcXferHandlesByBlockSize = tables.srcXferHandlesByBlockSize)
        (worker.registerLocalXferHandler agent.blockSize) :=
      .bind (.of_same fun _ => rfl) fun _ => .bind (.of_same fun _ => rfl) fun _ _ same => same
    have same := looks
      { tables with
        dstXferSideHandles :=
          Dict.setAt tables.dstXferSideHandles agent.engineId remoteTpRank handle } rfl
    rw [registered] at same
    refine Ledger.Accounts.of_count held fun resource => ?_
    have replaced := AList.count_holdings_set
      (fun handle : SideHandle => [NixlResource.dlistHandle handle])
      prepared.srcXferHandlesByBlockSize agent.blockSize own resource
    rw [← show prepared.srcXferHandlesByBlockSize = _ from same]
    simp only [Handshakes.resources, List.count_append,
      Ledger.count_cons_held (.dlistHandle own) resource others]
    omega
  · rename_i larger
    obtain ⟨rfl, _⟩ := Attempt.pure_eq_ok.mp ran
    rw [if_neg larger]
    exact kept

/-- What the agent of a rank leaves in the tables; `lost` is what nothing refers to any more. -/
structure Adds (worker : HandshakeWorker ω) (ledger : ω → NixlLedger)
    (agent : NixlAgentMetadata) (remoteTpRank : ℕ) (name : AgentName) (before after : Handshakes ω)
    (lost : List NixlResource) : Prop where
  /-- The tables account for the agent, and for what they lost. -/
  accounts : ∀ others, before.Accounts ledger others →
    after.Accounts ledger (.remoteAgent name :: (lost ++ others))
  /-- The agent is not in the tables yet. -/
  remoteAgents : after.remoteAgents = before.remoteAgents
  /-- The list of the rank is. -/
  dstXferSideHandles : ∃ handle,
    after.dstXferSideHandles =
      Dict.setAt before.dstXferSideHandles agent.engineId remoteTpRank handle
  /-- Something is lost exactly when a handle is written over. -/
  lost_iff : lost = [] ↔ ¬ worker.Overwrites before agent

theorem overwritten_eq_nil {tables : Handshakes ω} {agent : NixlAgentMetadata} {ratio : ℕ}
    (found : worker.rules.blockSizeRatio worker.caches.blockSize
      ((tables.blockSize.lookup agent.engineId).getD agent.blockSize) = .ok ratio) :
    overwritten tables agent ratio = [] ↔ ¬ worker.Overwrites tables agent := by
  rw [overwritten]
  constructor
  · rintro nothing ⟨other, isRatio, smaller, known⟩
    obtain rfl := Except.ok.inj (found.symm.trans isRatio)
    obtain ⟨handle, isHandle⟩ := Option.isSome_iff_exists.mp (AList.lookup_isSome.mpr known)
    rw [if_pos smaller, isHandle] at nothing
    cases nothing
  · intro never
    split
    · rename_i smaller
      have absent : agent.blockSize ∉ tables.srcXferHandlesByBlockSize :=
        fun known => never ⟨ratio, found, smaller, known⟩
      rw [AList.lookup_eq_none.mpr absent]
      rfl
    · rfl

/-- The agent of a new rank is held by whoever asked for it, and its lists are in the tables. -/
theorem addRemoteAgent_adds (notes : worker.nixl.Notes ledger) {agent : NixlAgentMetadata}
    {remoteTpRank remoteTpSize : ℕ} {name : AgentName} {before after : Handshakes ω}
    (unknown : Dict.lookupAt before.remoteAgents agent.engineId remoteTpRank = none)
    (fresh : Dict.lookupAt before.dstXferSideHandles agent.engineId remoteTpRank = none)
    (ran : worker.addRemoteAgent agent remoteTpRank remoteTpSize before = (after, .ok name)) :
    ∃ lost, worker.Adds ledger agent remoteTpRank name before after lost := by
  rw [addRemoteAgent_of_unknown unknown] at ran
  obtain ⟨registered, ⟨found, ratio⟩, registers, ran⟩ := Attempt.bind_eq_ok.mp ran
  obtain ⟨listed, handle, prepares, ran⟩ := Attempt.bind_eq_ok.mp ran
  obtain ⟨kept, _, keeps, ran⟩ := Attempt.bind_eq_ok.mp ran
  obtain ⟨rfl, rfl⟩ := Attempt.pure_eq_ok.mp ran
  obtain ⟨world, added, isRatio, rfl⟩ := registerAgent_eq_ok registers
  obtain ⟨validated, _, validates, prepares⟩ := Attempt.bind_eq_ok.mp prepares
  -- The tables of handles are those from before until the handles are kept.
  let Same (tables : Handshakes ω) : Prop :=
    tables.srcXferHandlesByBlockSize = before.srcXferHandlesByBlockSize ∧
      tables.dstXferSideHandles = before.dstXferSideHandles ∧
      tables.remoteAgents = before.remoteAgents
  have isValidated : Same validated := by
    have looks : Keeps Same (worker.validateRemoteAgentHandshake agent remoteTpSize) :=
      worker.validateRemoteAgentHandshake_keeps (fun _ _ same => same) agent remoteTpSize
    have same := looks _ (⟨rfl, rfl, rfl⟩ : Same (recordCaches agent remoteTpRank
      { recordSizes agent remoteTpSize before with world }))
    rw [validates] at same
    exact same
  obtain ⟨sizes, sides, agents⟩ : Same listed := by
    have lists : Keeps Same (worker.prepareLists agent found ratio) :=
      prepareLists_keeps (fun _ _ _ same => same) (fun _ _ same => same) agent found ratio
    have same := lists validated isValidated
    rw [prepares] at same
    exact same
  have recorded := worker.keepHandles_setAt agent remoteTpRank ratio handle listed
  rw [keeps] at recorded
  have foundRatio : worker.rules.blockSizeRatio worker.caches.blockSize
      ((before.blockSize.lookup agent.engineId).getD agent.blockSize) = .ok ratio := by
    have asked : (Dict.get (recordSizes agent remoteTpSize before).blockSize agent.engineId).bind
        (worker.rules.blockSizeRatio worker.caches.blockSize) = .ok ratio := isRatio
    have isSize : Dict.get (recordSizes agent remoteTpSize before).blockSize agent.engineId =
        .ok ((before.blockSize.lookup agent.engineId).getD agent.blockSize) :=
      Dict.get_eq_ok.mpr AList.lookup_setDefault_self
    rw [isSize] at asked
    exact asked
  refine ⟨overwritten before agent ratio, ?_, recorded.2.trans agents,
    ⟨handle, by rw [recorded.1, sides]⟩, overwritten_eq_nil foundRatio⟩
  intro others accounts
  have registeredAccounts : Handshakes.Accounts ledger (.remoteAgent found :: others)
      (recordCaches agent remoteTpRank { recordSizes agent remoteTpSize before with world }) := by
    have held : ((ledger before.world).acquire (.remoteAgent found)).Accounts
        (.remoteAgent found :: (before.resources ++ others)) := Ledger.Accounts.acquire accounts
    rw [← notes.addRemoteAgent added] at held
    exact held.perm List.perm_middle
  have validatedAccounts : validated.Accounts ledger (.remoteAgent found :: others) := by
    have looks : Keeps (Handshakes.Accounts ledger (.remoteAgent found :: others))
        (worker.validateRemoteAgentHandshake agent remoteTpSize) :=
      worker.validateRemoteAgentHandshake_keeps (fun _ _ same => same) agent remoteTpSize
    have same := looks _ registeredAccounts
    rw [validates] at same
    exact same
  have listedAccounts := (prepareLists_accounts notes agent found ratio
    (.remoteAgent found :: others)).returned validatedAccounts prepares
  have keptAccounts := keepHandles_accounts notes (by rw [sides]; exact fresh) listedAccounts keeps
  have same : overwritten listed agent ratio = overwritten before agent ratio := by
    rw [overwritten, overwritten, sizes]
  rw [same] at keptAccounts
  exact Ledger.Accounts.perm keptAccounts (List.perm_middle.symm.append_left _)

/-- Registration puts the own list down, where there is none yet. -/
theorem registerOwn_accounts (notes : worker.nixl.Notes ledger) {tables next : Handshakes ω}
    (unlisted : tables.srcXferHandlesByBlockSize = ∅) (accounts : tables.Accounts ledger others)
    (ran : worker.registerOwn tables = (next, .ok ⟨⟩)) :
    next.Accounts ledger others ∧ next.dstXferSideHandles = tables.dstXferSideHandles ∧
      next.remoteAgents = tables.remoteAgents := by
  obtain ⟨recorded, _, written, ran⟩ := Attempt.bind_eq_ok.mp ran
  obtain rfl := Attempt.write_eq_ok.mp written
  obtain ⟨prepared, own, registered, ran⟩ := Attempt.bind_eq_ok.mp ran
  obtain rfl := Attempt.write_eq_ok.mp ran
  let Same (next : Handshakes ω) : Prop := next.srcXferHandlesByBlockSize = ∅ ∧
    next.dstXferSideHandles = tables.dstXferSideHandles ∧ next.remoteAgents = tables.remoteAgents
  have looks : Keeps Same (worker.registerLocalXferHandler worker.caches.blockSize) :=
    .bind (.of_same fun _ => rfl) fun _ => .bind (.of_same fun _ => rfl) fun _ _ same => same
  have same := looks
    { tables with
      blockSize := tables.blockSize.set worker.engineId worker.caches.blockSize
      kvCachesBaseAddr := Dict.setAt tables.kvCachesBaseAddr worker.engineId worker.tpRank
        worker.caches.seenBaseAddresses
      dstNumBlocks := tables.dstNumBlocks.set worker.engineId worker.caches.numBlocks }
    ⟨unlisted, rfl, rfl⟩
  rw [registered] at same
  obtain ⟨stillUnlisted, sides, agents⟩ := same
  have start : Handshakes.Accounts ledger others
      { tables with
        blockSize := tables.blockSize.set worker.engineId worker.caches.blockSize
        kvCachesBaseAddr := Dict.setAt tables.kvCachesBaseAddr worker.engineId worker.tpRank
          worker.caches.seenBaseAddresses
        dstNumBlocks := tables.dstNumBlocks.set worker.engineId worker.caches.numBlocks } :=
    accounts
  have held := (registerLocalXferHandler_accounts notes worker.caches.blockSize others).returned
    start registered
  refine ⟨Ledger.Accounts.of_count held fun resource => ?_, sides, agents⟩
  have absent : worker.caches.blockSize ∉ prepared.srcXferHandlesByBlockSize := by
    rw [show prepared.srcXferHandlesByBlockSize = ∅ from stillUnlisted]
    exact AList.notMem_empty _
  have listed := AList.count_holdings_set_of_notMem
    (fun handle : SideHandle => [NixlResource.dlistHandle handle])
    prepared.srcXferHandlesByBlockSize worker.caches.blockSize own resource absent
  simp only [Handshakes.resources, List.count_append, listed,
    Ledger.count_cons_held (.dlistHandle own) resource others]
  omega

end HandshakeWorker

end RduHdi
