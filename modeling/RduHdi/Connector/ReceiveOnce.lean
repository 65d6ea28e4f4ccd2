import RduHdi.Connector.ReadAddresses
import RduHdi.Connector.ReceiveInvariant

/-!
# Requests are received once

Over a whole run of the receiving half, every loaded request is in one place: it waits for its
handshake, it is being read, or it was reported.  A request is reported once and only when none of
its transfers goes on, as long as no request with a failed read still has a transfer that goes on
when `get_finished` asks.
-/

namespace RduHdi

/-- When `get_finished` asks, no transfer goes on of a request that failed. -/
def FailedAreQuiet {ω : Type} (receiving : Receiving ω) : ReceiveEvent → Prop
  | .getFinished checks _ => ∀ reqId ∈ receiving.reading.failedRecvReqs, ∀ handles,
      receiving.reading.recvingTransfers.lookup reqId = some handles →
        ∀ handle ∈ handles, (checks handle).isProc = false
  | _ => True

/-! ## The places of requests -/

/-- Every loaded request has metadata or was reported, and not both; the pending ones are neither
read nor failed, and what is read or failed has its metadata.  The transfers under way are kept, and
the blocks of every request that failed were invalid. -/
structure Placed {ω : Type} (loads pending : List (ReqId × ReqMeta)) (reading : Reading ω)
    (log : ReceiveLog) : Prop where
  /-- No request is loaded twice. -/
  distinct : (loads.map Prod.fst).Nodup
  /-- A request is tracked or reported. -/
  places : (loads.map Prod.fst).Perm (reading.recvingMetadata.keys ++ log.reported)
  /-- It is pending once. -/
  pending_nodup : (pending.map Prod.fst).Nodup
  /-- Pending, it is tracked. -/
  pending_known : ∀ entry ∈ pending, entry.1 ∈ reading.recvingMetadata
  /-- Pending, it neither has a transfer nor failed. -/
  pending_idle : ∀ entry ∈ pending,
    entry.1 ∉ reading.recvingTransfers ∧ entry.1 ∉ reading.failedRecvReqs
  /-- With a transfer, it is tracked. -/
  transfers_known : ∀ reqId ∈ reading.recvingTransfers, reqId ∈ reading.recvingMetadata
  /-- Failed, it is tracked. -/
  failed_known : ∀ reqId ∈ reading.failedRecvReqs, reqId ∈ reading.recvingMetadata
  /-- The metadata have the blocks that were loaded. -/
  loaded : ∀ reqId saved, reading.recvingMetadata.lookup reqId = some saved →
    ∃ load ∈ loads, load.1 = reqId ∧ load.2.localBlockIds = saved.localBlockIds
  /-- The transfers under way are kept. -/
  tracked : reading.Tracked
  /-- Refusals are failures. -/
  refused_noted : ∀ reqId ∈ reading.refused, reqId ∈ log.failed
  /-- Failures are of loaded requests. -/
  failed_loaded : ∀ reqId ∈ log.failed, reqId ∈ loads.map Prod.fst
  /-- Invalid blocks are put down. -/
  invalid_noted : ∀ block ∈ reading.invalidBlockIds, block ∈ log.invalidated
  /-- The blocks of a failed request were invalid. -/
  marked : ∀ load ∈ loads, load.1 ∈ log.failed →
    ∀ block ∈ load.2.localBlockIds, block ∈ log.invalidated

namespace Placed

open ReceivingWorker (Received failedChecks stillUnderway exists_of_failedChecks)

variable {ω : Type} {loads pending : List (ReqId × ReqMeta)} {reading : Reading ω}
  {log : ReceiveLog}

theorem init (world : ω) : Placed [] [] (.init world) ⟨[], ∅, ∅, ∅⟩ where
  distinct := List.nodup_nil
  places := .refl _
  pending_nodup := List.nodup_nil
  pending_known := nofun
  pending_idle := nofun
  transfers_known := nofun
  failed_known := nofun
  loaded := nofun
  tracked := ⟨nofun, nofun⟩
  refused_noted := nofun
  failed_loaded := nofun
  invalid_noted := nofun
  marked := nofun

theorem perm {others : List (ReqId × ReqMeta)} (placed : Placed loads pending reading log)
    (same : others.Perm pending) : Placed loads others reading log :=
  { placed with
    pending_nodup := ((same.map Prod.fst).nodup_iff).mpr placed.pending_nodup
    pending_known := fun entry member => placed.pending_known entry (same.mem_iff.mp member)
    pending_idle := fun entry member => placed.pending_idle entry (same.mem_iff.mp member) }

theorem mem_noted {reqId : ReqId} :
    reqId ∈ (log.note reading).failed ↔ reqId ∈ log.failed ∨ reqId ∈ reading.refused := by
  rw [ReceiveLog.note, AList.mem_addAll, ← AList.mem_keys, or_comm]

theorem mem_noted_invalidated {block : ℕ} :
    block ∈ (log.note reading).invalidated ↔
      block ∈ log.invalidated ∨ block ∈ reading.invalidBlockIds := by
  rw [ReceiveLog.note, AList.mem_addAll, ← AList.mem_keys, or_comm]

theorem loaded_of_known (placed : Placed loads pending reading log) {reqId : ReqId}
    (known : reqId ∈ reading.recvingMetadata) : reqId ∈ loads.map Prod.fst :=
  placed.places.mem_iff.mpr (List.mem_append_left _ (AList.mem_keys.mp known))

theorem blocks_eq (placed : Placed loads pending reading log) {load : ReqId × ReqMeta}
    (member : load ∈ loads) {saved : ReqMeta}
    (known : reading.recvingMetadata.lookup load.1 = some saved) :
    load.2.localBlockIds = saved.localBlockIds := by
  obtain ⟨other, isLoad, same, blocks⟩ := placed.loaded load.1 saved known
  rw [← List.inj_on_of_nodup_map placed.distinct isLoad member same]
  exact blocks

theorem marked_of (placed : Placed loads pending reading log) {next : Reading ω}
    {load : ReqId × ReqMeta} (member : load ∈ loads) (present : load.1 ∈ reading.recvingMetadata)
    (marked : Marked reading next load.1) :
    ∀ block ∈ load.2.localBlockIds, block ∈ (log.note next).invalidated := by
  obtain ⟨saved, known⟩ := Option.isSome_iff_exists.mp (AList.lookup_isSome.mpr present)
  intro block isBlock
  rw [placed.blocks_eq member known] at isBlock
  exact mem_noted_invalidated.mpr (.inr (marked saved known block isBlock))

/-- A request that is read is not pending any more. -/
theorem reads {entry : ReqId × ReqMeta} {next : Reading ω}
    (placed : Placed loads (entry :: pending) reading log)
    (reads : ReadsFor entry.1 reading next) : Placed loads pending next (log.note next) where
  distinct := placed.distinct
  places := by
    rw [reads.recvingMetadata]
    exact placed.places
  pending_nodup := (List.nodup_cons.mp placed.pending_nodup).2
  pending_known other member := by
    rw [reads.recvingMetadata]
    exact placed.pending_known other (.tail _ member)
  pending_idle other member := by
    obtain ⟨quiet, sound⟩ := placed.pending_idle other (.tail _ member)
    have different : other.1 ≠ entry.1 := by
      intro same
      apply (List.nodup_cons.mp placed.pending_nodup).1
      rw [← same]
      exact List.mem_map_of_mem member
    exact ⟨fun later => (reads.recvingTransfers _ later).elim different quiet,
      fun later => (reads.failedRecvReqs _ later).elim different sound⟩
  transfers_known other member := by
    rw [reads.recvingMetadata]
    rcases reads.recvingTransfers other member with rfl | earlier
    · exact placed.pending_known entry List.mem_cons_self
    · exact placed.transfers_known other earlier
  failed_known other member := by
    rw [reads.recvingMetadata]
    rcases reads.failedRecvReqs other member with rfl | earlier
    · exact placed.pending_known entry List.mem_cons_self
    · exact placed.failed_known other earlier
  loaded := by
    rw [reads.recvingMetadata]
    exact placed.loaded
  tracked := reads.tracked placed.tracked
  refused_noted _ member := mem_noted.mpr (.inr member)
  failed_loaded other member := by
    rcases mem_noted.mp member with earlier | now
    · exact placed.failed_loaded other earlier
    · rcases reads.refused _ now with rfl | earlier
      · exact placed.loaded_of_known (placed.pending_known entry List.mem_cons_self)
      · exact placed.failed_loaded other (placed.refused_noted other earlier)
  invalid_noted _ member := mem_noted_invalidated.mpr (.inr member)
  marked load member failed := by
    have noted : load.1 ∈ log.failed →
        ∀ block ∈ load.2.localBlockIds, block ∈ (log.note next).invalidated :=
      fun earlier block isBlock =>
        mem_noted_invalidated.mpr (.inl (placed.marked load member earlier block isBlock))
    rcases mem_noted.mp failed with earlier | now
    · exact noted earlier
    · rcases reads.refused _ now with same | earlier
      · rw [same] at now
        rcases reads.marks now with earlier | marked
        · exact noted (same ▸ placed.refused_noted _ earlier)
        · rw [← same] at marked
          exact placed.marked_of member (same ▸ placed.pending_known entry List.mem_cons_self)
            marked
      · exact noted (placed.refused_noted _ earlier)

/-- A failed handshake is put down, of a request whose blocks are. -/
theorem blame (placed : Placed loads pending reading log) {reqId : ReqId}
    (isLoaded : reqId ∈ loads.map Prod.fst)
    (marked : ∀ load ∈ loads, load.1 = reqId →
      ∀ block ∈ load.2.localBlockIds, block ∈ log.invalidated) {blamed : ReceiveLog}
    (reported : blamed.reported = log.reported) (invalidated : blamed.invalidated = log.invalidated)
    (failed_iff : ∀ other, other ∈ blamed.failed ↔ other = reqId ∨ other ∈ log.failed) :
    Placed loads pending reading blamed :=
  { placed with
    places := by rw [reported]; exact placed.places
    refused_noted := fun other member =>
      (failed_iff other).mpr (.inr (placed.refused_noted other member))
    failed_loaded := fun other member => by
      rcases (failed_iff other).mp member with rfl | earlier
      · exact isLoaded
      · exact placed.failed_loaded other earlier
    invalid_noted := by rw [invalidated]; exact placed.invalid_noted
    marked := fun load member failed => by
      rw [invalidated]
      rcases (failed_iff load.1).mp failed with same | earlier
      · exact marked load member same
      · exact placed.marked load member earlier }

theorem fail {entry : ReqId × ReqMeta} (placed : Placed loads (entry :: pending) reading log) :
    Placed loads pending (reading.withFailed entry.1)
      ((log.withFailed entry.1).note (reading.withFailed entry.1)) := by
  have marks : Marked reading (reading.withFailed entry.1) entry.1 :=
    fun saved known _ member => Reading.mem_withInvalid.mpr (.inr ⟨saved, known, member⟩)
  have reads : ReadsFor entry.1 reading (reading.withFailed entry.1) :=
    { recvingMetadata := rfl
      recvingTransfers := fun _ => .inr
      failedRecvReqs := fun _ => AList.mem_add.mp
      invalidBlockIds := fun _ member => Reading.mem_withInvalid.mpr (.inl member)
      refused := fun _ => .inr
      marks := .inl
      tracked := fun tracked => tracked.of_same rfl rfl }
  have known := placed.pending_known entry List.mem_cons_self
  refine (placed.reads reads).blame (placed.loaded_of_known known) (fun load member same => ?_)
    rfl rfl fun other => ?_
  · exact placed.marked_of member (same ▸ known) (same ▸ marks)
  · rw [mem_noted, mem_noted, ReceiveLog.withFailed, AList.mem_add, or_assoc]

theorem load {reqId : ReqId} {saved kept : ReqMeta} (placed : Placed loads pending reading log)
    (fresh : reqId ∉ loads.map Prod.fst) (same : saved.localBlockIds = kept.localBlockIds) :
    Placed (loads ++ [(reqId, saved)]) ((reqId, kept) :: pending)
      { reading with recvingMetadata := reading.recvingMetadata.set reqId kept } log := by
  have absent : reqId ∉ reading.recvingMetadata := fun known => fresh (placed.loaded_of_known known)
  have apart : ∀ entry ∈ pending, entry.1 ≠ reqId := by
    rintro entry member rfl
    exact absent (placed.pending_known entry member)
  refine
    { distinct := ?_
      places := ?_
      pending_nodup := ?_
      pending_known := fun entry member => ?_
      pending_idle := fun entry member => ?_
      transfers_known := fun other member =>
        AList.mem_set.mpr (.inr (placed.transfers_known _ member))
      failed_known := fun other member => AList.mem_set.mpr (.inr (placed.failed_known _ member))
      loaded := fun other found known => ?_
      tracked := placed.tracked.of_same rfl rfl
      refused_noted := placed.refused_noted
      failed_loaded := fun other member => ?_
      invalid_noted := placed.invalid_noted
      marked := fun load member failed => ?_ }
  · rw [List.map_append, List.map_singleton]
    exact placed.distinct.append (List.nodup_singleton _) (by simpa using fresh)
  · rw [List.map_append, List.map_singleton, AList.keys_set_of_notMem absent]
    have whole := placed.places.append_right [reqId]
    rw [List.append_assoc] at whole ⊢
    exact whole.trans (List.perm_append_comm.append_left _)
  · refine List.nodup_cons.mpr ⟨fun member => ?_, placed.pending_nodup⟩
    obtain ⟨entry, isEntry, isSame⟩ := List.mem_map.mp member
    exact apart entry isEntry isSame
  · rcases List.mem_cons.mp member with rfl | member
    · exact AList.mem_set.mpr (.inl rfl)
    · exact AList.mem_set.mpr (.inr (placed.pending_known entry member))
  · rcases List.mem_cons.mp member with rfl | member
    · exact ⟨fun read => absent (placed.transfers_known _ read),
        fun failed => absent (placed.failed_known _ failed)⟩
    · exact placed.pending_idle entry member
  · by_cases isNew : other = reqId
    · subst isNew
      rw [AList.lookup_set] at known
      cases known
      exact ⟨_, List.mem_append_right _ (List.mem_singleton_self _), rfl, same⟩
    · rw [AList.lookup_set_ne isNew] at known
      obtain ⟨load, member, isSame, blocks⟩ := placed.loaded other found known
      exact ⟨load, List.mem_append_left _ member, isSame, blocks⟩
  · rw [List.map_append]
    exact List.mem_append_left _ (placed.failed_loaded other member)
  · rcases List.mem_append.mp member with member | member
    · exact placed.marked load member failed
    · rw [List.mem_singleton] at member
      subst member
      exact absurd (placed.failed_loaded _ failed) fresh

/-- Who has failed after `get_finished` asked: a transfer of it did, or it had before. -/
theorem failed_cases {checks : XferHandle → XferCheck} {next : Reading ω} {done : KeySet ReqId}
    (placed : Placed loads pending reading log) (received : Received checks reading next done)
    {reqId : ReqId} (failed : reqId ∈ (log.note next).failed.addAll (failedChecks checks reading)) :
    reqId ∈ reading.recvingMetadata ∧ Marked reading next reqId ∨ reqId ∈ log.failed := by
  rcases AList.mem_addAll.mp failed with now | failed
  · obtain ⟨handles, known, isFailed⟩ := exists_of_failedChecks placed.tracked now
    have read := AList.lookup_isSome.mp (Option.isSome_of_eq_some known)
    exact .inl ⟨placed.transfers_known _ read, received.marked _ handles known isFailed⟩
  · rcases mem_noted.mp failed with earlier | refused
    · exact .inr earlier
    · exact .inr (placed.refused_noted _ (received.refused ▸ refused))

/-- What is received is forgotten and reported. -/
theorem finish {checks : XferHandle → XferCheck} {next : Reading ω} {done : KeySet ReqId}
    (placed : Placed loads pending reading log) (received : Received checks reading next done)
    (quiet : ∀ reqId ∈ reading.failedRecvReqs, ∀ handles,
      reading.recvingTransfers.lookup reqId = some handles →
        ∀ handle ∈ handles, (checks handle).isProc = false)
    {recvingMetadata : Dict ReqId ReqMeta}
    (keys : next.recvingMetadata.keys.Perm (done.keys ++ recvingMetadata.keys))
    (lookups : ∀ reqId saved, recvingMetadata.lookup reqId = some saved →
      next.recvingMetadata.lookup reqId = some saved) :
    Placed loads pending { next with recvingMetadata, underway := stillUnderway checks reading }
      { log.note next with
        reported := log.reported ++ done.keys
        failed := (log.note next).failed.addAll (failedChecks checks reading) } := by
  rw [received.recvingMetadata] at keys lookups
  have split : ∀ reqId ∈ reading.recvingMetadata, reqId ∉ done → reqId ∈ recvingMetadata := by
    intro reqId known notDone
    rcases List.mem_append.mp (keys.mem_iff.mp (AList.mem_keys.mp known)) with isDone | kept
    · exact absurd (AList.mem_keys.mpr isDone) notDone
    · exact AList.mem_keys.mpr kept
  have pending_notDone : ∀ entry ∈ pending, entry.1 ∉ done := by
    intro entry member isDone
    obtain ⟨unread, sound⟩ := placed.pending_idle entry member
    rcases (received.mem_iff _).mp isDone with failed | ⟨handles, known, _⟩
    · exact sound failed
    · exact unread (AList.lookup_isSome.mp (Option.isSome_of_eq_some known))
  have transfers_earlier : ∀ reqId ∈ next.recvingTransfers, reqId ∈ reading.recvingTransfers := by
    intro reqId member
    obtain ⟨handles, known, _⟩ := received.recvingTransfers reqId member
    exact AList.lookup_isSome.mp (Option.isSome_of_eq_some known)
  refine
    { distinct := placed.distinct
      places := ?_
      pending_nodup := placed.pending_nodup
      pending_known := fun entry member =>
        split _ (placed.pending_known entry member) (pending_notDone entry member)
      pending_idle := fun entry member => ⟨fun read =>
        (placed.pending_idle entry member).1 (transfers_earlier _ read), ?_⟩
      transfers_known := fun reqId member => ?_
      failed_known := fun reqId member => ?_
      loaded := fun reqId saved known => placed.loaded reqId saved (lookups reqId saved known)
      tracked := received.tracked placed.tracked recvingMetadata
      refused_noted := fun reqId member => ?_
      failed_loaded := fun reqId member => ?_
      invalid_noted := fun block member => mem_noted_invalidated.mpr (.inr member)
      marked := fun load member failed => ?_ }
  · have whole := placed.places.trans (keys.append_right log.reported)
    rw [List.append_assoc] at whole
    have moved := whole.trans List.perm_append_comm
    rwa [List.append_assoc] at moved
  · rw [received.failedRecvReqs]
    exact AList.notMem_empty _
  · obtain ⟨handles, known, handle, isHandle, goesOn⟩ := received.recvingTransfers reqId member
    apply split reqId (placed.transfers_known reqId (transfers_earlier reqId member))
    intro isDone
    rcases (received.mem_iff reqId).mp isDone with failed | ⟨others, isOther, ended⟩
    · cases (quiet reqId failed handles known handle isHandle).symm.trans goesOn
    · obtain rfl := Option.some.inj (isOther.symm.trans known)
      cases (ended handle isHandle).symm.trans goesOn
  · rw [received.failedRecvReqs] at member
    cases member
  · exact AList.mem_addAll.mpr (.inr (mem_noted.mpr (.inr member)))
  · rcases placed.failed_cases received member with ⟨known, _⟩ | earlier
    · exact placed.loaded_of_known known
    · exact placed.failed_loaded reqId earlier
  · rcases placed.failed_cases received failed with ⟨known, marked⟩ | earlier
    · exact placed.marked_of member known marked
    · exact fun block isBlock =>
        mem_noted_invalidated.mpr (.inl (placed.marked load member earlier block isBlock))

end Placed

/-! ## The steps -/

namespace ReceivingWorker

variable {ω : Type} {worker : ReceivingWorker ω} {loads : List (ReqId × ReqMeta)}

/-- The requests are in their places. -/
abbrev AllPlaced (loads : List (ReqId × ReqMeta)) (receiving : Receiving ω) : Prop :=
  Placed loads receiving.pending receiving.reading receiving.log

/-- No transfer goes on of a request that failed. -/
def FailedEnded (reading : Reading ω) (checks : XferHandle → XferCheck) : Prop :=
  ∀ reqId ∈ reading.failedRecvReqs, ∀ handles,
    reading.recvingTransfers.lookup reqId = some handles →
      ∀ handle ∈ handles, (checks handle).isProc = false

/-- Requests stay in their places, when different ones are loaded. -/
theorem placed_keeps (worker : ReceivingWorker ω) :
    worker.Keeps (fun loads => (loads.map Prod.fst).Nodup) FailedEnded Placed where
  allowed_left distinct := by
    rw [List.map_append] at distinct
    exact (List.nodup_append.mp distinct).1
  perm placed := placed.perm
  world _ placed := { placed with tracked := placed.tracked.of_same rfl rfl }
  read reader entry placed := placed.reads (reader.readBlocksForReq_readsFor _ _ _)
  fail _ placed := placed.fail
  load {_ _ _ _ reqId _} remote placed distinct := by
    refine placed.load ?_ rfl
    rw [List.map_append] at distinct
    intro member
    exact (List.nodup_append.mp distinct).2.2 reqId member reqId (List.mem_singleton_self _) rfl
  finish placed ended received keys lookups := placed.finish received ended keys lookups
  clear placed :=
    { placed with
      tracked := placed.tracked.of_same rfl rfl
      invalid_noted := nofun }

theorem FailedAreQuiet.asks {receiving : Receiving ω} {event : ReceiveEvent}
    (quiet : FailedAreQuiet receiving event) : Asks FailedEnded receiving event := by
  cases event with
  | getFinished checks order => exact quiet
  | _ => trivial

/-- The metadata of what is received is there. -/
theorem getFinished_ne_notFound (worker : ReceivingWorker ω) {receiving : Receiving ω}
    (placed : AllPlaced loads receiving) (checks : XferHandle → XferCheck) (order : SetOrder)
    (missing : ReqId) :
    (worker.getFinished receiving checks order).2 ≠ .error (.notFound missing) := by
  have received := received_onReading worker checks receiving
  rw [getFinished]
  cases asked : receiving.onReading (worker.doneRecving checks) with
  | mk middle isDone =>
      rw [asked] at received
      have present : ∀ reqId ∈ order.arrange isDone.keys,
          reqId ∈ middle.reading.recvingMetadata := by
        intro reqId member
        rw [received.recvingMetadata]
        have isMember := AList.mem_keys.mpr ((order.perm isDone.keys).mem_iff.mp member)
        rcases (received.mem_iff reqId).mp isMember with failed | ⟨handles, known, _⟩
        · exact placed.failed_known reqId failed
        · exact placed.transfers_known reqId
            (AList.lookup_isSome.mp (Option.isSome_of_eq_some known))
      have nodup : (order.arrange isDone.keys).Nodup :=
        (order.perm isDone.keys).nodup_iff.mpr isDone.keys_nodup
      have found := worker.finishLoop_ne_notFound nodup ∅ present missing
      simp only
      split
      · rename_i last raised looped
        rw [looped] at found
        rintro ⟨⟩
        exact found rfl
      · rename_i last postProcess looped
        have processed := postProcessLoop_ne_notFound postProcess.entries last missing
        split
        · rename_i final raised stopped
          rw [stopped] at processed
          rintro ⟨⟩
          exact processed rfl
        · rintro ⟨⟩

theorem step_ne_notFound (worker : ReceivingWorker ω) {receiving : Receiving ω}
    (event : ReceiveEvent) (placed : AllPlaced loads receiving) (missing : ReqId) :
    worker.step receiving event ≠ .error (.notFound missing) := by
  cases event with
  | startLoadKv turns =>
      rw [step]
      split
      · rintro ⟨⟩
      · rintro ⟨⟩
  | handshakeDone engineId answers =>
      rw [step]
      rintro ⟨⟩
  | getFinished checks order =>
      have found := getFinished_ne_notFound worker placed checks order missing
      rw [step]
      split
      · rintro ⟨⟩
      · rename_i last raised finished
        rw [finished] at found
        rintro ⟨⟩
        exact found rfl
  | getBlockIdsWithLoadErrors =>
      rw [step]
      rintro ⟨⟩

/-! ## Runs -/

theorem exec_placed (worker : ReceivingWorker ω) {events : List ReceiveEvent}
    {receiving final : Receiving ω} (placed : AllPlaced loads receiving)
    (distinct : ((loads ++ events.flatMap ReceiveEvent.loads).map Prod.fst).Nodup)
    (quiet : Run.Throughout worker.step FailedAreQuiet receiving events)
    (reached : Run.exec worker.step receiving events = .ok final) :
    AllPlaced (loads ++ events.flatMap ReceiveEvent.loads) final := by
  have asks : Run.Throughout worker.step (Asks FailedEnded) receiving events :=
    quiet.imp FailedAreQuiet.asks
  exact (placed_keeps worker).exec placed distinct asks reached

/-- No run misses the metadata of a request. -/
theorem exec_ne_notFound (worker : ReceivingWorker ω) {events : List ReceiveEvent}
    {receiving : Receiving ω} (placed : AllPlaced loads receiving)
    (distinct : ((loads ++ events.flatMap ReceiveEvent.loads).map Prod.fst).Nodup)
    (quiet : Run.Throughout worker.step FailedAreQuiet receiving events) (missing : ReqId) :
    Run.exec worker.step receiving events ≠ .error (.notFound missing) := by
  induction events generalizing receiving loads with
  | nil =>
      rw [Run.exec_nil]
      rintro ⟨⟩
  | cons event events ih =>
      rw [List.flatMap_cons, ← List.append_assoc] at distinct
      cases taken : worker.step receiving event with
      | error raised =>
          have never := step_ne_notFound worker event placed missing
          rw [taken] at never
          rw [Run.exec, taken]
          rintro ⟨⟩
          exact never rfl
      | ok next =>
          have here : ((loads ++ event.loads).map Prod.fst).Nodup :=
            (placed_keeps worker).allowed_left distinct
          rw [Run.exec_cons taken]
          exact ih ((placed_keeps worker).step placed here (FailedAreQuiet.asks quiet.1) taken)
            distinct (quiet.2 next taken)

/-- **Receiving once.**  When no request that failed has a transfer that goes on whenever
`get_finished` asks, then in every state of a run that loads distinct requests: each was reported
at most once, and no transfer is under way of one that was reported; the blocks of a reported
request of which the handshake or a transfer failed were all invalid; and no run misses the metadata
of a received request. -/
theorem received_once (worker : ReceivingWorker ω) (tables : Handshakes ω)
    {events : List ReceiveEvent}
    (distinct : ((events.flatMap ReceiveEvent.loads).map Prod.fst).Nodup)
    (quiet : Run.Throughout worker.step FailedAreQuiet (.init tables) events) :
    (∀ reqId, Run.exec worker.step (.init tables) events ≠ .error (.notFound reqId)) ∧
      ∀ final, Run.exec worker.step (.init tables) events = .ok final →
        final.log.reported.Nodup ∧
        (∀ reqId ∈ final.log.reported, reqId ∉ final.reading.recvingTransfers ∧
          reqId ∉ final.reading.underway.map Prod.fst) ∧
        ∀ load ∈ events.flatMap ReceiveEvent.loads, load.1 ∈ final.log.reported →
          load.1 ∈ final.log.failed → ∀ block ∈ load.2.localBlockIds,
            block ∈ final.log.invalidated := by
  have start : AllPlaced [] (Receiving.init tables) := .init tables.world
  refine ⟨exec_ne_notFound worker start distinct quiet, fun final reached => ?_⟩
  have placed := exec_placed worker start distinct quiet reached
  have whole : (final.reading.recvingMetadata.keys ++ final.log.reported).Nodup :=
    placed.places.nodup_iff.mp placed.distinct
  obtain ⟨_, once, apart⟩ := List.nodup_append.mp whole
  have unread : ∀ reqId ∈ final.log.reported, reqId ∉ final.reading.recvingTransfers :=
    fun reqId reported transferred =>
      apart reqId (AList.mem_keys.mp (placed.transfers_known reqId transferred)) reqId reported rfl
  refine ⟨once, fun reqId reported => ⟨unread reqId reported, fun underway => ?_⟩,
    fun load member _ failed => placed.marked load member failed⟩
  obtain ⟨transfer, isTransfer, rfl⟩ := List.mem_map.mp underway
  obtain ⟨handles, known, _⟩ := placed.tracked.kept transfer isTransfer
  exact unread _ reported (AList.lookup_isSome.mp (Option.isSome_of_eq_some known))

/-! ## A request that reads from two ranks -/

/-- A library that refuses to set up transfers with some remote sides. -/
def pickyReader {ω : Type} (refuses : SideHandle → Bool) : NixlReader ω where
  sendNotif world _ _ := (world, .ok ())
  makePreppedXfer world _ _ remoteSide _ _ :=
    (world, if refuses remoteSide then .error .runtimeError else .ok remoteSide.id)
  transfer world _ := (world, .ok ())
  releaseXferHandle world _ := world

/-- The lone worker, whose transfers with the second rank are refused. -/
def pickyWorker : ReceivingWorker (List (List XferDesc)) where
  handshakes := HandshakeWorker.loneWorker HandshakeWorker.listingNixl
  nixl := pickyReader fun remoteSide => remoteSide.id = 4
  blockWindowPerLayer := []
  kernel := .consecutive 1 Nat.one_pos

/-- A request whose block is on both ranks of the group of two. -/
def halvesRequest : ReqMeta where
  localBlockIds := [0]
  localPhysicalBlockIds := [0]
  tpSize := 2
  remote := some
    { blockIds := [1], host := "host", port := 5600, engineId := "prefill", requestId := "remote" }

/-- The request is loaded, its handshake ends, and its blocks are read. -/
def readHalves : List ReceiveEvent :=
  [.startLoadKv [.request "request" halvesRequest],
    .handshakeDone "prefill" HandshakeWorker.halfGroup.answers, .startLoadKv []]

/-- NIXL gives one answer for all transfers. -/
def allChecks (state : XferState) : XferHandle → XferCheck := fun _ => ⟨.ok state, .ok ()⟩

def listOrder : SetOrder := ⟨id, SetOrder.perm_id⟩

/-- The transfer with the first rank is done when `get_finished` asks. -/
def quietRun : List ReceiveEvent :=
  readHalves ++ [.getFinished (allChecks .done) listOrder]

/-- The transfer with the first rank goes on when `get_finished` asks. -/
def earlyRun : List ReceiveEvent :=
  readHalves ++ [.getFinished (allChecks .proc) listOrder]

/-- And then it is done. -/
def lateRun : List ReceiveEvent :=
  earlyRun ++ [.getFinished (allChecks .done) listOrder]

theorem received_once_quietRun :
    (∀ reqId, Run.exec pickyWorker.step (.init HandshakeWorker.loneStart) quietRun ≠
        .error (.notFound reqId)) ∧
      ∀ final, Run.exec pickyWorker.step (.init HandshakeWorker.loneStart) quietRun = .ok final →
        final.log.reported.Nodup ∧
        (∀ reqId ∈ final.log.reported, reqId ∉ final.reading.recvingTransfers ∧
          reqId ∉ final.reading.underway.map Prod.fst) ∧
        ∀ load ∈ quietRun.flatMap ReceiveEvent.loads, load.1 ∈ final.log.reported →
          load.1 ∈ final.log.failed → ∀ block ∈ load.2.localBlockIds,
            block ∈ final.log.invalidated :=
  have distinct : ((quietRun.flatMap ReceiveEvent.loads).map Prod.fst).Nodup :=
    List.nodup_singleton "request"
  received_once pickyWorker HandshakeWorker.loneStart distinct
    ⟨trivial, fun _ _ => ⟨trivial, fun _ _ => ⟨trivial, fun _ _ =>
      ⟨fun _ _ _ _ _ _ => rfl, fun _ _ => trivial⟩⟩⟩⟩

/-- While the transfer goes on, the request is reported all the same; and when the transfer is
done, `get_finished` finds no metadata. -/
theorem not_received_once :
    ((lateRun.flatMap ReceiveEvent.loads).map Prod.fst).Nodup ∧
    (∃ final, Run.exec pickyWorker.step (.init HandshakeWorker.loneStart) earlyRun = .ok final ∧
      "request" ∈ final.log.reported ∧ "request" ∈ final.reading.underway.map Prod.fst) ∧
    Run.exec pickyWorker.step (.init HandshakeWorker.loneStart) lateRun =
      .error (.notFound "request") := by
  refine ⟨List.nodup_singleton "request", ?_, ?_⟩
  · have early : (Run.exec pickyWorker.step (.init HandshakeWorker.loneStart)
        earlyRun).toOption.any (fun final => decide ("request" ∈ final.log.reported ∧
          "request" ∈ final.reading.underway.map Prod.fst)) = true := by decide +kernel
    obtain ⟨final, reached, seen⟩ := Run.exists_of_any early
    exact ⟨final, reached, of_decide_eq_true seen⟩
  · exact Run.eq_error_of_failsWith (by decide +kernel)

end ReceivingWorker

end RduHdi
