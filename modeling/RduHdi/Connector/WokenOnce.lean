import RduHdi.Connector.ConsumerSystem

/-!
# Waiting requests are woken once

The worker wakes a request when it reports it as received.  A request that waits is woken exactly
once, after the last of its transfers; of the others only those are reported that have no blocks
to receive and whose handshake failed.
-/

namespace RduHdi

/-! ## What was reported -/

theorem Placed.reported_apart {ω : Type} {loads pending : List (ReqId × ReqMeta)}
    {reading : Reading ω} {log : ReceiveLog} (placed : Placed loads pending reading log) :
    log.reported.Nodup ∧ ∀ reqId ∈ log.reported, reqId ∉ reading.recvingMetadata := by
  obtain ⟨_, once, apart⟩ := List.nodup_append.mp (placed.places.nodup_iff.mp placed.distinct)
  exact ⟨once, fun reqId reported known => apart reqId (AList.mem_keys.mp known) reqId reported rfl⟩

namespace ReceivingWorker

variable {ω : Type}

/-- A request without local blocks is reported only when its handshake failed. -/
theorem onlyFails_keeps (worker : ReceivingWorker ω) (reqId : ReqId) :
    worker.Keeps (HandedOverEmpty reqId) (fun _ _ => True) (fun loads pending reading log =>
      OnlyNotifies reqId loads pending reading log ∧
        (reqId ∈ reading.failedRecvReqs → reqId ∈ log.handshakeFailed) ∧
        (reqId ∈ log.reported → reqId ∈ log.handshakeFailed)) where
  allowed_left := (onlyNotifies_keeps worker reqId).allowed_left
  perm holds same := ⟨holds.1.perm same, holds.2⟩
  world world holds := ⟨(onlyNotifies_keeps worker reqId).world world holds.1, holds.2⟩
  read reader entry holds :=
    have alone := reader.readBlocksForReq_leavesAlone _
      (holds.1.pending_empty entry List.mem_cons_self)
    ⟨holds.1.leave alone, fun failed => holds.2.1 (alone.failedRecvReqs failed), holds.2.2⟩
  fail entry holds :=
    ⟨holds.1.fail,
      fun failed => AList.mem_add.mpr ((AList.mem_add.mp failed).imp_right holds.2.1),
      fun reported => AList.mem_add.mpr (.inr (holds.2.2 reported))⟩
  load remote holds handed := ⟨holds.1.load remote handed, holds.2⟩
  finish holds _ received keys _ := by
    refine ⟨holds.1.finish received keys _ rfl, fun failed => ?_, fun reported => ?_⟩
    · rw [received.failedRecvReqs] at failed
      cases failed
    · rcases List.mem_append.mp reported with earlier | now
      · exact holds.2.2 earlier
      · exact holds.2.1 ((holds.1.mem_done_iff received).mp (AList.mem_keys.mpr now))
  clear holds := ⟨(onlyNotifies_keeps worker reqId).clear holds.1, holds.2⟩

theorem handshakeFailed_of_reported {worker : ReceivingWorker ω} {tables : Handshakes ω}
    {reqId : ReqId}
    {events : List ReceiveEvent} {final : Receiving ω}
    (handed : HandedOverEmpty reqId (events.flatMap ReceiveEvent.loads))
    (reached : Run.exec worker.step (.init tables) events = .ok final)
    (reported : reqId ∈ final.log.reported) : reqId ∈ final.log.handshakeFailed := by
  have anyway : Run.Throughout worker.step (Asks fun _ _ => True) (.init tables) events := by
    apply Run.throughout_of_forall
    intro _ event _ _ _ _
    cases event <;> trivial
  have start : OnlyNotifies reqId [] [] (.init tables.world) ⟨[], ∅, ∅, ∅⟩ ∧
      (reqId ∈ (Reading.init tables.world).failedRecvReqs → reqId ∈ (∅ : KeySet ReqId)) ∧
      (reqId ∈ ([] : List ReqId) → reqId ∈ (∅ : KeySet ReqId)) :=
    ⟨.init reqId tables.world, id, nofun⟩
  have holds := (onlyFails_keeps worker reqId).exec start handed anyway reached
  exact holds.2.2 reported

end ReceivingWorker

namespace ConsumerSystem

open ReceivingWorker (AllPlaced Accounted FailedEnded)

variable {ω : Type} {config : SchedulerConfig} {worker : ReceivingWorker ω}
  {events : List ConsumerEvent}

theorem Quiet.workerEvents {system : ConsumerSystem ω} {event : ConsumerEvent}
    (quiet : system.Quiet event) :
    Run.Throughout worker.step FailedAreQuiet system.receiving (system.workerEvents event) := by
  cases event with
  | serve call => trivial
  | startLoadKv endings =>
      rw [ConsumerSystem.workerEvents]
      split
      · trivial
      · exact ⟨trivial, fun _ _ => trivial⟩
  | getFinished checks order => exact ⟨quiet, fun _ _ => trivial⟩
  | handshakeDone ending => exact ⟨trivial, fun _ _ => trivial⟩
  | getBlockIdsWithLoadErrors => exact ⟨trivial, fun _ _ => trivial⟩

/-- What every run comes to: each receive is in one place, and each loaded request in one place of
the worker. -/
structure Followed (worker : ReceivingWorker ω) (parked : List ReqId)
    (loads : List (ReqId × ReqMeta)) (system : ConsumerSystem ω) : Prop where
  /-- The receives are on the scheduler side, on their way or loaded. -/
  tracks : Tracks parked loads system
  /-- The worker tracks or has reported what was loaded. -/
  placed : AllPlaced loads system.receiving
  /-- Of those who wait, it loses none. -/
  accounted : worker.Accounted (· ∈ parked) loads system.receiving

/-- The loads of the worker in a run. -/
def loadsOf (config : SchedulerConfig) (worker : ReceivingWorker ω) (start : ConsumerSystem ω)
    (events : List ConsumerEvent) : List (ReqId × ReqMeta) :=
  (Run.observe (step config worker) workerEvents start events).flatMap ReceiveEvent.loads

theorem exec_followed (someWorker : 0 < worker.handshakes.worldSize) {requests : RequestTable}
    {tables : Handshakes ω} (fresh : tables.remoteAgents = ∅)
    (fulfils : Run.Throughout (step config worker) (Fulfils config) (init requests tables) events)
    (quiet : Run.Throughout (step config worker) Quiet (init requests tables) events)
    {final : ConsumerSystem ω}
    (reached : Run.exec (step config worker) (init requests tables) events = .ok final) :
    Followed worker (Run.observe (step config worker) parks (init requests tables) events)
      (loadsOf config worker (init requests tables) events) final := by
  let received := Run.observe (step config worker) workerEvents (init requests tables) events
  have ran : Run.exec worker.step (.init tables) received = .ok final.receiving :=
    Run.exec_part step_receiving reached
  have tracks := (Tracks.init requests tables).exec fulfils reached
  have quietly : Run.Throughout worker.step FailedAreQuiet (.init tables) received :=
    .within step_receiving Quiet.workerEvents reached quiet
  have nothing_placed : AllPlaced [] (Receiving.init tables) := .init tables.world
  have knows : worker.handshakes.KnowsTargets tables := by
    intro engineId known
    rw [fresh] at known
    cases known
  have nothing_followed : worker.Accounted
      (· ∈ Run.observe (step config worker) parks (init requests tables) events) []
      (.init tables) := .init knows
  exact
    { tracks
      placed := ReceivingWorker.exec_placed worker nothing_placed tracks.loads_nodup quietly ran
      accounted := nothing_followed.exec someWorker
        (fun load member => (tracks.loaded load (List.mem_append_right _ member)).1) ran }

namespace Followed

variable {parked : List ReqId} {loads : List (ReqId × ReqMeta)} {system : ConsumerSystem ω}
  {reqId : ReqId}

theorem underway_or_loaded (followed : Followed worker parked loads system)
    (isParked : reqId ∈ parked) : system.Underway reqId ∨ ∃ saved, (reqId, saved) ∈ loads := by
  rcases mem_receivers_iff.mp (followed.tracks.parked_receive reqId isParked) with
    waits | sent | member
  · exact .inl (.inl waits)
  · exact .inl (.inr (.inl sent))
  · obtain ⟨load, isLoad, rfl⟩ := List.mem_map.mp member
    exact .inr ⟨load.2, isLoad⟩

/-- Who waits is under way, handled by the worker, or reported. -/
theorem located (followed : Followed worker parked loads system) (isParked : reqId ∈ parked) :
    system.Underway reqId ∨ system.receiving.reading.Handles reqId ∨
      reqId ∈ system.receiving.log.reported := by
  rcases followed.underway_or_loaded isParked with underway | ⟨saved, member⟩
  · exact .inl underway
  · rcases followed.accounted.located _ member isParked with waits | rest
    · exact .inl (.inr (.inr waits))
    · exact .inr rest

/-- Who is reported has no transfer under way. -/
theorem notMem_underway (followed : Followed worker parked loads system)
    (isReported : reqId ∈ system.receiving.log.reported) :
    reqId ∉ system.receiving.reading.underway.map Prod.fst := by
  intro underway
  obtain ⟨transfer, isTransfer, rfl⟩ := List.mem_map.mp underway
  obtain ⟨handles, known, _⟩ := followed.placed.tracked.kept transfer isTransfer
  exact followed.placed.reported_apart.2 _ isReported (followed.placed.transfers_known _
    (AList.lookup_isSome.mp (Option.isSome_of_eq_some known)))

/-- Who does not wait is loaded without blocks, and once. -/
theorem handedOverEmpty (followed : Followed worker parked loads system)
    (other : reqId ∉ parked) : HandedOverEmpty reqId loads where
  once := List.nodup_iff_count_le_one.mp followed.tracks.loads_nodup reqId
  empty load member same :=
    (followed.tracks.loaded load (List.mem_append_right _ member)).2 (same ▸ other)

/-- Who waits and is neither under way nor has a transfer that goes on is reported next. -/
theorem reported_next (followed : Followed worker parked loads system)
    {checks : XferHandle → XferCheck} {order : SetOrder} {last : Receiving ω}
    (ended : ReceivingWorker.Asks FailedEnded system.receiving (.getFinished checks order))
    (finished : worker.step system.receiving (.getFinished checks order) = .ok last)
    (isParked : reqId ∈ parked) (notUnderway : ¬ system.Underway reqId)
    (stopped : ∀ handle, (reqId, handle) ∈ system.receiving.reading.underway →
      (checks handle).isProc = false) : last.log.reported.count reqId = 1 := by
  have still : ((loads ++ (ReceiveEvent.getFinished checks order).loads).map Prod.fst).Nodup := by
    rw [ReceiveEvent.loads, List.append_nil]
    exact followed.tracks.loads_nodup
  have later := (ReceivingWorker.placed_keeps worker).step followed.placed still ended finished
  refine List.count_eq_one_of_mem later.reported_apart.1 ?_
  rw [ReceivingWorker.step] at finished
  split at finished
  · rename_i after done collected
    cases finished
    rcases followed.underway_or_loaded isParked with underway | ⟨saved, member⟩
    · exact absurd underway notUnderway
    · rcases (followed.accounted.getFinished collected).2.2 _ member isParked with
        waits | reported | ⟨handles, known, handle, isHandle, goesOn⟩
      · exact absurd (.inr (.inr waits)) notUnderway
      · exact reported
      · have underway := followed.placed.tracked.underway reqId handles known handle isHandle
        cases (stopped handle underway).symm.trans goesOn
  · cases finished

end Followed

/-- **Woken once.**  In every run in which each request that vLLM lets wait can be received: it
waits once at most, and its receive is pending, on its way or in the worker until it is reported.
Nobody is reported twice, or while a transfer of it goes on; and nobody else is reported, but
requests without blocks whose handshake failed.  When the receive of a waiting request is not under
way any more and none of its transfers goes on, it was reported exactly once after the next call of
`get_finished`. -/
theorem woken_once (config : SchedulerConfig) (worker : ReceivingWorker ω)
    (someWorker : 0 < worker.handshakes.worldSize) (requests : RequestTable)
    {tables : Handshakes ω} (fresh : tables.remoteAgents = ∅)
    (fulfils : Run.Throughout (step config worker) (Fulfils config) (init requests tables) events)
    (quiet : Run.Throughout (step config worker) Quiet (init requests tables) events)
    {final : ConsumerSystem ω}
    (reached : Run.exec (step config worker) (init requests tables) events = .ok final) :
    let parked := Run.observe (step config worker) parks (init requests tables) events
    let reading := final.receiving.reading
    let log := final.receiving.log
    parked.Nodup ∧ log.reported.Nodup ∧
      (∀ reqId ∈ parked, final.Underway reqId ∨ reading.Handles reqId ∨ reqId ∈ log.reported) ∧
      (∀ reqId ∈ log.reported, reqId ∉ reading.underway.map Prod.fst ∧
        (reqId ∈ parked ∨ reqId ∈ log.handshakeFailed)) ∧
      ∀ checks order last, step config worker final (.getFinished checks order) = .ok last →
        final.Quiet (.getFinished checks order) → ∀ reqId ∈ parked, ¬ final.Underway reqId →
        (∀ handle, (reqId, handle) ∈ reading.underway → (checks handle).isProc = false) →
        last.receiving.log.reported.count reqId = 1 := by
  intro parked reading log
  have followed := exec_followed someWorker fresh fulfils quiet reached
  have ran := Run.exec_part step_receiving reached
  refine ⟨followed.tracks.parked_nodup, followed.placed.reported_apart.1,
    fun reqId isParked => followed.located isParked,
    fun reqId isReported => ⟨followed.notMem_underway isReported, ?_⟩, ?_⟩
  · by_cases isParked : reqId ∈ parked
    · exact .inl isParked
    · have handed := followed.handedOverEmpty isParked
      exact .inr (ReceivingWorker.handshakeFailed_of_reported handed ran isReported)
  · intro checks order last finished ended reqId isParked notUnderway stopped
    rw [step] at finished
    obtain ⟨receiving, did, rfl⟩ := work_eq_ok finished
    exact followed.reported_next ended did isParked notUnderway stopped

/-- A request with a block on both ranks of the group of two. -/
def halvesRequests : RequestTable :=
  ServedScheduler.sharedParams
    { ServedScheduler.remotePrefill with
      remoteBlockIds := some [1]
      tpSize := some 2 }

/-- The request waits, is loaded, and is read when its handshake has ended. -/
def wakingRun : List ConsumerEvent :=
  let build : ConsumerEvent := .serve (.build { reqData := [], nodupReqs := List.nodup_nil })
  [.serve (.schedule "request" 0 [0] 0), build, .startLoadKv fun _ => [],
    .handshakeDone ⟨"prefill", HandshakeWorker.halfGroup.answers⟩, build,
    .startLoadKv fun _ => []]

theorem woken_once_wakingRun :
    ∃ final last, Run.exec (step (.withDefaults false false) ReceivingWorker.pickyWorker)
        (init halvesRequests HandshakeWorker.loneStart) wakingRun = .ok final ∧
      step (.withDefaults false false) ReceivingWorker.pickyWorker final
        (.getFinished (ReceivingWorker.allChecks .done) ReceivingWorker.listOrder) = .ok last ∧
      last.receiving.log.reported.count "request" = 1 := by
  let config : SchedulerConfig := .withDefaults false false
  let asks : ConsumerEvent :=
    .getFinished (ReceivingWorker.allChecks .done) ReceivingWorker.listOrder
  have ran : (Run.exec (step config ReceivingWorker.pickyWorker)
      (init halvesRequests HandshakeWorker.loneStart) wakingRun).toOption.any (fun final =>
        decide (final.served.pending = [] ∧ final.wire.isEmpty ∧
          final.receiving.pending.map Prod.fst = []) &&
        (step config ReceivingWorker.pickyWorker final asks).toOption.isSome) = true := by
    decide +kernel
  obtain ⟨final, reached, seen⟩ := Run.exists_of_any ran
  obtain ⟨settled, finishes⟩ := Bool.and_eq_true_iff.mp seen
  obtain ⟨last, isLast⟩ := Option.isSome_iff_exists.mp finishes
  have finished := Run.toOption_eq_some.mp isLast
  obtain ⟨none_pending, none_sent, none_waits⟩ := of_decide_eq_true settled
  have fulfils : Run.Throughout (step config ReceivingWorker.pickyWorker) (Fulfils config)
      (init halvesRequests HandshakeWorker.loneStart) wakingRun :=
    ⟨fun _ => ⟨by decide, by decide, by decide⟩, fun _ _ => ⟨trivial, fun _ _ => ⟨trivial,
      fun _ _ => ⟨trivial, fun _ _ => ⟨trivial, fun _ _ => ⟨trivial, fun _ _ => trivial⟩⟩⟩⟩⟩⟩
  have quiet : Run.Throughout (step config ReceivingWorker.pickyWorker) Quiet
      (init halvesRequests HandshakeWorker.loneStart) wakingRun :=
    ⟨trivial, fun _ _ => ⟨trivial, fun _ _ => ⟨trivial, fun _ _ => ⟨trivial, fun _ _ =>
      ⟨trivial, fun _ _ => ⟨trivial, fun _ _ => trivial⟩⟩⟩⟩⟩⟩
  have waited : Run.observe (step config ReceivingWorker.pickyWorker) parks
      (init halvesRequests HandshakeWorker.loneStart) wakingRun = ["request"] := by decide +kernel
  have notUnderway : ¬ final.Underway "request" := by
    rintro (pending | ⟨metadata, sent, _⟩ | waits)
    · rw [none_pending] at pending
      cases pending
    · rw [List.isEmpty_iff.mp none_sent] at sent
      cases sent
    · rw [none_waits] at waits
      cases waits
  obtain ⟨_, _, _, _, wakes⟩ := woken_once config ReceivingWorker.pickyWorker Nat.one_pos
    halvesRequests rfl fulfils quiet reached
  refine ⟨final, last, reached, finished, wakes _ _ last finished (fun _ _ _ _ _ _ => rfl) "request"
    ?_ notUnderway fun _ _ => rfl⟩
  rw [waited]
  exact List.mem_singleton_self _

end ConsumerSystem

end RduHdi
