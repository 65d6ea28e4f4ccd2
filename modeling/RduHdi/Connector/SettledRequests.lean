import RduHdi.Connector.ProducerMaps

/-!
# What the producer keeps of settled requests

The end of a request reaches the worker as an expiration or an abort, in the metadata that is built
next.  This file follows it: while it is on its way no batch entry of the request comes behind it,
and once it arrived the request is processed only as long as it has an expiration.  Two things go
wrong on that way.  A finish may collect neither an expiration nor an abort, and then the worker
never hears of it; and an abort leaves the count of the notifs that came before it.
-/

namespace RduHdi

/-! ## The maps of the worker -/

namespace Sending

/-- Every request with an expiration or a count is being processed. -/
structure Counted (sending : Sending) : Prop where
  /-- Who expires is processed. -/
  tracked : sending.Tracked
  /-- Who is counted is processed. -/
  counted : ∀ reqId ∈ sending.consumerNotificationCountsByReq, reqId ∈ sending.reqsToProcess

theorem counted_init : init.Counted where
  tracked := tracked_init
  counted _ member := absurd member (AList.notMem_empty _)

/-- Between two states requests were only counted and released. -/
structure Releases (before after : Sending) : Prop where
  /-- Nobody is processed anew. -/
  process : ∀ reqId ∈ after.reqsToProcess, reqId ∈ before.reqsToProcess
  /-- Who stays processed keeps its deadline. -/
  send : ∀ reqId ∈ after.reqsToProcess, reqId ∈ before.reqsToSend → reqId ∈ after.reqsToSend
  /-- Only who is processed is counted, as before. -/
  counted : before.Counted → after.Counted

theorem Releases.refl (sending : Sending) : Releases sending sending :=
  ⟨fun _ => id, fun _ _ => id, id⟩

theorem Releases.trans {before middle after : Sending} (first : Releases before middle)
    (second : Releases middle after) : Releases before after where
  process reqId member := first.process reqId (second.process reqId member)
  send reqId member expiring :=
    second.send reqId member (first.send reqId (second.process reqId member) expiring)
  counted holds := second.counted (first.counted holds)

/-- One request is forgotten in all maps. -/
theorem releases_erase (sending : Sending) (reqId : ReqId) :
    Releases sending
      { reqsToSend := sending.reqsToSend.erase reqId
        reqsToProcess := sending.reqsToProcess.erase reqId
        consumerNotificationCountsByReq :=
          sending.consumerNotificationCountsByReq.erase reqId } where
  process other member := (AList.mem_erase.mp member).2
  send other member expiring := AList.mem_erase.mpr ⟨(AList.mem_erase.mp member).1, expiring⟩
  counted holds :=
    { tracked := fun other member => by
        obtain ⟨different, earlier⟩ := AList.mem_erase.mp member
        exact AList.mem_erase.mpr ⟨different, holds.tracked other earlier⟩
      counted := fun other member => by
        obtain ⟨different, earlier⟩ := AList.mem_erase.mp member
        exact AList.mem_erase.mpr ⟨different, holds.counted other earlier⟩ }

theorem releases_releaseLoop {now : ℚ} {entries : List (Σ _ : ReqId, ℚ)} {sending next : Sending}
    {done final : KeySet ReqId}
    (taken : releaseLoop now entries sending done = (next, .ok final)) :
    Releases sending next := by
  induction entries generalizing sending done with
  | nil =>
      cases taken
      exact .refl _
  | cons entry entries ih =>
      rw [releaseLoop] at taken
      split at taken
      · cases taken
        exact .refl _
      · simp only at taken
        split at taken
        · exact (releases_erase sending entry.1).trans (ih taken)
        · cases taken

theorem Loaded.counted_iff {sending next : Sending} {metadata : NixlConnectorMetadata}
    (loaded : Loaded sending metadata next) (holds : sending.Counted) :
    next.Counted ↔ ∀ reqId ∈ metadata.reqsNotProcessed,
      reqId ∉ sending.consumerNotificationCountsByReq := by
  constructor
  · intro after reqId aborted count
    rw [← loaded.counts] at count
    exact ((loaded.process reqId).mp (after.counted reqId count)).2 aborted
  · intro uncounted
    refine ⟨loaded.tracked holds.tracked, fun reqId count => ?_⟩
    rw [loaded.counts] at count
    exact (loaded.process reqId).mpr
      ⟨.inr (holds.counted reqId count), fun aborted => uncounted reqId aborted count⟩

theorem mem_trackLoop {entries : List (Σ _ : ReqId, ℚ)} {sending : Sending} {reqId : ReqId} :
    reqId ∈ (entries.foldl trackExpiration sending).reqsToSend ↔
      reqId ∈ sending.reqsToSend ∨ reqId ∈ entries.keys ∧ reqId ∈ sending.reqsToProcess := by
  induction entries generalizing sending with
  | nil => simp
  | cons entry entries ih =>
      rw [List.foldl_cons, ih, List.keys_cons, List.mem_cons, trackExpiration]
      by_cases processed : entry.1 ∈ sending.reqsToProcess
      · simp only [if_pos processed, AList.mem_set]
        constructor
        · rintro ((rfl | earlier) | ⟨later, isProcessed⟩)
          · exact .inr ⟨.inl rfl, processed⟩
          · exact .inl earlier
          · exact .inr ⟨.inr later, isProcessed⟩
        · rintro (earlier | ⟨rfl | later, isProcessed⟩)
          · exact .inl (.inr earlier)
          · exact .inl (.inl rfl)
          · exact .inr ⟨later, isProcessed⟩
      · simp only [if_neg processed]
        refine or_congr_right (and_congr_left fun isProcessed => ?_)
        rw [or_iff_right]
        rintro rfl
        exact processed isProcessed

/-- What is processed after the end of `start_load_kv` keeps its expiration, or gets the one that
the metadata brings. -/
theorem Loaded.expiring {sending next : Sending} {metadata : NixlConnectorMetadata}
    (taken : sending.startLoadKv metadata = (next, .ok ())) {reqId : ReqId}
    (processed : reqId ∈ next.reqsToProcess)
    (expiring : reqId ∈ sending.reqsToSend ∨ reqId ∈ metadata.reqsToSend) :
    reqId ∈ next.reqsToSend := by
  rw [startLoadKv] at taken
  split at taken
  · rename_i cleared discarded
    cases taken
    rw [(trackLoop_fields _ _).1] at processed
    rcases discardNotProcessed_spec metadata.reqsNotProcessed.keys
        { sending with
          reqsToProcess := sending.reqsToProcess.addAll metadata.reqsInBatch.keys } with
      ⟨_, remaining, left, _⟩ | ⟨_, failed⟩
    · obtain ⟨rfl, _⟩ := Prod.mk.inj (left.symm.trans discarded)
      refine mem_trackLoop.mpr (expiring.imp_right fun brought => ⟨?_, processed⟩)
      exact AList.mem_keys.mp brought
    · rw [discarded] at failed
      cases failed
  · cases taken

theorem startLoadKv_loaded {sending next : Sending} {metadata : NixlConnectorMetadata}
    (taken : sending.startLoadKv metadata = (next, .ok ())) : Loaded sending metadata next := by
  rcases startLoadKv_spec sending metadata with ⟨other, loads, loaded⟩ | ⟨_, failed⟩
  · obtain ⟨rfl, _⟩ := Prod.mk.inj (loads.symm.trans taken)
    exact loaded
  · rw [taken] at failed
    cases failed

end Sending

namespace SendingWorker

variable {worker : SendingWorker}

theorem Handled.releases {sending next : Sending} {notif : Notif} {released : Option ReqId}
    (handled : Handled worker sending notif next released) : sending.Releases next := by
  cases handled with
  | skipped => exact .refl _
  | @counted reqId target consumers counts below =>
      refine ⟨fun _ => id, fun _ _ => id, fun holds => ⟨holds.tracked, fun other member => ?_⟩⟩
      rcases AList.mem_set.mp member with rfl | earlier
      · exact (Sending.mem_of_targetOf counts.resolved).elim (holds.tracked other) id
      · exact holds.counted other earlier
  | released _ _ _ => exact sending.releases_erase _

theorem notifLoop_releases {notifs : List Notif} {sending next : Sending}
    {collected notified : KeySet ReqId}
    (taken : worker.notifLoop notifs sending collected = (next, .ok notified)) :
    sending.Releases next := by
  induction notifs generalizing sending collected with
  | nil =>
      cases taken
      exact .refl _
  | cons notif notifs ih =>
      rw [notifLoop] at taken
      split at taken
      · rename_i middle released outcome
        exact (handleNotif_eq_ok outcome).releases.trans (ih taken)
      · rename_i middle outcome
        exact (handleNotif_eq_ok outcome).releases.trans (ih taken)
      · cases taken

theorem getFinished_releases {sending next : Sending} {notifs : List Notif} {now : ℚ}
    {done : KeySet ReqId} (taken : worker.getFinished sending notifs now = (next, .ok done)) :
    sending.Releases next := by
  rw [getFinished] at taken
  split at taken
  · rename_i middle notified counted
    exact (notifLoop_releases counted).trans (Sending.releases_releaseLoop taken)
  · cases taken

end SendingWorker

/-! ## The way of an end -/

namespace NixlConnectorScheduler

/-- An expiration or an abort of a request waits for the next metadata. -/
def Ends (scheduler : NixlConnectorScheduler) (reqId : ReqId) : Prop :=
  reqId ∈ scheduler.reqsNeedSend ∨ reqId ∈ scheduler.reqsNotProcessed

/-- A finish collects an expiration or an abort. -/
structure CollectsEnd (request : Request) (status : RequestStatus) (blockIds : List ℕ) : Prop where
  /-- It was prefilled for a remote decode. -/
  decodes : request.kvTransferParams.doRemoteDecode = true
  /-- It does not wait for a remote prefill. -/
  allocated : request.kvTransferParams.doRemotePrefill = false
  /-- A finish by length has blocks. -/
  sends : status = .finishedLengthCapped → blockIds ≠ []

theorem ends_of_collectsEnd (config : SchedulerConfig) (scheduler : NixlConnectorScheduler)
    {request : Request} {status : RequestStatus} {blockIds : List ℕ} (now : ℚ)
    (collects : CollectsEnd request status blockIds) :
    (scheduler.requestFinished config request status blockIds now).1.Ends request.requestId := by
  rw [requestFinished]
  simp only [collects.allocated, collects.decodes, Bool.not_true, Bool.false_eq_true, if_false]
  cases status with
  | other => exact .inr (AList.mem_add.mpr (.inl rfl))
  | finishedLengthCapped =>
      have some_block : blockIds.isEmpty = false := by
        simpa using collects.sends rfl
      simp only [some_block, Bool.not_false, if_true, ne_eq, not_true_eq_false, if_false]
      exact .inl (AList.mem_set.mpr (.inl rfl))

/-- A finish only adds to what is collected. -/
theorem requestFinished_keeps (config : SchedulerConfig) (scheduler : NixlConnectorScheduler)
    (call : FinishCall) :
    let next := (scheduler.requestFinished config call.request call.status call.blockIds
      call.now).1
    next.reqsInBatch = scheduler.reqsInBatch ∧ ∀ reqId, scheduler.Ends reqId → next.Ends reqId := by
  intro next
  refine ⟨?_, fun reqId ends => ?_⟩
  · simp only [next, requestFinished]
    split
    · rfl
    · split
      · rfl
      · split <;> rfl
  · obtain ⟨_, ⟨send, aborts⟩ | ⟨_, send, aborts⟩ | ⟨_, send, aborts⟩⟩ :=
      collected_finish config scheduler call
    · exact ends.imp (send ▸ ·) (aborts ▸ ·)
    · refine ends.imp (fun expiring => ?_) (fun aborted => ?_)
      · rw [show next.reqsNeedSend = _ from send]
        exact AList.mem_set.mpr (.inr expiring)
      · rw [show next.reqsNotProcessed = _ from aborts]
        exact aborted
    · refine ends.imp (fun expiring => ?_) (fun aborted => ?_)
      · rw [show next.reqsNeedSend = _ from send]
        exact expiring
      · rw [show next.reqsNotProcessed = _ from aborts]
        exact AList.mem_add.mpr (.inr aborted)

theorem mem_reqsInBatch_alloc {config : SchedulerConfig} {scheduler next : NixlConnectorScheduler}
    {request after : Request} {unhashedBlockIds : List ℕ} {numExternalTokens : ℕ} {now : ℚ}
    (taken : scheduler.updateStateAfterAlloc config request unhashedBlockIds numExternalTokens
      now = .ok (next, after)) {reqId : ReqId} (other : reqId ≠ request.requestId) :
    reqId ∈ next.reqsInBatch → reqId ∈ scheduler.reqsInBatch := by
  obtain ⟨needed, rfl⟩ := updateStateAfterAlloc_eq_ok taken
  simp only [allocEffect]
  split
  · exact fun member => (AList.mem_add.mp member).resolve_left other
  · exact id

end NixlConnectorScheduler

def NixlConnectorMetadata.Ends (metadata : NixlConnectorMetadata) (reqId : ReqId) : Prop :=
  reqId ∈ metadata.reqsToSend ∨ reqId ∈ metadata.reqsNotProcessed

namespace ProducerSystem

/-- A request is being processed, or on the way to it. -/
def Holds (system : ProducerSystem) (reqId : ReqId) : Prop :=
  reqId ∈ system.scheduler.reqsInBatch ∨
    (∃ metadata ∈ system.wire, reqId ∈ metadata.reqsInBatch) ∨
    reqId ∈ system.sending.reqsToProcess

/-- Where the end of a request is after a number of builds, with no batch entry of the request
behind it. -/
inductive Ending (reqId : ReqId) (builds : ℕ) (system : ProducerSystem) : Prop where
  | collected (none : builds = 0) (ends : system.scheduler.Ends reqId)
  | onTheWay (earlier : List NixlConnectorMetadata) (metadata : NixlConnectorMetadata)
      (later : List NixlConnectorMetadata) (split : system.wire = earlier ++ metadata :: later)
      (position : builds = later.length + 1) (ends : metadata.Ends reqId)
      (quiet : ∀ other ∈ later, reqId ∉ other.reqsInBatch)
      (left : reqId ∉ system.scheduler.reqsInBatch)
  /-- It arrived, or nothing was held of the request. -/
  | settled (quiet : ∀ metadata ∈ system.wire, reqId ∉ metadata.reqsInBatch)
      (left : reqId ∉ system.scheduler.reqsInBatch)
      (waits : reqId ∈ system.sending.reqsToProcess → reqId ∈ system.sending.reqsToSend)

namespace Ending

variable {reqId : ReqId} {builds : ℕ} {system : ProducerSystem}

theorem collects {scheduler : NixlConnectorScheduler} (ending : Ending reqId builds system)
    (ends : system.scheduler.Ends reqId → scheduler.Ends reqId)
    (batch : reqId ∈ scheduler.reqsInBatch → reqId ∈ system.scheduler.reqsInBatch) :
    Ending reqId builds { system with scheduler } := by
  cases ending with
  | collected none here => exact .collected none (ends here)
  | onTheWay earlier metadata later split position here quiet left =>
      exact .onTheWay earlier metadata later split position here quiet fun member =>
        left (batch member)
  | settled quiet left waits => exact .settled quiet (fun member => left (batch member)) waits

theorem build {config : SchedulerConfig} {scheduler : NixlConnectorScheduler}
    {output : SchedulerOutput} {metadata : NixlConnectorMetadata}
    (ending : Ending reqId builds system)
    (built : system.scheduler.buildConnectorMeta config output = .ok (scheduler, metadata)) :
    Ending reqId (builds + 1) { system with scheduler, wire := system.wire ++ [metadata] } := by
  obtain ⟨send, batch, aborts, _, noBatch, _, _⟩ := NixlConnectorScheduler.collected_build built
  have left : reqId ∉ scheduler.reqsInBatch := by
    rw [noBatch]
    exact AList.notMem_empty _
  cases ending with
  | collected none ends =>
      refine .onTheWay system.wire metadata [] rfl (by rw [none]; rfl) ?_ nofun left
      exact ends.imp (send ▸ ·) (aborts ▸ ·)
  | onTheWay earlier brings later split position ends quiet notCollected =>
      refine .onTheWay earlier brings (later ++ [metadata]) ?_ ?_ ends ?_ left
      · simp only [split, List.append_assoc, List.cons_append]
      · rw [position, List.length_append, List.length_singleton]
      · intro other member
        rcases List.mem_append.mp member with before | last
        · exact quiet other before
        · rw [List.mem_singleton.mp last, batch]
          exact notCollected
  | settled quiet notCollected waits =>
      refine .settled (fun other member => ?_) left waits
      rcases List.mem_append.mp member with before | last
      · exact quiet other before
      · rw [List.mem_singleton.mp last, batch]
        exact notCollected

theorem load {metadata : NixlConnectorMetadata} {wire : List NixlConnectorMetadata}
    {sending : Sending} (ending : Ending reqId builds system)
    (here : system.wire = metadata :: wire)
    (loads : system.sending.startLoadKv metadata = (sending, .ok ())) :
    Ending reqId builds { system with wire, sending } := by
  have loaded := Sending.startLoadKv_loaded loads
  cases ending with
  | collected none ends => exact .collected none ends
  | onTheWay earlier brings later split position ends quiet left =>
      rw [here] at split
      cases earlier with
      | nil =>
          cases split
          refine .settled quiet left fun processed => ?_
          rcases ends with expiring | aborted
          · exact Sending.Loaded.expiring loads processed (.inr expiring)
          · exact absurd aborted ((loaded.process reqId).mp processed).2
      | cons first earlier =>
          cases split
          exact .onTheWay earlier brings later rfl position ends quiet left
  | settled quiet left waits =>
      rw [here] at quiet
      refine .settled (fun other member => quiet other (.tail _ member)) left fun processed => ?_
      obtain ⟨entered | before, _⟩ := (loaded.process reqId).mp processed
      · exact absurd entered (quiet metadata List.mem_cons_self)
      · exact Sending.Loaded.expiring loads processed (.inl (waits before))

theorem release {sending : Sending} (ending : Ending reqId builds system)
    (releases : system.sending.Releases sending) :
    Ending reqId builds { system with sending } := by
  cases ending with
  | collected none ends => exact .collected none ends
  | onTheWay earlier brings later split position ends quiet left =>
      exact .onTheWay earlier brings later split position ends quiet left
  | settled quiet left waits =>
      refine .settled quiet left fun processed => ?_
      exact releases.send reqId processed (waits (releases.process reqId processed))

end Ending

end ProducerSystem

/-! ## Runs -/

/-- The request that finishes. -/
def SystemEvent.finished? : SystemEvent → Option ReqId
  | .schedule (.finish request _ _ _) => some request.requestId
  | _ => none

/-- The request that is allocated. -/
def SystemEvent.allocated? : SystemEvent → Option ReqId
  | .schedule (.alloc request _ _ _) => some request.requestId
  | _ => none

/-- How many metadata are built. -/
def SystemEvent.builds : SystemEvent → ℕ
  | .schedule (.build _) => 1
  | _ => 0

/-- A request that finished is not allocated again. -/
def AllocatedBeforeFinish (events : List SystemEvent) : Prop :=
  events.Pairwise fun earlier later => ∀ reqId ∈ earlier.finished?, reqId ∉ later.allocated?

instance (events : List SystemEvent) : Decidable (AllocatedBeforeFinish events) :=
  inferInstanceAs (Decidable (List.Pairwise _ _))

namespace ProducerSystem

variable {config : SchedulerConfig} {worker : SendingWorker}

/-- An event moves the end of a request on. -/
theorem ending_step {reqId : ReqId} {builds : ℕ} {system next : ProducerSystem}
    {event : SystemEvent} (ending : Ending reqId builds system)
    (other : reqId ∉ event.allocated?) (taken : system.step config worker event = .ok next) :
    Ending reqId (builds + event.builds) next := by
  cases step_eq_ok taken with
  | @schedule event scheduler moved =>
      cases event with
      | alloc request unhashedBlockIds numExternalTokens now =>
          obtain ⟨_, allocated⟩ := NixlConnectorScheduler.step_alloc_eq_ok moved
          obtain ⟨send, aborts, _⟩ := NixlConnectorScheduler.collected_alloc allocated
          have different : reqId ≠ request.requestId := fun same => other (same ▸ rfl)
          simp only [NixlConnectorScheduler.metadataOf, List.append_nil]
          exact ending.collects (fun ends => ends.imp (send ▸ ·) (aborts ▸ ·))
            (NixlConnectorScheduler.mem_reqsInBatch_alloc allocated different)
      | build output =>
          obtain ⟨metadata, built⟩ := NixlConnectorScheduler.step_build_eq_ok moved
          simp only [NixlConnectorScheduler.metadataOf, built]
          exact ending.build built
      | finish request status blockIds now =>
          obtain rfl := Except.ok.inj moved
          obtain ⟨batch, ends⟩ := NixlConnectorScheduler.requestFinished_keeps config
            system.scheduler { request, status, blockIds, now }
          simp only [NixlConnectorScheduler.metadataOf, List.append_nil]
          exact ending.collects (ends reqId) (batch ▸ id)
      | register payload =>
          obtain rfl := Except.ok.inj moved
          simp only [NixlConnectorScheduler.metadataOf, List.append_nil]
          exact ending.collects id id
  | idle nothing => exact ending
  | startLoadKv here loads => exact ending.load here loads
  | getFinished finished => exact ending.release (SendingWorker.getFinished_releases finished)

theorem ending_exec {reqId : ReqId} {builds : ℕ} {system final : ProducerSystem}
    {events : List SystemEvent} (ending : Ending reqId builds system)
    (others : ∀ event ∈ events, reqId ∉ event.allocated?)
    (reached : Run.exec (step config worker) system events = .ok final) :
    Ending reqId (builds + (events.map SystemEvent.builds).sum) final := by
  induction events generalizing builds system with
  | nil =>
      cases reached
      exact ending
  | cons event events ih =>
      obtain ⟨next, taken, rest⟩ := Run.exec_cons_eq_ok.mp reached
      have moved := ending_step ending (others event List.mem_cons_self) taken
      have later := ih moved (fun other member => others other (.tail _ member)) rest
      rwa [List.map_cons, List.sum_cons, ← Nat.add_assoc]

/-- A finish collects the end of a request, or nothing is held of the request. -/
theorem ending_finish {system : ProducerSystem} {request : Request} {status : RequestStatus}
    {blockIds : List ℕ} (now : ℚ)
    (collects : system.Holds request.requestId →
      NixlConnectorScheduler.CollectsEnd request status blockIds) :
    Ending request.requestId 0
      { system with
        scheduler :=
          (system.scheduler.requestFinished config request status blockIds now).1 } := by
  by_cases held : system.Holds request.requestId
  · exact .collected rfl
      (NixlConnectorScheduler.ends_of_collectsEnd config system.scheduler now (collects held))
  · obtain ⟨batch, _⟩ := NixlConnectorScheduler.requestFinished_keeps config system.scheduler
      { request, status, blockIds, now }
    refine .settled (fun metadata member entered => ?_) (fun entered => ?_) fun processed => ?_
    · exact held (.inr (.inl ⟨metadata, member, entered⟩))
    · exact held (.inl (batch ▸ entered))
    · exact absurd (.inr (.inr processed)) held

/-- The request finished for good, it is not allocated again, and the metadata that carries its
end, the first one built after its finish, was given to the worker: fewer are on the way than were
built since. -/
def EndProcessed (events : List SystemEvent) (system : ProducerSystem) (reqId : ReqId) : Prop :=
  ∃ left event right, events = left ++ event :: right ∧ reqId ∈ event.finished? ∧
    (∀ later ∈ right, reqId ∉ later.allocated?) ∧
    system.wire.length < (right.map SystemEvent.builds).sum

/-- A request whose end was processed is processed itself only with an expiration, and only what
is processed is counted. -/
structure NothingKept (events : List SystemEvent) (system : ProducerSystem) : Prop where
  /-- Who has ended and is processed waits for a deadline. -/
  waits : ∀ reqId, EndProcessed events system reqId → reqId ∈ system.sending.reqsToProcess →
    reqId ∈ system.sending.reqsToSend
  /-- Who is counted is processed. -/
  counted : ∀ reqId ∈ system.sending.consumerNotificationCountsByReq,
    reqId ∈ system.sending.reqsToProcess

/-- A finish of a request that is held collects its end, and no request with a count is
aborted. -/
def EndsCleanly (system : ProducerSystem) : SystemEvent → Prop
  | .schedule (.finish request status blockIds _) =>
      system.Holds request.requestId →
        NixlConnectorScheduler.CollectsEnd request status blockIds
  | .startLoadKv => ∀ metadata ∈ system.wire.head?, ∀ reqId ∈ metadata.reqsNotProcessed,
      reqId ∉ system.sending.consumerNotificationCountsByReq
  | _ => True

theorem counted_step {system next : ProducerSystem} {event : SystemEvent}
    (counted : system.sending.Counted) (cleanly : system.EndsCleanly event)
    (taken : system.step config worker event = .ok next) : next.sending.Counted := by
  cases step_eq_ok taken with
  | schedule moved => exact counted
  | idle nothing => exact counted
  | @startLoadKv metadata wire sending here loads =>
      have uncounted := cleanly metadata (by rw [here]; rfl)
      exact ((Sending.startLoadKv_loaded loads).counted_iff counted).mpr uncounted
  | getFinished finished => exact (SendingWorker.getFinished_releases finished).counted counted

theorem counted_exec {system final : ProducerSystem} {events : List SystemEvent}
    (counted : system.sending.Counted)
    (cleanly : Run.Throughout (step config worker) EndsCleanly system events)
    (reached : Run.exec (step config worker) system events = .ok final) :
    final.sending.Counted := by
  induction events generalizing system with
  | nil =>
      cases reached
      exact counted
  | cons event events ih =>
      obtain ⟨next, taken, rest⟩ := Run.exec_cons_eq_ok.mp reached
      exact ih (counted_step counted cleanly.1 taken) (cleanly.2 next taken) rest

theorem waits_exec {final : ProducerSystem} {events : List SystemEvent}
    (cleanly : Run.Throughout (step config worker) EndsCleanly init events)
    (reached : Run.exec (step config worker) init events = .ok final) {reqId : ReqId}
    (processed : EndProcessed events final reqId)
    (kept : reqId ∈ final.sending.reqsToProcess) : reqId ∈ final.sending.reqsToSend := by
  obtain ⟨left, event, right, rfl, finishes, others, arrived⟩ := processed
  obtain ⟨middle, before, after⟩ := Run.exec_append_eq_ok.mp reached
  obtain ⟨next, taken, rest⟩ := Run.exec_cons_eq_ok.mp after
  have here := cleanly.after before
  have start : Ending reqId 0 next := by
    cases event with
    | schedule event =>
        cases event with
        | finish request status blockIds now =>
            cases finishes
            cases taken
            simp only [NixlConnectorScheduler.metadataOf, List.append_nil]
            exact ending_finish now here
        | alloc => cases finishes
        | build => cases finishes
        | register => cases finishes
    | startLoadKv => cases finishes
    | getFinished => cases finishes
  have ending := ending_exec start others rest
  rw [Nat.zero_add] at ending
  cases ending with
  | collected none _ => omega
  | onTheWay earlier metadata later split position _ _ _ =>
      have inside := congrArg List.length split
      rw [List.length_append, List.length_cons] at inside
      omega
  | settled _ _ waits => exact waits kept

/-- **Settled requests.**  In every run in which every finish of a request that is held collects
its end and no request with a count is aborted, the worker keeps nothing for settled requests. -/
theorem nothing_kept {final : ProducerSystem} {events : List SystemEvent}
    (cleanly : Run.Throughout (step config worker) EndsCleanly init events)
    (reached : Run.exec (step config worker) init events = .ok final) :
    NothingKept events final where
  waits _ processed kept := waits_exec cleanly reached processed kept
  counted := (counted_exec Sending.counted_init cleanly reached).counted

/-! ## A finish without blocks, and an abort between two notifs -/

instance (system : ProducerSystem) (reqId : ReqId) : Decidable (system.Holds reqId) :=
  inferInstanceAs (Decidable (_ ∨ _ ∨ _))

instance (request : Request) (status : RequestStatus) (blockIds : List ℕ) :
    Decidable (NixlConnectorScheduler.CollectsEnd request status blockIds) :=
  decidable_of_iff (request.kvTransferParams.doRemoteDecode = true ∧
      request.kvTransferParams.doRemotePrefill = false ∧
      (status = .finishedLengthCapped → blockIds ≠ []))
    ⟨fun ⟨decodes, allocated, sends⟩ => ⟨decodes, allocated, sends⟩,
      fun collects => ⟨collects.decodes, collects.allocated, collects.sends⟩⟩

instance (system : ProducerSystem) : DecidablePred system.EndsCleanly
  | .schedule (.finish _ _ _ _) => inferInstanceAs (Decidable (_ → _))
  | .schedule (.alloc _ _ _ _) => isTrue trivial
  | .schedule (.build _) => isTrue trivial
  | .schedule (.register _) => isTrue trivial
  | .startLoadKv => inferInstanceAs (Decidable (∀ metadata ∈ system.wire.head?, _))
  | .getFinished _ _ => isTrue trivial

/-- A request is in the batch of a first step, and then these events happen. -/
def batchedRun (events : List SystemEvent) : List SystemEvent :=
  [.schedule (.alloc prefixedRequest [5] 0 0), .schedule (.build ⟨[], List.nodup_nil⟩),
    .startLoadKv] ++ events

/-- The request finishes, and the worker is told. -/
def finishRun (status : RequestStatus) (blockIds : List ℕ) : List SystemEvent :=
  [.schedule (.finish prefixedRequest status blockIds 1), .schedule (.build ⟨[], List.nodup_nil⟩),
    .startLoadKv]

/-- One of two consumers read the blocks. -/
def halfNotified : SystemEvent := .getFinished [.ofText (notifId prefixedRequest.requestId 2)] 1

theorem nothing_kept_finishRun :
    ∃ final, Run.exec (step (.withDefaults false false) (.ofSize 1)) init
        (batchedRun (finishRun .finishedLengthCapped [5])) = .ok final ∧
      NothingKept (batchedRun (finishRun .finishedLengthCapped [5])) final := by
  have runs : (Run.exec (step (.withDefaults false false) (.ofSize 1)) init
      (batchedRun (finishRun .finishedLengthCapped [5]))).toOption.any (fun _ => true) = true := by
    decide +kernel
  have cleanly : Run.Throughout (step (.withDefaults false false) (.ofSize 1)) EndsCleanly init
      (batchedRun (finishRun .finishedLengthCapped [5])) := by
    decide +kernel
  obtain ⟨final, reached, _⟩ := Run.exists_of_any runs
  exact ⟨final, reached, nothing_kept cleanly reached⟩

/-- A request that finished without blocks is processed for good, and the count of a request that
was aborted between two notifs stays. -/
theorem not_nothing_kept :
    (AllocatedBeforeFinish (batchedRun (finishRun .finishedLengthCapped [])) ∧
      ∃ final, Run.exec (step (.withDefaults false false) (.ofSize 1)) init
          (batchedRun (finishRun .finishedLengthCapped [])) = .ok final ∧
        ¬ NothingKept (batchedRun (finishRun .finishedLengthCapped [])) final) ∧
    AllocatedBeforeFinish (batchedRun (halfNotified :: finishRun .other [])) ∧
    halfNotified.WellFormed (.ofSize 1) ∧
    ∃ final, Run.exec (step (.withDefaults false false) (.ofSize 1)) init
        (batchedRun (halfNotified :: finishRun .other [])) = .ok final ∧
      ¬ NothingKept (batchedRun (halfNotified :: finishRun .other [])) final := by
  refine ⟨⟨by decide +kernel, ?_⟩, by decide +kernel, ?_, ?_⟩
  · have leaves : (Run.exec (step (.withDefaults false false) (.ofSize 1)) init
        (batchedRun (finishRun .finishedLengthCapped []))).toOption.any (fun final =>
          final.wire.isEmpty && decide (prefixedRequest.requestId ∈ final.sending.reqsToProcess ∧
            prefixedRequest.requestId ∉ final.sending.reqsToSend)) = true := by
      decide +kernel
    obtain ⟨final, reached, left⟩ := Run.exists_of_any leaves
    obtain ⟨arrived, left⟩ := Bool.and_eq_true_iff.mp left
    obtain ⟨processed, unsent⟩ := of_decide_eq_true left
    refine ⟨final, reached, fun kept => unsent (kept.waits _ ?_ processed)⟩
    refine ⟨batchedRun [], .schedule (.finish prefixedRequest .finishedLengthCapped [] 1),
      [.schedule (.build ⟨[], List.nodup_nil⟩), .startLoadKv], rfl, rfl, by decide +kernel, ?_⟩
    rw [List.isEmpty_iff.mp arrived]
    exact Nat.one_pos
  · intro notif member
    rw [List.mem_singleton.mp member]
    exact .inr ⟨_, _, 2, Sending.decodeNotif_notifId _ 2, by decide⟩
  · have leaves : (Run.exec (step (.withDefaults false false) (.ofSize 1)) init
        (batchedRun (halfNotified :: finishRun .other []))).toOption.any (fun final =>
          decide (prefixedRequest.requestId ∈ final.sending.consumerNotificationCountsByReq ∧
            prefixedRequest.requestId ∉ final.sending.reqsToProcess)) = true := by
      decide +kernel
    obtain ⟨final, reached, left⟩ := Run.exists_of_any leaves
    obtain ⟨count, unprocessed⟩ := of_decide_eq_true left
    exact ⟨final, reached, fun kept => unprocessed (kept.counted _ count)⟩

end ProducerSystem

end RduHdi
