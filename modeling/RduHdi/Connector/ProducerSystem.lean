import RduHdi.Connector.Handover
import RduHdi.Connector.SendingSpec
import RduHdi.Run

/-!
# Scheduler and worker of a producer

The scheduler side, the metadata on their way to the worker, and the sending half of the worker,
stepped in any order.  Expirations and aborts keep their provenance on the way: each comes from a
finish of its id, with the status that calls for it.
-/

namespace RduHdi

structure ProducerSystem where
  /-- The scheduler side. -/
  scheduler : NixlConnectorScheduler
  /-- Metadata built and not yet given to the worker, oldest first. -/
  wire : List NixlConnectorMetadata
  /-- The sending half of the worker. -/
  sending : Sending

inductive SystemEvent where
  | schedule (event : SchedulerEvent)
  /-- The worker starts the step of the oldest metadata. -/
  | startLoadKv
  | getFinished (notifs : List Notif) (now : ℚ)

/-- Which party raised. -/
inductive SystemFailure where
  | scheduler (raised : PyError)
  | worker (raised : PyError)

namespace ProducerSystem

def init : ProducerSystem where
  scheduler := .init
  wire := []
  sending := .init

/-- Take one event; without metadata on the way the worker does not start a step. -/
def step (config : SchedulerConfig) (worker : SendingWorker) (system : ProducerSystem) :
    SystemEvent → Except SystemFailure ProducerSystem
  | .schedule event =>
      match system.scheduler.step config event with
      | .ok scheduler =>
          .ok
            { system with
              scheduler
              wire := system.wire ++ system.scheduler.metadataOf config event }
      | .error raised => .error (.scheduler raised)
  | .startLoadKv =>
      match system.wire with
      | [] => .ok system
      | metadata :: wire =>
          match system.sending.startLoadKv metadata with
          | (sending, .ok ()) => .ok { system with wire, sending }
          | (_, .error raised) => .error (.worker raised)
  | .getFinished notifs now =>
      match worker.getFinished system.sending notifs now with
      | (sending, .ok _) => .ok { system with sending }
      | (_, .error raised) => .error (.worker raised)

/-- What an event that does not fail leaves. -/
inductive Stepped (config : SchedulerConfig) (worker : SendingWorker) (system : ProducerSystem) :
    SystemEvent → ProducerSystem → Prop where
  | schedule {event : SchedulerEvent} {scheduler : NixlConnectorScheduler}
      (moved : system.scheduler.step config event = .ok scheduler) :
      Stepped config worker system (.schedule event)
        { system with
          scheduler
          wire := system.wire ++ system.scheduler.metadataOf config event }
  /-- There is no metadata on the way. -/
  | idle (nothing : system.wire = []) : Stepped config worker system .startLoadKv system
  | startLoadKv {metadata : NixlConnectorMetadata} {wire : List NixlConnectorMetadata}
      {sending : Sending} (here : system.wire = metadata :: wire)
      (loads : system.sending.startLoadKv metadata = (sending, .ok ())) :
      Stepped config worker system .startLoadKv { system with wire, sending }
  | getFinished {notifs : List Notif} {now : ℚ} {sending : Sending} {done : KeySet ReqId}
      (finished : worker.getFinished system.sending notifs now = (sending, .ok done)) :
      Stepped config worker system (.getFinished notifs now) { system with sending }

theorem step_eq_ok {config : SchedulerConfig} {worker : SendingWorker}
    {system next : ProducerSystem} {event : SystemEvent}
    (taken : system.step config worker event = .ok next) :
    Stepped config worker system event next := by
  rw [step.eq_def] at taken
  cases event with
  | schedule event =>
      cases moved : system.scheduler.step config event with
      | error raised => simp [moved] at taken
      | ok scheduler =>
          simp only [moved] at taken
          cases taken
          exact .schedule moved
  | startLoadKv =>
      cases here : system.wire with
      | nil =>
          simp only [here] at taken
          cases taken
          exact .idle here
      | cons metadata wire =>
          cases loads : system.sending.startLoadKv metadata with
          | mk sending result =>
              cases result with
              | error raised => simp [here, loads] at taken
              | ok done =>
                  simp only [here, loads] at taken
                  cases taken
                  exact .startLoadKv here loads
  | getFinished notifs now =>
      cases finished : worker.getFinished system.sending notifs now with
      | mk sending result =>
          cases result with
          | error raised => simp [finished] at taken
          | ok done =>
              simp only [finished] at taken
              cases taken
              exact .getFinished finished

end ProducerSystem

/-! ## Finishes -/

/-- The calls of `request_finished` in a run, in order. -/
def finishCalls (events : List SystemEvent) : List FinishCall :=
  events.filterMap fun event =>
    match event with
    | .schedule event => event.finishCall?
    | _ => none

theorem finishCalls_append (left right : List SystemEvent) :
    finishCalls (left ++ right) = finishCalls left ++ finishCalls right :=
  List.filterMap_append

/-- Each request id finishes at most once. -/
def FinishOnce (events : List SystemEvent) : Prop :=
  ((finishCalls events).map fun call => call.request.requestId).Nodup

instance (events : List SystemEvent) : Decidable (FinishOnce events) :=
  inferInstanceAs (Decidable (List.Nodup _))

theorem FinishOnce.of_append {left right : List SystemEvent}
    (once : FinishOnce (left ++ right)) : FinishOnce left := by
  rw [FinishOnce, finishCalls_append, List.map_append] at once
  exact (List.nodup_append.mp once).1

theorem FinishOnce.unique {events : List SystemEvent} (once : FinishOnce events)
    {first second : FinishCall} (firstIn : first ∈ finishCalls events)
    (secondIn : second ∈ finishCalls events)
    (same : first.request.requestId = second.request.requestId) : first = second :=
  List.inj_on_of_nodup_map once firstIn secondIn same

/-- All notifs of an event are well formed. -/
def SystemEvent.WellFormed (worker : SendingWorker) : SystemEvent → Prop
  | .getFinished notifs _ => ∀ notif ∈ notifs, worker.WellFormed notif
  | _ => True

/-! ## The way of expirations and aborts -/

namespace ProducerSystem

/-- The expirations from the worker's map back to the scheduler's. -/
def expirations (system : ProducerSystem) : List (Σ _ : ReqId, ℚ) :=
  system.sending.reqsToSend.entries ++
    (system.wire.flatMap (fun metadata => metadata.reqsToSend.entries) ++
      system.scheduler.reqsNeedSend.entries)

/-- The aborts on their way to the worker. -/
def Aborting (system : ProducerSystem) (reqId : ReqId) : Prop :=
  reqId ∈ system.scheduler.reqsNotProcessed ∨
    ∃ metadata ∈ system.wire, reqId ∈ metadata.reqsNotProcessed

/-- What holds after a history in which ids finish once. -/
structure Consistent (config : SchedulerConfig) (history : List SystemEvent)
    (system : ProducerSystem) : Prop where
  /-- The maps of the worker belong together. -/
  tracked : system.sending.Tracked
  /-- A request has one deadline in the system. -/
  distinct : system.expirations.NodupKeys
  /-- A deadline is that of a finish. -/
  expiring : ∀ entry ∈ system.expirations, ∃ call ∈ finishCalls history,
    call.status = .finishedLengthCapped ∧ call.request.requestId = entry.1 ∧
      entry.2 = call.now + config.abortRequestTimeout
  /-- Who is aborted had a finish. -/
  aborting : ∀ reqId, system.Aborting reqId → ∃ call ∈ finishCalls history,
    call.status = .other ∧ call.request.requestId = reqId

theorem consistent_init (config : SchedulerConfig) : Consistent config [] init where
  tracked := Sending.tracked_init
  distinct := List.nodup_nil
  expiring := fun entry member => absurd member (List.not_mem_nil)
  aborting := fun reqId aborting => by
    rcases aborting with waiting | ⟨metadata, member, _⟩
    · exact absurd waiting (AList.notMem_empty _)
    · exact absurd member List.not_mem_nil

/-- What an event does to the expirations: it drops some, or it is a length-capped finish and
appends its own. -/
inductive Moves (config : SchedulerConfig) (event : SystemEvent) (before after : ProducerSystem) :
    Prop where
  | drops (fewer : after.expirations.Sublist before.expirations)
  | appends (call : FinishCall) (finishes : finishCalls [event] = [call])
      (capped : call.status = .finishedLengthCapped)
      (shape : call.request.requestId ∉ before.expirations.keys →
        after.expirations = before.expirations ++
          [⟨call.request.requestId, call.now + config.abortRequestTimeout⟩])

section Steps

variable {config : SchedulerConfig} {worker : SendingWorker}

/-- A call of the scheduler side moves expirations and aborts on, or collects one. -/
theorem moves_schedule {system : ProducerSystem} {event : SchedulerEvent}
    {scheduler : NixlConnectorScheduler}
    (taken : system.scheduler.step config event = .ok scheduler) :
    let next : ProducerSystem :=
      { system with scheduler, wire := system.wire ++ system.scheduler.metadataOf config event }
    Moves config (.schedule event) system next ∧
      ∀ reqId, next.Aborting reqId → system.Aborting reqId ∨
        ∃ call, finishCalls [.schedule event] = [call] ∧ call.status = .other ∧
          call.request.requestId = reqId := by
  intro next
  cases event with
  | alloc request unhashedBlockIds numExternalTokens now =>
      obtain ⟨_, allocated⟩ := NixlConnectorScheduler.step_alloc_eq_ok taken
      obtain ⟨send, aborts, _⟩ := NixlConnectorScheduler.collected_alloc allocated
      refine ⟨.drops ?_, fun reqId aborting => Or.inl ?_⟩
      · simp [expirations, next, send, NixlConnectorScheduler.metadataOf]
      · simpa [Aborting, next, aborts, NixlConnectorScheduler.metadataOf] using aborting
  | build output =>
      obtain ⟨metadata, built⟩ := NixlConnectorScheduler.step_build_eq_ok taken
      obtain ⟨send, _, aborts, noSend, _, noAborts, _⟩ :=
        NixlConnectorScheduler.collected_build built
      have wire : next.wire = system.wire ++ [metadata] := by
        simp [next, NixlConnectorScheduler.metadataOf, built]
      refine ⟨.drops ?_, fun reqId aborting => Or.inl ?_⟩
      · rw [expirations, expirations, wire]
        simp [next, noSend, send]
      · rcases aborting with waiting | ⟨other, member, aborted⟩
        · rw [show next.scheduler.reqsNotProcessed = ∅ from noAborts] at waiting
          exact absurd waiting (AList.notMem_empty _)
        · rw [wire, List.mem_append, List.mem_singleton] at member
          rcases member with earlier | rfl
          · exact Or.inr ⟨other, earlier, aborted⟩
          · rw [aborts] at aborted
            exact Or.inl aborted
  | finish request status blockIds now =>
      obtain rfl := Except.ok.inj taken
      let call : FinishCall := { request, status, blockIds, now }
      have wire : next.wire = system.wire := by
        simp [next, NixlConnectorScheduler.metadataOf]
      obtain ⟨_, kept | ⟨capped, send, aborts⟩ | ⟨other, send, aborts⟩⟩ :=
        NixlConnectorScheduler.collected_finish config system.scheduler call
      · refine ⟨.drops ?_, fun reqId aborting => Or.inl ?_⟩
        · rw [expirations, expirations, wire,
            show next.scheduler.reqsNeedSend = system.scheduler.reqsNeedSend from kept.1]
        · rw [Aborting, wire, show next.scheduler.reqsNotProcessed =
            system.scheduler.reqsNotProcessed from kept.2] at aborting
          exact aborting
      · refine ⟨.appends call rfl capped fun absent => ?_, fun reqId aborting => Or.inl ?_⟩
        · have fresh : call.request.requestId ∉ system.scheduler.reqsNeedSend := by
            intro present
            apply absent
            rw [expirations, List.keys_append, List.keys_append]
            exact List.mem_append_right _ (List.mem_append_right _ (AList.mem_keys.mp present))
          rw [expirations, expirations, wire, show next.scheduler.reqsNeedSend = _ from send,
            AList.entries_set_of_notMem fresh, List.append_assoc, List.append_assoc]
        · rw [Aborting, wire, show next.scheduler.reqsNotProcessed =
            system.scheduler.reqsNotProcessed from aborts] at aborting
          exact aborting
      · refine ⟨.drops ?_, fun reqId aborting => ?_⟩
        · rw [expirations, expirations, wire,
            show next.scheduler.reqsNeedSend = system.scheduler.reqsNeedSend from send]
        · rw [Aborting, wire, show next.scheduler.reqsNotProcessed =
            system.scheduler.reqsNotProcessed.add call.request.requestId from aborts,
            AList.mem_add] at aborting
          rcases aborting with (rfl | waiting) | onTheWay
          · exact Or.inr ⟨call, rfl, other, rfl⟩
          · exact Or.inl (Or.inl waiting)
          · exact Or.inl (Or.inr onTheWay)
  | register payload =>
      obtain rfl := Except.ok.inj taken
      refine ⟨.drops ?_, fun reqId aborting => Or.inl ?_⟩
      · simp [expirations, next, NixlConnectorScheduler.metadataOf,
          NixlConnectorScheduler.handleConsumerRegistration]
      · simpa [Aborting, next, NixlConnectorScheduler.metadataOf,
          NixlConnectorScheduler.handleConsumerRegistration] using aborting

/-- A step of the worker takes over the oldest metadata's expirations, as far as they are still
processed. -/
theorem moves_startLoadKv {system : ProducerSystem} {metadata : NixlConnectorMetadata}
    {wire : List NixlConnectorMetadata} (here : system.wire = metadata :: wire)
    (distinct : system.expirations.NodupKeys) {sending : Sending}
    (loaded : Sending.Loaded system.sending metadata sending) :
    Moves config .startLoadKv system { system with wire, sending } := by
  apply Moves.drops
  have split : system.expirations =
      (system.sending.reqsToSend.entries ++ metadata.reqsToSend.entries) ++
        (wire.flatMap (fun metadata => metadata.reqsToSend.entries) ++
          system.scheduler.reqsNeedSend.entries) := by
    simp [expirations, here]
  rw [split] at distinct ⊢
  have front := loaded.send (List.Nodup.of_append_left (by
    rw [← List.keys_append]
    exact distinct))
  rw [expirations]
  simp only [front]
  exact (List.Sublist.append_left List.filter_sublist _).append_right _

/-- A worker that looks for finished sends only drops expirations. -/
theorem getFinished_eq_ok {sending next : Sending} {notifs : List Notif} {now : ℚ}
    {done : KeySet ReqId} (taken : worker.getFinished sending notifs now = (next, .ok done))
    (tracked : sending.Tracked) :
    next.Tracked ∧ next.reqsToSend.entries.Sublist sending.reqsToSend.entries := by
  cases notified : worker.getNewNotifs sending notifs with
  | mk middle result =>
      cases result with
      | error raised =>
          rw [SendingWorker.getFinished, notified] at taken
          cases taken
      | ok collected =>
          obtain ⟨_, fewer⟩ := SendingWorker.getNewNotifs_eq_ok notified tracked
          obtain ⟨other, all, finished, expired, still⟩ :=
            SendingWorker.getFinished_of_notified notified tracked now
          rw [taken] at finished
          obtain ⟨rfl, _⟩ := Prod.mk.inj finished
          refine ⟨still, ?_⟩
          rw [expired.send]
          exact (List.dropWhile_sublist _).trans fewer

/-! ## Consistency is kept -/

theorem fresh_of_appends {history : List SystemEvent} {event : SystemEvent}
    {system : ProducerSystem} (consistent : Consistent config history system)
    (once : FinishOnce (history ++ [event])) {call : FinishCall}
    (finishes : finishCalls [event] = [call]) :
    call.request.requestId ∉ system.expirations.keys := by
  intro present
  obtain ⟨entry, member, same⟩ := List.mem_map.mp present
  obtain ⟨other, inside, _, otherId, _⟩ := consistent.expiring entry member
  rw [FinishOnce, finishCalls_append, finishes, List.map_append] at once
  refine (List.nodup_append.mp once).2.2 _ (List.mem_map_of_mem inside) _
    (List.mem_map_of_mem List.mem_cons_self) ?_
  rw [otherId, same]

theorem consistent_of_moves {history : List SystemEvent} {event : SystemEvent}
    {system next : ProducerSystem} (consistent : Consistent config history system)
    (once : FinishOnce (history ++ [event])) (moves : Moves config event system next)
    (tracked : next.sending.Tracked)
    (aborting : ∀ reqId, next.Aborting reqId → system.Aborting reqId ∨
      ∃ call, finishCalls [event] = [call] ∧ call.status = .other ∧
        call.request.requestId = reqId) :
    Consistent config (history ++ [event]) next := by
  have earlier : ∀ call ∈ finishCalls history, call ∈ finishCalls (history ++ [event]) := by
    intro call member
    rw [finishCalls_append]
    exact List.mem_append_left _ member
  have aborts : ∀ reqId, next.Aborting reqId → ∃ call ∈ finishCalls (history ++ [event]),
      call.status = .other ∧ call.request.requestId = reqId := by
    intro reqId waiting
    rcases aborting reqId waiting with before | ⟨call, finishes, other, same⟩
    · obtain ⟨call, member, other, same⟩ := consistent.aborting reqId before
      exact ⟨call, earlier call member, other, same⟩
    · refine ⟨call, ?_, other, same⟩
      rw [finishCalls_append, finishes]
      exact List.mem_append_right _ List.mem_cons_self
  cases moves with
  | drops fewer =>
      refine ⟨tracked, List.Nodup.sublist (fewer.map Sigma.fst) consistent.distinct, ?_, aborts⟩
      intro entry member
      obtain ⟨call, inside, provenance⟩ := consistent.expiring entry (fewer.subset member)
      exact ⟨call, earlier call inside, provenance⟩
  | appends call finishes capped shape =>
      have last : call ∈ finishCalls (history ++ [event]) := by
        rw [finishCalls_append, finishes]
        exact List.mem_append_right _ List.mem_cons_self
      have fresh := fresh_of_appends consistent once finishes
      have appended := shape fresh
      refine ⟨tracked, ?_, ?_, aborts⟩
      · rw [appended, List.NodupKeys, List.keys_append]
        apply List.Nodup.append consistent.distinct (List.nodup_singleton _)
        simpa using fresh
      · intro entry member
        rw [appended, List.mem_append, List.mem_singleton] at member
        rcases member with before | rfl
        · obtain ⟨other, inside, provenance⟩ := consistent.expiring entry before
          exact ⟨other, earlier other inside, provenance⟩
        · exact ⟨call, last, capped, rfl, rfl⟩

/-- The assertion of `start_load_kv` holds: an id with an expiration and an abort would have two
finishes. -/
theorem loaded_of_consistent {history : List SystemEvent} {system : ProducerSystem}
    (consistent : Consistent config history system) (once : FinishOnce history)
    {metadata : NixlConnectorMetadata} {wire : List NixlConnectorMetadata}
    (here : system.wire = metadata :: wire) :
    ∃ sending, system.sending.startLoadKv metadata = (sending, .ok ()) ∧
      Sending.Loaded system.sending metadata sending := by
  rcases Sending.startLoadKv_spec system.sending metadata with
    loaded | ⟨⟨reqId, aborted, expiring⟩, _⟩
  · exact loaded
  · obtain ⟨abort, abortIn, other, abortId⟩ := consistent.aborting reqId
      (Or.inr ⟨metadata, by rw [here]; exact List.mem_cons_self, aborted⟩)
    obtain ⟨entry, member, sameId⟩ := List.mem_map.mp (AList.mem_keys.mp expiring)
    obtain ⟨finish, finishIn, capped, finishId, _⟩ :=
      consistent.expiring entry (List.mem_append_left _ member)
    have same := once.unique abortIn finishIn (by rw [abortId, finishId, sameId])
    rw [same, capped] at other
    cases other

theorem consistent_step {history : List SystemEvent} {event : SystemEvent}
    {system next : ProducerSystem} (consistent : Consistent config history system)
    (once : FinishOnce (history ++ [event]))
    (taken : system.step config worker event = .ok next) :
    Consistent config (history ++ [event]) next ∧ Moves config event system next := by
  cases step_eq_ok taken with
  | schedule moved =>
      obtain ⟨moves, aborting⟩ := moves_schedule moved
      exact ⟨consistent_of_moves consistent once moves consistent.tracked aborting, moves⟩
  | idle nothing =>
      have moves : Moves config .startLoadKv system system := .drops (List.Sublist.refl _)
      exact ⟨consistent_of_moves consistent once moves consistent.tracked
        fun reqId aborting => Or.inl aborting, moves⟩
  | @startLoadKv metadata wire sending here loads =>
      obtain ⟨_, loadsTo, loaded⟩ := loaded_of_consistent consistent once.of_append here
      obtain ⟨rfl, _⟩ := Prod.mk.inj (loads.symm.trans loadsTo)
      have moves : Moves config .startLoadKv system { system with wire, sending } :=
        moves_startLoadKv here consistent.distinct loaded
      refine ⟨consistent_of_moves consistent once moves (loaded.tracked consistent.tracked)
        fun reqId aborting => Or.inl ?_, moves⟩
      rcases aborting with waiting | ⟨other, member, aborted⟩
      · exact Or.inl waiting
      · exact Or.inr ⟨other, by rw [here]; exact List.mem_cons_of_mem _ member, aborted⟩
  | @getFinished notifs now sending done finished =>
      obtain ⟨tracked, fewer⟩ := getFinished_eq_ok finished consistent.tracked
      have moves : Moves config (.getFinished notifs now) system { system with sending } :=
        .drops (fewer.append_right _)
      exact ⟨consistent_of_moves consistent once moves tracked
        fun reqId aborting => Or.inl aborting, moves⟩

theorem consistent_exec {events : List SystemEvent} {final : ProducerSystem}
    (once : FinishOnce events) (taken : Run.exec (step config worker) init events = .ok final) :
    Consistent config events final := by
  let invariant (history : List SystemEvent) (system : ProducerSystem) : Prop :=
    FinishOnce history → Consistent config history system
  suffices holds : invariant events final from holds once
  refine Run.history_induction (fun _ => consistent_init config) ?_ taken
  intro history middle event next _ ih moved once
  exact (consistent_step (ih once.of_append) once moved).1

end Steps

end ProducerSystem

end RduHdi
