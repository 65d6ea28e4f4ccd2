import RduHdi.Connector.Handover
import RduHdi.Connector.HostStaging
import RduHdi.Connector.Listener
import RduHdi.Connector.ProducerSystem

/-!
# The way of a consumer registration

From the listener thread through the scheduler side and a metadata to the worker, which looks at
registrations only where it saves to host memory.  What the listener accepted is, in order, what
`_register_consumers` was called with and what is still on the way, exactly when every metadata
with registrations is saved from.
-/

namespace RduHdi

/-- A worker with the two attributes `wait_for_save` reads: whether it has a host buffer, and
whether the copy operation is set. -/
structure ConnectorWorker (ω : Type*) extends StagingWorker ω where
  /-- `use_host_buffer`. -/
  useHostBuffer : Bool
  /-- Whether `copy_blocks` is set. -/
  copyBlocks : Bool

/-- `wait_for_save`. -/
def ConnectorWorker.waitForSave {ω : Type*} (worker : ConnectorWorker ω) (staging : Staging ω)
    (metadata : NixlConnectorMetadata) : Staging ω :=
  if worker.useHostBuffer && worker.copyBlocks then
    worker.saveKvToHost staging metadata
  else
    staging

/-- What the parties of a producer are set up with. -/
structure ConnectorSetup (ω : Type*) where
  /-- What the scheduler side is configured with. -/
  config : SchedulerConfig
  /-- The decoder of the side channel's messages. -/
  decode : ByteArray → Except PyError PyObj
  /-- The handshake metadata that the listener serves, by rank. -/
  encodedData : Dict PyKey ByteArray
  /-- The part of the worker that keeps account of the requests it sends. -/
  sending : SendingWorker
  /-- The part of the worker that saves to host memory. -/
  worker : ConnectorWorker ω

/-- The producer, with what its worker stages. -/
structure ConnectorSystem (ω : Type*) where
  /-- The scheduler side, the metadata on the way and the maps of the worker. -/
  producer : ProducerSystem
  /-- What the worker keeps of consumers and chunks. -/
  staging : Staging ω

inductive ConnectorEvent where
  /-- A message arrives at the side channel. -/
  | receive (msg : ByteArray)
  /-- The scheduler side is called. -/
  | schedule (event : SchedulerEvent)
  /-- The worker takes the step of the oldest metadata, with or without a forward pass. -/
  | workerStep (forward : Bool)
  /-- `get_finished` on the worker. -/
  | getFinished (notifs : List Notif) (now : ℚ)

namespace ConnectorSetup

variable {ω : Type*} (setup : ConnectorSetup ω)

def listener : HandshakeListener NixlConnectorScheduler :=
  .ofScheduler setup.decode setup.encodedData

/-- The registrations an event gets accepted. -/
def accepted : ConnectorEvent → List PyObj
  | .receive msg => setup.listener.registrations msg
  | .schedule (.register payload) => [payload]
  | _ => []

end ConnectorSetup

namespace ConnectorSystem

variable {ω : Type*}

def init (world : ω) : ConnectorSystem ω where
  producer := .init
  staging := .init world

/-- Take one event. -/
def step (setup : ConnectorSetup ω) (system : ConnectorSystem ω) :
    ConnectorEvent → Except SystemFailure (ConnectorSystem ω)
  | .receive msg =>
      let scheduler := (setup.listener.serve system.producer.scheduler msg).1
      .ok { system with producer := { system.producer with scheduler } }
  | .schedule event =>
      (system.producer.step setup.config setup.sending (.schedule event)).map fun producer =>
        { system with producer }
  | .workerStep forward =>
      match system.producer.wire with
      | [] => .ok system
      | metadata :: _ =>
          (system.producer.step setup.config setup.sending .startLoadKv).map fun producer =>
            { producer
              staging :=
                if forward then setup.worker.waitForSave system.staging metadata
                else system.staging }
  | .getFinished notifs now =>
      (system.producer.step setup.config setup.sending (.getFinished notifs now)).map
        fun producer => { system with producer }

/-- The registrations that are accepted and have not reached a worker step yet. -/
def underway (system : ConnectorSystem ω) : List PyObj :=
  system.producer.wire.flatMap NixlConnectorMetadata.consumerRegistrations ++
    system.producer.scheduler.pendingConsumerRegistrations

/-- The registrations of the metadata a worker step takes. -/
def handed (system : ConnectorSystem ω) : ConnectorEvent → List PyObj
  | .workerStep _ =>
      match system.producer.wire with
      | metadata :: _ => metadata.consumerRegistrations
      | [] => []
  | _ => []

/-- A worker step of a metadata with registrations runs a forward pass, and saves to a host
buffer. -/
def Delivers (setup : ConnectorSetup ω) (system : ConnectorSystem ω) : ConnectorEvent → Prop
  | .workerStep forward => system.handed (.workerStep forward) ≠ [] →
      forward ∧ setup.worker.useHostBuffer ∧ setup.worker.copyBlocks
  | _ => True

section Steps

variable {setup : ConnectorSetup ω}

/-- The registrations an event lets through to `_register_consumers`. -/
def passed (setup : ConnectorSetup ω) (system : ConnectorSystem ω) :
    ConnectorEvent → List PyObj
  | .workerStep true =>
      match system.producer.wire with
      | metadata :: _ =>
          if setup.worker.useHostBuffer && setup.worker.copyBlocks then
            setup.worker.registrationsOf metadata
          else
            []
      | [] => []
  | _ => []

theorem registered_waitForSave (worker : ConnectorWorker ω) (staging : Staging ω)
    (metadata : NixlConnectorMetadata) :
    (worker.waitForSave staging metadata).registered =
      staging.registered ++
        if worker.useHostBuffer && worker.copyBlocks then worker.registrationsOf metadata
        else [] := by
  rw [ConnectorWorker.waitForSave]
  split
  · exact worker.registered_saveKvToHost staging metadata
  · exact (List.append_nil _).symm

/-- What `_register_consumers` is called with in an event is what the event lets through. -/
theorem registered_step {system next : ConnectorSystem ω} {event : ConnectorEvent}
    (taken : system.step setup event = .ok next) :
    next.staging.registered = system.staging.registered ++ passed setup system event := by
  rw [step.eq_def] at taken
  cases event with
  | receive msg =>
      cases taken
      exact (List.append_nil _).symm
  | schedule event =>
      obtain ⟨producer, moved, rfl⟩ := Run.map_eq_ok.mp taken
      exact (List.append_nil _).symm
  | workerStep forward =>
      cases here : system.producer.wire with
      | nil =>
          simp only [here] at taken
          cases taken
          cases forward <;> simp [passed, here]
      | cons metadata wire =>
          simp only [here] at taken
          obtain ⟨producer, moved, rfl⟩ := Run.map_eq_ok.mp taken
          cases forward with
          | false => exact (List.append_nil _).symm
          | true =>
              rw [passed, here]
              exact registered_waitForSave setup.worker system.staging metadata
  | getFinished notifs now =>
      obtain ⟨producer, moved, rfl⟩ := Run.map_eq_ok.mp taken
      exact (List.append_nil _).symm

theorem registered_exec {system final : ConnectorSystem ω} {events : List ConnectorEvent}
    (taken : Run.exec (step setup) system events = .ok final) :
    final.staging.registered =
      system.staging.registered ++ Run.observe (step setup) (passed setup) system events := by
  induction events generalizing system with
  | nil =>
      obtain rfl : system = final := by simpa using taken
      simp
  | cons event events ih =>
      obtain ⟨next, first, rest⟩ := Run.exec_cons_eq_ok.mp taken
      rw [ih rest, registered_step first, Run.observe_cons first, List.append_assoc]

/-- A call of the scheduler side keeps what is underway, and adds what it accepts. -/
theorem underway_schedule (overlap : setup.config.chunkOverlapEnabled)
    {system : ConnectorSystem ω} {producer : ProducerSystem} {event : SchedulerEvent}
    (taken : system.producer.step setup.config setup.sending (.schedule event) = .ok producer) :
    ({ system with producer } : ConnectorSystem ω).underway =
      system.underway ++ setup.accepted (.schedule event) := by
  cases ProducerSystem.step_eq_ok taken with
  | schedule moved =>
      cases event with
      | alloc request unhashedBlockIds numExternalTokens now =>
          obtain ⟨_, allocated⟩ := NixlConnectorScheduler.step_alloc_eq_ok moved
          have kept := (NixlConnectorScheduler.collected_alloc allocated).2.2
          simp [underway, NixlConnectorScheduler.metadataOf, ConnectorSetup.accepted, kept]
      | build output =>
          obtain ⟨metadata, built⟩ := NixlConnectorScheduler.step_build_eq_ok moved
          obtain ⟨_, _, _, _, _, _, drained⟩ := NixlConnectorScheduler.collected_build built
          obtain ⟨registrations, emptied⟩ := drained overlap
          simp [underway, NixlConnectorScheduler.metadataOf, ConnectorSetup.accepted, built,
            registrations, emptied]
      | finish request status blockIds now =>
          cases moved
          have kept := (NixlConnectorScheduler.collected_finish setup.config
            system.producer.scheduler { request, status, blockIds, now }).1
          simp [underway, NixlConnectorScheduler.metadataOf, ConnectorSetup.accepted, kept]
      | register payload =>
          cases moved
          simp [underway, NixlConnectorScheduler.metadataOf, ConnectorSetup.accepted,
            NixlConnectorScheduler.handleConsumerRegistration]

/-- What is accepted comes to a worker step or is still underway, in order. -/
theorem handed_append_underway (overlap : setup.config.chunkOverlapEnabled)
    {system next : ConnectorSystem ω} {event : ConnectorEvent}
    (taken : system.step setup event = .ok next) :
    system.handed event ++ next.underway = system.underway ++ setup.accepted event := by
  rw [step.eq_def] at taken
  cases event with
  | receive msg =>
      cases taken
      rcases setup.listener.serve_registrations system.producer.scheduler msg with
        ⟨nothing, same⟩ | ⟨payload, registers, served⟩
      · simp [handed, underway, ConnectorSetup.accepted, nothing, same]
      · have stashed : (setup.listener.register system.producer.scheduler
            payload).pendingConsumerRegistrations =
            system.producer.scheduler.pendingConsumerRegistrations ++ [payload] := rfl
        simp [handed, underway, ConnectorSetup.accepted, registers, served, stashed]
  | schedule event =>
      obtain ⟨producer, moved, rfl⟩ := Run.map_eq_ok.mp taken
      exact underway_schedule overlap moved
  | workerStep forward =>
      cases here : system.producer.wire with
      | nil =>
          simp only [here] at taken
          cases taken
          simp [handed, here, ConnectorSetup.accepted]
      | cons metadata wire =>
          simp only [here] at taken
          obtain ⟨producer, moved, rfl⟩ := Run.map_eq_ok.mp taken
          cases ProducerSystem.step_eq_ok moved with
          | idle nothing => simp [here] at nothing
          | startLoadKv shape loads =>
              obtain ⟨rfl, rfl⟩ := List.cons_eq_cons.mp (here.symm.trans shape)
              simp [handed, underway, here, ConnectorSetup.accepted]
  | getFinished notifs now =>
      obtain ⟨producer, moved, rfl⟩ := Run.map_eq_ok.mp taken
      cases ProducerSystem.step_eq_ok moved with
      | getFinished finished => simp [handed, underway, ConnectorSetup.accepted]

/-- A worker step passes on a part of what it is handed, and all of it exactly when it delivers. -/
theorem passed_sublist (overlap : setup.worker.chunkOverlapEnabled)
    (system : ConnectorSystem ω) (event : ConnectorEvent) :
    (passed setup system event).Sublist (system.handed event) := by
  cases event with
  | workerStep forward =>
      cases forward with
      | false => exact List.nil_sublist _
      | true =>
          rw [passed, handed]
          cases system.producer.wire with
          | nil => exact List.Sublist.refl _
          | cons metadata wire =>
              simp only [StagingWorker.registrationsOf, overlap, if_true]
              split
              · exact List.Sublist.refl _
              · exact List.nil_sublist _
  | _ => exact List.Sublist.refl _

theorem passed_eq_handed_iff (overlap : setup.worker.chunkOverlapEnabled)
    (system : ConnectorSystem ω) (event : ConnectorEvent) :
    passed setup system event = system.handed event ↔ Delivers setup system event := by
  cases event with
  | workerStep forward =>
      rw [Delivers, handed]
      cases here : system.producer.wire with
      | nil => cases forward <;> simp [passed, here]
      | cons metadata wire =>
          cases forward with
          | false =>
              cases registrations : metadata.consumerRegistrations <;>
                simp [passed, registrations]
          | true =>
              cases host : setup.worker.useHostBuffer <;>
                cases copy : setup.worker.copyBlocks <;>
                  cases registrations : metadata.consumerRegistrations <;>
                    simp [passed, StagingWorker.registrationsOf, here, host, copy, overlap,
                      registrations]
  | _ => simp [passed, handed, Delivers]

/-- **Delivery of registrations.**  With overlap enabled, in every run what was accepted is what
`_register_consumers` was called with followed by what is underway, exactly when every worker step
delivers. -/
theorem registrations_delivered_iff (overlap : setup.config.chunkOverlapEnabled)
    (workerOverlap : setup.worker.chunkOverlapEnabled) {world : ω}
    {events : List ConnectorEvent} {final : ConnectorSystem ω}
    (taken : Run.exec (step setup) (init world) events = .ok final) :
    events.flatMap setup.accepted = final.staging.registered ++ final.underway ↔
      Run.Throughout (step setup) (Delivers setup) (init world) events := by
  have accounted : Run.observe (step setup) handed (init world) events ++ final.underway =
      events.flatMap setup.accepted := by
    have conserved : Run.observe (step setup) handed (init world) events ++ final.underway =
        (init world).underway ++ events.flatMap setup.accepted := by
      refine Run.observe_append_queue ?_ taken
      intro system event next moved
      exact handed_append_underway overlap moved
    simpa [init, underway, ProducerSystem.init, NixlConnectorScheduler.init] using conserved
  have registered : final.staging.registered =
      Run.observe (step setup) (passed setup) (init world) events := registered_exec taken
  have delivers : (fun system event => passed setup system event = handed system event) =
      Delivers setup := by
    funext system event
    exact propext (passed_eq_handed_iff workerOverlap system event)
  have complete : Run.observe (step setup) (passed setup) (init world) events =
      Run.observe (step setup) handed (init world) events ↔
        Run.Throughout (step setup) (Delivers setup) (init world) events := by
    rw [← delivers]
    exact Run.observe_eq_iff (passed_sublist workerOverlap) taken
  rw [← complete, ← accounted, registered, List.append_left_inj]
  exact eq_comm

end Steps

/-! ## One registration -/

def registration : PyObj := .dict [(.str "engine_id", .str "d")]

/-- The message that carries the registration: an array of the tag and a map of one pair. -/
def registerMsg : ByteArray :=
  ⟨#[0x92, 0xc4, 21]⟩ ++ HandshakeListener.registerConsumerMsg ++ ⟨#[0x81, 0xa9]⟩ ++
    "engine_id".toUTF8 ++ ⟨#[0xa1]⟩ ++ "d".toUTF8

/-- A producer with overlap enabled, in either buffer mode. -/
def overlapSetup (useHostBuffer : Bool) : ConnectorSetup Unit where
  config := .withDefaults useHostBuffer true
  decode msg :=
    if msg = registerMsg then
      .ok (.list [.bytes HandshakeListener.registerConsumerMsg, registration])
    else
      .error .runtimeError
  encodedData := ∅
  sending := .ofSize 1
  worker :=
    { nixl :=
        { addRemoteAgent := fun _ _ => ((), .ok "agent")
          sendNotif := fun _ _ _ => ((), .ok ()) }
      kernel := .consecutive 1 Nat.one_pos
      chunkOverlapEnabled := true
      useHostBuffer
      copyBlocks := true }

/-- The registration arrives, is drained by a step without requests, and the worker takes the
step. -/
def registerRun (forward : Bool) : List ConnectorEvent :=
  [.receive registerMsg, .schedule (.build ⟨[], List.nodup_nil⟩), .workerStep forward]

theorem accepted_registerRun (useHostBuffer forward : Bool) :
    (registerRun forward).flatMap (overlapSetup useHostBuffer).accepted = [registration] := by
  have decoded : (overlapSetup useHostBuffer).decode registerMsg =
      .ok (.list [.bytes HandshakeListener.registerConsumerMsg, registration]) := by
    simp only [overlapSetup, if_true]
  have carried : (overlapSetup useHostBuffer).listener.registrations registerMsg =
      [registration] := by
    rw [HandshakeListener.registrations, ConnectorSetup.listener, HandshakeListener.ofScheduler]
    simp only [decoded]
    simp [PyObj.unpackTwo, PyObj.iterate, HandshakeListener.isTag]
  simp [registerRun, ConnectorSetup.accepted, carried]

theorem registrations_delivered_forward :
    ∃ final, Run.exec (step (overlapSetup true)) (init ()) (registerRun true) = .ok final ∧
      (registerRun true).flatMap (overlapSetup true).accepted =
        final.staging.registered ++ final.underway := by
  refine ⟨_, rfl, (registrations_delivered_iff rfl rfl rfl).mpr ?_⟩
  exact (Run.throughout_cons rfl).mpr ⟨trivial, (Run.throughout_cons rfl).mpr
    ⟨trivial, (Run.throughout_cons rfl).mpr ⟨fun _ => ⟨rfl, rfl, rfl⟩, trivial⟩⟩⟩

/-- A step without a forward pass loses the registration, and so does every step of a producer
without a host buffer. -/
theorem not_delivered :
    (∃ final, Run.exec (step (overlapSetup true)) (init ()) (registerRun false) = .ok final ∧
      (registerRun false).flatMap (overlapSetup true).accepted ≠
        final.staging.registered ++ final.underway) ∧
      ∃ final, Run.exec (step (overlapSetup false)) (init ()) (registerRun true) = .ok final ∧
        (registerRun true).flatMap (overlapSetup false).accepted ≠
          final.staging.registered ++ final.underway := by
  refine ⟨⟨_, rfl, ?_⟩, ⟨_, rfl, ?_⟩⟩
  · rw [accepted_registerRun]
    exact List.cons_ne_nil registration []
  · rw [accepted_registerRun]
    exact List.cons_ne_nil registration []

end ConnectorSystem

end RduHdi
