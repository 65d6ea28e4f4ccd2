import RduHdi.Connector.ProducerSystem

/-!
# The maps of the producer worker

Every id with an expiration is also in the set of requests being processed, so neither the
assertion of `start_load_kv` nor a removal from that set can fail.
-/

namespace RduHdi

namespace ProducerSystem

variable {config : SchedulerConfig} {worker : SendingWorker}

/-- In a consistent system an event with well-formed notifs does not fail in the worker. -/
theorem step_ne_worker_error {history : List SystemEvent} {event : SystemEvent}
    {system : ProducerSystem} (consistent : Consistent config history system)
    (once : FinishOnce history) (wellFormed : event.WellFormed worker) (raised : PyError) :
    system.step config worker event ≠ .error (.worker raised) := by
  intro failed
  rw [step.eq_def] at failed
  cases event with
  | schedule event =>
      cases moved : system.scheduler.step config event with
      | ok scheduler => simp [moved] at failed
      | error other => simp [moved] at failed
  | startLoadKv =>
      cases here : system.wire with
      | nil => simp [here] at failed
      | cons metadata wire =>
          obtain ⟨sending, loads, _⟩ := loaded_of_consistent consistent once here
          simp [here, loads] at failed
  | getFinished notifs now =>
      obtain ⟨middle, notified, notifsTaken⟩ :=
        SendingWorker.getNewNotifs_of_wellFormed wellFormed consistent.tracked
      obtain ⟨next, done, finished, _⟩ :=
        SendingWorker.getFinished_of_notified notifsTaken consistent.tracked now
      simp [finished] at failed

/-- **Producer maps.**  In every run in which request ids finish once, every id with an expiration
is being processed, and with well-formed notifs the worker raises nothing. -/
theorem producer_maps_consistent {events : List SystemEvent} (once : FinishOnce events)
    (wellFormed : ∀ event ∈ events, event.WellFormed worker) :
    (∀ final, Run.exec (step config worker) init events = .ok final →
        ∀ reqId ∈ final.sending.reqsToSend, reqId ∈ final.sending.reqsToProcess) ∧
      ∀ raised, Run.exec (step config worker) init events ≠ .error (.worker raised) := by
  constructor
  · exact fun final taken => (consistent_exec once taken).tracked
  · intro raised failed
    induction events using List.reverseRecOn with
    | nil => cases failed
    | append_singleton history event ih =>
        rcases Run.exec_snoc_eq_error.mp failed with before | ⟨middle, taken, last⟩
        · exact ih once.of_append
            (fun other member => wellFormed other (List.mem_append_left _ member)) before
        · exact step_ne_worker_error (consistent_exec once.of_append taken) once.of_append
            (wellFormed event (by simp)) raised last

/-! ## A notif found by its UUID -/

/-- A request whose id carries a UUID. -/
def prefixedRequest : Request :=
  .remoteDecode "cmpl-0b5c6a1e-9d2f-4c3b-8a7d-1234567890ab-0" [31, 32]

/-- The request is prefilled and finishes, and one notif with the bare UUID, one about an unknown
request and an empty one arrive. -/
def bareUuidRun : List SystemEvent :=
  [.schedule (.alloc prefixedRequest [5] 0 0), .schedule (.build ⟨[], List.nodup_nil⟩),
    .startLoadKv, .schedule (.finish prefixedRequest .finishedLengthCapped [5] 1),
    .schedule (.build ⟨[], List.nodup_nil⟩), .startLoadKv,
    .getFinished
      [.ofText (notifId "0b5c6a1e-9d2f-4c3b-8a7d-1234567890ab" 1),
        .ofText (notifId "unknown" 1), .ofText ""] 2]

theorem producer_maps_consistent_bareUuid :
    (∀ final, Run.exec (step (.withDefaults false false) (.ofSize 1)) init bareUuidRun =
        .ok final → ∀ reqId ∈ final.sending.reqsToSend, reqId ∈ final.sending.reqsToProcess) ∧
      ∀ raised, Run.exec (step (.withDefaults false false) (.ofSize 1)) init bareUuidRun ≠
        .error (.worker raised) := by
  have named (reqId : ReqId) :
      (SendingWorker.ofSize 1).WellFormed (.ofText (notifId reqId 1)) :=
    Or.inr ⟨reqId, ['1'], 1, Sending.decodeNotif_notifId reqId 1, by decide⟩
  have empty : (SendingWorker.ofSize 1).WellFormed (.ofText "") := Or.inl rfl
  have once : FinishOnce bareUuidRun := by decide
  have wellFormed : ∀ event ∈ bareUuidRun, event.WellFormed (.ofSize 1) := by
    intro event member
    cases event with
    | schedule event => trivial
    | startLoadKv => trivial
    | getFinished notifs now =>
        obtain ⟨rfl, rfl⟩ : notifs = [.ofText (notifId "0b5c6a1e-9d2f-4c3b-8a7d-1234567890ab" 1),
            .ofText (notifId "unknown" 1), .ofText ""] ∧ now = 2 := by
          simpa [bareUuidRun] using member
        simp only [SystemEvent.WellFormed, List.forall_mem_cons]
        exact ⟨named _, named _, empty, nofun⟩
  exact producer_maps_consistent once wellFormed

end ProducerSystem

end RduHdi
