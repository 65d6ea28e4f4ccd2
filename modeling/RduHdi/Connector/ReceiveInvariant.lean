import RduHdi.Connector.ReceivePlaces
import RduHdi.Run

/-!
# Invariants of the receiving half

What the receiving half does next, and the rule for invariants: a statement about the requests
that were loaded, those that are pending, the reading half and the log holds throughout a run when
it survives each thing that happens to one request, and what `get_finished` takes for received.
-/

namespace RduHdi

/-- What the receiving half does next. -/
inductive ReceiveEvent where
  /-- `start_load_kv`, with the handshakes that end within its loop. -/
  | startLoadKv (turns : List LoadTurn)
  /-- A handshake ends; what the remote ranks answered. -/
  | handshakeDone (engineId : EngineId) (answers : ℕ → Except PyError HandshakePayload)
  /-- What NIXL says of each transfer, and how the set of received requests is iterated over. -/
  | getFinished (checks : XferHandle → XferCheck) (order : SetOrder)
  /-- `get_block_ids_with_load_errors`. -/
  | getBlockIdsWithLoadErrors

/-- The requests that are loaded. -/
def LoadTurn.loads : LoadTurn → List (ReqId × ReqMeta)
  | .request reqId saved => [(reqId, saved)]
  | .handshakeDone _ _ => []

def ReceiveEvent.loads : ReceiveEvent → List (ReqId × ReqMeta)
  | .startLoadKv turns => turns.flatMap LoadTurn.loads
  | .handshakeDone _ _ => []
  | .getFinished _ _ => []
  | .getBlockIdsWithLoadErrors => []

/-- The requests that wait for a handshake, or to be read after one. -/
def Receiving.pending {ω : Type} (receiving : Receiving ω) : List (ReqId × ReqMeta) :=
  receiving.handshakeFutures.entries.flatMap (fun entry => entry.2.waiting) ++
    receiving.readyRequests

/-- What `request_ready` makes of the reading half when the handshake failed. -/
def Reading.withFailed {ω : Type} (reading : Reading ω) (reqId : ReqId) : Reading ω :=
  { reading with
    invalidBlockIds := reading.withInvalid reqId
    failedRecvReqs := reading.failedRecvReqs.add reqId }

namespace ReceivingWorker

variable {ω : Type} (worker : ReceivingWorker ω)

def step (receiving : Receiving ω) : ReceiveEvent → Except ReceiveError (Receiving ω)
  | .startLoadKv turns =>
      match worker.startLoadKv receiving turns with
      | (receiving, .ok ()) => .ok receiving
      | (_, .error raised) => .error (.raised raised)
  | .handshakeDone engineId answers => .ok (worker.handshakeDone receiving engineId answers)
  | .getFinished checks order =>
      match worker.getFinished receiving checks order with
      | (receiving, .ok _) => .ok receiving
      | (_, .error raised) => .error raised
  | .getBlockIdsWithLoadErrors => .ok (getBlockIdsWithLoadErrors receiving).1

/-! ## The pending requests -/

theorem pending_perm {receiving : Receiving ω} {engineId : EngineId} {future : HandshakeFuture}
    (known : receiving.handshakeFutures.lookup engineId = some future) :
    receiving.pending.Perm (future.waiting ++
      ((receiving.handshakeFutures.erase engineId).entries.flatMap (fun entry => entry.2.waiting) ++
        receiving.readyRequests)) := by
  rw [← List.append_assoc]
  exact ((AList.entries_perm_of_lookup known).flatMap_right _).append_right _

theorem backgroundNixlHandshake_pending {receiving : Receiving ω} {reqId : ReqId}
    {engineId : EngineId} {saved : ReqMeta} :
    (backgroundNixlHandshake receiving reqId engineId saved).pending.Perm
      ((reqId, saved) :: receiving.pending) := by
  let waiting (entry : Σ _ : EngineId, HandshakeFuture) : List (ReqId × ReqMeta) := entry.2.waiting
  have others : (((receiving.handshakeFutures.lookup engineId).getD ⟨saved.tpSize, []⟩).waiting ++
      (receiving.handshakeFutures.erase engineId).entries.flatMap waiting).Perm
        (receiving.handshakeFutures.entries.flatMap waiting) := by
    cases known : receiving.handshakeFutures.lookup engineId with
    | none =>
        rw [AList.erase_of_notMem (AList.lookup_eq_none.mp known)]
        exact .refl _
    | some future => exact ((AList.entries_perm_of_lookup known).flatMap_right waiting).symm
  rw [backgroundNixlHandshake, Receiving.pending, Receiving.pending, ← List.cons_append]
  apply List.Perm.append_right
  refine ((AList.entries_set_perm).flatMap_right waiting).trans ?_
  rw [List.flatMap_cons]
  change (_ ++ [(reqId, saved)] ++ _).Perm _
  rw [List.append_assoc]
  exact List.perm_middle.trans (others.cons _)

/-! ## The rule -/

/-- An invariant of the loaded requests, the pending ones, the reading half and the log, as long
as the loaded requests are `allowed`; `asked` may be assumed of what NIXL says to
`get_finished`. -/
structure Keeps (allowed : List (ReqId × ReqMeta) → Prop)
    (asked : Reading ω → (XferHandle → XferCheck) → Prop)
    (invariant : List (ReqId × ReqMeta) → List (ReqId × ReqMeta) → Reading ω → ReceiveLog →
      Prop) : Prop where
  /-- What is allowed holds of the loads before. -/
  allowed_left : ∀ {left right}, allowed (left ++ right) → allowed left
  /-- The order of what is pending does not matter. -/
  perm : ∀ {loads pending others reading log}, invariant loads pending reading log →
    others.Perm pending → invariant loads others reading log
  /-- Whatever state the library is in, and whatever happens to a request that was pending. -/
  world : ∀ {loads pending reading log} world, invariant loads pending reading log →
    invariant loads pending { reading with world } log
  /-- To read a pending request keeps it. -/
  read : ∀ {loads pending reading log} (reader : ReadingWorker ω) (entry : ReqId × ReqMeta),
    invariant loads (entry :: pending) reading log →
    invariant loads pending (reader.readBlocksForReq reading entry.1 entry.2).1
      (log.note (reader.readBlocksForReq reading entry.1 entry.2).1)
  /-- To fail one keeps it. -/
  fail : ∀ {loads pending reading log} (entry : ReqId × ReqMeta),
    invariant loads (entry :: pending) reading log →
    invariant loads pending (reading.withFailed entry.1)
      ((log.withFailed entry.1).note (reading.withFailed entry.1))
  /-- To load a request keeps it. -/
  load : ∀ {loads pending reading log reqId saved} remote,
    invariant loads pending reading log → allowed (loads ++ [(reqId, saved)]) →
    invariant (loads ++ [(reqId, saved)]) ((reqId, worker.inKernelBlocks saved remote) :: pending)
      { reading with
        recvingMetadata :=
          reading.recvingMetadata.set reqId (worker.inKernelBlocks saved remote) } log
  /-- To report what was received keeps it. -/
  finish : ∀ {loads pending reading log checks next done} {recvingMetadata : Dict ReqId ReqMeta},
    invariant loads pending reading log → asked reading checks →
    Received checks reading next done →
    next.recvingMetadata.keys.Perm (done.keys ++ recvingMetadata.keys) →
    (∀ reqId saved, recvingMetadata.lookup reqId = some saved →
      next.recvingMetadata.lookup reqId = some saved) →
    invariant loads pending
      { next with recvingMetadata, underway := stillUnderway checks reading }
      { log.note next with
        reported := log.reported ++ done.keys
        failed := (log.note next).failed.addAll (failedChecks checks reading) }
  /-- To hand over the invalid blocks keeps it. -/
  clear : ∀ {loads pending reading log}, invariant loads pending reading log →
    invariant loads pending { reading with invalidBlockIds := ∅ } log

/-- What NIXL says to `get_finished` is as an invariant needs it. -/
def Asks (asked : Reading ω → (XferHandle → XferCheck) → Prop) (receiving : Receiving ω) :
    ReceiveEvent → Prop
  | .getFinished checks _ => asked receiving.reading checks
  | _ => True

variable {worker} {allowed : List (ReqId × ReqMeta) → Prop}
  {asked : Reading ω → (XferHandle → XferCheck) → Prop}
  {invariant : List (ReqId × ReqMeta) → List (ReqId × ReqMeta) → Reading ω → ReceiveLog → Prop}
  {loads : List (ReqId × ReqMeta)} {receiving next : Receiving ω}

/-- An invariant of a state. -/
abbrev Meets (invariant : List (ReqId × ReqMeta) → List (ReqId × ReqMeta) → Reading ω → ReceiveLog →
    Prop) (loads : List (ReqId × ReqMeta)) (receiving : Receiving ω) : Prop :=
  invariant loads receiving.pending receiving.reading receiving.log

namespace Keeps

theorem failWaiting (keeps : worker.Keeps allowed asked invariant)
    {entries : List (ReqId × ReqMeta)}
    (holds : invariant loads (entries ++ receiving.pending) receiving.reading receiving.log) :
    Meets invariant loads (entries.foldl failWaiting receiving) := by
  induction entries generalizing receiving with
  | nil => exact holds
  | cons entry entries ih =>
      apply ih
      exact keeps.fail entry (keeps.world receiving.tables.world holds)

theorem handshakeDone (keeps : worker.Keeps allowed asked invariant)
    (holds : Meets invariant loads receiving) (engineId : EngineId)
    (answers : ℕ → Except PyError HandshakePayload) :
    Meets invariant loads (worker.handshakeDone receiving engineId answers) := by
  rw [ReceivingWorker.handshakeDone]
  split
  · exact holds
  · rename_i future known
    have split := pending_perm known
    rcases worker.handshakes.nixlHandshake answers future.tpSize engineId receiving.tables with
      ⟨tables, raised | agents⟩
    · simp only
      rw [runCallbacks_error]
      apply keeps.failWaiting
      exact keeps.perm holds split.symm
    · simp only
      rw [runCallbacks_ok]
      refine keeps.perm holds (.trans ?_ split.symm)
      rw [Receiving.pending, ← List.append_assoc]
      exact List.perm_append_comm

theorem readBlocksForReq (keeps : worker.Keeps allowed asked invariant) {entry : ReqId × ReqMeta}
    (holds : invariant loads (entry :: receiving.pending) receiving.reading receiving.log) :
    Meets invariant loads (worker.readBlocksForReq receiving entry.1 entry.2).1 :=
  keeps.read _ entry (keeps.world receiving.tables.world holds)

theorem loadRequest (keeps : worker.Keeps allowed asked invariant)
    (holds : Meets invariant loads receiving) {reqId : ReqId} {saved : ReqMeta}
    (fine : allowed (loads ++ [(reqId, saved)]))
    (loaded : worker.loadRequest receiving reqId saved = (next, .ok ())) :
    Meets invariant (loads ++ [(reqId, saved)]) next := by
  rw [ReceivingWorker.loadRequest] at loaded
  split at loaded
  · cases loaded
  · rename_i remote isRemote
    let started : Receiving ω :=
      { receiving with
        reading :=
          { receiving.reading with
            recvingMetadata :=
              receiving.reading.recvingMetadata.set reqId (worker.inKernelBlocks saved remote) } }
    have waits : invariant (loads ++ [(reqId, saved)])
        ((reqId, worker.inKernelBlocks saved remote) :: started.pending) started.reading
        started.log := keeps.load remote holds fine
    simp only at loaded
    split at loaded
    · cases loaded
      exact keeps.perm waits backgroundNixlHandshake_pending
    · have read := keeps.readBlocksForReq waits
      rw [loaded] at read
      exact read

theorem loadLoop (keeps : worker.Keeps allowed asked invariant) {turns : List LoadTurn}
    (holds : Meets invariant loads receiving)
    (fine : allowed (loads ++ turns.flatMap LoadTurn.loads))
    (looped : worker.loadLoop turns receiving = (next, .ok ())) :
    Meets invariant (loads ++ turns.flatMap LoadTurn.loads) next := by
  induction turns generalizing loads receiving with
  | nil =>
      cases looped
      rw [List.flatMap_nil, List.append_nil]
      exact holds
  | cons turn turns ih =>
      cases turn with
      | handshakeDone engineId answers =>
          exact ih (keeps.handshakeDone holds engineId answers) fine looped
      | request reqId saved =>
          rw [List.flatMap_cons, ← List.append_assoc] at fine ⊢
          rw [ReceivingWorker.loadLoop] at looped
          split at looped
          · rename_i middle loaded
            exact ih (keeps.loadRequest holds (keeps.allowed_left fine) loaded) fine looped
          · cases looped

theorem readReady (keeps : worker.Keeps allowed asked invariant) {entries : List (ReqId × ReqMeta)}
    (holds : Meets invariant loads receiving) (ready : receiving.readyRequests = entries)
    (looped : worker.readReady entries receiving = (next, .ok ())) :
    Meets invariant loads next := by
  induction entries generalizing receiving with
  | nil =>
      cases looped
      exact holds
  | cons entry entries ih =>
      rw [ReceivingWorker.readReady] at looped
      have front : invariant loads
          (entry :: ({ receiving with readyRequests := entries } : Receiving ω).pending)
          receiving.reading receiving.log := by
        refine keeps.perm holds ?_
        rw [Receiving.pending, Receiving.pending, ready]
        exact List.perm_middle.symm
      have read := keeps.readBlocksForReq front
      split at looped
      · rename_i middle went
        rw [went] at read
        refine ih read ?_ looped
        rw [← congrArg Prod.fst went]
        rfl
      · cases looped

end Keeps

theorem received_onReading (worker : ReceivingWorker ω) (checks : XferHandle → XferCheck)
    (receiving : Receiving ω) :
    Received checks receiving.reading
      (receiving.onReading (worker.doneRecving checks)).1.reading
      (receiving.onReading (worker.doneRecving checks)).2 := by
  have received := worker.doneRecving_received checks
    { receiving.reading with world := receiving.tables.world }
  exact { received with }

theorem onReading_same {α : Type} (receiving : Receiving ω) (work : Reading ω → Reading ω × α) :
    (receiving.onReading work).1.log =
        receiving.log.note (receiving.onReading work).1.reading ∧
      (receiving.onReading work).1.pending = receiving.pending :=
  ⟨rfl, rfl⟩

theorem Keeps.getFinished (keeps : worker.Keeps allowed asked invariant)
    (holds : Meets invariant loads receiving) {checks : XferHandle → XferCheck} {order : SetOrder}
    (answered : asked receiving.reading checks) {done : KeySet ReqId}
    (finished : worker.getFinished receiving checks order = (next, .ok done)) :
    Meets invariant loads next := by
  have received := received_onReading worker checks receiving
  rw [ReceivingWorker.getFinished] at finished
  cases taken : receiving.onReading (worker.doneRecving checks) with
  | mk middle isDone =>
      obtain ⟨noted, waits⟩ := onReading_same receiving (worker.doneRecving checks)
      rw [taken] at received noted waits
      simp only [taken] at finished
      split at finished
      · cases finished
      · rename_i forgotten postProcess looped
        obtain ⟨keys, lookups, recvingMetadata, receiveCalls, rfl⟩ := worker.finishLoop_eq_ok looped
        split at finished
        · cases finished
        · rename_i last processed
          obtain ⟨laterCalls, rfl⟩ := postProcessLoop_eq_ok processed
          cases finished
          have kept := keeps.finish holds answered received
            (keys.trans ((order.perm done.keys).append_right _)) lookups
          rw [show middle.log = receiving.log.note middle.reading from noted]
          exact keeps.perm kept (.of_eq waits)

theorem Keeps.step (keeps : worker.Keeps allowed asked invariant) {event : ReceiveEvent}
    (holds : Meets invariant loads receiving) (fine : allowed (loads ++ event.loads))
    (answered : Asks asked receiving event) (taken : worker.step receiving event = .ok next) :
    Meets invariant (loads ++ event.loads) next := by
  cases event with
  | startLoadKv turns =>
      rw [ReceivingWorker.step, startLoadKv] at taken
      cases looped : worker.loadLoop turns receiving with
      | mk middle result =>
          rw [looped] at taken
          cases result with
          | error raised => cases taken
          | ok _ =>
              have loaded := keeps.loadLoop holds fine looped
              simp only at taken
              split at taken
              · rename_i last read
                cases taken
                exact keeps.readReady loaded rfl read
              · cases taken
  | handshakeDone engineId answers =>
      cases taken
      rw [ReceiveEvent.loads, List.append_nil]
      exact keeps.handshakeDone holds engineId answers
  | getFinished checks order =>
      rw [ReceiveEvent.loads, List.append_nil]
      rw [ReceivingWorker.step] at taken
      split at taken
      · rename_i last done finished
        cases taken
        exact keeps.getFinished holds answered finished
      · cases taken
  | getBlockIdsWithLoadErrors =>
      cases taken
      rw [ReceiveEvent.loads, List.append_nil]
      exact keeps.clear holds

theorem Keeps.exec (keeps : worker.Keeps allowed asked invariant) {events : List ReceiveEvent}
    (holds : Meets invariant loads receiving)
    (fine : allowed (loads ++ events.flatMap ReceiveEvent.loads))
    (answered : Run.Throughout worker.step (Asks asked) receiving events)
    (reached : Run.exec worker.step receiving events = .ok next) :
    Meets invariant (loads ++ events.flatMap ReceiveEvent.loads) next := by
  induction events generalizing receiving loads with
  | nil =>
      cases reached
      rw [List.flatMap_nil, List.append_nil]
      exact holds
  | cons event events ih =>
      obtain ⟨middle, taken, rest⟩ := Run.exec_cons_eq_ok.mp reached
      rw [List.flatMap_cons, ← List.append_assoc] at fine ⊢
      exact ih (keeps.step holds (keeps.allowed_left fine) answered.1 taken) fine
        (answered.2 middle taken) rest

end ReceivingWorker

end RduHdi
