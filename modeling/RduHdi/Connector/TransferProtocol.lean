import RduHdi.Connector.PartialReads
import RduHdi.Connector.Release

/-!
# The transfer of a request's blocks

A prefill rank, the decode ranks that read from it, and the network between them.  A read is under
way until the library says that it is complete, and only then does its notif reach the prefill
rank; reads complete in any order, and any of them may fail.  The prefill rank may give the blocks
of a request up when no read of them is under way or still to come.
-/

namespace RduHdi

/-- A notif on its way to the prefill rank, or there, with the request whose blocks were read. -/
structure Delivery where
  /-- The request that was read. -/
  requestId : ReqId
  /-- The notif. -/
  payload : ByteArray
  deriving DecidableEq

/-- A rank of a prefill group, and the decode group that reads from it. -/
structure ReadGroup where
  /-- How many decode ranks there are. -/
  decodeSize : ℕ
  /-- How many prefill ranks there are. -/
  prefillSize : ℕ
  /-- There is a decode rank. -/
  decode_pos : 0 < decodeSize
  /-- There is a prefill rank. -/
  prefill_pos : 0 < prefillSize
  /-- One size divides the other. -/
  divides : decodeSize ∣ prefillSize ∨ prefillSize ∣ decodeSize
  /-- Neither `str` nor `int` converts a longer number. -/
  decode_short : (Nat.toDigits 10 decodeSize).length ≤ Text.maxStrDigits
  /-- Which ranks a decode rank reads from. -/
  layout : RankLayout decodeSize prefillSize
  /-- The engine that is read from. -/
  engineId : EngineId
  /-- The agent of each prefill rank. -/
  address : ℕ → AgentName
  /-- No two ranks have one agent. -/
  address_injective : Function.Injective address
  /-- The prefill rank in question. -/
  target : ℕ
  /-- There is such a rank. -/
  target_lt : target < prefillSize
  /-- What the prefill rank has from its configuration. -/
  producer : SendingWorker
  /-- It knows the number of prefill ranks. -/
  producer_worldSize : producer.worldSize = prefillSize
  /-- The prefill rank sees the ratio of the sizes with the sign of its own side. -/
  producer_tpRatio : producer.tpRatio decodeSize =
    .ok (if prefillSize < decodeSize then -((decodeSize / prefillSize : ℕ) : ℤ)
      else ((prefillSize / decodeSize : ℕ) : ℤ))

/-- The prefill rank, what is on its way to it, and what was begun and given up so far. -/
structure TransferState where
  /-- The sending half of the prefill rank. -/
  sending : Sending
  /-- The reads that are not complete. -/
  inFlight : List Delivery
  /-- The notifs that the library holds for the prefill rank. -/
  arrived : List Delivery
  /-- The decode ranks and requests of which the reads were begun. -/
  begun : List (ℕ × ReqId)
  /-- The requests that `get_finished` reported as sent. -/
  released : List ReqId
  /-- The requests of which the time was over in some call. -/
  expired : List ReqId

def TransferState.init : TransferState where
  sending := .init
  inFlight := []
  arrived := []
  begun := []
  released := []
  expired := []

/-- What happens on the two sides, or between them. -/
inductive TransferEvent (ω : Type*) where
  | startLoadKv (metadata : NixlConnectorMetadata)
  /-- The prefill rank gets the notifs that arrived, in some order. -/
  | getFinished (notifs : List (Delivery × SetOrder)) (now : ℚ)
  /-- A decode rank issues the reads of a request. -/
  | read (rank : ℕ) (worker : ReadingWorker ω) (reading : Reading ω) (reqId : ReqId)
      (saved : ReqMeta)
  /-- A read is complete. -/
  | complete (delivery : Delivery)

def Delivery.notif (delivery : Delivery × SetOrder) : Notif where
  payload := delivery.1.payload
  order := delivery.2

/-- The requests whose time is over. -/
def Sending.overdue (sending : Sending) (now : ℚ) : List ReqId :=
  (sending.reqsToSend.entries.filter fun entry => entry.2 ≤ now).map Sigma.fst

namespace ReadGroup

variable {ω : Type*} (group : ReadGroup)

/-- The decode ranks that read from the prefill rank. -/
def readers : Finset ℕ :=
  (Finset.range group.decodeSize).filter fun rank => group.target ∈ group.layout.targets rank

/-- Take one event; what cannot happen changes nothing. -/
def step (state : TransferState) : TransferEvent ω → Except PyError TransferState
  | .startLoadKv metadata =>
      match state.sending.startLoadKv metadata with
      | (sending, .ok ()) => .ok { state with sending }
      | (_, .error raised) => .error raised
  | .getFinished notifs now =>
      if (notifs.map Prod.fst).Perm state.arrived then
        match group.producer.getFinished state.sending (notifs.map Delivery.notif) now with
        | (sending, .ok done) =>
            .ok
              { state with
                sending
                arrived := []
                released := state.released ++ done.keys
                expired := state.expired ++ state.sending.overdue now }
        | (_, .error raised) => .error raised
      else
        .ok state
  | .read rank worker reading reqId saved =>
      match saved.remote with
      | none => .ok state
      | some remote =>
          let posts := newPosts reading (worker.readBlocksForReq reading reqId saved).1
          .ok
            { state with
              begun := (rank, remote.requestId) :: state.begun
              inFlight := state.inFlight ++
                (RankLayout.received (group.address group.target) posts).map fun payload =>
                  { requestId := remote.requestId, payload } }
  | .complete delivery =>
      if delivery ∈ state.inFlight then
        .ok
          { state with
            inFlight := state.inFlight.erase delivery
            arrived := state.arrived ++ [delivery] }
      else
        .ok state

/-- The readers that have not begun to read a request. -/
def unread (state : TransferState) (reqId : ReqId) : Finset ℕ :=
  group.readers.filter fun rank => (rank, reqId) ∉ state.begun

end ReadGroup

/-! ## Which request a notif is counted for -/

/-- A notif with an id may be counted for a request: it is the id, or has the id's UUID. -/
def Concerns (id reqId : ReqId) : Prop :=
  id = reqId ∨ ∃ uuid, ReqUuid.search id.toList = some uuid ∧ uuid <:+: reqId.toList

namespace Sending

theorem infix_of_resolve {sending : Sending} {order : SetOrder} {id reqId : ReqId}
    (resolved : sending.resolveFreeNotifReqId order id = some reqId) :
    ∃ uuid, ReqUuid.search id.toList = some uuid ∧ uuid <:+: reqId.toList := by
  rw [resolveFreeNotifReqId] at resolved
  cases found : ReqUuid.search id.toList with
  | none =>
      rw [found] at resolved
      cases resolved
  | some uuid =>
      rw [found] at resolved
      simp only at resolved
      have member : reqId ∈ (order.arrange sending.live).filter
          fun other => uuid <:+: other.toList := by
        split at resolved
        · have first := List.mem_of_mem_head? resolved
          rwa [List.mem_insertionSort] at first
        · exact List.mem_of_mem_head? resolved
      exact ⟨uuid, rfl, of_decide_eq_true (List.mem_filter.mp member).2⟩

theorem concerns_of_targetOf {sending : Sending} {order : SetOrder} {id reqId : ReqId}
    (resolved : sending.targetOf order id = some reqId) : Concerns id reqId := by
  rw [targetOf] at resolved
  split at resolved
  · exact Or.inr (infix_of_resolve resolved)
  · exact Or.inl (Option.some.inj resolved)

theorem processed_of_targetOf {sending : Sending} {order : SetOrder} {id reqId : ReqId}
    (tracked : sending.Tracked) (resolved : sending.targetOf order id = some reqId) :
    reqId ∈ sending.reqsToProcess := by
  rcases mem_of_targetOf resolved with expiring | processed
  · exact tracked reqId expiring
  · exact processed

end Sending

namespace ReadGroup

variable {ω : Type*} {group : ReadGroup}

/-- The prefill rank waits for one notif from each of its readers. -/
theorem consumersPerProducer_eq (group : ReadGroup) :
    group.producer.consumersPerProducer (Nat.toDigits 10 group.decodeSize) =
      .ok (group.readers.card : ℤ) := by
  have counted : group.readers.card =
      if group.decodeSize < group.prefillSize then 1
      else group.decodeSize / group.prefillSize :=
    group.layout.fanIn group.target group.target_lt
  have prefill := group.prefill_pos
  rw [SendingWorker.consumersPerProducer, Text.int_toDigits group.decode_short, counted]
  simp only [group.producer_tpRatio, group.producer_worldSize]
  rcases Nat.lt_trichotomy group.decodeSize group.prefillSize with fewer | same | more
  · have other : ¬ (group.decodeSize : ℤ) > group.prefillSize := by omega
    simp [other, fewer]
  · simp [same, Nat.div_self prefill]
  · have other : ¬ group.decodeSize < group.prefillSize := by omega
    have larger : (group.decodeSize : ℤ) > group.prefillSize := by omega
    simp [other, larger, more]

/-! ## Counting notifs -/

/-- The number of notifs for a request. -/
def tally (reqId : ReqId) (deliveries : List Delivery) : ℕ :=
  deliveries.countP fun delivery => delivery.requestId = reqId

theorem tally_cons (reqId : ReqId) (delivery : Delivery) (deliveries : List Delivery) :
    tally reqId (delivery :: deliveries) =
      tally reqId deliveries + if delivery.requestId = reqId then 1 else 0 := by
  simp [tally, List.countP_cons]

theorem tally_append (reqId : ReqId) (left right : List Delivery) :
    tally reqId (left ++ right) = tally reqId left + tally reqId right :=
  List.countP_append

theorem tally_map (reqId other : ReqId) (payloads : List ByteArray) :
    tally other (payloads.map fun payload => { requestId := reqId, payload }) =
      if reqId = other then payloads.length else 0 := by
  rw [tally, List.countP_map]
  by_cases here : reqId = other
  · simp [here, Function.comp_def]
  · simp [here, Function.comp_def]

theorem tally_eq_zero {reqId : ReqId} {deliveries : List Delivery} :
    tally reqId deliveries = 0 ↔ ∀ delivery ∈ deliveries, delivery.requestId ≠ reqId := by
  simp [tally, List.countP_eq_zero]

/-- A notif of the decode group that may be counted for no other of the requests. -/
def Genuine (group : ReadGroup) (requests : Set ReqId) (delivery : Delivery) : Prop :=
  ∃ id, delivery.payload = (notifId id group.decodeSize).toUTF8 ∧
    ∀ reqId ∈ requests, Concerns id reqId → reqId = delivery.requestId

section Counting

variable {requests : Set ReqId} {sending next : Sending}

/-- A notif that counts for a request is the next of its readers' notifs. -/
theorem Genuine.counts {delivery : Delivery} {order : SetOrder} {id target : ReqId} {consumers : ℤ}
    (genuine : group.Genuine requests delivery) (tracked : sending.Tracked)
    (known : ∀ reqId ∈ sending.reqsToProcess, reqId ∈ requests)
    (counts : SendingWorker.Counts group.producer sending (Delivery.notif (delivery, order)) id
      target consumers) :
    target = delivery.requestId ∧ consumers = group.readers.card := by
  obtain ⟨written, payload, own⟩ := genuine
  obtain ⟨tpSize, decoded, quota⟩ := counts.decoded
  rw [Delivery.notif] at decoded
  simp only [payload, Sending.decodeNotif_notifId] at decoded
  cases decoded
  rw [consumersPerProducer_eq] at quota
  have resolved := counts.resolved
  refine ⟨own target (known target (Sending.processed_of_targetOf tracked resolved))
    (Sending.concerns_of_targetOf resolved), (Except.ok.inj quota).symm⟩

/-- A turn of the notif loop counts a notif for its own request only. -/
theorem Genuine.charged {delivery : Delivery} {order : SetOrder} {released : Option ReqId}
    (genuine : group.Genuine requests delivery) (tracked : sending.Tracked)
    (known : ∀ reqId ∈ sending.reqsToProcess, reqId ∈ requests)
    (handled : SendingWorker.Handled group.producer sending (Delivery.notif (delivery, order)) next
      released) :
    (∀ reqId, next.countOf reqId ≤
        sending.countOf reqId + if delivery.requestId = reqId then 1 else 0) ∧
      (∀ reqId, released = some reqId →
        delivery.requestId = reqId ∧ sending.countOf reqId + 1 = group.readers.card) ∧
      ∀ reqId ∈ next.reqsToProcess, reqId ∈ sending.reqsToProcess := by
  cases handled with
  | skipped => exact ⟨fun reqId => Nat.le_add_right _ _, by rintro _ ⟨⟩, fun _ member => member⟩
  | @counted _ target _ counts below =>
      obtain ⟨rfl, _⟩ := genuine.counts tracked known counts
      refine ⟨fun other => ?_, by rintro _ ⟨⟩, fun _ member => member⟩
      by_cases here : other = delivery.requestId
      · subst here
        simp [Sending.countOf]
      · simp [Sending.countOf, here]
  | @released _ target _ counts full processed =>
      obtain ⟨rfl, quota⟩ := genuine.counts tracked known counts
      refine ⟨fun other => ?_, ?_, fun other member => (AList.mem_erase.mp member).2⟩
      · by_cases here : other = delivery.requestId
        · subst here
          simp [Sending.countOf]
        · simp [Sending.countOf, here]
      · rintro _ ⟨⟩
        refine ⟨rfl, ?_⟩
        rw [quota] at full
        exact Int.ofNat_inj.mp full

/-- The notif loop releases a request when as many of its notifs came as it has readers. -/
theorem notifLoop_charged {deliveries : List (Delivery × SetOrder)}
    {collected notified : KeySet ReqId}
    (genuine : ∀ delivery ∈ deliveries, group.Genuine requests delivery.1)
    (tracked : sending.Tracked) (known : ∀ reqId ∈ sending.reqsToProcess, reqId ∈ requests)
    (taken : group.producer.notifLoop (deliveries.map Delivery.notif) sending collected =
      (next, .ok notified)) :
    (∀ reqId, next.countOf reqId ≤
        sending.countOf reqId + tally reqId (deliveries.map Prod.fst)) ∧
      (∀ reqId ∈ notified, reqId ∈ collected ∨
        group.readers.card ≤ sending.countOf reqId + tally reqId (deliveries.map Prod.fst)) ∧
      ∀ reqId ∈ next.reqsToProcess, reqId ∈ sending.reqsToProcess := by
  induction deliveries generalizing sending collected with
  | nil =>
      cases taken
      exact ⟨fun reqId => Nat.le_add_right _ _, fun reqId member => Or.inl member,
        fun _ member => member⟩
  | cons delivery deliveries ih =>
      rw [List.map_cons, SendingWorker.notifLoop] at taken
      cases outcome : group.producer.handleNotif sending (Delivery.notif delivery) with
      | mk middle result =>
          rw [outcome] at taken
          cases result with
          | error raised => cases taken
          | ok released =>
              have handled := SendingWorker.handleNotif_eq_ok outcome
              have first := genuine delivery List.mem_cons_self
              obtain ⟨counted, due, fewer⟩ := first.charged tracked known handled
              have others : ∀ other ∈ deliveries, group.Genuine requests other.1 :=
                fun other member => genuine other (List.mem_cons_of_mem delivery member)
              have still : ∀ reqId ∈ middle.reqsToProcess, reqId ∈ requests :=
                fun reqId member => known reqId (fewer reqId member)
              obtain ⟨all, rest, less⟩ : (∀ reqId, next.countOf reqId ≤
                  middle.countOf reqId + tally reqId (deliveries.map Prod.fst)) ∧
                  (∀ reqId ∈ notified, (released = some reqId ∨ reqId ∈ collected) ∨
                    group.readers.card ≤
                      middle.countOf reqId + tally reqId (deliveries.map Prod.fst)) ∧
                  ∀ reqId ∈ next.reqsToProcess, reqId ∈ middle.reqsToProcess := by
                cases released with
                | none =>
                    obtain ⟨all, rest, less⟩ := ih others (handled.tracked tracked) still taken
                    exact ⟨all, fun reqId member => (rest reqId member).imp_left Or.inr, less⟩
                | some freed =>
                    obtain ⟨all, rest, less⟩ := ih others (handled.tracked tracked) still taken
                    refine ⟨all, fun reqId member => (rest reqId member).imp_left fun inside => ?_,
                      less⟩
                    rcases AList.mem_add.mp inside with rfl | earlier
                    · exact Or.inl rfl
                    · exact Or.inr earlier
              refine ⟨fun reqId => ?_, fun reqId member => ?_,
                fun reqId member => fewer reqId (less reqId member)⟩
              · have now := counted reqId
                have later := all reqId
                rw [List.map_cons, tally_cons]
                omega
              · rw [List.map_cons, tally_cons]
                rcases rest reqId member with (now | earlier) | later
                · obtain ⟨own, full⟩ := due reqId now
                  rw [if_pos own]
                  exact Or.inr (by omega)
                · exact Or.inl earlier
                · have now := counted reqId
                  exact Or.inr (by omega)

end Counting

/-! ## No read of a request that was given up -/

/-- A decode rank that knows its prefill ranks reads a request whose ids are not confused with
those of others. -/
structure Reads (group : ReadGroup) (requests : Set ReqId) (rank : ℕ) (worker : ReadingWorker ω)
    (reqId : ReqId) (remote : RemoteMeta) : Prop where
  /-- There is such a rank. -/
  rank_lt : rank < group.decodeSize
  /-- It reads from the engine. -/
  engineId : remote.engineId = group.engineId
  /-- It knows the number of decode ranks. -/
  worldSize : worker.worldSize = group.decodeSize
  /-- It reads as the layout has it. -/
  targets : worker.kvTopo.getTargetRemoteRanksFromEngineId group.engineId =
    group.layout.targets rank
  /-- It has agents for the ranks it reads from. -/
  handshaken : worker.Handshaken group.engineId group.address (group.layout.targets rank)
  /-- Its ids concern no other request. -/
  own : ∀ other ∈ requests, Concerns reqId other ∨ Concerns remote.requestId other →
    other = remote.requestId

/-- The prefill rank is given some of the requests, and decode ranks read them, each once. -/
def Fits (group : ReadGroup) (requests : Set ReqId) (state : TransferState) :
    TransferEvent ω → Prop
  | .startLoadKv metadata => ∀ reqId ∈ metadata.reqsInBatch, reqId ∈ requests
  | .getFinished _ _ => True
  | .read rank worker _ reqId saved => ∀ remote, saved.remote = some remote →
      (rank, remote.requestId) ∉ state.begun ∧ group.Reads requests rank worker reqId remote
  | .complete _ => True

/-- No notif is lost or counted twice: what is counted, has arrived, is under way or is still to
come for a request is at most one notif from each of its readers.  Of the requests given up in time
nothing is under way or still to come. -/
structure Sound (group : ReadGroup) (requests : Set ReqId) (state : TransferState) : Prop where
  /-- Who expires is processed. -/
  tracked : state.sending.Tracked
  /-- Only requests of the run are processed. -/
  known : ∀ reqId ∈ state.sending.reqsToProcess, reqId ∈ requests
  /-- Every notif is of a read. -/
  genuine : ∀ delivery ∈ state.inFlight ++ state.arrived, group.Genuine requests delivery
  /-- No notif is counted twice. -/
  counted : ∀ reqId, state.sending.countOf reqId + tally reqId state.arrived +
    tally reqId state.inFlight + (group.unread state reqId).card ≤ group.readers.card
  /-- Of who was released in time, nothing is to come. -/
  settled : ∀ reqId ∈ state.released, reqId ∉ state.expired →
    tally reqId state.inFlight = 0 ∧ (group.unread state reqId).card = 0

section Steps

variable {requests : Set ReqId} {state : TransferState}

theorem sound_init : group.Sound requests .init where
  tracked := Sending.tracked_init
  known _ member := absurd member (AList.notMem_empty _)
  genuine _ member := absurd member List.not_mem_nil
  counted reqId := by
    have all : (group.unread .init reqId).card ≤ group.readers.card := Finset.card_filter_le _ _
    simpa [TransferState.init, Sending.init, Sending.countOf, tally] using all
  settled _ member := absurd member List.not_mem_nil

/-- What a rank sends the prefill rank for a request: its notif, or nothing. -/
theorem Reads.posts {rank : ℕ} {worker : ReadingWorker ω} {reqId : ReqId} {saved : ReqMeta}
    {remote : RemoteMeta} (reads : group.Reads requests rank worker reqId remote)
    (remoteIs : saved.remote = some remote) (reading : Reading ω) :
    ∃ id, (id = reqId ∨ id = remote.requestId) ∧
      (RankLayout.received (group.address group.target)
        (newPosts reading (worker.readBlocksForReq reading reqId saved).1)).Sublist
        (if group.target ∈ group.layout.targets rank then
          [(notifId id group.decodeSize).toUTF8] else []) := by
  have ranks := reads.targets
  have handshaken := reads.handshaken
  rw [← reads.engineId] at ranks handshaken
  have sent := ReadingWorker.readBlocksForReq_some remoteIs (group.layout.nodup rank) ranks
    handshaken reading reqId
  refine ⟨worker.notifiedId (worker.kvTopo.tpRatioFromEngineId remote.engineId)
    (group.layout.targets rank) reqId remote.requestId group.target, ?_, ?_⟩
  · rw [ReadingWorker.notifiedId]
    split
    · exact Or.inl rfl
    · exact Or.inr rfl
  · have part := sent.newPosts_sublist.filterMap fun message =>
      if message.1 = group.address group.target then some message.2 else none
    rw [← RankLayout.received, ← RankLayout.received,
      RankLayout.received_map group.address_injective (group.layout.nodup rank),
      reads.worldSize] at part
    exact part

/-- A reader that begins with a request is no longer one that has not begun. -/
theorem card_unread_begin (group : ReadGroup) {rank : ℕ} {begun : ReqId}
    (fresh : (rank, begun) ∉ state.begun) (reqId : ReqId) :
    (group.unread { state with begun := (rank, begun) :: state.begun } reqId).card +
        (if begun = reqId ∧ rank ∈ group.readers then 1 else 0) =
      (group.unread state reqId).card := by
  by_cases here : begun = reqId ∧ rank ∈ group.readers
  · obtain ⟨rfl, inside⟩ := here
    have member : rank ∈ group.unread state begun :=
      Finset.mem_filter.mpr ⟨inside, fresh⟩
    have rest : group.unread { state with begun := (rank, begun) :: state.begun } begun =
        (group.unread state begun).erase rank := by
      ext other
      simp only [unread, Finset.mem_filter, Finset.mem_erase, List.mem_cons, Prod.mk.injEq,
        and_true]
      tauto
    rw [rest, if_pos ⟨rfl, inside⟩]
    exact Finset.card_erase_add_one member
  · have same : group.unread { state with begun := (rank, begun) :: state.begun } reqId =
        group.unread state reqId := by
      ext other
      simp only [unread, Finset.mem_filter, List.mem_cons, Prod.mk.injEq]
      constructor
      · exact fun ⟨inside, none_begun⟩ => ⟨inside, fun earlier => none_begun (Or.inr earlier)⟩
      · rintro ⟨inside, none_begun⟩
        refine ⟨inside, ?_⟩
        rintro (⟨rfl, rfl⟩ | earlier)
        · exact here ⟨rfl, inside⟩
        · exact none_begun earlier
    rw [same, if_neg here, Nat.add_zero]

/-- `get_finished` counts the notifs that arrived, and reports what is read or overdue. -/
theorem Sound.getFinished {notifs : List (Delivery × SetOrder)} {now : ℚ} {sending : Sending}
    {done : KeySet ReqId} (sound : group.Sound requests state)
    (all : (notifs.map Prod.fst).Perm state.arrived)
    (finished : group.producer.getFinished state.sending (notifs.map Delivery.notif) now =
      (sending, .ok done)) :
    group.Sound requests
      { state with
        sending
        arrived := []
        released := state.released ++ done.keys
        expired := state.expired ++ state.sending.overdue now } := by
  cases outcome : group.producer.getNewNotifs state.sending (notifs.map Delivery.notif) with
  | mk middle result =>
      cases result with
      | error raised =>
          rw [SendingWorker.getFinished, outcome] at finished
          cases finished
      | ok notified =>
          have arrivedGenuine : ∀ delivery ∈ notifs, group.Genuine requests delivery.1 := by
            intro delivery member
            refine sound.genuine delivery.1 (List.mem_append_right _ ?_)
            exact all.subset (List.mem_map_of_mem member)
          obtain ⟨counted, due, less⟩ :=
            notifLoop_charged arrivedGenuine sound.tracked sound.known outcome
          obtain ⟨_, fewer⟩ := SendingWorker.getNewNotifs_eq_ok outcome sound.tracked
          obtain ⟨_, _, released, expired, still⟩ :=
            SendingWorker.getFinished_of_notified outcome sound.tracked now
          rw [finished] at released
          cases released
          have tallied : ∀ reqId, tally reqId (notifs.map Prod.fst) = tally reqId state.arrived :=
            fun reqId => all.countP_eq _
          refine ⟨still, fun reqId member => ?_, fun delivery member => ?_, fun reqId => ?_,
            fun reqId member inTime => ?_⟩
          · exact sound.known reqId (less reqId ((expired.process reqId).mp member).1)
          · rw [List.append_nil] at member
            exact sound.genuine delivery (List.mem_append_left _ member)
          · have before := sound.counted reqId
            have after := counted reqId
            rw [tallied] at after
            have here : sending.countOf reqId ≤ middle.countOf reqId := by
              rw [expired.counts]
              split <;> omega
            change sending.countOf reqId + 0 + tally reqId state.inFlight +
              (group.unread state reqId).card ≤ group.readers.card
            omega
          · obtain ⟨earlier, now_timely⟩ := not_or.mp (mt List.mem_append.mpr inTime)
            rcases List.mem_append.mp member with already | reported
            · exact sound.settled reqId already earlier
            · rw [← AList.mem_keys, expired.done] at reported
              rcases reported with late | named
              · obtain ⟨entry, inside, rfl⟩ := List.mem_map.mp late
                refine absurd ?_ now_timely
                have present := fewer.subset ((List.takeWhile_sublist _).subset inside)
                exact List.mem_map_of_mem (List.mem_filter.mpr
                  ⟨present, decide_eq_true (ExpiryQueue.le_of_mem_released inside)⟩)
              · rcases due reqId named with absurdly | enough
                · exact absurd absurdly (AList.notMem_empty reqId)
                · have before := sound.counted reqId
                  rw [tallied] at enough
                  change tally reqId state.inFlight = 0 ∧ (group.unread state reqId).card = 0
                  omega

/-- A rank that begins with a request sends at most one notif for it. -/
theorem Sound.read {rank : ℕ} {worker : ReadingWorker ω} {reading : Reading ω} {reqId : ReqId}
    {saved : ReqMeta} {remote : RemoteMeta} (sound : group.Sound requests state)
    (remoteIs : saved.remote = some remote)
    (reads : group.Reads requests rank worker reqId remote)
    (fresh : (rank, remote.requestId) ∉ state.begun) :
    group.Sound requests
      { state with
        begun := (rank, remote.requestId) :: state.begun
        inFlight := state.inFlight ++
          (RankLayout.received (group.address group.target)
            (newPosts reading (worker.readBlocksForReq reading reqId saved).1)).map fun payload =>
              { requestId := remote.requestId, payload } } := by
  obtain ⟨id, written, part⟩ := reads.posts remoteIs reading
  generalize RankLayout.received (group.address group.target)
    (newPosts reading (worker.readBlocksForReq reading reqId saved).1) = payloads at part
  have fewer : ∀ other, tally other (payloads.map fun payload =>
      { requestId := remote.requestId, payload }) ≤
        if remote.requestId = other ∧ rank ∈ group.readers then 1 else 0 := by
    intro other
    rw [tally_map]
    by_cases isReader : group.target ∈ group.layout.targets rank
    · have inside : rank ∈ group.readers :=
        Finset.mem_filter.mpr ⟨Finset.mem_range.mpr reads.rank_lt, isReader⟩
      have one : payloads.length ≤ 1 := by
        rw [if_pos isReader] at part
        exact part.length_le
      by_cases here : remote.requestId = other
      · rw [if_pos here, if_pos ⟨here, inside⟩]
        exact one
      · rw [if_neg here]
        exact Nat.zero_le _
    · rw [if_neg isReader, List.sublist_nil] at part
      simp [part]
  refine ⟨sound.tracked, sound.known, fun delivery member => ?_, fun other => ?_,
    fun other member inTime => ?_⟩
  · rw [List.append_assoc, List.mem_append, List.mem_append] at member
    rcases member with flying | sent | here
    · exact sound.genuine delivery (List.mem_append_left _ flying)
    · obtain ⟨payload, inside, rfl⟩ := List.mem_map.mp sent
      have only := part.subset inside
      split at only
      · rw [List.mem_singleton] at only
        refine ⟨id, only, fun other isRequest concerns => reads.own other isRequest ?_⟩
        rcases written with rfl | rfl
        · exact Or.inl concerns
        · exact Or.inr concerns
      · exact absurd only List.not_mem_nil
    · exact sound.genuine delivery (List.mem_append_right _ here)
  · have before := sound.counted other
    have sent := fewer other
    have begins := card_unread_begin group fresh other
    rw [tally_append]
    change state.sending.countOf other + tally other state.arrived + _ +
      (group.unread { state with begun := (rank, remote.requestId) :: state.begun } other).card ≤ _
    omega
  · obtain ⟨none_flying, all_begun⟩ := sound.settled other member inTime
    have sent := fewer other
    have begins := card_unread_begin group fresh other
    rw [tally_append]
    change _ ∧ (group.unread { state with
      begun := (rank, remote.requestId) :: state.begun } other).card = 0
    omega

theorem tally_complete {delivery : Delivery} {inFlight : List Delivery} (arrived : List Delivery)
    (flying : delivery ∈ inFlight) (reqId : ReqId) :
    tally reqId (arrived ++ [delivery]) + tally reqId (inFlight.erase delivery) =
      tally reqId arrived + tally reqId inFlight := by
  have split := (List.perm_cons_erase flying).countP_eq fun other => other.requestId = reqId
  have here : tally reqId inFlight = tally reqId (delivery :: inFlight.erase delivery) := split
  have last : tally reqId [delivery] = if delivery.requestId = reqId then 1 else 0 := by
    rw [tally_cons]
    exact Nat.zero_add _
  rw [here, tally_append, last, tally_cons]
  omega

theorem Sound.complete {delivery : Delivery} (sound : group.Sound requests state)
    (flying : delivery ∈ state.inFlight) :
    group.Sound requests
      { state with
        inFlight := state.inFlight.erase delivery
        arrived := state.arrived ++ [delivery] } := by
  refine ⟨sound.tracked, sound.known, fun other member => ?_, fun reqId => ?_,
    fun reqId member inTime => ?_⟩
  · apply sound.genuine other
    rw [List.mem_append, List.mem_append, List.mem_singleton] at member
    rw [List.mem_append]
    rcases member with rest | earlier | rfl
    · exact Or.inl (List.mem_of_mem_erase rest)
    · exact Or.inr earlier
    · exact Or.inl flying
  · have before := sound.counted reqId
    have moved := tally_complete state.arrived flying reqId
    change state.sending.countOf reqId + tally reqId (state.arrived ++ [delivery]) +
      tally reqId (state.inFlight.erase delivery) + (group.unread state reqId).card ≤ _
    omega
  · obtain ⟨none_flying, all_begun⟩ := sound.settled reqId member inTime
    refine ⟨?_, all_begun⟩
    rw [tally_eq_zero] at none_flying ⊢
    exact fun other rest => none_flying other (List.mem_of_mem_erase rest)

theorem Sound.step {event : TransferEvent ω} {next : TransferState}
    (sound : group.Sound requests state) (fits : group.Fits requests state event)
    (taken : group.step state event = .ok next) : group.Sound requests next := by
  cases event with
  | startLoadKv metadata =>
      rw [ReadGroup.step] at taken
      rcases Sending.startLoadKv_spec state.sending metadata with
        ⟨sending, loads, loaded⟩ | ⟨_, failed⟩
      · rw [loads] at taken
        cases taken
        have same : ∀ reqId, sending.countOf reqId = state.sending.countOf reqId := by
          intro reqId
          rw [Sending.countOf, loaded.counts, Sending.countOf]
        refine ⟨loaded.tracked sound.tracked, fun reqId member => ?_, sound.genuine,
          fun reqId => ?_, sound.settled⟩
        · rcases ((loaded.process reqId).mp member).1 with enters | already
          · exact fits reqId enters
          · exact sound.known reqId already
        · rw [same]
          exact sound.counted reqId
      · cases outcome : state.sending.startLoadKv metadata with
        | mk sending result =>
            rw [outcome] at failed taken
            cases failed
            cases taken
  | getFinished notifs now =>
      rw [ReadGroup.step] at taken
      split at taken
      · rename_i all
        cases finished : group.producer.getFinished state.sending (notifs.map Delivery.notif)
            now with
        | mk sending result =>
            rw [finished] at taken
            cases result with
            | error raised => cases taken
            | ok done =>
                cases taken
                exact sound.getFinished all finished
      · cases taken
        exact sound
  | read rank worker reading reqId saved =>
      rw [ReadGroup.step] at taken
      cases remoteIs : saved.remote with
      | none =>
          rw [remoteIs] at taken
          cases taken
          exact sound
      | some remote =>
          rw [remoteIs] at taken
          cases taken
          obtain ⟨fresh, reads⟩ := fits remote remoteIs
          exact sound.read remoteIs reads fresh
  | complete delivery =>
      rw [ReadGroup.step] at taken
      split at taken
      · rename_i flying
        cases taken
        exact sound.complete flying
      · cases taken
        exact sound

/-- Of the requests that were given up in time no read is under way or still to come. -/
def GivenUpSafely (group : ReadGroup) (state : TransferState) : Prop :=
  ∀ reqId ∈ state.released, reqId ∉ state.expired →
    (∀ delivery ∈ state.inFlight, delivery.requestId ≠ reqId) ∧
      ∀ rank ∈ group.readers, (rank, reqId) ∈ state.begun

theorem Sound.givenUpSafely (sound : group.Sound requests state) : group.GivenUpSafely state := by
  intro reqId member inTime
  obtain ⟨none_flying, all_begun⟩ := sound.settled reqId member inTime
  refine ⟨tally_eq_zero.mp none_flying, fun rank isReader => ?_⟩
  by_contra absent
  have waits : rank ∈ group.unread state reqId := Finset.mem_filter.mpr ⟨isReader, absent⟩
  exact absurd (Finset.card_eq_zero.mp all_begun) (Finset.ne_empty_of_mem waits)

/-- **No read of blocks that were given up.**  In every state that the two sides and the network
reach, whatever is lost or fails, a request reported as sent before its time was over is read to
the end: no read of it is under way, and no rank will begin one. -/
theorem no_read_given_up {events : List (TransferEvent ω)} {final : TransferState}
    (fits : Run.Throughout group.step (group.Fits requests) .init events)
    (reached : Run.exec group.step .init events = .ok final) : group.GivenUpSafely final :=
  (Run.exec_invariant Sound.step sound_init fits reached).givenUpSafely

end Steps

end ReadGroup

/-! ## Two readers -/

namespace GroupPair

variable {ω : Type*} {decodeSize prefillSize : ℕ} (pair : GroupPair ω decodeSize prefillSize)

/-- One rank of the prefill group, and its readers. -/
def readGroup {target : ℕ} (inside : target < prefillSize) : ReadGroup where
  decodeSize
  prefillSize
  decode_pos := pair.decode_pos
  prefill_pos := pair.prefill_pos
  divides := pair.divides
  layout := pair.layout
  engineId := pair.engineId
  address := pair.address
  address_injective := pair.address_injective
  decode_short := pair.decode_short
  target
  target_lt := inside
  producer := pair.producer
  producer_worldSize := pair.producer_worldSize
  producer_tpRatio := pair.producer_tpRatio

/-- The decode ranks of two groups read as a prefill rank expects, when the request's ids concern
no other request. -/
theorem reads {target : ℕ} (inside : target < prefillSize) {requests : Set ReqId} {rank : ℕ}
    (rank_lt : rank < decodeSize) {reqId : ReqId} {remote : RemoteMeta}
    (engine : remote.engineId = pair.engineId)
    (own : ∀ other ∈ requests, Concerns reqId other ∨ Concerns remote.requestId other →
      other = remote.requestId) :
    (pair.readGroup inside).Reads requests rank (pair.worker rank) reqId remote where
  rank_lt
  engineId := engine
  worldSize := pair.worker_worldSize rank rank_lt
  targets := pair.worker_targets rank rank_lt
  handshaken := pair.handshaken rank rank_lt
  own

end GroupPair

namespace ReadGroup

/-- Two decode ranks that read from one prefill rank. -/
def twoToOne : GroupPair Unit 2 1 :=
  .ofSizes Nat.zero_lt_two Nat.one_pos (Or.inr (Nat.one_dvd 2)) (by decide) false

def twoReaders : ReadGroup := twoToOne.readGroup Nat.one_pos

/-- A rank reads a request that has the same id on both sides. -/
def readBy (rank : ℕ) : TransferEvent Unit :=
  .read rank (twoToOne.worker rank) (.init ()) "r:1" (GroupPair.readRequest [3] [7])

def readNotif : Delivery where
  requestId := "r:1"
  payload := (notifId "r:1" 2).toUTF8

/-- A request comes, both ranks read it, and their notifs are fetched. -/
def readRun : List (TransferEvent Unit) :=
  [.startLoadKv { NixlConnectorMetadata.init with reqsInBatch := AList.add "r:1" ∅ },
    readBy 0, readBy 1, .complete readNotif, .complete readNotif,
    .getFinished [(readNotif, ⟨id, SetOrder.perm_id⟩), (readNotif, ⟨id, SetOrder.perm_id⟩)] 0]

theorem fits_readBy {rank : ℕ} (rank_lt : rank < 2) {state : TransferState}
    (fresh : (rank, "r:1") ∉ state.begun) : twoReaders.Fits {"r:1"} state (readBy rank) := by
  rintro remote ⟨⟩
  refine ⟨fresh, ?_⟩
  exact twoToOne.reads Nat.one_pos rank_lt rfl fun other isRequest _ => isRequest

theorem fits_readRun : Run.Throughout twoReaders.step (twoReaders.Fits {"r:1"}) .init readRun := by
  refine (Run.throughout_cons rfl).mpr ⟨fun reqId enters => by simpa using enters,
    (Run.throughout_cons rfl).mpr ⟨fits_readBy Nat.zero_lt_two (by decide),
      (Run.throughout_cons rfl).mpr ⟨fits_readBy Nat.one_lt_two (by decide), ?_⟩⟩⟩
  apply Run.throughout_of_mem
  intro event member state
  simp only [List.mem_cons, List.not_mem_nil, or_false] at member
  rcases member with rfl | rfl | rfl <;> trivial

theorem no_read_given_up_twoReaders : ∃ final, Run.exec twoReaders.step .init readRun = .ok final ∧
    final.released = ["r:1"] ∧ twoReaders.GivenUpSafely final :=
  ⟨_, rfl, rfl, no_read_given_up fits_readRun rfl⟩

end ReadGroup

end RduHdi
