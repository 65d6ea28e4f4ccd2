import RduHdi.Connector.TransferProtocol

/-!
# Every request that is read is reported

When nothing about a request gets lost, each of its readers' notifs is counted, has arrived, is
under way or is still to come; when none is left, the prefill rank has reported the request.
-/

namespace RduHdi

namespace ReadGroup

variable {ω : Type*} {group : ReadGroup}

/-! ## Counting the notifs of one request -/

section Exact

variable {requests : Set ReqId} {sending next : Sending} {reqId : ReqId}

/-- A notif of a live request is counted for it. -/
theorem targetOf_own {id : ReqId} (tracked : sending.Tracked)
    (known : ∀ other ∈ sending.reqsToProcess, other ∈ requests)
    (own : ∀ other ∈ requests, Concerns id other → other = reqId) (concerns : Concerns id reqId)
    (live : reqId ∈ sending.reqsToProcess) (order : SetOrder) :
    sending.targetOf order id = some reqId := by
  have isOwn : ∀ target, sending.targetOf order id = some target → target = reqId :=
    fun target resolved =>
      own target (known target (Sending.processed_of_targetOf tracked resolved))
        (Sending.concerns_of_targetOf resolved)
  cases resolved : sending.targetOf order id with
  | some target => rw [isOwn target resolved]
  | none =>
      exfalso
      rw [Sending.targetOf] at resolved
      split at resolved
      · rename_i gone
        rcases concerns with rfl | ⟨uuid, found, inside⟩
        · exact gone.2 live
        · have isLive : reqId ∈ order.arrange sending.live := by
            apply (order.perm sending.live).symm.subset
            rw [Sending.live, List.mem_append, List.mem_filter, ← AList.mem_keys, ← AList.mem_keys]
            by_cases expiring : reqId ∈ sending.reqsToSend
            · exact Or.inl expiring
            · exact Or.inr ⟨live, decide_eq_true expiring⟩
          have member : reqId ∈ (order.arrange sending.live).filter
              fun other => uuid <:+: other.toList :=
            List.mem_filter.mpr ⟨isLive, decide_eq_true inside⟩
          rw [Sending.resolveFreeNotifReqId, found] at resolved
          simp only at resolved
          split at resolved
          · rename_i several
            have empty := congrArg List.length (List.head?_eq_none_iff.mp resolved)
            rw [List.length_insertionSort, List.length_nil] at empty
            omega
          · rw [List.head?_eq_none_iff] at resolved
            rw [resolved] at member
            exact absurd member List.not_mem_nil
      · cases resolved

/-- The notif of a request that concerns it is counted for it while it is live, and releases it
when it is the last. -/
theorem handleNotif_own {delivery : Delivery} {order : SetOrder} {id : ReqId}
    (tracked : sending.Tracked) (known : ∀ other ∈ sending.reqsToProcess, other ∈ requests)
    (payload : delivery.payload = (notifId id group.decodeSize).toUTF8)
    (own : ∀ other ∈ requests, Concerns id other → other = reqId) (concerns : Concerns id reqId)
    (live : reqId ∈ sending.reqsToProcess) {released : Option ReqId}
    (taken : group.producer.handleNotif sending (Delivery.notif (delivery, order)) =
      (next, .ok released)) :
    (sending.countOf reqId + 1 = group.readers.card ∧ released = some reqId ∧
        reqId ∉ next.reqsToProcess) ∨
      (sending.countOf reqId + 1 ≠ group.readers.card ∧
        next.countOf reqId = sending.countOf reqId + 1 ∧ reqId ∈ next.reqsToProcess) := by
  have nonempty : ¬ (notifId id group.decodeSize).toUTF8.size = 0 := by simp [notifId]
  rw [SendingWorker.handleNotif, Delivery.notif] at taken
  simp only [payload] at taken
  rw [if_neg nonempty, Sending.decodeNotif_notifId] at taken
  simp only [targetOf_own tracked known own concerns live, consumersPerProducer_eq,
    Sending.countNotif] at taken
  by_cases full : sending.countOf reqId + 1 = group.readers.card
  · left
    have reached : (((sending.consumerNotificationCountsByReq.lookup reqId).getD 0 + 1 : ℕ) : ℤ) =
        group.readers.card := by exact_mod_cast full
    rw [if_pos reached, if_pos live] at taken
    cases taken
    exact ⟨full, rfl, by simp⟩
  · right
    have below : ¬ (((sending.consumerNotificationCountsByReq.lookup reqId).getD 0 + 1 : ℕ) : ℤ) =
        group.readers.card := by exact_mod_cast full
    rw [if_neg below] at taken
    cases taken
    refine ⟨full, ?_, live⟩
    simp [Sending.countOf]

/-- The notif of another request changes nothing for this one. -/
theorem handleNotif_other {delivery : Delivery} {order : SetOrder}
    (genuine : group.Genuine requests delivery) (other : delivery.requestId ≠ reqId)
    (tracked : sending.Tracked) (known : ∀ other ∈ sending.reqsToProcess, other ∈ requests)
    {released : Option ReqId}
    (handled : SendingWorker.Handled group.producer sending (Delivery.notif (delivery, order)) next
      released) :
    next.countOf reqId = sending.countOf reqId ∧
      (reqId ∈ next.reqsToProcess ↔ reqId ∈ sending.reqsToProcess) := by
  cases handled with
  | skipped => exact ⟨rfl, Iff.rfl⟩
  | @counted _ target _ counts below =>
      obtain ⟨rfl, _⟩ := genuine.counts tracked known counts
      refine ⟨?_, Iff.rfl⟩
      simp [Sending.countOf, Ne.symm other]
  | @released _ target _ counts full processed =>
      obtain ⟨rfl, _⟩ := genuine.counts tracked known counts
      refine ⟨?_, ?_⟩
      · simp [Sending.countOf, Ne.symm other]
      · simp [Ne.symm other]

/-- A notif of the request that is sure to be counted for it. -/
def Addressed (group : ReadGroup) (requests : Set ReqId) (delivery : Delivery) : Prop :=
  ∃ id, delivery.payload = (notifId id group.decodeSize).toUTF8 ∧
    Concerns id delivery.requestId ∧
      ∀ reqId ∈ requests, Concerns id reqId → reqId = delivery.requestId

/-- Through the notif loop a live request counts its notifs, and is reported with the last. -/
theorem notifLoop_own {deliveries : List (Delivery × SetOrder)} {collected notified : KeySet ReqId}
    (genuine : ∀ delivery ∈ deliveries, group.Genuine requests delivery.1)
    (addressed : ∀ delivery ∈ deliveries, delivery.1.requestId = reqId →
      group.Addressed requests delivery.1)
    (tracked : sending.Tracked) (known : ∀ other ∈ sending.reqsToProcess, other ∈ requests)
    (waits : reqId ∈ sending.reqsToProcess ∧ sending.countOf reqId < group.readers.card ∨
      reqId ∈ collected ∧ reqId ∉ sending.reqsToProcess)
    (taken : group.producer.notifLoop (deliveries.map Delivery.notif) sending collected =
      (next, .ok notified)) :
    (reqId ∈ sending.reqsToProcess ∧ reqId ∈ next.reqsToProcess ∧
        next.countOf reqId = sending.countOf reqId + tally reqId (deliveries.map Prod.fst) ∧
        next.countOf reqId < group.readers.card) ∨
      (reqId ∈ notified ∧ reqId ∉ next.reqsToProcess) := by
  induction deliveries generalizing sending collected with
  | nil =>
      cases taken
      rcases waits with ⟨live, below⟩ | gone
      · exact Or.inl ⟨live, live, rfl, below⟩
      · exact Or.inr gone
  | cons delivery deliveries ih =>
      rw [List.map_cons, SendingWorker.notifLoop] at taken
      cases outcome : group.producer.handleNotif sending (Delivery.notif delivery) with
      | mk middle result =>
          rw [outcome] at taken
          cases result with
          | error raised => cases taken
          | ok released =>
              have handled := SendingWorker.handleNotif_eq_ok outcome
              have first := genuine delivery List.mem_cons_self
              have others : ∀ other ∈ deliveries, group.Genuine requests other.1 :=
                fun other member => genuine other (List.mem_cons_of_mem delivery member)
              have rest : ∀ other ∈ deliveries, other.1.requestId = reqId →
                  group.Addressed requests other.1 :=
                fun other member => addressed other (List.mem_cons_of_mem delivery member)
              obtain ⟨_, _, fewer⟩ := first.charged tracked known handled
              have still : ∀ other ∈ middle.reqsToProcess, other ∈ requests :=
                fun other member => known other (fewer other member)
              obtain ⟨more, looped, inMore⟩ : ∃ more : KeySet ReqId,
                  group.producer.notifLoop (deliveries.map Delivery.notif) middle more =
                    (next, .ok notified) ∧
                  ∀ other, released = some other ∨ other ∈ collected → other ∈ more := by
                cases released with
                | none => exact ⟨collected, taken, by simp⟩
                | some freed =>
                    refine ⟨collected.add freed, taken, ?_⟩
                    rintro other (same | earlier)
                    · exact AList.mem_add.mpr (Or.inl (Option.some.inj same).symm)
                    · exact AList.mem_add.mpr (Or.inr earlier)
              have tail := fun ready =>
                ih others rest (handled.tracked tracked) still ready looped
              rw [List.map_cons, tally_cons]
              rcases waits with ⟨live, below⟩ | ⟨inside, gone⟩
              · by_cases here : delivery.1.requestId = reqId
                · subst here
                  obtain ⟨id, payload, concerns, own⟩ := addressed delivery List.mem_cons_self rfl
                  rcases handleNotif_own tracked known payload own concerns live outcome with
                    ⟨_, isReleased, left⟩ | ⟨more_to_come, counted, stays⟩
                  · rcases tail (Or.inr ⟨inMore _ (Or.inl isReleased), left⟩) with stays | done
                    · exact absurd stays.1 left
                    · exact Or.inr done
                  · rcases tail (Or.inl ⟨stays, by omega⟩) with ⟨_, live, all, fewer⟩ | done
                    · refine Or.inl ⟨‹_›, live, ?_, fewer⟩
                      rw [if_pos rfl]
                      omega
                    · exact Or.inr done
                · obtain ⟨same, stays⟩ := handleNotif_other first here tracked known handled
                  rcases tail (Or.inl ⟨stays.mpr live, by omega⟩) with ⟨_, live, all, fewer⟩ | done
                  · refine Or.inl ⟨‹_›, live, ?_, fewer⟩
                    rw [if_neg here]
                    omega
                  · exact Or.inr done
              · have left : reqId ∉ middle.reqsToProcess := fun stays => gone (fewer reqId stays)
                rcases tail (Or.inr ⟨inMore reqId (Or.inr inside), left⟩) with stays | done
                · exact absurd stays.1 left
                · exact Or.inr done

end Exact

/-! ## Nothing gets lost -/

section Heard

variable {requests : Set ReqId} {state : TransferState} {reqId : ReqId}

/-- Nothing about a request gets lost: it is not aborted and comes once, and after it came it is
read, through a library that does not fail, under an id that the prefill rank takes for its own. -/
def Heard (group : ReadGroup) (reqId : ReqId) (state : TransferState) : TransferEvent ω → Prop
  | .startLoadKv metadata => reqId ∉ metadata.reqsNotProcessed ∧
      (reqId ∈ metadata.reqsInBatch → reqId ∉ state.sending.reqsToProcess →
        group.unread state reqId = group.readers)
  | .getFinished _ _ => True
  | .read _ worker reading localId saved => ∀ remote, saved.remote = some remote →
      remote.requestId = reqId →
        (reqId ∈ state.sending.reqsToProcess ∨ reqId ∈ state.released) ∧ worker.nixl.Reliable ∧
          Concerns localId reqId ∧ (worker.readBlocksForReq reading localId saved).2 = .ok ()
  | .complete _ => True

/-- Every reader's notif of a live request is counted, has arrived, is under way or is still to
come, and one is not counted yet. -/
structure Exact (group : ReadGroup) (requests : Set ReqId) (reqId : ReqId)
    (state : TransferState) : Prop where
  /-- The notifs are those of the readers. -/
  addressed : ∀ delivery ∈ state.inFlight ++ state.arrived, delivery.requestId = reqId →
    group.Addressed requests delivery
  /-- Of a live request, every reader's notif is somewhere. -/
  live : reqId ∈ state.sending.reqsToProcess →
    state.sending.countOf reqId + tally reqId state.arrived + tally reqId state.inFlight +
        (group.unread state reqId).card = group.readers.card ∧
      state.sending.countOf reqId < group.readers.card
  /-- A request that is not live is released, or nobody began to read it. -/
  gone : reqId ∉ state.sending.reqsToProcess →
    reqId ∈ state.released ∨ group.unread state reqId = group.readers

theorem readers_pos (group : ReadGroup) : 0 < group.readers.card := by
  have counted : group.readers.card =
      if group.decodeSize < group.prefillSize then 1
      else group.decodeSize / group.prefillSize :=
    group.layout.fanIn group.target group.target_lt
  rw [counted]
  split
  · exact Nat.one_pos
  · exact Nat.div_pos (by omega) group.prefill_pos

theorem exact_init : group.Exact requests reqId .init where
  addressed _ member := absurd member List.not_mem_nil
  live member := absurd member (AList.notMem_empty _)
  gone _ := Or.inr (Finset.filter_true_of_mem fun _ _ => List.not_mem_nil)

/-- A rank whose library does not fail sends its notif to the prefill rank. -/
theorem Reads.sent {rank : ℕ} {worker : ReadingWorker ω} {localId : ReqId} {saved : ReqMeta}
    {remote : RemoteMeta} (reads : group.Reads requests rank worker localId remote)
    (remoteIs : saved.remote = some remote) (reliable : worker.nixl.Reliable) {reading : Reading ω}
    (succeeds : (worker.readBlocksForReq reading localId saved).2 = .ok ()) :
    ∃ id, (id = localId ∨ id = remote.requestId) ∧
      RankLayout.received (group.address group.target)
        (newPosts reading (worker.readBlocksForReq reading localId saved).1) =
        if group.target ∈ group.layout.targets rank then
          [(notifId id group.decodeSize).toUTF8] else [] := by
  have ranks := reads.targets
  have handshaken := reads.handshaken
  rw [← reads.engineId] at ranks handshaken
  have sent := ReadingWorker.readBlocksForReq_sent reliable remoteIs (group.layout.nodup rank)
    ranks handshaken (Prod.ext rfl succeeds :
      worker.readBlocksForReq reading localId saved = (_, .ok ()))
  refine ⟨worker.notifiedId (worker.kvTopo.tpRatioFromEngineId remote.engineId)
    (group.layout.targets rank) localId remote.requestId group.target, ?_, ?_⟩
  · rw [ReadingWorker.notifiedId]
    split
    · exact Or.inl rfl
    · exact Or.inr rfl
  · rw [sent.newPosts_eq, RankLayout.received_map group.address_injective
      (group.layout.nodup rank), reads.worldSize]

theorem Exact.getFinished {notifs : List (Delivery × SetOrder)} {now : ℚ} {sending : Sending}
    {done : KeySet ReqId} (whole : group.Exact requests reqId state)
    (sound : group.Sound requests state) (all : (notifs.map Prod.fst).Perm state.arrived)
    (finished : group.producer.getFinished state.sending (notifs.map Delivery.notif) now =
      (sending, .ok done)) :
    group.Exact requests reqId
      { state with
        sending
        arrived := []
        released := state.released ++ done.keys
        expired := state.expired ++ state.sending.overdue now } := by
  cases outcome : group.producer.getNewNotifs state.sending (notifs.map Delivery.notif) with
  | mk middle result =>
      cases result with
      | error raised =>
          rw [SendingWorker.getFinished, outcome] at finished
          cases finished
      | ok notified =>
          have arrived : ∀ delivery ∈ notifs, delivery.1 ∈ state.inFlight ++ state.arrived :=
            fun delivery member => List.mem_append_right _ (all.subset (List.mem_map_of_mem member))
          obtain ⟨_, _, less⟩ := notifLoop_charged
            (fun delivery member => sound.genuine delivery.1 (arrived delivery member))
            sound.tracked sound.known outcome
          obtain ⟨_, _, released, expired, _⟩ :=
            SendingWorker.getFinished_of_notified outcome sound.tracked now
          rw [finished] at released
          cases released
          have tallied : tally reqId (notifs.map Prod.fst) = tally reqId state.arrived :=
            all.countP_eq _
          -- A request that is live before the call is counted through the loop, or reported.
          have counted := fun live => notifLoop_own
            (fun delivery member => sound.genuine delivery.1 (arrived delivery member))
            (fun delivery member => whole.addressed delivery.1 (arrived delivery member))
            sound.tracked sound.known (Or.inl ⟨live, (whole.live live).2⟩) outcome
          refine ⟨fun delivery member => ?_, fun stays => ?_, fun left => ?_⟩
          · rw [List.append_nil] at member
            exact whole.addressed delivery (List.mem_append_left _ member)
          · obtain ⟨inMiddle, inTime⟩ := (expired.process reqId).mp stays
            have before := less reqId inMiddle
            obtain ⟨sum, _⟩ := whole.live before
            rcases counted before with ⟨_, _, exactly, below⟩ | ⟨_, absent⟩
            · have same : sending.countOf reqId = middle.countOf reqId := by
                rw [expired.counts, if_neg inTime]
              change sending.countOf reqId + 0 + tally reqId state.inFlight +
                (group.unread state reqId).card = group.readers.card ∧
                  sending.countOf reqId < group.readers.card
              omega
            · exact absurd inMiddle absent
          · by_cases before : reqId ∈ state.sending.reqsToProcess
            · refine Or.inl (List.mem_append_right _ (AList.mem_keys.mp
                ((expired.done reqId).mpr ?_)))
              rcases counted before with ⟨_, inMiddle, _⟩ | ⟨reported, _⟩
              · left
                by_contra inTime
                exact left ((expired.process reqId).mpr ⟨inMiddle, inTime⟩)
              · exact Or.inr reported
            · exact (whole.gone before).imp_left (List.mem_append_left _)

theorem Exact.read {rank : ℕ} {worker : ReadingWorker ω} {reading : Reading ω} {localId : ReqId}
    {saved : ReqMeta} {remote : RemoteMeta} (whole : group.Exact requests reqId state)
    (remoteIs : saved.remote = some remote)
    (reads : group.Reads requests rank worker localId remote)
    (fresh : (rank, remote.requestId) ∉ state.begun)
    (heard : group.Heard reqId state (.read rank worker reading localId saved)) :
    group.Exact requests reqId
      { state with
        begun := (rank, remote.requestId) :: state.begun
        inFlight := state.inFlight ++
          (RankLayout.received (group.address group.target)
            (newPosts reading (worker.readBlocksForReq reading localId saved).1)).map
              fun payload => { requestId := remote.requestId, payload } } := by
  have begins := card_unread_begin group fresh reqId
  by_cases here : remote.requestId = reqId
  · obtain ⟨came, reliable, concerns, succeeds⟩ := heard remote remoteIs here
    obtain ⟨id, written, sent⟩ := reads.sent remoteIs reliable succeeds
    have isReader : rank ∈ group.readers ↔ group.target ∈ group.layout.targets rank := by
      rw [readers, Finset.mem_filter, Finset.mem_range, and_iff_right reads.rank_lt]
    rw [sent]
    refine ⟨fun delivery member own => ?_, fun live => ?_, fun left => ?_⟩
    · rw [List.append_assoc, List.mem_append, List.mem_append] at member
      rcases member with flying | posted | earlier
      · exact whole.addressed delivery (List.mem_append_left _ flying) own
      · obtain ⟨payload, inside, rfl⟩ := List.mem_map.mp posted
        split at inside
        · rw [List.mem_singleton] at inside
          refine ⟨id, inside, ?_, fun other isRequest concerned => reads.own other isRequest ?_⟩
          · rcases written with rfl | rfl
            · rw [here]
              exact concerns
            · exact Or.inl rfl
          · rcases written with rfl | rfl
            · exact Or.inl concerned
            · exact Or.inr concerned
        · exact absurd inside List.not_mem_nil
      · exact whole.addressed delivery (List.mem_append_right _ earlier) own
    · obtain ⟨sum, below⟩ := whole.live live
      refine ⟨?_, below⟩
      rw [tally_append, tally_map, if_pos here]
      change state.sending.countOf reqId + tally reqId state.arrived + _ + (group.unread
        { state with begun := (rank, remote.requestId) :: state.begun } reqId).card = _
      by_cases reader : group.target ∈ group.layout.targets rank
      · rw [if_pos ⟨here, isReader.mpr reader⟩] at begins
        rw [if_pos reader, List.length_singleton]
        omega
      · rw [if_neg fun both => reader (isReader.mp both.2)] at begins
        rw [if_neg reader, List.length_nil]
        omega
    · exact Or.inl (came.resolve_left left)
  · have spared : tally reqId ((RankLayout.received (group.address group.target)
        (newPosts reading (worker.readBlocksForReq reading localId saved).1)).map
          fun payload => ({ requestId := remote.requestId, payload } : Delivery)) = 0 := by
      rw [tally_map, if_neg here]
    have same : group.unread { state with begun := (rank, remote.requestId) :: state.begun } reqId =
        group.unread state reqId := by
      ext other
      simp [unread, Ne.symm here]
    refine ⟨fun delivery member own => ?_, fun live => ?_, fun left => ?_⟩
    · rw [List.append_assoc, List.mem_append, List.mem_append] at member
      rcases member with flying | posted | earlier
      · exact whole.addressed delivery (List.mem_append_left _ flying) own
      · exact absurd own (tally_eq_zero.mp spared delivery posted)
      · exact whole.addressed delivery (List.mem_append_right _ earlier) own
    · obtain ⟨sum, below⟩ := whole.live live
      refine ⟨?_, below⟩
      rw [tally_append, spared]
      change _ + _ + _ + (group.unread
        { state with begun := (rank, remote.requestId) :: state.begun } reqId).card = _
      rw [same]
      exact sum
    · refine (whole.gone left).imp_right fun none_begun => ?_
      exact same.trans none_begun

theorem Exact.complete {delivery : Delivery} (whole : group.Exact requests reqId state)
    (flying : delivery ∈ state.inFlight) :
    group.Exact requests reqId
      { state with
        inFlight := state.inFlight.erase delivery
        arrived := state.arrived ++ [delivery] } := by
  refine ⟨fun other member own => whole.addressed other ?_ own, fun live => ?_, whole.gone⟩
  · rw [List.mem_append, List.mem_append, List.mem_singleton] at member
    rw [List.mem_append]
    rcases member with rest | earlier | rfl
    · exact Or.inl (List.mem_of_mem_erase rest)
    · exact Or.inr earlier
    · exact Or.inl flying
  · obtain ⟨sum, below⟩ := whole.live live
    have moved := tally_complete state.arrived flying reqId
    refine ⟨?_, below⟩
    change state.sending.countOf reqId + tally reqId (state.arrived ++ [delivery]) +
      tally reqId (state.inFlight.erase delivery) + (group.unread state reqId).card = _
    omega

theorem Exact.startLoadKv {metadata : NixlConnectorMetadata} {sending : Sending}
    (whole : group.Exact requests reqId state) (sound : group.Sound requests state)
    (kept : reqId ∉ metadata.reqsNotProcessed)
    (once : reqId ∈ metadata.reqsInBatch → reqId ∉ state.sending.reqsToProcess →
      group.unread state reqId = group.readers)
    (loaded : Sending.Loaded state.sending metadata sending) :
    group.Exact requests reqId { state with sending } := by
  have same : sending.countOf reqId = state.sending.countOf reqId := by
    rw [Sending.countOf, loaded.counts, Sending.countOf]
  refine ⟨whole.addressed, fun live => ?_, fun left => ?_⟩
  · change sending.countOf reqId + tally reqId state.arrived + tally reqId state.inFlight +
      (group.unread state reqId).card = _ ∧ sending.countOf reqId < _
    rw [same]
    by_cases already : reqId ∈ state.sending.reqsToProcess
    · exact whole.live already
    · have enters := ((loaded.process reqId).mp live).1.resolve_right already
      have total := sound.counted reqId
      have positive := group.readers_pos
      rw [once enters already] at total ⊢
      omega
  · refine whole.gone fun already => left ((loaded.process reqId).mpr ⟨Or.inr already, kept⟩)

theorem Exact.step {event : TransferEvent ω} {next : TransferState}
    (whole : group.Exact requests reqId state) (sound : group.Sound requests state)
    (fits : group.Fits requests state event) (heard : group.Heard reqId state event)
    (taken : group.step state event = .ok next) : group.Exact requests reqId next := by
  cases event with
  | startLoadKv metadata =>
      rw [ReadGroup.step] at taken
      rcases Sending.startLoadKv_spec state.sending metadata with
        ⟨sending, loads, loaded⟩ | ⟨_, failed⟩
      · rw [loads] at taken
        cases taken
        exact whole.startLoadKv sound heard.1 heard.2 loaded
      · cases outcome : state.sending.startLoadKv metadata with
        | mk sending result =>
            rw [outcome] at failed taken
            cases failed
            cases taken
  | getFinished notifs now =>
      rw [ReadGroup.step] at taken
      split at taken
      · rename_i all
        cases finished : group.producer.getFinished state.sending (notifs.map Delivery.notif)
            now with
        | mk sending result =>
            rw [finished] at taken
            cases result with
            | error raised => cases taken
            | ok done =>
                cases taken
                exact whole.getFinished sound all finished
      · cases taken
        exact whole
  | read rank worker reading localId saved =>
      rw [ReadGroup.step] at taken
      cases remoteIs : saved.remote with
      | none =>
          rw [remoteIs] at taken
          cases taken
          exact whole
      | some remote =>
          rw [remoteIs] at taken
          cases taken
          obtain ⟨fresh, reads⟩ := fits remote remoteIs
          exact whole.read remoteIs reads fresh heard
  | complete delivery =>
      rw [ReadGroup.step] at taken
      split at taken
      · rename_i flying
        cases taken
        exact whole.complete flying
      · cases taken
        exact whole

/-- **Every request that is read is reported.**  When the last notif of a request's readers has
been fetched, in whatever order the reads completed and in however many calls their notifs were
fetched, the prefill rank has reported the request as sent. -/
theorem reported_when_read {events : List (TransferEvent ω)} {final : TransferState}
    (fits : Run.Throughout group.step (group.Fits requests) .init events)
    (heard : Run.Throughout group.step (group.Heard reqId) .init events)
    (reached : Run.exec group.step .init events = .ok final)
    (read : ∀ rank ∈ group.readers, (rank, reqId) ∈ final.begun)
    (fetched : ∀ delivery ∈ final.inFlight ++ final.arrived, delivery.requestId ≠ reqId) :
    reqId ∈ final.released := by
  have preserved : ∀ {state : TransferState} {event : TransferEvent ω} {next : TransferState},
      group.Sound requests state ∧ group.Exact requests reqId state →
      group.Fits requests state event ∧ group.Heard reqId state event →
      group.step state event = .ok next →
      group.Sound requests next ∧ group.Exact requests reqId next := by
    intro state event next holds allowed taken
    exact ⟨holds.1.step allowed.1 taken, holds.2.step holds.1 allowed.1 allowed.2 taken⟩
  have whole := (Run.exec_invariant preserved ⟨sound_init, exact_init⟩ (fits.and heard) reached).2
  have none_left : group.unread final reqId = ∅ :=
    Finset.filter_false_of_mem fun rank isReader => not_not.mpr (read rank isReader)
  have positive := group.readers_pos
  by_cases live : reqId ∈ final.sending.reqsToProcess
  · obtain ⟨sum, below⟩ := whole.live live
    have nothing := tally_append reqId final.inFlight final.arrived
    rw [tally_eq_zero.mpr fetched] at nothing
    rw [none_left, Finset.card_empty] at sum
    omega
  · rcases whole.gone live with reported | none_begun
    · exact reported
    · rw [none_left] at none_begun
      rw [← none_begun, Finset.card_empty] at positive
      exact absurd positive (Nat.lt_irrefl 0)

end Heard

theorem reported_when_read_twoReaders : ∃ final,
    Run.exec twoReaders.step .init readRun = .ok final ∧ "r:1" ∈ final.released := by
  have heard {state : TransferState} (live : "r:1" ∈ state.sending.reqsToProcess) {rank : ℕ}
      (rank_lt : rank < 2) : twoReaders.Heard "r:1" state (readBy rank) := by
    rintro remote ⟨⟩ _
    have succeeds : ∀ rank < 2, ((twoToOne.worker rank).readBlocksForReq (.init ()) "r:1"
        (GroupPair.readRequest [3] [7])).2 = .ok () := by decide
    exact ⟨Or.inl live, twoToOne.reliable rank rank_lt, Or.inl rfl, succeeds rank rank_lt⟩
  refine ⟨_, rfl, reported_when_read fits_readRun ?_ rfl ?_
    fun _ member => absurd member List.not_mem_nil⟩
  · refine (Run.throughout_cons rfl).mpr ⟨⟨AList.notMem_empty _, fun _ _ => ?_⟩,
      (Run.throughout_cons rfl).mpr ⟨heard (by decide) Nat.zero_lt_two,
        (Run.throughout_cons rfl).mpr ⟨heard (by decide) Nat.one_lt_two, ?_⟩⟩⟩
    · exact Finset.filter_true_of_mem fun _ _ => List.not_mem_nil
    · apply Run.throughout_of_mem
      intro event member state
      simp only [List.mem_cons, List.not_mem_nil, or_false] at member
      rcases member with rfl | rfl | rfl <;> trivial
  · decide

end ReadGroup

end RduHdi
