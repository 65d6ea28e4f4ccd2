import RduHdi.Connector.SendingSpec
import RduHdi.Run

/-!
# Who a release is owed to

The worker with a record of the notifs that named each request since it began to be processed.  A
request is counted for only by notifs that name it as long as no notif is resolved through a shared
UUID and no request starts with a count left over from an aborted one; then every release was due
to an expiration or to enough notifs.
-/

namespace RduHdi

/-- A call of the producer's worker. -/
inductive WorkerEvent where
  | startLoadKv (metadata : NixlConnectorMetadata)
  | getFinished (notifs : List Notif) (now : ℚ)

/-- The sending half of a worker, and for each request the number of notifs that named it since it
began to be processed. -/
structure WatchedSending where
  /-- The sending half. -/
  sending : Sending
  /-- How many notifs counted for each request. -/
  named : ReqId → ℕ

/-- A notif that names a request. -/
def Notif.names (notif : Notif) (reqId : ReqId) : Bool :=
  notif.payload.size ≠ 0 &&
    match Sending.decodeNotif notif.payload with
    | .ok (named, _) => named = reqId
    | .error _ => false

/-- The number of notifs that name a request. -/
def countNaming (reqId : ReqId) (notifs : List Notif) : ℕ :=
  notifs.countP fun notif => notif.names reqId

namespace WatchedSending

def init : WatchedSending where
  sending := .init
  named _ := 0

/-- Take one call; a call that raises ends the run. -/
def step (worker : SendingWorker) (watched : WatchedSending) :
    WorkerEvent → Except PyError WatchedSending
  | .startLoadKv metadata =>
      match watched.sending.startLoadKv metadata with
      | (sending, .ok ()) =>
          .ok
            { sending
              named := fun reqId =>
                if reqId ∉ watched.sending.reqsToProcess ∧ reqId ∈ sending.reqsToProcess then 0
                else watched.named reqId }
      | (_, .error raised) => .error raised
  | .getFinished notifs now =>
      match worker.getFinished watched.sending notifs now with
      | (sending, .ok _) =>
          .ok { sending, named := fun reqId => watched.named reqId + countNaming reqId notifs }
      | (_, .error raised) => .error raised

end WatchedSending

theorem countNaming_nil (reqId : ReqId) : countNaming reqId [] = 0 := rfl

theorem countNaming_cons (reqId : ReqId) (notif : Notif) (notifs : List Notif) :
    countNaming reqId (notif :: notifs) =
      countNaming reqId notifs + if notif.names reqId then 1 else 0 :=
  List.countP_cons

/-! ## One notif at a time -/

namespace SendingWorker

variable {worker : SendingWorker}

theorem payload_ofText (text : String) : (Notif.ofText text).payload = text.toUTF8 := rfl

theorem names_notifId (reqId other : ReqId) (worldSize : ℕ) :
    (Notif.ofText (notifId reqId worldSize)).names other ↔ reqId = other := by
  have nonempty : (notifId reqId worldSize).toUTF8.size ≠ 0 := by simp [notifId]
  rw [Notif.names, payload_ofText, Sending.decodeNotif_notifId]
  simp only [decide_eq_true nonempty, Bool.true_and, decide_eq_true_eq]

/-- A completion notif is counted for the request it is resolved to. -/
theorem getFinished_notifId {sending next : Sending} {reqId target released : ReqId}
    {worldSize : ℕ} {consumers : ℤ}
    (resolved : sending.targetOf (Notif.ofText (notifId reqId worldSize)).order reqId =
      some target)
    (quota : worker.consumersPerProducer (Nat.toDigits 10 worldSize) = .ok consumers)
    (counted : sending.countNotif target consumers = (next, .ok (some released))) (now : ℚ) :
    worker.getFinished sending [.ofText (notifId reqId worldSize)] now =
      next.releaseExpired now (AList.add released ∅) := by
  have nonempty : (notifId reqId worldSize).toUTF8.size ≠ 0 := by simp [notifId]
  have handled : worker.handleNotif sending (.ofText (notifId reqId worldSize)) =
      (next, .ok (some released)) := by
    rw [handleNotif, payload_ofText, if_neg nonempty, Sending.decodeNotif_notifId]
    simp only [resolved, quota, counted]
  rw [getFinished, getNewNotifs, notifLoop, handled]
  rfl

/-- The request a notif names is live, or no live request shares its UUID. -/
def NoFallback (sending : Sending) (notif : Notif) : Prop :=
  ∀ reqId, notif.names reqId →
    reqId ∈ sending.reqsToSend ∨ reqId ∈ sending.reqsToProcess ∨
      ∀ uuid, ReqUuid.search reqId.toList = some uuid →
        ∀ other ∈ sending.live, ¬ uuid <:+: other.toList

/-- Some notif names the request, and with those counted before there are as many that name it as
this notif asks for. -/
def Enough (worker : SendingWorker) (before : ℕ) (notifs : List Notif) (reqId : ReqId) : Prop :=
  ∃ notif ∈ notifs, ∃ tpSize consumers,
    Sending.decodeNotif notif.payload = .ok (reqId, tpSize) ∧
      worker.consumersPerProducer tpSize = .ok consumers ∧
      consumers ≤ (before + countNaming reqId notifs : ℕ)

theorem resolve_eq_none {sending : Sending} {reqId : ReqId} (order : SetOrder)
    (unshared : ∀ uuid, ReqUuid.search reqId.toList = some uuid →
      ∀ other ∈ sending.live, ¬ uuid <:+: other.toList) :
    sending.resolveFreeNotifReqId order reqId = none := by
  rw [Sending.resolveFreeNotifReqId]
  cases found : ReqUuid.search reqId.toList with
  | none => rfl
  | some uuid =>
      have nobody : (order.arrange sending.live).filter
          (fun other => uuid <:+: other.toList) = [] := by
        rw [List.filter_eq_nil_iff]
        intro other member
        simpa using unshared uuid found other ((order.perm sending.live).subset member)
      simp [nobody]

/-- Without the fallback a notif counts for the request it names. -/
theorem Counts.target_eq {sending : Sending} {notif : Notif} {reqId target : ReqId}
    {consumers : ℤ} (counts : Counts worker sending notif reqId target consumers)
    (own : NoFallback sending notif) : target = reqId ∧ notif.names reqId := by
  obtain ⟨tpSize, decoded, _⟩ := counts.decoded
  have names : notif.names reqId := by
    simp [Notif.names, decoded, counts.nonempty]
  have resolved := counts.resolved
  rw [Sending.targetOf] at resolved
  split at resolved
  · rename_i gone
    rcases own reqId names with expiring | processed | unshared
    · exact absurd expiring gone.1
    · exact absurd processed gone.2
    · rw [resolve_eq_none notif.order unshared] at resolved
      cases resolved
  · exact ⟨(Option.some.inj resolved).symm, names⟩

theorem Enough.mono {before after : ℕ} {fewer notifs : List Notif} {reqId : ReqId}
    (enough : Enough worker before fewer reqId) (inside : fewer ⊆ notifs)
    (grows : before + countNaming reqId fewer ≤ after + countNaming reqId notifs) :
    Enough worker after notifs reqId := by
  obtain ⟨notif, member, tpSize, consumers, decoded, quota, reached⟩ := enough
  refine ⟨notif, inside member, tpSize, consumers, decoded, quota, ?_⟩
  exact reached.trans (Int.ofNat_le.mpr grows)

/-- A turn counts a notif for the request it names only, and releases only when enough name it. -/
theorem Handled.named {sending next : Sending} {notif : Notif} {released : Option ReqId}
    (handled : Handled worker sending notif next released) (own : NoFallback sending notif) :
    (∀ reqId, next.countOf reqId ≤ sending.countOf reqId + if notif.names reqId then 1 else 0) ∧
      ∀ reqId, released = some reqId → Enough worker (sending.countOf reqId) [notif] reqId := by
  cases handled with
  | skipped => exact ⟨fun reqId => Nat.le_add_right _ _, nofun⟩
  | @counted _ target _ counts below =>
      obtain ⟨rfl, names⟩ := counts.target_eq own
      refine ⟨fun other => ?_, nofun⟩
      by_cases here : other = target
      · subst here
        simp [Sending.countOf, names]
      · simp [Sending.countOf, here]
  | @released _ target _ counts full processed =>
      obtain ⟨rfl, names⟩ := counts.target_eq own
      obtain ⟨tpSize, decoded, quota⟩ := counts.decoded
      refine ⟨fun other => ?_, ?_⟩
      · by_cases here : other = target
        · subst here
          simp [Sending.countOf]
        · simp [Sending.countOf, here]
      · rintro _ ⟨⟩
        refine ⟨notif, List.mem_cons_self, tpSize, _, decoded, quota, le_of_eq ?_⟩
        rw [← full, countNaming_cons, if_pos names]
        rfl

/-- The notif loop counts each notif for the request it names only. -/
theorem notifLoop_named {notifs : List Notif} {sending next : Sending}
    {collected notified : KeySet ReqId}
    (own : Run.Throughout worker.turn NoFallback sending notifs)
    (taken : worker.notifLoop notifs sending collected = (next, .ok notified)) :
    (∀ reqId, next.countOf reqId ≤ sending.countOf reqId + countNaming reqId notifs) ∧
      ∀ reqId ∈ notified,
        reqId ∈ collected ∨ Enough worker (sending.countOf reqId) notifs reqId := by
  induction notifs generalizing sending collected with
  | nil =>
      cases taken
      exact ⟨fun reqId => Nat.le_add_right _ _, fun reqId member => Or.inl member⟩
  | cons notif notifs ih =>
      rw [notifLoop] at taken
      cases outcome : worker.handleNotif sending notif with
      | mk middle result =>
          rw [outcome] at taken
          cases result with
          | error raised => cases taken
          | ok released =>
              have turned : worker.turn sending notif = .ok middle := by
                rw [turn, outcome]
              obtain ⟨counted, due⟩ := (handleNotif_eq_ok outcome).named own.1
              obtain ⟨all, rest⟩ : (∀ reqId, next.countOf reqId ≤
                  middle.countOf reqId + countNaming reqId notifs) ∧
                  ∀ reqId ∈ notified, (released = some reqId ∨ reqId ∈ collected) ∨
                    Enough worker (middle.countOf reqId) notifs reqId := by
                cases released with
                | none =>
                    obtain ⟨all, rest⟩ := ih (own.2 middle turned) taken
                    exact ⟨all, fun reqId member => (rest reqId member).imp_left Or.inr⟩
                | some first =>
                    obtain ⟨all, rest⟩ := ih (own.2 middle turned) taken
                    refine ⟨all, fun reqId member => (rest reqId member).imp_left fun inside => ?_⟩
                    rcases AList.mem_add.mp inside with rfl | earlier
                    · exact Or.inl rfl
                    · exact Or.inr earlier
              refine ⟨fun reqId => ?_, fun reqId member => ?_⟩
              · have first := counted reqId
                have later := all reqId
                rw [countNaming_cons]
                omega
              · rcases rest reqId member with (now | earlier) | later
                · refine Or.inr ((due reqId now).mono (by simp) ?_)
                  simp only [countNaming_cons, countNaming_nil]
                  omega
                · exact Or.inl earlier
                · refine Or.inr (later.mono (List.subset_cons_self notif notifs) ?_)
                  have first := counted reqId
                  rw [countNaming_cons]
                  omega

end SendingWorker

/-! ## Whole runs -/

namespace WatchedSending

open ExpiryQueue SendingWorker

variable {worker : SendingWorker}

/-- No notif of the call is resolved through the UUID of another request, and no request starts to
be processed with notifs counted before. -/
def Undisturbed (worker : SendingWorker) (watched : WatchedSending) : WorkerEvent → Prop
  | .startLoadKv metadata => ∀ reqId ∈ metadata.reqsInBatch,
      reqId ∉ watched.sending.reqsToProcess → reqId ∉ metadata.reqsNotProcessed →
        reqId ∉ watched.sending.consumerNotificationCountsByReq
  | .getFinished notifs _ => Run.Throughout worker.turn NoFallback watched.sending notifs

/-- Every request a call reports done has expired, or was named by enough notifs since it began to
be processed. -/
def Justified (worker : SendingWorker) (watched : WatchedSending) : WorkerEvent → Prop
  | .startLoadKv _ => True
  | .getFinished notifs now => ∀ next done,
      worker.getFinished watched.sending notifs now = (next, .ok done) → ∀ reqId ∈ done,
        (∃ expires, watched.sending.reqsToSend.lookup reqId = some expires ∧ expires ≤ now) ∨
          Enough worker (watched.named reqId) notifs reqId

/-- No request has more notifs counted than have named it. -/
structure Covered (watched : WatchedSending) : Prop where
  /-- The maps belong together. -/
  tracked : watched.sending.Tracked
  /-- No request has a larger count than notifs that counted. -/
  counted : ∀ reqId, watched.sending.countOf reqId ≤ watched.named reqId

theorem covered_init : Covered init where
  tracked := Sending.tracked_init
  counted _ := Nat.le_refl 0

/-- What an undisturbed `get_finished` leaves and reports. -/
theorem getFinished_covered {watched : WatchedSending} {notifs : List Notif} {now : ℚ}
    {next : Sending} {done : KeySet ReqId} (covered : watched.Covered)
    (own : Run.Throughout worker.turn NoFallback watched.sending notifs)
    (taken : worker.getFinished watched.sending notifs now = (next, .ok done)) :
    next.Tracked ∧
      (∀ reqId, next.countOf reqId ≤ watched.named reqId + countNaming reqId notifs) ∧
      ∀ reqId ∈ done,
        (∃ expires, watched.sending.reqsToSend.lookup reqId = some expires ∧ expires ≤ now) ∨
          Enough worker (watched.named reqId) notifs reqId := by
  cases outcome : worker.getNewNotifs watched.sending notifs with
  | mk middle result =>
      cases result with
      | error raised =>
          rw [getFinished, outcome] at taken
          cases taken
      | ok notified =>
          obtain ⟨_, fewer⟩ := getNewNotifs_eq_ok outcome covered.tracked
          obtain ⟨counted, due⟩ := notifLoop_named own outcome
          obtain ⟨_, _, finished, expired, still⟩ :=
            getFinished_of_notified outcome covered.tracked now
          rw [taken] at finished
          cases finished
          refine ⟨still, fun reqId => ?_, fun reqId member => ?_⟩
          · have before := covered.counted reqId
            have after := counted reqId
            rw [expired.counts]
            split <;> omega
          · rcases (expired.done reqId).mp member with early | notifiedNow
            · left
              obtain ⟨entry, inside, rfl⟩ := List.mem_map.mp early
              have present := (List.takeWhile_sublist _).subset inside
              exact ⟨entry.2, AList.mem_lookup_iff.mpr (fewer.subset present),
                le_of_mem_released inside⟩
            · right
              rcases due reqId notifiedNow with absurdly | enough
              · exact absurd absurdly (AList.notMem_empty _)
              · exact enough.mono (List.Subset.refl _)
                  (Nat.add_le_add_right (covered.counted reqId) _)

/-- An undisturbed call keeps the counts covered. -/
theorem covered_step {watched next : WatchedSending} {event : WorkerEvent}
    (covered : watched.Covered) (undisturbed : Undisturbed worker watched event)
    (taken : watched.step worker event = .ok next) : next.Covered := by
  cases event with
  | startLoadKv metadata =>
      rw [step] at taken
      rcases Sending.startLoadKv_spec watched.sending metadata with
        ⟨sending, loads, loaded⟩ | ⟨_, failed⟩
      · rw [loads] at taken
        cases taken
        refine ⟨loaded.tracked covered.tracked, fun reqId => ?_⟩
        have same : sending.countOf reqId = watched.sending.countOf reqId := by
          rw [Sending.countOf, loaded.counts, Sending.countOf]
        simp only [same]
        split
        · rename_i starts
          obtain ⟨entered, keeps⟩ := (loaded.process reqId).mp starts.2
          have fresh := undisturbed reqId (entered.resolve_right starts.1) starts.1 keeps
          simp [Sending.countOf, AList.lookup_eq_none.mpr fresh]
        · exact covered.counted reqId
      · cases outcome : watched.sending.startLoadKv metadata with
        | mk sending result =>
            rw [outcome] at failed taken
            cases failed
            cases taken
  | getFinished notifs now =>
      rw [step] at taken
      cases outcome : worker.getFinished watched.sending notifs now with
      | mk sending result =>
          rw [outcome] at taken
          cases result with
          | error raised => cases taken
          | ok done =>
              cases taken
              obtain ⟨tracked, counted, _⟩ := getFinished_covered covered undisturbed outcome
              exact ⟨tracked, counted⟩

/-- **Releases are justified.**  In every run of calls none of which is disturbed, every request
reported done has expired or was named by enough notifs since it began to be processed. -/
theorem releases_justified {events : List WorkerEvent}
    (undisturbed : Run.Throughout (step worker) (Undisturbed worker) init events) :
    Run.Throughout (step worker) (Justified worker) init events := by
  refine Run.Throughout.of_invariant covered_step ?_ covered_init undisturbed
  intro watched event covered undisturbed
  cases event with
  | startLoadKv metadata => trivial
  | getFinished notifs now =>
      intro next done taken
      exact (getFinished_covered covered undisturbed taken).2.2

/-! ## A late notif, and a count left over -/

/-- A request enters the batch. -/
def enters (reqId : ReqId) : WorkerEvent :=
  .startLoadKv { NixlConnectorMetadata.init with reqsInBatch := AList.add reqId ∅ }

/-- A request gets its expiration. -/
def finishes (reqId : ReqId) (expires : ℚ) : WorkerEvent :=
  .startLoadKv { NixlConnectorMetadata.init with reqsToSend := AList.set reqId expires ∅ }

/-- A request is aborted. -/
def aborts (reqId : ReqId) : WorkerEvent :=
  .startLoadKv { NixlConnectorMetadata.init with reqsNotProcessed := AList.add reqId ∅ }

/-- One of the two consumers of a request is done. -/
def oneOfTwo (now : ℚ) : WorkerEvent :=
  .getFinished [.ofText (notifId "a" 2)] now

/-- Two consumers read a request, and one is done before the expiration is set. -/
def twoConsumersRun : List WorkerEvent :=
  [enters "a", oneOfTwo 0, finishes "a" 5, oneOfTwo 1]

theorem releases_justified_twoConsumers :
    Run.Throughout (step (.ofSize 1)) (Justified (.ofSize 1)) init twoConsumersRun := by
  have processed {watched : WatchedSending} (live : "a" ∈ watched.sending.reqsToProcess)
      (now : ℚ) : Undisturbed (.ofSize 1) watched (oneOfTwo now) := by
    refine ⟨fun reqId names => Or.inr (Or.inl ?_), fun _ _ => trivial⟩
    rw [← (names_notifId "a" reqId 2).mp names]
    exact live
  have fresh : Undisturbed (.ofSize 1) init (enters "a") :=
    fun reqId _ _ _ => AList.notMem_empty reqId
  have quiet (watched : WatchedSending) : Undisturbed (.ofSize 1) watched (finishes "a" 5) :=
    fun reqId entered => absurd entered (AList.notMem_empty reqId)
  apply releases_justified
  exact (Run.throughout_cons rfl).mpr ⟨fresh, (Run.throughout_cons rfl).mpr
    ⟨processed (by decide) 0, (Run.throughout_cons rfl).mpr
      ⟨quiet _, (Run.throughout_cons rfl).mpr ⟨processed (by decide) 1, trivial⟩⟩⟩⟩

/-- The id of a request, and the id it has when the client submits it again. -/
def firstId : ReqId := "first-0b5c6a1e-9d2f-4c3b-8a7d-1234567890ab"

def secondId : ReqId := "second-0b5c6a1e-9d2f-4c3b-8a7d-1234567890ab"

/-- The first request expires and the second is being processed. -/
def resubmitted : List WorkerEvent :=
  [enters firstId, finishes firstId 1, .getFinished [] 1, enters secondId]

/-- One of two consumers is done when the request is aborted, and the same id comes again. -/
def readmitted : List WorkerEvent :=
  [enters "a", oneOfTwo 0, aborts "a", enters "a"]

/-- The late notif of the first request releases the second, and one notif releases a request that
has two consumers. -/
theorem not_justified :
    ¬ Run.Throughout (step (.ofSize 1)) (Justified (.ofSize 1)) init
        (resubmitted ++ [.getFinished [.ofText (notifId firstId 1)] 2]) ∧
      ¬ Run.Throughout (step (.ofSize 1)) (Justified (.ofSize 1)) init
        (readmitted ++ [oneOfTwo 2]) := by
  constructor
  · intro justified
    let before : Sending :=
      { reqsToSend := ∅
        reqsToProcess := AList.add secondId ∅
        consumerNotificationCountsByReq := ∅ }
    obtain ⟨named, taken⟩ : ∃ named, Run.exec (step (.ofSize 1)) init resubmitted =
        .ok { sending := before, named } := ⟨_, rfl⟩
    have resolved : before.targetOf (Notif.ofText (notifId firstId 1)).order firstId =
        some secondId := by decide
    have finished := getFinished_notifId resolved (show (ofSize 1).consumersPerProducer _ = .ok 1 by
      decide) (show before.countNotif secondId 1 = (Sending.init, .ok (some secondId)) from rfl) 2
    rcases justified.after taken _ _ finished secondId (by decide) with
      ⟨_, absurdly, _⟩ | ⟨notif, member, tpSize, _, decoded, _⟩
    · cases absurdly
    · rw [List.mem_singleton] at member
      subst member
      rw [payload_ofText, Sending.decodeNotif_notifId] at decoded
      have same : firstId = secondId := congrArg Prod.fst (Except.ok.inj decoded)
      exact absurd same (by decide)
  · intro justified
    let before : Sending :=
      { reqsToSend := ∅
        reqsToProcess := AList.add "a" ∅
        consumerNotificationCountsByReq := AList.set "a" 1 ∅ }
    obtain ⟨named, taken, forgotten⟩ : ∃ named, Run.exec (step (.ofSize 1)) init readmitted =
        .ok { sending := before, named } ∧ named "a" = 0 := ⟨_, rfl, rfl⟩
    have resolved : before.targetOf (Notif.ofText (notifId "a" 2)).order "a" = some "a" := by
      decide
    have quota : (ofSize 1).consumersPerProducer (Nat.toDigits 10 2) = .ok 2 := by decide
    have finished := getFinished_notifId resolved quota
      (show before.countNotif "a" 2 = (Sending.init, .ok (some "a")) from rfl) 2
    rcases justified.after taken _ _ finished "a" (by decide) with
      ⟨_, absurdly, _⟩ | ⟨notif, member, tpSize, consumers, decoded, asked, reached⟩
    · cases absurdly
    · rw [List.mem_singleton] at member
      subst member
      rw [payload_ofText, Sending.decodeNotif_notifId] at decoded
      cases decoded
      rw [quota] at asked
      cases asked
      have one : countNaming "a" [Notif.ofText (notifId "a" 2)] = 1 := by
        rw [countNaming_cons, if_pos ((names_notifId "a" "a" 2).mpr rfl)]
        rfl
      simp only [forgotten, one] at reached
      omega

end WatchedSending

end RduHdi
