import RduHdi.Connector.Sending
import RduHdi.ExpiryQueue

/-!
# What the calls of the sending half do

One lemma per loop: what a successful pass leaves in the three maps, and when a pass cannot fail.
Later files use these and never unfold the loops.
-/

namespace RduHdi

namespace Sending

/-- Every request with an expiration is being processed. -/
def Tracked (sending : Sending) : Prop :=
  ∀ reqId ∈ sending.reqsToSend, reqId ∈ sending.reqsToProcess

theorem tracked_init : init.Tracked := fun _ member => absurd member (AList.notMem_empty _)

/-! ## The end of `start_load_kv` -/

/-- The aborts leave `reqsToProcess`; the assertion fails for the first with an expiration. -/
theorem discardNotProcessed_spec (reqIds : List ReqId) (sending : Sending) :
    ((∀ reqId ∈ reqIds, reqId ∉ sending.reqsToSend) ∧
        ∃ remaining, discardNotProcessed reqIds sending =
            ({ sending with reqsToProcess := remaining }, .ok ()) ∧
          ∀ reqId, reqId ∈ remaining ↔ reqId ∈ sending.reqsToProcess ∧ reqId ∉ reqIds) ∨
      (∃ reqId ∈ reqIds, reqId ∈ sending.reqsToSend) ∧
        (discardNotProcessed reqIds sending).2 = .error .assertionError := by
  induction reqIds generalizing sending with
  | nil => exact Or.inl ⟨by simp, sending.reqsToProcess, rfl, by simp⟩
  | cons first reqIds ih =>
      rw [discardNotProcessed]
      by_cases expiring : first ∈ sending.reqsToSend
      · refine Or.inr ⟨⟨first, List.mem_cons_self, expiring⟩, ?_⟩
        simp only [if_pos expiring]
      · simp only [if_neg expiring]
        rcases ih { sending with reqsToProcess := sending.reqsToProcess.erase first } with
          ⟨clear, remaining, taken, members⟩ | ⟨⟨reqId, member, late⟩, failed⟩
        · refine Or.inl ⟨?_, remaining, taken, fun reqId => ?_⟩
          · intro reqId member
            rcases List.mem_cons.mp member with rfl | later
            · exact expiring
            · exact clear reqId later
          · rw [members reqId, AList.mem_erase, List.mem_cons]
            tauto
        · exact Or.inr ⟨⟨reqId, List.mem_cons_of_mem first member, late⟩, failed⟩

theorem trackLoop_fields (entries : List (Σ _ : ReqId, ℚ)) (sending : Sending) :
    (entries.foldl trackExpiration sending).reqsToProcess = sending.reqsToProcess ∧
      (entries.foldl trackExpiration sending).consumerNotificationCountsByReq =
        sending.consumerNotificationCountsByReq := by
  induction entries generalizing sending with
  | nil => exact ⟨rfl, rfl⟩
  | cons entry entries ih =>
      have first : (trackExpiration sending entry).reqsToProcess = sending.reqsToProcess ∧
          (trackExpiration sending entry).consumerNotificationCountsByReq =
            sending.consumerNotificationCountsByReq := by
        rw [trackExpiration]
        split <;> exact ⟨rfl, rfl⟩
      rw [List.foldl_cons]
      exact ⟨(ih _).1.trans first.1, (ih _).2.trans first.2⟩

theorem tracked_trackLoop (entries : List (Σ _ : ReqId, ℚ)) {sending : Sending}
    (tracked : sending.Tracked) : (entries.foldl trackExpiration sending).Tracked := by
  induction entries generalizing sending with
  | nil => exact tracked
  | cons entry entries ih =>
      apply ih
      rw [trackExpiration]
      split
      · rename_i processed
        intro reqId member
        rcases AList.mem_set.mp member with rfl | earlier
        · exact processed
        · exact tracked reqId earlier
      · exact tracked

/-- New expirations go to the end, those of requests not being processed are dropped. -/
theorem reqsToSend_trackLoop {entries : List (Σ _ : ReqId, ℚ)} {sending : Sending}
    (nodup : (sending.reqsToSend.entries ++ entries).NodupKeys) :
    (entries.foldl trackExpiration sending).reqsToSend.entries =
      sending.reqsToSend.entries ++
        entries.filter fun entry => entry.1 ∈ sending.reqsToProcess := by
  induction entries generalizing sending with
  | nil => simp
  | cons entry entries ih =>
      rw [List.foldl_cons, trackExpiration]
      by_cases processed : entry.1 ∈ sending.reqsToProcess
      · have appended : (sending.reqsToSend.set entry.1 entry.2).entries =
            sending.reqsToSend.entries ++ [entry] :=
          AList.entries_set_of_notMem (AList.notMem_of_entries_append nodup)
        rw [if_pos processed, ih]
        · simp only [appended]
          simp [processed]
        · simpa [appended] using nodup
      · have fewer : (sending.reqsToSend.entries ++ entries).NodupKeys := by
          refine List.Nodup.sublist ?_ nodup
          exact ((List.sublist_cons_self entry entries).append_left _).map Sigma.fst
        rw [if_neg processed, ih fewer]
        simp [processed]

/-- What a successful pass of the end of `start_load_kv` leaves. -/
structure Loaded (sending : Sending) (metadata : NixlConnectorMetadata) (next : Sending) :
    Prop where
  /-- Who is aborted does not expire. -/
  clear : ∀ reqId ∈ metadata.reqsNotProcessed, reqId ∉ sending.reqsToSend
  /-- Counts stay. -/
  counts : next.consumerNotificationCountsByReq = sending.consumerNotificationCountsByReq
  /-- Processed is who is in the batch or was, and is not aborted. -/
  process : ∀ reqId, reqId ∈ next.reqsToProcess ↔
    (reqId ∈ metadata.reqsInBatch ∨ reqId ∈ sending.reqsToProcess) ∧
      reqId ∉ metadata.reqsNotProcessed
  /-- Who expires is processed, as before. -/
  tracked : sending.Tracked → next.Tracked
  /-- Deadlines are added at the end. -/
  send : (sending.reqsToSend.entries ++ metadata.reqsToSend.entries).NodupKeys →
    next.reqsToSend.entries = sending.reqsToSend.entries ++
      metadata.reqsToSend.entries.filter fun entry => entry.1 ∈ next.reqsToProcess

/-- The pass succeeds unless an aborted request has an expiration. -/
theorem startLoadKv_spec (sending : Sending) (metadata : NixlConnectorMetadata) :
    (∃ next, sending.startLoadKv metadata = (next, .ok ()) ∧ Loaded sending metadata next) ∨
      (∃ reqId ∈ metadata.reqsNotProcessed, reqId ∈ sending.reqsToSend) ∧
        (sending.startLoadKv metadata).2 = .error .assertionError := by
  let entered : Sending :=
    { sending with reqsToProcess := sending.reqsToProcess.addAll metadata.reqsInBatch.keys }
  rw [startLoadKv]
  rcases discardNotProcessed_spec metadata.reqsNotProcessed.keys entered with
    ⟨clear, remaining, taken, members⟩ | ⟨⟨reqId, member, expiring⟩, failed⟩
  · left
    rw [taken]
    refine ⟨_, rfl, ?_⟩
    let cleared : Sending := { entered with reqsToProcess := remaining }
    have fields := trackLoop_fields metadata.reqsToSend.entries cleared
    have inside : ∀ reqId, reqId ∈ remaining ↔
        (reqId ∈ metadata.reqsInBatch ∨ reqId ∈ sending.reqsToProcess) ∧
          reqId ∉ metadata.reqsNotProcessed := by
      intro reqId
      simp only [members reqId, entered, AList.mem_addAll, ← AList.mem_keys]
    refine ⟨fun reqId member => clear reqId (AList.mem_keys.mp member), fields.2, ?_, ?_, ?_⟩
    · intro reqId
      rw [fields.1]
      exact inside reqId
    · intro tracked
      apply tracked_trackLoop
      intro reqId member
      refine (inside reqId).mpr ⟨Or.inr (tracked reqId member), fun aborted => ?_⟩
      exact clear reqId (AList.mem_keys.mp aborted) member
    · intro nodup
      have appended := reqsToSend_trackLoop (show (cleared.reqsToSend.entries ++
        metadata.reqsToSend.entries).NodupKeys from nodup)
      rw [appended, fields.1]
  · refine Or.inr ⟨⟨reqId, AList.mem_keys.mpr member, expiring⟩, ?_⟩
    generalize discardNotProcessed metadata.reqsNotProcessed.keys entered = outcome at failed
    obtain ⟨final, result⟩ := outcome
    cases result with
    | ok done => cases failed
    | error raised => exact failed

/-! ## Notifs -/

theorem mem_of_resolve {sending : Sending} {order : SetOrder} {notifReqId reqId : ReqId}
    (resolved : sending.resolveFreeNotifReqId order notifReqId = some reqId) :
    reqId ∈ sending.reqsToSend ∨ reqId ∈ sending.reqsToProcess := by
  have live : reqId ∈ sending.live := by
    rw [resolveFreeNotifReqId] at resolved
    cases uuid : ReqUuid.search notifReqId.toList with
    | none =>
        rw [uuid] at resolved
        cases resolved
    | some found =>
        rw [uuid] at resolved
        simp only at resolved
        apply (order.perm sending.live).subset
        split at resolved
        · have member := List.mem_of_mem_head? resolved
          rw [List.mem_insertionSort] at member
          exact List.mem_of_mem_filter member
        · exact List.mem_of_mem_filter (List.mem_of_mem_head? resolved)
  rw [Sending.live, List.mem_append] at live
  rcases live with expiring | processed
  · exact Or.inl (AList.mem_keys.mpr expiring)
  · exact Or.inr (AList.mem_keys.mpr (List.mem_of_mem_filter processed))

theorem mem_of_targetOf {sending : Sending} {order : SetOrder} {notifReqId reqId : ReqId}
    (resolved : sending.targetOf order notifReqId = some reqId) :
    reqId ∈ sending.reqsToSend ∨ reqId ∈ sending.reqsToProcess := by
  rw [targetOf] at resolved
  split at resolved
  · exact mem_of_resolve resolved
  · rename_i live
    obtain rfl := Option.some.inj resolved
    tauto

theorem decodeNotif_notifId (reqId : ReqId) (worldSize : ℕ) :
    decodeNotif (notifId reqId worldSize).toUTF8 = .ok (reqId, Nat.toDigits 10 worldSize) := by
  have text : (notifId reqId worldSize).toList =
      reqId.toList ++ ':' :: Nat.toDigits 10 worldSize := by
    simp [notifId, toString, Nat.repr]
  have plain : ':' ∉ Nat.toDigits 10 worldSize := Text.notMem_toDigits (by decide) worldSize
  rw [decodeNotif, Text.fromUTF8?_toUTF8]
  simp only [text, Text.rsplitOnce_append reqId.toList plain, String.ofList_toList]

/-- How many notifs are counted for a request. -/
def countOf (sending : Sending) (reqId : ReqId) : ℕ :=
  (sending.consumerNotificationCountsByReq.lookup reqId).getD 0

end Sending

namespace SendingWorker

variable {worker : SendingWorker}

/-- The notif loop as a machine that takes one notif at a time. -/
def turn (worker : SendingWorker) (sending : Sending) (notif : Notif) : Except PyError Sending :=
  match worker.handleNotif sending notif with
  | (next, .ok _) => .ok next
  | (_, .error raised) => .error raised

/-- A notif that is empty, or names a request and a TP size. -/
def WellFormed (worker : SendingWorker) (notif : Notif) : Prop :=
  notif.payload.size = 0 ∨ ∃ reqId tpSize consumers,
    Sending.decodeNotif notif.payload = .ok (reqId, tpSize) ∧
      worker.consumersPerProducer tpSize = .ok consumers

/-- A notif counts for a target, as the next of the given number of consumers. -/
structure Counts (worker : SendingWorker) (sending : Sending) (notif : Notif) (reqId target : ReqId)
    (consumers : ℤ) : Prop where
  /-- It is not a heartbeat. -/
  nonempty : notif.payload.size ≠ 0
  /-- It names a request and a group size. -/
  decoded : ∃ tpSize, Sending.decodeNotif notif.payload = .ok (reqId, tpSize) ∧
    worker.consumersPerProducer tpSize = .ok consumers
  /-- The request is one that is processed. -/
  resolved : sending.targetOf notif.order reqId = some target

/-- What a successful turn of the notif loop leaves: the state and the released request. -/
inductive Handled (worker : SendingWorker) (sending : Sending) (notif : Notif) :
    Sending → Option ReqId → Prop where
  /-- The notif is empty, or nothing live is found for it. -/
  | skipped : Handled worker sending notif sending none
  | counted {reqId target : ReqId} {consumers : ℤ}
      (counts : Counts worker sending notif reqId target consumers)
      (below : ((sending.countOf target + 1 : ℕ) : ℤ) ≠ consumers) :
      Handled worker sending notif
        { sending with
          consumerNotificationCountsByReq :=
            sending.consumerNotificationCountsByReq.set target (sending.countOf target + 1) }
        none
  | released {reqId target : ReqId} {consumers : ℤ}
      (counts : Counts worker sending notif reqId target consumers)
      (full : ((sending.countOf target + 1 : ℕ) : ℤ) = consumers)
      (processed : target ∈ sending.reqsToProcess) :
      Handled worker sending notif
        { reqsToSend := sending.reqsToSend.erase target
          reqsToProcess := sending.reqsToProcess.erase target
          consumerNotificationCountsByReq :=
            sending.consumerNotificationCountsByReq.erase target }
        (some target)

theorem handleNotif_eq_ok {sending next : Sending} {notif : Notif} {released : Option ReqId}
    (taken : worker.handleNotif sending notif = (next, .ok released)) :
    Handled worker sending notif next released := by
  rw [handleNotif] at taken
  by_cases empty : notif.payload.size = 0
  · rw [if_pos empty] at taken
    cases taken
    exact .skipped
  · rw [if_neg empty] at taken
    cases decoded : Sending.decodeNotif notif.payload with
    | error raised =>
        rw [decoded] at taken
        cases taken
    | ok named =>
        obtain ⟨reqId, tpSize⟩ := named
        rw [decoded] at taken
        simp only at taken
        cases resolved : sending.targetOf notif.order reqId with
        | none =>
            rw [resolved] at taken
            cases taken
            exact .skipped
        | some target =>
            rw [resolved] at taken
            simp only at taken
            cases quota : worker.consumersPerProducer tpSize with
            | error raised =>
                rw [quota] at taken
                cases taken
            | ok consumers =>
                rw [quota] at taken
                have counts : Counts worker sending notif reqId target consumers :=
                  ⟨empty, ⟨tpSize, decoded, quota⟩, resolved⟩
                simp only [Sending.countNotif] at taken
                split at taken
                · rename_i full
                  split at taken
                  · rename_i processed
                    cases taken
                    exact .released counts full processed
                  · cases taken
                · rename_i below
                  cases taken
                  exact .counted counts below

/-- A well-formed notif is handled when every request with an expiration is being processed. -/
theorem handleNotif_of_wellFormed {sending : Sending} {notif : Notif}
    (tracked : sending.Tracked) (wellFormed : worker.WellFormed notif) :
    ∃ next released, worker.handleNotif sending notif = (next, .ok released) := by
  rw [handleNotif]
  by_cases empty : notif.payload.size = 0
  · exact ⟨sending, none, if_pos empty⟩
  · obtain ⟨reqId, tpSize, consumers, decoded, quota⟩ := wellFormed.resolve_left empty
    rw [if_neg empty, decoded]
    simp only
    cases resolved : sending.targetOf notif.order reqId with
    | none => exact ⟨sending, none, rfl⟩
    | some target =>
        simp only [quota, Sending.countNotif]
        split
        · have processed : target ∈ sending.reqsToProcess := by
            rcases Sending.mem_of_targetOf resolved with expiring | processed
            · exact tracked target expiring
            · exact processed
          rw [if_pos processed]
          exact ⟨_, _, rfl⟩
        · exact ⟨_, _, rfl⟩

theorem Handled.tracked {sending next : Sending} {notif : Notif} {released : Option ReqId}
    (handled : Handled worker sending notif next released) (tracked : sending.Tracked) :
    next.Tracked := by
  cases handled with
  | skipped => exact tracked
  | counted _ _ => exact tracked
  | released _ _ _ =>
      intro reqId member
      rw [AList.mem_erase] at member ⊢
      exact ⟨member.1, tracked reqId member.2⟩

theorem Handled.entries_sublist {sending next : Sending} {notif : Notif}
    {released : Option ReqId} (handled : Handled worker sending notif next released) :
    next.reqsToSend.entries.Sublist sending.reqsToSend.entries := by
  cases handled with
  | skipped => exact List.Sublist.refl _
  | counted _ _ => exact List.Sublist.refl _
  | released _ _ _ => exact AList.entries_erase_sublist _ _

/-- A pass over notifs that does not raise keeps requests tracked and only removes
expirations. -/
theorem getNewNotifs_eq_ok {sending next : Sending} {notifs : List Notif}
    {notified : KeySet ReqId} (taken : worker.getNewNotifs sending notifs = (next, .ok notified))
    (tracked : sending.Tracked) :
    next.Tracked ∧ next.reqsToSend.entries.Sublist sending.reqsToSend.entries := by
  rw [getNewNotifs] at taken
  generalize (∅ : KeySet ReqId) = collected at taken
  induction notifs generalizing sending collected with
  | nil =>
      cases taken
      exact ⟨tracked, List.Sublist.refl _⟩
  | cons notif notifs ih =>
      rw [notifLoop] at taken
      cases outcome : worker.handleNotif sending notif with
      | mk middle result =>
          rw [outcome] at taken
          cases result with
          | error raised => cases taken
          | ok released =>
              have handled := handleNotif_eq_ok outcome
              cases released with
              | none =>
                  obtain ⟨still, fewer⟩ := ih (handled.tracked tracked) collected taken
                  exact ⟨still, fewer.trans handled.entries_sublist⟩
              | some reqId =>
                  obtain ⟨still, fewer⟩ :=
                    ih (handled.tracked tracked) (collected.add reqId) taken
                  exact ⟨still, fewer.trans handled.entries_sublist⟩

/-- A pass over well-formed notifs does not raise. -/
theorem getNewNotifs_of_wellFormed {notifs : List Notif}
    (wellFormed : ∀ notif ∈ notifs, worker.WellFormed notif) {sending : Sending}
    (tracked : sending.Tracked) :
    ∃ next notified, worker.getNewNotifs sending notifs = (next, .ok notified) := by
  rw [getNewNotifs]
  generalize (∅ : KeySet ReqId) = collected
  induction notifs generalizing sending collected with
  | nil => exact ⟨sending, collected, rfl⟩
  | cons notif notifs ih =>
      obtain ⟨next, released, taken⟩ :=
        handleNotif_of_wellFormed tracked (wellFormed notif List.mem_cons_self)
      have rest := ih (fun other member => wellFormed other (List.mem_cons_of_mem notif member))
        ((handleNotif_eq_ok taken).tracked tracked)
      rw [notifLoop, taken]
      cases released with
      | none => exact rest collected
      | some reqId => exact rest (collected.add reqId)

end SendingWorker

/-! ## Expiry -/

namespace Sending

open ExpiryQueue

/-- What the release of expired requests leaves. -/
structure Expired (now : ℚ) (sending : Sending) (done : KeySet ReqId) (next : Sending)
    (final : KeySet ReqId) : Prop where
  /-- Only later deadlines are kept. -/
  send : next.reqsToSend.entries = kept now sending.reqsToSend.entries
  /-- Who expired is processed no more. -/
  process : ∀ reqId, reqId ∈ next.reqsToProcess ↔ reqId ∈ sending.reqsToProcess ∧
    reqId ∉ (released now sending.reqsToSend.entries).keys
  /-- Who expired is counted no more. -/
  counts : ∀ reqId, next.countOf reqId =
    if reqId ∈ (released now sending.reqsToSend.entries).keys then 0 else sending.countOf reqId
  /-- Who expired is reported. -/
  done : ∀ reqId, reqId ∈ final ↔
    reqId ∈ (released now sending.reqsToSend.entries).keys ∨ reqId ∈ done

/-- With every request with an expiration being processed, the release succeeds. -/
theorem releaseExpired_spec (now : ℚ) {sending : Sending} (tracked : sending.Tracked)
    (done : KeySet ReqId) :
    ∃ next final, sending.releaseExpired now done = (next, .ok final) ∧
      Expired now sending done next final := by
  rw [releaseExpired]
  generalize same : sending.reqsToSend.entries = entries
  induction entries generalizing sending done with
  | nil =>
      refine ⟨sending, done, rfl, ?_, ?_, ?_, ?_⟩ <;> simp [same, kept, released]
  | cons entry entries ih =>
      obtain ⟨reqId, expires⟩ := entry
      rw [releaseLoop]
      rcases lt_or_ge now expires with later | passed
      · rw [if_pos later]
        have none_released : released now (⟨reqId, expires⟩ :: entries) = [] := by
          simp [released, not_le.mpr later]
        have all_kept : kept now (⟨reqId, expires⟩ :: entries) = ⟨reqId, expires⟩ :: entries := by
          simp [kept, not_le.mpr later]
        refine ⟨sending, done, rfl, ?_, ?_, ?_, ?_⟩ <;>
          simp [same, none_released, all_kept]
      · have expiring : reqId ∈ sending.reqsToSend := by
          rw [AList.mem_keys, AList.keys, same]
          exact List.mem_cons_self
        have processed := tracked reqId expiring
        let next : Sending :=
          { reqsToSend := sending.reqsToSend.erase reqId
            reqsToProcess := sending.reqsToProcess.erase reqId
            consumerNotificationCountsByReq :=
              sending.consumerNotificationCountsByReq.erase reqId }
        have rest : next.reqsToSend.entries = entries := by
          change sending.reqsToSend.entries.kerase reqId = entries
          rw [same]
          exact List.kerase_cons_eq rfl
        have still : next.Tracked := by
          intro other member
          rw [AList.mem_erase] at member ⊢
          exact ⟨member.1, tracked other member.2⟩
        obtain ⟨final, all, taken, expired⟩ := ih still (done.add reqId) rest
        have first : released now (⟨reqId, expires⟩ :: entries) =
            ⟨reqId, expires⟩ :: released now entries := by
          simp [released, passed]
        have behind : kept now (⟨reqId, expires⟩ :: entries) = kept now entries := by
          simp [kept, passed]
        rw [if_neg (not_lt.mpr passed)]
        simp only [if_pos processed]
        refine ⟨final, all, taken, ?_, ?_, ?_, ?_⟩
        · rw [expired.send, same, behind, rest]
        · intro other
          rw [expired.process, same, first, rest, List.keys_cons, List.mem_cons,
            AList.mem_erase]
          tauto
        · intro other
          rw [expired.counts]
          simp only [same, first, rest, List.keys_cons, List.mem_cons]
          by_cases here : other = reqId
          · subst here
            simp [countOf, next]
          · simp [countOf, next, here]
        · intro other
          rw [expired.done, same, first, rest, List.keys_cons, List.mem_cons, AList.mem_add]
          tauto

theorem Expired.tracked {now : ℚ} {sending next : Sending} {done final : KeySet ReqId}
    (expired : Expired now sending done next final) (tracked : sending.Tracked) :
    next.Tracked := by
  intro reqId member
  have nodup := sending.reqsToSend.nodupKeys
  rw [← released_append_kept now sending.reqsToSend.entries, List.NodupKeys,
    List.keys_append] at nodup
  have here : reqId ∈ (kept now sending.reqsToSend.entries).keys := by
    rw [← expired.send]
    exact AList.mem_keys.mp member
  have before : reqId ∈ sending.reqsToSend := by
    rw [AList.mem_keys, AList.keys, ← released_append_kept now sending.reqsToSend.entries,
      List.keys_append]
    exact List.mem_append_right _ here
  refine (expired.process reqId).mpr ⟨tracked reqId before, fun early => ?_⟩
  exact (List.nodup_append.mp nodup).2.2 reqId early reqId here rfl

end Sending

theorem SendingWorker.getFinished_of_notified {worker : SendingWorker}
    {sending middle : Sending} {notifs : List Notif} {notified : KeySet ReqId}
    (taken : worker.getNewNotifs sending notifs = (middle, .ok notified))
    (tracked : sending.Tracked) (now : ℚ) :
    ∃ next done, worker.getFinished sending notifs now = (next, .ok done) ∧
      Sending.Expired now middle notified next done ∧ next.Tracked := by
  obtain ⟨still, _⟩ := getNewNotifs_eq_ok taken tracked
  obtain ⟨next, done, released, expired⟩ := Sending.releaseExpired_spec now still notified
  refine ⟨next, done, ?_, expired, expired.tracked still⟩
  rw [getFinished, taken]
  exact released

end RduHdi
