import RduHdi.Connector.SendingSpec
import RduHdi.Run

/-!
# A batch with a bad notif

`_get_new_notifs` takes released requests out of the maps as it goes and reports them at the end.
A notif that raises ends the call, so the requests released before it are reported nowhere.  A
batch loses nothing exactly when no notif raises after one that completes a quota.
-/

namespace RduHdi

namespace SendingWorker

variable {worker : SendingWorker}

/-! ## What a notif does -/

/-- A notif is the last one that a request waits for. -/
def Completes (worker : SendingWorker) (sending : Sending) (notif : Notif) (reqId : ReqId) :
    Prop :=
  reqId ∈ sending.reqsToProcess ∧ ∃ named consumers,
    Counts worker sending notif named reqId consumers ∧
      ((sending.countOf reqId + 1 : ℕ) : ℤ) = consumers

/-- A notif that cannot be handled: it does not decode, its TP size is no number or does not fit,
or the request it completes is not being processed. -/
inductive Raises (worker : SendingWorker) (sending : Sending) (notif : Notif) : Prop where
  | undecodable {raised : PyError} (nonempty : notif.payload.size ≠ 0)
      (decoded : Sending.decodeNotif notif.payload = .error raised)
  | badSize {reqId target : ReqId} {tpSize : List Char} {raised : PyError}
      (nonempty : notif.payload.size ≠ 0)
      (decoded : Sending.decodeNotif notif.payload = .ok (reqId, tpSize))
      (resolved : sending.targetOf notif.order reqId = some target)
      (quota : worker.consumersPerProducer tpSize = .error raised)
  | unprocessed {named target : ReqId} {consumers : ℤ}
      (counts : Counts worker sending notif named target consumers)
      (full : ((sending.countOf target + 1 : ℕ) : ℤ) = consumers)
      (absent : target ∉ sending.reqsToProcess)

theorem handleNotif_of_counts {sending : Sending} {notif : Notif} {named target : ReqId}
    {consumers : ℤ} (counts : Counts worker sending notif named target consumers) :
    worker.handleNotif sending notif = sending.countNotif target consumers := by
  obtain ⟨tpSize, decoded, quota⟩ := counts.decoded
  rw [handleNotif, if_neg counts.nonempty, decoded]
  simp only [counts.resolved, quota]

theorem handleNotif_of_completes {sending : Sending} {notif : Notif} {reqId : ReqId}
    (completes : Completes worker sending notif reqId) :
    ∃ next, worker.handleNotif sending notif = (next, .ok (some reqId)) ∧
      reqId ∉ next.reqsToProcess := by
  obtain ⟨processed, named, consumers, counts, full⟩ := completes
  rw [handleNotif_of_counts counts, Sending.countNotif]
  simp only [Sending.countOf] at full
  simp only [if_pos full, if_pos processed]
  exact ⟨_, rfl, by simp⟩

theorem handleNotif_maps {sending next : Sending} {notif : Notif} {released : Option ReqId}
    (taken : worker.handleNotif sending notif = (next, .ok released)) :
    (∀ reqId, reqId ∈ next.reqsToProcess ↔
        reqId ∈ sending.reqsToProcess ∧ released ≠ some reqId) ∧
      ∀ reqId, reqId ∈ next.reqsToSend ↔
        reqId ∈ sending.reqsToSend ∧ released ≠ some reqId := by
  cases handleNotif_eq_ok taken with
  | skipped => simp
  | counted counts below => simp
  | released counts full processed =>
      constructor <;> intro reqId <;> simp [AList.mem_erase, and_comm, eq_comm]

/-- A notif raises exactly when its turn does, and the turn leaves both maps. -/
theorem raises_iff {sending : Sending} {notif : Notif} : Raises worker sending notif ↔
    ∃ next raised, worker.handleNotif sending notif = (next, .error raised) := by
  constructor
  · intro raises
    cases raises with
    | undecodable nonempty decoded =>
        rw [handleNotif, if_neg nonempty, decoded]
        exact ⟨_, _, rfl⟩
    | badSize nonempty decoded resolved quota =>
        rw [handleNotif, if_neg nonempty, decoded]
        simp only [resolved, quota]
        exact ⟨_, _, rfl⟩
    | unprocessed counts full absent =>
        rw [handleNotif_of_counts counts, Sending.countNotif]
        simp only [Sending.countOf] at full
        simp only [if_pos full, if_neg absent]
        exact ⟨_, _, rfl⟩
  · rintro ⟨next, raised, failed⟩
    rw [handleNotif] at failed
    by_cases empty : notif.payload.size = 0
    · rw [if_pos empty] at failed
      cases failed
    · rw [if_neg empty] at failed
      cases decoded : Sending.decodeNotif notif.payload with
      | error raised => exact .undecodable empty decoded
      | ok named =>
          obtain ⟨reqId, tpSize⟩ := named
          rw [decoded] at failed
          simp only at failed
          cases resolved : sending.targetOf notif.order reqId with
          | none =>
              rw [resolved] at failed
              cases failed
          | some target =>
              rw [resolved] at failed
              simp only at failed
              cases quota : worker.consumersPerProducer tpSize with
              | error raised => exact .badSize empty decoded resolved quota
              | ok consumers =>
                  rw [quota] at failed
                  simp only [Sending.countNotif] at failed
                  split at failed
                  · rename_i full
                    split at failed
                    · cases failed
                    · rename_i absent
                      exact .unprocessed ⟨empty, ⟨tpSize, decoded, quota⟩, resolved⟩ full absent
                  · cases failed

theorem handleNotif_error_maps {sending next : Sending} {notif : Notif} {raised : PyError}
    (failed : worker.handleNotif sending notif = (next, .error raised)) :
    next.reqsToProcess = sending.reqsToProcess ∧ next.reqsToSend = sending.reqsToSend := by
  rw [handleNotif] at failed
  split at failed
  · cases failed
  · split at failed
    · cases failed
      exact ⟨rfl, rfl⟩
    · split at failed
      · cases failed
      · split at failed
        · cases failed
          exact ⟨rfl, rfl⟩
        · simp only [Sending.countNotif] at failed
          split at failed
          · split at failed
            · cases failed
            · cases failed
              exact ⟨rfl, rfl⟩
          · cases failed

theorem turn_eq_ok {sending next : Sending} {notif : Notif} :
    worker.turn sending notif = .ok next ↔
      ∃ released, worker.handleNotif sending notif = (next, .ok released) := by
  rw [turn]
  cases worker.handleNotif sending notif with
  | mk middle result => cases result <;> simp

/-! ## A whole batch -/

/-- No notif of the batch completes a quota. -/
abbrev Idle (worker : SendingWorker) : Sending → List Notif → Prop :=
  Run.Throughout worker.turn fun sending notif => ∀ reqId, ¬ Completes worker sending notif reqId

/-- Idle notifs leave both maps. -/
theorem maps_of_idle {notifs : List Notif} {sending next : Sending}
    (idle : Idle worker sending notifs) (taken : Run.exec worker.turn sending notifs = .ok next) :
    (∀ reqId, reqId ∈ next.reqsToProcess ↔ reqId ∈ sending.reqsToProcess) ∧
      ∀ reqId, reqId ∈ next.reqsToSend ↔ reqId ∈ sending.reqsToSend := by
  induction notifs generalizing sending with
  | nil =>
      cases taken
      simp
  | cons notif notifs ih =>
      obtain ⟨middle, turned, rest⟩ := Run.exec_cons_eq_ok.mp taken
      obtain ⟨released, handled⟩ := turn_eq_ok.mp turned
      obtain ⟨process, send⟩ := handleNotif_maps handled
      have none_released (reqId : ReqId) : released ≠ some reqId := by
        rintro rfl
        cases handleNotif_eq_ok handled with
        | released counts full processed =>
            exact idle.1 reqId ⟨processed, _, _, counts, full⟩
      obtain ⟨laterProcess, laterSend⟩ := ih (idle.2 middle turned) rest
      constructor
      · intro reqId
        rw [laterProcess, process, and_iff_left (none_released reqId)]
      · intro reqId
        rw [laterSend, send, and_iff_left (none_released reqId)]

theorem process_of_exec {notifs : List Notif} {sending next : Sending} {reqId : ReqId}
    (taken : Run.exec worker.turn sending notifs = .ok next)
    (absent : reqId ∉ sending.reqsToProcess) : reqId ∉ next.reqsToProcess := by
  induction notifs generalizing sending with
  | nil =>
      cases taken
      exact absent
  | cons notif notifs ih =>
      obtain ⟨middle, turned, rest⟩ := Run.exec_cons_eq_ok.mp taken
      obtain ⟨released, handled⟩ := turn_eq_ok.mp turned
      exact ih rest fun present => absent (((handleNotif_maps handled).1 reqId).mp present).1

/-- A batch that does not raise reports what left the maps and every completed quota. -/
structure Reports (worker : SendingWorker) (sending : Sending) (notifs : List Notif)
    (next : Sending) (notified : KeySet ReqId) : Prop where
  /-- The notifs are handled in turn. -/
  turns : Run.exec worker.turn sending notifs = .ok next
  /-- Who is processed no more was notified. -/
  process : ∀ reqId ∈ sending.reqsToProcess, reqId ∈ next.reqsToProcess ∨ reqId ∈ notified
  /-- So was who expires no more. -/
  send : ∀ reqId ∈ sending.reqsToSend, reqId ∈ next.reqsToSend ∨ reqId ∈ notified
  /-- So was who has all notifs. -/
  completed : Run.Throughout worker.turn
    (fun sending notif => ∀ reqId, Completes worker sending notif reqId → reqId ∈ notified)
    sending notifs

theorem notifLoop_reports {notifs : List Notif} {sending next : Sending}
    {collected notified : KeySet ReqId}
    (taken : worker.notifLoop notifs sending collected = (next, .ok notified)) :
    Reports worker sending notifs next notified ∧ ∀ reqId ∈ collected, reqId ∈ notified := by
  induction notifs generalizing sending collected with
  | nil =>
      cases taken
      exact ⟨⟨rfl, fun _ => Or.inl, fun _ => Or.inl, trivial⟩, fun _ => id⟩
  | cons notif notifs ih =>
      rw [notifLoop] at taken
      cases handled : worker.handleNotif sending notif with
      | mk middle result =>
          rw [handled] at taken
          cases result with
          | error raised => cases taken
          | ok released =>
              have turned := turn_eq_ok.mpr ⟨released, handled⟩
              obtain ⟨process, send⟩ := handleNotif_maps handled
              obtain ⟨reports, kept⟩ : Reports worker middle notifs next notified ∧
                  ∀ reqId, reqId ∈ collected ∨ released = some reqId → reqId ∈ notified := by
                cases released with
                | none =>
                    obtain ⟨reports, kept⟩ := ih taken
                    refine ⟨reports, fun reqId member => kept reqId ?_⟩
                    simpa using member
                | some first =>
                    obtain ⟨reports, kept⟩ := ih taken
                    refine ⟨reports, fun reqId member => kept reqId (AList.mem_add.mpr ?_)⟩
                    rcases member with earlier | here
                    · exact Or.inr earlier
                    · exact Or.inl (Option.some.inj here).symm
              refine ⟨⟨(Run.exec_cons turned).trans reports.turns, ?_, ?_, ?_⟩,
                fun reqId member => kept reqId (Or.inl member)⟩
              · intro reqId member
                by_cases here : released = some reqId
                · exact Or.inr (kept reqId (Or.inr here))
                · exact reports.process reqId ((process reqId).mpr ⟨member, here⟩)
              · intro reqId member
                by_cases here : released = some reqId
                · exact Or.inr (kept reqId (Or.inr here))
                · exact reports.send reqId ((send reqId).mpr ⟨member, here⟩)
              · refine (Run.throughout_cons turned).mpr ⟨fun reqId completes => ?_,
                  reports.completed⟩
                obtain ⟨_, released_now, _⟩ := handleNotif_of_completes completes
                rw [handled] at released_now
                cases released_now
                exact kept reqId (Or.inr rfl)

/-- A batch raises at one of its notifs. -/
theorem notifLoop_eq_error {notifs : List Notif} {sending next : Sending}
    {collected : KeySet ReqId} {raised : PyError}
    (failed : worker.notifLoop notifs sending collected = (next, .error raised)) :
    ∃ before bad after middle, notifs = before ++ bad :: after ∧
      Run.exec worker.turn sending before = .ok middle ∧
      worker.handleNotif middle bad = (next, .error raised) := by
  induction notifs generalizing sending collected with
  | nil => cases failed
  | cons notif notifs ih =>
      rw [notifLoop] at failed
      cases handled : worker.handleNotif sending notif with
      | mk middle result =>
          rw [handled] at failed
          cases result with
          | error other =>
              cases failed
              exact ⟨[], notif, notifs, sending, rfl, rfl, handled⟩
          | ok released =>
              have turned := turn_eq_ok.mpr ⟨released, handled⟩
              have rest : ∃ collected,
                  worker.notifLoop notifs middle collected = (next, .error raised) := by
                cases released <;> exact ⟨_, failed⟩
              obtain ⟨collected, failed⟩ := rest
              obtain ⟨before, bad, after, last, split, reached, raising⟩ := ih failed
              exact ⟨notif :: before, bad, after, last, by rw [split, List.cons_append],
                (Run.exec_cons turned).trans reached, raising⟩

/-- A batch raises where one of its notifs does. -/
theorem notifLoop_of_raises {before : List Notif} {bad : Notif} {sending middle : Sending}
    (reached : Run.exec worker.turn sending before = .ok middle)
    (raises : Raises worker middle bad) (after : List Notif) (collected : KeySet ReqId) :
    ∃ next raised, worker.notifLoop (before ++ bad :: after) sending collected =
      (next, .error raised) ∧ next.reqsToProcess = middle.reqsToProcess := by
  induction before generalizing sending collected with
  | nil =>
      cases reached
      obtain ⟨next, raised, failed⟩ := raises_iff.mp raises
      refine ⟨next, raised, ?_, (handleNotif_error_maps failed).1⟩
      rw [List.nil_append, notifLoop, failed]
  | cons notif before ih =>
      obtain ⟨first, turned, rest⟩ := Run.exec_cons_eq_ok.mp reached
      obtain ⟨released, handled⟩ := turn_eq_ok.mp turned
      rw [List.cons_append, notifLoop, handled]
      cases released with
      | none => exact ih rest collected
      | some reqId => exact ih rest (collected.add reqId)

/-! ## What a batch may lose -/

/-- A call reports a request. -/
def Reported (outcome : Except PyError (KeySet ReqId)) (reqId : ReqId) : Prop :=
  ∃ notified, outcome = .ok notified ∧ reqId ∈ notified

/-- No request leaves the maps without being reported, and a request whose quota is completed is
reported or, when the call raises, still tracked as before. -/
structure NothingLost (worker : SendingWorker) (sending : Sending) (notifs : List Notif) :
    Prop where
  /-- Who is processed no more is reported. -/
  process : ∀ reqId ∈ sending.reqsToProcess,
    reqId ∈ (worker.getNewNotifs sending notifs).1.reqsToProcess ∨
      Reported (worker.getNewNotifs sending notifs).2 reqId
  /-- So is who expires no more. -/
  send : ∀ reqId ∈ sending.reqsToSend,
    reqId ∈ (worker.getNewNotifs sending notifs).1.reqsToSend ∨
      Reported (worker.getNewNotifs sending notifs).2 reqId
  /-- Who has all notifs is reported, or is still processed. -/
  completed : ∀ {before notif after middle reqId}, notifs = before ++ notif :: after →
    Run.exec worker.turn sending before = .ok middle → Completes worker middle notif reqId →
      Reported (worker.getNewNotifs sending notifs).2 reqId ∨
        (∃ raised, (worker.getNewNotifs sending notifs).2 = .error raised) ∧
          reqId ∈ (worker.getNewNotifs sending notifs).1.reqsToProcess ∧
          (reqId ∈ sending.reqsToSend →
            reqId ∈ (worker.getNewNotifs sending notifs).1.reqsToSend)

/-- **A bad notif.**  A batch loses nothing exactly when no notif raises after one that completes
a quota. -/
theorem nothing_lost_iff (worker : SendingWorker) (sending : Sending) (notifs : List Notif) :
    NothingLost worker sending notifs ↔
      ∀ {before bad after middle}, notifs = before ++ bad :: after →
        Run.exec worker.turn sending before = .ok middle → Raises worker middle bad →
          Idle worker sending before := by
  constructor
  · intro kept before bad after middle split reached raises
    apply Run.throughout_of_forall
    intro early notif late state inner first reqId completes
    obtain ⟨next, raised, failed, process⟩ :=
      notifLoop_of_raises reached raises after ∅
    rw [← split] at failed
    have outcome : worker.getNewNotifs sending notifs = (next, .error raised) := failed
    have whole : notifs = early ++ notif :: (late ++ bad :: after) := by
      rw [split, inner, List.append_assoc, List.cons_append]
    rcases kept.completed whole first completes with ⟨notified, reported, _⟩ | ⟨_, present, _⟩
    · rw [outcome] at reported
      cases reported
    · rw [outcome] at present
      simp only at present
      obtain ⟨gone, handled, absent⟩ := handleNotif_of_completes completes
      rw [inner] at reached
      obtain ⟨between, taken, rest⟩ := Run.exec_append_eq_ok.mp reached
      obtain rfl : between = state := Except.ok.inj (taken.symm.trans first)
      obtain ⟨later, turned, rest⟩ := Run.exec_cons_eq_ok.mp rest
      obtain rfl : later = gone :=
        Except.ok.inj (turned.symm.trans (turn_eq_ok.mpr ⟨_, handled⟩))
      rw [process] at present
      exact process_of_exec rest absent present
  · intro idle
    cases outcome : worker.getNewNotifs sending notifs with
    | mk next result =>
        cases result with
        | ok notified =>
            obtain ⟨reports, _⟩ := notifLoop_reports outcome
            constructor
            · intro reqId member
              rw [outcome]
              exact (reports.process reqId member).imp_right fun told => ⟨notified, rfl, told⟩
            · intro reqId member
              rw [outcome]
              exact (reports.send reqId member).imp_right fun told => ⟨notified, rfl, told⟩
            · intro before notif after middle reqId split reached completes
              have completed := reports.completed
              rw [split] at completed
              rw [outcome]
              exact Or.inl ⟨notified, rfl, completed.after reached reqId completes⟩
        | error raised =>
            obtain ⟨before, bad, after, middle, split, reached, failed⟩ :=
              notifLoop_eq_error outcome
            obtain ⟨sameProcess, sameSend⟩ := handleNotif_error_maps failed
            obtain ⟨process, send⟩ :=
              maps_of_idle (idle split reached (raises_iff.mpr ⟨next, raised, failed⟩)) reached
            rw [← sameProcess] at process
            rw [← sameSend] at send
            constructor
            · intro reqId member
              rw [outcome]
              exact Or.inl ((process reqId).mpr member)
            · intro reqId member
              rw [outcome]
              exact Or.inl ((send reqId).mpr member)
            · intro before notif after state reqId _ taken completes
              have tracked : reqId ∈ sending.reqsToProcess := by
                by_contra absent
                exact process_of_exec taken absent completes.1
              rw [outcome]
              exact Or.inr ⟨⟨raised, rfl⟩, (process reqId).mpr tracked, (send reqId).mpr⟩

/-- A notif that releases its request is followed by one without a TP size, and the request is
neither tracked nor reported. -/
theorem not_nothing_lost :
    ¬ NothingLost (.ofSize 1) { Sending.init with reqsToProcess := AList.add "a" ∅ }
      [.ofText (notifId "a" 1), .ofText "a"] := by
  intro kept
  let sending : Sending := { Sending.init with reqsToProcess := AList.add "a" ∅ }
  have counts : Counts (.ofSize 1) sending (.ofText (notifId "a" 1)) "a" "a" 1 :=
    { nonempty := by simp [Notif.ofText, notifId]
      decoded := ⟨_, Sending.decodeNotif_notifId "a" 1, by decide⟩
      resolved := by decide }
  obtain ⟨middle, released, absent⟩ :=
    handleNotif_of_completes (⟨by decide, _, _, counts, rfl⟩ : Completes _ sending _ "a")
  have colonless : Sending.decodeNotif (Notif.ofText "a").payload = .error .valueError := by
    rw [Sending.decodeNotif, Notif.ofText, Text.fromUTF8?_toUTF8]
    rfl
  have raises : Raises (.ofSize 1) middle (.ofText "a") :=
    .undecodable (by simp [Notif.ofText]) colonless
  have reached : Run.exec (turn (.ofSize 1)) sending [.ofText (notifId "a" 1)] = .ok middle :=
    (Run.exec_singleton _ _).trans (turn_eq_ok.mpr ⟨_, released⟩)
  obtain ⟨next, raised, failed, process⟩ := notifLoop_of_raises reached raises [] ∅
  have outcome : getNewNotifs (.ofSize 1) sending [.ofText (notifId "a" 1), .ofText "a"] =
      (next, .error raised) := failed
  rcases kept.process "a" (by decide) with tracked | ⟨notified, reported, _⟩
  · rw [outcome] at tracked
    simp only [process] at tracked
    exact absent tracked
  · rw [outcome] at reported
    cases reported

end SendingWorker

end RduHdi
