import RduHdi.Connector.ReceiveOnce

/-!
# Requests that only notify

A request that is handed over without local blocks has nothing to receive: only its producer is
told, and nobody waits for it.  Its metadata is stored all the same, and `get_finished` forgets the
metadata of those requests only that it reports.  So the first `get_finished` after such a request
was settled leaves a trace of it: the metadata stays for good, or, after a failed handshake, a
completion is reported that nobody expects.
-/

namespace RduHdi

/-! ## Reads without local blocks -/

theorem KernelBlocks.logicalToKernelBlockIds_nil (kernel : KernelBlocks) :
    kernel.logicalToKernelBlockIds [] = [] := by
  rw [logicalToKernelBlockIds, kernel.map_eq]
  split <;> rfl

theorem alignLocalBlocks_nil (ratio : ℕ) (remoteBlockIds : List ℕ) :
    alignLocalBlocks ratio [] remoteBlockIds = [] := by
  rw [alignLocalBlocks]
  split
  · simp [getMappedBlocks]
  · rfl

namespace ReadingWorker

variable {ω : Type*} (worker : ReadingWorker ω)

theorem readBlocks_readsFor_of_nil (reading : Reading ω) {args : ReadArgs}
    (empty : args.localBlockIds = []) (other : ReqId) :
    ReadsFor other reading (worker.readBlocks reading args).1 := by
  rw [readBlocks, empty, alignLocalBlocks_nil]
  simp only [List.length_nil, if_true]
  split
  · exact .refl _ _
  · exact worker.sendNotif_readsFor _ _ _ _

theorem readBlocksForReq_readsFor_of_nil (reading : Reading ω) (reqId : ReqId) {saved : ReqMeta}
    (empty : saved.localPhysicalBlockIds = []) (other : ReqId) :
    ReadsFor other reading (worker.readBlocksForReq reading reqId saved).1 := by
  rw [readBlocksForReq]
  split
  · exact .refl _ _
  · apply worker.readRanks_readsFor_of
    intro reading args _ isEmpty
    exact worker.readBlocks_readsFor_of_nil reading (isEmpty.trans empty) other

end ReadingWorker

/-- Between two states nothing happened to a request. -/
structure LeavesAlone {ω : Type*} (reqId : ReqId) (before after : Reading ω) : Prop where
  /-- The metadata stay. -/
  recvingMetadata : after.recvingMetadata = before.recvingMetadata
  /-- No transfer of the request begins. -/
  recvingTransfers : reqId ∈ after.recvingTransfers → reqId ∈ before.recvingTransfers
  /-- The request does not fail. -/
  failedRecvReqs : reqId ∈ after.failedRecvReqs → reqId ∈ before.failedRecvReqs

theorem ReadsFor.leavesAlone {ω : Type*} {reqId other : ReqId} {before after : Reading ω}
    (reads : ReadsFor other before after) (different : reqId ≠ other) :
    LeavesAlone reqId before after where
  recvingMetadata := reads.recvingMetadata
  recvingTransfers member := (reads.recvingTransfers reqId member).resolve_left different
  failedRecvReqs member := (reads.failedRecvReqs reqId member).resolve_left different

theorem exists_ne_reqId (reqId : ReqId) : ∃ other : ReqId, reqId ≠ other := by
  refine ⟨reqId ++ "+", fun same => ?_⟩
  have longer := congrArg String.length same
  rw [String.length_append] at longer
  change _ = _ + 1 at longer
  omega

theorem ReadingWorker.readBlocksForReq_leavesAlone {ω : Type*} (worker : ReadingWorker ω)
    (reading : Reading ω) {reqId : ReqId} {entry : ReqId × ReqMeta}
    (empty : entry.1 = reqId → entry.2.localPhysicalBlockIds = []) :
    LeavesAlone reqId reading (worker.readBlocksForReq reading entry.1 entry.2).1 := by
  by_cases same : entry.1 = reqId
  · obtain ⟨other, different⟩ := exists_ne_reqId reqId
    exact (worker.readBlocksForReq_readsFor_of_nil reading entry.1 (empty same)
      other).leavesAlone different
  · exact (worker.readBlocksForReq_readsFor reading entry.1 entry.2).leavesAlone (Ne.symm same)

/-! ## Where such a request is -/

/-- A request is handed over at most once, without local blocks. -/
structure HandedOverEmpty (reqId : ReqId) (loads : List (ReqId × ReqMeta)) : Prop where
  /-- The request is loaded once. -/
  once : (loads.map Prod.fst).count reqId ≤ 1
  /-- It has no local block. -/
  empty : ∀ load ∈ loads, load.1 = reqId → load.2.localBlockIds = []

/-- It is loaded when its metadata is there or it was reported, and never both.  It is never
transferred; while it is pending, its metadata is there and it did not fail. -/
structure OnlyNotifies {ω : Type} (reqId : ReqId) (loads pending : List (ReqId × ReqMeta))
    (reading : Reading ω) (log : ReceiveLog) : Prop where
  /-- It is loaded exactly when it is tracked or reported. -/
  known : reqId ∈ loads.map Prod.fst ↔ reqId ∈ reading.recvingMetadata ∨ reqId ∈ log.reported
  /-- Reported, it is not tracked. -/
  gone : reqId ∈ log.reported → reqId ∉ reading.recvingMetadata
  /-- It has no transfer. -/
  unread : reqId ∉ reading.recvingTransfers
  /-- It waits once. -/
  pending_once : (pending.map Prod.fst).count reqId ≤ 1
  /-- It waits without blocks. -/
  pending_empty : ∀ entry ∈ pending, entry.1 = reqId → entry.2.localPhysicalBlockIds = []
  /-- Waiting, it is tracked. -/
  pending_known : reqId ∈ pending.map Prod.fst → reqId ∈ reading.recvingMetadata
  /-- Waiting, it has not failed. -/
  pending_sound : reqId ∈ pending.map Prod.fst → reqId ∉ reading.failedRecvReqs
  /-- Failed, it is tracked. -/
  failed_known : reqId ∈ reading.failedRecvReqs → reqId ∈ reading.recvingMetadata

namespace OnlyNotifies

open ReceivingWorker (Received)

variable {ω : Type} {reqId : ReqId} {loads pending : List (ReqId × ReqMeta)}
  {reading next : Reading ω} {log : ReceiveLog}

theorem init (reqId : ReqId) (world : ω) :
    OnlyNotifies reqId [] [] (.init world) ⟨[], ∅, ∅, ∅⟩ where
  known := by
    constructor
    · exact nofun
    · rintro (never | never)
      · cases never
      · cases never
  gone := nofun
  unread := nofun
  pending_once := Nat.zero_le _
  pending_empty := nofun
  pending_known := nofun
  pending_sound := nofun
  failed_known := nofun

theorem perm {others : List (ReqId × ReqMeta)}
    (holds : OnlyNotifies reqId loads pending reading log)
    (same : others.Perm pending) : OnlyNotifies reqId loads others reading log :=
  { holds with
    pending_once := ((same.map Prod.fst).count_eq reqId).trans_le holds.pending_once
    pending_empty := fun entry member => holds.pending_empty entry (same.mem_iff.mp member)
    pending_known := fun member =>
      holds.pending_known ((same.map Prod.fst).mem_iff.mp member)
    pending_sound := fun member =>
      holds.pending_sound ((same.map Prod.fst).mem_iff.mp member) }

/-- A pending request is not read yet, so that something happened to it when it is not pending any
more. -/
theorem notMem_of_pending {entry : ReqId × ReqMeta}
    (holds : OnlyNotifies entry.1 loads (entry :: pending) reading log) :
    entry.1 ∉ pending.map Prod.fst := by
  have once := holds.pending_once
  rw [List.map_cons, List.count_cons_self] at once
  rw [← List.count_eq_zero]
  omega

theorem leave {entry : ReqId × ReqMeta}
    (holds : OnlyNotifies reqId loads (entry :: pending) reading log)
    (alone : LeavesAlone reqId reading next) :
    OnlyNotifies reqId loads pending next (log.note next) where
  known := by
    rw [alone.recvingMetadata]
    exact holds.known
  gone reported := by
    rw [alone.recvingMetadata]
    exact holds.gone reported
  unread member := holds.unread (alone.recvingTransfers member)
  pending_once := by
    have once := holds.pending_once
    rw [List.map_cons, List.count_cons] at once
    omega
  pending_empty other member := holds.pending_empty other (.tail _ member)
  pending_known member := by
    rw [alone.recvingMetadata]
    exact holds.pending_known (.tail _ member)
  pending_sound member failed := holds.pending_sound (.tail _ member) (alone.failedRecvReqs failed)
  failed_known failed := by
    rw [alone.recvingMetadata]
    exact holds.failed_known (alone.failedRecvReqs failed)

theorem fail {entry : ReqId × ReqMeta}
    (holds : OnlyNotifies reqId loads (entry :: pending) reading log) :
    OnlyNotifies reqId loads pending (reading.withFailed entry.1)
      ((log.withFailed entry.1).note (reading.withFailed entry.1)) := by
  by_cases same : entry.1 = reqId
  · subst same
    have left := holds.notMem_of_pending
    have present := holds.pending_known List.mem_cons_self
    exact
      { known := holds.known
        gone := holds.gone
        unread := holds.unread
        pending_once := by
          rw [List.count_eq_zero.mpr left]
          exact Nat.zero_le _
        pending_empty := fun other member => holds.pending_empty other (.tail _ member)
        pending_known := fun member => absurd member left
        pending_sound := fun member => absurd member left
        failed_known := fun _ => present }
  · have alone : LeavesAlone reqId reading (reading.withFailed entry.1) :=
      ⟨rfl, id, fun failed => (AList.mem_add.mp failed).resolve_left (Ne.symm same)⟩
    exact { holds.leave alone with }

theorem load {worker : ReceivingWorker ω} {loaded : ReqId} {saved : ReqMeta} (remote : RemoteMeta)
    (holds : OnlyNotifies reqId loads pending reading log)
    (handed : HandedOverEmpty reqId (loads ++ [(loaded, saved)])) :
    OnlyNotifies reqId (loads ++ [(loaded, saved)])
      ((loaded, worker.inKernelBlocks saved remote) :: pending)
      { reading with
        recvingMetadata :=
          reading.recvingMetadata.set loaded (worker.inKernelBlocks saved remote) } log := by
  by_cases same : loaded = reqId
  · subst same
    have fresh : loaded ∉ loads.map Prod.fst := by
      have once := handed.once
      rw [List.map_append, List.count_append, List.map_singleton, List.count_singleton_self] at once
      rw [← List.count_eq_zero]
      omega
    have absent : loaded ∉ reading.recvingMetadata := fun known =>
      fresh (holds.known.mpr (.inl known))
    have unreported : loaded ∉ log.reported := fun known => fresh (holds.known.mpr (.inr known))
    have apart : loaded ∉ pending.map Prod.fst := fun member => absent (holds.pending_known member)
    have empty : saved.localBlockIds = [] :=
      handed.empty _ (List.mem_append_right _ (List.mem_singleton_self _)) rfl
    refine
      { known := ?_
        gone := fun reported => absurd reported unreported
        unread := holds.unread
        pending_once := ?_
        pending_empty := fun entry member isSame => ?_
        pending_known := fun _ => AList.mem_set.mpr (.inl rfl)
        pending_sound := fun _ failed => absent (holds.failed_known failed)
        failed_known := fun _ => AList.mem_set.mpr (.inl rfl) }
    · rw [List.map_append]
      exact iff_of_true (List.mem_append_right _ (List.mem_singleton_self _))
        (.inl (AList.mem_set.mpr (.inl rfl)))
    · rw [List.map_cons, List.count_cons_self, List.count_eq_zero.mpr apart]
    · rcases List.mem_cons.mp member with rfl | member
      · change worker.kernel.logicalToKernelBlockIds saved.localBlockIds = []
        rw [empty, KernelBlocks.logicalToKernelBlockIds_nil]
      · exact holds.pending_empty entry member isSame
  · have metadata_iff :
        reqId ∈ reading.recvingMetadata.set loaded (worker.inKernelBlocks saved remote) ↔
          reqId ∈ reading.recvingMetadata :=
      AList.mem_set.trans (or_iff_right (Ne.symm same))
    have pending_iff :
        reqId ∈ ((loaded, worker.inKernelBlocks saved remote) :: pending).map Prod.fst ↔
          reqId ∈ pending.map Prod.fst :=
      List.mem_cons.trans (or_iff_right (Ne.symm same))
    refine
      { known := ?_
        gone := fun reported known => holds.gone reported (metadata_iff.mp known)
        unread := holds.unread
        pending_once := ?_
        pending_empty := fun entry member isSame => ?_
        pending_known := fun member =>
          metadata_iff.mpr (holds.pending_known (pending_iff.mp member))
        pending_sound := fun member => holds.pending_sound (pending_iff.mp member)
        failed_known := fun failed => metadata_iff.mpr (holds.failed_known failed) }
    · rw [List.map_append, List.mem_append, metadata_iff, holds.known]
      exact or_iff_left fun member => same (List.mem_singleton.mp member).symm
    · rw [List.map_cons, List.count_cons_of_ne same]
      exact holds.pending_once
    · rcases List.mem_cons.mp member with rfl | member
      · exact absurd isSame same
      · exact holds.pending_empty entry member isSame

theorem mem_done_iff (holds : OnlyNotifies reqId loads pending reading log)
    {checks : XferHandle → XferCheck} {done : KeySet ReqId}
    (received : Received checks reading next done) :
    reqId ∈ done ↔ reqId ∈ reading.failedRecvReqs := by
  rw [received.mem_iff]
  apply or_iff_left
  rintro ⟨handles, known, _⟩
  exact holds.unread (AList.lookup_isSome.mp (Option.isSome_of_eq_some known))

/-- `get_finished` reports the request when it failed, and leaves it alone otherwise. -/
theorem finish (holds : OnlyNotifies reqId loads pending reading log)
    {checks : XferHandle → XferCheck} {done : KeySet ReqId}
    (received : Received checks reading next done) {recvingMetadata : Dict ReqId ReqMeta}
    (keys : next.recvingMetadata.keys.Perm (done.keys ++ recvingMetadata.keys))
    (underway : List (ReqId × XferHandle)) {later : ReceiveLog}
    (isReported : later.reported = log.reported ++ done.keys) :
    OnlyNotifies reqId loads pending { next with recvingMetadata, underway } later := by
  rw [received.recvingMetadata] at keys
  have metadata_iff : reqId ∈ reading.recvingMetadata ↔ reqId ∈ done ∨ reqId ∈ recvingMetadata := by
    rw [AList.mem_keys, keys.mem_iff, List.mem_append]
    rfl
  have apart : reqId ∈ done → reqId ∉ recvingMetadata := fun isDone kept =>
    (List.nodup_append.mp (keys.nodup_iff.mp (AList.keys_nodup _))).2.2 reqId
      (AList.mem_keys.mp isDone) reqId (AList.mem_keys.mp kept) rfl
  refine
    { known := ?_
      gone := fun reported kept => ?_
      unread := fun member => ?_
      pending_once := holds.pending_once
      pending_empty := holds.pending_empty
      pending_known := fun member => ?_
      pending_sound := fun _ => ?_
      failed_known := fun member => ?_ }
  · rw [holds.known, metadata_iff, isReported, List.mem_append, ← AList.mem_keys]
    tauto
  · rw [isReported] at reported
    rcases List.mem_append.mp reported with earlier | now
    · exact holds.gone earlier (metadata_iff.mpr (.inr kept))
    · exact apart (AList.mem_keys.mpr now) kept
  · obtain ⟨handles, known, _⟩ := received.recvingTransfers reqId member
    exact holds.unread (AList.lookup_isSome.mp (Option.isSome_of_eq_some known))
  · refine (metadata_iff.mp (holds.pending_known member)).resolve_left fun isDone => ?_
    exact holds.pending_sound member ((holds.mem_done_iff received).mp isDone)
  · rw [received.failedRecvReqs]
    exact AList.notMem_empty _
  · rw [received.failedRecvReqs] at member
    cases member

end OnlyNotifies

namespace ReceivingWorker

variable {ω : Type}

theorem onlyNotifies_keeps (worker : ReceivingWorker ω) (reqId : ReqId) :
    worker.Keeps (HandedOverEmpty reqId) (fun _ _ => True) (OnlyNotifies reqId) where
  allowed_left {left _} handed :=
    { once := by
        have once := handed.once
        rw [List.map_append, List.count_append] at once
        omega
      empty := fun load member => handed.empty load (List.mem_append_left _ member) }
  perm holds := holds.perm
  world _ holds := { holds with }
  read reader entry holds :=
    holds.leave
      (reader.readBlocksForReq_leavesAlone _ (holds.pending_empty entry List.mem_cons_self))
  fail _ holds := holds.fail
  load remote holds handed := holds.load remote handed
  finish holds _ received keys _ := holds.finish received keys _ rfl
  clear holds := { holds with }

/-! ## What is left of such a request -/

/-- A request was loaded and waits neither for its handshake nor to be read: its notifs were
attempted, or its handshake failed. -/
def Settled (reqId : ReqId) (events : List ReceiveEvent) (receiving : Receiving ω) : Prop :=
  reqId ∈ (events.flatMap ReceiveEvent.loads).map Prod.fst ∧
    reqId ∉ receiving.pending.map Prod.fst

/-- `get_finished` returned in a run after the request was settled. -/
def FinishedAfter (worker : ReceivingWorker ω) (tables : Handshakes ω) (reqId : ReqId)
    (events : List ReceiveEvent) : Prop :=
  ∃ left checks order right middle, events = left ++ .getFinished checks order :: right ∧
    Run.exec worker.step (.init tables) left = .ok middle ∧ Settled reqId left middle

/-- The request was not reported, and once it was settled and the next `get_finished` returned,
its metadata is gone. -/
def Invisible (worker : ReceivingWorker ω) (tables : Handshakes ω) (reqId : ReqId)
    (events : List ReceiveEvent) (final : Receiving ω) : Prop :=
  reqId ∉ final.log.reported ∧
    (FinishedAfter worker tables reqId events → reqId ∉ final.reading.recvingMetadata)

theorem FinishedAfter.loaded {worker : ReceivingWorker ω} {tables : Handshakes ω} {reqId : ReqId}
    {events : List ReceiveEvent} (finished : FinishedAfter worker tables reqId events) :
    reqId ∈ (events.flatMap ReceiveEvent.loads).map Prod.fst := by
  obtain ⟨left, checks, order, right, middle, rfl, _, loaded, _⟩ := finished
  rw [List.flatMap_append, List.map_append]
  exact List.mem_append_left _ loaded

theorem OnlyNotifies.settled {reqId : ReqId} {events : List ReceiveEvent} {receiving : Receiving ω}
    (holds : Meets (OnlyNotifies reqId) (events.flatMap ReceiveEvent.loads) receiving)
    (failed : reqId ∈ receiving.reading.failedRecvReqs) : Settled reqId events receiving :=
  ⟨holds.known.mpr (.inl (holds.failed_known failed)), fun waits =>
    holds.pending_sound waits failed⟩

variable {worker : ReceivingWorker ω} {tables : Handshakes ω} {reqId : ReqId}
  {events : List ReceiveEvent} {final : Receiving ω}

theorem exec_onlyNotifies (handed : HandedOverEmpty reqId (events.flatMap ReceiveEvent.loads))
    (reached : Run.exec worker.step (.init tables) events = .ok final) :
    Meets (OnlyNotifies reqId) (events.flatMap ReceiveEvent.loads) final := by
  have start : Meets (OnlyNotifies reqId) [] (Receiving.init tables) := .init reqId tables.world
  have anyway : Run.Throughout worker.step (Asks fun _ _ => True) (.init tables) events := by
    apply Run.throughout_of_forall
    intro _ event _ _ _ _
    cases event <;> trivial
  exact (onlyNotifies_keeps worker reqId).exec start handed anyway reached

/-- While `get_finished` is asked only before the request fails, it is not reported. -/
theorem unreported_keeps (worker : ReceivingWorker ω) (reqId : ReqId) :
    worker.Keeps (HandedOverEmpty reqId) (fun reading _ => reqId ∉ reading.failedRecvReqs)
      (fun loads pending reading log =>
        OnlyNotifies reqId loads pending reading log ∧ reqId ∉ log.reported) where
  allowed_left := (onlyNotifies_keeps worker reqId).allowed_left
  perm holds same := ⟨holds.1.perm same, holds.2⟩
  world world holds := ⟨(onlyNotifies_keeps worker reqId).world world holds.1, holds.2⟩
  read reader entry holds := ⟨(onlyNotifies_keeps worker reqId).read reader entry holds.1, holds.2⟩
  fail _ holds := ⟨holds.1.fail, holds.2⟩
  load remote holds handed := ⟨holds.1.load remote handed, holds.2⟩
  finish holds sound received keys _ := by
    refine ⟨holds.1.finish received keys _ rfl, fun reported => ?_⟩
    rcases List.mem_append.mp reported with earlier | now
    · exact holds.2 earlier
    · exact sound ((holds.1.mem_done_iff received).mp (AList.mem_keys.mpr now))
  clear holds := ⟨(onlyNotifies_keeps worker reqId).clear holds.1, holds.2⟩

/-- As long as no `get_finished` returned after the request was settled, it is not reported. -/
theorem unreported_of_not_finishedAfter
    (handed : HandedOverEmpty reqId (events.flatMap ReceiveEvent.loads))
    (reached : Run.exec worker.step (.init tables) events = .ok final)
    (unfinished : ¬ FinishedAfter worker tables reqId events) : reqId ∉ final.log.reported := by
  have sound : Run.Throughout worker.step
      (Asks fun reading _ => reqId ∉ reading.failedRecvReqs) (.init tables) events := by
    apply Run.throughout_of_forall
    intro left event right middle split before
    cases event with
    | getFinished checks order =>
        intro failed
        rw [split, List.flatMap_append] at handed
        have holds :=
          exec_onlyNotifies ((onlyNotifies_keeps worker reqId).allowed_left handed) before
        exact unfinished ⟨left, checks, order, right, middle, split, before,
          OnlyNotifies.settled holds failed⟩
    | _ => trivial
  have keeps := unreported_keeps worker reqId
  exact (keeps.exec ⟨.init reqId tables.world, List.not_mem_nil⟩ handed sound reached).2

theorem reported_iff_of_finishedAfter
    (handed : HandedOverEmpty reqId (events.flatMap ReceiveEvent.loads))
    (reached : Run.exec worker.step (.init tables) events = .ok final)
    (finished : FinishedAfter worker tables reqId events) :
    reqId ∈ final.log.reported ↔ reqId ∉ final.reading.recvingMetadata := by
  have holds := exec_onlyNotifies handed reached
  have traced := holds.known.mp finished.loaded
  exact ⟨holds.gone, traced.resolve_left⟩

/-- **Notify-only receives.**  In every run, a request that is handed over without local blocks is
invisible exactly when no `get_finished` returned after it was settled. -/
theorem invisible_iff (handed : HandedOverEmpty reqId (events.flatMap ReceiveEvent.loads))
    (reached : Run.exec worker.step (.init tables) events = .ok final) :
    Invisible worker tables reqId events final ↔ ¬ FinishedAfter worker tables reqId events := by
  constructor
  · rintro ⟨unreported, forgotten⟩ finished
    have traced := reported_iff_of_finishedAfter handed reached finished
    exact unreported (traced.mpr (forgotten finished))
  · intro unfinished
    exact ⟨unreported_of_not_finishedAfter handed reached unfinished,
      fun finished => absurd finished unfinished⟩

/-! ## A full prefix hit -/

/-- A request all of whose blocks are computed. -/
def cachedRequest : ReqMeta :=
  { halvesRequest with localBlockIds := [], localPhysicalBlockIds := [] }

/-- The request is loaded, and its handshake ends. -/
def loadCached (answers : ℕ → Except PyError HandshakePayload) : List ReceiveEvent :=
  [.startLoadKv [.request "request" cachedRequest], .handshakeDone "prefill" answers,
    .startLoadKv []]

/-- And then `get_finished` is called. -/
def finishCached (answers : ℕ → Except PyError HandshakePayload) : List ReceiveEvent :=
  loadCached answers ++ [.getFinished (allChecks .done) listOrder]

/-- Only the first remote rank answers. -/
def firstAnswers : ℕ → Except PyError HandshakePayload
  | 0 => HandshakeWorker.halfGroup.answers 0
  | _ + 1 => .error .runtimeError

theorem loadCached_handedOverEmpty (answers : ℕ → Except PyError HandshakePayload) :
    HandedOverEmpty "request" ((loadCached answers).flatMap ReceiveEvent.loads) where
  once := List.count_singleton_self.le
  empty load member _ := by
    rw [List.mem_singleton.mp member]
    rfl

theorem finishCached_handedOverEmpty (answers : ℕ → Except PyError HandshakePayload) :
    HandedOverEmpty "request" ((finishCached answers).flatMap ReceiveEvent.loads) :=
  loadCached_handedOverEmpty answers

theorem invisible_iff_loadCached :
    ∃ final, Run.exec pickyWorker.step (.init HandshakeWorker.loneStart)
        (loadCached HandshakeWorker.halfGroup.answers) = .ok final ∧
      (Invisible pickyWorker HandshakeWorker.loneStart "request"
          (loadCached HandshakeWorker.halfGroup.answers) final ↔
        ¬ FinishedAfter pickyWorker HandshakeWorker.loneStart "request"
          (loadCached HandshakeWorker.halfGroup.answers)) := by
  have runs : (Run.exec pickyWorker.step (.init HandshakeWorker.loneStart)
      (loadCached HandshakeWorker.halfGroup.answers)).toOption.any (fun _ => true) = true := by
    decide +kernel
  obtain ⟨final, reached, _⟩ := Run.exists_of_any runs
  exact ⟨final, reached, invisible_iff (loadCached_handedOverEmpty _) reached⟩

theorem finishCached_finishedAfter {answers : ℕ → Except PyError HandshakePayload}
    (settles : (Run.exec pickyWorker.step (.init HandshakeWorker.loneStart)
      (loadCached answers)).toOption.any (fun middle => decide (middle.pending.isEmpty)) = true) :
    FinishedAfter pickyWorker HandshakeWorker.loneStart "request" (finishCached answers) := by
  obtain ⟨middle, reached, settled⟩ := Run.exists_of_any settles
  have idle : middle.pending = [] := List.isEmpty_iff.mp (of_decide_eq_true settled)
  refine ⟨loadCached answers, allChecks .done, listOrder, [], middle, rfl, reached,
    List.mem_singleton_self _, ?_⟩
  rw [idle]
  exact List.not_mem_nil

/-- After a full prefix hit the metadata of the request stays, and after a failed handshake the
request is reported. -/
theorem not_invisible_finishCached :
    HandedOverEmpty "request"
      ((finishCached HandshakeWorker.halfGroup.answers).flatMap ReceiveEvent.loads) ∧
    (∃ final, Run.exec pickyWorker.step (.init HandshakeWorker.loneStart)
        (finishCached HandshakeWorker.halfGroup.answers) = .ok final ∧
      ¬ Invisible pickyWorker HandshakeWorker.loneStart "request"
        (finishCached HandshakeWorker.halfGroup.answers) final) ∧
    HandedOverEmpty "request" ((finishCached firstAnswers).flatMap ReceiveEvent.loads) ∧
    ∃ final, Run.exec pickyWorker.step (.init HandshakeWorker.loneStart)
        (finishCached firstAnswers) = .ok final ∧
      "request" ∈ final.log.reported := by
  refine ⟨finishCached_handedOverEmpty _, ?_, finishCached_handedOverEmpty _, ?_⟩
  · have leaks : (Run.exec pickyWorker.step (.init HandshakeWorker.loneStart)
        (finishCached HandshakeWorker.halfGroup.answers)).toOption.any
          (fun final => decide ("request" ∈ final.reading.recvingMetadata)) = true := by
      decide +kernel
    obtain ⟨final, reached, present⟩ := Run.exists_of_any leaks
    refine ⟨final, reached, fun invisible => ?_⟩
    exact invisible.2 (finishCached_finishedAfter (by decide +kernel)) (of_decide_eq_true present)
  · have reports : (Run.exec pickyWorker.step (.init HandshakeWorker.loneStart)
        (finishCached firstAnswers)).toOption.any
          (fun final => decide ("request" ∈ final.log.reported)) = true := by
      decide +kernel
    obtain ⟨final, reached, reported⟩ := Run.exists_of_any reports
    exact ⟨final, reached, of_decide_eq_true reported⟩

end ReceivingWorker

end RduHdi
