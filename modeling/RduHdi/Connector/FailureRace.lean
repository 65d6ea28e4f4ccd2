import RduHdi.Connector.Receiving

/-!
# Failures that land between two statements

A handshake that fails is put down by its thread with two set operations, and the main thread
reads what was put down with two others: it copies the failed requests and then clears them, and
it takes the invalid blocks and then starts a new set.  The two threads take turns in any order.
What is added between a copy and its clearing is gone; what is added to the blocks between taking
the set and replacing it goes into the set that is handed out.
-/

namespace RduHdi

/-- Where the main thread is. -/
inductive MainThread where
  | idle
  /-- In `get_finished`, after the copy. -/
  | copied
  /-- In `get_block_ids_with_load_errors`, with the set in hand. -/
  | taken
  deriving DecidableEq

/-- The sets that the two threads share, and where each of them is. -/
structure SharedFailures where
  /-- `_invalid_block_ids`. -/
  invalidBlockIds : KeySet ℕ
  /-- `_failed_recv_reqs`. -/
  failedRecvReqs : KeySet ReqId
  /-- The request that the handshake thread is in the middle of failing. -/
  failing : Option ReqId
  /-- Where the main thread is. -/
  main : MainThread

/-- One set operation. -/
inductive FailureTurn where
  /-- `_invalid_block_ids.update(...)`, with the blocks of the request. -/
  | updateInvalid (reqId : ReqId) (blockIds : List ℕ)
  /-- `_failed_recv_reqs.add(req_id)`. -/
  | addFailed (reqId : ReqId)
  /-- `done_recving.update(self._failed_recv_reqs)`. -/
  | copyFailed
  /-- `_failed_recv_reqs.clear()`. -/
  | clearFailed
  /-- `result = self._invalid_block_ids`. -/
  | takeInvalid
  /-- `self._invalid_block_ids = set()`. -/
  | replaceInvalid
  deriving DecidableEq

namespace SharedFailures

def init : SharedFailures where
  invalidBlockIds := ∅
  failedRecvReqs := ∅
  failing := none
  main := .idle

/-- A turn; a thread takes its turns in the order of its code. -/
def step (failures : SharedFailures) : FailureTurn → Except Unit SharedFailures
  | .updateInvalid reqId blockIds =>
      if failures.failing = none then
        .ok
          { failures with
            invalidBlockIds := failures.invalidBlockIds.addAll blockIds
            failing := some reqId }
      else
        .error ()
  | .addFailed reqId =>
      if failures.failing = some reqId then
        .ok
          { failures with
            failedRecvReqs := failures.failedRecvReqs.add reqId
            failing := none }
      else
        .error ()
  | .copyFailed =>
      if failures.main = .idle then .ok { failures with main := .copied } else .error ()
  | .clearFailed =>
      if failures.main = .copied then
        .ok { failures with failedRecvReqs := ∅, main := .idle }
      else
        .error ()
  | .takeInvalid =>
      if failures.main = .idle then .ok { failures with main := .taken } else .error ()
  | .replaceInvalid =>
      if failures.main = .taken then
        .ok { failures with invalidBlockIds := ∅, main := .idle }
      else
        .error ()

/-- What a call of `get_finished` reports: the copy it makes. -/
def reports (failures : SharedFailures) : FailureTurn → List ReqId
  | .copyFailed => failures.failedRecvReqs.keys
  | _ => []

/-- What a call of `get_block_ids_with_load_errors` returns.  It holds the set itself, so what is
added before the set is replaced is in it. -/
def returns (failures : SharedFailures) : FailureTurn → List ℕ
  | .replaceInvalid => failures.invalidBlockIds.keys
  | _ => []

/-- The request that a turn puts down as failed. -/
def failedBy : FailureTurn → Option ReqId
  | .addFailed reqId => some reqId
  | _ => none

/-! ## Calls without interruption -/

/-- The sets of a worker, between two calls. -/
def ofReading {ω : Type} (reading : Reading ω) : SharedFailures where
  invalidBlockIds := reading.invalidBlockIds
  failedRecvReqs := reading.failedRecvReqs
  failing := none
  main := .idle

/-- The blocks that a failed request marks. -/
def blocksOf {ω : Type} (reading : Reading ω) (reqId : ReqId) : List ℕ :=
  ((reading.recvingMetadata.lookup reqId).map ReqMeta.localBlockIds).getD []

theorem exec_failRequest {ω : Type} (receiving : Receiving ω) (entry : ReqId × ReqMeta) :
    Run.exec step (ofReading receiving.reading)
      [.updateInvalid entry.1 (blocksOf receiving.reading entry.1), .addFailed entry.1] =
        .ok (ofReading (ReceivingWorker.failRequest receiving entry).reading) := by
  have marked : receiving.reading.invalidBlockIds.addAll (blocksOf receiving.reading entry.1) =
      receiving.reading.withInvalid entry.1 := by
    rw [blocksOf, Reading.withInvalid]
    cases receiving.reading.recvingMetadata.lookup entry.1 <;> rfl
  simp only [Run.exec, step, ofReading, marked, if_true]
  rfl

theorem exec_doneRecving {ω : Type} (worker : ReceivingWorker ω) (checks : XferHandle → XferCheck)
    (reading : Reading ω) :
    let popped := worker.popLoop checks reading.recvingTransfers.entries ∅ reading
    Run.exec step (ofReading popped.1) [.copyFailed, .clearFailed] =
        .ok (ofReading (worker.doneRecving checks reading).1) ∧
      (worker.doneRecving checks reading).2 = popped.2.addAll
        (Run.observe step reports (ofReading popped.1) [.copyFailed, .clearFailed]) := by
  intro popped
  simp only [Run.exec, Run.observe, step, reports, ofReading, if_true, List.append_nil]
  exact ⟨rfl, rfl⟩

theorem exec_getBlockIdsWithLoadErrors {ω : Type} (receiving : Receiving ω) :
    Run.exec step (ofReading receiving.reading) [.takeInvalid, .replaceInvalid] =
        .ok (ofReading (ReceivingWorker.getBlockIdsWithLoadErrors receiving).1.reading) ∧
      Run.observe step returns (ofReading receiving.reading) [.takeInvalid, .replaceInvalid] =
        (ReceivingWorker.getBlockIdsWithLoadErrors receiving).2.keys := by
  simp only [Run.exec, Run.observe, step, returns, ofReading, if_true, List.append_nil]
  exact ⟨rfl, rfl⟩

/-! ## Runs -/

/-- What a turn does to the failed requests and to the main thread. -/
inductive Turned (failures : SharedFailures) : FailureTurn → SharedFailures → Prop where
  | other {turn : FailureTurn} {next : SharedFailures} (silent : failedBy turn = none)
      (plain : turn ≠ .copyFailed ∧ turn ≠ .clearFailed)
      (same : next.failedRecvReqs = failures.failedRecvReqs)
      (copied : next.main = .copied ↔ failures.main = .copied) : Turned failures turn next
  | added {reqId : ReqId} {next : SharedFailures}
      (failed : next.failedRecvReqs = failures.failedRecvReqs.add reqId)
      (main : next.main = failures.main) : Turned failures (.addFailed reqId) next
  | copied {next : SharedFailures} (idle : failures.main = .idle)
      (same : next.failedRecvReqs = failures.failedRecvReqs) (main : next.main = .copied) :
      Turned failures .copyFailed next
  | cleared {next : SharedFailures} (copied : failures.main = .copied)
      (empty : next.failedRecvReqs = ∅) (main : next.main = .idle) :
      Turned failures .clearFailed next

theorem turned_of_step {failures next : SharedFailures} {turn : FailureTurn}
    (taken : step failures turn = .ok next) : Turned failures turn next := by
  cases turn with
  | updateInvalid reqId blockIds =>
      rw [step] at taken
      split at taken
      · cases taken
        exact .other rfl (by simp) rfl Iff.rfl
      · cases taken
  | addFailed reqId =>
      rw [step] at taken
      split at taken
      · cases taken
        exact .added rfl rfl
      · cases taken
  | copyFailed =>
      rw [step] at taken
      split at taken
      · rename_i idle
        cases taken
        exact .copied idle rfl rfl
      · cases taken
  | clearFailed =>
      rw [step] at taken
      split at taken
      · rename_i copied
        cases taken
        exact .cleared copied rfl rfl
      · cases taken
  | takeInvalid =>
      rw [step] at taken
      split at taken
      · rename_i idle
        cases taken
        exact .other rfl (by simp) rfl (by simp [idle])
      · cases taken
  | replaceInvalid =>
      rw [step] at taken
      split at taken
      · rename_i held
        cases taken
        exact .other rfl (by simp) rfl (by simp [held])
      · cases taken

/-- How often a request is reported from a state on. -/
def reportCount (failures : SharedFailures) (turns : List FailureTurn) (reqId : ReqId) : ℕ :=
  (Run.observe step reports failures turns).count reqId

section Counts

variable {failures final : SharedFailures} {turns : List FailureTurn} {reqId : ReqId}

theorem reportCount_cons {next : SharedFailures} {turn : FailureTurn}
    (taken : step failures turn = .ok next) :
    reportCount failures (turn :: turns) reqId =
      (reports failures turn).count reqId + reportCount next turns reqId := by
  rw [reportCount, Run.observe_cons taken, List.count_append, reportCount]

theorem count_reports (failures : SharedFailures) (turn : FailureTurn) (reqId : ReqId) :
    (reports failures turn).count reqId =
      if turn = .copyFailed ∧ reqId ∈ failures.failedRecvReqs then 1 else 0 := by
  cases turn with
  | copyFailed =>
      rw [reports]
      by_cases present : reqId ∈ failures.failedRecvReqs
      · rw [if_pos ⟨rfl, present⟩]
        exact List.count_eq_one_of_mem (AList.keys_nodup _) (AList.mem_keys.mp present)
      · rw [if_neg fun both => present both.2]
        exact List.count_eq_zero_of_not_mem fun member => present (AList.mem_keys.mpr member)
  | updateInvalid | addFailed | clearFailed | takeInvalid | replaceInvalid => simp [reports]

theorem never_cons {turn : FailureTurn} (never : reqId ∉ (turn :: turns).filterMap failedBy) :
    failedBy turn ≠ some reqId ∧ reqId ∉ turns.filterMap failedBy := by
  simp only [List.mem_filterMap, List.exists_mem_cons_iff, not_or] at never ⊢
  exact never

/-- A request that is not there, and is not put down, is never reported. -/
theorem reportCount_of_notMem (ran : Run.exec step failures turns = .ok final)
    (absent : reqId ∉ failures.failedRecvReqs) (never : reqId ∉ turns.filterMap failedBy) :
    reqId ∉ final.failedRecvReqs ∧ reportCount failures turns reqId = 0 := by
  induction turns generalizing failures with
  | nil =>
      cases ran
      exact ⟨absent, rfl⟩
  | cons turn turns ih =>
      obtain ⟨next, taken, rest⟩ := Run.exec_cons_eq_ok.mp ran
      obtain ⟨other, later⟩ := never_cons never
      have still : reqId ∉ next.failedRecvReqs := by
        cases turned_of_step taken with
        | other _ _ same _ => rwa [same]
        | @added added _ failed _ =>
            rw [failed, AList.mem_add, not_or]
            exact ⟨fun same => other (congrArg some same.symm), absent⟩
        | copied _ same _ => rwa [same]
        | cleared _ empty _ =>
            rw [empty]
            exact AList.notMem_empty reqId
      obtain ⟨gone, none_later⟩ := ih rest still later
      rw [reportCount_cons taken, count_reports, none_later, if_neg fun both => absent both.2]
      exact ⟨gone, rfl⟩

/-- Between the copy and the clearing a request is not reported any more. -/
theorem reportCount_of_copied (ran : Run.exec step failures turns = .ok final)
    (copied : failures.main = .copied) (never : reqId ∉ turns.filterMap failedBy) :
    reportCount failures turns reqId = 0 := by
  induction turns generalizing failures with
  | nil => rfl
  | cons turn turns ih =>
      obtain ⟨next, taken, rest⟩ := Run.exec_cons_eq_ok.mp ran
      obtain ⟨_, later⟩ := never_cons never
      rw [reportCount_cons taken, count_reports]
      cases turned_of_step taken with
      | other _ plain _ still =>
          rw [if_neg fun both => plain.1 both.1, ih rest (still.mpr copied) later]
      | added _ main =>
          rw [if_neg fun both => (nomatch both.1), ih rest (main.trans copied) later]
      | copied idle _ _ =>
          rw [copied] at idle
          cases idle
      | cleared _ empty _ =>
          have absent : reqId ∉ next.failedRecvReqs := by
            rw [empty]
            exact AList.notMem_empty reqId
          rw [if_neg fun both => (nomatch both.1), (reportCount_of_notMem rest absent later).2]

/-- A request that is there before the copy is reported by the next copy, and by no other. -/
theorem reportCount_of_mem (ran : Run.exec step failures turns = .ok final)
    (held : reqId ∈ failures.failedRecvReqs) (before : failures.main ≠ .copied)
    (never : reqId ∉ turns.filterMap failedBy) :
    reportCount failures turns reqId = if .copyFailed ∈ turns then 1 else 0 := by
  induction turns generalizing failures with
  | nil => rfl
  | cons turn turns ih =>
      obtain ⟨next, taken, rest⟩ := Run.exec_cons_eq_ok.mp ran
      obtain ⟨_, later⟩ := never_cons never
      rw [reportCount_cons taken, count_reports]
      cases turned_of_step taken with
      | other _ plain same still =>
          rw [if_neg fun both => plain.1 both.1,
            ih rest (same ▸ held) (fun copied => before (still.mp copied)) later]
          simp [Ne.symm plain.1]
      | added failed main =>
          have kept : reqId ∈ next.failedRecvReqs := by
            rw [failed, AList.mem_add]
            exact Or.inr held
          rw [if_neg fun both => (nomatch both.1), ih rest kept (main ▸ before) later]
          simp
      | copied _ _ main =>
          rw [if_pos ⟨rfl, held⟩, reportCount_of_copied rest main later,
            if_pos List.mem_cons_self]
      | cleared copied _ _ => exact absurd copied before

/-- A request that was put down once is reported by one later copy, unless it was put down between
a copy and its clearing: then no copy reports it. -/
theorem reportCount_of_addFailed {middle : SharedFailures} {before after : List FailureTurn}
    (ran : Run.exec step init (before ++ .addFailed reqId :: after) = .ok final)
    (reached : Run.exec step init before = .ok middle)
    (once : ((before ++ .addFailed reqId :: after).filterMap failedBy).Nodup) :
    reportCount init (before ++ .addFailed reqId :: after) reqId =
      if .copyFailed ∈ after ∧ middle.main ≠ .copied then 1 else 0 := by
  obtain ⟨other, same, rest⟩ := Run.exec_append_eq_ok.mp ran
  obtain rfl := Except.ok.inj (same.symm.trans reached)
  obtain ⟨next, taken, rest⟩ := Run.exec_cons_eq_ok.mp rest
  have names : (.addFailed reqId :: after).filterMap failedBy =
      reqId :: after.filterMap failedBy := rfl
  rw [List.filterMap_append, names] at once
  have neverBefore : reqId ∉ before.filterMap failedBy := fun member =>
    (List.nodup_append.mp once).2.2 reqId member reqId List.mem_cons_self rfl
  have neverAfter : reqId ∉ after.filterMap failedBy :=
    (List.nodup_cons.mp (List.nodup_append.mp once).2.1).1
  have nothingBefore :=
    (reportCount_of_notMem reached (AList.notMem_empty reqId) neverBefore).2
  have split : reportCount init (before ++ .addFailed reqId :: after) reqId =
      reportCount init before reqId +
        (reportCount other [] reqId + reportCount next after reqId) := by
    simp only [reportCount, Run.observe_append reached, Run.observe_cons taken, List.count_append]
    rfl
  rw [split, nothingBefore]
  cases turned_of_step taken with
  | other silent _ _ _ => cases silent
  | added failed main =>
      have held : reqId ∈ next.failedRecvReqs := by
        rw [failed, AList.mem_add]
        exact Or.inl rfl
      by_cases copied : other.main = .copied
      · rw [reportCount_of_copied rest (main.trans copied) neverAfter,
          if_neg fun both => both.2 copied]
        rfl
      · rw [reportCount_of_mem rest held (main ▸ copied) neverAfter]
        simp [copied, reportCount]

end Counts

/-- Each failed request is reported by one call, when a call copies after it was put down. -/
def ReportedOnce (turns : List FailureTurn) : Prop :=
  ∀ before reqId after, turns = before ++ .addFailed reqId :: after → .copyFailed ∈ after →
    reportCount init turns reqId = 1

/-- No request that a later call would report is put down between a copy and its clearing. -/
def NeverBetween (turns : List FailureTurn) : Prop :=
  ∀ before reqId after middle, turns = before ++ .addFailed reqId :: after →
    .copyFailed ∈ after → Run.exec step init before = .ok middle → middle.main ≠ .copied

/-- In a run in which every request fails once, each failed request is reported once exactly when
none is put down between a copy and its clearing. -/
theorem reportedOnce_iff {turns : List FailureTurn} {final : SharedFailures}
    (ran : Run.exec step init turns = .ok final) (once : (turns.filterMap failedBy).Nodup) :
    ReportedOnce turns ↔ NeverBetween turns := by
  constructor
  · rintro reported before reqId after middle rfl copies reached copied
    have one := reported before reqId after rfl copies
    rw [reportCount_of_addFailed ran reached once, if_neg fun both => both.2 copied] at one
    cases one
  · rintro apart before reqId after rfl copies
    obtain ⟨middle, reached, _⟩ := Run.exec_append_eq_ok.mp ran
    rw [reportCount_of_addFailed ran reached once,
      if_pos ⟨copies, apart before reqId after middle rfl copies reached⟩]

/-! ## The invalid blocks -/

/-- The blocks that a turn marks. -/
def marks : FailureTurn → List ℕ
  | .updateInvalid _ blockIds => blockIds
  | _ => []

theorem mem_invalidBlockIds_of_step (block : ℕ) {failures next : SharedFailures}
    {turn : FailureTurn} (taken : step failures turn = .ok next) :
    block ∈ failures.invalidBlockIds ∨ block ∈ marks turn ↔
      block ∈ next.invalidBlockIds ∨ block ∈ returns failures turn := by
  cases turn with
  | updateInvalid reqId blockIds =>
      rw [step] at taken
      split at taken
      · cases taken
        simp [marks, returns, or_comm]
      · cases taken
  | replaceInvalid =>
      rw [step] at taken
      split at taken
      · cases taken
        simp [marks, returns, AList.mem_keys]
      · cases taken
  | addFailed | copyFailed | clearFailed | takeInvalid =>
      rw [step] at taken
      split at taken
      · cases taken
        rfl
      · cases taken

/-- A block that was marked is still marked or was returned, however the two threads take turns:
the set that is handed out is the one that the handshake thread adds to. -/
theorem mem_marks_iff {failures final : SharedFailures} {turns : List FailureTurn} {block : ℕ}
    (ran : Run.exec step failures turns = .ok final) :
    block ∈ failures.invalidBlockIds ∨ block ∈ turns.flatMap marks ↔
      block ∈ final.invalidBlockIds ∨ block ∈ Run.observe step returns failures turns := by
  induction turns generalizing failures with
  | nil =>
      cases ran
      simp
  | cons turn turns ih =>
      obtain ⟨next, taken, rest⟩ := Run.exec_cons_eq_ok.mp ran
      have one := mem_invalidBlockIds_of_step block taken
      rw [List.flatMap_cons, List.mem_append, ← or_assoc, one, or_right_comm, ih rest,
        Run.observe_cons taken, List.mem_append]
      tauto

/-! ## A lost failure -/

/-- The second of two calls starts after a failure that landed in the middle of the first. -/
def lostFailure : List FailureTurn :=
  [.copyFailed, .updateInvalid "cmpl-0" [7], .addFailed "cmpl-0", .clearFailed, .copyFailed,
    .clearFailed]

/-- No call reports the failure. -/
theorem not_reportedOnce_lostFailure :
    (Run.exec step init lostFailure).isOk ∧ ¬ ReportedOnce lostFailure := by
  refine ⟨by decide +kernel, fun reported => ?_⟩
  have one := reported [.copyFailed, .updateInvalid "cmpl-0" [7]] "cmpl-0"
    [.clearFailed, .copyFailed, .clearFailed] rfl (by decide)
  exact absurd one (by decide +kernel)

/-- The failure lands before the first call. -/
def keptFailure : List FailureTurn :=
  [.updateInvalid "cmpl-0" [7], .addFailed "cmpl-0", .copyFailed, .clearFailed, .copyFailed,
    .clearFailed]

theorem reportedOnce_keptFailure : ReportedOnce keptFailure := by
  have ran : Run.exec step init keptFailure = .ok
      { invalidBlockIds := (∅ : KeySet ℕ).add 7
        failedRecvReqs := ∅
        failing := none
        main := .idle } := rfl
  rw [reportedOnce_iff ran (by decide)]
  intro before reqId after middle split copies reached
  obtain rfl : before = [.updateInvalid "cmpl-0" [7]] := by
    simp [keptFailure, List.cons_eq_append_iff] at split
    exact split.1
  obtain rfl := Except.ok.inj reached
  exact nofun

end SharedFailures

end RduHdi
