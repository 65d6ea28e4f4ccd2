import RduHdi.Connector.ProducerSystem

/-!
# Release by timeout

The release of expired requests stops at the first entry that has not expired.  With a clock that
does not go back, every expiration goes behind the earlier ones, in the scheduler's map, in the
metadata and in the worker's map, so the entries behind the stop have not expired either.
-/

namespace RduHdi

namespace ProducerSystem

open ExpiryQueue

variable {config : SchedulerConfig} {worker : SendingWorker}

/-- The clock read by the calls of `request_finished` does not go back. -/
def ClockSteady (events : List SystemEvent) : Prop :=
  (finishCalls events).Pairwise fun first second => first.now ≤ second.now

instance (events : List SystemEvent) : Decidable (ClockSteady events) :=
  inferInstanceAs (Decidable (List.Pairwise _ _))

theorem ClockSteady.of_append {left right : List SystemEvent}
    (steady : ClockSteady (left ++ right)) : ClockSteady left := by
  rw [ClockSteady, finishCalls_append] at steady
  exact (List.pairwise_append.mp steady).1

/-- An event keeps the expirations sorted on their whole way. -/
theorem sorted_of_moves {history : List SystemEvent} {event : SystemEvent}
    {system next : ProducerSystem} (consistent : Consistent config history system)
    (sorted : Sorted system.expirations) (once : FinishOnce (history ++ [event]))
    (steady : ClockSteady (history ++ [event])) (moves : Moves config event system next) :
    Sorted next.expirations := by
  cases moves with
  | drops fewer => exact sorted.sublist fewer
  | appends call finishes _ shape =>
      rw [shape (fresh_of_appends consistent once finishes)]
      apply sorted.snoc
      intro other member
      obtain ⟨earlier, inside, _, _, deadline⟩ := consistent.expiring other member
      rw [ClockSteady, finishCalls_append, finishes] at steady
      have ordered := (List.pairwise_append.mp steady).2.2 earlier inside call List.mem_cons_self
      rw [deadline]
      exact add_le_add_left ordered config.abortRequestTimeout

theorem sorted_exec {events : List SystemEvent} {final : ProducerSystem}
    (once : FinishOnce events) (steady : ClockSteady events)
    (taken : Run.exec (step config worker) init events = .ok final) :
    Sorted final.expirations := by
  let invariant (history : List SystemEvent) (system : ProducerSystem) : Prop :=
    FinishOnce history → ClockSteady history → Sorted system.expirations
  suffices holds : invariant events final from holds once steady
  refine Run.history_induction (fun _ _ => List.Pairwise.nil) ?_ taken
  intro history middle event next before ih moved once steady
  have consistent := consistent_exec once.of_append before
  have moves := (consistent_step consistent once moved).2
  exact sorted_of_moves consistent (ih once.of_append steady.of_append) once steady moves

theorem mem_keys_released {deadlines : Dict ReqId ℚ} {now : ℚ} {reqId : ReqId}
    (sorted : Sorted deadlines.entries) : reqId ∈ (released now deadlines.entries).keys ↔
      ∃ expires, deadlines.lookup reqId = some expires ∧ expires ≤ now := by
  constructor
  · intro member
    obtain ⟨entry, inside, rfl⟩ := List.mem_map.mp member
    obtain ⟨present, passed⟩ := (mem_released_iff sorted).mp inside
    exact ⟨entry.2, AList.mem_lookup_iff.mpr present, passed⟩
  · rintro ⟨expires, present, passed⟩
    have inside : (⟨reqId, expires⟩ : Σ _ : ReqId, ℚ) ∈ released now deadlines.entries :=
      (mem_released_iff sorted).mpr ⟨AList.mem_lookup_iff.mp present, passed⟩
    exact List.mem_map_of_mem inside

/-- **Timeout release is exact.**  In every run with a steady clock in which ids finish once, the
expirations are sorted from the worker's map to the scheduler's, and a `get_finished` whose notifs
leave the worker in `middle` releases by timeout exactly the ids whose deadline has passed. -/
theorem timeout_release_exact {events : List SystemEvent} {final : ProducerSystem}
    (once : FinishOnce events) (steady : ClockSteady events)
    (taken : Run.exec (step config worker) init events = .ok final) :
    Sorted final.expirations ∧ Sorted final.sending.reqsToSend.entries ∧
      ∀ notifs now middle notified,
        worker.getNewNotifs final.sending notifs = (middle, .ok notified) →
          Sorted middle.reqsToSend.entries ∧
          ∃ next done, worker.getFinished final.sending notifs now = (next, .ok done) ∧
            (∀ reqId, reqId ∈ done ↔ reqId ∈ notified ∨
              ∃ expires, middle.reqsToSend.lookup reqId = some expires ∧ expires ≤ now) ∧
            ∀ reqId expires, next.reqsToSend.lookup reqId = some expires ↔
              middle.reqsToSend.lookup reqId = some expires ∧ now < expires := by
  have sorted := sorted_exec once steady taken
  have workerSorted : Sorted final.sending.reqsToSend.entries :=
    sorted.sublist (List.sublist_append_left _ _)
  refine ⟨sorted, workerSorted, ?_⟩
  intro notifs now middle notified notifsTaken
  have tracked := (consistent_exec once taken).tracked
  obtain ⟨_, fewer⟩ := SendingWorker.getNewNotifs_eq_ok notifsTaken tracked
  obtain ⟨next, done, finished, expired, _⟩ :=
    SendingWorker.getFinished_of_notified notifsTaken tracked now
  have middleSorted : Sorted middle.reqsToSend.entries := workerSorted.sublist fewer
  refine ⟨middleSorted, next, done, finished, fun reqId => ?_, fun reqId expires => ?_⟩
  · rw [expired.done, or_comm, mem_keys_released middleSorted]
  · rw [← Option.mem_def, AList.mem_lookup_iff, expired.send, mem_kept_iff middleSorted,
      ← AList.mem_lookup_iff, Option.mem_def]

/-- Two requests are prefilled and finish one after the other. -/
def twoFinishes : List SystemEvent :=
  let first : Request := .remoteDecode "a" [31, 32]
  let second : Request := .remoteDecode "b" [41, 42]
  [.schedule (.alloc first [5] 0 0), .schedule (.alloc second [6] 0 0),
    .schedule (.build ⟨[], List.nodup_nil⟩), .startLoadKv,
    .schedule (.finish first .finishedLengthCapped [5] 1),
    .schedule (.finish second .finishedLengthCapped [6] 2),
    .schedule (.build ⟨[], List.nodup_nil⟩), .startLoadKv]

/-- When only the first has expired, only the first is released. -/
theorem timeout_release_exact_twoFinishes :
    ∃ final, Run.exec (step (.withDefaults false false) (.ofSize 1)) init twoFinishes =
        .ok final ∧
      ∃ next done, (SendingWorker.ofSize 1).getFinished final.sending [] 481 = (next, .ok done) ∧
        "a" ∈ done ∧ "b" ∉ done := by
  have once : FinishOnce twoFinishes := by decide
  have steady : ClockSteady twoFinishes := by decide
  refine ⟨_, rfl, ?_⟩
  obtain ⟨_, _, released⟩ :=
    @timeout_release_exact (.withDefaults false false) (.ofSize 1) twoFinishes _ once steady rfl
  obtain ⟨_, next, done, finished, members, _⟩ := released [] 481 _ ∅ rfl
  refine ⟨next, done, finished, ?_, fun early => ?_⟩
  · exact (members "a").mpr (Or.inr ⟨1 + 480, rfl, by norm_num⟩)
  · rcases (members "b").mp early with notified | ⟨expires, deadline, passed⟩
    · exact AList.notMem_empty _ notified
    · obtain rfl : 2 + 480 = expires := Option.some.inj deadline
      norm_num at passed

end ProducerSystem

end RduHdi
