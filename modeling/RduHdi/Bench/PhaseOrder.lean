import RduHdi.Bench.EventMerge

/-!
# The phases of one request

A record takes its timestamps from clocks of different granularity, and a transfer start is
computed by a subtraction, so a phase can end before it starts.  The conversion gives such a phase
no duration, and leaves where it starts.  This file says for which records the phases of a lane
stay apart and in order.
-/

namespace RduHdi

/-- The arithmetic of the conversion, carried out exactly. -/
def TraceClock.exact : TraceClock where
  micros t0 := .float (t0 * 10 ^ 6)
  elapsedMicros t0 t1 := .float (max ((t1 - t0) * 10 ^ 6) 0)

/-- The start and the end of an event, where it has a duration. -/
def TraceEvent.interval? (event : TraceEvent) : Option (ℚ × ℚ) :=
  match event.lookup "ts", event.lookup "dur" with
  | some (.float ts), some (.float dur) => some (ts, ts + dur)
  | _, _ => none

/-- The first interval starts no later than the second, and they have no point in common. -/
def Precedes (first second : ℚ × ℚ) : Prop :=
  first.1 ≤ second.1 ∧ Disjoint (Set.Ico first.1 first.2) (Set.Ico second.1 second.2)

/-- The phases among some events do not overlap, and start in the order of the events. -/
def PhasesApart (events : List TraceEvent) : Prop :=
  (events.filterMap TraceEvent.interval?).Pairwise Precedes

namespace RequestRecord

/-- The timestamps that decide whether the phases of a record stay apart. -/
@[mk_iff]
structure InOrder (record : RequestRecord) : Prop where
  /-- A request starts after it was received, when its prefill is drawn too. -/
  queue : ∀ received started kvReady, record.tReceived = some received →
    record.tStarted = some started → record.tKvReady = some kvReady → received ≤ started
  /-- Its prefill ends after it started, when its transfer is drawn too. -/
  prefill : ∀ started kvReady xferStart, record.tStarted = some started →
    record.tKvReady = some kvReady → record.tXferStart = some xferStart → started ≤ kvReady
  /-- No transfer starts before the prefill is done. -/
  decodeQueue : ∀ kvReady xferStart, record.tKvReady = some kvReady →
    record.tXferStart = some xferStart → kvReady ≤ xferStart
  /-- Without a time for the end of the prefill, its queue time ends before its transfer starts,
  and before its decode phase does, as far as these have a duration. -/
  gap : ∀ received started xferStart xferEnd, record.tReceived = some received →
    record.tStarted = some started → record.tKvReady = none →
    record.tXferStart = some xferStart → record.tXferEnd = some xferEnd →
      received ≤ xferStart ∧ (started ≤ xferStart ∨ xferEnd ≤ xferStart) ∧
        ∀ completed, record.tCompletedDecode = some completed →
          started ≤ xferEnd ∨ completed ≤ xferEnd

/-- The two ends of each phase that is drawn. -/
def spans (record : RequestRecord) : List (ℚ × ℚ) :=
  phases.filterMap fun phase =>
    match phase.start record, phase.finish record with
    | some t0, some t1 => some (t0, t1)
    | _, _ => none

end RequestRecord

/-! ## The intervals of a lane -/

/-- The interval of a phase with given ends. -/
def phaseInterval (span : ℚ × ℚ) : ℚ × ℚ :=
  (span.1 * 10 ^ 6, span.1 * 10 ^ 6 + max ((span.2 - span.1) * 10 ^ 6) 0)

theorem interval?_processName (pid : ℕ) (worker : String) :
    (Conversion.processName pid worker).interval? = none := by
  simp [TraceEvent.interval?, Conversion.processName, TraceEvent.ofFields]

theorem interval?_threadName (pid tid : ℕ) (requestId : String) :
    (Conversion.threadName pid tid requestId).interval? = none := by
  simp [TraceEvent.interval?, Conversion.threadName, TraceEvent.ofFields]

theorem bind_interval?_phaseEvent? (pid tid : ℕ) (requestId : String) (record : RequestRecord)
    (phase : Phase) :
    (Conversion.phaseEvent? .exact pid tid requestId record phase).bind TraceEvent.interval? =
      (match phase.start record, phase.finish record with
        | some t0, some t1 => some (t0, t1)
        | _, _ => none).map phaseInterval := by
  rw [Conversion.phaseEvent?]
  cases phase.start record with
  | none => rfl
  | some t0 =>
      cases phase.finish record with
      | none => rfl
      | some t1 =>
          simp [TraceEvent.interval?, TraceEvent.ofFields, TraceClock.exact, phaseInterval]

theorem intervals_recordEvents (record : RequestRecord) (pid tid : ℕ) :
    (Conversion.recordEvents .exact record pid tid).filterMap TraceEvent.interval? =
      record.spans.map phaseInterval := by
  rw [Conversion.recordEvents, List.filterMap_cons_none (interval?_threadName pid tid _),
    List.filterMap_filterMap, RequestRecord.spans, List.map_filterMap]
  exact List.filterMap_congr fun phase _ => bind_interval?_phaseEvent? pid tid _ record phase

theorem phaseInterval_snd (span : ℚ × ℚ) : (phaseInterval span).2 = max span.2 span.1 * 10 ^ 6 := by
  rw [phaseInterval]
  rcases le_total span.1 span.2 with forward | backward
  · rw [max_eq_left forward, max_eq_left (by linarith)]
    ring
  · rw [max_eq_right backward, max_eq_right (by linarith)]
    ring

theorem precedes_phaseInterval {first second : ℚ × ℚ} :
    Precedes (phaseInterval first) (phaseInterval second) ↔
      first.1 ≤ second.1 ∧ (first.2 ≤ second.1 ∨ second.2 ≤ second.1) := by
  have scale {left right : ℚ} : left * 10 ^ 6 ≤ right * 10 ^ 6 ↔ left ≤ right :=
    mul_le_mul_iff_of_pos_right (by norm_num)
  rw [Precedes, Set.Ico_disjoint_Ico, phaseInterval_snd, phaseInterval_snd]
  simp only [phaseInterval]
  rw [scale]
  apply and_congr_right
  intro inOrder
  rw [max_eq_right (scale.mpr inOrder), min_le_iff, scale, scale, max_le_iff, max_le_iff]
  simp [inOrder]

/-! ## What a record of the extraction is like -/

/-- The ends of the transfer come together, the earlier one computed from the later. -/
inductive XferTimes : Option ℚ → Option ℚ → Prop where
  | missing : XferTimes none none
  | computed (xferEnd elapsedMs : ℚ) (nonneg : 0 ≤ elapsedMs) :
      XferTimes (some (xferEnd - elapsedMs / 1000)) (some xferEnd)

theorem XferTimes.exists_finish {start? finish? : Option ℚ} (times : XferTimes start? finish?)
    {xferStart : ℚ} (starts : start? = some xferStart) :
    ∃ xferEnd, finish? = some xferEnd ∧ xferStart ≤ xferEnd := by
  cases times with
  | missing => cases starts
  | computed xferEnd elapsedMs nonneg =>
      cases starts
      exact ⟨xferEnd, rfl, by linarith⟩

theorem XferTimes.exists_start {start? finish? : Option ℚ} (times : XferTimes start? finish?)
    {xferEnd : ℚ} (ends : finish? = some xferEnd) :
    ∃ xferStart, start? = some xferStart ∧ xferStart ≤ xferEnd := by
  cases times with
  | missing => cases ends
  | computed xferEnd elapsedMs nonneg =>
      cases ends
      exact ⟨_, rfl, by linarith⟩

/-- What the extraction promises about its records. -/
structure Extracted (record : RequestRecord) : Prop where
  /-- The start of the transfer is computed from its end. -/
  xfer : XferTimes record.tXferStart record.tXferEnd
  /-- A record that no prefill log names has no prefill times. -/
  undated : record.worker = none →
    record.tReceived = none ∧ record.tStarted = none ∧ record.tKvReady = none

/-- The phases of a record stay apart when any two of them do whose four ends are known. -/
theorem pairwise_spans (record : RequestRecord) :
    (record.spans.Pairwise fun first second =>
        first.1 ≤ second.1 ∧ (first.2 ≤ second.1 ∨ second.2 ≤ second.1)) ↔
      phases.Pairwise fun first second => ∀ start finish start' finish',
        first.start record = some start → first.finish record = some finish →
          second.start record = some start' → second.finish record = some finish' →
            start ≤ start' ∧ (finish ≤ start' ∨ finish' ≤ start') := by
  have drawn (phase : Phase) (span : ℚ × ℚ) :
      (match phase.start record, phase.finish record with
        | some t0, some t1 => some (t0, t1)
        | _, _ => none) = some span ↔
        phase.start record = some span.1 ∧ phase.finish record = some span.2 := by
    cases phase.start record with
    | none => simp
    | some t0 =>
        cases phase.finish record with
        | none => simp
        | some t1 => simp [Prod.ext_iff]
  rw [RequestRecord.spans, List.pairwise_filterMap]
  simp only [drawn]
  refine iff_of_eq (congrArg (List.Pairwise · phases) ?_)
  funext first second
  simp only [and_imp, Prod.forall, eq_iff_iff]
  constructor
  · intro apart start finish start' finish' starts ends
    exact apart start finish starts ends start' finish'
  · intro apart start finish starts ends start' finish'
    exact apart start finish start' finish' starts ends

/-- The phases of an extracted record stay apart exactly when its timestamps are in order. -/
theorem pairwise_spans_iff {record : RequestRecord}
    (xfer : XferTimes record.tXferStart record.tXferEnd) :
    (record.spans.Pairwise fun first second =>
      first.1 ≤ second.1 ∧ (first.2 ≤ second.1 ∨ second.2 ≤ second.1)) ↔ record.InOrder := by
  rw [pairwise_spans]
  simp only [phases, List.pairwise_cons, List.mem_cons, List.not_mem_nil, or_false, false_imp_iff,
    forall_eq_or_imp, forall_eq, implies_true, and_true, List.Pairwise.nil]
  constructor
  · rintro ⟨⟨queue_prefill, -, queue_xfer, queue_decode⟩, ⟨prefill_queue, -, -⟩, ⟨queue_end, -⟩, -⟩
    refine ⟨?_, ?_, ?_, ?_⟩
    · intro received started kvReady isReceived isStarted isReady
      exact (queue_prefill _ _ _ _ isReceived isStarted isStarted isReady).1
    · intro started kvReady xferStart isStarted isReady begins
      exact (prefill_queue _ _ _ _ isStarted isReady isReady begins).1
    · intro kvReady xferStart isReady begins
      obtain ⟨xferEnd, ends, -⟩ := xfer.exists_finish begins
      exact (queue_end _ _ _ _ isReady begins begins ends).1
    · intro received started xferStart xferEnd isReceived isStarted _ begins ends
      obtain ⟨later, apart⟩ := queue_xfer _ _ _ _ isReceived isStarted begins ends
      exact ⟨later, apart, fun completed isCompleted =>
        (queue_decode _ _ _ _ isReceived isStarted ends isCompleted).2⟩
  · intro inOrder
    -- With the end of the prefill known, the timestamps before the transfer are a chain.
    have chain {received started kvReady xferStart : ℚ}
        (isReceived : record.tReceived = some received)
        (isStarted : record.tStarted = some started)
        (isReady : record.tKvReady = some kvReady)
        (begins : record.tXferStart = some xferStart) :
        received ≤ started ∧ started ≤ kvReady ∧ kvReady ≤ xferStart :=
      ⟨inOrder.queue _ _ _ isReceived isStarted isReady,
        inOrder.prefill _ _ _ isStarted isReady begins, inOrder.decodeQueue _ _ isReady begins⟩
    refine ⟨⟨?_, ?_, ?_, ?_⟩, ⟨?_, ?_, ?_⟩, ⟨?_, ?_⟩, ?_⟩
    · intro received started started' kvReady isReceived isStarted isStarted' isReady
      cases isStarted.symm.trans isStarted'
      exact ⟨inOrder.queue _ _ _ isReceived isStarted isReady, .inl le_rfl⟩
    · intro received started kvReady xferStart isReceived isStarted isReady begins
      obtain ⟨first, second, -⟩ := chain isReceived isStarted isReady begins
      exact ⟨first.trans second, .inl second⟩
    · intro received started xferStart xferEnd isReceived isStarted begins ends
      cases isReady : record.tKvReady with
      | none =>
          obtain ⟨later, apart, -⟩ := inOrder.gap _ _ _ _ isReceived isStarted isReady begins ends
          exact ⟨later, apart⟩
      | some kvReady =>
          obtain ⟨first, second, third⟩ := chain isReceived isStarted isReady begins
          exact ⟨first.trans (second.trans third), .inl (second.trans third)⟩
    · intro received started xferEnd completed isReceived isStarted ends isCompleted
      obtain ⟨xferStart, begins, forward⟩ := xfer.exists_start ends
      cases isReady : record.tKvReady with
      | none =>
          obtain ⟨later, -, apart⟩ := inOrder.gap _ _ _ _ isReceived isStarted isReady begins ends
          exact ⟨later.trans forward, apart completed isCompleted⟩
      | some kvReady =>
          obtain ⟨first, second, third⟩ := chain isReceived isStarted isReady begins
          have waited := second.trans (third.trans forward)
          exact ⟨first.trans waited, .inl waited⟩
    · intro started kvReady kvReady' xferStart isStarted isReady isReady' begins
      cases isReady.symm.trans isReady'
      exact ⟨inOrder.prefill _ _ _ isStarted isReady begins, .inl le_rfl⟩
    · intro started kvReady xferStart xferEnd isStarted isReady begins _
      have waited := inOrder.decodeQueue _ _ isReady begins
      exact ⟨(inOrder.prefill _ _ _ isStarted isReady begins).trans waited, .inl waited⟩
    · intro started kvReady xferEnd completed isStarted isReady ends _
      obtain ⟨xferStart, begins, forward⟩ := xfer.exists_start ends
      have waited := (inOrder.decodeQueue _ _ isReady begins).trans forward
      exact ⟨(inOrder.prefill _ _ _ isStarted isReady begins).trans waited, .inl waited⟩
    · intro kvReady xferStart xferStart' xferEnd isReady begins begins' _
      cases begins.symm.trans begins'
      exact ⟨inOrder.decodeQueue _ _ isReady begins, .inl le_rfl⟩
    · intro kvReady xferStart xferEnd completed isReady begins ends _
      obtain ⟨start, starts, forward⟩ := xfer.exists_start ends
      cases begins.symm.trans starts
      exact ⟨(inOrder.decodeQueue _ _ isReady begins).trans forward, .inl forward⟩
    · intro xferStart xferEnd xferEnd' completed begins ends ends' _
      cases ends.symm.trans ends'
      obtain ⟨start, starts, forward⟩ := xfer.exists_start ends
      cases begins.symm.trans starts
      exact ⟨forward, .inl le_rfl⟩

namespace LogPatterns

open LogReading

variable {line : Type*} {patterns : LogPatterns line} {order : SetOrder}
  {logs : List (PrefillLog line)} {decode : Option (List line)} {window : EventWindow}
  {record : EventRecord}

theorem mem_extract_all (member : record ∈ patterns.extract order logs decode window) :
    record ∈ patterns.extract order logs decode .all := by
  rw [extract, (List.mergeSort_perm _ _).mem_iff] at member
  exact (extract_perm order logs decode).mem_iff.mpr (List.mem_of_mem_filter member)

theorem xferTimes_decodeFields (readings : List LogReading) (key : String) :
    XferTimes (decodeFields readings key).tXferStart (decodeFields readings key).tXferEnd := by
  rw [decodeFields]
  cases taken : newest xfer? key readings with
  | none => exact .missing
  | some value =>
      obtain ⟨reading, _, id, read⟩ := exists_of_newest taken
      cases reading with
      | xfer _ second elapsedMs =>
          obtain ⟨_, rfl⟩ := Prod.mk.inj (Option.some.inj read)
          exact .computed second elapsedMs elapsedMs.2
      | received | completed | started | kvReady | nothing => cases read

/-- What the extraction promises holds of every record of its output. -/
theorem extracted_of_mem (member : record ∈ patterns.extract order logs decode window) :
    Extracted record.toRequest := by
  have found := mem_extract.mp (mem_extract_all member)
  rw [lookup_allRecords] at found
  have merged {before : EventRecord}
      (here : (patterns.mergeLogs order logs).lookup record.requestId = some before) :
      before.worker ≠ none ∧ before.decode = none := by
    obtain ⟨log, _, _, rfl⟩ := exists_log_of_lookup here
    exact ⟨Option.some_ne_none _, rfl⟩
  cases decode with
  | none =>
      obtain ⟨worker, plain⟩ := merged found
      refine ⟨?_, fun noWorker => absurd noWorker worker⟩
      simp only [EventRecord.toRequest, plain]
      exact .missing
  | some lines =>
      rw [finishRecord] at found
      split at found
      · rw [patch_parseDecodeLog] at found
        rw [← Option.some.inj found]
        refine ⟨xferTimes_decodeFields _ _, fun noWorker => ?_⟩
        cases here : (patterns.mergeLogs order logs).lookup record.requestId with
        | none => exact ⟨rfl, rfl, rfl⟩
        | some before =>
            rw [here] at noWorker
            exact absurd noWorker (merged here).1
      · obtain ⟨worker, plain⟩ := merged found
        refine ⟨?_, fun noWorker => absurd noWorker worker⟩
        simp only [EventRecord.toRequest, plain]
        exact .missing

end LogPatterns

/-! ## The events of a record -/

/-- A record with a worker adds the events of its lane, after labels. -/
theorem Conversion.appended_spec {clock : TraceClock} {conversion : Conversion}
    (wellFormed : conversion.WellFormed) (record : RequestRecord) :
    ∃ labels, (∀ event ∈ labels, ∃ pid worker, event = processName pid worker) ∧
      (record.worker = none ∧ conversion.appended clock record = labels ∨
        ∃ pid tid, conversion.appended clock record =
          labels ++ recordEvents clock record pid tid) := by
  obtain ⟨next, lane?, taken, _, _, _, labels, labelled, names⟩ := takeLane_spec wellFormed record
  refine ⟨labels, names, ?_⟩
  cases lane? with
  | none =>
      have stepped : conversion.step clock record = .ok next := by
        rw [step, taken]
        rfl
      refine Or.inl ⟨?_, appended_eq stepped labelled⟩
      rw [takeLane] at taken
      cases worker : record.worker with
      | none => rfl
      | some name =>
          rw [worker] at taken
          simp only at taken
          cases opened : (conversion.openWorker name).1.takeTid (conversion.openWorker name).2 with
          | error raised =>
              rw [opened] at taken
              cases taken
          | ok result =>
              rw [opened] at taken
              cases taken
  | some lane =>
      obtain ⟨pid, tid⟩ := lane
      have stepped : conversion.step clock record = .ok
          { next with traceEvents := next.traceEvents ++ recordEvents clock record pid tid } := by
        rw [step, taken]
        rfl
      exact Or.inr ⟨pid, tid, appended_eq stepped (by rw [labelled, List.append_assoc])⟩

/-- The intervals a record adds are those of its phases, unless it has no worker. -/
theorem intervals_appended {conversion : Conversion} (wellFormed : conversion.WellFormed)
    (record : RequestRecord) :
    (conversion.appended .exact record).filterMap TraceEvent.interval? =
      record.spans.map phaseInterval ∨
      record.worker = none ∧
        (conversion.appended .exact record).filterMap TraceEvent.interval? = [] := by
  obtain ⟨labels, names, added⟩ := Conversion.appended_spec wellFormed record
  have unlabelled : labels.filterMap TraceEvent.interval? = [] := by
    rw [List.filterMap_eq_nil_iff]
    intro event member
    obtain ⟨pid, worker, rfl⟩ := names event member
    exact interval?_processName pid worker
  rcases added with ⟨worker, same⟩ | ⟨pid, tid, same⟩
  · exact Or.inr ⟨worker, by rw [same, unlabelled]⟩
  · left
    rw [same, List.filterMap_append, unlabelled, List.nil_append, intervals_recordEvents]

theorem phasesApart_appended_iff {record : RequestRecord} (extracted : Extracted record)
    {conversion : Conversion} (wellFormed : conversion.WellFormed) :
    PhasesApart (conversion.appended .exact record) ↔ record.InOrder := by
  rcases intervals_appended wellFormed record with drawn | ⟨worker, nothing⟩
  · rw [PhasesApart, drawn, List.pairwise_map, ← pairwise_spans_iff extracted.xfer]
    simp only [precedes_phaseInterval]
  · obtain ⟨received, started, kvReady⟩ := extracted.undated worker
    rw [PhasesApart, nothing, RequestRecord.inOrder_iff]
    simp [received, started, kvReady]

/-- The phases that the conversion draws for a record of the extraction do not overlap, and start
in the order of `PHASES`, exactly when its timestamps are in order. -/
theorem phasesApart_iff {line : Type*} {patterns : LogPatterns line} {order : SetOrder}
    {logs : List (PrefillLog line)} {decode : Option (List line)} {window : EventWindow}
    {record : EventRecord} (member : record ∈ patterns.extract order logs decode window)
    {earlier : List RequestRecord} {before : Conversion}
    (reached : Run.exec (Conversion.step .exact) .init earlier = .ok before) :
    PhasesApart (before.appended .exact record.toRequest) ↔ record.toRequest.InOrder := by
  obtain ⟨other, same, wellFormed, _⟩ :=
    Conversion.exec_spec .exact Conversion.wellFormed_init earlier
  obtain rfl := Except.ok.inj (same.symm.trans reached)
  exact phasesApart_appended_iff (LogPatterns.extracted_of_mem member) wellFormed

/-! ## A transfer within one second -/

namespace LogPatterns

/-- Sets iterated over as they are listed. -/
def listed : SetOrder := ⟨id, SetOrder.perm_id⟩

/-- A request whose prefill ended in second 41. -/
def prefilled : PrefillLog LogReading where
  worker := "worker0"
  lines :=
    [.received "1b4e28ba-2fa1-11d2-883f-0016d3cca427" 1783486038,
      .started "1b4e28ba-2fa1-11d2-883f-0016d3cca427" 1783486038,
      .kvReady "1b4e28ba-2fa1-11d2-883f-0016d3cca427" 1783486041 3000]

/-- Its transfer took 300 ms and ended in the same second. -/
def transferred : List LogReading :=
  [.xfer "1b4e28ba-2fa1-11d2-883f-0016d3cca427" 1783486041 300]

/-- The record of the prefill log. -/
def prefilledRecord : EventRecord where
  worker := some "worker0"
  requestId := "1b4e28ba"
  tReceived := some 1783486038
  tStarted := some 1783486038
  tKvReady := some 1783486041
  computeMs := some 3000
  tCompleted := none
  decode := none

/-- The record of both logs. -/
def transferredRecord : EventRecord :=
  { prefilledRecord with
    decode := some
      { tReceivedDecode := none
        tCompletedDecode := none
        tXferStart := some (1783486041 - 300 / 1000)
        tXferEnd := some 1783486041
        xferElapsedMs := some 300 } }

theorem mem_prefilled : prefilledRecord ∈ asRead.extract listed [prefilled] none .all := by
  apply mem_extract.mpr
  decide +kernel

theorem mem_transferred :
    transferredRecord ∈ asRead.extract listed [prefilled] (some transferred) .all := by
  apply mem_extract.mpr
  decide +kernel

end LogPatterns

open LogPatterns

/-- The phases of a request stay apart when it was not transferred. -/
theorem phasesApart_prefilled :
    PhasesApart (Conversion.init.appended .exact prefilledRecord.toRequest) := by
  have reached : Run.exec (Conversion.step .exact) .init [] = .ok .init := rfl
  rw [phasesApart_iff mem_prefilled reached, RequestRecord.inOrder_iff]
  simp [prefilledRecord, EventRecord.toRequest]

/-- The transfer is drawn over the end of the prefill. -/
theorem not_phasesApart_transferred :
    transferredRecord ∈ asRead.extract listed [prefilled] (some transferred) .all ∧
      ¬ PhasesApart (Conversion.init.appended .exact transferredRecord.toRequest) := by
  refine ⟨mem_transferred, ?_⟩
  rw [phasesApart_appended_iff (extracted_of_mem mem_transferred) Conversion.wellFormed_init]
  intro inOrder
  have late := inOrder.decodeQueue _ _ rfl rfl
  norm_num at late

end RduHdi
