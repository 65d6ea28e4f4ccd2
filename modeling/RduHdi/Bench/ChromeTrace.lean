import RduHdi.PyObj
import RduHdi.Run

/-!
# From request records to a trace

`events_to_chrome_trace.py` gives each worker a process lane and each request a thread lane of its
worker.  A lane is taken at the turn of its record and never again, so the events of two requests
never share one.
-/

namespace RduHdi

/-- An event of a trace. -/
abbrev TraceEvent := Dict String PyObj

def TraceEvent.ofFields (fields : List (String × PyObj)) : TraceEvent :=
  fields.foldl (fun event field => event.set field.1 field.2) ∅

/-- A record of `extract_request_events.py`; a field is `none` when it is absent or null. -/
structure RequestRecord where
  /-- The worker that prefilled the request. -/
  worker : Option String
  /-- The id; none when the key is absent (a null one ends the conversion, and is not
  represented). -/
  requestId : Option String
  /-- When the prefill worker received the request. -/
  tReceived : Option ℚ
  /-- When the prefill started. -/
  tStarted : Option ℚ
  /-- When the prefill was done. -/
  tKvReady : Option ℚ
  /-- When the transfer of the blocks started. -/
  tXferStart : Option ℚ
  /-- When the transfer ended. -/
  tXferEnd : Option ℚ
  /-- When the decode worker was done. -/
  tCompletedDecode : Option ℚ

/-- The arithmetic on timestamps, which are floating-point numbers. -/
structure TraceClock where
  /-- `t0 * 1e6`. -/
  micros : ℚ → PyObj
  /-- `max((t1 - t0) * 1e6, 0.0)`. -/
  elapsedMicros : ℚ → ℚ → PyObj

/-- A phase of a request, between two of its timestamps. -/
structure Phase where
  /-- The timestamp at which it starts. -/
  start : RequestRecord → Option ℚ
  /-- The timestamp at which it ends. -/
  finish : RequestRecord → Option ℚ
  /-- What the trace calls it. -/
  name : String

/-- `PHASES`. -/
def phases : List Phase :=
  [ { start := RequestRecord.tReceived, finish := RequestRecord.tStarted, name := "queue" },
    { start := RequestRecord.tStarted, finish := RequestRecord.tKvReady, name := "prefill" },
    { start := RequestRecord.tKvReady, finish := RequestRecord.tXferStart,
      name := "decode_queue" },
    { start := RequestRecord.tXferStart, finish := RequestRecord.tXferEnd,
      name := "kv_transfer" },
    { start := RequestRecord.tXferEnd, finish := RequestRecord.tCompletedDecode,
      name := "decode" } ]

/-- The local variables of the conversion. -/
structure Conversion where
  /-- The process lane of each worker. -/
  workerPid : Dict String ℕ
  /-- The next process lane. -/
  nextPid : ℕ
  /-- The next thread lane of each process lane. -/
  nextTidForPid : Dict ℕ ℕ
  /-- The events so far. -/
  traceEvents : List TraceEvent

namespace Conversion

def init : Conversion where
  workerPid := ∅
  nextPid := 1
  nextTidForPid := ∅
  traceEvents := []

/-! ## Events -/

/-- `args` with one field. -/
def singleArg (name : String) (value : PyObj) : PyObj :=
  .dict [(.str name, value)]

/-- The label of a process lane. -/
def processName (pid : ℕ) (name : String) : TraceEvent :=
  .ofFields
    [("ph", .str "M"), ("pid", .int pid), ("name", .str "process_name"),
      ("args", singleArg "name" (.str name))]

/-- The label of a thread lane. -/
def threadName (pid tid : ℕ) (requestId : String) : TraceEvent :=
  .ofFields
    [("ph", .str "M"), ("pid", .int pid), ("tid", .int tid), ("name", .str "thread_name"),
      ("args", singleArg "name" (.str ("req " ++ String.ofList (requestId.toList.take 8))))]

/-- The event of a phase, where both of its timestamps are known. -/
def phaseEvent? (clock : TraceClock) (pid tid : ℕ) (requestId : String) (record : RequestRecord)
    (phase : Phase) : Option TraceEvent :=
  match phase.start record, phase.finish record with
  | some t0, some t1 =>
      some <| .ofFields
        [("ph", .str "X"), ("pid", .int pid), ("tid", .int tid), ("ts", clock.micros t0),
          ("dur", clock.elapsedMicros t0 t1), ("name", .str phase.name),
          ("args", singleArg "request_id" (.str requestId))]
  | _, _ => none

/-- The events of a record in its lane. -/
def recordEvents (clock : TraceClock) (record : RequestRecord) (pid tid : ℕ) : List TraceEvent :=
  let requestId := record.requestId.getD "?"
  threadName pid tid requestId ::
    phases.filterMap (phaseEvent? clock pid tid requestId record)

/-! ## The loop over the records -/

/-- The process lane of a worker, opened when the worker is new. -/
def openWorker (conversion : Conversion) (worker : String) : Conversion × ℕ :=
  match conversion.workerPid.lookup worker with
  | some pid => (conversion, pid)
  | none =>
      let pid := conversion.nextPid
      ({ workerPid := conversion.workerPid.set worker pid
         nextPid := pid + 1
         nextTidForPid := conversion.nextTidForPid.set pid 1
         traceEvents := conversion.traceEvents ++ [processName pid worker] }, pid)

/-- The next thread lane of a process. -/
def takeTid (conversion : Conversion) (pid : ℕ) : Except PyError (Conversion × ℕ) :=
  (Dict.get conversion.nextTidForPid pid).map fun tid =>
    ({ conversion with nextTidForPid := conversion.nextTidForPid.set pid (tid + 1) }, tid)

/-- The lane of a record: nothing for one without a worker. -/
def takeLane (conversion : Conversion) (record : RequestRecord) :
    Except PyError (Conversion × Option (ℕ × ℕ)) :=
  match record.worker with
  | none => .ok (conversion, none)
  | some worker =>
      let (conversion, pid) := conversion.openWorker worker
      (conversion.takeTid pid).map fun (conversion, tid) => (conversion, some (pid, tid))

/-- One turn of the loop. -/
def step (clock : TraceClock) (conversion : Conversion) (record : RequestRecord) :
    Except PyError Conversion :=
  (conversion.takeLane record).map fun (conversion, lane) =>
    match lane with
    | none => conversion
    | some (pid, tid) =>
        { conversion with
          traceEvents := conversion.traceEvents ++ recordEvents clock record pid tid }

/-- `events_to_chrome_trace.py`. -/
def convert (clock : TraceClock) (records : List RequestRecord) : Except PyError Conversion :=
  Run.exec (step clock) .init records

/-! ## Lanes -/

/-- The lane a record takes at its turn. -/
def laneOf (conversion : Conversion) (record : RequestRecord) : Option (ℕ × ℕ) :=
  match conversion.takeLane record with
  | .ok (_, lane) => lane
  | .error _ => none

/-- A lane was taken. -/
def Taken (conversion : Conversion) (lane : ℕ × ℕ) : Prop :=
  ∃ next, conversion.nextTidForPid.lookup lane.1 = some next ∧ lane.2 < next

/-- Every process lane has a next thread lane, and the next process lane is new. -/
structure WellFormed (conversion : Conversion) : Prop where
  /-- The lane of a worker has thread lanes. -/
  open_pid : ∀ worker pid, conversion.workerPid.lookup worker = some pid →
    pid ∈ conversion.nextTidForPid
  /-- No lane is given out again. -/
  pid_lt : ∀ pid ∈ conversion.nextTidForPid, pid < conversion.nextPid

theorem wellFormed_init : WellFormed .init where
  open_pid worker pid found := by cases found
  pid_lt pid member := by cases member

section Turns

variable {clock : TraceClock} {conversion next : Conversion} {record : RequestRecord}

theorem Taken.mono {lane : ℕ × ℕ} (taken : Taken conversion lane)
    (grows : ∀ pid tid, conversion.nextTidForPid.lookup pid = some tid →
      ∃ later, next.nextTidForPid.lookup pid = some later ∧ tid ≤ later) : Taken next lane := by
  obtain ⟨tid, found, below⟩ := taken
  obtain ⟨later, still, atMost⟩ := grows lane.1 tid found
  exact ⟨later, still, Nat.lt_of_lt_of_le below atMost⟩

theorem openWorker_spec (wellFormed : conversion.WellFormed) (worker : String) :
    let opened := conversion.openWorker worker
    opened.1.WellFormed ∧ opened.2 ∈ opened.1.nextTidForPid ∧
      (∀ lane, Taken conversion lane → Taken opened.1 lane) ∧
      (opened.1.traceEvents = conversion.traceEvents ∨
        opened.1.traceEvents = conversion.traceEvents ++ [processName opened.2 worker]) := by
  intro opened
  cases found : conversion.workerPid.lookup worker with
  | some pid =>
      have same : opened = (conversion, pid) := by
        rw [show opened = conversion.openWorker worker from rfl, openWorker, found]
      rw [same]
      exact ⟨wellFormed, wellFormed.open_pid worker pid found, fun _ taken => taken, Or.inl rfl⟩
  | none =>
      have new : opened =
          ({ workerPid := conversion.workerPid.set worker conversion.nextPid
             nextPid := conversion.nextPid + 1
             nextTidForPid := conversion.nextTidForPid.set conversion.nextPid 1
             traceEvents :=
              conversion.traceEvents ++ [processName conversion.nextPid worker] },
            conversion.nextPid) := by
        rw [show opened = conversion.openWorker worker from rfl, openWorker, found]
      rw [new]
      refine ⟨⟨fun other pid known => ?_, fun pid member => ?_⟩, AList.mem_set.mpr (Or.inl rfl),
        fun lane taken => taken.mono fun pid tid known => ?_, Or.inr rfl⟩
      · rw [AList.mem_set]
        by_cases same : other = worker
        · subst same
          rw [AList.lookup_set] at known
          exact Or.inl (Option.some.inj known).symm
        · rw [AList.lookup_set_ne same] at known
          exact Or.inr (wellFormed.open_pid other pid known)
      · rcases AList.mem_set.mp member with rfl | old
        · exact Nat.lt_succ_self _
        · exact Nat.lt_succ_of_lt (wellFormed.pid_lt pid old)
      · have below := wellFormed.pid_lt pid (AList.lookup_isSome.mp (by rw [known]; rfl))
        exact ⟨tid, by rw [AList.lookup_set_ne (Nat.ne_of_lt below), known], le_rfl⟩

theorem takeTid_spec (wellFormed : conversion.WellFormed) {pid : ℕ}
    (member : pid ∈ conversion.nextTidForPid) :
    ∃ next tid, conversion.takeTid pid = .ok (next, tid) ∧ next.WellFormed ∧
      (∀ lane, Taken conversion lane → Taken next lane) ∧ ¬ Taken conversion (pid, tid) ∧
      Taken next (pid, tid) ∧ next.traceEvents = conversion.traceEvents := by
  obtain ⟨tid, found⟩ := Option.isSome_iff_exists.mp (AList.lookup_isSome.mpr member)
  have taken : conversion.takeTid pid =
      .ok
        ({ conversion with nextTidForPid := conversion.nextTidForPid.set pid (tid + 1) }, tid) := by
    rw [takeTid, Dict.get_eq_ok.mpr found]
    rfl
  refine ⟨_, tid, taken, ⟨?_, ?_⟩, ?_, ?_, ?_, rfl⟩
  · intro worker other known
    exact AList.mem_set.mpr (Or.inr (wellFormed.open_pid worker other known))
  · intro other present
    rcases AList.mem_set.mp present with rfl | old
    · exact wellFormed.pid_lt other member
    · exact wellFormed.pid_lt other old
  · intro lane taken
    apply taken.mono
    intro other earlier known
    by_cases same : other = pid
    · subst same
      obtain rfl := Option.some.inj (known.symm.trans found)
      exact ⟨earlier + 1, AList.lookup_set, Nat.le_succ earlier⟩
    · exact ⟨earlier, by rw [AList.lookup_set_ne same, known], le_rfl⟩
  · rintro ⟨later, known, below⟩
    obtain rfl := Option.some.inj (known.symm.trans found)
    exact lt_irrefl _ below
  · exact ⟨tid + 1, AList.lookup_set, Nat.lt_succ_self tid⟩

/-- An event of a phase, by its kind. -/
def IsPhase (event : TraceEvent) : Prop :=
  event.lookup "ph" = some (.str "X")

theorem not_isPhase_processName (pid : ℕ) (worker : String) :
    ¬ IsPhase (processName pid worker) := by
  simp [IsPhase, processName, TraceEvent.ofFields]

theorem lookup_pid_processName (pid : ℕ) (worker : String) :
    (processName pid worker).lookup "pid" = some (.int pid) := by
  simp [processName, TraceEvent.ofFields]

/-- A turn goes through, in a lane of its own. -/
theorem takeLane_spec (wellFormed : conversion.WellFormed) (record : RequestRecord) :
    ∃ next lane?, conversion.takeLane record = .ok (next, lane?) ∧ next.WellFormed ∧
      (∀ lane, Taken conversion lane → Taken next lane) ∧
      (∀ lane, lane? = some lane → ¬ Taken conversion lane ∧ Taken next lane) ∧
      ∃ labels, next.traceEvents = conversion.traceEvents ++ labels ∧
        ∀ event ∈ labels, ∃ pid worker, event = processName pid worker := by
  rw [takeLane]
  cases record.worker with
  | none =>
      exact ⟨conversion, none, rfl, wellFormed, fun _ taken => taken, by simp, [], by simp,
        by simp⟩
  | some worker =>
      obtain ⟨openedWellFormed, member, kept, labelled⟩ := openWorker_spec wellFormed worker
      obtain ⟨next, tid, taken, nextWellFormed, stays, fresh, inside, same⟩ :=
        takeTid_spec openedWellFormed member
      simp only
      rw [taken]
      refine ⟨next, some (_, tid), rfl, nextWellFormed, fun lane before =>
        stays lane (kept lane before), ?_, ?_⟩
      · rintro lane ⟨⟩
        exact ⟨fun before => fresh (kept _ before), inside⟩
      · rw [same]
        rcases labelled with none_added | added
        · exact ⟨[], by rw [none_added, List.append_nil], by simp⟩
        · exact ⟨_, added, fun event member => ⟨_, worker, List.mem_singleton.mp member⟩⟩

/-- The events a record adds at its turn. -/
def appended (clock : TraceClock) (conversion : Conversion) (record : RequestRecord) :
    List TraceEvent :=
  match conversion.step clock record with
  | .ok next => next.traceEvents.drop conversion.traceEvents.length
  | .error _ => []

theorem appended_eq {events : List TraceEvent} (stepped : conversion.step clock record = .ok next)
    (more : next.traceEvents = conversion.traceEvents ++ events) :
    conversion.appended clock record = events := by
  rw [appended, stepped]
  simp only
  rw [more, List.drop_left]

theorem laneOf_eq {lane? : Option (ℕ × ℕ)}
    (taken : conversion.takeLane record = .ok (next, lane?)) :
    conversion.laneOf record = lane? := by
  rw [laneOf, taken]

theorem phaseEvent?_lane {pid tid : ℕ} {requestId : String} {phase : Phase} {event : TraceEvent}
    (made : phaseEvent? clock pid tid requestId record phase = some event) :
    event.lookup "pid" = some (.int pid) ∧ event.lookup "tid" = some (.int tid) := by
  rw [phaseEvent?] at made
  split at made
  · cases made
    simp [TraceEvent.ofFields]
  · cases made

theorem recordEvents_lane {pid tid : ℕ} {event : TraceEvent}
    (member : event ∈ recordEvents clock record pid tid) :
    event.lookup "pid" = some (.int pid) ∧ event.lookup "tid" = some (.int tid) := by
  rw [recordEvents] at member
  rcases List.mem_cons.mp member with rfl | member
  · simp [threadName, TraceEvent.ofFields]
  · obtain ⟨phase, _, made⟩ := List.mem_filterMap.mp member
    exact phaseEvent?_lane made

/-- The events of a turn name their process lane, and its phase events stand in the lane of its
record. -/
theorem step_spec (clock : TraceClock) (wellFormed : conversion.WellFormed)
    (record : RequestRecord) :
    ∃ next, conversion.step clock record = .ok next ∧ next.WellFormed ∧
      (∀ lane, Taken conversion lane → Taken next lane) ∧
      (∀ lane, conversion.laneOf record = some lane →
        ¬ Taken conversion lane ∧ Taken next lane) ∧
      next.traceEvents = conversion.traceEvents ++ conversion.appended clock record ∧
      ∀ event ∈ conversion.appended clock record,
        (∃ pid : ℕ, event.lookup "pid" = some (.int pid)) ∧
        (IsPhase event → ∃ lane, conversion.laneOf record = some lane ∧
          event.lookup "pid" = some (.int lane.1) ∧
          event.lookup "tid" = some (.int lane.2)) := by
  obtain ⟨next, lane?, taken, nextWellFormed, kept, fresh, labels, labelled, names⟩ :=
    takeLane_spec wellFormed record
  have lane := laneOf_eq taken
  cases lane? with
  | none =>
      have stepped : conversion.step clock record = .ok next := by
        rw [step, taken]
        rfl
      rw [lane, appended_eq stepped labelled]
      refine ⟨next, stepped, nextWellFormed, kept, fresh, labelled, fun event member => ?_⟩
      obtain ⟨pid, worker, rfl⟩ := names event member
      exact ⟨⟨pid, lookup_pid_processName pid worker⟩,
        fun isPhase => absurd isPhase (not_isPhase_processName pid worker)⟩
  | some taking =>
      obtain ⟨pid, tid⟩ := taking
      let events := recordEvents clock record pid tid
      have stepped : conversion.step clock record =
          .ok { next with traceEvents := next.traceEvents ++ events } := by
        rw [step, taken]
        rfl
      have more : next.traceEvents ++ events = conversion.traceEvents ++ (labels ++ events) := by
        rw [labelled, List.append_assoc]
      rw [lane, appended_eq stepped more]
      refine ⟨_, stepped, ⟨nextWellFormed.open_pid, nextWellFormed.pid_lt⟩, kept, fresh, more, ?_⟩
      intro event member
      rcases List.mem_append.mp member with label | inLane
      · obtain ⟨pid, worker, rfl⟩ := names event label
        exact ⟨⟨pid, lookup_pid_processName pid worker⟩,
          fun isPhase => absurd isPhase (not_isPhase_processName pid worker)⟩
      · have own := recordEvents_lane inLane
        exact ⟨⟨pid, own.1⟩, fun _ => ⟨(pid, tid), rfl, own⟩⟩

end Turns

/-! ## Runs -/

section Runs

variable {clock : TraceClock} {conversion final : Conversion} {records : List RequestRecord}

theorem exec_spec (clock : TraceClock) (wellFormed : conversion.WellFormed)
    (records : List RequestRecord) :
    ∃ final, Run.exec (step clock) conversion records = .ok final ∧ final.WellFormed ∧
      (∀ lane, Taken conversion lane → Taken final lane) ∧
      final.traceEvents = conversion.traceEvents ++
        Run.observe (step clock) (appended clock) conversion records := by
  induction records generalizing conversion with
  | nil => exact ⟨conversion, rfl, wellFormed, fun _ taken => taken, by simp⟩
  | cons record records ih =>
      obtain ⟨next, stepped, nextWellFormed, kept, _, added, _⟩ := step_spec clock wellFormed record
      obtain ⟨final, rest, finalWellFormed, stays, events⟩ := ih nextWellFormed
      refine ⟨final, (Run.exec_cons stepped).trans rest, finalWellFormed,
        fun lane taken => stays lane (kept lane taken), ?_⟩
      rw [events, added, Run.observe_cons stepped, List.append_assoc]

/-- A phase event that is added at the turn of a record, given by its position. -/
def PhaseOf (clock : TraceClock) (records : List RequestRecord) (index : ℕ)
    (event : TraceEvent) : Prop :=
  ∃ before record, Run.exec (step clock) .init (records.take index) = .ok before ∧
    records[index]? = some record ∧ event ∈ before.appended clock record ∧ IsPhase event

/-- The lane of the record at a position. -/
def laneAt (clock : TraceClock) (records : List RequestRecord) (index : ℕ) : Option (ℕ × ℕ) :=
  match Run.exec (step clock) .init (records.take index) with
  | .ok before => records[index]?.bind before.laneOf
  | .error _ => none

theorem laneAt_taken {index : ℕ} {lane : ℕ × ℕ} (lane_eq : laneAt clock records index = some lane) :
    ∃ before after, Run.exec (step clock) .init (records.take index) = .ok before ∧
      Run.exec (step clock) .init (records.take (index + 1)) = .ok after ∧
      after.WellFormed ∧ ¬ Taken before lane ∧ Taken after lane := by
  obtain ⟨before, reached, wellFormed, _⟩ :=
    exec_spec clock wellFormed_init (records.take index)
  rw [laneAt, reached] at lane_eq
  obtain ⟨record, here, took⟩ := Option.bind_eq_some_iff.mp lane_eq
  obtain ⟨after, stepped, afterWellFormed, _, own, _⟩ := step_spec clock wellFormed record
  obtain ⟨free, taken⟩ := own lane took
  refine ⟨before, after, reached, ?_, afterWellFormed, free, taken⟩
  rw [List.take_add_one, here]
  exact Run.exec_snoc_eq_ok.mpr ⟨before, reached, stepped⟩

theorem laneAt_ne_of_lt {index later : ℕ} {lane : ℕ × ℕ} (before : index < later)
    (lane_eq : laneAt clock records index = some lane) :
    laneAt clock records later ≠ some lane := by
  intro laneLater
  obtain ⟨_, after, _, reached, wellFormed, _, taken⟩ := laneAt_taken lane_eq
  obtain ⟨middle, _, middleReached, _, _, free, _⟩ := laneAt_taken laneLater
  have split : records.take later =
      records.take (index + 1) ++ (records.take later).drop (index + 1) := by
    conv_lhs => rw [← List.take_append_drop (index + 1) (records.take later)]
    rw [List.take_take, Nat.min_eq_left before]
  rw [split] at middleReached
  obtain ⟨start, first, rest⟩ := Run.exec_append_eq_ok.mp middleReached
  obtain rfl := Except.ok.inj (first.symm.trans reached)
  obtain ⟨other, same, _, kept, _⟩ :=
    exec_spec clock wellFormed ((records.take later).drop (index + 1))
  obtain rfl := Except.ok.inj (same.symm.trans rest)
  exact free (kept lane taken)

theorem laneAt_inj {index other : ℕ} {lane : ℕ × ℕ}
    (left : laneAt clock records index = some lane)
    (right : laneAt clock records other = some lane) : index = other := by
  rcases Nat.lt_trichotomy index other with before | same | after
  · exact absurd right (laneAt_ne_of_lt before left)
  · exact same
  · exact absurd left (laneAt_ne_of_lt after right)

theorem PhaseOf.lane {index : ℕ} {event : TraceEvent}
    (phase : PhaseOf clock records index event) :
    ∃ lane, laneAt clock records index = some lane ∧
      event.lookup "pid" = some (.int lane.1) ∧ event.lookup "tid" = some (.int lane.2) := by
  obtain ⟨before, record, reached, here, member, isPhase⟩ := phase
  obtain ⟨other, same, wellFormed, _⟩ :=
    exec_spec clock wellFormed_init (records.take index)
  obtain rfl := Except.ok.inj (same.symm.trans reached)
  obtain ⟨_, _, _, _, _, _, inLane⟩ := step_spec clock wellFormed record
  obtain ⟨lane, took, labels⟩ := (inLane event member).2 isPhase
  refine ⟨lane, ?_, labels⟩
  rw [laneAt, reached, here]
  exact took

/-- The trace of a conversion. -/
def trace (clock : TraceClock) (records : List RequestRecord) : List TraceEvent :=
  match convert clock records with
  | .ok final => final.traceEvents
  | .error _ => []

theorem trace_eq (clock : TraceClock) (records : List RequestRecord) :
    trace clock records = Run.observe (step clock) (appended clock) .init records := by
  obtain ⟨final, reached, _, _, events⟩ := exec_spec clock wellFormed_init records
  rw [trace, convert, reached]
  exact events

theorem exists_phaseOf {event : TraceEvent} (member : event ∈ trace clock records)
    (isPhase : IsPhase event) : ∃ index, PhaseOf clock records index event := by
  rw [trace_eq] at member
  obtain ⟨before, record, after, middle, split, reached, added⟩ :=
    Run.exists_of_mem_observe member
  refine ⟨before.length, middle, record, ?_, ?_, added, isPhase⟩
  · rw [split, List.take_left]
    exact reached
  · rw [split, List.getElem?_append_right le_rfl, Nat.sub_self]
    rfl

theorem lookup_pid_of_mem_trace {event : TraceEvent} (member : event ∈ trace clock records) :
    ∃ pid : ℕ, event.lookup "pid" = some (.int pid) := by
  rw [trace_eq] at member
  obtain ⟨before, record, after, middle, split, reached, added⟩ :=
    Run.exists_of_mem_observe member
  obtain ⟨other, same, wellFormed, _⟩ := exec_spec clock wellFormed_init before
  obtain rfl := Except.ok.inj (same.symm.trans reached)
  obtain ⟨_, _, _, _, _, _, named⟩ := step_spec clock wellFormed record
  exact (named event added).1

theorem PhaseOf.mem_trace {index : ℕ} {event : TraceEvent}
    (phase : PhaseOf clock records index event) : event ∈ trace clock records := by
  obtain ⟨before, record, reached, here, member, _⟩ := phase
  obtain ⟨other, same, wellFormed, _⟩ :=
    exec_spec clock wellFormed_init (records.take index)
  obtain rfl := Except.ok.inj (same.symm.trans reached)
  obtain ⟨next, stepped, _⟩ := step_spec clock wellFormed record
  have split : records = records.take index ++ record :: records.drop (index + 1) := by
    obtain ⟨inside, rfl⟩ := List.getElem?_eq_some_iff.mp here
    rw [← List.drop_eq_getElem_cons inside, List.take_append_drop]
  rw [trace_eq, split, Run.observe_append reached, Run.observe_cons stepped]
  exact List.mem_append_right _ (List.mem_append_left _ member)

end Runs

end Conversion

end RduHdi
