import RduHdi.Bench.ChromeTrace
import RduHdi.Grid

/-!
# Merging traces

`merge_traces.py` numbers the process lanes of all of its sources anew, one source after another.
No number is given twice, so lanes that were different stay different, and everything but the
number of its process lane is kept of an event.
-/

namespace RduHdi

/-- A source: a trace converted from request records, or any other trace. -/
inductive TraceSource where
  | converted (label : String) (records : List RequestRecord)
  | other (label : String) (events : List TraceEvent)

def TraceSource.label : TraceSource → String
  | .converted label _ => label
  | .other label _ => label

def TraceSource.events (clock : TraceClock) : TraceSource → List TraceEvent
  | .converted _ records => Conversion.trace clock records
  | .other _ events => events

namespace MergeTraces

/-! ## The process lanes of a source -/

/-- `{e["pid"] for e in events if "pid" in e}`, with the value that was seen first for a key. -/
def collectPids (pids : Dict PyKey PyObj) : List TraceEvent → Except PyError (Dict PyKey PyObj)
  | [] => .ok pids
  | event :: events =>
      match event.lookup "pid" with
      | none => collectPids pids events
      | some pid =>
          match pid.hashKey with
          | .ok key => collectPids (pids.setDefault key pid) events
          | .error raised => .error raised

/-- `first <= second`, where the two can be compared: a trace holds no other orderable keys than
numbers and strings. -/
def keyLe? : PyKey → PyKey → Option Bool
  | .num first, .num second => some (first ≤ second)
  | .str first, .str second => some (first ≤ second)
  | _, _ => none

/-- `sorted(pids)`. -/
def sortedPids (pids : Dict PyKey PyObj) : Except PyError (List (Σ _ : PyKey, PyObj)) :=
  if pids.entries.Pairwise fun first second => (keyLe? first.1 second.1).isSome then
    .ok (pids.entries.mergeSort fun first second => (keyLe? first.1 second.1).getD true)
  else
    .error .typeError

/-- `pid_map`, with the old value of each key, and the next number. -/
def assignPids (oldPids : List (Σ _ : PyKey, PyObj)) (nextPid : ℕ) :
    Dict PyKey (PyObj × ℕ) × ℕ :=
  oldPids.foldl
    (fun (pidMap, nextPid) old => (pidMap.set old.1 (old.2, nextPid), nextPid + 1)) (∅, nextPid)

/-! ## Relabelling -/

/-- `e["pid"] = pid_map[e["pid"]]`, for an event with a process lane. -/
def relabelEvent (pidMap : Dict PyKey (PyObj × ℕ)) (event : TraceEvent) :
    Except PyError TraceEvent :=
  match event.lookup "pid" with
  | none => .ok event
  | some pid => do
      let key ← pid.hashKey
      let (_, newPid) ← Dict.get pidMap key
      .ok (event.set "pid" (.int newPid))

/-- The labels of the process lanes of a source; `render` is `str`. -/
def processNames (render : PyObj → String) (label : String) (pidMap : Dict PyKey (PyObj × ℕ)) :
    List TraceEvent :=
  pidMap.entries.map fun ⟨_, oldPid, newPid⟩ =>
    Conversion.processName newPid <|
      if pidMap.entries.length = 1 then label else label ++ " (pid " ++ render oldPid ++ ")"

/-- The local variables of the merge. -/
structure Merge where
  /-- The events so far. -/
  combined : List TraceEvent
  /-- The next process lane. -/
  nextPid : ℕ

/-- One turn of the loop over the sources. -/
def step (clock : TraceClock) (render : PyObj → String) (merge : Merge) (source : TraceSource) :
    Except PyError Merge :=
  let events := source.events clock
  if events.isEmpty then
    .ok merge
  else do
    let pids ← collectPids ∅ events
    let oldPids ← sortedPids pids
    let (pidMap, nextPid) := assignPids oldPids merge.nextPid
    let relabelled ← events.mapM (relabelEvent pidMap)
    .ok
      { combined :=
          merge.combined ++ relabelled ++ processNames render source.label pidMap
        nextPid }

/-- `merge_traces.py`: the combined trace, or the exit of a merge without events. -/
def mergeTraces (clock : TraceClock) (render : PyObj → String) (sources : List TraceSource) :
    Except PyError (Option (List TraceEvent)) :=
  (Run.exec (step clock render) { combined := [], nextPid := 1 } sources).map fun merge =>
    if merge.combined.isEmpty then none else some merge.combined

/-! ## What a turn does -/

/-- The key of the process lane of an event. -/
def pidKey (event : TraceEvent) : Option PyKey :=
  (event.lookup "pid").bind fun pid => pid.hashKey.toOption

/-- The process lanes of the events can be sorted. -/
structure Comparable (events : List TraceEvent) : Prop where
  /-- A lane can be a key. -/
  hashable : ∀ event ∈ events, ∀ pid, event.lookup "pid" = some pid →
    ∃ key, pid.hashKey = .ok key
  /-- Two lanes can be compared. -/
  ordered : ∀ event ∈ events, ∀ other ∈ events, ∀ first second, pidKey event = some first →
    pidKey other = some second → first ≠ second → (keyLe? first second).isSome

section Turns

theorem pidKey_eq {event : TraceEvent} {pid : PyObj} {key : PyKey}
    (found : event.lookup "pid" = some pid) (hashed : pid.hashKey = .ok key) :
    pidKey event = some key := by
  rw [pidKey, found, Option.bind_some, hashed]
  rfl

theorem pidKey_eq_none {event : TraceEvent} (absent : event.lookup "pid" = none) :
    pidKey event = none := by
  rw [pidKey, absent]
  rfl

theorem collectPids_spec {events : List TraceEvent}
    (hashable : ∀ event ∈ events, ∀ pid, event.lookup "pid" = some pid →
      ∃ key, pid.hashKey = .ok key) (pids : Dict PyKey PyObj) :
    ∃ collected, collectPids pids events = .ok collected ∧ ∀ key, key ∈ collected ↔
      key ∈ pids ∨ ∃ event ∈ events, pidKey event = some key := by
  induction events generalizing pids with
  | nil => exact ⟨pids, rfl, fun key => by simp⟩
  | cons event events ih =>
      have rest := fun other member => hashable other (List.mem_cons_of_mem event member)
      rw [collectPids]
      cases found : event.lookup "pid" with
      | none =>
          obtain ⟨collected, taken, member⟩ := ih rest pids
          refine ⟨collected, taken, fun key => ?_⟩
          rw [member, List.exists_mem_cons_iff, pidKey_eq_none found]
          simp
      | some pid =>
          obtain ⟨own, hashed⟩ := hashable event List.mem_cons_self pid found
          obtain ⟨collected, taken, member⟩ := ih rest (pids.setDefault own pid)
          simp only
          rw [hashed]
          refine ⟨collected, taken, fun key => ?_⟩
          rw [member, List.exists_mem_cons_iff, pidKey_eq found hashed, AList.mem_setDefault,
            Option.some_inj]
          tauto

theorem sortedPids_spec {pids : Dict PyKey PyObj}
    (ordered : ∀ first ∈ pids, ∀ second ∈ pids, first ≠ second → (keyLe? first second).isSome) :
    ∃ oldPids, sortedPids pids = .ok oldPids ∧ oldPids.Perm pids.entries := by
  have pairwise : pids.keys.Pairwise fun first second => (keyLe? first second).isSome :=
    pids.keys_nodup.pairwise_of_forall_ne fun first left second right different =>
      ordered first (AList.mem_keys.mpr left) second (AList.mem_keys.mpr right) different
  rw [sortedPids, if_pos (List.pairwise_map.mp pairwise)]
  exact ⟨_, rfl, List.mergeSort_perm _ _⟩

/-- The old process lanes of a source, in the order in which they are numbered. -/
def oldPids (clock : TraceClock) (source : TraceSource) : List (Σ _ : PyKey, PyObj) :=
  match (collectPids ∅ (source.events clock)).bind sortedPids with
  | .ok oldPids => oldPids
  | .error _ => []

theorem oldPids_spec {clock : TraceClock} {source : TraceSource}
    (comparable : Comparable (source.events clock)) :
    (collectPids ∅ (source.events clock)).bind sortedPids = .ok (oldPids clock source) ∧
      (oldPids clock source).keys.Nodup ∧ ∀ key, key ∈ (oldPids clock source).keys ↔
        ∃ event ∈ source.events clock, pidKey event = some key := by
  obtain ⟨collected, taken, member⟩ := collectPids_spec comparable.hashable ∅
  have ordered : ∀ first ∈ collected, ∀ second ∈ collected, first ≠ second →
      (keyLe? first second).isSome := by
    intro first left second right
    obtain ⟨event, inside, isFirst⟩ :=
      ((member first).mp left).resolve_left (AList.notMem_empty first)
    obtain ⟨other, otherInside, isSecond⟩ :=
      ((member second).mp right).resolve_left (AList.notMem_empty second)
    exact comparable.ordered event inside other otherInside first second isFirst isSecond
  obtain ⟨sorted, result, perm⟩ := sortedPids_spec ordered
  have whole : (collectPids ∅ (source.events clock)).bind sortedPids = .ok sorted := by
    rw [taken]
    exact result
  have keys : sorted.keys.Perm collected.keys := perm.map Sigma.fst
  have same : oldPids clock source = sorted := by rw [oldPids, whole]
  rw [same]
  refine ⟨whole, keys.nodup_iff.mpr collected.keys_nodup, fun key => ?_⟩
  rw [keys.mem_iff, ← AList.mem_keys, member]
  exact or_iff_right (AList.notMem_empty key)

theorem foldl_assign (oldPids : List (Σ _ : PyKey, PyObj)) (nodup : oldPids.keys.Nodup)
    (pidMap : Dict PyKey (PyObj × ℕ)) (nextPid : ℕ) :
    let assigned := oldPids.foldl (fun (pidMap, nextPid) (old : Σ _ : PyKey, PyObj) =>
      (AList.set old.1 (old.2, nextPid) pidMap, nextPid + 1)) (pidMap, nextPid)
    assigned.2 = nextPid + oldPids.length ∧
      (∀ key ∉ oldPids.keys, assigned.1.lookup key = pidMap.lookup key) ∧
      ∀ key ∈ oldPids.keys, ∃ old, assigned.1.lookup key =
        some (old, nextPid + oldPids.keys.idxOf key) := by
  induction oldPids generalizing pidMap nextPid with
  | nil => exact ⟨rfl, fun _ _ => rfl, fun _ member => by cases member⟩
  | cons entry oldPids ih =>
      rw [List.keys_cons, List.nodup_cons] at nodup
      obtain ⟨next, others, own⟩ :=
        ih nodup.2 (AList.set entry.1 (entry.2, nextPid) pidMap) (nextPid + 1)
      simp only [List.foldl_cons]
      refine ⟨?_, fun key absent => ?_, fun key member => ?_⟩
      · rw [next, List.length_cons]
        omega
      · rw [List.keys_cons, List.mem_cons, not_or] at absent
        rw [others key absent.2, AList.lookup_set_ne absent.1]
      · rw [List.keys_cons] at member ⊢
        by_cases same : key = entry.1
        · subst same
          rw [others entry.1 nodup.1, AList.lookup_set, List.idxOf_cons_self]
          exact ⟨entry.2, rfl⟩
        · obtain ⟨old, found⟩ := own key ((List.mem_cons.mp member).resolve_left same)
          refine ⟨old, ?_⟩
          rw [found, List.idxOf_cons_ne _ (Ne.symm same)]
          congr 2
          omega

/-- An event with a new number for its process lane; nothing else changes. -/
def relabel (fresh : PyKey → ℕ) (event : TraceEvent) : TraceEvent :=
  match pidKey event with
  | some key => event.set "pid" (.int (fresh key))
  | none => event

theorem lookup_relabel_pid (fresh : PyKey → ℕ) {event : TraceEvent} {key : PyKey}
    (known : pidKey event = some key) :
    (relabel fresh event).lookup "pid" = some (.int (fresh key)) := by
  rw [relabel, known]
  exact AList.lookup_set

theorem lookup_relabel_ne (fresh : PyKey → ℕ) (event : TraceEvent) {name : String}
    (different : name ≠ "pid") : (relabel fresh event).lookup name = event.lookup name := by
  rw [relabel]
  cases pidKey event with
  | none => rfl
  | some key => exact AList.lookup_set_ne different

theorem mapM_eq_ok {α β : Type} {f : α → Except PyError β} {g : α → β} {items : List α}
    (each : ∀ item ∈ items, f item = .ok (g item)) : items.mapM f = .ok (items.map g) := by
  induction items with
  | nil => rfl
  | cons item items ih =>
      rw [List.mapM_cons, each item List.mem_cons_self,
        ih fun other member => each other (List.mem_cons_of_mem item member)]
      rfl

/-- The new number of a process lane of a source whose lanes are numbered from `nextPid`. -/
def numberFrom (clock : TraceClock) (source : TraceSource) (nextPid : ℕ) (key : PyKey) : ℕ :=
  nextPid + (oldPids clock source).keys.idxOf key

/-- The labels a source gets whose lanes are numbered from `nextPid`. -/
def namesFrom (clock : TraceClock) (render : PyObj → String) (source : TraceSource)
    (nextPid : ℕ) : List TraceEvent :=
  processNames render source.label (assignPids (oldPids clock source) nextPid).1

/-- A source's turn appends its events, relabelled, and then the labels of its lanes. -/
theorem step_eq (render : PyObj → String) {clock : TraceClock} {source : TraceSource}
    (comparable : Comparable (source.events clock)) (merge : Merge) :
    step clock render merge source =
      .ok
        { combined :=
            merge.combined ++
              (source.events clock).map (relabel (numberFrom clock source merge.nextPid)) ++
              namesFrom clock render source merge.nextPid
          nextPid := merge.nextPid + (oldPids clock source).length } := by
  obtain ⟨sorted, nodup, occurs⟩ := oldPids_spec comparable
  obtain ⟨next, _, own⟩ := foldl_assign (oldPids clock source) nodup ∅ merge.nextPid
  obtain ⟨pids, collected, sorts⟩ := Run.bind_eq_ok.mp sorted
  have relabelled : (source.events clock).mapM
      (relabelEvent (assignPids (oldPids clock source) merge.nextPid).1) =
        .ok ((source.events clock).map (relabel (numberFrom clock source merge.nextPid))) := by
    apply mapM_eq_ok
    intro event member
    rw [relabelEvent]
    cases found : event.lookup "pid" with
    | none => simp only [relabel, pidKey_eq_none found]
    | some pid =>
        obtain ⟨key, hashed⟩ := comparable.hashable event member pid found
        have known := pidKey_eq found hashed
        obtain ⟨old, assigned⟩ := own key ((occurs key).mpr ⟨event, member, known⟩)
        simp only [relabel, known]
        have number : Dict.get (assignPids (oldPids clock source) merge.nextPid).1 key =
            .ok (old, numberFrom clock source merge.nextPid key) := Dict.get_eq_ok.mpr assigned
        rw [hashed]
        change (Dict.get _ key).bind _ = _
        rw [number]
        rfl
  rw [step]
  simp only
  split
  · rename_i none_left
    have nothing : source.events clock = [] := List.isEmpty_iff.mp none_left
    have no_pids : oldPids clock source = [] := by
      apply List.map_eq_nil_iff.mp
      apply List.eq_nil_iff_forall_not_mem.mpr
      intro key member
      obtain ⟨event, inside, _⟩ := (occurs key).mp member
      rw [nothing] at inside
      cases inside
    rw [nothing, namesFrom, no_pids, List.map_nil, List.append_nil]
    exact congrArg Except.ok (congrArg₂ Merge.mk (List.append_nil _).symm rfl)
  · rw [collected]
    change (sortedPids pids).bind _ = _
    rw [sorts]
    change ((source.events clock).mapM
      (relabelEvent (assignPids (oldPids clock source) merge.nextPid).1)).bind _ = _
    rw [relabelled]
    exact congrArg Except.ok (congrArg₂ Merge.mk rfl next)

end Turns

/-! ## The whole merge -/

section Merged

variable (clock : TraceClock) (render : PyObj → String) (sources : List TraceSource)

/-- The old process lanes of every source. -/
def pidRows : List (List PyKey) :=
  sources.map fun source => (oldPids clock source).keys

/-- The first number of a source. -/
def firstPid (index : ℕ) : ℕ :=
  1 + Grid.entriesBefore (pidRows clock sources) index

/-- The new number of a process lane of a source. -/
def freshPid (index : ℕ) (key : PyKey) : ℕ :=
  1 + Grid.raggedIndex (pidRows clock sources) index key

/-- The part of the combined trace that comes from a source. -/
def part (source : TraceSource × ℕ) : List TraceEvent :=
  (source.1.events clock).map (relabel (freshPid clock sources source.2)) ++
    namesFrom clock render source.1 (firstPid clock sources source.2)

variable {clock sources}

theorem getD_pidRows {index : ℕ} {source : TraceSource} (here : sources[index]? = some source) :
    (pidRows clock sources).getD index [] = (oldPids clock source).keys := by
  rw [pidRows, List.getD_eq_getElem?_getD, List.getElem?_map, here]
  rfl

theorem firstPid_succ {index : ℕ} {source : TraceSource} (here : sources[index]? = some source) :
    firstPid clock sources (index + 1) =
      firstPid clock sources index + (oldPids clock source).length := by
  rw [firstPid, Grid.entriesBefore_succ, getD_pidRows here, firstPid, Nat.add_assoc,
    List.keys, List.length_map]

theorem numberFrom_firstPid {index : ℕ} {source : TraceSource}
    (here : sources[index]? = some source) :
    numberFrom clock source (firstPid clock sources index) = freshPid clock sources index := by
  funext key
  rw [numberFrom, freshPid, Grid.raggedIndex, getD_pidRows here, firstPid, Nat.add_assoc]

/-- From any source on, the merge appends the parts of the sources in order. -/
theorem exec_eq (comparable : ∀ source ∈ sources, Comparable (source.events clock))
    {rest : List TraceSource} {index : ℕ} (remaining : sources.drop index = rest)
    (combined : List TraceEvent) :
    ∃ nextPid, Run.exec (step clock render)
        { combined, nextPid := firstPid clock sources index } rest =
      .ok
        { combined := combined ++ (rest.zipIdx index).flatMap (part clock render sources)
          nextPid } := by
  induction rest generalizing index combined with
  | nil => exact ⟨firstPid clock sources index, by simp⟩
  | cons source rest ih =>
      have here : sources[index]? = some source := by
        rw [← List.head?_drop, remaining, List.head?_cons]
      have later : sources.drop (index + 1) = rest := by
        rw [← List.drop_drop, remaining, List.drop_one, List.tail_cons]
      have taken := step_eq render (comparable source (List.mem_of_getElem? here))
        { combined, nextPid := firstPid clock sources index }
      simp only at taken
      rw [numberFrom_firstPid here, ← firstPid_succ here, List.append_assoc] at taken
      obtain ⟨nextPid, reached⟩ := ih later
        (combined ++ part clock render sources (source, index))
      refine ⟨nextPid, ?_⟩
      rw [List.append_assoc] at reached
      rw [Run.exec_cons taken, List.zipIdx_cons, List.flatMap_cons]
      exact reached

/-- What holds of a combined trace: events of different lanes stay apart, and apart from the
number of its process lane every event is kept. -/
structure LanesApart (clock : TraceClock) (render : PyObj → String) (sources : List TraceSource)
    (combined : List TraceEvent) : Prop where
  /-- Every event of every source is there, with a new lane. -/
  kept : combined = sources.zipIdx.flatMap fun (source, index) =>
    (source.events clock).map (relabel (freshPid clock sources index)) ++
      namesFrom clock render source (firstPid clock sources index)
  /-- Two events have one process lane exactly when they had one in one source. -/
  pid_eq_iff : ∀ {index other : ℕ} {source otherSource : TraceSource},
    sources[index]? = some source → sources[other]? = some otherSource →
    ∀ event ∈ source.events clock, ∀ otherEvent ∈ otherSource.events clock,
    ∀ {key otherKey : PyKey}, pidKey event = some key → pidKey otherEvent = some otherKey →
      ((relabel (freshPid clock sources index) event).lookup "pid" =
          (relabel (freshPid clock sources other) otherEvent).lookup "pid" ↔
        index = other ∧ key = otherKey)
  /-- A record's phases are in its lane. -/
  phases : ∀ {index : ℕ} {label : String} {records : List RequestRecord},
    sources[index]? = some (.converted label records) →
    ∀ event ∈ Conversion.trace clock records, Conversion.IsPhase event →
      ∃ turn, Conversion.PhaseOf clock records turn event
  /-- Two phases have one lane exactly when they are of one record. -/
  lane_eq_iff : ∀ {index other : ℕ} {label otherLabel : String}
    {records otherRecords : List RequestRecord},
    sources[index]? = some (.converted label records) →
    sources[other]? = some (.converted otherLabel otherRecords) →
    ∀ {turn otherTurn : ℕ} {event otherEvent : TraceEvent},
    Conversion.PhaseOf clock records turn event →
    Conversion.PhaseOf clock otherRecords otherTurn otherEvent →
      let moved := relabel (freshPid clock sources index) event
      let otherMoved := relabel (freshPid clock sources other) otherEvent
      (moved.lookup "pid" = otherMoved.lookup "pid" ∧
          moved.lookup "tid" = otherMoved.lookup "tid" ↔
        index = other ∧ turn = otherTurn)

theorem mem_pidRows (comparable : ∀ source ∈ sources, Comparable (source.events clock))
    {index : ℕ} {source : TraceSource} (here : sources[index]? = some source) {event : TraceEvent}
    (member : event ∈ source.events clock) {key : PyKey} (known : pidKey event = some key) :
    key ∈ (pidRows clock sources).getD index [] := by
  rw [getD_pidRows here]
  obtain ⟨_, _, occurs⟩ := oldPids_spec (comparable source (List.mem_of_getElem? here))
  exact (occurs key).mpr ⟨event, member, known⟩

theorem pid_eq_iff (comparable : ∀ source ∈ sources, Comparable (source.events clock))
    {index other : ℕ} {source otherSource : TraceSource} (here : sources[index]? = some source)
    (there : sources[other]? = some otherSource) {event otherEvent : TraceEvent}
    (member : event ∈ source.events clock) (otherMember : otherEvent ∈ otherSource.events clock)
    {key otherKey : PyKey} (known : pidKey event = some key)
    (otherKnown : pidKey otherEvent = some otherKey) :
    (relabel (freshPid clock sources index) event).lookup "pid" =
        (relabel (freshPid clock sources other) otherEvent).lookup "pid" ↔
      index = other ∧ key = otherKey := by
  have left := mem_pidRows comparable here member known
  have right := mem_pidRows comparable there otherMember otherKnown
  rw [lookup_relabel_pid _ known, lookup_relabel_pid _ otherKnown, Option.some_inj,
    PyObj.int.injEq, Int.natCast_inj, freshPid, freshPid, Nat.add_left_cancel_iff,
    Grid.raggedIndex_eq_iff left right]

theorem lane_eq_iff (comparable : ∀ source ∈ sources, Comparable (source.events clock))
    {index other : ℕ} {label otherLabel : String} {records otherRecords : List RequestRecord}
    (here : sources[index]? = some (.converted label records))
    (there : sources[other]? = some (.converted otherLabel otherRecords))
    {turn otherTurn : ℕ} {event otherEvent : TraceEvent}
    (phase : Conversion.PhaseOf clock records turn event)
    (otherPhase : Conversion.PhaseOf clock otherRecords otherTurn otherEvent) :
    let moved := relabel (freshPid clock sources index) event
    let otherMoved := relabel (freshPid clock sources other) otherEvent
    moved.lookup "pid" = otherMoved.lookup "pid" ∧ moved.lookup "tid" = otherMoved.lookup "tid" ↔
      index = other ∧ turn = otherTurn := by
  obtain ⟨lane, ofRecord, pid, tid⟩ := phase.lane
  obtain ⟨otherLane, ofOtherRecord, otherPid, otherTid⟩ := otherPhase.lane
  have known : pidKey event = some (.num lane.1) := pidKey_eq pid rfl
  have otherKnown : pidKey otherEvent = some (.num otherLane.1) := pidKey_eq otherPid rfl
  simp only
  rw [pid_eq_iff comparable here there phase.mem_trace otherPhase.mem_trace known otherKnown,
    lookup_relabel_ne _ _ (by decide), lookup_relabel_ne _ _ (by decide), tid, otherTid,
    Option.some_inj, PyObj.int.injEq, Int.natCast_inj, PyKey.num.injEq]
  constructor
  · rintro ⟨⟨rfl, samePid⟩, sameTid⟩
    obtain ⟨rfl, rfl⟩ := TraceSource.converted.inj (Option.some.inj (here.symm.trans there))
    have same : lane = otherLane :=
      Prod.ext (Int.natCast_inj.mp (Rat.intCast_inj.mp samePid)) sameTid
    exact ⟨rfl, Conversion.laneAt_inj ofRecord (same ▸ ofOtherRecord)⟩
  · rintro ⟨rfl, rfl⟩
    obtain ⟨rfl, rfl⟩ := TraceSource.converted.inj (Option.some.inj (here.symm.trans there))
    obtain rfl := Option.some.inj (ofRecord.symm.trans ofOtherRecord)
    exact ⟨⟨rfl, rfl⟩, rfl⟩

theorem comparable_trace (records : List RequestRecord) :
    Comparable (Conversion.trace clock records) where
  hashable event member pid found := by
    obtain ⟨number, named⟩ := Conversion.lookup_pid_of_mem_trace member
    obtain rfl := Option.some.inj (named.symm.trans found)
    exact ⟨_, rfl⟩
  ordered event member other otherMember first second isFirst isSecond _ := by
    obtain ⟨number, named⟩ := Conversion.lookup_pid_of_mem_trace member
    obtain ⟨otherNumber, otherNamed⟩ := Conversion.lookup_pid_of_mem_trace otherMember
    obtain rfl := Option.some.inj ((pidKey_eq named rfl).symm.trans isFirst)
    obtain rfl := Option.some.inj ((pidKey_eq otherNamed rfl).symm.trans isSecond)
    rfl

/-- **Lanes never collide.**  Converted traces and other traces whose process lanes can be sorted
are merged into a combined trace that keeps their lanes apart. -/
theorem lanes_never_collide (clock : TraceClock) (render : PyObj → String)
    (sources : List TraceSource)
    (comparable : ∀ label events, .other label events ∈ sources → Comparable events) :
    ∃ combined, LanesApart clock render sources combined ∧
      mergeTraces clock render sources =
        .ok (if combined.isEmpty then none else some combined) := by
  have all_comparable : ∀ source ∈ sources, Comparable (source.events clock) := by
    intro source member
    cases source with
    | converted label records => exact comparable_trace records
    | other label events => exact comparable label events member
  obtain ⟨nextPid, reached⟩ := exec_eq render all_comparable List.drop_zero []
  refine ⟨sources.zipIdx.flatMap (part clock render sources), ⟨rfl, ?_, ?_, ?_⟩, ?_⟩
  · intro index other source otherSource here there event member otherEvent otherMember key
      otherKey known otherKnown
    exact pid_eq_iff all_comparable here there member otherMember known otherKnown
  · intro index label records here event member isPhase
    exact Conversion.exists_phaseOf member isPhase
  · intro index other label otherLabel records otherRecords here there turn otherTurn event
      otherEvent phase otherPhase
    exact lane_eq_iff all_comparable here there phase otherPhase
  · have start : firstPid clock sources 0 = 1 := rfl
    rw [start, List.nil_append] at reached
    rw [mergeTraces, reached]
    rfl

end Merged

/-- A clock that keeps whole microseconds. -/
def wholeMicros : TraceClock where
  micros t0 := .float (t0 * 1000000)
  elapsedMicros t0 t1 := .float (max ((t1 - t0) * 1000000) 0)

def queued (worker requestId : String) : RequestRecord where
  worker := some worker
  requestId := some requestId
  tReceived := some 1
  tStarted := some 2
  tKvReady := none
  tXferStart := none
  tXferEnd := none
  tCompletedDecode := none

/-- A decode worker's event, of the process that has the number of a converted lane. -/
def decodeEvent : TraceEvent :=
  .ofFields [("ph", .str "X"), ("pid", .int 1), ("tid", .int 1)]

/-- Two hosts with one worker name each, and a decode worker. -/
theorem lanes_never_collide_twoHosts : ∃ combined,
    LanesApart wholeMicros (fun _ => "1")
        [.converted "host0" [queued "gpu" "a", queued "gpu" "b"],
          .converted "host1" [queued "gpu" "a"], .other "rdu" [decodeEvent]] combined ∧
      mergeTraces wholeMicros (fun _ => "1")
          [.converted "host0" [queued "gpu" "a", queued "gpu" "b"],
            .converted "host1" [queued "gpu" "a"], .other "rdu" [decodeEvent]] =
        .ok (if combined.isEmpty then none else some combined) := by
  apply lanes_never_collide
  intro label events member
  obtain ⟨rfl, rfl⟩ : label = "rdu" ∧ events = [decodeEvent] := by simpa using member
  have pid : decodeEvent.lookup "pid" = some (.int 1) := by
    simp [decodeEvent, TraceEvent.ofFields]
  refine ⟨fun event only found_pid found => ?_, ?_⟩
  · rw [List.mem_singleton.mp only, pid] at found
    obtain rfl := Option.some.inj found
    exact ⟨_, rfl⟩
  · intro event only other otherOnly first second isFirst isSecond different
    rw [List.mem_singleton.mp only] at isFirst
    rw [List.mem_singleton.mp otherOnly] at isSecond
    exact absurd (Option.some.inj (isFirst.symm.trans isSecond)) different

end MergeTraces

end RduHdi
