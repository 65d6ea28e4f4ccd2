import RduHdi.Bench.EventMerge
import RduHdi.KeyedSort

/-!
# One row for each request

`plot_request_timeline.py` draws a row for each request of a plotted worker, in the order in which
the requests were received.  A row needs both ends of one phase, which need not include the receive
time, but the order does: two rows of which one has no receive time cannot be put in order.
-/

namespace RduHdi

/-- `round(value)`: to the nearest integer, and to the even one of two. -/
def roundHalfEven (value : ℚ) : ℤ :=
  let part := value - ⌊value⌋
  if part < 1 / 2 then ⌊value⌋
  else if 1 / 2 < part then ⌊value⌋ + 1
  else if ⌊value⌋ % 2 = 0 then ⌊value⌋
  else ⌊value⌋ + 1

/-- A bar of a row: its offset from the start of the plot, its length, its color. -/
structure Segment where
  /-- Where the bar begins. -/
  offset : ℚ
  /-- How long it is. -/
  length : ℚ
  /-- Its color. -/
  color : String
  deriving DecidableEq

/-- A row of the plot. -/
structure GanttRow where
  /-- The receive time, by which rows are ordered. -/
  tRecv : Option ℚ
  /-- The worker of the request. -/
  worker : String
  /-- The bars. -/
  segs : List Segment
  /-- Where the last bar ends. -/
  rowEnd : ℚ
  /-- The label behind the bars. -/
  labelTxt : String
  /-- The color of the label. -/
  labelColor : String
  /-- Whether the request failed. -/
  failed : Bool
  deriving DecidableEq

/-- The local variables of the row loop. -/
structure Timeline where
  /-- How many rows each worker has. -/
  perWorkerIdx : Dict String ℕ
  /-- The rows so far. -/
  ganttRows : List GanttRow
  /-- Whether a transfer was drawn. -/
  hasXfer : Bool
  /-- How many requests failed. -/
  nFailed : ℕ

namespace Timeline

def queueColor : String := "#d5d8dc"

def prefillColor : String := "#2980b9"

def decodeQueueColor : String := "#e67e22"

def xferColor : String := "#f1c40f"

def failedColor : String := "#c0392b"

def palette : List String := ["#2980b9", "#e74c3c", "#27ae60", "#8e44ad"]

/-- The labels of the `label=value` arguments, as the keys of the dictionary they are read into. -/
def labels (arguments : List String) : List String :=
  ((∅ : KeySet String).addAll arguments).keys

/-- `color_by_worker`. -/
def colorByWorker (smi : List String) : Dict String String :=
  (labels smi).zipIdx.foldl
    (fun colors (label, index) => colors.set label (palette.getD (index % palette.length) "")) ∅

/-- The bar of a phase, where both of its ends are known. -/
def segment? (start : ℚ) (t0 t1 : Option ℚ) (color : String) : Option Segment :=
  match t0, t1 with
  | some t0, some t1 => some { offset := t0 - start, length := t1 - t0, color }
  | _, _ => none

/-- The bars of a record. -/
def segments (start : ℚ) (record : RequestRecord) : List Segment :=
  [segment? start record.tReceived record.tStarted queueColor,
    segment? start record.tStarted record.tKvReady prefillColor,
    segment? start record.tKvReady record.tXferStart decodeQueueColor,
    segment? start record.tXferStart record.tXferEnd xferColor].reduceOption

/-- The row of a record, the `index`-th of its worker. -/
def rowOf (colors : Dict String String) (start : ℚ) (worker : String) (record : RequestRecord)
    (index : ℕ) : GanttRow :=
  let segs := segments start record
  let rowEnd := ((segs.map fun seg => seg.offset + seg.length).max?).getD 0
  let rowStart := ((segs.map Segment.offset).min?).getD 0
  let failed := record.tKvReady.isSome && record.tCompletedDecode.isNone
  let label := worker ++ "#" ++ toString index ++ " " ++
    toString (roundHalfEven ((rowEnd - rowStart) * 1000)) ++ "ms"
  { tRecv := record.tReceived
    worker
    segs
    rowEnd
    labelTxt := if failed then label ++ " FAILED (no decode completion)" else label
    labelColor := if failed then failedColor else (colors.lookup worker).getD ""
    failed }

def init : Timeline where
  perWorkerIdx := ∅
  ganttRows := []
  hasXfer := false
  nFailed := 0

/-- One turn of the row loop. -/
def addRecord (colors : Dict String String) (start : ℚ) (timeline : Timeline)
    (record : RequestRecord) : Timeline :=
  match record.worker with
  | none => timeline
  | some worker =>
      if worker ∈ colors then
        let timeline :=
          { timeline with
            hasXfer := timeline.hasXfer || (record.tXferStart.isSome && record.tXferEnd.isSome) }
        if (segments start record).isEmpty then
          timeline
        else
          let index := (timeline.perWorkerIdx.lookup worker).getD 0 + 1
          let row := rowOf colors start worker record index
          { timeline with
            perWorkerIdx := timeline.perWorkerIdx.set worker index
            ganttRows := timeline.ganttRows ++ [row]
            nFailed := if row.failed then timeline.nFailed + 1 else timeline.nFailed }
      else
        timeline

/-- The row loop. -/
def ofRecords (colors : Dict String String) (start : ℚ) (records : List RequestRecord) :
    Timeline :=
  records.foldl (addRecord colors start) init

/-- `rows_by_worker`. -/
def rowsByWorker (rows : List GanttRow) : Dict String (List GanttRow) :=
  rows.foldl
    (fun panels row => panels.set row.worker ((panels.lookup row.worker).getD [] ++ [row])) ∅

/-- The rows in order, one panel for each worker. -/
def panels (smi gpus : List String) (start : ℚ) (records : List RequestRecord) :
    Except PyError (List (String × List GanttRow)) :=
  let rows := (ofRecords (colorByWorker smi) start records).ganttRows
  (KeyedSort.sort GanttRow.tRecv .typeError rows).map fun rows =>
    (labels gpus).map fun worker => (worker, ((rowsByWorker rows).lookup worker).getD [])

/-! ## The rows -/

/-- Both ends of a phase that is drawn are known. -/
def HasPhase (record : RequestRecord) : Prop :=
  record.tReceived.isSome ∧ record.tStarted.isSome ∨
    record.tStarted.isSome ∧ record.tKvReady.isSome ∨
    record.tKvReady.isSome ∧ record.tXferStart.isSome ∨
    record.tXferStart.isSome ∧ record.tXferEnd.isSome

instance : DecidablePred HasPhase := fun record => by
  unfold HasPhase
  infer_instance

/-- The records of a worker that are drawn. -/
def ownRecords (worker : String) (records : List RequestRecord) : List RequestRecord :=
  records.filter fun record => record.worker = some worker ∧ HasPhase record

/-- One row for each record of a worker that is drawn, numbered from one. -/
def ownRows (colors : Dict String String) (start : ℚ) (worker : String)
    (records : List RequestRecord) : List GanttRow :=
  ((ownRecords worker records).zipIdx 1).map fun (record, index) =>
    rowOf colors start worker record index

/-- The records that are drawn on some panel. -/
def drawn (colors : Dict String String) (records : List RequestRecord) : List RequestRecord :=
  records.filter fun record => (record.worker.any fun worker => worker ∈ colors) ∧ HasPhase record

theorem segments_isEmpty {start : ℚ} {record : RequestRecord} :
    (segments start record).isEmpty ↔ ¬ HasPhase record := by
  obtain ⟨worker, requestId, received, started, kvReady, xferStart, xferEnd, completed⟩ := record
  cases received <;> cases started <;> cases kvReady <;> cases xferStart <;> cases xferEnd <;>
    simp [segments, segment?, HasPhase, List.reduceOption]

theorem mem_labels {arguments : List String} {label : String} :
    label ∈ labels arguments ↔ label ∈ arguments := by
  rw [labels, ← AList.mem_keys, AList.mem_addAll, or_iff_left (AList.notMem_empty label)]

theorem mem_colorByWorker {smi : List String} {label : String} :
    label ∈ colorByWorker smi ↔ label ∈ smi := by
  have colored (entries : List (String × ℕ)) (colors : Dict String String) :
      label ∈ entries.foldl (fun colors (label, index) =>
        colors.set label (palette.getD (index % palette.length) "")) colors ↔
          label ∈ entries.map Prod.fst ∨ label ∈ colors := by
    induction entries generalizing colors with
    | nil => simp
    | cons entry entries ih =>
        rw [List.foldl_cons, ih, AList.mem_set, List.map_cons, List.mem_cons]
        tauto
  rw [colorByWorker, colored, List.zipIdx_map_fst, mem_labels,
    or_iff_left (AList.notMem_empty label)]

section Rows

variable {colors : Dict String String} {start : ℚ}

/-- The row loop numbers the drawn records of each worker, and has a row for each. -/
structure Draws (colors : Dict String String) (start : ℚ) (records : List RequestRecord)
    (timeline : Timeline) : Prop where
  /-- A worker's rows are counted. -/
  count : ∀ worker ∈ colors,
    (timeline.perWorkerIdx.lookup worker).getD 0 = (ownRecords worker records).length
  /-- A worker's rows are those of its records, in their order. -/
  own : ∀ worker ∈ colors, (timeline.ganttRows.filter fun row => row.worker = worker) =
    ownRows colors start worker records
  /-- Rows keep the receive times. -/
  times : timeline.ganttRows.map GanttRow.tRecv =
    (drawn colors records).map RequestRecord.tReceived

theorem addRecord_of_not_drawn (start : ℚ) (timeline : Timeline) {record : RequestRecord}
    (skipped : ∀ worker ∈ colors, record.worker = some worker → ¬ HasPhase record) :
    (addRecord colors start timeline record).perWorkerIdx = timeline.perWorkerIdx ∧
      (addRecord colors start timeline record).ganttRows = timeline.ganttRows := by
  rw [addRecord]
  split
  · exact ⟨rfl, rfl⟩
  · rename_i worker isWorker
    split
    · rename_i plotted
      rw [if_pos (segments_isEmpty.mpr (skipped worker plotted isWorker))]
      exact ⟨rfl, rfl⟩
    · exact ⟨rfl, rfl⟩

theorem addRecord_of_drawn (start : ℚ) (timeline : Timeline) {record : RequestRecord}
    {worker : String} (isWorker : record.worker = some worker) (plotted : worker ∈ colors)
    (hasPhase : HasPhase record) :
    (addRecord colors start timeline record).perWorkerIdx =
        timeline.perWorkerIdx.set worker ((timeline.perWorkerIdx.lookup worker).getD 0 + 1) ∧
      (addRecord colors start timeline record).ganttRows = timeline.ganttRows ++
        [rowOf colors start worker record ((timeline.perWorkerIdx.lookup worker).getD 0 + 1)] := by
  have bars : ¬ (segments start record).isEmpty := fun empty =>
    segments_isEmpty.mp empty hasPhase
  simp [addRecord, isWorker, plotted, bars]

theorem ownRecords_append (worker : String) (records : List RequestRecord)
    (record : RequestRecord) : ownRecords worker (records ++ [record]) =
      ownRecords worker records ++
        if record.worker = some worker ∧ HasPhase record then [record] else [] := by
  rw [ownRecords, List.filter_append, ← ownRecords]
  by_cases isOwn : record.worker = some worker ∧ HasPhase record <;> simp [isOwn]

theorem ownRows_append (worker : String) (records : List RequestRecord)
    (record : RequestRecord) : ownRows colors start worker (records ++ [record]) =
      ownRows colors start worker records ++
        if record.worker = some worker ∧ HasPhase record then
          [rowOf colors start worker record ((ownRecords worker records).length + 1)]
        else [] := by
  rw [ownRows, ownRecords_append, List.zipIdx_append, List.map_append, ← ownRows]
  split
  · simp [Nat.add_comm]
  · simp

theorem drawn_append (records : List RequestRecord) (record : RequestRecord) :
    drawn colors (records ++ [record]) = drawn colors records ++
      if (∃ worker ∈ colors, record.worker = some worker) ∧ HasPhase record then [record]
      else [] := by
  have same : (record.worker.any fun worker => worker ∈ colors) = true ↔
      ∃ worker ∈ colors, record.worker = some worker := by
    cases record.worker <;> simp
  rw [drawn, List.filter_append, ← drawn]
  simp only [List.filter_cons, List.filter_nil, same, decide_eq_true_eq]

/-- The row loop does what it is for. -/
theorem draws_ofRecords (colors : Dict String String) (start : ℚ)
    (records : List RequestRecord) :
    Draws colors start records (ofRecords colors start records) := by
  induction records using List.reverseRecOn with
  | nil => exact ⟨fun _ _ => rfl, fun _ _ => rfl, rfl⟩
  | append_singleton records record ih =>
      have turn : ofRecords colors start (records ++ [record]) =
          addRecord colors start (ofRecords colors start records) record := by
        rw [ofRecords, List.foldl_append]
        rfl
      rw [turn]
      by_cases isDrawn : (∃ worker ∈ colors, record.worker = some worker) ∧ HasPhase record
      · obtain ⟨⟨worker, plotted, isWorker⟩, hasPhase⟩ := isDrawn
        obtain ⟨numbers, rows⟩ :=
          addRecord_of_drawn start (ofRecords colors start records) isWorker plotted hasPhase
        refine ⟨fun other member => ?_, fun other member => ?_, ?_⟩
        · rw [numbers, ownRecords_append]
          by_cases same : other = worker
          · subst same
            rw [AList.lookup_set, if_pos ⟨isWorker, hasPhase⟩, ih.count other member]
            simp
          · have different : record.worker ≠ some other := by
              rw [isWorker]
              exact fun equal => same (Option.some.inj equal).symm
            rw [AList.lookup_set_ne same, ih.count other member]
            simp [different]
        · rw [rows, List.filter_append, ih.own other member, ownRows_append]
          by_cases same : other = worker
          · subst same
            rw [if_pos ⟨isWorker, hasPhase⟩, ih.count other member]
            simp [rowOf]
          · have different : record.worker ≠ some other := by
              rw [isWorker]
              exact fun equal => same (Option.some.inj equal).symm
            simp [different, rowOf, Ne.symm same]
        · rw [rows, List.map_append, ih.times, drawn_append,
            if_pos ⟨⟨worker, plotted, isWorker⟩, hasPhase⟩, List.map_append]
          rfl
      · have skipped : ∀ worker ∈ colors, record.worker = some worker → ¬ HasPhase record :=
          fun worker plotted isWorker hasPhase => isDrawn ⟨⟨worker, plotted, isWorker⟩, hasPhase⟩
        obtain ⟨numbers, rows⟩ :=
          addRecord_of_not_drawn start (ofRecords colors start records) skipped
        have notOwn (other : String) (member : other ∈ colors) :
            ¬ (record.worker = some other ∧ HasPhase record) := fun own =>
          skipped other member own.1 own.2
        refine ⟨fun other member => ?_, fun other member => ?_, ?_⟩
        · rw [numbers, ih.count other member, ownRecords_append, if_neg (notOwn other member),
            List.append_nil]
        · rw [rows, ih.own other member, ownRows_append, if_neg (notOwn other member),
            List.append_nil]
        · rw [rows, ih.times, drawn_append, if_neg isDrawn, List.append_nil]

end Rows

/-! ## The panels -/

theorem lookup_rowsByWorker (rows : List GanttRow) (worker : String) :
    ((rowsByWorker rows).lookup worker).getD [] = rows.filter fun row => row.worker = worker := by
  induction rows using List.reverseRecOn with
  | nil => rfl
  | append_singleton rows row ih =>
      have turn : rowsByWorker (rows ++ [row]) = (rowsByWorker rows).set row.worker
          (((rowsByWorker rows).lookup row.worker).getD [] ++ [row]) := by
        rw [rowsByWorker, List.foldl_append]
        rfl
      rw [turn, List.filter_append, ← ih]
      by_cases same : worker = row.worker
      · subst same
        rw [AList.lookup_set]
        simp
      · rw [AList.lookup_set_ne same]
        simp [Ne.symm same]

/-- Each worker has one panel, with one row for each of its records that is drawn. -/
structure Plots (smi : List String) (start : ℚ) (records : List RequestRecord)
    (panels : List (String × List GanttRow)) : Prop where
  /-- No worker has two panels. -/
  one_panel : (panels.map Prod.fst).Nodup
  /-- Every worker has a panel. -/
  has_panel : ∀ worker ∈ smi, worker ∈ panels.map Prod.fst
  /-- A panel has a row for each record of its worker. -/
  rows : ∀ panel ∈ panels,
    panel.2.Perm (ownRows (colorByWorker smi) start panel.1 records)

/-- The drawn records can be put in order. -/
def Dated (smi : List String) (records : List RequestRecord) : Prop :=
  (drawn (colorByWorker smi) records).length ≤ 1 ∨
    ∀ record ∈ drawn (colorByWorker smi) records, record.tReceived.isSome

theorem sort_isOk_iff_dated (smi : List String) (start : ℚ) (records : List RequestRecord) :
    (∃ rows, KeyedSort.sort GanttRow.tRecv PyError.typeError
      (ofRecords (colorByWorker smi) start records).ganttRows = .ok rows) ↔
        Dated smi records := by
  have times := (draws_ofRecords (colorByWorker smi) start records).times
  have count := congrArg List.length times
  rw [List.length_map, List.length_map] at count
  rw [KeyedSort.sort_isOk_iff, Dated, count]
  apply or_congr_right
  rw [KeyedSort.Keyed, ← List.forall_mem_map (f := GanttRow.tRecv) (P := fun time => time.isSome),
    times, List.forall_mem_map]

/-- Rows that can be put in order are drawn, each on the panel of its worker. -/
theorem plots_of_sort {smi gpus : List String} (alike : ∀ worker, worker ∈ smi ↔ worker ∈ gpus)
    {start : ℚ} {records : List RequestRecord} {rows : List GanttRow}
    (sorted : KeyedSort.sort GanttRow.tRecv PyError.typeError
      (ofRecords (colorByWorker smi) start records).ganttRows = .ok rows) :
    Plots smi start records ((labels gpus).map fun worker =>
      (worker, ((rowsByWorker rows).lookup worker).getD [])) := by
  have names : ((labels gpus).map fun worker =>
      (worker, ((rowsByWorker rows).lookup worker).getD [])).map Prod.fst = labels gpus := by
    rw [List.map_map]
    exact List.map_id _
  refine ⟨?_, fun worker member => ?_, fun panel member => ?_⟩
  · rw [names]
    exact AList.keys_nodup _
  · rw [names, mem_labels]
    exact (alike worker).mp member
  · obtain ⟨worker, inside, rfl⟩ := List.mem_map.mp member
    have plotted : worker ∈ colorByWorker smi :=
      mem_colorByWorker.mpr ((alike worker).mpr (mem_labels.mp inside))
    rw [lookup_rowsByWorker,
      ← (draws_ofRecords (colorByWorker smi) start records).own worker plotted]
    exact (KeyedSort.perm_of_sort sorted).filter _

theorem exists_sorted_of_panels {smi gpus : List String} {start : ℚ}
    {records : List RequestRecord} {drawing : List (String × List GanttRow)}
    (built : panels smi gpus start records = .ok drawing) :
    ∃ rows, KeyedSort.sort GanttRow.tRecv PyError.typeError
      (ofRecords (colorByWorker smi) start records).ganttRows = .ok rows := by
  rw [panels] at built
  cases sorted : KeyedSort.sort GanttRow.tRecv PyError.typeError
      (ofRecords (colorByWorker smi) start records).ganttRows with
  | error raised =>
      simp only [sorted] at built
      cases built
  | ok rows => exact ⟨rows, rfl⟩

/-- The rows of the plot are built and put in order, and each drawn record has one row on the panel
of its worker, exactly when at most one record is drawn or every drawn record has a receive
time. -/
theorem panels_iff {smi gpus : List String} (alike : ∀ worker, worker ∈ smi ↔ worker ∈ gpus)
    (start : ℚ) (records : List RequestRecord) :
    (∃ drawing, panels smi gpus start records = .ok drawing ∧ Plots smi start records drawing) ↔
      Dated smi records := by
  rw [← sort_isOk_iff_dated smi start records]
  constructor
  · rintro ⟨drawing, built, _⟩
    exact exists_sorted_of_panels built
  · rintro ⟨rows, sorted⟩
    refine ⟨_, ?_, plots_of_sort alike sorted⟩
    rw [panels]
    simp only [sorted]
    rfl

/-! ## A request without its receive time -/

open LogPatterns

theorem dated_perm {smi : List String} {records others : List RequestRecord}
    (perm : records.Perm others) : Dated smi records ↔ Dated smi others := by
  have same : (drawn (colorByWorker smi) records).Perm (drawn (colorByWorker smi) others) :=
    perm.filter _
  rw [Dated, Dated, same.length_eq]
  simp only [same.mem_iff]

/-- A log with a whole request, and with one that was received before the log begins. -/
def rotated : PrefillLog LogReading where
  worker := "worker0"
  lines :=
    [.started "6fa459ea-ee8a-3ca4-894e-db77e160355e" 1783486037,
      .received "1b4e28ba-2fa1-11d2-883f-0016d3cca427" 1783486038,
      .kvReady "6fa459ea-ee8a-3ca4-894e-db77e160355e" 1783486039 2000,
      .started "1b4e28ba-2fa1-11d2-883f-0016d3cca427" 1783486040]

/-- What the extraction makes of a log, as the plot reads it. -/
def extracted (log : PrefillLog LogReading) : List RequestRecord :=
  (asRead.extract ⟨id, SetOrder.perm_id⟩ [log] none .all).map EventRecord.toRequest

theorem extracted_perm (log : PrefillLog LogReading) : (extracted log).Perm
    (((asRead.allRecords ⟨id, SetOrder.perm_id⟩ [log] none).entries.map Sigma.snd).map
      EventRecord.toRequest) :=
  (extract_perm _ _ _).map _

/-- The plot raises on the records of such a log. -/
theorem not_plots_rotated : ¬ ∃ drawing,
    panels ["worker0"] ["worker0"] 1783486030 (extracted rotated) = .ok drawing ∧
      Plots ["worker0"] 1783486030 (extracted rotated) drawing := by
  rintro ⟨drawing, built, _⟩
  have dated := (sort_isOk_iff_dated _ _ _).mp (exists_sorted_of_panels built)
  rw [dated_perm (extracted_perm rotated)] at dated
  revert dated
  rw [Dated]
  decide +kernel

/-- The log from a moment earlier on. -/
def whole : PrefillLog LogReading :=
  { rotated with
    lines := .received "6fa459ea-ee8a-3ca4-894e-db77e160355e" 1783486036 :: rotated.lines }

/-- Both requests are drawn when both have their receive times. -/
theorem plots_whole : ∃ drawing,
    panels ["worker0"] ["worker0"] 1783486030 (extracted whole) = .ok drawing ∧
      Plots ["worker0"] 1783486030 (extracted whole) drawing := by
  rw [panels_iff fun worker => Iff.rfl, dated_perm (extracted_perm whole), Dated]
  decide +kernel

end Timeline

end RduHdi
