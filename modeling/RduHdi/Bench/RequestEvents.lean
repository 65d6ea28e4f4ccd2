import RduHdi.Bench.ChromeTrace
import RduHdi.Connector.Sending

/-!
# From worker logs to request records

`extract_request_events.py` reads what its patterns find in each prefill log into four maps, joins
them into one record for each request, writes the records of the logs over each other in the order
of the arguments, and adds what the decode log says.

A pattern is given by what it reads off a line.  Which pattern a line is tried with first is the
program's.  A line that a pattern finds its words in, but whose date or number Python does not read,
ends the program and has no reading here.
-/

namespace RduHdi

/-- The patterns, by what they find in a line: a request id, and the time of the line with what
else is read.  `parse_short` reads whole seconds. -/
structure LogPatterns (line : Type*) where
  /-- `RECEIVED_RE`, and the time of the line. -/
  received : line → Option (String × ℚ)
  /-- `COMPLETED_RE`, and the time of the line. -/
  completed : line → Option (String × ℚ)
  /-- `STARTED_RE`, and the second of the line. -/
  started : line → Option (String × ℤ)
  /-- `KV_READY_RE`: the second of the line and the elapsed milliseconds. -/
  kvReady : line → Option (String × ℤ × ℕ)
  /-- `XFER_RE`: the second of the line and the elapsed milliseconds. -/
  xfer : line → Option (String × ℤ × ℚ≥0)

/-- What the loop over a log takes from a line. -/
inductive LogReading where
  | received (id : String) (time : ℚ)
  | completed (id : String) (time : ℚ)
  | started (id : String) (second : ℤ)
  | kvReady (id : String) (second : ℤ) (elapsedMs : ℕ)
  | xfer (id : String) (second : ℤ) (elapsedMs : ℚ≥0)
  | nothing

/-- `id[:8]`. -/
def requestKey (id : String) : String :=
  .ofList (id.toList.take 8)

namespace LogPatterns

variable {line : Type*} (patterns : LogPatterns line)

/-- The patterns of a prefill log, in the order in which they are tried. -/
def readPrefill (text : line) : LogReading :=
  match patterns.received text with
  | some (id, time) => .received id time
  | none =>
      match patterns.completed text with
      | some (id, time) => .completed id time
      | none =>
          match patterns.started text with
          | some (id, second) => .started id second
          | none =>
              match patterns.kvReady text with
              | some (id, second, elapsedMs) => .kvReady id second elapsedMs
              | none => .nothing

/-- The patterns of a decode log, in the order in which they are tried. -/
def readDecode (text : line) : LogReading :=
  match patterns.received text with
  | some (id, time) => .received id time
  | none =>
      match patterns.completed text with
      | some (id, time) => .completed id time
      | none =>
          match patterns.xfer text with
          | some (id, second, elapsedMs) => .xfer id second elapsedMs
          | none => .nothing

end LogPatterns

/-- The maps of one log, by the first characters of the request id. -/
structure LogMaps where
  /-- When requests were received. -/
  received : Dict String ℚ
  /-- When requests were done. -/
  completed : Dict String ℚ
  /-- When prefills started. -/
  started : Dict String ℤ
  /-- When prefills were done, and how long they took. -/
  kvReady : Dict String (ℤ × ℕ)
  /-- When transfers started and ended, and how long they took. -/
  xfer : Dict String (ℚ × ℤ × ℚ≥0)

namespace LogMaps

def init : LogMaps where
  received := ∅
  completed := ∅
  started := ∅
  kvReady := ∅
  xfer := ∅

/-- One turn of the loop over a log. -/
def take (maps : LogMaps) : LogReading → LogMaps
  | .received id time => { maps with received := maps.received.set (requestKey id) time }
  | .completed id time => { maps with completed := maps.completed.set (requestKey id) time }
  | .started id second => { maps with started := maps.started.set (requestKey id) second }
  | .kvReady id second elapsedMs =>
      { maps with kvReady := maps.kvReady.set (requestKey id) (second, elapsedMs) }
  | .xfer id second elapsedMs =>
      { maps with
        xfer := maps.xfer.set (requestKey id) (second - elapsedMs / 1000, second, elapsedMs) }
  | .nothing => maps

def ofReadings (readings : List LogReading) : LogMaps :=
  readings.foldl take init

/-- `set(received) | set(started) | set(kv_ready) | set(completed)`, and the same for the maps of
a decode log, where other maps are empty. -/
def keySet (maps : LogMaps) : KeySet String :=
  (((((∅ : KeySet String).addAll maps.received.keys).addAll maps.started.keys).addAll
    maps.kvReady.keys).addAll maps.completed.keys).addAll maps.xfer.keys

end LogMaps

/-- The fields that the decode log adds to a record. -/
structure DecodeFields where
  /-- When the decode worker received the request. -/
  tReceivedDecode : Option ℚ
  /-- When the decode worker was done. -/
  tCompletedDecode : Option ℚ
  /-- When the transfer started, by its end and its length. -/
  tXferStart : Option ℚ
  /-- When the transfer ended. -/
  tXferEnd : Option ℚ
  /-- How long the transfer took. -/
  xferElapsedMs : Option ℚ
  deriving DecidableEq

/-- A record of the output; the decode-side fields are absent when the decode log does not name
the request. -/
structure EventRecord where
  /-- The label of the log. -/
  worker : Option String
  /-- The first characters of the id. -/
  requestId : String
  /-- When the request was received. -/
  tReceived : Option ℚ
  /-- When its prefill started. -/
  tStarted : Option ℚ
  /-- When its prefill was done. -/
  tKvReady : Option ℚ
  /-- How long its prefill took. -/
  computeMs : Option ℕ
  /-- When the request was done. -/
  tCompleted : Option ℚ
  /-- What the decode log adds. -/
  decode : Option DecodeFields
  deriving DecidableEq

namespace EventRecord

/-- The record of a request that no prefill log names. -/
def undated (key : String) : EventRecord where
  worker := none
  requestId := key
  tReceived := none
  tStarted := none
  tKvReady := none
  computeMs := none
  tCompleted := none
  decode := none

/-- The record of a request in one prefill log. -/
def ofMaps (worker : String) (maps : LogMaps) (key : String) : EventRecord where
  worker := some worker
  requestId := key
  tReceived := maps.received.lookup key
  tStarted := (maps.started.lookup key).map fun second : ℤ => (second : ℚ)
  tKvReady := (maps.kvReady.lookup key).map fun kv => (kv.1 : ℚ)
  computeMs := (maps.kvReady.lookup key).map Prod.snd
  tCompleted := maps.completed.lookup key
  decode := none

/-- Add the fields of the decode log. -/
def patch (maps : LogMaps) (record : EventRecord) (key : String) : EventRecord :=
  { record with
    decode := some
      { tReceivedDecode := maps.received.lookup key
        tCompletedDecode := maps.completed.lookup key
        tXferStart := (maps.xfer.lookup key).map Prod.fst
        tXferEnd := (maps.xfer.lookup key).map fun xfer => (xfer.2.1 : ℚ)
        xferElapsedMs := (maps.xfer.lookup key).map fun xfer => (xfer.2.2 : ℚ) } }

/-- The record as the other programs read it: an absent field reads as null. -/
def toRequest (record : EventRecord) : RequestRecord where
  worker := record.worker
  requestId := some record.requestId
  tReceived := record.tReceived
  tStarted := record.tStarted
  tKvReady := record.tKvReady
  tXferStart := record.decode.bind DecodeFields.tXferStart
  tXferEnd := record.decode.bind DecodeFields.tXferEnd
  tCompletedDecode := record.decode.bind DecodeFields.tCompletedDecode

end EventRecord

/-- A `worker=path` argument, with the lines of its file. -/
structure PrefillLog (line : Type*) where
  /-- The label before `=`. -/
  worker : String
  /-- The lines of the file. -/
  lines : List line

/-- The `--start` and `--end` arguments. -/
structure EventWindow where
  /-- `--start`. -/
  start : Option ℚ
  /-- `--end`. -/
  finish : Option ℚ

namespace EventWindow

/-- No window. -/
def all : EventWindow where
  start := none
  finish := none

/-- `in_window`: records without a receive time are kept. -/
def contains (window : EventWindow) (record : EventRecord) : Bool :=
  match record.tReceived with
  | none => true
  | some time =>
      (window.start.all fun start => start - 10 ≤ time) &&
        window.finish.all fun finish => time ≤ finish + 10

end EventWindow

namespace LogPatterns

variable {line : Type*} (patterns : LogPatterns line)

/-- The maps of a prefill log. -/
def prefillMaps (log : PrefillLog line) : LogMaps :=
  .ofReadings (log.lines.map patterns.readPrefill)

/-- `parse_prefill_log`; the set of keys is iterated over in some order. -/
def parsePrefillLog (order : SetOrder) (log : PrefillLog line) : Dict String EventRecord :=
  let maps := patterns.prefillMaps log
  (order.arrange maps.keySet.keys).foldl
    (fun records key => records.set key (.ofMaps log.worker maps key)) ∅

/-- `parse_decode_log`. -/
def parseDecodeLog (lines : List line) : LogMaps :=
  .ofReadings (lines.map patterns.readDecode)

/-- The loop over the arguments. -/
def mergeLogs (order : SetOrder) (logs : List (PrefillLog line)) : Dict String EventRecord :=
  logs.foldl (fun records log => records.update (patterns.parsePrefillLog order log)) ∅

/-- The loop over the keys of the decode log. -/
def patchRecords (order : SetOrder) (records : Dict String EventRecord) (maps : LogMaps) :
    Dict String EventRecord :=
  (order.arrange maps.keySet.keys).foldl
    (fun records key =>
      records.set key (.patch maps ((records.lookup key).getD (.undated key)) key))
    records

/-- `all_records` after every log. -/
def allRecords (order : SetOrder) (logs : List (PrefillLog line)) (decode : Option (List line)) :
    Dict String EventRecord :=
  let records := patterns.mergeLogs order logs
  match decode with
  | none => records
  | some lines => patchRecords order records (patterns.parseDecodeLog lines)

/-- `extract_request_events.py`. -/
def extract (order : SetOrder) (logs : List (PrefillLog line)) (decode : Option (List line))
    (window : EventWindow) : List EventRecord :=
  (((patterns.allRecords order logs decode).entries.map Sigma.snd).filter window.contains).mergeSort
    fun first second => first.tReceived.getD 0 ≤ second.tReceived.getD 0

end LogPatterns

/-! ## What the maps of a log hold -/

namespace LogReading

def received? : LogReading → Option (String × ℚ)
  | .received id time => some (id, time)
  | _ => none

def completed? : LogReading → Option (String × ℚ)
  | .completed id time => some (id, time)
  | _ => none

def started? : LogReading → Option (String × ℤ)
  | .started id second => some (id, second)
  | _ => none

def kvReady? : LogReading → Option (String × ℤ × ℕ)
  | .kvReady id second elapsedMs => some (id, second, elapsedMs)
  | _ => none

def xfer? : LogReading → Option (String × ℚ × ℤ × ℚ≥0)
  | .xfer id second elapsedMs => some (id, second - elapsedMs / 1000, second, elapsedMs)
  | _ => none

/-- A reading of some kind names a request. -/
def Found {α : Type*} (read : LogReading → Option (String × α)) (readings : List LogReading)
    (key : String) : Prop :=
  ∃ reading ∈ readings, ∃ id value, read reading = some (id, value) ∧ requestKey id = key

/-- The last reading of some kind that names a request. -/
def newest {α : Type*} (read : LogReading → Option (String × α)) (key : String) :
    List LogReading → Option α
  | [] => none
  | reading :: readings =>
      (newest read key readings).or <|
        match read reading with
        | some (id, value) => if requestKey id = key then some value else none
        | none => none

/-- A request is named in a log. -/
structure Names (readings : List LogReading) (key : String) : Prop where
  /-- Some pattern finds it. -/
  found : Found received? readings key ∨ Found started? readings key ∨
    Found kvReady? readings key ∨ Found completed? readings key ∨ Found xfer? readings key

section

variable {α : Type*} {read : LogReading → Option (String × α)}

theorem newest_isSome {readings : List LogReading} {key : String} :
    (newest read key readings).isSome ↔ Found read readings key := by
  induction readings with
  | nil => simp [newest, Found]
  | cons reading readings ih =>
      rw [newest, Option.isSome_or, Bool.or_eq_true, ih]
      simp only [Found, List.exists_mem_cons_iff]
      rw [or_comm]
      apply or_congr_left
      cases read reading with
      | none => simp
      | some entry =>
          obtain ⟨id, value⟩ := entry
          by_cases same : requestKey id = key <;> simp [same]

theorem exists_of_newest {readings : List LogReading} {key : String} {value : α}
    (taken : newest read key readings = some value) :
    ∃ reading ∈ readings, ∃ id, read reading = some (id, value) := by
  induction readings with
  | nil => cases taken
  | cons reading readings ih =>
      rw [newest, Option.or_eq_some_iff] at taken
      rcases taken with later | ⟨_, here⟩
      · obtain ⟨other, member, read⟩ := ih later
        exact ⟨other, List.mem_cons_of_mem reading member, read⟩
      · refine ⟨reading, List.mem_cons_self, ?_⟩
        cases taken : read reading with
        | none =>
            rw [taken] at here
            cases here
        | some entry =>
            obtain ⟨id, found⟩ := entry
            rw [taken] at here
            obtain ⟨_, same⟩ := Option.ite_none_right_eq_some.mp here
            exact ⟨id, by rw [Option.some.inj same]⟩

/-- Write what was read, if anything. -/
def write (entry : Option (String × α)) (dict : Dict String α) : Dict String α :=
  match entry with
  | some (id, value) => dict.set (requestKey id) value
  | none => dict

theorem lookup_foldl_write (readings : List LogReading) (key : String) (dict : Dict String α) :
    (readings.foldl (fun dict reading => write (read reading) dict) dict).lookup key =
      (newest read key readings).or (dict.lookup key) := by
  induction readings generalizing dict with
  | nil => rfl
  | cons reading readings ih =>
      rw [List.foldl_cons, ih, newest, Option.or_assoc]
      congr 1
      cases read reading with
      | none => rfl
      | some entry =>
          obtain ⟨id, value⟩ := entry
          by_cases same : requestKey id = key
          · simp [write, same]
          · simp [write, same, AList.lookup_set_ne (Ne.symm same)]

end

end LogReading

namespace LogMaps

open LogReading

theorem lookup_ofReadings {α : Type*} (map : LogMaps → Dict String α)
    (read : LogReading → Option (String × α)) (empty : map init = ∅)
    (taken : ∀ maps reading, map (take maps reading) = write (read reading) (map maps))
    (readings : List LogReading) (key : String) :
    (map (ofReadings readings)).lookup key = newest read key readings := by
  have hom : map (ofReadings readings) =
      readings.foldl (fun dict reading => write (read reading) dict) ∅ := by
    rw [ofReadings, ← empty]
    exact (List.foldl_hom map fun maps reading => (taken maps reading).symm).symm
  rw [hom, lookup_foldl_write]
  simp

section

variable (readings : List LogReading) (key : String)

theorem lookup_received :
    (ofReadings readings).received.lookup key = newest received? key readings :=
  lookup_ofReadings received received? rfl
    (fun maps reading => by cases reading <;> rfl) readings key

theorem lookup_completed :
    (ofReadings readings).completed.lookup key = newest completed? key readings :=
  lookup_ofReadings completed completed? rfl
    (fun maps reading => by cases reading <;> rfl) readings key

theorem lookup_started :
    (ofReadings readings).started.lookup key = newest started? key readings :=
  lookup_ofReadings started started? rfl
    (fun maps reading => by cases reading <;> rfl) readings key

theorem lookup_kvReady :
    (ofReadings readings).kvReady.lookup key = newest kvReady? key readings :=
  lookup_ofReadings kvReady kvReady? rfl
    (fun maps reading => by cases reading <;> rfl) readings key

theorem lookup_xfer :
    (ofReadings readings).xfer.lookup key = newest xfer? key readings :=
  lookup_ofReadings xfer xfer? rfl
    (fun maps reading => by cases reading <;> rfl) readings key

theorem mem_keys_iff {α : Type*} {dict : Dict String α}
    {read : LogReading → Option (String × α)}
    (lookup : dict.lookup key = newest read key readings) :
    key ∈ dict.keys ↔ Found read readings key := by
  rw [← AList.mem_keys, ← AList.lookup_isSome, lookup, newest_isSome]

theorem mem_keySet : key ∈ (ofReadings readings).keySet ↔ Names readings key := by
  simp only [keySet, AList.mem_addAll]
  rw [mem_keys_iff readings key (lookup_received readings key),
    mem_keys_iff readings key (lookup_started readings key),
    mem_keys_iff readings key (lookup_kvReady readings key),
    mem_keys_iff readings key (lookup_completed readings key),
    mem_keys_iff readings key (lookup_xfer readings key)]
  constructor
  · intro found
    exact ⟨by simpa [or_comm, or_assoc, or_left_comm] using found⟩
  · rintro ⟨found⟩
    simpa [or_comm, or_assoc, or_left_comm] using found

end

end LogMaps

end RduHdi
