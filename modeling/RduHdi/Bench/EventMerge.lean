import RduHdi.Bench.RequestEvents

/-!
# Requests that several logs name

The records of a prefill log are written over those of the logs before it, whole records at a
time.  What an earlier log says about a request is lost, unless the later one says the same: the
extraction loses nothing, and gives the same records for every order of its arguments, exactly
when any two prefill logs that name a request say the same about it.
-/

namespace RduHdi

namespace LogPatterns

open LogReading

variable {line : Type*} (patterns : LogPatterns line)

/-- What the loop over a prefill log reads. -/
def prefillReadings (log : PrefillLog line) : List LogReading :=
  log.lines.map patterns.readPrefill

/-- What the loop over the decode log reads. -/
def decodeReadings (lines : List line) : List LogReading :=
  lines.map patterns.readDecode

/-- The record of a request, from what the prefill logs gave it. -/
def finishRecord (decode : Option (List line)) (key : String) (record : Option EventRecord) :
    Option EventRecord :=
  match decode with
  | none => record
  | some lines =>
      let maps := patterns.parseDecodeLog lines
      if key ∈ maps.keySet then some (.patch maps (record.getD (.undated key)) key) else record

variable {patterns} {order : SetOrder} {logs : List (PrefillLog line)}
  {decode : Option (List line)} {key : String} {record : EventRecord}

theorem mem_prefillMaps {log : PrefillLog line} :
    key ∈ (patterns.prefillMaps log).keySet ↔ Names (patterns.prefillReadings log) key :=
  LogMaps.mem_keySet (patterns.prefillReadings log) key

theorem mem_parseDecodeLog {lines : List line} :
    key ∈ (patterns.parseDecodeLog lines).keySet ↔ Names (patterns.decodeReadings lines) key :=
  LogMaps.mem_keySet (patterns.decodeReadings lines) key

theorem lookup_parsePrefillLog (order : SetOrder) (log : PrefillLog line) (key : String) :
    (patterns.parsePrefillLog order log).lookup key =
      if key ∈ (patterns.prefillMaps log).keySet then
        some (.ofMaps log.worker (patterns.prefillMaps log) key)
      else
        none := by
  have perm := order.perm (patterns.prefillMaps log).keySet.keys
  rw [parsePrefillLog, AList.lookup_foldl_modify (perm.nodup_iff.mpr (AList.keys_nodup _))
    (fun key _ => EventRecord.ofMaps log.worker (patterns.prefillMaps log) key)]
  simp only [perm.mem_iff, ← AList.mem_keys, AList.lookup_empty]

theorem lookup_mergeLogs (order : SetOrder) (logs : List (PrefillLog line)) (key : String) :
    (patterns.mergeLogs order logs).lookup key =
      logs.reverse.findSome? fun log => (patterns.parsePrefillLog order log).lookup key := by
  rw [mergeLogs, AList.lookup_foldl_update]
  simp

theorem exists_log_of_lookup (found : (patterns.mergeLogs order logs).lookup key = some record) :
    ∃ log ∈ logs, Names (patterns.prefillReadings log) key ∧
      record = .ofMaps log.worker (patterns.prefillMaps log) key := by
  rw [lookup_mergeLogs] at found
  obtain ⟨log, member, taken⟩ := List.exists_of_findSome?_eq_some found
  rw [lookup_parsePrefillLog] at taken
  split at taken
  · rename_i present
    exact ⟨log, List.mem_reverse.mp member, mem_prefillMaps.mp present,
      (Option.some.inj taken).symm⟩
  · cases taken

theorem lookup_mergeLogs_isSome (order : SetOrder) :
    ((patterns.mergeLogs order logs).lookup key).isSome ↔
      ∃ log ∈ logs, Names (patterns.prefillReadings log) key := by
  constructor
  · intro present
    obtain ⟨record, found⟩ := Option.isSome_iff_exists.mp present
    obtain ⟨log, member, named, _⟩ := exists_log_of_lookup found
    exact ⟨log, member, named⟩
  · rintro ⟨log, member, named⟩
    rw [lookup_mergeLogs, List.findSome?_isSome_iff]
    refine ⟨log, List.mem_reverse.mpr member, ?_⟩
    rw [lookup_parsePrefillLog, if_pos (mem_prefillMaps.mpr named)]
    rfl

theorem lookup_mergeLogs_append {log : PrefillLog line}
    (named : Names (patterns.prefillReadings log) key) :
    (patterns.mergeLogs order (logs ++ [log])).lookup key =
      some (.ofMaps log.worker (patterns.prefillMaps log) key) := by
  rw [lookup_mergeLogs, List.reverse_append, List.reverse_singleton, List.singleton_append,
    List.findSome?_cons, lookup_parsePrefillLog, if_pos (mem_prefillMaps.mpr named)]

theorem lookup_allRecords (order : SetOrder) (logs : List (PrefillLog line))
    (decode : Option (List line)) (key : String) :
    (patterns.allRecords order logs decode).lookup key =
      patterns.finishRecord decode key ((patterns.mergeLogs order logs).lookup key) := by
  cases decode with
  | none => rfl
  | some lines =>
      have perm := order.perm (patterns.parseDecodeLog lines).keySet.keys
      rw [allRecords, patchRecords, finishRecord,
        AList.lookup_foldl_modify (perm.nodup_iff.mpr (AList.keys_nodup _))
          fun key record => EventRecord.patch (patterns.parseDecodeLog lines)
            (record.getD (.undated key)) key]
      simp only [perm.mem_iff, ← AList.mem_keys]

/-- A record stands under its own request. -/
theorem requestId_of_lookup (found : (patterns.allRecords order logs decode).lookup key =
    some record) : record.requestId = key := by
  have merged : ∀ {record}, (patterns.mergeLogs order logs).lookup key = some record →
      record.requestId = key := by
    intro record found
    obtain ⟨log, _, _, rfl⟩ := exists_log_of_lookup found
    rfl
  rw [lookup_allRecords] at found
  cases decode with
  | none => exact merged found
  | some lines =>
      rw [finishRecord] at found
      split at found
      · obtain rfl := Option.some.inj found
        cases earlier : (patterns.mergeLogs order logs).lookup key with
        | none => rfl
        | some before => exact (merged earlier : before.requestId = key)
      · exact merged found

/-! ## The output -/

theorem extract_perm (order : SetOrder) (logs : List (PrefillLog line))
    (decode : Option (List line)) :
    (patterns.extract order logs decode .all).Perm
      ((patterns.allRecords order logs decode).entries.map Sigma.snd) := by
  have kept : ((patterns.allRecords order logs decode).entries.map Sigma.snd).filter
      EventWindow.all.contains =
        (patterns.allRecords order logs decode).entries.map Sigma.snd := by
    rw [List.filter_eq_self]
    intro record _
    rw [EventWindow.contains]
    cases record.tReceived <;> rfl
  rw [extract, kept]
  exact List.mergeSort_perm _ _

theorem requestIds_perm (order : SetOrder) (logs : List (PrefillLog line))
    (decode : Option (List line)) :
    ((patterns.extract order logs decode .all).map EventRecord.requestId).Perm
      (patterns.allRecords order logs decode).keys := by
  have ids : ((patterns.allRecords order logs decode).entries.map Sigma.snd).map
      EventRecord.requestId = (patterns.allRecords order logs decode).keys := by
    rw [List.map_map]
    apply List.map_congr_left
    rintro ⟨key, record⟩ member
    exact requestId_of_lookup (AList.mem_lookup_iff.mpr member)
  exact ids ▸ (extract_perm order logs decode).map EventRecord.requestId

theorem nodup_requestIds (order : SetOrder) (logs : List (PrefillLog line))
    (decode : Option (List line)) :
    ((patterns.extract order logs decode .all).map EventRecord.requestId).Nodup :=
  (requestIds_perm order logs decode).nodup_iff.mpr (AList.keys_nodup _)

theorem mem_extract : record ∈ patterns.extract order logs decode .all ↔
    (patterns.allRecords order logs decode).lookup record.requestId = some record := by
  rw [(extract_perm order logs decode).mem_iff, List.mem_map]
  constructor
  · rintro ⟨⟨key, record⟩, member, rfl⟩
    have found := AList.mem_lookup_iff.mpr member
    rw [requestId_of_lookup found]
    exact found
  · intro found
    exact ⟨⟨_, record⟩, AList.mem_lookup_iff.mp found, rfl⟩

theorem eq_of_requestId {first second : EventRecord}
    (left : first ∈ patterns.extract order logs decode .all)
    (right : second ∈ patterns.extract order logs decode .all)
    (same : first.requestId = second.requestId) : first = second := by
  have found := mem_extract.mp left
  rw [same] at found
  exact Option.some.inj (found.symm.trans (mem_extract.mp right))

/-! ## What is lost -/

/-- Two prefill logs say the same about a request. -/
structure SameReadings (patterns : LogPatterns line) (first second : PrefillLog line)
    (key : String) : Prop where
  /-- They are of one worker. -/
  worker : first.worker = second.worker
  /-- They have the same receive time. -/
  received : newest received? key (patterns.prefillReadings first) =
    newest received? key (patterns.prefillReadings second)
  /-- They have the same start. -/
  started : newest started? key (patterns.prefillReadings first) =
    newest started? key (patterns.prefillReadings second)
  /-- They have the same end of the prefill. -/
  kvReady : newest kvReady? key (patterns.prefillReadings first) =
    newest kvReady? key (patterns.prefillReadings second)
  /-- They have the same end. -/
  completed : newest completed? key (patterns.prefillReadings first) =
    newest completed? key (patterns.prefillReadings second)

/-- The record of a request in one log, by the last readings of each kind. -/
theorem ofMaps_prefillMaps (log : PrefillLog line) (key : String) :
    EventRecord.ofMaps log.worker (patterns.prefillMaps log) key =
      { worker := some log.worker
        requestId := key
        tReceived := newest received? key (patterns.prefillReadings log)
        tStarted := (newest started? key (patterns.prefillReadings log)).map
          fun second : ℤ => (second : ℚ)
        tKvReady := (newest kvReady? key (patterns.prefillReadings log)).map
          fun kv => (kv.1 : ℚ)
        computeMs := (newest kvReady? key (patterns.prefillReadings log)).map Prod.snd
        tCompleted := newest completed? key (patterns.prefillReadings log)
        decode := none } := by
  rw [← LogMaps.lookup_received, ← LogMaps.lookup_started, ← LogMaps.lookup_kvReady,
    ← LogMaps.lookup_completed]
  rfl

/-- Two logs say the same about a request exactly when they give it the same record. -/
theorem sameReadings_iff {first second : PrefillLog line} :
    SameReadings patterns first second key ↔
      EventRecord.ofMaps first.worker (patterns.prefillMaps first) key =
        EventRecord.ofMaps second.worker (patterns.prefillMaps second) key := by
  rw [ofMaps_prefillMaps, ofMaps_prefillMaps]
  constructor
  · rintro ⟨worker, received, started, kvReady, completed⟩
    rw [worker, received, started, kvReady, completed]
  · intro same
    simp only [EventRecord.mk.injEq, Option.some.injEq, true_and, and_true] at same
    obtain ⟨worker, received, started, second, elapsedMs, completed⟩ := same
    refine ⟨worker, received, Option.map_injective Rat.intCast_injective started, ?_, completed⟩
    have pair : ∀ {first second : Option (ℤ × ℕ)}, first.map (fun kv => (kv.1 : ℚ)) =
        second.map (fun kv => (kv.1 : ℚ)) → first.map Prod.snd = second.map Prod.snd →
          first = second := by
      intro first second
      cases first <;> cases second <;> simp +contextual [Prod.ext_iff]
    exact pair second elapsedMs

/-- Any two prefill logs that name a request say the same about it. -/
def Agree (patterns : LogPatterns line) (logs : List (PrefillLog line)) : Prop :=
  ∀ first ∈ logs, ∀ second ∈ logs, ∀ key, Names (patterns.prefillReadings first) key →
    Names (patterns.prefillReadings second) key → SameReadings patterns first second key

/-- Every kind of timestamp that some log has for the request of a record is in the record. -/
structure Complete (patterns : LogPatterns line) (logs : List (PrefillLog line))
    (decode : Option (List line)) (record : EventRecord) : Prop where
  /-- A prefill log's receive time is there. -/
  received : ∀ log ∈ logs, Found received? (patterns.prefillReadings log) record.requestId →
    record.tReceived.isSome
  /-- So is its start of the prefill. -/
  started : ∀ log ∈ logs, Found started? (patterns.prefillReadings log) record.requestId →
    record.tStarted.isSome
  /-- So is its end of the prefill. -/
  kvReady : ∀ log ∈ logs, Found kvReady? (patterns.prefillReadings log) record.requestId →
    record.tKvReady.isSome
  /-- So is its end of the request. -/
  completed : ∀ log ∈ logs, Found completed? (patterns.prefillReadings log) record.requestId →
    record.tCompleted.isSome
  /-- The decode log's receive time is there. -/
  receivedDecode : ∀ lines, decode = some lines →
    Found received? (patterns.decodeReadings lines) record.requestId →
      (record.decode.bind DecodeFields.tReceivedDecode).isSome
  /-- So is its end of the request. -/
  completedDecode : ∀ lines, decode = some lines →
    Found completed? (patterns.decodeReadings lines) record.requestId →
      (record.decode.bind DecodeFields.tCompletedDecode).isSome
  /-- So are the times of the transfer. -/
  xfer : ∀ lines, decode = some lines →
    Found xfer? (patterns.decodeReadings lines) record.requestId →
      (record.decode.bind DecodeFields.tXferStart).isSome ∧
        (record.decode.bind DecodeFields.tXferEnd).isSome

/-- The extraction has one record for each request, with everything any log says about it, and the
order of the arguments, like the order of any set on the way, does not matter. -/
structure LosesNothing (patterns : LogPatterns line) (logs : List (PrefillLog line))
    (decode : Option (List line)) : Prop where
  /-- A request has one record. -/
  one_record : ∀ order, ((patterns.extract order logs decode .all).map
    EventRecord.requestId).Nodup
  /-- The requests are those that a log names. -/
  each_key : ∀ order key, (∃ record ∈ patterns.extract order logs decode .all,
    record.requestId = key) ↔ (∃ log ∈ logs, Names (patterns.prefillReadings log) key) ∨
      ∃ lines, decode = some lines ∧ Names (patterns.decodeReadings lines) key
  /-- A record has what the logs have for it. -/
  complete : ∀ order, ∀ record ∈ patterns.extract order logs decode .all,
    Complete patterns logs decode record
  /-- Neither the order of the logs nor that of the sets matters. -/
  order_free : ∀ order other, ∀ arranged : List (PrefillLog line), arranged.Perm logs →
    (patterns.extract other arranged decode .all).Perm (patterns.extract order logs decode .all)

/-- There is a record for each request that some log names, and for no other. -/
theorem exists_record_iff (order : SetOrder) (decode : Option (List line)) :
    (∃ record ∈ patterns.extract order logs decode .all, record.requestId = key) ↔
      (∃ log ∈ logs, Names (patterns.prefillReadings log) key) ∨
        ∃ lines, decode = some lines ∧ Names (patterns.decodeReadings lines) key := by
  have present : (∃ record ∈ patterns.extract order logs decode .all, record.requestId = key) ↔
      ((patterns.allRecords order logs decode).lookup key).isSome := by
    rw [Option.isSome_iff_exists]
    constructor
    · rintro ⟨record, member, rfl⟩
      exact ⟨record, mem_extract.mp member⟩
    · rintro ⟨record, found⟩
      have same := requestId_of_lookup found
      exact ⟨record, mem_extract.mpr (same ▸ found), same⟩
  rw [present, lookup_allRecords, ← lookup_mergeLogs_isSome order]
  cases decode with
  | none => simp [finishRecord]
  | some lines =>
      by_cases named : key ∈ (patterns.parseDecodeLog lines).keySet
      · simp [finishRecord, named, ← mem_parseDecodeLog]
      · simp [finishRecord, named, ← mem_parseDecodeLog]

/-- What a decode log has for a request. -/
def decodeFields (readings : List LogReading) (key : String) : DecodeFields where
  tReceivedDecode := newest received? key readings
  tCompletedDecode := newest completed? key readings
  tXferStart := (newest xfer? key readings).map Prod.fst
  tXferEnd := (newest xfer? key readings).map fun xfer => (xfer.2.1 : ℚ)
  xferElapsedMs := (newest xfer? key readings).map fun xfer => (xfer.2.2 : ℚ)

theorem patch_parseDecodeLog (lines : List line) (record : EventRecord) (key : String) :
    EventRecord.patch (patterns.parseDecodeLog lines) record key =
      { record with decode := some (decodeFields (patterns.decodeReadings lines) key) } := by
  rw [decodeFields, ← LogMaps.lookup_received, ← LogMaps.lookup_completed, ← LogMaps.lookup_xfer]
  rfl

theorem decode_of_mem {lines : List line} (named : Names (patterns.decodeReadings lines)
    record.requestId) (member : record ∈ patterns.extract order logs (some lines) .all) :
    record.decode = some (decodeFields (patterns.decodeReadings lines) record.requestId) := by
  have found := mem_extract.mp member
  rw [lookup_allRecords, finishRecord, if_pos (mem_parseDecodeLog.mpr named),
    patch_parseDecodeLog] at found
  exact (congrArg EventRecord.decode (Option.some.inj found)).symm

/-- What the decode log adds leaves the other fields. -/
theorem finishRecord_some {before : EventRecord}
    (finished : patterns.finishRecord decode key (some before) = some record) :
    { record with decode := none } = { before with decode := none } := by
  cases decode with
  | none =>
      obtain rfl := Option.some.inj finished
      rfl
  | some lines =>
      rw [finishRecord] at finished
      split at finished
      · rw [patch_parseDecodeLog] at finished
        obtain rfl := Option.some.inj finished
        rfl
      · obtain rfl := Option.some.inj finished
        rfl

theorem prefill_of_mem (agree : Agree patterns logs)
    (member : record ∈ patterns.extract order logs decode .all) {log : PrefillLog line}
    (inside : log ∈ logs) (named : Names (patterns.prefillReadings log) record.requestId) :
    { record with decode := none } =
      EventRecord.ofMaps log.worker (patterns.prefillMaps log) record.requestId := by
  have found := mem_extract.mp member
  rw [lookup_allRecords] at found
  obtain ⟨before, merged⟩ := Option.isSome_iff_exists.mp
    ((lookup_mergeLogs_isSome order).mpr ⟨log, inside, named⟩)
  obtain ⟨other, otherInside, otherNamed, rfl⟩ := exists_log_of_lookup merged
  rw [merged] at found
  rw [finishRecord_some found,
    sameReadings_iff.mp (agree log inside other otherInside _ named otherNamed)]
  rfl

theorem exists_record_of_last (order : SetOrder) (decode : Option (List line))
    (others : List (PrefillLog line)) {log : PrefillLog line}
    (named : Names (patterns.prefillReadings log) key) :
    ∃ record ∈ patterns.extract order (others ++ [log]) decode .all, record.requestId = key ∧
      { record with decode := none } =
        EventRecord.ofMaps log.worker (patterns.prefillMaps log) key := by
  have mentioned : ∃ other ∈ others ++ [log], Names (patterns.prefillReadings other) key :=
    ⟨log, by simp, named⟩
  obtain ⟨record, member, rfl⟩ :=
    (exists_record_iff order decode).mpr (Or.inl mentioned)
  have found := mem_extract.mp member
  rw [lookup_allRecords, lookup_mergeLogs_append named] at found
  exact ⟨record, member, rfl, finishRecord_some found⟩

theorem exists_perm_append {α : Type*} {items : List α} {item : α} (member : item ∈ items) :
    ∃ others, (others ++ [item]).Perm items := by
  obtain ⟨before, after, rfl⟩ := List.append_of_mem member
  exact ⟨before ++ after, by
    rw [List.append_assoc]
    exact List.Perm.append_left before List.perm_append_comm⟩

/-- Logs whose order does not matter agree. -/
theorem agree_of_order_free (order : SetOrder)
    (order_free : ∀ arranged : List (PrefillLog line), arranged.Perm logs →
      (patterns.extract order arranged decode .all).Perm
        (patterns.extract order logs decode .all)) : Agree patterns logs := by
  intro first firstInside second secondInside key firstNamed secondNamed
  obtain ⟨others, firstPerm⟩ := exists_perm_append firstInside
  obtain ⟨rest, secondPerm⟩ := exists_perm_append secondInside
  obtain ⟨left, leftMember, leftId, leftRecord⟩ :=
    exists_record_of_last order decode others firstNamed
  obtain ⟨right, rightMember, rightId, rightRecord⟩ :=
    exists_record_of_last order decode rest secondNamed
  have same : left = right :=
    eq_of_requestId ((order_free _ firstPerm).mem_iff.mp leftMember)
      ((order_free _ secondPerm).mem_iff.mp rightMember) (leftId.trans rightId.symm)
  rw [sameReadings_iff, ← leftRecord, ← rightRecord, same]

/-- Where the logs agree, their order does not matter. -/
theorem order_free_of_agree (agree : Agree patterns logs) (order other : SetOrder)
    {arranged : List (PrefillLog line)} (perm : arranged.Perm logs) :
    (patterns.extract other arranged decode .all).Perm
      (patterns.extract order logs decode .all) := by
  have lookup (key : String) : (patterns.mergeLogs other arranged).lookup key =
      (patterns.mergeLogs order logs).lookup key := by
    cases left : (patterns.mergeLogs other arranged).lookup key with
    | none =>
        cases right : (patterns.mergeLogs order logs).lookup key with
        | none => rfl
        | some record =>
            obtain ⟨log, inside, named, _⟩ := exists_log_of_lookup right
            have present := (lookup_mergeLogs_isSome other).mpr
              ⟨log, perm.mem_iff.mpr inside, named⟩
            rw [left] at present
            cases present
    | some record =>
        obtain ⟨log, inside, named, rfl⟩ := exists_log_of_lookup left
        obtain ⟨merged, right⟩ := Option.isSome_iff_exists.mp
          ((lookup_mergeLogs_isSome order).mpr
            ⟨log, perm.mem_iff.mp inside, named⟩)
        obtain ⟨last, lastInside, lastNamed, rfl⟩ := exists_log_of_lookup right
        rw [right, sameReadings_iff.mp
          (agree log (perm.mem_iff.mp inside) last lastInside key named lastNamed)]
  have members (record : EventRecord) : record ∈ patterns.extract other arranged decode .all ↔
      record ∈ patterns.extract order logs decode .all := by
    rw [mem_extract, mem_extract, lookup_allRecords, lookup_allRecords, lookup]
  exact (List.perm_ext_iff_of_nodup (nodup_requestIds other arranged decode).of_map
    (nodup_requestIds order logs decode).of_map).mpr members

/-- Where the logs agree, a record has every kind of timestamp that some log has. -/
theorem complete_of_agree (agree : Agree patterns logs)
    (member : record ∈ patterns.extract order logs decode .all) :
    Complete patterns logs decode record where
  received log inside found := by
    have same := prefill_of_mem agree member inside ⟨.inl found⟩
    rw [ofMaps_prefillMaps] at same
    rw [(EventRecord.mk.inj same).2.2.1]
    exact newest_isSome.mpr found
  started log inside found := by
    have same := prefill_of_mem agree member inside ⟨.inr (.inl found)⟩
    rw [ofMaps_prefillMaps] at same
    rw [(EventRecord.mk.inj same).2.2.2.1, Option.isSome_map]
    exact newest_isSome.mpr found
  kvReady log inside found := by
    have same := prefill_of_mem agree member inside ⟨.inr (.inr (.inl found))⟩
    rw [ofMaps_prefillMaps] at same
    rw [(EventRecord.mk.inj same).2.2.2.2.1, Option.isSome_map]
    exact newest_isSome.mpr found
  completed log inside found := by
    have same := prefill_of_mem agree member inside ⟨.inr (.inr (.inr (.inl found)))⟩
    rw [ofMaps_prefillMaps] at same
    rw [(EventRecord.mk.inj same).2.2.2.2.2.2.1]
    exact newest_isSome.mpr found
  receivedDecode := by
    rintro lines rfl found
    rw [decode_of_mem ⟨.inl found⟩ member]
    exact newest_isSome.mpr found
  completedDecode := by
    rintro lines rfl found
    rw [decode_of_mem ⟨.inr (.inr (.inr (.inl found)))⟩ member]
    exact newest_isSome.mpr found
  xfer := by
    rintro lines rfl found
    rw [decode_of_mem ⟨.inr (.inr (.inr (.inr found)))⟩ member]
    have taken := newest_isSome.mpr found
    simp only [Option.bind_some, decodeFields, Option.isSome_map]
    exact ⟨taken, taken⟩

/-- The extraction loses nothing exactly when any two prefill logs that name a request say the
same about it. -/
theorem losesNothing_iff (patterns : LogPatterns line) (logs : List (PrefillLog line))
    (decode : Option (List line)) :
    LosesNothing patterns logs decode ↔ Agree patterns logs := by
  constructor
  · intro lossless
    exact agree_of_order_free ⟨id, SetOrder.perm_id⟩
      fun arranged perm => lossless.order_free _ _ arranged perm
  · intro agree
    exact
      { one_record := fun order => nodup_requestIds order logs decode
        each_key := fun order key => exists_record_iff order decode
        complete := fun order record member => complete_of_agree agree member
        order_free := fun order other arranged perm => order_free_of_agree agree order other perm }

/-! ## A request that was moved -/

/-- Lines that are given by what is read off them. -/
def asRead : LogPatterns LogReading where
  received := received?
  completed := completed?
  started := started?
  kvReady := kvReady?
  xfer reading := (xfer? reading).map fun (id, _, second, elapsedMs) => (id, second, elapsedMs)

/-- A worker that received a request. -/
def firstWorker : PrefillLog LogReading where
  worker := "worker0"
  lines := [.received "1b4e28ba-2fa1-11d2-883f-0016d3cca427" (1783486038 + 86 / 100)]

/-- The worker that the request was moved to. -/
def secondWorker : PrefillLog LogReading where
  worker := "worker1"
  lines := [.started "1b4e28ba-2fa1-11d2-883f-0016d3cca427" 1783486041]

/-- The receive time of a request that was moved is lost. -/
theorem not_losesNothing_moved : ¬ LosesNothing asRead [firstWorker, secondWorker] none := by
  intro lossless
  let order : SetOrder := ⟨id, SetOrder.perm_id⟩
  let record : EventRecord :=
    { EventRecord.undated "1b4e28ba" with worker := some "worker1", tStarted := some 1783486041 }
  have member : record ∈ asRead.extract order [firstWorker, secondWorker] none .all := by
    apply mem_extract.mpr
    decide +kernel
  have found : Found received? (asRead.prefillReadings firstWorker) record.requestId :=
    ⟨_, List.mem_singleton_self _, _, _, rfl, by decide +kernel⟩
  have kept := (lossless.complete order record member).received firstWorker (by simp) found
  exact absurd kept (by decide)

end LogPatterns

end RduHdi
