import RduHdi.Connector.Metadata
import RduHdi.Run

/-!
# Transfer statistics

What the ranks of an engine record about their transfers, on its way to the metrics: a rank hands
its records over and starts anew, the records of the ranks are aggregated, and the metrics observe
what was aggregated.  Nothing is lost on the way and nothing is counted twice.
-/

namespace RduHdi

/-- The keys of the data of `NixlKVConnectorStats`. -/
inductive StatKey where
  | transferDuration
  | postDuration
  | bytesTransferred
  | numDescriptors
  | numFailedTransfers
  | numFailedNotifications
  | numKvExpiredReqs
  deriving DecidableEq

/-- What NIXL knows about a transfer, times in microseconds. -/
structure NixlXferTelemetry where
  /-- Microseconds of the transfer. -/
  xferDuration : ℕ
  /-- Microseconds until it was posted. -/
  postDuration : ℕ
  /-- The bytes. -/
  totalBytes : ℕ
  /-- The descriptors. -/
  descCount : ℕ

structure NixlKVConnectorStats where
  /-- The lists of values. -/
  data : Dict StatKey (List ℚ)

namespace NixlKVConnectorStats

/-- What `reset` leaves. -/
def reset : NixlKVConnectorStats where
  data := AList.set .numKvExpiredReqs [] (AList.set .numFailedNotifications []
    (AList.set .numFailedTransfers [] (AList.set .numDescriptors [] (AList.set .bytesTransferred []
      (AList.set .postDuration [] (AList.set .transferDuration [] ∅))))))

/-- `__post_init__`: an empty container is reset. -/
def ofData (data : Dict StatKey (List ℚ)) : NixlKVConnectorStats :=
  if data.entries.isEmpty then reset else { data }

/-- `build_kv_connector_stats`. -/
def buildKvConnectorStats : Option (Dict StatKey (List ℚ)) → NixlKVConnectorStats
  | some data => ofData data
  | none => ofData ∅

@[simp]
theorem ofData_empty : ofData ∅ = reset := rfl

@[simp]
theorem buildKvConnectorStats_none : buildKvConnectorStats none = reset := rfl

/-- `self.data[key].append(value)`. -/
def append (stats : NixlKVConnectorStats) (key : StatKey) (value : ℚ) :
    Except PyError NixlKVConnectorStats :=
  match stats.data.lookup key with
  | some values => .ok { data := stats.data.set key (values ++ [value]) }
  | none => .error .keyError

def recordTransfer (stats : NixlKVConnectorStats) (res : NixlXferTelemetry) :
    Except PyError NixlKVConnectorStats := do
  let stats ← stats.append .transferDuration (res.xferDuration / 1000000)
  let stats ← stats.append .postDuration (res.postDuration / 1000000)
  let stats ← stats.append .bytesTransferred res.totalBytes
  stats.append .numDescriptors res.descCount

def recordFailedTransfer (stats : NixlKVConnectorStats) : Except PyError NixlKVConnectorStats :=
  stats.append .numFailedTransfers 1

def recordFailedNotification (stats : NixlKVConnectorStats) :
    Except PyError NixlKVConnectorStats :=
  stats.append .numFailedNotifications 1

def recordKvExpiredReq (stats : NixlKVConnectorStats) : Except PyError NixlKVConnectorStats :=
  stats.append .numKvExpiredReqs 1

/-- Are the values of some keys empty?  The first that are not end the look. -/
def allEmpty (stats : NixlKVConnectorStats) : List StatKey → Except PyError Bool
  | [] => .ok true
  | key :: keys =>
      match stats.data.lookup key with
      | none => .error .keyError
      | some values => if values.length = 0 then stats.allEmpty keys else .ok false

/-- `is_empty`: no successful transfers, and no failures. -/
def isEmpty (stats : NixlKVConnectorStats) : Except PyError Bool :=
  stats.allEmpty [.transferDuration, .numFailedTransfers, .numFailedNotifications,
    .numKvExpiredReqs]

/-- The loop of `aggregate`. -/
def extendAll : List (Σ _ : StatKey, List ℚ) → NixlKVConnectorStats →
    Except PyError NixlKVConnectorStats
  | [], stats => .ok stats
  | ⟨key, values⟩ :: entries, stats =>
      match stats.data.lookup key with
      | none => .error .keyError
      | some accumulator => extendAll entries { data := stats.data.set key (accumulator ++ values) }

def aggregate (stats other : NixlKVConnectorStats) : Except PyError NixlKVConnectorStats := do
  if ← other.isEmpty then
    return stats
  else
    extendAll other.data.entries stats

/-- `clone_and_reset`: the old statistics, and the new ones. -/
def cloneAndReset (stats : NixlKVConnectorStats) : NixlKVConnectorStats × NixlKVConnectorStats :=
  (stats, reset)

/-- `get_kv_connector_stats`: what the worker keeps, and what it returns. -/
def getKvConnectorStats (stats : NixlKVConnectorStats) :
    Except PyError (NixlKVConnectorStats × Option NixlKVConnectorStats) := do
  if ← stats.isEmpty then
    return (stats, none)
  else
    return (stats.cloneAndReset.2, some stats.cloneAndReset.1)

/-- The values of a key. -/
def values (stats : NixlKVConnectorStats) (key : StatKey) : List ℚ :=
  (stats.data.lookup key).getD []

end NixlKVConnectorStats

/-! ## The metrics -/

/-- The metrics of the engines: what the histograms observed and where the counters stand. -/
structure NixlPromMetrics where
  /-- The engines that have metrics. -/
  engines : List ℕ
  /-- What each histogram observed. -/
  histograms : ℕ → StatKey → List ℚ
  /-- What each counter counted. -/
  counters : ℕ → StatKey → ℚ

namespace NixlPromMetrics

def histogramKeys : List StatKey :=
  [.transferDuration, .postDuration, .bytesTransferred, .numDescriptors]

def counterKeys : List StatKey :=
  [.numFailedTransfers, .numFailedNotifications, .numKvExpiredReqs]

/-- `prom_obj[engine_idx].observe(list_item)`, for every item. -/
def observeItems (engineIdx : ℕ) (key : StatKey) : List ℚ → NixlPromMetrics →
    Except PyError NixlPromMetrics
  | [], metrics => .ok metrics
  | item :: items, metrics =>
      if engineIdx ∈ metrics.engines then
        observeItems engineIdx key items
          { metrics with
            histograms := Function.update metrics.histograms engineIdx
              (Function.update (metrics.histograms engineIdx) key
                (metrics.histograms engineIdx key ++ [item])) }
      else
        .error .keyError

/-- `counter_obj[engine_idx].inc(list_item)`, for every item. -/
def incItems (engineIdx : ℕ) (key : StatKey) : List ℚ → NixlPromMetrics →
    Except PyError NixlPromMetrics
  | [], metrics => .ok metrics
  | item :: items, metrics =>
      if engineIdx ∈ metrics.engines then
        incItems engineIdx key items
          { metrics with
            counters := Function.update metrics.counters engineIdx
              (Function.update (metrics.counters engineIdx) key
                (metrics.counters engineIdx key + item)) }
      else
        .error .keyError

/-- A loop of `observe` over its metrics. -/
def observeKeys (work : StatKey → List ℚ → NixlPromMetrics → Except PyError NixlPromMetrics)
    (data : Dict StatKey (List ℚ)) :
    List StatKey → NixlPromMetrics → Except PyError NixlPromMetrics
  | [], metrics => .ok metrics
  | key :: keys, metrics =>
      match data.lookup key with
      | none => .error .keyError
      | some items =>
          match work key items metrics with
          | .error raised => .error raised
          | .ok metrics => observeKeys work data keys metrics

def observe (metrics : NixlPromMetrics) (transferStatsData : Dict StatKey (List ℚ))
    (engineIdx : ℕ) : Except PyError NixlPromMetrics := do
  let metrics ← observeKeys (observeItems engineIdx) transferStatsData histogramKeys metrics
  observeKeys (incItems engineIdx) transferStatsData counterKeys metrics

end NixlPromMetrics

/-! ## What the operations do -/

namespace NixlKVConnectorStats

/-- Every key is there, every transfer has all of its values, and a failure counts once. -/
structure Whole (stats : NixlKVConnectorStats) : Prop where
  /-- Every key has a list. -/
  present : ∀ key, key ∈ stats.data
  /-- A transfer has a value in each list. -/
  uniform : ∀ key ∈ NixlPromMetrics.histogramKeys,
    (stats.values key).length = (stats.values .transferDuration).length
  /-- A counter's values are ones. -/
  ones : ∀ key ∈ NixlPromMetrics.counterKeys, ∀ value ∈ stats.values key, value = 1

variable {stats other : NixlKVConnectorStats}

theorem values_reset (key : StatKey) : reset.values key = [] := by
  cases key <;> rfl

theorem whole_reset : reset.Whole where
  present key := by cases key <;> decide
  uniform key _ := by rw [values_reset, values_reset]
  ones key _ value member := by
    rw [values_reset] at member
    cases member

theorem lookup_eq (present : ∀ key, key ∈ stats.data) (key : StatKey) :
    stats.data.lookup key = some (stats.values key) := by
  obtain ⟨items, known⟩ := Option.isSome_iff_exists.mp (AList.lookup_isSome.mpr (present key))
  rw [values, known]
  rfl

theorem values_set {key : StatKey} {more : List ℚ} (added : StatKey) :
    ({ data := stats.data.set key (stats.values key ++ more) } : NixlKVConnectorStats).values
      added = stats.values added ++ if added = key then more else [] := by
  by_cases here : added = key
  · subst here
    simp [values]
  · simp [values, here]

theorem append_spec (present : ∀ key, key ∈ stats.data) (key : StatKey) (value : ℚ) :
    ∃ next, stats.append key value = .ok next ∧ (∀ other, other ∈ next.data) ∧
      ∀ other, next.values other = stats.values other ++ if other = key then [value] else [] := by
  rw [append, lookup_eq present key]
  exact ⟨_, rfl, fun other => AList.mem_set.mpr (Or.inr (present other)), values_set⟩

end NixlKVConnectorStats

/-- What a rank records. -/
inductive TransferRecord where
  | transfer (res : NixlXferTelemetry)
  | failedTransfer
  | failedNotification
  | kvExpiredReq

namespace TransferRecord

def record (stats : NixlKVConnectorStats) :
    TransferRecord → Except PyError NixlKVConnectorStats
  | .transfer res => stats.recordTransfer res
  | .failedTransfer => stats.recordFailedTransfer
  | .failedNotification => stats.recordFailedNotification
  | .kvExpiredReq => stats.recordKvExpiredReq

/-- The values of a record. -/
def values : TransferRecord → StatKey → List ℚ
  | .transfer res, .transferDuration => [res.xferDuration / 1000000]
  | .transfer res, .postDuration => [res.postDuration / 1000000]
  | .transfer res, .bytesTransferred => [(res.totalBytes : ℚ)]
  | .transfer res, .numDescriptors => [(res.descCount : ℚ)]
  | .failedTransfer, .numFailedTransfers => [1]
  | .failedNotification, .numFailedNotifications => [1]
  | .kvExpiredReq, .numKvExpiredReqs => [1]
  | _, _ => []

theorem uniform (record : TransferRecord) {key : StatKey}
    (isHistogram : key ∈ NixlPromMetrics.histogramKeys) :
    (record.values key).length = (record.values .transferDuration).length := by
  cases record <;> cases key <;> first | rfl | simp [NixlPromMetrics.histogramKeys] at isHistogram

theorem ones (record : TransferRecord) {key : StatKey}
    (isCounter : key ∈ NixlPromMetrics.counterKeys) : ∀ value ∈ record.values key, value = 1 := by
  cases record <;> cases key <;>
    first | simp [NixlPromMetrics.counterKeys] at isCounter; done | simp [values]

end TransferRecord

namespace NixlKVConnectorStats

variable {stats other : NixlKVConnectorStats}

/-- Adding the values of whole records keeps the statistics whole. -/
theorem Whole.extended {next : NixlKVConnectorStats} (whole : stats.Whole)
    (present : ∀ key, key ∈ next.data) {more : StatKey → List ℚ}
    (uniform : ∀ key ∈ NixlPromMetrics.histogramKeys,
      (more key).length = (more .transferDuration).length)
    (ones : ∀ key ∈ NixlPromMetrics.counterKeys, ∀ value ∈ more key, value = 1)
    (extended : ∀ key, next.values key = stats.values key ++ more key) : next.Whole where
  present
  uniform key isHistogram := by
    rw [extended, extended, List.length_append, List.length_append,
      whole.uniform key isHistogram, uniform key isHistogram]
  ones key isCounter value member := by
    rw [extended, List.mem_append] at member
    rcases member with before | added
    · exact whole.ones key isCounter value before
    · exact ones key isCounter value added

theorem recordTransfer_spec (present : ∀ key, key ∈ stats.data) (res : NixlXferTelemetry) :
    ∃ next, stats.recordTransfer res = .ok next ∧ (∀ key, key ∈ next.data) ∧
      ∀ key, next.values key = stats.values key ++ (TransferRecord.transfer res).values key := by
  obtain ⟨first, appended, present, firstValues⟩ :=
    append_spec present .transferDuration (res.xferDuration / 1000000)
  obtain ⟨second, secondAppended, present, secondValues⟩ :=
    append_spec present .postDuration (res.postDuration / 1000000)
  obtain ⟨third, thirdAppended, present, thirdValues⟩ :=
    append_spec present .bytesTransferred res.totalBytes
  obtain ⟨last, lastAppended, present, lastValues⟩ :=
    append_spec present .numDescriptors res.descCount
  refine ⟨last, ?_, present, fun key => ?_⟩
  · exact Run.bind_eq_ok.mpr ⟨first, appended, Run.bind_eq_ok.mpr ⟨second, secondAppended,
      Run.bind_eq_ok.mpr ⟨third, thirdAppended, lastAppended⟩⟩⟩
  · rw [lastValues, thirdValues, secondValues, firstValues]
    cases key <;> simp [TransferRecord.values]

theorem Whole.record (whole : stats.Whole) (record : TransferRecord) :
    ∃ next, record.record stats = .ok next ∧ next.Whole ∧
      ∀ key, next.values key = stats.values key ++ record.values key := by
  obtain ⟨next, recorded, present, extended⟩ : ∃ next, record.record stats = .ok next ∧
      (∀ key, key ∈ next.data) ∧
      ∀ key, next.values key = stats.values key ++ record.values key := by
    cases record with
    | transfer res => exact recordTransfer_spec whole.present res
    | failedTransfer =>
        obtain ⟨next, appended, present, extended⟩ :=
          append_spec whole.present .numFailedTransfers 1
        exact ⟨next, appended, present, fun key => by rw [extended]; cases key <;> rfl⟩
    | failedNotification =>
        obtain ⟨next, appended, present, extended⟩ :=
          append_spec whole.present .numFailedNotifications 1
        exact ⟨next, appended, present, fun key => by rw [extended]; cases key <;> rfl⟩
    | kvExpiredReq =>
        obtain ⟨next, appended, present, extended⟩ :=
          append_spec whole.present .numKvExpiredReqs 1
        exact ⟨next, appended, present, fun key => by rw [extended]; cases key <;> rfl⟩
  exact ⟨next, recorded, whole.extended present (fun _ => record.uniform) (fun _ => record.ones)
    extended, extended⟩

theorem allEmpty_spec (present : ∀ key, key ∈ stats.data) (keys : List StatKey) :
    ∃ empty, stats.allEmpty keys = .ok empty ∧
      (empty = true ↔ ∀ key ∈ keys, stats.values key = []) := by
  induction keys with
  | nil => exact ⟨true, rfl, by simp⟩
  | cons key keys ih =>
      obtain ⟨empty, looked, iff⟩ := ih
      rw [allEmpty, lookup_eq present key]
      simp only
      by_cases none_here : (stats.values key).length = 0
      · refine ⟨empty, by rw [if_pos none_here, looked], ?_⟩
        rw [iff, List.forall_mem_cons, and_iff_right (List.length_eq_zero_iff.mp none_here)]
      · refine ⟨false, if_neg none_here, ?_⟩
        rw [List.forall_mem_cons]
        exact iff_of_false Bool.false_ne_true
          fun both => none_here (List.length_eq_zero_iff.mpr both.1)

/-- Statistics that look empty hold nothing, since a transfer has all of its values. -/
theorem Whole.isEmpty (whole : stats.Whole) : ∃ empty, stats.isEmpty = .ok empty ∧
    (empty = true → ∀ key, stats.values key = []) := by
  obtain ⟨empty, looked, iff⟩ := allEmpty_spec whole.present [.transferDuration,
    .numFailedTransfers, .numFailedNotifications, .numKvExpiredReqs]
  refine ⟨empty, looked, fun isEmpty key => ?_⟩
  have looked := iff.mp isEmpty
  have no_transfer := looked .transferDuration (by simp)
  have histogram : key ∈ NixlPromMetrics.histogramKeys → stats.values key = [] := by
    intro isHistogram
    have same := whole.uniform key isHistogram
    rw [no_transfer, List.length_nil] at same
    exact List.length_eq_zero_iff.mp same
  cases key with
  | transferDuration => exact no_transfer
  | postDuration => exact histogram (by decide)
  | bytesTransferred => exact histogram (by decide)
  | numDescriptors => exact histogram (by decide)
  | numFailedTransfers => exact looked .numFailedTransfers (by simp)
  | numFailedNotifications => exact looked .numFailedNotifications (by simp)
  | numKvExpiredReqs => exact looked .numKvExpiredReqs (by simp)

theorem extendAll_spec {entries : List (Σ _ : StatKey, List ℚ)} (nodup : entries.NodupKeys)
    (present : ∀ key, key ∈ stats.data) :
    ∃ next, extendAll entries stats = .ok next ∧ (∀ key, key ∈ next.data) ∧
      ∀ key, next.values key = stats.values key ++ (entries.dlookup key).getD [] := by
  induction entries generalizing stats with
  | nil => exact ⟨stats, rfl, present, fun key => by simp⟩
  | cons entry entries ih =>
      obtain ⟨key, items⟩ := entry
      obtain ⟨fresh, rest⟩ := List.nodupKeys_cons.mp nodup
      let middle : NixlKVConnectorStats :=
        { data := stats.data.set key (stats.values key ++ items) }
      have still : ∀ other, other ∈ middle.data :=
        fun other => AList.mem_set.mpr (Or.inr (present other))
      obtain ⟨next, looped, last, extended⟩ := ih rest still
      refine ⟨next, ?_, last, fun other => ?_⟩
      · rw [extendAll, lookup_eq present key]
        exact looped
      · have here : middle.values other =
            stats.values other ++ if other = key then items else [] := values_set other
        rw [extended, here]
        by_cases same : other = key
        · subst same
          rw [List.dlookup_cons_eq, List.dlookup_eq_none.mpr fresh, if_pos rfl]
          simp
        · rw [List.dlookup_cons_ne _ _ same, if_neg same, List.append_nil]

theorem Whole.aggregate (whole : stats.Whole) (otherWhole : other.Whole) :
    ∃ next, stats.aggregate other = .ok next ∧ next.Whole ∧
      ∀ key, next.values key = stats.values key ++ other.values key := by
  obtain ⟨empty, looked, nothing⟩ := otherWhole.isEmpty
  cases empty with
  | true =>
      refine ⟨stats, Run.bind_eq_ok.mpr ⟨true, looked, rfl⟩, whole, fun key => ?_⟩
      rw [nothing rfl key, List.append_nil]
  | false =>
      obtain ⟨next, looped, present, extended⟩ :=
        extendAll_spec other.data.nodupKeys whole.present
      exact ⟨next, Run.bind_eq_ok.mpr ⟨false, looked, looped⟩, whole.extended present
        otherWhole.uniform otherWhole.ones extended, extended⟩

/-- What `get_kv_connector_stats` returns and what it keeps are what was there. -/
theorem Whole.getKvConnectorStats (whole : stats.Whole) : ∃ kept returned,
    stats.getKvConnectorStats = .ok (kept, returned) ∧ kept.Whole ∧
      (∀ returned', returned = some returned' → returned'.Whole) ∧
      ∀ key, (returned.elim [] fun returned => returned.values key) ++ kept.values key =
        stats.values key := by
  obtain ⟨empty, looked, _⟩ := whole.isEmpty
  cases empty with
  | true =>
      exact ⟨stats, none, Run.bind_eq_ok.mpr ⟨true, looked, rfl⟩, whole, by simp, fun _ => rfl⟩
  | false =>
      refine ⟨reset, some stats, Run.bind_eq_ok.mpr ⟨false, looked, rfl⟩, whole_reset, ?_, ?_⟩
      · rintro _ ⟨⟩
        exact whole
      · intro key
        rw [values_reset, List.append_nil]
        rfl

end NixlKVConnectorStats

namespace NixlPromMetrics

variable {engineIdx : ℕ} {metrics : NixlPromMetrics}

theorem observeItems_spec (known : engineIdx ∈ metrics.engines) (key : StatKey) (items : List ℚ) :
    ∃ next, observeItems engineIdx key items metrics = .ok next ∧
      next.engines = metrics.engines ∧ next.counters = metrics.counters ∧
      ∀ engine other, next.histograms engine other = metrics.histograms engine other ++
        if engine = engineIdx ∧ other = key then items else [] := by
  induction items generalizing metrics with
  | nil => exact ⟨metrics, rfl, rfl, rfl, fun engine other => by simp⟩
  | cons item items ih =>
      let middle : NixlPromMetrics :=
        { metrics with
          histograms := Function.update metrics.histograms engineIdx
            (Function.update (metrics.histograms engineIdx) key
              (metrics.histograms engineIdx key ++ [item])) }
      obtain ⟨next, looped, engines, counters, observed⟩ := ih (show engineIdx ∈ middle.engines from
        known)
      refine ⟨next, ?_, engines, counters, fun engine other => ?_⟩
      · rw [observeItems, if_pos known]
        exact looped
      · rw [observed]
        by_cases here : engine = engineIdx ∧ other = key
        · obtain ⟨rfl, rfl⟩ := here
          simp [middle]
        · rw [if_neg here, if_neg here, List.append_nil, List.append_nil]
          by_cases same : engine = engineIdx
          · subst same
            have elsewhere : other ≠ key := fun isKey => here ⟨rfl, isKey⟩
            simp [middle, elsewhere]
          · simp [middle, same]

theorem incItems_spec (known : engineIdx ∈ metrics.engines) (key : StatKey) (items : List ℚ) :
    ∃ next, incItems engineIdx key items metrics = .ok next ∧
      next.engines = metrics.engines ∧ next.histograms = metrics.histograms ∧
      ∀ engine other, next.counters engine other = metrics.counters engine other +
        if engine = engineIdx ∧ other = key then items.sum else 0 := by
  induction items generalizing metrics with
  | nil => exact ⟨metrics, rfl, rfl, rfl, fun engine other => by simp⟩
  | cons item items ih =>
      let middle : NixlPromMetrics :=
        { metrics with
          counters := Function.update metrics.counters engineIdx
            (Function.update (metrics.counters engineIdx) key
              (metrics.counters engineIdx key + item)) }
      obtain ⟨next, looped, engines, histograms, counted⟩ :=
        ih (show engineIdx ∈ middle.engines from known)
      refine ⟨next, ?_, engines, histograms, fun engine other => ?_⟩
      · rw [incItems, if_pos known]
        exact looped
      · rw [counted]
        by_cases here : engine = engineIdx ∧ other = key
        · obtain ⟨rfl, rfl⟩ := here
          simp [middle, add_assoc]
        · rw [if_neg here, if_neg here, add_zero, add_zero]
          by_cases same : engine = engineIdx
          · subst same
            have elsewhere : other ≠ key := fun isKey => here ⟨rfl, isKey⟩
            simp [middle, elsewhere]
          · simp [middle, same]

variable {stats : NixlKVConnectorStats}

theorem observeHistograms_spec (present : ∀ key, key ∈ stats.data) {keys : List StatKey}
    (nodup : keys.Nodup) (known : engineIdx ∈ metrics.engines) :
    ∃ next, observeKeys (observeItems engineIdx) stats.data keys metrics = .ok next ∧
      next.engines = metrics.engines ∧ next.counters = metrics.counters ∧
      ∀ engine key, next.histograms engine key = metrics.histograms engine key ++
        if engine = engineIdx ∧ key ∈ keys then stats.values key else [] := by
  induction keys generalizing metrics with
  | nil => exact ⟨metrics, rfl, rfl, rfl, fun engine key => by simp⟩
  | cons key keys ih =>
      obtain ⟨fresh, rest⟩ := List.nodup_cons.mp nodup
      obtain ⟨middle, first, engines, counters, observed⟩ :=
        observeItems_spec known key (stats.values key)
      obtain ⟨next, looped, same, kept, all⟩ := ih rest (engines ▸ known)
      refine ⟨next, ?_, same.trans engines, kept.trans counters, fun engine other => ?_⟩
      · rw [observeKeys, NixlKVConnectorStats.lookup_eq present key]
        simp only [first, looped]
      · rw [all, observed]
        by_cases here : other = key
        · subst here
          simp [fresh]
        · simp [here]

theorem incCounters_spec (present : ∀ key, key ∈ stats.data) {keys : List StatKey}
    (nodup : keys.Nodup) (known : engineIdx ∈ metrics.engines) :
    ∃ next, observeKeys (incItems engineIdx) stats.data keys metrics = .ok next ∧
      next.engines = metrics.engines ∧ next.histograms = metrics.histograms ∧
      ∀ engine key, next.counters engine key = metrics.counters engine key +
        if engine = engineIdx ∧ key ∈ keys then (stats.values key).sum else 0 := by
  induction keys generalizing metrics with
  | nil => exact ⟨metrics, rfl, rfl, rfl, fun engine key => by simp⟩
  | cons key keys ih =>
      obtain ⟨fresh, rest⟩ := List.nodup_cons.mp nodup
      obtain ⟨middle, first, engines, histograms, counted⟩ :=
        incItems_spec known key (stats.values key)
      obtain ⟨next, looped, same, kept, all⟩ := ih rest (engines ▸ known)
      refine ⟨next, ?_, same.trans engines, kept.trans histograms, fun engine other => ?_⟩
      · rw [observeKeys, NixlKVConnectorStats.lookup_eq present key]
        simp only [first, looped]
      · rw [all, counted]
        by_cases here : other = key
        · subst here
          simp [fresh]
        · simp [here]

/-- The metrics of an engine observe all values of their keys, and only these. -/
theorem observe_spec (present : ∀ key, key ∈ stats.data) (known : engineIdx ∈ metrics.engines) :
    ∃ next, metrics.observe stats.data engineIdx = .ok next ∧ next.engines = metrics.engines ∧
      (∀ engine key, next.histograms engine key = metrics.histograms engine key ++
        if engine = engineIdx ∧ key ∈ histogramKeys then stats.values key else []) ∧
      ∀ engine key, next.counters engine key = metrics.counters engine key +
        if engine = engineIdx ∧ key ∈ counterKeys then (stats.values key).sum else 0 := by
  obtain ⟨middle, observed, engines, counters, histograms⟩ :=
    observeHistograms_spec present (show histogramKeys.Nodup by decide) known
  obtain ⟨next, counted, same, kept, all⟩ :=
    incCounters_spec present (show counterKeys.Nodup by decide) (engines ▸ known)
  refine ⟨next, Run.bind_eq_ok.mpr ⟨middle, observed, counted⟩, same.trans engines, ?_, ?_⟩
  · rw [kept]
    exact histograms
  · rw [← counters]
    exact all

end NixlPromMetrics

/-! ## From the ranks to the metrics -/

/-- The statistics of an engine: at its ranks, handed over by them, aggregated and observed. -/
structure StatsFlow where
  /-- The statistics of each rank. -/
  workers : List NixlKVConnectorStats
  /-- What was handed over and not aggregated. -/
  collected : List NixlKVConnectorStats
  /-- What was aggregated. -/
  aggregated : NixlKVConnectorStats
  /-- The metrics. -/
  metrics : NixlPromMetrics
  /-- The engine. -/
  engineIdx : ℕ

inductive StatsEvent where
  | record (rank : ℕ) (record : TransferRecord)
  | getKvConnectorStats (rank : ℕ)
  /-- Some of the statistics that were handed over are aggregated. -/
  | aggregate (index : ℕ)
  /-- The metrics observe what was aggregated, which begins anew. -/
  | observe

namespace StatsFlow

def init (ranks engineIdx : ℕ) (metrics : NixlPromMetrics) : StatsFlow where
  workers := List.replicate ranks (.ofData ∅)
  collected := []
  aggregated := .buildKvConnectorStats none
  metrics
  engineIdx

def step (flow : StatsFlow) : StatsEvent → Except PyError StatsFlow
  | .record rank record =>
      match flow.workers[rank]? with
      | none => .ok flow
      | some stats => do
          let stats ← record.record stats
          return { flow with workers := flow.workers.set rank stats }
  | .getKvConnectorStats rank =>
      match flow.workers[rank]? with
      | none => .ok flow
      | some stats => do
          let (kept, returned) ← stats.getKvConnectorStats
          .ok
            { flow with
              workers := flow.workers.set rank kept
              collected := flow.collected ++ returned.toList }
  | .aggregate index =>
      match flow.collected[index]? with
      | none => .ok flow
      | some stats => do
          let aggregated ← flow.aggregated.aggregate stats
          return { flow with aggregated, collected := flow.collected.eraseIdx index }
  | .observe => do
      let metrics ← flow.metrics.observe flow.aggregated.data flow.engineIdx
      return { flow with metrics, aggregated := .reset }

/-- The values of a key that the metrics have not observed. -/
def held (flow : StatsFlow) (key : StatKey) : List ℚ :=
  flow.aggregated.values key ++ flow.collected.flatMap (fun stats => stats.values key) ++
    flow.workers.flatMap fun stats => stats.values key

/-- The values of a key that the ranks record. -/
def recorded (ranks : ℕ) (key : StatKey) : StatsEvent → List ℚ
  | .record rank record => if rank < ranks then record.values key else []
  | _ => []

structure Whole (flow : StatsFlow) : Prop where
  /-- The ranks have whole statistics. -/
  workers : ∀ stats ∈ flow.workers, stats.Whole
  /-- So are those that were handed over. -/
  collected : ∀ stats ∈ flow.collected, stats.Whole
  /-- So are the aggregated ones. -/
  aggregated : flow.aggregated.Whole
  /-- The engine has metrics. -/
  known : flow.engineIdx ∈ flow.metrics.engines

/-- The values of a key that the metrics are shown. -/
def seen (flow : StatsFlow) (key : StatKey) : StatsEvent → List ℚ
  | .observe => flow.aggregated.values key
  | _ => []

/-- What is recorded and shown between two states is what the held values gain and lose. -/
structure Moved (flow next : StatsFlow) (shown gained : StatKey → List ℚ) : Prop where
  /-- The ranks are as many. -/
  length : next.workers.length = flow.workers.length
  /-- The engine stays. -/
  engineIdx : next.engineIdx = flow.engineIdx
  /-- The values held change by what is recorded and shown. -/
  held : ∀ key, (shown key ++ next.held key).Perm (flow.held key ++ gained key)
  /-- The engine's histograms get what is shown. -/
  histograms : ∀ engine key, next.metrics.histograms engine key =
    flow.metrics.histograms engine key ++
      if engine = flow.engineIdx ∧ key ∈ NixlPromMetrics.histogramKeys then shown key else []
  /-- So do its counters. -/
  counters : ∀ engine key, next.metrics.counters engine key =
    flow.metrics.counters engine key +
      if engine = flow.engineIdx ∧ key ∈ NixlPromMetrics.counterKeys then (shown key).sum else 0

theorem Moved.refl (flow : StatsFlow) : flow.Moved flow (fun _ => []) fun _ => [] where
  length := rfl
  engineIdx := rfl
  held key := by rw [List.append_nil, List.nil_append]
  histograms engine key := by simp
  counters engine key := by simp

theorem Moved.trans {flow middle next : StatsFlow} {first second early late : StatKey → List ℚ}
    (left : flow.Moved middle first early) (right : middle.Moved next second late) :
    flow.Moved next (fun key => first key ++ second key) fun key => early key ++ late key where
  length := right.length.trans left.length
  engineIdx := right.engineIdx.trans left.engineIdx
  held key := by
    rw [List.append_assoc, ← List.append_assoc (flow.held key)]
    exact ((right.held key).append_left (first key)).trans
      (List.append_assoc (first key) _ _ ▸ (left.held key).append_right (late key))
  histograms engine key := by
    rw [right.histograms, left.histograms, left.engineIdx]
    split <;> simp
  counters engine key := by
    rw [right.counters, left.counters, left.engineIdx]
    split
    · rw [List.sum_append, add_assoc]
    · rw [add_zero]

section Steps

/-- What an item of a list loses and gains, the whole list does. -/
theorem flatMap_set_perm {α β : Type*} {items : List α} {index : ℕ} {old new : α}
    (isOld : items[index]? = some old) (part : α → List β) {lost gained : List β}
    (moved : (lost ++ part new).Perm (part old ++ gained)) :
    (lost ++ (items.set index new).flatMap part).Perm (items.flatMap part ++ gained) := by
  rw [← Multiset.coe_eq_coe, ← Multiset.coe_add, ← Multiset.coe_add] at moved ⊢
  induction items generalizing index with
  | nil => cases isOld
  | cons first items ih =>
      cases index with
      | zero =>
          obtain rfl : first = old := Option.some.inj isOld
          simp only [List.set_cons_zero, List.flatMap_cons, ← Multiset.coe_add]
          rw [← add_assoc, moved]
          abel
      | succ index =>
          have rest := ih isOld
          simp only [List.set_cons_succ, List.flatMap_cons, ← Multiset.coe_add]
          rw [add_assoc, ← rest]
          abel

theorem flatMap_eraseIdx_perm {α β : Type*} {items : List α} {index : ℕ} {old : α}
    (isOld : items[index]? = some old) (part : α → List β) :
    (part old ++ (items.eraseIdx index).flatMap part).Perm (items.flatMap part) := by
  induction items generalizing index with
  | nil => cases isOld
  | cons first items ih =>
      cases index with
      | zero =>
          obtain rfl : first = old := Option.some.inj isOld
          exact .refl _
      | succ index =>
          rw [List.eraseIdx_cons_succ, List.flatMap_cons, List.flatMap_cons]
          exact (List.perm_append_comm_assoc _ _ _).trans ((ih isOld).append_left (part first))

variable {flow : StatsFlow}

/-- No event raises, and every one moves values without losing any. -/
theorem Whole.step (whole : flow.Whole) (event : StatsEvent) :
    ∃ next, flow.step event = .ok next ∧ next.Whole ∧
      flow.Moved next (fun key => flow.seen key event)
        fun key => recorded flow.workers.length key event := by
  cases event with
  | record rank record =>
      cases isStats : flow.workers[rank]? with
      | none =>
          have absent : ¬ rank < flow.workers.length := by
            rw [List.getElem?_eq_none_iff] at isStats
            omega
          refine ⟨flow, by rw [StatsFlow.step, isStats], whole, ?_⟩
          simp only [recorded, if_neg absent]
          exact .refl flow
      | some stats =>
          have isRank : rank < flow.workers.length := (List.getElem?_eq_some_iff.mp isStats).1
          obtain ⟨next, recordedOk, nextWhole, extended⟩ :=
            (whole.workers stats (List.mem_of_getElem? isStats)).record record
          refine ⟨{ flow with workers := flow.workers.set rank next }, ?_, ?_, ?_⟩
          · rw [StatsFlow.step, isStats]
            exact Run.bind_eq_ok.mpr ⟨next, recordedOk, rfl⟩
          · refine ⟨fun other member => ?_, whole.collected, whole.aggregated, whole.known⟩
            rcases List.mem_or_eq_of_mem_set member with earlier | rfl
            · exact whole.workers other earlier
            · exact nextWhole
          · refine ⟨List.length_set, rfl, fun key => ?_, fun _ _ => by simp [seen],
              fun _ _ => by simp [seen]⟩
            have added : ([] ++ next.values key).Perm (stats.values key ++ record.values key) :=
              .of_eq (extended key)
            have replaced := flatMap_set_perm isStats (fun stats => stats.values key) added
            simp only [held, seen, recorded, if_pos isRank, List.nil_append, List.append_assoc]
              at replaced ⊢
            exact (replaced.append_left _).append_left _
  | getKvConnectorStats rank =>
      cases isStats : flow.workers[rank]? with
      | none => exact ⟨flow, by rw [StatsFlow.step, isStats], whole, .refl flow⟩
      | some stats =>
          obtain ⟨kept, returned, collected, keptWhole, returnedWhole, split⟩ :=
            (whole.workers stats (List.mem_of_getElem? isStats)).getKvConnectorStats
          refine ⟨{ flow with
            workers := flow.workers.set rank kept
            collected := flow.collected ++ returned.toList }, ?_, ?_, ?_⟩
          · rw [StatsFlow.step, isStats]
            exact Run.bind_eq_ok.mpr ⟨(kept, returned), collected, rfl⟩
          · refine ⟨fun other member => ?_, fun other member => ?_, whole.aggregated, whole.known⟩
            · rcases List.mem_or_eq_of_mem_set member with earlier | rfl
              · exact whole.workers other earlier
              · exact keptWhole
            · rcases List.mem_append.mp member with earlier | new
              · exact whole.collected other earlier
              · exact returnedWhole other (Option.mem_toList.mp new)
          · refine ⟨List.length_set, rfl, fun key => ?_, fun _ _ => by simp [seen],
              fun _ _ => by simp [seen]⟩
            have handed : (returned.toList.flatMap fun stats => stats.values key) =
                returned.elim [] fun returned => returned.values key := by
              cases returned <;> simp
            have parted : ((returned.elim [] fun returned => returned.values key) ++
                kept.values key).Perm (stats.values key ++ []) :=
              .of_eq ((split key).trans (List.append_nil _).symm)
            have replaced := flatMap_set_perm isStats (fun stats => stats.values key) parted
            simp only [held, seen, recorded, List.flatMap_append, List.nil_append, List.append_nil,
              List.append_assoc, handed] at replaced ⊢
            exact (replaced.append_left _).append_left _
  | aggregate index =>
      cases isStats : flow.collected[index]? with
      | none => exact ⟨flow, by rw [StatsFlow.step, isStats], whole, .refl flow⟩
      | some stats =>
          obtain ⟨next, aggregated, nextWhole, extended⟩ :=
            whole.aggregated.aggregate (whole.collected stats (List.mem_of_getElem? isStats))
          refine ⟨{ flow with
            aggregated := next
            collected := flow.collected.eraseIdx index }, ?_, ?_, ?_⟩
          · rw [StatsFlow.step, isStats]
            exact Run.bind_eq_ok.mpr ⟨next, aggregated, rfl⟩
          · exact ⟨whole.workers, fun other member =>
              whole.collected other (List.mem_of_mem_eraseIdx member), nextWhole, whole.known⟩
          · refine ⟨rfl, rfl, fun key => ?_, fun _ _ => by simp [seen], fun _ _ => by simp [seen]⟩
            have moved := flatMap_eraseIdx_perm isStats fun stats => stats.values key
            simp only [held, seen, recorded, extended, List.nil_append, List.append_nil,
              List.append_assoc] at moved ⊢
            rw [← List.append_assoc (stats.values key)]
            exact (moved.append_right _).append_left _
  | observe =>
      obtain ⟨metrics, observed, engines, histograms, counters⟩ :=
        NixlPromMetrics.observe_spec whole.aggregated.present whole.known
      refine ⟨{ flow with metrics, aggregated := .reset },
        Run.bind_eq_ok.mpr ⟨metrics, observed, rfl⟩,
        ⟨whole.workers, whole.collected, NixlKVConnectorStats.whole_reset, ?_⟩,
        ⟨rfl, rfl, fun key => ?_, histograms, counters⟩⟩
      · rw [engines]
        exact whole.known
      · simp only [held, seen, recorded, NixlKVConnectorStats.values_reset, List.nil_append,
          List.append_nil, List.append_assoc]
        exact .refl _

theorem Whole.exec (whole : flow.Whole) (events : List StatsEvent) :
    ∃ final shown, Run.exec StatsFlow.step flow events = .ok final ∧ final.Whole ∧
      flow.Moved final shown fun key => events.flatMap (recorded flow.workers.length key) := by
  induction events generalizing flow with
  | nil => exact ⟨flow, _, rfl, whole, .refl flow⟩
  | cons event events ih =>
      obtain ⟨middle, taken, still, first⟩ := whole.step event
      obtain ⟨final, shown, rest, last, moved⟩ := ih still
      rw [first.length] at moved
      exact ⟨final, _, (Run.exec_cons taken).trans rest, last, first.trans moved⟩

theorem whole_init (ranks : ℕ) {engineIdx : ℕ} {metrics : NixlPromMetrics}
    (known : engineIdx ∈ metrics.engines) : (init ranks engineIdx metrics).Whole where
  workers stats member := by
    rw [List.eq_of_mem_replicate member]
    exact NixlKVConnectorStats.whole_reset
  collected _ member := absurd member List.not_mem_nil
  aggregated := NixlKVConnectorStats.whole_reset
  known

theorem held_init (ranks engineIdx : ℕ) (metrics : NixlPromMetrics) (key : StatKey) :
    (init ranks engineIdx metrics).held key = [] := by
  have nothing : ∀ stats ∈ List.replicate ranks NixlKVConnectorStats.reset,
      stats.values key = [] := by
    intro stats member
    rw [List.eq_of_mem_replicate member, NixlKVConnectorStats.values_reset]
  rw [held, init, NixlKVConnectorStats.buildKvConnectorStats_none,
    NixlKVConnectorStats.values_reset, NixlKVConnectorStats.ofData_empty,
    List.flatMap_eq_nil_iff.mpr nothing]
  rfl

theorem recorded_ones {ranks : ℕ} {key : StatKey} (isCounter : key ∈ NixlPromMetrics.counterKeys)
    (events : List StatsEvent) : ∀ value ∈ events.flatMap (recorded ranks key), value = 1 := by
  intro value member
  obtain ⟨event, _, here⟩ := List.mem_flatMap.mp member
  cases event with
  | record rank record =>
      rw [recorded] at here
      split at here
      · exact record.ones isCounter value here
      · cases here
  | getKvConnectorStats rank => cases here
  | aggregate index => cases here
  | observe => cases here

/-- **Nothing is lost and nothing is counted twice.**  Whatever the ranks record and in whatever
order records are handed over, aggregated and observed, no call raises, and the values that the
metrics of the engine observed and those still held are those that were recorded.  What is
aggregated has every value of each of its transfers, as `reduce` asserts. -/
theorem nothing_lost (ranks : ℕ) {engineIdx : ℕ} {metrics : NixlPromMetrics}
    (known : engineIdx ∈ metrics.engines) (events : List StatsEvent) :
    ∃ final, Run.exec step (init ranks engineIdx metrics) events = .ok final ∧
      (∀ key ∈ NixlPromMetrics.histogramKeys,
        (final.metrics.histograms engineIdx key ++ final.held key).Perm
          (metrics.histograms engineIdx key ++ events.flatMap (recorded ranks key))) ∧
      (∀ key ∈ NixlPromMetrics.counterKeys,
        final.metrics.counters engineIdx key + (final.held key).length =
          metrics.counters engineIdx key + (events.flatMap (recorded ranks key)).length) ∧
      (∀ engine ≠ engineIdx, final.metrics.histograms engine = metrics.histograms engine ∧
        final.metrics.counters engine = metrics.counters engine) ∧
      ∀ key ∈ NixlPromMetrics.histogramKeys, (final.aggregated.values key).length =
        (final.aggregated.values .transferDuration).length := by
  obtain ⟨final, shown, reached, whole, moved⟩ := (whole_init ranks known).exec events
  have length : (init ranks engineIdx metrics).workers.length = ranks := List.length_replicate
  rw [length] at moved
  have balance : ∀ key, (shown key ++ final.held key).Perm
      (events.flatMap (recorded ranks key)) := by
    intro key
    have balance := moved.held key
    rwa [held_init, List.nil_append] at balance
  refine ⟨final, reached, fun key isHistogram => ?_, fun key isCounter => ?_,
    fun engine other => ⟨funext fun key => ?_, funext fun key => ?_⟩, whole.aggregated.uniform⟩
  · rw [moved.histograms, if_pos ⟨rfl, isHistogram⟩, List.append_assoc]
    exact (balance key).append_left _
  · have once : ∀ value ∈ shown key, value = 1 := fun value member =>
      recorded_ones isCounter events value ((balance key).subset (List.mem_append_left _ member))
    have sum : (shown key).sum = (shown key).length := by
      rw [List.sum_eq_card_nsmul (shown key) 1 once, nsmul_one]
    have total := (balance key).length_eq
    rw [List.length_append] at total
    rw [moved.counters, if_pos ⟨rfl, isCounter⟩, sum, add_assoc, ← total, Nat.cast_add]
    rfl
  · rw [moved.histograms, if_neg fun both => other both.1, List.append_nil]
    rfl
  · rw [moved.counters, if_neg fun both => other both.1, add_zero]
    rfl

end Steps

/-- The metrics of an engine that has observed nothing. -/
def quietMetrics : NixlPromMetrics where
  engines := [0]
  histograms _ _ := []
  counters _ _ := 0

/-- Two ranks record, one hands its records over, and they are observed. -/
def twoRanksRun : List StatsEvent :=
  [.record 0 (.transfer ⟨1500, 20, 4096, 2⟩), .record 1 .failedTransfer, .record 0 .kvExpiredReq,
    .getKvConnectorStats 0, .aggregate 0, .observe]

theorem nothing_lost_twoRanks :
    ∃ final, Run.exec step (init 2 0 quietMetrics) twoRanksRun = .ok final ∧
      ∀ key ∈ NixlPromMetrics.counterKeys, final.metrics.counters 0 key + (final.held key).length =
        0 + (twoRanksRun.flatMap (recorded 2 key)).length := by
  obtain ⟨final, reached, _, counted, _⟩ :=
    nothing_lost 2 (show 0 ∈ quietMetrics.engines from List.mem_singleton_self 0) twoRanksRun
  exact ⟨final, reached, counted⟩

end StatsFlow

end RduHdi
