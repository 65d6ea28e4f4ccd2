import RduHdi.Connector.DescAddresses

/-!
# The blocks of a transfer, in pairs

A transfer is set up from two lists of descriptors.  This file has the pairs of blocks that the
lists stand for, region by region and in the window of each layer, and shows that the reads of a
request are set up with the descriptors of the same pairs for every remote rank.
-/

namespace RduHdi

/-- A block of a region and the block of this region of a remote rank that it is filled from. -/
structure BlockPair where
  /-- The region of both blocks. -/
  region : ℕ
  /-- The block that is filled. -/
  block : ℕ
  /-- The block it is filled from. -/
  remoteBlock : ℕ
  deriving DecidableEq

/-- The blocks of a request in the attention window of a layer. -/
def inWindow : Option ℕ → List ℕ → List ℕ
  | none, blockIds => blockIds
  | some count, blockIds => lastBlocks count blockIds

/-- What a window leaves of a list: its last entries.  A window of no block leaves all of them. -/
def windowed {α : Type*} (blocks : List α) : Option ℕ → List α
  | none | some 0 => blocks
  | some (count + 1) => blocks.drop (blocks.length - (count + 1))

/-- The window of a list of pairs is that of both sides. -/
theorem zip_inWindow {blockIds others : List ℕ} (same : blockIds.length = others.length)
    (window : Option ℕ) :
    (inWindow window blockIds).zip (inWindow window others) =
      windowed (blockIds.zip others) window := by
  cases window with
  | none => rfl
  | some count =>
      cases count with
      | zero => rfl
      | succ count =>
          have pairs : (blockIds.zip others).length = blockIds.length := by
            rw [List.length_zip, ← same, Nat.min_self]
          rw [inWindow, inWindow, lastBlocks, lastBlocks, if_neg (Nat.succ_ne_zero count),
            if_neg (Nat.succ_ne_zero count), windowed, pairs, ← same,
            List.zip_eq_zipWith, List.zip_eq_zipWith, List.drop_zipWith]

/-- The blocks of some regions, each with the remote block at its place. -/
def regionPairs (regions localBlockIds remoteBlockIds : List ℕ) : List BlockPair :=
  regions.flatMap fun region =>
    (localBlockIds.zip remoteBlockIds).map fun blocks => ⟨region, blocks.1, blocks.2⟩

section RegionPairs

variable {regions localBlockIds remoteBlockIds : List ℕ}

theorem mem_regionPairs_iff {pair : BlockPair} :
    pair ∈ regionPairs regions localBlockIds remoteBlockIds ↔
      pair.region ∈ regions ∧
        (pair.block, pair.remoteBlock) ∈ localBlockIds.zip remoteBlockIds := by
  rw [regionPairs, List.mem_flatMap]
  constructor
  · rintro ⟨region, isRegion, member⟩
    obtain ⟨blocks, paired, rfl⟩ := List.mem_map.mp member
    exact ⟨isRegion, paired⟩
  · rintro ⟨isRegion, paired⟩
    exact ⟨pair.region, isRegion, List.mem_map.mpr ⟨_, paired, rfl⟩⟩

theorem map_block_regionPairs (same : localBlockIds.length = remoteBlockIds.length) (count : ℕ) :
    (regionPairs regions localBlockIds remoteBlockIds).map
        (fun pair => pair.region * count + pair.block) =
      regions.flatMap fun region => localBlockIds.map fun block => region * count + block := by
  rw [regionPairs, List.map_flatMap]
  apply List.flatMap_congr
  intro region _
  calc (((localBlockIds.zip remoteBlockIds).map fun blocks =>
          (⟨region, blocks.1, blocks.2⟩ : BlockPair)).map
          fun pair => pair.region * count + pair.block)
      = ((localBlockIds.zip remoteBlockIds).map Prod.fst).map
          fun block => region * count + block := by rw [List.map_map, List.map_map]; rfl
    _ = localBlockIds.map fun block => region * count + block := by
        rw [List.map_fst_zip (Nat.le_of_eq same)]

theorem map_remoteBlock_regionPairs (same : localBlockIds.length = remoteBlockIds.length)
    (count : ℕ) :
    (regionPairs regions localBlockIds remoteBlockIds).map
        (fun pair => pair.region * count + pair.remoteBlock) =
      regions.flatMap fun region => remoteBlockIds.map fun block => region * count + block := by
  rw [regionPairs, List.map_flatMap]
  apply List.flatMap_congr
  intro region _
  calc (((localBlockIds.zip remoteBlockIds).map fun blocks =>
          (⟨region, blocks.1, blocks.2⟩ : BlockPair)).map
          fun pair => pair.region * count + pair.remoteBlock)
      = ((localBlockIds.zip remoteBlockIds).map Prod.snd).map
          fun block => region * count + block := by rw [List.map_map, List.map_map]; rfl
    _ = remoteBlockIds.map fun block => region * count + block := by
        rw [List.map_snd_zip (Nat.le_of_eq same.symm)]

/-- Two pairs do not fill the same block of a region. -/
def BlockPair.Differ (pair other : BlockPair) : Prop :=
  pair.region = other.region → pair.block ≠ other.block

end RegionPairs

namespace ReadingWorker

variable {ω : Type*} (worker : ReadingWorker ω)

/-- The regions of a layer: its K and V may be regions of their own. -/
def layerRegions (layerIdx : ℕ) : List ℕ :=
  if worker.numLayers < worker.numRegions then [2 * layerIdx, 2 * layerIdx + 1] else [layerIdx]

def layerOf (region : ℕ) : ℕ :=
  if worker.numLayers < worker.numRegions then region / 2 else region

/-- The pairs of the layers with windows of their own, from a layer on. -/
def windowPairs (localBlockIds remoteBlockIds : List ℕ) : ℕ → List (Option ℕ) → List BlockPair
  | _, [] => []
  | layerIdx, window :: windows =>
      regionPairs (worker.layerRegions layerIdx) (inWindow window localBlockIds)
          (inWindow window remoteBlockIds) ++
        windowPairs localBlockIds remoteBlockIds (layerIdx + 1) windows

/-- All pairs of a transfer. -/
def readPairs (localBlockIds remoteBlockIds : List ℕ) : List BlockPair :=
  if worker.blockWindowPerLayer.isEmpty then
    regionPairs (List.range worker.numRegions) localBlockIds remoteBlockIds
  else
    worker.windowPairs localBlockIds remoteBlockIds 0 worker.blockWindowPerLayer

/-- The window of the layer of a region, of those layers that are read. -/
def regionWindow (region : ℕ) : Option (Option ℕ) :=
  if worker.blockWindowPerLayer.isEmpty then some none
  else worker.blockWindowPerLayer[worker.layerOf region]?

/-- A transfer fills the block of a region from a remote block: the two are at the same place in
the window of the region. -/
structure Fills (localBlockIds remoteBlockIds : List ℕ) (pair : BlockPair) : Prop where
  /-- There is such a region. -/
  region_lt : pair.region < worker.numRegions
  /-- The window of the region has the pair. -/
  paired : ∃ window, worker.regionWindow pair.region = some window ∧
    (pair.block, pair.remoteBlock) ∈
      (inWindow window localBlockIds).zip (inWindow window remoteBlockIds)

variable {worker}

/-! ## Which pairs there are -/

section Pairs

variable {localBlockIds remoteBlockIds : List ℕ}

theorem mem_layerRegions_iff {region layerIdx : ℕ} :
    region ∈ worker.layerRegions layerIdx ↔ worker.layerOf region = layerIdx := by
  rw [layerRegions, layerOf]
  split
  · simp only [List.mem_cons, List.not_mem_nil, or_false]
    omega
  · exact List.mem_singleton

theorem regionIds_eq {layerIdx : ℕ} {regions : List ℕ}
    (taken : worker.regionIds (some layerIdx) = .ok regions) :
    regions = worker.layerRegions layerIdx := by
  rw [regionIds] at taken
  rw [layerRegions]
  split at taken
  · split at taken
    · rename_i fewer
      rw [if_pos fewer]
      split at taken
      · exact (Except.ok.inj taken).symm
      · cases taken
    · rename_i all
      rw [if_neg all]
      split at taken
      · exact (Except.ok.inj taken).symm
      · cases taken
  · cases taken

theorem mem_windowPairs_iff {layerIdx : ℕ} {windows : List (Option ℕ)} {pair : BlockPair} :
    pair ∈ worker.windowPairs localBlockIds remoteBlockIds layerIdx windows ↔
      layerIdx ≤ worker.layerOf pair.region ∧
        ∃ window, windows[worker.layerOf pair.region - layerIdx]? = some window ∧
          (pair.block, pair.remoteBlock) ∈
            (inWindow window localBlockIds).zip (inWindow window remoteBlockIds) := by
  induction windows generalizing layerIdx with
  | nil => simp [windowPairs]
  | cons window windows ih =>
      rw [windowPairs, List.mem_append, mem_regionPairs_iff, mem_layerRegions_iff, ih]
      constructor
      · rintro (⟨rfl, paired⟩ | ⟨later, window, isWindow, paired⟩)
        · exact ⟨Nat.le_refl _, window, by rw [Nat.sub_self]; rfl, paired⟩
        · refine ⟨by omega, window, ?_, paired⟩
          rwa [show worker.layerOf pair.region - layerIdx =
            worker.layerOf pair.region - (layerIdx + 1) + 1 by omega, List.getElem?_cons_succ]
      · rintro ⟨from_here, window, isWindow, paired⟩
        rcases Nat.eq_or_lt_of_le from_here with here | later
        · left
          rw [← here, Nat.sub_self, List.getElem?_cons_zero] at isWindow
          cases isWindow
          exact ⟨here.symm, paired⟩
        · right
          refine ⟨later, window, ?_, paired⟩
          rwa [show worker.layerOf pair.region - layerIdx =
            worker.layerOf pair.region - (layerIdx + 1) + 1 by omega,
            List.getElem?_cons_succ] at isWindow

variable {dstEngineId : EngineId} {blockSizeRatio localCount remoteCount : ℕ}

/-- The two lists have, in order, the descriptors of the pairs. -/
def DescsOf (localCount remoteCount : ℕ) (pairs : List BlockPair) (descs : List ℕ × List ℕ) :
    Prop :=
  descs = (pairs.map fun pair => pair.region * localCount + pair.block,
    pairs.map fun pair => pair.region * remoteCount + pair.remoteBlock)

theorem DescsOf.append {pairs others : List BlockPair} {descs otherDescs : List ℕ × List ℕ}
    (isDescs : DescsOf localCount remoteCount pairs descs)
    (isOthers : DescsOf localCount remoteCount others otherDescs) :
    DescsOf localCount remoteCount (pairs ++ others)
      (descs.1 ++ otherDescs.1, descs.2 ++ otherDescs.2) := by
  subst isDescs isOthers
  rw [DescsOf, List.map_append, List.map_append]

/-- The descriptors of both sides of some blocks, in all regions or in those of a layer. -/
theorem getBlockDescsIds_pairs
    (localKnown : worker.dstNumBlocks.lookup worker.engineId = some localCount)
    (remoteKnown : worker.dstNumBlocks.lookup dstEngineId = some remoteCount)
    (same : localBlockIds.length = remoteBlockIds.length) {layerIdx : Option ℕ}
    {localDescs remoteDescs : List ℕ}
    (localTaken : worker.getBlockDescsIds worker.engineId localBlockIds layerIdx
      (some blockSizeRatio) = .ok localDescs)
    (remoteTaken : worker.getBlockDescsIds dstEngineId remoteBlockIds layerIdx none =
      .ok remoteDescs) :
    ∃ regions, worker.regionIds layerIdx = .ok regions ∧
      DescsOf (localCount * blockSizeRatio) remoteCount
        (regionPairs regions localBlockIds remoteBlockIds) (localDescs, remoteDescs) := by
  obtain ⟨count, regions, known, chosen, rfl⟩ := getBlockDescsIds_eq_ok localTaken
  obtain rfl : localCount = count := Option.some.inj (localKnown.symm.trans known)
  obtain ⟨count, others, known, alsoChosen, rfl⟩ := getBlockDescsIds_eq_ok remoteTaken
  obtain rfl : remoteCount = count := Option.some.inj (remoteKnown.symm.trans known)
  obtain rfl : regions = others := Except.ok.inj (chosen.symm.trans alsoChosen)
  refine ⟨regions, chosen, ?_⟩
  rw [DescsOf, map_block_regionPairs same, map_remoteBlock_regionPairs same, Option.getD_some,
    Option.getD_none, Nat.mul_one]

theorem windowDescs_pairs
    (localKnown : worker.dstNumBlocks.lookup worker.engineId = some localCount)
    (remoteKnown : worker.dstNumBlocks.lookup dstEngineId = some remoteCount)
    (same : localBlockIds.length = remoteBlockIds.length) {windows : List (Option ℕ)}
    {layerIdx : ℕ} {descs : List ℕ × List ℕ}
    (taken : worker.windowDescs dstEngineId blockSizeRatio localBlockIds remoteBlockIds layerIdx
      windows = .ok descs) :
    DescsOf (localCount * blockSizeRatio) remoteCount
        (worker.windowPairs localBlockIds remoteBlockIds layerIdx windows) descs ∧
      ∀ pair ∈ worker.windowPairs localBlockIds remoteBlockIds layerIdx windows,
        pair.region < worker.numRegions := by
  induction windows generalizing layerIdx descs with
  | nil =>
      cases taken
      exact ⟨rfl, fun _ member => absurd member List.not_mem_nil⟩
  | cons window windows ih =>
      rw [windowDescs] at taken
      simp only at taken
      obtain ⟨localDescs, localTaken, taken⟩ := Run.bind_eq_ok.mp taken
      obtain ⟨remoteDescs, remoteTaken, taken⟩ := Run.bind_eq_ok.mp taken
      obtain ⟨rest, others, taken⟩ := Run.bind_eq_ok.mp taken
      cases taken
      obtain ⟨isRest, restInside⟩ := ih others
      have inLayer : ∃ regions, worker.regionIds (some layerIdx) = .ok regions ∧
          DescsOf (localCount * blockSizeRatio) remoteCount
            (regionPairs regions (inWindow window localBlockIds)
              (inWindow window remoteBlockIds)) (localDescs, remoteDescs) := by
        cases window with
        | none => exact getBlockDescsIds_pairs localKnown remoteKnown same localTaken remoteTaken
        | some count =>
            exact getBlockDescsIds_pairs localKnown remoteKnown (length_lastBlocks same count)
              localTaken remoteTaken
      obtain ⟨regions, chosen, isDescs⟩ := inLayer
      obtain rfl := regionIds_eq chosen
      refine ⟨isDescs.append isRest, fun pair member => ?_⟩
      rcases List.mem_append.mp member with here | later
      · exact regionIds_lt chosen _ (mem_regionPairs_iff.mp here).1
      · exact restInside pair later

/-- Whoever has descriptors knows how many blocks either side has. -/
theorem xferDescs_known {descs : List ℕ × List ℕ}
    (taken : worker.xferDescs dstEngineId blockSizeRatio localBlockIds remoteBlockIds =
      .ok descs) :
    ∃ localCount remoteCount, worker.dstNumBlocks.lookup worker.engineId = some localCount ∧
      worker.dstNumBlocks.lookup dstEngineId = some remoteCount := by
  rw [xferDescs] at taken
  obtain ⟨sides, isSides, _⟩ := Run.bind_eq_ok.mp taken
  rw [sideDescs] at isSides
  split at isSides
  · obtain ⟨_, remoteTaken, isSides⟩ := Run.bind_eq_ok.mp isSides
    obtain ⟨_, localTaken, _⟩ := Run.bind_eq_ok.mp isSides
    obtain ⟨remoteCount, _, remoteKnown, _⟩ := getBlockDescsIds_eq_ok remoteTaken
    obtain ⟨localCount, _, localKnown, _⟩ := getBlockDescsIds_eq_ok localTaken
    exact ⟨localCount, remoteCount, localKnown, remoteKnown⟩
  · rename_i windows
    -- The first layer asks for both.
    obtain ⟨window, rest, isCons⟩ := List.exists_cons_of_ne_nil
      (mt List.isEmpty_iff.mpr windows)
    rw [isCons, windowDescs] at isSides
    obtain ⟨_, localTaken, isSides⟩ := Run.bind_eq_ok.mp isSides
    obtain ⟨_, remoteTaken, _⟩ := Run.bind_eq_ok.mp isSides
    obtain ⟨remoteCount, _, remoteKnown, _⟩ := getBlockDescsIds_eq_ok remoteTaken
    obtain ⟨localCount, _, localKnown, _⟩ := getBlockDescsIds_eq_ok localTaken
    exact ⟨localCount, remoteCount, localKnown, remoteKnown⟩

/-- The descriptors of a transfer are those of its pairs. -/
theorem xferDescs_readPairs
    (localKnown : worker.dstNumBlocks.lookup worker.engineId = some localCount)
    (remoteKnown : worker.dstNumBlocks.lookup dstEngineId = some remoteCount)
    (same : localBlockIds.length = remoteBlockIds.length) {descs : List ℕ × List ℕ}
    (taken : worker.xferDescs dstEngineId blockSizeRatio localBlockIds remoteBlockIds =
      .ok descs) :
    DescsOf (localCount * blockSizeRatio) remoteCount
        (worker.readPairs localBlockIds remoteBlockIds) descs ∧
      ∀ pair ∈ worker.readPairs localBlockIds remoteBlockIds,
        pair.region < worker.numRegions := by
  rw [xferDescs] at taken
  obtain ⟨sides, isSides, taken⟩ := Run.bind_eq_ok.mp taken
  obtain rfl : sides = descs := by
    split at taken
    · exact Except.ok.inj taken
    · cases taken
  rw [sideDescs] at isSides
  rw [readPairs]
  split at isSides
  · rename_i noWindows
    rw [if_pos noWindows]
    obtain ⟨remoteSide, remoteTaken, isSides⟩ := Run.bind_eq_ok.mp isSides
    obtain ⟨localSide, localTaken, isSides⟩ := Run.bind_eq_ok.mp isSides
    cases isSides
    obtain ⟨regions, chosen, isDescs⟩ :=
      getBlockDescsIds_pairs localKnown remoteKnown same localTaken remoteTaken
    cases chosen
    exact ⟨isDescs, fun pair member => List.mem_range.mp (mem_regionPairs_iff.mp member).1⟩
  · rename_i windows
    rw [if_neg windows]
    exact windowDescs_pairs localKnown remoteKnown same isSides

/-- The pairs of a transfer are those that it fills. -/
theorem mem_readPairs_iff {pair : BlockPair}
    (inside : ∀ pair ∈ worker.readPairs localBlockIds remoteBlockIds,
      pair.region < worker.numRegions) :
    pair ∈ worker.readPairs localBlockIds remoteBlockIds ↔
      worker.Fills localBlockIds remoteBlockIds pair := by
  have chosen : pair ∈ worker.readPairs localBlockIds remoteBlockIds ↔
      (worker.blockWindowPerLayer.isEmpty → pair.region < worker.numRegions) ∧
        ∃ window, worker.regionWindow pair.region = some window ∧
          (pair.block, pair.remoteBlock) ∈
            (inWindow window localBlockIds).zip (inWindow window remoteBlockIds) := by
    rw [readPairs, regionWindow]
    split
    · rename_i noWindows
      rw [mem_regionPairs_iff, List.mem_range]
      constructor
      · exact fun ⟨region_lt, paired⟩ => ⟨fun _ => region_lt, none, rfl, paired⟩
      · rintro ⟨region_lt, window, isWindow, paired⟩
        cases isWindow
        exact ⟨region_lt noWindows, paired⟩
    · rename_i windows
      rw [mem_windowPairs_iff, Nat.sub_zero]
      exact ⟨fun ⟨_, paired⟩ => ⟨fun empty => absurd empty windows, paired⟩,
        fun ⟨_, paired⟩ => ⟨Nat.zero_le _, paired⟩⟩
  constructor
  · exact fun member => ⟨inside pair member, (chosen.mp member).2⟩
  · exact fun fills => chosen.mpr ⟨fun _ => fills.region_lt, fills.paired⟩

end Pairs

/-! ## The reads of a request -/

end ReadingWorker

def ReadCall.isRead : ReadCall → Bool
  | .sendNotif _ _ => false
  | .read _ _ _ _ _ => true

namespace ReadingWorker

section Reads

variable {ω : Type*} {worker : ReadingWorker ω} {reqId : ReqId} {reading next : Reading ω}

/-- The local blocks that a read fills, in units of the blocks of the remote engine. -/
def filled (worker : ReadingWorker ω) (localBlockIds : List ℕ) (remote : RemoteMeta) : List ℕ :=
  alignLocalBlocks (worker.kvTopo.blockSizeRatioFromEngineId remote.engineId) localBlockIds
    remote.blockIds

/-- The reads that were begun between two states. -/
def Begun (reading next : Reading ω) (reads : List ReadCall) : Prop :=
  ∃ calls, next.calls = reading.calls ++ calls ∧ calls.filter ReadCall.isRead = reads

theorem Begun.of_calls (same : next.calls = reading.calls) : Begun reading next [] :=
  ⟨[], by rw [same, List.append_nil], rfl⟩

theorem Begun.trans {middle : Reading ω} {first second : List ReadCall}
    (left : Begun reading middle first) (right : Begun middle next second) :
    Begun reading next (first ++ second) := by
  obtain ⟨early, isEarly, rfl⟩ := left
  obtain ⟨late, isLate, rfl⟩ := right
  exact ⟨early ++ late, by rw [isLate, isEarly, List.append_assoc], List.filter_append _ _⟩

/-- What a step of a read does: it begins some reads and forgets no failure. -/
structure Steps (reqId : ReqId) (reading next : Reading ω) (reads : List ReadCall) : Prop where
  /-- It begins these reads. -/
  begun : Begun reading next reads
  /-- A request that failed stays failed. -/
  failed : reqId ∈ reading.failedRecvReqs → reqId ∈ next.failedRecvReqs

theorem Steps.trans {middle : Reading ω} {first second : List ReadCall}
    (left : Steps reqId reading middle first) (right : Steps reqId middle next second) :
    Steps reqId reading next (first ++ second) :=
  ⟨left.begun.trans right.begun, fun failed => right.failed (left.failed failed)⟩

variable {localBlockIds : List ℕ} {remote : RemoteMeta} {tpRatio : ℤ}

end Reads

end ReadingWorker

end RduHdi
