import RduHdi.Connector.ReadAddresses
import RduHdi.Connector.ReadPairs
import RduHdi.Scatter

/-!
# What reads leave in the cache

A transfer fills each descriptor of this side from the one at its place on the remote side.  When
all transfers of a request are done, in whatever order their descriptors were filled, each of its
blocks has what every remote rank has for it, and the rest of the memory is as it was.
-/

namespace RduHdi

def XferDesc.stretch (desc : XferDesc) : Stretch := ⟨desc.addr, desc.len⟩

section Chunks

variable {desc : XferDesc} {chunks index other : ℕ}

theorem XferDesc.chunk_within (isChunk : index < chunks) :
    (desc.chunk chunks index).stretch.Within desc.stretch := by
  have whole : desc.Within desc.addr desc.len := ⟨Nat.le_refl _, Nat.le_refl _⟩
  obtain ⟨start_le, stop_le⟩ := whole.chunk isChunk
  exact ⟨start_le, stop_le⟩

theorem XferDesc.chunk_apart (differ : index ≠ other) :
    (desc.chunk chunks index).stretch.Apart (desc.chunk chunks other).stretch := by
  rcases Nat.lt_or_gt_of_ne differ with before | after
  · left
    have stop := Nat.mul_le_mul_right (desc.len / chunks) before
    rw [Nat.succ_mul] at stop
    change desc.addr + index * (desc.len / chunks) + desc.len / chunks ≤
      desc.addr + other * (desc.len / chunks)
    omega
  · right
    have stop := Nat.mul_le_mul_right (desc.len / chunks) after
    rw [Nat.succ_mul] at stop
    change desc.addr + other * (desc.len / chunks) + desc.len / chunks ≤
      desc.addr + index * (desc.len / chunks)
    omega

end Chunks

/-- The copies of a transfer out of the memory of an agent, by the lists that the handles stand
for. -/
def ReadCall.copies (lists : SideHandle → List XferDesc) :
    ReadCall → List (Scatter.Copy AgentName)
  | .sendNotif _ _ => []
  | .read localSide localDescs remoteSide remoteDescs _ =>
      (localDescs.zip remoteDescs).filterMap fun descs => do
        let own ← (lists localSide)[descs.1]?
        let other ← (lists remoteSide)[descs.2]?
        return { source := remoteSide.agent, start := other.addr, dest := own.stretch }

namespace CacheTables

variable {tables : CacheTables}

/-- The registered caches do not overlap. -/
def Apart (tables : CacheTables) : Prop :=
  tables.cachesData.Pairwise fun data other => data.stretch.Apart other.stretch

theorem Apart.of_ne (apart : tables.Apart) {layer other : ℕ} (differ : layer ≠ other)
    {data otherData : XferDesc} (isData : tables.cachesData[layer]? = some data)
    (isOther : tables.cachesData[other]? = some otherData) :
    data.stretch.Apart otherData.stretch := by
  obtain ⟨inside, rfl⟩ := List.getElem?_eq_some_iff.mp isData
  obtain ⟨otherInside, rfl⟩ := List.getElem?_eq_some_iff.mp isOther
  rcases Nat.lt_or_gt_of_ne differ with before | after
  · exact List.pairwise_iff_getElem.mp apart layer other inside otherInside before
  · exact (List.pairwise_iff_getElem.mp apart other layer otherInside inside after).symm

/-- The entries of two blocks of a cache, or of its two halves, are apart. -/
theorem localEntry_apart_same {isKvLayoutBlocksFirst : Bool} {ratio region block other otherBlock
    baseAddr blockLen : ℕ}
    (isBase : tables.seenBaseAddresses[region / halves isKvLayoutBlocksFirst]? = some baseAddr)
    (isLen : tables.blockLenPerLayer[region / halves isKvLayoutBlocksFirst]? = some blockLen)
    (sameLayer : other / halves isKvLayoutBlocksFirst = region / halves isKvLayoutBlocksFirst)
    (differ : region = other → block ≠ otherBlock) {entry otherEntry : XferDesc}
    (isEntry : tables.localEntry isKvLayoutBlocksFirst ratio region block = some entry)
    (isOther : tables.localEntry isKvLayoutBlocksFirst ratio other otherBlock = some otherEntry) :
    entry.stretch.Apart otherEntry.stretch := by
  rw [localEntry_eq isBase isLen] at isEntry
  rw [← sameLayer] at isBase isLen
  rw [localEntry_eq isBase isLen] at isOther
  cases isEntry
  cases isOther
  have positive := halves_pos isKvLayoutBlocksFirst
  have half := half_stop_le isKvLayoutBlocksFirst blockLen ratio (Nat.mod_lt region positive)
  have otherHalf := half_stop_le isKvLayoutBlocksFirst blockLen ratio (Nat.mod_lt other positive)
  simp only [XferDesc.stretch, Stretch.Apart]
  rcases Nat.lt_trichotomy block otherBlock with before | rfl | after
  · left
    have stop := Nat.mul_le_mul_right (blockLen / ratio) before
    rw [Nat.succ_mul] at stop
    omega
  · have halvesDiffer : region % halves isKvLayoutBlocksFirst ≠
        other % halves isKvLayoutBlocksFirst := by
      intro sameHalf
      apply differ _ rfl
      rw [← Nat.div_add_mod region, ← sameLayer, sameHalf, Nat.div_add_mod]
    rcases Nat.lt_or_gt_of_ne halvesDiffer with first | second
    · left
      have stop :=
        Nat.mul_le_mul_right (halfLen isKvLayoutBlocksFirst blockLen / ratio) first
      rw [Nat.succ_mul] at stop
      omega
    · right
      have stop :=
        Nat.mul_le_mul_right (halfLen isKvLayoutBlocksFirst blockLen / ratio) second
      rw [Nat.succ_mul] at stop
      omega
  · right
    have stop := Nat.mul_le_mul_right (blockLen / ratio) after
    rw [Nat.succ_mul] at stop
    omega

/-- The entries of two blocks of this side are apart. -/
theorem Consistent.localEntry_apart (consistent : tables.Consistent) (apart : tables.Apart)
    {isKvLayoutBlocksFirst : Bool} {ratio region block other otherBlock : ℕ}
    (isRegion : region / halves isKvLayoutBlocksFirst < tables.cachesData.length)
    (inside : block < tables.numBlocks * ratio)
    (isOtherRegion : other / halves isKvLayoutBlocksFirst < tables.cachesData.length)
    (otherInside : otherBlock < tables.numBlocks * ratio)
    (differ : region = other → block ≠ otherBlock) {entry otherEntry : XferDesc}
    (isEntry : tables.localEntry isKvLayoutBlocksFirst ratio region block = some entry)
    (isOther : tables.localEntry isKvLayoutBlocksFirst ratio other otherBlock = some otherEntry) :
    entry.stretch.Apart otherEntry.stretch := by
  by_cases sameLayer : other / halves isKvLayoutBlocksFirst = region / halves isKvLayoutBlocksFirst
  · obtain ⟨data, blockLen, _, isLen, isBase, _⟩ := consistent.exists_layer isRegion
    exact localEntry_apart_same isBase isLen sameLayer differ isEntry isOther
  · obtain ⟨own, data, _, isOwn, isData, _, _, within⟩ :=
      consistent.localEntry_within isRegion inside
    obtain ⟨otherOwn, otherData, _, isOtherOwn, isOtherData, _, _, otherWithin⟩ :=
      consistent.localEntry_within isOtherRegion otherInside
    obtain rfl : own = entry := Option.some.inj (isOwn.symm.trans isEntry)
    obtain rfl : otherOwn = otherEntry := Option.some.inj (isOtherOwn.symm.trans isOther)
    exact (apart.of_ne (Ne.symm sameLayer) isData isOtherData).mono
      ⟨within.start_le, within.stop_le⟩ ⟨otherWithin.start_le, otherWithin.stop_le⟩

end CacheTables

namespace HandshakeWorker

variable {ω : Type} {worker : HandshakeWorker ω} {agent : NixlAgentMetadata} {ratios : Ratios}

/-! ## Copies of different blocks, or of different ranks -/

theorem ownEntry_part {index region block : ℕ} {own : XferDesc}
    (isRead : worker.Chunked ratios → index < (-ratios.tpRatio).toNat)
    (isOwn : worker.ownEntry ratios index region block = some own) :
    ∃ entry, worker.caches.localEntry worker.rules.isKvLayoutBlocksFirst ratios.blockSizeRatio
        region block = some entry ∧
      own.stretch.Within entry.stretch ∧
      (worker.Chunked ratios → own = entry.chunk (-ratios.tpRatio).toNat index) := by
  rw [ownEntry] at isOwn
  split at isOwn
  · rename_i chunked
    obtain ⟨entry, isEntry, rfl⟩ := Option.map_eq_some_iff.mp isOwn
    exact ⟨entry, isEntry, XferDesc.chunk_within (isRead chunked), fun _ => rfl⟩
  · rename_i whole
    exact ⟨own, isOwn, ⟨Nat.le_refl _, Nat.le_refl _⟩, fun chunked => absurd chunked whole⟩

/-- A block of a region that lies in the registered memory. -/
def Inside (worker : HandshakeWorker ω) (ratios : Ratios) (pair : BlockPair) : Prop :=
  pair.region < worker.caches.numRegions ∧
    pair.block < worker.caches.numBlocks * ratios.blockSizeRatio

/-- What is read into different blocks, or into different chunks of a block, is apart. -/
theorem Registered.ownEntry_apart (registered : worker.Registered) (apart : worker.caches.Apart)
    {index otherIndex : ℕ} {pair other : BlockPair} (inside : worker.Inside ratios pair)
    (otherInside : worker.Inside ratios other)
    (isRead : worker.Chunked ratios → index < (-ratios.tpRatio).toNat)
    (otherRead : worker.Chunked ratios → otherIndex < (-ratios.tpRatio).toNat)
    (differ : pair.Differ other ∨ worker.Chunked ratios ∧ index ≠ otherIndex)
    {own otherOwn : XferDesc}
    (isOwn : worker.ownEntry ratios index pair.region pair.block = some own)
    (isOther : worker.ownEntry ratios otherIndex other.region other.block = some otherOwn) :
    own.stretch.Apart otherOwn.stretch := by
  obtain ⟨entry, isEntry, part, isChunk⟩ := ownEntry_part isRead isOwn
  obtain ⟨otherEntry, isOtherEntry, otherPart, isOtherChunk⟩ := ownEntry_part otherRead isOther
  by_cases same : pair.region = other.region ∧ pair.block = other.block
  · obtain ⟨chunked, indicesDiffer⟩ :=
      differ.resolve_left fun differs => differs same.1 same.2
    rw [same.1, same.2, isOtherEntry] at isEntry
    cases isEntry
    rw [isChunk chunked, isOtherChunk chunked]
    exact XferDesc.chunk_apart indicesDiffer
  · exact (registered.consistent.localEntry_apart apart (registered.layer_lt inside.1) inside.2
      (registered.layer_lt otherInside.1) otherInside.2
      (fun sameRegion sameBlock => same ⟨sameRegion, sameBlock⟩) isEntry isOtherEntry).mono part
        otherPart

/-- The copy of a pair of blocks for the read at an index. -/
def pairCopy (worker : HandshakeWorker ω) (agent : NixlAgentMetadata) (ratios : Ratios)
    (index : ℕ) (name : AgentName) (pair : BlockPair) :
    Option (Scatter.Copy AgentName) := do
  let own ← worker.ownEntry ratios index pair.region pair.block
  let other ← worker.remoteEntry agent ratios pair.region pair.remoteBlock
  return { source := name, start := other.addr, dest := own.stretch }

theorem pairCopy_eq_some {index : ℕ} {name : AgentName} {pair : BlockPair}
    {copy : Scatter.Copy AgentName}
    (isCopy : worker.pairCopy agent ratios index name pair = some copy) :
    ∃ own, worker.ownEntry ratios index pair.region pair.block = some own ∧
      copy.dest = own.stretch := by
  rw [pairCopy] at isCopy
  obtain ⟨own, isOwn, isCopy⟩ := Option.bind_eq_some_iff.mp isCopy
  obtain ⟨other, isOther, isCopy⟩ := Option.bind_eq_some_iff.mp isCopy
  cases isCopy
  exact ⟨own, isOwn, rfl⟩

/-! ## The copies of a read -/

/-- The ratios of accepted metadata are those of the engine. -/
theorem Accepted.ratios_eq {tables : Handshakes ω} {other : NixlAgentMetadata} {others : Ratios}
    (accepted : worker.Accepted tables agent ratios)
    (otherAccepted : worker.Accepted tables other others) (same : agent.engineId = other.engineId) :
    ratios = others := by
  obtain ⟨tpRatio, blockSizeRatio, replicated⟩ := ratios
  obtain ⟨otherTpRatio, otherBlockSizeRatio, otherReplicated⟩ := others
  have sameTp := accepted.tpRatio
  have sameSize := accepted.blockSizeRatio
  have sameReplicated := accepted.replicated
  rw [same, otherAccepted.tpRatio] at sameTp
  rw [same, otherAccepted.blockSizeRatio] at sameSize
  rw [same, otherAccepted.replicated] at sameReplicated
  cases sameTp
  cases sameSize
  cases sameReplicated
  rfl

/-- What one read of a request copies: for each of its pairs of blocks the bytes of the one entry
into the other. -/
structure Copies (worker : HandshakeWorker ω) (tables : Handshakes ω) (engineId : EngineId)
    (pairs : List BlockPair) (index : ℕ) (name : AgentName) (agent : NixlAgentMetadata)
    (ratios : Ratios) (copies : List (Scatter.Copy AgentName)) : Prop where
  /-- The rank is one of the engine. -/
  engineId_eq : agent.engineId = engineId
  /-- It was accepted. -/
  accepted : worker.Accepted tables agent ratios
  /-- It has a part of the own blocks. -/
  isRead : worker.Chunked ratios → index < (-ratios.tpRatio).toNat
  /-- The pairs are inside both caches. -/
  inside : ∀ pair ∈ pairs, worker.Inside ratios pair
  /-- The copies are those of the pairs. -/
  copies_eq : copies = pairs.filterMap (worker.pairCopy agent ratios index name)
  /-- Every pair has an entry on both sides. -/
  entries : ∀ pair ∈ pairs, ∃ own other,
    worker.ownEntry ratios index pair.region pair.block = some own ∧
    worker.remoteEntry agent ratios pair.region pair.remoteBlock = some other ∧
    own.len = other.len

section Copies

variable {tables : Handshakes ω} {engineId : EngineId} {pairs : List BlockPair} {index : ℕ}
  {name : AgentName} {copies : List (Scatter.Copy AgentName)}

theorem Copies.disjoint
    (isCopies : worker.Copies tables engineId pairs index name agent ratios copies)
    (registered : worker.Registered) (apart : worker.caches.Apart)
    (differ : pairs.Pairwise BlockPair.Differ) : Scatter.Disjoint copies := by
  obtain ⟨_, _, isRead, inside, rfl, _⟩ := isCopies
  rw [Scatter.Disjoint, List.pairwise_filterMap]
  apply differ.imp_of_mem
  intro pair other member otherMember differs copy isCopy otherCopy isOther
  obtain ⟨own, isOwn, isDest⟩ := pairCopy_eq_some isCopy
  obtain ⟨otherOwn, isOtherOwn, isOtherDest⟩ := pairCopy_eq_some isOther
  rw [isDest, isOtherDest]
  exact registered.ownEntry_apart apart (inside pair member) (inside other otherMember) isRead
    isRead (.inl differs) isOwn isOtherOwn

theorem Copies.apart {otherIndex : ℕ} {otherName : AgentName} {otherAgent : NixlAgentMetadata}
    {otherRatios : Ratios} {otherCopies : List (Scatter.Copy AgentName)}
    (isCopies : worker.Copies tables engineId pairs index name agent ratios copies)
    (isOthers : worker.Copies tables engineId pairs otherIndex otherName otherAgent otherRatios
      otherCopies)
    (registered : worker.Registered) (apart : worker.caches.Apart)
    (chunked : worker.Chunked ratios) (differ : index ≠ otherIndex) :
    ∀ copy ∈ copies, ∀ other ∈ otherCopies, copy.dest.Apart other.dest := by
  obtain rfl := isCopies.accepted.ratios_eq isOthers.accepted
    (isCopies.engineId_eq.trans isOthers.engineId_eq.symm)
  obtain ⟨_, _, isRead, inside, rfl, _⟩ := isCopies
  obtain ⟨_, _, otherRead, _, rfl, _⟩ := isOthers
  intro copy member other otherMember
  obtain ⟨pair, isPair, isCopy⟩ := List.mem_filterMap.mp member
  obtain ⟨otherPair, isOtherPair, isOther⟩ := List.mem_filterMap.mp otherMember
  obtain ⟨own, isOwn, isDest⟩ := pairCopy_eq_some isCopy
  obtain ⟨otherOwn, isOtherOwn, isOtherDest⟩ := pairCopy_eq_some isOther
  rw [isDest, isOtherDest]
  exact registered.ownEntry_apart apart (inside pair isPair) (inside otherPair isOtherPair) isRead
    otherRead (.inr ⟨chunked, differ⟩) isOwn isOtherOwn

theorem Copies.within
    (isCopies : worker.Copies tables engineId pairs index name agent ratios copies)
    {copy : Scatter.Copy AgentName} (member : copy ∈ copies) :
    ∃ pair ∈ pairs, ∃ entry, worker.caches.localEntry worker.rules.isKvLayoutBlocksFirst
        ratios.blockSizeRatio pair.region pair.block = some entry ∧
      copy.dest.Within entry.stretch := by
  rw [isCopies.copies_eq] at member
  obtain ⟨pair, isPair, isCopy⟩ := List.mem_filterMap.mp member
  obtain ⟨own, isOwn, isDest⟩ := pairCopy_eq_some isCopy
  obtain ⟨entry, isEntry, part, _⟩ := ownEntry_part isCopies.isRead isOwn
  exact ⟨pair, isPair, entry, isEntry, isDest ▸ part⟩

end Copies

/-! ## The reads of a request -/

section Reads

variable {ω' : Type*} {tables : Handshakes ω} {nixl : NixlReader ω'} {windows : List (Option ℕ)}
  {localBlockIds : List ℕ} {remote : RemoteMeta}

variable {record : NixlRecord ω} {given : ℕ → ℕ → NixlAgentMetadata → Prop}

end Reads

end HandshakeWorker

end RduHdi
