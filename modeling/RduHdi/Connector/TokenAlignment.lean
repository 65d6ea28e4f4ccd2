import RduHdi.Connector.ReadPairs
import RduHdi.Grid
import RduHdi.Paging

/-!
# Which tokens a read pairs

A prompt occupies remote blocks of one size and local blocks of a multiple of it, of which the
first ones may be cached.  A read pairs the local blocks in units of remote blocks with remote
blocks.  The pairs hold the same tokens exactly when nothing is cached or the remote blocks fill
the last local block: otherwise the unfilled end of that block shifts every pair.
-/

namespace RduHdi

/-! ## Pairs -/

/-- The pairs of a local and a remote block in a read. -/
def blockPairs (blockSizeRatio : ℕ) (localBlockIds remoteBlockIds : List ℕ) : List (ℕ × ℕ) :=
  let localBlocks := alignLocalBlocks blockSizeRatio localBlockIds remoteBlockIds
  localBlocks.zip (alignRemoteBlocks localBlocks.length remoteBlockIds)

theorem length_getMappedBlocks (blocks : List ℕ) (ratio : ℕ) :
    (getMappedBlocks blocks ratio).length = blocks.length * ratio :=
  Grid.length_flatMap fun block _ => by simp

theorem getElem?_getMappedBlocks (blocks : List ℕ) {ratio : ℕ} (positive : 0 < ratio)
    (index : ℕ) :
    (getMappedBlocks blocks ratio)[index]? =
      blocks[index / ratio]?.map fun block => block * ratio + index % ratio := by
  have column := Nat.mod_lt index positive
  conv_lhs => rw [← Nat.div_add_mod' index ratio]
  rw [getMappedBlocks, Grid.getElem?_flatMap (fun block _ => by simp) _ column]
  cases blocks[index / ratio]? with
  | none => rfl
  | some block => simp [column]

/-! ## The pairs of a transfer -/

namespace ReadingWorker

variable {ω : Type*} {worker : ReadingWorker ω}

/-- A transfer that is begun pairs the blocks of the read: in every region, as many of the last
pairs as the window of its layer has. -/
theorem readBlocks_pairs {reading : Reading ω} {args : ReadArgs} {next : Reading ω}
    (taken : worker.readBlocks reading args = (next, .ok ()))
    {localSide remoteSide : SideHandle} {localDescs remoteDescs : List ℕ} {notif : ByteArray}
    (begun : next.calls =
      reading.calls ++ [.read localSide localDescs remoteSide remoteDescs notif]) :
    ∃ localCount remoteCount pairs, worker.dstNumBlocks.lookup worker.engineId = some localCount ∧
      worker.dstNumBlocks.lookup args.dstEngineId = some remoteCount ∧
      DescsOf (localCount * worker.kvTopo.blockSizeRatioFromEngineId args.dstEngineId) remoteCount
        pairs (localDescs, remoteDescs) ∧
      ∀ pair, pair ∈ pairs ↔ pair.region < worker.numRegions ∧
        ∃ window, worker.regionWindow pair.region = some window ∧
          (pair.block, pair.remoteBlock) ∈
            windowed (blockPairs (worker.kvTopo.blockSizeRatioFromEngineId args.dstEngineId)
              args.localBlockIds args.remoteBlockIds) window := by
  rw [readBlocks] at taken
  simp only at taken
  split at taken
  · split at taken
    · cases taken
    · cases taken
      rw [sendNotif] at begun
      split at begun
      · simp at begun
      · simp at begun
  · rename_i some_left
    split at taken
    · rename_i fits
      split at taken
      · cases taken
      · rename_i firstDescs secondDescs descs
        cases taken
        rw [beginXfer_eq] at begun
        split at begun
        · simp [failTransfer] at begun
        · split at begun
          · simp [failTransfer] at begun
          · simp only [List.append_cancel_left_eq, List.cons.injEq, ReadCall.read.injEq,
              and_true] at begun
            obtain ⟨-, rfl, -, rfl, -⟩ := begun
            have same := congrArg List.length (alignRemoteBlocks_eq some_left fits)
            rw [List.length_drop, Nat.sub_sub_self fits] at same
            obtain ⟨localCount, remoteCount, localKnown, remoteKnown⟩ := xferDescs_known descs
            obtain ⟨isDescs, inside⟩ := xferDescs_readPairs localKnown remoteKnown same.symm descs
            refine ⟨localCount, remoteCount, _, localKnown, remoteKnown, isDescs, fun pair => ?_⟩
            rw [mem_readPairs_iff inside, blockPairs]
            simp only [← zip_inWindow same.symm]
            exact ⟨fun fills => ⟨fills.region_lt, fills.paired⟩, fun fills => ⟨fills.1, fills.2⟩⟩
    · cases taken

end ReadingWorker

/-! ## A prompt in blocks of two sizes -/

/-- A prompt in blocks of the remote size and in blocks of the local size, of which the first
ones are cached. -/
structure PagedPrompt where
  /-- The length of the prompt. -/
  tokens : ℕ
  /-- The tokens a remote block holds. -/
  blockSize : ℕ
  /-- The remote blocks a local block holds. -/
  ratio : ℕ
  /-- The local blocks that are cached. -/
  cached : ℕ
  /-- The local blocks. -/
  localBlocks : List ℕ
  /-- The remote blocks. -/
  remoteBlocks : List ℕ
  /-- A remote block holds a token. -/
  blockSize_pos : 0 < blockSize
  /-- A local block holds a remote one. -/
  ratio_pos : 0 < ratio
  /-- The local blocks are as many as the prompt needs. -/
  local_length : localBlocks.length = Paging.pageCount (ratio * blockSize) tokens
  /-- So are the remote ones. -/
  remote_length : remoteBlocks.length = Paging.pageCount blockSize tokens
  /-- No local block is given twice. -/
  local_nodup : localBlocks.Nodup
  /-- No remote block is given twice. -/
  remote_nodup : remoteBlocks.Nodup
  /-- Some block is not cached. -/
  cached_lt : cached < localBlocks.length

namespace PagedPrompt

variable (prompt : PagedPrompt)

/-- The pairs of a read of the blocks that are not cached. -/
def pairs : List (ℕ × ℕ) :=
  blockPairs prompt.ratio (prompt.localBlocks.drop prompt.cached) prompt.remoteBlocks

/-- The tokens of the prompt in the remote block at a position. -/
def tokensAt (position : ℕ) : Finset ℕ :=
  Finset.Ico (position * prompt.blockSize)
    (min ((position + 1) * prompt.blockSize) prompt.tokens)

/-- The tokens of a local block in units of remote blocks. -/
def localTokens (subBlock : ℕ) : Finset ℕ :=
  prompt.tokensAt
    (prompt.localBlocks.idxOf (subBlock / prompt.ratio) * prompt.ratio + subBlock % prompt.ratio)

def remoteTokens (block : ℕ) : Finset ℕ :=
  prompt.tokensAt (prompt.remoteBlocks.idxOf block)

/-- Every pair holds the same tokens on both sides, and every remote block with a token that is
not cached is read once. -/
structure Aligned : Prop where
  /-- The blocks of a pair hold the same tokens. -/
  same : ∀ pair ∈ prompt.pairs, prompt.localTokens pair.1 = prompt.remoteTokens pair.2
  /-- What is not cached is read once. -/
  once : ∀ block ∈ prompt.remoteBlocks,
    (∃ token ∈ prompt.remoteTokens block,
      prompt.cached * (prompt.ratio * prompt.blockSize) ≤ token) →
        (prompt.pairs.map Prod.snd).count block = 1

/-- How many pairs a read has. -/
def readCount : ℕ :=
  min ((prompt.localBlocks.length - prompt.cached) * prompt.ratio) prompt.remoteBlocks.length

/-- The position of the first remote block of a read. -/
def firstRead : ℕ := prompt.remoteBlocks.length - prompt.readCount

/-- The remote blocks end in the last local block. -/
theorem filled : (prompt.localBlocks.length - 1) * prompt.ratio < prompt.remoteBlocks.length ∧
    prompt.remoteBlocks.length ≤ prompt.localBlocks.length * prompt.ratio := by
  have whole : prompt.localBlocks.length =
      Paging.pageCount prompt.ratio prompt.remoteBlocks.length := by
    rw [prompt.local_length, prompt.remote_length,
      Paging.pageCount_mul prompt.ratio_pos prompt.blockSize_pos]
  have some_local := prompt.cached_lt
  constructor
  · by_contra fits
    have fewer : prompt.localBlocks.length ≤ prompt.localBlocks.length - 1 := by
      rw [whole, Paging.pageCount_le_iff prompt.ratio_pos, ← whole, Nat.mul_comm]
      exact Nat.le_of_not_lt fits
    omega
  · rw [Nat.mul_comm, ← Paging.pageCount_le_iff prompt.ratio_pos]
    exact whole.ge

theorem readCount_pos : 0 < prompt.readCount := by
  have some_left := Nat.sub_pos_of_lt prompt.cached_lt
  have some_remote := Nat.zero_lt_of_lt prompt.filled.1
  exact lt_min (Nat.mul_pos some_left prompt.ratio_pos) some_remote

theorem firstRead_lt : prompt.firstRead < prompt.remoteBlocks.length := by
  have some_read := prompt.readCount_pos
  have some_remote := Nat.zero_lt_of_lt prompt.filled.1
  rw [firstRead]
  omega

theorem pairs_eq : prompt.pairs =
    ((getMappedBlocks (prompt.localBlocks.drop prompt.cached) prompt.ratio).take
      prompt.remoteBlocks.length).zip (prompt.remoteBlocks.drop prompt.firstRead) := by
  have enough : prompt.ratio = 1 →
      (prompt.localBlocks.drop prompt.cached).length ≤ prompt.remoteBlocks.length := by
    intro one
    have filled := prompt.filled.1
    rw [one, Nat.mul_one] at filled
    rw [List.length_drop]
    omega
  have count : ((getMappedBlocks (prompt.localBlocks.drop prompt.cached) prompt.ratio).take
      prompt.remoteBlocks.length).length = prompt.readCount := by
    rw [List.length_take, length_getMappedBlocks, List.length_drop, Nat.min_comm]
    rfl
  rw [pairs, blockPairs, alignLocalBlocks_eq prompt.ratio_pos enough, count,
    alignRemoteBlocks_eq prompt.readCount_pos.ne' (Nat.min_le_right _ _)]
  rfl

theorem map_snd_pairs : prompt.pairs.map Prod.snd = prompt.remoteBlocks.drop prompt.firstRead := by
  rw [pairs_eq, List.map_snd_zip]
  have bound : prompt.readCount ≤ prompt.remoteBlocks.length := Nat.min_le_right _ _
  rw [List.length_take, length_getMappedBlocks, List.length_drop, List.length_drop, firstRead]
  rw [readCount] at bound ⊢
  omega

theorem length_pairs : prompt.pairs.length = prompt.readCount := by
  have bound : prompt.readCount ≤ prompt.remoteBlocks.length := Nat.min_le_right _ _
  have length := congrArg List.length prompt.map_snd_pairs
  rw [List.length_map, List.length_drop, firstRead] at length
  omega

/-- The pair at an index: the local block starts where the cached ones end, the remote block where
the read starts. -/
theorem getElem?_pairs {index : ℕ} (inside : index < prompt.readCount) :
    ∃ block remote, prompt.localBlocks[prompt.cached + index / prompt.ratio]? = some block ∧
      prompt.remoteBlocks[prompt.firstRead + index]? = some remote ∧
      prompt.pairs[index]? =
        some (block * prompt.ratio + index % prompt.ratio, remote) := by
  have bound : index < prompt.pairs.length := prompt.length_pairs.symm ▸ inside
  have found := List.getElem?_eq_getElem bound
  generalize prompt.pairs[index] = pair at found
  have sides := found
  rw [pairs_eq, List.getElem?_zip_eq_some] at sides
  obtain ⟨left, right⟩ := sides
  have inRange : index < prompt.remoteBlocks.length := lt_of_lt_of_le inside (Nat.min_le_right _ _)
  rw [List.getElem?_take_of_lt inRange, getElem?_getMappedBlocks _ prompt.ratio_pos,
    List.getElem?_drop, Option.map_eq_some_iff] at left
  obtain ⟨block, known, same⟩ := left
  rw [List.getElem?_drop] at right
  exact ⟨block, pair.2, known, right, by rw [found, same]⟩

/-- The positions of the two blocks of a pair. -/
theorem tokens_of_pair {index : ℕ} (inside : index < prompt.readCount) :
    ∃ pair, prompt.pairs[index]? = some pair ∧
      prompt.localTokens pair.1 = prompt.tokensAt (prompt.cached * prompt.ratio + index) ∧
      prompt.remoteTokens pair.2 = prompt.tokensAt (prompt.firstRead + index) := by
  obtain ⟨block, remote, localKnown, remoteKnown, found⟩ := prompt.getElem?_pairs inside
  obtain ⟨localInside, rfl⟩ := List.getElem?_eq_some_iff.mp localKnown
  obtain ⟨remoteInside, rfl⟩ := List.getElem?_eq_some_iff.mp remoteKnown
  refine ⟨_, found, ?_, ?_⟩
  · have column := Nat.mod_lt index prompt.ratio_pos
    have position : (prompt.cached + index / prompt.ratio) * prompt.ratio + index % prompt.ratio =
        prompt.cached * prompt.ratio + index := by
      rw [Nat.add_mul, Nat.add_assoc, Nat.div_add_mod']
    have quotient (block : ℕ) :
        (block * prompt.ratio + index % prompt.ratio) / prompt.ratio = block := by
      rw [Nat.mul_comm, Nat.mul_add_div prompt.ratio_pos, Nat.div_eq_of_lt column, Nat.add_zero]
    rw [localTokens, Nat.mul_add_mod_of_lt column, quotient, prompt.local_nodup.idxOf_getElem,
      position]
  · rw [remoteTokens, prompt.remote_nodup.idxOf_getElem]

/-! ## Alignment -/

/-- Different positions hold different tokens, where one of them holds any. -/
theorem tokensAt_inj {left right : ℕ} (inside : right < prompt.remoteBlocks.length)
    (same : prompt.tokensAt left = prompt.tokensAt right) : left = right := by
  have before : right * prompt.blockSize < prompt.tokens := by
    rw [prompt.remote_length] at inside
    by_contra past
    have fewer : Paging.pageCount prompt.blockSize prompt.tokens ≤ right := by
      rw [Paging.pageCount_le_iff prompt.blockSize_pos, Nat.mul_comm]
      exact Nat.le_of_not_lt past
    omega
  have first : right * prompt.blockSize ∈ prompt.tokensAt right := by
    rw [tokensAt, Finset.mem_Ico, lt_min_iff, Nat.succ_mul]
    have positive := prompt.blockSize_pos
    omega
  rw [← same, tokensAt, Finset.mem_Ico, lt_min_iff] at first
  obtain ⟨lower, upper, _⟩ := first
  have ordered : left ≤ right := Nat.le_of_mul_le_mul_right lower prompt.blockSize_pos
  have close : right < left + 1 := Nat.lt_of_mul_lt_mul_right upper
  omega

/-- The read starts where the cached blocks end exactly when nothing is cached or the last local
block is filled. -/
theorem firstRead_eq_iff : prompt.firstRead = prompt.cached * prompt.ratio ↔
    prompt.cached = 0 ∨ prompt.ratio ∣ prompt.remoteBlocks.length := by
  obtain ⟨lower, upper⟩ := prompt.filled
  have inside := prompt.cached_lt
  have total : (prompt.localBlocks.length - prompt.cached) * prompt.ratio +
      prompt.cached * prompt.ratio = prompt.localBlocks.length * prompt.ratio := by
    rw [← Nat.add_mul, Nat.sub_add_cancel inside.le]
  rw [firstRead, readCount]
  rcases Nat.eq_zero_or_pos prompt.cached with none_cached | some_cached
  · rw [none_cached, Nat.zero_mul] at total
    simp only [none_cached, Nat.zero_mul, true_or, iff_true]
    rw [← Nat.sub_zero prompt.localBlocks.length] at upper
    omega
  · have short : (prompt.localBlocks.length - prompt.cached) * prompt.ratio ≤
        (prompt.localBlocks.length - 1) * prompt.ratio :=
      Nat.mul_le_mul_right _ (by omega)
    rw [Nat.min_eq_left (short.trans lower.le)]
    constructor
    · intro start
      right
      have full : prompt.remoteBlocks.length = prompt.localBlocks.length * prompt.ratio := by
        omega
      exact full ▸ Nat.dvd_mul_left _ _
    · rintro (none_cached | ⟨count, whole⟩)
      · omega
      · rw [whole, Nat.mul_comm prompt.ratio] at lower upper ⊢
        have below := Nat.lt_of_mul_lt_mul_right lower
        have above := Nat.le_of_mul_le_mul_right upper prompt.ratio_pos
        obtain rfl : count = prompt.localBlocks.length := by omega
        omega

/-- **Token alignment.**  The pairs of a read hold the same tokens on both sides, with every
remote block that is needed read once, exactly when nothing is cached or the remote blocks fill
the last local block. -/
theorem tokens_aligned_iff : prompt.Aligned ↔
    prompt.cached = 0 ∨ prompt.ratio ∣ prompt.remoteBlocks.length := by
  rw [← firstRead_eq_iff]
  constructor
  · intro aligned
    obtain ⟨pair, found, localTokens, remoteTokens⟩ := prompt.tokens_of_pair prompt.readCount_pos
    have same := aligned.same pair (List.mem_of_getElem? found)
    rw [localTokens, remoteTokens] at same
    exact (prompt.tokensAt_inj prompt.firstRead_lt same).symm
  · intro start
    refine ⟨fun pair member => ?_, fun block member ⟨token, held, uncached⟩ => ?_⟩
    · obtain ⟨index, known⟩ := List.mem_iff_getElem?.mp member
      have inside : index < prompt.readCount := by
        rw [← length_pairs]
        exact (List.getElem?_eq_some_iff.mp known).1
      obtain ⟨other, found, localTokens, remoteTokens⟩ := prompt.tokens_of_pair inside
      obtain rfl := Option.some.inj (found.symm.trans known)
      rw [localTokens, remoteTokens, start]
    · obtain ⟨position, bound, rfl⟩ := List.mem_iff_getElem.mp member
      rw [remoteTokens, prompt.remote_nodup.idxOf_getElem, tokensAt, Finset.mem_Ico,
        lt_min_iff] at held
      have later : prompt.cached * prompt.ratio * prompt.blockSize <
          (position + 1) * prompt.blockSize := by
        rw [Nat.mul_assoc]
        exact uncached.trans_lt held.2.1
      have needed : prompt.cached * prompt.ratio < position + 1 :=
        Nat.lt_of_mul_lt_mul_right later
      rw [map_snd_pairs, start]
      apply List.count_eq_one_of_mem (prompt.remote_nodup.sublist (List.drop_sublist _ _))
      rw [List.mem_drop_iff_getElem]
      exact ⟨position - prompt.cached * prompt.ratio, by omega, by congr 1; omega⟩

private theorem four_tokens : 0 < 4 := by decide

/-- Three remote blocks in two local blocks of which the first is cached. -/
def shifted : PagedPrompt where
  tokens := 12
  blockSize := 4
  ratio := 2
  cached := 1
  localBlocks := [5, 6]
  remoteBlocks := [7, 8, 9]
  blockSize_pos := four_tokens
  ratio_pos := Nat.zero_lt_two
  local_length := by decide
  remote_length := by decide
  local_nodup := by decide
  remote_nodup := by decide
  cached_lt := by decide

/-- The local block of the last tokens is read from the remote block before. -/
theorem not_aligned_shifted : ¬ shifted.Aligned := by
  intro aligned
  exact absurd (aligned.same (12, 8) (by decide)) (by decide)

end PagedPrompt

end RduHdi
