import RduHdi.Connector.ReadsSpec
import RduHdi.Connector.SendingSpec
import RduHdi.RankLayout

/-!
# Completion notifs between two groups

When all decode ranks have issued the reads of a request, every prefill rank has one notif from
each of its readers.  They carry the remote request id, except that with MLA and more prefill than
decode ranks all but one prefill rank of each reader are sent the local one.
-/

namespace RduHdi

/-- What the producer reads from a completion notif. -/
def completionOf (payload : ByteArray) : Except PyError (ReqId × ℤ) :=
  match Sending.decodeNotif payload with
  | .error raised => .error raised
  | .ok (reqId, tpSize) =>
      match Text.int tpSize with
      | some consumers => .ok (reqId, consumers)
      | none => .error .valueError

theorem completionOf_notifId (reqId : ReqId) {worldSize : ℕ}
    (short : (Nat.toDigits 10 worldSize).length ≤ Text.maxStrDigits) :
    completionOf (notifId reqId worldSize).toUTF8 = .ok (reqId, (worldSize : ℤ)) := by
  rw [completionOf, Sending.decodeNotif_notifId]
  simp only [Text.int_toDigits short]

/-- The notifs sent between two states, with the agents they reach. -/
def newPosts {ω : Type*} (before after : Reading ω) : List (AgentName × ByteArray) :=
  (after.calls.drop before.calls.length).map ReadCall.post

theorem Sent.newPosts_eq {ω : Type*} {before after : Reading ω}
    {posts : List (AgentName × ByteArray)} (sent : Sent before after posts) :
    newPosts before after = posts := by
  obtain ⟨calls, appended, rfl⟩ := sent
  rw [newPosts, appended, List.drop_left]

/-- The decode ranks and the prefill ranks of one engine after their handshakes: the ranks are laid
out as documented, the two sides see the ratio of their sizes with opposite signs, the size of the
decode group is a number that can be written out, and the transfer library does not fail. -/
structure GroupPair (ω : Type*) (decodeSize prefillSize : ℕ) where
  /-- There is a decode rank. -/
  decode_pos : 0 < decodeSize
  /-- There is a prefill rank. -/
  prefill_pos : 0 < prefillSize
  /-- One size divides the other. -/
  divides : decodeSize ∣ prefillSize ∨ prefillSize ∣ decodeSize
  /-- Neither `str` nor `int` converts a longer number. -/
  decode_short : (Nat.toDigits 10 decodeSize).length ≤ Text.maxStrDigits
  /-- Which ranks a decode rank reads from. -/
  layout : RankLayout decodeSize prefillSize
  /-- The engine that is read from. -/
  engineId : EngineId
  /-- The agent of each prefill rank. -/
  address : ℕ → AgentName
  /-- No two ranks have one agent. -/
  address_injective : Function.Injective address
  /-- Whether the cache is replicated. -/
  useMla : Bool
  /-- The decode ranks. -/
  worker : ℕ → ReadingWorker ω
  /-- The prefill ranks, which are alike. -/
  producer : SendingWorker
  /-- The decode ranks agree on it. -/
  worker_useMla : ∀ rank < decodeSize, (worker rank).useMla = useMla
  /-- They know their number. -/
  worker_worldSize : ∀ rank < decodeSize, (worker rank).worldSize = decodeSize
  /-- They read as the layout has it. -/
  worker_targets : ∀ rank < decodeSize,
    (worker rank).kvTopo.getTargetRemoteRanksFromEngineId engineId = layout.targets rank
  /-- They know the ratio of the sizes, with the sign of their side. -/
  worker_tpRatio : ∀ rank < decodeSize, (worker rank).kvTopo.tpRatioFromEngineId engineId =
    if decodeSize < prefillSize then -((prefillSize / decodeSize : ℕ) : ℤ)
    else ((decodeSize / prefillSize : ℕ) : ℤ)
  /-- They have agents for the ranks they read from. -/
  handshaken : ∀ rank < decodeSize,
    (worker rank).Handshaken engineId address (layout.targets rank)
  /-- Their library does not fail. -/
  reliable : ∀ rank < decodeSize, (worker rank).nixl.Reliable
  /-- The prefill ranks know their number. -/
  producer_worldSize : producer.worldSize = prefillSize
  /-- They know the ratio of the sizes, with the sign of their side. -/
  producer_tpRatio : producer.tpRatio decodeSize =
    .ok (if prefillSize < decodeSize then -((decodeSize / prefillSize : ℕ) : ℤ)
      else ((prefillSize / decodeSize : ℕ) : ℤ))

namespace GroupPair

variable {ω : Type*} {decodeSize prefillSize : ℕ} (pair : GroupPair ω decodeSize prefillSize)

/-- The notifs a prefill rank gets when the decode ranks go from one state to another. -/
def arrived (start next : ℕ → Reading ω) (target : ℕ) : List ByteArray :=
  RankLayout.received (pair.address target)
    ((List.range decodeSize).flatMap fun rank => newPosts (start rank) (next rank))

/-- Every prefill rank gets as many notifs as it waits for, all naming the request it knows. -/
def Matched (start next : ℕ → Reading ω) (remoteRequestId : ReqId) : Prop :=
  ∀ target < prefillSize, ∃ consumers : ℕ,
    pair.producer.consumersPerProducer (Nat.toDigits 10 decodeSize) = .ok (consumers : ℤ) ∧
      (pair.arrived start next target).map completionOf =
        List.replicate consumers (.ok (remoteRequestId, (decodeSize : ℤ)))

/-- The request id in the notif from a decode rank to a prefill rank. -/
def notifiedId (reqId remoteRequestId : ReqId) (rank target : ℕ) : ReqId :=
  if pair.useMla ∧ decodeSize < prefillSize ∧ (pair.layout.targets rank).head? ≠ some target then
    reqId
  else
    remoteRequestId

/-- The number of notifs a prefill rank waits for is the number of its readers. -/
theorem consumersPerProducer_eq {target : ℕ} (inside : target < prefillSize) :
    pair.producer.consumersPerProducer (Nat.toDigits 10 decodeSize) =
      .ok (((List.range decodeSize).filter
        fun rank => target ∈ pair.layout.targets rank).length : ℤ) := by
  rw [pair.layout.fanIn target inside, SendingWorker.consumersPerProducer,
    Text.int_toDigits pair.decode_short]
  simp only [pair.producer_tpRatio, pair.producer_worldSize]
  have positive := pair.prefill_pos
  rcases Nat.lt_trichotomy decodeSize prefillSize with fewer | same | more
  · have other : ¬ (decodeSize : ℤ) > prefillSize := by omega
    simp [other, fewer]
  · subst same
    simp [Nat.div_self positive]
  · have other : ¬ decodeSize < prefillSize := by omega
    have larger : (decodeSize : ℤ) > prefillSize := by omega
    simp [other, larger, more]

theorem tpRatio_neg_iff {rank : ℕ} (inside : rank < decodeSize) :
    (pair.worker rank).kvTopo.tpRatioFromEngineId pair.engineId < 0 ↔
      decodeSize < prefillSize := by
  rw [pair.worker_tpRatio rank inside]
  by_cases fewer : decodeSize < prefillSize
  · have positive : 0 < prefillSize / decodeSize :=
      Nat.div_pos (Nat.le_of_lt fewer) pair.decode_pos
    rw [if_pos fewer]
    omega
  · rw [if_neg fewer]
    exact iff_of_false (not_lt.mpr (Int.natCast_nonneg _)) fewer

section Request

variable {reqId : ReqId} {saved : ReqMeta} {remote : RemoteMeta} {start next : ℕ → Reading ω}

/-- What a prefill rank gets: one notif from each of its readers. -/
theorem arrived_eq (remoteIs : saved.remote = some remote)
    (engine : remote.engineId = pair.engineId)
    (finished : ∀ rank < decodeSize,
      (pair.worker rank).readBlocksForReq (start rank) reqId saved = (next rank, .ok ()))
    (target : ℕ) :
    pair.arrived start next target =
      ((List.range decodeSize).filter fun rank => target ∈ pair.layout.targets rank).map
        fun rank =>
          (notifId (pair.notifiedId reqId remote.requestId rank target) decodeSize).toUTF8 := by
  have sends : ∀ rank < decodeSize, newPosts (start rank) (next rank) =
      (pair.layout.targets rank).map fun target => (pair.address target,
        (notifId (pair.notifiedId reqId remote.requestId rank target) decodeSize).toUTF8) := by
    intro rank inside
    have ranks := pair.worker_targets rank inside
    have handshaken := pair.handshaken rank inside
    rw [← engine] at ranks handshaken
    have sent := ReadingWorker.readBlocksForReq_sent (pair.reliable rank inside) remoteIs
      (pair.layout.nodup rank) ranks handshaken (finished rank inside)
    have negative := pair.tpRatio_neg_iff inside
    rw [← engine] at negative
    rw [sent.newPosts_eq]
    simp only [ReadingWorker.notifiedId, notifiedId, negative, pair.worker_useMla rank inside,
      pair.worker_worldSize rank inside]
  exact RankLayout.received_flatMap pair.layout pair.address_injective sends target

theorem completions_eq (remoteIs : saved.remote = some remote)
    (engine : remote.engineId = pair.engineId)
    (finished : ∀ rank < decodeSize,
      (pair.worker rank).readBlocksForReq (start rank) reqId saved = (next rank, .ok ()))
    (target : ℕ) :
    (pair.arrived start next target).map completionOf =
      ((List.range decodeSize).filter fun rank => target ∈ pair.layout.targets rank).map
        fun rank => .ok (pair.notifiedId reqId remote.requestId rank target, (decodeSize : ℤ)) := by
  rw [pair.arrived_eq remoteIs engine finished, List.map_map]
  apply List.map_congr_left
  intro rank _
  exact completionOf_notifId _ pair.decode_short

/-- With more prefill than decode ranks the first reader has a second target. -/
theorem exists_second (fewer : decodeSize < prefillSize) :
    ∃ target ∈ pair.layout.targets 0, target < prefillSize ∧
      (pair.layout.targets 0).head? ≠ some target := by
  have share := (RankLayout.dvd_of_lt pair.decode_pos pair.divides fewer).1
  have several : 1 < prefillSize / decodeSize := by
    rw [Nat.lt_div_iff_mul_lt' share]
    omega
  have length := pair.layout.fanOut 0 pair.decode_pos
  rw [if_pos fewer] at length
  have inRange := pair.layout.inRange 0 pair.decode_pos
  have nodup := pair.layout.nodup 0
  match targets : pair.layout.targets 0 with
  | [] =>
      rw [targets, List.length_nil] at length
      omega
  | [only] =>
      rw [targets, List.length_singleton] at length
      omega
  | first :: second :: rest =>
      rw [targets] at inRange nodup
      have inside : second ∈ first :: second :: rest :=
        List.mem_cons_of_mem first List.mem_cons_self
      refine ⟨second, inside, inRange second inside, fun same => ?_⟩
      have equal : first = second := Option.some.inj same
      exact (List.nodup_cons.mp nodup).1 (equal ▸ List.mem_cons_self)

/-- **Completion notifs.**  When all decode ranks have issued the reads of a request, every prefill
rank has exactly the notifs it waits for, if and only if the two request ids agree wherever the
notifs of the single read of MLA carry the local one. -/
theorem matched_iff (remoteIs : saved.remote = some remote)
    (engine : remote.engineId = pair.engineId)
    (finished : ∀ rank < decodeSize,
      (pair.worker rank).readBlocksForReq (start rank) reqId saved = (next rank, .ok ())) :
    pair.Matched start next remote.requestId ↔
      (pair.useMla → decodeSize < prefillSize → reqId = remote.requestId) := by
  constructor
  · intro matched mla fewer
    obtain ⟨target, reads, inside, notFirst⟩ := pair.exists_second fewer
    obtain ⟨consumers, _, copies⟩ := matched target inside
    rw [pair.completions_eq remoteIs engine finished] at copies
    have first : 0 ∈ (List.range decodeSize).filter
        fun rank => target ∈ pair.layout.targets rank := by
      simp [pair.decode_pos, reads]
    have member := List.mem_map_of_mem first (f := fun rank =>
      (Except.ok (pair.notifiedId reqId remote.requestId rank target, (decodeSize : ℤ)) :
        Except PyError (ReqId × ℤ)))
    rw [copies] at member
    have same := List.eq_of_mem_replicate member
    rw [notifiedId, if_pos ⟨mla, fewer, notFirst⟩] at same
    exact congrArg Prod.fst (Except.ok.inj same)
  · intro agree target inside
    refine ⟨_, pair.consumersPerProducer_eq inside, ?_⟩
    have always : ∀ rank, pair.notifiedId reqId remote.requestId rank target =
        remote.requestId := by
      intro rank
      rw [notifiedId]
      split
      · rename_i fans
        exact agree fans.1 fans.2.1
      · rfl
    rw [pair.completions_eq remoteIs engine finished]
    simp only [always]
    exact List.map_const'

end Request

/-! ## Two groups of given sizes -/

/-- A dictionary of the target ranks. -/
def targetDict {α : Type*} (targets : List ℕ) (nodup : targets.Nodup) (value : ℕ → α) :
    Dict ℕ α where
  entries := targets.map fun target => ⟨target, value target⟩
  nodupKeys := by
    rw [List.NodupKeys, List.keys, List.map_map]
    exact (List.map_id targets).symm ▸ nodup

def agentName (rank : ℕ) : AgentName := .ofList (Nat.toDigits 10 rank)

/-- A library that answers every call. -/
def quietNixl : NixlReader Unit where
  sendNotif _ _ _ := ((), .ok ())
  makePreppedXfer _ _ _ _ _ _ := ((), .ok 0)
  transfer _ _ := ((), .ok ())
  releaseXferHandle _ _ := ()

section OfSizes

variable {decodeSize prefillSize : ℕ} (decode_pos : 0 < decodeSize)
  (prefill_pos : 0 < prefillSize)
  (divides : decodeSize ∣ prefillSize ∨ prefillSize ∣ decodeSize)
  (decode_short : (Nat.toDigits 10 decodeSize).length ≤ Text.maxStrDigits) (useMla : Bool)

/-- A decode rank that is done with its handshakes. -/
def workerOf (rank : ℕ) : ReadingWorker Unit :=
  let layout := RankLayout.contiguous decode_pos prefill_pos divides
  let ratio : ℤ :=
    if decodeSize < prefillSize then -((prefillSize / decodeSize : ℕ) : ℤ)
    else ((decodeSize / prefillSize : ℕ) : ℤ)
  { nixl := quietNixl
    kvTopo :=
      { getTargetRemoteRanksFromEngineId := fun _ => layout.targets rank
        tpRatioFromEngineId := fun _ => ratio
        blockSizeRatioFromEngineId := fun _ => 1
        remoteBlockSize := AList.set "p" 4 ∅ }
    engineId := "d"
    worldSize := decodeSize
    useMla
    blockSize := 4
    blockWindowPerLayer := []
    numRegions := 2
    numLayers := 1
    dstNumBlocks := AList.set "p" 16 (AList.set "d" 8 ∅)
    srcXferHandlesByTpRatio :=
      AList.set ratio ((List.range prefillSize).map fun id => ⟨"NIXL_INIT_AGENT", id⟩) ∅
    srcXferHandlesByBlockSize := AList.set 4 ⟨"NIXL_INIT_AGENT", 0⟩ ∅
    dstXferSideHandles := AList.set "p"
      (targetDict (layout.targets rank) (layout.nodup rank) fun target =>
        ⟨agentName target, target⟩) ∅
    remoteAgents := AList.set "p"
      (targetDict (layout.targets rank) (layout.nodup rank) agentName) ∅ }

/-- Two groups with the contiguous layout. -/
def ofSizes : GroupPair Unit decodeSize prefillSize where
  decode_pos
  prefill_pos
  divides
  decode_short
  layout := .contiguous decode_pos prefill_pos divides
  engineId := "p"
  address := agentName
  address_injective first second same := Text.toDigits_injective (String.ofList_injective same)
  useMla
  worker := workerOf decode_pos prefill_pos divides useMla
  producer :=
    { worldSize := prefillSize
      tpRatio := fun _ => .ok (if prefillSize < decodeSize then
        -((decodeSize / prefillSize : ℕ) : ℤ) else ((prefillSize / decodeSize : ℕ) : ℤ)) }
  worker_useMla _ _ := rfl
  worker_worldSize _ _ := rfl
  worker_targets _ _ := rfl
  worker_tpRatio _ _ := rfl
  handshaken rank _ := by
    refine ⟨⟨_, AList.lookup_set, rfl⟩, ?_⟩
    intro sides known target side prepared
    obtain rfl := Option.some.inj (AList.lookup_set.symm.trans known)
    rw [← Option.mem_def, AList.mem_lookup_iff] at prepared
    obtain ⟨other, _, same⟩ := List.mem_map.mp prepared
    cases same
    rfl
  reliable _ _ := ⟨fun _ _ _ => rfl, fun _ _ _ _ _ _ => ⟨0, rfl⟩, fun _ _ => rfl⟩
  producer_worldSize := rfl
  producer_tpRatio := rfl

end OfSizes

/-- A request to read from the engine `p`; its id there has a colon. -/
def readRequest (localBlockIds remoteBlockIds : List ℕ) : ReqMeta where
  localBlockIds
  localPhysicalBlockIds := localBlockIds
  tpSize := 1
  remote := some
    { blockIds := remoteBlockIds, host := "h", port := 5600, engineId := "p", requestId := "r:1" }

/-- What a decode rank leaves when it has issued the reads. -/
def afterReads {decodeSize prefillSize : ℕ} (pair : GroupPair Unit decodeSize prefillSize)
    (saved : ReqMeta) (rank : ℕ) : Reading Unit :=
  ((pair.worker rank).readBlocksForReq (.init ()) "l" saved).1

/-- Two decode ranks read one block each from two of four prefill ranks. -/
theorem matched_twoOfFour :
    let pair := ofSizes (show 0 < 2 by decide) (show 0 < 4 by decide) (Or.inl ⟨2, rfl⟩)
      (by decide) false
    pair.Matched (fun _ => .init ()) (afterReads pair (readRequest [3] [7, 9])) "r:1" := by
  intro pair
  have finished : ∀ rank < 2, (pair.worker rank).readBlocksForReq (.init ()) "l"
      (readRequest [3] [7, 9]) = (afterReads pair (readRequest [3] [7, 9]) rank, .ok ()) := by
    intro rank inside
    have outcome : ∀ rank < 2, ((pair.worker rank).readBlocksForReq (.init ()) "l"
        (readRequest [3] [7, 9])).2 = .ok () := by decide
    exact Prod.ext rfl (outcome rank inside)
  exact (pair.matched_iff rfl rfl finished).mpr nofun

/-- With MLA the second of two prefill ranks is notified with the local request id. -/
theorem not_matched :
    let pair := ofSizes (show 0 < 1 by decide) (show 0 < 2 by decide) (Or.inl ⟨2, rfl⟩)
      (by decide) true
    ¬ pair.Matched (fun _ => .init ()) (afterReads pair (readRequest [3] [7, 9])) "r:1" := by
  intro pair matched
  have finished : ∀ rank < 1, (pair.worker rank).readBlocksForReq (.init ()) "l"
      (readRequest [3] [7, 9]) = (afterReads pair (readRequest [3] [7, 9]) rank, .ok ()) := by
    intro rank inside
    have outcome : ∀ rank < 1, ((pair.worker rank).readBlocksForReq (.init ()) "l"
        (readRequest [3] [7, 9])).2 = .ok () := by decide
    exact Prod.ext rfl (outcome rank inside)
  obtain ⟨consumers, _, copies⟩ := matched 1 (by decide)
  rw [pair.completions_eq rfl rfl finished] at copies
  have named : (.ok ("l", ((1 : ℕ) : ℤ)) : Except PyError (ReqId × ℤ)) ∈
      List.replicate consumers (.ok ("r:1", ((1 : ℕ) : ℤ))) := by
    rw [← copies]
    exact List.mem_cons_self
  have same := Except.ok.inj (List.eq_of_mem_replicate named)
  exact absurd (congrArg Prod.fst same) (by decide)

end GroupPair

end RduHdi
