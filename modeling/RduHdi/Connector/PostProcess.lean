import RduHdi.Connector.ReceiveAll

/-!
# What is done with received blocks

When transfers end in host memory, `get_finished` copies the blocks of every received request to
the device.  There they are converted when the blocks of the producer are smaller or laid out
otherwise; for that the requests are collected by the ratio of the block sizes first.  When the
ratio of a request is not known, `get_finished` raises.
-/

namespace RduHdi

/-- The kernels that convert received blocks. -/
inductive PostProcessKernel where
  | blksizeAndLayout (blockSizeRatio : ℕ)
  | layout
  | blksize (blockSizeRatio : ℕ)
  deriving DecidableEq

/-- Which kernel is called. -/
def PostProcessKernel.select (enablePermuteLocalKv : Bool) (blockSizeRatio : ℕ) :
    PostProcessKernel :=
  if enablePermuteLocalKv ∧ blockSizeRatio > 1 then .blksizeAndLayout blockSizeRatio
  else if enablePermuteLocalKv then .layout
  else .blksize blockSizeRatio

/-- What is called on the device. -/
inductive DeviceCall where
  /-- `copy_blocks`, from host memory. -/
  | copyBlocks (blockIds : List ℕ)
  | convert (kernel : PostProcessKernel) (cache : KvTensor) (blockIds : List ℕ)

/-- `post_process_device_kv_on_receive`; `layers` has the caches of each layer: K and V when the
topology splits them, one cache otherwise. -/
def postProcessDeviceKvOnReceive (layers : List (List KvTensor)) (enablePermuteLocalKv : Bool)
    (blockSizeRatio : ℕ) (blockIdsList : List (List ℕ)) : Except PyError (List DeviceCall) :=
  if layers.isEmpty then
    .ok []
  else if blockSizeRatio ≥ 1 then
    .ok <| blockIdsList.flatMap fun blockIds => layers.flatMap fun cacheList =>
      cacheList.map fun cache =>
        .convert (.select enablePermuteLocalKv blockSizeRatio) cache blockIds
  else
    .error .assertionError

/-- What a call of the receiving half does on the device. -/
def ReceiveCall.deviceCalls (layers : List (List KvTensor)) (enablePermuteLocalKv : Bool) :
    ReceiveCall → List DeviceCall
  | .syncToDevice _ blockIds => [.copyBlocks blockIds]
  | .postProcess blockSizeRatio blockIdsList =>
      (postProcessDeviceKvOnReceive layers enablePermuteLocalKv blockSizeRatio
        blockIdsList).toOption.getD []

/-- The blocks that are copied to the device. -/
def DeviceCall.copied : DeviceCall → List (List ℕ)
  | .copyBlocks blockIds => [blockIds]
  | .convert _ _ _ => []

/-- What is converted in the cache at an address. -/
def DeviceCall.convertedAt (dataPtr : ℕ) : DeviceCall → List (PostProcessKernel × List ℕ)
  | .copyBlocks _ => []
  | .convert kernel cache blockIds => if cache.dataPtr = dataPtr then [(kernel, blockIds)] else []

/-- How many caches of the layers are at an address. -/
def timesListed (layers : List (List KvTensor)) (dataPtr : ℕ) : ℕ :=
  layers.flatten.countP fun cache => cache.dataPtr = dataPtr

/-- Every block that is converted was copied before. -/
def CopiedFirst (calls : List DeviceCall) : Prop :=
  ∀ left kernel cache blockIds right, calls = left ++ .convert kernel cache blockIds :: right →
    .copyBlocks blockIds ∈ left

namespace ReceivingWorker

variable {ω : Type} (worker : ReceivingWorker ω)

/-- What a step calls on the device. -/
def deviceCalls (layers : List (List KvTensor)) (receiving : Receiving ω) (event : ReceiveEvent) :
    List DeviceCall :=
  match worker.step receiving event with
  | .error _ => []
  | .ok next =>
      (next.receiveCalls.drop receiving.receiveCalls.length).flatMap
        (ReceiveCall.deviceCalls layers next.tables.enablePermuteLocalKv)

/-- The requests that a step reports, before a permutation was asked for or afterwards. -/
def reports (permutes : Bool) (receiving : Receiving ω) (event : ReceiveEvent) : List ReqId :=
  match worker.step receiving event with
  | .error _ => []
  | .ok next =>
      if receiving.tables.enablePermuteLocalKv = permutes then
        next.log.reported.drop receiving.log.reported.length
      else
        []

/-! ## What the requests need -/

/-- The blocks of a request, in kernel blocks. -/
def deviceBlocks (loads : List (ReqId × ReqMeta)) (reqId : ReqId) : List ℕ :=
  ((loads.lookup reqId).map fun saved =>
    worker.kernel.logicalToKernelBlockIds saved.localBlockIds).getD []

/-- The ratio of the block sizes, with the engine that a request is read from. -/
def producerRatio (loads : List (ReqId × ReqMeta)) (tables : Handshakes ω) (reqId : ReqId) :
    Option ℕ := do
  let saved ← loads.lookup reqId
  let remote ← saved.remote
  (worker.handshakes.blockSizeRatioFromEngineId remote.engineId tables).2.toOption

/-- The blocks of a ratio need a conversion. -/
def NeedsConversion (permutes : Bool) (ratio : ℕ) : Prop :=
  ¬ worker.handshakes.useMla ∧ (ratio > 1 ∨ permutes)

instance (permutes : Bool) (ratio : ℕ) : Decidable (worker.NeedsConversion permutes ratio) := by
  unfold NeedsConversion
  infer_instance

/-- What blocks of a ratio need, if anything: smaller blocks are joined, and the layout changes
when a permutation was asked for.  Nothing is converted under MLA. -/
def neededKernel (permutes : Bool) (ratio : ℕ) : Option PostProcessKernel :=
  if worker.handshakes.useMla then none
  else
    match permutes, decide (1 < ratio) with
    | true, true => some (.blksizeAndLayout ratio)
    | true, false => some .layout
    | false, true => some (.blksize ratio)
    | false, false => none

/-- The conversions that a request needs. -/
def conversions (loads : List (ReqId × ReqMeta)) (tables : Handshakes ω) (permutes : Bool)
    (reqId : ReqId) : List (PostProcessKernel × List ℕ) :=
  match worker.producerRatio loads tables reqId with
  | none => []
  | some ratio =>
      (worker.neededKernel permutes ratio).toList.map fun kernel =>
        (kernel, worker.deviceBlocks loads reqId)

theorem neededKernel_eq (permutes : Bool) (ratio : ℕ) :
    worker.neededKernel permutes ratio =
      if worker.NeedsConversion permutes ratio then some (.select permutes ratio) else none := by
  unfold neededKernel NeedsConversion PostProcessKernel.select
  by_cases mla : worker.handshakes.useMla = true
  · simp [mla]
  · by_cases smaller : 1 < ratio <;> cases permutes <;> simp [mla, smaller]

end ReceivingWorker

/-! ## Calls on the device -/

theorem convertedAt_kernels (layers : List (List KvTensor)) (kernel : PostProcessKernel)
    (blockIds : List ℕ) (dataPtr : ℕ) :
    (layers.flatMap fun cacheList => cacheList.map fun cache =>
        DeviceCall.convert kernel cache blockIds).flatMap (DeviceCall.convertedAt dataPtr) =
      List.replicate (timesListed layers dataPtr) (kernel, blockIds) := by
  have each (caches : List KvTensor) :
      (caches.map fun cache => DeviceCall.convert kernel cache blockIds).flatMap
          (DeviceCall.convertedAt dataPtr) =
        List.replicate (caches.countP fun cache => cache.dataPtr = dataPtr)
          (kernel, blockIds) := by
    induction caches with
    | nil => rfl
    | cons cache caches ih =>
        rw [List.map_cons, List.flatMap_cons, ih, DeviceCall.convertedAt]
        split
        · rename_i here
          rw [List.countP_cons_of_pos (by simpa using here), List.replicate_succ]
          rfl
        · rename_i elsewhere
          rw [List.countP_cons_of_neg (by simpa using elsewhere)]
          rfl
  rw [timesListed, ← each layers.flatten, List.map_flatten, ← List.flatMap_def]

/-- Each list of blocks is converted once for every time that a layer has the cache. -/
theorem convertedAt_postProcess {layers : List (List KvTensor)} {permutes : Bool} {ratio : ℕ}
    (positive : ratio ≥ 1) (blockIdsList : List (List ℕ)) (dataPtr : ℕ) :
    ((ReceiveCall.postProcess ratio blockIdsList).deviceCalls layers permutes).flatMap
        (DeviceCall.convertedAt dataPtr) =
      blockIdsList.flatMap fun blockIds =>
        List.replicate (timesListed layers dataPtr) (.select permutes ratio, blockIds) := by
  rw [ReceiveCall.deviceCalls, postProcessDeviceKvOnReceive]
  split
  · rename_i isEmpty
    obtain rfl := List.isEmpty_iff.mp isEmpty
    simp [timesListed, Except.toOption]
  · simp only [Except.toOption, Option.getD_some, List.flatMap_assoc]
    exact List.flatMap_congr fun blockIds _ => by
      rw [← List.flatMap_assoc]
      exact convertedAt_kernels layers _ blockIds dataPtr

theorem copied_postProcess (layers : List (List KvTensor)) (permutes : Bool) (ratio : ℕ)
    (blockIdsList : List (List ℕ)) :
    ((ReceiveCall.postProcess ratio blockIdsList).deviceCalls layers permutes).flatMap
      DeviceCall.copied = [] := by
  rw [ReceiveCall.deviceCalls, postProcessDeviceKvOnReceive]
  split
  · rfl
  · split
    · simp [Except.toOption, DeviceCall.copied, List.flatMap_assoc, List.flatMap_map]
    · rfl

theorem mem_of_convert {layers : List (List KvTensor)} {permutes : Bool} {ratio : ℕ}
    {blockIdsList : List (List ℕ)} {kernel : PostProcessKernel} {cache : KvTensor}
    {blockIds : List ℕ}
    (called : DeviceCall.convert kernel cache blockIds ∈
      (ReceiveCall.postProcess ratio blockIdsList).deviceCalls layers permutes) :
    blockIds ∈ blockIdsList := by
  rw [ReceiveCall.deviceCalls, postProcessDeviceKvOnReceive] at called
  split at called
  · cases called
  · split at called
    · obtain ⟨found, member, called⟩ := List.mem_flatMap.mp called
      obtain ⟨caches, _, called⟩ := List.mem_flatMap.mp called
      obtain ⟨_, _, same⟩ := List.mem_map.mp called
      cases same
      exact member
    · cases called

namespace CopiedFirst

theorem nil : CopiedFirst [] := by
  intro left kernel cache blockIds right split
  cases left with
  | nil => cases split
  | cons call left => cases split

theorem append {first second : List DeviceCall} (before : CopiedFirst first)
    (after : CopiedFirst second) : CopiedFirst (first ++ second) := by
  intro left kernel cache blockIds right split
  rcases List.append_eq_append_iff.mp split with ⟨middle, rfl, rest⟩ | ⟨middle, rfl, rest⟩
  · exact List.mem_append_right _ (after middle kernel cache blockIds right rest)
  · cases middle with
    | nil =>
        exact absurd (after [] kernel cache blockIds right rest.symm) List.not_mem_nil
    | cons call middle =>
        obtain ⟨rfl, rfl⟩ := List.cons.inj rest
        exact before left kernel cache blockIds middle rfl

/-- Conversions of what is copied come after the copies. -/
theorem of_copies {copies conversions : List DeviceCall}
    (onlyCopies : ∀ call ∈ copies, ∃ blockIds, call = .copyBlocks blockIds)
    (copied : ∀ kernel cache blockIds, .convert kernel cache blockIds ∈ conversions →
      .copyBlocks blockIds ∈ copies) : CopiedFirst (copies ++ conversions) := by
  intro left kernel cache blockIds right split
  have called : .convert kernel cache blockIds ∈ copies ++ conversions := by
    rw [split]
    exact List.mem_append_right _ List.mem_cons_self
  have isCopied : .copyBlocks blockIds ∈ copies := by
    rcases List.mem_append.mp called with copy | conversion
    · obtain ⟨_, same⟩ := onlyCopies _ copy
      cases same
    · exact copied kernel cache blockIds conversion
  rcases List.append_eq_append_iff.mp split with ⟨middle, rfl, _⟩ | ⟨middle, rfl, rest⟩
  · exact List.mem_append_left _ isCopied
  · cases middle with
    | nil => rwa [List.append_nil] at isCopied
    | cons call middle =>
        obtain ⟨rfl, _⟩ := List.cons.inj rest
        obtain ⟨_, same⟩ := onlyCopies (.convert kernel cache blockIds)
          (List.mem_append_right _ List.mem_cons_self)
        cases same

end CopiedFirst

/-! ## Finishing requests -/

/-- The lists of blocks that were collected, each with its ratio. -/
def collectedBlocks (postProcess : Dict ℕ (List (List ℕ))) : List (ℕ × List ℕ) :=
  postProcess.entries.flatMap fun entry => entry.2.map (Prod.mk entry.1)

theorem collectedBlocks_set (postProcess : Dict ℕ (List (List ℕ))) (ratio : ℕ)
    (blockIds : List ℕ) :
    (collectedBlocks (postProcess.set ratio
      ((postProcess.lookup ratio).getD [] ++ [blockIds]))).Perm
        (collectedBlocks postProcess ++ [(ratio, blockIds)]) := by
  let pairs (entry : Σ _ : ℕ, List (List ℕ)) : List (ℕ × List ℕ) := entry.2.map (Prod.mk entry.1)
  have others : (((postProcess.lookup ratio).getD []).map (Prod.mk ratio) ++
      (postProcess.erase ratio).entries.flatMap pairs).Perm
        (postProcess.entries.flatMap pairs) := by
    cases known : postProcess.lookup ratio with
    | none =>
        rw [AList.erase_of_notMem (AList.lookup_eq_none.mp known)]
        exact .refl _
    | some found => exact ((AList.entries_perm_of_lookup known).flatMap_right pairs).symm
  rw [collectedBlocks, collectedBlocks]
  refine (AList.entries_set_perm.flatMap_right pairs).trans ?_
  rw [List.flatMap_cons]
  change (((postProcess.lookup ratio).getD [] ++ [blockIds]).map (Prod.mk ratio) ++ _).Perm _
  rw [List.map_append, List.map_singleton, List.append_assoc]
  exact (List.perm_middle.trans (others.cons _)).trans (List.perm_append_singleton _ _).symm

namespace ReceivingWorker

variable {ω : Type} {worker : ReceivingWorker ω}

section Finishing

variable (worker) (tables : Handshakes ω) (metadata : Dict ReqId ReqMeta) (reqId : ReqId)

/-- The blocks of a request, by its metadata. -/
def receivedBlocks : List ℕ :=
  ((metadata.lookup reqId).map ReqMeta.localPhysicalBlockIds).getD []

/-- The ratio of a request, by its metadata. -/
def receivedRatio : Option ℕ := do
  let saved ← metadata.lookup reqId
  let remote ← saved.remote
  (worker.handshakes.blockSizeRatioFromEngineId remote.engineId tables).2.toOption

/-- The blocks of a request that are collected for a conversion. -/
def collects : List (ℕ × List ℕ) :=
  match worker.receivedRatio tables metadata reqId with
  | none => []
  | some ratio =>
      if worker.NeedsConversion tables.enablePermuteLocalKv ratio then
        [(ratio, receivedBlocks metadata reqId)]
      else
        []

/-- The copy of a request to the device. -/
def syncs : List ReceiveCall :=
  if worker.handshakes.useHostBuffer then
    [.syncToDevice reqId (receivedBlocks metadata reqId)]
  else
    []

end Finishing

variable {start : Dict ℕ (List (List ℕ))} {reqId : ReqId} {reqIds : List ReqId}
  {receiving : Receiving ω}

/-- A turn of the loop, for a request whose ratio is known. -/
theorem finishLoop_of_some {ratio : ℕ}
    (known : worker.receivedRatio receiving.tables receiving.reading.recvingMetadata reqId =
      some ratio) :
    worker.finishLoop (reqId :: reqIds) start receiving =
      worker.finishLoop reqIds
        (if worker.NeedsConversion receiving.tables.enablePermuteLocalKv ratio then
          start.set ratio ((start.lookup ratio).getD [] ++
            [receivedBlocks receiving.reading.recvingMetadata reqId])
        else
          start)
        { receiving with
          reading :=
            { receiving.reading with
              recvingMetadata := receiving.reading.recvingMetadata.erase reqId }
          receiveCalls :=
            receiving.receiveCalls ++ worker.syncs receiving.reading.recvingMetadata reqId } := by
  obtain ⟨saved, isSaved, known⟩ := Option.bind_eq_some_iff.mp known
  obtain ⟨remote, isRemote, known⟩ := Option.bind_eq_some_iff.mp known
  have blocks : receivedBlocks receiving.reading.recvingMetadata reqId =
      saved.localPhysicalBlockIds := by rw [receivedBlocks, isSaved]; rfl
  rw [finishLoop, syncs, blocks]
  simp only [isSaved, isRemote]
  cases answer : (worker.handshakes.blockSizeRatioFromEngineId remote.engineId
      receiving.tables).2 with
  | error raised =>
      rw [answer] at known
      cases known
  | ok found =>
      rw [answer] at known
      obtain rfl := Option.some.inj known
      by_cases needs : worker.NeedsConversion receiving.tables.enablePermuteLocalKv found
      · rw [if_pos needs]
        by_cases host : worker.handshakes.useHostBuffer = true
        · simp only [host, if_true, answer]
          exact if_pos needs
        · simp only [host, Bool.false_eq_true, if_false, answer, List.append_nil]
          exact if_pos needs
      · rw [if_neg needs]
        by_cases host : worker.handshakes.useHostBuffer = true
        · simp only [host, if_true, answer]
          exact if_neg needs
        · simp only [host, Bool.false_eq_true, if_false, answer, List.append_nil]
          exact if_neg needs

theorem finishLoop_of_none
    (unknown : worker.receivedRatio receiving.tables receiving.reading.recvingMetadata reqId =
      none) :
    ∃ recvingMetadata receiveCalls raised, worker.finishLoop (reqId :: reqIds) start receiving =
      ({ receiving with
          reading := { receiving.reading with recvingMetadata }
          receiveCalls }, .error raised) := by
  rw [finishLoop]
  cases isSaved : receiving.reading.recvingMetadata.lookup reqId with
  | none => exact ⟨_, _, _, rfl⟩
  | some saved =>
      cases isRemote : saved.remote with
      | none =>
          simp only [isRemote]
          exact ⟨_, _, _, rfl⟩
      | some remote =>
          rw [receivedRatio, isSaved] at unknown
          change (saved.remote.bind _) = none at unknown
          rw [isRemote] at unknown
          cases answer : (worker.handshakes.blockSizeRatioFromEngineId remote.engineId
              receiving.tables).2 with
          | ok ratio => simp [answer, Except.toOption] at unknown
          | error raised =>
              by_cases host : worker.handshakes.useHostBuffer = true
              · simp only [isRemote, host, if_true, answer]
                exact ⟨_, _, _, rfl⟩
              · simp only [isRemote, host, Bool.false_eq_true, if_false, answer]
                exact ⟨_, _, _, rfl⟩

/-- The loop goes through when the ratio of every request is known. -/
theorem finishLoop_returns_iff (nodup : reqIds.Nodup) :
    (∃ next postProcess, worker.finishLoop reqIds start receiving = (next, .ok postProcess)) ↔
      ∀ reqId ∈ reqIds, (worker.receivedRatio receiving.tables
        receiving.reading.recvingMetadata reqId).isSome := by
  induction reqIds generalizing start receiving with
  | nil => exact ⟨fun _ => List.forall_mem_nil _, fun _ => ⟨receiving, start, rfl⟩⟩
  | cons reqId reqIds ih =>
      obtain ⟨fresh, nodup⟩ := List.nodup_cons.mp nodup
      have others : ∀ other ∈ reqIds,
          (receiving.reading.recvingMetadata.erase reqId).lookup other =
            receiving.reading.recvingMetadata.lookup other := by
        intro other member
        exact AList.lookup_erase_ne fun same => fresh (same ▸ member)
      rw [List.forall_mem_cons]
      cases known : worker.receivedRatio receiving.tables receiving.reading.recvingMetadata
          reqId with
      | none =>
          simp only [Option.isSome_none, Bool.false_eq_true, false_and, iff_false]
          rintro ⟨next, postProcess, finished⟩
          obtain ⟨_, _, _, raises⟩ := finishLoop_of_none known
          cases raises.symm.trans finished
      | some ratio =>
          rw [finishLoop_of_some known, ih nodup]
          simp only [Option.isSome_some, true_and]
          refine forall₂_congr fun other member => ?_
          rw [receivedRatio, others other member]
          rfl

theorem finishLoop_calls (nodup : reqIds.Nodup) {next : Receiving ω}
    {postProcess : Dict ℕ (List (List ℕ))}
    (finished : worker.finishLoop reqIds start receiving = (next, .ok postProcess)) :
    (collectedBlocks postProcess).Perm (collectedBlocks start ++
        reqIds.flatMap (worker.collects receiving.tables receiving.reading.recvingMetadata)) ∧
      next.receiveCalls = receiving.receiveCalls ++
        reqIds.flatMap (worker.syncs receiving.reading.recvingMetadata) := by
  induction reqIds generalizing start receiving with
  | nil =>
      cases finished
      simp
  | cons reqId reqIds ih =>
      obtain ⟨fresh, nodup⟩ := List.nodup_cons.mp nodup
      have others : ∀ other ∈ reqIds,
          (receiving.reading.recvingMetadata.erase reqId).lookup other =
            receiving.reading.recvingMetadata.lookup other := by
        intro other member
        exact AList.lookup_erase_ne fun same => fresh (same ▸ member)
      cases known : worker.receivedRatio receiving.tables receiving.reading.recvingMetadata
          reqId with
      | none =>
          obtain ⟨_, _, _, raises⟩ := finishLoop_of_none known
          cases raises.symm.trans finished
      | some ratio =>
          rw [finishLoop_of_some known] at finished
          obtain ⟨collected, called⟩ := ih nodup finished
          have sameCollects : ∀ other ∈ reqIds,
              worker.collects receiving.tables (receiving.reading.recvingMetadata.erase reqId)
                  other =
                worker.collects receiving.tables receiving.reading.recvingMetadata other := by
            intro other member
            rw [collects, collects, receivedRatio, receivedRatio, receivedBlocks, receivedBlocks,
              others other member]
          have sameSyncs : ∀ other ∈ reqIds,
              worker.syncs (receiving.reading.recvingMetadata.erase reqId) other =
                worker.syncs receiving.reading.recvingMetadata other := by
            intro other member
            rw [syncs, syncs, receivedBlocks, receivedBlocks, others other member]
          rw [List.flatMap_congr sameCollects] at collected
          rw [List.flatMap_congr sameSyncs] at called
          constructor
          · refine collected.trans ?_
            rw [List.flatMap_cons, ← List.append_assoc]
            apply List.Perm.append_right
            rw [collects, known]
            by_cases needs : worker.NeedsConversion receiving.tables.enablePermuteLocalKv ratio
            · simp only [if_pos needs]
              exact collectedBlocks_set start ratio _
            · simp only [if_neg needs, List.append_nil]
              exact .refl _
          · rw [called, List.flatMap_cons, List.append_assoc]

theorem postProcessLoop_calls {entries : List (Σ _ : ℕ, List (List ℕ))} {next : Receiving ω}
    (processed : postProcessLoop entries receiving = (next, .ok ())) :
    (∀ entry ∈ entries, entry.1 ≥ 1) ∧ next.receiveCalls =
      receiving.receiveCalls ++ entries.map fun entry => .postProcess entry.1 entry.2 := by
  induction entries generalizing receiving with
  | nil =>
      cases processed
      simp
  | cons entry entries ih =>
      rw [postProcessLoop] at processed
      split at processed
      · rename_i positive
        obtain ⟨others, called⟩ := ih processed
        rw [called, List.map_cons, List.append_assoc, List.forall_mem_cons]
        exact ⟨⟨positive, others⟩, rfl⟩
      · cases processed

theorem postProcessLoop_returns {entries : List (Σ _ : ℕ, List (List ℕ))}
    (positive : ∀ entry ∈ entries, entry.1 ≥ 1) :
    ∃ next, postProcessLoop entries receiving = (next, .ok ()) := by
  induction entries generalizing receiving with
  | nil => exact ⟨receiving, rfl⟩
  | cons entry entries ih =>
      rw [List.forall_mem_cons] at positive
      rw [postProcessLoop, if_pos positive.1]
      exact ih positive.2

/-- What a call of `get_finished` does with the requests that it reports. -/
structure Finishes (worker : ReceivingWorker ω) (layers : List (List KvTensor))
    (receiving next : Receiving ω) (done : List ReqId) (calls : List DeviceCall) : Prop where
  /-- These are reported. -/
  reported : next.log.reported = receiving.log.reported ++ done
  /-- The block sizes stay. -/
  blockSize : next.tables.blockSize = receiving.tables.blockSize
  /-- So does whether a permutation was asked for. -/
  permutes : next.tables.enablePermuteLocalKv = receiving.tables.enablePermuteLocalKv
  /-- So do the agents. -/
  remoteAgents : next.tables.remoteAgents = receiving.tables.remoteAgents
  /-- No metadata are new. -/
  metadata : ∀ reqId saved, next.reading.recvingMetadata.lookup reqId = some saved →
    receiving.reading.recvingMetadata.lookup reqId = some saved
  /-- The metadata of the reported are gone. -/
  keys : receiving.reading.recvingMetadata.keys.Perm
    (done ++ next.reading.recvingMetadata.keys)
  /-- The ratio of a reported request is known. -/
  known : ∀ reqId ∈ done, (worker.receivedRatio receiving.tables
    receiving.reading.recvingMetadata reqId).isSome
  /-- What is collected for conversion is converted. -/
  converted : ∀ dataPtr, (calls.flatMap (DeviceCall.convertedAt dataPtr)).Perm
    ((done.flatMap (worker.collects receiving.tables receiving.reading.recvingMetadata)).flatMap
      fun collected => List.replicate (timesListed layers dataPtr)
        (.select receiving.tables.enablePermuteLocalKv collected.1, collected.2))
  /-- Blocks in host memory are copied once. -/
  copied : worker.handshakes.useHostBuffer = true → (calls.flatMap DeviceCall.copied).Perm
    (done.map (receivedBlocks receiving.reading.recvingMetadata))
  /-- They are copied before they are converted. -/
  copiedFirst : worker.handshakes.useHostBuffer = true → CopiedFirst calls

theorem deviceCalls_syncs (host : worker.handshakes.useHostBuffer = true)
    (layers : List (List KvTensor)) (permutes : Bool) (metadata : Dict ReqId ReqMeta)
    (reqIds : List ReqId) :
    (reqIds.flatMap (worker.syncs metadata)).flatMap (ReceiveCall.deviceCalls layers permutes) =
      reqIds.map fun reqId => .copyBlocks (receivedBlocks metadata reqId) := by
  rw [List.flatMap_assoc, List.map_eq_flatMap]
  refine List.flatMap_congr fun reqId _ => ?_
  rw [syncs, if_pos host, List.flatMap_singleton, ReceiveCall.deviceCalls]

theorem convertedAt_syncs (layers : List (List KvTensor)) (permutes : Bool)
    (metadata : Dict ReqId ReqMeta) (reqIds : List ReqId) (dataPtr : ℕ) :
    ((reqIds.flatMap (worker.syncs metadata)).flatMap
      (ReceiveCall.deviceCalls layers permutes)).flatMap (DeviceCall.convertedAt dataPtr) = [] := by
  by_cases host : worker.handshakes.useHostBuffer = true
  · rw [deviceCalls_syncs host, List.flatMap_map]
    exact List.flatMap_eq_nil_iff.mpr fun _ _ => rfl
  · have none : ∀ reqId ∈ reqIds, worker.syncs metadata reqId = [] := fun _ _ => if_neg host
    rw [List.flatMap_eq_nil_iff.mpr none]
    rfl

/-- What is collected of the received requests is what is converted. -/
theorem mem_collectedBlocks {postProcess : Dict ℕ (List (List ℕ))} {tables : Handshakes ω}
    {metadata : Dict ReqId ReqMeta} {reqIds : List ReqId}
    (collected : (collectedBlocks postProcess).Perm
      (reqIds.flatMap (worker.collects tables metadata)))
    {entry : Σ _ : ℕ, List (List ℕ)} (isEntry : entry ∈ postProcess.entries) {blockIds : List ℕ}
    (member : blockIds ∈ entry.2) : ∃ reqId ∈ reqIds, blockIds = receivedBlocks metadata reqId := by
  have isCollected : (entry.1, blockIds) ∈ collectedBlocks postProcess :=
    List.mem_flatMap.mpr ⟨entry, isEntry, List.mem_map_of_mem member⟩
  obtain ⟨reqId, isReq, collects⟩ := List.mem_flatMap.mp (collected.mem_iff.mp isCollected)
  refine ⟨reqId, isReq, ?_⟩
  rw [ReceivingWorker.collects] at collects
  split at collects
  · cases collects
  · split at collects
    · exact congrArg Prod.snd (List.mem_singleton.mp collects)
    · cases collects

theorem receivedRatio_congr {tables others : Handshakes ω}
    (same : others.blockSize = tables.blockSize) (metadata : Dict ReqId ReqMeta) (reqId : ReqId) :
    worker.receivedRatio others metadata reqId = worker.receivedRatio tables metadata reqId := by
  simp only [receivedRatio, HandshakeWorker.blockSizeRatioFromEngineId, Attempt.readOk, same]

theorem collects_congr {tables others : Handshakes ω}
    (same : others.blockSize = tables.blockSize)
    (permutes : others.enablePermuteLocalKv = tables.enablePermuteLocalKv)
    (metadata : Dict ReqId ReqMeta) :
    worker.collects others metadata = worker.collects tables metadata := by
  funext reqId
  rw [collects, collects, receivedRatio_congr same, permutes]

/-- The parts of a call of `get_finished` that returns. -/
theorem getFinished_parts {checks : XferHandle → XferCheck} {order : SetOrder}
    {next : Receiving ω} {done : KeySet ReqId}
    (finished : worker.getFinished receiving checks order = (next, .ok done)) :
    ∃ middle forgotten postProcess last,
      middle = (receiving.onReading (worker.doneRecving checks)).1 ∧
      Received checks receiving.reading middle.reading done ∧
      worker.finishLoop (order.arrange done.keys) ∅ middle = (forgotten, .ok postProcess) ∧
      postProcessLoop postProcess.entries forgotten = (last, .ok ()) ∧
      next.receiveCalls = last.receiveCalls ∧ next.tables = middle.tables ∧
      next.reading.recvingMetadata = forgotten.reading.recvingMetadata ∧
      next.log.reported = receiving.log.reported ++ done.keys := by
  have received := received_onReading worker checks receiving
  rw [ReceivingWorker.getFinished] at finished
  simp only at finished
  split at finished
  · cases finished
  · rename_i forgotten postProcess looped
    split at finished
    · cases finished
    · rename_i last processed
      obtain ⟨_, _, recvingMetadata, receiveCalls, rfl⟩ := worker.finishLoop_eq_ok looped
      obtain ⟨laterCalls, rfl⟩ := postProcessLoop_eq_ok processed
      cases finished
      exact ⟨_, _, postProcess, _, rfl, received, looped, processed, rfl, rfl, rfl, rfl⟩

theorem getFinished_finishes (layers : List (List KvTensor)) {checks : XferHandle → XferCheck}
    {order : SetOrder} {next : Receiving ω} {done : KeySet ReqId}
    (finished : worker.getFinished receiving checks order = (next, .ok done)) :
    worker.Finishes layers receiving next done.keys
      (worker.deviceCalls layers receiving (.getFinished checks order)) := by
  have stepped : worker.step receiving (.getFinished checks order) = .ok next := by
    rw [step, finished]
  obtain ⟨middle, forgotten, postProcess, last, isMiddle, received, looped, processed, lastCalls,
    lastTables, lastReading, reported⟩ := getFinished_parts finished
  have blockSize : middle.tables.blockSize = receiving.tables.blockSize := by rw [isMiddle]; rfl
  have permutes : middle.tables.enablePermuteLocalKv = receiving.tables.enablePermuteLocalKv := by
    rw [isMiddle]; rfl
  have before : middle.receiveCalls = receiving.receiveCalls := by rw [isMiddle]; rfl
  have sameReqs := order.perm done.keys
  have nodup : (order.arrange done.keys).Nodup := sameReqs.nodup_iff.mpr done.keys_nodup
  have known := (finishLoop_returns_iff nodup).mp ⟨_, _, looped⟩
  obtain ⟨collected, synced⟩ := finishLoop_calls nodup looped
  obtain ⟨positive, posted⟩ := postProcessLoop_calls processed
  obtain ⟨keys, lookups, _⟩ := worker.finishLoop_eq_ok looped
  rw [received.recvingMetadata] at known collected synced keys lookups
  rw [collects_congr blockSize permutes] at collected
  rw [before] at synced
  have isCalls : worker.deviceCalls layers receiving (.getFinished checks order) =
      ((order.arrange done.keys).flatMap (worker.syncs receiving.reading.recvingMetadata)).flatMap
          (ReceiveCall.deviceCalls layers receiving.tables.enablePermuteLocalKv) ++
        (postProcess.entries.map fun entry => .postProcess entry.1 entry.2).flatMap
          (ReceiveCall.deviceCalls layers receiving.tables.enablePermuteLocalKv) := by
    rw [deviceCalls, stepped]
    simp only
    rw [lastCalls, posted, synced, lastTables, permutes, List.append_assoc, List.drop_left,
      List.flatMap_append]
  rw [isCalls]
  refine
    { reported
      blockSize := by rw [lastTables, blockSize]
      permutes := by rw [lastTables, permutes]
      remoteAgents := by rw [lastTables, isMiddle]; rfl
      metadata := by rw [lastReading]; exact lookups
      keys := by rw [lastReading]; exact keys.trans (sameReqs.append_right _)
      known := ?_
      converted := fun dataPtr => ?_
      copied := fun host => ?_
      copiedFirst := fun host => ?_ }
  · intro reqId member
    have here := known reqId (sameReqs.mem_iff.mpr member)
    rwa [receivedRatio_congr blockSize] at here
  · have converts : ∀ entry ∈ postProcess.entries,
        ((ReceiveCall.postProcess entry.1 entry.2).deviceCalls layers
          receiving.tables.enablePermuteLocalKv).flatMap (DeviceCall.convertedAt dataPtr) =
        (entry.2.map (Prod.mk entry.1)).flatMap fun collected =>
          List.replicate (timesListed layers dataPtr)
            (.select receiving.tables.enablePermuteLocalKv collected.1, collected.2) := by
      intro entry isEntry
      rw [convertedAt_postProcess (positive entry isEntry), List.flatMap_map]
    rw [List.flatMap_append, convertedAt_syncs, List.nil_append, List.flatMap_map,
      List.flatMap_assoc, List.flatMap_congr converts, ← List.flatMap_assoc]
    exact (collected.trans (sameReqs.flatMap_right _)).flatMap_right _
  · have none : ∀ entry ∈ postProcess.entries,
        ((ReceiveCall.postProcess entry.1 entry.2).deviceCalls layers
          receiving.tables.enablePermuteLocalKv).flatMap DeviceCall.copied = [] :=
      fun entry _ => copied_postProcess layers _ entry.1 entry.2
    rw [deviceCalls_syncs host, List.flatMap_append, List.flatMap_map, List.flatMap_map,
      List.flatMap_assoc, List.flatMap_eq_nil_iff.mpr none, List.append_nil]
    exact (List.Perm.of_eq List.map_eq_flatMap.symm).trans (sameReqs.map _)
  · rw [deviceCalls_syncs host]
    apply CopiedFirst.of_copies
    · intro call isCopy
      obtain ⟨reqId, _, rfl⟩ := List.mem_map.mp isCopy
      exact ⟨_, rfl⟩
    · intro kernel cache blockIds called
      obtain ⟨posted, isPosted, called⟩ := List.mem_flatMap.mp called
      obtain ⟨entry, isEntry, rfl⟩ := List.mem_map.mp isPosted
      obtain ⟨reqId, isReq, rfl⟩ := mem_collectedBlocks collected isEntry (mem_of_convert called)
      exact List.mem_map.mpr ⟨reqId, isReq, rfl⟩

end ReceivingWorker

end RduHdi
