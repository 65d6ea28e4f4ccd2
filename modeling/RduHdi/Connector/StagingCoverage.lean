import RduHdi.Connector.HostStaging
import RduHdi.Connector.SchedulerRun
import RduHdi.Paging

/-!
# Host staging of a whole prompt

Every step hands the blocks it newly allocates for a request to `save_kv_to_host`, so a block is
staged once, by the step that allocates it.  Every block is staged with all of its tokens exactly
when all chunk boundaries are block boundaries.
-/

namespace RduHdi

namespace StagingCoverage

open Paging StagingWorker

/-! ## What a pass copies -/

section Copies

variable {ω : Type*} (worker : StagingWorker ω)

/-- The block list of a copy made for a request. -/
def copyFor (reqId : ReqId) : StagingCall → Option (List ℕ)
  | .copyBlocks copied blockIds => if copied = reqId then some blockIds else none
  | .sendNotif _ => none

/-- The copies made for a request so far. -/
def copies (reqId : ReqId) (staging : Staging ω) : List (List ℕ) :=
  staging.calls.filterMap (copyFor reqId)

theorem copies_steps {worker : StagingWorker ω} (copied : ReqId) {staging next : Staging ω}
    (steps : worker.Steps staging next) : copies copied next = copies copied staging := by
  induction steps with
  | refl => rfl
  | tail _ step ih =>
      cases step with
      | sendNotif agent notif =>
          rename_i middle _
          have sent : copies copied (worker.sendNotif middle agent notif).1 =
              (middle.calls ++ [StagingCall.sendNotif _]).filterMap (copyFor copied) := rfl
          rw [sent, List.filterMap_append, ← ih]
          exact List.append_nil _
      | addRemoteAgent agentMeta => exact ih
      | setMaps agents engines pending => exact ih

theorem copies_saveRequest (copied : ReqId) (metadata : NixlConnectorMetadata)
    (staging : Staging ω) (entry : Σ _ : ReqId, ReqMeta) :
    copies copied (worker.saveRequest metadata staging entry) =
      copies copied staging ++
        (if entry.1 = copied then
          some (worker.kernel.logicalToKernelBlockIds entry.2.localBlockIds)
        else none).toList := by
  obtain ⟨reqId, saved⟩ := entry
  have copy : copies copied
      { staging with
        calls := staging.calls ++
          [.copyBlocks reqId (worker.kernel.logicalToKernelBlockIds saved.localBlockIds)] } =
        copies copied staging ++
          (if reqId = copied then
            some (worker.kernel.logicalToKernelBlockIds saved.localBlockIds)
          else none).toList := by
    by_cases same : reqId = copied <;> simp [copies, copyFor, same]
  rw [saveRequest]
  simp only
  split
  · rw [copies_steps copied (worker.notifyChunkReady_steps _ reqId _), copy]
  · exact copy

/-- A pass copies for a request the blocks its metadata saves for it, once. -/
theorem copies_saveKvToHost (copied : ReqId) (staging : Staging ω)
    (metadata : NixlConnectorMetadata) :
    copies copied (worker.saveKvToHost staging metadata) =
      copies copied staging ++
        ((metadata.savedChunk? copied).map fun chunk =>
          worker.kernel.logicalToKernelBlockIds chunk.saved.localBlockIds).toList := by
  have registered : copies copied (worker.registerFrom staging metadata) =
      copies copied staging := by
    rw [copies_steps copied (worker.registerFrom_steps staging metadata)]
    rfl
  have loop : ∀ entries : List (Σ _ : ReqId, ReqMeta), ∀ staging : Staging ω,
      copies copied (entries.foldl (worker.saveRequest metadata) staging) =
        copies copied staging ++ entries.filterMap fun entry =>
          if entry.1 = copied then
            some (worker.kernel.logicalToKernelBlockIds entry.2.localBlockIds)
          else none := by
    intro entries
    induction entries with
    | nil => simp
    | cons entry entries ih =>
        intro staging
        rw [List.foldl_cons, ih, copies_saveRequest]
        by_cases same : entry.1 = copied <;> simp [same]
  rw [saveKvToHost, loop, registered]
  congr 1
  have found := @AList.filterMap_entries _ _ _ metadata.reqsToSave _ copied fun saved =>
    worker.kernel.logicalToKernelBlockIds saved.localBlockIds
  rw [found]
  cases saved : metadata.reqsToSave.lookup copied <;>
    simp [NixlConnectorMetadata.savedChunk?, saved]

/-- The kernel blocks of a list of blocks contain those of one block exactly when the block is in
the list. -/
theorem kernelBlocks_subset (kernel : KernelBlocks) (block : ℕ) (blockIds : List ℕ) :
    kernel.logicalToKernelBlockIds [block] ⊆ kernel.logicalToKernelBlockIds blockIds ↔
      block ∈ blockIds := by
  have positive := kernel.ratio_pos
  by_cases same : kernel.physicalBlocksPerLogicalKvBlock = 1
  · simp [KernelBlocks.logicalToKernelBlockIds, same]
  · simp only [KernelBlocks.logicalToKernelBlockIds, same, if_false, kernel.map_eq]
    generalize kernel.physicalBlocksPerLogicalKvBlock = ratio at positive same
    constructor
    · intro subset
      have first : block * ratio ∈ [block].flatMap fun block =>
          (List.range ratio).map fun offset => block * ratio + offset := by
        rw [List.flatMap_singleton]
        exact List.mem_map.mpr ⟨0, List.mem_range.mpr positive, Nat.add_zero _⟩
      obtain ⟨other, member, inside⟩ := List.mem_flatMap.mp (subset first)
      obtain ⟨offset, bound, equal⟩ := List.mem_map.mp inside
      rw [List.mem_range] at bound
      have quotients := congrArg (· / ratio) equal
      have left : (other * ratio + offset) / ratio = other := by
        rw [Nat.mul_comm, Nat.mul_add_div positive, Nat.div_eq_of_lt bound, Nat.add_zero]
      have right : block * ratio / ratio = block := Nat.mul_div_cancel block positive
      simp only [left, right] at quotients
      rwa [quotients] at member
    · intro member kernelBlock inside
      rw [List.flatMap_singleton] at inside
      exact List.mem_flatMap.mpr ⟨block, member, inside⟩

end Copies

/-! ## A prompt scheduled in chunks -/

/-- A request whose prompt lies in blocks and is scheduled in chunks. -/
structure PromptSplit where
  /-- The request. -/
  request : Request
  /-- The tokens of a block. -/
  blockSize : ℕ
  /-- There are some. -/
  blockSize_pos : 0 < blockSize
  /-- The request's blocks, in the order they are allocated. -/
  blocks : List ℕ
  /-- No block is given twice. -/
  blocks_nodup : blocks.Nodup
  /-- The blocks are as many as the prompt needs. -/
  blocks_length : blocks.length = pageCount blockSize request.numPromptTokens
  /-- The tokens of each step. -/
  chunks : List ℕ
  /-- Every step has some. -/
  chunks_pos : ∀ chunk ∈ chunks, 0 < chunk
  /-- All steps together have the prompt. -/
  chunks_sum : chunks.sum = request.numPromptTokens

/-- The step that computes a chunk: it carries the newly allocated blocks, if there are any. -/
def chunkEntry (reqId : ReqId) (blockSize : ℕ) (blocks : List ℕ) (computed chunk : ℕ) :
    ScheduledReq :=
  let newBlockIds := allocated blockSize blocks computed (computed + chunk)
  { reqId
    newBlockIds := if newBlockIds.isEmpty then none else some newBlockIds
    numScheduledTokens := chunk
    numComputedTokens := computed }

def chunkEntries (reqId : ReqId) (blockSize : ℕ) (blocks : List ℕ) :
    ℕ → List ℕ → List ScheduledReq
  | _, [] => []
  | computed, chunk :: chunks =>
      chunkEntry reqId blockSize blocks computed chunk ::
        chunkEntries reqId blockSize blocks (computed + chunk) chunks

theorem newBlockIds_eq_none {reqId : ReqId} {blockSize : ℕ} {blocks : List ℕ}
    {computed chunk : ℕ} (none_new : allocated blockSize blocks computed (computed + chunk) = []) :
    (chunkEntry reqId blockSize blocks computed chunk).newBlockIds = none := by
  simp [chunkEntry, none_new]

theorem newBlockIds_eq_some {reqId : ReqId} {blockSize : ℕ} {blocks : List ℕ}
    {computed chunk : ℕ} (some_new : allocated blockSize blocks computed (computed + chunk) ≠ []) :
    (chunkEntry reqId blockSize blocks computed chunk).newBlockIds =
      some (allocated blockSize blocks computed (computed + chunk)) := by
  simp [chunkEntry, some_new]

/-- The steps of the whole prompt. -/
def PromptSplit.entries (split : PromptSplit) : List ScheduledReq :=
  chunkEntries split.request.requestId split.blockSize split.blocks 0 split.chunks

section Entries

variable {reqId : ReqId} {blockSize : ℕ} {blocks : List ℕ}

theorem chunkEntries_append (computed : ℕ) (left right : List ℕ) :
    chunkEntries reqId blockSize blocks computed (left ++ right) =
      chunkEntries reqId blockSize blocks computed left ++
        chunkEntries reqId blockSize blocks (computed + left.sum) right := by
  induction left generalizing computed with
  | nil => simp [chunkEntries]
  | cons chunk left ih => simp [chunkEntries, ih, Nat.add_assoc]

/-- The steps after some of them are those of the chunks after as many. -/
theorem chunkEntries_split {computed : ℕ} {chunks : List ℕ} {front back : List ScheduledReq}
    {scheduled : ScheduledReq}
    (whole : chunkEntries reqId blockSize blocks computed chunks = front ++ scheduled :: back) :
    ∃ left chunk right, chunks = left ++ chunk :: right ∧ left.length = front.length ∧
      front = chunkEntries reqId blockSize blocks computed left ∧
      scheduled = chunkEntry reqId blockSize blocks (computed + left.sum) chunk ∧
      back = chunkEntries reqId blockSize blocks (computed + left.sum + chunk) right := by
  induction front generalizing computed chunks with
  | nil =>
      cases chunks with
      | nil => simp [chunkEntries] at whole
      | cons chunk chunks =>
          obtain ⟨rfl, rfl⟩ := List.cons_eq_cons.mp whole
          exact ⟨[], chunk, chunks, rfl, rfl, rfl, rfl, rfl⟩
  | cons first front ih =>
      cases chunks with
      | nil => simp [chunkEntries] at whole
      | cons head chunks =>
          obtain ⟨rfl, rest⟩ := List.cons_eq_cons.mp whole
          obtain ⟨left, chunk, right, rfl, length, rfl, rfl, rfl⟩ := ih rest
          refine ⟨head :: left, chunk, right, rfl, by simp [length], rfl, ?_, ?_⟩
          · simp [Nat.add_assoc]
          · simp [Nat.add_assoc]

end Entries

theorem PromptSplit.entries_of_cut (split : PromptSplit) {left right : List ℕ} {chunk : ℕ}
    (chunks : split.chunks = left ++ chunk :: right) :
    split.entries =
      chunkEntries split.request.requestId split.blockSize split.blocks 0 left ++
        chunkEntry split.request.requestId split.blockSize split.blocks left.sum chunk ::
          chunkEntries split.request.requestId split.blockSize split.blocks (left.sum + chunk)
            right := by
  rw [PromptSplit.entries, chunks, chunkEntries_append, Nat.zero_add]
  rfl

/-! ## The view along the steps -/

section View

variable {config : SchedulerConfig} {request : Request} {reqId : ReqId} {blockSize : ℕ}
  {blocks : List ℕ}

/-- The blocks handed to the workers along steps. -/
def handedOut (config : SchedulerConfig) (view : SaveView) (entries : List ScheduledReq) :
    List SavedChunk :=
  Run.observe (SaveView.step config) (SaveView.chunks config) view (entries.map .entry)

/-- While part of the prompt stays unscheduled the view keeps saving. -/
theorem saving_of_open {computed : ℕ} {chunks : List ℕ}
    (isOpen : computed + chunks.sum < request.numPromptTokens) {view : SaveView}
    (saving : view.saving = some request) :
    ∃ final, Run.exec (SaveView.step config) view
        ((chunkEntries reqId blockSize blocks computed chunks).map .entry) = .ok final ∧
      final.saving = some request := by
  induction chunks generalizing computed view with
  | nil => exact ⟨view, rfl, saving⟩
  | cons chunk chunks ih =>
      rw [List.sum_cons] at isOpen
      have remains : NixlConnectorScheduler.isPartial request
          (chunkEntry reqId blockSize blocks computed chunk) = true := by
        simp [NixlConnectorScheduler.isPartial, chunkEntry]
        omega
      have still : (view.advance config
          (chunkEntry reqId blockSize blocks computed chunk)).saving = some request :=
        SaveView.saving_advance_of_partial saving remains
      have later : computed + chunk + chunks.sum < request.numPromptTokens := by omega
      obtain ⟨final, taken, kept⟩ := ih later still
      exact ⟨final, (Run.exec_cons rfl).trans taken, kept⟩

/-- The steps from one on hand out exactly the blocks not allocated before it. -/
theorem handedOut_blocks (blockSize_pos : 0 < blockSize) {computed : ℕ} {chunks : List ℕ}
    (positive : ∀ chunk ∈ chunks, 0 < chunk)
    (whole : computed + chunks.sum = request.numPromptTokens) {view : SaveView}
    (saving : view.saving = some request) :
    (handedOut config view (chunkEntries reqId blockSize blocks computed chunks)).flatMap
        (fun chunk => chunk.saved.localBlockIds) =
      allocated blockSize blocks computed request.numPromptTokens := by
  induction chunks generalizing computed view with
  | nil =>
      obtain rfl : computed = request.numPromptTokens := by simpa using whole
      rw [allocated_self]
      rfl
  | cons chunk chunks ih =>
      rw [List.sum_cons] at whole
      have positiveRest : ∀ chunk ∈ chunks, 0 < chunk := fun other member =>
        positive other (List.mem_cons_of_mem _ member)
      have restWhole : computed + chunk + chunks.sum = request.numPromptTokens := by omega
      have parts := allocated_append blockSize_pos blocks (Nat.le_add_right computed chunk)
        (show computed + chunk ≤ request.numPromptTokens by omega)
      let scheduled := chunkEntry reqId blockSize blocks computed chunk
      let newBlockIds := allocated blockSize blocks computed (computed + chunk)
      have stepped : handedOut config view
          (chunkEntries reqId blockSize blocks computed (chunk :: chunks)) =
            (view.emit config scheduled).toList ++
              handedOut config (view.advance config scheduled)
                (chunkEntries reqId blockSize blocks (computed + chunk) chunks) :=
        Run.observe_cons rfl
      rw [stepped, List.flatMap_append, ← parts]
      have emitted : (view.emit config scheduled).toList.flatMap
          (fun chunk => chunk.saved.localBlockIds) = newBlockIds := by
        by_cases fresh : newBlockIds = []
        · rw [SaveView.emit_of_noBlocks (newBlockIds_eq_none fresh), fresh]
          rfl
        · have carried : (view.emit config scheduled).map
              (fun chunk => chunk.saved.localBlockIds) = some newBlockIds :=
            SaveView.localBlockIds_emit saving (newBlockIds_eq_some fresh)
          obtain ⟨saved, emits, ids⟩ := Option.map_eq_some_iff.mp carried
          simp [emits, ids]
      rw [emitted]
      congr 1
      rcases Nat.lt_or_ge (computed + chunk) request.numPromptTokens with more | done
      · have remains : NixlConnectorScheduler.isPartial request scheduled = true := by
          simp [NixlConnectorScheduler.isPartial, scheduled, chunkEntry, more]
        exact ih positiveRest restWhole (SaveView.saving_advance_of_partial saving remains)
      · have last : chunks = [] := by
          cases chunks with
          | nil => rfl
          | cons next rest =>
              have more := positiveRest next List.mem_cons_self
              rw [List.sum_cons] at restWhole
              omega
        subst last
        have finished : computed + chunk = request.numPromptTokens := by
          simpa using restWhole
        rw [finished, allocated_self]
        rfl

/-- A step that starts on a block boundary and completes the prompt retires the view. -/
theorem retired_of_dvd (blockSize_pos : 0 < blockSize) {computed chunk : ℕ}
    (positive : 0 < chunk) (whole : computed + chunk = request.numPromptTokens)
    (enough : blocks.length = pageCount blockSize request.numPromptTokens)
    (dvd : blockSize ∣ computed) {view : SaveView} (saving : view.saving = some request) :
    (view.advance config (chunkEntry reqId blockSize blocks computed chunk)).saving = none := by
  have more := pageCount_lt_of_dvd blockSize_pos dvd (Nat.lt_add_of_pos_right positive)
  have length : (allocated blockSize blocks computed (computed + chunk)).length =
      pageCount blockSize (computed + chunk) - pageCount blockSize computed :=
    length_allocated (by rw [whole, enough])
  have nonempty : allocated blockSize blocks computed (computed + chunk) ≠ [] := by
    intro empty
    rw [empty, List.length_nil] at length
    omega
  apply SaveView.saving_advance_of_complete saving (newBlockIds_eq_some nonempty)
  simp [NixlConnectorScheduler.isPartial, chunkEntry, whole]

end View

/-! ## Runs of scheduler and worker -/

/-- The scheduler side and a worker that saves after every step. -/
structure Producer (ω : Type*) where
  /-- The scheduler side. -/
  scheduler : NixlConnectorScheduler
  /-- The staging half of the worker. -/
  staging : Staging ω

section Runs

variable {ω : Type*} (worker : StagingWorker ω) (config : SchedulerConfig)

/-- A call of the scheduler side; the metadata of a build goes through `save_kv_to_host`. -/
def Producer.step (producer : Producer ω) (event : SchedulerEvent) :
    Except PyError (Producer ω) :=
  match producer.scheduler.step config event with
  | .ok scheduler =>
      .ok
        { scheduler
          staging := (producer.scheduler.metadataOf config event).foldl worker.saveKvToHost
            producer.staging }
  | .error raised => .error raised

/-- A run copies for a request the blocks the scheduler side hands out for it. -/
theorem Producer.exec_eq_ok {producer final : Producer ω} {events : List SchedulerEvent}
    (taken : Run.exec (Producer.step worker config) producer events = .ok final)
    (reqId : ReqId) :
    Run.exec (NixlConnectorScheduler.step config) producer.scheduler events =
        .ok final.scheduler ∧
      copies reqId final.staging = copies reqId producer.staging ++
        (Run.observe (NixlConnectorScheduler.step config)
          (NixlConnectorScheduler.chunksOf config reqId) producer.scheduler events).map
            fun chunk => worker.kernel.logicalToKernelBlockIds chunk.saved.localBlockIds := by
  induction events generalizing producer with
  | nil =>
      obtain rfl : producer = final := by simpa using taken
      simp
  | cons event events ih =>
      obtain ⟨next, first, rest⟩ := Run.exec_cons_eq_ok.mp taken
      rw [Producer.step] at first
      cases scheduled : producer.scheduler.step config event with
      | error raised =>
          rw [scheduled] at first
          cases first
      | ok scheduler =>
          rw [scheduled] at first
          cases first
          obtain ⟨reached, copied⟩ := ih rest
          have pass : ∀ metas : List NixlConnectorMetadata, ∀ staging : Staging ω,
              copies reqId (metas.foldl worker.saveKvToHost staging) = copies reqId staging ++
                (metas.filterMap fun metadata => metadata.savedChunk? reqId).map fun chunk =>
                  worker.kernel.logicalToKernelBlockIds chunk.saved.localBlockIds := by
            intro metas
            induction metas with
            | nil => simp
            | cons metadata metas ihMetas =>
                intro staging
                rw [List.foldl_cons, ihMetas, copies_saveKvToHost]
                cases saved : metadata.savedChunk? reqId <;> simp [saved]
          refine ⟨(Run.exec_cons scheduled).trans reached, ?_⟩
          rw [copied, pass, Run.observe_cons scheduled, List.map_append, List.append_assoc]
          rfl

end Runs

section Coverage

variable {ω : Type*} (worker : StagingWorker ω) (config : SchedulerConfig) (split : PromptSplit)

/-- The step computes the last prompt token of a block. -/
def ComputesLast (scheduled : ScheduledReq) (page : ℕ) : Prop :=
  scheduled.numComputedTokens ≤
      lastItem split.blockSize split.request.numPromptTokens page ∧
    lastItem split.blockSize split.request.numPromptTokens page <
      scheduled.numComputedTokens + scheduled.numScheduledTokens

/-- The copies made for the request after a state of a run hold a block. -/
def CopiedSince (middle final : Producer ω) (block : ℕ) : Prop :=
  ∃ copy ∈ (copies split.request.requestId final.staging).drop
      (copies split.request.requestId middle.staging).length,
    worker.kernel.logicalToKernelBlockIds [block] ⊆ copy

/-- Every block is copied at or after the step that computes its last prompt token. -/
def AllStaged (start final : Producer ω) (events : List SchedulerEvent) : Prop :=
  ∀ page block, split.blocks[page]? = some block →
    ∀ before output after middle scheduled, events = before ++ .build output :: after →
      Run.exec (Producer.step worker config) start before = .ok middle →
      output.scheduledFor split.request.requestId = some scheduled →
      ComputesLast split scheduled page → CopiedSince worker split middle final block

variable {worker config split}

/-- The copies made at or after a step hold a block exactly when it is not allocated before. -/
theorem copiedSince_iff {middle final : Producer ω}
    {events : List SchedulerEvent} {left right : List ℕ}
    (still : (middle.scheduler.saveView split.request.requestId).saving = some split.request)
    (taken : Run.exec (Producer.step worker config) middle events = .ok final)
    (chunks : split.chunks = left ++ right)
    (items : events.flatMap (SchedulerEvent.items split.request.requestId) =
      (chunkEntries split.request.requestId split.blockSize split.blocks left.sum
        right).map .entry)
    {page block : ℕ} (found : split.blocks[page]? = some block) :
    CopiedSince worker split middle final block ↔
      pageCount split.blockSize left.sum ≤ page := by
  obtain ⟨reached, copied⟩ := Producer.exec_eq_ok worker config taken split.request.requestId
  have handed := (saveView_exec reached split.request.requestId).2
  rw [items] at handed
  have positive : ∀ size ∈ right, 0 < size := fun size member =>
    split.chunks_pos size (by rw [chunks]; exact List.mem_append_right left member)
  have total : left.sum + right.sum = split.request.numPromptTokens := by
    rw [← split.chunks_sum, chunks, List.sum_append]
  have blocks : (handedOut config (middle.scheduler.saveView split.request.requestId)
        (chunkEntries split.request.requestId split.blockSize split.blocks left.sum
          right)).flatMap (fun chunk => chunk.saved.localBlockIds) =
      allocated split.blockSize split.blocks left.sum split.request.numPromptTokens :=
    handedOut_blocks split.blockSize_pos positive total still
  rw [← mem_allocated_iff split.blocks_nodup split.blocks_length.le found, ← blocks,
    CopiedSince, copied, List.drop_left, handed, List.mem_flatMap]
  constructor
  · rintro ⟨copy, member, subset⟩
    obtain ⟨saved, inside, rfl⟩ := List.mem_map.mp member
    exact ⟨saved, inside, (kernelBlocks_subset worker.kernel block _).mp subset⟩
  · rintro ⟨saved, inside, member⟩
    exact ⟨_, List.mem_map_of_mem inside, (kernelBlocks_subset worker.kernel block _).mpr member⟩

/-- In front of a step of the prompt the view saves the request. -/
theorem saving_before {start middle : Producer ω} {before : List SchedulerEvent}
    {left right : List ℕ} {chunk : ℕ}
    (saving : (start.scheduler.saveView split.request.requestId).saving = some split.request)
    (taken : Run.exec (Producer.step worker config) start before = .ok middle)
    (chunks : split.chunks = left ++ chunk :: right)
    (items : before.flatMap (SchedulerEvent.items split.request.requestId) =
      (chunkEntries split.request.requestId split.blockSize split.blocks 0 left).map .entry) :
    (middle.scheduler.saveView split.request.requestId).saving = some split.request := by
  have chunkPos : 0 < chunk := split.chunks_pos chunk (by simp [chunks])
  have total : left.sum + (chunk + right.sum) = split.request.numPromptTokens := by
    rw [← split.chunks_sum, chunks, List.sum_append, List.sum_cons]
  have isOpen : 0 + left.sum < split.request.numPromptTokens := by omega
  obtain ⟨view, viewTaken, still⟩ : ∃ view, Run.exec (SaveView.step config)
      (start.scheduler.saveView split.request.requestId)
        ((chunkEntries split.request.requestId split.blockSize split.blocks 0 left).map
          .entry) = .ok view ∧ view.saving = some split.request := saving_of_open isOpen saving
  obtain ⟨reached, _⟩ := Producer.exec_eq_ok worker config taken split.request.requestId
  have projected := (saveView_exec reached split.request.requestId).1
  rw [items, viewTaken] at projected
  rwa [← Except.ok.inj projected]

/-- A run whose entries for the request are those of its chunks, cut at a step of the request. -/
theorem cut_at {before after : List SchedulerEvent} {output : SchedulerOutput}
    {scheduled : ScheduledReq}
    (items : (before ++ .build output :: after).flatMap
        (SchedulerEvent.items split.request.requestId) = split.entries.map .entry)
    (here : output.scheduledFor split.request.requestId = some scheduled) :
    ∃ left chunk right, split.chunks = left ++ chunk :: right ∧
      before.flatMap (SchedulerEvent.items split.request.requestId) =
        (chunkEntries split.request.requestId split.blockSize split.blocks 0 left).map .entry ∧
      scheduled = chunkEntry split.request.requestId split.blockSize split.blocks left.sum chunk ∧
      (.build output :: after : List SchedulerEvent).flatMap
          (SchedulerEvent.items split.request.requestId) =
        (chunkEntries split.request.requestId split.blockSize split.blocks left.sum
          (chunk :: right)).map .entry := by
  have head : (.build output :: after : List SchedulerEvent).flatMap
      (SchedulerEvent.items split.request.requestId) =
        .entry scheduled :: after.flatMap (SchedulerEvent.items split.request.requestId) := by
    simp [SchedulerEvent.items, here]
  rw [List.flatMap_append, head] at items
  obtain ⟨front, tail, entries, frontItems, tailItems⟩ := List.append_eq_map_iff.mp items
  obtain ⟨scheduled', back, rfl, same, backItems⟩ := List.map_eq_cons_iff.mp tailItems
  obtain rfl : scheduled' = scheduled := by simpa using same
  obtain ⟨left, chunk, right, chunks, _, rfl, rfl, rfl⟩ := chunkEntries_split entries
  rw [Nat.zero_add] at *
  exact ⟨left, chunk, right, chunks, frontItems.symm, rfl, by rw [head, ← backItems]; rfl⟩

/-- **Staging covers the prompt.**  In every run from the allocation of a request in which its
steps are those of a chunk split of its prompt, whatever else happens in between, every block is
staged at or after the step that completes it, and the request is no longer waiting to be saved,
exactly when every chunk starts on a block boundary. -/
theorem staged_iff (host : config.useHostBuffer)
    (decode : split.request.kvTransferParams.doRemoteDecode)
    (nonempty : 0 < split.request.numPromptTokens)
    {scheduler : NixlConnectorScheduler} {start final : Producer ω} {after : Request}
    {unhashedBlockIds : List ℕ} {numExternalTokens : ℕ} {now : ℚ}
    (allocation : scheduler.updateStateAfterAlloc config split.request unhashedBlockIds
      numExternalTokens now = .ok (start.scheduler, after))
    {events : List SchedulerEvent}
    (items : events.flatMap (SchedulerEvent.items split.request.requestId) =
      split.entries.map .entry)
    (taken : Run.exec (Producer.step worker config) start events = .ok final) :
    (AllStaged worker config split start final events ∧
        split.request.requestId ∉ final.scheduler.reqsNeedSave) ↔
      Aligned split.blockSize split.chunks := by
  have view := NixlConnectorScheduler.saveView_alloc allocation split.request.requestId
  rw [if_pos rfl] at view
  have saving : (start.scheduler.saveView split.request.requestId).saving =
      some split.request := by
    simp [view, SaveView.alloc, decode, host]
  constructor
  · rintro ⟨staged, _⟩
    apply (aligned_iff split.blockSize_pos split.chunks_pos).mpr
    intro page pageInside index inside started ended
    obtain ⟨left, chunk, right, chunks, rfl⟩ := exists_cut inside
    rw [chunks, boundary_append_length] at started ⊢
    rw [chunks, boundary_append_succ] at ended
    rw [← chunks, split.chunks_sum] at started ended
    rw [split.chunks_sum, ← split.blocks_length] at pageInside
    -- the chunk comes from a build of the run
    rw [split.entries_of_cut chunks, List.map_append, List.map_cons] at items
    obtain ⟨before, output, rest, rfl, here, itemsBefore⟩ :=
      SchedulerEvent.exists_build items
    obtain ⟨middle, takenBefore, takenRest⟩ := Run.exec_append_eq_ok.mp taken
    have found : split.blocks[page]? = some split.blocks[page] :=
      List.getElem?_eq_getElem pageInside
    have copied := staged page _ found before output rest middle _ rfl takenBefore here
      ⟨started, ended⟩
    have still := saving_before saving takenBefore chunks itemsBefore
    have itemsRest : (.build output :: rest : List SchedulerEvent).flatMap
        (SchedulerEvent.items split.request.requestId) =
        (chunkEntries split.request.requestId split.blockSize split.blocks left.sum
          (chunk :: right)).map .entry := by
      rw [List.flatMap_append, itemsBefore] at items
      exact List.append_cancel_left items
    exact (copiedSince_iff still takenRest chunks itemsRest found).mp copied
  · intro aligned
    constructor
    · rintro page block found before output rest middle scheduled rfl takenBefore here
        ⟨started, ended⟩
      obtain ⟨left, chunk, right, chunks, itemsBefore, rfl, itemsRest⟩ := cut_at items here
      obtain ⟨_, takenBefore', takenRest⟩ := Run.exec_append_eq_ok.mp taken
      rw [takenBefore] at takenBefore'
      obtain rfl := Except.ok.inj takenBefore'
      have still := saving_before saving takenBefore chunks itemsBefore
      apply (copiedSince_iff still takenRest chunks itemsRest found).mpr
      have early := (aligned_iff split.blockSize_pos split.chunks_pos).mp aligned page
      rw [split.chunks_sum, ← split.blocks_length] at early
      have bound := early (List.getElem?_eq_some_iff.mp found).1 left.length
        (by rw [chunks]; simp)
      rw [chunks, boundary_append_length, boundary_append_succ] at bound
      exact bound started ended
    · -- the last chunk retires the request
      have some_chunk : split.chunks ≠ [] := by
        intro empty
        rw [← split.chunks_sum, empty, List.sum_nil] at nonempty
        exact Nat.lt_irrefl 0 nonempty
      obtain ⟨left, chunk, chunks⟩ := List.eq_nil_or_concat split.chunks |>.resolve_left some_chunk
      rw [List.concat_eq_append] at chunks
      rw [split.entries_of_cut chunks, List.map_append, List.map_cons] at items
      obtain ⟨before, output, rest, rfl, here, itemsBefore⟩ :=
        SchedulerEvent.exists_build items
      obtain ⟨middle, takenBefore, takenRest⟩ := Run.exec_append_eq_ok.mp taken
      have still := saving_before saving takenBefore chunks itemsBefore
      rw [List.flatMap_append, itemsBefore] at items
      have last := List.append_cancel_left items
      obtain ⟨reached, _⟩ :=
        Producer.exec_eq_ok worker config takenRest split.request.requestId
      have projected := (saveView_exec reached split.request.requestId).1
      rw [last] at projected
      have total : left.sum + chunk = split.request.numPromptTokens := by
        rw [← split.chunks_sum, chunks, List.sum_append, List.sum_singleton]
      have dvd : split.blockSize ∣ left.sum := by
        have whole := aligned left.length (by rw [chunks]; simp)
        rwa [chunks, boundary_append_length] at whole
      have chunkPos : 0 < chunk := split.chunks_pos chunk (by simp [chunks])
      have ends := congrArg SaveView.saving (Except.ok.inj projected)
      rw [← AList.lookup_eq_none]
      exact ends.symm.trans
        (retired_of_dvd split.blockSize_pos chunkPos total split.blocks_length dvd still)

end Coverage

/-! ## Two chunks of two tokens -/

/-- A prompt of four tokens in two chunks, with blocks of a given size. -/
def halves (blockSize : ℕ) (blockSize_pos : 0 < blockSize) (blocks : List ℕ)
    (blocks_nodup : blocks.Nodup) (blocks_length : blocks.length = pageCount blockSize 4) :
    PromptSplit where
  request := .remoteDecode "cmpl-1" [11, 12, 13, 14]
  blockSize
  blockSize_pos
  blocks
  blocks_nodup
  blocks_length
  chunks := [2, 2]
  chunks_pos := by simp
  chunks_sum := rfl

/-- A chunk for each block. -/
def blockwise : PromptSplit := halves 2 (by decide) [7, 8] (by decide) rfl

/-- Both chunks in one block. -/
def sharedBlock : PromptSplit := halves 4 (by decide) [7] (by decide) rfl

def hostConfig : SchedulerConfig := .withDefaults true false

/-- A worker without chunk overlap, whose blocks are kernel blocks. -/
def plainWorker : StagingWorker Unit where
  nixl :=
    { addRemoteAgent := fun _ _ => ((), .error .runtimeError)
      sendNotif := fun _ _ _ => ((), .error .runtimeError) }
  kernel := .consecutive 1 Nat.one_pos
  chunkOverlapEnabled := false

/-- The producer after the allocation of a request. -/
def allocatedProducer (request : Request) : Producer Unit where
  scheduler := NixlConnectorScheduler.allocEffect hostConfig .init request 0
  staging := .init ()

/-- One build for each step of a split. -/
def buildsOf (split : PromptSplit) : List SchedulerEvent :=
  split.entries.map fun scheduled => .build (.single scheduled)

theorem staged_blockwise :
    ∃ final, Run.exec (Producer.step plainWorker hostConfig)
        (allocatedProducer blockwise.request) (buildsOf blockwise) = .ok final ∧
      AllStaged plainWorker hostConfig blockwise (allocatedProducer blockwise.request) final
          (buildsOf blockwise) ∧
        blockwise.request.requestId ∉ final.scheduler.reqsNeedSave := by
  have allocation : NixlConnectorScheduler.updateStateAfterAlloc hostConfig .init
      blockwise.request [7] 0 0 =
        .ok ((allocatedProducer blockwise.request).scheduler, blockwise.request) := rfl
  have items : (buildsOf blockwise).flatMap
      (SchedulerEvent.items blockwise.request.requestId) = blockwise.entries.map .entry := rfl
  have aligned : Aligned blockwise.blockSize blockwise.chunks := by
    rw [Aligned]
    decide
  obtain ⟨final, taken⟩ : ∃ final, Run.exec (Producer.step plainWorker hostConfig)
      (allocatedProducer blockwise.request) (buildsOf blockwise) = .ok final := ⟨_, rfl⟩
  exact ⟨final, taken, (staged_iff rfl rfl (by decide) allocation items taken).mpr aligned⟩

/-- The second chunk lies in the block of the first, so it hands out no block: the block is staged
once, before its last two tokens are computed, and the request stays behind. -/
theorem not_staged_sharedBlock :
    ∃ final, Run.exec (Producer.step plainWorker hostConfig)
        (allocatedProducer sharedBlock.request) (buildsOf sharedBlock) = .ok final ∧
      ¬AllStaged plainWorker hostConfig sharedBlock (allocatedProducer sharedBlock.request) final
          (buildsOf sharedBlock) ∧
        sharedBlock.request.requestId ∈ final.scheduler.reqsNeedSave := by
  refine ⟨_, rfl, fun staged => ?_, AList.lookup_isSome.mp rfl⟩
  have whole : buildsOf sharedBlock =
      [.build (.single (chunkEntry "cmpl-1" 4 [7] 0 2))] ++
        .build (.single (chunkEntry "cmpl-1" 4 [7] 2 2)) :: [] := rfl
  obtain ⟨copy, member, _⟩ := staged 0 7 rfl _ _ _ _ _ whole rfl rfl ⟨by decide, by decide⟩
  cases member

end StagingCoverage

end RduHdi
