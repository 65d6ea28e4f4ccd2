import RduHdi.Connector.SchedulerRun

/-!
# Chunk labels

With chunk overlap on, the metadata labels every saved chunk of a request with an index and a
last flag, and the consumer finalizes on the flag.  This file says exactly when the labels of a
request form a complete stream: the counter of its id must start at zero, a step at or after the
end of the prompt must carry new blocks, and nothing may be saved after that step.
-/

namespace RduHdi

namespace ChunkLabels

open NixlConnectorScheduler (isPartial)

/-! ## The stream and its condition -/

/-- Items between the allocation of a request and its finish. -/
def InSegment (request : Request) : SaveItem → Prop
  | .alloc allocated _ => allocated = request
  | .entry _ => True
  | .finish _ _ => False

def isAlloc : SaveItem → Bool
  | .alloc _ _ => true
  | _ => false

/-- A step's entry with new blocks. -/
def carriesBlocks : SaveItem → Bool
  | .entry scheduled => scheduled.newBlockIds.isSome
  | _ => false

/-- A step's entry at whose end the whole prompt is scheduled. -/
def completes (request : Request) : SaveItem → Bool
  | .entry scheduled => !isPartial request scheduled
  | _ => false

/-- An entry that completes the prompt and carries new blocks. -/
def closes (request : Request) (item : SaveItem) : Bool :=
  carriesBlocks item && completes request item

/-- The whole prompt gets scheduled. -/
def PromptScheduled (request : Request) (items : List SaveItem) : Prop :=
  ∃ item ∈ items, completes request item

/-- The labels of the chunks handed out for a request are `0, 1, 2, …`, and exactly the final one
is marked last when the whole prompt gets scheduled, none otherwise. -/
structure CompleteStream (whole : Prop) (chunks : List SavedChunk) : Prop where
  /-- Chunks are numbered from zero. -/
  gapless : chunks.map SavedChunk.chunkIdx = (List.range chunks.length).map some
  /-- Of a whole prompt, the final chunk is the last and no other. -/
  last_of_whole : whole → ∃ front final, chunks = front ++ [final] ∧
    final.isLast = some true ∧ ∀ chunk ∈ front, chunk.isLast = some false
  /-- Of a part, no chunk is the last. -/
  not_last_of_partial : ¬whole → ∀ chunk ∈ chunks, chunk.isLast = some false

/-- What the inputs must meet for a complete stream; `counter` is the count the id starts with. -/
structure StreamCondition (request : Request) (items : List SaveItem) (counter : ℕ) : Prop where
  /-- No count is left over, or nothing gets labelled. -/
  fresh : counter = 0 ∨ ∀ item ∈ items, carriesBlocks item = false
  /-- If the prompt gets scheduled, a step at or after its end carries new blocks. -/
  closed : PromptScheduled request items → ∃ item ∈ items, closes request item
  /-- After that step, no new allocation is followed by new blocks. -/
  once : ∀ first again later, [first, again, later].Sublist items → closes request first →
    isAlloc again → carriesBlocks later = false

/-! ## Stretches of a segment -/

section Stretch

variable {config : SchedulerConfig} {request : Request}

/-- The chunks a view hands out along items. -/
abbrev stream (config : SchedulerConfig) (view : SaveView) (items : List SaveItem) :
    List SavedChunk :=
  Run.observe (SaveView.step config) (SaveView.chunks config) view items

theorem stream_alloc (view : SaveView) (allocated : Request) (now : ℚ)
    (items : List SaveItem) :
    stream config view (.alloc allocated now :: items) =
      stream config (view.alloc config allocated now) items :=
  Run.observe_cons rfl

theorem stream_entry (view : SaveView) (scheduled : ScheduledReq) (items : List SaveItem) :
    stream config view (.entry scheduled :: items) =
      (view.emit config scheduled).toList ++
        stream config (view.advance config scheduled) items :=
  Run.observe_cons rfl

/-- While the prompt is open the view keeps saving, and the labels count on from its counter. -/
theorem stream_open (overlap : config.chunkOverlapEnabled) (host : config.useHostBuffer)
    (decode : request.kvTransferParams.doRemoteDecode) {items : List SaveItem}
    (segment : ∀ item ∈ items, InSegment request item)
    (isOpen : ∀ item ∈ items, closes request item = false)
    {view : SaveView} (saving : view.saving = some request) :
    ∃ final, Run.exec (SaveView.step config) view items = .ok final ∧
      final.saving = some request ∧
      final.counter.getD 0 = view.counter.getD 0 + items.countP carriesBlocks ∧
      (stream config view items).map SavedChunk.chunkIdx =
        (List.range' (view.counter.getD 0) (items.countP carriesBlocks)).map some ∧
      ∀ chunk ∈ stream config view items, chunk.isLast = some false := by
  induction items generalizing view with
  | nil => exact ⟨view, rfl, saving, by simp⟩
  | cons item items ih =>
      obtain ⟨here, laterSegment⟩ := List.forall_mem_cons.mp segment
      obtain ⟨unclosed, laterOpen⟩ := List.forall_mem_cons.mp isOpen
      cases item with
      | finish finished status => exact here.elim
      | alloc allocated now =>
          obtain rfl : allocated = request := here
          have again : (view.alloc config allocated now).saving = some allocated := by
            simp [SaveView.alloc, decode, host]
          have kept : (view.alloc config allocated now).counter = view.counter := by
            simp [SaveView.alloc, decode]
          obtain ⟨final, taken, stillSaving, count, labels, notLast⟩ :=
            ih laterSegment laterOpen again
          rw [stream_alloc]
          refine ⟨final, taken, stillSaving, ?_, ?_, notLast⟩
          · simpa [kept, carriesBlocks] using count
          · simpa [kept, carriesBlocks] using labels
      | entry scheduled =>
          have advanced : Run.exec (SaveView.step config) view (.entry scheduled :: items) =
              Run.exec (SaveView.step config) (view.advance config scheduled) items :=
            Run.exec_cons rfl
          rw [stream_entry, advanced]
          cases blocks : scheduled.newBlockIds with
          | none =>
              have same : view.advance config scheduled = view := by
                simp [SaveView.advance, saving, blocks]
              obtain ⟨final, taken, stillSaving, count, labels, notLast⟩ :=
                ih laterSegment laterOpen saving
              rw [same]
              exact ⟨final, taken, stillSaving, by simpa [carriesBlocks, blocks] using count,
                by simpa [SaveView.emit, saving, carriesBlocks, blocks] using labels,
                by simpa [SaveView.emit, saving, blocks] using notLast⟩
          | some blockIds =>
              have remains : isPartial request scheduled = true := by
                simpa [closes, carriesBlocks, completes, blocks] using unclosed
              have moved : (view.advance config scheduled).saving = some request := by
                simp [SaveView.advance, saving, blocks, remains]
              have counted : (view.advance config scheduled).counter =
                  some (view.counter.getD 0 + 1) := by
                simp [SaveView.advance, saving, blocks, remains, overlap]
              obtain ⟨final, taken, stillSaving, count, labels, notLast⟩ :=
                ih laterSegment laterOpen moved
              refine ⟨final, taken, stillSaving, ?_, ?_, ?_⟩
              · rw [count, counted]
                simp [carriesBlocks, blocks]
                omega
              · rw [List.map_append, labels, counted]
                simp [SaveView.emit, saving, carriesBlocks, blocks, overlap, List.range'_succ]
              · simpa [SaveView.emit, saving, blocks, overlap, remains] using notLast

/-- A saving view hands something out exactly when some entry carries blocks. -/
theorem stream_eq_nil_of_saving (host : config.useHostBuffer)
    (decode : request.kvTransferParams.doRemoteDecode) {items : List SaveItem}
    (segment : ∀ item ∈ items, InSegment request item) {view : SaveView}
    (saving : view.saving = some request) :
    stream config view items = [] ↔ ∀ item ∈ items, carriesBlocks item = false := by
  induction items generalizing view with
  | nil => simp
  | cons item items ih =>
      obtain ⟨here, laterSegment⟩ := List.forall_mem_cons.mp segment
      cases item with
      | finish finished status => exact here.elim
      | alloc allocated now =>
          obtain rfl : allocated = request := here
          have again : (view.alloc config allocated now).saving = some allocated := by
            simp [SaveView.alloc, decode, host]
          rw [stream_alloc, ih laterSegment again]
          simp [carriesBlocks]
      | entry scheduled =>
          rw [stream_entry]
          cases blocks : scheduled.newBlockIds with
          | none =>
              have same : view.advance config scheduled = view := by
                simp [SaveView.advance, saving, blocks]
              rw [same, List.append_eq_nil_iff, ih laterSegment saving]
              simp [SaveView.emit, saving, carriesBlocks, blocks]
          | some blockIds =>
              simp [SaveView.emit, saving, carriesBlocks, blocks]

/-- A view that stopped saving hands something out exactly when an allocation is followed by an
entry with blocks. -/
theorem stream_eq_nil_of_retired (host : config.useHostBuffer)
    (decode : request.kvTransferParams.doRemoteDecode) {items : List SaveItem}
    (segment : ∀ item ∈ items, InSegment request item) {view : SaveView}
    (retired : view.saving = none) :
    stream config view items = [] ↔
      ∀ again later, [again, later].Sublist items → isAlloc again →
        carriesBlocks later = false := by
  induction items generalizing view with
  | nil => simp
  | cons item items ih =>
      obtain ⟨here, laterSegment⟩ := List.forall_mem_cons.mp segment
      cases item with
      | finish finished status => exact here.elim
      | alloc allocated now =>
          obtain rfl : allocated = request := here
          have saving : (view.alloc config allocated now).saving = some allocated := by
            simp [SaveView.alloc, decode, host]
          rw [stream_alloc, stream_eq_nil_of_saving host decode laterSegment saving]
          constructor
          · intro noBlocks again later ordered _
            cases ordered with
            | cons _ inside => exact noBlocks later (inside.subset (by simp))
            | cons_cons _ inside => exact noBlocks later (inside.subset (by simp))
          · intro ordered item member
            exact ordered (.alloc allocated now) item
              (List.Sublist.cons_cons _ (List.singleton_sublist.mpr member)) rfl
      | entry scheduled =>
          have same : view.advance config scheduled = view := by
            simp [SaveView.advance, retired]
          rw [stream_entry, same]
          have silent : (view.emit config scheduled).toList = [] := by
            simp [SaveView.emit, retired]
          rw [silent, List.nil_append, ih laterSegment retired]
          constructor
          · intro ordered again later inside allocated
            cases inside with
            | cons _ deeper => exact ordered again later deeper allocated
            | cons_cons _ _ => cases allocated
          · intro ordered again later inside
            exact ordered again later (inside.cons _)

/-- Without a closing entry the stream is the open stretch. -/
theorem completeStream_of_open (overlap : config.chunkOverlapEnabled)
    (host : config.useHostBuffer) (decode : request.kvTransferParams.doRemoteDecode)
    {items : List SaveItem} (segment : ∀ item ∈ items, InSegment request item)
    (isOpen : ∀ item ∈ items, closes request item = false)
    {view : SaveView} (saving : view.saving = some request) :
    CompleteStream (PromptScheduled request items) (stream config view items) ↔
      StreamCondition request items (view.counter.getD 0) := by
  obtain ⟨_, _, _, _, labels, notLast⟩ :=
    stream_open overlap host decode segment isOpen saving
  have length : (stream config view items).length = items.countP carriesBlocks := by
    simpa using congrArg List.length labels
  have noneClosed : ¬∃ item ∈ items, closes request item := by
    rintro ⟨item, member, closed⟩
    simp [isOpen item member] at closed
  constructor
  · rintro ⟨gapless, last_of_whole, _⟩
    refine ⟨?_, ?_, ?_⟩
    · rw [labels, length] at gapless
      have starts := List.map_injective_iff.mpr (Option.some_injective ℕ) gapless
      rw [List.range_eq_range', List.range'_inj] at starts
      rcases starts.2 with noBlocks | zero
      · exact Or.inr (by simpa [List.countP_eq_zero] using noBlocks)
      · exact Or.inl zero
    · intro whole
      obtain ⟨front, final, shape, isLast, _⟩ := last_of_whole whole
      have partially := notLast final (by simp [shape])
      simp [isLast] at partially
    · intro first again later ordered closed
      exact absurd ⟨first, ordered.subset (by simp), closed⟩ noneClosed
  · rintro ⟨fresh, closed, _⟩
    refine ⟨?_, fun whole => absurd (closed whole) noneClosed, fun _ => notLast⟩
    rw [labels, length, List.range_eq_range']
    rcases fresh with zero | noBlocks
    · rw [zero]
    · rw [List.countP_eq_zero.mpr (by simpa using noBlocks)]
      rfl

/-- With a closing entry the stream is the open stretch up to it, the final label, and whatever
the rest of the segment still hands out. -/
theorem completeStream_of_closed (overlap : config.chunkOverlapEnabled)
    (host : config.useHostBuffer) (decode : request.kvTransferParams.doRemoteDecode)
    {front back : List SaveItem} {closing : SaveItem}
    (segment : ∀ item ∈ front ++ closing :: back, InSegment request item)
    (isOpen : ∀ item ∈ front, closes request item = false)
    (closed : closes request closing) {view : SaveView} (saving : view.saving = some request) :
    CompleteStream (PromptScheduled request (front ++ closing :: back))
        (stream config view (front ++ closing :: back)) ↔
      StreamCondition request (front ++ closing :: back) (view.counter.getD 0) := by
  have frontSegment : ∀ item ∈ front, InSegment request item := fun item member =>
    segment item (List.mem_append_left _ member)
  have backSegment : ∀ item ∈ back, InSegment request item := fun item member =>
    segment item (List.mem_append_right front (List.mem_cons_of_mem closing member))
  obtain ⟨middle, taken, stillSaving, counted, labels, notLast⟩ :=
    stream_open overlap host decode frontSegment isOpen saving
  have whole : PromptScheduled request (front ++ closing :: back) := by
    rw [closes, Bool.and_eq_true] at closed
    exact ⟨closing, by simp, closed.2⟩
  cases closing with
  | alloc _ _ => simp [closes, carriesBlocks] at closed
  | finish _ _ => simp [closes, carriesBlocks] at closed
  | entry scheduled =>
      simp only [closes, carriesBlocks, completes, Bool.and_eq_true, Bool.not_eq_true'] at closed
      obtain ⟨carries, completed⟩ := closed
      obtain ⟨blockIds, blocks⟩ := Option.isSome_iff_exists.mp carries
      have retired : (middle.advance config scheduled).saving = none := by
        simp [SaveView.advance, stillSaving, blocks, completed]
      let final : SavedChunk :=
        { saved := NixlConnectorMetadata.addNewReq blockIds request.kvTransferParams
          chunkIdx := some (view.counter.getD 0 + front.countP carriesBlocks)
          isLast := some true }
      have emitted : middle.emit config scheduled = some final := by
        simp [SaveView.emit, stillSaving, blocks, overlap, completed, counted, final]
      let rest := stream config (middle.advance config scheduled) back
      have shape : stream config view (front ++ .entry scheduled :: back) =
          stream config view front ++ final :: rest := by
        rw [stream, Run.observe_append taken]
        rw [show Run.observe (SaveView.step config) (SaveView.chunks config) middle
            (.entry scheduled :: back) = (middle.emit config scheduled).toList ++ rest from
          stream_entry middle scheduled back, emitted]
        rfl
      have length : (stream config view front).length = front.countP carriesBlocks := by
        simpa using congrArg List.length labels
      have restNil : rest = [] ↔ ∀ again later, [again, later].Sublist back → isAlloc again →
          carriesBlocks later = false :=
        stream_eq_nil_of_retired host decode backSegment retired
      rw [shape]
      constructor
      · rintro ⟨gapless, last_of_whole, _⟩
        obtain ⟨before, last, split, _, beforeOpen⟩ := last_of_whole whole
        have restEmpty : rest = [] := by
          by_contra nonempty
          obtain ⟨others, other, restShape⟩ := List.eq_nil_or_concat rest |>.resolve_left nonempty
          rw [restShape, List.concat_eq_append, ← List.cons_append, ← List.append_assoc] at split
          have fronts := (List.append_inj' split rfl).1
          have partially := beforeOpen final (by simp [← fronts])
          simp [final] at partially
        refine ⟨Or.inl ?_, fun _ => ⟨.entry scheduled, by simp, ?_⟩, ?_⟩
        · rw [restEmpty, List.map_append, labels] at gapless
          have heads := congrArg List.head? gapless
          cases blocksBefore : front.countP carriesBlocks with
          | zero => simpa [blocksBefore, length, final, List.range_succ] using heads
          | succ count =>
              simpa [blocksBefore, length, final, List.range'_succ, List.range_succ_eq_map]
                using heads
        · simp [closes, carriesBlocks, completes, blocks, completed]
        · intro first again later ordered firstClosed allocated
          have inBack : [again, later].Sublist back := by
            rcases List.sublist_append_iff.mp ordered with ⟨inFront, inside, parts, left, right⟩
            cases inFront with
            | nil =>
                rw [List.nil_append] at parts
                subst parts
                cases right with
                | cons _ deeper => exact (List.sublist_cons_self _ _).trans deeper
                | cons_cons _ deeper => exact deeper
            | cons head tail =>
                have same : first = head := by simpa using congrArg List.head? parts
                have opened := isOpen head (left.subset List.mem_cons_self)
                rw [← same, firstClosed] at opened
                cases opened
          exact restNil.mp restEmpty again later inBack allocated
      · rintro ⟨fresh, _, once⟩
        have zero : view.counter.getD 0 = 0 := by
          rcases fresh with zero | noBlocks
          · exact zero
          · have blocked := noBlocks (.entry scheduled) (by simp)
            simp [carriesBlocks, blocks] at blocked
        have restEmpty : rest = [] := by
          apply restNil.mpr
          intro again later ordered allocated
          refine once (.entry scheduled) again later ?_ ?_ allocated
          · exact (List.Sublist.cons_cons _ ordered).trans (List.sublist_append_right front _)
          · simp [closes, carriesBlocks, completes, blocks, completed]
        rw [restEmpty]
        refine ⟨?_, fun _ => ⟨stream config view front, final, rfl, rfl, notLast⟩,
          fun partially => absurd whole partially⟩
        rw [List.map_append, labels, zero, List.length_append, length]
        simp [final, zero, List.range_succ, List.range_eq_range']

/-- Along a segment the stream is complete exactly under the condition. -/
theorem completeStream_iff (overlap : config.chunkOverlapEnabled)
    (host : config.useHostBuffer) (decode : request.kvTransferParams.doRemoteDecode)
    {items : List SaveItem} (segment : ∀ item ∈ items, InSegment request item)
    {view : SaveView} (saving : view.saving = some request) :
    CompleteStream (PromptScheduled request items) (stream config view items) ↔
      StreamCondition request items (view.counter.getD 0) := by
  by_cases isOpen : ∀ item ∈ items, closes request item = false
  · exact completeStream_of_open overlap host decode segment isOpen saving
  · push Not at isOpen
    -- split at the first closing entry
    obtain ⟨front, closing, back, rfl, before, closed⟩ :
        ∃ front closing back, items = front ++ closing :: back ∧
          (∀ item ∈ front, closes request item = false) ∧ closes request closing := by
      obtain ⟨item, member, closed⟩ := isOpen
      obtain ⟨closing, front, back, before, holds, shape, _⟩ :=
        List.exists_of_eraseP member (by simpa using closed)
      exact ⟨front, closing, back, shape, by simpa using before, holds⟩
    exact completeStream_of_closed overlap host decode segment before closed saving

end Stretch

/-! ## Runs of the scheduler -/

/-- The items of a request in a run. -/
def itemsOf (request : Request) (events : List SchedulerEvent) : List SaveItem :=
  events.flatMap (SchedulerEvent.items request.requestId)

/-- The chunks of a request handed to the workers in a run. -/
def chunksIn (config : SchedulerConfig) (request : Request) (scheduler : NixlConnectorScheduler)
    (events : List SchedulerEvent) : List SavedChunk :=
  Run.observe (NixlConnectorScheduler.step config)
    (NixlConnectorScheduler.chunksOf config request.requestId) scheduler events

/-- **Chunk labels.**  In every run from the allocation of a request up to its finish, whatever
happened before and whatever else is scheduled, the labels form a complete stream exactly when
the id starts without a leftover count, a step at or after the end of the prompt carries new
blocks, and nothing is saved after that step. -/
theorem chunk_labels_complete_iff {config : SchedulerConfig}
    (overlap : config.chunkOverlapEnabled) (host : config.useHostBuffer)
    {request after : Request} (decode : request.kvTransferParams.doRemoteDecode)
    {scheduler start final : NixlConnectorScheduler} {unhashedBlockIds : List ℕ}
    {numExternalTokens : ℕ} {now : ℚ}
    (allocated : scheduler.updateStateAfterAlloc config request unhashedBlockIds
      numExternalTokens now = .ok (start, after))
    {events : List SchedulerEvent}
    (segment : ∀ item ∈ itemsOf request events, InSegment request item)
    (taken : Run.exec (NixlConnectorScheduler.step config) start events = .ok final) :
    CompleteStream (PromptScheduled request (itemsOf request events))
        (chunksIn config request start events) ↔
      StreamCondition request (itemsOf request events)
        ((scheduler.saveChunkCounter.lookup request.requestId).getD 0) := by
  have view := NixlConnectorScheduler.saveView_alloc allocated request.requestId
  rw [if_pos rfl] at view
  have saving : (start.saveView request.requestId).saving = some request := by
    simp [view, SaveView.alloc, decode, host]
  have counter : (start.saveView request.requestId).counter =
      scheduler.saveChunkCounter.lookup request.requestId := by
    rw [view]
    simp [SaveView.alloc, decode]
    rfl
  have projected := (saveView_exec taken request.requestId).2
  rw [chunksIn, projected, ← counter]
  exact completeStream_iff overlap host decode segment saving

/-! ## Two incomplete streams -/

/-- Host buffers and chunk overlap on. -/
def overlapConfig : SchedulerConfig := .withDefaults true true

/-- A request with a prompt of four tokens. -/
def fourTokens : Request := .remoteDecode "cmpl-1" [11, 12, 13, 14]

/-- A step that schedules tokens of the request. -/
def stepOf (computed scheduled : ℕ) (newBlockIds : Option (List ℕ)) : SchedulerOutput :=
  .single
    { reqId := fourTokens.requestId
      newBlockIds
      numScheduledTokens := scheduled
      numComputedTokens := computed }

/-- Two chunks of two tokens in one block of four: the second chunk needs no new block. -/
def sharedBlockRun : List SchedulerEvent :=
  [.build (stepOf 0 2 (some [7])), .build (stepOf 2 2 none)]

/-- One chunk with the whole prompt. -/
def wholeChunkRun : List SchedulerEvent :=
  [.build (stepOf 0 4 (some [7]))]

/-- The id was used before, by a request aborted after its first chunk. -/
def abortedBefore : List SchedulerEvent :=
  [.alloc fourTokens [7] 0 0, .build (stepOf 0 2 (some [7])),
    .finish fourTokens .other [7] 1]

/-- One chunk a block: the stream is complete. -/
def blockwiseRun : List SchedulerEvent :=
  [.build (stepOf 0 2 (some [7])), .build (stepOf 2 2 (some [8]))]

theorem promptScheduled_of_stepOf {computed scheduled : ℕ} {newBlockIds : Option (List ℕ)}
    {events : List SchedulerEvent}
    (member : .build (stepOf computed scheduled newBlockIds) ∈ events)
    (whole : 4 ≤ computed + scheduled) :
    PromptScheduled fourTokens (itemsOf fourTokens events) := by
  refine ⟨.entry ⟨fourTokens.requestId, newBlockIds, scheduled, computed⟩, ?_, ?_⟩
  · refine List.mem_flatMap.mpr ⟨_, member, ?_⟩
    simp [SchedulerEvent.items, stepOf, SchedulerOutput.single, SchedulerOutput.scheduledFor]
  · have notPartial : ¬computed + scheduled < 4 := by omega
    simp [completes, isPartial, fourTokens, Request.remoteDecode, notPartial]

theorem chunk_labels_complete_blockwise :
    ∃ start after final,
      NixlConnectorScheduler.updateStateAfterAlloc overlapConfig .init fourTokens [7] 0 2 =
          .ok (start, after) ∧
        Run.exec (NixlConnectorScheduler.step overlapConfig) start blockwiseRun = .ok final ∧
        CompleteStream (PromptScheduled fourTokens (itemsOf fourTokens blockwiseRun))
          (chunksIn overlapConfig fourTokens start blockwiseRun) := by
  have items : itemsOf fourTokens blockwiseRun =
      [.entry ⟨"cmpl-1", some [7], 2, 0⟩, .entry ⟨"cmpl-1", some [8], 2, 2⟩] := rfl
  have segment : ∀ item ∈ itemsOf fourTokens blockwiseRun, InSegment fourTokens item := by
    simp [items, InSegment]
  have allocated : NixlConnectorScheduler.updateStateAfterAlloc overlapConfig .init fourTokens
      [7] 0 2 = .ok (_, _) := rfl
  refine ⟨_, _, _, allocated, rfl,
    (chunk_labels_complete_iff rfl rfl rfl allocated segment rfl).mpr
      ⟨Or.inl rfl, fun _ => ?_, ?_⟩⟩
  · exact ⟨.entry ⟨"cmpl-1", some [8], 2, 2⟩, by simp [items], by decide⟩
  · intro first again later ordered _ allocated
    have member := ordered.subset (show again ∈ [first, again, later] by simp)
    rw [items] at member
    rcases List.mem_pair.mp member with rfl | rfl <;> cases allocated

/-- With the whole prompt scheduled, a second chunk inside the block of the first leaves the
stream without a last flag, and an id used by an aborted request starts its labels at one. -/
theorem incomplete_streams :
    (∃ start, Run.exec (NixlConnectorScheduler.step overlapConfig) .init
          [.alloc fourTokens [7] 0 2] = .ok start ∧
        ¬CompleteStream (PromptScheduled fourTokens (itemsOf fourTokens sharedBlockRun))
          (chunksIn overlapConfig fourTokens start sharedBlockRun)) ∧
      ∃ start, Run.exec (NixlConnectorScheduler.step overlapConfig) .init
          (abortedBefore ++ [.alloc fourTokens [7] 0 2]) = .ok start ∧
        ¬CompleteStream (PromptScheduled fourTokens (itemsOf fourTokens wholeChunkRun))
          (chunksIn overlapConfig fourTokens start wholeChunkRun) := by
  constructor
  · refine ⟨_, rfl, fun complete => ?_⟩
    have whole : PromptScheduled fourTokens (itemsOf fourTokens sharedBlockRun) :=
      promptScheduled_of_stepOf (List.mem_cons_of_mem _ List.mem_cons_self) (by decide)
    obtain ⟨front, final, shape, isLast, _⟩ := complete.last_of_whole whole
    have flags := congrArg (List.map SavedChunk.isLast) shape
    rw [List.map_append, List.map_singleton, isLast] at flags
    have only : ([some false] : List (Option Bool)) = front.map SavedChunk.isLast ++ [some true] :=
      flags
    simpa using congrArg List.getLast? only
  · refine ⟨_, rfl, fun complete => ?_⟩
    have labels : ([some 1] : List (Option ℕ)) = [some 0] := complete.gapless
    simp at labels

end ChunkLabels

end RduHdi
