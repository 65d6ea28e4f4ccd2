import RduHdi.PyObj
import RduHdi.Run
import RduHdi.Strided

/-!
# The layout of the host buffers

A worker that transfers through host memory allocates a buffer for each layer, with the shape of
the device cache.  Where it takes a cache for token-major and is asked to permute, the buffer has
its heads outermost and is presented with the shape of the device all the same.  One label for all
layers goes into the metadata of the handshake.
-/

namespace RduHdi

abbrev LayerName := String

/-- The order of heads and tokens within a block, outermost first. -/
inductive KvLayout where
  | hnd
  | nhd
  deriving DecidableEq

/-- The other order. -/
def KvLayout.flip : KvLayout → KvLayout
  | hnd => nhd
  | nhd => hnd

structure KvTransferConfig where
  /-- The flag. -/
  enablePermuteLocalKv : Bool

/-- What `initialize_host_xfer_buffer` reads of the worker. -/
structure HostBufferWorker where
  /-- `use_mla`. -/
  useMla : Bool
  /-- The layout of the device caches. -/
  kvCacheLayout : KvLayout
  /-- The logical block size: the one of the kernel is adopted after the buffers are there. -/
  blockSize : ℕ
  /-- `kv_transfer_config`. -/
  kvTransferConfig : Option KvTransferConfig

/-- What `initialize_host_xfer_buffer` leaves. -/
structure HostBuffers where
  /-- The buffer of each layer. -/
  hostXferBuffers : Dict LayerName StridedView
  /-- The layout that is advertised. -/
  hostBufferKvCacheLayout : KvLayout

/-- `inv_order`. -/
def invOrder : List ℕ := [0, 1, 3, 2, 4]

namespace HostBufferWorker

variable (worker : HostBufferWorker)

/-- The label, unless the shape says that tokens come first. -/
def effectiveLayout (kvShape : List ℕ) : KvLayout :=
  if kvShape.length = 5 ∧ kvShape[2]? = some worker.blockSize ∧
      kvShape[3]? ≠ some worker.blockSize then
    .nhd
  else
    worker.kvCacheLayout

def enablePermuteLocalKv : Bool :=
  worker.kvTransferConfig.any KvTransferConfig.enablePermuteLocalKv

/-- The buffer of a layer is labelled as head-major. -/
def Permutes (kvShape : List ℕ) : Prop :=
  worker.effectiveLayout kvShape = .nhd ∧ worker.enablePermuteLocalKv

instance (kvShape : List ℕ) : Decidable (worker.Permutes kvShape) :=
  inferInstanceAs (Decidable (_ ∧ _))

/-- The buffer of a layer. -/
def hostBuffer (kvShape : List ℕ) : Except PyError StridedView :=
  if worker.Permutes kvShape ∧ ¬ worker.useMla then
    match List.pick invOrder kvShape with
    | none => .error .indexError
    | some permuted =>
        match (StridedView.rowMajor permuted).permute invOrder with
        | none => .error .runtimeError
        | some view => .ok view
  else
    .ok (.rowMajor kvShape)

/-- One turn of the loop over layers. -/
def initializeLayer (buffers : HostBuffers) (layer : Σ _ : LayerName, List ℕ) :
    Except PyError HostBuffers :=
  (worker.hostBuffer layer.2).map fun view =>
    { hostXferBuffers := buffers.hostXferBuffers.set layer.1 view
      hostBufferKvCacheLayout :=
        if worker.Permutes layer.2 then .hnd else buffers.hostBufferKvCacheLayout }

/-- `initialize_host_xfer_buffer`, of the shapes of the device caches. -/
def initializeHostXferBuffer (kvCaches : Dict LayerName (List ℕ)) : Except PyError HostBuffers :=
  Run.exec worker.initializeLayer ⟨∅, worker.kvCacheLayout⟩ kvCaches.entries

/-- The layout that `register_kv_caches` puts into the metadata of the handshake. -/
def advertisedLayout (useHostBuffer : Bool) (buffers : HostBuffers) : KvLayout :=
  if useHostBuffer then buffers.hostBufferKvCacheLayout else worker.kvCacheLayout

end HostBufferWorker

/-! ## Device caches -/

/-- A device cache of five dimensions, with what the dimensions are. -/
structure DeviceKvCache where
  /-- K and V. -/
  planes : ℕ
  /-- How many blocks it has. -/
  numBlocks : ℕ
  /-- How many heads a token has. -/
  numHeads : ℕ
  /-- The block size of the kernel. -/
  blockTokens : ℕ
  /-- The length of a head. -/
  headDim : ℕ
  /-- The order of the dimensions. -/
  layout : KvLayout

/-- An element of a cache. -/
structure KvElement where
  /-- K or V. -/
  plane : ℕ
  /-- The block. -/
  block : ℕ
  /-- The head. -/
  head : ℕ
  /-- The token in the block. -/
  token : ℕ
  /-- The place in the head. -/
  dim : ℕ

namespace DeviceKvCache

variable (cache : DeviceKvCache)

def shape : List ℕ :=
  match cache.layout with
  | .hnd => [cache.planes, cache.numBlocks, cache.numHeads, cache.blockTokens, cache.headDim]
  | .nhd => [cache.planes, cache.numBlocks, cache.blockTokens, cache.numHeads, cache.headDim]

/-- The index of an element. -/
def index (element : KvElement) : List ℕ :=
  match cache.layout with
  | .hnd => [element.plane, element.block, element.head, element.token, element.dim]
  | .nhd => [element.plane, element.block, element.token, element.head, element.dim]

/-- The element is one of the cache. -/
structure Has (element : KvElement) : Prop where
  /-- There is such a plane. -/
  plane : element.plane < cache.planes
  /-- There is such a block. -/
  block : element.block < cache.numBlocks
  /-- There is such a head. -/
  head : element.head < cache.numHeads
  /-- There is such a token. -/
  token : element.token < cache.blockTokens
  /-- There is such a place. -/
  dim : element.dim < cache.headDim

/-- Where an element is within its block. -/
def inBlock (element : KvElement) : KvLayout → ℕ
  | .hnd => (element.head * cache.blockTokens + element.token) * cache.headDim + element.dim
  | .nhd => (element.token * cache.numHeads + element.head) * cache.headDim + element.dim

/-- Where the block of an element starts. -/
def blockStart (element : KvElement) : ℕ :=
  (element.plane * cache.numBlocks + element.block) *
    (cache.numHeads * cache.blockTokens * cache.headDim)

/-- The bytes of every block are in the order of a layout. -/
def LaidOut (view : StridedView) (layout : KvLayout) : Prop :=
  ∀ element, cache.Has element →
    view.offset (cache.index element) = cache.blockStart element + cache.inBlock element layout

/-- The layouts are one: there is one head or one token, or nothing. -/
def Flat : Prop :=
  cache.numHeads ≤ 1 ∨ cache.blockTokens ≤ 1 ∨ cache.planes = 0 ∨ cache.numBlocks = 0 ∨
    cache.headDim = 0

/-! ## Where the elements are -/

variable {cache}

theorem inBlock_eq_of_flat (flat : cache.Flat) {element : KvElement} (has : cache.Has element) :
    cache.inBlock element .hnd = cache.inBlock element .nhd := by
  obtain ⟨plane, block, head, token, dim⟩ := has
  simp only [inBlock]
  rcases flat with one | one | none | none | none
  · obtain ⟨first, heads⟩ : element.head = 0 ∧ cache.numHeads = 1 := by omega
    rw [first, heads, Nat.zero_mul, Nat.zero_add, Nat.mul_one, Nat.add_zero]
  · obtain ⟨first, tokens⟩ : element.token = 0 ∧ cache.blockTokens = 1 := by omega
    rw [first, tokens, Nat.zero_mul, Nat.zero_add, Nat.mul_one, Nat.add_zero]
  · omega
  · omega
  · omega

theorem exists_inBlock_ne (notFlat : ¬ cache.Flat) :
    ∃ element, cache.Has element ∧ cache.inBlock element .hnd ≠ cache.inBlock element .nhd := by
  simp only [Flat, not_or, not_le] at notFlat
  obtain ⟨heads, tokens, planes, blocks, dims⟩ := notFlat
  refine ⟨⟨0, 0, 1, 0, 0⟩, ⟨?_, ?_, heads, ?_, ?_⟩, ?_⟩
  · exact Nat.pos_of_ne_zero planes
  · exact Nat.pos_of_ne_zero blocks
  · exact Nat.lt_trans Nat.zero_lt_one tokens
  · exact Nat.pos_of_ne_zero dims
  · have farther : 1 * cache.headDim < cache.blockTokens * cache.headDim :=
      Nat.mul_lt_mul_of_pos_right tokens (Nat.pos_of_ne_zero dims)
    simp only [inBlock, Nat.one_mul, Nat.zero_mul, Nat.add_zero, Nat.zero_add] at farther ⊢
    omega

/-- A view is in one layout only, unless the layouts are one. -/
theorem LaidOut.iff {view : StridedView} {physical layout : KvLayout}
    (laid : cache.LaidOut view physical) :
    cache.LaidOut view layout ↔ cache.Flat ∨ physical = layout := by
  constructor
  · intro claimed
    rw [or_iff_not_imp_left]
    intro notFlat
    obtain ⟨element, has, different⟩ := exists_inBlock_ne notFlat
    have same : cache.inBlock element physical = cache.inBlock element layout :=
      Nat.add_left_cancel ((laid element has).symm.trans (claimed element has))
    cases physical with
    | hnd =>
        cases layout with
        | hnd => rfl
        | nhd => exact absurd same different
    | nhd =>
        cases layout with
        | hnd => exact absurd same.symm different
        | nhd => rfl
  · rintro (flat | rfl)
    · intro element has
      have same := inBlock_eq_of_flat flat has
      rw [laid element has]
      cases physical with
      | hnd =>
          cases layout with
          | hnd => rfl
          | nhd => rw [same]
      | nhd =>
          cases layout with
          | hnd => rw [same]
          | nhd => rfl
    · exact laid

theorem offset_rowMajor_five (planes blocks outer inner dims plane block first second dim : ℕ) :
    (StridedView.rowMajor [planes, blocks, outer, inner, dims]).offset
        [plane, block, first, second, dim] =
      (plane * blocks + block) * (outer * inner * dims) +
        ((first * inner + second) * dims + dim) := by
  simp only [StridedView.offset_rowMajor_cons, StridedView.offset_rowMajor_nil, List.prod_cons,
    List.prod_nil]
  ring

theorem laidOut_rowMajor (cache : DeviceKvCache) :
    cache.LaidOut (.rowMajor cache.shape) cache.layout := by
  intro element has
  obtain ⟨planes, blocks, heads, tokens, dims, layout⟩ := cache
  cases layout with
  | hnd => exact offset_rowMajor_five _ _ _ _ _ _ _ _ _ _
  | nhd =>
      refine (offset_rowMajor_five _ _ _ _ _ _ _ _ _ _).trans ?_
      rw [blockStart, inBlock, Nat.mul_comm tokens heads]

/-- A buffer that is allocated with its third and fourth dimension swapped and presented without
the swap has the third dimension inside the fourth. -/
theorem exists_swapped (planes blocks outer inner dims : ℕ) :
    ∃ view, (StridedView.rowMajor [planes, blocks, inner, outer, dims]).permute invOrder =
        some view ∧ view.shape = [planes, blocks, outer, inner, dims] ∧
      ∀ plane block first second dim, view.offset [plane, block, first, second, dim] =
        (plane * blocks + block) * (inner * outer * dims) +
          ((second * outer + first) * dims + dim) := by
  have whole : invOrder.Perm (List.range 5) := by decide
  have taken : (StridedView.rowMajor [planes, blocks, inner, outer, dims]).permute invOrder =
      some _ := StridedView.permute_of_pick whole rfl rfl
  refine ⟨_, taken, rfl, fun plane block first second dim => ?_⟩
  have picked : List.pick invOrder [plane, block, second, first, dim] =
      some [plane, block, first, second, dim] := rfl
  rw [StridedView.offset_permute taken picked rfl rfl, offset_rowMajor_five]

/-- A buffer that is allocated with heads and tokens swapped, and presented like the device cache,
has the other layout. -/
theorem exists_permuted (cache : DeviceKvCache) :
    ∃ permuted view, List.pick invOrder cache.shape = some permuted ∧
      (StridedView.rowMajor permuted).permute invOrder = some view ∧ view.shape = cache.shape ∧
      cache.LaidOut view cache.layout.flip := by
  obtain ⟨planes, blocks, heads, tokens, dims, layout⟩ := cache
  cases layout with
  | hnd =>
      obtain ⟨view, taken, shape, offset⟩ := exists_swapped planes blocks heads tokens dims
      refine ⟨_, view, rfl, taken, shape, fun element _ => ?_⟩
      refine (offset _ _ _ _ _).trans ?_
      rw [blockStart, KvLayout.flip, inBlock, Nat.mul_comm tokens heads]
  | nhd =>
      obtain ⟨view, taken, shape, offset⟩ := exists_swapped planes blocks tokens heads dims
      refine ⟨_, view, rfl, taken, shape, fun element _ => ?_⟩
      exact offset _ _ _ _ _

end DeviceKvCache

namespace HostBufferWorker

variable {worker : HostBufferWorker}

/-! ## The loop over layers -/

/-- The buffer of a layer, where it can be allocated. -/
def bufferView (worker : HostBufferWorker) (kvShape : List ℕ) : StridedView :=
  (worker.hostBuffer kvShape).toOption.getD (.rowMajor kvShape)

/-- The layout of a buffer. -/
def physicalLayout (worker : HostBufferWorker) (cache : DeviceKvCache) : KvLayout :=
  if worker.Permutes cache.shape then cache.layout.flip else cache.layout

theorem hostBuffer_spec (nonMla : worker.useMla = false) (cache : DeviceKvCache) :
    worker.hostBuffer cache.shape = .ok (worker.bufferView cache.shape) ∧
      (worker.bufferView cache.shape).shape = cache.shape ∧
      cache.LaidOut (worker.bufferView cache.shape) (worker.physicalLayout cache) := by
  rw [bufferView, hostBuffer, physicalLayout]
  by_cases permutes : worker.Permutes cache.shape
  · obtain ⟨permuted, view, picked, taken, shape, laid⟩ := DeviceKvCache.exists_permuted cache
    rw [if_pos ⟨permutes, by simp [nonMla]⟩, if_pos permutes, picked]
    simp only [taken]
    exact ⟨rfl, shape, laid⟩
  · rw [if_neg fun both => permutes both.1, if_neg permutes]
    exact ⟨rfl, rfl, DeviceKvCache.laidOut_rowMajor cache⟩

/-- The label after the layers: one that permutes sets it for all. -/
theorem exec_initializeLayer {layers : List (Σ _ : LayerName, List ℕ)}
    (allocated : ∀ layer ∈ layers,
      worker.hostBuffer layer.2 = .ok (worker.bufferView layer.2)) (buffers : HostBuffers) :
    Run.exec worker.initializeLayer buffers layers =
      .ok
        { hostXferBuffers :=
            layers.foldl (fun views layer => views.set layer.1 (worker.bufferView layer.2))
              buffers.hostXferBuffers
          hostBufferKvCacheLayout :=
            if layers.any fun layer => worker.Permutes layer.2 then .hnd
            else buffers.hostBufferKvCacheLayout } := by
  induction layers generalizing buffers with
  | nil => simp
  | cons layer layers ih =>
      have first : worker.initializeLayer buffers layer =
          .ok
            { hostXferBuffers :=
                buffers.hostXferBuffers.set layer.1 (worker.bufferView layer.2)
              hostBufferKvCacheLayout :=
                if worker.Permutes layer.2 then .hnd else buffers.hostBufferKvCacheLayout } := by
        rw [initializeLayer, allocated layer List.mem_cons_self]
        rfl
      rw [Run.exec_cons first, ih fun other member => allocated other (.tail _ member)]
      rw [List.foldl_cons, List.any_cons]
      by_cases here : worker.Permutes layer.2
      · rw [if_pos here, decide_eq_true here, Bool.true_or, if_pos rfl, ite_self]
      · rw [if_neg here, decide_eq_false here, Bool.false_or]

/-- The label of the buffers. -/
def bufferLabel (worker : HostBufferWorker) (kvCaches : Dict LayerName (List ℕ)) : KvLayout :=
  if kvCaches.entries.any fun layer => worker.Permutes layer.2 then .hnd
  else worker.kvCacheLayout

theorem initializeHostXferBuffer_eq (nonMla : worker.useMla = false)
    (caches : Dict LayerName DeviceKvCache) :
    worker.initializeHostXferBuffer (caches.mapValues DeviceKvCache.shape) =
      .ok
        { hostXferBuffers :=
            AList.update ∅ (caches.mapValues fun cache => worker.bufferView cache.shape)
          hostBufferKvCacheLayout :=
            worker.bufferLabel (caches.mapValues DeviceKvCache.shape) } := by
  rw [initializeHostXferBuffer, exec_initializeLayer]
  · rw [AList.update, AList.mapValues, AList.mapValues, List.foldl_map, List.foldl_map]
    rfl
  · intro layer member
    obtain ⟨entry, _, rfl⟩ := List.mem_map.mp member
    exact (hostBuffer_spec nonMla entry.2).1

/-! ## The label and the layouts -/

/-- The label says what the cache is, or the shape says that it is token-major and the buffers are
permuted. -/
def Recognizes (worker : HostBufferWorker) (cache : DeviceKvCache) : Prop :=
  match cache.layout with
  | .nhd => worker.kvCacheLayout = .nhd ∨ worker.enablePermuteLocalKv ∧
      cache.blockTokens = worker.blockSize ∧ cache.numHeads ≠ worker.blockSize
  | .hnd => worker.kvCacheLayout = .hnd ∧ ¬ (worker.enablePermuteLocalKv ∧
      cache.numHeads = worker.blockSize ∧ cache.blockTokens ≠ worker.blockSize)

theorem effectiveLayout_five (planes blocks outer inner dims : ℕ) :
    worker.effectiveLayout [planes, blocks, outer, inner, dims] =
      if outer = worker.blockSize ∧ inner ≠ worker.blockSize then .nhd
      else worker.kvCacheLayout := by
  simp [effectiveLayout]

/-- Where buffers are permuted, a cache is recognized when its effective layout is its layout. -/
theorem recognizes_iff (cache : DeviceKvCache) :
    worker.Recognizes cache ↔
      (if worker.enablePermuteLocalKv then worker.effectiveLayout cache.shape
        else worker.kvCacheLayout) = cache.layout := by
  obtain ⟨planes, blocks, heads, tokens, dims, layout⟩ := cache
  by_cases permute : worker.enablePermuteLocalKv
  · rw [if_pos permute]
    cases layout with
    | hnd =>
        simp only [Recognizes, DeviceKvCache.shape, effectiveLayout_five, permute, true_and]
        split
        · rename_i detected
          simp [detected]
        · rename_i undetected
          exact and_iff_left undetected
    | nhd =>
        simp only [Recognizes, DeviceKvCache.shape, effectiveLayout_five, permute, true_and]
        split
        · rename_i detected
          simp [detected]
        · rename_i undetected
          exact or_iff_left undetected
  · rw [if_neg permute]
    cases layout with
    | hnd => simp [Recognizes, permute]
    | nhd => simp [Recognizes, permute]

theorem permutes_iff_of_enabled (permute : worker.enablePermuteLocalKv) (kvShape : List ℕ) :
    worker.Permutes kvShape ↔ worker.effectiveLayout kvShape = .nhd :=
  and_iff_left permute

/-- The label is the layout of a buffer exactly when the cache was recognized. -/
theorem physicalLayout_eq_bufferLabel_iff {caches : Dict LayerName DeviceKvCache}
    {name : LayerName} {cache : DeviceKvCache} (known : caches.lookup name = some cache) :
    worker.physicalLayout cache = worker.bufferLabel (caches.mapValues DeviceKvCache.shape) ↔
      worker.Recognizes cache := by
  have entry : (⟨name, cache.shape⟩ : Σ _ : LayerName, List ℕ) ∈
      (caches.mapValues DeviceKvCache.shape).entries :=
    List.mem_map.mpr ⟨⟨name, cache⟩, AList.mem_lookup_iff.mp known, rfl⟩
  rw [recognizes_iff, physicalLayout, bufferLabel]
  by_cases permute : worker.enablePermuteLocalKv
  · -- The layer is there: either it permutes, or its effective layout is the label, head-major.
    have label : (if (caches.mapValues DeviceKvCache.shape).entries.any
        fun layer => worker.Permutes layer.2 then KvLayout.hnd else worker.kvCacheLayout) =
          .hnd := by
      split
      · rfl
      · rename_i none_permutes
        cases labelled : worker.kvCacheLayout with
        | hnd => rfl
        | nhd =>
            refine absurd (List.any_eq_true.mpr ⟨_, entry, decide_eq_true ?_⟩) none_permutes
            rw [permutes_iff_of_enabled permute, effectiveLayout, labelled]
            exact ite_self _
    rw [label, if_pos permute]
    by_cases here : worker.Permutes cache.shape
    · rw [if_pos here, (permutes_iff_of_enabled permute _).mp here]
      cases cache.layout with
      | hnd => decide
      | nhd => decide
    · rw [if_neg here]
      have effective : worker.effectiveLayout cache.shape = .hnd := by
        cases shown : worker.effectiveLayout cache.shape with
        | hnd => rfl
        | nhd => exact absurd ((permutes_iff_of_enabled permute _).mpr shown) here
      rw [effective]
      exact eq_comm
  · have never (kvShape : List ℕ) : ¬ worker.Permutes kvShape := fun both => permute both.2
    rw [if_neg (never _), if_neg permute, if_neg]
    · exact eq_comm
    · simp [never]

/-- Every buffer has the shape of the device cache, and the layout that is advertised. -/
def Advertises (worker : HostBufferWorker) (caches : Dict LayerName DeviceKvCache)
    (buffers : HostBuffers) : Prop :=
  ∀ name cache, caches.lookup name = some cache →
    ∃ view, buffers.hostXferBuffers.lookup name = some view ∧ view.shape = cache.shape ∧
      cache.LaidOut view (worker.advertisedLayout true buffers)

theorem laidOut_bufferLabel_iff (nonMla : worker.useMla = false)
    {caches : Dict LayerName DeviceKvCache} {name : LayerName} {cache : DeviceKvCache}
    (known : caches.lookup name = some cache) :
    cache.LaidOut (worker.bufferView cache.shape)
        (worker.bufferLabel (caches.mapValues DeviceKvCache.shape)) ↔
      cache.Flat ∨ worker.Recognizes cache := by
  rw [(hostBuffer_spec nonMla cache).2.2.iff, physicalLayout_eq_bufferLabel_iff known]

theorem lookup_bufferViews (worker : HostBufferWorker) (caches : Dict LayerName DeviceKvCache)
    (name : LayerName) :
    (AList.update ∅ (caches.mapValues fun cache => worker.bufferView cache.shape)).lookup name =
      (caches.lookup name).map fun cache => worker.bufferView cache.shape := by
  rw [AList.lookup_update, AList.lookup_mapValues, AList.lookup_empty, Option.or_none]

theorem recognized_of_advertises (nonMla : worker.useMla = false)
    {caches : Dict LayerName DeviceKvCache} {buffers : HostBuffers}
    (initialized : worker.initializeHostXferBuffer (caches.mapValues DeviceKvCache.shape) =
      .ok buffers) (advertises : worker.Advertises caches buffers) {name : LayerName}
    {cache : DeviceKvCache} (known : caches.lookup name = some cache) :
    cache.Flat ∨ worker.Recognizes cache := by
  rw [initializeHostXferBuffer_eq nonMla] at initialized
  cases initialized
  obtain ⟨view, found, _, laid⟩ := advertises name cache known
  rw [lookup_bufferViews, known] at found
  cases found
  exact (laidOut_bufferLabel_iff nonMla known).mp laid

/-- **The advertised layout.**  It is the one of every host buffer exactly when every cache that
has more than one head and token is recognized. -/
theorem advertises_iff (nonMla : worker.useMla = false) (caches : Dict LayerName DeviceKvCache) :
    (∃ buffers, worker.initializeHostXferBuffer (caches.mapValues DeviceKvCache.shape) =
        .ok buffers ∧ worker.Advertises caches buffers) ↔
      ∀ name cache, caches.lookup name = some cache → cache.Flat ∨ worker.Recognizes cache := by
  constructor
  · rintro ⟨buffers, initialized, advertises⟩ name cache known
    exact recognized_of_advertises nonMla initialized advertises known
  · intro recognized
    refine ⟨_, initializeHostXferBuffer_eq nonMla caches, fun name cache known => ⟨_, ?_,
      (hostBuffer_spec nonMla cache).2.1,
      (laidOut_bufferLabel_iff nonMla known).mpr (recognized name cache known)⟩⟩
    rw [lookup_bufferViews, known]
    rfl

/-! ## Caches that are not recognized -/

/-- A worker with a head-major label and blocks of 16 tokens. -/
def headMajorWorker (enablePermuteLocalKv : Bool) : HostBufferWorker where
  useMla := false
  kvCacheLayout := .hnd
  blockSize := 16
  kvTransferConfig := some ⟨enablePermuteLocalKv⟩

/-- A cache of 64 blocks, for K and V. -/
def deviceCache (layout : KvLayout) (numHeads blockTokens : ℕ) : DeviceKvCache where
  planes := 2
  numBlocks := 64
  numHeads
  blockTokens
  headDim := 128
  layout

/-- One layer. -/
def oneLayer (cache : DeviceKvCache) : Dict LayerName DeviceKvCache := AList.singleton "layer" cache

/-- A token-major and a head-major layer. -/
def twoLayers : Dict LayerName DeviceKvCache :=
  (oneLayer (deviceCache .nhd 8 16)).set "other" (deviceCache .hnd 8 16)

theorem advertises_iff_twoLayers :
    ∃ buffers, (headMajorWorker true).initializeHostXferBuffer
        (twoLayers.mapValues DeviceKvCache.shape) = .ok buffers ∧
      (headMajorWorker true).Advertises twoLayers buffers := by
  refine (advertises_iff rfl twoLayers).mpr fun name cache known => .inr ?_
  by_cases other : name = "other"
  · subst other
    rw [twoLayers, AList.lookup_set] at known
    cases known
    exact ⟨rfl, by decide⟩
  · rw [twoLayers, AList.lookup_set_ne other, oneLayer] at known
    have entry := AList.mem_lookup_iff.mp known
    rw [AList.singleton, List.mem_singleton] at entry
    cases entry
    exact .inr (by decide)

theorem recognized_of_oneLayer {permute : Bool} {cache : DeviceKvCache} {buffers : HostBuffers}
    (initialized : (headMajorWorker permute).initializeHostXferBuffer
      ((oneLayer cache).mapValues DeviceKvCache.shape) = .ok buffers)
    (advertises : (headMajorWorker permute).Advertises (oneLayer cache) buffers) :
    cache.Flat ∨ (headMajorWorker permute).Recognizes cache :=
  recognized_of_advertises rfl initialized advertises
    (AList.mem_lookup_iff.mpr (List.mem_singleton_self _))

instance (cache : DeviceKvCache) : Decidable cache.Flat :=
  inferInstanceAs (Decidable (_ ∨ _ ∨ _ ∨ _ ∨ _))

/-- The label stays head-major for a token-major buffer that is not permuted, for one whose kernel
has smaller blocks, and for a head-major buffer with as many heads as a block has tokens, which is
permuted. -/
theorem not_advertises :
    (¬ ∃ buffers, (headMajorWorker false).initializeHostXferBuffer
        ((oneLayer (deviceCache .nhd 8 16)).mapValues DeviceKvCache.shape) = .ok buffers ∧
      (headMajorWorker false).Advertises (oneLayer (deviceCache .nhd 8 16)) buffers) ∧
    (¬ ∃ buffers, (headMajorWorker true).initializeHostXferBuffer
        ((oneLayer (deviceCache .nhd 4 8)).mapValues DeviceKvCache.shape) = .ok buffers ∧
      (headMajorWorker true).Advertises (oneLayer (deviceCache .nhd 4 8)) buffers) ∧
    ¬ ∃ buffers, (headMajorWorker true).initializeHostXferBuffer
        ((oneLayer (deviceCache .hnd 16 8)).mapValues DeviceKvCache.shape) = .ok buffers ∧
      (headMajorWorker true).Advertises (oneLayer (deviceCache .hnd 16 8)) buffers := by
  refine ⟨?_, ?_, ?_⟩
  all_goals
    rintro ⟨buffers, initialized, advertises⟩
    have recognized := (recognized_of_oneLayer initialized advertises).resolve_left (by decide)
    simp [Recognizes, deviceCache, headMajorWorker, enablePermuteLocalKv] at recognized

end HostBufferWorker

end RduHdi
