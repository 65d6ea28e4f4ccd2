import RduHdi.Connector.ReceiveSteps

/-!
# Received blocks are converted once

A run calls, for every request that it reports, the kernel that the request needs on every layer
once, with the blocks of the request, and copies these blocks to the device before.
-/

namespace RduHdi

namespace ReceivingWorker

variable {ω : Type} {worker : ReceivingWorker ω} {loads : List (ReqId × ReqMeta)}
variable {receiving next : Receiving ω}

/-- What is collected of the requests that a call reports are the conversions that they need. -/
theorem Finishes.converts {layers : List (List KvTensor)} {done : List ReqId}
    {calls : List DeviceCall} (finishes : worker.Finishes layers receiving next done calls)
    (distinct : (loads.map Prod.fst).Nodup) {later : Handshakes ω}
    (settles : worker.handshakes.Settles receiving.tables later)
    (loaded : worker.AllLoaded loads receiving) (dataPtr : ℕ) :
    (calls.flatMap (DeviceCall.convertedAt dataPtr)).Perm
      ((done.flatMap (worker.conversions loads later
        receiving.tables.enablePermuteLocalKv)).flatMap
          (List.replicate (timesListed layers dataPtr))) := by
  have each : ∀ reqId ∈ done,
      ((worker.collects receiving.tables receiving.reading.recvingMetadata reqId).flatMap
        fun collected => List.replicate (timesListed layers dataPtr)
          (PostProcessKernel.select receiving.tables.enablePermuteLocalKv collected.1,
            collected.2)) =
      (worker.conversions loads later receiving.tables.enablePermuteLocalKv reqId).flatMap
        (List.replicate (timesListed layers dataPtr)) := by
    intro reqId member
    obtain ⟨blocks, ratio, isReceived, isProducer⟩ :=
      received_of_loaded distinct settles loaded (finishes.known reqId member)
    rw [collects, conversions, isReceived, isProducer, blocks]
    simp only [neededKernel_eq]
    by_cases needs : worker.NeedsConversion receiving.tables.enablePermuteLocalKv ratio
    · simp only [if_pos needs, Option.toList_some, List.map_singleton, List.flatMap_singleton]
    · simp only [if_neg needs, Option.toList_none, List.map_nil, List.flatMap_nil]
  have converted := finishes.converted dataPtr
  rwa [List.flatMap_assoc, List.flatMap_congr each, ← List.flatMap_assoc] at converted

/-- What happens on the device from a state on: the requests that are reported are copied, and
converted, first the ones before a permutation was asked for and then the others. -/
structure Converts (worker : ReceivingWorker ω) (layers : List (List KvTensor))
    (loads : List (ReqId × ReqMeta)) (receiving final : Receiving ω) (before after : List ReqId)
    (calls : List DeviceCall) : Prop where
  /-- The reports are these, in two parts. -/
  reported : final.log.reported = receiving.log.reported ++ (before ++ after)
  /-- After a permutation was asked for, there is no first part. -/
  asked : receiving.tables.enablePermuteLocalKv = true → before = []
  /-- The ratio of a reported request is known. -/
  known : ∀ reqId ∈ before ++ after, (worker.producerRatio loads final.tables reqId).isSome
  /-- What is converted at an address is what the requests need. -/
  converted : ∀ dataPtr, (calls.flatMap (DeviceCall.convertedAt dataPtr)).Perm
    ((before.flatMap (worker.conversions loads final.tables false) ++
      after.flatMap (worker.conversions loads final.tables true)).flatMap
        (List.replicate (timesListed layers dataPtr)))
  /-- Blocks in host memory are copied once. -/
  copied : worker.handshakes.useHostBuffer = true → (calls.flatMap DeviceCall.copied).Perm
    ((before ++ after).map (worker.deviceBlocks loads))
  /-- They are copied before they are converted. -/
  copiedFirst : worker.handshakes.useHostBuffer = true → CopiedFirst calls

namespace Converts

variable {layers : List (List KvTensor)} {middle final : Receiving ω} {before after : List ReqId}
  {calls : List DeviceCall}

theorem noneReceived (noneReceived : worker.NoneReceived loads receiving middle)
    (converts : worker.Converts layers loads middle final before after calls) :
    worker.Converts layers loads receiving final before after calls :=
  { converts with
    reported := by rw [converts.reported, noneReceived.reported]
    asked := fun asked => converts.asked (noneReceived.tables.permutes asked) }

theorem finishes {done : List ReqId} {first : List DeviceCall}
    (finishes : worker.Finishes layers receiving middle done first)
    (converts : worker.Converts layers loads middle final before after calls)
    (distinct : (loads.map Prod.fst).Nodup)
    (settles : worker.handshakes.Settles receiving.tables final.tables)
    (loaded : worker.AllLoaded loads receiving) :
    worker.Converts layers loads receiving final
      ((if receiving.tables.enablePermuteLocalKv = false then done else []) ++ before)
      ((if receiving.tables.enablePermuteLocalKv = true then done else []) ++ after)
      (first ++ calls) := by
  have here := finishes.converts distinct settles loaded
  have known : ∀ reqId ∈ done, (worker.producerRatio loads final.tables reqId).isSome := by
    intro reqId member
    obtain ⟨_, ratio, _, isProducer⟩ :=
      received_of_loaded distinct settles loaded (finishes.known reqId member)
    rw [isProducer]
    rfl
  have blocks : ∀ reqId ∈ done, receivedBlocks receiving.reading.recvingMetadata reqId =
      worker.deviceBlocks loads reqId := fun reqId member =>
    (received_of_loaded distinct settles loaded (finishes.known reqId member)).1
  have copied (host : worker.handshakes.useHostBuffer = true) :
      ((first ++ calls).flatMap DeviceCall.copied).Perm
        ((done ++ (before ++ after)).map (worker.deviceBlocks loads)) := by
    rw [List.flatMap_append, List.map_append, ← List.map_congr_left blocks]
    exact (finishes.copied host).append (converts.copied host)
  have copiedFirst (host : worker.handshakes.useHostBuffer = true) :=
    (finishes.copiedFirst host).append (converts.copiedFirst host)
  have reported : final.log.reported = receiving.log.reported ++ (done ++ (before ++ after)) := by
    rw [converts.reported, finishes.reported, List.append_assoc]
  cases asked : receiving.tables.enablePermuteLocalKv with
  | false =>
      rw [asked] at here
      rw [if_pos rfl, if_neg Bool.false_ne_true, List.nil_append]
      exact
        { reported := by rw [reported, List.append_assoc]
          asked := fun isAsked => by cases asked.symm.trans isAsked
          known := by
            rw [List.append_assoc, List.forall_mem_append]
            exact ⟨known, converts.known⟩
          converted := fun dataPtr => by
            have whole := (here dataPtr).append (converts.converted dataPtr)
            simpa only [List.flatMap_append, List.append_assoc] using whole
          copied := fun host => by
            rw [List.append_assoc]
            exact copied host
          copiedFirst }
  | true =>
      rw [asked] at here
      obtain rfl := converts.asked (by rw [finishes.permutes, asked])
      rw [if_pos rfl, if_neg Bool.true_eq_false.mp, List.nil_append]
      exact
        { reported
          asked := fun _ => rfl
          known := by
            rw [List.nil_append, List.forall_mem_append]
            exact ⟨known, converts.known⟩
          converted := fun dataPtr => by
            have whole := (here dataPtr).append (converts.converted dataPtr)
            simpa only [List.flatMap_append, List.flatMap_nil, List.nil_append] using whole
          copied
          copiedFirst }

end Converts

theorem exec_converts (layers : List (List KvTensor)) (distinct : (loads.map Prod.fst).Nodup)
    {events : List ReceiveEvent} (inside : events.flatMap ReceiveEvent.loads ⊆ loads)
    (loaded : worker.AllLoaded loads receiving) {final : Receiving ω}
    (reached : Run.exec worker.step receiving events = .ok final) :
    worker.Converts layers loads receiving final
      (Run.observe worker.step (worker.reports false) receiving events)
      (Run.observe worker.step (worker.reports true) receiving events)
      (Run.observe worker.step (worker.deviceCalls layers) receiving events) := by
  induction events generalizing receiving with
  | nil =>
      cases reached
      exact
        { reported := (List.append_nil _).symm
          asked := fun _ => rfl
          known := List.forall_mem_nil _
          converted := fun _ => .refl []
          copied := fun _ => .refl []
          copiedFirst := fun _ => .nil }
  | cons event events ih =>
      obtain ⟨middle, taken, rest⟩ := Run.exec_cons_eq_ok.mp reached
      rw [List.flatMap_cons, List.append_subset] at inside
      rw [Run.observe_cons taken, Run.observe_cons taken, Run.observe_cons taken]
      have converts := ih inside.2 (loaded.step inside.1 taken) rest
      rcases step_cases inside.1 taken with noneReceived | ⟨done, finishes⟩
      · rw [noneReceived.deviceCalls taken layers, noneReceived.reports taken,
          noneReceived.reports taken, List.nil_append, List.nil_append, List.nil_append]
        exact converts.noneReceived noneReceived
      · rw [(finishes layers).reports taken, (finishes layers).reports taken]
        exact converts.finishes (finishes layers) distinct (exec_settles reached) loaded

/-- **Converted once.**  In every run that loads distinct requests and does not raise, every
request is reported at most once.  Its blocks are then converted in every cache of the device, once
for each layer that has the cache, and by the kernel for the ratio of the block sizes; layouts are
converted from the first handshake on that asked for it, for all requests.  When transfers end in
host memory, the blocks are copied to the device once, and before they are converted. -/
theorem converted_once (worker : ReceivingWorker ω) (layers : List (List KvTensor))
    (tables : Handshakes ω) {events : List ReceiveEvent}
    (distinct : ((events.flatMap ReceiveEvent.loads).map Prod.fst).Nodup) {final : Receiving ω}
    (reached : Run.exec worker.step (.init tables) events = .ok final) :
    let loads := events.flatMap ReceiveEvent.loads
    let before := Run.observe worker.step (worker.reports false) (.init tables) events
    let after := Run.observe worker.step (worker.reports true) (.init tables) events
    let calls := Run.observe worker.step (worker.deviceCalls layers) (.init tables) events
    final.log.reported.Nodup ∧ final.log.reported = before ++ after ∧
      (∀ reqId ∈ final.log.reported, (worker.producerRatio loads final.tables reqId).isSome) ∧
      (∀ dataPtr, (calls.flatMap (DeviceCall.convertedAt dataPtr)).Perm
        ((before.flatMap (worker.conversions loads final.tables false) ++
          after.flatMap (worker.conversions loads final.tables true)).flatMap
            (List.replicate (timesListed layers dataPtr)))) ∧
      (worker.handshakes.useHostBuffer = true →
        (calls.flatMap DeviceCall.copied).Perm
            (final.log.reported.map (worker.deviceBlocks loads)) ∧
          CopiedFirst calls) := by
  intro loads before after calls
  have nothing_loaded : worker.AllLoaded loads (.init tables) := nofun
  have converts := exec_converts layers distinct (List.Subset.refl _) nothing_loaded reached
  have isReported : final.log.reported = before ++ after := converts.reported
  have start : Unrepeated [] (Receiving.init tables) := ⟨List.nodup_nil, List.forall_mem_nil _⟩
  have unrepeated := start.exec distinct reached
  refine ⟨(List.nodup_append.mp unrepeated.nodup).2.1, isReported, ?_, converts.converted,
    fun host => ⟨?_, converts.copiedFirst host⟩⟩
  · rw [isReported]
    exact converts.known
  · rw [isReported]
    exact converts.copied host

/-- The picky worker, with host memory in which the tokens come first. -/
def permutingWorker : ReceivingWorker (List (List XferDesc)) :=
  { pickyWorker with
    handshakes :=
      { HandshakeWorker.loneWorker HandshakeWorker.listingNixl with
        useHostBuffer := true
        hostBufferKvCacheLayout := "NHD"
        enablePermuteLocalKv := true } }

theorem converted_once_quietRun :
    let calls := Run.observe permutingWorker.step
      (permutingWorker.deviceCalls HandshakeWorker.oneLayer) (.init HandshakeWorker.loneStart)
      quietRun
    (calls.flatMap (DeviceCall.convertedAt 1000)).Perm [(.layout, [0])] ∧
      (calls.flatMap DeviceCall.copied).Perm [[0]] ∧ CopiedFirst calls := by
  intro calls
  let loads := quietRun.flatMap ReceiveEvent.loads
  have ran : (Run.exec permutingWorker.step (.init HandshakeWorker.loneStart)
      quietRun).toOption.any (fun final =>
        decide (permutingWorker.conversions loads final.tables true "request" = [(.layout, [0])] ∧
          final.log.reported.map (permutingWorker.deviceBlocks loads) = [[0]])) = true := by
    decide +kernel
  obtain ⟨final, reached, seen⟩ := Run.exists_of_any ran
  obtain ⟨needed, blocks⟩ := of_decide_eq_true seen
  have distinct : (loads.map Prod.fst).Nodup := List.nodup_singleton "request"
  obtain ⟨_, _, _, converted, host⟩ := converted_once permutingWorker HandshakeWorker.oneLayer
    HandshakeWorker.loneStart distinct reached
  have none_before : Run.observe permutingWorker.step (permutingWorker.reports false)
      (.init HandshakeWorker.loneStart) quietRun = [] := by decide +kernel
  have one_after : Run.observe permutingWorker.step (permutingWorker.reports true)
      (.init HandshakeWorker.loneStart) quietRun = ["request"] := by decide +kernel
  obtain ⟨copied, first⟩ := host rfl
  refine ⟨?_, blocks ▸ copied, first⟩
  have calledOnce := converted 1000
  rw [none_before, one_after, List.flatMap_nil, List.nil_append, List.flatMap_singleton,
    needed] at calledOnce
  exact calledOnce

end ReceivingWorker

end RduHdi
