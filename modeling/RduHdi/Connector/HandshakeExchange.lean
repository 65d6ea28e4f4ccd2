import RduHdi.Connector.Listener
import RduHdi.Connector.ReadAddresses

/-!
# Handshakes over the side channel

The scheduler side of a producer encodes the metadata of its ranks and starts the listener with
them; a worker of a consumer asks for one rank after the other.  Between two of its questions the
listener serves whatever else arrives, and metadata may be set again.  A handshake over the channel
ends as one that is given the metadata the listener was started with.
-/

namespace RduHdi

/-- `NixlHandshakePayload`. -/
structure NixlHandshakePayload where
  /-- The hash of the rank. -/
  compatibilityHash : String
  /-- Its metadata, encoded. -/
  agentMetadataBytes : ByteArray
  deriving DecidableEq

/-- The metadata of a rank, as `set_xfer_handshake_metadata` gets them. -/
inductive RankMetadata where
  | nixl (payload : NixlHandshakePayload)
  /-- Of another connector. -/
  | other

/-- The encoders and decoders of `msgspec.msgpack`. -/
structure HandshakeCodec where
  /-- Of what is asked. -/
  encodeMessage : PyObj → ByteArray
  /-- Of what is asked. -/
  decodeMessage : ByteArray → Except PyError PyObj
  /-- Of the answer. -/
  encodePayload : NixlHandshakePayload → ByteArray
  /-- Of the answer. -/
  decodePayload : ByteArray → Except PyError NixlHandshakePayload
  /-- Of the metadata in the answer. -/
  decodeMetadata : ByteArray → Except PyError NixlAgentMetadata

/-- `(GET_META_MSG, rank)`. -/
def getMeta (rank : ℕ) : PyObj :=
  .list [.bytes HandshakeListener.getMetaMsg, .int rank]

/-! ## The producer -/

inductive Listening where
  | notStarted
  | serving (encodedData : Dict PyKey ByteArray)
  | ended

/-- The scheduler side, with its listener thread. -/
structure HandshakeServer where
  /-- The scheduler side. -/
  scheduler : NixlConnectorScheduler
  /-- The thread that listens. -/
  listening : Listening

namespace HandshakeServer

def init : HandshakeServer where
  scheduler := .init
  listening := .notStarted

variable (codec : HandshakeCodec) (server : HandshakeServer)

/-- The loop of `set_xfer_handshake_metadata`. -/
def encodeAll : List (Σ _ : ℕ, RankMetadata) → Dict PyKey ByteArray →
    Except PyError (Dict PyKey ByteArray)
  | [], encodedData => .ok encodedData
  | ⟨tpRank, .nixl payload⟩ :: metadata, encodedData =>
      encodeAll metadata (encodedData.set (.num tpRank) (codec.encodePayload payload))
  | ⟨_, .other⟩ :: _, _ => .error .valueError

/-- `set_xfer_handshake_metadata`: the first call starts the listener, with its own data. -/
def setXferHandshakeMetadata (metadata : Dict ℕ RankMetadata) :
    HandshakeServer × Except PyError Unit :=
  match encodeAll codec metadata.entries ∅ with
  | .error raised => (server, .error raised)
  | .ok encodedData =>
      match server.listening with
      | .notStarted => ({ server with listening := .serving encodedData }, .ok ())
      | _ => (server, .ok ())

/-- One turn of the listener thread, if it runs. -/
def receive (event : Receive) : HandshakeServer :=
  match server.listening with
  | .serving encodedData =>
      match (HandshakeListener.ofScheduler codec.decodeMessage encodedData).step server.scheduler
        event with
      | .ok scheduler => { server with scheduler }
      | .error _ => { server with listening := .ended }
  | _ => server

/-- The reply to a message of a worker; nobody replies when the listener does not run. -/
def reply (msg : ByteArray) : HandshakeServer × Except PyError ByteArray :=
  match server.listening with
  | .serving encodedData =>
      match (HandshakeListener.ofScheduler codec.decodeMessage encodedData).serve server.scheduler
        msg with
      | (scheduler, body) => ({ server with scheduler }, .ok body)
  | _ => (server, .error .runtimeError)

end HandshakeServer

/-! ## The consumer -/

namespace HandshakeCodec

variable (codec : HandshakeCodec)

/-- The decoded payload; an error of the decoder is raised as another. -/
def readPayload (handshakeBytes : ByteArray) : Except PyError HandshakePayload :=
  match codec.decodePayload handshakeBytes with
  | .error _ => .error .runtimeError
  | .ok payload =>
      .ok
        { compatibilityHash := payload.compatibilityHash
          agentMetadata := codec.decodeMetadata payload.agentMetadataBytes }

/-- What the ranks answer when they answer what was published of them. -/
def published (metadata : Dict ℕ RankMetadata) (rank : ℕ) : Except PyError HandshakePayload :=
  match metadata.lookup rank with
  | some (.nixl payload) =>
      .ok
        { compatibilityHash := payload.compatibilityHash
          agentMetadata := codec.decodeMetadata payload.agentMetadataBytes }
  | _ => .error .runtimeError

/-- The questions for the ranks and the payloads are read back, and no payload is empty. -/
structure Reads (metadata : Dict ℕ RankMetadata) (ranks : List ℕ) : Prop where
  /-- A question for a rank is read as it was written. -/
  message : ∀ rank ∈ ranks, codec.decodeMessage (codec.encodeMessage (getMeta rank)) =
    .ok (getMeta rank)
  /-- So is a rank's answer. -/
  payload : ∀ rank payload, metadata.lookup rank = some (.nixl payload) →
    codec.decodePayload (codec.encodePayload payload) = .ok payload
  /-- An empty answer is not read. -/
  empty : ∀ payload, codec.decodePayload ByteArray.empty ≠ .ok payload

end HandshakeCodec

/-- A worker on its way through `_nixl_handshake`. -/
structure Asking (ω : Type) where
  /-- The tables so far. -/
  tables : Handshakes ω
  /-- The agents that were added. -/
  agents : Dict ℕ AgentName
  /-- The ranks that are still to be asked. -/
  ranks : List ℕ
  /-- The exception that ended it. -/
  failed : Option PyError

/-- What happens next. -/
inductive ExchangeEvent where
  | setMetadata (metadata : Dict ℕ RankMetadata)
  /-- The listener receives something else. -/
  | receive (event : Receive)
  /-- The worker asks for the next rank. -/
  | ask

def ExchangeEvent.asks : ExchangeEvent → Bool
  | .ask => true
  | _ => false

structure Exchange (ω : Type) where
  /-- The producer. -/
  server : HandshakeServer
  /-- The decode worker. -/
  asking : Asking ω

namespace HandshakeWorker

open Attempt (lift)

variable {ω : Type} (worker : HandshakeWorker ω)

/-- One turn of the loop over the remote ranks, from the answer on. -/
def useAnswer (answer : Except PyError HandshakePayload) (remoteTpSize : ℕ)
    (expectedEngineId : EngineId) (rank : ℕ) : Job ω AgentName := do
  let payload ← lift answer
  let agent ← lift (worker.checkPayload expectedEngineId payload)
  worker.addRemoteAgent agent rank remoteTpSize

/-- Ask for the next rank, unless all were asked or the handshake failed. -/
def ask (codec : HandshakeCodec) (remoteTpSize : ℕ) (expectedEngineId : EngineId)
    (exchange : Exchange ω) : Exchange ω :=
  match exchange.asking.failed, exchange.asking.ranks with
  | none, rank :: ranks =>
      match exchange.server.reply codec (codec.encodeMessage (getMeta rank)) with
      | (server, handshakeBytes) =>
          match worker.useAnswer (handshakeBytes.bind codec.readPayload) remoteTpSize
            expectedEngineId rank exchange.asking.tables with
          | (tables, .ok name) =>
              { server
                asking :=
                  { exchange.asking with
                    tables
                    agents := exchange.asking.agents.set rank name
                    ranks } }
          | (tables, .error raised) =>
              { server, asking := { exchange.asking with tables, failed := some raised } }
  | _, _ => exchange

def exchangeStep (codec : HandshakeCodec) (remoteTpSize : ℕ) (expectedEngineId : EngineId)
    (exchange : Exchange ω) : ExchangeEvent → Exchange ω
  | .setMetadata metadata =>
      { exchange with server := (exchange.server.setXferHandshakeMetadata codec metadata).1 }
  | .receive event => { exchange with server := exchange.server.receive codec event }
  | .ask => worker.ask codec remoteTpSize expectedEngineId exchange

end HandshakeWorker

/-! ## What the listener answers -/

namespace HandshakeServer

variable {codec : HandshakeCodec} {server : HandshakeServer}

theorem lookup_encodeAll {entries : List (Σ _ : ℕ, RankMetadata)}
    {encodedData final : Dict PyKey ByteArray} (distinct : entries.NodupKeys)
    (encoded : encodeAll codec entries encodedData = .ok final) (rank : ℕ) :
    final.lookup (.num rank) =
      match entries.dlookup rank with
      | some (.nixl payload) => some (codec.encodePayload payload)
      | _ => encodedData.lookup (.num rank) := by
  induction entries generalizing encodedData with
  | nil =>
      cases encoded
      rfl
  | cons entry entries ih =>
      obtain ⟨tpRank, metadata⟩ := entry
      obtain ⟨absent, others⟩ := List.nodupKeys_cons.mp distinct
      cases metadata with
      | other => cases encoded
      | nixl payload =>
          rw [ih others encoded]
          by_cases same : rank = tpRank
          · subst same
            rw [List.dlookup_cons_eq, List.dlookup_eq_none.mpr absent, AList.lookup_set]
          · have different : PyKey.num rank ≠ PyKey.num tpRank := by simpa using same
            rw [List.dlookup_cons_ne _ _ same, AList.lookup_set_ne different]

/-- The first call that goes through starts the listener with the encoded payloads. -/
theorem setXferHandshakeMetadata_init {metadata : Dict ℕ RankMetadata}
    (published : init.setXferHandshakeMetadata codec metadata = (server, .ok ())) :
    ∃ encodedData, server.listening = .serving encodedData ∧ ∀ rank : ℕ,
      encodedData.lookup (.num rank) =
        match metadata.lookup rank with
        | some (.nixl payload) => some (codec.encodePayload payload)
        | _ => none := by
  rw [setXferHandshakeMetadata] at published
  cases encoded : encodeAll codec metadata.entries ∅ with
  | error raised => simp [encoded] at published
  | ok encodedData =>
      simp only [encoded, init, Prod.mk.injEq, and_true] at published
      subst published
      refine ⟨encodedData, rfl, fun rank => ?_⟩
      exact lookup_encodeAll metadata.nodupKeys encoded rank

theorem listening_setXferHandshakeMetadata {encodedData : Dict PyKey ByteArray}
    (serving : server.listening = .serving encodedData) (metadata : Dict ℕ RankMetadata) :
    (server.setXferHandshakeMetadata codec metadata).1.listening = .serving encodedData := by
  rw [setXferHandshakeMetadata]
  cases encodeAll codec metadata.entries ∅ with
  | error raised => exact serving
  | ok others =>
      simp only [serving]

end HandshakeServer

theorem HandshakeListener.serve_getMeta_unknown {σ : Type*} {listener : HandshakeListener σ}
    {state : σ} {msg : ByteArray} {rank : PyObj} {key : PyKey}
    (decoded : listener.decode msg = .ok (.list [.bytes getMetaMsg, rank]))
    (hashed : rank.hashKey = .ok key) (unknown : listener.encodedData.lookup key = none) :
    listener.serve state msg = (state, ByteArray.empty) := by
  have missing : listener.metadataOf rank = .error .keyError := by
    rw [metadataOf, hashed]
    simp only [unknown]
  have unpacked : PyObj.unpackTwo (.list [.bytes getMetaMsg, rank]) =
      .ok (.bytes getMetaMsg, rank) := rfl
  have dispatched : listener.dispatch state msg = (state, .error .keyError) := by
    rw [dispatch, decoded]
    simp only [unpacked, isTag, decide_true, if_true, missing]
  rw [serve, dispatched]

/-- The listener is not stopped, and receives messages of three frames only. -/
def ExchangeEvent.Quiet : ExchangeEvent → Prop
  | .receive (.message frames) => frames.length = 3
  | .receive (.again stop) => stop = false
  | _ => True

namespace HandshakeServer

variable {codec : HandshakeCodec} {server : HandshakeServer}

theorem listening_receive {encodedData : Dict PyKey ByteArray}
    (serving : server.listening = .serving encodedData) {event : Receive}
    (quiet : (ExchangeEvent.receive event).Quiet) :
    (server.receive codec event).listening = .serving encodedData := by
  rw [receive, serving]
  cases event with
  | message frames =>
      obtain ⟨identity, delimiter, msg, rfl⟩ := HandshakeListener.length_eq_three quiet
      rfl
  | again stop =>
      obtain rfl : stop = false := quiet
      rfl

/-- The listener answers for a rank what was published of it. -/
theorem reply_getMeta {metadata : Dict ℕ RankMetadata} {ranks : List ℕ}
    (reads : codec.Reads metadata ranks) {encodedData : Dict PyKey ByteArray}
    (serving : server.listening = .serving encodedData)
    (encoded : ∀ rank : ℕ, encodedData.lookup (.num rank) =
      match metadata.lookup rank with
      | some (.nixl payload) => some (codec.encodePayload payload)
      | _ => none) {rank : ℕ} (asked : rank ∈ ranks) :
    ∃ body, server.reply codec (codec.encodeMessage (getMeta rank)) = (server, .ok body) ∧
      codec.readPayload body = codec.published metadata rank := by
  let listener := HandshakeListener.ofScheduler codec.decodeMessage encodedData
  have decoded : listener.decode (codec.encodeMessage (getMeta rank)) = .ok (getMeta rank) :=
    reads.message rank asked
  have hashed : (PyObj.int rank).hashKey = .ok (.num rank) := by
    simp [PyObj.hashKey]
  have answers {body : ByteArray}
      (served : listener.serve server.scheduler (codec.encodeMessage (getMeta rank)) =
        (server.scheduler, body)) :
      server.reply codec (codec.encodeMessage (getMeta rank)) = (server, .ok body) := by
    rw [reply, serving]
    simp only
    rw [served, ← serving]
  have none_read : codec.readPayload ByteArray.empty = .error .runtimeError := by
    rw [HandshakeCodec.readPayload]
    cases read : codec.decodePayload ByteArray.empty with
    | error raised => rfl
    | ok payload => exact absurd read (reads.empty payload)
  have known := encoded rank
  rw [HandshakeCodec.published]
  cases found : metadata.lookup rank with
  | none =>
      rw [found] at known
      exact ⟨_, answers (listener.serve_getMeta_unknown decoded hashed known), none_read⟩
  | some entry =>
      rw [found] at known
      cases entry with
      | other => exact ⟨_, answers (listener.serve_getMeta_unknown decoded hashed known), none_read⟩
      | nixl payload =>
          refine ⟨_, answers (listener.serve_getMeta decoded hashed known), ?_⟩
          rw [HandshakeCodec.readPayload, reads.payload rank payload found]

end HandshakeServer

/-! ## The whole handshake -/

/-- How many ranks are to be asked before the handshake ends. -/
def Asking.remaining {ω : Type} (asking : Asking ω) : ℕ :=
  if asking.failed.isNone then asking.ranks.length else 0

namespace HandshakeWorker

variable {ω : Type} {worker : HandshakeWorker ω} {codec : HandshakeCodec}
  {metadata : Dict ℕ RankMetadata} {encodedData : Dict PyKey ByteArray} {remoteTpSize : ℕ}
  {engineId : EngineId} {ranks : List ℕ} {exchange : Exchange ω}
  {direct : Handshakes ω × Except PyError (Dict ℕ AgentName)}

theorem handshakeRanks_cons (answers : ℕ → Except PyError HandshakePayload) (rank : ℕ)
    (agents : Dict ℕ AgentName) (tables : Handshakes ω) :
    worker.handshakeRanks answers remoteTpSize engineId (rank :: ranks) agents tables =
      match worker.useAnswer (answers rank) remoteTpSize engineId rank tables with
      | (tables, .ok name) =>
          worker.handshakeRanks answers remoteTpSize engineId ranks (agents.set rank name) tables
      | (tables, .error raised) => (tables, .error raised) := by
  rw [handshakeRanks, useAnswer, Attempt.bind_run, Attempt.bind_run]
  cases answers rank with
  | error raised => rfl
  | ok payload =>
      simp only [Attempt.lift, Attempt.bind_run]
      cases worker.checkPayload engineId payload with
      | error raised => rfl
      | ok agent =>
          cases ran : worker.addRemoteAgent agent rank remoteTpSize tables with
          | mk next result =>
              cases result with
              | error raised => simp [ran]
              | ok name => simp [ran]

/-- What is left to do leads to what the handshake does with the answers at hand. -/
structure Follows (worker : HandshakeWorker ω) (codec : HandshakeCodec)
    (metadata : Dict ℕ RankMetadata) (encodedData : Dict PyKey ByteArray) (remoteTpSize : ℕ)
    (engineId : EngineId) (ranks : List ℕ)
    (direct : Handshakes ω × Except PyError (Dict ℕ AgentName)) (exchange : Exchange ω) :
    Prop where
  /-- The producer listens, with what it published first. -/
  serving : exchange.server.listening = .serving encodedData
  /-- Only ranks of the handshake are left. -/
  inside : ∀ rank ∈ exchange.asking.ranks, rank ∈ ranks
  /-- What is left leads where the direct handshake leads. -/
  goesOn : exchange.asking.failed = none →
    worker.handshakeRanks (codec.published metadata) remoteTpSize engineId exchange.asking.ranks
      exchange.asking.agents exchange.asking.tables = direct
  /-- A failure is that of the direct handshake. -/
  failed : ∀ raised, exchange.asking.failed = some raised →
    direct = (exchange.asking.tables, .error raised)

/-- A question takes the handshake one rank further, or ends it. -/
theorem Follows.ask (reads : codec.Reads metadata ranks)
    (encoded : ∀ rank : ℕ, encodedData.lookup (.num rank) =
      match metadata.lookup rank with
      | some (.nixl payload) => some (codec.encodePayload payload)
      | _ => none)
    (follows : Follows worker codec metadata encodedData remoteTpSize engineId ranks direct
      exchange) :
    Follows worker codec metadata encodedData remoteTpSize engineId ranks direct
        (worker.ask codec remoteTpSize engineId exchange) ∧
      (worker.ask codec remoteTpSize engineId exchange).asking.remaining ≤
        exchange.asking.remaining - 1 := by
  rw [HandshakeWorker.ask]
  cases isFailed : exchange.asking.failed with
  | some raised =>
      refine ⟨follows, ?_⟩
      simp [Asking.remaining, isFailed]
  | none =>
      cases left : exchange.asking.ranks with
      | nil =>
          refine ⟨follows, ?_⟩
          simp [Asking.remaining, left]
      | cons rank others =>
          have asked : rank ∈ ranks := follows.inside rank (by simp [left])
          obtain ⟨body, replied, read⟩ := HandshakeServer.reply_getMeta reads follows.serving
            encoded asked
          have goesOn := follows.goesOn isFailed
          rw [left, handshakeRanks_cons, ← read] at goesOn
          simp only [replied]
          change _ ∧ _
          have here : (Except.ok body).bind codec.readPayload = codec.readPayload body := rfl
          rw [here]
          cases used : worker.useAnswer (codec.readPayload body) remoteTpSize engineId rank
              exchange.asking.tables with
          | mk tables result =>
              rw [used] at goesOn
              cases result with
              | ok name =>
                  refine ⟨⟨follows.serving, fun other member => ?_, fun _ => goesOn, ?_⟩, ?_⟩
                  · exact follows.inside other (by rw [left]; exact .tail _ member)
                  · intro raised failed
                    exact absurd (isFailed.symm.trans failed) (by simp)
                  · simp [Asking.remaining, isFailed, left]
              | error raised =>
                  refine ⟨⟨follows.serving, follows.inside, by simp, ?_⟩, ?_⟩
                  · rintro _ ⟨⟩
                    exact goesOn.symm
                  · simp [Asking.remaining]

/-- Whatever happens between two questions is not seen. -/
theorem Follows.run (reads : codec.Reads metadata ranks)
    (encoded : ∀ rank : ℕ, encodedData.lookup (.num rank) =
      match metadata.lookup rank with
      | some (.nixl payload) => some (codec.encodePayload payload)
      | _ => none)
    (follows : Follows worker codec metadata encodedData remoteTpSize engineId ranks direct
      exchange) {events : List ExchangeEvent} (quiet : ∀ event ∈ events, event.Quiet) :
    let final := events.foldl (worker.exchangeStep codec remoteTpSize engineId) exchange
    Follows worker codec metadata encodedData remoteTpSize engineId ranks direct final ∧
      final.asking.remaining ≤ exchange.asking.remaining - events.countP ExchangeEvent.asks := by
  induction events generalizing exchange with
  | nil => exact ⟨follows, Nat.le_refl _⟩
  | cons event events ih =>
      have others : ∀ event ∈ events, event.Quiet :=
        fun other member => quiet other (.tail _ member)
      rw [List.foldl_cons, List.countP_cons]
      cases event with
      | setMetadata later =>
          exact ih ⟨HandshakeServer.listening_setXferHandshakeMetadata follows.serving later,
            follows.inside, follows.goesOn, follows.failed⟩ others
      | receive event =>
          exact ih ⟨HandshakeServer.listening_receive follows.serving (quiet _ List.mem_cons_self),
            follows.inside, follows.goesOn, follows.failed⟩ others
      | ask =>
          obtain ⟨further, fewer⟩ := follows.ask reads encoded
          obtain ⟨ends, least⟩ := ih further others
          refine ⟨ends, least.trans ?_⟩
          simp only [ExchangeEvent.asks, if_true]
          omega

/-- The metadata of a rank that a handshake takes: published of it by the engine, with the hash of
the worker where that is checked. -/
def PublishedFor (worker : HandshakeWorker ω) (codec : HandshakeCodec)
    (metadata : Dict ℕ RankMetadata) (engineId : EngineId) (rank : ℕ) : Prop :=
  ∃ payload agent, metadata.lookup rank = some (.nixl payload) ∧
    codec.decodeMetadata payload.agentMetadataBytes = .ok agent ∧ agent.engineId = engineId ∧
    (worker.enforceCompatHash = true → payload.compatibilityHash = worker.compatHash)

theorem publishedFor_of_useAnswer {rank : ℕ} {name : AgentName} {tables next : Handshakes ω}
    (used : worker.useAnswer (codec.published metadata rank) remoteTpSize engineId rank tables =
      (next, .ok name)) : PublishedFor worker codec metadata engineId rank := by
  obtain ⟨_, answer, answered, used⟩ := Attempt.bind_eq_ok.mp used
  obtain ⟨rfl, answered⟩ := Attempt.lift_eq_ok.mp answered
  obtain ⟨_, agent, checked, _⟩ := Attempt.bind_eq_ok.mp used
  obtain ⟨rfl, checked⟩ := Attempt.lift_eq_ok.mp checked
  rw [HandshakeCodec.published] at answered
  split at answered
  · rename_i payload found
    cases answered
    rw [checkPayload] at checked
    split at checked
    · cases checked
    · rename_i accepted
      simp only at accepted checked
      split at checked
      · cases checked
      · rename_i metadata decoded
        split at checked
        · rename_i same
          cases checked
          exact ⟨payload, agent, found, decoded, same, fun enforced =>
            not_not.mp fun differs => accepted ⟨enforced, differs⟩⟩
        · cases checked
  · cases answered

theorem publishedFor_of_handshakeRanks {agents final : Dict ℕ AgentName}
    {tables next : Handshakes ω}
    (succeeds : worker.handshakeRanks (codec.published metadata) remoteTpSize engineId ranks agents
      tables = (next, .ok final)) :
    ∀ rank ∈ ranks, PublishedFor worker codec metadata engineId rank := by
  induction ranks generalizing agents tables with
  | nil => nofun
  | cons rank ranks ih =>
      rw [handshakeRanks_cons] at succeeds
      cases used : worker.useAnswer (codec.published metadata rank) remoteTpSize engineId rank
          tables with
      | mk middle result =>
          rw [used] at succeeds
          cases result with
          | error raised => cases succeeds
          | ok name =>
              rintro other (_ | ⟨_, member⟩)
              · exact publishedFor_of_useAnswer used
              · exact ih succeeds other member

/-- A handshake over the side channel, whatever the listener serves between its questions and
however often metadata are set again, does what it does when every rank answers what was published
of it at first; it ends after as many questions as there are ranks to ask, and when it succeeds,
each of them was published by the engine that is expected. -/
theorem handshake_exchanged (worker : HandshakeWorker ω) {server : HandshakeServer}
    (started : HandshakeServer.init.setXferHandshakeMetadata codec metadata = (server, .ok ()))
    (targets : worker.rules.targetRemoteRanks worker.tpRank worker.worldSize remoteTpSize =
      .ok ranks)
    (reads : codec.Reads metadata ranks) (tables : Handshakes ω) {events : List ExchangeEvent}
    (quiet : ∀ event ∈ events, event.Quiet) :
    let direct := worker.nixlHandshake (codec.published metadata) remoteTpSize engineId tables
    let final := (events.foldl (worker.exchangeStep codec remoteTpSize engineId)
      { server, asking := { tables, agents := ∅, ranks, failed := none } }).asking
    (∀ raised, final.failed = some raised → direct = (final.tables, .error raised)) ∧
      (final.failed = none → final.ranks = [] → direct = (final.tables, .ok final.agents) ∧
        ∀ rank ∈ ranks, PublishedFor worker codec metadata engineId rank) ∧
      (ranks.length ≤ events.countP ExchangeEvent.asks →
        final.failed ≠ none ∨ final.ranks = []) := by
  intro direct final
  have unfolded : direct =
      worker.handshakeRanks (codec.published metadata) remoteTpSize engineId ranks ∅ tables := by
    simp only [direct, nixlHandshake, Attempt.bind_run, Attempt.lift, targets]
  obtain ⟨encodedData, serving, encoded⟩ := HandshakeServer.setXferHandshakeMetadata_init started
  have start : Follows worker codec metadata encodedData remoteTpSize engineId ranks direct
      { server, asking := { tables, agents := ∅, ranks, failed := none } } :=
    ⟨serving, fun _ => id, fun _ => unfolded.symm, by simp⟩
  obtain ⟨follows, fewer⟩ := start.run reads encoded quiet
  refine ⟨follows.failed, fun unfailed asked => ?_, fun enough => ?_⟩
  · have ended := follows.goesOn unfailed
    rw [show _ = [] from asked] at ended
    refine ⟨ended.symm, ?_⟩
    exact publishedFor_of_handshakeRanks (unfolded.symm.trans ended.symm)
  · rw [or_iff_not_imp_left, not_not]
    intro unfailed
    have none_left : final.remaining = 0 := by
      refine Nat.le_zero.mp (fewer.trans ?_)
      simp only [Asking.remaining, Option.isNone_none, if_true]
      omega
    rw [Asking.remaining, unfailed] at none_left
    exact List.eq_nil_of_length_eq_zero none_left

/-! ## A handshake with a group of two -/

end HandshakeWorker

/-- `(GET_META_MSG, rank)` in MessagePack. -/
def packedGetMeta (rank : UInt8) : ByteArray :=
  ⟨#[146, 196, 12, 103, 101, 116, 95, 109, 101, 116, 97, 95, 109, 115, 103, rank]⟩

/-- The metadata of a rank of the group of two, in MessagePack. -/
def packedAgent (deviceId : UInt8) : ByteArray :=
  ⟨#[136, 169, 101, 110, 103, 105, 110, 101, 95, 105, 100, 167, 112, 114, 101, 102, 105, 108, 108,
    174, 97, 103, 101, 110, 116, 95, 109, 101, 116, 97, 100, 97, 116, 97, 196, 1, 0, 179, 107,
    118, 95, 99, 97, 99, 104, 101, 115, 95, 98, 97, 115, 101, 95, 97, 100, 100, 114, 145, 205,
    19, 136, 169, 100, 101, 118, 105, 99, 101, 95, 105, 100, deviceId, 170, 110, 117, 109, 95,
    98, 108, 111, 99, 107, 115, 3, 170, 98, 108, 111, 99, 107, 95, 108, 101, 110, 115, 145, 16,
    175, 107, 118, 95, 99, 97, 99, 104, 101, 95, 108, 97, 121, 111, 117, 116, 163, 72, 78, 68,
    170, 98, 108, 111, 99, 107, 95, 115, 105, 122, 101, 4]⟩

theorem packedAgent_rank (rank : UInt8) : (packedAgent rank).data.toList[71]? = some rank := rfl

/-- The payload of a rank of the group of two, in MessagePack. -/
def packedPayload (deviceId : UInt8) : ByteArray :=
  ⟨#[130, 178, 99, 111, 109, 112, 97, 116, 105, 98, 105, 108, 105, 116, 121, 95, 104, 97, 115,
    104, 164, 104, 97, 115, 104, 180, 97, 103, 101, 110, 116, 95, 109, 101, 116, 97, 100, 97,
    116, 97, 95, 98, 121, 116, 101, 115, 196, 129] ++ (packedAgent deviceId).data⟩

theorem packedPayload_rank (rank : UInt8) :
    (packedPayload rank).data.toList[119]? = some rank := by
  rw [packedPayload, Array.toList_append, List.getElem?_append_right (by decide)]
  exact packedAgent_rank rank

namespace HandshakeWorker

def halfPayload (rank : UInt8) : NixlHandshakePayload where
  compatibilityHash := "hash"
  agentMetadataBytes := packedAgent rank

/-- A codec for the messages of this group: what differs is the byte with the rank. -/
def halfCodec : HandshakeCodec where
  encodeMessage
    | .list [_, .int rank] => packedGetMeta rank.toNat.toUInt8
    | _ => ByteArray.empty
  decodeMessage bytes :=
    match bytes.data.toList[15]? with
    | some rank => .ok (getMeta rank.toNat)
    | none => .error .valueError
  encodePayload payload := packedPayload ((payload.agentMetadataBytes.data.toList[71]?).getD 0)
  decodePayload bytes :=
    match bytes.data.toList[119]? with
    | some rank => .ok (halfPayload rank)
    | none => .error .valueError
  decodeMetadata bytes :=
    match bytes.data.toList[71]? with
    | some rank => .ok (halfAgent rank.toNat)
    | none => .error .valueError

def halfMetadata : Dict ℕ RankMetadata :=
  AList.set 1 (.nixl (halfPayload 1)) (AList.set 0 (.nixl (halfPayload 0)) ∅)

theorem halfCodec_readPayload (rank : UInt8) :
    halfCodec.decodePayload (halfCodec.encodePayload (halfPayload rank)) =
      .ok (halfPayload rank) := by
  simp only [halfCodec, halfPayload, packedAgent_rank, Option.getD_some, packedPayload_rank]

theorem halfReads : halfCodec.Reads halfMetadata [0, 1] where
  message rank asked := by
    rcases List.mem_pair.mp asked with rfl | rfl
    · rfl
    · rfl
  payload rank payload found := by
    by_cases second : rank = 1
    · subst second
      rw [halfMetadata, AList.lookup_set] at found
      cases found
      exact halfCodec_readPayload 1
    · rw [halfMetadata, AList.lookup_set_ne second] at found
      by_cases first : rank = 0
      · subst first
        rw [AList.lookup_set] at found
        cases found
        exact halfCodec_readPayload 0
      · rw [AList.lookup_set_ne first] at found
        cases found
  empty payload := by
    have refused : halfCodec.decodePayload ByteArray.empty = .error .valueError := rfl
    rw [refused]
    exact nofun

/-- The listener gets bytes that are no message, and metadata are set again, without the second
rank. -/
def disturbedRun : List ExchangeEvent :=
  [.receive (.message ["peer".toUTF8, ByteArray.empty, ⟨#[0xc1]⟩]), .ask,
    .setMetadata (AList.set 0 (.nixl (halfPayload 0)) ∅), .receive (.again false), .ask]

theorem handshake_exchanged_disturbedRun :
    let server := (HandshakeServer.init.setXferHandshakeMetadata halfCodec halfMetadata).1
    let final := (disturbedRun.foldl ((loneWorker listingNixl).exchangeStep halfCodec 2 "prefill")
      { server, asking := { tables := loneStart, agents := ∅, ranks := [0, 1], failed := none } }
      ).asking
    (loneWorker listingNixl).nixlHandshake (halfCodec.published halfMetadata) 2 "prefill"
        loneStart = (final.tables, .ok final.agents) ∧
      ∀ rank ∈ [0, 1],
        PublishedFor (loneWorker listingNixl) halfCodec halfMetadata "prefill" rank := by
  intro server final
  have started : HandshakeServer.init.setXferHandshakeMetadata halfCodec halfMetadata =
      (server, .ok ()) := rfl
  have targets : (loneWorker listingNixl).rules.targetRemoteRanks (loneWorker listingNixl).tpRank
      (loneWorker listingNixl).worldSize 2 = .ok [0, 1] := rfl
  have quiet : ∀ event ∈ disturbedRun, event.Quiet := by
    simp only [disturbedRun, List.forall_mem_cons]
    exact ⟨rfl, trivial, trivial, rfl, trivial, nofun⟩
  obtain ⟨_, ended, _⟩ := handshake_exchanged (loneWorker listingNixl) started targets halfReads
    loneStart quiet
  have unfailed : final.failed = none := by decide +kernel
  have asked : final.ranks = [] := by decide +kernel
  exact ended unfailed asked

end HandshakeWorker

end RduHdi
