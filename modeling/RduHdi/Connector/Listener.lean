import RduHdi.Connector.Scheduler
import RduHdi.Run

/-!
# The side-channel listener

A daemon thread serves handshakes and consumer registrations from one socket.  Everything after
the receive is guarded, so a message can only be answered; the receive itself unpacks the frames
outside of the guard.  This file says which sequences of messages the thread survives.
-/

namespace RduHdi

/-- What the blocking receive returns to the loop. -/
inductive Receive where
  | message (frames : List ByteArray)
  /-- The receive timed out; `stop` is what the stop event reads then. -/
  | again (stop : Bool)

/-- How the loop is left. -/
inductive LoopExit where
  | stopped
  | raised (error : PyError)

/-- The arguments of `_nixl_handshake_listener`; `decode` is the message decoder, and `σ` is what
the registration handler writes to. -/
structure HandshakeListener (σ : Type*) where
  /-- `msgspec.msgpack.decode`. -/
  decode : ByteArray → Except PyError PyObj
  /-- The encoded metadata of each rank. -/
  encodedData : Dict PyKey ByteArray
  /-- `on_register`. -/
  onRegister : Option (σ → PyObj → σ × Except PyError Unit)

namespace HandshakeListener

variable {σ : Type*} (listener : HandshakeListener σ)

def getMetaMsg : ByteArray := "get_meta_msg".toUTF8

def registerConsumerMsg : ByteArray := "register_consumer_msg".toUTF8

/-- `message_type == tag`. -/
def isTag (messageType : PyObj) (tag : ByteArray) : Bool :=
  match messageType with
  | .bytes value => value = tag
  | _ => false

/-- `encoded_data[rank]`. -/
def metadataOf (rank : PyObj) : Except PyError ByteArray :=
  match rank.hashKey with
  | .ok key =>
      match listener.encodedData.lookup key with
      | some encoded => .ok encoded
      | none => .error .keyError
  | .error raised => .error raised

/-- Hand a payload to the registration handler, whose exceptions are swallowed. -/
def register (state : σ) (payload : PyObj) : σ :=
  match listener.onRegister with
  | some handler => (handler state payload).1
  | none => state

/-- The guarded part of one turn, up to the body of the reply. -/
def dispatch (state : σ) (msg : ByteArray) : σ × Except PyError ByteArray :=
  match listener.decode msg with
  | .error raised => (state, .error raised)
  | .ok decoded =>
      match decoded.unpackTwo with
      | .error raised => (state, .error raised)
      | .ok (messageType, payload) =>
          if isTag messageType getMetaMsg then
            (state, listener.metadataOf payload)
          else if isTag messageType registerConsumerMsg then
            (listener.register state payload, .ok "ok".toUTF8)
          else
            (state, .ok ByteArray.empty)

/-- One turn on a message of three frames: an exception is answered with an empty body. -/
def serve (state : σ) (msg : ByteArray) : σ × ByteArray :=
  match listener.dispatch state msg with
  | (next, .ok body) => (next, body)
  | (next, .error _) => (next, ByteArray.empty)

/-- One turn of the loop.  Unpacking any other number of frames raises outside of the guard. -/
def step (state : σ) : Receive → Except LoopExit σ
  | .message [_, _, msg] => .ok (listener.serve state msg).1
  | .message _ => .error (.raised .valueError)
  | .again stop => if stop then .error .stopped else .ok state

/-- The replies one turn sends. -/
def replies (state : σ) : Receive → List (List ByteArray)
  | .message [identity, _, msg] =>
      [[identity, ByteArray.empty, (listener.serve state msg).2]]
  | _ => []

/-! ## Surviving every message -/

/-- The loop is left only through the stop event, and every message it gets to is answered. -/
structure Survives (state : σ) (events : List Receive) : Prop where
  /-- Nothing ends the thread but its stop. -/
  only_stops : ∀ raised, Run.exec listener.step state events ≠ .error (.raised raised)
  /-- A message is answered once. -/
  one_reply : ∀ before identity rest after middle,
    events = before ++ .message (identity :: rest) :: after →
    Run.exec listener.step state before = .ok middle →
      ∃ body, listener.replies middle (.message (identity :: rest)) =
        [[identity, ByteArray.empty, body]]
  /-- A question for published metadata gets them. -/
  answers_getMeta : ∀ before identity delimiter msg after middle rank key encoded,
    events = before ++ .message [identity, delimiter, msg] :: after →
    Run.exec listener.step state before = .ok middle →
    listener.decode msg = .ok (.list [.bytes getMetaMsg, rank]) →
    rank.hashKey = .ok key → listener.encodedData.lookup key = some encoded →
      listener.replies middle (.message [identity, delimiter, msg]) =
        [[identity, ByteArray.empty, encoded]]

/-- The part of a sequence before the stop event is seen. -/
def beforeStop (events : List Receive) : List Receive :=
  events.takeWhile fun event =>
    match event with
    | .again stop => !stop
    | .message _ => true

@[simp]
theorem beforeStop_message (frames : List ByteArray) (events : List Receive) :
    beforeStop (.message frames :: events) = .message frames :: beforeStop events := rfl

@[simp]
theorem beforeStop_again_false (events : List Receive) :
    beforeStop (.again false :: events) = .again false :: beforeStop events := rfl

@[simp]
theorem beforeStop_again_true (events : List Receive) :
    beforeStop (.again true :: events) = [] := rfl

theorem length_eq_three {frames : List ByteArray} (three : frames.length = 3) :
    ∃ identity delimiter msg, frames = [identity, delimiter, msg] :=
  List.length_eq_three.mp three

theorem step_of_length_ne_three {frames : List ByteArray} (other : frames.length ≠ 3)
    (state : σ) : listener.step state (.message frames) = .error (.raised .valueError) := by
  match frames, other with
  | [], _ => rfl
  | [_], _ => rfl
  | [_, _], _ => rfl
  | [_, _, _], other => exact absurd rfl other
  | _ :: _ :: _ :: _ :: _, _ => rfl

/-- The loop gets past three-frame messages and quiet timeouts, and past nothing else. -/
theorem only_stops_iff (state : σ) (events : List Receive) :
    (∀ raised, Run.exec listener.step state events ≠ .error (.raised raised)) ↔
      ∀ frames, .message frames ∈ beforeStop events → frames.length = 3 := by
  induction events generalizing state with
  | nil => simp [beforeStop]
  | cons event events ih =>
      cases event with
      | message frames =>
          by_cases three : frames.length = 3
          · obtain ⟨identity, delimiter, msg, rfl⟩ := length_eq_three three
            have taken : listener.step state (.message [identity, delimiter, msg]) =
                .ok (listener.serve state msg).1 := rfl
            rw [Run.exec_cons taken, ih]
            simp only [beforeStop_message, List.mem_cons, Receive.message.injEq, forall_eq_or_imp]
            exact (and_iff_right rfl).symm
          · have raised : Run.exec listener.step state (.message frames :: events) =
                .error (.raised .valueError) := by
              rw [Run.exec, listener.step_of_length_ne_three three]
            constructor
            · exact fun survives => absurd raised (survives .valueError)
            · exact fun all => absurd (all frames List.mem_cons_self) three
      | again stop =>
          cases stop with
          | false =>
              have taken : listener.step state (.again false) = .ok state := rfl
              rw [Run.exec_cons taken, ih]
              simp
          | true =>
              have stopped : Run.exec listener.step state (.again true :: events) =
                  .error .stopped := rfl
              simp [stopped]

theorem mem_beforeStop {state middle : σ} {before after : List Receive} {frames : List ByteArray}
    (taken : Run.exec listener.step state before = .ok middle) :
    .message frames ∈ beforeStop (before ++ .message frames :: after) := by
  induction before generalizing state with
  | nil => exact List.mem_cons_self
  | cons event before ih =>
      obtain ⟨next, first, rest⟩ := Run.exec_cons_eq_ok.mp taken
      cases event with
      | message others => exact List.mem_cons_of_mem _ (ih rest)
      | again stop =>
          cases stop with
          | false => exact List.mem_cons_of_mem _ (ih rest)
          | true => cases first

theorem serve_getMeta {state : σ} {msg encoded : ByteArray} {rank : PyObj} {key : PyKey}
    (decoded : listener.decode msg = .ok (.list [.bytes getMetaMsg, rank]))
    (hashed : rank.hashKey = .ok key) (known : listener.encodedData.lookup key = some encoded) :
    listener.serve state msg = (state, encoded) := by
  have found : listener.metadataOf rank = .ok encoded := by
    rw [metadataOf, hashed]
    simp only [known]
  have unpacked : PyObj.unpackTwo (.list [.bytes getMetaMsg, rank]) =
      .ok (.bytes getMetaMsg, rank) := rfl
  have dispatched : listener.dispatch state msg = (state, .ok encoded) := by
    rw [dispatch, decoded]
    simp only [unpacked, isTag, decide_true, if_true, found]
  rw [serve, dispatched]

/-- The registration a message carries: at most one. -/
def registrations (msg : ByteArray) : List PyObj :=
  match listener.decode msg with
  | .error _ => []
  | .ok decoded =>
      match decoded.unpackTwo with
      | .error _ => []
      | .ok (messageType, payload) =>
          if isTag messageType registerConsumerMsg then [payload] else []

theorem not_getMeta_of_register {messageType : PyObj}
    (registers : isTag messageType registerConsumerMsg) :
    isTag messageType getMetaMsg = false := by
  have different : registerConsumerMsg ≠ getMetaMsg := by decide
  cases messageType with
  | bytes value =>
      have same : value = registerConsumerMsg := by simpa [isTag] using registers
      simp [isTag, same, different]
  | _ => simp [isTag] at registers

/-- A registration is handed to the handler and acknowledged, whatever the handler raises; any
other message leaves the handler's state alone. -/
theorem serve_registrations (state : σ) (msg : ByteArray) :
    (listener.registrations msg = [] ∧ (listener.serve state msg).1 = state) ∨
      ∃ payload, listener.registrations msg = [payload] ∧
        listener.serve state msg = (listener.register state payload, "ok".toUTF8) := by
  rw [registrations, serve, dispatch]
  cases listener.decode msg with
  | error raised => exact Or.inl ⟨rfl, rfl⟩
  | ok decoded =>
      cases unpacked : decoded.unpackTwo with
      | error raised =>
          simp only [unpacked]
          exact Or.inl ⟨trivial, trivial⟩
      | ok pair =>
          obtain ⟨messageType, payload⟩ := pair
          simp only [unpacked]
          by_cases registers : isTag messageType registerConsumerMsg
          · have other := not_getMeta_of_register registers
            simp only [registers, other]
            exact Or.inr ⟨payload, rfl, rfl⟩
          · rw [if_neg registers]
            refine Or.inl ⟨rfl, ?_⟩
            by_cases asks : isTag messageType getMetaMsg
            · simp only [asks, if_true]
              cases listener.metadataOf payload <;> rfl
            · simp only [asks, registers, Bool.false_eq_true, if_false]

/-- **Survival of the listener.**  The listener survives a sequence of messages exactly when
every message that arrives before the stop has three frames. -/
theorem survives_iff (state : σ) (events : List Receive) :
    listener.Survives state events ↔
      ∀ frames, .message frames ∈ beforeStop events → frames.length = 3 := by
  constructor
  · exact fun survives => (listener.only_stops_iff state events).mp survives.only_stops
  · intro three
    refine ⟨(listener.only_stops_iff state events).mpr three, ?_, ?_⟩
    · rintro before identity rest after middle rfl taken
      obtain ⟨first, delimiter, msg, shape⟩ :=
        length_eq_three (three (identity :: rest) (listener.mem_beforeStop taken))
      obtain ⟨rfl, rfl⟩ := List.cons_eq_cons.mp shape
      exact ⟨(listener.serve middle msg).2, rfl⟩
    · rintro before identity delimiter msg after middle rank key encoded rfl taken decoded
        hashed known
      rw [replies, listener.serve_getMeta decoded hashed known]

/-- The listener of a scheduler side. -/
def ofScheduler (decode : ByteArray → Except PyError PyObj) (encodedData : Dict PyKey ByteArray) :
    HandshakeListener NixlConnectorScheduler where
  decode
  encodedData
  onRegister := some NixlConnectorScheduler.handleConsumerRegistration

/-- A message without the empty delimiter frame ends the thread. -/
theorem not_survives_twoFrames :
    ¬(ofScheduler (fun _ => .error .valueError) ∅).Survives .init
      [.message ["peer".toUTF8, "hello".toUTF8]] := by
  intro survives
  exact survives.only_stops .valueError rfl

end HandshakeListener

end RduHdi
