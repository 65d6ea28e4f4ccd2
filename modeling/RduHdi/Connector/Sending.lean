import RduHdi.Connector.Metadata
import RduHdi.Text

/-!
# The sending half of the worker

What a prefill worker keeps about requests whose blocks decode workers still read, and the two
calls that change it: the end of `start_load_kv`, and the part of `get_finished` that counts
completion notifs and releases expired requests.  A call that raises keeps what it changed before.
-/

namespace RduHdi

/-- The maps of `NixlConnectorWorker` about requests being sent. -/
structure Sending where
  /-- `_reqs_to_send`. -/
  reqsToSend : Dict ReqId ℚ
  /-- `_reqs_to_process`. -/
  reqsToProcess : KeySet ReqId
  /-- `consumer_notification_counts_by_req`. -/
  consumerNotificationCountsByReq : Dict ReqId ℕ

/-- What the sending half has from its configuration.  `tpRatio` is vLLM's
`TpKVTopology.tp_ratio`, which raises on sizes that do not divide each other. -/
structure SendingWorker where
  /-- The own group size. -/
  worldSize : ℕ
  /-- vLLM's ratio of the own and another group size. -/
  tpRatio : ℤ → Except PyError ℤ

/-- A worker of a group of `worldSize`, with the ratio of the group sizes, negative when the other
group is the larger one. -/
def SendingWorker.ofSize (worldSize : ℕ) : SendingWorker where
  worldSize
  tpRatio remote :=
    if remote ≤ worldSize then
      if remote = 0 then .error .zeroDivisionError
      else if remote ∣ worldSize then .ok (worldSize / remote)
      else .error .assertionError
    else if (worldSize : ℤ) ∣ remote then .ok (-(remote / worldSize))
    else .error .assertionError

/-- An order in which a set is iterated over. -/
structure SetOrder where
  /-- The ids as they are iterated over. -/
  arrange : List ReqId → List ReqId
  /-- They are the same ids. -/
  perm : ∀ ids, (arrange ids).Perm ids

theorem SetOrder.perm_id (ids : List ReqId) : (id ids).Perm ids :=
  List.Perm.refl ids

/-- A notif as the library hands it over, with the order in which the sets are iterated over while
it is handled. -/
structure Notif where
  /-- The bytes. -/
  payload : ByteArray
  /-- How a set was iterated over when its turn came. -/
  order : SetOrder

/-- A notif with a given text, with sets iterated over in the order of their keys. -/
def Notif.ofText (text : String) : Notif where
  payload := text.toUTF8
  order := ⟨id, SetOrder.perm_id⟩

/-- The text of a completion notif as the reading side writes it: the request id the reader was
given, and the size of the reading group. -/
def notifId (reqId : ReqId) (worldSize : ℕ) : String :=
  s!"{reqId}:{worldSize}"

/-! ## Request UUIDs -/

namespace ReqUuid

/-- The shape of a UUID. -/
def template : List Char := "xxxxxxxx-xxxx-xxxx-xxxx-xxxxxxxxxxxx".toList

def isHex (c : Char) : Bool :=
  ('0' ≤ c && c ≤ '9') || ('a' ≤ c && c ≤ 'f')

/-- The characters at the front of a text, when they fit a shape. -/
def matchAt : List Char → List Char → Option (List Char)
  | [], _ => some []
  | _ :: _, [] => none
  | shape :: shapes, c :: rest =>
      if (if shape = '-' then c = '-' else isHex c) then
        (matchAt shapes rest).map fun found => c :: found
      else
        none

/-- `_REQ_UUID_RE.search`: the first UUID in a text. -/
def search : List Char → Option (List Char)
  | [] => none
  | c :: rest =>
      match matchAt template (c :: rest) with
      | some found => some found
      | none => search rest

end ReqUuid

namespace Sending

/-- The maps of a new worker. -/
def init : Sending where
  reqsToSend := ∅
  reqsToProcess := ∅
  consumerNotificationCountsByReq := ∅

/-- The ids in either of the two maps that say what is live. -/
def live (sending : Sending) : List ReqId :=
  sending.reqsToSend.keys ++
    sending.reqsToProcess.keys.filter fun reqId => reqId ∉ sending.reqsToSend

/-! ## The end of `start_load_kv` -/

/-- The loop over `reqs_not_processed`.  The order of the set shows only when the assertion
fails. -/
def discardNotProcessed : List ReqId → Sending → Sending × Except PyError Unit
  | [], sending => (sending, .ok ())
  | reqId :: reqIds, sending =>
      let sending := { sending with reqsToProcess := sending.reqsToProcess.erase reqId }
      if reqId ∈ sending.reqsToSend then
        (sending, .error .assertionError)
      else
        discardNotProcessed reqIds sending

/-- One turn of the loop over `reqs_to_send`. -/
def trackExpiration (sending : Sending) (entry : Σ _ : ReqId, ℚ) : Sending :=
  if entry.1 ∈ sending.reqsToProcess then
    { sending with reqsToSend := sending.reqsToSend.set entry.1 entry.2 }
  else
    sending

/-- The end of `start_load_kv`: batch entry, aborts, expirations. -/
def startLoadKv (sending : Sending) (metadata : NixlConnectorMetadata) :
    Sending × Except PyError Unit :=
  let sending :=
    { sending with reqsToProcess := sending.reqsToProcess.addAll metadata.reqsInBatch.keys }
  match discardNotProcessed metadata.reqsNotProcessed.keys sending with
  | (sending, .ok ()) => (metadata.reqsToSend.entries.foldl trackExpiration sending, .ok ())
  | (sending, .error raised) => (sending, .error raised)

/-! ## Completion notifs -/

/-- `_resolve_free_notif_req_id`: the live request whose id contains the first UUID of the notif's
id; the one with the smallest expiration when there are several. -/
def resolveFreeNotifReqId (sending : Sending) (order : SetOrder) (notifReqId : ReqId) :
    Option ReqId :=
  match ReqUuid.search notifReqId.toList with
  | none => none
  | some uuid =>
      let found := (order.arrange sending.live).filter fun reqId => uuid <:+: reqId.toList
      let expiration (reqId : ReqId) : WithTop ℚ := sending.reqsToSend.lookup reqId
      if found.length > 1 then
        (found.insertionSort fun first second => expiration first ≤ expiration second).head?
      else
        found.head?

/-- `notif.decode("utf-8").rsplit(":", 1)`, unpacked into two. -/
def decodeNotif (payload : ByteArray) : Except PyError (ReqId × List Char) :=
  match String.fromUTF8? payload with
  | none => .error .valueError
  | some text =>
      match Text.rsplitOnce ':' text.toList with
      | none => .error .valueError
      | some (reqId, tpSize) => .ok (String.ofList reqId, tpSize)

/-- The request a notif is counted for: the one it names when that is live. -/
def targetOf (sending : Sending) (order : SetOrder) (reqId : ReqId) : Option ReqId :=
  if reqId ∉ sending.reqsToSend ∧ reqId ∉ sending.reqsToProcess then
    sending.resolveFreeNotifReqId order reqId
  else
    some reqId

/-- Count a notif for a request, and release the request when all consumers are done: `some` id
when it is released. -/
def countNotif (sending : Sending) (reqId : ReqId) (consumers : ℤ) :
    Sending × Except PyError (Option ReqId) :=
  let count := (sending.consumerNotificationCountsByReq.lookup reqId).getD 0 + 1
  if (count : ℤ) = consumers then
    let sending :=
      { sending with
        consumerNotificationCountsByReq := sending.consumerNotificationCountsByReq.erase reqId }
    if reqId ∈ sending.reqsToProcess then
      ({ sending with
          reqsToProcess := sending.reqsToProcess.erase reqId
          reqsToSend := sending.reqsToSend.erase reqId }, .ok (some reqId))
    else
      (sending, .error .keyError)
  else
    ({ sending with
        consumerNotificationCountsByReq :=
          sending.consumerNotificationCountsByReq.set reqId count }, .ok none)

end Sending

namespace SendingWorker

variable (worker : SendingWorker)

/-- The number of notifs to wait for, read from a notif's TP size. -/
def consumersPerProducer (tpSize : List Char) : Except PyError ℤ :=
  match Text.int tpSize with
  | none => .error .valueError
  | some consumers =>
      match worker.tpRatio consumers with
      | .error raised => .error raised
      | .ok tpRatio => .ok (if consumers > worker.worldSize then -tpRatio else 1)

/-- One turn of the loop over notifs. -/
def handleNotif (sending : Sending) (notif : Notif) :
    Sending × Except PyError (Option ReqId) :=
  if notif.payload.size = 0 then
    (sending, .ok none)
  else
    match Sending.decodeNotif notif.payload with
    | .error raised => (sending, .error raised)
    | .ok (reqId, tpSize) =>
        match sending.targetOf notif.order reqId with
        | none => (sending, .ok none)
        | some target =>
            match worker.consumersPerProducer tpSize with
            | .error raised => (sending, .error raised)
            | .ok consumers => sending.countNotif target consumers

/-- The loop of `_get_new_notifs`; `notified` is the set it collects. -/
def notifLoop : List Notif → Sending → KeySet ReqId → Sending × Except PyError (KeySet ReqId)
  | [], sending, notified => (sending, .ok notified)
  | notif :: notifs, sending, notified =>
      match worker.handleNotif sending notif with
      | (sending, .ok (some reqId)) => notifLoop notifs sending (notified.add reqId)
      | (sending, .ok none) => notifLoop notifs sending notified
      | (sending, .error raised) => (sending, .error raised)

/-- `_get_new_notifs`. -/
def getNewNotifs (sending : Sending) (notifs : List Notif) :
    Sending × Except PyError (KeySet ReqId) :=
  worker.notifLoop notifs sending ∅

end SendingWorker

namespace Sending

/-! ## Expired requests -/

/-- The loop that releases expired requests.  Every turn deletes the first entry of `reqsToSend`,
so the next turn looks at the next entry. -/
def releaseLoop (now : ℚ) : List (Σ _ : ReqId, ℚ) → Sending → KeySet ReqId →
    Sending × Except PyError (KeySet ReqId)
  | [], sending, done => (sending, .ok done)
  | ⟨reqId, expires⟩ :: entries, sending, done =>
      if now < expires then
        (sending, .ok done)
      else
        let sending :=
          { sending with
            consumerNotificationCountsByReq :=
              sending.consumerNotificationCountsByReq.erase reqId }
        if reqId ∈ sending.reqsToProcess then
          releaseLoop now entries
            { sending with
              reqsToProcess := sending.reqsToProcess.erase reqId
              reqsToSend := sending.reqsToSend.erase reqId }
            (done.add reqId)
        else
          (sending, .error .keyError)

def releaseExpired (now : ℚ) (sending : Sending) (done : KeySet ReqId) :
    Sending × Except PyError (KeySet ReqId) :=
  releaseLoop now sending.reqsToSend.entries sending done

end Sending

/-- The sending half of `get_finished`: `done_sending`. -/
def SendingWorker.getFinished (worker : SendingWorker) (sending : Sending) (notifs : List Notif)
    (now : ℚ) : Sending × Except PyError (KeySet ReqId) :=
  match worker.getNewNotifs sending notifs with
  | (sending, .ok done) => sending.releaseExpired now done
  | (sending, .error raised) => (sending, .error raised)

end RduHdi
