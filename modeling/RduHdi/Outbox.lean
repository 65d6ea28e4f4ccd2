import RduHdi.Dict

/-!
# Outboxes

A sender that holds its messages back, one queue for each key, until it is connected, and sends
everything it held the moment it is.  For every key, what was sent followed by what is held is
what was posted: nothing is lost, doubled or reordered.
-/

/-- An outbox with keys `κ` and messages `α`. -/
structure Outbox (κ α : Type*) where
  /-- Whether there is someone to send to. -/
  connected : Bool
  /-- What waits, by key. -/
  held : Dict κ (List α)
  /-- What was sent, in order. -/
  sent : List (κ × α)

namespace Outbox

variable {κ α : Type*} [DecidableEq κ]

/-- The messages of one key, in the order of a list. -/
def ofKey (key : κ) (messages : List (κ × α)) : List α :=
  messages.filterMap fun entry => if entry.1 = key then some entry.2 else none

@[simp]
theorem ofKey_nil (key : κ) : ofKey key ([] : List (κ × α)) = [] := rfl

@[simp]
theorem ofKey_append (key : κ) (left right : List (κ × α)) :
    ofKey key (left ++ right) = ofKey key left ++ ofKey key right :=
  List.filterMap_append

@[simp]
theorem ofKey_singleton (key : κ) (entry : κ × α) :
    ofKey key [entry] = if entry.1 = key then [entry.2] else [] := by
  by_cases same : entry.1 = key <;> simp [ofKey, same]

/-- Everything a dictionary of queues holds, queue by queue. -/
def drained (held : List (Σ _ : κ, List α)) : List (κ × α) :=
  held.flatMap fun entry => entry.2.map fun message => (entry.1, message)

/-- Post a message: send it when connected, hold it otherwise. -/
def post (box : Outbox κ α) (key : κ) (message : α) : Outbox κ α :=
  if box.connected then
    { box with sent := box.sent ++ [(key, message)] }
  else
    { box with held := box.held.set key ((box.held.lookup key).getD [] ++ [message]) }

/-- Connect, and send everything held. -/
def connect (box : Outbox κ α) : Outbox κ α where
  connected := true
  held := ∅
  sent := box.sent ++ drained box.held.entries

/-- What was sent for a key, followed by what is held for it. -/
def stream (box : Outbox κ α) (key : κ) : List α :=
  ofKey key box.sent ++ (box.held.lookup key).getD []

/-- A connected outbox holds nothing. -/
def Settled (box : Outbox κ α) : Prop :=
  box.connected = true → box.held = ∅

theorem ofKey_drained {held : List (Σ _ : κ, List α)} (nodup : held.NodupKeys) (key : κ) :
    ofKey key (drained held) = (held.dlookup key).getD [] := by
  induction held with
  | nil => rfl
  | cons entry held ih =>
      obtain ⟨head, queue⟩ := entry
      rw [List.nodupKeys_cons] at nodup
      have whole : drained (⟨head, queue⟩ :: held) =
          queue.map (fun message => (head, message)) ++ drained held := rfl
      rw [whole, ofKey_append, ih nodup.2]
      by_cases same : head = key
      · subst same
        have absent : held.dlookup head = none := List.dlookup_eq_none.mpr nodup.1
        rw [List.dlookup_cons_eq, absent]
        simp [ofKey]
      · rw [List.dlookup_cons_ne _ _ (Ne.symm same)]
        simp [ofKey, same]

theorem settled_post {box : Outbox κ α} (settled : box.Settled) (key : κ) (message : α) :
    (box.post key message).Settled := by
  cases connected : box.connected with
  | true => simpa [Settled, post, connected] using settled connected
  | false => simp [Settled, post, connected]

omit [DecidableEq κ] in
theorem settled_connect (box : Outbox κ α) : box.connect.Settled := fun _ => rfl

theorem stream_post {box : Outbox κ α} (settled : box.Settled) (posted : κ) (message : α)
    (key : κ) :
    (box.post posted message).stream key =
      box.stream key ++ if posted = key then [message] else [] := by
  cases connected : box.connected with
  | true =>
      have empty := settled connected
      simp [stream, post, connected, empty]
  | false =>
      by_cases same : posted = key
      · subst same
        simp [stream, post, connected]
      · simp [stream, post, connected, same, Ne.symm same]

theorem stream_connect (box : Outbox κ α) (key : κ) : box.connect.stream key = box.stream key := by
  have drains : ofKey key (drained box.held.entries) = (box.held.lookup key).getD [] :=
    ofKey_drained box.held.nodupKeys key
  simp [stream, connect, drains]

end Outbox
