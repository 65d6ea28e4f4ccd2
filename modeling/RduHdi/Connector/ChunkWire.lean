import RduHdi.Connector.HostStaging
import RduHdi.Text

/-!
# The wire form of a chunk notif

A chunk notif is one blob of five fields with bars between them.  The request id is free text and
comes before the delimited fields, so a reader has to split from the right: the index, the flag
and the block ids hold no bar, whatever the request id holds.
-/

namespace RduHdi

/-- What every blob starts with. -/
def chunkReadyFront : List Char := "chunkready|".toList

/-- The flag of a chunk, as the wire has it. -/
def decodeFlag : List Char → Option Bool
  | ['1'] => some true
  | ['0'] => some false
  | _ => none

/-- The fields after the prefix, split off from the right. -/
def decodeFields (fields : List Char) : Option (ReqId × ChunkNotif) := do
  let (fields, blocks) ← Text.rsplitOnce '|' fields
  let (fields, flag) ← Text.rsplitOnce '|' fields
  let (reqId, index) ← Text.rsplitOnce '|' fields
  let chunkIdx ← Text.nat? index
  let isLast ← decodeFlag flag
  let blockIds ← Text.readNats ',' blocks
  return (String.ofList reqId, { chunkIdx, isLast, blockIds })

/-- Read a blob as a consumer would: strip the prefix and split off the last three fields. -/
def decodeChunkReady (blob : ByteArray) : Option (ReqId × ChunkNotif) := do
  let text ← String.fromUTF8? blob
  let fields ← text.toList.dropPrefix? chunkReadyFront
  decodeFields fields

theorem toList_blockCsv (blockIds : List ℕ) :
    (blockCsv blockIds).toList = Text.joinNats ',' blockIds := by
  simp [blockCsv, Text.joinNats, String.toList_intercalate, Function.comp_def]

/-- The characters of the flag. -/
def flagText (isLast : Bool) : List Char :=
  if isLast then ['1'] else ['0']

@[simp]
theorem decodeFlag_flagText (isLast : Bool) : decodeFlag (flagText isLast) = some isLast := by
  cases isLast <;> rfl

theorem bar_notMem_flagText (isLast : Bool) : '|' ∉ flagText isLast := by
  cases isLast <;> decide

/-- The fields of a blob after its prefix. -/
def chunkFields (reqId : ReqId) (chunk : ChunkNotif) : List Char :=
  ((reqId.toList ++ '|' :: Nat.toDigits 10 chunk.chunkIdx) ++ '|' :: flagText chunk.isLast) ++
    '|' :: Text.joinNats ',' chunk.blockIds

/-- The blob is the encoding of one text, the prefix and the fields after it. -/
theorem chunkReadyNotif_eq (reqId : ReqId) (chunk : ChunkNotif) :
    chunkReadyNotif reqId chunk =
      (String.ofList (chunkReadyFront ++ chunkFields reqId chunk)).toUTF8 := by
  have front : chunkReadyFront = "chunkready".toList ++ ['|'] := by decide
  have bar : "|".toList = ['|'] := by decide
  have digits : (toString chunk.chunkIdx).toList = Nat.toDigits 10 chunk.chunkIdx := by
    simp [toString, Nat.repr]
  have flag : (if chunk.isLast then "1" else "0" : String).toList = flagText chunk.isLast := by
    cases chunk.isLast <;> rfl
  have text : String.ofList (chunkReadyFront ++ chunkFields reqId chunk) =
      "chunkready" ++ ("|" ++ reqId ++ "|" ++ toString chunk.chunkIdx ++ "|" ++
        (if chunk.isLast then "1" else "0") ++ "|" ++ blockCsv chunk.blockIds) := by
    rw [← String.toList_inj, String.toList_ofList]
    simp only [String.toList_append, digits, flag, bar, toList_blockCsv, chunkFields, front,
      List.append_assoc, List.cons_append, List.nil_append]
  rw [text, chunkReadyNotif, chunkReadyNotifPrefix]
  simp only [String.toUTF8_eq_toByteArray, String.toByteArray_append]

theorem decodeFields_chunkFields (reqId : ReqId) (chunk : ChunkNotif) :
    decodeFields (chunkFields reqId chunk) = some (reqId, chunk) := by
  have blocks : '|' ∉ Text.joinNats ',' chunk.blockIds :=
    Text.notMem_joinNats (by decide) (by decide) chunk.blockIds
  have index : '|' ∉ Nat.toDigits 10 chunk.chunkIdx :=
    Text.notMem_toDigits (by decide) chunk.chunkIdx
  have csv : Text.readNats ',' (Text.joinNats ',' chunk.blockIds) = some chunk.blockIds :=
    Text.readNats_joinNats (by decide) chunk.blockIds
  rw [decodeFields, chunkFields, Text.rsplitOnce_append _ blocks]
  simp only [Option.bind_eq_bind, Option.bind_some]
  rw [Text.rsplitOnce_append _ (bar_notMem_flagText chunk.isLast)]
  simp only [Option.bind_some]
  rw [Text.rsplitOnce_append _ index]
  simp [csv]

theorem decodeChunkReady_encoded (reqId : ReqId) (chunk : ChunkNotif) :
    decodeChunkReady (chunkReadyNotif reqId chunk) = some (reqId, chunk) := by
  rw [chunkReadyNotif_eq, decodeChunkReady, Text.fromUTF8?_toUTF8]
  simp only [Option.bind_eq_bind, Option.bind_some, String.toList_ofList]
  rw [List.dropPrefix?_append_of_beq _ (beq_self_eq_true chunkReadyFront)]
  exact decodeFields_chunkFields reqId chunk

/-- A blob determines the request id, the index, the flag and the block ids, for every request id
and for the empty list of blocks too: the decoder returns what was encoded, so two blobs are equal
only when all fields are. -/
theorem chunkReadyNotif_unambiguous (reqId : ReqId) (chunk : ChunkNotif) :
    decodeChunkReady (chunkReadyNotif reqId chunk) = some (reqId, chunk) ∧
      ∀ otherId other, chunkReadyNotif reqId chunk = chunkReadyNotif otherId other ↔
        reqId = otherId ∧ chunk = other := by
  refine ⟨decodeChunkReady_encoded reqId chunk, fun otherId other => ⟨fun same => ?_, ?_⟩⟩
  · have decoded := congrArg decodeChunkReady same
    rw [decodeChunkReady_encoded, decodeChunkReady_encoded] at decoded
    simpa using decoded
  · rintro ⟨rfl, rfl⟩
    rfl

end RduHdi
