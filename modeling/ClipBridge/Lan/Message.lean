import ClipBridge.Core.FileTransfer
import ClipBridge.Core.Protocol
import ClipBridge.Lib.JsonText

/-!
# The messages between LAN peers

Following `LanMessage` in `core/src/lan.rs`. A message is written as JSON, with its kind in the
field `type`; reading JSON back is left to the library, `LanJson`.

* `LanMessage.toVec` — the JSON text.
* `length_fileChunk_le`, `length_blobChunk_le`, `length_transferId_le` — how long the messages of a
  transfer are.
-/

namespace ClipBridge

inductive LanMessage where
  | hello (deviceId : DeviceId) (version : UInt32) (deviceName : String)
  | clip (senderDeviceId : DeviceId) (ts : UInt64) (payload : ClipPayload)
  | ping
  | blobRequest (sha256Hex : String)
  | blobChunk (data : Bytes) (last : Bool)
  | blobMiss (sha256Hex : String)
  | fileOffer (offer : FileOffer)
  | fileAccept (transferId : String)
  | fileReject (transferId reason : String)
  | fileChunk (transferId : String) (offset : UInt64) (data : Bytes)
  | fileComplete (transferId : String)
  | fileCancel (transferId reason : String)
  deriving DecidableEq, Repr

inductive LanError where
  | io (e : IoError)
  | mdns (message : String)
  | fileTransfer (e : FileTransferError)
  deriving DecidableEq, Repr

/-- `serde_json::from_slice` on a message. -/
class LanJson where
  fromSlice : Bytes → Except IoError LanMessage

namespace LanMessage

def frameLabel : LanMessage → String
  | hello .. => "hello"
  | clip .. => "clip"
  | ping => "ping"
  | blobRequest .. => "blob_request"
  | blobChunk .. => "blob_chunk"
  | blobMiss .. => "blob_miss"
  | fileOffer .. => "file_offer"
  | fileAccept .. => "file_accept"
  | fileReject .. => "file_reject"
  | fileChunk .. => "file_chunk"
  | fileComplete .. => "file_complete"
  | fileCancel .. => "file_cancel"

/-! ## Writing -/

open JsonText in
def imageJson (image : ImageMeta) : Bytes :=
  object [("mime_type", string image.mimeType), ("width", nat image.width.toNat),
    ("height", nat image.height.toNat), ("size_bytes", nat image.sizeBytes.toNat),
    ("sha256_hex", string image.sha256Hex), ("nonce_b64", string image.nonceB64)]

open JsonText in
def payloadJson (payload : ClipPayload) : Bytes :=
  object ([("kind", string (match payload.kind with | .text => "text" | .image => "image")),
    ("content", string payload.content), ("device_name", string payload.deviceName),
    ("ts", nat payload.ts.toNat)] ++
    (payload.image.map fun image => ("image", imageJson image)).toList)

open JsonText in
def offerJson (offer : FileOffer) : Bytes :=
  object [("transfer_id", string offer.transferId),
    ("source_device_id", string offer.sourceDeviceId),
    ("target_device_id", string offer.targetDeviceId), ("file_name", string offer.fileName),
    ("size_bytes", nat offer.sizeBytes.toNat),
    ("modified_unix_millis", option int offer.modifiedUnixMillis),
    ("mime_type", option string offer.mimeType), ("sha256_hex", string offer.sha256Hex)]

open JsonText in
/-- The fields after `type`. -/
def bodyFields : LanMessage → List (String × Bytes)
  | hello deviceId version deviceName =>
      [("device_id", string deviceId), ("version", nat version.toNat),
        ("device_name", string deviceName)]
  | clip senderDeviceId ts payload =>
      [("sender_device_id", string senderDeviceId), ("ts", nat ts.toNat),
        ("payload", payloadJson payload)]
  | ping => []
  | blobRequest sha256Hex => [("sha256_hex", string sha256Hex)]
  | blobChunk data last => [("data", base64 data), ("last", bool last)]
  | blobMiss sha256Hex => [("sha256_hex", string sha256Hex)]
  | fileOffer offer => [("offer", offerJson offer)]
  | fileAccept transferId => [("transfer_id", string transferId)]
  | fileReject transferId reason =>
      [("transfer_id", string transferId), ("reason", string reason)]
  | fileChunk transferId offset data =>
      [("transfer_id", string transferId), ("offset", nat offset.toNat), ("data", base64 data)]
  | fileComplete transferId => [("transfer_id", string transferId)]
  | fileCancel transferId reason =>
      [("transfer_id", string transferId), ("reason", string reason)]

/-- `serde_json::to_vec`. -/
def toVec (msg : LanMessage) : Bytes :=
  JsonText.object (("type", JsonText.string msg.frameLabel) :: msg.bodyFields)

/-! ## Lengths -/

section

variable {transferId : String}

theorem length_string_le {n : Nat} (h : transferId.toList.length ≤ n) :
    (JsonText.string transferId).length ≤ 6 * n + 2 :=
  Nat.le_trans (JsonText.length_string_le transferId) (by omega)

theorem length_fileChunk_le (h : transferId.toList.length ≤ 36) (offset : UInt64) (data : Bytes) :
    (fileChunk transferId offset data).toVec.length ≤ 4 * ((data.length + 2) / 3) + 313 := by
  have hid := length_string_le h
  have hoff : (JsonText.nat offset.toNat).length ≤ 20 :=
    JsonText.length_nat_le (by decide) (Nat.lt_trans offset.toNat_lt (by decide))
  have h₁ : (JsonText.string "type").length = 6 := by decide
  have h₂ : (JsonText.string "file_chunk").length = 12 := by decide
  have h₃ : (JsonText.string "transfer_id").length = 13 := by decide
  have h₄ : (JsonText.string "offset").length = 8 := by decide
  have h₅ : (JsonText.string "data").length = 6 := by decide
  simp only [toVec, frameLabel, bodyFields, JsonText.length_object_cons,
    JsonText.length_object_one, JsonText.length_field, JsonText.length_base64, h₁, h₂, h₃, h₄, h₅]
  omega

theorem length_blobChunk_le (data : Bytes) (last : Bool) :
    (blobChunk data last).toVec.length ≤ 4 * ((data.length + 2) / 3) + 60 := by
  have hlast : (JsonText.bool last).length ≤ 5 := by cases last <;> decide
  have h₁ : (JsonText.string "type").length = 6 := by decide
  have h₂ : (JsonText.string "blob_chunk").length = 12 := by decide
  have h₃ : (JsonText.string "data").length = 6 := by decide
  have h₄ : (JsonText.string "last").length = 6 := by decide
  simp only [toVec, frameLabel, bodyFields, JsonText.length_object_cons,
    JsonText.length_object_one, JsonText.length_field, JsonText.length_base64, h₁, h₂, h₃, h₄]
  omega

/-- The two messages that carry only the transfer id. -/
theorem length_transferId_le (h : transferId.toList.length ≤ 36) :
    (fileAccept transferId).toVec.length ≤ 300 ∧
      (fileComplete transferId).toVec.length ≤ 300 := by
  have hid := length_string_le h
  have h₁ : (JsonText.string "type").length = 6 := by decide
  have h₂ : (JsonText.string "file_accept").length = 13 := by decide
  have h₃ : (JsonText.string "file_complete").length = 15 := by decide
  have h₄ : (JsonText.string "transfer_id").length = 13 := by decide
  simp only [toVec, frameLabel, bodyFields, JsonText.length_object_cons,
    JsonText.length_object_one, JsonText.length_field, h₁, h₂, h₃, h₄]
  omega

end

end LanMessage

end ClipBridge
