import ClipBridge.Core.WireJson
import ClipBridge.Lan.Frame

/-!
# The LAN messages as JSON

The `Serialize` and `Deserialize` of `LanMessage` in `core/src/lan.rs`. The bytes that
`LanMessage.toVec` writes are the text of `LanMessage.toJson`, so `serde_json::from_slice` is a
parser followed by `LanMessage.ofJson`, and what frames ask of it is a theorem.

* `toVec_eq` — the bytes are the text of the value.
* `LanMessage.faithful` — a message is read back.
* `LanMessage.readsBack` — and so from its bytes, for every message that the program can build.
* `LanMessage.readable` — and from what a newer version may have written for it.
-/

namespace ClipBridge

open Json (required defaulted asString asBool asUInt32 asUInt64 asInt64 asOption Faithful Variant
  record_fields shallow_str shallow_members)

namespace FileOffer

def fieldNames : List String :=
  ["transfer_id", "source_device_id", "target_device_id", "file_name", "size_bytes",
    "modified_unix_millis", "mime_type", "sha256_hex"]

def members (offer : FileOffer) : List (String × Json) :=
  [("transfer_id", .str offer.transferId), ("source_device_id", .str offer.sourceDeviceId),
    ("target_device_id", .str offer.targetDeviceId), ("file_name", .str offer.fileName),
    ("size_bytes", .int offer.sizeBytes.toNat),
    ("modified_unix_millis", offer.modifiedUnixMillis.elim .null .int),
    ("mime_type", offer.mimeType.elim .null .str), ("sha256_hex", .str offer.sha256Hex)]

def toJson (offer : FileOffer) : Json := .obj offer.members

/-- A field of an optional type need not be there. -/
def ofJson (v : Json) : Option FileOffer := do
  let r ← v.record fieldNames
  let transferId ← required asString r "transfer_id"
  let sourceDeviceId ← required asString r "source_device_id"
  let targetDeviceId ← required asString r "target_device_id"
  let fileName ← required asString r "file_name"
  let sizeBytes ← required asUInt64 r "size_bytes"
  let modifiedUnixMillis ← defaulted none (asOption asInt64) r "modified_unix_millis"
  let mimeType ← defaulted none (asOption asString) r "mime_type"
  let sha256Hex ← required asString r "sha256_hex"
  return ⟨transferId, sourceDeviceId, targetDeviceId, fileName, sizeBytes, modifiedUnixMillis,
    mimeType, sha256Hex⟩

/-- The time of the last change is an `i64`. -/
def InI64 (offer : FileOffer) : Prop :=
  ∀ millis ∈ offer.modifiedUnixMillis, -2 ^ 63 ≤ millis ∧ millis < 2 ^ 63

theorem faithful {offer : FileOffer} (h : offer.InI64) : WireFaithful toJson ofJson 1 offer := by
  have hid := faithful_string offer.transferId
  have hsource := faithful_string offer.sourceDeviceId
  have htarget := faithful_string offer.targetDeviceId
  have hname := faithful_string offer.fileName
  have hsize := faithful_uint64 offer.sizeBytes
  have hmodified : WireFaithful _ _ 0 offer.modifiedUnixMillis :=
    Faithful.option (fun millis hmillis => Json.faithful_int64 (h millis hmillis)) (by simp)
  have hmime : WireFaithful _ _ 0 offer.mimeType :=
    Faithful.option (fun mime _ => faithful_string mime) (by simp)
  have hsha := faithful_string offer.sha256Hex
  have hsub : (offer.members.map Prod.fst).Sublist fieldNames := .refl _
  refine ⟨fun v hv => ?_, shallow_members ?_⟩
  · obtain ⟨r, hr, hfields, -⟩ := record_fields (by decide) (by decide) hsub hv
    simp only [members, List.forall_mem_cons] at hfields
    obtain ⟨h₁, h₂, h₃, h₄, h₅, h₆, h₇, h₈, -⟩ := hfields
    simp only [ofJson, hr, hid.required h₁, hsource.required h₂, htarget.required h₃,
      hname.required h₄, hsize.required h₅, hmodified.defaulted h₆, hmime.defaulted h₇,
      hsha.required h₈, Option.bind_eq_bind, Option.bind_some, Option.pure_def]
  · simp [members, hid.shallow, hsource.shallow, htarget.shallow, hname.shallow, hsize.shallow,
      hmodified.shallow, hmime.shallow, hsha.shallow]

end FileOffer

namespace LanMessage

/-- The members after the tag. -/
def members : LanMessage → List (String × Json)
  | hello deviceId version deviceName =>
      [("device_id", .str deviceId), ("version", .int version.toNat),
        ("device_name", .str deviceName)]
  | clip senderDeviceId ts payload =>
      [("sender_device_id", .str senderDeviceId), ("ts", .int ts.toNat),
        ("payload", payload.toJson)]
  | ping => []
  | blobRequest sha256Hex => [("sha256_hex", .str sha256Hex)]
  | blobChunk data last => [("data", b64Json data), ("last", .bool last)]
  | blobMiss sha256Hex => [("sha256_hex", .str sha256Hex)]
  | fileOffer offer => [("offer", offer.toJson)]
  | fileAccept transferId => [("transfer_id", .str transferId)]
  | fileReject transferId reason => [("transfer_id", .str transferId), ("reason", .str reason)]
  | fileChunk transferId offset data =>
      [("transfer_id", .str transferId), ("offset", .int offset.toNat), ("data", b64Json data)]
  | fileComplete transferId => [("transfer_id", .str transferId)]
  | fileCancel transferId reason => [("transfer_id", .str transferId), ("reason", .str reason)]

def toJson (msg : LanMessage) : Json := .obj (("type", .str msg.frameLabel) :: msg.members)

/-- The fields of the variant with a tag. -/
def fieldNames (type : String) : List String :=
  if type = "hello" then ["device_id", "version", "device_name"]
  else if type = "clip" then ["sender_device_id", "ts", "payload"]
  else if type = "blob_request" ∨ type = "blob_miss" then ["sha256_hex"]
  else if type = "blob_chunk" then ["data", "last"]
  else if type = "file_offer" then ["offer"]
  else if type = "file_accept" ∨ type = "file_complete" then ["transfer_id"]
  else if type = "file_reject" ∨ type = "file_cancel" then ["transfer_id", "reason"]
  else if type = "file_chunk" then ["transfer_id", "offset", "data"]
  else []

/-- The variant with a tag, from its fields. -/
def ofFields (type : String) (r : Json.Record) : Option LanMessage :=
  if type = "hello" then do
    let deviceId ← required asString r "device_id"
    let version ← required asUInt32 r "version"
    let deviceName ← defaulted "" asString r "device_name"
    return hello deviceId version deviceName
  else if type = "clip" then do
    let senderDeviceId ← required asString r "sender_device_id"
    let ts ← required asUInt64 r "ts"
    let payload ← required ClipPayload.ofJson r "payload"
    return clip senderDeviceId ts payload
  else if type = "ping" then some ping
  else if type = "blob_request" then do
    let sha256Hex ← required asString r "sha256_hex"
    return blobRequest sha256Hex
  else if type = "blob_chunk" then do
    let data ← required asB64 r "data"
    let last ← required asBool r "last"
    return blobChunk data last
  else if type = "blob_miss" then do
    let sha256Hex ← required asString r "sha256_hex"
    return blobMiss sha256Hex
  else if type = "file_offer" then do
    let offer ← required FileOffer.ofJson r "offer"
    return fileOffer offer
  else if type = "file_accept" then do
    let transferId ← required asString r "transfer_id"
    return fileAccept transferId
  else if type = "file_reject" then do
    let transferId ← required asString r "transfer_id"
    let reason ← required asString r "reason"
    return fileReject transferId reason
  else if type = "file_chunk" then do
    let transferId ← required asString r "transfer_id"
    let offset ← required asUInt64 r "offset"
    let data ← required asB64 r "data"
    return fileChunk transferId offset data
  else if type = "file_complete" then do
    let transferId ← required asString r "transfer_id"
    return fileComplete transferId
  else if type = "file_cancel" then do
    let transferId ← required asString r "transfer_id"
    let reason ← required asString r "reason"
    return fileCancel transferId reason
  else none

def ofJson : Json → Option LanMessage := Json.readVariant "type" fieldNames ofFields

/-- Its numbers are numbers of their types, which is to be said only of the signed one. -/
def InI64 : LanMessage → Prop
  | fileOffer offer => offer.InI64
  | _ => True

theorem names_known (type : String) :
    "type" :: fieldNames type ⊆ wireNames ∧ ("type" :: fieldNames type).Nodup := by
  unfold fieldNames
  split_ifs <;> decide

theorem faithful_bool (b : Bool) : WireFaithful .bool asBool 0 b := Json.faithful_bool b

/-- A record that has the members of the message is read as the message. -/
theorem ofFields_members {msg : LanMessage} (h : msg.InI64) (r : Json.Record)
    (hfields : ∀ m ∈ msg.members, ∃ v, r m.1 = some v ∧ Json.Newer wireNames m.2 v) :
    ofFields msg.frameLabel r = some msg := by
  cases msg with
  | hello deviceId version deviceName =>
      simp only [members, List.forall_mem_cons] at hfields
      obtain ⟨h₁, h₂, h₃, -⟩ := hfields
      simp [frameLabel, ofFields, (faithful_string _).required h₁,
        (faithful_uint32 _).required h₂, (faithful_string _).defaulted h₃]
  | clip senderDeviceId ts payload =>
      simp only [members, List.forall_mem_cons] at hfields
      obtain ⟨h₁, h₂, h₃, -⟩ := hfields
      simp [frameLabel, ofFields, (faithful_string _).required h₁,
        (faithful_uint64 _).required h₂, (ClipPayload.faithful _).required h₃]
  | ping => simp [frameLabel, ofFields]
  | blobRequest sha256Hex =>
      simp only [members, List.forall_mem_cons] at hfields
      simp [frameLabel, ofFields, (faithful_string _).required hfields.1]
  | blobChunk data last =>
      simp only [members, List.forall_mem_cons] at hfields
      obtain ⟨h₁, h₂, -⟩ := hfields
      simp [frameLabel, ofFields, (faithful_b64 _).required h₁, (faithful_bool _).required h₂]
  | blobMiss sha256Hex =>
      simp only [members, List.forall_mem_cons] at hfields
      simp [frameLabel, ofFields, (faithful_string _).required hfields.1]
  | fileOffer offer =>
      simp only [members, List.forall_mem_cons] at hfields
      simp [frameLabel, ofFields, (FileOffer.faithful h).required hfields.1]
  | fileAccept transferId =>
      simp only [members, List.forall_mem_cons] at hfields
      simp [frameLabel, ofFields, (faithful_string _).required hfields.1]
  | fileReject transferId reason =>
      simp only [members, List.forall_mem_cons] at hfields
      obtain ⟨h₁, h₂, -⟩ := hfields
      simp [frameLabel, ofFields, (faithful_string _).required h₁,
        (faithful_string _).required h₂]
  | fileChunk transferId offset data =>
      simp only [members, List.forall_mem_cons] at hfields
      obtain ⟨h₁, h₂, h₃, -⟩ := hfields
      simp [frameLabel, ofFields, (faithful_string _).required h₁,
        (faithful_uint64 _).required h₂, (faithful_b64 _).required h₃]
  | fileComplete transferId =>
      simp only [members, List.forall_mem_cons] at hfields
      simp [frameLabel, ofFields, (faithful_string _).required hfields.1]
  | fileCancel transferId reason =>
      simp only [members, List.forall_mem_cons] at hfields
      obtain ⟨h₁, h₂, -⟩ := hfields
      simp [frameLabel, ofFields, (faithful_string _).required h₁,
        (faithful_string _).required h₂]

theorem shallow {msg : LanMessage} (h : msg.InI64) : ∀ m ∈ msg.members, Json.Shallow 2 m.2 := by
  cases msg with
  | clip senderDeviceId ts payload =>
      simp [members, (shallow_str _).mono, (faithful_uint64 ts).shallow.mono,
        payload.faithful.shallow]
  | fileOffer offer => simp [members, (FileOffer.faithful h).shallow.mono]
  | hello deviceId version deviceName =>
      simp [members, (shallow_str _).mono, (faithful_uint32 version).shallow.mono]
  | blobChunk data last =>
      simp [members, (faithful_b64 data).shallow.mono, (faithful_bool last).shallow.mono]
  | fileChunk transferId offset data =>
      simp [members, (shallow_str _).mono, (faithful_uint64 offset).shallow.mono,
        (faithful_b64 data).shallow.mono]
  | _ => simp [members, (shallow_str _).mono]

theorem variant {msg : LanMessage} (h : msg.InI64) :
    Variant wireNames "type" msg.frameLabel msg.members fieldNames ofFields 2 msg where
  names := (names_known msg.frameLabel).1
  nodup := (names_known msg.frameLabel).2
  sublist := by cases msg <;> exact List.Sublist.refl _
  ofFields r hfields _ := ofFields_members h r hfields
  shallow := shallow h

theorem faithful {msg : LanMessage} (h : msg.InI64) : WireFaithful toJson ofJson 3 msg :=
  (variant h).faithful

/-! ## The bytes -/

theorem text_b64Json (bytes : Bytes) : (b64Json bytes).text = JsonText.base64 bytes := by
  rw [b64Json, Json.text_str, Base64.jsonText_base64]

theorem imageJson_eq (image : ImageMeta) : imageJson image = image.toJson.text := by
  simp [imageJson, ImageMeta.toJson, ImageMeta.members, Json.text_obj, Json.text_str, Json.text_nat]

theorem payloadJson_eq (payload : ClipPayload) : payloadJson payload = payload.toJson.text := by
  obtain ⟨kind, content, deviceName, ts, image⟩ := payload
  cases kind <;> cases image <;>
    simp [payloadJson, ClipPayload.toJson, ClipPayload.members, ClipKind.toJson, ClipKind.name,
      Json.text_obj, Json.text_str, Json.text_nat, imageJson_eq]

theorem offerJson_eq (offer : FileOffer) : offerJson offer = offer.toJson.text := by
  have hmodified : JsonText.option JsonText.int offer.modifiedUnixMillis =
      (offer.modifiedUnixMillis.elim Json.null Json.int).text := by
    cases offer.modifiedUnixMillis with
    | none => rfl
    | some millis => exact (Json.text_int millis).symm
  have hmime : JsonText.option JsonText.string offer.mimeType =
      (offer.mimeType.elim Json.null Json.str).text := by
    cases offer.mimeType with
    | none => rfl
    | some mime => exact (Json.text_str mime).symm
  simp [offerJson, FileOffer.toJson, FileOffer.members, Json.text_obj, Json.text_str,
    Json.text_nat, hmodified, hmime]

/-- **The bytes of a message are the text of its value.** -/
theorem toVec_eq (msg : LanMessage) : msg.toVec = msg.toJson.text := by
  cases msg <;>
    simp [toVec, bodyFields, toJson, members, Json.text_obj, Json.text_str, Json.text_nat,
      Json.text_bool, text_b64Json, payloadJson_eq, offerJson_eq]

/-- `serde_json::from_slice`, on what it reads a message from. -/
def parse (bytes : Bytes) : Option LanMessage := (Json.fromSlice bytes).bind ofJson

/-- The parser, with the texts that its errors have. -/
@[reducible] def lanJson (errorText : Bytes → String) : LanJson where
  fromSlice bytes := (parse bytes).elim (.error (errorText bytes)) .ok

theorem parse_toVec {msg : LanMessage} (h : msg.InI64) : parse msg.toVec = some msg := by
  rw [parse, toVec_eq]
  exact (faithful h).fromSlice (by decide)

theorem readsBack (errorText : Bytes → String) {msg : LanMessage} (h : msg.InI64) :
    @ReadsBack (lanJson errorText) msg := by
  show (parse msg.toVec).elim (Except.error (errorText msg.toVec)) Except.ok = Except.ok msg
  rw [parse_toVec h]
  rfl

/-- **Every message is read back from its bytes, and from every text that a newer version may have
written for it.** -/
theorem readable {msg : LanMessage} (h : msg.InI64) :
    parse msg.toVec = some msg ∧ Readable toJson ofJson msg :=
  ⟨parse_toVec h, (faithful h).readsBack (by decide)⟩

/-- A ping with a member that this version does not know, before the tag. -/
def sequencedPing : Json := .obj [("seq", .arr [.int 7, .float]), ("type", .str "ping")]

theorem readable_ping : parse ping.toVec = some ping ∧ parse sequencedPing.text = some ping := by
  have hping := @readable ping trivial
  have hnewer : Json.Newer wireNames ping.toJson sequencedPing :=
    @Json.Newer.obj _ _ [("type", .str "ping")] [("seq", .arr [.int 7, .float])] _
      (Json.Newer.reflMembers _) (by decide) (List.Perm.swap _ _ _)
  have hparse : Json.fromSlice sequencedPing.text = some sequencedPing :=
    Json.fromSlice_text
      (by simp [sequencedPing, Json.Plain, Json.PlainMembers, Json.PlainItems, Json.InRange])
      (by decide)
  exact ⟨hping.1, hping.2.2 _ _ hparse hnewer⟩

end LanMessage

end ClipBridge
