import ClipBridge.Core.Protocol
import ClipBridge.Lib.Base64
import ClipBridge.Lib.JsonRecord

/-!
# The wire messages as JSON

The `Serialize` and `Deserialize` of `core/src/protocol.rs`, as their attributes say: how each
type is written as a JSON value, and how it is read. A message has its tag among its members, so all
of it has been parsed before it is read; the payload of a clip is read here as part of a message.

* `toJson`, `ofJson` — for the payload of a clip, and for the messages of both directions.
* `fieldNames` — the fields a message reads; whatever else is there is ignored.
* `faithful` — what was written is read back, also when a newer version wrote further members.
* `wire_readable` — for the messages between client and relay, on texts.
-/

namespace ClipBridge

open Json (required defaulted asString asUInt8 asUInt32 asUInt64 asList asOption Faithful Variant
  record_fields shallow_str shallow_members)

/-- The names of the fields of all messages, and of the tag. -/
def wireNames : List String :=
  ["type", "group_id", "device_id", "ciphertext", "nonce", "ts", "device_name", "candidates",
    "candidate_networks", "sender_device_id", "clips", "reason", "peers", "addr", "prefix_len",
    "kind", "content", "image", "mime_type", "width", "height", "size_bytes", "sha256_hex",
    "nonce_b64", "version", "payload", "data", "last", "offer", "transfer_id", "offset",
    "source_device_id", "target_device_id", "file_name", "modified_unix_millis"]

/-- Written so that this version reads it back, and also what a newer one writes for it. -/
abbrev WireFaithful {α : Type} (toJson : α → Json) (ofJson : Json → Option α) (d : Nat) (a : α) :
    Prop :=
  Faithful wireNames toJson ofJson d a

theorem faithful_string (s : String) : WireFaithful .str asString 0 s := Json.faithful_string s

theorem faithful_uint8 (n : UInt8) : WireFaithful (fun n => .int n.toNat) asUInt8 0 n :=
  Json.faithful_uint8 n

theorem faithful_uint32 (n : UInt32) : WireFaithful (fun n => .int n.toNat) asUInt32 0 n :=
  Json.faithful_uint32 n

theorem faithful_uint64 (n : UInt64) : WireFaithful (fun n => .int n.toNat) asUInt64 0 n :=
  Json.faithful_uint64 n

theorem faithful_strings (ss : List String) :
    WireFaithful (fun ss => .arr (ss.map .str)) (asList asString) 1 ss :=
  Faithful.list fun s _ => faithful_string s

/-- `b64::serialize`. -/
def b64Json (bytes : Bytes) : Json := .str (String.ofList (Base64.standard.encode bytes))

/-- `b64::deserialize`. -/
def asB64 (v : Json) : Option Bytes :=
  v.asString.bind fun s => Base64.standard.decode s.toList

theorem faithful_b64 (bytes : Bytes) : WireFaithful b64Json asB64 0 bytes :=
  .of_read (by rintro v ⟨⟩; rfl)
    (by simp [asB64, b64Json, asString, Base64.Alphabet.decode_encode]) (shallow_str _)

/-! ## The payload of a clip -/

namespace ImageMeta

def fieldNames : List String :=
  ["mime_type", "width", "height", "size_bytes", "sha256_hex", "nonce_b64"]

def members (image : ImageMeta) : List (String × Json) :=
  [("mime_type", .str image.mimeType), ("width", .int image.width.toNat),
    ("height", .int image.height.toNat), ("size_bytes", .int image.sizeBytes.toNat),
    ("sha256_hex", .str image.sha256Hex), ("nonce_b64", .str image.nonceB64)]

def toJson (image : ImageMeta) : Json := .obj image.members

def ofJson (v : Json) : Option ImageMeta := do
  let r ← v.record fieldNames
  let mimeType ← required asString r "mime_type"
  let width ← required asUInt32 r "width"
  let height ← required asUInt32 r "height"
  let sizeBytes ← required asUInt64 r "size_bytes"
  let sha256Hex ← required asString r "sha256_hex"
  let nonceB64 ← required asString r "nonce_b64"
  return ⟨mimeType, width, height, sizeBytes, sha256Hex, nonceB64⟩

theorem faithful (image : ImageMeta) : WireFaithful toJson ofJson 1 image := by
  have hmime := faithful_string image.mimeType
  have hwidth := faithful_uint32 image.width
  have hheight := faithful_uint32 image.height
  have hsize := faithful_uint64 image.sizeBytes
  have hsha := faithful_string image.sha256Hex
  have hnonce := faithful_string image.nonceB64
  have hsub : (image.members.map Prod.fst).Sublist fieldNames := .refl _
  refine ⟨fun v hv => ?_, shallow_members ?_⟩
  · obtain ⟨r, hr, hfields, -⟩ := record_fields (by decide) (by decide) hsub hv
    simp only [members, List.forall_mem_cons] at hfields
    obtain ⟨h₁, h₂, h₃, h₄, h₅, h₆, -⟩ := hfields
    simp only [ofJson, hr, hmime.required h₁, hwidth.required h₂, hheight.required h₃,
      hsize.required h₄, hsha.required h₅, hnonce.required h₆, Option.bind_eq_bind,
      Option.bind_some, Option.pure_def]
  · simp [members, hmime.shallow, hwidth.shallow, hheight.shallow, hsize.shallow, hsha.shallow,
      hnonce.shallow]

end ImageMeta

namespace ClipKind

def name : ClipKind → String
  | text => "text"
  | image => "image"

def ofName (name : String) : Option ClipKind :=
  if name = "text" then some text
  else if name = "image" then some image
  else none

def toJson (kind : ClipKind) : Json := .str kind.name

/-- A unit variant, where the reader has seen the whole message before it knows the variant: also
an empty object stands for nothing. -/
def isBufferedUnit : Json → Bool
  | .null => true
  | .obj [] => true
  | _ => false

/-- The name of the kind, or an object with that name and nothing else, whose value is a unit. -/
def ofJson : Json → Option ClipKind
  | .str name => ofName name
  | .obj [(name, v)] => if isBufferedUnit v then ofName name else none
  | _ => none

theorem faithful (kind : ClipKind) : WireFaithful toJson ofJson 0 kind :=
  .of_read (by rintro v ⟨⟩; rfl) (by cases kind <;> rfl) (shallow_str _)

end ClipKind

namespace ClipPayload

def fieldNames : List String := ["kind", "content", "device_name", "ts", "image"]

def members (payload : ClipPayload) : List (String × Json) :=
  [("kind", payload.kind.toJson), ("content", .str payload.content),
    ("device_name", .str payload.deviceName), ("ts", .int payload.ts.toNat)] ++
    (payload.image.map fun image => ("image", image.toJson)).toList

def toJson (payload : ClipPayload) : Json := .obj payload.members

def ofJson (v : Json) : Option ClipPayload := do
  let r ← v.record fieldNames
  let kind ← required ClipKind.ofJson r "kind"
  let content ← defaulted "" asString r "content"
  let deviceName ← required asString r "device_name"
  let ts ← required asUInt64 r "ts"
  let image ← defaulted none (asOption ImageMeta.ofJson) r "image"
  return ⟨kind, content, deviceName, ts, image⟩

theorem faithful (payload : ClipPayload) : WireFaithful toJson ofJson 2 payload := by
  have hkind := ClipKind.faithful payload.kind
  have hcontent := faithful_string payload.content
  have hname := faithful_string payload.deviceName
  have hts := faithful_uint64 payload.ts
  have himage : WireFaithful _ _ 1 payload.image :=
    Faithful.option (fun image _ => ImageMeta.faithful image) fun image => by
      simp [ImageMeta.toJson]
  have hsub : (payload.members.map Prod.fst).Sublist fieldNames := by
    cases h : payload.image <;> simp [members, fieldNames, h]
  refine ⟨fun v hv => ?_, shallow_members ?_⟩
  · obtain ⟨r, hr, hfields, hmissing⟩ := record_fields (by decide) (by decide) hsub hv
    have himage := himage.skippable "image" none hfields hmissing
      (fun h => by simp [members, h])
      (fun h => by
        obtain ⟨image, h⟩ := Option.ne_none_iff_exists'.1 h
        simp [members, h])
    simp only [members, List.forall_mem_append, List.forall_mem_cons] at hfields
    obtain ⟨⟨h₁, h₂, h₃, h₄, -⟩, -⟩ := hfields
    simp only [ofJson, hr, hkind.required h₁, hcontent.defaulted h₂, hname.required h₃,
      hts.required h₄, himage, Option.bind_eq_bind, Option.bind_some, Option.pure_def]
  · cases himage : payload.image with
    | none =>
        simp [members, himage, hkind.shallow.mono, hcontent.shallow.mono, hname.shallow.mono,
          hts.shallow.mono]
    | some image =>
        simp [members, himage, hkind.shallow.mono, hcontent.shallow.mono, hname.shallow.mono,
          hts.shallow.mono, (ImageMeta.faithful image).shallow]

end ClipPayload

/-! ## The entries of messages -/

namespace LanCandidate

def fieldNames : List String := ["addr", "prefix_len"]

def members (candidate : LanCandidate) : List (String × Json) :=
  [("addr", .str candidate.addr), ("prefix_len", .int candidate.prefixLen.toNat)]

def toJson (candidate : LanCandidate) : Json := .obj candidate.members

def ofJson (v : Json) : Option LanCandidate := do
  let r ← v.record fieldNames
  let addr ← required asString r "addr"
  let prefixLen ← required asUInt8 r "prefix_len"
  return ⟨addr, prefixLen⟩

theorem faithful (candidate : LanCandidate) : WireFaithful toJson ofJson 1 candidate := by
  have haddr := faithful_string candidate.addr
  have hlen := faithful_uint8 candidate.prefixLen
  have hsub : (candidate.members.map Prod.fst).Sublist fieldNames := .refl _
  refine ⟨fun v hv => ?_, shallow_members ?_⟩
  · obtain ⟨r, hr, hfields, -⟩ := record_fields (by decide) (by decide) hsub hv
    simp only [members, List.forall_mem_cons] at hfields
    obtain ⟨h₁, h₂, -⟩ := hfields
    simp only [ofJson, hr, haddr.required h₁, hlen.required h₂, Option.bind_eq_bind,
      Option.bind_some, Option.pure_def]
  · simp [members, haddr.shallow, hlen.shallow]

end LanCandidate

/-- A string field, left out when it is empty. -/
def skippedString (name value : String) : List (String × Json) :=
  if value = "" then [] else [(name, .str value)]

namespace LanPeer

def fieldNames : List String := ["device_id", "device_name", "candidates"]

def members (peer : LanPeer) : List (String × Json) :=
  ("device_id", .str peer.deviceId) :: (skippedString "device_name" peer.deviceName ++
    [("candidates", .arr (peer.candidates.map .str))])

def toJson (peer : LanPeer) : Json := .obj peer.members

def ofJson (v : Json) : Option LanPeer := do
  let r ← v.record fieldNames
  let deviceId ← required asString r "device_id"
  let deviceName ← defaulted "" asString r "device_name"
  let candidates ← required (asList asString) r "candidates"
  return ⟨deviceId, deviceName, candidates⟩

theorem faithful (peer : LanPeer) : WireFaithful toJson ofJson 2 peer := by
  have hid := faithful_string peer.deviceId
  have hname := faithful_string peer.deviceName
  have hcandidates := faithful_strings peer.candidates
  have hsub : (peer.members.map Prod.fst).Sublist fieldNames := by
    by_cases h : peer.deviceName = "" <;> simp [members, skippedString, fieldNames, h]
  refine ⟨fun v hv => ?_, shallow_members ?_⟩
  · obtain ⟨r, hr, hfields, hmissing⟩ := record_fields (by decide) (by decide) hsub hv
    have hdevice := hname.skippable "device_name" "" hfields hmissing
      (fun h => by simp [members, skippedString, h])
      (fun h => by simp [members, skippedString, h])
    simp only [members, List.forall_mem_cons, List.forall_mem_append] at hfields
    obtain ⟨h₁, -, h₃, -⟩ := hfields
    simp only [ofJson, hr, hid.required h₁, hdevice, hcandidates.required h₃,
      Option.bind_eq_bind, Option.bind_some, Option.pure_def]
  · by_cases h : peer.deviceName = "" <;>
      simp [members, skippedString, h, hid.shallow.mono, hname.shallow.mono, hcandidates.shallow]

end LanPeer

namespace RecentClip

def fieldNames : List String := ["ciphertext", "nonce", "ts", "sender_device_id"]

def members (c : RecentClip) : List (String × Json) :=
  [("ciphertext", b64Json c.ciphertext), ("nonce", b64Json c.nonce), ("ts", .int c.ts.toNat),
    ("sender_device_id", .str c.senderDeviceId)]

def toJson (c : RecentClip) : Json := .obj c.members

def ofJson (v : Json) : Option RecentClip := do
  let r ← v.record fieldNames
  let ciphertext ← required asB64 r "ciphertext"
  let nonce ← required asB64 r "nonce"
  let ts ← required asUInt64 r "ts"
  let senderDeviceId ← required asString r "sender_device_id"
  return ⟨ciphertext, nonce, ts, senderDeviceId⟩

theorem faithful (c : RecentClip) : WireFaithful toJson ofJson 1 c := by
  have hciphertext := faithful_b64 c.ciphertext
  have hnonce := faithful_b64 c.nonce
  have hts := faithful_uint64 c.ts
  have hsender := faithful_string c.senderDeviceId
  have hsub : (c.members.map Prod.fst).Sublist fieldNames := .refl _
  refine ⟨fun v hv => ?_, shallow_members ?_⟩
  · obtain ⟨r, hr, hfields, -⟩ := record_fields (by decide) (by decide) hsub hv
    simp only [members, List.forall_mem_cons] at hfields
    obtain ⟨h₁, h₂, h₃, h₄, -⟩ := hfields
    simp only [ofJson, hr, hciphertext.required h₁, hnonce.required h₂, hts.required h₃,
      hsender.required h₄, Option.bind_eq_bind, Option.bind_some, Option.pure_def]
  · simp [members, hciphertext.shallow, hnonce.shallow, hts.shallow, hsender.shallow]

end RecentClip

/-! ## The messages of a client -/

namespace ClientMessage

/-- The tag. -/
def type : ClientMessage → String
  | join .. => "join"
  | publish .. => "publish"
  | fetchRecent .. => "fetch_recent"
  | lanAdvertise .. => "lan_advertise"

/-- The members after the tag. -/
def members : ClientMessage → List (String × Json)
  | join groupId deviceId => [("group_id", .str groupId), ("device_id", .str deviceId)]
  | publish groupId ciphertext nonce ts =>
      [("group_id", .str groupId), ("ciphertext", b64Json ciphertext), ("nonce", b64Json nonce),
        ("ts", .int ts.toNat)]
  | fetchRecent groupId => [("group_id", .str groupId)]
  | lanAdvertise groupId deviceId deviceName candidates candidateNetworks =>
      [("group_id", .str groupId), ("device_id", .str deviceId)] ++
        skippedString "device_name" deviceName ++
        [("candidates", .arr (candidates.map .str))] ++
        (if candidateNetworks = [] then []
        else [("candidate_networks", .arr (candidateNetworks.map LanCandidate.toJson))])

def toJson (msg : ClientMessage) : Json := .obj (("type", .str msg.type) :: msg.members)

/-- The fields of the variant with a tag. -/
def fieldNames (type : String) : List String :=
  if type = "join" then ["group_id", "device_id"]
  else if type = "publish" then ["group_id", "ciphertext", "nonce", "ts"]
  else if type = "fetch_recent" then ["group_id"]
  else if type = "lan_advertise" then
    ["group_id", "device_id", "device_name", "candidates", "candidate_networks"]
  else []

/-- The variant with a tag, from its fields. -/
def ofFields (type : String) (r : Json.Record) : Option ClientMessage :=
  if type = "join" then do
    let groupId ← required asString r "group_id"
    let deviceId ← required asString r "device_id"
    return join groupId deviceId
  else if type = "publish" then do
    let groupId ← required asString r "group_id"
    let ciphertext ← required asB64 r "ciphertext"
    let nonce ← required asB64 r "nonce"
    let ts ← required asUInt64 r "ts"
    return publish groupId ciphertext nonce ts
  else if type = "fetch_recent" then do
    let groupId ← required asString r "group_id"
    return fetchRecent groupId
  else if type = "lan_advertise" then do
    let groupId ← required asString r "group_id"
    let deviceId ← required asString r "device_id"
    let deviceName ← defaulted "" asString r "device_name"
    let candidates ← required (asList asString) r "candidates"
    let candidateNetworks ← defaulted [] (asList LanCandidate.ofJson) r "candidate_networks"
    return lanAdvertise groupId deviceId deviceName candidates candidateNetworks
  else none

def ofJson : Json → Option ClientMessage := Json.readVariant "type" fieldNames ofFields

theorem names_known (type : String) :
    "type" :: fieldNames type ⊆ wireNames ∧ ("type" :: fieldNames type).Nodup := by
  unfold fieldNames
  split_ifs <;> decide

theorem keys_sublist (msg : ClientMessage) :
    (msg.members.map Prod.fst).Sublist (fieldNames msg.type) := by
  cases msg with
  | join | publish | fetchRecent => exact List.Sublist.refl _
  | lanAdvertise groupId deviceId deviceName candidates candidateNetworks =>
      by_cases hname : deviceName = "" <;> by_cases hnetworks : candidateNetworks = [] <;>
        simp [members, skippedString, fieldNames, type, hname, hnetworks]

theorem faithful_networks (networks : List LanCandidate) :
    WireFaithful (fun networks => .arr (networks.map LanCandidate.toJson))
      (asList LanCandidate.ofJson) 2 networks :=
  Faithful.list fun candidate _ => LanCandidate.faithful candidate

/-- A record that has the members of the message is read as the message. -/
theorem ofFields_members (msg : ClientMessage) (r : Json.Record)
    (hfields : ∀ m ∈ msg.members, ∃ v, r m.1 = some v ∧ Json.Newer wireNames m.2 v)
    (hmissing : ∀ name ∉ msg.members.map Prod.fst, r name = none) :
    ofFields msg.type r = some msg := by
  cases msg with
  | join groupId deviceId =>
      simp only [members, List.forall_mem_cons] at hfields
      obtain ⟨h₁, h₂, -⟩ := hfields
      simp [type, ofFields, (faithful_string _).required h₁, (faithful_string _).required h₂]
  | publish groupId ciphertext nonce ts =>
      simp only [members, List.forall_mem_cons] at hfields
      obtain ⟨h₁, h₂, h₃, h₄, -⟩ := hfields
      simp [type, ofFields, (faithful_string _).required h₁, (faithful_b64 _).required h₂,
        (faithful_b64 _).required h₃, (faithful_uint64 _).required h₄]
  | fetchRecent groupId =>
      simp only [members, List.forall_mem_cons] at hfields
      simp [type, ofFields, (faithful_string _).required hfields.1]
  | lanAdvertise groupId deviceId deviceName candidates candidateNetworks =>
      have hname := (faithful_string deviceName).skippable "device_name" "" hfields hmissing
        (fun h => by
          by_cases hempty : candidateNetworks = [] <;> simp [members, skippedString, h, hempty])
        (fun h => by simp [members, skippedString, h])
      have hnetworks := (faithful_networks candidateNetworks).skippable "candidate_networks" []
        hfields hmissing
        (fun h => by
          by_cases hempty : deviceName = "" <;> simp [members, skippedString, h, hempty])
        (fun h => by simp [members, h])
      simp only [members, List.forall_mem_append, List.forall_mem_cons] at hfields
      obtain ⟨⟨⟨⟨h₁, h₂, -⟩, -⟩, h₃, -⟩, -⟩ := hfields
      simp [type, ofFields, (faithful_string _).required h₁, (faithful_string _).required h₂,
        hname, (faithful_strings _).required h₃, hnetworks]

theorem shallow (msg : ClientMessage) : ∀ m ∈ msg.members, Json.Shallow 2 m.2 := by
  cases msg with
  | join groupId deviceId => simp [members, (shallow_str _).mono]
  | publish groupId ciphertext nonce ts =>
      simp [members, (shallow_str _).mono, (faithful_b64 _).shallow.mono,
        (faithful_uint64 ts).shallow.mono]
  | fetchRecent groupId => simp [members, (shallow_str _).mono]
  | lanAdvertise groupId deviceId deviceName candidates candidateNetworks =>
      by_cases hname : deviceName = "" <;> by_cases hempty : candidateNetworks = [] <;>
        simp [members, skippedString, hname, hempty, (shallow_str _).mono,
          (faithful_strings candidates).shallow.mono, (faithful_networks candidateNetworks).shallow]

theorem variant (msg : ClientMessage) :
    Variant wireNames "type" msg.type msg.members fieldNames ofFields 2 msg where
  names := (names_known msg.type).1
  nodup := (names_known msg.type).2
  sublist := msg.keys_sublist
  ofFields := msg.ofFields_members
  shallow := msg.shallow

theorem faithful (msg : ClientMessage) : WireFaithful toJson ofJson 3 msg :=
  msg.variant.faithful

end ClientMessage

/-! ## The messages of the relay -/

namespace ServerMessage

/-- The tag. -/
def type : ServerMessage RecentClip → String
  | joined .. => "joined"
  | clip .. => "clip"
  | recent .. => "recent"
  | error .. => "error"
  | lanPeers .. => "lan_peers"

/-- The members after the tag. -/
def members : ServerMessage RecentClip → List (String × Json)
  | joined groupId => [("group_id", .str groupId)]
  | clip c => c.members
  | recent clips => [("clips", .arr (clips.map RecentClip.toJson))]
  | error reason => [("reason", .str reason)]
  | lanPeers peers => [("peers", .arr (peers.map LanPeer.toJson))]

def toJson (msg : ServerMessage RecentClip) : Json := .obj (("type", .str msg.type) :: msg.members)

/-- The fields of the variant with a tag. -/
def fieldNames (type : String) : List String :=
  if type = "joined" then ["group_id"]
  else if type = "clip" then RecentClip.fieldNames
  else if type = "recent" then ["clips"]
  else if type = "error" then ["reason"]
  else if type = "lan_peers" then ["peers"]
  else []

/-- The variant with a tag, from its fields. -/
def ofFields (type : String) (r : Json.Record) : Option (ServerMessage RecentClip) :=
  if type = "joined" then do
    let groupId ← required asString r "group_id"
    return joined groupId
  else if type = "clip" then do
    let ciphertext ← required asB64 r "ciphertext"
    let nonce ← required asB64 r "nonce"
    let ts ← required asUInt64 r "ts"
    let senderDeviceId ← required asString r "sender_device_id"
    return clip ⟨ciphertext, nonce, ts, senderDeviceId⟩
  else if type = "recent" then do
    let clips ← required (asList RecentClip.ofJson) r "clips"
    return recent clips
  else if type = "error" then do
    let reason ← required asString r "reason"
    return error reason
  else if type = "lan_peers" then do
    let peers ← required (asList LanPeer.ofJson) r "peers"
    return lanPeers peers
  else none

def ofJson : Json → Option (ServerMessage RecentClip) :=
  Json.readVariant "type" fieldNames ofFields

theorem names_known (type : String) :
    "type" :: fieldNames type ⊆ wireNames ∧ ("type" :: fieldNames type).Nodup := by
  unfold fieldNames
  split_ifs <;> decide

theorem faithful_clips (clips : List RecentClip) :
    WireFaithful (fun clips => .arr (clips.map RecentClip.toJson)) (asList RecentClip.ofJson) 2
      clips :=
  Faithful.list fun c _ => RecentClip.faithful c

theorem faithful_peers (peers : List LanPeer) :
    WireFaithful (fun peers => .arr (peers.map LanPeer.toJson)) (asList LanPeer.ofJson) 3 peers :=
  Faithful.list fun peer _ => LanPeer.faithful peer

theorem ofFields_members (msg : ServerMessage RecentClip) (r : Json.Record)
    (hfields : ∀ m ∈ msg.members, ∃ v, r m.1 = some v ∧ Json.Newer wireNames m.2 v) :
    ofFields msg.type r = some msg := by
  cases msg with
  | joined groupId =>
      simp only [members, List.forall_mem_cons] at hfields
      simp [type, ofFields, (faithful_string _).required hfields.1]
  | clip c =>
      simp only [members, RecentClip.members, List.forall_mem_cons] at hfields
      obtain ⟨h₁, h₂, h₃, h₄, -⟩ := hfields
      simp [type, ofFields, (faithful_b64 _).required h₁, (faithful_b64 _).required h₂,
        (faithful_uint64 _).required h₃, (faithful_string _).required h₄]
  | recent clips =>
      simp only [members, List.forall_mem_cons] at hfields
      simp [type, ofFields, (faithful_clips clips).required hfields.1]
  | error reason =>
      simp only [members, List.forall_mem_cons] at hfields
      simp [type, ofFields, (faithful_string _).required hfields.1]
  | lanPeers peers =>
      simp only [members, List.forall_mem_cons] at hfields
      simp [type, ofFields, (faithful_peers peers).required hfields.1]

theorem shallow (msg : ServerMessage RecentClip) : ∀ m ∈ msg.members, Json.Shallow 3 m.2 := by
  cases msg with
  | joined groupId => simp [members, (shallow_str _).mono]
  | clip c =>
      simp [members, RecentClip.members, (shallow_str _).mono, (faithful_b64 _).shallow.mono,
        (faithful_uint64 c.ts).shallow.mono]
  | recent clips => simp [members, (faithful_clips clips).shallow.mono]
  | error reason => simp [members, (shallow_str _).mono]
  | lanPeers peers => simp [members, (faithful_peers peers).shallow]

theorem variant (msg : ServerMessage RecentClip) :
    Variant wireNames "type" msg.type msg.members fieldNames ofFields 3 msg where
  names := (names_known msg.type).1
  nodup := (names_known msg.type).2
  sublist := by cases msg <;> exact List.Sublist.refl _
  ofFields r hfields _ := msg.ofFields_members r hfields
  shallow := msg.shallow

theorem faithful (msg : ServerMessage RecentClip) : WireFaithful toJson ofJson 4 msg :=
  msg.variant.faithful

end ServerMessage

/-! ## The texts -/

/-- The text of `a` is read as `a`, and so is every text of a value that a newer version may have
written for it: with members that no message of this version has, in any order, at any depth. -/
def Readable {α : Type} (toJson : α → Json) (ofJson : Json → Option α) (a : α) : Prop :=
  (Json.fromSlice (toJson a).text).bind ofJson = some a ∧
    ∀ bytes v, Json.fromSlice bytes = some v → Json.Newer wireNames (toJson a) v →
      (Json.fromSlice bytes).bind ofJson = some a

theorem WireFaithful.readsBack {α : Type} {toJson : α → Json} {ofJson : Json → Option α} {d : Nat}
    {a : α} (h : WireFaithful toJson ofJson d a) (hd : d < Json.maxDepth) :
    Readable toJson ofJson a :=
  ⟨h.fromSlice hd, fun _ _ hparse hnewer => h.fromSlice_newer hparse hnewer⟩

end ClipBridge
