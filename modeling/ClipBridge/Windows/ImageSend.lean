import ClipBridge.Client.Image
import ClipBridge.Lib.LruSet
import ClipBridge.Relay.BlobStore

/-!
# Sending an image from Windows

Following `encode_for_wire`, `try_publish_image` and `send_image_bytes` of
`clients/windows/src/bridge.rs`. The image is encoded so that it keeps within `MAX_IMAGE_BYTES`;
what is longer is not sent. `send_image` then uploads the ciphertext, and the relay compares the
length of that with its own limit. The history of sent images is left out.

* `encodeForWire`, `tryPublishImage`, `sendImageBytes` — what is handed to `publish_image`.
* `put_fits_iff` — the relay takes what the guard admits exactly if it is 16 bytes below the limit.
-/

namespace ClipBridge.Windows

open Relay (BlobStore BlobKey Iteration PutError)

/-- The image crate. -/
class ImageCodec where
  DynamicImage : Type
  loadFromMemory : Bytes → Option DynamicImage
  dimensions : DynamicImage → UInt32 × UInt32
  rgba8 : DynamicImage → Bytes
  writePng : DynamicImage → Option Bytes
  writeJpeg : UInt8 → DynamicImage → Option Bytes

/-- "Match the relay's default `CLIPBRIDGE_BLOB_MAX_BYTES`." -/
def maxImageBytes : Nat := 32 * 1024 * 1024

/-- The bytes may also be JPEG: `mime` says. -/
structure NormalizedPng where
  bytes : Bytes
  mime : String
  width : UInt32
  height : UInt32
  deriving DecidableEq, Repr

section

variable [ImageCodec]

open ImageCodec

/-! ## The encoding -/

def normalized (img : DynamicImage) (mime : String) (bytes : Bytes) : NormalizedPng :=
  ⟨bytes, mime, (dimensions img).1, (dimensions img).2⟩

/-- PNG if it fits, or else JPEG at a quality at which it fits, or else at the lowest. -/
def encodeDynamicForWire (img : DynamicImage) (skipPng : Bool) : Option NormalizedPng :=
  let within (bytes : Option Bytes) := bytes.filter fun b => b.length ≤ maxImageBytes
  match if skipPng then none else within (writePng img) with
  | some png => some (normalized img "image/png" png)
  | none =>
      match [92, 85, 75, 60].findSome? fun quality => within (writeJpeg quality img) with
      | some jpeg => some (normalized img "image/jpeg" jpeg)
      | none => (writeJpeg 50 img).map (normalized img "image/jpeg")

def encodeForWire (bytes : Bytes) : Option NormalizedPng :=
  let isPng := [0x89, 0x50, 0x4e, 0x47].isPrefixOf bytes
  let isJpeg := [0xff, 0xd8, 0xff].isPrefixOf bytes
  if (isPng || isJpeg) && bytes.length ≤ maxImageBytes then
    (loadFromMemory bytes).map fun img =>
      normalized img (if isPng then "image/png" else "image/jpeg") bytes
  else
    (loadFromMemory bytes).bind fun img => encodeDynamicForWire img (isPng || isJpeg)

/-! ## The guard -/

variable [Sha256]

def pixelHashHex (pngBytes : Bytes) : Option String :=
  (loadFromMemory pngBytes).map fun img => sha256Hex (rgba8 img)

/-- What goes to `publish_image`, if it is not too long and not seen before. -/
def tryPublishImage (hashes : LruSet String 32) (png : NormalizedPng) :
    Option NormalizedPng × LruSet String 32 :=
  if maxImageBytes < png.bytes.length then (none, hashes)
  else
    match pixelHashHex png.bytes with
    | none => (none, hashes)
    | some h =>
        let (seen, hashes) := hashes.touch h
        if seen then (none, hashes) else (some png, hashes)

/-- An image that can be decoded is not published if it is too long or recent. -/
theorem tryPublishImage_fst {hashes : LruSet String 32} {png : NormalizedPng} {h : String}
    (hhash : pixelHashHex png.bytes = some h) : (tryPublishImage hashes png).1 =
      if maxImageBytes < png.bytes.length ∨ h ∈ hashes.keys then none else some png := by
  unfold tryPublishImage
  by_cases hlong : maxImageBytes < png.bytes.length
  · rw [if_pos hlong, if_pos (.inl hlong)]
  · rw [if_neg hlong, hhash]
    dsimp only
    rw [hashes.touch_fst]
    by_cases hmem : h ∈ hashes.keys <;> simp [hmem, hlong]

theorem tryPublishImage_eq_none {hashes : LruSet String 32} {png : NormalizedPng} {h : String}
    (hhash : pixelHashHex png.bytes = some h) : (tryPublishImage hashes png).1 = none ↔
      maxImageBytes < png.bytes.length ∨ h ∈ hashes.keys := by
  rw [tryPublishImage_fst hhash, ite_eq_left_iff, imp_iff_not_or, not_not]
  exact or_iff_left nofun

theorem tryPublishImage_eq_some {hashes : LruSet String 32} {png : NormalizedPng} {h : String}
    (hhash : pixelHashHex png.bytes = some h) : (tryPublishImage hashes png).1 = some png ↔
      png.bytes.length ≤ maxImageBytes ∧ h ∉ hashes.keys := by
  rw [tryPublishImage_fst hhash, ← Nat.not_lt, ← not_or]
  by_cases hrefused : maxImageBytes < png.bytes.length ∨ h ∈ hashes.keys
  · rw [if_pos hrefused]
    exact iff_of_false nofun (not_not_intro hrefused)
  · rw [if_neg hrefused]
    exact iff_of_true rfl hrefused

/-- From a file that was picked: what goes to `publish_image`, or an error. -/
def sendImageBytes (hashes : LruSet String 32) (bytes : Bytes) :
    Except String NormalizedPng × LruSet String 32 :=
  match encodeForWire bytes with
  | none => (.error "图片解码失败", hashes)
  | some png =>
      if maxImageBytes < png.bytes.length then
        (.error ("图片压缩后仍 " ++ toString (png.bytes.length / 1024 / 1024) ++
          "MB,超过 32MB 上限"), hashes)
      else
        match pixelHashHex png.bytes with
        | some h => (.ok png, (hashes.touch h).2)
        | none => (.ok png, hashes)

omit [Sha256] in
/-- A PNG file that fits is sent as it is. -/
theorem encodeForWire_verbatim {bytes : Bytes} {img : DynamicImage}
    (hkind : [0x89, 0x50, 0x4e, 0x47].isPrefixOf bytes = true)
    (hlen : bytes.length ≤ maxImageBytes) (hload : loadFromMemory bytes = some img) :
    encodeForWire bytes = some (normalized img "image/png" bytes) := by
  unfold encodeForWire
  simp [hkind, hlen, hload]

theorem sendImageBytes_verbatim {hashes : LruSet String 32} {bytes : Bytes} {img : DynamicImage}
    (hkind : [0x89, 0x50, 0x4e, 0x47].isPrefixOf bytes = true)
    (hlen : bytes.length ≤ maxImageBytes) (hload : loadFromMemory bytes = some img) :
    (sendImageBytes hashes bytes).1 = .ok (normalized img "image/png" bytes) := by
  have hguard : ¬ maxImageBytes < (normalized img "image/png" bytes).bytes.length :=
    Nat.not_lt.2 hlen
  unfold sendImageBytes
  rw [encodeForWire_verbatim hkind hlen hload]
  dsimp only
  rw [if_neg hguard]
  split <;> rfl

/-- An image that is handed to `publish_image`. -/
def Admitted (png : NormalizedPng) : Prop :=
  (∃ hashes, (tryPublishImage hashes png).1 = some png) ∨
    ∃ hashes bytes, (sendImageBytes hashes bytes).1 = .ok png

end

/-! ## The relay's limit -/

section

variable [Aead]

/-- The tag of ChaCha20-Poly1305. -/
def AddsTag (key : Key) : Prop :=
  ∀ nonce plain cipher : Bytes, Aead.encrypt key nonce plain = some cipher →
    cipher.length = plain.length + 16

/-- What `send_image` uploads. -/
def uploadBody (key : Key) (nonce imageBytes : Bytes) : Option Bytes :=
  (encrypt key nonce imageBytes).toOption.map Prod.fst

theorem length_uploadBody {key : Key} (htag : AddsTag key) {nonce imageBytes body : Bytes}
    (h : uploadBody key nonce imageBytes = some body) : body.length = imageBytes.length + 16 := by
  unfold uploadBody encrypt at h
  cases henc : Aead.encrypt key nonce imageBytes with
  | none => simp [henc, Except.toOption] at h
  | some cipher =>
      simp only [henc, Except.toOption, Option.map_some, Option.some.injEq] at h
      rw [← h]
      exact htag nonce imageBytes cipher henc

variable [Sha256]

/-- **A relay with the default limit does not find an image too large exactly if its bytes stay
below the client's limit, which is the same, by the tag.** -/
theorem put_fits_iff {key : Key} (htag : AddsTag key) {env : String → Option String}
    (hdefault : (env "CLIPBRIDGE_BLOB_MAX_BYTES").bind BlobStore.parseU64 = none)
    (calls : List BlobStore.BlobCall)
    (png : NormalizedPng) {nonce body : Bytes}
    (hbody : uploadBody key nonce png.bytes = some body) (blobKey : BlobKey)
    (now insertedAt : Instant) (it : Iteration) :
    (∀ max, ((BlobStore.run (.blobStoreFromEnv env) calls).put blobKey body now insertedAt it).1 ≠
      .error (.tooLarge max)) ↔ png.bytes.length ≤ maxImageBytes - 16 := by
  have hmax : (BlobStore.blobStoreFromEnv env).maxBlobBytes.toNat = maxImageBytes := by
    show (BlobStore.parseEnvU64 env "CLIPBRIDGE_BLOB_MAX_BYTES" _).toNat = _
    unfold BlobStore.parseEnvU64
    rw [hdefault]
    decide
  have hsixteen : 16 ≤ maxImageBytes := by decide
  rw [← not_exists, BlobStore.put_tooLarge_iff, (BlobStore.sameLimits_run _ calls).max, hmax,
    length_uploadBody htag hbody]
  omega

end

/-! ## An image at the limit -/

section

/-- One grey pixel. -/
def pixelPng : Bytes :=
  [0x89, 0x50, 0x4e, 0x47, 0x0d, 0x0a, 0x1a, 0x0a, 0x00, 0x00, 0x00, 0x0d, 0x49, 0x48, 0x44, 0x52,
    0x00, 0x00, 0x00, 0x01, 0x00, 0x00, 0x00, 0x01, 0x08, 0x00, 0x00, 0x00, 0x00, 0x3a, 0x7e, 0x9b,
    0x55, 0x00, 0x00, 0x00, 0x0a, 0x49, 0x44, 0x41, 0x54, 0x78, 0xda, 0x63, 0x60, 0x00, 0x00, 0x00,
    0x02, 0x00, 0x01, 0xe5, 0x27, 0xde, 0xfc, 0x00, 0x00, 0x00, 0x00, 0x49, 0x45, 0x4e, 0x44, 0xae,
    0x42, 0x60, 0x82]

/-- The same image, in a file that is as long as the guard admits: what follows the end of a PNG is
not read. -/
def paddedPng : Bytes := pixelPng ++ List.replicate (maxImageBytes - 67) 0

/-- Decodes what starts with `pixelPng`. -/
@[reducible] def pixelCodec : ImageCodec where
  DynamicImage := Unit
  loadFromMemory bytes := if pixelPng.isPrefixOf bytes then some () else none
  dimensions _ := (1, 1)
  rgba8 _ := [0, 0, 0, 255]
  writePng _ := some pixelPng
  writeJpeg _ _ := none

local instance : ImageCodec := pixelCodec

local instance : Aead := tagAead

def zeroNonce : Bytes := List.replicate nonceLen 0

theorem addsTag_tagAead (key : Key) : AddsTag key := by
  intro nonce plain cipher henc
  cases henc
  simp

/-- What is uploaded of an image. -/
def sealed (bytes : Bytes) : Bytes := bytes ++ List.replicate 16 0

/-- SHA-256 at the pixel, at its file and at what is uploaded of it. -/
@[reducible] def pixelSha256 : Sha256 :=
  tableSha256
    [([0, 0, 0, 255], 0xe3820096cb82366b860b8a4e668453a7aaaf423af03bdf289fa308ea03a79332),
      (pixelPng, 0xa4d4c009619311d9b83904acfd62fe3b7f918c312522bbcc6ad51cdec4fd1edf),
      (sealed pixelPng, 0x58a16008cd0948deace373ded1b05ad30b5f7b0735c402711c8986059d368e24)]

local instance : Sha256 := pixelSha256

theorem uploadBody_sealed (bytes : Bytes) : uploadBody zeroKey zeroNonce bytes =
    some (sealed bytes) := rfl

theorem pixel_fits :
    (BlobStore.put (.blobStoreFromEnv fun _ => none) ⟨"g", sha256Hex (sealed pixelPng)⟩
      (sealed pixelPng) 0 0 BlobStore.asStored).1 ≠ .error (.tooLarge (32 * 1024 * 1024)) :=
  (put_fits_iff (addsTag_tagAead zeroKey) rfl [] ⟨pixelPng, "image/png", 1, 1⟩
    (uploadBody_sealed pixelPng) _ 0 0 BlobStore.asStored).2 (by decide) _

theorem length_paddedPng : paddedPng.length = maxImageBytes := by
  rw [paddedPng, List.length_append, List.length_replicate]
  rfl

/-- The padded image is admitted, and the relay refuses it. -/
theorem paddedPng_tooLarge :
    Admitted ⟨paddedPng, "image/png", 1, 1⟩ ∧
    ¬ ∀ (png : NormalizedPng) (body : Bytes) (blobKey : BlobKey) (max : UInt64), Admitted png →
      uploadBody zeroKey zeroNonce png.bytes = some body →
      (BlobStore.put (.blobStoreFromEnv fun _ => none) blobKey body 0 0 BlobStore.asStored).1 ≠
        .error (.tooLarge max) := by
  have hload : pixelCodec.loadFromMemory paddedPng = some () :=
    if_pos (List.isPrefixOf_iff_prefix.2 (List.prefix_append ..))
  have hadmitted : Admitted ⟨paddedPng, "image/png", 1, 1⟩ :=
    .inr ⟨.empty, paddedPng, sendImageBytes_verbatim rfl length_paddedPng.le hload⟩
  refine ⟨hadmitted, fun h => ?_⟩
  have hlong : (BlobStore.blobStoreFromEnv fun _ => none).maxBlobBytes.toNat <
      (sealed paddedPng).length := by
    rw [sealed, List.length_append, length_paddedPng, List.length_replicate]
    decide
  obtain ⟨max, hmax⟩ := BlobStore.put_tooLarge_iff.2 hlong
  exact h _ _ ⟨"g", ""⟩ max hadmitted (uploadBody_sealed paddedPng) hmax

end

end ClipBridge.Windows
