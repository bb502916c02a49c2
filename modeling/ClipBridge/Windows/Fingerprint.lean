import ClipBridge.Windows.ImageHistory

/-!
# The fingerprint of an image

Following `pixel_hash_hex` in `clients/windows/src/bridge.rs`, and the two places that take an image
with a remembered fingerprint for one that is already there: `try_publish_image` and
`handle_remote_image`. What is hashed is the RGBA bytes, and not the size of the image.

* `SameImage` — the same width, height and pixels.
* `Identifies` — two files have one fingerprint if their images are the same, and neither check
  drops one image for another.
* `identifies_iff` — so it is exactly if the images do not differ in their size alone.
-/

namespace ClipBridge.Windows

open ImageCodec

section

variable [ImageCodec]

/-- The same width, height and pixels. -/
def SameImage (a b : DynamicImage) : Prop := dimensions a = dimensions b ∧ rgba8 a = rgba8 b

variable [Sha256]

/-- The hashes, once the image of a file was published or received. -/
def remember (hashes : LruSet String 32) (bytes : Bytes) : LruSet String 32 :=
  match pixelHashHex bytes with
  | some h => (hashes.touch h).2
  | none => hashes

/-- What the checks make of the image of file `B` when that of file `A` was remembered before. -/
structure Identifies (A B : Bytes) (a b : DynamicImage) : Prop where
  hash : pixelHashHex A = pixelHashHex B ↔ SameImage a b
  publish : ∀ (hashes : LruSet String 32) (png : NormalizedPng), png.bytes = B →
    png.bytes.length ≤ maxImageBytes → (tryPublishImage hashes png).1 = some png →
    (tryPublishImage (remember hashes A) png).1 = none → SameImage a b
  receive : ∀ (hashes : LruSet String 32) (deviceName sender : String) (image : ImageMeta)
    (ts : UInt64),
    (admitImage deviceName hashes (.remote image sender ts (some B))).1.isSome →
    (admitImage deviceName (remember hashes A) (.remote image sender ts (some B))).1 = none →
    SameImage a b

/-! ## The checks -/

theorem admitImage_remote_eq_none {deviceName : String} {hashes : LruSet String 32}
    {image : ImageMeta} {sender : String} {ts : UInt64} {bytes : Bytes} {h : String}
    (hhash : pixelHashHex bytes = some h) :
    (admitImage deviceName hashes (.remote image sender ts (some bytes))).1 = none ↔
      h ∈ hashes.keys := by
  simp only [admitImage, hhash, hashes.touch_fst]
  by_cases hmem : h ∈ hashes.keys <;> simp [hmem]

section

variable {A B : Bytes} {a b : DynamicImage}

theorem pixelHashHex_eq (hA : loadFromMemory A = some a) :
    pixelHashHex A = some (sha256Hex (rgba8 a)) := by
  rw [pixelHashHex, hA, Option.map_some]

/-- Two files have one fingerprint if their images have the same bytes, as long as SHA-256 tells
them apart. -/
theorem pixelHashHex_eq_iff (hA : loadFromMemory A = some a) (hB : loadFromMemory B = some b)
    (hinj : Sha256.digest (rgba8 a) = Sha256.digest (rgba8 b) → rgba8 a = rgba8 b) :
    pixelHashHex A = pixelHashHex B ↔ rgba8 a = rgba8 b := by
  rw [pixelHashHex_eq hA, pixelHashHex_eq hB, Option.some.injEq, sha256Hex_inj]
  exact ⟨hinj, fun h => by rw [h]⟩

/-- A fingerprint that is known only since `A` was remembered is that of `A`. -/
theorem pixelHashHex_eq_of_mem {hashes : LruSet String 32} {h : String}
    (hB : pixelHashHex B = some h) (hbefore : h ∉ hashes.keys)
    (hafter : h ∈ (remember hashes A).keys) : pixelHashHex A = pixelHashHex B := by
  unfold remember at hafter
  cases hhash : pixelHashHex A with
  | none =>
      rw [hhash] at hafter
      exact absurd hafter hbefore
  | some remembered =>
      rw [hhash] at hafter
      rcases LruSet.mem_of_mem_touch hafter with rfl | hold
      · exact hB.symm
      · exact absurd hold hbefore

/-- **A fingerprint identifies an image exactly as far as images do not differ in their size
alone.** The assumption is that SHA-256 does not collide on the two. -/
theorem identifies_iff (hA : loadFromMemory A = some a) (hB : loadFromMemory B = some b)
    (hinj : Sha256.digest (rgba8 a) = Sha256.digest (rgba8 b) → rgba8 a = rgba8 b) :
    Identifies A B a b ↔ (rgba8 a = rgba8 b → dimensions a = dimensions b) := by
  have hbytes := pixelHashHex_eq_iff hA hB hinj
  have hhash := pixelHashHex_eq hB
  constructor
  · exact fun h hrgba => (h.hash.1 (hbytes.2 hrgba)).1
  · intro hsize
    have hsame : pixelHashHex A = pixelHashHex B → SameImage a b := fun h =>
      ⟨hsize (hbytes.1 h), hbytes.1 h⟩
    constructor
    case hash => exact ⟨hsame, fun h => hbytes.2 h.2⟩
    case publish =>
      rintro hashes png rfl hlen hnew hdropped
      have hbefore : sha256Hex (rgba8 b) ∉ hashes.keys := by
        intro hmem
        rw [(tryPublishImage_eq_none hhash).2 (.inr hmem)] at hnew
        cases hnew
      rcases (tryPublishImage_eq_none hhash).1 hdropped with hlong | hafter
      · exact absurd hlen (Nat.not_le.2 hlong)
      · exact hsame (pixelHashHex_eq_of_mem hhash hbefore hafter)
    case receive =>
      intro hashes deviceName sender image ts hnew hdropped
      have hbefore : sha256Hex (rgba8 b) ∉ hashes.keys := by
        intro hmem
        rw [(admitImage_remote_eq_none hhash).2 hmem] at hnew
        cases hnew
      exact hsame (pixelHashHex_eq_of_mem hhash hbefore
        ((admitImage_remote_eq_none hhash).1 hdropped))

end

end

/-! ## Two pixels in a row and in a column -/

/-- Two black pixels, one beside the other. -/
def widePng : Bytes :=
  [0x89, 0x50, 0x4e, 0x47, 0x0d, 0x0a, 0x1a, 0x0a, 0x00, 0x00, 0x00, 0x0d, 0x49, 0x48, 0x44, 0x52,
    0x00, 0x00, 0x00, 0x02, 0x00, 0x00, 0x00, 0x01, 0x08, 0x00, 0x00, 0x00, 0x00, 0xd1, 0x49, 0x20,
    0x56, 0x00, 0x00, 0x00, 0x0b, 0x49, 0x44, 0x41, 0x54, 0x78, 0xda, 0x63, 0x60, 0x60, 0x00, 0x00,
    0x00, 0x03, 0x00, 0x01, 0x2b, 0x09, 0x4d, 0x84, 0x00, 0x00, 0x00, 0x00, 0x49, 0x45, 0x4e, 0x44,
    0xae, 0x42, 0x60, 0x82]

/-- Two black pixels, one below the other. -/
def tallPng : Bytes :=
  [0x89, 0x50, 0x4e, 0x47, 0x0d, 0x0a, 0x1a, 0x0a, 0x00, 0x00, 0x00, 0x0d, 0x49, 0x48, 0x44, 0x52,
    0x00, 0x00, 0x00, 0x01, 0x00, 0x00, 0x00, 0x02, 0x08, 0x00, 0x00, 0x00, 0x00, 0xbc, 0xea, 0xe9,
    0xfb, 0x00, 0x00, 0x00, 0x0c, 0x49, 0x44, 0x41, 0x54, 0x78, 0xda, 0x63, 0x60, 0x60, 0x60, 0x00,
    0x00, 0x00, 0x04, 0x00, 0x01, 0xc8, 0xea, 0xeb, 0xf9, 0x00, 0x00, 0x00, 0x00, 0x49, 0x45, 0x4e,
    0x44, 0xae, 0x42, 0x60, 0x82]

/-- Decodes three files, of black images: an image is its width and height. -/
@[reducible] def blackCodec : ImageCodec where
  DynamicImage := UInt32 × UInt32
  loadFromMemory bytes :=
    if bytes = pixelPng then some (1, 1)
    else if bytes = widePng then some (2, 1)
    else if bytes = tallPng then some (1, 2)
    else none
  dimensions img := img
  rgba8 img := (List.replicate (img.1 * img.2).toNat [0, 0, 0, 255]).flatten
  writePng _ := none
  writeJpeg _ _ := none

/-- SHA-256 at one black pixel and at two. -/
@[reducible] def blackSha256 : Sha256 :=
  tableSha256
    [([0, 0, 0, 255], 0xe3820096cb82366b860b8a4e668453a7aaaf423af03bdf289fa308ea03a79332),
      ([0, 0, 0, 255, 0, 0, 0, 255],
        0xd5953f0c4e8f8c1510a9c0b37278a3b3855b97c5cf8155f2f4efe96b63da630b)]

theorem load_pixelPng : blackCodec.loadFromMemory pixelPng = some (1, 1) := if_pos rfl

theorem load_widePng : blackCodec.loadFromMemory widePng = some (2, 1) :=
  (if_neg (by decide +kernel)).trans (if_pos rfl)

theorem load_tallPng : blackCodec.loadFromMemory tallPng = some (1, 2) :=
  (if_neg (by decide +kernel)).trans ((if_neg (by decide +kernel)).trans (if_pos rfl))

/-- A pixel is told from two. -/
theorem pixel_identifies_wide :
    @Identifies blackCodec blackSha256 pixelPng widePng ((1, 1) : UInt32 × UInt32)
      ((2, 1) : UInt32 × UInt32) := by
  have hdigest : blackSha256.digest (blackCodec.rgba8 (1, 1)) ≠
      blackSha256.digest (blackCodec.rgba8 (2, 1)) := by decide +kernel
  have hrgba : blackCodec.rgba8 (1, 1) ≠ blackCodec.rgba8 (2, 1) := by decide +kernel
  exact (@identifies_iff blackCodec blackSha256 _ _ _ _ load_pixelPng load_widePng
    (absurd · hdigest)).2 (absurd · hrgba)

/-- The row and the column have one fingerprint. -/
theorem wide_tall_alike :
    ¬ ∀ (_ : ImageCodec) (_ : Sha256) (A B : Bytes) (a b : DynamicImage),
      loadFromMemory A = some a → loadFromMemory B = some b →
      (Sha256.digest (rgba8 a) = Sha256.digest (rgba8 b) → rgba8 a = rgba8 b) →
      Identifies A B a b := by
  intro h
  have hrgba : blackCodec.rgba8 (2, 1) = blackCodec.rgba8 (1, 2) := by decide +kernel
  obtain ⟨hiff, -, -⟩ := h blackCodec blackSha256 widePng tallPng (2, 1) (1, 2) load_widePng
    load_tallPng fun _ => hrgba
  have hhash : @pixelHashHex blackCodec blackSha256 widePng =
      @pixelHashHex blackCodec blackSha256 tallPng := by decide +kernel
  have hsize : blackCodec.dimensions (2, 1) = blackCodec.dimensions (1, 2) :=
    (hiff.1 hhash).1
  exact absurd hsize (by decide)

end ClipBridge.Windows
