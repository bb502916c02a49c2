import ClipBridge.Windows.ImageSend
import ClipBridge.Windows.RememberHash

/-!
# A failed publish and the next try

Following `try_publish_image` and `publish_image` in `clients/windows/src/bridge.rs`. The hash of an
image is remembered before the image is published, and stays remembered if that fails: there is no
client, the upload fails, or the clip cannot be sent. Copied again, the image is taken for an echo.

The thread that hears of the clipboard is in one call at a time. Received images and images sent by
hand are remembered in between, by other threads.

* `ImageRetry` — the hashes, and the images whose last try failed.
* `Retried` — the next event with such an image hands it to `publish_image` again.
* `Forgotten` — it fits, and 32 other hashes were used since its own.
* `retried_iff` — each failed image is tried again, in a whole run, exactly if it is forgotten by
  then.
-/

namespace ClipBridge.Windows

open LastUses (Recent)

/-- Recorded beside the hashes are their uses in order, the ones from before the run first, and the
images whose last try failed and that were neither published nor received since. -/
structure ImageRetry where
  recentImageHashes : LruSet String 32
  uses : List String
  /-- `publish_image` has not returned for this image. -/
  publishing : Option String
  failed : List String

inductive RetryEvent where
  /-- The clipboard changes, and this is its image. -/
  | clipboard (png : NormalizedPng)
  /-- `publish_image` returns. -/
  | publishImage (published : Bool)
  /-- `remember_hash` for an image that was received, or that is sent by hand. -/
  | rememberOther (hash : String)
  /-- Such an image was received, or published. -/
  | settled (hash : String)
  deriving DecidableEq, Repr

section

variable [Sha256] [ImageCodec]

namespace ImageRetry

def init (hashes : LruSet String 32) : ImageRetry := ⟨hashes, hashes.keys, none, []⟩

/-- `remember_hash` is reached by an image that fits and that can be decoded. -/
def remembered (png : NormalizedPng) : Option String :=
  if maxImageBytes < png.bytes.length then none else pixelHashHex png.bytes

def onClipboard (s : ImageRetry) (png : NormalizedPng) : ImageRetry :=
  match s.publishing with
  | some _ => s
  | none =>
      let (published, hashes) := tryPublishImage s.recentImageHashes png
      { recentImageHashes := hashes
        uses := s.uses ++ (remembered png).toList
        publishing := published.bind fun png => pixelHashHex png.bytes
        failed := s.failed.filter fun hash => some hash ≠ pixelHashHex png.bytes }

def onPublishImage (s : ImageRetry) (published : Bool) : ImageRetry :=
  match s.publishing with
  | none => s
  | some hash =>
      { s with publishing := none, failed := if published then s.failed else hash :: s.failed }

def step (s : ImageRetry) : RetryEvent → ImageRetry
  | .clipboard png => s.onClipboard png
  | .publishImage published => s.onPublishImage published
  | .rememberOther hash =>
      { s with recentImageHashes := (s.recentImageHashes.touch hash).2, uses := s.uses ++ [hash] }
  | .settled hash => { s with failed := s.failed.filter fun other => other ≠ hash }

/-- An image whose last try failed is tried again. -/
def Retried (s : ImageRetry) : RetryEvent → Prop
  | .clipboard png => s.publishing = none → ∀ hash ∈ pixelHashHex png.bytes, hash ∈ s.failed →
      (tryPublishImage s.recentImageHashes png).1 = some png
  | _ => True

/-- It fits, and it is not one of the 32 hashes that were used last. -/
def Forgotten (s : ImageRetry) : RetryEvent → Prop
  | .clipboard png => s.publishing = none → ∀ hash ∈ pixelHashHex png.bytes, hash ∈ s.failed →
      png.bytes.length ≤ maxImageBytes ∧ ¬ Recent id hashCap s.uses hash
  | _ => True

/-! ## The hashes -/

/-- The hashes are what the uses say. -/
def Remembers (s : ImageRetry) : Prop := TracksHashes s.uses s.recentImageHashes.keys

omit [Sha256] [ImageCodec] in
theorem remembers_init (hashes : LruSet String 32) : (init hashes).Remembers :=
  tracksHashes_self hashes.nodup hashes.bounded

omit [Sha256] [ImageCodec] in
theorem tracksHashes_touch {uses : List String} {hashes : LruSet String 32}
    (h : TracksHashes uses hashes.keys) (hash : String) :
    TracksHashes (uses ++ [hash]) (hashes.touch hash).2.keys := by
  have hcall := tracksHashes_call h hash
  have htouch : rememberHash hashes.keys hash =
      ((hashes.touch hash).1, (hashes.touch hash).2.keys) := touch_eq hashes hash
  rwa [htouch] at hcall

/-- An image is remembered if it gets that far. -/
theorem tryPublishImage_snd (hashes : LruSet String 32) (png : NormalizedPng) :
    (tryPublishImage hashes png).2 =
      match remembered png with
      | some hash => (hashes.touch hash).2
      | none => hashes := by
  unfold tryPublishImage remembered
  split
  · rfl
  · cases pixelHashHex png.bytes with
    | none => rfl
    | some hash =>
        dsimp only
        split <;> rfl

variable {s : ImageRetry}

theorem remembers_clipboard (hs : s.Remembers) (png : NormalizedPng) :
    (s.onClipboard png).Remembers := by
  unfold onClipboard
  cases s.publishing with
  | some hash => exact hs
  | none =>
      show TracksHashes (s.uses ++ (remembered png).toList)
        (tryPublishImage s.recentImageHashes png).2.keys
      rw [tryPublishImage_snd]
      cases remembered png with
      | none =>
          rw [Option.toList_none, List.append_nil]
          exact hs
      | some hash => exact tracksHashes_touch hs hash

theorem remembers_step (hs : s.Remembers) (e : RetryEvent) : (s.step e).Remembers := by
  cases e with
  | clipboard png => exact remembers_clipboard hs png
  | publishImage published =>
      show (s.onPublishImage published).Remembers
      unfold onPublishImage
      split
      · exact hs
      · exact hs
  | rememberOther hash => exact tracksHashes_touch hs hash
  | settled hash => exact hs

/-! ## Trying again -/

theorem retried_step_iff (hs : s.Remembers) (e : RetryEvent) : s.Retried e ↔ s.Forgotten e := by
  cases e with
  | clipboard png =>
      refine imp_congr_right fun _ => forall_congr' fun hash => ?_
      refine forall_congr' fun hhash => imp_congr_right fun _ => ?_
      rw [tryPublishImage_eq_some hhash, TracksHashes.mem_iff hs]
  | publishImage published => exact Iff.rfl
  | rememberOther hash => exact Iff.rfl
  | settled hash => exact Iff.rfl

end ImageRetry

open ImageRetry in
/-- **A failed image is tried again, at every event of a run, exactly if by then it fits and is
forgotten**, whatever is remembered at the start. -/
theorem retried_iff (hashes : LruSet String 32) (events : List RetryEvent) :
    Machine.Along step Retried (init hashes) events ↔
      Machine.Along step Forgotten (init hashes) events :=
  Machine.along_congr (I := Remembers) (fun _ e _ hs => remembers_step hs e)
    (fun _ e hs => retried_step_iff hs e) (remembers_init hashes)

end

open ImageRetry in
/-- There is no client yet; the image is copied again. -/
theorem noClient_notRetried :
    ¬ ∀ (_ : Sha256) (_ : ImageCodec) (hashes : LruSet String 32) (events : List RetryEvent),
      Machine.Along step Retried (init hashes) events := by
  intro h
  have hrun := h pixelSha256 pixelCodec .empty [.clipboard ⟨pixelPng, "image/png", 1, 1⟩,
    .publishImage false, .clipboard ⟨pixelPng, "image/png", 1, 1⟩]
  have hretried := hrun.2.2.1 (by decide +kernel) (@sha256Hex pixelSha256 [0, 0, 0, 255])
    (by decide +kernel) (by decide +kernel)
  exact absurd hretried (by decide +kernel)

end ClipBridge.Windows
