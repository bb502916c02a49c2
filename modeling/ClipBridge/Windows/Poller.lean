import ClipBridge.Windows.Echo
import ClipBridge.Windows.ImageSend

/-!
# The polling fallback

Following `spawn_poller` of `clients/windows/src/bridge.rs`. Where Windows gives no notice of a
change, a thread reads the clipboard twice a second, and tells a change by what it remembers: a text
or the hash of an image, each of which makes it forget the other.

* `Fresh` — a tick that publishes has seen another content than the tick before.
* `Refused` — what the tick turns to in a content that it has seen before, and that offers both an
  image and a text, is not published for another reason.
* `Remembers` — what the thread remembers of the content that it saw last.
* `fresh_iff` — the ticks of a run are fresh exactly if they are refused where that matters; and
  then no more clips are published than the content has changed.
-/

namespace ClipBridge.Windows

/-! ## Ticks -/

/-- What the clipboard offers when it is read. -/
structure ClipboardContent where
  image : Option NormalizedPng
  text : Option String
  deriving DecidableEq, Repr

inductive PolledClip where
  | text (payload : ClipPayload)
  | image (png : NormalizedPng)
  deriving DecidableEq, Repr

/-- The thread with what it shares with the rest of the bridge. Recorded beside is the content that
it saw last. -/
structure Poller where
  bridge : EchoBridge
  recentImageHashes : LruSet String 32
  lastText : Option String
  lastImageHash : Option String
  seen : Option ClipboardContent

inductive PollEvent where
  /-- Time goes by, or a text is received. -/
  | bridge (e : EchoEvent)
  /-- An image is received or sent by hand. -/
  | remember (hash : String)
  /-- One turn of the loop, at `ts` by the system clock. -/
  | tick (content : ClipboardContent) (ts : UInt64)

section

variable [Sha256] [ImageCodec]

/-- The hash of the image, if there is one that can be decoded. -/
def ClipboardContent.imageHash (content : ClipboardContent) : Option String :=
  content.image.bind fun png => pixelHashHex png.bytes

namespace Poller

def init (bridge : EchoBridge) (hashes : LruSet String 32) : Poller :=
  ⟨bridge, hashes, none, none, none⟩

/-- An image other than the last one, with its hash. -/
def newImage (s : Poller) (content : ClipboardContent) : Option (NormalizedPng × String) :=
  content.image.bind fun png =>
    (pixelHashHex png.bytes).bind fun h =>
      if some h ≠ s.lastImageHash then some (png, h) else none

/-- A text other than the last one. -/
def newText (s : Poller) (content : ClipboardContent) : Option String :=
  content.text.filter fun text => text ≠ "" ∧ some text ≠ s.lastText

/-- Images come first, and an image that is not new leaves the turn to the text. -/
def tick (s : Poller) (content : ClipboardContent) (ts : UInt64) : Option PolledClip × Poller :=
  match s.newImage content with
  | some (png, h) =>
      let (published, hashes) := tryPublishImage s.recentImageHashes png
      (published.map .image,
        { s with
          recentImageHashes := hashes
          lastImageHash := some h
          lastText := none
          seen := some content })
  | none =>
      match s.newText content with
      | some text =>
          ((s.bridge.tryPublishText text ts).map .text,
            { s with lastText := some text, lastImageHash := none, seen := some content })
      | none => (none, { s with seen := some content })

def step (s : Poller) : PollEvent → Poller
  | .bridge e => { s with bridge := s.bridge.step e }
  | .remember hash => { s with recentImageHashes := (s.recentImageHashes.touch hash).2 }
  | .tick content ts => (s.tick content ts).2

/-- What a step publishes. -/
def published (s : Poller) : PollEvent → List PolledClip
  | .tick content ts => (s.tick content ts).1.toList
  | _ => []

/-- The content that a step finds changed. -/
def changes (s : Poller) : PollEvent → List ClipboardContent
  | .tick content _ => if s.seen = some content then [] else [content]
  | _ => []

/-! ## What counts as a change -/

/-- A tick that publishes sees another content than the tick before. -/
def Fresh (s : Poller) : PollEvent → Prop
  | .tick content ts => s.seen = some content → (s.tick content ts).1 = none
  | _ => True

/-- Where a tick sees the content of the tick before, with both an image and a text: the text is an
echo that is expected, if the image is the last one; or else the image is too long or recent. -/
def Refused (s : Poller) : PollEvent → Prop
  | .tick content _ => s.seen = some content → ∀ png h text, content.image = some png →
      pixelHashHex png.bytes = some h → content.text = some text → text ≠ "" →
      if s.lastImageHash = some h then s.bridge.isEcho text = true
      else maxImageBytes < png.bytes.length ∨ h ∈ s.recentImageHashes.keys
  | _ => True

/-- What the thread remembers of the content that it saw last. -/
structure Remembers (s : Poller) : Prop where
  one : s.lastText = none ∨ s.lastImageHash = none
  image : ∀ content h, s.seen = some content → content.imageHash = some h →
    content.text.getD "" = "" → s.lastImageHash = some h
  text : ∀ content text, s.seen = some content → content.imageHash = none →
    content.text = some text → text ≠ "" → s.lastText = some text

/-! ## One tick -/

section

variable {s : Poller} {content : ClipboardContent} {ts : UInt64}

theorem newImage_eq_some {png : NormalizedPng} {h : String} :
    s.newImage content = some (png, h) ↔
      content.image = some png ∧ pixelHashHex png.bytes = some h ∧ s.lastImageHash ≠ some h := by
  unfold newImage
  simp only [Option.bind_eq_some_iff, Option.ite_none_right_eq_some, Option.some.injEq,
    Prod.mk.injEq]
  constructor
  · rintro ⟨_, himage, _, hhash, hnew, rfl, rfl⟩
    exact ⟨himage, hhash, Ne.symm hnew⟩
  · rintro ⟨himage, hhash, hnew⟩
    exact ⟨png, himage, h, hhash, Ne.symm hnew, rfl, rfl⟩

theorem newImage_eq_none : s.newImage content = none ↔
    ∀ h, content.imageHash = some h → s.lastImageHash = some h := by
  rw [Option.eq_none_iff_forall_ne_some]
  constructor
  · intro hnone h hhash
    obtain ⟨png, himage, hhash⟩ := Option.bind_eq_some_iff.1 hhash
    by_contra hnew
    exact hnone (png, h) (newImage_eq_some.2 ⟨himage, hhash, hnew⟩)
  · rintro hlast ⟨png, h⟩ hsome
    obtain ⟨himage, hhash, hnew⟩ := newImage_eq_some.1 hsome
    exact hnew (hlast h (Option.bind_eq_some_iff.2 ⟨png, himage, hhash⟩))

omit [Sha256] [ImageCodec] in
theorem newText_eq_some {text : String} : s.newText content = some text ↔
    content.text = some text ∧ text ≠ "" ∧ s.lastText ≠ some text := by
  unfold newText
  rw [Option.filter_eq_some_iff, decide_eq_true_iff]
  exact and_congr_right fun _ => and_congr_right fun _ => ne_comm

omit [Sha256] [ImageCodec] in
theorem newText_eq_none : s.newText content = none ↔
    ∀ text, content.text = some text → text ≠ "" → s.lastText = some text := by
  rw [Option.eq_none_iff_forall_ne_some]
  constructor
  · intro hnone text htext hne
    by_contra hnew
    exact hnone text (newText_eq_some.2 ⟨htext, hne, hnew⟩)
  · rintro hlast text hsome
    obtain ⟨htext, hne, hnew⟩ := newText_eq_some.1 hsome
    exact hnew (hlast text htext hne)

omit [Sha256] [ImageCodec] in
theorem tryPublishText_eq_none_iff {bridge : EchoBridge} {text : String} :
    bridge.tryPublishText text ts = none ↔ bridge.isEcho text = true := by
  unfold EchoBridge.tryPublishText
  split <;> simp_all

theorem remembers_tick (hs : s.Remembers) : ((s.tick content ts).2).Remembers := by
  unfold tick
  cases himage : s.newImage content with
  | some pair =>
      obtain ⟨png, h⟩ := pair
      obtain ⟨hpng, hhash, -⟩ := newImage_eq_some.1 himage
      have hcontent : content.imageHash = some h := Option.bind_eq_some_iff.2 ⟨png, hpng, hhash⟩
      refine ⟨.inl rfl, fun c h' hseen hh' _ => ?_, fun c text hseen hnone => ?_⟩
      · cases hseen
        exact hcontent.symm.trans hh'
      · cases hseen
        cases hnone.symm.trans hcontent
  | none =>
      dsimp only
      rw [newImage_eq_none] at himage
      cases htext : s.newText content with
      | some text =>
          obtain ⟨htext, hne, -⟩ := newText_eq_some.1 htext
          refine ⟨.inr rfl, fun c h hseen _ hempty => ?_, fun c text' hseen _ htext' _ => ?_⟩
          · cases hseen
            rw [htext] at hempty
            exact absurd hempty hne
          · cases hseen
            exact htext.symm.trans htext'
      | none =>
          rw [newText_eq_none] at htext
          refine ⟨hs.one, fun c h hseen hhash _ => ?_, fun c text hseen _ htext' hne => ?_⟩
          · cases hseen
            exact himage h hhash
          · cases hseen
            exact htext text htext' hne

theorem fresh_tick (hs : s.Remembers) :
    s.Fresh (.tick content ts) ↔ s.Refused (.tick content ts) := by
  refine imp_congr_right fun hseen => ?_
  unfold tick
  cases himage : s.newImage content with
  | some pair =>
      obtain ⟨png, h⟩ := pair
      obtain ⟨hpng, hhash, hnew⟩ := newImage_eq_some.1 himage
      have hcontent : content.imageHash = some h := Option.bind_eq_some_iff.2 ⟨png, hpng, hhash⟩
      -- A content without a text would have left its hash.
      have htext : content.text.getD "" ≠ "" :=
        fun hempty => hnew (hs.image content h hseen hcontent hempty)
      obtain ⟨text, htext, hne⟩ : ∃ text, content.text = some text ∧ text ≠ "" := by
        cases hcase : content.text with
        | none => simp [hcase] at htext
        | some text => exact ⟨text, rfl, by simpa [hcase] using htext⟩
      show (tryPublishImage s.recentImageHashes png).1.map PolledClip.image = none ↔ _
      rw [Option.map_eq_none_iff, tryPublishImage_eq_none hhash]
      constructor
      · intro hrefused png' h' text' hpng' hhash' _ _
        cases hpng.symm.trans hpng'
        cases hhash.symm.trans hhash'
        rwa [if_neg hnew]
      · intro hrefused
        have := hrefused png h text hpng hhash htext hne
        rwa [if_neg hnew] at this
  | none =>
      dsimp only
      rw [newImage_eq_none] at himage
      cases htext : s.newText content with
      | some text =>
          obtain ⟨htext, hne, hnew⟩ := newText_eq_some.1 htext
          -- A content without an image would have left its text.
          obtain ⟨h, hcontent⟩ : ∃ h, content.imageHash = some h := by
            cases hcase : content.imageHash with
            | none => exact absurd (hs.text content text hseen hcase htext hne) hnew
            | some h => exact ⟨h, rfl⟩
          obtain ⟨png, hpng, hhash⟩ := Option.bind_eq_some_iff.1 hcontent
          show (s.bridge.tryPublishText text ts).map PolledClip.text = none ↔ _
          rw [Option.map_eq_none_iff, tryPublishText_eq_none_iff]
          constructor
          · intro hecho png' h' text' hpng' hhash' htext' _
            cases htext.symm.trans htext'
            cases hpng.symm.trans hpng'
            rw [if_pos (himage h' (Option.bind_eq_some_iff.2 ⟨png, hpng, hhash'⟩))]
            exact hecho
          · intro hrefused
            have := hrefused png h text hpng hhash htext hne
            rwa [if_pos (himage h hcontent)] at this
      | none =>
          rw [newText_eq_none] at htext
          refine ⟨fun _ png h text hpng hhash htext' hne => ?_, fun _ => rfl⟩
          have hlast := himage h (Option.bind_eq_some_iff.2 ⟨png, hpng, hhash⟩)
          -- Both would be remembered at once.
          rcases hs.one with hone | hone
          · cases hone.symm.trans (htext text htext' hne)
          · cases hone.symm.trans hlast

end

/-! ## Runs -/

section

variable {s : Poller}

theorem remembers_init (bridge : EchoBridge) (hashes : LruSet String 32) :
    (init bridge hashes).Remembers :=
  ⟨.inl rfl, fun _ _ h => (nomatch h), fun _ _ h => (nomatch h)⟩

theorem remembers_step (s : Poller) (e : PollEvent) (hs : s.Remembers) : (s.step e).Remembers := by
  cases e with
  | bridge e => exact ⟨hs.one, hs.image, hs.text⟩
  | remember hash => exact ⟨hs.one, hs.image, hs.text⟩
  | tick content ts => exact remembers_tick hs

theorem fresh_step (hs : s.Remembers) (e : PollEvent) : s.Fresh e ↔ s.Refused e := by
  cases e with
  | tick content ts => exact fresh_tick hs
  | _ => exact Iff.rfl

theorem length_published_le (e : PollEvent) (h : s.Fresh e) :
    (s.published e).length ≤ (s.changes e).length := by
  cases e with
  | tick content ts =>
      show (s.tick content ts).1.toList.length ≤
        (if s.seen = some content then [] else [content]).length
      split
      · rename_i hseen
        rw [h hseen]
        exact le_rfl
      · exact Option.length_toList_le
  | _ => exact le_rfl

/-- Where every tick is fresh, there are no more clips than changes. -/
theorem length_outputs_le (s : Poller) (events : List PollEvent)
    (h : Machine.Along step Fresh s events) :
    (Machine.outputs step published s events).length ≤
      (Machine.outputs step changes s events).length := by
  induction events generalizing s with
  | nil => exact le_rfl
  | cons e events ih =>
      rw [Machine.outputs, Machine.outputs, List.length_append, List.length_append]
      exact Nat.add_le_add (length_published_le e h.1) (ih _ h.2)

end

/-- **In a run every tick that publishes has seen a change exactly if, wherever it sees both an
image and a text again, the one that it turns to is refused; and then no more clips are published
than there were changes.** -/
theorem fresh_iff (bridge : EchoBridge) (hashes : LruSet String 32) (events : List PollEvent) :
    (Machine.Along step Fresh (init bridge hashes) events ↔
      Machine.Along step Refused (init bridge hashes) events) ∧
    (Machine.Along step Refused (init bridge hashes) events →
      ∀ pre, pre <+: events →
        (Machine.outputs step published (init bridge hashes) pre).length ≤
          (Machine.outputs step changes (init bridge hashes) pre).length) := by
  have hiff : ∀ events, Machine.Along step Fresh (init bridge hashes) events ↔
      Machine.Along step Refused (init bridge hashes) events := fun events =>
    Machine.along_congr (I := Remembers) (fun s e _ hs => remembers_step s e hs)
      (fun _ e hs => fresh_step hs e) (remembers_init bridge hashes)
  refine ⟨hiff events, fun hrefused pre hpre => ?_⟩
  obtain ⟨post, rfl⟩ := hpre
  exact length_outputs_le _ _ ((hiff pre).2 (Machine.along_append.1 hrefused).1)

end Poller

end

/-! ### An image with a caption -/

namespace Poller

/-- As a browser copies an image: with its address as a text. -/
def captioned : ClipboardContent :=
  ⟨some ⟨pixelPng, "image/png", 1, 1⟩, some "https://r.example/pixel.png"⟩

/-- The clipboard stays as it is for four ticks. -/
def unchangedTicks : List PollEvent := List.replicate 4 (.tick captioned 0)

theorem unchangedTicks_published :
    ¬ ∀ (_ : Sha256) (_ : ImageCodec) bridge hashes events,
      (Machine.outputs step published (init bridge hashes) events).length ≤
        (Machine.outputs step changes (init bridge hashes) events).length := by
  intro h
  have hle := h pixelSha256 pixelCodec (EchoBridge.init "pc" 0 none) .empty unchangedTicks
  exact absurd hle (by decide +kernel)

end Poller

end ClipBridge.Windows
