import ClipBridge.Core.Protocol
import ClipBridge.Lib.Machine

/-!
# Echo suppression on Windows

Following `handle_clipboard_change`, `try_publish_text` and `BridgeListener::on_clip` of
`clients/windows/src/bridge.rs`. A text that is received is first noted as the expected echo and
then set, on the thread that delivers it. A change of the clipboard runs a callback, which reads
the text and later compares it with the echo that is expected by then.

* `Suppressed` — what `on_clip` has set is not published again.
* `StillExpected` — when a callback compares, the text that it read is the last one delivered,
  and not for as long as the window.
* `tryPublishText_eq_none` — what the comparison comes to.
* `suppressed_iff` — the received texts are suppressed in a run exactly if they are still expected.
-/

namespace ClipBridge.Windows

def echoWindow : Duration := Duration.fromSecs 10

/-- A text on the clipboard. -/
structure Written where
  text : String
  /-- When `on_clip` set it, if that was what did. -/
  onClipAt : Option Instant
  deriving DecidableEq, Repr

structure EchoBridge where
  deviceName : String
  now : Instant
  expectedEcho : Option (String × Instant)
  /-- `on_clip` is to set this text next. -/
  setting : Option String
  clipboard : Option Written
  /-- What the callbacks have read; `none` for one that has returned. -/
  callbacks : List (Option Written)
  /-- The texts that were delivered, and when. -/
  delivered : List (String × Instant)

inductive EchoEvent where
  | wait (d : Duration)
  | onClip (content : String)
  | setText (ok : Bool)
  /-- A local copy of a text, or of something else. An image that is received counts as well. -/
  | copy (text : Option String)
  /-- A callback has found no image and reads the text. -/
  | read
  /-- A callback goes on with what it has read, at `ts` by the system clock. -/
  | tryPublishText (i : Nat) (ts : UInt64)

namespace EchoBridge

def init (deviceName : String) (now : Instant) (clipboard : Option String) : EchoBridge :=
  ⟨deviceName, now, none, none, clipboard.map (⟨·, none⟩), [], []⟩

def isEcho (s : EchoBridge) (text : String) : Bool :=
  match s.expectedEcho with
  | some (expected, t) => expected = text && s.now.durationSince t < echoWindow
  | none => false

/-- The clip that goes to the client. -/
def tryPublishText (s : EchoBridge) (text : String) (ts : UInt64) : Option ClipPayload :=
  if s.isEcho text then none
  else some { kind := .text, content := text, deviceName := s.deviceName, ts := ts, image := none }

def step (s : EchoBridge) : EchoEvent → EchoBridge
  | .wait d => { s with now := s.now + d }
  | .onClip content =>
      if s.setting = none then
        { s with
          expectedEcho := some (content, s.now)
          setting := some content
          delivered := s.delivered ++ [(content, s.now)] }
      else s
  | .setText ok =>
      match s.setting with
      | some content =>
          let s := { s with setting := none }
          if ok then { s with clipboard := some ⟨content, some s.now⟩ } else s
      | none => s
  | .copy text => { s with clipboard := text.map (⟨·, none⟩) }
  | .read =>
      match s.clipboard with
      | some written =>
          if written.text = "" then s else { s with callbacks := s.callbacks ++ [some written] }
      | none => s
  | .tryPublishText i _ => { s with callbacks := s.callbacks.set i none }

/-- The clip that a step publishes. -/
def published (s : EchoBridge) : EchoEvent → Option ClipPayload
  | .tryPublishText i ts =>
      s.callbacks[i]?.join.bind fun written => s.tryPublishText written.text ts
  | _ => none

/-! ## What is suppressed -/

/-- A text that `on_clip` set less than `ECHO_WINDOW` ago. -/
def Received (s : EchoBridge) (written : Written) : Prop :=
  ∃ t ∈ written.onClipAt, s.now.durationSince t < echoWindow

/-- A callback that read what `on_clip` had set does not publish it within the window. -/
def Suppressed (s : EchoBridge) : EchoEvent → Prop
  | .tryPublishText i ts => ∀ written, s.callbacks[i]? = some (some written) →
      s.Received written → s.published (.tryPublishText i ts) = none
  | _ => True

/-- No other text has been delivered since, and this one less than `ECHO_WINDOW` ago. -/
def LastDelivered (s : EchoBridge) (text : String) : Prop :=
  ∃ t, s.delivered.getLast? = some (text, t) ∧ s.now.durationSince t < echoWindow

def StillExpected (s : EchoBridge) : EchoEvent → Prop
  | .tryPublishText i _ => ∀ written, s.callbacks[i]? = some (some written) →
      s.Received written → s.LastDelivered written.text
  | _ => True

/-- The echo that is expected is that of the text delivered last. -/
def Expects (s : EchoBridge) : Prop := s.expectedEcho = s.delivered.getLast?

theorem expects_init (deviceName : String) (now : Instant) (clipboard : Option String) :
    Expects (init deviceName now clipboard) := rfl

variable {s : EchoBridge}

theorem expects_step (hs : s.Expects) (e : EchoEvent) : (step s e).Expects := by
  cases e with
  | wait d => exact hs
  | onClip content =>
      simp only [step]
      split
      · show some (content, s.now) = (s.delivered ++ [(content, s.now)]).getLast?
        rw [List.getLast?_concat]
      · exact hs
  | setText ok =>
      simp only [step]
      split
      · split
        · exact hs
        · exact hs
      · exact hs
  | copy text => exact hs
  | read =>
      simp only [step]
      split
      · split
        · exact hs
        · exact hs
      · exact hs
  | tryPublishText i ts => exact hs

theorem isEcho_iff (hs : s.Expects) (text : String) : s.isEcho text = true ↔
    s.LastDelivered text := by
  unfold isEcho LastDelivered
  rw [← hs]
  cases s.expectedEcho with
  | none => simp
  | some echo =>
      obtain ⟨expected, t⟩ := echo
      constructor
      · intro h
        obtain ⟨heq, hlt⟩ := (Bool.and_eq_true_iff).1 h
        exact ⟨t, by rw [of_decide_eq_true heq], of_decide_eq_true hlt⟩
      · rintro ⟨t', heq, hlt⟩
        cases heq
        exact (Bool.and_eq_true_iff).2 ⟨decide_eq_true rfl, decide_eq_true hlt⟩

theorem tryPublishText_eq_none (hs : s.Expects) (text : String) (ts : UInt64) :
    s.tryPublishText text ts = none ↔ s.LastDelivered text := by
  rw [← isEcho_iff hs]
  unfold tryPublishText
  split
  · rename_i hecho
    exact ⟨fun _ => hecho, fun _ => rfl⟩
  · rename_i hecho
    exact ⟨fun h => (nomatch h), fun h => absurd h hecho⟩

theorem suppressed_step (hs : s.Expects) (e : EchoEvent) : s.Suppressed e ↔ s.StillExpected e := by
  cases e with
  | tryPublishText i ts =>
      apply forall_congr'
      intro written
      apply imp_congr_right
      intro hread
      apply imp_congr_right
      intro _
      have hpublished : s.published (.tryPublishText i ts) = s.tryPublishText written.text ts := by
        rw [published, hread, Option.join_some, Option.bind_some]
      rw [hpublished]
      exact tryPublishText_eq_none hs written.text ts
  | _ => exact Iff.rfl

/-! ## Runs -/

/-- **In a run with any deliveries, local copies and callbacks, no received text is published
again exactly if each callback that has read one compares before another text is delivered, and
within the window of the delivery.** -/
theorem suppressed_iff (deviceName : String) (now : Instant) (clipboard : Option String)
    (es : List EchoEvent) :
    Machine.Along step Suppressed (init deviceName now clipboard) es ↔
      Machine.Along step StillExpected (init deviceName now clipboard) es :=
  Machine.along_congr (I := Expects) (fun _ e _ hs => expects_step hs e)
    (fun _ e hs => suppressed_step hs e) (expects_init deviceName now clipboard)

/-- Between the callback's reading and its comparing, another text is delivered. -/
def overtakenEcho : List EchoEvent :=
  [.onClip "first", .setText true, .read, .onClip "second", .tryPublishText 0 0]

theorem overtakenEcho_published : ¬ ∀ deviceName now clipboard es,
    Machine.Along step Suppressed (init deviceName now clipboard) es := by
  intro h
  obtain ⟨-, -, -, -, hsuppressed, -⟩ := h "pc" 0 none overtakenEcho
  exact absurd (hsuppressed ⟨"first", some 0⟩ rfl ⟨0, rfl, by decide⟩) (by decide)

end EchoBridge

end ClipBridge.Windows
