import ClipBridge.Lan.Connection
import ClipBridge.Lan.FrameCodec
import ClipBridge.Lan.FrameSync

/-!
# Outgoing clips that are too long

What is handed to `LanNode::broadcast` comes out of `out_rx` in `run_peer`, and the session writes
it with `write_frame(..).await?`. An error of `write_frame` is the end of the session, also where
the stream is healthy and the message only too long.

* `HealthyStream` — every frame that `write_frame` accepts is written.
* `Survives` — a clip is written or skipped, and the session goes on.
* `Short` — a clip that is to be written fits a frame.
* `survives_iff` — all clips of a run are survived exactly if they are short.
-/

namespace ClipBridge

namespace RunPeer

variable {key : Key} [Aead]

/-- The stream takes every frame. -/
def HealthyStream (key : Key) (env : PeerEnv) : Prop :=
  ∃ nonce : LanMessage → Bytes, (∀ msg, (nonce msg).length = nonceLen) ∧
    env.send = wireSend key nonce

/-- A message is written exactly if it fits. -/
theorem HealthyStream.send_iff (hseal : Seals key) (hopens : Opens key) {env : PeerEnv}
    (h : HealthyStream key env) (msg : LanMessage) : env.send msg = none ↔ Fits msg := by
  obtain ⟨nonce, hnonce, hsend⟩ := h
  rw [hsend, ← writeFrame_iff_fits hseal hopens (hnonce msg)]
  unfold wireSend
  cases hwrite : writeFrame key (nonce msg) msg <;> simp

/-- The message that carries a clip. -/
def clipMessage (out : OutgoingLan) : LanMessage := .clip out.senderDeviceId out.ts out.payload

omit [Aead] in
theorem le_length_payloadJson (payload : ClipPayload) :
    payload.content.toList.length ≤ (LanMessage.payloadJson payload).length := by
  have hcontent := JsonText.le_length_string payload.content
  unfold LanMessage.payloadJson
  cases payload.image with
  | none =>
      simp only [Option.map_none, Option.toList_none, List.append_nil,
        JsonText.length_object_cons, JsonText.length_object_one, JsonText.length_field]
      omega
  | some image =>
      simp only [Option.map_some, Option.toList_some, List.cons_append, List.nil_append,
        JsonText.length_object_cons, JsonText.length_object_one, JsonText.length_field]
      omega

omit [Aead] in
/-- It is as long as the text at least. -/
theorem le_length_clipMessage (out : OutgoingLan) :
    out.payload.content.toList.length ≤ (clipMessage out).toVec.length := by
  have hpayload := le_length_payloadJson out.payload
  simp only [clipMessage, LanMessage.toVec, LanMessage.bodyFields, JsonText.length_object_cons,
    JsonText.length_object_one, JsonText.length_field]
  omega

variable [LanJson]

/-- A clip that the session takes comes from the peer itself or fits a frame. -/
def Short (s : RunPeer key) : Event key → Prop
  | .outgoing env (.clip out) => ∀ peerDid, s.peer.phase = .session peerDid →
      env.lanActive = true → out.senderDeviceId = peerDid ∨ Fits (clipMessage out)
  | _ => True

/-- Where a clip is taken, the stream is healthy. -/
def HealthyEvent : Event key → Prop
  | .outgoing env _ => HealthyStream key env
  | _ => True

variable [Sha256]

/-- A clip that comes in a session is written or skipped, and the session goes on. -/
def Survives (ctx : PeerRunContext) (s : RunPeer key) : Event key → Prop
  | .outgoing env (.clip out) => ∀ peerDid, s.peer.phase = .session peerDid →
      (step ctx s (.outgoing env (.clip out))).peer.phase = .session peerDid ∧
      ((step ctx s (.outgoing env (.clip out))).sent = s.sent ∨
        (step ctx s (.outgoing env (.clip out))).sent = s.sent ++ [clipMessage out])
  | _ => True

/-- One turn of the session. -/
theorem survives_step_iff (hseal : Seals key) (hopens : Opens key) (ctx : PeerRunContext)
    {e : Event key} (hhealthy : HealthyEvent e) (s : RunPeer key) :
    Survives ctx s e ↔ Short s e := by
  cases e with
  | outgoing env out =>
      cases out with
      | lagged => exact Iff.rfl
      | closed => exact Iff.rfl
      | clip out =>
          refine forall_congr' fun peerDid => forall_congr' fun hphase => ?_
          have hsend := hhealthy.send_iff hseal hopens (clipMessage out)
          cases hactive : env.lanActive with
          | false =>
              -- The branch is not polled.
              have hstep : step ctx s (.outgoing env (.clip out)) = s := by
                simp [step, hphase, hactive]
              simp [hstep, hphase]
          | true =>
              have hstep : step ctx s (.outgoing env (.clip out)) =
                  s.dropRead.took (s.peer.onOutgoing env peerDid (.clip out)) := by
                simp [step, hphase, hactive]
              rw [hstep, ← hsend]
              by_cases hown : out.senderDeviceId = peerDid
              · simp [Peer.onOutgoing, hown, took, dropRead, hphase]
              · cases hwrite : env.send (clipMessage out) with
                | none =>
                    simp only [clipMessage] at hwrite
                    simp [Peer.onOutgoing, Peer.write, hown, hwrite, took, dropRead, hphase,
                      clipMessage]
                | some e =>
                    simp only [clipMessage] at hwrite
                    simp [Peer.onOutgoing, Peer.write, hown, hwrite, took, Peer.finish]
  | _ => exact Iff.rfl

/-- **On a healthy stream, the session survives every clip that it takes exactly if each of them
comes from the peer itself or fits a frame.** -/
theorem survives_iff (hseal : Seals key) (hopens : Opens key) (ctx : PeerRunContext) (dir : Dir)
    {es : List (Event key)} (hhealthy : ∀ e ∈ es, HealthyEvent e) :
    Machine.Along (step ctx) (Survives ctx) (init key dir) es ↔
      Machine.Along (step ctx) Short (init key dir) es :=
  Machine.along_congr_mem fun e he s => survives_step_iff hseal hopens ctx (hhealthy e he) s

end RunPeer

/-! ## A text of a mebibyte -/

namespace RunPeer

section

local instance : Aead := tagAead
local instance : LanJson := tableJson [phoneHello, .ping]
local instance : Sha256 := abcSha256

def zeroNonces : LanMessage → Bytes := fun _ => List.replicate nonceLen 0

/-- Every frame is taken. -/
def wireEnv : PeerEnv := { send := wireSend zeroKey zeroNonces }

theorem healthyStream_wireEnv : HealthyStream zeroKey wireEnv := ⟨zeroNonces, fun _ => rfl, rfl⟩

/-- A text of `n` letters, from another device. -/
def textClip (n : Nat) : OutgoingLan :=
  ⟨"tablet", 0, ⟨.text, String.ofList (List.replicate n 'a'), "Tablet", 0, none⟩⟩

/-- Up to the session. -/
def sessionUp : List (Event zeroKey) :=
  [.start {}, .peerWrites phoneHelloFrame, .read {} 4, .read {} 200, .peerWrites pingFrame,
    .read {} 4, .read {} 200]

theorem healthy_sessionUp (n : Nat) :
    ∀ e ∈ sessionUp ++ [.outgoing wireEnv (.clip (textClip n))], HealthyEvent e := by
  simp [sessionUp, HealthyEvent, healthyStream_wireEnv]

theorem phase_sessionUp :
    (Machine.run (step pcContext) (init zeroKey .empty) sessionUp).peer.phase =
      .session "phone" := by decide +kernel

theorem shortText_survived :
    Machine.Along (step pcContext) (Survives pcContext) (init zeroKey .empty)
      (sessionUp ++ [.outgoing wireEnv (.clip (textClip 3))]) := by
  refine (survives_iff (seals_tagAead zeroKey) (opens_tagAead zeroKey) pcContext .empty
    (healthy_sessionUp 3)).2 (Machine.along_concat.2 ⟨?_, ?_⟩)
  · simp [sessionUp, Short]
  · intro peerDid _ _
    exact .inr (by decide +kernel)

theorem not_fits_textClip {n : Nat} (h : frameMax ≤ n) : ¬ Fits (clipMessage (textClip n)) := by
  have hlen : n ≤ (clipMessage (textClip n)).toVec.length := by
    have := le_length_clipMessage (textClip n)
    rwa [textClip, String.toList_ofList, List.length_replicate] at this
  have hnonce : 0 < nonceLen := by decide
  unfold Fits
  omega

/-- A text of a mebibyte ends the session, though every frame is taken. -/
theorem longText_ends_session :
    ¬ ∀ es : List (Event zeroKey), (∀ e ∈ es, HealthyEvent e) →
      Machine.Along (step pcContext) (Survives pcContext) (init zeroKey .empty) es := by
  obtain ⟨n, hn⟩ : ∃ n, n = frameMax := ⟨_, rfl⟩
  have hphase := phase_sessionUp
  have hhealthy := healthy_sessionUp n
  generalize sessionUp = pre at hphase hhealthy
  intro h
  obtain ⟨-, hlast⟩ := Machine.along_concat.1 (h _ hhealthy)
  have hshort := (survives_step_iff (seals_tagAead zeroKey) (opens_tagAead zeroKey) pcContext
    (e := .outgoing wireEnv (.clip (textClip n))) healthyStream_wireEnv _).1 hlast _ hphase rfl
  have hown : (textClip n).senderDeviceId ≠ "phone" := by simp [textClip]
  exact not_fits_textClip hn.ge (hshort.resolve_left hown)

end

end RunPeer

end ClipBridge
