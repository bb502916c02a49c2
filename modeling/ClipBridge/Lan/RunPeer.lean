import ClipBridge.Core.Worker
import ClipBridge.Lan.Receive

/-!
# One session with a LAN peer

Following `run_peer` in `core/src/lan.rs`: say Hello, read the peer's Hello, see from its next
frame what the connection is for, and then either serve it or keep a control session.

* `Peer.start`, `Peer.onRead` — what the task does with each result of `read_frame`.
* `Peer.onPing`, `Peer.onModeNotify`, `Peer.onOutgoing`, `Peer.onIdle`, the two timeouts — the
  other branches.

Each step gives the new state and the frames that went to the peer. The registry of live sessions
and the log are left out.
-/

namespace ClipBridge

def protoVersion : UInt32 := 1

def blobChunk : Nat := 512 * 1024

/-- A clip on its way to the peers. -/
structure OutgoingLan where
  senderDeviceId : DeviceId
  ts : UInt64
  payload : ClipPayload

/-- What `out_rx.recv()` yields. -/
inductive OutRecv where
  | clip (out : OutgoingLan)
  | lagged
  | closed

structure PeerRunContext where
  selfDeviceId : DeviceId
  selfDeviceName : String
  expectedPeer : Option DeviceId

/-- What is shared with other tasks, as a step finds it. -/
structure PeerEnv extends Env where
  lanActive : Bool := true
  /-- Whether `file_receive_dir` is set. -/
  receiveDirSet : Bool := true
  blobCache : String → Option Bytes := fun _ => none

inductive PeerPhase where
  | start
  | hello
  | classify (peerDid : DeviceId)
  | session (peerDid : DeviceId)
  | receiving (incoming : IncomingFileWriter)
  | ended (result : Except LanError Unit)
  deriving DecidableEq

structure Peer where
  phase : PeerPhase
  dir : Dir
  inbound : List IncomingLanClip := []
  fileInbound : List ReceivedFile := []

/-- Letters and digits, at most twelve, in lower case. -/
def shortId (deviceId : DeviceId) : List Char :=
  ((deviceId.toList.filter Char.isAlphanum).take 12).map Char.toLower

/-- Frames one after the other, until a write fails. -/
def sendAll (env : Env) : List LanMessage → List LanMessage × Option LanError
  | [] => ([], none)
  | msg :: msgs =>
      match env.send msg with
      | some e => ([], some e)
      | none => ((msg :: (sendAll env msgs).1), (sendAll env msgs).2)

/-- The chunks of a blob, the last one marked. -/
def blobChunks (bytes : Bytes) : List LanMessage :=
  if bytes.length ≤ blobChunk then [.blobChunk bytes true]
  else .blobChunk (bytes.take blobChunk) false :: blobChunks (bytes.drop blobChunk)
termination_by bytes.length
decreasing_by
  have : 0 < blobChunk := by decide
  rw [List.length_drop]
  omega

def serveBlob (env : PeerEnv) (sha256Hex : String) : List LanMessage × Option LanError :=
  match env.blobCache sha256Hex with
  | none => sendAll env.toEnv [.blobMiss sha256Hex]
  | some bytes => sendAll env.toEnv (blobChunks bytes)

namespace Peer

def invalidData (reason : String) : Except LanError Unit := .error (.io reason)

def hasEnded (p : Peer) : Bool :=
  match p.phase with
  | .ended _ => true
  | _ => false

def finish (p : Peer) (result : Except LanError Unit) : Peer := { p with phase := .ended result }

/-- `write_frame(..).await?`, and then on in `phase`. -/
def write (p : Peer) (env : Env) (msg : LanMessage) (phase : PeerPhase) : Peer × List LanMessage :=
  match env.send msg with
  | some e => (p.finish (.error e), [])
  | none => ({ p with phase }, [msg])

/-- Our Hello. -/
def start (ctx : PeerRunContext) (p : Peer) (env : PeerEnv) : Peer × List LanMessage :=
  p.write env.toEnv (.hello ctx.selfDeviceId protoVersion ctx.selfDeviceName) .hello

/-! ## The handshake -/

def onHello (ctx : PeerRunContext) (p : Peer) (env : PeerEnv) : Read → Peer × List LanMessage
  | .ok (some (.hello peerDid _ _)) =>
      if ctx.expectedPeer.any (shortId peerDid ≠ shortId ·) then
        (p.finish (invalidData "peer device_id mismatch"), [])
      else if peerDid = ctx.selfDeviceId then (p.finish (.ok ()), [])
      else p.write env.toEnv .ping (.classify peerDid)
  | .ok (some _) => (p.finish (invalidData "first frame was not Hello"), [])
  | .ok none | .error _ => (p.finish (invalidData "hello handshake failed"), [])

def onHelloTimeout (p : Peer) : Peer := p.finish (invalidData "hello handshake failed")

/-- Into the control session; a clip that came first is handed on. -/
def enterSession (p : Peer) (env : PeerEnv) (peerDid : DeviceId) (pending : Option LanMessage) :
    Peer :=
  let p : Peer := match pending with
    | some (.clip senderDeviceId ts payload) =>
        { p with inbound := p.inbound ++ [⟨senderDeviceId, ts, payload⟩] }
    | _ => p
  if env.lanActive then { p with phase := .session peerDid } else p.finish (.ok ())

/-- What `receive_offered_file` came to. -/
def absorb (p : Peer) (turn : Turn) : Peer × List LanMessage :=
  let p := { p with dir := turn.dir }
  match turn.receiving with
  | .waiting incoming => ({ p with phase := .receiving incoming }, turn.sent)
  | .returned (.ok file) =>
      ({ p with fileInbound := p.fileInbound ++ [file], phase := .ended (.ok ()) }, turn.sent)
  | .returned (.error e) => (p.finish (.error e), turn.sent)

/-- The first frame after the peer's Hello. -/
def onClassify (ctx : PeerRunContext) (p : Peer) (env : PeerEnv) (peerDid : DeviceId) :
    Read → Peer × List LanMessage
  | .ok (some (.blobRequest sha256Hex)) =>
      let (sent, error) := serveBlob env sha256Hex
      (p.finish (error.elim (.ok ()) .error), sent)
  | .ok (some (.fileOffer offer)) =>
      if env.receiveDirSet then
        p.absorb (startReceive ⟨ctx.selfDeviceId, peerDid, {}⟩ env.toEnv p.dir offer)
      else
        p.write env.toEnv (.fileReject offer.transferId "file receiving is not enabled")
          (.ended (.ok ()))
  | .ok (some msg) => (p.enterSession env peerDid (some msg), [])
  | .ok none => (p.finish (.ok ()), [])
  | .error e => (p.finish (.error e), [])

/-- Five seconds without a frame: a control peer. -/
def onClassifyTimeout (p : Peer) (env : PeerEnv) (peerDid : DeviceId) : Peer :=
  p.enterSession env peerDid none

/-! ## The control session -/

/-- The inbound branch. Bulk transfers ride a connection of their own, and are ignored here. -/
def onSession (p : Peer) : Read → Peer
  | .ok (some (.clip senderDeviceId ts payload)) =>
      { p with inbound := p.inbound ++ [⟨senderDeviceId, ts, payload⟩] }
  | .ok (some _) => p
  | .ok none => p.finish (.ok ())
  | .error e => p.finish (.error e)

def onIdle (p : Peer) : Peer := p.finish (.error (.io "no inbound frame within idle window"))

def onPing (p : Peer) (env : PeerEnv) : Peer × List LanMessage := p.write env.toEnv .ping p.phase

def onModeNotify (p : Peer) (env : PeerEnv) : Peer :=
  if env.lanActive then p else p.finish (.ok ())

def onOutgoing (p : Peer) (env : PeerEnv) (peerDid : DeviceId) : OutRecv → Peer × List LanMessage
  | .clip out =>
      -- Not back to the device it came from.
      if out.senderDeviceId = peerDid then (p, [])
      else p.write env.toEnv (.clip out.senderDeviceId out.ts out.payload) p.phase
  | .lagged => (p, [])
  | .closed => (p.finish (.ok ()), [])

variable [Sha256]

/-- A result of `read_frame`, wherever the task is. -/
def onRead (ctx : PeerRunContext) (p : Peer) (env : PeerEnv) (read : Read) :
    Peer × List LanMessage :=
  match p.phase with
  | .start | .ended _ => (p, [])
  | .hello => p.onHello ctx env read
  | .classify peerDid => p.onClassify ctx env peerDid read
  | .session _ => (p.onSession read, [])
  | .receiving incoming => p.absorb (Receiving.onRead incoming env.toEnv p.dir read)

/-! ## When the task returns -/

section

omit [Sha256]

@[simp] theorem hasEnded_finish (p : Peer) (result : Except LanError Unit) :
    (p.finish result).hasEnded = true := rfl

theorem hasEnded_write {p : Peer} {env : Env} {msg : LanMessage} {phase : PeerPhase}
    (h : ({ p with phase } : Peer).hasEnded = false) :
    (p.write env msg phase).1.hasEnded = (env.send msg).isSome := by
  unfold write
  split
  · rename_i hsend
    simp [hsend]
  · rename_i hsend
    simp [hsend, h]

theorem hasEnded_enterSession (p : Peer) (env : PeerEnv) (peerDid : DeviceId)
    (pending : Option LanMessage) :
    (p.enterSession env peerDid pending).hasEnded = !env.lanActive := by
  unfold enterSession
  dsimp only
  split
  · rename_i hactive
    rw [hactive]
    rfl
  · rename_i hactive
    simp [Bool.eq_false_iff.2 hactive]

end

/-- The end of the stream and an error end the task, wherever it waits. -/
theorem hasEnded_onRead {ctx : PeerRunContext} {p : Peer} {env : PeerEnv} {read : Read}
    (hstart : p.phase ≠ .start) (hread : ∀ msg, read ≠ .ok (some msg)) :
    (p.onRead ctx env read).1.hasEnded = true := by
  have hend : read = .ok none ∨ ∃ e, read = .error e := by
    rcases read with e | _ | msg
    · exact .inr ⟨e, rfl⟩
    · exact .inl rfl
    · exact absurd rfl (hread msg)
  unfold onRead
  cases hphase : p.phase with
  | start => exact absurd hphase hstart
  | ended result => simp [hasEnded, hphase]
  | receiving incoming => rcases hend with rfl | ⟨e, rfl⟩ <;> rfl
  | _ => rcases hend with rfl | ⟨e, rfl⟩ <;> rfl

end Peer

end ClipBridge
