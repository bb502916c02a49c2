import ClipBridge.Lan.Connection
import ClipBridge.Lan.RunPeer

/-!
# The two ends of a file transfer

Following `send_file_to_stream` and `receive_file_from_stream` in `core/src/lan.rs` and
`OutgoingFile` in `core/src/file_transfer.rs`, each as a program that works until it has to wait
for a frame (`Mode`).

* `Sender.work`, `Sender.onRead` — open and hash the file, say Hello, offer it, and send it.
* `FileReceiver.start`, `FileReceiver.onRead` — say Hello, take the offer, and receive it.
* `TransferReceiver` — either program that receives files, this one or a task of `run_peer`.

A read of the source file returns at least one byte before its end, and otherwise as many as it
likes, up to the size of the buffer.
-/

namespace ClipBridge

/-! ## The source file -/

/-- What the path of a request stands for. -/
structure SourceFile where
  /-- The path as it is displayed. -/
  path : String
  /-- Its last component, if that is UTF-8. -/
  fileName : Option String
  isFile : Bool
  content : { bytes : Bytes // bytes.length ≤ maxFileLen }
  /-- Milliseconds since the epoch. -/
  modified : Option Nat

/-- One read at `pos`, into a buffer of `limit` bytes: at most `short` bytes come, and none only at
the end of the file. -/
def SourceFile.readAt (src : SourceFile) (pos limit short : Nat) : Bytes :=
  (src.content.val.drop pos).take (min limit (max 1 short))

section

variable {src : SourceFile} {pos limit short : Nat}

theorem SourceFile.length_readAt (short : Nat) (hlimit : limit ≠ 0)
    (hpos : pos < src.content.val.length) :
    0 < (src.readAt pos limit short).length ∧
      pos + (src.readAt pos limit short).length ≤ src.content.val.length := by
  unfold readAt
  rw [List.length_take, List.length_drop]
  omega

theorem SourceFile.readAt_end (hpos : src.content.val.length ≤ pos) :
    src.readAt pos limit short = [] := by
  unfold readAt
  rw [List.drop_of_length_le hpos, List.take_nil]

theorem SourceFile.readAt_eq_nil (hlimit : limit ≠ 0) :
    src.readAt pos limit short = [] ↔ src.content.val.length ≤ pos := by
  refine ⟨fun h => ?_, SourceFile.readAt_end⟩
  by_contra hpos
  have := (length_readAt short hlimit (Nat.lt_of_not_le hpos)).1
  rw [h] at this
  simp at this

theorem SourceFile.length_readAt_le : (src.readAt pos limit short).length ≤ limit := by
  unfold readAt
  rw [List.length_take]
  omega

/-- What was read so far, and what is read next. -/
theorem SourceFile.take_append_readAt (src : SourceFile) (pos limit short : Nat) :
    src.content.val.take pos ++ src.readAt pos limit short =
    src.content.val.take (pos + (src.readAt pos limit short).length) := by
  unfold readAt
  rw [List.take_add, List.length_take]
  congr 1
  rw [List.take_eq_take_iff]
  omega

end

structure SendFileRequest where
  sourceDeviceId : DeviceId
  sourceDeviceName : String
  targetDeviceId : DeviceId
  mimeType : Option String
  config : FileTransferConfig

structure SentFile where
  transferId : String
  fileName : String
  bytesSent : UInt64
  sha256Hex : String
  deriving DecidableEq, Repr

/-- The open file, what was offered, and the size of the buffer. -/
structure OutgoingFile where
  pos : Nat
  offer : FileOffer
  chunkBytes : Nat
  deriving DecidableEq, Repr

/-! ## The sender -/

/-- What a step of the sender depends on beside its own variables. -/
structure SendEnv where
  send : Send := fun _ => none
  /-- What `Uuid::new_v4` draws. -/
  transferId : String
  short : Nat
  /-- A call on the source file that fails. -/
  fault : Option IoError := none

inductive Sender where
  | start
  /-- In `sha256_file_hex`, with what the metadata said. -/
  | hashing (size : UInt64) (modified : Option Nat) (fileName : String) (pos : Nat) (hashed : Bytes)
  | hello (outgoing : OutgoingFile)
  | offered (outgoing : OutgoingFile)
  | sending (outgoing : OutgoingFile) (offset : UInt64)
  | ended (result : Except LanError SentFile)
  deriving DecidableEq

namespace Sender

def fail (e : FileTransferError) : Sender × List LanMessage :=
  (.ended (.error (.fileTransfer e)), [])

/-- `write_frame(..).await?`, and then on in `next`. -/
def write (env : SendEnv) (msg : LanMessage) (next : Sender) : Sender × List LanMessage :=
  match env.send msg with
  | some e => (.ended (.error e), [])
  | none => (next, [msg])

/-- The first checks of `OutgoingFile::open`. -/
def openSource (req : SendFileRequest) (src : SourceFile) : Sender × List LanMessage :=
  let size := UInt64.ofNat src.content.val.length
  if ¬ src.isFile then fail .notRegularFile
  else if req.config.maxFileBytes < size then fail (.fileTooLarge size req.config.maxFileBytes)
  else
    match src.fileName with
    | none => fail (.invalidFileName src.path)
    | some name =>
        match sanitizeFileName name with
        | .error e => fail e
        | .ok fileName => (.hashing size src.modified fileName 0 [], [])

/-- `modified_unix_millis`. -/
def unixMillis (millis : Nat) : Int := min millis (2 ^ 63 - 1)

variable [Sha256]

/-- The rest of `OutgoingFile::open`, once the file is hashed. -/
def outgoing (req : SendFileRequest) (transferId : String) (size : UInt64)
    (modified : Option Nat) (fileName : String) (hashed : Bytes) : OutgoingFile where
  pos := 0
  offer := {
    transferId
    sourceDeviceId := req.sourceDeviceId
    targetDeviceId := req.targetDeviceId
    fileName
    sizeBytes := size
    modifiedUnixMillis := modified.map unixMillis
    mimeType := req.mimeType
    sha256Hex := sha256Hex hashed }
  chunkBytes := req.config.boundedChunkBytes

/-- A step that waits for nothing. -/
def work (req : SendFileRequest) (env : SendEnv) (src : SourceFile) (s : Sender) :
    Sender × List LanMessage :=
  match s, env.fault with
  | .start, some e | .hashing .., some e | .sending .., some e => fail (.io e)
  | .start, none => openSource req src
  | .hashing size modified fileName pos hashed, none =>
      let data := src.readAt pos defaultChunkBytes env.short
      if data = [] then
        write env (.hello req.sourceDeviceId protoVersion req.sourceDeviceName)
          (.hello (outgoing req env.transferId size modified fileName hashed))
      else (.hashing size modified fileName (pos + data.length) (hashed ++ data), [])
  | .sending out offset, none =>
      let data := src.readAt out.pos out.chunkBytes env.short
      if data = [] then
        write env (.fileComplete out.offer.transferId)
          (.ended (.ok ⟨out.offer.transferId, out.offer.fileName, offset, out.offer.sha256Hex⟩))
      else
        write env (.fileChunk out.offer.transferId offset data)
          (.sending { out with pos := out.pos + data.length }
            (offset + UInt64.ofNat data.length))
  | s, _ => (s, [])

omit [Sha256] in
/-- A result of `read_frame`, where the sender waits for one. -/
def onRead (req : SendFileRequest) (env : SendEnv) (s : Sender) (read : Read) :
    Sender × List LanMessage :=
  match s, read with
  | .hello _, .error e | .offered _, .error e => (.ended (.error e), [])
  | .hello out, .ok (some (.hello peerDeviceId _ _)) =>
      if peerDeviceId ≠ req.targetDeviceId then
        fail (.peerMismatch req.targetDeviceId peerDeviceId)
      else write env (.fileOffer out.offer) (.offered out)
  | .hello _, .ok (some msg) => fail (.unexpectedFrame msg.frameLabel)
  | .hello _, .ok none => fail (.canceled "peer closed during hello handshake")
  | .offered out, .ok (some (.fileAccept transferId)) =>
      if transferId = out.offer.transferId then (.sending out 0, [])
      else fail (.unexpectedFrame "file_accept")
  | .offered _, .ok (some (.fileReject _ reason)) => fail (.rejected reason)
  | .offered out, .ok (some .ping) | .offered out, .ok (some (.hello ..)) => (.offered out, [])
  | .offered _, .ok (some msg) => fail (.unexpectedFrame msg.frameLabel)
  | .offered _, .ok none => fail (.canceled "peer closed before accepting file offer")
  | s, _ => (s, [])

end Sender

/-! ## A receiver that expects a file -/

structure FileReceiverContext where
  selfDeviceId : DeviceId
  selfDeviceName : String
  config : FileTransferConfig

inductive FilePhase where
  | start
  | hello
  | offer (peerDeviceId : DeviceId)
  | receiving (incoming : IncomingFileWriter)
  | ended (result : Except LanError ReceivedFile)
  deriving DecidableEq

structure FileReceiver where
  phase : FilePhase
  dir : Dir

namespace FileReceiver

def fail (r : FileReceiver) (e : FileTransferError) : FileReceiver × List LanMessage :=
  ({ r with phase := .ended (.error (.fileTransfer e)) }, [])

def start (ctx : FileReceiverContext) (r : FileReceiver) (env : Env) :
    FileReceiver × List LanMessage :=
  match env.send (.hello ctx.selfDeviceId protoVersion ctx.selfDeviceName) with
  | some e => ({ r with phase := .ended (.error e) }, [])
  | none =>
      ({ r with phase := .hello }, [.hello ctx.selfDeviceId protoVersion ctx.selfDeviceName])

def absorb (turn : Turn) : FileReceiver × List LanMessage :=
  match turn.receiving with
  | .waiting incoming => (⟨.receiving incoming, turn.dir⟩, turn.sent)
  | .returned result => (⟨.ended result, turn.dir⟩, turn.sent)

variable [Sha256]

def onRead (ctx : FileReceiverContext) (r : FileReceiver) (env : Env) (read : Read) :
    FileReceiver × List LanMessage :=
  match r.phase, read with
  | .hello, .error e | .offer _, .error e => ({ r with phase := .ended (.error e) }, [])
  | .hello, .ok (some (.hello peerDeviceId _ _)) => ({ r with phase := .offer peerDeviceId }, [])
  | .hello, .ok (some msg) => r.fail (.unexpectedFrame msg.frameLabel)
  | .hello, .ok none => r.fail (.canceled "peer closed during hello handshake")
  | .offer peerDeviceId, .ok (some (.fileOffer offer)) =>
      absorb (startReceive ⟨ctx.selfDeviceId, peerDeviceId, ctx.config⟩ env r.dir offer)
  | .offer _, .ok (some msg) => r.fail (.unexpectedFrame msg.frameLabel)
  | .offer _, .ok none => r.fail (.canceled "peer closed before sending file offer")
  | .receiving incoming, read => absorb (Receiving.onRead incoming env r.dir read)
  | .start, _ | .ended _, _ => (r, [])

end FileReceiver

/-! ## Waiting and working -/

def Sender.mode : Sender → Mode
  | .start | .hashing .. | .sending .. => .works
  | .hello _ | .offered _ => .waits
  | .ended _ => .ended

def FileReceiver.mode (r : FileReceiver) : Mode :=
  match r.phase with
  | .start => .works
  | .ended _ => .ended
  | _ => .waits

def Peer.mode (p : Peer) : Mode :=
  match p.phase with
  | .start => .works
  | .ended _ => .ended
  | _ => .waits

/-! ## Either receiver -/

/-- A task of `run_peer`, or a call of `receive_file_from_stream`. -/
inductive TransferReceiver where
  | runPeer (ctx : PeerRunContext) (peer : Peer)
  | receiveFile (ctx : FileReceiverContext) (receiver : FileReceiver)

namespace TransferReceiver

def mode : TransferReceiver → Mode
  | runPeer _ p => p.mode
  | receiveFile _ r => r.mode

def dir : TransferReceiver → Dir
  | runPeer _ p => p.dir
  | receiveFile _ r => r.dir

def deviceId : TransferReceiver → DeviceId
  | runPeer ctx _ => ctx.selfDeviceId
  | receiveFile ctx _ => ctx.selfDeviceId

def deviceName : TransferReceiver → String
  | runPeer ctx _ => ctx.selfDeviceName
  | receiveFile ctx _ => ctx.selfDeviceName

/-- The Hello it sends. -/
def hello (r : TransferReceiver) : LanMessage := .hello r.deviceId protoVersion r.deviceName

/-- The configuration it receives with. -/
def config : TransferReceiver → FileTransferConfig
  | runPeer .. => {}
  | receiveFile ctx _ => ctx.config

/-- Whether it goes on after the Hello of this device. -/
def Admits (peerDid : DeviceId) : TransferReceiver → Prop
  | runPeer ctx _ => ctx.expectedPeer.any (shortId peerDid ≠ shortId ·) = false ∧
      peerDid ≠ ctx.selfDeviceId
  | receiveFile .. => True

/-- The file it received: `receive_file_from_stream` returns it, and `run_peer` hands it on and
returns `Ok`. -/
def received : TransferReceiver → Option ReceivedFile
  | runPeer _ p =>
      match p.phase with
      | .ended (.ok _) => p.fileInbound.getLast?
      | _ => none
  | receiveFile _ r =>
      match r.phase with
      | .ended (.ok file) => some file
      | _ => none

/-- What `receive_offered_file` came to. -/
def absorb (turn : Turn) : TransferReceiver → TransferReceiver × List LanMessage
  | runPeer ctx p => (runPeer ctx (p.absorb turn).1, (p.absorb turn).2)
  | receiveFile ctx _ =>
      (receiveFile ctx (FileReceiver.absorb turn).1, (FileReceiver.absorb turn).2)

/-- The step that waits for nothing: the Hello. -/
def work (env : PeerEnv) : TransferReceiver → TransferReceiver × List LanMessage
  | runPeer ctx p => (runPeer ctx (p.start ctx env).1, (p.start ctx env).2)
  | receiveFile ctx r => (receiveFile ctx (r.start ctx env.toEnv).1, (r.start ctx env.toEnv).2)

variable [Sha256]

def onRead (env : PeerEnv) (r : TransferReceiver) (read : Read) :
    TransferReceiver × List LanMessage :=
  match r with
  | runPeer ctx p => (runPeer ctx (p.onRead ctx env read).1, (p.onRead ctx env read).2)
  | receiveFile ctx r =>
      (receiveFile ctx (r.onRead ctx env.toEnv read).1, (r.onRead ctx env.toEnv read).2)

/-- From its start to the offer: it says Hello, and takes the sender's; a task of `run_peer` sends a
Ping then. -/
theorem handshake {r : TransferReceiver} (env : PeerEnv) {peerDid : DeviceId}
    (hstart : r.mode = .works) (hhello : env.send r.hello = none) (hping : env.send .ping = none)
    (hdir : env.receiveDirSet = true) (hadmits : r.Admits peerDid) :
    ∃ r₁, r.work env = (r₁, [r.hello]) ∧ r₁.mode = .waits ∧
      ∀ version name, ∃ r₂ side,
        r₁.onRead env (.ok (some (.hello peerDid version name))) = (r₂, side) ∧
        (side = [] ∨ side = [.ping]) ∧ r₂.mode = .waits ∧
        ∀ offer, r₂.onRead env (.ok (some (.fileOffer offer))) =
          r₂.absorb (startReceive ⟨r.deviceId, peerDid, r.config⟩ env.toEnv r.dir offer) := by
  cases r with
  | runPeer ctx p =>
      obtain ⟨phase, dir, inbound, fileInbound⟩ := p
      have hphase : phase = .start := by
        cases phase <;> simp [mode, Peer.mode] at hstart ⊢
      subst hphase
      simp only [hello, deviceId, deviceName] at hhello
      obtain ⟨hexpected, hself⟩ := hadmits
      refine ⟨.runPeer ctx ⟨.hello, dir, inbound, fileInbound⟩, ?_, rfl, fun version name =>
        ⟨.runPeer ctx ⟨.classify peerDid, dir, inbound, fileInbound⟩, [.ping], ?_, .inr rfl, rfl,
          fun offer => ?_⟩⟩
      · simp [work, Peer.start, Peer.write, hhello, hello, deviceId, deviceName]
      · simp only [onRead, Peer.onRead, Peer.onHello, hexpected, Bool.false_eq_true, if_false,
          if_neg hself, Peer.write, hping]
      · simp [onRead, Peer.onRead, Peer.onClassify, hdir, absorb, deviceId, config,
          TransferReceiver.dir]
  | receiveFile ctx r =>
      obtain ⟨phase, dir⟩ := r
      have hphase : phase = .start := by
        cases phase <;> simp [mode, FileReceiver.mode] at hstart ⊢
      subst hphase
      simp only [hello, deviceId, deviceName] at hhello
      refine ⟨.receiveFile ctx ⟨.hello, dir⟩, ?_, rfl, fun version name =>
        ⟨.receiveFile ctx ⟨.offer peerDid, dir⟩, [], rfl, .inl rfl, rfl, fun offer => rfl⟩⟩
      simp [work, FileReceiver.start, hhello, hello, deviceId, deviceName]

end TransferReceiver

section

variable {r : TransferReceiver} {incoming : IncomingFileWriter} {dir : Dir} {sent : List LanMessage}

@[simp] theorem TransferReceiver.mode_waiting :
    (r.absorb ⟨.waiting incoming, dir, sent⟩).1.mode = .waits := by
  cases r <;> rfl

@[simp] theorem TransferReceiver.mode_returned {result : Except LanError ReceivedFile} :
    (r.absorb ⟨.returned result, dir, sent⟩).1.mode = .ended := by
  cases r <;> cases result <;> rfl

@[simp] theorem TransferReceiver.absorb_sent {turn : Turn} : (r.absorb turn).2 = turn.sent := by
  obtain ⟨receiving, dir, sent⟩ := turn
  cases r with
  | runPeer ctx p =>
      cases receiving with
      | waiting incoming => rfl
      | returned result => cases result <;> rfl
  | receiveFile ctx r => cases receiving <;> rfl

@[simp] theorem TransferReceiver.dir_returned {file : ReceivedFile} :
    (r.absorb ⟨.returned (.ok file), dir, sent⟩).1.dir = dir := by
  cases r <;> rfl

@[simp] theorem TransferReceiver.dir_waiting :
    (r.absorb ⟨.waiting incoming, dir, sent⟩).1.dir = dir := by
  cases r <;> rfl

@[simp] theorem TransferReceiver.received_returned {file : ReceivedFile} :
    (r.absorb ⟨.returned (.ok file), dir, sent⟩).1.received = some file := by
  cases r with
  | runPeer ctx p => simp [absorb, Peer.absorb, received]
  | receiveFile ctx r => rfl

/-- While it receives, a frame is for `receive_offered_file`. -/
theorem TransferReceiver.onRead_waiting [Sha256] {env : PeerEnv} {read : Read} {turn : Turn}
    (hturn : Receiving.onRead incoming env.toEnv dir read = turn) :
    (r.absorb ⟨.waiting incoming, dir, sent⟩).1.onRead env read =
      ((r.absorb turn).1, turn.sent) := by
  subst hturn
  refine Prod.ext ?_ ?_
  · cases r with
    | runPeer ctx p =>
        simp only [absorb, onRead, Peer.absorb, Peer.onRead]
        cases (Receiving.onRead incoming env.toEnv dir read).receiving with
        | waiting incoming' => rfl
        | returned result => cases result <;> rfl
    | receiveFile ctx r => rfl
  · rw [← absorb_sent (r := r)]
    cases r with
    | runPeer ctx p =>
        simp only [absorb, onRead, Peer.absorb, Peer.onRead]
        cases (Receiving.onRead incoming env.toEnv dir read).receiving with
        | waiting incoming' => rfl
        | returned result => cases result <;> rfl
    | receiveFile ctx r => rfl

end

/-! ## A file for examples -/

theorem length_abc_le : ([97, 98, 99] : Bytes).length ≤ maxFileLen := by decide

def abcSource : SourceFile :=
  ⟨"/tmp/abc.txt", some "abc.txt", true, ⟨[97, 98, 99], length_abc_le⟩, none⟩

end ClipBridge
