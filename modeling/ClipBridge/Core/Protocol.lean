import ClipBridge.Core.Basic

/-!
# The wire messages between a client and the relay

Following `core/src/protocol.rs`. A clip travels as a `RecentClip`: ciphertext, nonce, the
publisher's timestamp and the publisher's device id. `ServerMessage` is generic in how a clip is
represented, because neither the hub nor a socket looks inside one except for its sender: the
program has `κ := RecentClip`, and the relay model uses clips numbered in publish order, so that
a theorem can say which publish a message carries.
-/

namespace ClipBridge

/-- An advertised LAN address with the prefix length of the interface it came from. -/
structure LanCandidate where
  addr : String
  prefixLen : UInt8
  deriving DecidableEq, Repr

/-- A rendezvous peer, as it appears in a `LanPeers` snapshot. -/
structure LanPeer where
  deviceId : DeviceId
  deviceName : String
  candidates : List String
  deriving DecidableEq, Repr

structure RecentClip where
  ciphertext : Bytes
  nonce : Bytes
  ts : UInt64
  senderDeviceId : DeviceId
  deriving DecidableEq, Repr

/-- A representation of clips from which the wire clip can be read. -/
class WireClip (κ : Type) where
  wire : κ → RecentClip

export WireClip (wire)

instance : WireClip RecentClip := ⟨id⟩

inductive ClientMessage where
  | join (groupId : GroupId) (deviceId : DeviceId)
  | publish (groupId : GroupId) (ciphertext nonce : Bytes) (ts : UInt64)
  | fetchRecent (groupId : GroupId)
  | lanAdvertise (groupId : GroupId) (deviceId : DeviceId) (deviceName : String)
      (candidates : List String) (candidateNetworks : List LanCandidate)
  deriving DecidableEq, Repr

inductive ServerMessage (κ : Type) where
  | joined (groupId : GroupId)
  | clip (c : κ)
  | recent (clips : List κ)
  | error (reason : String)
  | lanPeers (peers : List LanPeer)
  deriving DecidableEq, Repr

/-! ## The decrypted payload -/

inductive ClipKind where
  | text
  | image
  deriving DecidableEq, Repr

structure ImageMeta where
  mimeType : String
  width : UInt32
  height : UInt32
  sizeBytes : UInt64
  sha256Hex : String
  nonceB64 : String
  deriving DecidableEq, Repr

structure ClipPayload where
  kind : ClipKind
  content : String
  deviceName : String
  ts : UInt64
  image : Option ImageMeta
  deriving DecidableEq, Repr

end ClipBridge
