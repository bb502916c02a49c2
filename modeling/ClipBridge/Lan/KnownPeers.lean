import ClipBridge.Relay.Hub
import Mathlib.Data.List.Sort

/-!
# What is known of the peers

Following `core/src/lan.rs`: where a peer may be dialled, as mDNS and the relay tell it.

* `mdnsCandidates`, `relayCandidates` — the addresses of a peer that are worth a try, in order.
* `resolve` — what a `ServiceResolved` event says, if it is about a peer of the group.
* `applyRelaySnapshotWithLocalNetworks` — a `LanPeers` snapshot replaces what was learned from
  the relay before, and leaves what was learned from mDNS alone.

A `HashMap` is an association list without duplicate keys. The addresses of a service come in
any order.
-/

namespace ClipBridge

open Relay (IpAddr SocketAddr SocketAddrText)

/-! ## Addresses -/

structure LocalNetwork where
  ip : IpAddr
  netmask : IpAddr
  prefixLen : UInt8
  deriving DecidableEq, Repr

/-- `fe80::/10`. -/
def isV6LinkLocal (v6 : BitVec 128) : Bool :=
  v6 >>> 120 == 0xfe#128 && (v6 >>> 112) &&& 0xc0#128 == 0x80#128

def isUnroutable : IpAddr → Bool
  | .v6 v6 => isV6LinkLocal v6
  | .v4 _ => false

def sameSubnet (candidate : IpAddr) (network : LocalNetwork) : Bool :=
  match candidate, network.ip, network.netmask with
  | .v4 candidate, .v4 ip, .v4 mask => candidate &&& mask == ip &&& mask
  | .v6 candidate, .v6 ip, .v6 mask => candidate &&& mask == ip &&& mask
  | _, _, _ => false

def sameSubnetRank (networks : List LocalNetwork) (sa : SocketAddr) : Nat :=
  if networks.any (sameSubnet sa.ip) then 0 else 1

def familyRank (sa : SocketAddr) : Nat :=
  match sa.ip with
  | .v4 _ => 0
  | .v6 _ => 1

/-- First what is on one of our networks, then IPv4 before IPv6. -/
def dialBefore (networks : List LocalNetwork) (a b : SocketAddr) : Bool :=
  decide (sameSubnetRank networks a < sameSubnetRank networks b) ||
    (sameSubnetRank networks a == sameSubnetRank networks b &&
      decide (familyRank a ≤ familyRank b))

/-- A stable sort. -/
def sortCandidatesForDial (candidates : List SocketAddr) (networks : List LocalNetwork) :
    List SocketAddr :=
  candidates.insertionSort (dialBefore networks · ·)

def isLocalInterfaceCandidate (networks : List LocalNetwork) (candidate : SocketAddr) : Bool :=
  networks.any fun network => candidate.ip == network.ip

def dropLocalInterfaceCandidates (candidates : List SocketAddr) (networks : List LocalNetwork) :
    List SocketAddr :=
  candidates.filter fun candidate => !isLocalInterfaceCandidate networks candidate

/-- `None` for a name of white space only. -/
def nonEmptyDisplayName (value : Option String) : Option String :=
  value.bind fun name =>
    let trimmed := trim name.toList
    if trimmed.isEmpty then none else some (String.ofList trimmed)

/-! ## The two maps -/

structure PeerAddrEntry where
  deviceId : DeviceId
  displayName : Option String
  candidates : List SocketAddr
  deriving DecidableEq, Repr

structure KnownPeer where
  peerDid : DeviceId
  candidates : List SocketAddr
  deriving DecidableEq, Repr

/-- By mDNS fullname, or by `relay:` and the device id. -/
abbrev PeerAddrs := AList fun _ : String => PeerAddrEntry

abbrev KnownPeers := AList fun _ : String => KnownPeer

def relayKey (deviceId : DeviceId) : String := "relay:" ++ deviceId

def isRelayKey (key : String) : Bool := "relay:".toList.isPrefixOf key.toList

/-- `HashMap::retain`, on the keys. -/
def retainKeys {β : Type} (p : String → Bool) (m : AList fun _ : String => β) :
    AList fun _ : String => β :=
  ⟨m.entries.filter (p ·.1), m.nodupKeys.sublist List.filter_sublist⟩

/-! ## mDNS -/

/-- What mDNS says of a service. -/
structure ServiceInfo where
  gid : Option String
  did : Option String
  addresses : List IpAddr
  port : UInt16
  fullname : String

inductive ServiceEvent where
  | resolved (info : ServiceInfo)
  | removed (fullname : String)
  | other

def mdnsCandidates (info : ServiceInfo) (networks : List LocalNetwork) : List SocketAddr :=
  let candidates := (info.addresses.filter (!isUnroutable ·)).map fun ip => ⟨ip, info.port, 0⟩
  sortCandidatesForDial (dropLocalInterfaceCandidates candidates networks) networks

/-- The peer of our group that a service belongs to, if it can be dialled. -/
def resolve (fingerprint : String) (info : ServiceInfo) (networks : List LocalNetwork) :
    Option KnownPeer :=
  let peerGid := info.gid.getD ""
  let peerDid := info.did.getD ""
  if peerGid ≠ fingerprint then none
  else if peerDid.isEmpty then none
  else
    let candidates := mdnsCandidates info networks
    if candidates.isEmpty then none else some ⟨peerDid, candidates⟩

/-! ## The relay -/

section

variable [SocketAddrText]

/-- The candidate loop: `cands` is what has been taken so far. -/
def parseCandidates (cands : List SocketAddr) : List String → List SocketAddr
  | [] => cands
  | s :: rest =>
      match SocketAddrText.parse s with
      | some sa =>
          if !isUnroutable sa.ip && !cands.contains sa then parseCandidates (cands ++ [sa]) rest
          else parseCandidates cands rest
      | none => parseCandidates cands rest

def relayCandidates (p : LanPeer) (networks : List LocalNetwork) : List SocketAddr :=
  sortCandidatesForDial (dropLocalInterfaceCandidates (parseCandidates [] p.candidates) networks)
    networks

/-- The peers of a snapshot that can be dialled; never ourselves. -/
def desiredPeers (selfDeviceId : DeviceId) (peers : List LanPeer) (networks : List LocalNetwork) :
    List PeerAddrEntry :=
  peers.filterMap fun p =>
    if p.deviceId = selfDeviceId then none
    else
      let cands := relayCandidates p networks
      if cands.isEmpty then none
      else some ⟨p.deviceId, nonEmptyDisplayName (some p.deviceName), cands⟩

/-- The loop that inserts the addresses. -/
def insertAddrs (addrs : PeerAddrs) (desired : List PeerAddrEntry) : PeerAddrs :=
  desired.foldl (fun addrs entry => addrs.insert (relayKey entry.deviceId) entry) addrs

/-- The loop that inserts the peers we are to dial: the tiebreak is ours, and mDNS does not
cover them. -/
def insertRelayPeers (selfDeviceId : DeviceId) (mdnsDids : List DeviceId) (known : KnownPeers) :
    List PeerAddrEntry → KnownPeers
  | [] => known
  | entry :: desired =>
      if selfDeviceId ≤ entry.deviceId then insertRelayPeers selfDeviceId mdnsDids known desired
      else if mdnsDids.contains entry.deviceId then
        insertRelayPeers selfDeviceId mdnsDids known desired
      else
        insertRelayPeers selfDeviceId mdnsDids
          (known.insert (relayKey entry.deviceId) ⟨entry.deviceId, entry.candidates⟩) desired

def applyRelaySnapshotWithLocalNetworks (selfDeviceId : DeviceId) (peers : List LanPeer)
    (addrs : PeerAddrs) (known : KnownPeers) (networks : List LocalNetwork) :
    PeerAddrs × KnownPeers :=
  let desired := desiredPeers selfDeviceId peers networks
  let addrs := insertAddrs (retainKeys (!isRelayKey ·) addrs) desired
  let known := retainKeys (!isRelayKey ·) known
  let mdnsDids := known.entries.map (·.2.peerDid)
  (addrs, insertRelayPeers selfDeviceId mdnsDids known desired)

end

end ClipBridge
