import ClipBridge.Core.Protocol
import ClipBridge.Lib.Broadcast
import Mathlib.Data.List.AList

/-!
# The hub: groups, their recent clips, and who is present

Following `relay/src/hub.rs`. A group has a broadcast channel, a cache of the last few clips for
`FetchRecent`, and the rendezvous presence: for each egress address, the connections that sent a
`LanAdvertise`.

* The `DashMap` of groups, whose `entry` creates a group on first touch, is a total function with
  an empty group as its default.
* A `HashMap` is an association list without duplicate keys, read in the order of its entries.
* The hub is generic in the clip: it copies clips and never looks inside one.
* `pushEgress` returns the snapshots it sends instead of sending them. Each row of a snapshot is
  kept beside the id of the connection it was made from.
-/

namespace ClipBridge.Relay

open Broadcast (Receiver)

abbrev ConnId := Nat

def recentCap : Nat := 3

/-- How long a published clip stays available for `FetchRecent`. -/
def recentTtl : Duration := Duration.fromSecs (12 * 60 * 60)

def broadcastCap : Nat := 32

def maxLanCandidates : Nat := 32

/-! ## Addresses -/

inductive IpAddr where
  | v4 (bits : BitVec 32)
  | v6 (bits : BitVec 128)
  deriving DecidableEq, Repr

/-- A socket address as text can spell it: `scopeId` is zero for an IPv4 address. -/
structure SocketAddr where
  ip : IpAddr
  port : UInt16
  scopeId : UInt32
  deriving DecidableEq, Repr

/-- `SocketAddr`'s `FromStr` and `Display`. -/
class SocketAddrText where
  parse : String → Option SocketAddr
  display : SocketAddr → String

/-- The relay introduces only private and link-local IPv4 addresses, and unique-local IPv6 ones. -/
def isRelayLanCandidateIp : IpAddr → Bool
  | .v4 b =>
      b >>> 24 == 10#32 || b >>> 20 == 0xac1#32 || b >>> 16 == 0xc0a8#32 || b >>> 16 == 0xa9fe#32
  | .v6 b => (b >>> 120) &&& 0xfe#128 == 0xfc#128

def validPrefixLen (ip : IpAddr) (prefixLen : UInt8) : Bool :=
  match ip with
  | .v4 _ => prefixLen ≤ 32
  | .v6 _ => prefixLen ≤ 128

/-- The top `n` bits of a `w`-bit word set. A shift by the full width is never attempted. -/
def prefixMask (w n : Nat) : BitVec w :=
  if n = 0 then 0 else BitVec.allOnes w <<< (w - n)

def ipInPrefix (target networkIp : IpAddr) (prefixLen : UInt8) : Bool :=
  match target, networkIp with
  | .v4 t, .v4 m =>
      decide (prefixLen ≤ 32) &&
        t &&& prefixMask 32 prefixLen.toNat == m &&& prefixMask 32 prefixLen.toNat
  | .v6 t, .v6 m =>
      decide (prefixLen ≤ 128) &&
        t &&& prefixMask 128 prefixLen.toNat == m &&& prefixMask 128 prefixLen.toNat
  | _, _ => false

/-! ## Sanitising an advertisement -/

section Sanitize

variable [SocketAddrText]

/-- The candidate loop: `out` is what has been accepted so far. -/
def sanitizeCandidates (out : List String) : List String → List String
  | [] => out
  | candidate :: rest =>
      if maxLanCandidates ≤ out.length then out
      else
        match SocketAddrText.parse candidate with
        | none => sanitizeCandidates out rest
        | some addr =>
            if isRelayLanCandidateIp addr.ip && !out.contains (SocketAddrText.display addr) then
              sanitizeCandidates (out ++ [SocketAddrText.display addr]) rest
            else sanitizeCandidates out rest

/-- The network loop: a network is kept if its address is an accepted candidate, its prefix
length is valid for the family, and no network kept so far has the address. -/
def sanitizeNetworks (accepted : List String) (out : List LanCandidate) :
    List LanCandidate → List LanCandidate
  | [] => out
  | candidate :: rest =>
      if maxLanCandidates ≤ out.length then out
      else
        match SocketAddrText.parse candidate.addr with
        | none => sanitizeNetworks accepted out rest
        | some addr =>
            let normalized := SocketAddrText.display addr
            if accepted.contains normalized && validPrefixLen addr.ip candidate.prefixLen &&
                !(out.map (·.addr)).contains normalized then
              sanitizeNetworks accepted (out ++ [⟨normalized, candidate.prefixLen⟩]) rest
            else sanitizeNetworks accepted out rest

def sanitizeLanAdvertise (candidates : List String) (candidateNetworks : List LanCandidate) :
    List String × List LanCandidate :=
  let accepted := sanitizeCandidates [] candidates
  (accepted, sanitizeNetworks accepted [] candidateNetworks)

end Sanitize

/-! ## Presence -/

/-- One rendezvous-capable connection: a client that sent `LanAdvertise`. -/
structure RvConn where
  deviceId : DeviceId
  deviceName : String
  candidates : List String
  candidateNetworks : List LanCandidate
  /-- The connection whose task drains the mailbox. -/
  tx : ConnId
  deriving DecidableEq, Repr

/-- The connections present behind one egress address. -/
abbrev Conns := AList (fun _ : ConnId => RvConn)

abbrev Presence := AList (fun _ : IpAddr => Conns)

/-- A row of a snapshot, beside the connection it was made from. -/
abbrev Row := ConnId × LanPeer

/-- One `tx.send(peers)`: a snapshot put into the mailbox of connection `tx`. -/
structure Push where
  tx : ConnId
  rows : List Row
  deriving DecidableEq, Repr

section Push

variable [SocketAddrText]

def mutualSubnet (a b : LanCandidate) : Bool :=
  match SocketAddrText.parse a.addr, SocketAddrText.parse b.addr with
  | some aAddr, some bAddr =>
      ipInPrefix bAddr.ip aAddr.ip a.prefixLen && ipInPrefix aAddr.ip bAddr.ip b.prefixLen
  | _, _ => false

/-- The peer's addresses a receiver may dial: all of them unless both sides sent networks. -/
def candidatesForReceiver (receiver peer : RvConn) : List String :=
  if receiver.candidateNetworks.isEmpty || peer.candidateNetworks.isEmpty then peer.candidates
  else
    peer.candidateNetworks.foldl (fun out candidate =>
      if peer.candidates.any (· == candidate.addr) &&
          receiver.candidateNetworks.any (mutualSubnet · candidate) &&
          !out.contains candidate.addr then
        out ++ [candidate.addr]
      else out) []

/-- One connection for each device, beside its id. -/
abbrev ByDevice := AList (fun _ : DeviceId => ConnId × RvConn)

/-- One turn of the loop of `byDevice`. -/
def ByDevice.add (byDid : ByDevice) (oid : ConnId) (oc : RvConn) : ByDevice :=
  match byDid.lookup oc.deviceId with
  | some latest => byDid.insert oc.deviceId (if latest.1 < oid then (oid, oc) else latest)
  | none => byDid.insert oc.deviceId (oid, oc)

/-- The other connections by device: of a device with several, the one with the highest id. -/
def byDevice (cid : ConnId) (conns : Conns) : ByDevice :=
  conns.entries.foldl (fun byDid entry =>
    if entry.1 = cid then byDid else byDid.add entry.1 entry.2) ∅

/-- The snapshot made for connection `cid`. -/
def snapshotFor (cid : ConnId) (c : RvConn) (conns : Conns) : List Row :=
  (byDevice cid conns).entries.filterMap fun entry =>
    let peer : RvConn := entry.2.2
    let candidates := candidatesForReceiver c peer
    if candidates.isEmpty then none
    else some (entry.2.1, ⟨entry.1, peer.deviceName, candidates⟩)

/-- A snapshot for every connection behind one egress address. -/
def pushEgress (p : Presence) (egress : IpAddr) : List Push :=
  match p.lookup egress with
  | none => []
  | some conns =>
      conns.entries.map fun entry =>
        let c : RvConn := entry.2
        ⟨c.tx, snapshotFor entry.1 c conns⟩

end Push

/-! ## The hub -/

structure Group (κ : Type) where
  /-- Everything sent on the broadcast channel. -/
  tx : List κ
  cache : List (Instant × κ)
  presence : Presence

def Group.new {κ : Type} : Group κ := ⟨[], [], ∅⟩

structure Hub (κ : Type) where
  inner : GroupId → Group κ
  connSeq : ConnId

structure RendezvousUpdate where
  groupId : GroupId
  egress : IpAddr
  connId : ConnId
  deviceId : DeviceId
  deviceName : String
  candidates : List String
  candidateNetworks : List LanCandidate
  tx : ConnId

/-- Drop the entries older than `recentTtl`. -/
def retainFresh {κ : Type} (now : Instant) (cache : List (Instant × κ)) : List (Instant × κ) :=
  cache.filter fun entry => decide (now.durationSince entry.1 < recentTtl)

namespace Hub

variable {κ : Type}

def new : Hub κ := ⟨fun _ => Group.new, 1⟩

def nextConnId (hub : Hub κ) : ConnId × Hub κ :=
  (hub.connSeq, { hub with connSeq := hub.connSeq + 1 })

def entry (hub : Hub κ) (groupId : GroupId) : Group κ := hub.inner groupId

def set (hub : Hub κ) (groupId : GroupId) (group : Group κ) : Hub κ :=
  { hub with inner := Function.update hub.inner groupId group }

def subscribe (hub : Hub κ) (groupId : GroupId) : Receiver :=
  Broadcast.subscribe (hub.entry groupId).tx

def publish (hub : Hub κ) (now : Instant) (groupId : GroupId) (clip : κ) : Hub κ :=
  let group := hub.entry groupId
  let cache := retainFresh now group.cache
  let cache := if cache.length = recentCap then cache.tail else cache
  hub.set groupId { group with cache := cache ++ [(now, clip)], tx := group.tx ++ [clip] }

def recent (hub : Hub κ) (now : Instant) (groupId : GroupId) : List κ × Hub κ :=
  let group := hub.entry groupId
  let cache := retainFresh now group.cache
  (cache.map (·.2), hub.set groupId { group with cache })

/-! ## Reading back an updated hub -/

@[simp] theorem entry_set_self (hub : Hub κ) (g : GroupId) (group : Group κ) :
    (hub.set g group).entry g = group := by
  simp [entry, set]

theorem entry_set_ne (hub : Hub κ) {g h : GroupId} (hne : h ≠ g) (group : Group κ) :
    (hub.set g group).entry h = hub.entry h := by
  simp [entry, set, hne]

variable [SocketAddrText]

def rendezvousUpsert (hub : Hub κ) (update : RendezvousUpdate) : Hub κ × List Push :=
  let group := hub.entry update.groupId
  let conns := (group.presence.lookup update.egress).getD ∅
  let conns := conns.insert update.connId
    ⟨update.deviceId, update.deviceName, update.candidates, update.candidateNetworks, update.tx⟩
  let p := group.presence.insert update.egress conns
  (hub.set update.groupId { group with presence := p }, pushEgress p update.egress)

def rendezvousRemove (hub : Hub κ) (groupId : GroupId) (egress : IpAddr) (connId : ConnId) :
    Hub κ × List Push :=
  let group := hub.entry groupId
  let p :=
    match group.presence.lookup egress with
    | none => group.presence
    | some conns =>
        let conns : Conns := conns.erase connId
        if conns.entries.isEmpty then group.presence.erase egress
        else group.presence.insert egress conns
  (hub.set groupId { group with presence := p }, pushEgress p egress)

end Hub

end ClipBridge.Relay
