import ClipBridge.Lan.KnownPeers
import ClipBridge.Lan.RunPeer
import ClipBridge.Lib.Machine
import ClipBridge.Lib.Notify

/-!
# The LAN node and its tasks

Following `LanNode::spawn`, `start_transport`, `TransportGuard` and `PeerSessionGuard` in
`core/src/lan.rs`. The tasks of the node share three maps: `known_peers`, which peers to dial;
`peer_addrs`, where anybody can be reached; `outbound_peers`, which peers are being dialled or
connected. Beside these there is the registry of live sessions with its counter.

The node is a machine. Each event is what one task does from one place where it can be interrupted
to the next one: an `await`, be it a `lock().await` that does not have to wait.

* the lifecycle task drops the transport and clears the maps on suspend, and starts a new
  transport on resume (`onLifecycle`);
* the discover task of each transport handles the mDNS events in its channel (`onDiscover`);
* the session with the relay hands over `LanPeers` snapshots (`onLanPeers`, `onIngest`);
* the reconciler dials what is known and not being dialled (`onTick`, `onSnapshot`, `onDial`);
* a task for each connection dials, says hello, runs a session and ends (`onHandshake`, …).

Recorded beside the program's variables is whether the node is suspended: the lifecycle task has
completed its suspend step, and has not resumed with a new transport since. The flag is not asked:
it may go on and off again in the meantime, and a resume may fail.
-/

namespace ClipBridge

open Relay (SocketAddrText)

/-! ## State -/

structure LanConfig where
  selfDeviceId : DeviceId
  /-- The `group_fingerprint` of the group. -/
  fingerprint : String

/-- Where a task stands in `wait_until_flag`. -/
inductive FlagWait where
  | head
  | parked (waiter : Notified)
  deriving DecidableEq, Repr

inductive Lifecycle where
  /-- There is a transport; waits for the flag to be off. -/
  | active (wait : FlagWait)
  | clearingKnown
  | clearingOutbound
  /-- There is none; waits for the flag to be on. -/
  | inactive (wait : FlagWait)
  | starting
  /-- Sleeps a second after a start that failed. -/
  | retrying
  deriving DecidableEq, Repr

/-- Where a discover task stands: before `recv`, or before the lock of `known_peers`. -/
inductive Discover where
  | receiving
  | inserting (fullname : String) (peer : KnownPeer)
  | removing (fullname : String)
  deriving DecidableEq, Repr

/-- One transport: the channel from its mDNS forwarder, and its discover task. -/
structure Transport where
  accepting : Bool
  forwarding : Bool
  events : List ServiceEvent
  discover : Discover

inductive Reconciler where
  /-- Waits for the flag, or in the `select!`. -/
  | waiting
  /-- The flag was on; the lock of `known_peers` comes next. -/
  | checked
  /-- The loop over the snapshot. -/
  | dialing (rest : List (String × KnownPeer))

inductive PeerTaskPhase where
  /-- Dialling or in the handshake. -/
  | starting
  /-- With a `PeerSessionGuard`. -/
  | session
  /-- Before the lock of `outbound_peers`. -/
  | ended
  deriving DecidableEq, Repr

/-- The task of one connection. An outbound one expects a peer, and its registry key is the key of
its entry in `outbound_peers`. -/
structure PeerTask where
  registryKey : String
  expectedPeer : Option DeviceId
  phase : PeerTaskPhase
  deriving DecidableEq, Repr

structure LanNode where
  lanActive : Bool
  lanModeNotify : Notify
  /-- The threads in `set_lan_active` that have stored the flag and not yet notified. -/
  setters : Nat
  lifecycle : Lifecycle
  /-- All transports so far, the current one last. -/
  transports : List Transport
  knownPeers : KnownPeers
  peerAddrs : PeerAddrs
  outboundPeers : Finset String
  /-- The snapshot that waits for the lock of `known_peers`. -/
  ingesting : Option (List LanPeer)
  reconciler : Reconciler
  tasks : List PeerTask
  peerCount : Nat
  /-- The registry: by registry key, the device id and the name of the peer. -/
  peers : AList fun _ : String => DeviceId × String
  suspended : Bool

inductive LanEvent where
  /-- The two steps of `set_lan_active`. -/
  | storeActive (enabled : Bool)
  | notifyMode
  /-- The lifecycle task goes on: whether the mDNS daemon confirms its shutdown in time, and
  whether the transport starts. -/
  | lifecycle (confirmed started : Bool)
  /-- mDNS says something, and the forwarder of a transport hands it on. -/
  | mdns (transport : Nat) (event : ServiceEvent)
  /-- The forwarder of a transport ends. -/
  | forwarderEnds (transport : Nat)
  /-- The discover task of a transport goes on; these are our networks. -/
  | discover (transport : Nat) (networks : List LocalNetwork)
  /-- A snapshot comes in on the session with the relay. -/
  | lanPeers (peers : List LanPeer)
  | ingest (networks : List LocalNetwork)
  /-- The `select!` of the reconciler is over. -/
  | tick
  /-- The reconciler reads the map, in this order. -/
  | snapshot (order : List (String × KnownPeer))
  | dial
  /-- A connection comes in from this address. -/
  | accept (transport : Nat) (addr : String)
  /-- Task `i` ends without a session. -/
  | fails (i : Nat)
  /-- Task `i` has seen the peer's Hello, and that it is no transfer. -/
  | handshake (i : Nat) (peerDid : DeviceId) (peerName : String)
  | sessionEnds (i : Nat)
  | removeSelf (i : Nat)

namespace LanNode

/-! ## Suspend and resume -/

/-- A transport that has just started. -/
def startTransport : Transport := ⟨true, true, [], .receiving⟩

/-- `TransportGuard::drop`: the accept loop ends, and the forwarder too if the daemon confirms. -/
def dropTransport (t : Transport) (confirmed : Bool) : Transport :=
  { t with accepting := false, forwarding := t.forwarding && !confirmed }

/-- A node whose first transport is up, if the host started active. -/
def init (active : Bool) : LanNode where
  lanActive := active
  lanModeNotify := .new
  setters := 0
  lifecycle := if active then .active .head else .inactive .head
  transports := if active then [startTransport] else []
  knownPeers := ∅
  peerAddrs := ∅
  outboundPeers := ∅
  ingesting := none
  reconciler := .waiting
  tasks := []
  peerCount := 0
  peers := ∅
  suspended := false

/-- `wait_until_flag`: the waiter is made before the flag is read. `none` when it is over. -/
def waitUntilFlag (n : LanNode) (want : Bool) : FlagWait → Option FlagWait
  | .head => if n.lanActive = want then none else some (.parked n.lanModeNotify.notified)
  | .parked waiter => some (if n.lanModeNotify.woken waiter then .head else .parked waiter)

/-- `drop(transport.take())`: of the current transport. -/
def dropCurrent (n : LanNode) (confirmed : Bool) : LanNode :=
  { n with
    transports := n.transports.modify (n.transports.length - 1) (dropTransport · confirmed)
    lifecycle := .clearingKnown }

/-- The end of the suspend step: `outbound_peers` and `peer_addrs` are cleared. -/
def clearOutbound (n : LanNode) : LanNode :=
  { n with
    outboundPeers := ∅
    peerAddrs := ∅
    lifecycle := .inactive .head
    suspended := true }

def onLifecycle (n : LanNode) (confirmed started : Bool) : LanNode :=
  match n.lifecycle with
  | .active wait =>
      match n.waitUntilFlag false wait with
      | some wait => { n with lifecycle := .active wait }
      | none => n.dropCurrent confirmed
  | .clearingKnown => { n with knownPeers := ∅, lifecycle := .clearingOutbound }
  | .clearingOutbound => n.clearOutbound
  | .inactive wait =>
      match n.waitUntilFlag true wait with
      | some wait => { n with lifecycle := .inactive wait }
      | none => { n with lifecycle := .starting }
  | .starting =>
      if started then
        { n with
          transports := n.transports ++ [startTransport]
          lifecycle := .active .head
          suspended := false }
      else { n with lifecycle := .retrying }
  | .retrying => { n with lifecycle := .inactive .head }

def storeActive (n : LanNode) (enabled : Bool) : LanNode :=
  { n with
    lanActive := enabled
    setters := n.setters + 1 }

def notifyMode (n : LanNode) : LanNode :=
  if n.setters = 0 then n
  else { n with setters := n.setters - 1, lanModeNotify := n.lanModeNotify.notifyWaiters }

/-! ## Discovery -/

def onMdns (n : LanNode) (transport : Nat) (event : ServiceEvent) : LanNode :=
  { n with
    transports := n.transports.modify transport fun t =>
      if t.forwarding then { t with events := t.events ++ [event] } else t }

def onForwarderEnds (n : LanNode) (transport : Nat) : LanNode :=
  { n with transports := n.transports.modify transport ({ · with forwarding := false }) }

section

variable (cfg : LanConfig)

/-- `ServiceResolved`: the addresses are for everybody, the control link only for the side with
the larger device id. -/
def onResolved (n : LanNode) (transport : Nat) (t : Transport) (info : ServiceInfo)
    (networks : List LocalNetwork) : LanNode :=
  match resolve cfg.fingerprint info networks with
  | none => { n with transports := n.transports.set transport t }
  | some peer =>
      { n with
        peerAddrs := n.peerAddrs.insert info.fullname ⟨peer.peerDid, none, peer.candidates⟩
        transports := n.transports.set transport
          (if cfg.selfDeviceId ≤ peer.peerDid then t
            else { t with discover := .inserting info.fullname peer }) }

/-- A discover task handles one event, or does what it has waited for the lock to do. -/
def onDiscover (n : LanNode) (transport : Nat) (networks : List LocalNetwork) : LanNode :=
  match n.transports[transport]? with
  | none => n
  | some t =>
      match t.discover with
      | .inserting fullname peer =>
          { n with
            knownPeers := n.knownPeers.insert fullname peer
            transports := n.transports.set transport { t with discover := .receiving } }
      | .removing fullname =>
          { n with
            knownPeers := n.knownPeers.erase fullname
            peerAddrs := n.peerAddrs.erase fullname
            transports := n.transports.set transport { t with discover := .receiving } }
      | .receiving =>
          match t.events with
          | [] => n
          | .resolved info :: events =>
              n.onResolved cfg transport { t with events } info networks
          | .removed fullname :: events =>
              { n with
                transports := n.transports.set transport
                  { t with events, discover := .removing fullname } }
          | .other :: events =>
              { n with
                transports := n.transports.set transport { t with events } }

/-- The session hands a snapshot over if the flag is on. -/
def onLanPeers (n : LanNode) (peers : List LanPeer) : LanNode :=
  if n.lanActive && n.ingesting.isNone then { n with ingesting := some peers } else n

/-- `ingest_relay_peers`, with the lock. -/
def onIngest [SocketAddrText] (n : LanNode) (networks : List LocalNetwork) : LanNode :=
  match n.ingesting with
  | none => n
  | some peers =>
      let (addrs, known) := applyRelaySnapshotWithLocalNetworks cfg.selfDeviceId peers
        n.peerAddrs n.knownPeers networks
      { n with peerAddrs := addrs, knownPeers := known, ingesting := none }

end

/-! ## Connections -/

def onTick (n : LanNode) : LanNode :=
  match n.reconciler with
  | .waiting => if n.lanActive then { n with reconciler := .checked } else n
  | _ => n

/-- The entries of the map, in any order. -/
def onSnapshot (n : LanNode) (order : List (String × KnownPeer)) : LanNode :=
  match n.reconciler with
  | .checked =>
      if order.Perm (n.knownPeers.entries.map fun e => (e.1, e.2)) then
        { n with reconciler := .dialing order }
      else n
  | _ => n

/-- One turn of the loop over the snapshot: a peer that is not being dialled gets a task. -/
def onDial (n : LanNode) : LanNode :=
  match n.reconciler with
  | .dialing [] => { n with reconciler := .waiting }
  | .dialing ((fullname, kp) :: rest) =>
      if fullname ∈ n.outboundPeers then { n with reconciler := .dialing rest }
      else { n with
        outboundPeers := insert fullname n.outboundPeers
        tasks := n.tasks ++ [⟨fullname, some kp.peerDid, .starting⟩]
        reconciler := .dialing rest }
  | _ => n

def onAccept (n : LanNode) (transport : Nat) (addr : String) : LanNode :=
  if n.transports[transport]?.any (·.accepting) && n.lanActive then
    { n with tasks := n.tasks ++ [⟨"inbound:" ++ addr, none, .starting⟩] }
  else n

/-- A connection is over: an outbound task goes on to remove its entry. -/
def finishTask (n : LanNode) (i : Nat) (t : PeerTask) : LanNode :=
  { n with
    tasks := if t.expectedPeer.isSome then n.tasks.set i { t with phase := .ended }
      else n.tasks.eraseIdx i }

def onFails (n : LanNode) (i : Nat) : LanNode :=
  match n.tasks[i]? with
  | some t => if t.phase = .starting then n.finishTask i t else n
  | none => n

/-- `PeerSessionGuard::new`. -/
def guardNew (n : LanNode) (key : String) (peerDid : DeviceId) (name : String) : LanNode :=
  { n with peerCount := n.peerCount + 1, peers := n.peers.insert key (peerDid, name) }

/-- `PeerSessionGuard::drop`. -/
def guardDrop (n : LanNode) (key : String) : LanNode :=
  { n with peerCount := n.peerCount - 1, peers := n.peers.erase key }

/-- The name under which a peer is registered. -/
def displayName (peerDid : DeviceId) (peerName : String) : String :=
  if (trim peerName.toList).isEmpty then String.ofList (shortId peerDid) else peerName

/-- The handshake: the peer is the expected one and not ourselves, and the session starts. -/
def onHandshake (cfg : LanConfig) (n : LanNode) (i : Nat) (peerDid : DeviceId) (peerName : String) :
    LanNode :=
  match n.tasks[i]? with
  | none => n
  | some t =>
      if t.phase ≠ .starting then n
      else if t.expectedPeer.any (shortId peerDid ≠ shortId ·) || peerDid == cfg.selfDeviceId then
        n.finishTask i t
      else
        { n.guardNew t.registryKey peerDid (displayName peerDid peerName) with
          tasks := n.tasks.set i { t with phase := .session } }

/-- A session ends for whatever reason: an error, the peer, or that the flag is off. -/
def onSessionEnds (n : LanNode) (i : Nat) : LanNode :=
  match n.tasks[i]? with
  | some t => if t.phase = .session then (n.guardDrop t.registryKey).finishTask i t else n
  | none => n

/-- The end of an outbound task. -/
def onRemoveSelf (n : LanNode) (i : Nat) : LanNode :=
  match n.tasks[i]? with
  | some t =>
      if t.phase = .ended then
        { n with
          outboundPeers := n.outboundPeers.erase t.registryKey
          tasks := n.tasks.eraseIdx i }
      else n
  | none => n

/-! ## The machine -/

section

variable [SocketAddrText] (cfg : LanConfig)

def step (n : LanNode) : LanEvent → LanNode
  | .storeActive enabled => n.storeActive enabled
  | .notifyMode => n.notifyMode
  | .lifecycle confirmed started => n.onLifecycle confirmed started
  | .mdns transport event => n.onMdns transport event
  | .forwarderEnds transport => n.onForwarderEnds transport
  | .discover transport networks => n.onDiscover cfg transport networks
  | .lanPeers peers => n.onLanPeers peers
  | .ingest networks => n.onIngest cfg networks
  | .tick => n.onTick
  | .snapshot order => n.onSnapshot order
  | .dial => n.onDial
  | .accept transport addr => n.onAccept transport addr
  | .fails i => n.onFails i
  | .handshake i peerDid peerName => n.onHandshake cfg i peerDid peerName
  | .sessionEnds i => n.onSessionEnds i
  | .removeSelf i => n.onRemoveSelf i

/-- The node after a list of events. -/
abbrev run (active : Bool) (es : List LanEvent) : LanNode := Machine.run (step cfg) (init active) es

end

/-! ## Fixed inputs -/

def sampleLanConfig : LanConfig := ⟨"b", "gid"⟩

/-- A parser that knows one address. -/
@[reducible] def sampleAddrText : SocketAddrText where
  parse s := if s = "192.168.1.2:5000" then some ⟨.v4 0xc0a80102, 5000, 0⟩ else none
  display _ := "192.168.1.2:5000"

end LanNode

end ClipBridge
