import ClipBridge.Relay.Hub
import ClipBridge.Lib.Machine

/-!
# The socket task of every connection

Following `handle_socket` in `relay/src/ws.rs`. Each connection runs one task with its own
variables; all tasks share the hub. The relay is a machine whose events are the branches the
`select!` of some task takes, so a run is an interleaving of any number of tasks. A branch runs
to its next `await` without interruption, and the hub calls inside it do not suspend.

* `handleFrame` — the inbound branch, one definition for each arm of its `match`.
* `onBroadcast`, `onSnapshot` — the two outbound branches.
* `onClose` — the `break`, whatever its cause, and the code after the loop.

A failed `ws_tx.send` is ignored by the task, and a link that has failed once stays down:
`linkUp` says whether a frame handed to the socket still goes out.

Two things are recorded that the program does not keep: the history `accepted` of the publishes
the hub took, in order, and beside each clip its index in that history.
-/

namespace ClipBridge

namespace Relay

open Broadcast (Receiver Recv)

/-! ## State -/

/-- A clip beside its index in the relay's publish order. -/
structure Published where
  seq : Nat
  clip : RecentClip
  deriving DecidableEq, Repr

instance : WireClip Published := ⟨Published.clip⟩

/-- A publish the hub took. -/
structure Accepted where
  conn : ConnId
  group : GroupId
  clip : RecentClip
  deriving DecidableEq, Repr

/-- The variables of one socket task. -/
structure Conn where
  egress : IpAddr
  isOpen : Bool
  linkUp : Bool
  group : Option GroupId
  deviceId : Option DeviceId
  /-- The subscription, beside the group whose channel it reads. -/
  rx : Option (GroupId × Receiver)
  rvGroup : Option GroupId
  /-- The mailbox `rv_rx`. -/
  rvRx : List (List Row)
  /-- The frames that went out on the socket, oldest first. -/
  sent : List (ServerMessage Published)

/-- The variables before the loop of `handle_socket`. -/
def Conn.start (egress : IpAddr) : Conn where
  egress := egress
  isOpen := true
  linkUp := true
  group := none
  deviceId := none
  rx := none
  rvGroup := none
  rvRx := []
  sent := []

end Relay

open Relay in
/-- The hub and every socket task. -/
structure Relay where
  hub : Hub Published
  conns : ConnId → Conn
  accepted : List Accepted

namespace Relay

/-- Before the first connection. A connection id not handed out yet is not open. -/
def init : Relay where
  hub := Hub.new
  conns := fun _ => { Conn.start (.v4 0) with isOpen := false }
  accepted := []

/-! ## Events -/

/-- What `ws_rx.next()` yields. The text of a frame is parsed at once. -/
inductive Frame where
  | text (parsed : Except String ClientMessage)
  | binary
  | ping
  | pong
  | close

inductive Event where
  /-- A new socket is upgraded. -/
  | connect (egress : IpAddr)
  /-- The inbound branch of a task wins. -/
  | frame (cid : ConnId) (now : Instant) (f : Frame)
  /-- The broadcast branch of a task wins. -/
  | broadcast (cid : ConnId)
  /-- The mailbox branch of a task wins. -/
  | snapshot (cid : ConnId)
  /-- The link of a connection fails: nothing sent from here on goes out. -/
  | linkDown (cid : ConnId)
  /-- A task leaves its loop: idle timeout, failed ping, end of the stream or a read error. -/
  | stop (cid : ConnId)

/-- A push the hub made, with the group whose presence it was made from. -/
structure GroupPush where
  group : GroupId
  push : Push

/-! ## Sending -/

def setConn (r : Relay) (cid : ConnId) (c : Conn) : Relay :=
  { r with conns := Function.update r.conns cid c }

/-- `ws_tx.send`, its error ignored. -/
def send (r : Relay) (cid : ConnId) (msg : ServerMessage Published) : Relay :=
  if (r.conns cid).linkUp then
    r.setConn cid { r.conns cid with sent := (r.conns cid).sent ++ [msg] }
  else r

/-- Put one snapshot into a mailbox. The mailbox of a task that has ended is gone. -/
def deliver (r : Relay) (push : Push) : Relay :=
  if (r.conns push.tx).isOpen then
    r.setConn push.tx { r.conns push.tx with rvRx := (r.conns push.tx).rvRx ++ [push.rows] }
  else r

def deliverAll (r : Relay) (pushes : List Push) : Relay := pushes.foldl deliver r

variable [SocketAddrText]

/-! ## The inbound branch -/

def onJoin (r : Relay) (cid : ConnId) (groupId : GroupId) (did : DeviceId) : Relay :=
  let c := r.conns cid
  let rx := r.hub.subscribe groupId
  (r.setConn cid { c with
    rx := some (groupId, rx), deviceId := some did, group := some groupId }).send cid
    (.joined groupId)

def onPublish (r : Relay) (cid : ConnId) (now : Instant) (groupId : GroupId)
    (ciphertext nonce : Bytes) (ts : UInt64) : Relay :=
  match (r.conns cid).deviceId with
  | none => r.send cid (.error "join first")
  | some did =>
      if (r.conns cid).group ≠ some groupId then r.send cid (.error "group mismatch")
      else
        let clip : RecentClip := ⟨ciphertext, nonce, ts, did⟩
        { r with
          hub := r.hub.publish now groupId ⟨r.accepted.length, clip⟩
          accepted := r.accepted ++ [⟨cid, groupId, clip⟩] }

def onFetchRecent (r : Relay) (cid : ConnId) (now : Instant) (groupId : GroupId) : Relay :=
  if (r.conns cid).group ≠ some groupId then r.send cid (.error "group mismatch")
  else
    let (clips, hub) := r.hub.recent now groupId
    ({ r with hub } : Relay).send cid (.recent clips)

/-- `sanitize_device_name`: no control characters, at most 80 characters, trimmed. -/
def sanitizeDeviceName (name : String) : String :=
  String.ofList (trim ((name.toList.filter (!isControl ·)).take 80))

/-- The update an accepted advertisement hands to the hub. -/
def rendezvousUpdate (r : Relay) (cid : ConnId) (groupId : GroupId) (did : DeviceId)
    (deviceName : String) (candidates : List String) (candidateNetworks : List LanCandidate) :
    RendezvousUpdate :=
  let sanitized := sanitizeLanAdvertise candidates candidateNetworks
  { groupId
    egress := (r.conns cid).egress
    connId := cid
    deviceId := did
    deviceName := sanitizeDeviceName deviceName
    candidates := sanitized.1
    candidateNetworks := sanitized.2
    tx := cid }

def onLanAdvertise (r : Relay) (cid : ConnId) (groupId : GroupId) (did : DeviceId)
    (deviceName : String) (candidates : List String) (candidateNetworks : List LanCandidate) :
    Relay × List GroupPush :=
  match (r.conns cid).deviceId with
  | none => (r.send cid (.error "join first"), [])
  | some joinedDeviceId =>
      if (r.conns cid).group ≠ some groupId then (r.send cid (.error "group mismatch"), [])
      else if did ≠ joinedDeviceId then (r.send cid (.error "device mismatch"), [])
      else
        let update :=
          r.rendezvousUpdate cid groupId joinedDeviceId deviceName candidates candidateNetworks
        let r := r.setConn cid { r.conns cid with rvGroup := some groupId }
        let (hub, pushes) := r.hub.rendezvousUpsert update
        (({ r with hub } : Relay).deliverAll pushes, pushes.map (⟨groupId, ·⟩))

/-! ## The outbound branches -/

def onBroadcast (r : Relay) (cid : ConnId) : Relay :=
  let c := r.conns cid
  match c.rx with
  | none => r
  | some (groupId, rx) =>
      match Broadcast.recv broadcastCap (r.hub.entry groupId).tx rx with
      | (.value clip, rx) =>
          let r := r.setConn cid { c with rx := some (groupId, rx) }
          -- Not back to the device it came from.
          if some clip.clip.senderDeviceId = c.deviceId then r else r.send cid (.clip clip)
      | (.lagged _, rx) => r.setConn cid { c with rx := some (groupId, rx) }
      | (.empty, _) => r

def onSnapshot (r : Relay) (cid : ConnId) : Relay :=
  let c := r.conns cid
  match c.rvRx with
  | [] => r
  | rows :: rest => (r.setConn cid { c with rvRx := rest }).send cid (.lanPeers (rows.map (·.2)))

/-! ## The end of the task -/

/-- Leave the loop, and drop the rendezvous slot of the group remembered in `rv_group`. -/
def onClose (r : Relay) (cid : ConnId) : Relay × List GroupPush :=
  let c := r.conns cid
  match c.rvGroup with
  | none => (r.setConn cid { c with isOpen := false }, [])
  | some g =>
      let (hub, pushes) := r.hub.rendezvousRemove g c.egress cid
      let r := ({ r with hub } : Relay).setConn cid { c with isOpen := false }
      (r.deliverAll pushes, pushes.map (⟨g, ·⟩))

/-! ## The machine -/

def handleFrame (r : Relay) (cid : ConnId) (now : Instant) : Frame → Relay × List GroupPush
  | .text (.ok (.join groupId did)) => (r.onJoin cid groupId did, [])
  | .text (.ok (.publish groupId ciphertext nonce ts)) =>
      (r.onPublish cid now groupId ciphertext nonce ts, [])
  | .text (.ok (.fetchRecent groupId)) => (r.onFetchRecent cid now groupId, [])
  | .text (.ok (.lanAdvertise groupId did name candidates networks)) =>
      r.onLanAdvertise cid groupId did name candidates networks
  | .text (.error e) => (r.send cid (.error ("bad message: " ++ e)), [])
  | .binary | .ping | .pong => (r, [])
  | .close => r.onClose cid

/-- One event: the new state, and the snapshots the hub sent. -/
def act (r : Relay) : Event → Relay × List GroupPush
  | .connect egress =>
      let (cid, hub) := r.hub.nextConnId
      (({ r with hub } : Relay).setConn cid (Conn.start egress), [])
  | .frame cid now f => if (r.conns cid).isOpen then r.handleFrame cid now f else (r, [])
  | .broadcast cid => if (r.conns cid).isOpen then (r.onBroadcast cid, []) else (r, [])
  | .snapshot cid => if (r.conns cid).isOpen then (r.onSnapshot cid, []) else (r, [])
  | .linkDown cid => (r.setConn cid { r.conns cid with linkUp := false }, [])
  | .stop cid => if (r.conns cid).isOpen then r.onClose cid else (r, [])

def step (r : Relay) (e : Event) : Relay := (r.act e).1

/-- The snapshots the hub sends in one event. -/
def pushes (r : Relay) (e : Event) : List GroupPush := (r.act e).2

/-- The relay after a list of events. -/
abbrev run (es : List Event) : Relay := Machine.run step init es

theorem run_concat (es : List Event) (e : Event) : run (es ++ [e]) = (run es).step e :=
  Machine.run_concat init es e

end Relay

end ClipBridge
