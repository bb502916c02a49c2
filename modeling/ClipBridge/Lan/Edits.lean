import ClipBridge.Lan.Node

/-!
# What one step of the node does

The case analysis of the node's steps, done once.

* `Maps` — what is known of the peers.
* `Books` — what is known of the connections: the tasks, who is being dialled, who has a session.
* `Edits`, `step_edits` — a step leaves both alone, or edits one of them in one of eleven ways.
-/

namespace ClipBridge

open Relay (SocketAddrText)

namespace LanNode

/-! ## Maps and books -/

structure Maps where
  known : KnownPeers
  addrs : PeerAddrs

structure Books where
  tasks : List PeerTask
  outbound : Finset String
  count : Nat
  registry : AList fun _ : String => DeviceId × String

def maps (n : LanNode) : Maps := ⟨n.knownPeers, n.peerAddrs⟩

def books (n : LanNode) : Books := ⟨n.tasks, n.outboundPeers, n.peerCount, n.peers⟩

/-- The handshake of a task leads to a session. -/
def Starts (cfg : LanConfig) (t : PeerTask) (peerDid : DeviceId) : Prop :=
  t.phase = .starting ∧
    ¬ (t.expectedPeer.any (shortId peerDid ≠ shortId ·) || peerDid == cfg.selfDeviceId) = true

/-- The tasks after `finishTask`. -/
def finished (tasks : List PeerTask) (i : Nat) (t : PeerTask) : List PeerTask :=
  if t.expectedPeer.isSome then tasks.set i { t with phase := .ended } else tasks.eraseIdx i

/-- Suspend does not complete in this step, and no session starts. -/
def Harmless (cfg : LanConfig) (n : LanNode) : LanEvent → Prop
  | .lifecycle _ _ => n.lifecycle ≠ .clearingOutbound
  | .handshake i peerDid _ => ∀ t, n.tasks[i]? = some t → ¬ Starts cfg t peerDid
  | _ => True

/-- The node is suspended after a step only if it was before. -/
def Drowsy (n n' : LanNode) : Prop := n'.suspended → n.suspended

/-! ## Edits -/

/-- What a step does to the maps and the books. -/
inductive Edits [SocketAddrText] (cfg : LanConfig) (n : LanNode) : LanEvent → LanNode → Prop
  | nothing {e n'} (h : Harmless cfg n e) (hmaps : n'.maps = n.maps) (hbooks : n'.books = n.books)
      (hsusp : Drowsy n n') : Edits cfg n e n'
  /-- mDNS tells an address. -/
  | resolved {transport networks n'} (t : Transport) (info : ServiceInfo)
      (events : List ServiceEvent) (peer : KnownPeer) (hget : n.transports[transport]? = some t)
      (hdiscover : t.discover = .receiving) (hevents : t.events = .resolved info :: events)
      (hresolve : resolve cfg.fingerprint info networks = some peer)
      (hmaps : n'.maps = { n.maps with
        addrs := n.peerAddrs.insert info.fullname ⟨peer.peerDid, none, peer.candidates⟩ })
      (hbooks : n'.books = n.books) (hsusp : Drowsy n n') :
      Edits cfg n (.discover transport networks) n'
  /-- mDNS tells a peer to dial. -/
  | inserted {transport networks n'} (t : Transport) (fullname : String) (peer : KnownPeer)
      (hget : n.transports[transport]? = some t) (hdiscover : t.discover = .inserting fullname peer)
      (hmaps : n'.maps = { n.maps with known := n.knownPeers.insert fullname peer })
      (hbooks : n'.books = n.books) (hsusp : Drowsy n n') :
      Edits cfg n (.discover transport networks) n'
  /-- mDNS says that a peer is gone. -/
  | removed {transport networks n'} (t : Transport) (fullname : String)
      (hget : n.transports[transport]? = some t) (hdiscover : t.discover = .removing fullname)
      (hmaps : n'.maps = ⟨n.knownPeers.erase fullname, n.peerAddrs.erase fullname⟩)
      (hbooks : n'.books = n.books) (hsusp : Drowsy n n') :
      Edits cfg n (.discover transport networks) n'
  | ingested {networks n'} (peers : List LanPeer) (hpeers : n.ingesting = some peers)
      (hmaps : n'.maps =
        ⟨(applyRelaySnapshotWithLocalNetworks cfg.selfDeviceId peers n.peerAddrs n.knownPeers
            networks).2,
          (applyRelaySnapshotWithLocalNetworks cfg.selfDeviceId peers n.peerAddrs n.knownPeers
            networks).1⟩)
      (hbooks : n'.books = n.books) (hsusp : Drowsy n n') : Edits cfg n (.ingest networks) n'
  | clearedKnown {confirmed started n'} (hlife : n.lifecycle = .clearingKnown)
      (hmaps : n'.maps = { n.maps with known := ∅ }) (hbooks : n'.books = n.books)
      (hsusp : Drowsy n n') : Edits cfg n (.lifecycle confirmed started) n'
  /-- The end of the suspend step. -/
  | clearedOutbound {confirmed started n'} (hlife : n.lifecycle = .clearingOutbound)
      (hmaps : n'.maps = { n.maps with addrs := ∅ })
      (hbooks : n'.books = { n.books with outbound := ∅ })
      (hsusp : n'.suspended) : Edits cfg n (.lifecycle confirmed started) n'
  /-- The reconciler starts a task. -/
  | dialed {n'} (fullname : String) (kp : KnownPeer) (rest : List (String × KnownPeer))
      (hrest : n.reconciler = .dialing ((fullname, kp) :: rest))
      (hnew : fullname ∉ n.outboundPeers) (hmaps : n'.maps = n.maps)
      (hbooks : n'.books = { n.books with
        tasks := n.tasks ++ [⟨fullname, some kp.peerDid, .starting⟩]
        outbound := insert fullname n.outboundPeers })
      (hsusp : Drowsy n n') : Edits cfg n .dial n'
  | accepted {transport addr n'} (key : String) (hmaps : n'.maps = n.maps)
      (hbooks : n'.books = { n.books with tasks := n.tasks ++ [⟨key, none, .starting⟩] })
      (hsusp : Drowsy n n') : Edits cfg n (.accept transport addr) n'
  /-- A task ends without a session. -/
  | failed {e n'} (i : Nat) (t : PeerTask) (h : Harmless cfg n e) (hget : n.tasks[i]? = some t)
      (hphase : t.phase = .starting) (hmaps : n'.maps = n.maps)
      (hbooks : n'.books = { n.books with tasks := finished n.tasks i t }) (hsusp : Drowsy n n') :
      Edits cfg n e n'
  | began {i peerDid name n'} (t : PeerTask) (hget : n.tasks[i]? = some t)
      (hstarts : Starts cfg t peerDid) (hmaps : n'.maps = n.maps)
      (hbooks : n'.books = { n.books with
        tasks := n.tasks.set i { t with phase := .session }
        count := n.peerCount + 1
        registry := n.peers.insert t.registryKey (peerDid, displayName peerDid name) })
      (hsusp : Drowsy n n') : Edits cfg n (.handshake i peerDid name) n'
  /-- A session ends. -/
  | hungUp {i n'} (t : PeerTask) (hget : n.tasks[i]? = some t) (hphase : t.phase = .session)
      (hmaps : n'.maps = n.maps)
      (hbooks : n'.books = { n.books with
        tasks := finished n.tasks i t
        count := n.peerCount - 1
        registry := n.peers.erase t.registryKey })
      (hsusp : Drowsy n n') : Edits cfg n (.sessionEnds i) n'
  /-- An outbound task takes its entry out. -/
  | left {i n'} (t : PeerTask) (hget : n.tasks[i]? = some t) (hphase : t.phase = .ended)
      (hmaps : n'.maps = n.maps)
      (hbooks : n'.books = { n.books with
        tasks := n.tasks.eraseIdx i
        outbound := n.outboundPeers.erase t.registryKey })
      (hsusp : Drowsy n n') : Edits cfg n (.removeSelf i) n'

variable [SocketAddrText] {cfg : LanConfig} {n : LanNode}

theorem edits_onLifecycle (confirmed started : Bool) :
    Edits cfg n (.lifecycle confirmed started) (n.onLifecycle confirmed started) := by
  cases hlife : n.lifecycle with
  | clearingKnown =>
      simp only [onLifecycle, hlife]
      exact .clearedKnown hlife rfl rfl id
  | clearingOutbound =>
      simp only [onLifecycle, hlife]
      exact .clearedOutbound hlife rfl rfl rfl
  | active wait =>
      have hquiet : n.lifecycle ≠ .clearingOutbound := by rw [hlife]; exact nofun
      simp only [onLifecycle, hlife]
      split
      · exact .nothing hquiet rfl rfl id
      · exact .nothing hquiet rfl rfl id
  | inactive wait =>
      have hquiet : n.lifecycle ≠ .clearingOutbound := by rw [hlife]; exact nofun
      simp only [onLifecycle, hlife]
      split
      · exact .nothing hquiet rfl rfl id
      · exact .nothing hquiet rfl rfl id
  | starting =>
      have hquiet : n.lifecycle ≠ .clearingOutbound := by rw [hlife]; exact nofun
      simp only [onLifecycle, hlife]
      split
      · exact .nothing hquiet rfl rfl nofun
      · exact .nothing hquiet rfl rfl id
  | retrying =>
      have hquiet : n.lifecycle ≠ .clearingOutbound := by rw [hlife]; exact nofun
      simp only [onLifecycle, hlife]
      exact .nothing hquiet rfl rfl id

theorem edits_onDiscover (transport : Nat) (networks : List LocalNetwork) :
    Edits cfg n (.discover transport networks) (n.onDiscover cfg transport networks) := by
  unfold onDiscover
  split
  · exact .nothing trivial rfl rfl id
  · rename_i t hget
    split
    · rename_i fullname peer hdiscover
      exact .inserted t fullname peer hget hdiscover rfl rfl id
    · rename_i fullname hdiscover
      exact .removed t fullname hget hdiscover rfl rfl id
    · rename_i hdiscover
      split
      · exact .nothing trivial rfl rfl id
      · rename_i info events hevents
        unfold onResolved
        split
        · exact .nothing trivial rfl rfl id
        · rename_i peer hresolve
          exact .resolved t info events peer hget hdiscover hevents hresolve rfl rfl id
      · exact .nothing trivial rfl rfl id
      · exact .nothing trivial rfl rfl id

theorem edits_onHandshake (i : Nat) (peerDid : DeviceId) (name : String) :
    Edits cfg n (.handshake i peerDid name) (onHandshake cfg n i peerDid name) := by
  cases hget : n.tasks[i]? with
  | none =>
      simp only [onHandshake, hget]
      refine .nothing (fun t ht => ?_) rfl rfl id
      rw [hget] at ht
      cases ht
  | some t =>
      have honly : ¬ Starts cfg t peerDid → Harmless cfg n (.handshake i peerDid name) := by
        intro hno t' ht'
        rw [hget, Option.some.injEq] at ht'
        rwa [← ht']
      simp only [onHandshake, hget]
      split
      · rename_i hphase
        exact .nothing (honly fun h => hphase h.1) rfl rfl id
      · rename_i hphase
        rw [not_not] at hphase
        split
        · rename_i hrefused
          exact .failed i t (honly fun h => h.2 hrefused) hget hphase rfl rfl id
        · rename_i haccepted
          exact .began t hget ⟨hphase, haccepted⟩ rfl rfl id

/-- **Every step is one of these edits.** -/
theorem step_edits (cfg : LanConfig) (n : LanNode) (e : LanEvent) :
    Edits cfg n e (step cfg n e) := by
  cases e with
  | storeActive enabled => exact .nothing trivial rfl rfl id
  | notifyMode =>
      simp only [step, notifyMode]
      split
      · exact .nothing trivial rfl rfl id
      · exact .nothing trivial rfl rfl id
  | lifecycle confirmed started => exact edits_onLifecycle confirmed started
  | mdns transport event => exact .nothing trivial rfl rfl id
  | forwarderEnds transport => exact .nothing trivial rfl rfl id
  | discover transport networks => exact edits_onDiscover transport networks
  | lanPeers peers =>
      simp only [step, onLanPeers]
      split
      · exact .nothing trivial rfl rfl id
      · exact .nothing trivial rfl rfl id
  | ingest networks =>
      simp only [step, onIngest]
      split
      · exact .nothing trivial rfl rfl id
      · rename_i peers hpeers
        exact .ingested peers hpeers rfl rfl id
  | tick =>
      simp only [step, onTick]
      split
      · split
        · exact .nothing trivial rfl rfl id
        · exact .nothing trivial rfl rfl id
      · exact .nothing trivial rfl rfl id
  | snapshot order =>
      simp only [step, onSnapshot]
      split
      · split
        · exact .nothing trivial rfl rfl id
        · exact .nothing trivial rfl rfl id
      · exact .nothing trivial rfl rfl id
  | dial =>
      simp only [step, onDial]
      split
      · exact .nothing trivial rfl rfl id
      · rename_i fullname kp rest hrest
        split
        · exact .nothing trivial rfl rfl id
        · rename_i hnew
          exact .dialed fullname kp rest hrest hnew rfl rfl id
      · exact .nothing trivial rfl rfl id
  | accept transport addr =>
      simp only [step, onAccept]
      split
      · exact .accepted ("inbound:" ++ addr) rfl rfl id
      · exact .nothing trivial rfl rfl id
  | fails i =>
      simp only [step, onFails]
      split
      · rename_i t hget
        split
        · rename_i hphase
          exact .failed i t trivial hget hphase rfl rfl id
        · exact .nothing trivial rfl rfl id
      · exact .nothing trivial rfl rfl id
  | handshake i peerDid name => exact edits_onHandshake i peerDid name
  | sessionEnds i =>
      simp only [step, onSessionEnds]
      split
      · rename_i t hget
        split
        · rename_i hphase
          exact .hungUp t hget hphase rfl rfl id
        · exact .nothing trivial rfl rfl id
      · exact .nothing trivial rfl rfl id
  | removeSelf i =>
      simp only [step, onRemoveSelf]
      split
      · rename_i t hget
        split
        · rename_i hphase
          exact .left t hget hphase rfl rfl id
        · exact .nothing trivial rfl rfl id
      · exact .nothing trivial rfl rfl id

end LanNode

end ClipBridge
