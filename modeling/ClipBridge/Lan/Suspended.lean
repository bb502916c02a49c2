import ClipBridge.Lan.Edits

/-!
# A suspended node

The suspend step clears the three maps of peers, one after the other. Nothing stops the other tasks
from putting entries in afterwards: a discover task drains the events that are still in its
channel, a snapshot waits for a lock, and the reconciler goes on with the loop it is in.

* `HoldsNone` — while the node is suspended, the maps are empty: from the end of the suspend step
  until the lifecycle task has a new transport.
* `PutsIn` — a step puts an entry in one of the maps.
* `Asleep` — no step puts an entry in while the node is suspended, and none has come back by the
  time the suspend step completes.
* `holdsNone_iff` — a suspended node holds no peers, in a whole run, exactly if it is asleep.
-/

namespace ClipBridge

open Relay (SocketAddrText)

namespace LanNode

def HoldsNone (n : LanNode) : Prop :=
  n.suspended → n.knownPeers = ∅ ∧ n.outboundPeers = ∅ ∧ n.peerAddrs = ∅

/-! ## Empty maps -/

theorem insert_ne_empty {β : Type} (m : AList fun _ : String => β) (k : String) (v : β) :
    m.insert k v ≠ ∅ := by
  intro h
  have hk : (m.insert k v).lookup k = some v := AList.lookup_insert m
  rw [h, AList.lookup_empty] at hk
  cases hk

theorem erase_empty {β : Type} (k : String) : (∅ : AList fun _ : String => β).erase k = ∅ :=
  AList.ext rfl

theorem insertAddrs_ne_empty {addrs : PeerAddrs} {desired : List PeerAddrEntry}
    (h : desired ≠ []) : insertAddrs addrs desired ≠ ∅ := by
  rw [← List.dropLast_concat_getLast h, insertAddrs, List.foldl_append]
  exact insert_ne_empty _ _ _

/-! ## The condition -/

section

variable [SocketAddrText]

/-- The step puts an entry in one of the maps: mDNS tells an address of the group, or a peer to
dial; a snapshot has somebody who can be dialled; the reconciler starts a task. -/
def PutsIn (cfg : LanConfig) (n : LanNode) : LanEvent → Prop
  | .discover transport networks => ∃ t, n.transports[transport]? = some t ∧
      ((∃ fullname peer, t.discover = .inserting fullname peer) ∨
        t.discover = .receiving ∧ ∃ info events peer, t.events = .resolved info :: events ∧
          resolve cfg.fingerprint info networks = some peer)
  | .ingest networks => ∃ peers, n.ingesting = some peers ∧
      desiredPeers cfg.selfDeviceId peers networks ≠ []
  | .dial => ∃ fullname kp rest, n.reconciler = .dialing ((fullname, kp) :: rest) ∧
      fullname ∉ n.outboundPeers
  | _ => False

/-- Nothing is put in while the node is suspended, or between the two halves of the suspend
step. -/
structure Asleep (cfg : LanConfig) (n : LanNode) (e : LanEvent) : Prop where
  suspended : n.suspended → ¬ PutsIn cfg n e
  cleared : ∀ confirmed started, e = .lifecycle confirmed started →
    n.lifecycle = .clearingOutbound → n.knownPeers = ∅

variable {cfg : LanConfig} {n : LanNode} {e : LanEvent}

/-- A step that puts an entry in leaves a map that is not empty. -/
theorem putsIn_not_empty (h : PutsIn cfg n e) :
    (step cfg n e).suspended = n.suspended ∧
      ¬ ((step cfg n e).knownPeers = ∅ ∧ (step cfg n e).outboundPeers = ∅ ∧
        (step cfg n e).peerAddrs = ∅) := by
  cases e with
  | discover transport networks =>
      obtain ⟨t, hget, ⟨fullname, peer, hdiscover⟩ | ⟨hdiscover, info, events, peer, hevents,
        hresolve⟩⟩ := h
      · simp only [step, onDiscover, hget, hdiscover]
        exact ⟨trivial, fun hempty => insert_ne_empty _ _ _ hempty.1⟩
      · simp only [step, onDiscover, hget, hdiscover, hevents, onResolved, hresolve]
        exact ⟨trivial, fun hempty => insert_ne_empty _ _ _ hempty.2.2⟩
  | ingest networks =>
      obtain ⟨peers, hpeers, hdesired⟩ := h
      simp only [step, onIngest, hpeers]
      exact ⟨trivial, fun hempty => insertAddrs_ne_empty hdesired hempty.2.2⟩
  | dial =>
      obtain ⟨fullname, kp, rest, hrest, hnew⟩ := h
      simp only [step, onDial, hrest, if_neg hnew]
      exact ⟨trivial, fun hempty => Finset.insert_ne_empty _ _ hempty.2.1⟩
  | _ => exact absurd h id

theorem holdsNone_of_asleep (h : HoldsNone n) (hasleep : Asleep cfg n e) :
    HoldsNone (step cfg n e) := by
  intro hsusp
  show (step cfg n e).maps.known = ∅ ∧ (step cfg n e).books.outbound = ∅ ∧
    (step cfg n e).maps.addrs = ∅
  cases step_edits cfg n e with
  | resolved t info events peer hget hdiscover hevents hresolve _ _ hd =>
      exact absurd ⟨t, hget, Or.inr ⟨hdiscover, info, events, peer, hevents, hresolve⟩⟩
        (hasleep.suspended (hd hsusp))
  | inserted t fullname peer hget hdiscover _ _ hd =>
      exact absurd ⟨t, hget, Or.inl ⟨fullname, peer, hdiscover⟩⟩ (hasleep.suspended (hd hsusp))
  | dialed fullname kp rest hrest hnew _ _ hd =>
      exact absurd ⟨fullname, kp, rest, hrest, hnew⟩ (hasleep.suspended (hd hsusp))
  | removed t fullname _ _ hm hb hd =>
      obtain ⟨hknown, hout, haddrs⟩ := h (hd hsusp)
      rw [hm, hb, hknown, haddrs]
      exact ⟨erase_empty fullname, hout, erase_empty fullname⟩
  | @ingested networks _ peers hpeers hm hb hd =>
      obtain ⟨hknown, hout, haddrs⟩ := h (hd hsusp)
      have hnone : desiredPeers cfg.selfDeviceId peers networks = [] := by
        by_contra hsome
        exact hasleep.suspended (hd hsusp) ⟨peers, hpeers, hsome⟩
      rw [hm, hb]
      refine ⟨?_, hout, ?_⟩
      · simp only [applyRelaySnapshotWithLocalNetworks, hnone, hknown, insertRelayPeers]
        exact AList.ext rfl
      · simp only [applyRelaySnapshotWithLocalNetworks, hnone, haddrs, insertAddrs]
        exact AList.ext rfl
  | clearedKnown _ hm hb hd =>
      obtain ⟨-, hout, haddrs⟩ := h (hd hsusp)
      rw [hm, hb]
      exact ⟨rfl, hout, haddrs⟩
  | clearedOutbound hlife hm hb =>
      rw [hm, hb]
      exact ⟨hasleep.cleared _ _ rfl hlife, rfl, rfl⟩
  | left t _ _ hm hb hd =>
      obtain ⟨hknown, hout, haddrs⟩ := h (hd hsusp)
      rw [hm, hb, hout]
      exact ⟨hknown, Finset.erase_empty t.registryKey, haddrs⟩
  | nothing _ hm hb hd => rw [hm, hb]; exact h (hd hsusp)
  | accepted _ hm hb hd => rw [hm, hb]; exact h (hd hsusp)
  | failed _ _ _ _ _ hm hb hd => rw [hm, hb]; exact h (hd hsusp)
  | began _ _ _ hm hb hd => rw [hm, hb]; exact h (hd hsusp)
  | hungUp _ _ _ hm hb hd => rw [hm, hb]; exact h (hd hsusp)

theorem holdsNone_step (cfg : LanConfig) (n : LanNode) (e : LanEvent) (h : HoldsNone n) :
    HoldsNone (step cfg n e) ↔ Asleep cfg n e := by
  refine ⟨fun hnext => ⟨fun hsusp hputs => ?_, ?_⟩, holdsNone_of_asleep h⟩
  · obtain ⟨hsame, hfull⟩ := putsIn_not_empty hputs
    exact hfull (hnext (by rw [hsame]; exact hsusp))
  · rintro confirmed started rfl hlife
    have hstep : step cfg n (.lifecycle confirmed started) = n.clearOutbound := by
      simp only [step, onLifecycle, hlife]
    rw [hstep] at hnext
    exact (hnext rfl).1

/-- **A suspended node holds no peers in any state of a run exactly if it is asleep.** -/
theorem holdsNone_iff (cfg : LanConfig) (active : Bool) (es : List LanEvent) :
    (∀ pre, pre <+: es → HoldsNone (run cfg active pre)) ↔
      Machine.Along (step cfg) (Asleep cfg) (init active) es := by
  refine Machine.always_iff (I := HoldsNone) (J := fun _ => True) (fun _ _ _ => trivial)
    (fun n e _ h => holdsNone_step cfg n e h) trivial ?_ es
  intro hsusp
  cases hsusp

end

/-- An event is in the channel when the node is suspended. -/
def queuedEvent : List LanEvent :=
  [.mdns 0 (.resolved ⟨some "gid", some "a", [.v4 0xc0a80102], 5000, "a-1._clipbridge"⟩),
    .storeActive false, .notifyMode, .lifecycle true true, .lifecycle true true,
    .lifecycle true true, .discover 0 []]

theorem queuedEvent_not_holdsNone :
    ¬ ∀ pre, pre <+: queuedEvent →
      HoldsNone (@run sampleAddrText sampleLanConfig true pre) := by
  intro h
  have hempty := (h queuedEvent List.prefix_rfl (by decide +kernel)).2.2
  have hentry : (@run sampleAddrText sampleLanConfig true queuedEvent).peerAddrs.lookup
      "a-1._clipbridge" = some ⟨"a", none, [⟨.v4 0xc0a80102, 5000, 0⟩]⟩ := by
    decide +kernel
  rw [hempty, AList.lookup_empty] at hentry
  cases hentry

end LanNode

end ClipBridge
