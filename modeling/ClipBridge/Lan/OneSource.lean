import ClipBridge.Lan.Edits
import ClipBridge.Lan.Snapshot

/-!
# One source for each device

A device may be found by mDNS and told by the relay. The snapshot of the relay leaves out whom
mDNS covers, but a service that is resolved later is put beside the entry that is there.

* `OneSource` — no device has both kinds of entry in `known_peers`.
* `oneSource_snapshot` — a snapshot always restores it.
* `Uncovered` — mDNS does not put in a device that the relay's entries cover.
* `oneSource_iff` — a run keeps one source for each device exactly if mDNS only puts in devices
  that are not covered.
-/

namespace ClipBridge

open Relay (SocketAddrText)

/-- No device id has both an mDNS entry and an entry under a `relay:` key. -/
def OneSource (known : KnownPeers) : Prop :=
  ∀ k kp k' kp', known.lookup k = some kp → known.lookup k' = some kp' →
    isRelayKey k = true → isRelayKey k' = false → kp.peerDid ≠ kp'.peerDid

/-! ## A snapshot -/

/-- **After a snapshot, every device has one source.** -/
theorem oneSource_snapshot [SocketAddrText] (selfDeviceId : DeviceId) (peers : List LanPeer)
    (addrs : PeerAddrs) (known : KnownPeers) (networks : List LocalNetwork) :
    OneSource (applyRelaySnapshotWithLocalNetworks selfDeviceId peers addrs known networks).2 := by
  intro k kp k' kp' hk hk' hrelay hmdns hsame
  rw [lookup_known_snapshot, hrelay, if_pos rfl, Option.map_eq_some_iff] at hk
  obtain ⟨entry, hentry, rfl⟩ := hk
  have hfree : entry.deviceId ∉ mdnsDids known := by
    have hdial := (Option.filter_eq_some_iff.1 hentry).2
    rw [toDial, Bool.and_eq_true, List.contains_eq_mem] at hdial
    simpa using hdial.2
  rw [lookup_known_snapshot, hmdns, if_neg Bool.false_ne_true] at hk'
  exact hfree (mem_mdnsDids.2 ⟨k', kp', hmdns, hk', hsame.symm⟩)

namespace LanNode

/-- A discover task does not put in a peer whose device has an entry of the other kind. -/
def Uncovered (n : LanNode) : LanEvent → Prop
  | .discover transport _ => ∀ t fullname peer, n.transports[transport]? = some t →
      t.discover = .inserting fullname peer → ∀ k kp, n.knownPeers.lookup k = some kp →
      isRelayKey k ≠ isRelayKey fullname → kp.peerDid ≠ peer.peerDid
  | _ => True

theorem oneSource_insert {known : KnownPeers} (h : OneSource known) (fullname : String)
    (peer : KnownPeer) :
    OneSource (known.insert fullname peer) ↔ ∀ k kp, known.lookup k = some kp →
      isRelayKey k ≠ isRelayKey fullname → kp.peerDid ≠ peer.peerDid := by
  constructor
  · intro hnew k kp hk hkind hsame
    have hne : k ≠ fullname := fun heq => hkind (by rw [heq])
    have hk' : (known.insert fullname peer).lookup k = some kp := by
      rw [AList.lookup_insert_ne hne]
      exact hk
    have hself : (known.insert fullname peer).lookup fullname = some peer := AList.lookup_insert _
    cases hrelay : isRelayKey k with
    | true =>
        have hmdns : isRelayKey fullname = false := by
          cases hf : isRelayKey fullname with
          | true => exact absurd (hrelay.trans hf.symm) hkind
          | false => rfl
        exact hnew k kp fullname peer hk' hself hrelay hmdns hsame
    | false =>
        have hrel : isRelayKey fullname = true := by
          cases hf : isRelayKey fullname with
          | true => rfl
          | false => exact absurd (hrelay.trans hf.symm) hkind
        exact hnew fullname peer k kp hself hk' hrel hrelay hsame.symm
  · intro hfree k kp k' kp' hk hk' hrelay hmdns
    by_cases hkf : k = fullname
    · subst hkf
      have hne : k' ≠ k := fun heq => by rw [heq, hrelay] at hmdns; cases hmdns
      rw [AList.lookup_insert, Option.some.injEq] at hk
      rw [AList.lookup_insert_ne hne] at hk'
      subst hk
      exact (hfree k' kp' hk' (by rw [hmdns, hrelay]; exact Bool.false_ne_true)).symm
    · rw [AList.lookup_insert_ne hkf] at hk
      by_cases hkf' : k' = fullname
      · subst hkf'
        rw [AList.lookup_insert, Option.some.injEq] at hk'
        subst hk'
        exact hfree k kp hk (by rw [hmdns, hrelay]; exact Bool.false_ne_true.symm)
      · rw [AList.lookup_insert_ne hkf'] at hk'
        exact h k kp k' kp' hk hk' hrelay hmdns

theorem oneSource_erase {known : KnownPeers} (h : OneSource known) (fullname : String) :
    OneSource (known.erase fullname) := by
  have hold : ∀ k kp, (known.erase fullname).lookup k = some kp → known.lookup k = some kp := by
    intro k kp hk
    by_cases hkf : k = fullname
    · rw [hkf, AList.lookup_erase] at hk
      cases hk
    · rwa [AList.lookup_erase_ne hkf] at hk
  exact fun k kp k' kp' hk hk' => h k kp k' kp' (hold k kp hk) (hold k' kp' hk')

theorem oneSource_empty : OneSource ∅ := by
  intro k kp k' kp' hk
  cases hk

section

variable [SocketAddrText]

/-- Only a discover task that puts a peer in can break it. -/
theorem oneSource_step (cfg : LanConfig) (n : LanNode) (e : LanEvent)
    (h : OneSource n.knownPeers) : OneSource (step cfg n e).knownPeers ↔ Uncovered n e := by
  by_cases hins : ∃ transport networks t fullname peer, e = .discover transport networks ∧
      n.transports[transport]? = some t ∧ t.discover = .inserting fullname peer
  · obtain ⟨transport, networks, t, fullname, peer, rfl, hget, hdiscover⟩ := hins
    have hknown : (step cfg n (.discover transport networks)).knownPeers =
        n.knownPeers.insert fullname peer := by
      simp only [step, onDiscover, hget, hdiscover]
    rw [hknown, oneSource_insert h]
    constructor
    · intro hfree t' fullname' peer' hget' hdiscover'
      rw [hget, Option.some.injEq] at hget'
      rw [← hget', hdiscover] at hdiscover'
      cases hdiscover'
      exact hfree
    · exact fun hfree => hfree t fullname peer hget hdiscover
  · -- The step puts no peer in that mDNS has found.
    have hother : Uncovered n e := by
      cases e with
      | discover transport networks =>
          intro t fullname peer hget hdiscover
          exact absurd ⟨transport, networks, t, fullname, peer, rfl, hget, hdiscover⟩ hins
      | _ => trivial
    refine ⟨fun _ => hother, fun _ => ?_⟩
    have hmaps : (step cfg n e).knownPeers = (step cfg n e).maps.known := rfl
    rw [hmaps]
    cases step_edits cfg n e with
    | inserted t fullname peer hget hdiscover =>
        exact absurd ⟨_, _, t, fullname, peer, rfl, hget, hdiscover⟩ hins
    | removed t fullname _ _ hm => rw [hm]; exact oneSource_erase h fullname
    | ingested peers _ hm =>
        rw [hm]
        exact oneSource_snapshot cfg.selfDeviceId peers n.peerAddrs n.knownPeers _
    | clearedKnown _ hm => rw [hm]; exact oneSource_empty
    | resolved _ _ _ _ _ _ _ _ hm => rw [hm]; exact h
    | clearedOutbound _ hm => rw [hm]; exact h
    | nothing _ hm => rw [hm]; exact h
    | dialed _ _ _ _ _ hm => rw [hm]; exact h
    | accepted _ hm => rw [hm]; exact h
    | failed _ _ _ _ _ hm => rw [hm]; exact h
    | began _ _ _ hm => rw [hm]; exact h
    | hungUp _ _ _ hm => rw [hm]; exact h
    | left _ _ _ hm => rw [hm]; exact h

/-- **A run keeps one source for each device exactly if mDNS never puts in a device that the
relay's entries cover.** -/
theorem oneSource_iff (cfg : LanConfig) (active : Bool) (es : List LanEvent) :
    (∀ pre, pre <+: es → OneSource (run cfg active pre).knownPeers) ↔
      Machine.Along (step cfg) Uncovered (init active) es :=
  Machine.always_iff (I := fun n : LanNode => OneSource n.knownPeers) (J := fun _ => True)
    (fun _ _ _ => trivial) (fun n e _ h => oneSource_step cfg n e h) trivial oneSource_empty es

end

/-- The relay tells of device `"a"`; then mDNS finds it. -/
def relayThenMdns : List LanEvent :=
  [.lanPeers [⟨"a", "A", ["192.168.1.2:5000"]⟩], .ingest [],
    .mdns 0 (.resolved ⟨some "gid", some "a", [.v4 0xc0a80102], 5000, "a-1._clipbridge"⟩),
    .discover 0 [], .discover 0 []]

theorem relayThenMdns_not_oneSource :
    ¬ ∀ pre, pre <+: relayThenMdns →
      OneSource (@run sampleAddrText sampleLanConfig true pre).knownPeers := by
  intro h
  exact h relayThenMdns List.prefix_rfl "relay:a" ⟨"a", [⟨.v4 0xc0a80102, 5000, 0⟩]⟩
    "a-1._clipbridge" ⟨"a", [⟨.v4 0xc0a80102, 5000, 0⟩]⟩ (by decide +kernel)
    (by decide +kernel) (by decide +kernel) (by decide +kernel) rfl

end LanNode

end ClipBridge
