import ClipBridge.Lan.Edits
import ClipBridge.Lan.Snapshot
import ClipBridge.Lib.Weight

/-!
# Who dials whom

Of two devices, the one with the larger id dials the other. Both the discover task and
`apply_relay_snapshot` of `core/src/lan.rs` see to it before they put a peer in `known_peers`,
and what is dialled later comes from there.

* `Told` — mDNS or the relay has mentioned a device id.
* `Dialable` — a peer with a smaller id, with addresses that can be dialled.
* `Tiebreak`, `tiebreak_step` — only such peers are known, dialled, or about to be.
* `SmallerDialed`, `smallerDialed_along` — the sessions that start.
* `one_dials` — no two nodes have a session that each of them has dialled.
-/

namespace ClipBridge

open Relay (SocketAddrText)

namespace LanNode

/-! ## Peers to dial -/

/-- mDNS or the relay has mentioned the device id in the events. -/
def Told (es : List LanEvent) (did : DeviceId) : Prop :=
  (∃ i info, .mdns i (.resolved info) ∈ es ∧ info.did = some did) ∨
    ∃ peers, .lanPeers peers ∈ es ∧ ∃ p ∈ peers, p.deviceId = did

structure Dialable (cfg : LanConfig) (es : List LanEvent) (kp : KnownPeer) : Prop where
  smaller : kp.peerDid < cfg.selfDeviceId
  told : Told es kp.peerDid
  candidates : kp.candidates ≠ []
  routable : ∀ sa ∈ kp.candidates, isUnroutable sa.ip = false

variable {cfg : LanConfig} {es : List LanEvent} {n : LanNode}

theorem routable_mdnsCandidates (info : ServiceInfo) (networks : List LocalNetwork) :
    ∀ sa ∈ mdnsCandidates info networks, isUnroutable sa.ip = false := by
  intro sa hsa
  have hmem := (List.perm_insertionSort _ _).mem_iff.1 hsa
  obtain ⟨ip, hip, rfl⟩ := List.mem_map.1 (List.mem_filter.1 hmem).1
  simpa using (List.mem_filter.1 hip).2

/-- A service that is resolved to a smaller id gives a peer to dial. -/
theorem dialable_of_resolve {info : ServiceInfo} {networks : List LocalNetwork}
    {peer : KnownPeer} (h : resolve cfg.fingerprint info networks = some peer)
    (htold : ∃ i, .mdns i (.resolved info) ∈ es) (hless : ¬ cfg.selfDeviceId ≤ peer.peerDid) :
    Dialable cfg es peer := by
  unfold resolve at h
  dsimp only at h
  split at h
  · cases h
  · split at h
    · cases h
    · next hdid =>
        split at h
        · cases h
        · next hcands =>
            cases h
            obtain ⟨i, hi⟩ := htold
            have hsome : info.did = some (info.did.getD "") := by
              cases hinfo : info.did with
              | none => simp [hinfo] at hdid
              | some did => rfl
            exact ⟨String.not_le.1 hless, Or.inl ⟨i, info, hi, hsome⟩,
              fun hnil => hcands (List.isEmpty_iff.2 hnil), routable_mdnsCandidates info networks⟩

theorem told_desiredPeers {selfDeviceId : DeviceId} {peers : List LanPeer}
    [SocketAddrText] {networks : List LocalNetwork} {entry : PeerAddrEntry}
    (h : entry ∈ desiredPeers selfDeviceId peers networks) :
    ∃ p ∈ peers, p.deviceId = entry.deviceId := by
  obtain ⟨p, hp, hentry⟩ := List.mem_filterMap.1 h
  dsimp only at hentry
  split at hentry
  · cases hentry
  · split at hentry
    · cases hentry
    · cases hentry
      exact ⟨p, hp, rfl⟩

/-- What a snapshot makes of known peers that can be dialled. -/
theorem dialable_of_snapshot [SocketAddrText] {peers : List LanPeer} {addrs : PeerAddrs}
    {known : KnownPeers} {networks : List LocalNetwork} (hpeers : .lanPeers peers ∈ es)
    (hknown : ∀ k kp, known.lookup k = some kp → Dialable cfg es kp) {k : String}
    {kp : KnownPeer}
    (h : (applyRelaySnapshotWithLocalNetworks cfg.selfDeviceId peers addrs known
      networks).2.lookup k = some kp) : Dialable cfg es kp := by
  rw [lookup_known_snapshot] at h
  split at h
  · obtain ⟨entry, hentry, rfl⟩ := Option.map_eq_some_iff.1 h
    obtain ⟨haddr, hdial⟩ := Option.filter_eq_some_iff.1 hentry
    have hmem := List.mem_reverse.1 (List.mem_of_find?_eq_some haddr)
    obtain ⟨-, hcands, hgood⟩ := snapshotAddrs_good haddr
    rw [toDial, Bool.and_eq_true, Bool.not_eq_true', decide_eq_false_iff_not] at hdial
    exact ⟨String.not_le.1 hdial.1, Or.inr ⟨peers, hpeers, told_desiredPeers hmem⟩, hcands,
      hgood.routable⟩
  · exact hknown k kp h

/-! ## Every run -/

/-- What a transport has still to tell comes from mDNS, and what it is about to put in can be
dialled. -/
structure Tells (cfg : LanConfig) (es : List LanEvent) (t : Transport) : Prop where
  queued : ∀ event ∈ t.events, ∃ i, .mdns i event ∈ es
  inserting : ∀ fullname peer, t.discover = .inserting fullname peer → Dialable cfg es peer

/-- The peers that are known, or dialled, or about to be, after some of the events `es`. -/
structure Tiebreak (cfg : LanConfig) (es : List LanEvent) (n : LanNode) : Prop where
  transports : ∀ t ∈ n.transports, Tells cfg es t
  ingesting : ∀ peers, n.ingesting = some peers → .lanPeers peers ∈ es
  known : ∀ k kp, n.knownPeers.lookup k = some kp → Dialable cfg es kp
  dialing : ∀ rest, n.reconciler = .dialing rest → ∀ e ∈ rest, Dialable cfg es e.2
  tasks : ∀ t ∈ n.tasks, ∀ did, t.expectedPeer = some did →
    did < cfg.selfDeviceId ∧ Told es did
  registered : ∀ key peer, n.peers.lookup key = some peer → peer.1 ≠ cfg.selfDeviceId

theorem tells_start : Tells cfg es startTransport where
  queued event hevent := by cases hevent
  inserting fullname peer h := by cases h

theorem tiebreak_init (cfg : LanConfig) (active : Bool) (es : List LanEvent) :
    Tiebreak cfg es (init active) where
  transports t ht := by
    cases active with
    | true =>
        rw [List.mem_singleton.1 ht]
        exact tells_start
    | false => cases ht
  ingesting := by simp [init]
  known k kp h := by cases h
  dialing := by simp [init]
  tasks := by simp [init]
  registered key peer h := by cases h

theorem forall_mem_modify {α : Type} {P : α → Prop} {f : α → α} (hf : ∀ a, P a → P (f a))
    {l : List α} (h : ∀ a ∈ l, P a) (i : Nat) : ∀ a ∈ l.modify i f, P a := by
  intro a ha
  obtain ⟨j, hj, rfl⟩ := List.mem_iff_getElem.1 ha
  rw [List.getElem_modify]
  split
  · exact hf _ (h _ (List.getElem_mem _))
  · exact h _ (List.getElem_mem _)

theorem forall_mem_set {α : Type} {P : α → Prop} {l : List α} (h : ∀ a ∈ l, P a) (i : Nat)
    {b : α} (hb : P b) : ∀ a ∈ l.set i b, P a := by
  intro a ha
  rcases List.mem_or_eq_of_mem_set ha with ha | rfl
  · exact h a ha
  · exact hb

namespace Tiebreak

theorem finishTask (h : Tiebreak cfg es n) {i : Nat} {t : PeerTask}
    (hget : n.tasks[i]? = some t) : Tiebreak cfg es (n.finishTask i t) := by
  refine { h with tasks := ?_ }
  intro t' ht'
  unfold LanNode.finishTask at ht'
  dsimp only at ht'
  split at ht'
  · rcases List.mem_or_eq_of_mem_set ht' with ht' | rfl
    · exact h.tasks t' ht'
    · exact h.tasks t (List.mem_of_getElem? hget)
  · exact h.tasks t' (List.mem_of_mem_eraseIdx ht')

theorem onLifecycle (h : Tiebreak cfg es n) (confirmed started : Bool) :
    Tiebreak cfg es (n.onLifecycle confirmed started) := by
  unfold LanNode.onLifecycle
  split
  · split
    · exact { h with }
    · refine { h with transports := forall_mem_modify (fun t ht => ?_) h.transports _ }
      exact ⟨ht.queued, ht.inserting⟩
  · exact { h with known := fun k kp hk => by cases hk }
  · exact { h with }
  · split
    · exact { h with }
    · exact { h with }
  · split
    · refine { h with transports := fun t ht => ?_ }
      rcases List.mem_append.1 ht with ht | ht
      · exact h.transports t ht
      · rw [List.mem_singleton.1 ht]
        exact tells_start
    · exact { h with }
  · exact { h with }

theorem onDiscover (h : Tiebreak cfg es n) (transport : Nat) (networks : List LocalNetwork) :
    Tiebreak cfg es (n.onDiscover cfg transport networks) := by
  unfold LanNode.onDiscover
  split
  · exact h
  · next t hget =>
      have ht := h.transports t (List.mem_of_getElem? hget)
      split
      · next fullname peer hins =>
          refine { h with transports := ?_, known := ?_ }
          · exact forall_mem_set h.transports _ ⟨ht.queued, fun _ _ hnext => by cases hnext⟩
          · intro k kp hk
            by_cases hname : k = fullname
            · rw [hname, AList.lookup_insert, Option.some.injEq] at hk
              exact hk ▸ ht.inserting fullname peer hins
            · rw [AList.lookup_insert_ne hname] at hk
              exact h.known k kp hk
      · refine { h with
          transports := ?_
          known := fun k kp hk => h.known k kp (AList.lookup_of_lookup_erase hk) }
        exact forall_mem_set h.transports _ ⟨ht.queued, fun _ _ hnext => by cases hnext⟩
      · next hreceiving =>
          have hidle : ∀ fullname peer, t.discover ≠ .inserting fullname peer := by
            rw [hreceiving]
            exact fun _ _ => nofun
          split
          · exact h
          · next info events hevents =>
              have hlater : ∀ event ∈ events, ∃ i, .mdns i event ∈ es :=
                fun event hevent => ht.queued event (hevents ▸ List.mem_cons_of_mem _ hevent)
              unfold onResolved
              split
              · refine { h with transports := forall_mem_set h.transports _ ⟨hlater, ?_⟩ }
                exact fun fullname peer hins => absurd hins (hidle fullname peer)
              · next peer hresolve =>
                  refine { h with transports := forall_mem_set h.transports _ ?_ }
                  split
                  · exact ⟨hlater, fun fullname p hins => absurd hins (hidle fullname p)⟩
                  · next hless =>
                      refine ⟨hlater, fun fullname p hins => ?_⟩
                      cases hins
                      exact dialable_of_resolve hresolve
                        (ht.queued _ (hevents ▸ List.mem_cons_self)) hless
          · next fullname events hevents =>
              refine { h with transports := forall_mem_set h.transports _ ⟨?_, ?_⟩ }
              · exact fun event hevent =>
                  ht.queued event (hevents ▸ List.mem_cons_of_mem _ hevent)
              · exact fun _ _ hins => by cases hins
          · next events hevents =>
              refine { h with transports := forall_mem_set h.transports _ ⟨?_, ?_⟩ }
              · exact fun event hevent =>
                  ht.queued event (hevents ▸ List.mem_cons_of_mem _ hevent)
              · exact fun fullname peer hins => absurd hins (hidle fullname peer)

theorem onDial (h : Tiebreak cfg es n) : Tiebreak cfg es n.onDial := by
  unfold LanNode.onDial
  split
  · exact { h with dialing := fun rest hrest => by cases hrest }
  · next fullname kp rest hdialing =>
      have hdial := h.dialing _ hdialing
      have hrest : ∀ rest', Reconciler.dialing rest = .dialing rest' →
          ∀ e ∈ rest', Dialable cfg es e.2 := by
        rintro rest' ⟨⟩ e he
        exact hdial e (List.mem_cons_of_mem _ he)
      split
      · exact { h with dialing := hrest }
      · refine { h with dialing := hrest, tasks := ?_ }
        intro t ht did hdid
        rcases List.mem_append.1 ht with ht | ht
        · exact h.tasks t ht did hdid
        · rw [List.mem_singleton.1 ht] at hdid
          cases hdid
          have hkp := hdial _ List.mem_cons_self
          exact ⟨hkp.smaller, hkp.told⟩
  · exact h

theorem onSnapshot (h : Tiebreak cfg es n) (order : List (String × KnownPeer)) :
    Tiebreak cfg es (n.onSnapshot order) := by
  unfold LanNode.onSnapshot
  split
  · split
    · next hperm =>
        refine { h with dialing := ?_ }
        rintro rest ⟨⟩ e he
        obtain ⟨entry, hentry, rfl⟩ := List.mem_map.1 (hperm.mem_iff.1 he)
        exact h.known entry.1 entry.2 (AList.mem_lookup_iff.2 hentry)
    · exact h
  · exact h

theorem onHandshake (h : Tiebreak cfg es n) (i : Nat) (peerDid : DeviceId) (peerName : String) :
    Tiebreak cfg es (n.onHandshake cfg i peerDid peerName) := by
  unfold LanNode.onHandshake
  split
  · exact h
  · next t hget =>
      split
      · exact h
      · split
        · exact h.finishTask hget
        · next hpeer =>
            refine { h with tasks := ?_, registered := ?_ }
            · exact forall_mem_set h.tasks _ (h.tasks t (List.mem_of_getElem? hget))
            · intro key peer hkey
              dsimp only [guardNew] at hkey
              by_cases hk : key = t.registryKey
              · rw [hk, AList.lookup_insert, Option.some.injEq] at hkey
                subst hkey
                simp only [Bool.or_eq_true, beq_iff_eq, not_or] at hpeer
                exact hpeer.2
              · rw [AList.lookup_insert_ne hk] at hkey
                exact h.registered key peer hkey

end Tiebreak

/-! ## The sessions that start -/

/-- The handshake of an outbound task leads to a session with the peer of this device id. -/
def DialedSession (cfg : LanConfig) (n : LanNode) (i : Nat) (peerDid expected : DeviceId) : Prop :=
  ∃ t, n.tasks[i]? = some t ∧ t.expectedPeer = some expected ∧ Starts cfg t peerDid

/-- Only peers that can be dialled are known, and a session that starts is with another device;
if it was dialled, with one that shows the short id of a device with a smaller id. -/
def SmallerDialed (cfg : LanConfig) (es : List LanEvent) (n : LanNode) (e : LanEvent) : Prop :=
  (∀ k kp, n.knownPeers.lookup k = some kp → Dialable cfg es kp) ∧
    match e with
    | .handshake i peerDid _ =>
        (∀ t, n.tasks[i]? = some t → Starts cfg t peerDid → peerDid ≠ cfg.selfDeviceId) ∧
          ∀ expected, DialedSession cfg n i peerDid expected →
            expected < cfg.selfDeviceId ∧ Told es expected ∧ shortId peerDid = shortId expected
    | _ => True

theorem Starts.ne_self {t : PeerTask} {peerDid : DeviceId} (h : Starts cfg t peerDid) :
    peerDid ≠ cfg.selfDeviceId := by
  have hboth := h.2
  simp only [Bool.or_eq_true, beq_iff_eq, not_or] at hboth
  exact hboth.2

theorem Starts.shortId_eq {t : PeerTask} {peerDid expected : DeviceId}
    (h : Starts cfg t peerDid) (hexpected : t.expectedPeer = some expected) :
    shortId peerDid = shortId expected := by
  have hboth := h.2
  simp only [hexpected, Option.any_some, Bool.or_eq_true, not_or, decide_eq_true_eq,
    not_not] at hboth
  exact hboth.1

theorem smallerDialed_of_tiebreak (h : Tiebreak cfg es n) (e : LanEvent) :
    SmallerDialed cfg es n e := by
  refine ⟨h.known, ?_⟩
  cases e with
  | handshake i peerDid name =>
      refine ⟨fun t _ hstarts => hstarts.ne_self, ?_⟩
      rintro expected ⟨t, hget, hexpected, hstarts⟩
      obtain ⟨hless, htold⟩ := h.tasks t (List.mem_of_getElem? hget) expected hexpected
      exact ⟨hless, htold, hstarts.shortId_eq hexpected⟩
  | _ => trivial

section

variable [SocketAddrText]

theorem tiebreak_step (cfg : LanConfig) (es : List LanEvent) (n : LanNode) (e : LanEvent)
    (he : e ∈ es) (h : Tiebreak cfg es n) : Tiebreak cfg es (step cfg n e) := by
  cases e with
  | storeActive enabled => exact { h with }
  | notifyMode =>
      simp only [step, LanNode.notifyMode]
      split
      · exact h
      · exact { h with }
  | lifecycle confirmed started => exact h.onLifecycle confirmed started
  | mdns transport event =>
      refine { h with transports := forall_mem_modify (fun t ht => ?_) h.transports _ }
      split
      · refine ⟨fun event' hevent => ?_, ht.inserting⟩
        rcases List.mem_append.1 hevent with hevent | hevent
        · exact ht.queued event' hevent
        · exact ⟨transport, List.mem_singleton.1 hevent ▸ he⟩
      · exact ht
  | forwarderEnds transport =>
      refine { h with transports := forall_mem_modify (fun t ht => ?_) h.transports _ }
      exact ⟨ht.queued, ht.inserting⟩
  | discover transport networks => exact h.onDiscover transport networks
  | lanPeers peers =>
      simp only [step, LanNode.onLanPeers]
      split
      · refine { h with ingesting := ?_ }
        rintro peers' ⟨⟩
        exact he
      · exact h
  | ingest networks =>
      simp only [step, LanNode.onIngest]
      split
      · exact h
      · next peers hpeers =>
          refine { h with
            ingesting := fun peers' hnone => by cases hnone
            known := fun k kp hk => ?_ }
          exact @dialable_of_snapshot _ _ _ _ n.peerAddrs _ _ (h.ingesting peers hpeers) h.known
            _ _ hk
  | tick =>
      simp only [step, LanNode.onTick]
      split
      · split
        · exact { h with dialing := fun rest hrest => by cases hrest }
        · exact h
      · exact h
  | snapshot order => exact h.onSnapshot order
  | dial => exact h.onDial
  | accept transport addr =>
      simp only [step, LanNode.onAccept]
      split
      · refine { h with tasks := fun t ht did hdid => ?_ }
        rcases List.mem_append.1 ht with ht | ht
        · exact h.tasks t ht did hdid
        · rw [List.mem_singleton.1 ht] at hdid
          cases hdid
      · exact h
  | fails i =>
      simp only [step, LanNode.onFails]
      split
      · next t hget =>
          split
          · exact h.finishTask hget
          · exact h
      · exact h
  | handshake i peerDid peerName => exact h.onHandshake i peerDid peerName
  | sessionEnds i =>
      simp only [step, LanNode.onSessionEnds]
      split
      · next t hget =>
          split
          · have hdrop : Tiebreak cfg es (n.guardDrop t.registryKey) :=
              { h with registered := fun key peer hkey =>
                  h.registered key peer (AList.lookup_of_lookup_erase hkey) }
            exact hdrop.finishTask hget
          · exact h
      · exact h
  | removeSelf i =>
      simp only [step, LanNode.onRemoveSelf]
      split
      · split
        · exact { h with tasks := fun t ht => h.tasks t (List.mem_of_mem_eraseIdx ht) }
        · exact h
      · exact h

theorem tiebreak_run (cfg : LanConfig) (active : Bool) (es pre : List LanEvent)
    (hpre : ∀ e ∈ pre, e ∈ es) : Tiebreak cfg es (run cfg active pre) :=
  Machine.invariant_along (tiebreak_step cfg es) (tiebreak_init cfg active es)
    (Machine.along_iff_forall_mem.2 hpre)

/-- **The device with the larger id dials**: in every run, only peers with a smaller id and
addresses that can be dialled are known, and a session that starts is never with ourselves, and if
we dialled it, with a device that shows the short id of a smaller one. -/
theorem smallerDialed_along (cfg : LanConfig) (active : Bool) (es : List LanEvent) :
    Machine.Along (step cfg) (SmallerDialed cfg es) (init active) es := by
  rw [Machine.along_iff]
  rintro pre e post rfl
  refine smallerDialed_of_tiebreak (tiebreak_run cfg active _ pre fun e he => ?_) e
  exact List.mem_append_left _ he

/-! ## Two nodes -/

/-- In the run, the node has dialled a session with the device. -/
def HasDialed (cfg : LanConfig) (active : Bool) (es : List LanEvent) (did : DeviceId) : Prop :=
  ∃ pre i name post expected, es = pre ++ .handshake i did name :: post ∧
    DialedSession cfg (run cfg active pre) i did expected

/-- The device ids that the node is told are told apart from `did` by their short ids. -/
def ToldApart (es : List LanEvent) (did : DeviceId) : Prop :=
  ∀ did', Told es did' → shortId did' = shortId did → did' = did

theorem lt_of_hasDialed {active : Bool} {did : DeviceId} (h : HasDialed cfg active es did)
    (happart : ToldApart es did) : did < cfg.selfDeviceId := by
  obtain ⟨pre, i, name, post, expected, rfl, t, hget, hexpected, hstarts⟩ := h
  have htie := tiebreak_run cfg active (pre ++ .handshake i did name :: post) pre
    fun e he => List.mem_append_left _ he
  obtain ⟨hless, htold⟩ := htie.tasks t (List.mem_of_getElem? hget) expected hexpected
  rwa [happart expected htold (hstarts.shortId_eq hexpected).symm] at hless

/-- **Two nodes never dial each other**, in any two runs, as long as the short ids tell the devices
apart that they were told of. -/
theorem one_dials (cfg cfg' : LanConfig) (active active' : Bool) (es es' : List LanEvent)
    (happart : ToldApart es cfg'.selfDeviceId) (happart' : ToldApart es' cfg.selfDeviceId) :
    ¬ (HasDialed cfg active es cfg'.selfDeviceId ∧
      HasDialed cfg' active' es' cfg.selfDeviceId) := by
  rintro ⟨h, h'⟩
  exact absurd (lt_of_hasDialed h happart) (String.lt_asymm (lt_of_hasDialed h' happart'))

end

/-- mDNS finds `"a"`, and it is dialled. -/
def findsSmaller : List LanEvent :=
  [.mdns 0 (.resolved ⟨some "gid", some "a", [.v4 0xc0a80102], 5000, "a"⟩), .discover 0 [],
    .discover 0 [], .tick, .snapshot [("a", ⟨"a", [⟨.v4 0xc0a80102, 5000, 0⟩]⟩)], .dial]

theorem findsSmaller_dials :
    let _ := sampleAddrText
    let es := findsSmaller ++ [.handshake 0 "a" "A"]
    HasDialed sampleLanConfig true es "a" ∧
      ¬ (HasDialed sampleLanConfig true es "a" ∧ HasDialed ⟨"a", "gid"⟩ true [] "b") := by
  intro _ es
  have hdials : HasDialed sampleLanConfig true es "a" :=
    ⟨findsSmaller, 0, "A", [], "a", rfl, ⟨"a", some "a", .starting⟩, by decide +kernel, rfl,
      rfl, by decide +kernel⟩
  refine ⟨hdials, one_dials sampleLanConfig ⟨"a", "gid"⟩ true true es [] ?_ ?_⟩
  · rintro did (⟨i, info, hmem, hdid⟩ | ⟨peers, hmem, -⟩) -
    · simp [es, findsSmaller] at hmem
      rw [hmem.2] at hdid
      exact (Option.some.inj hdid).symm
    · simp [es, findsSmaller] at hmem
  · rintro did (⟨i, info, hmem, -⟩ | ⟨peers, hmem, -⟩)
    · cases hmem
    · cases hmem

end LanNode

end ClipBridge
