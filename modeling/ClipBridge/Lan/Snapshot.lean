import ClipBridge.Lan.KnownPeers

/-!
# A snapshot replaces the relay's part

`apply_relay_snapshot_with_local_networks` rewrites the `relay:` entries of two maps at once.

* `snapshotAddrs` — the `relay:` entries that a snapshot puts into `peer_addrs`.
* `lookup_addrs_snapshot`, `lookup_known_snapshot` — both maps after a snapshot, key by key: the
  `relay:` entries of `known_peers` are those of `peer_addrs` that we are to dial.
* `Replacement` — what it is to replace the `relay:` entries and nothing else.
* `snapshot_replaces` — for any two maps, any snapshot and any networks.

Of two entries for one device id the last one counts, in both maps: whether a device is to be
dialled depends on its id only.
-/

namespace ClipBridge

open Relay (SocketAddr SocketAddrText)

/-! ## Keys -/

theorem isRelayKey_relayKey (did : DeviceId) : isRelayKey (relayKey did) = true := by
  unfold isRelayKey relayKey
  rw [String.toList_append, List.isPrefixOf_iff_prefix]
  exact List.prefix_append _ _

theorem relayKey_injective : Function.Injective relayKey := by
  intro a b h
  have hlist := congrArg String.toList h
  simp only [relayKey, String.toList_append, List.append_cancel_left_eq] at hlist
  exact String.toList_inj.1 hlist

theorem lookup_retainKeys {β : Type} (p : String → Bool) (m : AList fun _ : String => β)
    (k : String) : (retainKeys p m).lookup k = if p k then m.lookup k else none := by
  ext v
  show v ∈ (retainKeys p m).lookup k ↔ _
  rw [AList.mem_lookup_iff]
  show Sigma.mk k v ∈ m.entries.filter _ ↔ _
  rw [List.mem_filter, ← AList.mem_lookup_iff, Option.mem_def]
  split
  · rename_i hk
    simp [hk]
  · rename_i hk
    simp [hk]

/-! ## Loops of insertions -/

/-- The last element with a key decides what is under it. -/
theorem lookup_foldl_insert {α β γ : Type} [DecidableEq α] (key : γ → α) (val : γ → β)
    (l : List γ) (m : AList fun _ : α => β) (k : α) :
    (l.foldl (fun m a => m.insert (key a) (val a)) m).lookup k =
      ((l.reverse.find? (key · = k)).map val).or (m.lookup k) := by
  induction l generalizing m with
  | nil => rfl
  | cons a l ih =>
      rw [List.foldl_cons, ih, List.reverse_cons, List.find?_append]
      cases hlast : l.reverse.find? (key · = k) with
      | some b => rfl
      | none =>
          by_cases hk : key a = k
          · rw [← hk, AList.lookup_insert]
            simp
          · rw [AList.lookup_insert_ne (Ne.symm hk)]
            simp [hk]

/-- When all that is looked for agrees on `q`, a filter keeps the first of it or nothing. -/
theorem find?_filter_of_agree {α : Type} {p q : α → Bool}
    (hagree : ∀ a b, p a = true → p b = true → q a = q b) (l : List α) :
    (l.filter q).find? p = (l.find? p).filter q := by
  induction l with
  | nil => rfl
  | cons a l ih =>
      cases hp : p a with
      | false =>
          rw [List.find?_cons_of_neg (by simp [hp]), ← ih]
          cases hq : q a with
          | true => rw [List.filter_cons_of_pos hq, List.find?_cons_of_neg (by simp [hp])]
          | false => rw [List.filter_cons_of_neg (by simp [hq])]
      | true =>
          rw [List.find?_cons_of_pos hp]
          cases hq : q a with
          | true =>
              rw [List.filter_cons_of_pos hq, List.find?_cons_of_pos hp,
                Option.filter_some_pos hq]
          | false =>
              rw [Option.filter_some_neg (by simp [hq]), List.find?_eq_none]
              intro b hb hpb
              rw [hagree a b hp hpb, (List.mem_filter.1 hb).2] at hq
              cases hq

/-- We are to dial it, and mDNS does not cover it. -/
def toDial (selfDeviceId : DeviceId) (mdnsDids : List DeviceId) (entry : PeerAddrEntry) : Bool :=
  !decide (selfDeviceId ≤ entry.deviceId) && !mdnsDids.contains entry.deviceId

def PeerAddrEntry.knownPeer (entry : PeerAddrEntry) : KnownPeer :=
  ⟨entry.deviceId, entry.candidates⟩

theorem insertRelayPeers_eq_foldl (selfDeviceId : DeviceId) (mdnsDids : List DeviceId)
    (known : KnownPeers) (desired : List PeerAddrEntry) :
    insertRelayPeers selfDeviceId mdnsDids known desired =
      (desired.filter (toDial selfDeviceId mdnsDids)).foldl
        (fun known entry => known.insert (relayKey entry.deviceId) entry.knownPeer) known := by
  induction desired generalizing known with
  | nil => rfl
  | cons entry desired ih =>
      unfold insertRelayPeers
      split
      · rename_i hle
        rw [ih, List.filter_cons_of_neg (by simp [toDial, hle])]
      · rename_i hlt
        split
        · rename_i hmdns
          rw [ih, List.filter_cons_of_neg (by rw [toDial, hmdns]; simp)]
        · rename_i hfree
          rw [ih, List.filter_cons_of_pos ?_, List.foldl_cons]
          · rfl
          · rw [toDial, Bool.eq_false_of_not_eq_true hfree, decide_eq_false hlt]
            rfl

/-! ## Whom mDNS covers -/

/-- The device ids of the entries that mDNS put in. -/
def mdnsDids (known : KnownPeers) : List DeviceId :=
  (retainKeys (!isRelayKey ·) known).entries.map (·.2.peerDid)

theorem mem_mdnsDids {known : KnownPeers} {did : DeviceId} :
    did ∈ mdnsDids known ↔
      ∃ k kp, isRelayKey k = false ∧ known.lookup k = some kp ∧ kp.peerDid = did := by
  unfold mdnsDids
  rw [List.mem_map]
  constructor
  · intro h
    obtain ⟨⟨k, kp⟩, hmem, hdid⟩ := h
    have hlookup := AList.mem_lookup_iff.2 hmem
    rw [lookup_retainKeys] at hlookup
    cases hk : isRelayKey k with
    | true => simp [hk] at hlookup
    | false => exact ⟨k, kp, hk, by simpa [hk] using hlookup, hdid⟩
  · intro h
    obtain ⟨k, kp, hk, hlookup, hdid⟩ := h
    refine ⟨⟨k, kp⟩, AList.mem_lookup_iff.1 ?_, hdid⟩
    rw [lookup_retainKeys, hk]
    exact hlookup

theorem mem_mdnsDids_congr {known known' : KnownPeers}
    (h : ∀ k, isRelayKey k = false → known.lookup k = known'.lookup k) (did : DeviceId) :
    did ∈ mdnsDids known ↔ did ∈ mdnsDids known' := by
  rw [mem_mdnsDids, mem_mdnsDids]
  constructor
  · intro hdid
    obtain ⟨k, kp, hk, hlookup, hsame⟩ := hdid
    exact ⟨k, kp, hk, (h k hk).symm.trans hlookup, hsame⟩
  · intro hdid
    obtain ⟨k, kp, hk, hlookup, hsame⟩ := hdid
    exact ⟨k, kp, hk, (h k hk).trans hlookup, hsame⟩

/-! ## Replacing the `relay:` entries -/

/-- Without duplicates, all of them routable, and none of them at one of our own addresses. -/
structure GoodCandidates (networks : List LocalNetwork) (cands : List SocketAddr) : Prop where
  nodup : cands.Nodup
  routable : ∀ sa ∈ cands, isUnroutable sa.ip = false
  notOurs : ∀ sa ∈ cands, ∀ network ∈ networks, sa.ip ≠ network.ip

/-- `f` replaces the `relay:` entries of `peer_addrs` and `known_peers`, and them alone. -/
structure Replacement (selfDeviceId : DeviceId) (networks : List LocalNetwork)
    (f : PeerAddrs → KnownPeers → PeerAddrs × KnownPeers) : Prop where
  addrs_kept : ∀ addrs known k, isRelayKey k = false →
    (f addrs known).1.lookup k = addrs.lookup k
  known_kept : ∀ addrs known k, isRelayKey k = false →
    (f addrs known).2.lookup k = known.lookup k
  /-- Nothing of the maps before shows in the `relay:` entries of `peer_addrs`. -/
  addrs_determined : ∀ addrs known addrs' known' k, isRelayKey k = true →
    (f addrs known).1.lookup k = (f addrs' known').1.lookup k
  /-- In those of `known_peers` only the device ids that mDNS covers do. -/
  known_determined : ∀ addrs known addrs' known',
    (∀ did, did ∈ mdnsDids known ↔ did ∈ mdnsDids known') → ∀ k, isRelayKey k = true →
    (f addrs known).2.lookup k = (f addrs' known').2.lookup k
  known_sub : ∀ addrs known k kp, isRelayKey k = true → (f addrs known).2.lookup k = some kp →
    k = relayKey kp.peerDid ∧ kp.peerDid < selfDeviceId ∧
      ∃ entry, (f addrs known).1.lookup k = some entry ∧ entry.knownPeer = kp
  addrs_good : ∀ addrs known k entry, isRelayKey k = true →
    (f addrs known).1.lookup k = some entry →
    k = relayKey entry.deviceId ∧ entry.deviceId ≠ selfDeviceId ∧ entry.candidates ≠ [] ∧
      GoodCandidates networks entry.candidates

/-- The same under every key. -/
structure SameMaps (m m' : PeerAddrs × KnownPeers) : Prop where
  addrs : ∀ k, m.1.lookup k = m'.1.lookup k
  known : ∀ k, m.2.lookup k = m'.2.lookup k

namespace Replacement

variable {selfDeviceId : DeviceId} {networks networks' : List LocalNetwork}
variable {f g : PeerAddrs → KnownPeers → PeerAddrs × KnownPeers}

/-- The last of two replacements is all that is seen. -/
theorem absorbs (hf : Replacement selfDeviceId networks f)
    (hg : Replacement selfDeviceId networks' g) (addrs : PeerAddrs) (known : KnownPeers) :
    SameMaps (f (g addrs known).1 (g addrs known).2) (f addrs known) := by
  constructor
  · intro k
    cases hk : isRelayKey k with
    | true => exact hf.addrs_determined _ _ _ _ k hk
    | false => rw [hf.addrs_kept _ _ k hk, hf.addrs_kept _ _ k hk, hg.addrs_kept _ _ k hk]
  · intro k
    cases hk : isRelayKey k with
    | true =>
        exact hf.known_determined _ _ _ _
          (mem_mdnsDids_congr fun k' hk' => hg.known_kept addrs known k' hk') k hk
    | false => rw [hf.known_kept _ _ k hk, hf.known_kept _ _ k hk, hg.known_kept _ _ k hk]

end Replacement

/-! ## Candidates -/

section

variable [SocketAddrText]

theorem parseCandidates_sound {cands : List SocketAddr} (hnodup : cands.Nodup)
    (hroutable : ∀ sa ∈ cands, isUnroutable sa.ip = false) (texts : List String) :
    (parseCandidates cands texts).Nodup ∧
      ∀ sa ∈ parseCandidates cands texts, isUnroutable sa.ip = false := by
  induction texts generalizing cands with
  | nil => exact ⟨hnodup, hroutable⟩
  | cons s rest ih =>
      unfold parseCandidates
      split
      · rename_i sa _
        split
        · rename_i htake
          rw [Bool.and_eq_true, Bool.not_eq_true', Bool.not_eq_true', List.contains_eq_mem,
            decide_eq_false_iff_not] at htake
          apply ih
          · exact List.nodup_append.2 ⟨hnodup, List.nodup_singleton sa,
              fun a ha b hb hab => htake.2 (by rwa [← List.mem_singleton.1 hb, ← hab])⟩
          · intro a ha
            rcases List.mem_append.1 ha with ha | ha
            · exact hroutable a ha
            · rw [List.mem_singleton.1 ha]
              exact htake.1
        · exact ih hnodup hroutable
      · exact ih hnodup hroutable

theorem goodCandidates_relayCandidates (p : LanPeer) (networks : List LocalNetwork) :
    GoodCandidates networks (relayCandidates p networks) := by
  have hparsed := parseCandidates_sound List.nodup_nil (by simp) p.candidates
  have hperm : (relayCandidates p networks).Perm
      (dropLocalInterfaceCandidates (parseCandidates [] p.candidates) networks) :=
    List.perm_insertionSort _ _
  constructor
  · exact hperm.nodup_iff.2 (hparsed.1.filter _)
  · intro sa hsa
    exact hparsed.2 sa (List.mem_filter.1 (hperm.mem_iff.1 hsa)).1
  · intro sa hsa network hnetwork heq
    have hours := (List.mem_filter.1 (hperm.mem_iff.1 hsa)).2
    rw [Bool.not_eq_true', isLocalInterfaceCandidate, List.any_eq_false] at hours
    exact hours network hnetwork (beq_iff_eq.2 heq)

theorem mem_desiredPeers {selfDeviceId : DeviceId} {peers : List LanPeer}
    {networks : List LocalNetwork} {entry : PeerAddrEntry}
    (h : entry ∈ desiredPeers selfDeviceId peers networks) :
    entry.deviceId ≠ selfDeviceId ∧ entry.candidates ≠ [] ∧
      GoodCandidates networks entry.candidates := by
  obtain ⟨p, -, hp⟩ := List.mem_filterMap.1 h
  dsimp only at hp
  split at hp
  · cases hp
  · rename_i hself
    split at hp
    · cases hp
    · rename_i hcands
      cases hp
      exact ⟨hself, fun hnil => hcands (List.isEmpty_iff.2 hnil),
        goodCandidates_relayCandidates p networks⟩

/-! ## The maps after a snapshot -/

/-- What the snapshot puts under a key of `peer_addrs`. -/
def snapshotAddrs (selfDeviceId : DeviceId) (peers : List LanPeer) (networks : List LocalNetwork)
    (k : String) : Option PeerAddrEntry :=
  (desiredPeers selfDeviceId peers networks).reverse.find? (relayKey ·.deviceId = k)

theorem snapshotAddrs_eq_none {k : String} (hk : isRelayKey k = false) (selfDeviceId : DeviceId)
    (peers : List LanPeer) (networks : List LocalNetwork) :
    snapshotAddrs selfDeviceId peers networks k = none := by
  apply List.find?_eq_none.2
  intro entry _ hentry
  rw [← of_decide_eq_true hentry, isRelayKey_relayKey] at hk
  cases hk

theorem snapshotAddrs_key {selfDeviceId : DeviceId} {peers : List LanPeer}
    {networks : List LocalNetwork} {k : String} {entry : PeerAddrEntry}
    (h : snapshotAddrs selfDeviceId peers networks k = some entry) :
    k = relayKey entry.deviceId := by
  have hkey := List.find?_some h
  exact (of_decide_eq_true hkey).symm

theorem snapshotAddrs_good {selfDeviceId : DeviceId} {peers : List LanPeer}
    {networks : List LocalNetwork} {k : String} {entry : PeerAddrEntry}
    (h : snapshotAddrs selfDeviceId peers networks k = some entry) :
    entry.deviceId ≠ selfDeviceId ∧ entry.candidates ≠ [] ∧
      GoodCandidates networks entry.candidates :=
  mem_desiredPeers (List.mem_reverse.1 (List.mem_of_find?_eq_some h))

theorem lookup_addrs_snapshot (selfDeviceId : DeviceId) (peers : List LanPeer) (addrs : PeerAddrs)
    (known : KnownPeers) (networks : List LocalNetwork) (k : String) :
    (applyRelaySnapshotWithLocalNetworks selfDeviceId peers addrs known networks).1.lookup k =
      if isRelayKey k then snapshotAddrs selfDeviceId peers networks k else addrs.lookup k := by
  show (insertAddrs _ _).lookup k = _
  rw [insertAddrs, lookup_foldl_insert, Option.map_id', lookup_retainKeys]
  show (snapshotAddrs selfDeviceId peers networks k).or _ = _
  cases hk : isRelayKey k with
  | true => simp
  | false => simp [snapshotAddrs_eq_none hk]

theorem lookup_known_snapshot (selfDeviceId : DeviceId) (peers : List LanPeer) (addrs : PeerAddrs)
    (known : KnownPeers) (networks : List LocalNetwork) (k : String) :
    (applyRelaySnapshotWithLocalNetworks selfDeviceId peers addrs known networks).2.lookup k =
      if isRelayKey k then
        ((snapshotAddrs selfDeviceId peers networks k).filter
          (toDial selfDeviceId (mdnsDids known))).map PeerAddrEntry.knownPeer
      else known.lookup k := by
  show (insertRelayPeers selfDeviceId (mdnsDids known) _ _).lookup k = _
  rw [insertRelayPeers_eq_foldl, lookup_foldl_insert, lookup_retainKeys, ← List.filter_reverse,
    find?_filter_of_agree]
  · show (((snapshotAddrs selfDeviceId peers networks k).filter _).map _).or _ = _
    cases hk : isRelayKey k with
    | true => simp
    | false => simp [snapshotAddrs_eq_none hk]
  · -- Two entries under one key are about one device.
    intro a b ha hb
    have hsame : a.deviceId = b.deviceId :=
      relayKey_injective ((of_decide_eq_true ha).trans (of_decide_eq_true hb).symm)
    unfold toDial
    rw [hsame]

/-! ## A snapshot is one -/

theorem replacement_snapshot (selfDeviceId : DeviceId) (peers : List LanPeer)
    (networks : List LocalNetwork) :
    Replacement selfDeviceId networks fun addrs known =>
      applyRelaySnapshotWithLocalNetworks selfDeviceId peers addrs known networks where
  addrs_kept := by
    intro addrs known k hk
    rw [lookup_addrs_snapshot, hk]
    rfl
  known_kept := by
    intro addrs known k hk
    rw [lookup_known_snapshot, hk]
    rfl
  addrs_determined := by
    intro addrs known addrs' known' k hk
    rw [lookup_addrs_snapshot, lookup_addrs_snapshot, hk]
    rfl
  known_determined := by
    intro addrs known addrs' known' hdids k hk
    have hdial : toDial selfDeviceId (mdnsDids known) = toDial selfDeviceId (mdnsDids known') := by
      funext entry
      simp only [toDial, List.contains_eq_mem, hdids]
    rw [lookup_known_snapshot, lookup_known_snapshot, hdial, hk]
    rfl
  known_sub := by
    intro addrs known k kp hk hlookup
    rw [lookup_known_snapshot, hk, if_pos rfl, Option.map_eq_some_iff] at hlookup
    obtain ⟨entry, hentry, rfl⟩ := hlookup
    obtain ⟨haddr, hdial⟩ := Option.filter_eq_some_iff.1 hentry
    refine ⟨snapshotAddrs_key haddr, ?_, entry, ?_, rfl⟩
    · rw [toDial, Bool.and_eq_true, Bool.not_eq_true', decide_eq_false_iff_not] at hdial
      exact String.not_le.1 hdial.1
    · rw [lookup_addrs_snapshot, hk]
      exact haddr
  addrs_good := by
    intro addrs known k entry hk hlookup
    rw [lookup_addrs_snapshot, hk] at hlookup
    exact ⟨snapshotAddrs_key hlookup, snapshotAddrs_good hlookup⟩

/-- **A snapshot replaces the `relay:` entries of both maps and nothing else; whatever snapshot
came before it, the same one included, leaves no trace.** -/
theorem snapshot_replaces (selfDeviceId : DeviceId) (peers : List LanPeer)
    (networks : List LocalNetwork) :
    let apply := applyRelaySnapshotWithLocalNetworks selfDeviceId
    Replacement selfDeviceId networks (apply peers · · networks) ∧
      ∀ earlier networks' addrs known,
        let before := apply earlier addrs known networks'
        SameMaps (apply peers before.1 before.2 networks) (apply peers addrs known networks) :=
  ⟨replacement_snapshot selfDeviceId peers networks, fun earlier networks' addrs known =>
    (replacement_snapshot selfDeviceId peers networks).absorbs
      (replacement_snapshot selfDeviceId earlier networks') addrs known⟩

end

end ClipBridge
