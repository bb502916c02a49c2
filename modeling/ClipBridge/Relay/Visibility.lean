import ClipBridge.Relay.Rendezvous
import ClipBridge.Relay.Sanitize

/-!
# Who sees whom

Two devices behind one address are introduced to each other by the snapshots that `push_egress` in
`relay/src/hub.rs` sends. With networks on both sides, only those addresses are shown that are in
a subnet of the receiver, while the receiver is in a subnet of theirs.

* `ipInPrefixChecked` — the prefix test with shifts that fail where a word would be shifted by its
  full width; `ipInPrefixChecked_eq` — it never fails.
* `ipInPrefix_v4`, `ipInPrefix_v6` — the test compares the top bits.
* `candidatesForReceiver_ne_nil` — when there is an address to show at all.
* `lists_comm` — each of two devices sees the other one, or neither does.
-/

namespace ClipBridge.Relay

/-! ## Top bits -/

/-- `x << s`, which overflows where `s` is not less than the width. -/
def shlChecked {w : Nat} (x : BitVec w) (s : Nat) : Option (BitVec w) :=
  if s < w then some (x <<< s) else none

def prefixMaskChecked (w n : Nat) : Option (BitVec w) :=
  if n = 0 then some 0 else shlChecked (BitVec.allOnes w) (w - n)

def ipInPrefixChecked (target networkIp : IpAddr) (prefixLen : UInt8) : Option Bool :=
  match target, networkIp with
  | .v4 t, .v4 m =>
      if prefixLen ≤ 32 then
        (prefixMaskChecked 32 prefixLen.toNat).map fun mask => t &&& mask == m &&& mask
      else some false
  | .v6 t, .v6 m =>
      if prefixLen ≤ 128 then
        (prefixMaskChecked 128 prefixLen.toNat).map fun mask => t &&& mask == m &&& mask
      else some false
  | _, _ => some false

/-- The top `n` bits of two words agree. -/
def SameTop {w : Nat} (n : Nat) (a b : BitVec w) : Prop := ∀ i < n, a.getMsbD i = b.getMsbD i

section

variable {w n : Nat}

theorem prefixMaskChecked_eq (hw : 0 < w) : prefixMaskChecked w n = some (prefixMask w n) := by
  unfold prefixMaskChecked prefixMask shlChecked
  split
  · rfl
  · rw [if_pos (by omega)]

theorem getMsbD_prefixMask (hn : n ≤ w) (i : Nat) :
    (prefixMask w n).getMsbD i = decide (i < n) := by
  unfold prefixMask
  split
  · rename_i hzero
    simp [hzero]
  · rw [BitVec.getMsbD_shiftLeft, BitVec.getMsbD_allOnes]
    exact decide_eq_decide.2 (by omega)

theorem and_prefixMask_eq_iff (hn : n ≤ w) (a b : BitVec w) :
    a &&& prefixMask w n = b &&& prefixMask w n ↔ SameTop n a b := by
  constructor
  · intro h i hi
    have hbit := congrArg (·.getMsbD i) h
    simpa [getMsbD_prefixMask hn, hi] using hbit
  · intro h
    refine BitVec.eq_of_getMsbD_eq fun i _ => ?_
    rw [BitVec.getMsbD_and, BitVec.getMsbD_and, getMsbD_prefixMask hn]
    by_cases hi : i < n
    · rw [h i hi]
    · simp [hi]

end

/-- **No word is shifted by its full width.** -/
theorem ipInPrefixChecked_eq (target networkIp : IpAddr) (prefixLen : UInt8) :
    ipInPrefixChecked target networkIp prefixLen =
      some (ipInPrefix target networkIp prefixLen) := by
  cases target <;> cases networkIp <;> unfold ipInPrefixChecked ipInPrefix <;> dsimp only
  · split
    · rename_i hn
      rw [prefixMaskChecked_eq (by decide)]
      simp [hn]
    · rename_i hn
      simp [hn]
  · split
    · rename_i hn
      rw [prefixMaskChecked_eq (by decide)]
      simp [hn]
    · rename_i hn
      simp [hn]

theorem ipInPrefix_v4 {prefixLen : UInt8} (hn : prefixLen ≤ 32) (a b : BitVec 32) :
    ipInPrefix (.v4 a) (.v4 b) prefixLen = true ↔ SameTop prefixLen.toNat a b := by
  rw [← and_prefixMask_eq_iff (UInt8.le_iff_toNat_le.1 hn)]
  simp [ipInPrefix, hn]

theorem ipInPrefix_v6 {prefixLen : UInt8} (hn : prefixLen ≤ 128) (a b : BitVec 128) :
    ipInPrefix (.v6 a) (.v6 b) prefixLen = true ↔ SameTop prefixLen.toNat a b := by
  rw [← and_prefixMask_eq_iff (UInt8.le_iff_toNat_le.1 hn)]
  simp [ipInPrefix, hn]

/-! ## Addresses to show -/

section

variable [SocketAddrText]

theorem mutualSubnet_comm (a b : LanCandidate) : mutualSubnet a b = mutualSubnet b a := by
  unfold mutualSubnet
  cases SocketAddrText.parse a.addr with
  | none => cases SocketAddrText.parse b.addr <;> rfl
  | some aAddr =>
      cases SocketAddrText.parse b.addr with
      | none => rfl
      | some bAddr => exact Bool.and_comm _ _

omit [SocketAddrText] in
/-- The loop collects something if there is anything to collect. -/
theorem foldl_collect_ne_nil (p : LanCandidate → Bool) (networks : List LanCandidate)
    (out : List String) :
    networks.foldl (fun out n => if p n && !out.contains n.addr then out ++ [n.addr] else out) out
      ≠ [] ↔ out ≠ [] ∨ ∃ n ∈ networks, p n = true := by
  induction networks generalizing out with
  | nil => simp
  | cons n networks ih =>
      rw [List.foldl_cons, ih, List.exists_mem_cons_iff, ← or_assoc]
      refine or_congr_left ?_
      cases hp : p n with
      | false => simp
      | true =>
          cases hout : out.contains n.addr with
          | false => simp
          | true =>
              have hne : out ≠ [] := by
                rintro rfl
                cases hout
              simp [hne]

/-- What is shown of a peer has been through `sanitize_lan_advertise`. -/
def Sanitized (c : RvConn) : Prop :=
  ∃ candidates networks, sanitizeLanAdvertise candidates networks =
    (c.candidates, c.candidateNetworks)

theorem Sanitized.network_mem {c : RvConn} (h : Sanitized c) :
    ∀ n ∈ c.candidateNetworks, n.addr ∈ c.candidates := by
  obtain ⟨candidates, networks, h⟩ := h
  obtain ⟨hcandidates, hnetworks⟩ := Prod.mk.inj h
  rw [← hcandidates, ← hnetworks]
  exact sanitizeNetworks_mem_accepted networks

/-- There is an address to show unless both sides sent networks and no two of them go together. -/
theorem candidatesForReceiver_ne_nil {receiver peer : RvConn} (hpeer : Sanitized peer)
    (hsome : peer.candidates ≠ []) : candidatesForReceiver receiver peer ≠ [] ↔
      receiver.candidateNetworks = [] ∨ peer.candidateNetworks = [] ∨
        ∃ n ∈ peer.candidateNetworks, ∃ m ∈ receiver.candidateNetworks,
          mutualSubnet m n = true := by
  unfold candidatesForReceiver
  split
  · rename_i hempty
    rw [Bool.or_eq_true, List.isEmpty_iff, List.isEmpty_iff] at hempty
    refine ⟨fun _ => ?_, fun _ => hsome⟩
    rcases hempty with h | h
    · exact .inl h
    · exact .inr (.inl h)
  · rename_i hboth
    rw [Bool.or_eq_true, List.isEmpty_iff, List.isEmpty_iff, not_or] at hboth
    rw [foldl_collect_ne_nil (fun n => peer.candidates.any (· == n.addr) &&
      receiver.candidateNetworks.any (mutualSubnet · n))]
    constructor
    · rintro (h | ⟨n, hn, hshown⟩)
      · exact absurd rfl h
      · rw [Bool.and_eq_true, List.any_eq_true, List.any_eq_true] at hshown
        exact .inr (.inr ⟨n, hn, hshown.2⟩)
    · rintro (h | h | ⟨n, hn, hmutual⟩)
      · exact absurd h hboth.1
      · exact absurd h hboth.2
      · refine .inr ⟨n, hn, ?_⟩
        rw [Bool.and_eq_true, List.any_eq_true, List.any_eq_true]
        exact ⟨⟨n.addr, hpeer.network_mem n hn, beq_self_eq_true _⟩, hmutual⟩

/-- Each of two devices has an address for the other one, or neither has. -/
theorem candidatesForReceiver_comm {a b : RvConn} (ha : Sanitized a) (hb : Sanitized b)
    (hsomeA : a.candidates ≠ []) (hsomeB : b.candidates ≠ []) :
    candidatesForReceiver b a ≠ [] ↔ candidatesForReceiver a b ≠ [] := by
  rw [candidatesForReceiver_ne_nil ha hsomeA, candidatesForReceiver_ne_nil hb hsomeB, or_left_comm]
  refine or_congr_right (or_congr_right ?_)
  constructor
  · rintro ⟨n, hn, m, hm, h⟩
    exact ⟨m, hm, n, hn, (mutualSubnet_comm n m).trans h⟩
  · rintro ⟨n, hn, m, hm, h⟩
    exact ⟨m, hm, n, hn, (mutualSubnet_comm n m).trans h⟩

/-! ## Snapshots -/

/-- Every device has one connection. -/
def OneConnEach (slots : ConnId → Option RvConn) : Prop :=
  ∀ oid oc oid' oc', slots oid = some oc → slots oid' = some oc' → oc.deviceId = oc'.deviceId →
    oid = oid'

/-- The snapshot that is made for a connection lists a device. -/
def Lists (p : Presence) (ip : IpAddr) (cid : ConnId) (did : DeviceId) : Prop :=
  ∃ c, Presence.slot p ip cid = some c ∧
    ∃ row ∈ snapshotFor cid c (p.connsAt ip), row.2.deviceId = did

variable {p : Presence} {ip : IpAddr} {ca cb : ConnId} {a b : RvConn}

/-- Another device is listed if there is an address of it to show. -/
theorem lists_iff (hone : OneConnEach (Presence.slot p ip)) (ha : Presence.slot p ip ca = some a)
    (hb : Presence.slot p ip cb = some b) (hne : ca ≠ cb) :
    Lists p ip cb a.deviceId ↔ candidatesForReceiver b a ≠ [] := by
  have hslots : Presence.slot p ip = ((p.connsAt ip).lookup ·) := by
    funext cid
    exact slot_eq_connsAt p ip cid
  have hlook : (p.connsAt ip).lookup cb = some b := (slot_eq_connsAt p ip cb).symm.trans hb
  constructor
  · rintro ⟨c, hc, row, hrow, hdid⟩
    obtain rfl : b = c := Option.some.inj (hb.symm.trans hc)
    obtain ⟨c', oc, hc', hlatest, hsome, hrow'⟩ := (mem_snapshotFor hlook row).1 hrow
    obtain rfl : b = c' := Option.some.inj (hlook.symm.trans hc')
    have hdevice : oc.deviceId = a.deviceId := by
      rw [← hdid, hrow']
    have hoc : Presence.slot p ip row.1 = some oc := (slot_eq_connsAt p ip row.1).trans hlatest.slot
    have hcid : row.1 = ca := hone _ _ _ _ hoc ha hdevice
    rw [hcid, ha, Option.some.injEq] at hoc
    rwa [hoc]
  · intro hsome
    have hlatest : Latest ((p.connsAt ip).lookup ·) cb ca a := by
      refine ⟨(slot_eq_connsAt p ip ca).symm.trans ha, hne, fun oid oc hoc _ hdid => ?_⟩
      exact (hone _ _ _ _ ((slot_eq_connsAt p ip oid).trans hoc) ha hdid).le
    exact ⟨b, hb, (ca, ⟨a.deviceId, a.deviceName, candidatesForReceiver b a⟩),
      (mem_snapshotFor hlook _).2 ⟨b, a, hlook, hlatest, hsome, rfl⟩, rfl⟩

/-- **Of two devices behind one address that have sent candidates, each is shown to the other, or
neither is; and the prefix test compares the top bits, without a shift by the full width.** -/
theorem lists_comm (hone : OneConnEach (Presence.slot p ip))
    (ha : Presence.slot p ip ca = some a) (hb : Presence.slot p ip cb = some b)
    (hsa : Sanitized a) (hsb : Sanitized b) (hsomeA : a.candidates ≠ [])
    (hsomeB : b.candidates ≠ []) :
    (Lists p ip cb a.deviceId ↔ Lists p ip ca b.deviceId) ∧
      (∀ (x y : BitVec 32) (n : UInt8), validPrefixLen (.v4 x) n = true →
        ipInPrefixChecked (.v4 x) (.v4 y) n = some (ipInPrefix (.v4 x) (.v4 y) n) ∧
          (ipInPrefix (.v4 x) (.v4 y) n = true ↔ SameTop n.toNat x y)) ∧
      ∀ (x y : BitVec 128) (n : UInt8), validPrefixLen (.v6 x) n = true →
        ipInPrefixChecked (.v6 x) (.v6 y) n = some (ipInPrefix (.v6 x) (.v6 y) n) ∧
          (ipInPrefix (.v6 x) (.v6 y) n = true ↔ SameTop n.toNat x y) := by
  refine ⟨?_, fun x y n hn => ?_, fun x y n hn => ?_⟩
  · by_cases hne : ca = cb
    · subst hne
      obtain rfl : a = b := Option.some.inj (ha.symm.trans hb)
      exact Iff.rfl
    · rw [lists_iff hone ha hb hne, lists_iff hone hb ha (Ne.symm hne)]
      exact candidatesForReceiver_comm hsa hsb hsomeA hsomeB
  · exact ⟨ipInPrefixChecked_eq _ _ _, ipInPrefix_v4 (of_decide_eq_true hn) x y⟩
  · exact ⟨ipInPrefixChecked_eq _ _ _, ipInPrefix_v6 (of_decide_eq_true hn) x y⟩

end

/-! ### A laptop and a phone in one subnet -/

/-- A parser that knows the addresses of both. -/
@[reducible] def subnetAddrText : SocketAddrText where
  parse s :=
    if s = "192.168.1.7:4000" then some ⟨.v4 0xc0a80107, 4000, 0⟩
    else if s = "192.168.1.8:4000" then some ⟨.v4 0xc0a80108, 4000, 0⟩
    else none
  display addr := if addr.ip = .v4 0xc0a80107 then "192.168.1.7:4000" else "192.168.1.8:4000"

def laptopConn : RvConn :=
  ⟨"laptop", "Laptop", ["192.168.1.7:4000"], [⟨"192.168.1.7:4000", 24⟩], 1⟩

def phoneConn : RvConn :=
  ⟨"phone", "Phone", ["192.168.1.8:4000"], [⟨"192.168.1.8:4000", 24⟩], 2⟩

def bothPresent : Presence :=
  (∅ : Presence).insert (.v4 1)
    (((∅ : Conns).insert 1 laptopConn).insert 2 phoneConn)

theorem oneConnEach_bothPresent : OneConnEach (bothPresent.slot (.v4 1)) := by
  have hslot : ∀ {oid oc}, bothPresent.slot (.v4 1) oid = some oc →
      oid = 2 ∧ oc = phoneConn ∨ oid = 1 ∧ oc = laptopConn := by
    intro oid oc h
    rw [slot_eq_connsAt] at h
    have hmem : (⟨oid, oc⟩ : Sigma fun _ : ConnId => RvConn) ∈
        [⟨2, phoneConn⟩, ⟨1, laptopConn⟩] := AList.mem_lookup_iff.1 h
    simpa using hmem
  intro oid oc oid' oc' h h' hdid
  rcases hslot h with ⟨rfl, rfl⟩ | ⟨rfl, rfl⟩ <;> rcases hslot h' with ⟨rfl, rfl⟩ | ⟨rfl, rfl⟩
  · rfl
  · exact absurd hdid (by decide)
  · exact absurd hdid (by decide)
  · rfl

theorem lists_comm_bothPresent :
    (@Lists subnetAddrText bothPresent (.v4 1) 2 "laptop" ↔
      @Lists subnetAddrText bothPresent (.v4 1) 1 "phone") ∧
      (∀ (x y : BitVec 32) (n : UInt8), validPrefixLen (.v4 x) n = true →
        ipInPrefixChecked (.v4 x) (.v4 y) n = some (ipInPrefix (.v4 x) (.v4 y) n) ∧
          (ipInPrefix (.v4 x) (.v4 y) n = true ↔ SameTop n.toNat x y)) ∧
      ∀ (x y : BitVec 128) (n : UInt8), validPrefixLen (.v6 x) n = true →
        ipInPrefixChecked (.v6 x) (.v6 y) n = some (ipInPrefix (.v6 x) (.v6 y) n) ∧
          (ipInPrefix (.v6 x) (.v6 y) n = true ↔ SameTop n.toNat x y) :=
  @lists_comm subnetAddrText bothPresent (.v4 1) 1 2 laptopConn phoneConn oneConnEach_bothPresent
    (by decide) (by decide)
    ⟨["192.168.1.7:4000"], [⟨"192.168.1.7:4000", 24⟩], by decide⟩
    ⟨["192.168.1.8:4000"], [⟨"192.168.1.8:4000", 24⟩], by decide⟩ (by decide) (by decide)

end ClipBridge.Relay
