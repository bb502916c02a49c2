import ClipBridge.Lan.KnownPeers
import ClipBridge.Lan.RunPeer
import ClipBridge.Lib.AnyOrder
import Mathlib.Data.String.Basic

/-!
# The list of peers

Following `peer_records` and `candidates_for_peer` in `core/src/lan.rs`. A user is shown one row for
each device, made from the registry of live sessions and from all the entries that say where the
device can be reached: one from mDNS, one from the relay, or several. Every map is read in any
order.

* `lookup_byDevice` — a row has the name of the registry or else of the entry that came first, and
  the sum of the counts.
* `FunctionOfContents` — one row for each device, in order, the same whatever the order, and with as
  many candidates as there are to dial.
* `functionOfContents_iff` — that is so exactly if the entries of a device without a session agree
  on its name, and no address of a device is in there twice.
-/

namespace ClipBridge

open Relay (SocketAddr)

/-! ## The records -/

structure LanPeerRecord where
  deviceId : DeviceId
  displayName : String
  candidateCount : UInt32
  deriving DecidableEq, Repr

/-- By registry key, the device id and the name of the peer. -/
abbrev PeerRegistry := AList fun _ : String => DeviceId × String

abbrev DeviceNames := AList fun _ : DeviceId => String

abbrev DeviceRows := AList fun _ : DeviceId => String × UInt32

/-- How each of the maps is iterated over. -/
structure RecordOrder where
  registry : Visit (Sigma fun _ : String => DeviceId × String)
  addrs : Visit (Sigma fun _ : String => PeerAddrEntry)
  names : Visit (Sigma fun _ : DeviceId => String)
  rows : Visit (Sigma fun _ : DeviceId => String × UInt32)

namespace RecordOrder

def asStored : RecordOrder := ⟨.asStored, .asStored, .asStored, .asStored⟩

/-- This entry comes before the other ones. -/
def first (e : Sigma fun _ : String => PeerAddrEntry) : RecordOrder :=
  { asStored with addrs := .first e }

end RecordOrder

/-- The names of the live sessions; of a device with several, the one under the first key. -/
def registryNames (o : RecordOrder) (peers : PeerRegistry) : DeviceNames :=
  gather (·.2.1) (fun name e => name.getD e.2.2) ∅
    ((o.registry.order peers.entries).insertionSort fun a b => a.1 ≤ b.1)

/-- The name of a device that has none in the registry. -/
def fallbackName (entry : PeerAddrEntry) : String :=
  (nonEmptyDisplayName entry.displayName).getD (String.ofList (shortId entry.deviceId))

def rowName (names : DeviceNames) (entry : PeerAddrEntry) : String :=
  (names.lookup entry.deviceId).getD (fallbackName entry)

/-- `saturating_add` of two `u32`s. -/
def saturatingAddU32 (a b : UInt32) : UInt32 :=
  if a.toNat + b.toNat < 2 ^ 32 then a + b else 0xffffffff

/-- A row is made by the first entry of its device, and every entry adds its candidates. -/
def addEntry (names : DeviceNames) (row : Option (String × UInt32)) (entry : PeerAddrEntry) :
    String × UInt32 :=
  let row := row.getD (rowName names entry, 0)
  (row.1, saturatingAddU32 row.2 (UInt32.ofNat entry.candidates.length))

/-- The rows, from the addresses and then from the names. -/
def byDevice (o : RecordOrder) (peers : PeerRegistry) (addrs : PeerAddrs) : DeviceRows :=
  let names := registryNames o peers
  let rows := gather (·.2.deviceId) (fun row e => addEntry names row e.2) ∅
    (o.addrs.order addrs.entries)
  gather (·.1) (fun row e => row.getD (e.2, 0)) rows (o.names.order names.entries)

/-- By name, and then by device id. -/
def LanPeerRecord.Before (a b : LanPeerRecord) : Prop :=
  a.displayName < b.displayName ∨ a.displayName = b.displayName ∧ a.deviceId ≤ b.deviceId

instance : DecidableRel LanPeerRecord.Before :=
  fun a b => inferInstanceAs (Decidable
    (a.displayName < b.displayName ∨ a.displayName = b.displayName ∧ a.deviceId ≤ b.deviceId))

def peerRecords (o : RecordOrder) (peers : PeerRegistry) (addrs : PeerAddrs) :
    List LanPeerRecord :=
  ((o.rows.order (byDevice o peers addrs).entries).map
    fun e => ⟨e.1, e.2.1, e.2.2⟩).insertionSort LanPeerRecord.Before

/-- Each address of the device once. -/
def candidatesForPeer (o : RecordOrder) (addrs : PeerAddrs) (deviceId : DeviceId) :
    List SocketAddr :=
  (o.addrs.order addrs.entries).foldl
    (fun out e => if e.2.deviceId = deviceId then pushNew out e.2.candidates else out) []

/-! ## Names -/

theorem registryNames_eq (o o' : RecordOrder) (peers : PeerRegistry) :
    registryNames o peers = registryNames o' peers := by
  unfold registryNames
  have hperm : (o.registry.order peers.entries).Perm (o'.registry.order peers.entries) :=
    (o.registry.perm _).trans (o'.registry.perm _).symm
  rw [hperm.insertionSort_eq fun a ha b hb hab hba => ?_]
  have hperm' := o.registry.perm peers.entries
  exact peers.nodupKeys.eq_of_fst_eq (hperm'.mem_iff.1 ha) (hperm'.mem_iff.1 hb)
    (le_antisymm hab hba)

/-- The registry has a name for the devices it holds. -/
theorem mem_registryNames {o : RecordOrder} {peers : PeerRegistry} {d : DeviceId} :
    d ∈ registryNames o peers ↔ ∃ e ∈ peers.entries, e.2.1 = d := by
  unfold registryNames
  rw [mem_gather]
  simp only [List.mem_insertionSort, (o.registry.perm _).mem_iff]
  exact or_iff_right (AList.notMem_empty d)

/-! ## Rows -/

section

variable (o : RecordOrder) (peers : PeerRegistry) (addrs : PeerAddrs) (d : DeviceId)

/-- The entries of a device, in the order they are visited in. -/
def entriesOf : List (Sigma fun _ : String => PeerAddrEntry) :=
  (o.addrs.order addrs.entries).filter (·.2.deviceId = d)

/-- The addresses of a device, with their repeats. -/
def addressesOf : List SocketAddr :=
  (addrs.entries.filter (·.2.deviceId = d)).flatMap (·.2.candidates)

theorem entriesOf_perm : (entriesOf o addrs d).Perm (addrs.entries.filter (·.2.deviceId = d)) :=
  (o.addrs.perm _).filter _

theorem flatMap_entriesOf_perm :
    ((entriesOf o addrs d).flatMap (·.2.candidates)).Perm (addressesOf addrs d) :=
  (entriesOf_perm o addrs d).flatMap_right _

theorem candidatesForPeer_eq :
    candidatesForPeer o addrs d = pushNew [] ((entriesOf o addrs d).flatMap (·.2.candidates)) := by
  unfold candidatesForPeer entriesOf
  generalize o.addrs.order addrs.entries = l
  generalize [] = out
  induction l generalizing out with
  | nil => rfl
  | cons e l ih =>
      rw [List.foldl_cons, ih]
      by_cases he : e.2.deviceId = d
      · rw [if_pos he, List.filter_cons_of_pos (by simpa using he), List.flatMap_cons]
        exact (List.foldl_append).symm
      · rw [if_neg he, List.filter_cons_of_neg (by simpa using he)]

/-- The count after some entries. -/
def countFrom (n : UInt32) (l : List (Sigma fun _ : String => PeerAddrEntry)) : UInt32 :=
  l.foldl (fun n e => saturatingAddU32 n (UInt32.ofNat e.2.candidates.length)) n

theorem toNat_countFrom {n : UInt32} {l : List (Sigma fun _ : String => PeerAddrEntry)}
    (h : n.toNat + (l.flatMap (·.2.candidates)).length < 2 ^ 32) :
    (countFrom n l).toNat = n.toNat + (l.flatMap (·.2.candidates)).length := by
  induction l generalizing n with
  | nil => rfl
  | cons e l ih =>
      rw [List.flatMap_cons, List.length_append] at h ⊢
      have hlen : (UInt32.ofNat e.2.candidates.length).toNat = e.2.candidates.length :=
        UInt32.toNat_ofNat_of_lt' (Nat.lt_of_le_of_lt (by omega) h)
      have hsum : (saturatingAddU32 n (UInt32.ofNat e.2.candidates.length)).toNat =
          n.toNat + e.2.candidates.length := by
        rw [saturatingAddU32, if_pos (by rw [hlen]; omega), UInt32.toNat_add, hlen]
        exact Nat.mod_eq_of_lt (by omega)
      show (countFrom (saturatingAddU32 n _) l).toNat = _
      rw [ih (by rw [hsum]; omega), hsum]
      omega

/-- A row that is there keeps its name. -/
theorem foldl_addEntry (names : DeviceNames) (name : String) (n : UInt32)
    (l : List (Sigma fun _ : String => PeerAddrEntry)) :
    l.foldl (fun row e => some (addEntry names row e.2)) (some (name, n)) =
      some (name, countFrom n l) := by
  induction l generalizing n with
  | nil => rfl
  | cons e l ih => exact ih _

theorem lookup_byDevice : (byDevice o peers addrs).lookup d =
    ((entriesOf o addrs d).foldl
      (fun row e => some (addEntry (registryNames o peers) row e.2)) none).or
      (((registryNames o peers).lookup d).map (·, 0)) := by
  unfold byDevice
  dsimp only
  rw [lookup_gather_getD, lookup_gather, AList.lookup_empty, ← o.names.head?_filter,
    Option.map_map]
  rfl

/-- A device without an entry has a row if it has a name. -/
theorem lookup_byDevice_nil (h : entriesOf o addrs d = []) :
    (byDevice o peers addrs).lookup d = ((registryNames o peers).lookup d).map (·, 0) := by
  rw [lookup_byDevice, h]
  rfl

/-- **The first entry of a device names its row, unless the registry does.** -/
theorem lookup_byDevice_cons {e : Sigma fun _ : String => PeerAddrEntry}
    {rest : List (Sigma fun _ : String => PeerAddrEntry)} (h : entriesOf o addrs d = e :: rest) :
    (byDevice o peers addrs).lookup d =
      some (rowName (registryNames o peers) e.2, countFrom 0 (e :: rest)) := by
  rw [lookup_byDevice, h, List.foldl_cons]
  show (rest.foldl _ (some (rowName _ e.2, _))).or _ = _
  rw [foldl_addEntry]
  rfl

end

/-! ## One row for each device -/

section

variable {o : RecordOrder} {peers : PeerRegistry} {addrs : PeerAddrs} {d : DeviceId}

theorem peerRecords_perm : (peerRecords o peers addrs).Perm
    ((byDevice o peers addrs).entries.map fun e => ⟨e.1, e.2.1, e.2.2⟩) :=
  (List.perm_insertionSort _ _).trans ((o.rows.perm _).map _)

theorem mem_peerRecords {row : LanPeerRecord} : row ∈ peerRecords o peers addrs ↔
    (byDevice o peers addrs).lookup row.deviceId = some (row.displayName, row.candidateCount) := by
  rw [peerRecords_perm.mem_iff, List.mem_map]
  constructor
  · rintro ⟨e, he, rfl⟩
    exact AList.mem_lookup_iff.2 he
  · intro h
    exact ⟨⟨row.deviceId, row.displayName, row.candidateCount⟩, AList.mem_lookup_iff.1 h, rfl⟩

theorem deviceIds_perm : ((peerRecords o peers addrs).map (·.deviceId)).Perm
    (byDevice o peers addrs).keys := by
  refine (peerRecords_perm.map _).trans ?_
  rw [List.map_map]
  exact List.Perm.refl _

theorem nodup_deviceIds : ((peerRecords o peers addrs).map (·.deviceId)).Nodup :=
  deviceIds_perm.nodup_iff.2 (byDevice o peers addrs).keys_nodup

/-- There is a row for every device in either map, and for no other. -/
theorem mem_deviceIds : d ∈ (peerRecords o peers addrs).map (·.deviceId) ↔
    (∃ e ∈ peers.entries, e.2.1 = d) ∨ ∃ e ∈ addrs.entries, e.2.deviceId = d := by
  rw [deviceIds_perm.mem_iff, ← AList.mem_keys]
  unfold byDevice
  dsimp only
  rw [mem_gather, mem_gather]
  have hnames : (∃ e ∈ o.names.order (registryNames o peers).entries, e.1 = d) ↔
      ∃ e ∈ peers.entries, e.2.1 = d := by
    rw [← mem_registryNames (o := o), AList.mem_keys]
    simp only [(o.names.perm _).mem_iff]
    exact List.mem_map.symm
  rw [hnames]
  simp only [(o.addrs.perm _).mem_iff]
  constructor
  · rintro ((h | h) | h)
    · exact absurd h (AList.notMem_empty d)
    · exact .inr h
    · exact .inl h
  · rintro (h | h)
    · exact .inr h
    · exact .inl (.inr h)

/-! ## The order of the rows -/

instance : Std.Total LanPeerRecord.Before where
  total a b := by
    rcases lt_trichotomy a.displayName b.displayName with h | h | h
    · exact .inl (.inl h)
    · rcases le_total a.deviceId b.deviceId with hid | hid
      · exact .inl (.inr ⟨h, hid⟩)
      · exact .inr (.inr ⟨h.symm, hid⟩)
    · exact .inr (.inl h)

instance : IsTrans LanPeerRecord LanPeerRecord.Before where
  trans a b c := by
    rintro (hab | ⟨hab, hidab⟩) (hbc | ⟨hbc, hidbc⟩)
    · exact .inl (hab.trans hbc)
    · exact .inl (hbc ▸ hab)
    · exact .inl (hab ▸ hbc)
    · exact .inr ⟨hab.trans hbc, hidab.trans hidbc⟩

/-- Two rows that are level with each other are for one device. -/
theorem LanPeerRecord.Before.deviceId_eq {a b : LanPeerRecord} (hab : a.Before b)
    (hba : b.Before a) : a.deviceId = b.deviceId := by
  rcases hab with hab | ⟨hab, hidab⟩
  · rcases hba with hba | ⟨hba, -⟩
    · exact absurd (hab.trans hba) (lt_irrefl _)
    · exact absurd hab (hba ▸ lt_irrefl _)
  · rcases hba with hba | ⟨-, hidba⟩
    · exact absurd hba (hab ▸ lt_irrefl _)
    · exact le_antisymm hidab hidba

/-- The same rows in the maps give the same list. -/
theorem peerRecords_eq {o' : RecordOrder}
    (h : ∀ d, (byDevice o peers addrs).lookup d = (byDevice o' peers addrs).lookup d) :
    peerRecords o peers addrs = peerRecords o' peers addrs := by
  have hentries : (byDevice o peers addrs).entries.Perm (byDevice o' peers addrs).entries :=
    List.lookup_ext (AList.nodupKeys _) (AList.nodupKeys _) fun d row => by
      show _ ∈ (byDevice o peers addrs).lookup d ↔ _ ∈ (byDevice o' peers addrs).lookup d
      rw [h]
  have hperm := ((o.rows.perm _).trans (hentries.trans (o'.rows.perm _).symm)).map
    fun e => (⟨e.1, e.2.1, e.2.2⟩ : LanPeerRecord)
  refine hperm.insertionSort_eq fun a ha b hb hab hba => ?_
  have hmem : ∀ row, row ∈ (o.rows.order (byDevice o peers addrs).entries).map
      (fun e => (⟨e.1, e.2.1, e.2.2⟩ : LanPeerRecord)) → row ∈ peerRecords o peers addrs :=
    fun row hrow => (List.mem_insertionSort _).2 hrow
  exact List.inj_on_of_nodup_map nodup_deviceIds (hmem a ha) (hmem b hb) (hab.deviceId_eq hba)

end

/-! ## A function of the contents -/

/-- What is shown is determined by what the two maps hold. -/
structure FunctionOfContents (peers : PeerRegistry) (addrs : PeerAddrs) : Prop where
  nodup : ∀ o, ((peerRecords o peers addrs).map (·.deviceId)).Nodup
  rows : ∀ o d, d ∈ (peerRecords o peers addrs).map (·.deviceId) ↔
    (∃ e ∈ peers.entries, e.2.1 = d) ∨ ∃ e ∈ addrs.entries, e.2.deviceId = d
  sorted : ∀ o, (peerRecords o peers addrs).Pairwise LanPeerRecord.Before
  order : ∀ o o', peerRecords o peers addrs = peerRecords o' peers addrs
  counts : ∀ o o', ∀ row ∈ peerRecords o peers addrs,
    row.candidateCount.toNat = (candidatesForPeer o' addrs row.deviceId).length

/-- The entries of a device without a session agree on its name. -/
def SameNames (peers : PeerRegistry) (addrs : PeerAddrs) : Prop :=
  ∀ e ∈ addrs.entries, ∀ e' ∈ addrs.entries, e.2.deviceId = e'.2.deviceId →
    (∀ session ∈ peers.entries, session.2.1 ≠ e.2.deviceId) →
    fallbackName e.2 = fallbackName e'.2

/-- The messages that the entries come from hold fewer addresses than 32 bits can count. -/
def FitsCount (addrs : PeerAddrs) : Prop := ∀ d, (addressesOf addrs d).length < 2 ^ 32

section

variable {o : RecordOrder} {peers : PeerRegistry} {addrs : PeerAddrs} {d : DeviceId}

theorem mem_of_entriesOf {e : Sigma fun _ : String => PeerAddrEntry}
    {rest : List (Sigma fun _ : String => PeerAddrEntry)} (h : entriesOf o addrs d = e :: rest) :
    e ∈ addrs.entries ∧ e.2.deviceId = d := by
  have hmem := (entriesOf_perm o addrs d).mem_iff.1 (h ▸ List.mem_cons_self)
  exact ⟨(List.mem_filter.1 hmem).1, of_decide_eq_true (List.mem_filter.1 hmem).2⟩

theorem toNat_count (hfits : FitsCount addrs) :
    (countFrom 0 (entriesOf o addrs d)).toNat = (addressesOf addrs d).length := by
  have hlength := (flatMap_entriesOf_perm o addrs d).length_eq
  rw [toNat_countFrom (by rw [hlength]; exact (Nat.zero_add _).symm ▸ hfits d), hlength]
  exact Nat.zero_add _

/-- A row counts every address as often as it is in there. -/
theorem count_of_mem (hfits : FitsCount addrs) {row : LanPeerRecord}
    (hrow : row ∈ peerRecords o peers addrs) :
    row.candidateCount.toNat = (addressesOf addrs row.deviceId).length := by
  rw [mem_peerRecords] at hrow
  cases hmine : entriesOf o addrs row.deviceId with
  | nil =>
      rw [lookup_byDevice_nil o peers addrs _ hmine, Option.map_eq_some_iff] at hrow
      obtain ⟨name, -, hrow⟩ := hrow
      have hcount : row.candidateCount = 0 := (congrArg Prod.snd hrow).symm
      have hlength := (flatMap_entriesOf_perm o addrs row.deviceId).length_eq
      rw [hcount, ← hlength, hmine]
      rfl
  | cons e rest =>
      rw [lookup_byDevice_cons o peers addrs _ hmine, Option.some.injEq] at hrow
      have hcount : row.candidateCount = countFrom 0 (e :: rest) := (congrArg Prod.snd hrow).symm
      rw [hcount, ← hmine, toNat_count hfits]

theorem length_candidatesForPeer :
    (candidatesForPeer o addrs d).length = (addressesOf addrs d).length ↔
      (addressesOf addrs d).Nodup := by
  have hperm := flatMap_entriesOf_perm o addrs d
  rw [candidatesForPeer_eq, ← hperm.length_eq, length_pushNew_iff, hperm.nodup_iff]

/-- Where the entries agree on the names, so do the rows. -/
theorem order_of_sameNames (hfits : FitsCount addrs) (hnames : SameNames peers addrs)
    (o o' : RecordOrder) : peerRecords o peers addrs = peerRecords o' peers addrs := by
  apply peerRecords_eq
  intro d
  have hperm := (entriesOf_perm o addrs d).trans (entriesOf_perm o' addrs d).symm
  cases hmine : entriesOf o addrs d with
  | nil =>
      rw [lookup_byDevice_nil o peers addrs d hmine,
        lookup_byDevice_nil o' peers addrs d (hmine ▸ hperm).nil_eq.symm, registryNames_eq o o']
  | cons e rest =>
      cases hmine' : entriesOf o' addrs d with
      | nil => exact absurd ((hmine ▸ hmine' ▸ hperm).eq_nil) (List.cons_ne_nil _ _)
      | cons e' rest' =>
          rw [lookup_byDevice_cons o peers addrs d hmine,
            lookup_byDevice_cons o' peers addrs d hmine', registryNames_eq o o']
          obtain ⟨he, hd⟩ := mem_of_entriesOf hmine
          obtain ⟨he', hd'⟩ := mem_of_entriesOf hmine'
          have hname : rowName (registryNames o' peers) e.2 =
              rowName (registryNames o' peers) e'.2 := by
            unfold rowName
            rw [hd, hd']
            cases hlookup : (registryNames o' peers).lookup d with
            | some name => rfl
            | none =>
                refine hnames e he e' he' (hd.trans hd'.symm) fun session hsession heq => ?_
                have hmem : d ∈ registryNames o' peers :=
                  mem_registryNames.2 ⟨session, hsession, heq.trans hd⟩
                exact AList.lookup_eq_none.1 hlookup hmem
          have hcount : countFrom 0 (e :: rest) = countFrom 0 (e' :: rest') := by
            apply UInt32.toNat_inj.1
            rw [← hmine, ← hmine', toNat_count hfits, toNat_count hfits]
          rw [hname, hcount]

/-- Where the order does not matter, any two entries agree: each of them may come first. -/
theorem sameNames_of_order
    (horder : ∀ o o', peerRecords o peers addrs = peerRecords o' peers addrs) :
    SameNames peers addrs := by
  intro e he e' he' hdevice hnone
  have hrow : ∀ e ∈ addrs.entries,
      (∀ session ∈ peers.entries, session.2.1 ≠ e.2.deviceId) →
      ∃ n, (byDevice (.first e) peers addrs).lookup e.2.deviceId =
        some (fallbackName e.2, n) := by
    intro e he hnone
    have hmine : entriesOf (.first e) addrs e.2.deviceId =
        e :: (addrs.entries.erase e).filter (·.2.deviceId = e.2.deviceId) := by
      show ((Visit.first e).order addrs.entries).filter _ = _
      rw [Visit.order_first he, List.filter_cons_of_pos (by simp)]
    have hlookup : (registryNames (.first e) peers).lookup e.2.deviceId = none := by
      rw [AList.lookup_eq_none, mem_registryNames]
      rintro ⟨session, hsession, heq⟩
      exact hnone session hsession heq
    have hname : rowName (registryNames (.first e) peers) e.2 = fallbackName e.2 := by
      rw [rowName, hlookup]
      rfl
    exact ⟨_, hname ▸ lookup_byDevice_cons _ peers addrs _ hmine⟩
  obtain ⟨n, hn⟩ := hrow e he hnone
  obtain ⟨n', hn'⟩ := hrow e' he' (hdevice ▸ hnone)
  have hmem : (⟨e.2.deviceId, fallbackName e.2, n⟩ : LanPeerRecord) ∈
      peerRecords (.first e) peers addrs := mem_peerRecords.2 hn
  rw [horder (.first e) (.first e'), mem_peerRecords] at hmem
  dsimp only at hmem
  rw [hdevice, hn', Option.some.injEq, Prod.mk.injEq] at hmem
  exact hmem.1.symm

end

/-- **The records are a function of the contents of the maps exactly if the entries of a device
without a session agree on its name, and no address of a device is in there twice.** -/
theorem functionOfContents_iff (peers : PeerRegistry) (addrs : PeerAddrs)
    (hfits : FitsCount addrs) :
    FunctionOfContents peers addrs ↔
      SameNames peers addrs ∧ ∀ d, (addressesOf addrs d).Nodup := by
  constructor
  · intro h
    refine ⟨sameNames_of_order h.order, fun d => ?_⟩
    cases hmine : addrs.entries.filter (·.2.deviceId = d) with
    | nil =>
        rw [addressesOf, hmine]
        exact List.nodup_nil
    | cons e rest =>
        have he : e ∈ addrs.entries ∧ e.2.deviceId = d := mem_of_entriesOf (o := .asStored) hmine
        obtain ⟨row, hrow, hd⟩ := List.mem_map.1 ((h.rows .asStored d).2 (.inr ⟨e, he⟩))
        rw [← length_candidatesForPeer (o := .asStored), ← hd,
          ← h.counts .asStored .asStored row hrow, count_of_mem hfits hrow]
  · rintro ⟨hnames, hnodup⟩
    refine ⟨fun o => nodup_deviceIds, fun o d => mem_deviceIds,
      fun o => List.pairwise_insertionSort _ _, order_of_sameNames hfits hnames,
      fun o o' row hrow => ?_⟩
    rw [count_of_mem hfits hrow, length_candidatesForPeer.2 (hnodup row.deviceId)]

/-! ### A device that both mDNS and the relay tell of -/

theorem fitsCount_of_total {addrs : PeerAddrs}
    (h : (addrs.entries.flatMap (·.2.candidates)).length < 2 ^ 32) : FitsCount addrs := by
  intro d
  exact Nat.lt_of_le_of_lt (List.filter_sublist.flatMap _).length_le h

def laptopAddr : SocketAddr := ⟨.v4 0xc0a80102, 5000, 0⟩

def mdnsEntry : Sigma fun _ : String => PeerAddrEntry :=
  ⟨"b-01020304._clipbridge._tcp.local.", ⟨"b", none, [laptopAddr]⟩⟩

def relayEntry : Sigma fun _ : String => PeerAddrEntry :=
  ⟨relayKey "b", ⟨"b", some "Laptop", [laptopAddr]⟩⟩

def laptopAddrs : PeerAddrs :=
  ((∅ : PeerAddrs).insert relayEntry.1 relayEntry.2).insert mdnsEntry.1 mdnsEntry.2

theorem functionOfContents_laptop :
    FunctionOfContents ∅ laptopAddrs ↔
      SameNames ∅ laptopAddrs ∧ ∀ d, (addressesOf laptopAddrs d).Nodup :=
  functionOfContents_iff ∅ laptopAddrs (fitsCount_of_total (by decide))

theorem laptop_two_names : ¬ ∀ peers addrs, FunctionOfContents peers addrs := by
  intro h
  have hname := sameNames_of_order (h ∅ laptopAddrs).order mdnsEntry
    (by decide) relayEntry (by decide) rfl (by simp)
  exact absurd hname (by decide)

end ClipBridge
