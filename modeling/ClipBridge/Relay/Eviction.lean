import ClipBridge.Lib.FittingSuffix
import ClipBridge.Relay.BlobStore

/-!
# What a put leaves in the blob store

`put` in `relay/src/blob.rs` sweeps what has expired, evicts the oldest entries until the body fits
into the budget, and inserts it. A key that is there already is left alone, expired or not.

* `put_readable_iff` — a put that was accepted can be read back exactly if no expired entry was
  in its way.
* `InMemory` — what is stored and what comes in are held in memory at once.
* `evictOldest_perm` — the loop leaves the longest suffix, by age, that has room for the body.
* `EvictsOldest` — no more is evicted than has to be, and the oldest entries first.
* `put_evicts_oldest` — that is what every put does that is accepted.
-/

namespace ClipBridge.Relay

namespace BlobStore

/-! ## Reading a put back -/

theorem not_expired_self {ttl : Duration} (httl : 0 < ttl) (t : Instant) (bytes : Bytes) :
    BlobEntry.expired ttl t ⟨t, bytes⟩ = false := by
  have hpos : ¬ ttl = 0 := Nat.ne_of_gt httl
  simpa [BlobEntry.expired, Instant.durationSince] using hpos

section

variable [Sha256]

/-- What an accepted put has checked. -/
theorem put_eq_ok {s : BlobStore} {key : BlobKey} {body : Bytes} {now insertedAt : Instant}
    {it : Iteration} (h : (s.put key body now insertedAt it).1 = .ok ()) :
    body.length ≤ s.maxBlobBytes.toNat ∧ sha256Hex body = key.sha256Hex := by
  unfold put at h
  split at h
  · cases h
  · rename_i hmax
    split at h
    · cases h
    · rename_i hsha
      exact ⟨Nat.not_lt.1 hmax, not_not.1 hsha⟩

/-- A key that is there is left alone. -/
theorem put_of_mem {s : BlobStore} {key : BlobKey} {body : Bytes} {now insertedAt : Instant}
    {it : Iteration} (h : (s.put key body now insertedAt it).1 = .ok ()) (hkey : key ∈ s.inner) :
    (s.put key body now insertedAt it).2 = s := by
  obtain ⟨hmax, hsha⟩ := put_eq_ok h
  unfold put
  rw [if_neg (Nat.not_lt.2 hmax), if_neg (not_not.2 hsha), if_pos hkey]

/-- A put that is refused changes nothing. -/
theorem put_refused {s : BlobStore} {key : BlobKey} {body : Bytes} {now insertedAt : Instant}
    {it : Iteration} (h : (s.put key body now insertedAt it).1 ≠ .ok ()) :
    (s.put key body now insertedAt it).2 = s := by
  unfold put at h ⊢
  split
  · rfl
  · rename_i hmax
    rw [if_neg hmax] at h
    split
    · rfl
    · rename_i hsha
      rw [if_neg hsha] at h
      split
      · rfl
      · rename_i hkey
        rw [if_neg hkey] at h
        dsimp only at h
        split at h <;> exact absurd rfl h

/-- **A put that is accepted at a time can be read back at that time exactly if the key was absent,
or its entry has not expired and holds the same bytes.** -/
theorem put_readable_iff {s : BlobStore} (httl : 0 < s.ttl) {key : BlobKey} {body : Bytes}
    {t : Instant} {it : Iteration} (hput : (s.put key body t t it).1 = .ok ()) :
    ((s.put key body t t it).2.get key t).1 = some body ↔
      ∀ e, s.inner.lookup key = some e → e.expired s.ttl t = false ∧ e.bytes = body := by
  by_cases hkey : key ∈ s.inner
  · obtain ⟨e, hlookup⟩ := Option.isSome_iff_exists.1 (AList.lookup_isSome.2 hkey)
    rw [put_of_mem hput hkey]
    unfold get
    rw [hlookup]
    cases hexpired : e.expired s.ttl t <;> simp [hexpired]
  · have hnone : s.inner.lookup key = none := AList.lookup_eq_none.2 hkey
    obtain ⟨hmax, hsha⟩ := put_eq_ok hput
    have hlimits := sameLimits_evictUntilRoomFor it t s (UInt64.ofNat body.length)
    rw [put_inserts hmax hsha hkey]
    unfold get
    dsimp only
    rw [AList.lookup_insert, hlimits.ttl]
    simp [not_expired_self httl, hnone]

end

/-! ### A put over an expired entry -/

def abc : Bytes := [0x61, 0x62, 0x63]

def abcKey : BlobKey := ⟨"g", @sha256Hex abcSha256 abc⟩

/-- Every entry lives for ten milliseconds, and is stored once. -/
def abcStored : BlobStore := @run abcSha256 (new 8 10 3) [.put abcKey abc 0 0 asStored]

theorem put_readable_abc :
    ((@put abcSha256 abcStored abcKey abc 5 5 asStored).2.get abcKey 5).1 = some abc ↔
      ∀ e, abcStored.inner.lookup abcKey = some e → e.expired abcStored.ttl 5 = false ∧
        e.bytes = abc :=
  @put_readable_iff abcSha256 abcStored (by decide) abcKey abc 5 asStored (by decide +kernel)

theorem put_over_expired :
    ¬ ∀ (_ : Sha256) (budgetBytes maxBlobBytes : UInt64) (ttl : Duration) (calls : List BlobCall)
        (key : BlobKey) (body : Bytes) (t : Instant) (it : Iteration),
      let s := run (new budgetBytes ttl maxBlobBytes) calls
      0 < ttl → (s.put key body t t it).1 = .ok () →
        ((s.put key body t t it).2.get key t).1 = some body := by
  intro h
  have hgone : ((@put abcSha256 abcStored abcKey abc 10 10 asStored).2.get abcKey 10).1 = none := by
    decide +kernel
  have hread := h abcSha256 8 3 10 [.put abcKey abc 0 0 asStored] abcKey abc 10 asStored
    (by decide) (by decide +kernel)
  cases hgone.symm.trans hread

/-! ## The counter -/

/-- The counter is the number of bytes that are there, as far as 64 bits tell. -/
def Counted (s : BlobStore) : Prop := s.totalBytes = UInt64.ofNat s.inner.storedBytes

theorem Counted.balanced {s : BlobStore} (hs : Counted s) (hmem : s.inner.storedBytes < 2 ^ 64) :
    Balanced s := by
  show s.totalBytes.toNat = s.inner.storedBytes
  rw [show s.totalBytes = _ from hs, UInt64.toNat_ofNat_of_lt' hmem]

theorem counted_remove (s : BlobStore) (key : BlobKey) (hs : Counted s) :
    Counted (s.remove key) := by
  cases hlookup : s.inner.lookup key with
  | none =>
      have hsame : s.remove key = s := by simp only [remove, hlookup]
      rwa [hsame]
  | some entry =>
      have hstored : s.inner.storedBytes =
          entry.bytes.length + (s.remove key).inner.storedBytes := by
        rw [remove_inner]
        exact AList.weight_of_lookup hlookup
      have htotal : (s.remove key).totalBytes =
          s.totalBytes - UInt64.ofNat entry.bytes.length := by
        simp only [remove, hlookup]
      show (s.remove key).totalBytes = _
      rw [htotal, show s.totalBytes = _ from hs, hstored, UInt64.ofNat_add,
        UInt64.add_comm, UInt64.add_sub_cancel]

section

variable [Sha256]

theorem counted_step (s : BlobStore) (call : BlobCall) (hs : Counted s) :
    Counted (s.step call) := by
  cases call with
  | get key now =>
      show Counted (s.get key now).2
      unfold get
      split
      · exact hs
      · split
        · exact counted_remove s key hs
        · exact hs
  | put key body now insertedAt it =>
      show Counted (s.put key body now insertedAt it).2
      by_cases hok : (s.put key body now insertedAt it).1 = .ok ()
      · by_cases hkey : key ∈ s.inner
        · rwa [put_of_mem hok hkey]
        · obtain ⟨hmax, hsha⟩ := put_eq_ok hok
          have hshrinks := shrinks_evictUntilRoomFor it now s (UInt64.ofNat body.length)
          have hevicted := evictUntilRoomFor_keeps counted_remove it now
            (UInt64.ofNat body.length) hs
          have hfresh := hshrinks.fresh key (AList.lookup_eq_none.2 hkey)
          rw [put_inserts hmax hsha hkey]
          generalize evictUntilRoomFor it now s (UInt64.ofNat body.length) = evicted
            at hevicted hfresh ⊢
          show evicted.totalBytes + _ =
            UInt64.ofNat (AList.weight _ (evicted.inner.insert key ⟨insertedAt, body⟩))
          rw [AList.weight_insert, AList.erase_of_lookup_none hfresh,
            show evicted.totalBytes = _ from hevicted, UInt64.ofNat_add]
          exact UInt64.add_comm _ _
      · rwa [put_refused hok]

theorem counted_run (budgetBytes : UInt64) (ttl : Duration) (maxBlobBytes : UInt64)
    (calls : List BlobCall) : Counted (run (new budgetBytes ttl maxBlobBytes) calls) := by
  have hnew : Counted (new budgetBytes ttl maxBlobBytes) := rfl
  exact Machine.invariant_run counted_step hnew calls

end

/-! ## The loop, by age -/

abbrev KeyedEntry := Sigma fun _ : BlobKey => BlobEntry

def entryBytes (entries : List KeyedEntry) : Nat := (entries.map (·.2.bytes.length)).sum

/-- Beside these entries, a body of that length is within the budget. -/
def RoomFor (budget len : Nat) (entries : List KeyedEntry) : Prop :=
  entryBytes entries + len ≤ budget

instance (budget len : Nat) (entries : List KeyedEntry) : Decidable (RoomFor budget len entries) :=
  inferInstanceAs (Decidable (_ ≤ _))

theorem hereditary_roomFor {budget len : Nat} (h : len ≤ budget) :
    List.Hereditary (RoomFor budget len) where
  nil := by
    show 0 + len ≤ budget
    omega
  sublist hsub hroom :=
    (Nat.add_le_add_right ((hsub.map _).sum_le_sum fun _ _ => Nat.zero_le _) len).trans hroom

/-- From the oldest to the newest. -/
def ByAge (entries : List KeyedEntry) : Prop :=
  entries.Pairwise fun a b => a.2.insertedAt < b.2.insertedAt

theorem storedBytes_of_perm {inner : Blobs} {entries : List KeyedEntry}
    (h : inner.entries.Perm entries) : inner.storedBytes = entryBytes entries :=
  (h.map _).sum_eq

/-- Whatever order an iteration takes, it finds the oldest entry. -/
theorem oldestKey_of_byAge (it : Iteration) {inner : Blobs} {e : KeyedEntry}
    {entries : List KeyedEntry} (h : inner.entries.Perm (e :: entries))
    (hage : ByAge (e :: entries)) :
    oldestKey it inner = some e.1 := by
  have hperm := (it.perm inner.entries).trans h
  have hmem : e ∈ it.order inner.entries := hperm.mem_iff.2 List.mem_cons_self
  cases hmin : (it.order inner.entries).argmin (·.2.insertedAt) with
  | none =>
      rw [List.argmin_eq_none] at hmin
      rw [hmin] at hmem
      cases hmem
  | some m =>
      have hle : m.2.insertedAt ≤ e.2.insertedAt :=
        List.le_of_mem_argmin (f := fun e : KeyedEntry => e.2.insertedAt) hmem hmin
      have hm : m = e := by
        rcases List.mem_cons.1 (hperm.mem_iff.1 (List.argmin_mem hmin)) with rfl | hlater
        · rfl
        · exact absurd ((List.pairwise_cons.1 hage).1 m hlater) (Nat.not_lt.2 hle)
      rw [oldestKey, hmin, hm]
      rfl

theorem remove_perm {s : BlobStore} {e : KeyedEntry} {entries : List KeyedEntry}
    (h : s.inner.entries.Perm (e :: entries)) : (s.remove e.1).inner.entries.Perm entries := by
  have hhead : List.kerase e.1 (e :: entries) = entries := List.kerase_cons_eq rfl
  rw [remove_inner]
  exact hhead ▸ h.kerase s.inner.nodupKeys

/-- **The loop leaves the longest suffix, by age, that has room for the body.** -/
theorem evictOldest_perm (it : Iteration) {incoming : UInt64} {turns : Nat} {s : BlobStore}
    {entries : List KeyedEntry} (hs : Balanced s) (hperm : s.inner.entries.Perm entries)
    (hage : ByAge entries) (hbudget : incoming ≤ s.budgetBytes)
    (hmem : entryBytes entries + incoming.toNat < 2 ^ 64) (hturns : entries.length ≤ turns) :
    (evictOldest it incoming turns s).inner.entries.Perm
      (List.fittingSuffix (RoomFor s.budgetBytes.toNat incoming.toNat) entries) := by
  have htotal : s.totalBytes.toNat = entryBytes entries := hs.trans (storedBytes_of_perm hperm)
  -- The loop goes on while there is no room.
  have hroom : s.totalBytes + incoming ≤ s.budgetBytes ↔
      RoomFor s.budgetBytes.toNat incoming.toNat entries := by
    rw [UInt64.le_iff_toNat_le, toNat_add_of_lt (by omega), htotal]
    rfl
  induction entries generalizing turns s with
  | nil =>
      have hfits : RoomFor s.budgetBytes.toNat incoming.toNat [] :=
        (hereditary_roomFor (UInt64.le_iff_toNat_le.1 hbudget)).nil
      rw [evictOldest_of_room it (hroom.2 hfits)]
      exact hperm
  | cons e entries ih =>
      by_cases hfits : RoomFor s.budgetBytes.toNat incoming.toNat (e :: entries)
      · rw [evictOldest_of_room it (hroom.2 hfits), List.fittingSuffix_cons_of_fits hfits]
        exact hperm
      · cases turns with
        | zero => exact absurd hturns (Nat.not_succ_le_zero _)
        | succ turns =>
            have hlimits := sameLimits_remove s e.1
            have hrest := remove_perm hperm
            have hs' := (shrinks_remove s e.1).balanced hs
            have hmem' : entryBytes entries + incoming.toNat < 2 ^ 64 := by
              have hle : entryBytes entries ≤ entryBytes (e :: entries) := Nat.le_add_left _ _
              omega
            have htotal' : (s.remove e.1).totalBytes.toNat = entryBytes entries :=
              hs'.trans (storedBytes_of_perm hrest)
            have hstep := @ih turns _ hs' hrest (List.pairwise_cons.1 hage).2
              (hlimits.budget.symm ▸ hbudget) hmem' (Nat.le_of_succ_le_succ hturns) htotal' (by
                rw [UInt64.le_iff_toNat_le, toNat_add_of_lt (by omega), htotal']
                rfl)
            rw [hlimits.budget] at hstep
            rw [evictOldest, if_pos (UInt64.not_le.1 (mt hroom.1 hfits)),
              oldestKey_of_byAge it hperm hage, List.fittingSuffix_cons_of_not_fits hfits]
            exact hstep

/-! ## What a put evicts -/

/-- The entries that have not expired. -/
def live (s : BlobStore) (now : Instant) : List KeyedEntry :=
  s.inner.entries.filter fun e => !e.2.expired s.ttl now

def liveByAge (s : BlobStore) (now : Instant) : List KeyedEntry :=
  (s.live now).mergeSort fun a b => decide (a.2.insertedAt ≤ b.2.insertedAt)

/-- From `s` to `s'` all that has expired goes, and of the rest the shortest prefix by age without
which the body fits. -/
def EvictsOldest (s s' : BlobStore) (key : BlobKey) (body : Bytes) (now : Instant) : Prop :=
  ∃ evicted kept, s.liveByAge now = evicted ++ kept ∧
    (s'.inner.erase key).entries.Perm kept ∧
    RoomFor s.budgetBytes.toNat body.length kept ∧
    ∀ evicted' kept', s.liveByAge now = evicted' ++ kept' →
      RoomFor s.budgetBytes.toNat body.length kept' → evicted.length ≤ evicted'.length

theorem byAge_liveByAge {s : BlobStore} (hdistinct : (s.inner.entries.map (·.2.insertedAt)).Nodup)
    (now : Instant) : ByAge (s.liveByAge now) := by
  have hsorted : (s.liveByAge now).Pairwise fun a b => a.2.insertedAt ≤ b.2.insertedAt := by
    have htrans : ∀ a b c : KeyedEntry, decide (a.2.insertedAt ≤ b.2.insertedAt) = true →
        decide (b.2.insertedAt ≤ c.2.insertedAt) = true →
        decide (a.2.insertedAt ≤ c.2.insertedAt) = true := by
      intro a b c hab hbc
      exact decide_eq_true ((of_decide_eq_true hab).trans (of_decide_eq_true hbc))
    have htotal : ∀ a b : KeyedEntry, (decide (a.2.insertedAt ≤ b.2.insertedAt) ||
        decide (b.2.insertedAt ≤ a.2.insertedAt)) = true := by
      intro a b
      simpa using le_total a.2.insertedAt b.2.insertedAt
    exact (List.pairwise_mergeSort htrans htotal (s.live now)).imp of_decide_eq_true
  have hne : (s.liveByAge now).Pairwise fun a b => a.2.insertedAt ≠ b.2.insertedAt := by
    have hlive : ((s.live now).map (·.2.insertedAt)).Nodup :=
      hdistinct.sublist (List.filter_sublist.map _)
    have hperm := (List.mergeSort_perm (s.live now)
      fun a b => decide (a.2.insertedAt ≤ b.2.insertedAt)).map (·.2.insertedAt)
    exact List.pairwise_map.1 (hperm.nodup_iff.2 hlive)
  exact (hsorted.and hne).imp fun h => lt_of_le_of_ne h.1 h.2

/-- The sweep leaves what has not expired. -/
theorem entries_swept (it : Iteration) (now : Instant) (s : BlobStore) :
    ((expiredKeys it s.ttl now s.inner).foldl remove s).inner.entries.Perm (s.live now) := by
  rw [foldl_remove_inner]
  have hnodup : (s.live now).NodupKeys := s.inner.nodupKeys.sublist List.filter_sublist
  refine List.lookup_ext (AList.nodupKeys _) hnodup fun key e => ?_
  show _ = _ ↔ _
  rw [show List.dlookup key (AList.entries _) = AList.lookup key _ from rfl,
    AList.lookup_foldl_erase, List.mem_dlookup_iff hnodup, live, List.mem_filter,
    ← AList.mem_lookup_iff]
  constructor
  · intro h
    split at h
    · cases h
    · rename_i hkey
      refine ⟨h, ?_⟩
      have hfresh : e.expired s.ttl now ≠ true := fun hexp => hkey (mem_expiredKeys.2 ⟨e, h, hexp⟩)
      simpa using hfresh
  · rintro ⟨hlookup, hfresh⟩
    have hlookup' : s.inner.lookup key = some e := hlookup
    rw [if_neg fun hkey => ?_]
    · exact hlookup'
    · obtain ⟨e', he', hexpired⟩ := mem_expiredKeys.1 hkey
      rw [hlookup', Option.some.injEq] at he'
      rw [he', hexpired] at hfresh
      cases hfresh

/-- What both loops leave: the longest suffix by age of what has not expired that has room for the
body. -/
theorem evictUntilRoomFor_perm {s : BlobStore} (hs : Balanced s)
    (hdistinct : (s.inner.entries.map (·.2.insertedAt)).Nodup) (it : Iteration) (now : Instant)
    {incoming : UInt64} (hbudget : incoming ≤ s.budgetBytes)
    (hmem : s.inner.storedBytes + incoming.toNat < 2 ^ 64) :
    (evictUntilRoomFor it now s incoming).inner.entries.Perm
      (List.fittingSuffix (RoomFor s.budgetBytes.toNat incoming.toNat) (s.liveByAge now)) := by
  have hswept := entries_swept it now s
  have hshrinks := shrinks_foldl_remove (expiredKeys it s.ttl now s.inner) s
  unfold evictUntilRoomFor
  dsimp only
  generalize (expiredKeys it s.ttl now s.inner).foldl remove s = swept at hswept hshrinks ⊢
  have hperm : swept.inner.entries.Perm (s.liveByAge now) :=
    hswept.trans (List.mergeSort_perm _ _).symm
  have hstored := storedBytes_of_perm hperm
  have hle := hshrinks.stored
  have hbound : entryBytes (s.liveByAge now) + incoming.toNat < 2 ^ 64 := by omega
  have hloop := evictOldest_perm it (hshrinks.balanced hs) hperm
    (byAge_liveByAge hdistinct now) (hshrinks.budget.symm ▸ hbudget) hbound hperm.length_eq.ge
  rwa [hshrinks.budget] at hloop

section

variable [Sha256]

/-- What is stored and the body that comes in are in memory at once, and addresses are 64 bits
wide. -/
def InMemory (s : BlobStore) (body : Bytes) : Prop := s.inner.storedBytes + body.length < 2 ^ 64

/-- **In every state that calls lead to, a put of an absent key that is accepted evicts what has
expired and then, by age, no more than it has to; one that is refused evicts nothing.** -/
theorem put_evicts_oldest (budgetBytes : UInt64) (ttl : Duration) (maxBlobBytes : UInt64)
    (calls : List BlobCall) (key : BlobKey) (body : Bytes) (now insertedAt : Instant)
    (it : Iteration)
    (hdistinct : ((run (new budgetBytes ttl maxBlobBytes) calls).inner.entries.map
      (·.2.insertedAt)).Nodup)
    (hkey : key ∉ (run (new budgetBytes ttl maxBlobBytes) calls).inner)
    (hbudget : body.length ≤ budgetBytes.toNat)
    (hmem : InMemory (run (new budgetBytes ttl maxBlobBytes) calls) body) :
    let s := run (new budgetBytes ttl maxBlobBytes) calls
    let result := s.put key body now insertedAt it
    (result.1 = .ok () → EvictsOldest s result.2 key body now) ∧
      (result.1 ≠ .ok () → result.2 = s) := by
  intro s result
  refine ⟨fun hok => ?_, fun herr => put_refused herr⟩
  have hlimits : s.budgetBytes = budgetBytes := (sameLimits_run _ calls).budget
  have hbalanced : Balanced s :=
    (counted_run budgetBytes ttl maxBlobBytes calls).balanced
      (Nat.lt_of_le_of_lt (Nat.le_add_right _ _) hmem)
  have hlen : (UInt64.ofNat body.length).toNat = body.length :=
    UInt64.toNat_ofNat_of_lt' (Nat.lt_of_le_of_lt hbudget budgetBytes.toNat_lt)
  obtain ⟨hmax, hsha⟩ := put_eq_ok hok
  have hperm : (evictUntilRoomFor it now s (UInt64.ofNat body.length)).inner.entries.Perm
      (List.fittingSuffix (RoomFor s.budgetBytes.toNat body.length) (s.liveByAge now)) := by
    have hle : UInt64.ofNat body.length ≤ s.budgetBytes := by
      rw [UInt64.le_iff_toNat_le, hlen, hlimits]
      exact hbudget
    have hevicted := evictUntilRoomFor_perm hbalanced hdistinct it now hle (hlen.symm ▸ hmem)
    rwa [hlen] at hevicted
  have hfits : List.Hereditary (RoomFor s.budgetBytes.toNat body.length) :=
    hereditary_roomFor (hlimits ▸ hbudget)
  have hsuffix : List.fittingSuffix (RoomFor s.budgetBytes.toNat body.length) (s.liveByAge now) <:+
    s.liveByAge now := List.fittingSuffix_suffix _
  obtain ⟨evicted, hlive⟩ := hsuffix
  refine ⟨evicted, _, hlive.symm, ?_, hfits.fits_fittingSuffix _, fun evicted' kept' h hroom => ?_⟩
  · -- The body itself is the only entry that came in.
    have hfresh : (evictUntilRoomFor it now s (UInt64.ofNat body.length)).inner.lookup key = none :=
      (shrinks_evictUntilRoomFor it now s _).fresh key (AList.lookup_eq_none.2 hkey)
    have hout : ∀ m : Blobs, m.lookup key = none →
        (AList.erase key (m.insert key ⟨insertedAt, body⟩)).entries = m.entries := by
      intro m hm
      show List.kerase key (m.insert key ⟨insertedAt, body⟩).entries = m.entries
      have habsent := List.kerase_of_notMem_keys (AList.lookup_eq_none.1 hm)
      have hhead : List.kerase key (⟨key, ⟨insertedAt, body⟩⟩ :: m.entries) = m.entries :=
        List.kerase_cons_eq rfl
      rw [AList.entries_insert, habsent, hhead]
    show (AList.erase key (s.put key body now insertedAt it).2.inner).entries.Perm _
    rw [put_inserts hmax hsha hkey]
    dsimp only
    rw [hout _ hfresh]
    exact hperm
  · have hlonger := List.suffix_fittingSuffix ⟨evicted', h.symm⟩ hroom
    have hsum := congrArg List.length (hlive.trans h)
    rw [List.length_append, List.length_append] at hsum
    have := hlonger.length_le
    omega

end

/-! ### A body that evicts, and one that is refused -/

@[reducible] def twoSha256 : Sha256 :=
  tableSha256
    [(abc, 0xba7816bf8f01cfea414140de5dae2223b00361a396177a9cb410ff61f20015ad),
      ([1, 2, 3, 4, 5], 0x74f81fe167d99b4cb41d6d0ccda82278caee9f3e2f25d5e5a3936ff3dcec60d0)]

def twoKey (groupId : String) (body : Bytes) : BlobKey := ⟨groupId, @sha256Hex twoSha256 body⟩

/-- Three groups store a body each. -/
def threeStored : List BlobCall :=
  [.put (twoKey "f" abc) abc 0 0 asStored, .put (twoKey "g" abc) abc 7 7 asStored,
    .put (twoKey "h" abc) abc 9 9 asStored]

/-- The first one has expired when a longer body comes, the second one is evicted, and the third one
stays. -/
theorem put_evicts_oldest_threeStored :
    let s := @run twoSha256 (new 9 10 5) threeStored
    let key := twoKey "f" [1, 2, 3, 4, 5]
    let result := @put twoSha256 s key [1, 2, 3, 4, 5] 12 12 asStored
    ((result.1 = .ok () → EvictsOldest s result.2 key [1, 2, 3, 4, 5] 12) ∧
      (result.1 ≠ .ok () → result.2 = s)) ∧
      result.1 = .ok () ∧ result.2.inner.keys = [key, twoKey "h" abc] :=
  ⟨@put_evicts_oldest twoSha256 9 10 5 threeStored (twoKey "f" [1, 2, 3, 4, 5])
      [1, 2, 3, 4, 5] 12 12 asStored (by decide +kernel) (by decide +kernel) (by decide)
      (by unfold InMemory; decide +kernel),
    by decide +kernel, by decide +kernel⟩

/-- A body longer than a blob may be is refused before anything is swept. -/
theorem put_refused_keeps_expired :
    ¬ ∀ (_ : Sha256) (budgetBytes maxBlobBytes : UInt64) (ttl : Duration) (calls : List BlobCall)
        (key : BlobKey) (body : Bytes) (now insertedAt : Instant) (it : Iteration),
      let s := run (new budgetBytes ttl maxBlobBytes) calls
      (s.inner.entries.map (·.2.insertedAt)).Nodup → key ∉ s.inner →
        body.length ≤ budgetBytes.toNat →
        EvictsOldest s (s.put key body now insertedAt it).2 key body now := by
  intro h
  have hevicts := h abcSha256 8 3 10 [.put abcKey abc 0 0 asStored] ⟨"g", ""⟩ [1, 2, 3, 4] 100 100
    asStored (by decide +kernel) (by decide +kernel) (by decide)
  obtain ⟨evicted, kept, hlive, hperm, -⟩ := hevicts
  have hexpired : (⟨abcKey, ⟨0, abc⟩⟩ : KeyedEntry) ∈ (AList.erase ⟨"g", ""⟩
      (@put abcSha256 abcStored ⟨"g", ""⟩ [1, 2, 3, 4] 100 100 asStored).2.inner).entries := by
    decide +kernel
  have hkept : (⟨abcKey, ⟨0, abc⟩⟩ : KeyedEntry) ∈ abcStored.liveByAge 100 := by
    rw [show abcStored.liveByAge 100 = _ from hlive]
    exact List.mem_append_right _ (hperm.mem_iff.1 hexpired)
  have hfresh := (List.mem_filter.1 ((List.mergeSort_perm _ _).mem_iff.1 hkept)).2
  exact absurd hfresh (by decide +kernel)

end BlobStore

end ClipBridge.Relay
