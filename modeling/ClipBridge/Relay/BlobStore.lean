import ClipBridge.Core.Crypto
import ClipBridge.Lib.Machine
import ClipBridge.Lib.Weight
import Mathlib.Data.List.MinMax

/-!
# The blob store

Following `relay/src/blob.rs`, and `blob_store_from_env` of `relay/src/lib.rs`. The relay keeps
the ciphertexts of images under the group and their own SHA-256, with a counter of their bytes.
Before a new one goes in, expired entries are dropped, and then the oldest ones until there is
room for it.

* A `DashMap` is an association list without duplicate keys. It is iterated in any order, another
  one each time: `Iteration`.
* The counter and the limits are 64 bits wide, and a sum of them wraps around.
* `Accounted` — the counter is the number of bytes that are there, and within the budget.
* `accounted_step` — a call keeps it exactly if the body that goes in is within the budget by
  itself, and does not wrap the counter.
* `accounted_iff` — the same for a whole run.
-/

namespace ClipBridge.Relay

/-! ## The store -/

structure BlobKey where
  groupId : GroupId
  sha256Hex : String
  deriving DecidableEq, Repr

structure BlobEntry where
  insertedAt : Instant
  bytes : Bytes
  deriving DecidableEq, Repr

abbrev Blobs := AList fun _ : BlobKey => BlobEntry

structure BlobStore where
  inner : Blobs
  totalBytes : UInt64
  budgetBytes : UInt64
  ttl : Duration
  maxBlobBytes : UInt64

inductive PutError where
  | tooLarge (max : UInt64)
  | hashMismatch
  deriving DecidableEq, Repr

/-- The order in which an iteration comes past the entries. -/
structure Iteration where
  order : List (Sigma fun _ : BlobKey => BlobEntry) → List (Sigma fun _ : BlobKey => BlobEntry)
  perm : ∀ entries, (order entries).Perm entries

def BlobEntry.expired (ttl : Duration) (now : Instant) (e : BlobEntry) : Bool :=
  decide (ttl ≤ now.durationSince e.insertedAt)

namespace BlobStore

def new (budgetBytes : UInt64) (ttl : Duration) (maxBlobBytes : UInt64) : BlobStore :=
  ⟨∅, 0, budgetBytes, ttl, maxBlobBytes⟩

def remove (s : BlobStore) (key : BlobKey) : BlobStore :=
  match s.inner.lookup key with
  | some entry =>
      { s with
        inner := s.inner.erase key
        totalBytes := s.totalBytes - UInt64.ofNat entry.bytes.length }
  | none => s

/-- The keys of the expired entries, as an iteration collects them. -/
def expiredKeys (it : Iteration) (ttl : Duration) (now : Instant) (inner : Blobs) :
    List BlobKey :=
  ((it.order inner.entries).filter (·.2.expired ttl now)).map (·.1)

/-- The key of the entry that was inserted first, as an iteration finds it. -/
def oldestKey (it : Iteration) (inner : Blobs) : Option BlobKey :=
  ((it.order inner.entries).argmin (·.2.insertedAt)).map (·.1)

/-- The loop that evicts the oldest entry. A turn takes an entry out or is the last one, so
there are as many turns as entries at most. -/
def evictOldest (it : Iteration) (incoming : UInt64) : Nat → BlobStore → BlobStore
  | 0, s => s
  | turns + 1, s =>
      if s.budgetBytes < s.totalBytes + incoming then
        match oldestKey it s.inner with
        | some key => evictOldest it incoming turns (s.remove key)
        | none => s
      else s

def evictUntilRoomFor (it : Iteration) (now : Instant) (s : BlobStore) (incoming : UInt64) :
    BlobStore :=
  let s := (expiredKeys it s.ttl now s.inner).foldl remove s
  evictOldest it incoming s.inner.entries.length s

/-- `now` is the clock as the eviction reads it, and `insertedAt` as the insertion does. -/
def put [Sha256] (s : BlobStore) (key : BlobKey) (body : Bytes) (now insertedAt : Instant)
    (it : Iteration) : Except PutError Unit × BlobStore :=
  if s.maxBlobBytes.toNat < body.length then (.error (.tooLarge s.maxBlobBytes), s)
  else if sha256Hex body ≠ key.sha256Hex then (.error .hashMismatch, s)
  else if key ∈ s.inner then (.ok (), s)
  else
    let len := UInt64.ofNat body.length
    let s := evictUntilRoomFor it now s len
    let inserted := { s with inner := s.inner.insert key ⟨insertedAt, body⟩ }
    match s.inner.lookup key with
    | none => (.ok (), { inserted with totalBytes := inserted.totalBytes + len })
    | some _ => (.ok (), inserted)

def get (s : BlobStore) (key : BlobKey) (now : Instant) : Option Bytes × BlobStore :=
  match s.inner.lookup key with
  | none => (none, s)
  | some entry =>
      if entry.expired s.ttl now then (none, s.remove key) else (some entry.bytes, s)

/-! ## The environment -/

/-- `str::parse::<u64>`. -/
def parseU64 (text : String) : Option UInt64 :=
  let digits := match text.toList with
    | '+' :: rest => rest
    | cs => cs
  if digits.isEmpty || !digits.all Char.isDigit then none
  else
    let n := digits.foldl (fun n c => n * 10 + (c.toNat - '0'.toNat)) 0
    if n < 2 ^ 64 then some (UInt64.ofNat n) else none

def parseEnvU64 (env : String → Option String) (key : String) (default : UInt64) : UInt64 :=
  ((env key).bind parseU64).getD default

/-- On a machine whose `usize` is 64 bits wide. -/
def blobStoreFromEnv (env : String → Option String) : BlobStore :=
  let budget := parseEnvU64 env "CLIPBRIDGE_BLOB_BUDGET_BYTES" (256 * 1024 * 1024)
  let ttlSecs := parseEnvU64 env "CLIPBRIDGE_BLOB_TTL_SECS" 300
  let maxBlob := parseEnvU64 env "CLIPBRIDGE_BLOB_MAX_BYTES" (32 * 1024 * 1024)
  new budget (Duration.fromSecs ttlSecs.toNat) maxBlob

/-! ## Runs -/

inductive BlobCall where
  | put (key : BlobKey) (body : Bytes) (now insertedAt : Instant) (it : Iteration)
  | get (key : BlobKey) (now : Instant)

def step [Sha256] (s : BlobStore) : BlobCall → BlobStore
  | .put key body now insertedAt it => (s.put key body now insertedAt it).2
  | .get key now => (s.get key now).2

def run [Sha256] : BlobStore → List BlobCall → BlobStore := Machine.run step

end BlobStore

/-! ## What is stored -/

namespace Blobs

def storedBytes (inner : Blobs) : Nat := inner.weight (·.bytes.length)

/-- The bytes of the entries that are not expired. -/
def liveBytes (ttl : Duration) (now : Instant) (inner : Blobs) : Nat :=
  inner.weight fun e => if e.expired ttl now then 0 else e.bytes.length

end Blobs

namespace BlobStore

/-- The counter reads the number of bytes that are there. -/
def Balanced (s : BlobStore) : Prop := s.totalBytes.toNat = s.inner.storedBytes

structure Accounted (s : BlobStore) : Prop where
  balanced : Balanced s
  budget : s.totalBytes ≤ s.budgetBytes

/-- `s'` is `s` after some removals. -/
structure Shrinks (s s' : BlobStore) : Prop where
  balanced : Balanced s → Balanced s'
  stored : s'.inner.storedBytes ≤ s.inner.storedBytes
  fresh : ∀ key, s.inner.lookup key = none → s'.inner.lookup key = none
  budget : s'.budgetBytes = s.budgetBytes

namespace Shrinks

variable {s s' s'' : BlobStore}

theorem refl (s : BlobStore) : Shrinks s s := ⟨id, le_rfl, fun _ => id, rfl⟩

theorem trans (h : Shrinks s s') (h' : Shrinks s' s'') : Shrinks s s'' :=
  ⟨fun hb => h'.balanced (h.balanced hb), h'.stored.trans h.stored,
    fun key hkey => h'.fresh key (h.fresh key hkey), h'.budget.trans h.budget⟩

theorem accounted (h : Shrinks s s') (hs : Accounted s) : Accounted s' := by
  refine ⟨h.balanced hs.balanced, ?_⟩
  have hstored := h.stored
  have htotal := hs.budget
  rw [UInt64.le_iff_toNat_le] at htotal ⊢
  rw [h.budget, h.balanced hs.balanced]
  rw [hs.balanced] at htotal
  omega

end Shrinks

theorem remove_inner (s : BlobStore) (key : BlobKey) :
    (s.remove key).inner = s.inner.erase key := by
  unfold remove
  split
  · rfl
  · rename_i hnone
    exact (AList.erase_of_lookup_none hnone).symm

theorem shrinks_remove (s : BlobStore) (key : BlobKey) : Shrinks s (s.remove key) := by
  cases hlookup : s.inner.lookup key with
  | none =>
      have hsame : s.remove key = s := by simp only [remove, hlookup]
      rw [hsame]
      exact Shrinks.refl s
  | some entry =>
      have hstored : s.inner.storedBytes =
          entry.bytes.length + (s.remove key).inner.storedBytes := by
        rw [remove_inner]
        exact AList.weight_of_lookup hlookup
      have htotal : (s.remove key).totalBytes =
          s.totalBytes - UInt64.ofNat entry.bytes.length := by
        simp only [remove, hlookup]
      constructor
      · intro hb
        have hsum : s.totalBytes.toNat =
            entry.bytes.length + (s.remove key).inner.storedBytes := hb.trans hstored
        have hlen : (UInt64.ofNat entry.bytes.length).toNat = entry.bytes.length :=
          UInt64.toNat_ofNat_of_lt' (Nat.lt_of_le_of_lt (by omega) s.totalBytes.toNat_lt)
        show (s.remove key).totalBytes.toNat = _
        rw [htotal, UInt64.toNat_sub_of_le _ _ (UInt64.le_iff_toNat_le.2 (by omega)), hlen]
        omega
      · omega
      · intro key' hkey'
        rw [remove_inner]
        by_cases heq : key' = key
        · rw [heq, AList.lookup_erase]
        · rw [AList.lookup_erase_ne heq, hkey']
      · simp only [remove, hlookup]

/-! ## Eviction -/

section

variable {P : BlobStore → Prop}

/-- What a removal keeps, both loops of the eviction keep. -/
theorem foldl_remove_keeps (hremove : ∀ s key, P s → P (s.remove key)) {s : BlobStore} (hs : P s)
    (keys : List BlobKey) : P (keys.foldl remove s) :=
  Machine.invariant_run hremove hs keys

theorem evictOldest_keeps (hremove : ∀ s key, P s → P (s.remove key)) (it : Iteration)
    (incoming : UInt64) (turns : Nat) {s : BlobStore} (hs : P s) :
    P (evictOldest it incoming turns s) := by
  induction turns generalizing s with
  | zero => exact hs
  | succ turns ih =>
      unfold evictOldest
      split
      · split
        · exact ih (hremove s _ hs)
        · exact hs
      · exact hs

theorem evictUntilRoomFor_keeps (hremove : ∀ s key, P s → P (s.remove key)) (it : Iteration)
    (now : Instant) (incoming : UInt64) {s : BlobStore} (hs : P s) :
    P (evictUntilRoomFor it now s incoming) :=
  evictOldest_keeps hremove it incoming _ (foldl_remove_keeps hremove hs _)

end

theorem shrinks_foldl_remove (keys : List BlobKey) (s : BlobStore) :
    Shrinks s (keys.foldl remove s) :=
  foldl_remove_keeps (fun s' key h => h.trans (shrinks_remove s' key)) (Shrinks.refl s) keys

theorem foldl_remove_inner (keys : List BlobKey) (s : BlobStore) :
    (keys.foldl remove s).inner = keys.foldl (fun m key => m.erase key) s.inner := by
  induction keys generalizing s with
  | nil => rfl
  | cons key keys ih => rw [List.foldl_cons, ih, remove_inner, List.foldl_cons]

theorem mem_expiredKeys {it : Iteration} {ttl : Duration} {now : Instant} {inner : Blobs}
    {key : BlobKey} : key ∈ expiredKeys it ttl now inner ↔
      ∃ e, inner.lookup key = some e ∧ e.expired ttl now = true := by
  unfold expiredKeys
  rw [List.mem_map]
  constructor
  · rintro ⟨e, he, rfl⟩
    rw [List.mem_filter, (it.perm _).mem_iff] at he
    exact ⟨e.2, AList.mem_lookup_iff.2 he.1, he.2⟩
  · rintro ⟨e, hlookup, hexpired⟩
    refine ⟨⟨key, e⟩, List.mem_filter.2 ⟨?_, hexpired⟩, rfl⟩
    exact (it.perm _).mem_iff.2 (AList.mem_lookup_iff.1 hlookup)

/-- The first loop of the eviction leaves what is not expired. -/
theorem storedBytes_expired (it : Iteration) (now : Instant) (s : BlobStore) :
    ((expiredKeys it s.ttl now s.inner).foldl remove s).inner.storedBytes =
      s.inner.liveBytes s.ttl now := by
  rw [foldl_remove_inner]
  have hlive : ((expiredKeys it s.ttl now s.inner).foldl (fun m key => m.erase key)
      s.inner).liveBytes s.ttl now = s.inner.liveBytes s.ttl now := by
    apply AList.weight_foldl_erase
    intro key hkey e hlookup
    obtain ⟨e', hlookup', hexpired⟩ := mem_expiredKeys.1 hkey
    rw [hlookup, Option.some.injEq] at hlookup'
    rw [hlookup', if_pos hexpired]
  rw [← hlive]
  apply AList.weight_congr
  intro key e hlookup
  rw [AList.lookup_foldl_erase] at hlookup
  split at hlookup
  · cases hlookup
  · rename_i hkey
    have hfresh : e.expired s.ttl now ≠ true := fun h => hkey (mem_expiredKeys.2 ⟨e, hlookup, h⟩)
    rw [if_neg hfresh]

theorem oldestKey_eq_none {it : Iteration} {inner : Blobs} :
    oldestKey it inner = none ↔ inner.entries = [] := by
  rw [oldestKey, Option.map_eq_none_iff, List.argmin_eq_none]
  constructor
  · intro h
    exact List.Perm.nil_eq (h ▸ it.perm inner.entries) |>.symm
  · intro h
    rw [h]
    exact (it.perm []).eq_nil

theorem mem_of_oldestKey {it : Iteration} {inner : Blobs} {key : BlobKey}
    (h : oldestKey it inner = some key) : ∃ e, inner.lookup key = some e := by
  obtain ⟨e, he, rfl⟩ := Option.map_eq_some_iff.1 h
  exact ⟨e.2, AList.mem_lookup_iff.2 ((it.perm _).mem_iff.1 (List.argmin_mem he))⟩

theorem shrinks_evictOldest (it : Iteration) (incoming : UInt64) (turns : Nat) (s : BlobStore) :
    Shrinks s (evictOldest it incoming turns s) :=
  evictOldest_keeps (fun s' key h => h.trans (shrinks_remove s' key)) it incoming turns
    (Shrinks.refl s)

theorem length_keys (inner : Blobs) : inner.keys.length = inner.entries.length :=
  List.length_map _

/-- The loop ends with room for the new entry or with nothing left. -/
theorem evictOldest_done (it : Iteration) (incoming : UInt64) {turns : Nat} {s : BlobStore}
    (hturns : s.inner.entries.length ≤ turns) :
    (evictOldest it incoming turns s).totalBytes + incoming ≤ s.budgetBytes ∨
      (evictOldest it incoming turns s).inner.entries = [] := by
  induction turns generalizing s with
  | zero => exact Or.inr (List.length_eq_zero_iff.1 (Nat.le_zero.1 hturns))
  | succ turns ih =>
      unfold evictOldest
      split
      · split
        · rename_i key hkey
          have hlength : (s.remove key).inner.entries.length ≤ turns := by
            obtain ⟨e, hlookup⟩ := mem_of_oldestKey hkey
            have hmem : key ∈ s.inner.keys := AList.lookup_isSome.1 (by rw [hlookup]; rfl)
            have hone := List.length_erase_of_mem hmem
            rw [← AList.keys_erase, ← remove_inner, length_keys, length_keys] at hone
            omega
          rw [← (shrinks_remove s key).budget]
          exact ih hlength
        · rename_i hnone
          exact Or.inr (oldestKey_eq_none.1 hnone)
      · rename_i hroom
        exact Or.inl (UInt64.not_lt.1 hroom)

theorem evictOldest_of_room (it : Iteration) {incoming : UInt64} {s : BlobStore}
    (hroom : s.totalBytes + incoming ≤ s.budgetBytes) (turns : Nat) :
    evictOldest it incoming turns s = s := by
  cases turns with
  | zero => rfl
  | succ turns => rw [evictOldest, if_neg (UInt64.not_lt.2 hroom)]

theorem shrinks_evictUntilRoomFor (it : Iteration) (now : Instant) (s : BlobStore)
    (incoming : UInt64) : Shrinks s (evictUntilRoomFor it now s incoming) :=
  evictUntilRoomFor_keeps (fun s' key h => h.trans (shrinks_remove s' key)) it now incoming
    (Shrinks.refl s)

theorem toNat_add_of_lt {a b : UInt64} (h : a.toNat + b.toNat < 2 ^ 64) :
    (a + b).toNat = a.toNat + b.toNat := by
  rw [UInt64.toNat_add, Nat.mod_eq_of_lt h]

/-- Where the body is within the budget and nothing wraps around, there is room for it. -/
theorem evicted_room {s : BlobStore} (hs : Accounted s) (it : Iteration) (now : Instant)
    (incoming : UInt64) (hbudget : incoming ≤ s.budgetBytes)
    (hwrap : s.inner.liveBytes s.ttl now + incoming.toNat < 2 ^ 64) :
    (evictUntilRoomFor it now s incoming).totalBytes.toNat + incoming.toNat ≤
      s.budgetBytes.toNat := by
  have hfirst := shrinks_foldl_remove (expiredKeys it s.ttl now s.inner) s
  have hlive := storedBytes_expired it now s
  unfold evictUntilRoomFor
  dsimp only
  generalize (expiredKeys it s.ttl now s.inner).foldl remove s = s₁ at hfirst hlive ⊢
  have hsecond := shrinks_evictOldest it incoming s₁.inner.entries.length s₁
  have hdone := evictOldest_done it incoming (le_refl s₁.inner.entries.length)
  generalize evictOldest it incoming s₁.inner.entries.length s₁ = s₂ at hsecond hdone ⊢
  have hbalanced : s₂.totalBytes.toNat = s₂.inner.storedBytes :=
    hsecond.balanced (hfirst.balanced hs.balanced)
  have hstored := hsecond.stored
  rw [UInt64.le_iff_toNat_le] at hbudget
  rcases hdone with hroom | hempty
  · have hsum : (s₂.totalBytes + incoming).toNat = s₂.totalBytes.toNat + incoming.toNat :=
      toNat_add_of_lt (by omega)
    rw [UInt64.le_iff_toNat_le, hsum, hfirst.budget] at hroom
    exact hroom
  · have hzero : s₂.inner.storedBytes = 0 := AList.weight_of_entries_nil hempty
    omega

/-- Where the sum wraps around, it looks small and nothing is evicted. -/
theorem evicted_wrap {s : BlobStore} (hs : Accounted s) (it : Iteration) (now : Instant)
    (incoming : UInt64) (hwrap : 2 ^ 64 ≤ s.inner.liveBytes s.ttl now + incoming.toNat) :
    (evictUntilRoomFor it now s incoming).inner.storedBytes = s.inner.liveBytes s.ttl now := by
  have hfirst := shrinks_foldl_remove (expiredKeys it s.ttl now s.inner) s
  have hlive := storedBytes_expired it now s
  unfold evictUntilRoomFor
  dsimp only
  generalize (expiredKeys it s.ttl now s.inner).foldl remove s = s₁ at hfirst hlive ⊢
  have hs₁ := hfirst.accounted hs
  have hbalanced : s₁.totalBytes.toNat = s₁.inner.storedBytes := hs₁.balanced
  have hbudget := UInt64.le_iff_toNat_le.1 hs₁.budget
  have hlt := incoming.toNat_lt
  have hroom : s₁.totalBytes + incoming ≤ s₁.budgetBytes := by
    rw [UInt64.le_iff_toNat_le, UInt64.toNat_add]
    omega
  rw [evictOldest_of_room it hroom]
  exact hlive

/-! ## Accounting -/

theorem accounted_new (budgetBytes : UInt64) (ttl : Duration) (maxBlobBytes : UInt64) :
    Accounted (new budgetBytes ttl maxBlobBytes) :=
  ⟨rfl, UInt64.zero_le⟩

theorem accounted_get {s : BlobStore} (hs : Accounted s) (key : BlobKey) (now : Instant) :
    Accounted (s.get key now).2 := by
  unfold get
  split
  · exact hs
  · split
    · exact (shrinks_remove s key).accounted hs
    · exact hs

section

variable [Sha256]

/-- A body that goes in is within the budget by itself, and the counter can hold it beside what
is not expired. -/
def Fits (s : BlobStore) : BlobCall → Prop
  | .put key body now _ _ =>
      body.length ≤ s.maxBlobBytes.toNat → sha256Hex body = key.sha256Hex → key ∉ s.inner →
        body.length ≤ s.budgetBytes.toNat ∧
          s.inner.liveBytes s.ttl now + body.length < 2 ^ 64
  | .get .. => True

/-- What a `put` leaves that inserts: the store after the eviction, with the body and its
length. -/
theorem put_inserts {s : BlobStore} {key : BlobKey} {body : Bytes}
    (hmax : body.length ≤ s.maxBlobBytes.toNat) (hsha : sha256Hex body = key.sha256Hex)
    (hkey : key ∉ s.inner) (now insertedAt : Instant) (it : Iteration) :
    let evicted := evictUntilRoomFor it now s (UInt64.ofNat body.length)
    (s.put key body now insertedAt it).2 =
      { evicted with
        inner := evicted.inner.insert key ⟨insertedAt, body⟩
        totalBytes := evicted.totalBytes + UInt64.ofNat body.length } := by
  intro evicted
  have hfresh : evicted.inner.lookup key = none :=
    (shrinks_evictUntilRoomFor it now s _).fresh key (AList.lookup_eq_none.2 hkey)
  unfold put
  rw [if_neg (Nat.not_lt.2 hmax), if_neg (not_not.2 hsha), if_neg hkey]
  simp only [evicted] at hfresh ⊢
  rw [hfresh]

theorem accounted_put {s : BlobStore} (hs : Accounted s) {key : BlobKey} {body : Bytes}
    (hmax : body.length ≤ s.maxBlobBytes.toNat) (hsha : sha256Hex body = key.sha256Hex)
    (hkey : key ∉ s.inner) (now insertedAt : Instant) (it : Iteration) :
    Accounted (s.put key body now insertedAt it).2 ↔
      body.length ≤ s.budgetBytes.toNat ∧ s.inner.liveBytes s.ttl now + body.length < 2 ^ 64 := by
  rw [put_inserts hmax hsha hkey]
  have hlen : (UInt64.ofNat body.length).toNat = body.length :=
    UInt64.toNat_ofNat_of_lt' (Nat.lt_of_le_of_lt hmax s.maxBlobBytes.toNat_lt)
  have hshrinks := shrinks_evictUntilRoomFor it now s (UInt64.ofNat body.length)
  have hroom := evicted_room hs it now (UInt64.ofNat body.length)
  have hwrap := evicted_wrap hs it now (UInt64.ofNat body.length)
  rw [hlen] at hroom hwrap
  generalize evictUntilRoomFor it now s (UInt64.ofNat body.length) = evicted
    at hshrinks hroom hwrap ⊢
  have hbalanced : evicted.totalBytes.toNat = evicted.inner.storedBytes :=
    hshrinks.balanced hs.balanced
  have hfresh := hshrinks.fresh key (AList.lookup_eq_none.2 hkey)
  have hstored : Blobs.storedBytes (evicted.inner.insert key ⟨insertedAt, body⟩) =
      body.length + evicted.inner.storedBytes := by
    rw [Blobs.storedBytes, AList.weight_insert, AList.erase_of_lookup_none hfresh]
    rfl
  have hbudget := evicted.budgetBytes.toNat_lt
  constructor
  · intro h
    have htotal : (evicted.totalBytes + UInt64.ofNat body.length).toNat =
        body.length + evicted.inner.storedBytes := h.balanced.trans hstored
    have hle : (evicted.totalBytes + UInt64.ofNat body.length).toNat ≤
        evicted.budgetBytes.toNat := UInt64.le_iff_toNat_le.1 h.budget
    rw [hshrinks.budget] at hle hbudget
    refine ⟨by omega, ?_⟩
    by_contra hover
    have := hwrap (by omega)
    omega
  · rintro ⟨hfits, hsum⟩
    have hle := hroom (by rw [UInt64.le_iff_toNat_le, hlen]; exact hfits) hsum
    rw [hshrinks.budget] at hbudget
    have htotal : (evicted.totalBytes + UInt64.ofNat body.length).toNat =
        evicted.totalBytes.toNat + body.length := by
      rw [toNat_add_of_lt (by omega), hlen]
    constructor
    · show (evicted.totalBytes + UInt64.ofNat body.length).toNat = _
      rw [htotal, hstored]
      omega
    · show evicted.totalBytes + UInt64.ofNat body.length ≤ evicted.budgetBytes
      rw [UInt64.le_iff_toNat_le, htotal, hshrinks.budget]
      exact hle

theorem accounted_step {s : BlobStore} (hs : Accounted s) (c : BlobCall) :
    Accounted (step s c) ↔ Fits s c := by
  cases c with
  | get key now => exact ⟨fun _ => trivial, fun _ => accounted_get hs key now⟩
  | put key body now insertedAt it =>
      show Accounted (s.put key body now insertedAt it).2 ↔ (_ → _ → _ → _)
      by_cases hmax : body.length ≤ s.maxBlobBytes.toNat
      · by_cases hsha : sha256Hex body = key.sha256Hex
        · by_cases hkey : key ∉ s.inner
          · rw [accounted_put hs hmax hsha hkey]
            exact ⟨fun h _ _ _ => h, fun h => h hmax hsha hkey⟩
          · refine ⟨fun _ _ _ h => absurd h hkey, fun _ => ?_⟩
            rw [put, if_neg (Nat.not_lt.2 hmax), if_neg (not_not.2 hsha), if_pos (not_not.1 hkey)]
            exact hs
        · refine ⟨fun _ _ h => absurd h hsha, fun _ => ?_⟩
          rw [put, if_neg (Nat.not_lt.2 hmax), if_pos hsha]
          exact hs
      · refine ⟨fun _ h => absurd h hmax, fun _ => ?_⟩
        rw [put, if_pos (Nat.not_le.1 hmax)]
        exact hs

/-- **Through a run the counter is right and within the budget exactly if every body that goes
in is within the budget by itself and does not wrap the counter.** -/
theorem accounted_iff (budgetBytes : UInt64) (ttl : Duration) (maxBlobBytes : UInt64)
    (calls : List BlobCall) :
    (∀ pre, pre <+: calls → Accounted (run (new budgetBytes ttl maxBlobBytes) pre)) ↔
      Machine.Along step Fits (new budgetBytes ttl maxBlobBytes) calls :=
  Machine.always_iff (I := Accounted) (J := fun _ => True) (fun _ _ _ => trivial)
    (fun _ c _ hs => accounted_step hs c) trivial (accounted_new budgetBytes ttl maxBlobBytes) calls

end

/-! ## The limits -/

/-- No call changes what the store was made with. -/
structure SameLimits (s s' : BlobStore) : Prop where
  budget : s'.budgetBytes = s.budgetBytes
  ttl : s'.ttl = s.ttl
  max : s'.maxBlobBytes = s.maxBlobBytes

theorem SameLimits.trans {s s' s'' : BlobStore} (h : SameLimits s s') (h' : SameLimits s' s'') :
    SameLimits s s'' :=
  ⟨h'.budget.trans h.budget, h'.ttl.trans h.ttl, h'.max.trans h.max⟩

theorem sameLimits_remove (s : BlobStore) (key : BlobKey) : SameLimits s (s.remove key) := by
  unfold remove
  split <;> exact ⟨rfl, rfl, rfl⟩

theorem sameLimits_evictUntilRoomFor (it : Iteration) (now : Instant) (s : BlobStore)
    (incoming : UInt64) : SameLimits s (evictUntilRoomFor it now s incoming) :=
  evictUntilRoomFor_keeps (fun s' key h => h.trans (sameLimits_remove s' key)) it now incoming
    ⟨rfl, rfl, rfl⟩

section

variable [Sha256]

theorem sameLimits_step (s : BlobStore) (call : BlobCall) : SameLimits s (s.step call) := by
  cases call with
  | put key body now insertedAt it =>
      obtain ⟨hbudget, httl, hmax⟩ :=
        sameLimits_evictUntilRoomFor it now s (UInt64.ofNat body.length)
      show SameLimits s (s.put key body now insertedAt it).2
      unfold put
      dsimp only
      split_ifs
      · exact ⟨rfl, rfl, rfl⟩
      · exact ⟨rfl, rfl, rfl⟩
      · exact ⟨rfl, rfl, rfl⟩
      · split <;> exact ⟨hbudget, httl, hmax⟩
  | get key now =>
      show SameLimits s (s.get key now).2
      unfold get
      split
      · exact ⟨rfl, rfl, rfl⟩
      · split
        · exact sameLimits_remove s key
        · exact ⟨rfl, rfl, rfl⟩

theorem sameLimits_run (s : BlobStore) (calls : List BlobCall) : SameLimits s (run s calls) :=
  Machine.invariant_run (I := SameLimits s) (fun s' call h => h.trans (sameLimits_step s' call))
    ⟨rfl, rfl, rfl⟩ calls

/-- A body is refused as too large exactly if it is longer than the limit. -/
theorem put_tooLarge_iff {s : BlobStore} {key : BlobKey} {body : Bytes} {now insertedAt : Instant}
    {it : Iteration} : (∃ max, (s.put key body now insertedAt it).1 = .error (.tooLarge max)) ↔
      s.maxBlobBytes.toNat < body.length := by
  unfold put
  dsimp only
  split_ifs with hmax hsha hkey
  · simp [hmax]
  · simp [hmax]
  · simp [hmax]
  · split <;> simp [hmax]

end

/-! ## A blob above the budget -/

/-- The budget is set to four bytes, and the rest left as it is. -/
def smallBudget (key : String) : Option String :=
  if key = "CLIPBRIDGE_BLOB_BUDGET_BYTES" then some "4" else none

def asStored : Iteration := ⟨id, fun _ => List.Perm.refl _⟩

@[reducible] def fiveSha256 : Sha256 :=
  tableSha256
    [([1, 2, 3, 4, 5], 0x74f81fe167d99b4cb41d6d0ccda82278caee9f3e2f25d5e5a3936ff3dcec60d0)]

/-- Five bytes are put in. -/
def bigPut : List BlobCall :=
  [.put ⟨"g", @sha256Hex fiveSha256 [1, 2, 3, 4, 5]⟩ [1, 2, 3, 4, 5] 0 0 asStored]

theorem bigPut_over_budget :
    ¬ ∀ env calls pre, pre <+: calls → Accounted (@run fiveSha256 (blobStoreFromEnv env) pre) := by
  intro h
  exact absurd (h smallBudget bigPut bigPut List.prefix_rfl).budget (by decide +kernel)

end BlobStore

end ClipBridge.Relay
