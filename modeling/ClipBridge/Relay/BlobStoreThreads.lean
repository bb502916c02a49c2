import ClipBridge.Relay.BlobStore

/-!
# The blob store under concurrent calls

The map and the counter of the store are two shared things without a common lock. Any number of
`put` and `get` calls take their steps in any order, one access to the map, the counter or the
clock at a time.

* `BlobThread` — a call that is under way, by the step it takes next.
* `Sound` — a step does not wrap the counter below zero, and a `get` removes nothing that is
  younger than the TTL.
* `Ordered` — no step of another call has got in between two steps of one call: an insertion and
  its addition, or a look at an entry and its removal.
* `Covered` — what has been inserted and not yet added is there, each body under its own key.
* `Books` — what the counter reads: the bytes that are there, with what has been removed and not
  yet subtracted, without what has been inserted and not yet added.
* `threads_accounted` — a run whose steps are ordered is sound, and whenever no call is under way
  the counter is right.
-/

namespace ClipBridge.Relay

open BlobStore (expiredKeys oldestKey Balanced)

/-! ## Calls under way -/

inductive BlobResult where
  | put (result : Except PutError Unit)
  | got (bytes : Option Bytes)

/-- The next step of a call, with the values it has read. -/
inductive BlobThread where
  /-- `put`: is the key there? -/
  | contains (key : BlobKey) (body : Bytes)
  /-- `evict_until_room_for`: read the clock. -/
  | evict (key : BlobKey) (body : Bytes)
  /-- Collect the expired keys. -/
  | iterate (key : BlobKey) (body : Bytes) (now : Instant)
  /-- Is it still over budget? -/
  | load (key : BlobKey) (body : Bytes)
  /-- Find the oldest entry. -/
  | oldest (key : BlobKey) (body : Bytes)
  /-- `put`, with room for the body: read the clock. -/
  | stamp (key : BlobKey) (body : Bytes)
  | insert (key : BlobKey) (body : Bytes) (insertedAt : Instant)
  /-- Add the length of the body, inserted under `key`, to the counter. -/
  | add (key : BlobKey) (body : Bytes)
  /-- `get`: read the entry and the clock. -/
  | find (key : BlobKey)
  /-- `get`, which has found an expired entry: remove what is under the key. -/
  | drop (key : BlobKey) (foundAt : Instant)
  /-- `remove`, on the map. -/
  | remove (key : BlobKey) (next : BlobThread)
  /-- `remove`, on the counter. -/
  | subtract (removed : Bytes) (next : BlobThread)
  | done (result : BlobResult)

/-- The store, the clock, and the calls. -/
structure BlobRuntime where
  store : BlobStore
  clock : Instant
  threads : List BlobThread

inductive BlobEvent where
  | wait (d : Duration)
  | put (key : BlobKey) (body : Bytes)
  | get (key : BlobKey)
  /-- A call takes its next step; `it` is the order of an iteration. -/
  | thread (i : Nat) (it : Iteration)

namespace BlobThread

/-- What `put` checks before it touches the store. -/
def startPut [Sha256] (maxBlobBytes : UInt64) (key : BlobKey) (body : Bytes) : BlobThread :=
  if maxBlobBytes.toNat < body.length then .done (.put (.error (.tooLarge maxBlobBytes)))
  else if sha256Hex body ≠ key.sha256Hex then .done (.put (.error .hashMismatch))
  else .contains key body

/-- The map step of `remove`: the counter's is next if there was an entry. -/
def removeEntry (s : BlobStore) (key : BlobKey) (next : BlobThread) : BlobStore × BlobThread :=
  match s.inner.lookup key with
  | some entry => ({ s with inner := s.inner.erase key }, .subtract entry.bytes next)
  | none => (s, next)

def step (s : BlobStore) (clock : Instant) (it : Iteration) :
    BlobThread → BlobStore × BlobThread
  | .contains key body =>
      (s, if key ∈ s.inner then .done (.put (.ok ())) else .evict key body)
  | .evict key body => (s, .iterate key body clock)
  | .iterate key body now =>
      (s, (expiredKeys it s.ttl now s.inner).foldr .remove (.load key body))
  | .load key body =>
      (s, if s.budgetBytes < s.totalBytes + UInt64.ofNat body.length then .oldest key body
        else .stamp key body)
  | .oldest key body =>
      (s, match oldestKey it s.inner with
        | some old => .remove old (.load key body)
        | none => .stamp key body)
  | .stamp key body => (s, .insert key body clock)
  | .insert key body insertedAt =>
      ({ s with inner := s.inner.insert key ⟨insertedAt, body⟩ },
        match s.inner.lookup key with
        | none => .add key body
        | some _ => .done (.put (.ok ())))
  | .add _ body =>
      ({ s with totalBytes := s.totalBytes + UInt64.ofNat body.length }, .done (.put (.ok ())))
  | .find key =>
      (s, match s.inner.lookup key with
        | none => .done (.got none)
        | some entry =>
            if entry.expired s.ttl clock then .drop key entry.insertedAt
            else .done (.got (some entry.bytes)))
  | .drop key _ => removeEntry s key (.done (.got none))
  | .remove key next => removeEntry s key next
  | .subtract removed next =>
      ({ s with totalBytes := s.totalBytes - UInt64.ofNat removed.length }, next)
  | .done result => (s, .done result)

end BlobThread

namespace BlobRuntime

def init (s : BlobStore) : BlobRuntime := ⟨s, 0, []⟩

def step [Sha256] (w : BlobRuntime) : BlobEvent → BlobRuntime
  | .wait d => { w with clock := w.clock + d }
  | .put key body =>
      { w with threads := w.threads ++ [.startPut w.store.maxBlobBytes key body] }
  | .get key => { w with threads := w.threads ++ [.find key] }
  | .thread i it =>
      match w.threads[i]? with
      | none => w
      | some t =>
          { w with
            store := (t.step w.store w.clock it).1
            threads := w.threads.set i (t.step w.store w.clock it).2 }

def run [Sha256] : BlobRuntime → List BlobEvent → BlobRuntime := Machine.run step

/-- No call is in progress. -/
def Idle (w : BlobRuntime) : Prop := ∀ t ∈ w.threads, ∃ result, t = .done result

end BlobRuntime

/-! ## Between the map and the counter -/

namespace BlobThread

/-- What it has inserted and is yet to add. -/
def adding : BlobThread → List (BlobKey × Bytes)
  | .add key body => [(key, body)]
  | .remove _ next => next.adding
  | .subtract _ next => next.adding
  | _ => []

/-- What it has removed and is yet to subtract. -/
def removed : BlobThread → Nat
  | .remove _ next => next.removed
  | .subtract bytes next => bytes.length + next.removed
  | _ => 0

/-- An entry that a `get` is about to remove was expired when the `get` found it. -/
def SawExpired (ttl : Duration) (clock : Instant) : BlobThread → Prop
  | .drop _ foundAt => ttl ≤ clock.durationSince foundAt
  | .remove _ next => next.SawExpired ttl clock
  | .subtract _ next => next.SawExpired ttl clock
  | _ => True

/-- The next step does not wrap the counter below zero, and removes no entry for a `get` that is
younger than the TTL. -/
def Sound (s : BlobStore) (clock : Instant) : BlobThread → Prop
  | .subtract bytes _ => bytes.length ≤ s.totalBytes.toNat
  | .drop key _ => ∀ entry ∈ s.inner.lookup key, entry.expired s.ttl clock = true
  | _ => True

/-- No other call has got in between. `adding` is what all calls have inserted and are yet to add,
and `removed` what they are yet to subtract. -/
def Ordered (s : BlobStore) (adding : List (BlobKey × Bytes)) (removed : Nat) : BlobThread → Prop
  | .insert key body _ =>
      (s.inner.lookup key = none → s.inner.storedBytes + removed + body.length < 2 ^ 64) ∧
        ∀ entry ∈ s.inner.lookup key, entry.bytes.length = body.length
  | .remove key _ => key ∉ adding.map (·.1)
  | .drop key foundAt => key ∉ adding.map (·.1) ∧
      ∀ entry ∈ s.inner.lookup key, entry.insertedAt ≤ foundAt
  | _ => True

end BlobThread

namespace BlobRuntime

def adding (w : BlobRuntime) : List (BlobKey × Bytes) := w.threads.flatMap BlobThread.adding

def removed (w : BlobRuntime) : Nat := (w.threads.map BlobThread.removed).sum

def Sound (w : BlobRuntime) : BlobEvent → Prop
  | .thread i _ => ∀ t ∈ w.threads[i]?, t.Sound w.store w.clock
  | _ => True

/-- * An insertion that replaces an entry replaces one of the same length, and what is in memory
  can be counted.
* Nothing is removed from the map under a key where a `put` has inserted and is yet to add.
* Where a `get` removes the entry it has found expired, nothing has been inserted under the key
  since. -/
def Ordered (w : BlobRuntime) : BlobEvent → Prop
  | .thread i _ => ∀ t ∈ w.threads[i]?, t.Ordered w.store w.adding w.removed
  | _ => True

end BlobRuntime

/-- The bytes of bodies that are yet to be added. -/
def bytesOf (adding : List (BlobKey × Bytes)) : Nat := (adding.map (·.2.length)).sum

/-- Every body that is yet to be added has a key of its own, and an entry of its length is there. -/
structure Covered (inner : Blobs) (adding : List (BlobKey × Bytes)) : Prop where
  apart : (adding.map (·.1)).Nodup
  stored : ∀ p ∈ adding, ∃ entry, inner.lookup p.1 = some entry ∧
    p.2.length = entry.bytes.length

namespace BlobRuntime

structure Books (w : BlobRuntime) : Prop where
  counter : w.store.totalBytes.toNat + bytesOf w.adding = w.store.inner.storedBytes + w.removed
  covered : Covered w.store.inner w.adding
  held : w.store.inner.storedBytes + w.removed < 2 ^ 64
  expired : ∀ t ∈ w.threads, t.SawExpired w.store.ttl w.clock

end BlobRuntime

/-! ## One step of one call -/

namespace Covered

variable {inner : Blobs} {adding adding' : List (BlobKey × Bytes)} {key : BlobKey}

theorem perm (h : Covered inner adding) (hperm : adding.Perm adding') : Covered inner adding' where
  apart := (hperm.map _).nodup_iff.1 h.apart
  stored p hp := h.stored p (hperm.mem_iff.2 hp)

/-- What is yet to be added is there. -/
theorem bytesOf_le (h : Covered inner adding) : bytesOf adding ≤ inner.storedBytes := by
  refine AList.sum_le_weight (fun p : BlobKey × Bytes => p.1) (·.2.length) h.apart fun p hp => ?_
  obtain ⟨entry, hlookup, hlen⟩ := h.stored p hp
  exact ⟨entry, hlookup, hlen.le⟩

theorem tail {p : BlobKey × Bytes} (h : Covered inner (p :: adding)) : Covered inner adding where
  apart := (List.nodup_cons.1 h.apart).2
  stored q hq := h.stored q (List.mem_cons_of_mem p hq)

/-- A removal under another key. -/
theorem erase (h : Covered inner adding) (hkey : key ∉ adding.map (·.1)) :
    Covered (inner.erase key) adding where
  apart := h.apart
  stored p hp := by
    have hne : p.1 ≠ key := fun heq => hkey (heq ▸ List.mem_map_of_mem hp)
    rw [AList.lookup_erase_ne hne]
    exact h.stored p hp

/-- An insertion under a new key is the first to be added under it. -/
theorem insert_new (h : Covered inner adding) (hnew : inner.lookup key = none) (at' : Instant)
    (body : Bytes) : Covered (inner.insert key ⟨at', body⟩) ((key, body) :: adding) where
  apart := by
    refine List.nodup_cons.2 ⟨fun hkey => ?_, h.apart⟩
    obtain ⟨p, hp, heq⟩ := List.mem_map.1 hkey
    obtain ⟨entry, hlookup, -⟩ := h.stored p hp
    rw [show p.1 = key from heq, hnew] at hlookup
    cases hlookup
  stored p hp := by
    rcases List.mem_cons.1 hp with rfl | hp
    · exact ⟨_, AList.lookup_insert _, rfl⟩
    · obtain ⟨entry, hlookup, hlen⟩ := h.stored p hp
      have hne : p.1 ≠ key := by
        rintro rfl
        rw [hnew] at hlookup
        cases hlookup
      exact ⟨entry, by rw [AList.lookup_insert_ne hne]; exact hlookup, hlen⟩

/-- An insertion that replaces an entry of its length. -/
theorem insert_old (h : Covered inner adding) {old entry : BlobEntry}
    (hold : inner.lookup key = some old) (hlen : old.bytes.length = entry.bytes.length) :
    Covered (inner.insert key entry) adding where
  apart := h.apart
  stored p hp := by
    obtain ⟨entry', hlookup, hlen'⟩ := h.stored p hp
    by_cases hkey : p.1 = key
    · rw [hkey, hold, Option.some.injEq] at hlookup
      subst hlookup
      exact ⟨entry, by rw [hkey, AList.lookup_insert], hlen'.trans hlen⟩
    · exact ⟨entry', by rw [AList.lookup_insert_ne hkey]; exact hlookup, hlen'⟩

end Covered

theorem bytesOf_append (adding adding' : List (BlobKey × Bytes)) :
    bytesOf (adding ++ adding') = bytesOf adding + bytesOf adding' := by
  rw [bytesOf, List.map_append, List.sum_append, bytesOf, bytesOf]

theorem bytesOf_perm {adding adding' : List (BlobKey × Bytes)} (h : adding.Perm adding') :
    bytesOf adding = bytesOf adding' := (h.map _).sum_eq

namespace BlobThread

variable {s : BlobStore} {clock : Instant} {it : Iteration}

theorem Ordered.perm {t : BlobThread} {adding adding' : List (BlobKey × Bytes)} {removed : Nat}
    (h : t.Ordered s adding removed) (hperm : adding.Perm adding') :
    t.Ordered s adding' removed := by
  cases t with
  | insert key body insertedAt => exact h
  | remove key next => exact fun hkey => h ((hperm.map _).mem_iff.2 hkey)
  | drop key foundAt => exact ⟨fun hkey => h.1 ((hperm.map _).mem_iff.2 hkey), h.2⟩
  | _ => trivial

theorem foldr_remove (keys : List BlobKey) (t : BlobThread) :
    (keys.foldr .remove t).adding = t.adding ∧ (keys.foldr .remove t).removed = t.removed := by
  induction keys with
  | nil => exact ⟨rfl, rfl⟩
  | cons key keys ih => exact ih

theorem foldr_remove_sawExpired (keys : List BlobKey) (t : BlobThread) (ttl : Duration) :
    (keys.foldr .remove t).SawExpired ttl clock ↔ t.SawExpired ttl clock := by
  induction keys with
  | nil => exact Iff.rfl
  | cons key keys ih => exact ih

/-- Only the map and the counter change. -/
theorem step_ttl (t : BlobThread) : (t.step s clock it).1.ttl = s.ttl := by
  cases t with
  | drop key foundAt => simp only [step, removeEntry]; split <;> rfl
  | remove key next => simp only [step, removeEntry]; split <;> rfl
  | _ => rfl

theorem removeEntry_books (s : BlobStore) (key : BlobKey) (next : BlobThread) :
    (removeEntry s key next).1.totalBytes = s.totalBytes ∧
      (removeEntry s key next).2.adding = next.adding ∧
      (removeEntry s key next).1.inner.storedBytes + (removeEntry s key next).2.removed =
        s.inner.storedBytes + next.removed := by
  unfold removeEntry
  split
  · rename_i entry hlookup
    have hstored : s.inner.storedBytes = entry.bytes.length + (s.inner.erase key).weight _ :=
      AList.weight_of_lookup hlookup
    refine ⟨rfl, rfl, ?_⟩
    show Blobs.storedBytes (s.inner.erase key) + (entry.bytes.length + next.removed) = _
    rw [hstored, Blobs.storedBytes]
    omega
  · exact ⟨rfl, rfl, rfl⟩

theorem removeEntry_covered {key : BlobKey} {next : BlobThread} {adding : List (BlobKey × Bytes)}
    (h : Covered s.inner adding) (hkey : key ∉ adding.map (·.1)) :
    Covered (removeEntry s key next).1.inner adding := by
  unfold removeEntry
  split
  · exact h.erase hkey
  · exact h

/-- An ordered step of a call leaves what is yet to be added where it is; `o` is what the other
calls are yet to add. -/
theorem step_covered (t : BlobThread) (it : Iteration) {o : List (BlobKey × Bytes)} {r : Nat}
    (h : Covered s.inner (t.adding ++ o)) (hordered : t.Ordered s (t.adding ++ o) r) :
    Covered (t.step s clock it).1.inner ((t.step s clock it).2.adding ++ o) := by
  cases t with
  | contains key body => simp only [step]; split <;> exact h
  | evict key body => exact h
  | iterate key body now =>
      simp only [step, (foldr_remove _ _).1]
      exact h
  | load key body => simp only [step]; split <;> exact h
  | oldest key body => simp only [step]; split <;> exact h
  | stamp key body => exact h
  | insert key body insertedAt =>
      simp only [step]
      cases hlookup : s.inner.lookup key with
      | none => exact h.insert_new hlookup insertedAt body
      | some entry => exact h.insert_old hlookup (hordered.2 entry hlookup)
  | add key body => exact h.tail
  | find key =>
      simp only [step]
      split
      · exact h
      · split <;> exact h
  | drop key foundAt =>
      simp only [step, (removeEntry_books s key _).2.1]
      exact removeEntry_covered h hordered.1
  | remove key next =>
      simp only [step, (removeEntry_books s key next).2.1]
      exact removeEntry_covered h hordered
  | subtract bytes next => exact h
  | done result => exact h

/-- An ordered step of a call keeps the counter; `o` and `r` are what the other calls are yet to
add and to subtract. -/
theorem step_counter (t : BlobThread) (it : Iteration) {o : List (BlobKey × Bytes)} {r : Nat}
    (hcounter : s.totalBytes.toNat + (bytesOf t.adding + bytesOf o) =
      s.inner.storedBytes + (r + t.removed))
    (hheld : s.inner.storedBytes + (r + t.removed) < 2 ^ 64)
    (hcovered : bytesOf t.adding + bytesOf o ≤ s.inner.storedBytes)
    (hordered : t.Ordered s (t.adding ++ o) (r + t.removed)) :
    (t.step s clock it).1.totalBytes.toNat + (bytesOf (t.step s clock it).2.adding + bytesOf o) =
        (t.step s clock it).1.inner.storedBytes + (r + (t.step s clock it).2.removed) ∧
      (t.step s clock it).1.inner.storedBytes + (r + (t.step s clock it).2.removed) < 2 ^ 64 := by
  cases t with
  | contains key body => simp only [step]; split <;> exact ⟨hcounter, hheld⟩
  | evict key body => exact ⟨hcounter, hheld⟩
  | iterate key body now =>
      obtain ⟨hadding, hremoved⟩ := foldr_remove (expiredKeys it s.ttl now s.inner) (.load key body)
      simp only [step, hadding, hremoved]
      exact ⟨hcounter, hheld⟩
  | load key body => simp only [step]; split <;> exact ⟨hcounter, hheld⟩
  | oldest key body => simp only [step]; split <;> exact ⟨hcounter, hheld⟩
  | stamp key body => exact ⟨hcounter, hheld⟩
  | insert key body insertedAt =>
      have hinsert : Blobs.storedBytes (s.inner.insert key ⟨insertedAt, body⟩) =
          body.length + Blobs.storedBytes (s.inner.erase key) := AList.weight_insert _ _ _ _
      simp only [Ordered, adding, removed] at hordered hcounter hheld
      simp only [step]
      cases hlookup : s.inner.lookup key with
      | none =>
          rw [AList.erase_of_lookup_none hlookup] at hinsert
          have hfits := hordered.1 hlookup
          show s.totalBytes.toNat + (body.length + bytesOf o) = Blobs.storedBytes _ + (r + 0) ∧
            _ + _ < _
          rw [hinsert]
          simp only [removed]
          simp only [bytesOf, List.map_nil, List.sum_nil] at hcounter
          unfold bytesOf
          omega
      | some entry =>
          have hstored : s.inner.storedBytes =
              entry.bytes.length + Blobs.storedBytes (s.inner.erase key) :=
            AList.weight_of_lookup hlookup
          rw [hordered.2 entry hlookup, ← hinsert] at hstored
          rw [← hstored]
          exact ⟨hcounter, hheld⟩
  | add key body =>
      have hbody : bytesOf (adding (.add key body)) = body.length := rfl
      rw [hbody] at hcounter hcovered
      simp only [removed] at hcounter hheld
      simp only [step]
      have hlen : (UInt64.ofNat body.length).toNat = body.length :=
        UInt64.toNat_ofNat_of_lt' (show body.length < 2 ^ 64 by omega)
      rw [BlobStore.toNat_add_of_lt (by omega), hlen]
      show _ + (0 + bytesOf o) = _ ∧ _
      simp only [removed]
      omega
  | find key =>
      simp only [step]
      split
      · exact ⟨hcounter, hheld⟩
      · split <;> exact ⟨hcounter, hheld⟩
  | drop key foundAt =>
      obtain ⟨htotal, hadding, hsum⟩ := removeEntry_books s key (.done (.got none))
      simp only [step, htotal, hadding]
      simp only [adding, removed] at hcounter hheld hsum ⊢
      omega
  | remove key next =>
      obtain ⟨htotal, hadding, hsum⟩ := removeEntry_books s key next
      simp only [step, htotal, hadding]
      simp only [adding, removed] at hcounter hheld hsum ⊢
      omega
  | subtract bytes next =>
      -- What others are yet to add is there, so what the counter lacks is not in `bytes`.
      simp only [adding, removed] at hcounter hheld hcovered
      simp only [step]
      have hlen : (UInt64.ofNat bytes.length).toNat = bytes.length :=
        UInt64.toNat_ofNat_of_lt' (show bytes.length < 2 ^ 64 by omega)
      rw [UInt64.toNat_sub_of_le _ _ (UInt64.le_iff_toNat_le.2 (by omega)), hlen]
      omega
  | done result => exact ⟨hcounter, hheld⟩

theorem step_sawExpired {t : BlobThread} (h : t.SawExpired s.ttl clock) :
    (t.step s clock it).2.SawExpired s.ttl clock := by
  cases t with
  | contains key body => simp only [step]; split <;> trivial
  | iterate key body now => exact (foldr_remove_sawExpired _ _ s.ttl).2 trivial
  | load key body => simp only [step]; split <;> trivial
  | oldest key body => simp only [step]; split <;> trivial
  | insert key body insertedAt => simp only [step]; split <;> trivial
  | find key =>
      simp only [step]
      split
      · trivial
      · split
        · rename_i entry _ hexpired
          have hold : s.ttl ≤ clock.durationSince entry.insertedAt := of_decide_eq_true hexpired
          exact hold
        · trivial
  | drop key foundAt => simp only [step, removeEntry]; split <;> trivial
  | remove key next => simp only [step, removeEntry]; split <;> exact h
  | subtract bytes next => exact h
  | _ => trivial

theorem SawExpired.later {ttl : Duration} {t : BlobThread} (h : t.SawExpired ttl clock)
    (d : Duration) : t.SawExpired ttl (clock + d) := by
  induction t with
  | drop key foundAt =>
      have hthen : ttl ≤ clock - foundAt := h
      exact hthen.trans (Nat.sub_le_sub_right (Nat.le_add_right clock d) foundAt)
  | remove key next ih => exact ih h
  | subtract bytes next ih => exact ih h
  | _ => trivial

/-- Where the books are kept, an ordered step is sound; `removed` is what all calls are yet to
subtract. -/
theorem sound_of_ordered {t : BlobThread} {adding : List (BlobKey × Bytes)} {removed : Nat}
    (hcounter : s.totalBytes.toNat + bytesOf adding = s.inner.storedBytes + removed)
    (hcovered : Covered s.inner adding) (hremoved : t.removed ≤ removed)
    (hexpired : t.SawExpired s.ttl clock) (h : t.Ordered s adding removed) :
    t.Sound s clock := by
  cases t with
  | subtract bytes next =>
      have hthere := hcovered.bytesOf_le
      have hmine : bytes.length + next.removed ≤ removed := hremoved
      show bytes.length ≤ s.totalBytes.toNat
      omega
  | drop key foundAt =>
      -- What is there is as old as what the `get` has found.
      intro entry hlookup
      have hfound : s.ttl ≤ clock - foundAt := hexpired
      exact decide_eq_true (hfound.trans (Nat.sub_le_sub_left (h.2 entry hlookup) clock))
  | _ => trivial

end BlobThread

/-! ## Runs -/

namespace BlobRuntime

theorem books_init (budgetBytes : UInt64) (ttl : Duration) (maxBlobBytes : UInt64) :
    Books (init (.new budgetBytes ttl maxBlobBytes)) :=
  ⟨rfl, ⟨List.nodup_nil, fun _ hp => absurd hp List.not_mem_nil⟩, Nat.two_pow_pos 64,
    fun _ ht => absurd ht List.not_mem_nil⟩

/-- A call that begins holds nothing. -/
theorem books_begin {w : BlobRuntime} (h : Books w) {t : BlobThread} (hadding : t.adding = [])
    (hremoved : t.removed = 0) (hexpired : t.SawExpired w.store.ttl w.clock) :
    Books { w with threads := w.threads ++ [t] } := by
  have hadding' : adding { w with threads := w.threads ++ [t] } = w.adding := by
    simp [adding, hadding]
  have hremoved' : removed { w with threads := w.threads ++ [t] } = w.removed := by
    simp [removed, hremoved]
  constructor
  · rw [hadding', hremoved']
    exact h.counter
  · rw [hadding']
    exact h.covered
  · rw [hremoved']
    exact h.held
  · intro t' ht'
    rcases List.mem_append.1 ht' with ht' | ht'
    · exact h.expired t' ht'
    · rw [List.mem_singleton.1 ht']
      exact hexpired

theorem sound_of_books {w : BlobRuntime} (h : Books w) {e : BlobEvent} (hordered : w.Ordered e) :
    w.Sound e := by
  cases e with
  | thread i it =>
      intro t hget
      have hremoved : w.removed = _ := List.sum_map_eraseIdx BlobThread.removed hget
      exact BlobThread.sound_of_ordered h.counter h.covered (by omega)
        (h.expired t (List.mem_of_getElem? hget)) (hordered t hget)
  | _ => trivial

/-- With no call under way there is nothing between the map and the counter. -/
theorem balanced_of_idle {w : BlobRuntime} (h : Books w) (hidle : w.Idle) :
    w.store.Balanced := by
  have hcounter := h.counter
  have hadding : w.adding = [] := by
    refine List.flatMap_eq_nil_iff.2 fun t ht => ?_
    obtain ⟨result, rfl⟩ := hidle t ht
    rfl
  have hremoved : w.removed = 0 := by
    apply List.sum_eq_zero
    intro n hn
    obtain ⟨t, ht, rfl⟩ := List.mem_map.1 hn
    obtain ⟨result, rfl⟩ := hidle t ht
    rfl
  rw [hadding, hremoved] at hcounter
  exact hcounter

section

variable [Sha256]

theorem books_step {w : BlobRuntime} {e : BlobEvent} (hordered : w.Ordered e) (h : Books w) :
    Books (step w e) := by
  cases e with
  | wait d => exact ⟨h.counter, h.covered, h.held, fun t ht => (h.expired t ht).later d⟩
  | put key body =>
      have hstart : ∀ t, t = BlobThread.startPut w.store.maxBlobBytes key body →
          t.adding = [] ∧ t.removed = 0 ∧ t.SawExpired w.store.ttl w.clock := by
        rintro t rfl
        unfold BlobThread.startPut
        split
        · exact ⟨rfl, rfl, trivial⟩
        · split <;> exact ⟨rfl, rfl, trivial⟩
      obtain ⟨hadding, hremoved, hexpired⟩ := hstart _ rfl
      exact books_begin h hadding hremoved hexpired
  | get key => exact books_begin h rfl rfl trivial
  | thread i it =>
      cases hget : w.threads[i]? with
      | none =>
          simp only [step, hget]
          exact h
      | some t =>
          -- What this call holds, and what all the others do.
          have hadding : w.adding.Perm _ := List.flatMap_perm_eraseIdx BlobThread.adding hget
          have hremoved : w.removed = _ := List.sum_map_eraseIdx BlobThread.removed hget
          have hcounter := h.counter
          have hheld := h.held
          have hstep := (hordered t hget).perm hadding
          have hcovered := h.covered.perm hadding
          have hthere := hcovered.bytesOf_le
          rw [bytesOf_perm hadding, bytesOf_append, hremoved] at hcounter
          rw [hremoved] at hheld hstep
          rw [bytesOf_append] at hthere
          have hadding' := List.flatMap_perm_set BlobThread.adding hget
            (t.step w.store w.clock it).2
          obtain ⟨hcounter', hheld'⟩ := t.step_counter it hcounter hheld hthere hstep
          simp only [step, hget]
          constructor
          · simp only [adding, removed, List.sum_map_set _ hget]
            rw [bytesOf_perm hadding', bytesOf_append]
            exact hcounter'
          · exact (t.step_covered it hcovered hstep).perm hadding'.symm
          · simp only [removed, List.sum_map_set _ hget]
            exact hheld'
          · intro t' ht'
            show t'.SawExpired (t.step w.store w.clock it).1.ttl w.clock
            rw [BlobThread.step_ttl]
            rcases List.mem_or_eq_of_mem_set ht' with ht' | rfl
            · exact h.expired t' ht'
            · exact BlobThread.step_sawExpired (h.expired t (List.mem_of_getElem? hget))

/-- **In every run of ordered steps the counter never wraps below zero, no `get` removes an entry
younger than the TTL, and whenever no call is in progress the counter is right.** -/
theorem threads_accounted (budgetBytes : UInt64) (ttl : Duration) (maxBlobBytes : UInt64)
    (es : List BlobEvent)
    (hordered : Machine.Along step Ordered (init (.new budgetBytes ttl maxBlobBytes)) es) :
    Machine.Along step Sound (init (.new budgetBytes ttl maxBlobBytes)) es ∧
      ∀ pre, pre <+: es → (run (init (.new budgetBytes ttl maxBlobBytes)) pre).Idle →
        (run (init (.new budgetBytes ttl maxBlobBytes)) pre).store.Balanced := by
  have hstep : ∀ w e, Ordered w e → Books w → Books (step w e) := fun _ _ hP hI => books_step hP hI
  have hinit := books_init budgetBytes ttl maxBlobBytes
  constructor
  · apply Machine.along_of_invariant hstep ?_ hinit hordered
    intro w e hP hI
    exact sound_of_books hI hP
  · intro pre hpre hidle
    exact balanced_of_idle (Machine.invariant_throughout hstep hinit hordered pre hpre) hidle

end

/-! ## Two races -/

instance (s : BlobStore) (clock : Instant) : (t : BlobThread) → Decidable (t.Sound s clock)
  | .subtract _ _ => inferInstanceAs (Decidable (_ ≤ _))
  | .drop _ _ => inferInstanceAs (Decidable (∀ entry ∈ _, _))
  | .contains .. | .evict .. | .iterate .. | .load .. | .oldest .. | .stamp .. | .insert ..
  | .add .. | .find .. | .remove .. | .done .. => isTrue trivial

instance (s : BlobStore) (adding : List (BlobKey × Bytes)) (removed : Nat) :
    (t : BlobThread) → Decidable (t.Ordered s adding removed)
  | .insert _ _ _ => inferInstanceAs (Decidable ((_ → _) ∧ ∀ entry ∈ _, _))
  | .remove _ _ => inferInstanceAs (Decidable (_ ∉ _))
  | .drop _ _ => inferInstanceAs (Decidable (_ ∉ _ ∧ ∀ entry ∈ _, _))
  | .contains .. | .evict .. | .iterate .. | .load .. | .oldest .. | .stamp .. | .add ..
  | .find .. | .subtract .. | .done .. => isTrue trivial

instance (w : BlobRuntime) : (e : BlobEvent) → Decidable (w.Sound e)
  | .thread _ _ => inferInstanceAs (Decidable (∀ t ∈ _, _))
  | .wait _ | .put _ _ | .get _ => isTrue trivial

instance (w : BlobRuntime) : (e : BlobEvent) → Decidable (w.Ordered e)
  | .thread _ _ => inferInstanceAs (Decidable (∀ t ∈ _, _))
  | .wait _ | .put _ _ | .get _ => isTrue trivial

def abcBody : Bytes := [0x61, 0x62, 0x63]

def abcKeyOf (groupId : GroupId) : BlobKey := ⟨groupId, @sha256Hex abcSha256 abcBody⟩

/-- So many steps of one call. -/
def steps (i n : Nat) : List BlobEvent := List.replicate n (.thread i BlobStore.asStored)

/-- Two bodies are put in, step by step in turn. When they have expired, a `get` looks for the
first one, and a third body is put in, which evicts both; the `get` removes and subtracts the first
one in between. -/
def callsInTurn : List BlobEvent :=
  [.put (abcKeyOf "g") abcBody, .put (abcKeyOf "h") abcBody] ++
    (List.replicate 7 (steps 0 1 ++ steps 1 1)).flatten ++
    [.wait 1, .get (abcKeyOf "g"), .put (abcKeyOf "k") abcBody] ++
    steps 2 1 ++ steps 3 3 ++ steps 2 2 ++ steps 3 7

theorem callsInTurn_accounted :
    Machine.Along (@step abcSha256) Sound (init (.new 8 1 8)) callsInTurn ∧
      ∀ pre, pre <+: callsInTurn → (@run abcSha256 (init (.new 8 1 8)) pre).Idle →
        (@run abcSha256 (init (.new 8 1 8)) pre).store.Balanced :=
  @threads_accounted abcSha256 8 1 8 callsInTurn (by decide +kernel)

/-- A `put` takes the TTL from reading the clock to inserting. Before it has added the length, a
`get` removes the entry and subtracts it. -/
def removedBeforeAdded : List BlobEvent :=
  [.put (abcKeyOf "g") abcBody] ++ steps 0 5 ++ [.wait (Duration.fromSecs 300)] ++ steps 0 1 ++
    [.get (abcKeyOf "g")] ++ steps 1 3

/-- Two calls to `get` find an entry expired. One removes it, and it is put in anew, before the
other one removes what is there. -/
def replacedBeforeRemoved : List BlobEvent :=
  [.put (abcKeyOf "g") abcBody] ++ steps 0 7 ++ [.wait (Duration.fromSecs 300)] ++
    [.get (abcKeyOf "g"), .get (abcKeyOf "g")] ++ steps 1 1 ++ steps 2 3 ++
    [.put (abcKeyOf "g") abcBody] ++ steps 3 7 ++ steps 1 1

theorem races_unsound :
    ¬ Machine.Along (@step abcSha256) Sound (init (.blobStoreFromEnv fun _ => none))
        removedBeforeAdded ∧
      ¬ Machine.Along (@step abcSha256) Sound (init (.blobStoreFromEnv fun _ => none))
        replacedBeforeRemoved := by
  constructor
  · decide +kernel
  · decide +kernel

end BlobRuntime

end ClipBridge.Relay
