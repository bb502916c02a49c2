import ClipBridge.Core.Basic
import ClipBridge.Lib.Machine
import ClipBridge.Lib.RecencyWindow

/-!
# The cache of recent deliveries

Following `DedupCache` in `core/src/client.rs`: a bounded queue of `(sender, ts)` pairs that
drops a pair already recorded a short time ago.

* `DedupCache.insert` — the one operation.
* `DedupCache.insert_eq` — it is `RecencyWindow.insert` on the queue of entries, whose rules
  then say what the cache remembers.
* `DedupHistory` — a cache, and the calls it has answered. `Repeats` — the answer by the history
  alone: the key was accepted a short time and a few acceptances ago.
* `dedup_refines` — the cache gives this answer in every run.
-/

namespace ClipBridge

/-- What identifies a clip: the sender's device id and its timestamp. -/
abbrev ClipKey := DeviceId × UInt64

structure DedupCache where
  /-- The front of the queue first. -/
  entries : List (ClipKey × Instant)
  capacity : Nat
  ttl : Duration
  deriving DecidableEq, Repr

namespace DedupCache

def new (capacity : Nat) (ttl : Duration) : DedupCache := ⟨[], capacity, ttl⟩

/-- The `while let` loop: drop expired entries from the front. -/
def dropExpired (ttl : Duration) (now : Instant) : List (ClipKey × Instant) →
    List (ClipKey × Instant)
  | [] => []
  | (k, t) :: rest =>
      if ttl < now.durationSince t then dropExpired ttl now rest else (k, t) :: rest

/-- `true` if the key was inserted, that is, if it is not a recent duplicate. -/
def insert (cache : DedupCache) (now : Instant) (sender : DeviceId) (ts : UInt64) :
    Bool × DedupCache :=
  let entries := dropExpired cache.ttl now cache.entries
  if entries.any fun e => e.1.1 == sender && e.1.2 == ts then (false, { cache with entries })
  else
    let entries := if entries.length = cache.capacity then entries.tail else entries
    (true, { cache with entries := entries ++ [((sender, ts), now)] })

/-! ## The cache is a recency window -/

theorem dropExpired_eq (ttl : Duration) (now : Instant) (entries : List (ClipKey × Instant)) :
    dropExpired ttl now entries = RecencyWindow.purge ttl now entries := by
  induction entries with
  | nil => rfl
  | cons e entries ih =>
      obtain ⟨k, t⟩ := e
      by_cases h : ttl < now - t
      · simp [dropExpired, RecencyWindow.purge, RecencyWindow.Stale, Instant.durationSince, h, ih]
      · simp [dropExpired, RecencyWindow.purge, RecencyWindow.Stale, Instant.durationSince, h]

theorem insert_eq (cache : DedupCache) (now : Instant) (sender : DeviceId) (ts : UInt64) :
    cache.insert now sender ts =
      let r := RecencyWindow.insert cache.capacity cache.ttl now (sender, ts) cache.entries
      (r.1, { cache with entries := r.2 }) := by
  have hany : ∀ entries : List (ClipKey × Instant),
      (entries.any fun e => e.1.1 == sender && e.1.2 == ts) =
        entries.any (·.1 = (sender, ts)) := by
    intro entries
    congr 1
    funext e
    simp [Prod.ext_iff, Bool.beq_eq_decide_eq]
  unfold insert RecencyWindow.insert
  dsimp only
  rw [dropExpired_eq, hany]
  split
  · rfl
  · split <;> rfl

theorem nodup_insert {cache : DedupCache} (h : (cache.entries.map Prod.fst).Nodup) (now : Instant)
    (sender : DeviceId) (ts : UInt64) :
    ((cache.insert now sender ts).2.entries.map Prod.fst).Nodup := by
  rw [insert_eq]
  exact RecencyWindow.nodup_insert h

end DedupCache

/-! ## The history of a cache -/

/-- A call of `insert`, at a reading of the clock. -/
structure DedupCall where
  now : Instant
  sender : DeviceId
  ts : UInt64
  deriving DecidableEq, Repr

def DedupCall.key (c : DedupCall) : ClipKey := (c.sender, c.ts)

/-- A cache, and the calls with their answers. -/
structure DedupHistory where
  cache : DedupCache
  answered : List (DedupCall × Bool)

namespace DedupHistory

def init (capacity : Nat) (ttl : Duration) : DedupHistory := ⟨.new capacity ttl, []⟩

def step (h : DedupHistory) (c : DedupCall) : DedupHistory :=
  let (accepted, cache) := h.cache.insert c.now c.sender c.ts
  ⟨cache, h.answered ++ [(c, accepted)]⟩

/-- By the history alone: the key was accepted at most `ttl` ago, and fewer than `capacity` calls
have been accepted since. -/
def Repeats (capacity : Nat) (ttl : Duration) (answered : List (DedupCall × Bool))
    (c : DedupCall) : Prop :=
  ∃ before d after, answered = before ++ (d, true) :: after ∧ d.key = c.key ∧
    c.now - d.now ≤ ttl ∧ after.countP (·.2) < capacity

/-- The accepted keys with their times. -/
def accepted (answered : List (DedupCall × Bool)) : List (ClipKey × Instant) :=
  answered.filterMap fun a => if a.2 then some (a.1.key, a.1.now) else none

theorem accepted_append (answered more : List (DedupCall × Bool)) :
    accepted (answered ++ more) = accepted answered ++ accepted more :=
  List.filterMap_append

theorem length_accepted (answered : List (DedupCall × Bool)) :
    (accepted answered).length = answered.countP (·.2) := by
  induction answered with
  | nil => rfl
  | cons a answered ih =>
      obtain ⟨c, b⟩ := a
      cases b with
      | true => simpa [accepted] using ih
      | false => simpa [accepted] using ih

/-- Where an accepted key is in the list of them, its call is in the history. -/
theorem accepted_eq_append {answered : List (DedupCall × Bool)} {old new : List (ClipKey × Instant)}
    {k : ClipKey} {t : Instant} (h : accepted answered = old ++ (k, t) :: new) :
    ∃ before d after, answered = before ++ (d, true) :: after ∧ d.key = k ∧ d.now = t ∧
      accepted after = new := by
  obtain ⟨front, rest, rfl, hfront, hrest⟩ := List.filterMap_eq_append_iff.1 h
  obtain ⟨skipped, ⟨d, b⟩, after, rfl, hskipped, hd, hafter⟩ := List.filterMap_eq_cons_iff.1 hrest
  cases b with
  | false => cases hd
  | true =>
      cases hd
      exact ⟨front ++ skipped, d, after, by rw [List.append_assoc], rfl, rfl, hafter⟩

/-- The two references agree. -/
theorem repeats_iff {capacity : Nat} {ttl : Duration} {answered : List (DedupCall × Bool)}
    {c : DedupCall} :
    Repeats capacity ttl answered c ↔
      RecencyWindow.Remembers capacity ttl c.now (accepted answered) c.key := by
  rw [RecencyWindow.remembers_iff]
  constructor
  · rintro ⟨before, d, after, rfl, hkey, hfresh, hsince⟩
    refine ⟨accepted before, d.now, accepted after, ?_, hfresh, by rwa [length_accepted]⟩
    rw [accepted_append, ← hkey]
    rfl
  · rintro ⟨old, t, new, hlog, hfresh, hsince⟩
    obtain ⟨before, d, after, rfl, hkey, rfl, rfl⟩ := accepted_eq_append hlog
    exact ⟨before, d, after, rfl, hkey, hfresh, by rwa [length_accepted] at hsince⟩

/-! ## The invariant of a history -/

/-- At time `now` the cache holds what the history says. -/
structure Holds (capacity : Nat) (ttl : Duration) (now : Instant) (h : DedupHistory) : Prop where
  bound : h.cache.capacity = capacity
  age : h.cache.ttl = ttl
  tracks : RecencyWindow.Tracks capacity ttl now (accepted h.answered) h.cache.entries
  nodup : (h.cache.entries.map Prod.fst).Nodup

variable {capacity : Nat} {ttl : Duration} {now : Instant} {h : DedupHistory}

theorem holds_init (capacity : Nat) (ttl : Duration) (now : Instant) :
    Holds capacity ttl now (init capacity ttl) :=
  ⟨rfl, rfl, RecencyWindow.tracks_nil _ _ _, List.nodup_nil⟩

/-- The answer of the cache is the one by the history. -/
theorem Holds.insert_fst (hs : Holds capacity ttl now h) {c : DedupCall} (hnow : now ≤ c.now) :
    (h.cache.insert c.now c.sender c.ts).1 = false ↔ Repeats capacity ttl h.answered c := by
  rw [DedupCache.insert_eq, hs.bound, hs.age, repeats_iff]
  exact (hs.tracks.later hnow).insert_fst c.key

theorem Holds.step (hcap : 0 < capacity) (hs : Holds capacity ttl now h) {c : DedupCall}
    (hnow : now ≤ c.now) : Holds capacity ttl c.now (h.step c) := by
  have hnodup := DedupCache.nodup_insert hs.nodup c.now c.sender c.ts
  have hinsert := DedupCache.insert_eq h.cache c.now c.sender c.ts
  rw [hs.bound, hs.age] at hinsert
  unfold DedupHistory.step
  rw [hinsert] at hnodup ⊢
  refine ⟨rfl, rfl, ?_, hnodup⟩
  have htracks := hs.tracks.later hnow
  show RecencyWindow.Tracks capacity ttl c.now (accepted (h.answered ++ [(c, _)])) _
  rw [accepted_append]
  cases hanswer : (RecencyWindow.insert capacity ttl c.now (c.sender, c.ts) h.cache.entries).1 with
  | false =>
      rw [show accepted [(c, false)] = [] from rfl, List.append_nil]
      exact htracks.insert_repeat hanswer
  | true => exact htracks.insert_new hcap hanswer

/-- Each call of a run in the order of time is answered by the history. -/
theorem holds_run (hcap : 0 < capacity) (ttl : Duration) {calls : List DedupCall}
    (hcalls : calls.Pairwise (·.now ≤ ·.now)) {now : Instant} (hnow : ∀ c ∈ calls, c.now ≤ now) :
    Holds capacity ttl now (Machine.run step (init capacity ttl) calls) := by
  induction calls using List.reverseRecOn generalizing now with
  | nil => exact holds_init capacity ttl now
  | append_singleton calls c ih =>
      obtain ⟨hcalls, -, hlast⟩ := List.pairwise_append.1 hcalls
      have hearlier : ∀ d ∈ calls, d.now ≤ c.now :=
        fun d hd => hlast d hd c (List.mem_singleton_self c)
      have hbefore := ih hcalls hearlier
      have hafter := hbefore.step hcap (Nat.le_refl c.now)
      rw [Machine.run_concat]
      exact { hafter with tracks := hafter.tracks.later (hnow c (by simp)) }

end DedupHistory

open DedupHistory in
/-- **In every run of calls in the order of time, `insert` says `false` exactly for a key that was
accepted at most `ttl` before, with fewer than `capacity` calls accepted since; and the cache never
holds more than `capacity` entries, or a key twice.** -/
theorem dedup_refines {capacity : Nat} (hcap : 0 < capacity) (ttl : Duration)
    {calls : List DedupCall} (hcalls : calls.Pairwise (·.now ≤ ·.now)) :
    (∀ pre c post, calls = pre ++ c :: post →
      let h := Machine.run step (init capacity ttl) pre
      (h.cache.insert c.now c.sender c.ts).1 = false ↔ Repeats capacity ttl h.answered c) ∧
    ∀ pre, pre <+: calls →
      let h := Machine.run step (init capacity ttl) pre
      h.cache.entries.length ≤ capacity ∧ (h.cache.entries.map Prod.fst).Nodup := by
  constructor
  · rintro pre c post rfl
    obtain ⟨hpre, -, hlast⟩ := List.pairwise_append.1 hcalls
    have hearlier : ∀ d ∈ pre, d.now ≤ c.now := fun d hd => hlast d hd c (by simp)
    have hs := holds_run hcap ttl hpre hearlier
    exact hs.insert_fst (Nat.le_refl c.now)
  · rintro pre ⟨post, rfl⟩
    have hpre := (List.pairwise_append.1 hcalls).1
    obtain ⟨now, hnow⟩ : ∃ now, ∀ c ∈ pre, c.now ≤ now :=
      ⟨(pre.map (·.now)).max?.getD 0, fun _ hc => List.le_max?_getD_of_mem (List.mem_map_of_mem hc)⟩
    have hs := holds_run hcap ttl hpre hnow
    exact ⟨hs.tracks.bounded, hs.nodup⟩

/-- A repeat after another key. -/
def repeatCalls : List DedupCall := [⟨0, "A", 1⟩, ⟨1, "B", 1⟩, ⟨4, "A", 1⟩]

theorem repeatCalls_refused :
    let h := Machine.run DedupHistory.step (.init 2 5) (repeatCalls.take 2)
    (h.cache.insert 4 "A" 1).1 = false :=
  ((@dedup_refines 2 (by decide) 5 repeatCalls (by decide)).1 (repeatCalls.take 2) ⟨4, "A", 1⟩ []
    rfl).2 ⟨[], ⟨0, "A", 1⟩, [(⟨1, "B", 1⟩, true)], by decide, rfl, by decide, by decide⟩

end ClipBridge
