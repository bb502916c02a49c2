import ClipBridge.Lib.LastUses
import ClipBridge.Lib.LruSet
import ClipBridge.Lib.Machine

/-!
# The hashes of recent images

Following `remember_hash` in `clients/windows/src/bridge.rs`: a queue of hashes, with the one that
was used last at its end.

* `rememberHash` — the queue as the code has it; `touch_eq` — the bounded set that the other modules
  use is this queue.
* `tracksHashes_run` — after any calls it holds the last uses of the last 32 hashes, in order.
* `rememberHash_recent` — so it knows a hash exactly if that is one of the 32 that were used last.
-/

namespace ClipBridge.Windows

open LastUses (Recent UsedBefore lastUses keepLast)

/-- `CAP`. -/
def hashCap : Nat := 32

/-- The first component is whether the hash was there before. -/
def rememberHash (q : List String) (hash : String) : Bool × List String :=
  match q.idxOf? hash with
  | some pos => (true, q.eraseIdx pos ++ [hash])
  | none => (false, List.fittingSuffix (·.length ≤ hashCap) (q ++ [hash]))

/-- The queue after some calls. -/
abbrev hashesAfter (q : List String) (calls : List String) : List String :=
  Machine.run (fun q hash => (rememberHash q hash).2) q calls

/-! ## One call -/

section

variable {q : List String} {hash : String}

theorem rememberHash_of_mem (h : hash ∈ q) :
    rememberHash q hash = (true, q.erase hash ++ [hash]) := by
  unfold rememberHash
  cases hidx : q.idxOf? hash with
  | none => exact absurd h (List.idxOf?_eq_none_iff.1 hidx)
  | some pos =>
      have herase := List.erase_eq_eraseIdx q hash
      rw [hidx] at herase
      rw [herase]

theorem rememberHash_of_notMem (h : hash ∉ q) :
    rememberHash q hash = (false, keepLast hashCap (q ++ [hash])) := by
  rw [rememberHash, List.idxOf?_eq_none_iff.2 h, LastUses.fittingSuffix_length_le]

theorem rememberHash_fst (q : List String) (hash : String) :
    (rememberHash q hash).1 = decide (hash ∈ q) := by
  by_cases h : hash ∈ q
  · simp [rememberHash_of_mem h, h]
  · simp [rememberHash_of_notMem h, h]

/-- A call moves the hash to the end of the queue, and trims it. -/
theorem rememberHash_snd (hnodup : q.Nodup) (hlen : q.length ≤ hashCap) (hash : String) :
    (rememberHash q hash).2 = keepLast hashCap (LastUses.use id q hash) := by
  by_cases h : hash ∈ q
  · have hmoved : q.erase hash = q.filter (id · ≠ id hash) := by
      rw [hnodup.erase_eq_filter]
      refine List.filter_congr fun b _ => ?_
      by_cases hb : b = hash <;> simp [hb]
    have hshort : (q.erase hash ++ [hash]).length ≤ hashCap := by
      rw [List.length_append, List.length_singleton, List.length_erase_add_one h]
      exact hlen
    rw [rememberHash_of_mem h, LastUses.use, ← hmoved, LastUses.keepLast_of_le hshort]
  · have hother : q.filter (id · ≠ id hash) = q := by
      rw [List.filter_eq_self]
      intro b hb
      refine decide_eq_true ?_
      rintro (rfl : b = hash)
      exact h hb
    rw [rememberHash_of_notMem h, LastUses.use, hother]

end

/-- The bounded set is this queue. -/
theorem touch_eq (s : LruSet String hashCap) (hash : String) :
    rememberHash s.keys hash = ((s.touch hash).1, (s.touch hash).2.keys) := by
  unfold LruSet.touch
  by_cases h : hash ∈ s.keys
  · rw [rememberHash_of_mem h, dif_pos h]
  · rw [rememberHash_of_notMem h, dif_neg h]
    rfl

/-! ## Every run -/

/-- No hash is ever too old. -/
def always (_ : Unit) (_ : String) : Bool := true

theorem aging_always (log : List String) : RecentLog.Aging always log :=
  List.pairwise_of_forall fun _ _ _ _ => rfl

/-- The queue holds what the log says. -/
abbrev TracksHashes (log q : List String) : Prop := LastUses.Tracks id always hashCap () log q

theorem tracksHashes_self {q : List String} (hnodup : q.Nodup) (hlen : q.length ≤ hashCap) :
    TracksHashes q q := by
  have hself : lastUses id q = q := LastUses.lastUses_eq_self (by rwa [List.map_id])
  constructor
  case suffix => rw [hself]
  case bounded => exact hlen
  case complete => exact fun s hs _ _ => hself ▸ hs

theorem tracksHashes_call {log q : List String} (h : TracksHashes log q) (hash : String) :
    TracksHashes (log ++ [hash]) (rememberHash q hash).2 := by
  have hnodup := h.nodup
  rw [List.map_id] at hnodup
  rw [rememberHash_snd hnodup h.bounded]
  exact h.use (aging_always log) hash

theorem tracksHashes_run {log q : List String} (h : TracksHashes log q) (calls : List String) :
    TracksHashes (log ++ calls) (hashesAfter q calls) := by
  induction calls using List.reverseRecOn with
  | nil => rwa [List.append_nil]
  | append_singleton calls hash ih =>
      rw [hashesAfter, Machine.run_concat, ← List.append_assoc]
      exact tracksHashes_call ih hash

/-- A hash is in the queue if it was used recently. -/
theorem TracksHashes.mem_iff {log q : List String} (h : TracksHashes log q) (hash : String) :
    hash ∈ q ↔ Recent id hashCap log hash := by
  have hmem := LastUses.Tracks.mem_iff (a := hash) (aging_always log) h
  simpa [always] using hmem

/-- **After any calls, a hash is known exactly if it is one of the 32 that were used last, and the
queue holds at most 32 hashes, each once, in the order of their last uses.** -/
theorem rememberHash_recent (calls : List String) (hash : String) :
    ((rememberHash (hashesAfter [] calls) hash).1 = true ↔ Recent id hashCap calls hash) ∧
      (hashesAfter [] calls).length ≤ hashCap ∧ (hashesAfter [] calls).Nodup ∧
      (hashesAfter [] calls).Pairwise (UsedBefore id calls) := by
  have h : TracksHashes calls (hashesAfter [] calls) :=
    tracksHashes_run (LastUses.tracks_nil ()) calls
  have hnodup := h.nodup
  rw [List.map_id] at hnodup
  refine ⟨?_, h.bounded, hnodup, (LastUses.pairwise_lastUses calls).sublist h.suffix.sublist⟩
  rw [rememberHash_fst, decide_eq_true_eq]
  exact h.mem_iff hash

end ClipBridge.Windows
