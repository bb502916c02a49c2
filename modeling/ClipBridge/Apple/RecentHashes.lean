import ClipBridge.Lib.Binary64
import ClipBridge.Lib.LastUses
import ClipBridge.Lib.Machine

/-!
# The hashes of recent clips on Apple devices

Following `RecentHashes` in `clients/macos/Sources/ClipBridgeApp/BridgeCoordinator.swift`; the
keyboard's `KbRecentHashes` in `clients/ios/Keyboard/KeyboardSync.swift` has the same text. Each
operation reads the clock, and `insert` reads it twice. A `Date` is a `Double` of seconds, and what
is subtracted from it is rounded.

* `RecentHashes.insert`, `RecentHashes.contains` — the operations, with what they read.
* `InsertedWithin` — a hash was inserted at most `ttl` ago, and fewer than `capacity` others since.
* `InsertedRecently` — the same with the rounded difference of now and `ttl`.
* `contains_iff_insertedRecently` — after any calls that is what `contains` says.
-/

namespace ClipBridge.Apple

open LastUses (Recent Tracks keepLast)

/-! ## The set -/

/-- Seconds since the reference date. -/
abbrev Date := Double

abbrev TimeInterval := Double

def Date.addingTimeInterval (date : Date) (interval : TimeInterval) : Date := date + interval

structure RecentHashes where
  capacity : Nat
  ttl : TimeInterval
  entries : List (String × Date)

/-- The copy for the keyboard. -/
abbrev KbRecentHashes := RecentHashes

/-- A call, with the readings of the clock: `prune` has its own. -/
inductive HashCall where
  | insert (hash : String) (prunedAt addedAt : Date)
  | contains (hash : String) (prunedAt : Date)

/-- What a call reads off the clock, in order. -/
def HashCall.readings : HashCall → List Date
  | insert _ prunedAt addedAt => [prunedAt, addedAt]
  | contains _ prunedAt => [prunedAt]

/-- The insertions of some calls, in order. -/
def insertions (calls : List HashCall) : List (String × Date) :=
  calls.filterMap fun
    | .insert hash _ addedAt => some (hash, addedAt)
    | .contains _ _ => none

theorem insertions_sublist (calls : List HashCall) :
    ((insertions calls).map Prod.snd).Sublist (calls.flatMap HashCall.readings) := by
  induction calls with
  | nil => exact List.Sublist.slnil
  | cons call calls ih =>
      cases call with
      | insert hash prunedAt addedAt => exact (ih.cons_cons addedAt).cons prunedAt
      | contains hash prunedAt => exact ih.cons prunedAt

theorem insertions_concat (calls : List HashCall) (call : HashCall) :
    insertions (calls ++ [call]) = insertions calls ++ insertions [call] :=
  List.filterMap_append

/-- What is older at `now` is pruned. -/
def cutoff (ttl : TimeInterval) (now : Date) : Date := Date.addingTimeInterval now (-ttl)

def fresh (ttl : TimeInterval) (now : Date) (entry : String × Date) : Bool :=
  decide (¬ entry.2 < cutoff ttl now)

namespace RecentHashes

def new (capacity : Nat) (ttl : TimeInterval) : RecentHashes := ⟨capacity, ttl, []⟩

def prune (s : RecentHashes) (now : Date) : RecentHashes :=
  { s with entries := s.entries.filter (fresh s.ttl now) }

def contains (s : RecentHashes) (hash : String) (prunedAt : Date) : Bool × RecentHashes :=
  let s := s.prune prunedAt
  (s.entries.any (·.1 = hash), s)

def insert (s : RecentHashes) (hash : String) (prunedAt addedAt : Date) : RecentHashes :=
  let s := s.prune prunedAt
  let entries := s.entries.filter (·.1 ≠ hash)
  let entries := entries ++ [(hash, addedAt)]
  if s.capacity < entries.length then
    { s with entries := entries.drop (entries.length - s.capacity) }
  else { s with entries }

def step (s : RecentHashes) : HashCall → RecentHashes
  | .insert hash prunedAt addedAt => s.insert hash prunedAt addedAt
  | .contains hash prunedAt => (s.contains hash prunedAt).2

abbrev run (s : RecentHashes) (calls : List HashCall) : RecentHashes :=
  Machine.run step s calls

end RecentHashes

/-! ## The reference -/

/-- The clock does not go back. -/
def Forward (times : List Date) : Prop := times.Pairwise (· ≤ ·)

/-- The last insertion of the hash, which was at time `addedAt`; fewer than `capacity` other hashes
have been inserted since. -/
def LastInserted (capacity : Nat) (calls : List HashCall) (hash : String) (addedAt : Date) : Prop :=
  ∃ old new, insertions calls = old ++ (hash, addedAt) :: new ∧ hash ∉ new.map Prod.fst ∧
    (new.map Prod.fst).toFinset.card < capacity

/-- The last insertion is at most `ttl` ago. -/
def InsertedWithin (capacity : Nat) (ttl : TimeInterval) (calls : List HashCall) (hash : String)
    (now : Date) : Prop :=
  ∃ addedAt, LastInserted capacity calls hash addedAt ∧ now.val - addedAt.val ≤ ttl.val

/-- The last insertion is not before the cutoff. -/
def InsertedRecently (capacity : Nat) (ttl : TimeInterval) (calls : List HashCall) (hash : String)
    (now : Date) : Prop :=
  ∃ addedAt, LastInserted capacity calls hash addedAt ∧ cutoff ttl now ≤ addedAt

theorem InsertedWithin.recently {capacity : Nat} {ttl : TimeInterval} {calls : List HashCall}
    {hash : String} {now : Date} (h : InsertedWithin capacity ttl calls hash now) :
    InsertedRecently capacity ttl calls hash now := by
  obtain ⟨addedAt, hlast, hage⟩ := h
  refine ⟨addedAt, hlast, Double.add_le_of_val_le ?_⟩
  rw [Double.val_neg]
  linarith

/-- Where nothing is rounded, the cutoff is what is `ttl` ago. -/
theorem insertedRecently_iff_within {capacity : Nat} {ttl : TimeInterval} {calls : List HashCall}
    {hash : String} {now : Date} (h : Binary64.IsDouble (now.val - ttl.val)) :
    InsertedRecently capacity ttl calls hash now ↔ InsertedWithin capacity ttl calls hash now := by
  refine ⟨?_, InsertedWithin.recently⟩
  rintro ⟨addedAt, hlast, hcutoff⟩
  refine ⟨addedAt, hlast, ?_⟩
  rw [sub_eq_add_neg] at h
  have hexact : (cutoff ttl now).val = now.val + -ttl.val := Double.val_add_of_isDouble h
  have hle := Double.le_iff.1 hcutoff
  rw [hexact] at hle
  linarith

/-! ## What the entries say -/

theorem fading_fresh (ttl : TimeInterval) : RecentLog.Fading (fresh ttl) := by
  intro s t e hle hfresh
  have hlt := of_decide_eq_true hfresh
  exact decide_eq_true fun hstale =>
    hlt (hstale.trans_le (Double.add_le_add_right hle (-ttl)))

theorem aging_insertions {ttl : TimeInterval} {calls : List HashCall}
    (h : Forward (calls.flatMap HashCall.readings)) :
    RecentLog.Aging (fresh ttl) (insertions calls) := by
  have hsorted := List.pairwise_map.1 (h.sublist (insertions_sublist calls))
  refine hsorted.imp fun hle t hfresh => ?_
  have hlt := of_decide_eq_true hfresh
  exact decide_eq_true fun hstale => hlt (hle.trans_lt hstale)

/-- What is kept of a list by `insert`. -/
theorem insert_entries (s : RecentHashes) (hash : String) (prunedAt addedAt : Date) :
    (s.insert hash prunedAt addedAt).entries = keepLast s.capacity
      (LastUses.use Prod.fst (RecentLog.retain (fresh s.ttl) prunedAt s.entries)
        (hash, addedAt)) := by
  unfold RecentHashes.insert
  dsimp only
  split
  · rfl
  · rename_i hfits
    exact (LastUses.keepLast_of_le (Nat.not_lt.1 hfits)).symm

theorem run_limits (s : RecentHashes) (calls : List HashCall) :
    (s.run calls).capacity = s.capacity ∧ (s.run calls).ttl = s.ttl := by
  refine Machine.invariant_run
    (I := fun s' : RecentHashes => s'.capacity = s.capacity ∧ s'.ttl = s.ttl)
    (fun s' call h => ?_) ⟨rfl, rfl⟩ calls
  cases call with
  | insert hash prunedAt addedAt =>
      simp only [RecentHashes.step, RecentHashes.insert]
      split <;> exact h
  | contains hash prunedAt => exact h

/-- A call prunes after all the earlier readings, and before the later ones. -/
theorem Forward.pruned {earlier : List Date} (rest : List Date) {prunedAt now : Date}
    (h : Forward (earlier ++ prunedAt :: (rest ++ [now]))) :
    Forward (earlier ++ [prunedAt]) ∧ prunedAt ≤ now :=
  ⟨h.sublist (List.Sublist.append_left (by simp) _),
    (List.pairwise_cons.1 (List.pairwise_append.1 h).2.1).1 now (by simp)⟩

/-- **Until the clock is read again, the entries answer like the insertions.** -/
theorem tracks_run (capacity : Nat) (ttl : TimeInterval) (calls : List HashCall)
    (now : Date) (h : Forward (calls.flatMap HashCall.readings ++ [now])) :
    Tracks Prod.fst (fresh ttl) capacity now (insertions calls)
      ((RecentHashes.new capacity ttl).run calls).entries := by
  induction calls using List.reverseRecOn generalizing now with
  | nil => exact LastUses.tracks_nil now
  | append_singleton calls call ih =>
      rw [List.flatMap_append, List.flatMap_singleton, List.append_assoc] at h
      have haging : RecentLog.Aging (fresh ttl) (insertions calls) :=
        aging_insertions (h.sublist (List.sublist_append_left _ _))
      obtain ⟨hcapacity, httl⟩ := run_limits (RecentHashes.new capacity ttl) calls
      rw [RecentHashes.run, Machine.run_concat, insertions_concat]
      cases call with
      | insert hash prunedAt addedAt =>
          obtain ⟨hbefore, hle⟩ := Forward.pruned [addedAt] h
          have hpruned := ((ih prunedAt hbefore).retain haging).use haging (hash, addedAt)
          have hentries := insert_entries ((RecentHashes.new capacity ttl).run calls) hash prunedAt
            addedAt
          rw [hcapacity, httl] at hentries
          show Tracks _ _ _ _ _ (RecentHashes.insert _ hash prunedAt addedAt).entries
          rw [hentries]
          exact hpruned.later (fading_fresh ttl) hle
      | contains hash prunedAt =>
          obtain ⟨hbefore, hle⟩ := Forward.pruned [] h
          have hpruned := (ih prunedAt hbefore).retain haging
          show Tracks _ _ _ _ (insertions calls ++ []) (RecentLog.retain _ prunedAt _)
          rw [httl, List.append_nil]
          exact hpruned.later (fading_fresh ttl) hle

theorem contains_iff_of_forward (capacity : Nat) (ttl : TimeInterval) (calls : List HashCall)
    (hash : String) (now : Date) (h : Forward (calls.flatMap HashCall.readings ++ [now])) :
    (((RecentHashes.new capacity ttl).run calls).contains hash now).1 = true ↔
      InsertedRecently capacity ttl calls hash now := by
  have htracks := tracks_run capacity ttl calls now h
  have haging : RecentLog.Aging (fresh ttl) (insertions calls) :=
    aging_insertions (h.sublist (List.sublist_append_left _ _))
  have httl : ((RecentHashes.new capacity ttl).run calls).ttl = ttl :=
    (run_limits (RecentHashes.new capacity ttl) calls).2
  have hfresh : ∀ addedAt, fresh ttl now (hash, addedAt) = true ↔ cutoff ttl now ≤ addedAt := by
    intro addedAt
    rw [fresh, decide_eq_true_eq, not_lt]
  have hmem : (((RecentHashes.new capacity ttl).run calls).contains hash now).1 = true ↔
      ∃ addedAt, (hash, addedAt) ∈ ((RecentHashes.new capacity ttl).run calls).entries ∧
        fresh ttl now (hash, addedAt) = true := by
    simp [RecentHashes.contains, RecentHashes.prune, httl]
  rw [hmem]
  constructor
  · rintro ⟨addedAt, hentry⟩
    obtain ⟨hlast, hrecent⟩ := (htracks.mem_iff haging).1 hentry
    exact ⟨addedAt, hlast, (hfresh addedAt).1 hrecent⟩
  · rintro ⟨addedAt, hlast, hrecent⟩
    exact ⟨addedAt, (htracks.mem_iff haging).2 ⟨hlast, (hfresh addedAt).2 hrecent⟩⟩

/-- **After any calls, a hash is in the set exactly if its last insertion is not before the cutoff
and fewer than `capacity` other hashes have been inserted since.** So it is if that was at most
`ttl` ago, and only then where the cutoff is not rounded. The set has at most `capacity` entries,
and no hash twice. -/
theorem contains_iff_insertedRecently (capacity : Nat) (ttl : TimeInterval)
    (calls : List HashCall) (hash : String) (now : Date)
    (h : Forward (calls.flatMap HashCall.readings ++ [now])) :
    let s := (RecentHashes.new capacity ttl).run calls
    ((s.contains hash now).1 = true ↔ InsertedRecently capacity ttl calls hash now) ∧
      (InsertedWithin capacity ttl calls hash now → (s.contains hash now).1 = true) ∧
      (Binary64.IsDouble (now.val - ttl.val) →
        ((s.contains hash now).1 = true ↔ InsertedWithin capacity ttl calls hash now)) ∧
      s.entries.length ≤ capacity ∧ (s.entries.map Prod.fst).Nodup := by
  intro s
  have htracks : Tracks Prod.fst (fresh ttl) capacity now (insertions calls) s.entries :=
    tracks_run capacity ttl calls now h
  have hiff := contains_iff_of_forward capacity ttl calls hash now h
  refine ⟨hiff, fun hwithin => hiff.2 hwithin.recently, fun hexact => ?_, htracks.bounded,
    htracks.nodup⟩
  exact hiff.trans (insertedRecently_iff_within hexact)

/-! ## Runs on fixed inputs -/

/-- The keyboard's set, with two places, and the TTL of five minutes that all sets have. -/
def threeInserted : List HashCall :=
  [.insert "a" (.ofRat 0) (.ofRat 0), .insert "b" (.ofRat 10) (.ofRat 11),
    .contains "a" (.ofRat 20), .insert "a" (.ofRat 30) (.ofRat 30),
    .insert "c" (.ofRat 40) (.ofRat 40)]

theorem threeInserted_contains :
    let s : KbRecentHashes := (RecentHashes.new 2 (.ofRat 300)).run threeInserted
    let now : Date := .ofRat 330
    ((s.contains "a" now).1 = true ↔
        InsertedRecently 2 (.ofRat 300) threeInserted "a" now) ∧
      (InsertedWithin 2 (.ofRat 300) threeInserted "a" now → (s.contains "a" now).1 = true) ∧
      (Binary64.IsDouble (now.val - (Double.ofRat 300).val) →
        ((s.contains "a" now).1 = true ↔
          InsertedWithin 2 (.ofRat 300) threeInserted "a" now)) ∧
      s.entries.length ≤ 2 ∧ (s.entries.map Prod.fst).Nodup :=
  contains_iff_insertedRecently 2 (.ofRat 300) threeInserted "a" (.ofRat 330)
    (by unfold Forward; decide +kernel)

/-- Twenty-five years after the reference date. -/
def insertedAt : Date := .ofRat 800000000

/-- The TTL and less than 2⁻²³ seconds later, which is the last place of the readings then. -/
def pastTtl : Date := .ofRat (800000000 + 2517421261 / 2 ^ 23)

theorem contains_pastTtl :
    ¬ ∀ (capacity : Nat) (ttl : TimeInterval) (calls : List HashCall) (hash : String) (now : Date),
      1 ≤ capacity → Forward (calls.flatMap HashCall.readings ++ [now]) →
        ((((RecentHashes.new capacity ttl).run calls).contains hash now).1 = true ↔
          InsertedWithin capacity ttl calls hash now) := by
  intro h
  have hiff := h 32 (.ofRat 300.1) [.insert "a" insertedAt insertedAt] "a" pastTtl (by decide)
    (by unfold Forward; decide +kernel)
  obtain ⟨addedAt, ⟨old, new, hlog, -, -⟩, hage⟩ := hiff.1 (by decide +kernel)
  -- It was inserted once.
  have hmem : ("a", addedAt) ∈ insertions [.insert "a" insertedAt insertedAt] := by
    rw [hlog]
    simp
  have hadded : addedAt = insertedAt := by simpa [insertions] using hmem
  rw [hadded] at hage
  exact absurd hage (by decide +kernel)

end ClipBridge.Apple
