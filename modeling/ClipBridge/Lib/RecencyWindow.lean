import Mathlib.Data.List.Basic
import Mathlib.Data.List.Pairwise

/-!
# A bounded memory of recent keys

A queue of keys beside the times they were recorded at, oldest first. Before it is read, entries
older than `ttl` are dropped from its front; a key still in it is a repeat and is not recorded;
a queue of `cap` keys makes room by dropping its oldest one.

The reference is a statement about the log of all keys ever recorded: a key is remembered if it
was recorded at most `ttl` ago and fewer than `cap` keys were recorded since.

* `insert` — the queue's one operation.
* `Remembers` — the reference.
* `Tracks` — the queue holds what the log says, kept by time passing and by `insert`.
* `Tracks.insert_fst` — `insert` reports a repeat exactly for a key that is remembered.
* `nodup_insert` — no key is in the queue twice.
-/

namespace RecencyWindow

variable {κ : Type*}

/-- An entry recorded at time `e.2` is stale at time `now`. -/
def Stale (ttl now : Nat) (e : κ × Nat) : Prop := ttl < now - e.2

instance (ttl now : Nat) (e : κ × Nat) : Decidable (Stale ttl now e) :=
  inferInstanceAs (Decidable (ttl < now - e.2))

/-- Drop stale entries from the front. -/
def purge (ttl now : Nat) (entries : List (κ × Nat)) : List (κ × Nat) :=
  entries.dropWhile (Stale ttl now ·)

/-- Record a key, unless it is a repeat: `false` means that it was. -/
def insert [DecidableEq κ] (cap ttl now : Nat) (k : κ) (entries : List (κ × Nat)) :
    Bool × List (κ × Nat) :=
  if (purge ttl now entries).any (·.1 = k) then (false, purge ttl now entries)
  else if (purge ttl now entries).length = cap then
    (true, (purge ttl now entries).tail ++ [(k, now)])
  else (true, purge ttl now entries ++ [(k, now)])

/-! ## The reference -/

/-- Key `k` was recorded at most `ttl` ago, and fewer than `cap` keys were recorded since. -/
def Remembers (cap ttl now : Nat) (log : List (κ × Nat)) (k : κ) : Prop :=
  ∃ i t, log[i]? = some (k, t) ∧ now - t ≤ ttl ∧ log.length - (i + 1) < cap

/-- The same, by what was recorded before the key and since. -/
theorem remembers_iff {cap ttl now : Nat} {log : List (κ × Nat)} {k : κ} :
    Remembers cap ttl now log k ↔
      ∃ old t new, log = old ++ (k, t) :: new ∧ now - t ≤ ttl ∧ new.length < cap := by
  constructor
  · rintro ⟨i, t, hi, hfresh, hsince⟩
    obtain ⟨hlt, hget⟩ := List.getElem?_eq_some_iff.1 hi
    refine ⟨log.take i, t, log.drop (i + 1), ?_, hfresh, by rw [List.length_drop]; omega⟩
    rw [← hget, List.getElem_cons_drop, List.take_append_drop]
  · rintro ⟨old, t, new, rfl, hfresh, hsince⟩
    refine ⟨old.length, t, by simp, hfresh, ?_⟩
    simp only [List.length_append, List.length_cons]
    omega

instance decidableRemembers [DecidableEq κ] (cap ttl now : Nat) (log : List (κ × Nat)) (k : κ) :
    Decidable (Remembers cap ttl now log k) :=
  decidable_of_iff
    (∃ i : Fin log.length, log[i].1 = k ∧ now - log[i].2 ≤ ttl ∧ log.length - (i + 1) < cap) <| by
      constructor
      · rintro ⟨i, rfl, hfresh, hsince⟩
        exact ⟨i, log[i].2, List.getElem?_eq_getElem i.2, hfresh, hsince⟩
      · rintro ⟨i, t, hi, hfresh, hsince⟩
        obtain ⟨hlt, hget⟩ := List.getElem?_eq_some_iff.1 hi
        refine ⟨⟨i, hlt⟩, ?_, ?_, hsince⟩
        · exact congrArg Prod.fst hget
        · show now - log[i].2 ≤ ttl
          rw [hget]
          exact hfresh

/-- The queue is the end of the log; what it has let go is stale or has `cap` keys after it. -/
structure Tracks (cap ttl now : Nat) (log entries : List (κ × Nat)) : Prop where
  sorted : log.Pairwise (·.2 ≤ ·.2)
  past : ∀ e ∈ log, e.2 ≤ now
  bounded : entries.length ≤ cap
  suffix : ∃ n, n ≤ log.length ∧ entries = log.drop n ∧
    ∀ i e, i < n → log[i]? = some e → Stale ttl now e ∨ cap ≤ log.length - (i + 1)

theorem tracks_nil (cap ttl now : Nat) : Tracks cap ttl now ([] : List (κ × Nat)) [] :=
  ⟨by simp, by simp, by simp, 0, by simp⟩

/-- Time passes. -/
theorem Tracks.later {cap ttl now now' : Nat} {log entries : List (κ × Nat)}
    (h : Tracks cap ttl now log entries) (hle : now ≤ now') :
    Tracks cap ttl now' log entries := by
  obtain ⟨n, hn, hent, hgone⟩ := h.suffix
  refine ⟨h.sorted, fun e he => Nat.le_trans (h.past e he) hle, h.bounded, n, hn, hent, ?_⟩
  intro i e hi he
  refine (hgone i e hi he).imp_left fun hstale => ?_
  unfold Stale at *
  omega

/-! ## Purging -/

/-- Of a queue in order of time, purging drops exactly the stale entries. -/
theorem purge_eq_drop (ttl now : Nat) {entries : List (κ × Nat)}
    (hs : entries.Pairwise (·.2 ≤ ·.2)) :
    ∃ m, m ≤ entries.length ∧ purge ttl now entries = entries.drop m ∧
      (∀ i e, i < m → entries[i]? = some e → Stale ttl now e) ∧
      ∀ e ∈ entries.drop m, ¬ Stale ttl now e := by
  induction entries with
  | nil => exact ⟨0, by simp [purge]⟩
  | cons a entries ih =>
      rw [List.pairwise_cons] at hs
      by_cases ha : Stale ttl now a
      · obtain ⟨m, hm, hpurge, hold, hnew⟩ := ih hs.2
        refine ⟨m + 1, by simpa using hm, ?_, ?_, by simpa using hnew⟩
        · rw [List.drop_succ_cons, ← hpurge]
          simp [purge, ha]
        · intro i e hi he
          cases i with
          | zero =>
              simp only [List.getElem?_cons_zero, Option.some.injEq] at he
              exact he ▸ ha
          | succ i => exact hold i e (by omega) (by simpa using he)
      · refine ⟨0, Nat.zero_le _, by simp [purge, ha], by simp, ?_⟩
        intro e he
        rcases List.mem_cons.1 he with rfl | he
        · exact ha
        · have := hs.1 e he
          unfold Stale at *
          omega

/-- Purging keeps the queue in line with the log, and leaves no stale entry in it. -/
theorem Tracks.purge {cap ttl now : Nat} {log entries : List (κ × Nat)}
    (h : Tracks cap ttl now log entries) :
    Tracks cap ttl now log (purge ttl now entries) ∧
      ∀ e ∈ RecencyWindow.purge ttl now entries, ¬ Stale ttl now e := by
  obtain ⟨n, hn, rfl, hgone⟩ := h.suffix
  obtain ⟨m, hm, hpurge, hold, hnew⟩ :=
    purge_eq_drop ttl now (h.sorted.sublist (List.drop_sublist n log))
  rw [hpurge]
  refine ⟨⟨h.sorted, h.past, ?_, n + m, ?_, by rw [List.drop_drop], ?_⟩, hnew⟩
  · have := h.bounded
    simp only [List.length_drop] at this ⊢
    omega
  · simp only [List.length_drop] at hm
    omega
  · intro i e hi he
    by_cases hin : i < n
    · exact hgone i e hin he
    · refine Or.inl (hold (i - n) e (by omega) ?_)
      rw [List.getElem?_drop, show n + (i - n) = i by omega]
      exact he

/-! ## The reference is met -/

/-- A key is in the purged queue exactly if it is remembered. -/
theorem Tracks.mem_purge_iff {cap ttl now : Nat} {log entries : List (κ × Nat)}
    (h : Tracks cap ttl now log entries) (k : κ) :
    (∃ t, (k, t) ∈ RecencyWindow.purge ttl now entries) ↔ Remembers cap ttl now log k := by
  obtain ⟨hp, hfresh⟩ := h.purge
  obtain ⟨n, hn, hent, hgone⟩ := hp.suffix
  have hlen := hp.bounded
  rw [hent] at hfresh hlen ⊢
  rw [List.length_drop] at hlen
  constructor
  · rintro ⟨t, ht⟩
    obtain ⟨j, hj⟩ := List.getElem?_of_mem ht
    have hlt := (List.getElem?_eq_some_iff.1 hj).1
    rw [List.length_drop] at hlt
    refine ⟨n + j, t, by rwa [List.getElem?_drop] at hj, ?_, by omega⟩
    exact Nat.le_of_not_lt (hfresh _ ht)
  · rintro ⟨i, t, hi, ht, hsince⟩
    have hni : n ≤ i := by
      by_contra hlt
      rcases hgone i _ (by omega) hi with hstale | hmany
      · unfold Stale at hstale
        simp only at hstale
        omega
      · omega
    refine ⟨t, List.mem_of_getElem? (i := i - n) ?_⟩
    rw [List.getElem?_drop, show n + (i - n) = i by omega]
    exact hi

section

variable [DecidableEq κ]

/-- **`insert` reports a repeat exactly for a key that is remembered.** -/
theorem Tracks.insert_fst {cap ttl now : Nat} {log entries : List (κ × Nat)}
    (h : Tracks cap ttl now log entries) (k : κ) :
    (insert cap ttl now k entries).1 = false ↔ Remembers cap ttl now log k := by
  rw [← h.mem_purge_iff k]
  unfold insert
  split
  · rename_i hany
    simpa using hany
  · rename_i hany
    have hnone : ¬ ∃ t, (k, t) ∈ RecencyWindow.purge ttl now entries := by simpa using hany
    simp only [hnone, iff_false, Bool.not_eq_false]
    split <;> rfl

/-- A repeat only purges the queue. -/
theorem Tracks.insert_repeat {cap ttl now : Nat} {log entries : List (κ × Nat)}
    (h : Tracks cap ttl now log entries) {k : κ}
    (hk : (insert cap ttl now k entries).1 = false) :
    Tracks cap ttl now log (insert cap ttl now k entries).2 := by
  unfold insert at hk ⊢
  split
  · exact h.purge.1
  · rename_i hany
    rw [if_neg hany] at hk
    split at hk <;> simp at hk

/-- A new key is recorded in the queue and in the log. -/
theorem Tracks.insert_new {cap ttl now : Nat} {log entries : List (κ × Nat)}
    (h : Tracks cap ttl now log entries) (hcap : 0 < cap) {k : κ}
    (hk : (insert cap ttl now k entries).1 = true) :
    Tracks cap ttl now (log ++ [(k, now)]) (insert cap ttl now k entries).2 := by
  obtain ⟨hp, -⟩ := h.purge
  obtain ⟨n, hn, hent, hgone⟩ := hp.suffix
  have hlen := hp.bounded
  have hsorted : (log ++ [(k, now)]).Pairwise (·.2 ≤ ·.2) := by
    rw [List.pairwise_append]
    refine ⟨h.sorted, by simp, fun e he f hf => ?_⟩
    rw [List.mem_singleton.1 hf]
    exact h.past e he
  have hpast : ∀ e ∈ log ++ [(k, now)], e.2 ≤ now := by
    intro e he
    rcases List.mem_append.1 he with he | he
    · exact h.past e he
    · exact Nat.le_of_eq (by rw [List.mem_singleton.1 he])
  -- What was let go before stays so: there is only one more key after it.
  have hgone' : ∀ i e, i < n → (log ++ [(k, now)])[i]? = some e →
      Stale ttl now e ∨ cap ≤ (log ++ [(k, now)]).length - (i + 1) := by
    intro i e hi he
    rw [List.getElem?_append_left (by omega)] at he
    refine (hgone i e hi he).imp_right fun hmany => ?_
    simp only [List.length_append, List.length_singleton]
    omega
  unfold insert at hk ⊢
  split
  · rename_i hany
    rw [if_pos hany] at hk
    simp at hk
  · split
    · rename_i hfull
      rw [hent] at hfull ⊢
      rw [List.length_drop] at hfull
      refine ⟨hsorted, hpast, ?_, n + 1, ?_, ?_, ?_⟩
      · simp only [List.tail_drop, List.length_append, List.length_drop, List.length_singleton]
        omega
      · simp only [List.length_append, List.length_singleton]
        omega
      · rw [List.tail_drop, List.drop_append_of_le_length (by omega)]
      · intro i e hi he
        rcases Nat.lt_succ_iff_lt_or_eq.1 hi with hi | rfl
        · exact hgone' i e hi he
        · refine Or.inr ?_
          simp only [List.length_append, List.length_singleton]
          omega
    · rename_i hroom
      rw [hent] at hlen hroom ⊢
      refine ⟨hsorted, hpast, ?_, n, ?_, ?_, hgone'⟩
      · simp only [List.length_append, List.length_singleton]
        omega
      · simp only [List.length_append, List.length_singleton]
        omega
      · rw [List.drop_append_of_le_length hn]

/-- No key is in the queue twice. -/
theorem nodup_insert {cap ttl now : Nat} {k : κ} {entries : List (κ × Nat)}
    (h : (entries.map Prod.fst).Nodup) : ((insert cap ttl now k entries).2.map Prod.fst).Nodup := by
  have hpurge : ((purge ttl now entries).map Prod.fst).Nodup :=
    h.sublist ((List.dropWhile_sublist _).map Prod.fst)
  unfold insert
  split
  · exact hpurge
  · rename_i hany
    have hnew : ∀ rest : List (κ × Nat), rest.Sublist (purge ttl now entries) →
        ((rest ++ [(k, now)]).map Prod.fst).Nodup := by
      intro rest hrest
      rw [List.map_append, List.map_singleton, List.nodup_append]
      refine ⟨hpurge.sublist (hrest.map Prod.fst), by simp, ?_⟩
      intro a ha b hb hab
      obtain ⟨e, he, rfl⟩ := List.mem_map.1 ha
      apply hany
      rw [List.any_eq_true]
      exact ⟨e, hrest.mem he, by simpa using hab.trans (List.mem_singleton.1 hb)⟩
    split
    · exact hnew _ (List.tail_sublist _)
    · exact hnew _ (List.Sublist.refl _)

end

end RecencyWindow
