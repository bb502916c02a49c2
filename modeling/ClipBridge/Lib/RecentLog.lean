import Mathlib.Data.List.Basic
import Mathlib.Order.Basic

/-!
# The last few entries of a log that are still fresh

A log grows at its end, and its entries go stale with time, the older ones first. Of interest are
the entries among its last `cap` that are still fresh. A list of at most `cap` entries is enough
to read them off at any later time: stale entries are dropped whenever the list is touched, and a
full list makes room for a new entry by dropping its oldest one.

* `lastFresh` — the reference, over the whole log.
* `retain`, `push` — the two operations on the list.
* `Tracks` — the list answers like the log from now on, kept by time passing (`Tracks.later`) and
  by both operations (`Tracks.retain`, `Tracks.push`).
-/

namespace RecentLog

variable {α τ : Type*}

/-- Of the last `cap` entries of the log, those that are fresh at time `now`. -/
def lastFresh (fresh : τ → α → Bool) (cap : Nat) (now : τ) (log : List α) : List α :=
  (log.drop (log.length - cap)).filter (fresh now)

/-- Drop what is stale. -/
def retain (fresh : τ → α → Bool) (now : τ) (entries : List α) : List α :=
  entries.filter (fresh now)

/-- Drop what is stale, make room, and record one entry. -/
def push (fresh : τ → α → Bool) (cap : Nat) (now : τ) (e : α) (entries : List α) : List α :=
  let kept := retain fresh now entries
  (if kept.length = cap then kept.tail else kept) ++ [e]

/-- In the log, an entry goes stale no later than the entries after it. -/
def Aging (fresh : τ → α → Bool) (log : List α) : Prop :=
  log.Pairwise fun e e' => ∀ t, fresh t e → fresh t e'

section

variable {fresh : τ → α → Bool} {cap : Nat} {now : τ} {log : List α}

theorem lastFresh_concat (hcap : 0 < cap) (later : τ) (log : List α) (e : α) :
    lastFresh fresh cap later (log ++ [e]) =
      retain fresh later (log.drop (log.length + 1 - cap)) ++ retain fresh later [e] := by
  unfold lastFresh retain
  rw [List.length_append, List.length_singleton, List.drop_append_of_le_length (by omega),
    List.filter_append]

/-- A full answer holds the last `cap` entries, all fresh. -/
theorem lastFresh_of_full (hfull : (lastFresh fresh cap now log).length = cap) :
    lastFresh fresh cap now log = log.drop (log.length - cap) ∧ cap ≤ log.length := by
  have hlen := List.length_filter_le (fresh now) (log.drop (log.length - cap))
  have hdrop : (log.drop (log.length - cap)).length = log.length - (log.length - cap) :=
    List.length_drop
  unfold lastFresh at hfull ⊢
  refine ⟨?_, by omega⟩
  exact List.filter_sublist.eq_of_length (by omega)

end

section

variable [Preorder τ] (fresh : τ → α → Bool) (cap : Nat)

/-- What is fresh was fresh before. -/
def Fading : Prop := ∀ ⦃s t⦄ e, s ≤ t → fresh t e → fresh s e

/-- From `now` on, the list answers like the log. -/
def Tracks (now : τ) (log entries : List α) : Prop :=
  ∀ later, now ≤ later → retain fresh later entries = lastFresh fresh cap later log

variable {fresh cap} {now : τ} {log entries : List α}

theorem tracks_nil (now : τ) : Tracks fresh cap now [] [] := by
  intro later _
  simp [retain, lastFresh]

theorem Tracks.later (h : Tracks fresh cap now log entries) {now' : τ} (hle : now ≤ now') :
    Tracks fresh cap now' log entries :=
  fun later hl => h later (hle.trans hl)

/-- The list, read now, is what the reference says. -/
theorem Tracks.read (h : Tracks fresh cap now log entries) :
    retain fresh now entries = lastFresh fresh cap now log :=
  h now le_rfl

theorem retain_retain (hf : Fading fresh) {now later : τ} (hle : now ≤ later) (l : List α) :
    retain fresh later (retain fresh now l) = retain fresh later l := by
  unfold retain
  rw [List.filter_filter]
  apply List.filter_congr
  intro e _
  have := hf e hle
  cases hl : fresh later e <;> simp_all

theorem Tracks.retain (hf : Fading fresh) (h : Tracks fresh cap now log entries) :
    Tracks fresh cap now log (retain fresh now entries) := by
  intro later hle
  rw [retain_retain hf hle]
  exact h later hle

/-! ## Recording an entry -/

/-- When the answer is not full, the oldest of the last `cap` entries does not show any more. -/
theorem lastFresh_of_not_full (hf : Fading fresh) (ha : Aging fresh log)
    (hfull : (lastFresh fresh cap now log).length ≠ cap) {later : τ} (hle : now ≤ later) :
    lastFresh fresh cap later log =
      RecentLog.retain fresh later (log.drop (log.length + 1 - cap)) := by
  rcases Nat.lt_or_ge log.length cap with hlt | hge
  · -- The log is short: neither side drops anything.
    unfold lastFresh RecentLog.retain
    rw [show log.length - cap = 0 by omega, show log.length + 1 - cap = 0 by omega]
  · obtain hcap | hcap := Nat.eq_zero_or_pos cap
    · subst hcap
      simp [lastFresh] at hfull
    · have hi : log.length - cap < log.length := by omega
      have hcut : log.drop (log.length - cap) =
          log[log.length - cap] :: log.drop (log.length + 1 - cap) := by
        rw [List.drop_eq_getElem_cons hi, show log.length - cap + 1 = log.length + 1 - cap by omega]
      -- Were the oldest one fresh now, all of them would be, and the answer full.
      have hstale : ¬ fresh now log[log.length - cap] := by
        intro hfresh
        apply hfull
        have hsorted := List.Pairwise.drop (i := log.length - cap) ha
        rw [hcut, List.pairwise_cons] at hsorted
        have hall : (log.drop (log.length - cap)).filter (fresh now) =
            log.drop (log.length - cap) := by
          rw [List.filter_eq_self, hcut]
          intro e he
          rcases List.mem_cons.1 he with rfl | he
          · exact hfresh
          · exact hsorted.1 e he now hfresh
        unfold lastFresh
        rw [hall, List.length_drop]
        omega
      have hstale' : ¬ fresh later log[log.length - cap] := fun h => hstale (hf _ hle h)
      unfold lastFresh RecentLog.retain
      rw [hcut, List.filter_cons_of_neg hstale']

/-- **Recording keeps the list true to the log.** -/
theorem Tracks.push (hf : Fading fresh) (hcap : 0 < cap) (ha : Aging fresh log)
    (h : Tracks fresh cap now log entries) (e : α) :
    Tracks fresh cap now (log ++ [e]) (push fresh cap now e entries) := by
  intro later hle
  rw [lastFresh_concat hcap]
  unfold RecentLog.push
  dsimp only
  rw [h.read]
  rw [RecentLog.retain, List.filter_append]
  congr 1
  change RecentLog.retain fresh later _ = _
  split
  · rename_i hfull
    obtain ⟨hlast, hge⟩ := lastFresh_of_full hfull
    rw [hlast, List.tail_drop, show log.length - cap + 1 = log.length + 1 - cap by omega]
  · rename_i hfull
    rw [← h.read, retain_retain hf hle, h later hle]
    exact lastFresh_of_not_full hf ha hfull hle

end

end RecentLog
