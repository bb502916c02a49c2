import ClipBridge.Client.Command
import Mathlib.Data.List.Destutter
import Mathlib.Data.List.Sort
import Mathlib.Data.String.Basic

/-!
# Candidates as sets

`normalize_lan_candidate_networks` in `core/src/client.rs` sorts what the interfaces report, and
drops what comes twice in a row. That makes it a canonical form of the set of candidates, whatever
order and repeats the system reports them in.

* `normalize_eq_dedup` — of a sorted list, what comes twice in a row is all that comes twice.
* `normalize_eq_iff` — lists with the same candidates are normalized alike, and no others.
* `refreshNeeded_iff` — so another advert is needed exactly when the set has changed.
-/

namespace ClipBridge

namespace LanCandidate

variable {a b c : LanCandidate}

theorem le_iff : a.le b = true ↔
    a.addr < b.addr ∨ a.addr = b.addr ∧ a.prefixLen ≤ b.prefixLen := by
  simp [le]

/-- The order of the candidates, as a relation. -/
def Le (a b : LanCandidate) : Prop := a.le b = true

instance : DecidableRel Le := fun a b => inferInstanceAs (Decidable (a.le b = true))

instance : Std.Total Le where
  total a b := by
    unfold Le
    rw [le_iff, le_iff]
    rcases lt_trichotomy a.addr b.addr with h | h | h
    · exact .inl (.inl h)
    · exact (UInt8.le_total a.prefixLen b.prefixLen).imp (fun hp => .inr ⟨h, hp⟩)
        fun hp => .inr ⟨h.symm, hp⟩
    · exact .inr (.inl h)

instance : IsTrans LanCandidate Le where
  trans a b c := by
    unfold Le
    rw [le_iff, le_iff, le_iff]
    rintro (hab | ⟨hab, hpab⟩) (hbc | ⟨hbc, hpbc⟩)
    · exact .inl (hab.trans hbc)
    · exact .inl (hbc ▸ hab)
    · exact .inl (hab ▸ hbc)
    · exact .inr ⟨hab.trans hbc, UInt8.le_trans hpab hpbc⟩

instance : Std.Antisymm Le where
  antisymm a b := by
    unfold Le
    rw [le_iff, le_iff]
    rintro (hab | ⟨hab, hpab⟩) (hba | ⟨hba, hpba⟩)
    · exact absurd (hab.trans hba) (lt_irrefl _)
    · exact absurd hab (hba ▸ lt_irrefl _)
    · exact absurd hba (hab ▸ lt_irrefl _)
    · cases a
      cases b
      cases hab
      cases UInt8.le_antisymm hpab hpba
      rfl

end LanCandidate

open LanCandidate (Le)

/-! ## The canonical form -/

theorem sorted_candidates (xs : List LanCandidate) :
    (xs.insertionSort (·.le ·)).Pairwise Le :=
  List.pairwise_insertionSort Le xs

/-- In order, equal candidates are next to each other. -/
theorem normalize_eq_dedup (xs : List LanCandidate) :
    normalizeLanCandidateNetworks xs = (xs.insertionSort (·.le ·)).dedup :=
  (sorted_candidates xs).destutter_eq_dedup

theorem mem_normalize {xs : List LanCandidate} {c : LanCandidate} :
    c ∈ normalizeLanCandidateNetworks xs ↔ c ∈ xs := by
  rw [normalize_eq_dedup, List.mem_dedup, List.mem_insertionSort]

theorem nodup_normalize (xs : List LanCandidate) : (normalizeLanCandidateNetworks xs).Nodup := by
  rw [normalize_eq_dedup]
  exact List.nodup_dedup _

theorem sorted_normalize (xs : List LanCandidate) :
    (normalizeLanCandidateNetworks xs).Pairwise Le := by
  rw [normalize_eq_dedup]
  exact (sorted_candidates xs).sublist (List.dedup_sublist _)

theorem normalize_eq_iff {xs ys : List LanCandidate} :
    normalizeLanCandidateNetworks xs = normalizeLanCandidateNetworks ys ↔
      ∀ c, c ∈ xs ↔ c ∈ ys := by
  constructor
  · intro h c
    rw [← mem_normalize, h, mem_normalize]
  · intro h
    have hperm : (normalizeLanCandidateNetworks xs).Perm (normalizeLanCandidateNetworks ys) := by
      refine (List.perm_ext_iff_of_nodup (nodup_normalize xs) (nodup_normalize ys)).2 fun c => ?_
      rw [mem_normalize, mem_normalize]
      exact h c
    exact hperm.eq_of_pairwise' (sorted_normalize xs) (sorted_normalize ys)

/-- **Two lists are normalized alike exactly if they have the same candidates; and when a normalized
list was sent before, another advert is needed exactly if they have not.** -/
theorem refreshNeeded_iff (xs ys : List LanCandidate) :
    (normalizeLanCandidateNetworks xs = normalizeLanCandidateNetworks ys ↔
      ∀ c, c ∈ xs ↔ c ∈ ys) ∧
    (lanAdvertiseRefreshNeeded (some (normalizeLanCandidateNetworks xs))
      (normalizeLanCandidateNetworks ys) false = true ↔ ¬ ∀ c, c ∈ xs ↔ c ∈ ys) := by
  refine ⟨normalize_eq_iff, ?_⟩
  rw [← normalize_eq_iff]
  simp [lanAdvertiseRefreshNeeded]

end ClipBridge
