import Mathlib.Data.List.Basic

/-!
# The longest suffix that fits

A queue that makes room drops its oldest items, one by one, until what is left fits. Whatever
fitting means, as long as fewer items fit where more do, that leaves the longest suffix that fits,
and the items that were dropped before do not matter any more.

* `Hereditary` — fewer items fit where more do.
* `fittingSuffix` — drop from the front until the rest fits.
* `suffix_fittingSuffix` — it is the longest one.
* `fittingSuffix_append` — what was dropped before need not be remembered.
-/

namespace List

variable {α : Type*} (fits : List α → Prop)

/-- Nothing fits at least, and fewer items fit where more do. -/
structure Hereditary : Prop where
  nil : fits []
  sublist : ∀ {s l : List α}, s.Sublist l → fits l → fits s

variable [DecidablePred fits]

/-- Drop from the front until the rest fits. -/
def fittingSuffix : List α → List α
  | [] => []
  | a :: l => if fits (a :: l) then a :: l else fittingSuffix l

variable {fits} {l s : List α}

theorem fittingSuffix_cons_of_fits {a : α} (h : fits (a :: l)) :
    fittingSuffix fits (a :: l) = a :: l := by
  rw [fittingSuffix, if_pos h]

theorem fittingSuffix_cons_of_not_fits {a : α} (h : ¬ fits (a :: l)) :
    fittingSuffix fits (a :: l) = fittingSuffix fits l := by
  rw [fittingSuffix, if_neg h]

theorem fittingSuffix_suffix (l : List α) : fittingSuffix fits l <:+ l := by
  induction l with
  | nil => exact suffix_rfl
  | cons a l ih =>
      by_cases h : fits (a :: l)
      · exact (fittingSuffix_cons_of_fits h).symm ▸ suffix_rfl
      · rw [fittingSuffix_cons_of_not_fits h]
        exact ih.trans (suffix_cons a l)

theorem Hereditary.fits_fittingSuffix (hfits : Hereditary fits) (l : List α) :
    fits (fittingSuffix fits l) := by
  induction l with
  | nil => exact hfits.nil
  | cons a l ih =>
      by_cases h : fits (a :: l)
      · rwa [fittingSuffix_cons_of_fits h]
      · rwa [fittingSuffix_cons_of_not_fits h]

/-- No longer suffix fits. -/
theorem suffix_fittingSuffix (hs : s <:+ l) (h : fits s) : s <:+ fittingSuffix fits l := by
  induction l with
  | nil => exact hs
  | cons a l ih =>
      by_cases hl : fits (a :: l)
      · rwa [fittingSuffix_cons_of_fits hl]
      · rw [fittingSuffix_cons_of_not_fits hl]
        rcases suffix_cons_iff.1 hs with rfl | hs
        · exact absurd h hl
        · exact ih hs

/-- **What was dropped before need not be remembered.** -/
theorem Hereditary.fittingSuffix_append (hfits : Hereditary fits) (l r : List α) :
    fittingSuffix fits (fittingSuffix fits l ++ r) = fittingSuffix fits (l ++ r) := by
  have hforth : fittingSuffix fits (fittingSuffix fits l ++ r) <:+ fittingSuffix fits (l ++ r) := by
    have hkept : fittingSuffix fits l <:+ l := fittingSuffix_suffix l
    obtain ⟨dropped, hl⟩ := hkept
    have hlr : fittingSuffix fits l ++ r <:+ l ++ r := ⟨dropped, by rw [← append_assoc, hl]⟩
    exact suffix_fittingSuffix ((fittingSuffix_suffix _).trans hlr) (hfits.fits_fittingSuffix _)
  have hback : fittingSuffix fits (l ++ r) <:+ fittingSuffix fits (fittingSuffix fits l ++ r) := by
    refine suffix_fittingSuffix ?_ (hfits.fits_fittingSuffix _)
    have hkept : fittingSuffix fits (l ++ r) <:+ l ++ r := fittingSuffix_suffix (l ++ r)
    obtain ⟨dropped, hdropped⟩ := hkept
    rcases suffix_or_suffix_of_suffix ⟨dropped, hdropped⟩ (suffix_append l r) with hr | ⟨t, ht⟩
    · exact hr.trans (suffix_append _ r)
    · -- What it keeps of `l` fits by itself.
      have htl : t <:+ l := by
        rw [← ht, ← append_assoc] at hdropped
        exact ⟨dropped, append_cancel_right hdropped⟩
      have htfits : fits t :=
        hfits.sublist (sublist_append_left t r) (ht ▸ hfits.fits_fittingSuffix (l ++ r))
      obtain ⟨rest, hrest⟩ := suffix_fittingSuffix htl htfits
      rw [← ht]
      exact ⟨rest, by rw [← append_assoc, hrest]⟩
  exact hforth.eq_of_length_le hback.length_le

end List
