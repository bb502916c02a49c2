import Mathlib.Data.List.Induction
import Mathlib.Data.List.Pairwise

/-!
# First occurrences

`eraseDups` keeps the first occurrence of every element.

A list may repeat an element; what counts is where it occurs first. `FirstsAscend lt l` says that
every element of `l` is a repeat or above everything before it, so that the first occurrences
stand in the order of `lt`.

* `nodup_eraseDups` — every element is kept once.
* `firstsAscend_concat` — adding one element.
* `FirstsAscend.append_sorted` — adding a sorted block.
* `FirstsAscend.of_append` — keeping the beginning.
-/

variable {α : Type*} {lt : α → α → Prop}

theorem List.nodup_eraseDups [DecidableEq α] (l : List α) : l.eraseDups.Nodup := by
  induction hn : l.length using Nat.strongRecOn generalizing l with
  | ind n ih =>
      cases l with
      | nil => exact List.nodup_nil
      | cons a l =>
          rw [List.eraseDups_cons, List.nodup_cons, List.mem_eraseDups, List.mem_filter]
          refine ⟨fun h => by simp at h, ih _ ?_ _ rfl⟩
          rw [← hn]
          exact Nat.lt_succ_of_le (List.length_filter_le _ _)

/-- Every element is a repeat or above everything before it. -/
def FirstsAscend (lt : α → α → Prop) (l : List α) : Prop :=
  ∀ pre x post, l = pre ++ x :: post → x ∈ pre ∨ ∀ y ∈ pre, lt y x

@[simp] theorem firstsAscend_nil : FirstsAscend lt ([] : List α) := by
  intro pre x post h
  simp at h

theorem FirstsAscend.of_append {l m : List α} (h : FirstsAscend lt (l ++ m)) :
    FirstsAscend lt l := by
  rintro pre x post rfl
  exact h pre x (post ++ m) (by simp)

theorem firstsAscend_concat {l : List α} {x : α} :
    FirstsAscend lt (l ++ [x]) ↔ FirstsAscend lt l ∧ (x ∈ l ∨ ∀ y ∈ l, lt y x) := by
  constructor
  · intro h
    exact ⟨h.of_append, h l x [] rfl⟩
  · rintro ⟨h, hx⟩ pre y post heq
    rcases List.eq_nil_or_concat post with rfl | ⟨post, z, rfl⟩
    · obtain ⟨rfl, hy⟩ := List.append_inj' heq rfl
      cases hy
      exact hx
    · rw [List.concat_eq_append, ← List.cons_append, ← List.append_assoc] at heq
      exact h pre y post (List.append_inj' heq rfl).1

/-- A sorted block whose new elements are above everything before it. -/
theorem FirstsAscend.append_sorted {l block : List α} (h : FirstsAscend lt l)
    (hsorted : block.Pairwise lt) (hnew : ∀ x ∈ block, x ∈ l ∨ ∀ y ∈ l, lt y x) :
    FirstsAscend lt (l ++ block) := by
  induction block using List.reverseRecOn with
  | nil => simpa using h
  | append_singleton block x ih =>
      rw [List.pairwise_append] at hsorted
      rw [← List.append_assoc, firstsAscend_concat]
      refine ⟨ih hsorted.1 fun y hy => hnew y (List.mem_append_left _ hy), ?_⟩
      rcases hnew x (by simp) with hx | hx
      · exact Or.inl (List.mem_append_left _ hx)
      · refine Or.inr fun y hy => ?_
        rcases List.mem_append.1 hy with hy | hy
        · exact hx y hy
        · exact hsorted.2.2 y hy x (by simp)
