import Mathlib.Algebra.Order.BigOperators.Group.List
import Mathlib.Algebra.Order.Ring.Nat
import Mathlib.Data.List.AList

/-!
# The weight of a finite map

A map whose values have a weight, and the weight of the whole: what a counter kept beside the map
has to read.

* `weight` — the sum of the weights of the values.
* `weight_of_lookup`, `weight_insert` — what one entry adds to it, and what an insertion does.
* `weight_congr` — only the values that are there count.
* `weight_foldl_erase` — what has no weight may be erased.
* `sum_le_weight` — what stands for entries under different keys weighs no more than the map.
* `sum_map_eraseIdx`, `sum_map_set`, `flatMap_perm_eraseIdx`, `flatMap_perm_set` — one place of a
  list, and all the others.
-/

namespace AList

variable {α β : Type}

/-- The sum of the weights of the values. -/
def weight (w : β → Nat) (m : AList fun _ : α => β) : Nat := (m.entries.map (w ·.2)).sum

variable {w w' : β → Nat} {m : AList fun _ : α => β}

theorem weight_of_entries_nil (h : m.entries = []) : m.weight w = 0 := by
  rw [weight, h]
  rfl

variable [DecidableEq α] {k : α} {v : β}

/-- The entry under a key, and all the others. -/
theorem weight_of_lookup (h : m.lookup k = some v) :
    m.weight w = w v + (m.erase k).weight w := by
  show (m.entries.map _).sum = w v + ((List.kerase k m.entries).map _).sum
  have hlookup : m.entries.dlookup k = some v := h
  generalize m.entries = l at hlookup ⊢
  induction l with
  | nil => cases hlookup
  | cons e l ih =>
      obtain ⟨k', v'⟩ := e
      by_cases hk : k = k'
      · subst hk
        rw [List.dlookup_cons_eq, Option.some.injEq] at hlookup
        have herase : List.kerase k (⟨k, v'⟩ :: l) = l := by simp [List.kerase]
        rw [herase, List.map_cons, List.sum_cons, hlookup]
      · rw [List.dlookup_cons_ne l ⟨k', v'⟩ hk] at hlookup
        have herase : List.kerase k (⟨k', v'⟩ :: l) = ⟨k', v'⟩ :: List.kerase k l := by
          simp [List.kerase, hk]
        rw [herase, List.map_cons, List.map_cons, List.sum_cons, List.sum_cons, ih hlookup]
        omega

theorem erase_of_lookup_none (h : m.lookup k = none) : m.erase k = m :=
  AList.ext (List.kerase_of_notMem_keys (AList.lookup_eq_none.1 h))

/-- What is left after an erasure was there. -/
theorem lookup_of_lookup_erase {k' : α} (h : (m.erase k').lookup k = some v) :
    m.lookup k = some v := by
  by_cases hk : k = k'
  · rw [hk, AList.lookup_erase] at h
    cases h
  · rwa [AList.lookup_erase_ne hk] at h

theorem weight_insert (w : β → Nat) (m : AList fun _ : α => β) (k : α) (v : β) :
    (m.insert k v).weight w = w v + (m.erase k).weight w := by
  rw [weight, AList.entries_insert, List.map_cons, List.sum_cons]
  rfl

theorem weight_congr (h : ∀ k v, m.lookup k = some v → w v = w' v) :
    m.weight w = m.weight w' := by
  unfold weight
  congr 1
  apply List.map_congr_left
  intro e he
  exact h e.1 e.2 (AList.mem_lookup_iff.2 he)

/-- Entries of no weight may go. -/
theorem weight_foldl_erase {ks : List α}
    (hks : ∀ k ∈ ks, ∀ v, m.lookup k = some v → w v = 0) :
    (ks.foldl (fun m k => m.erase k) m).weight w = m.weight w := by
  induction ks generalizing m with
  | nil => rfl
  | cons k ks ih =>
      have hone : (m.erase k).weight w = m.weight w := by
        cases hlookup : m.lookup k with
        | none => rw [erase_of_lookup_none hlookup]
        | some v =>
            rw [weight_of_lookup hlookup, hks k List.mem_cons_self v hlookup]
            omega
      rw [List.foldl_cons, ih, hone]
      intro k' hk' v hlookup
      apply hks k' (List.mem_cons_of_mem k hk')
      by_cases heq : k' = k
      · rw [heq, AList.lookup_erase] at hlookup
        cases hlookup
      · rwa [AList.lookup_erase_ne heq] at hlookup

/-- What stands for entries under different keys weighs no more together than the map. -/
theorem sum_le_weight {γ : Type} (key : γ → α) (f : γ → Nat) {l : List γ}
    (hkeys : (l.map key).Nodup)
    (hentry : ∀ p ∈ l, ∃ v, m.lookup (key p) = some v ∧ f p ≤ w v) :
    (l.map f).sum ≤ m.weight w := by
  induction l generalizing m with
  | nil => exact Nat.zero_le _
  | cons p l ih =>
      obtain ⟨hnew, hkeys⟩ := List.nodup_cons.1 hkeys
      obtain ⟨v, hlookup, hle⟩ := hentry p List.mem_cons_self
      have hrest : (l.map f).sum ≤ (m.erase (key p)).weight w := by
        refine ih hkeys fun q hq => ?_
        have hne : key q ≠ key p := fun heq => hnew (heq ▸ List.mem_map_of_mem hq)
        rw [AList.lookup_erase_ne hne]
        exact hentry q (List.mem_cons_of_mem p hq)
      rw [List.map_cons, List.sum_cons, weight_of_lookup hlookup]
      exact Nat.add_le_add hle hrest

theorem lookup_foldl_erase (ks : List α) (m : AList fun _ : α => β) (k : α) :
    (ks.foldl (fun m k => m.erase k) m).lookup k = if k ∈ ks then none else m.lookup k := by
  induction ks generalizing m with
  | nil => simp
  | cons k' ks ih =>
      rw [List.foldl_cons, ih]
      by_cases hk : k = k'
      · subst hk
        rw [AList.lookup_erase, ite_self, if_pos List.mem_cons_self]
      · rw [AList.lookup_erase_ne hk]
        simp [hk]

end AList

/-! ## Parts of a list -/

/-- One place of a list, and all the others. -/
theorem List.sum_map_eraseIdx {α : Type} (f : α → Nat) {l : List α} {i : Nat} {a : α}
    (h : l[i]? = some a) : (l.map f).sum = ((l.eraseIdx i).map f).sum + f a := by
  induction l generalizing i with
  | nil => cases h
  | cons b l ih =>
      cases i with
      | zero =>
          rw [List.getElem?_cons_zero, Option.some.injEq] at h
          rw [List.eraseIdx_cons_zero, List.map_cons, List.sum_cons, h, Nat.add_comm]
      | succ i =>
          rw [List.getElem?_cons_succ] at h
          rw [List.eraseIdx_cons_succ, List.map_cons, List.map_cons, List.sum_cons,
            List.sum_cons, ih h, Nat.add_assoc]

theorem List.sum_map_set {α : Type} (f : α → Nat) {l : List α} {i : Nat} {a : α}
    (h : l[i]? = some a) (b : α) :
    ((l.set i b).map f).sum = ((l.eraseIdx i).map f).sum + f b := by
  have hi : i < l.length := (List.getElem?_eq_some_iff.1 h).1
  have hset : (l.set i b)[i]? = some b := by rw [List.getElem?_set_self hi]
  rw [List.sum_map_eraseIdx f hset, List.eraseIdx_set_eq]

theorem List.flatMap_perm_eraseIdx {α β : Type} (f : α → List β) {l : List α} {i : Nat} {a : α}
    (h : l[i]? = some a) : (l.flatMap f).Perm (f a ++ (l.eraseIdx i).flatMap f) := by
  obtain ⟨hi, rfl⟩ := List.getElem?_eq_some_iff.1 h
  exact ((List.getElem_cons_eraseIdx_perm hi).symm.flatMap_right f).trans (by rw [flatMap_cons])

theorem List.flatMap_perm_set {α β : Type} (f : α → List β) {l : List α} {i : Nat} {a : α}
    (h : l[i]? = some a) (b : α) :
    ((l.set i b).flatMap f).Perm (f b ++ (l.eraseIdx i).flatMap f) := by
  have hi : i < l.length := (List.getElem?_eq_some_iff.1 h).1
  have hset : (l.set i b)[i]? = some b := by rw [List.getElem?_set_self hi]
  have hperm := List.flatMap_perm_eraseIdx f hset
  rwa [List.eraseIdx_set_eq] at hperm
