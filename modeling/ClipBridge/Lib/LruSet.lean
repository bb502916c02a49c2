import Mathlib.Data.List.Nodup

/-!
# A bounded set of recently used keys

The keys that were used last, at most `cap` of them and each of them once. The least recently
used key is at the front and the first to go.

* `touch` — use a key; `touch_fst` — was it there? `mem_of_mem_touch` — nothing else comes in.
-/

structure LruSet (κ : Type) (cap : Nat) where
  keys : List κ
  nodup : keys.Nodup
  bounded : keys.length ≤ cap

namespace LruSet

variable {κ : Type} {cap : Nat}

def empty : LruSet κ cap := ⟨[], List.nodup_nil, Nat.zero_le _⟩

variable [DecidableEq κ]

/-- The first component is whether the key was there before. -/
def touch (s : LruSet κ cap) (k : κ) : Bool × LruSet κ cap :=
  if h : k ∈ s.keys then
    (true, {
      keys := s.keys.erase k ++ [k]
      nodup := by
        rw [← List.concat_eq_append]
        exact List.Nodup.concat s.nodup.not_mem_erase (s.nodup.erase k)
      bounded := by
        rw [List.length_append, List.length_erase_of_mem h, List.length_singleton]
        have := List.length_pos_of_mem h
        have := s.bounded
        omega })
  else
    (false, {
      keys := (s.keys ++ [k]).drop ((s.keys ++ [k]).length - cap)
      nodup := by
        apply List.Sublist.nodup (List.drop_sublist _ _)
        rw [← List.concat_eq_append]
        exact List.Nodup.concat h s.nodup
      bounded := by
        rw [List.length_drop]
        omega })

theorem touch_fst (s : LruSet κ cap) (k : κ) : (s.touch k).1 = decide (k ∈ s.keys) := by
  unfold touch
  split
  · rename_i h
    exact (decide_eq_true h).symm
  · rename_i h
    exact (decide_eq_false h).symm

/-- Using a key brings in no other. -/
theorem mem_of_mem_touch {s : LruSet κ cap} {k other : κ} (h : other ∈ (s.touch k).2.keys) :
    other = k ∨ other ∈ s.keys := by
  have hmem : other ∈ s.keys ++ [k] := by
    unfold touch at h
    split at h
    · rcases List.mem_append.1 h with hold | hnew
      · exact List.mem_append_left _ (List.mem_of_mem_erase hold)
      · exact List.mem_append_right _ hnew
    · exact List.mem_of_mem_drop h
  rcases List.mem_append.1 hmem with hold | hnew
  · exact .inr hold
  · exact .inl (List.mem_singleton.1 hnew)

end LruSet
