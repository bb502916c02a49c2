import Mathlib.Data.List.AList
import Mathlib.Data.List.Dedup
import Mathlib.Data.List.Perm.Lattice
import Mathlib.Data.List.Sort

/-!
# Maps that are read in any order

An iteration over a hash map comes past its entries in some order, another one each time. What a
program makes of them may depend on it.

* `Visit` — an order for every list; `Visit.first` comes past one element first.
* `gather` — a map is built from what a loop comes past, one key at a time.
* `lookup_gather` — what is under a key comes from the elements with that key alone.
* `Visit.head?_filter` — and in a map there is only one of them.
* `pushNew` — collect what has not been collected yet.
* `List.Perm.insertionSort_eq` — sorting makes up for the order.
-/

/-- The order in which an iteration comes past its elements. -/
structure Visit (α : Type*) where
  order : List α → List α
  perm : ∀ l, (order l).Perm l

namespace Visit

variable {α : Type*}

def asStored : Visit α := ⟨id, fun _ => List.Perm.refl _⟩

/-- One element first, if it is there. -/
def first [DecidableEq α] (a : α) : Visit α where
  order l := if a ∈ l then a :: l.erase a else l
  perm l := by
    by_cases h : a ∈ l
    · rw [if_pos h]
      exact (List.perm_cons_erase h).symm
    · rw [if_neg h]

/-- In whatever order, there is at most one entry with a key. -/
theorem head?_filter {κ β : Type} [DecidableEq κ] (v : Visit (Sigma fun _ : κ => β))
    (m : AList fun _ : κ => β) (k : κ) :
    ((v.order m.entries).filter (·.1 = k)).head?.map (·.2) = m.lookup k := by
  have hmem : ∀ e, e ∈ (v.order m.entries).filter (·.1 = k) ↔ e ∈ m.entries ∧ e.1 = k := by
    intro e
    rw [List.mem_filter, (v.perm _).mem_iff, decide_eq_true_iff]
  cases hfilter : (v.order m.entries).filter (·.1 = k) with
  | nil =>
      refine (AList.lookup_eq_none.2 fun hk => ?_ : m.lookup k = none).symm
      obtain ⟨e, he, hkey⟩ := List.mem_map.1 hk
      have := (hmem e).2 ⟨he, hkey⟩
      rw [hfilter] at this
      cases this
  | cons e rest =>
      obtain ⟨he, hkey⟩ := (hmem e).1 (hfilter ▸ List.mem_cons_self)
      rw [← hkey]
      exact (AList.mem_lookup_iff.2 he).symm

theorem order_first [DecidableEq α] {a : α} {l : List α} (h : a ∈ l) :
    (first a).order l = a :: l.erase a :=
  if_pos h

end Visit

/-! ## A map from a list -/

section Gather

variable {α β κ : Type} [DecidableEq κ] (key : α → κ) (f : Option β → α → β)

/-- Under the key of each element, what was there is replaced by what `f` makes of it and the
element. -/
def gather (m : AList fun _ : κ => β) (l : List α) : AList fun _ : κ => β :=
  l.foldl (fun m a => m.insert (key a) (f (m.lookup (key a)) a)) m

variable {key f} {m : AList fun _ : κ => β} {l : List α} {k : κ}

theorem lookup_gather : (gather key f m l).lookup k =
    (l.filter (key · = k)).foldl (fun acc a => some (f acc a)) (m.lookup k) := by
  induction l generalizing m with
  | nil => rfl
  | cons a l ih =>
      show (gather key f (m.insert (key a) (f (m.lookup (key a)) a)) l).lookup k = _
      rw [ih]
      by_cases hk : key a = k
      · rw [List.filter_cons_of_pos (by simpa using hk), List.foldl_cons, ← hk,
          AList.lookup_insert]
      · rw [List.filter_cons_of_neg (by simpa using hk), AList.lookup_insert_ne (Ne.symm hk)]

/-- Where what is there stays, the first element with a key is the one that counts. -/
theorem lookup_gather_getD {g : α → β} :
    (gather key (fun b a => b.getD (g a)) m l).lookup k =
      (m.lookup k).or ((l.filter (key · = k)).head?.map g) := by
  rw [lookup_gather]
  generalize l.filter (key · = k) = l
  generalize m.lookup k = acc
  induction l generalizing acc with
  | nil => exact (Option.or_none).symm
  | cons a l ih =>
      rw [List.foldl_cons, ih]
      cases acc <;> rfl

theorem mem_gather : k ∈ gather key f m l ↔ k ∈ m ∨ ∃ a ∈ l, key a = k := by
  induction l generalizing m with
  | nil => simp [gather]
  | cons a l ih =>
      show k ∈ gather key f (m.insert (key a) (f (m.lookup (key a)) a)) l ↔ _
      rw [ih, AList.mem_insert, List.exists_mem_cons_iff]
      constructor
      · rintro ((h | h) | h)
        · exact .inr (.inl h.symm)
        · exact .inl h
        · exact .inr (.inr h)
      · rintro (h | h | h)
        · exact .inl (.inr h)
        · exact .inl (.inl h.symm)
        · exact .inr h

end Gather

/-! ## What has not been collected yet -/

section PushNew

variable {α : Type*} [DecidableEq α]

def pushNew (out : List α) (l : List α) : List α :=
  l.foldl (fun out a => if a ∈ out then out else out ++ [a]) out

theorem pushNew_perm_dedup {out : List α} (hout : out.Nodup) (l : List α) :
    (pushNew out l).Nodup ∧ ∀ a, a ∈ pushNew out l ↔ a ∈ out ∨ a ∈ l := by
  induction l generalizing out with
  | nil => exact ⟨hout, fun a => by simp [pushNew]⟩
  | cons b l ih =>
      show (pushNew (if b ∈ out then out else out ++ [b]) l).Nodup ∧ _
      by_cases hb : b ∈ out
      · rw [if_pos hb]
        obtain ⟨hnodup, hmem⟩ := ih hout
        refine ⟨hnodup, fun a => ?_⟩
        show a ∈ pushNew (if b ∈ out then out else out ++ [b]) l ↔ _
        rw [if_pos hb, hmem, List.mem_cons]
        constructor
        · rintro (h | h)
          · exact .inl h
          · exact .inr (.inr h)
        · rintro (h | rfl | h)
          · exact .inl h
          · exact .inl hb
          · exact .inr h
      · rw [if_neg hb]
        obtain ⟨hnodup, hmem⟩ := ih (hout.append (List.nodup_singleton b) (by simpa using hb))
        refine ⟨hnodup, fun a => ?_⟩
        show a ∈ pushNew (if b ∈ out then out else out ++ [b]) l ↔ _
        rw [if_neg hb, hmem, List.mem_append, List.mem_singleton, List.mem_cons, or_assoc]

/-- Nothing is collected twice, so that as many elements are collected as there are only where none
repeats. -/
theorem length_pushNew_iff {l : List α} : (pushNew [] l).length = l.length ↔ l.Nodup := by
  obtain ⟨hnodup, hmem⟩ := pushNew_perm_dedup List.nodup_nil l
  have hperm : (pushNew [] l).Perm l.dedup := by
    refine (List.perm_ext_iff_of_nodup hnodup l.nodup_dedup).2 fun a => ?_
    rw [hmem, List.mem_dedup]
    simp
  rw [hperm.length_eq, ← List.dedup_eq_self]
  exact ⟨fun h => (List.dedup_sublist l).eq_of_length h, fun h => by rw [h]⟩

end PushNew

/-! ## Sorting -/

/-- Where no two elements are level with each other, sorting makes up for the order. -/
theorem List.Perm.insertionSort_eq {α : Type*} {r : α → α → Prop} [DecidableRel r] [Std.Total r]
    [IsTrans α r] {l l' : List α} (h : l.Perm l')
    (hanti : ∀ a ∈ l, ∀ b ∈ l, r a b → r b a → a = b) : l.insertionSort r = l'.insertionSort r := by
  refine List.Perm.eq_of_pairwise (fun a b ha hb => ?_) (pairwise_insertionSort r l)
    (pairwise_insertionSort r l')
    ((perm_insertionSort r l).trans (h.trans (perm_insertionSort r l').symm))
  exact hanti a ((mem_insertionSort r).1 ha) b (h.mem_iff.2 ((mem_insertionSort r).1 hb))
