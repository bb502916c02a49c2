import Mathlib.Data.List.Basic
import Mathlib.Logic.Function.Basic

/-!
# One directory of a file system

Names stand for files, and a file that a handle still holds outlives its name: removing a name or
renaming over it does not touch what the handle writes.

* `createNew`, `append`, `rename`, `remove` — the operations, each on the directory as a value.
* `Sole` — the file has one name, so that a write through its handle changes that name alone.
* `read_append_of_ne`, `read_rename`, `read_remove` — what each operation does to what the names
  hold.
-/

/-- The file each name stands for, and what each file holds. -/
@[ext]
structure Directory (ν β : Type) where
  entries : ν → Option Nat
  files : Nat → List β
  /-- The file that `createNew` makes next. -/
  next : Nat
  bound : ∀ n i, entries n = some i → i < next

namespace Directory

variable {ν β : Type}

/-! ## Names and what they hold -/

/-- No name, and no file yet. -/
def empty : Directory ν β := ⟨fun _ => none, fun _ => [], 0, by simp⟩

def has (d : Directory ν β) (n : ν) : Bool := (d.entries n).isSome

def read (d : Directory ν β) (n : ν) : Option (List β) := (d.entries n).map d.files

/-- The file has the name `n` and no other. -/
def Sole (d : Directory ν β) (i : Nat) (n : ν) : Prop := ∀ m, d.entries m = some i ↔ m = n

variable {d d' : Directory ν β} {n m src dst : ν} {i j : Nat} {bytes : List β}

theorem has_iff : d.has n = true ↔ ∃ i, d.entries n = some i := Option.isSome_iff_exists

theorem has_eq_false : d.has n = false ↔ d.entries n = none := by
  simp [has]

theorem read_eq_none : d.read n = none ↔ d.entries n = none := by
  simp [read]

namespace Sole

theorem entries (h : d.Sole i n) : d.entries n = some i := (h n).2 rfl

theorem read (h : d.Sole i n) : d.read n = some (d.files i) := by
  simp [Directory.read, h.entries]

end Sole

/-! ## Writing -/

/-- Write at the end of an open file. -/
def append (d : Directory ν β) (i : Nat) (bytes : List β) : Directory ν β :=
  { d with files := Function.update d.files i (d.files i ++ bytes) }

@[simp] theorem append_entries : (d.append i bytes).entries = d.entries := rfl

theorem append_files : (d.append i bytes).files i = d.files i ++ bytes := by
  simp [append]

theorem append_files_of_ne (hj : j ≠ i) : (d.append i bytes).files j = d.files j := by
  simp [append, hj]

theorem Sole.append (hs : d.Sole j m) : (d.append i bytes).Sole j m := hs

theorem read_append_of_ne (hs : d.Sole i n) (hm : m ≠ n) :
    (d.append i bytes).read m = d.read m := by
  unfold read
  rw [append_entries]
  cases hmi : d.entries m with
  | none => rfl
  | some j =>
      have hj : j ≠ i := by
        rintro rfl
        exact hm ((hs m).1 hmi)
      simp [append_files_of_ne hj]

variable [DecidableEq ν]

/-! ## Creating -/

/-- Create a file that does not exist yet, and open it. -/
def createNew (d : Directory ν β) (n : ν) : Option (Nat × Directory ν β) :=
  if d.has n then none
  else some (d.next, {
    entries := Function.update d.entries n (some d.next)
    files := Function.update d.files d.next []
    next := d.next + 1
    bound := by
      intro m i h
      by_cases hm : m = n
      · subst hm
        rw [Function.update_self, Option.some.injEq] at h
        omega
      · rw [Function.update_of_ne hm] at h
        exact Nat.lt_succ_of_lt (d.bound m i h) })

theorem createNew_some (h : d.createNew n = some (i, d')) :
    d.has n = false ∧ i = d.next ∧ d'.next = d.next + 1 ∧
      d'.entries = Function.update d.entries n (some i) ∧
      d'.files = Function.update d.files i [] := by
  unfold createNew at h
  split at h
  · simp at h
  · rename_i hn
    obtain ⟨rfl, rfl⟩ := Prod.mk.inj (Option.some.inj h)
    exact ⟨by simpa using hn, rfl, rfl, rfl, rfl⟩

theorem createNew_isSome (h : d.has n = false) : ∃ i d', d.createNew n = some (i, d') := by
  simp [createNew, h]

theorem createNew_sole (h : d.createNew n = some (i, d')) : d'.Sole i n := by
  obtain ⟨-, rfl, -, he, -⟩ := createNew_some h
  intro m
  rw [he]
  by_cases hm : m = n
  · simp [hm]
  · rw [Function.update_of_ne hm]
    exact ⟨fun h => absurd (d.bound m _ h) (Nat.lt_irrefl _), fun h => absurd h hm⟩

theorem createNew_files (h : d.createNew n = some (i, d')) : d'.files i = [] := by
  obtain ⟨-, rfl, -, -, hf⟩ := createNew_some h
  rw [hf, Function.update_self]

/-- No name that exists changes. -/
theorem createNew_read_of_ne (h : d.createNew n = some (i, d')) (hm : m ≠ n) :
    d'.read m = d.read m := by
  obtain ⟨-, rfl, -, he, hf⟩ := createNew_some h
  unfold read
  rw [he, hf, Function.update_of_ne hm]
  cases hmi : d.entries m with
  | none => rfl
  | some j =>
      have hj : j ≠ d.next := Nat.ne_of_lt (d.bound m j hmi)
      simp [Function.update_of_ne hj]

/-! ## Renaming -/

/-- Move a name, over whatever the new name stood for. -/
def rename (d : Directory ν β) (src dst : ν) : Option (Directory ν β) :=
  match h : d.entries src with
  | none => none
  | some i => some { d with
      entries := Function.update (Function.update d.entries src none) dst (some i)
      bound := by
        intro m j hj
        by_cases hm : m = dst
        · subst hm
          rw [Function.update_self, Option.some.injEq] at hj
          exact hj ▸ d.bound src i h
        · rw [Function.update_of_ne hm] at hj
          by_cases hs : m = src
          · rw [hs, Function.update_self] at hj
            simp at hj
          · rw [Function.update_of_ne hs] at hj
            exact d.bound m j hj }

theorem rename_some (h : d.rename src dst = some d') :
    ∃ i, d.entries src = some i ∧ d'.files = d.files ∧ d'.next = d.next ∧
      d'.entries = Function.update (Function.update d.entries src none) dst (some i) := by
  unfold rename at h
  split at h
  · simp at h
  · rename_i i hi
    obtain rfl := Option.some.inj h
    exact ⟨i, hi, rfl, rfl, rfl⟩

theorem rename_isSome (dst : ν) (h : d.entries src = some i) :
    ∃ d', d.rename src dst = some d' := by
  unfold rename
  split
  · rename_i h'
    rw [h] at h'
    simp at h'
  · exact ⟨_, rfl⟩

theorem rename_files (h : d.rename src dst = some d') : d'.files = d.files := by
  obtain ⟨i, -, hf, -, -⟩ := rename_some h
  exact hf

theorem read_rename (h : d.rename src dst = some d') : d'.read dst = d.read src := by
  obtain ⟨i, hi, hf, -, he⟩ := rename_some h
  simp [read, he, hf, hi]

theorem read_rename_src (h : d.rename src dst = some d') (hne : src ≠ dst) :
    d'.read src = none := by
  obtain ⟨i, -, -, -, he⟩ := rename_some h
  rw [read_eq_none, he, Function.update_of_ne hne, Function.update_self]

theorem read_rename_of_ne (h : d.rename src dst = some d') (hsrc : m ≠ src) (hdst : m ≠ dst) :
    d'.read m = d.read m := by
  obtain ⟨i, -, hf, -, he⟩ := rename_some h
  unfold read
  rw [he, hf, Function.update_of_ne hdst, Function.update_of_ne hsrc]

/-! ## Removing -/

def remove (d : Directory ν β) (n : ν) : Option (Directory ν β) :=
  if d.has n then some { d with
      entries := Function.update d.entries n none
      bound := by
        intro m j hj
        by_cases hm : m = n
        · rw [hm, Function.update_self] at hj
          simp at hj
        · rw [Function.update_of_ne hm] at hj
          exact d.bound m j hj }
  else none

theorem remove_some (h : d.remove n = some d') :
    d'.files = d.files ∧ d'.next = d.next ∧ d'.entries = Function.update d.entries n none := by
  unfold remove at h
  split at h
  · obtain rfl := Option.some.inj h
    exact ⟨rfl, rfl, rfl⟩
  · simp at h

theorem remove_isSome (h : d.entries n = some i) : ∃ d', d.remove n = some d' := by
  unfold remove
  rw [if_pos (has_iff.2 ⟨i, h⟩)]
  exact ⟨_, rfl⟩

theorem read_remove (h : d.remove n = some d') : d'.read n = none := by
  obtain ⟨-, -, he⟩ := remove_some h
  rw [read_eq_none, he, Function.update_self]

theorem read_remove_of_ne (h : d.remove n = some d') (hm : m ≠ n) : d'.read m = d.read m := by
  obtain ⟨hf, -, he⟩ := remove_some h
  unfold read
  rw [he, hf, Function.update_of_ne hm]

end Directory
