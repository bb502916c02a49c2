import ClipBridge.Lib.Directory

/-!
# A directory that several owners share

Each owner has at most one file, under one name, and everything else in the directory was there
before. An owner creates its file under a name that is free, writes it, moves it and removes it;
as long as no owner moves its file onto a name that is taken, nobody loses anything.

* `Shared` — who owns what, as an invariant of the directory.
* `Shared.replace` — one owner's file changes and the other names stay: the invariant is kept.
* `Shared.create`, `Shared.append`, `Shared.rename`, `Shared.remove` — what an owner can do.
-/

namespace Directory

variable {α ν β : Type}

/-- An owner's file: its name, its number, and the bytes it has to hold. -/
structure Owned (ν β : Type) where
  name : ν
  file : Nat
  bytes : List β

/-- Every name that `d₀` had still stands for the same file with the same bytes. -/
def Keeps (d₀ d : Directory ν β) : Prop :=
  ∀ n i, d₀.entries n = some i → d.entries n = some i ∧ d.files i = d₀.files i

/-- The directory is what `d₀` was, and beside it one file for each owner. -/
structure Shared (d₀ d : Directory ν β) (owns : α → Option (Owned ν β)) : Prop where
  older : d₀.next ≤ d.next
  keeps : d₀.Keeps d
  sole : ∀ a o, owns a = some o → d.Sole o.file o.name
  bytes : ∀ a o, owns a = some o → d.files o.file = o.bytes
  fresh : ∀ a o, owns a = some o → d₀.has o.name = false
  apart : ∀ a b o o', owns a = some o → owns b = some o' → a ≠ b → o.name ≠ o'.name
  covered : ∀ n, d.has n → d₀.has n ∨ ∃ a o, owns a = some o ∧ o.name = n

namespace Shared

variable {d₀ d d' : Directory ν β} {owns : α → Option (Owned ν β)} {a b : α} {o o' : Owned ν β}
  {n : ν} {i : Nat} {bs : List β}

/-- Nothing is owned yet. -/
theorem start (d : Directory ν β) : Shared d d (fun _ : α => none) where
  older := Nat.le_refl _
  keeps := fun _ _ h => ⟨h, rfl⟩
  sole := by simp
  bytes := by simp
  fresh := by simp
  apart := by simp
  covered := fun _ h => .inl h

theorem entries (h : Shared d₀ d owns) (ho : owns a = some o) : d.entries o.name = some o.file :=
  (h.sole a o ho).entries

theorem has (h : Shared d₀ d owns) (ho : owns a = some o) : d.has o.name :=
  has_iff.2 ⟨_, h.entries ho⟩

/-- A name that is free was free before. -/
theorem fresh_of_free (h : Shared d₀ d owns) (hn : d.has n = false) : d₀.has n = false := by
  rw [has_eq_false] at hn ⊢
  cases hn₀ : d₀.entries n with
  | none => rfl
  | some i => rw [(h.keeps n i hn₀).1] at hn; simp at hn

/-- Two owners hold different files. -/
theorem file_ne (h : Shared d₀ d owns) (ho : owns a = some o) (ho' : owns b = some o')
    (hab : a ≠ b) : o.file ≠ o'.file := fun he =>
  h.apart a b o o' ho ho' hab ((h.sole b o' ho' o.name).1 (he ▸ h.entries ho))

variable [DecidableEq α]

/-- One owner's file is replaced by `p`, under its own name or a free one, and every other name
stays: the invariant is kept. -/
theorem replace (h : Shared d₀ d owns) (p : Option (Owned ν β)) (hnext : d.next ≤ d'.next)
    (hstay : ∀ m j, d.entries m = some j → (∀ o, owns a = some o → m ≠ o.name) →
      d'.entries m = some j ∧ d'.files j = d.files j)
    (hback : ∀ m j, d'.entries m = some j → (∃ q, p = some q ∧ q.name = m ∧ q.file = j) ∨
      d.entries m = some j ∧ ∀ o, owns a = some o → m ≠ o.name)
    (hentry : ∀ q, p = some q → d'.entries q.name = some q.file ∧ d'.files q.file = q.bytes)
    (hfile : ∀ q, p = some q → (∃ o, owns a = some o ∧ q.file = o.file) ∨ d.next ≤ q.file)
    (hname : ∀ q, p = some q → (∃ o, owns a = some o ∧ q.name = o.name) ∨ d.has q.name = false) :
    Shared d₀ d' (Function.update owns a p) := by
  have hother : ∀ b o, b ≠ a → owns b = some o → ∀ o', owns a = some o' → o.name ≠ o'.name :=
    fun b o hb ho o' ho' => h.apart b a o o' ho ho' hb
  have hfresh : ∀ q, p = some q → d₀.has q.name = false := by
    intro q hq
    rcases hname q hq with ⟨o, ho, he⟩ | he
    · rw [he]; exact h.fresh a o ho
    · exact h.fresh_of_free he
  have hapart : ∀ q b o, p = some q → b ≠ a → owns b = some o → q.name ≠ o.name := by
    intro q b o hq hb ho he
    rcases hname q hq with ⟨o', ho', he'⟩ | he'
    · exact hother b o hb ho o' ho' (he ▸ he')
    · rw [he, h.has ho] at he'; simp at he'
  -- The file of `q` had no name but the owner's.
  have hq_old : ∀ q m, p = some q → d.entries m = some q.file →
      ∃ o, owns a = some o ∧ m = o.name := by
    intro q m hq hm
    rcases hfile q hq with ⟨o, ho, he⟩ | he
    · exact ⟨o, ho, (h.sole a o ho m).1 (he ▸ hm)⟩
    · exact absurd (d.bound m _ hm) (Nat.not_lt.2 he)
  refine ⟨Nat.le_trans h.older hnext, ?_, ?_, ?_, ?_, ?_, ?_⟩
  · intro m j hm
    obtain ⟨he, hf⟩ := h.keeps m j hm
    have hne : ∀ o, owns a = some o → m ≠ o.name := by
      rintro o ho rfl
      have := h.fresh a o ho
      rw [has_eq_false, hm] at this
      simp at this
    exact ⟨(hstay m j he hne).1, (hstay m j he hne).2.trans hf⟩
  · intro b o hb
    by_cases hba : b = a
    · subst hba
      rw [Function.update_self] at hb
      intro m
      constructor
      · intro hm
        rcases hback m _ hm with ⟨q, hq, rfl, -⟩ | ⟨hm, hne⟩
        · rw [hb, Option.some.injEq] at hq
          rw [hq]
        · obtain ⟨o', ho', rfl⟩ := hq_old o m hb hm
          exact absurd rfl (hne o' ho')
      · rintro rfl
        exact (hentry o hb).1
    · rw [Function.update_of_ne hba] at hb
      intro m
      constructor
      · intro hm
        rcases hback m _ hm with ⟨q, hq, rfl, hf⟩ | ⟨hm, -⟩
        · obtain ⟨o', ho', he⟩ := hq_old q o.name hq (hf ▸ h.entries hb)
          exact absurd he (hother b o hba hb o' ho')
        · exact (h.sole b o hb m).1 hm
      · rintro rfl
        exact (hstay _ _ (h.entries hb) (hother b o hba hb)).1
  · intro b o hb
    by_cases hba : b = a
    · subst hba
      rw [Function.update_self] at hb
      exact (hentry o hb).2
    · rw [Function.update_of_ne hba] at hb
      exact (hstay _ _ (h.entries hb) (hother b o hba hb)).2.trans (h.bytes b o hb)
  · intro b o hb
    by_cases hba : b = a
    · subst hba
      rw [Function.update_self] at hb
      exact hfresh o hb
    · rw [Function.update_of_ne hba] at hb
      exact h.fresh b o hb
  · intro b c o o' hb hc hbc
    by_cases hba : b = a
    · subst hba
      rw [Function.update_self] at hb
      rw [Function.update_of_ne hbc.symm] at hc
      exact hapart o c o' hb hbc.symm hc
    · rw [Function.update_of_ne hba] at hb
      by_cases hca : c = a
      · subst hca
        rw [Function.update_self] at hc
        exact (hapart o' b o hc hba hb).symm
      · rw [Function.update_of_ne hca] at hc
        exact h.apart b c o o' hb hc hbc
  · intro m hm
    obtain ⟨j, hj⟩ := has_iff.1 hm
    rcases hback m j hj with ⟨q, hq, rfl, -⟩ | ⟨hj, hne⟩
    · exact .inr ⟨a, q, by rw [Function.update_self, hq], rfl⟩
    · rcases h.covered m (has_iff.2 ⟨j, hj⟩) with h₀ | ⟨b, o, hb, rfl⟩
      · exact .inl h₀
      · have hba : b ≠ a := by
          rintro rfl
          exact hne o hb rfl
        exact .inr ⟨b, o, by rw [Function.update_of_ne hba, hb], rfl⟩

/-- An owner without a file writes down the one it has just created. -/
theorem create [DecidableEq ν] (h : Shared d₀ d owns) (ha : owns a = none)
    (hd : d.createNew n = some (i, d')) :
    Shared d₀ d' (Function.update owns a (some ⟨n, i, []⟩)) := by
  obtain ⟨hn, rfl, hnext, he, hf⟩ := createNew_some hd
  refine h.replace _ (by omega) ?_ ?_ ?_ ?_ ?_
  · intro m j hm _
    have hmn : m ≠ n := by
      rintro rfl
      rw [has_eq_false, hm] at hn
      simp at hn
    rw [he, hf, Function.update_of_ne hmn, Function.update_of_ne (Nat.ne_of_lt (d.bound m j hm))]
    exact ⟨hm, rfl⟩
  · intro m j hm
    by_cases hmn : m = n
    · subst hmn
      rw [he, Function.update_self, Option.some.injEq] at hm
      exact .inl ⟨_, rfl, rfl, hm⟩
    · rw [he, Function.update_of_ne hmn] at hm
      exact .inr ⟨hm, by simp [ha]⟩
  · rintro q ⟨rfl⟩
    rw [he, hf]
    simp
  · rintro q ⟨rfl⟩
    exact .inr (Nat.le_refl _)
  · rintro q ⟨rfl⟩
    exact .inr hn

theorem append (h : Shared d₀ d owns) (ho : owns a = some o) :
    Shared d₀ (d.append o.file bs)
      (Function.update owns a (some ⟨o.name, o.file, o.bytes ++ bs⟩)) := by
  refine h.replace _ (Nat.le_refl _) ?_ ?_ ?_ ?_ ?_
  · intro m j hm hne
    have hj : j ≠ o.file := by
      rintro rfl
      exact hne o ho ((h.sole a o ho m).1 hm)
    exact ⟨hm, append_files_of_ne hj⟩
  · intro m j hm
    by_cases hmo : m = o.name
    · subst hmo
      rw [append_entries, h.entries ho, Option.some.injEq] at hm
      exact .inl ⟨_, rfl, rfl, hm⟩
    · exact .inr ⟨hm, by simpa [ho] using hmo⟩
  · rintro q ⟨rfl⟩
    have he := h.entries ho
    exact ⟨he, by rw [append_files, h.bytes a o ho]⟩
  · rintro q ⟨rfl⟩
    exact .inl ⟨o, ho, rfl⟩
  · rintro q ⟨rfl⟩
    exact .inl ⟨o, ho, rfl⟩

/-- Moving the own file onto a name that is free. -/
theorem rename [DecidableEq ν] (h : Shared d₀ d owns) (ho : owns a = some o)
    (hn : d.has n = false) (hd : d.rename o.name n = some d') :
    Shared d₀ d' (Function.update owns a (some ⟨n, o.file, o.bytes⟩)) := by
  obtain ⟨i, hi, hf, hnext, he⟩ := rename_some hd
  obtain rfl : i = o.file := Option.some.inj (hi.symm.trans (h.entries ho))
  refine h.replace _ (by omega) ?_ ?_ ?_ ?_ ?_
  · intro m j hm hne
    have hmn : m ≠ n := by
      rintro rfl
      rw [has_eq_false, hm] at hn
      simp at hn
    rw [he, hf, Function.update_of_ne hmn, Function.update_of_ne (hne o ho)]
    exact ⟨hm, rfl⟩
  · intro m j hm
    by_cases hmn : m = n
    · subst hmn
      rw [he, Function.update_self, Option.some.injEq] at hm
      exact .inl ⟨_, rfl, rfl, hm⟩
    · rw [he, Function.update_of_ne hmn] at hm
      by_cases hmo : m = o.name
      · rw [hmo, Function.update_self] at hm
        simp at hm
      · rw [Function.update_of_ne hmo] at hm
        exact .inr ⟨hm, by simpa [ho] using hmo⟩
  · rintro q ⟨rfl⟩
    rw [he, hf, h.bytes a o ho]
    simp
  · rintro q ⟨rfl⟩
    exact .inl ⟨o, ho, rfl⟩
  · rintro q ⟨rfl⟩
    exact .inr hn

theorem remove [DecidableEq ν] (h : Shared d₀ d owns) (ho : owns a = some o)
    (hd : d.remove o.name = some d') : Shared d₀ d' (Function.update owns a none) := by
  obtain ⟨hf, hnext, he⟩ := remove_some hd
  refine h.replace _ (by omega) ?_ ?_ (by simp) (by simp) (by simp)
  · intro m j hm hne
    rw [he, hf, Function.update_of_ne (hne o ho)]
    exact ⟨hm, rfl⟩
  · intro m j hm
    by_cases hmo : m = o.name
    · rw [hmo, he, Function.update_self] at hm
      simp at hm
    · rw [he, Function.update_of_ne hmo] at hm
      exact .inr ⟨hm, by simpa [ho] using hmo⟩

end Shared

end Directory
