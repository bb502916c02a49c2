import ClipBridge.Core.FileTransfer

/-!
# Names that are kept as they are

A name is sanitized once, when the offer is checked, and again when a free name is looked for;
and a number may be put into it. This goes well because the names that `sanitize_file_name`
leaves alone are the same that it returns, and numbering one of them gives another one.

* `SafeName` — what is promised of such a name. `safeName_iff`: the fixed points of sanitizing.
* `splitNameExt_cases` — a safe name is split at its last dot, or has none.
* `SafeName.numbered` — a numbered name is safe; `numberedName_inj`: and tells its number.
* `sanitized_safe` — all of it, from the name that was offered to the name of the file.
-/

namespace ClipBridge

/-- A name of a file, on any system: no separators, nothing to trim, no reserved stem. -/
structure SafeName (name : String) : Prop where
  nonempty : name.toList ≠ []
  chars : ∀ c ∈ name.toList, c ≠ '/' ∧ c ≠ '\\' ∧ isControl c = false
  front : ∀ c ∈ name.toList.head?, c ≠ ' ' ∧ c ≠ '.'
  back : ∀ c ∈ name.toList.getLast?, c ≠ ' ' ∧ c ≠ '.'
  stem : isWindowsReservedName (reservedStem name.toList) = false

/-! ## Fixed points -/

theorem isNameChar_iff {c : Char} :
    isNameChar c = true ↔ c ≠ '/' ∧ c ≠ '\\' ∧ isControl c = false := by
  unfold isNameChar
  simp [and_assoc]

theorem isPadding_eq_false {c : Char} : isPadding c = false ↔ c ≠ ' ' ∧ c ≠ '.' := by
  unfold isPadding
  simp

theorem trimMatches_eq_self_iff {p : Char → Bool} {cs : List Char} :
    trimMatches p cs = cs ↔
      (∀ c ∈ cs.head?, p c = false) ∧ ∀ c ∈ cs.getLast?, p c = false := by
  have hfront : cs.dropWhile p = cs ↔ ∀ c ∈ cs.head?, p c = false := by
    cases cs with
    | nil => simp
    | cons c cs =>
        rw [List.dropWhile_eq_self_iff]
        simp
  have hback : cs.rdropWhile p = cs ↔ ∀ c ∈ cs.getLast?, p c = false := by
    rw [List.rdropWhile_eq_self_iff]
    constructor
    · intro h c hc
      obtain ⟨hne, rfl⟩ := List.mem_getLast?_eq_getLast hc
      simpa using h hne
    · intro h hne
      simpa using h _ (List.getLast?_eq_getLast_of_ne_nil hne)
  rw [trimMatches_eq, ← hfront, ← hback]
  constructor
  · intro h
    have hdrop : cs.dropWhile p = cs := by
      have hlen := (List.rdropWhile_prefix p (cs.dropWhile p)).length_le
      rw [h] at hlen
      exact (List.dropWhile_sublist p).eq_of_length_le hlen
    rw [hdrop] at h
    exact ⟨hdrop, h⟩
  · rintro ⟨hdrop, hr⟩
    rw [hdrop, hr]

/-- The safe names are the ones that sanitizing leaves alone. -/
theorem safeName_iff {name : String} : SafeName name ↔ sanitizeFileName name = .ok name := by
  constructor
  · intro h
    have htrim : trimMatches isPadding name.toList = name.toList := by
      rw [trimMatches_eq_self_iff]
      exact ⟨fun c hc => isPadding_eq_false.2 (h.front c hc),
        fun c hc => isPadding_eq_false.2 (h.back c hc)⟩
    have hdots : ¬ (name = "" ∨ name = "." ∨ name = "..") := by
      rintro (rfl | rfl | rfl)
      · exact h.nonempty (by decide)
      · exact (h.front '.' (by decide)).2 rfl
      · exact (h.front '.' (by decide)).2 rfl
    have hchars : name.toList.all isNameChar = true := by
      rw [List.all_eq_true]
      exact fun c hc => isNameChar_iff.2 (h.chars c hc)
    unfold sanitizeFileName
    rw [if_neg hdots, if_neg (by simpa using hchars)]
    dsimp only
    rw [htrim, if_neg h.nonempty, if_neg (by simp [h.stem]), String.ofList_toList]
  · intro h
    obtain ⟨hall, htrim, hne, hstem⟩ := sanitizeFileName_ok h
    rw [trimMatches_eq_self_iff] at htrim
    rw [List.all_eq_true] at hall
    exact ⟨hne, fun c hc => isNameChar_iff.1 (hall c hc),
      fun c hc => isPadding_eq_false.1 (htrim.1 c hc),
      fun c hc => isPadding_eq_false.1 (htrim.2 c hc), hstem⟩

/-! ## Numbering -/

/-- A name is split at its last dot, or it has none, or only at one of its ends. -/
theorem splitNameExt_cases (name : List Char) :
    (∃ stem ext, splitNameExt name = (stem, some ext) ∧ name = stem ++ '.' :: ext ∧
      stem ≠ [] ∧ ext ≠ [] ∧ '.' ∉ ext) ∨
    splitNameExt name = (name, none) ∧
      ('.' ∉ name ∨ '.' ∈ name.head? ∨ '.' ∈ name.getLast?) := by
  unfold splitNameExt
  dsimp only
  by_cases hdot : '.' ∈ name
  · have hsplit := List.takeWhile_append_dropWhile (p := (· ≠ '.')) (l := name.reverse)
    have hext : '.' ∉ name.reverse.takeWhile (· ≠ '.') := fun h => by
      simpa using List.mem_takeWhile_imp h
    cases hdrop : name.reverse.dropWhile (· ≠ '.') with
    | nil =>
        have := List.dropWhile_eq_nil_iff.1 hdrop '.' (List.mem_reverse.2 hdot)
        simp at this
    | cons c rest =>
        have hc : c = '.' := by
          have hhead := List.head?_dropWhile_not (· ≠ '.') name.reverse
          rw [hdrop] at hhead
          simpa using hhead
        rw [hdrop, hc] at hsplit
        generalize name.reverse.takeWhile (· ≠ '.') = ext at hsplit hext
        have hname : name = rest.reverse ++ '.' :: ext.reverse := by
          rw [← List.reverse_reverse name, ← hsplit]
          simp
        subst hname
        by_cases hstem : rest = []
        · exact Or.inr ⟨by simp [hstem], Or.inr (Or.inl (by simp [hstem]))⟩
        · by_cases hnil : ext = []
          · exact Or.inr ⟨by simp [hnil], Or.inr (Or.inr (by simp [hnil]))⟩
          · exact Or.inl ⟨rest.reverse, ext.reverse, by simp [hstem, hnil], rfl,
              by simpa using hstem, by simpa using hnil, by simpa using hext⟩
  · exact Or.inr ⟨by simp [hdot], Or.inl hdot⟩

/-- A reserved name is letters and digits. -/
theorem isAlphanum_of_reserved {stem : List Char} (h : isWindowsReservedName stem = true) :
    stem ≠ [] ∧ ∀ c ∈ stem, c.isAlphanum = true := by
  have hall : ∀ s ∈ ["CON", "PRN", "AUX", "NUL", "COM1", "COM2", "COM3", "COM4", "COM5", "COM6",
      "COM7", "COM8", "COM9", "LPT1", "LPT2", "LPT3", "LPT4", "LPT5", "LPT6", "LPT7", "LPT8",
      "LPT9"], s.toList ≠ [] ∧ s.toList.all Char.isAlphanum = true := by decide
  obtain ⟨hsome, hchars⟩ := hall _ (List.contains_iff_mem.1 h)
  rw [String.toList_ofList] at hsome hchars
  exact ⟨hsome, List.all_eq_true.1 hchars⟩

/-- No reserved name has a parenthesis in it. -/
theorem not_reserved_of_paren {stem : List Char} (h : '(' ∈ stem) :
    isWindowsReservedName stem = false := by
  rw [← Bool.not_eq_true]
  intro hres
  exact absurd ((isAlphanum_of_reserved hres).2 '(' h) (by decide)

/-- What is written between the stem and the extension. -/
def numberChars (i : Nat) : List Char := ' ' :: '(' :: (Nat.toDigits 10 i ++ [')'])

theorem mem_numberChars {i : Nat} {c : Char} (h : c ∈ numberChars i) :
    c = ' ' ∨ c = '(' ∨ c = ')' ∨ c.isDigit = true := by
  simp only [numberChars, List.mem_cons, List.mem_append, List.not_mem_nil, or_false] at h
  rcases h with h | h | h | h
  · exact Or.inl h
  · exact Or.inr (Or.inl h)
  · exact Or.inr (Or.inr (Or.inr (Nat.isDigit_of_mem_toDigits (by decide) (by decide) h)))
  · exact Or.inr (Or.inr (Or.inl h))

theorem numberChars_inj {i j : Nat} (h : numberChars i = numberChars j) : i = j := by
  have hdigits : Nat.toDigits 10 i = Nat.toDigits 10 j := by
    simpa [numberChars] using h
  rw [← Nat.ofDigitChars_ten_toDigits (n := i), hdigits, Nat.ofDigitChars_ten_toDigits]

/-- A numbered name has the number before the extension, or at its end. -/
theorem numberedName_cases {name : String} (h : SafeName name) (i : Nat) :
    (∃ stem ext, name.toList = stem ++ '.' :: ext ∧ stem ≠ [] ∧ ext ≠ [] ∧
      (numberedName name i).toList = stem ++ numberChars i ++ '.' :: ext) ∨
    '.' ∉ name.toList ∧ (numberedName name i).toList = name.toList ++ numberChars i := by
  unfold numberedName
  rcases splitNameExt_cases name.toList with
    ⟨stem, ext, hsplit, hname, hstem, hext, -⟩ | ⟨hsplit, hdot⟩
  · rw [hsplit]
    exact Or.inl ⟨stem, ext, hname, hstem, hext, by simp [numberChars]⟩
  · rw [hsplit]
    refine Or.inr ⟨?_, by simp [numberChars]⟩
    rcases hdot with hdot | hdot | hdot
    · exact hdot
    · exact absurd rfl (h.front '.' hdot).2
    · exact absurd rfl (h.back '.' hdot).2

theorem good_of_mem_numberChars {i : Nat} {c : Char} (h : c ∈ numberChars i) :
    (c ≠ '/' ∧ c ≠ '\\' ∧ isControl c = false) ∧ c ≠ '.' ∧ c ≠ ':' := by
  rcases mem_numberChars h with rfl | rfl | rfl | hdigit
  · decide
  · decide
  · decide
  · have hrange : 48 ≤ c.toNat ∧ c.toNat ≤ 57 := by
      simpa [Char.isDigit, UInt32.le_iff_toNat_le] using hdigit
    have hne : ∀ d : Char, d.toNat < 48 ∨ 57 < d.toNat → c ≠ d := by
      rintro d hd rfl
      omega
    refine ⟨⟨hne _ (by decide), hne _ (by decide), ?_⟩, hne _ (by decide), hne _ (by decide)⟩
    simp [isControl]
    omega

theorem getLast?_numberChars (i : Nat) : (numberChars i).getLast? = some ')' := by
  rw [numberChars, List.getLast?_cons_of_ne_nil (by simp), List.getLast?_cons_of_ne_nil (by simp),
    List.getLast?_concat]

theorem takeWhile_append_of_mem {p : Char → Bool} {front rest : List Char} {c : Char}
    (hc : c ∈ front) (hp : p c = false) : (front ++ rest).takeWhile p = front.takeWhile p := by
  rw [List.takeWhile_append, if_neg]
  intro hlen
  have hall := List.takeWhile_eq_self_iff.1 ((List.takeWhile_sublist p).eq_of_length hlen) c hc
  rw [hp] at hall
  cases hall

/-- What follows the first dot does not matter. -/
theorem reservedStem_append {front rest : List Char} (h : '.' ∈ front) :
    reservedStem (front ++ rest) = reservedStem front := by
  unfold reservedStem
  rw [takeWhile_append_of_mem h (by decide)]

/-- A stem with a number in it is not reserved. -/
theorem not_reserved_of_numbered {front rest : List Char} (i : Nat) (h : '.' ∉ front) :
    isWindowsReservedName (reservedStem (front ++ numberChars i ++ rest)) = false := by
  apply not_reserved_of_paren
  have hkeep : ∀ c ∈ front ++ numberChars i, decide (c ≠ '.') = true := by
    intro c hc
    rw [decide_eq_true_eq]
    rintro rfl
    rcases List.mem_append.1 hc with hc | hc
    · exact h hc
    · exact (good_of_mem_numberChars hc).2.1 rfl
  unfold reservedStem
  rw [List.takeWhile_append_of_pos hkeep]
  exact List.mem_map.2 ⟨'(', by simp [numberChars], by decide⟩

theorem SafeName.numbered {name : String} (h : SafeName name) (i : Nat) :
    SafeName (numberedName name i) := by
  rcases numberedName_cases h i with ⟨stem, ext, hname, hstem, hext, hnum⟩ | ⟨hdot, hnum⟩
  · have hchars := h.chars
    have hfront := h.front
    have hback := h.back
    have hres := h.stem
    rw [hname] at hchars hfront hback hres
    constructor
    case nonempty => simp [hnum]
    case chars =>
      intro c hc
      rw [hnum, List.append_assoc, List.mem_append, List.mem_append] at hc
      rcases hc with hc | hc | hc
      · exact hchars c (List.mem_append_left _ hc)
      · exact (good_of_mem_numberChars hc).1
      · exact hchars c (List.mem_append_right _ hc)
    case front =>
      rw [hnum, List.append_assoc, List.head?_append_of_ne_nil _ hstem]
      rwa [List.head?_append_of_ne_nil _ hstem] at hfront
    case back =>
      rw [hnum, List.getLast?_append_of_ne_nil _ (by simp)]
      rwa [List.getLast?_append_of_ne_nil _ (by simp)] at hback
    case stem =>
      rw [hnum]
      by_cases hdot : '.' ∈ stem
      · rw [List.append_assoc, reservedStem_append hdot, ← reservedStem_append hdot]
        exact hres
      · exact not_reserved_of_numbered i hdot
  · constructor
    case nonempty => simp [hnum, h.nonempty]
    case chars =>
      intro c hc
      rw [hnum, List.mem_append] at hc
      rcases hc with hc | hc
      · exact h.chars c hc
      · exact (good_of_mem_numberChars hc).1
    case front =>
      rw [hnum, List.head?_append_of_ne_nil _ h.nonempty]
      exact h.front
    case back =>
      rw [hnum, List.getLast?_append_of_ne_nil _ (by simp [numberChars]), getLast?_numberChars]
      simp
    case stem =>
      rw [hnum, ← List.append_nil (_ ++ numberChars i)]
      exact not_reserved_of_numbered i hdot

/-- The number can be told from the name. -/
theorem numberedName_inj {name : String} {i j : Nat}
    (h : numberedName name i = numberedName name j) : i = j := by
  have hlist := congrArg String.toList h
  have hsplit : ∀ k, (numberedName name k).toList =
      (splitNameExt name.toList).1 ++ (numberChars k ++
        ((splitNameExt name.toList).2.elim [] ('.' :: ·))) := by
    intro k
    unfold numberedName
    cases hs : splitNameExt name.toList with
    | mk stem ext => cases ext <;> simp [numberChars]
  rw [hsplit i, hsplit j] at hlist
  exact numberChars_inj (List.append_cancel_right (List.append_cancel_left hlist))

/-! ## From the offer to the file -/

/-- The names that are tried for a file: the one that was sanitized, or that with a number. -/
theorem safeName_of_candidate {name path : String} (h : SafeName name)
    (hpath : path ∈ candidates name) : SafeName path := by
  rcases List.mem_cons.1 hpath with rfl | hpath
  · exact h
  · obtain ⟨i, -, rfl⟩ := List.mem_map.1 hpath
    exact h.numbered i

theorem uniqueDestinationPath_mem {dir : Dir} {name safeName path : String}
    (hname : sanitizeFileName name = .ok safeName)
    (h : uniqueDestinationPath dir name = .ok path) : path ∈ candidates safeName := by
  unfold uniqueDestinationPath at h
  rw [hname] at h
  dsimp only at h
  split at h
  · rename_i hfind
    cases h
    exact List.mem_of_find?_eq_some hfind
  · cases h

/-- **What is kept of a name that is accepted is safe, and is kept whenever it is sanitized again.
The same is true of each name that it gets with a number; different numbers give different names,
and the name that is taken was free.** -/
theorem sanitized_safe {name safeName : String} (h : sanitizeFileName name = .ok safeName) :
    (SafeName safeName ∧ sanitizeFileName safeName = .ok safeName) ∧
    (∀ i, SafeName (numberedName safeName i) ∧
      sanitizeFileName (numberedName safeName i) = .ok (numberedName safeName i)) ∧
    (∀ i j, numberedName safeName i = numberedName safeName j → i = j) ∧
    ∀ dir path, uniqueDestinationPath dir name = .ok path →
      path ∈ candidates safeName ∧ SafeName path ∧ dir.has path = false := by
  have hsafe : SafeName safeName := safeName_iff.2 (sanitizeFileName_idem h)
  refine ⟨⟨hsafe, safeName_iff.1 hsafe⟩, fun i => ?_, fun i j => numberedName_inj, ?_⟩
  · exact ⟨hsafe.numbered i, safeName_iff.1 (hsafe.numbered i)⟩
  · intro dir path hpath
    have hmem := uniqueDestinationPath_mem h hpath
    exact ⟨hmem, safeName_of_candidate hsafe hmem, uniqueDestinationPath_free hpath⟩

/-- A name with dots and spaces around it. -/
theorem padded_safe : SafeName "a.tar.gz" ∧ SafeName "a.tar (3).gz" := by
  have h := sanitized_safe
    (show sanitizeFileName " .a.tar.gz. " = .ok "a.tar.gz" by decide +kernel)
  have hnum : numberedName "a.tar.gz" 3 = "a.tar (3).gz" := by decide +kernel
  exact ⟨h.1.1, hnum ▸ (h.2.1 3).1⟩

end ClipBridge
