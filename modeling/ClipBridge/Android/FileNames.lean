import ClipBridge.Core.SafeName
import Mathlib.Data.List.Infix

/-!
# The names of staged files

Following `sanitizeAndroidFileTransferName` in `FileTransferModels.kt` of the Android client. A
file to be sent is copied to a name of its own first, made of the name it is displayed under; the
core then reads the name of the copy and has its own rules about names. A string is its characters:
all that are looked at take one UTF-16 unit.

* `Behind` — what a name is without the paths in front of it, by what it is rather than by how it
  is cut out; `behind_iff`.
* `Offerable` — what the app does not see to: control characters from U+007F on, reserved stems.
* `staged_iff` — the core takes the name of the copy, as it is, exactly if the displayed name is
  offerable.
-/

namespace ClipBridge.Android

/-! ## The sanitizer -/

/-- `Char.isWhitespace` of Kotlin: the separators, and the controls that Java calls white space. -/
def isKotlinWhitespace (c : Char) : Bool :=
  (0x09 ≤ c.toNat && c.toNat ≤ 0x0d) || (0x1c ≤ c.toNat && c.toNat ≤ 0x20) || c.toNat == 0xa0 ||
    c.toNat == 0x1680 || (0x2000 ≤ c.toNat && c.toNat ≤ 0x200a) || c.toNat == 0x2028 ||
    c.toNat == 0x2029 || c.toNat == 0x202f || c.toNat == 0x205f || c.toNat == 0x3000

/-- `substringAfterLast`: what is behind the last delimiter, or everything if there is none. -/
def substringAfterLast (delimiter : List Char) : List Char → List Char
  | [] => []
  | c :: cs =>
      if delimiter <:+: cs then substringAfterLast delimiter cs
      else if delimiter <+: c :: cs then (c :: cs).drop delimiter.length
      else c :: cs

def withoutTraversal (raw : List Char) : List Char :=
  substringAfterLast "..\\".toList (substringAfterLast "../".toList
    (trimMatches isKotlinWhitespace raw))

def replaceChar (c : Char) : Char :=
  if c.toNat < 32 then '_' else if c = '/' ∨ c = '\\' then '_' else c

/-- `replace(Regex("_+"), "_")`: of each run of underscores, the last one stays. -/
def collapseUnderscores : List Char → List Char
  | [] => []
  | c :: cs =>
      if c = '_' ∧ cs.head? = some '_' then collapseUnderscores cs
      else c :: collapseUnderscores cs

def cleaned (name : List Char) : List Char :=
  collapseUnderscores (trimMatches isPadding (name.map replaceChar))

def sanitizeAndroidFileTransferName (raw : String) : String :=
  let cs := cleaned (withoutTraversal raw.toList)
  if cs.all isKotlinWhitespace then "file" else String.ofList cs

/-! ## Behind the last traversal -/

def traversals : List (List Char) := ["../".toList, "..\\".toList]

/-- `name` is all of `cs`, or what comes right after a traversal; and there is none in it. -/
structure Behind (cs name : List Char) : Prop where
  none : ∀ traversal ∈ traversals, ¬ traversal <:+: name
  front : name = cs ∨ ∃ traversal ∈ traversals, ∃ front, cs = front ++ traversal ++ name

section

variable {delimiter cs : List Char}

theorem substringAfterLast_none (hsome : delimiter ≠ []) :
    ¬ delimiter <:+: substringAfterLast delimiter cs := by
  induction cs with
  | nil => simpa [substringAfterLast] using hsome
  | cons c cs ih =>
      rw [substringAfterLast]
      by_cases hlater : delimiter <:+: cs
      · rw [if_pos hlater]
        exact ih
      · rw [if_neg hlater]
        by_cases hhere : delimiter <+: c :: cs
        · rw [if_pos hhere]
          intro hwithin
          -- at least one character is dropped
          obtain ⟨n, hn⟩ := Nat.exists_eq_succ_of_ne_zero (mt List.length_eq_zero_iff.1 hsome)
          rw [hn, List.drop_succ_cons] at hwithin
          exact hlater (hwithin.trans (List.drop_suffix n cs).isInfix)
        · rw [if_neg hhere, List.infix_cons_iff, not_or]
          exact ⟨hhere, hlater⟩

theorem substringAfterLast_front (hsome : delimiter ≠ []) (cs : List Char) :
    substringAfterLast delimiter cs = cs ∨
      ∃ front, cs = front ++ delimiter ++ substringAfterLast delimiter cs := by
  induction cs with
  | nil => exact .inl rfl
  | cons c cs ih =>
      rw [substringAfterLast]
      by_cases hlater : delimiter <:+: cs
      · rw [if_pos hlater]
        rcases ih with hall | ⟨front, hfront⟩
        · exact absurd hlater (hall ▸ substringAfterLast_none hsome)
        · exact .inr ⟨c :: front, by rw [List.cons_append, List.cons_append, ← hfront]⟩
      · rw [if_neg hlater]
        by_cases hhere : delimiter <+: c :: cs
        · rw [if_pos hhere]
          exact .inr ⟨[], (List.prefix_iff_eq_append.1 hhere).symm⟩
        · rw [if_neg hhere]
          exact .inl rfl

theorem substringAfterLast_suffix (hsome : delimiter ≠ []) (cs : List Char) :
    substringAfterLast delimiter cs <:+ cs := by
  rcases substringAfterLast_front hsome cs with hall | ⟨front, hfront⟩
  · exact ⟨[], hall⟩
  · exact ⟨front ++ delimiter, hfront.symm⟩

/-- Cut at one traversal and then at the other, what is left is behind both. -/
theorem behind_substrings (cs : List Char) :
    Behind cs (substringAfterLast "..\\".toList (substringAfterLast "../".toList cs)) := by
  have hback : "..\\".toList ≠ [] := by decide
  have hslash : "../".toList ≠ [] := by decide
  constructor
  · intro traversal hmem hwithin
    rcases List.mem_pair.1 hmem with rfl | rfl
    · exact substringAfterLast_none hslash
        (hwithin.trans (substringAfterLast_suffix hback _).isInfix)
    · exact substringAfterLast_none hback hwithin
  · rcases substringAfterLast_front hback (substringAfterLast "../".toList cs) with
      hall | ⟨front, hfront⟩
    · rw [hall]
      rcases substringAfterLast_front hslash cs with hall | ⟨front, hfront⟩
      · exact .inl hall
      · exact .inr ⟨_, List.mem_cons_self, front, hfront⟩
    · obtain ⟨before, hbefore⟩ := substringAfterLast_suffix hslash cs
      refine .inr ⟨"..\\".toList, by decide, before ++ front, ?_⟩
      rw [List.append_assoc before, List.append_assoc before, ← hfront, hbefore]

end

theorem length_of_mem_traversals {traversal : List Char} (h : traversal ∈ traversals) :
    traversal.length = 3 := by
  rcases List.mem_pair.1 h with rfl | rfl <;> rfl

/-- Behind a traversal, another one does not begin before it ends. -/
theorem suffix_between {traversal last between : List Char} (htraversal : traversal ∈ traversals)
    (hlast : last ∈ traversals) (hsome : between ≠ []) (h : traversal <:+ last ++ between) :
    traversal <:+ between := by
  rcases between with _ | ⟨a, _ | ⟨b, _ | ⟨c, rest⟩⟩⟩
  · exact absurd rfl hsome
  · -- the last one would end with the second dot
    rcases List.mem_pair.1 htraversal with rfl | rfl <;>
      rcases List.mem_pair.1 hlast with rfl | rfl <;>
        simp [List.suffix_cons_iff] at h
  · -- or with the first
    rcases List.mem_pair.1 htraversal with rfl | rfl <;>
      rcases List.mem_pair.1 hlast with rfl | rfl <;>
        simp [List.suffix_cons_iff] at h
  · exact List.suffix_of_suffix_length_le h (List.suffix_append _ _)
      (by simp [length_of_mem_traversals htraversal])

theorem Behind.suffix {cs name : List Char} (h : Behind cs name) : name <:+ cs := by
  rcases h.front with rfl | ⟨traversal, -, front, rfl⟩
  · exact List.suffix_refl _
  · exact List.suffix_append _ _

/-- Traversals do not overlap, so what is behind the last one is one thing. -/
theorem Behind.eq_of_length_le {cs name other : List Char} (hname : Behind cs name)
    (hother : Behind cs other) (hle : name.length ≤ other.length) : name = other := by
  obtain ⟨between, rfl⟩ := List.suffix_of_suffix_length_le hname.suffix hother.suffix hle
  by_contra hne
  have hsome : between ≠ [] := fun hnil => hne (by rw [hnil, List.nil_append])
  -- a traversal right before `name` is in what is behind the last one
  have hcontra {traversal : List Char} (hmem : traversal ∈ traversals)
      (hbetween : traversal <:+ between) : False := by
    obtain ⟨front, rfl⟩ := hbetween
    exact hother.none traversal hmem ⟨front, name, rfl⟩
  rcases hname.front with rfl | ⟨traversal, hmem, front, hfront⟩
  · have hlength := hother.suffix.length_le
    rw [List.length_append] at hlength
    exact hsome (List.length_eq_zero_iff.1 (by omega))
  · rcases hother.front with hall | ⟨last, hlast, before, hbefore⟩
    · rw [← hall] at hfront
      exact hcontra hmem ⟨front, (List.append_cancel_right hfront).symm⟩
    · have hcut : front ++ traversal = before ++ (last ++ between) := by
        refine (List.append_left_inj name).1 ?_
        rw [← hfront, hbefore, List.append_assoc, List.append_assoc, List.append_assoc]
      have hsuffix : traversal <:+ last ++ between :=
        List.suffix_of_suffix_length_le ⟨front, hcut⟩ (List.suffix_append _ _)
          (by simp [length_of_mem_traversals hmem, length_of_mem_traversals hlast])
      exact hcontra hmem (suffix_between hmem hlast hsome hsuffix)

theorem behind_iff {cs name : List Char} :
    Behind cs name ↔
      name = substringAfterLast "..\\".toList (substringAfterLast "../".toList cs) := by
  have hcut := behind_substrings cs
  refine ⟨fun h => ?_, fun h => h ▸ hcut⟩
  rcases Nat.le_total name.length _ with hle | hle
  · exact h.eq_of_length_le hcut hle
  · exact (hcut.eq_of_length_le h hle).symm

/-! ## What the sanitizer leaves -/

/-- What is left of a name, without the padding, has no control character from U+007F on; and its
stem is not reserved. -/
structure Offerable (name : List Char) : Prop where
  chars : ∀ c ∈ trimMatches isPadding name, ¬ (0x7f ≤ c.toNat ∧ c.toNat < 0xa0)
  stem : isWindowsReservedName (reservedStem (trimMatches isPadding name)) = false

section

variable {cs : List Char} {c : Char}

theorem mem_collapseUnderscores : c ∈ collapseUnderscores cs ↔ c ∈ cs := by
  induction cs with
  | nil => rfl
  | cons d cs ih =>
      rw [collapseUnderscores]
      by_cases hrun : d = '_' ∧ cs.head? = some '_'
      · rw [if_pos hrun, ih, List.mem_cons]
        refine ⟨.inr, fun h => h.elim (fun hc => ?_) id⟩
        rw [hc, hrun.1]
        exact List.mem_of_mem_head? hrun.2
      · rw [if_neg hrun, List.mem_cons, List.mem_cons, ih]

theorem head?_collapseUnderscores : (collapseUnderscores cs).head? = cs.head? := by
  induction cs with
  | nil => rfl
  | cons d cs ih =>
      rw [collapseUnderscores]
      by_cases hrun : d = '_' ∧ cs.head? = some '_'
      · rw [if_pos hrun, ih, hrun.2, hrun.1, List.head?_cons]
      · rw [if_neg hrun, List.head?_cons, List.head?_cons]

theorem getLast?_collapseUnderscores : (collapseUnderscores cs).getLast? = cs.getLast? := by
  induction cs with
  | nil => rfl
  | cons d cs ih =>
      rw [collapseUnderscores]
      by_cases hrun : d = '_' ∧ cs.head? = some '_'
      · have hcs : cs ≠ [] := fun hnil => by simp [hnil] at hrun
        rw [if_pos hrun, ih, List.getLast?_cons_of_ne_nil hcs]
      · rw [if_neg hrun, List.getLast?_cons, List.getLast?_cons, ih]

theorem collapseUnderscores_eq_self (h : '_' ∉ cs) : collapseUnderscores cs = cs := by
  induction cs with
  | nil => rfl
  | cons d cs ih =>
      obtain ⟨hd, hcs⟩ := not_or.1 (mt List.mem_cons.2 h)
      rw [collapseUnderscores, if_neg fun hrun => hd hrun.1.symm, ih hcs]

theorem takeWhile_collapseUnderscores :
    (collapseUnderscores cs).takeWhile (· ≠ '.') =
      collapseUnderscores (cs.takeWhile (· ≠ '.')) := by
  induction cs with
  | nil => rfl
  | cons d cs ih =>
      have hhead : (cs.takeWhile (· ≠ '.')).head? = some '_' ↔ cs.head? = some '_' := by
        cases cs with
        | nil => rfl
        | cons e cs => by_cases he : e = '.' <;> simp [he]
      by_cases hdot : d = '.'
      · simp [collapseUnderscores, hdot]
      · rw [List.takeWhile_cons_of_pos (by simpa using hdot), collapseUnderscores,
          collapseUnderscores]
        by_cases hrun : d = '_' ∧ cs.head? = some '_'
        · rw [if_pos hrun, if_pos (hrun.imp_right hhead.2), ih]
        · rw [if_neg hrun, if_neg fun h => hrun (h.imp_right hhead.1),
            List.takeWhile_cons_of_pos (by simpa using hdot), ih]

/-- A character stays, or it is one of those that become an underscore. -/
theorem replaceChar_cases (c : Char) :
    (replaceChar c = c ∧ 32 ≤ c.toNat ∧ c ≠ '/' ∧ c ≠ '\\') ∨
      (replaceChar c = '_' ∧ (c.toNat < 32 ∨ c = '/' ∨ c = '\\')) := by
  unfold replaceChar
  by_cases hcontrol : c.toNat < 32
  · exact .inr ⟨if_pos hcontrol, .inl hcontrol⟩
  · rw [if_neg hcontrol]
    by_cases hseparator : c = '/' ∨ c = '\\'
    · exact .inr ⟨if_pos hseparator, .inr hseparator⟩
    · exact .inl ⟨if_neg hseparator, Nat.le_of_not_lt hcontrol, not_or.1 hseparator⟩

theorem toNat_of_isAlphanum (h : c.isAlphanum = true) :
    (48 ≤ c.toNat ∧ c.toNat ≤ 57) ∨ (65 ≤ c.toNat ∧ c.toNat ≤ 90) ∨
      (97 ≤ c.toNat ∧ c.toNat ≤ 122) := by
  have hkinds : c.isAlphanum = (decide (c.val ≥ 'A'.val ∧ c.val ≤ 'Z'.val) ||
      (decide (c.val ≥ 'a'.val) && decide (c.val ≤ 'z'.val)) ||
      (decide (c.val ≥ '0'.val) && decide (c.val ≤ '9'.val))) := rfl
  simp only [hkinds, Bool.or_eq_true, Bool.and_eq_true, decide_eq_true_eq, ge_iff_le,
    UInt32.le_iff_toNat_le] at h
  exact h.elim (fun h => .inr h) .inl

/-- What becomes an underscore is neither padding nor a letter or a digit, and the core would not
take it. -/
theorem of_replaced (h : c.toNat < 32 ∨ c = '/' ∨ c = '\\') :
    isPadding c = false ∧ c.isAlphanum = false ∧ ¬ (0x7f ≤ c.toNat ∧ c.toNat < 0xa0) := by
  rcases h with hcontrol | rfl | rfl
  · refine ⟨isPadding_eq_false.2 ⟨?_, ?_⟩, ?_, by omega⟩
    · rintro rfl
      exact absurd hcontrol (by decide)
    · rintro rfl
      exact absurd hcontrol (by decide)
    · rw [← Bool.not_eq_true]
      intro halnum
      have := toNat_of_isAlphanum halnum
      omega
  · decide
  · decide

theorem isPadding_replaceChar (c : Char) : isPadding (replaceChar c) = isPadding c := by
  rcases replaceChar_cases c with ⟨hstays, -⟩ | ⟨hreplaced, hwhy⟩
  · rw [hstays]
  · rw [hreplaced, (of_replaced hwhy).1]
    rfl

theorem isNameChar_replaceChar :
    isNameChar (replaceChar c) = true ↔ ¬ (0x7f ≤ c.toNat ∧ c.toNat < 0xa0) := by
  rcases replaceChar_cases c with ⟨hstays, hprintable, hseparators⟩ | ⟨hreplaced, hwhy⟩
  · have hlow : ¬ c.toNat < 0x20 := by omega
    simp [hstays, isNameChar, isControl, hseparators, hlow, imp_iff_not_or]
  · rw [hreplaced]
    exact iff_of_true (by decide) (of_replaced hwhy).2.2

theorem takeWhile_map_replaceChar :
    (cs.map replaceChar).takeWhile (· ≠ '.') = (cs.takeWhile (· ≠ '.')).map replaceChar := by
  have hdot (c : Char) : replaceChar c = '.' ↔ c = '.' := by
    rcases replaceChar_cases c with ⟨hstays, -⟩ | ⟨hreplaced, hwhy⟩
    · rw [hstays]
    · rw [hreplaced]
      exact iff_of_false (by decide) fun h => absurd (of_replaced hwhy).1 (by rw [h]; decide)
  rw [List.takeWhile_map]
  congr 2
  funext c
  simp [hdot]

theorem trimMatches_map (f : Char → Char) {p : Char → Bool} (h : ∀ c, p (f c) = p c) :
    trimMatches p (cs.map f) = (trimMatches p cs).map f := by
  have hcomp : p ∘ f = p := funext h
  simp only [trimMatches, List.dropWhile_map, ← List.map_reverse, hcomp]

/-! ## The stem -/

theorem not_reserved_of_mem (hc : c ∈ cs) (h : c.isAlphanum = false) :
    isWindowsReservedName (cs.map Char.toUpper) = false := by
  have hlower : ¬ ('a'.val ≤ c.val ∧ c.val ≤ 'z'.val) := by
    rintro ⟨ha, hz⟩
    have hletter : c.isLower = true := Bool.and_eq_true_iff.2 ⟨decide_eq_true ha, decide_eq_true hz⟩
    have halnum : c.isAlphanum = (c.isUpper || c.isLower || c.isDigit) := rfl
    rw [halnum, hletter, Bool.or_true, Bool.true_or] at h
    cases h
  have hupper : c.toUpper = c := dif_neg hlower
  rw [← Bool.not_eq_true]
  intro hreserved
  have := (isAlphanum_of_reserved hreserved).2 _ (List.mem_map_of_mem hc)
  rw [hupper, h] at this
  cases this

/-- Cleaning a name does not change whether its stem is reserved: reserved names are letters and
digits, which stay as they are, and a stem with anything else in it keeps something else. -/
theorem isReserved_cleaned :
    isWindowsReservedName (reservedStem (collapseUnderscores (cs.map replaceChar))) =
      isWindowsReservedName (reservedStem cs) := by
  rw [reservedStem, reservedStem, takeWhile_collapseUnderscores, takeWhile_map_replaceChar]
  generalize cs.takeWhile (· ≠ '.') = stem
  by_cases hall : ∀ c ∈ stem, c.isAlphanum = true
  · have hmap : stem.map replaceChar = stem := by
      refine (List.map_congr_left fun c hc => ?_).trans (List.map_id _)
      rcases replaceChar_cases c with ⟨hstays, -⟩ | ⟨-, hwhy⟩
      · exact hstays
      · exact absurd (hall c hc) (by simp [(of_replaced hwhy).2.1])
    rw [hmap, collapseUnderscores_eq_self fun hmem => absurd (hall _ hmem) (by decide)]
  · obtain ⟨c, hc⟩ := not_forall.1 hall
    obtain ⟨hc, halnum⟩ := Classical.not_imp.1 hc
    rw [Bool.not_eq_true] at halnum
    have hkept : replaceChar c ∈ collapseUnderscores (stem.map replaceChar) :=
      mem_collapseUnderscores.2 (List.mem_map_of_mem hc)
    have hother : (replaceChar c).isAlphanum = false := by
      rcases replaceChar_cases c with ⟨hstays, -⟩ | ⟨hreplaced, -⟩
      · rw [hstays, halnum]
      · rw [hreplaced]
        rfl
    rw [not_reserved_of_mem hc halnum, not_reserved_of_mem hkept hother]

/-! ## What the core takes -/

theorem of_isKotlinWhitespace (h : isKotlinWhitespace c = true) :
    c.isAlphanum = false ∧ ¬ (0x7f ≤ c.toNat ∧ c.toNat < 0xa0) ∧ c ≠ '_' := by
  have hspace : c.toNat ≤ 0x20 ∨ 0xa0 ≤ c.toNat := by
    simp only [isKotlinWhitespace, Bool.or_eq_true, Bool.and_eq_true, decide_eq_true_eq,
      beq_iff_eq] at h
    omega
  refine ⟨?_, by omega, ?_⟩
  · rw [← Bool.not_eq_true]
    intro halnum
    have := toNat_of_isAlphanum halnum
    omega
  · rintro rfl
    exact absurd hspace (by decide)

theorem trimMatches_map_replaceChar :
    trimMatches isPadding (cs.map replaceChar) = (trimMatches isPadding cs).map replaceChar :=
  trimMatches_map replaceChar isPadding_replaceChar

theorem mem_cleaned : c ∈ cleaned cs ↔ ∃ d ∈ trimMatches isPadding cs, replaceChar d = c := by
  rw [cleaned, trimMatches_map_replaceChar, mem_collapseUnderscores, List.mem_map]

/-- A name that comes out blank becomes another one; there was nothing wrong with it. -/
theorem offerable_of_blank (h : (cleaned cs).all isKotlinWhitespace = true) : Offerable cs := by
  have hspaces : ∀ d ∈ trimMatches isPadding cs, isKotlinWhitespace d = true := by
    intro d hd
    have hspace := List.all_eq_true.1 h _ (mem_cleaned.2 ⟨d, hd, rfl⟩)
    rcases replaceChar_cases d with ⟨hstays, -⟩ | ⟨hreplaced, -⟩
    · rwa [hstays] at hspace
    · exact absurd hreplaced (of_isKotlinWhitespace hspace).2.2
  refine ⟨fun d hd => (of_isKotlinWhitespace (hspaces d hd)).2.1, ?_⟩
  rw [← Bool.not_eq_true]
  intro hreserved
  obtain ⟨hsome, -⟩ := isAlphanum_of_reserved hreserved
  obtain ⟨d, hd⟩ := List.exists_mem_of_ne_nil _ (mt List.map_eq_nil_iff.2 hsome)
  have hspace := hspaces d ((List.takeWhile_sublist _).mem hd)
  have hnot : isWindowsReservedName (reservedStem (trimMatches isPadding cs)) = false :=
    not_reserved_of_mem hd (of_isKotlinWhitespace hspace).1
  rw [hreserved] at hnot
  cases hnot

/-- What is trimmed stays trimmed. -/
theorem safeName_cleaned (h : cleaned cs ≠ []) :
    SafeName (String.ofList (cleaned cs)) ↔ Offerable cs := by
  have hends : trimMatches isPadding (cleaned cs) = cleaned cs := by
    rw [trimMatches_eq_self_iff, cleaned, head?_collapseUnderscores, getLast?_collapseUnderscores,
      ← trimMatches_eq_self_iff, trimMatches_idem]
  obtain ⟨hfront, hback⟩ := trimMatches_eq_self_iff.1 hends
  have hchars : (∀ c ∈ cleaned cs, isNameChar c = true) ↔
      ∀ d ∈ trimMatches isPadding cs, ¬ (0x7f ≤ d.toNat ∧ d.toNat < 0xa0) := by
    constructor
    · exact fun hall d hd => isNameChar_replaceChar.1 (hall _ (mem_cleaned.2 ⟨d, hd, rfl⟩))
    · intro hall c hc
      obtain ⟨d, hd, rfl⟩ := mem_cleaned.1 hc
      exact isNameChar_replaceChar.2 (hall d hd)
  have hstem : isWindowsReservedName (reservedStem (cleaned cs)) =
      isWindowsReservedName (reservedStem (trimMatches isPadding cs)) := by
    rw [cleaned, trimMatches_map_replaceChar, isReserved_cleaned]
  constructor
  · intro hsafe
    have hname := hsafe.chars
    have hsafeStem := hsafe.stem
    rw [String.toList_ofList] at hname hsafeStem
    exact ⟨hchars.1 fun c hc => isNameChar_iff.2 (hname c hc), hstem ▸ hsafeStem⟩
  · rintro ⟨hcontrols, hreserved⟩
    constructor <;> rw [String.toList_ofList]
    · exact h
    · exact fun c hc => isNameChar_iff.1 (hchars.2 hcontrols c hc)
    · exact fun c hc => isPadding_eq_false.1 (hfront c hc)
    · exact fun c hc => isPadding_eq_false.1 (hback c hc)
    · rw [hstem, hreserved]

end

/-- **The core takes the name of the copy, as it is, exactly if the displayed name is offerable.**
What counts is the name behind the last traversal, of the raw name without the white space around
it. -/
theorem staged_iff (raw : String) :
    sanitizeFileName (sanitizeAndroidFileTransferName raw) =
        .ok (sanitizeAndroidFileTransferName raw) ↔
      ∃ name, Behind (trimMatches isKotlinWhitespace raw.toList) name ∧ Offerable name := by
  simp only [behind_iff, exists_eq_left]
  rw [← safeName_iff, sanitizeAndroidFileTransferName]
  by_cases hblank : (cleaned (withoutTraversal raw.toList)).all isKotlinWhitespace = true
  · simp only [hblank, if_true]
    exact iff_of_true (safeName_iff.2 (by decide)) (offerable_of_blank hblank)
  · simp only [hblank]
    exact safeName_cleaned fun hnil => hblank (by rw [hnil]; rfl)

/-- A file that is displayed as `CON.txt` is copied to that name, and cannot be offered. -/
theorem staged_reserved :
    ¬ ∀ raw : String, sanitizeFileName (sanitizeAndroidFileTransferName raw) =
      .ok (sanitizeAndroidFileTransferName raw) := by
  intro h
  exact absurd (h "CON.txt") (by decide +kernel)

end ClipBridge.Android
