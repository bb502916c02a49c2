import ClipBridge.Lib.Binary64
import ClipBridge.Lib.JsonText

/-!
# JSON values

Values, the compact text of a value, and a parser. The parser accepts what RFC 8259 calls a JSON
text, up to a depth of nesting, and reads strings and numbers the way `serde_json` does: a number
without a fraction and an exponent that fits 64 bits is an integer, any other a float, a float that
is out of range is an error, and so is a surrogate that is alone.

* `Json.text` — the compact text, as bytes.
* `Json.parse`, `Json.fromSlice` — the parser, on characters and on bytes.
* `fromSlice_text` — a value that is no deeper than the parser goes is read back from its text.
-/

inductive Json where
  | null
  | bool (b : Bool)
  /-- A number without a fraction or an exponent, if it is in range. -/
  | int (i : Int)
  /-- Any other number; which one it is does not matter here. -/
  | float
  | str (s : String)
  | arr (items : List Json)
  | obj (members : List (String × Json))
  deriving Repr

namespace Json

/-! ## Writing -/

def hexDigit (n : Nat) : Char := Char.ofNat (if n < 10 then 48 + n else 87 + n)

/-- A character inside a string. -/
def charText (c : Char) : List Char :=
  if c = '"' then ['\\', '"']
  else if c = '\\' then ['\\', '\\']
  else if c = '\n' then ['\\', 'n']
  else if c = '\r' then ['\\', 'r']
  else if c = '\t' then ['\\', 't']
  else if c.toNat = 8 then ['\\', 'b']
  else if c.toNat = 12 then ['\\', 'f']
  else if c.toNat < 32 then ['\\', 'u', '0', '0', hexDigit (c.toNat / 16), hexDigit (c.toNat % 16)]
  else [c]

def strText (s : String) : List Char := '"' :: (s.toList.flatMap charText ++ ['"'])

def natText (n : Nat) : List Char :=
  if n = 0 then ['0'] else (Nat.digits 10 n).reverse.map fun d => Char.ofNat (48 + d)

def intText (i : Int) : List Char :=
  if i < 0 then '-' :: natText i.natAbs else natText i.natAbs

mutual

/-- The compact text. -/
def chars : Json → List Char
  | null => "null".toList
  | bool b => (if b then "true" else "false").toList
  | int i => intText i
  | float => "0.0".toList
  | str s => strText s
  | arr items => '[' :: (charsItems items ++ [']'])
  | obj members => '{' :: (charsMembers members ++ ['}'])

def charsItems : List Json → List Char
  | [] => []
  | v :: vs => chars v ++ (if vs.isEmpty then [] else ',' :: charsItems vs)

def charsMembers : List (String × Json) → List Char
  | [] => []
  | (k, v) :: ms =>
      strText k ++ ':' :: (chars v ++ (if ms.isEmpty then [] else ',' :: charsMembers ms))

end

/-- The UTF-8 bytes of a text. -/
def utf8 (cs : List Char) : List UInt8 := cs.flatMap String.utf8EncodeChar

def text (v : Json) : List UInt8 := utf8 v.chars

/-! ## Reading -/

def isSpace (c : Char) : Bool := c == ' ' || c == '\n' || c == '\t' || c == '\r'

def skip (cs : List Char) : List Char := cs.dropWhile isSpace

def hexValue (c : Char) : Option Nat :=
  if '0' ≤ c ∧ c ≤ '9' then some (c.toNat - 48)
  else if 'a' ≤ c ∧ c ≤ 'f' then some (c.toNat - 87)
  else if 'A' ≤ c ∧ c ≤ 'F' then some (c.toNat - 55)
  else none

def hex4 : List Char → Option (Nat × List Char)
  | a :: b :: c :: d :: cs =>
      match hexValue a, hexValue b, hexValue c, hexValue d with
      | some a, some b, some c, some d => some (((a * 16 + b) * 16 + c) * 16 + d, cs)
      | _, _, _, _ => none
  | _ => none

/-- The second half of a surrogate pair. -/
def lowSurrogate (high : Nat) : List Char → Option (Char × List Char)
  | '\\' :: 'u' :: cs =>
      match hex4 cs with
      | some (low, cs) =>
          if 0xdc00 ≤ low ∧ low ≤ 0xdfff then
            some (Char.ofNat (0x10000 + (high - 0xd800) * 0x400 + (low - 0xdc00)), cs)
          else none
      | none => none
  | _ => none

/-- What stands behind a backslash. -/
def escape : List Char → Option (Char × List Char)
  | '"' :: cs => some ('"', cs)
  | '\\' :: cs => some ('\\', cs)
  | '/' :: cs => some ('/', cs)
  | 'b' :: cs => some (Char.ofNat 8, cs)
  | 'f' :: cs => some (Char.ofNat 12, cs)
  | 'n' :: cs => some ('\n', cs)
  | 'r' :: cs => some ('\r', cs)
  | 't' :: cs => some ('\t', cs)
  | 'u' :: cs =>
      match hex4 cs with
      | some (unit, cs) =>
          if 0xdc00 ≤ unit ∧ unit ≤ 0xdfff then none
          else if 0xd800 ≤ unit ∧ unit ≤ 0xdbff then lowSurrogate unit cs
          else some (Char.ofNat unit, cs)
      | none => none
  | _ => none

/-- The characters of a string, up to the closing quote. -/
def string : Nat → List Char → Option (List Char × List Char)
  | 0, _ => none
  | _ + 1, [] => none
  | n + 1, c :: cs =>
      if c = '"' then some ([], cs)
      else if c = '\\' then
        match escape cs with
        | some (c, cs) => (string n cs).map fun p => (c :: p.1, p.2)
        | none => none
      else if c.toNat < 32 then none
      else (string n cs).map fun p => (c :: p.1, p.2)

def isDigit (c : Char) : Bool := '0' ≤ c && c ≤ '9'

def natValue (ds : List Char) : Nat := ds.foldl (fun n c => n * 10 + (c.toNat - 48)) 0

/-- The digits after a sign that must be followed by some, and the rest. -/
def digitsAfter (cs : List Char) : Option (List Char × List Char) :=
  if (cs.takeWhile isDigit).isEmpty then none
  else some (cs.takeWhile isDigit, cs.dropWhile isDigit)

def fraction : List Char → Option (List Char × List Char)
  | '.' :: cs => digitsAfter cs
  | cs => some ([], cs)

def dropSign : List Char → List Char
  | '+' :: cs => cs
  | '-' :: cs => cs
  | cs => cs

def exponent : List Char → Option (Option Int × List Char)
  | [] => some (none, [])
  | c :: cs =>
      if c = 'e' ∨ c = 'E' then
        (digitsAfter (dropSign cs)).map fun p =>
          (some (if cs.head? = some '-' then -natValue p.1 else natValue p.1), p.2)
      else some (none, c :: cs)

/-- A float while it is read: the first digits, as many as fit 64 bits, and where the point is. -/
structure Scaled where
  significand : Nat
  exponent : Int
  full : Bool

/-- The next digit counts `taken` places if it still fits, and `left` places if not. -/
def Scaled.next (taken left : Int) (s : Scaled) (c : Char) : Scaled :=
  let significand := s.significand * 10 + (c.toNat - 48)
  if s.full = false ∧ significand < 2 ^ 64 then ⟨significand, s.exponent + taken, false⟩
  else ⟨s.significand, s.exponent + left, true⟩

/-- The digits before the point and those after it. -/
def scaled (ds fs : List Char) : Scaled :=
  let whole := ds.foldl (Scaled.next 0 1) ⟨0, 0, false⟩
  fs.foldl (Scaled.next (-1) 0) { whole with full := false }

/-- The significand is rounded, multiplied by a power of ten of a table, and rounded again. The
table ends at `1e308`, where the doubles end. -/
def finite (significand : Nat) (exponent : Int) : Bool :=
  decide (exponent < 0 ∨ significand = 0) ||
    decide (exponent ≤ 308) &&
      decide (Binary64.nearest (Binary64.nearest significand * Binary64.nearest (10 ^ exponent)) <
        2 ^ 1024)

/-- An exponent of more than 31 bits is not looked at. -/
def Scaled.inRange (s : Scaled) (e : Int) : Bool :=
  if 2 ^ 31 ≤ e.natAbs then decide (e < 0 ∨ s.significand = 0)
  else finite s.significand (s.exponent + e)

/-- An integer of 64 bits, signed or not; minus zero is a float. -/
def intOf (minus : Bool) (n : Nat) : Json :=
  if minus then if 0 < n ∧ n ≤ 2 ^ 63 then .int (-n) else .float else .int n

/-- A number without its sign. -/
def unsigned (minus : Bool) (cs : List Char) : Option (Json × List Char) :=
  let ds := cs.takeWhile isDigit
  if ds = [] ∨ ds.head? = some '0' ∧ ds ≠ ['0'] then none
  else
    match fraction (cs.dropWhile isDigit) with
    | none => none
    | some (fs, cs) =>
        match exponent cs with
        | none => none
        | some (e, cs) =>
            if fs = [] ∧ e = none ∧ natValue ds < 2 ^ 64 then some (intOf minus (natValue ds), cs)
            else if (scaled ds fs).inRange (e.getD 0) then some (.float, cs)
            else none

def number : List Char → Option (Json × List Char)
  | '-' :: cs => unsigned true cs
  | cs => unsigned false cs

/-- The rest of a literal whose first letter was read. -/
def keyword (word : String) (v : Json) (cs : List Char) : Option (Json × List Char) :=
  (cs.dropPrefix? word.toList).map fun rest => (v, rest)

mutual

/-- A value at the front of a text. The first argument bounds the recursion, the second one the
nesting. -/
def value : Nat → Nat → List Char → Option (Json × List Char)
  | 0, _, _ => none
  | n + 1, d, cs =>
      match skip cs with
      | [] => none
      | c :: cs =>
          if c = '"' then (string n cs).map fun p => (.str (String.ofList p.1), p.2)
          else if c = '[' then
            if d ≤ 1 then none
            else if (skip cs).head? = some ']' then some (.arr [], (skip cs).tail)
            else (items n (d - 1) cs).map fun p => (.arr p.1, p.2)
          else if c = '{' then
            if d ≤ 1 then none
            else if (skip cs).head? = some '}' then some (.obj [], (skip cs).tail)
            else (members n (d - 1) cs).map fun p => (.obj p.1, p.2)
          else if c = 'n' then keyword "ull" .null cs
          else if c = 't' then keyword "rue" (.bool true) cs
          else if c = 'f' then keyword "alse" (.bool false) cs
          else number (c :: cs)

/-- The items of an array, up to its closing bracket. -/
def items : Nat → Nat → List Char → Option (List Json × List Char)
  | 0, _, _ => none
  | n + 1, d, cs =>
      match value n d cs with
      | none => none
      | some (v, cs) =>
          match skip cs with
          | ']' :: cs => some ([v], cs)
          | ',' :: cs => (items n d cs).map fun p => (v :: p.1, p.2)
          | _ => none

/-- The members of an object, up to its closing brace. -/
def members : Nat → Nat → List Char → Option (List (String × Json) × List Char)
  | 0, _, _ => none
  | n + 1, d, cs =>
      match skip cs with
      | '"' :: cs =>
          match string n cs with
          | none => none
          | some (k, cs) =>
              match skip cs with
              | ':' :: cs =>
                  match value n d cs with
                  | none => none
                  | some (v, cs) =>
                      match skip cs with
                      | '}' :: cs => some ([(String.ofList k, v)], cs)
                      | ',' :: cs =>
                          (members n d cs).map fun p => ((String.ofList k, v) :: p.1, p.2)
                      | _ => none
              | _ => none
      | _ => none

end

/-- How deep the parser goes. -/
def maxDepth : Nat := 128

/-- A whole text: one value, with nothing but white space around it. -/
def parse (cs : List Char) : Option Json :=
  match value (2 * cs.length + 2) maxDepth cs with
  | some (v, rest) => if skip rest = [] then some v else none
  | none => none

def decodeUtf8 (bytes : List UInt8) : Option (List Char) :=
  (ByteArray.utf8Decode? bytes.toByteArray).map Array.toList

def fromSlice (bytes : List UInt8) : Option Json := (decodeUtf8 bytes).bind parse


/-! ## Reading back what was written -/

theorem decodeUtf8_utf8 (cs : List Char) : decodeUtf8 (utf8 cs) = some cs := by
  have h : (utf8 cs).toByteArray = cs.utf8Encode := rfl
  rw [decodeUtf8, h, List.utf8Decode?_utf8Encode]
  rfl

theorem hexValue_hexDigit : ∀ n < 16, hexValue (hexDigit n) = some n := by
  decide

/-- An escape is read back; the case of an ordinary character is the one without a backslash. -/
theorem string_charText (n : Nat) (c : Char) (rest : List Char) :
    string (n + 1) (charText c ++ rest) = (string n rest).map fun p => (c :: p.1, p.2) := by
  have hdenotes (k : Nat) (h : c.toNat = k) : c = Char.ofNat k := by
    rw [← h, Char.ofNat_toNat]
  unfold charText
  split_ifs with h₁ h₂ h₃ h₄ h₅ h₆ h₇ h₈
  · rw [h₁]; simp [string, escape]
  · rw [h₂]; simp [string, escape]
  · rw [h₃]; simp [string, escape]
  · rw [h₄]; simp [string, escape]
  · rw [h₅]; simp [string, escape]
  · rw [hdenotes 8 h₆]; simp [string, escape]
  · rw [hdenotes 12 h₇]; simp [string, escape]
  · have hhigh := hexValue_hexDigit (c.toNat / 16) (by omega)
    have hlow := hexValue_hexDigit (c.toNat % 16) (by omega)
    have hzero : hexValue '0' = some 0 := by decide
    have hunit : ((0 * 16 + 0) * 16 + c.toNat / 16) * 16 + c.toNat % 16 = c.toNat := by omega
    have hhex : hex4 ('0' :: '0' :: hexDigit (c.toNat / 16) :: hexDigit (c.toNat % 16) :: rest) =
        some (c.toNat, rest) := by
      simp only [hex4, hzero, hhigh, hlow, hunit]
    have hesc : escape ('u' :: '0' :: '0' :: hexDigit (c.toNat / 16) ::
        hexDigit (c.toNat % 16) :: rest) = some (c, rest) := by
      rw [escape, hhex]
      dsimp only
      rw [if_neg (by omega), if_neg (by omega), Char.ofNat_toNat]
    simp [string, hesc]
  · simp [string, h₁, h₂, h₈]

theorem string_chars (cs rest : List Char) {n : Nat} (hn : cs.length < n) :
    string n (cs.flatMap charText ++ '"' :: rest) = some (cs, rest) := by
  induction cs generalizing n with
  | nil =>
      obtain ⟨n, rfl⟩ : ∃ m, n = m + 1 := ⟨n - 1, by simp at hn; omega⟩
      simp [string]
  | cons c cs ih =>
      obtain ⟨n, rfl⟩ : ∃ m, n = m + 1 := ⟨n - 1, by simp at hn; omega⟩
      rw [List.flatMap_cons, List.append_assoc, string_charText,
        ih (by simp at hn; omega)]
      rfl

theorem length_le_flatMap_charText (cs : List Char) :
    cs.length ≤ (cs.flatMap charText).length := by
  induction cs with
  | nil => simp
  | cons c cs ih =>
      have hpos : 0 < (charText c).length := by
        unfold charText
        split_ifs <;> simp
      simp only [List.flatMap_cons, List.length_append, List.length_cons]
      omega

/-! ### Numbers -/

theorem isDigit_ofNat : ∀ d < 10, isDigit (Char.ofNat (48 + d)) = true := by
  decide

theorem toNat_ofNat_digit : ∀ d < 10, (Char.ofNat (48 + d)).toNat - 48 = d := by
  decide

theorem isDigit_of_mem_natText {n : Nat} {c : Char} (h : c ∈ natText n) : isDigit c = true := by
  unfold natText at h
  split at h
  · rw [List.mem_singleton.1 h]
    decide
  · obtain ⟨d, hd, rfl⟩ := List.mem_map.1 h
    exact isDigit_ofNat d (Nat.digits_lt_base (by decide) (List.mem_reverse.1 hd))

theorem natText_ne_nil (n : Nat) : natText n ≠ [] := by
  unfold natText
  split
  · simp
  · next h =>
      have hdigits : Nat.digits 10 n ≠ [] := Nat.digits_ne_nil_iff_ne_zero.2 h
      simpa using hdigits

/-- A number does not begin with a zero, unless it is zero. -/
theorem head?_natText {n : Nat} (hn : n ≠ 0) : (natText n).head? ≠ some '0' := by
  rw [natText, if_neg hn, List.head?_map, List.head?_reverse,
    List.getLast?_eq_some_getLast (Nat.digits_ne_nil_iff_ne_zero.2 hn)]
  have hlt := Nat.digits_lt_base (by decide : 1 < 10)
    (List.getLast_mem (Nat.digits_ne_nil_iff_ne_zero.2 hn))
  have hpos := Nat.getLast_digit_ne_zero 10 hn
  intro h
  have hzero := toNat_ofNat_digit _ hlt
  rw [Option.map_some, Option.some.injEq] at h
  rw [h] at hzero
  exact hpos hzero.symm

theorem natValue_natText (n : Nat) : natValue (natText n) = n := by
  unfold natText
  split
  · next h => rw [h]; rfl
  · have hfold : ∀ ds : List Nat, (∀ d ∈ ds, d < 10) →
        natValue (ds.reverse.map fun d => Char.ofNat (48 + d)) = Nat.ofDigits 10 ds := by
      intro ds
      induction ds with
      | nil => exact fun _ => rfl
      | cons d ds ih =>
          intro h
          have hlast := toNat_ofNat_digit d (h d (by simp))
          have hrest := ih fun e he => h e (by simp [he])
          rw [natValue] at hrest ⊢
          rw [List.reverse_cons, List.map_append, List.foldl_append, hrest, Nat.ofDigits_cons]
          simp only [List.map_cons, List.map_nil, List.foldl_cons, List.foldl_nil, hlast]
          omega
    rw [hfold _ fun d hd => Nat.digits_lt_base (by decide) hd, Nat.ofDigits_digits]

/-- A number ends here: what follows could not be part of one. -/
def Stops (rest : List Char) : Prop :=
  ∀ c ∈ rest.head?, isDigit c = false ∧ c ≠ '.' ∧ c ≠ 'e' ∧ c ≠ 'E'

theorem takeWhile_digits {ds rest : List Char} (hds : ∀ c ∈ ds, isDigit c = true)
    (hrest : Stops rest) : (ds ++ rest).takeWhile isDigit = ds := by
  rw [List.takeWhile_append_of_pos hds]
  cases rest with
  | nil => simp
  | cons c cs => simp [(hrest c rfl).1]

theorem dropWhile_digits {ds rest : List Char} (hds : ∀ c ∈ ds, isDigit c = true)
    (hrest : Stops rest) : (ds ++ rest).dropWhile isDigit = rest := by
  rw [List.dropWhile_append_of_pos hds]
  cases rest with
  | nil => simp
  | cons c cs => simp [(hrest c rfl).1]

theorem fraction_of_stops {rest : List Char} (h : Stops rest) :
    fraction rest = some ([], rest) := by
  unfold fraction
  split
  · exact absurd rfl (h '.' rfl).2.1
  · rfl

theorem exponent_of_stops {rest : List Char} (h : Stops rest) :
    exponent rest = some (none, rest) := by
  cases rest with
  | nil => rfl
  | cons c cs =>
      have hc : ¬ (c = 'e' ∨ c = 'E') := fun hc => hc.elim (h c rfl).2.2.1 (h c rfl).2.2.2
      rw [exponent, if_neg hc]

theorem unsigned_natText (minus : Bool) {n : Nat} (hn : n < 2 ^ 64) {rest : List Char}
    (hrest : Stops rest) : unsigned minus (natText n ++ rest) = some (intOf minus n, rest) := by
  have hdigits : ∀ c ∈ natText n, isDigit c = true := fun c hc => isDigit_of_mem_natText hc
  have hzero : ¬ (natText n = [] ∨ (natText n).head? = some '0' ∧ natText n ≠ ['0']) := by
    rintro (hnil | ⟨hhead, hne⟩)
    · exact natText_ne_nil n hnil
    · by_cases hn : n = 0
      · exact hne (by rw [hn]; rfl)
      · exact head?_natText hn hhead
  unfold unsigned
  simp only [takeWhile_digits hdigits hrest, dropWhile_digits hdigits hrest,
    fraction_of_stops hrest, exponent_of_stops hrest, natValue_natText, if_neg hzero]
  rw [if_pos ⟨trivial, trivial, hn⟩]

/-- The integers that the parser tells from floats. -/
def InRange (i : Int) : Prop := -(2 ^ 63) ≤ i ∧ i < 2 ^ 64

theorem number_intText {i : Int} (hi : InRange i) {rest : List Char} (hrest : Stops rest) :
    number (intText i ++ rest) = some (.int i, rest) := by
  obtain ⟨hlow, hhigh⟩ := hi
  unfold intText
  split
  · next hneg =>
      have hint : intOf true i.natAbs = .int i := by
        rw [intOf, if_pos rfl, if_pos (by omega)]
        congr 1
        omega
      rw [List.cons_append, number, unsigned_natText true (by omega) hrest, hint]
  · next hneg =>
      have hint : intOf false i.natAbs = .int i := by
        rw [intOf, if_neg (by decide)]
        congr 1
        omega
      rw [← hint, ← unsigned_natText false (by omega : i.natAbs < 2 ^ 64) hrest]
      unfold number
      split
      · next cs heq =>
          have hminus : '-' ∈ natText i.natAbs := by
            have hhead := congrArg List.head? heq
            rw [List.head?_append_of_ne_nil _ (natText_ne_nil _)] at hhead
            exact List.mem_of_mem_head? hhead
          exact absurd (isDigit_of_mem_natText hminus) (by decide)
      · rfl


/-! ### Values -/

mutual

/-- No integer that the parser would take for a float. -/
def Plain : Json → Prop
  | int i => InRange i
  | arr items => PlainItems items
  | obj members => PlainMembers members
  | _ => True

def PlainItems : List Json → Prop
  | [] => True
  | v :: vs => Plain v ∧ PlainItems vs

def PlainMembers : List (String × Json) → Prop
  | [] => True
  | (_, v) :: ms => Plain v ∧ PlainMembers ms

end

mutual

def depth : Json → Nat
  | arr items => depthItems items + 1
  | obj members => depthMembers members + 1
  | _ => 0

def depthItems : List Json → Nat
  | [] => 0
  | v :: vs => max (depth v) (depthItems vs)

def depthMembers : List (String × Json) → Nat
  | [] => 0
  | (_, v) :: ms => max (depth v) (depthMembers ms)

end

theorem skip_cons {c : Char} (h : isSpace c = false) (cs : List Char) :
    skip (c :: cs) = c :: cs := by
  simp [skip, h]

theorem keyword_append (word : String) (v : Json) (rest : List Char) :
    keyword word v (word.toList ++ rest) = some (v, rest) := by
  rw [keyword, List.dropPrefix?_eq_some_iff.2 ⟨word.toList, rfl, by simp⟩]
  rfl

theorem stops_cons {c : Char} (h : c = ',' ∨ c = ']' ∨ c = '}') (cs : List Char) :
    Stops (c :: cs) := by
  rintro d hd
  rw [List.head?_cons, Option.mem_some_iff] at hd
  subst hd
  rcases h with rfl | rfl | rfl <;> decide

/-- The text of a value begins with something else than white space or a closing bracket. -/
theorem chars_eq_cons (v : Json) :
    ∃ c cs, v.chars = c :: cs ∧ isSpace c = false ∧ c ≠ ']' := by
  have hnat (n : Nat) : ∃ c cs, natText n = c :: cs ∧ isSpace c = false ∧ c ≠ ']' := by
    obtain ⟨c, cs, hcons⟩ := List.exists_cons_of_ne_nil (natText_ne_nil n)
    have hdigit : isDigit c = true := isDigit_of_mem_natText (n := n) (by simp [hcons])
    refine ⟨c, cs, hcons, ?_, fun h => by subst h; exact absurd hdigit (by decide)⟩
    by_contra hspace
    rw [Bool.not_eq_false] at hspace
    simp only [isSpace, Bool.or_eq_true, beq_iff_eq] at hspace
    rcases hspace with ((rfl | rfl) | rfl) | rfl <;> exact absurd hdigit (by decide)
  cases v with
  | null => exact ⟨_, _, rfl, by decide, by decide⟩
  | bool b => cases b <;> exact ⟨_, _, rfl, by decide, by decide⟩
  | int i =>
      rw [chars, intText]
      split
      · exact ⟨_, _, rfl, by decide, by decide⟩
      · exact hnat i.natAbs
  | float => exact ⟨_, _, rfl, by decide, by decide⟩
  | str s => exact ⟨_, _, rfl, by decide, by decide⟩
  | arr vs => exact ⟨_, _, rfl, by decide, by decide⟩
  | obj ms => exact ⟨_, _, rfl, by decide, by decide⟩

theorem length_chars_pos (v : Json) : 0 < v.chars.length := by
  obtain ⟨c, cs, hcons, -⟩ := v.chars_eq_cons
  simp [hcons]

theorem value_float {n d : Nat} {rest : List Char} (hrest : Stops rest) :
    value (n + 1) d ("0.0".toList ++ rest) = some (.float, rest) := by
  have hzero : ∀ c ∈ ['0'], isDigit c = true := List.forall_mem_singleton.2 rfl
  have htake : ('0' :: rest).takeWhile isDigit = ['0'] := takeWhile_digits hzero hrest
  have hdrop : ('0' :: rest).dropWhile isDigit = rest := dropWhile_digits hzero hrest
  have htake' : ('0' :: '.' :: '0' :: rest).takeWhile isDigit = ['0'] := by
    simp [show isDigit '0' = true from rfl, show isDigit '.' = false from rfl]
  have hdrop' : ('0' :: '.' :: '0' :: rest).dropWhile isDigit = '.' :: '0' :: rest := by
    simp [show isDigit '0' = true from rfl, show isDigit '.' = false from rfl]
  have hfraction : fraction ('.' :: '0' :: rest) = some (['0'], rest) := by
    simp [fraction, digitsAfter, htake, hdrop]
  have hrange : (scaled ['0'] ['0']).inRange 0 = true := rfl
  have hunsigned : unsigned false ('0' :: '.' :: '0' :: rest) = some (.float, rest) := by
    simp [unsigned, htake', hdrop', hfraction, exponent_of_stops hrest, hrange]
  have htext : "0.0".toList ++ rest = '0' :: '.' :: '0' :: rest := rfl
  rw [htext, value, skip_cons (by decide)]
  exact hunsigned

theorem value_int {n d : Nat} {i : Int} (hi : InRange i) {rest : List Char}
    (hrest : Stops rest) : value (n + 1) d (intText i ++ rest) = some (.int i, rest) := by
  rw [← number_intText hi hrest]
  obtain ⟨c, cs, hcons, hspace, -⟩ := (Json.int i).chars_eq_cons
  rw [chars] at hcons
  have hmem : c ∈ intText i := by simp [hcons]
  have hc : c = '-' ∨ isDigit c = true := by
    unfold intText at hmem
    split at hmem
    · exact (List.mem_cons.1 hmem).imp_right isDigit_of_mem_natText
    · exact .inr (isDigit_of_mem_natText hmem)
  rw [hcons, List.cons_append, value, skip_cons hspace]
  dsimp only
  have hne (x : Char) (hx : ¬ (x = '-' ∨ isDigit x = true)) : c ≠ x := fun h => hx (h ▸ hc)
  rw [if_neg (hne _ (by decide)), if_neg (hne _ (by decide)), if_neg (hne _ (by decide)),
    if_neg (hne _ (by decide)), if_neg (hne _ (by decide)), if_neg (hne _ (by decide))]

mutual

/-- A value is read back from its text, whatever follows that could not belong to it. -/
theorem value_chars (v : Json) (hv : v.Plain) {n d : Nat} (hn : 2 * v.chars.length ≤ n)
    (hd : v.depth < d) {rest : List Char} (hrest : Stops rest) :
    value n d (v.chars ++ rest) = some (v, rest) := by
  obtain ⟨n, rfl⟩ : ∃ m, n = m + 1 := ⟨n - 1, by have := v.length_chars_pos; omega⟩
  cases v with
  | null => exact keyword_append "ull" .null rest
  | bool b =>
      cases b with
      | true => exact keyword_append "rue" (.bool true) rest
      | false => exact keyword_append "alse" (.bool false) rest
  | int i => exact value_int hv hrest
  | float => exact value_float hrest
  | str s =>
      have hlen := length_le_flatMap_charText s.toList
      simp only [chars, strText, List.length_cons, List.length_append] at hn
      have hstring := string_chars s.toList rest (n := n) (by omega)
      simp only [chars, strText, List.cons_append, List.append_assoc, List.nil_append]
      rw [value, skip_cons (by decide)]
      dsimp only
      rw [if_pos rfl, hstring]
      simp
  | arr vs =>
      rw [depth] at hd
      simp only [chars, List.length_cons, List.length_append] at hn
      simp only [chars, List.cons_append, List.append_assoc, List.nil_append]
      rw [value, skip_cons (by decide)]
      dsimp only
      rw [if_neg (by decide), if_pos rfl, if_neg (by omega)]
      cases vs with
      | nil => rfl
      | cons v vs =>
          have hitems := items_chars (v :: vs) (by simp) hv (n := n) (d := d - 1)
            (by simp at hn; omega)
            (by omega) rest
          obtain ⟨c, cs, hcons, hspace, hclose⟩ := v.chars_eq_cons
          have hhead : (skip (charsItems (v :: vs) ++ ']' :: rest)).head? ≠ some ']' := by
            rw [charsItems, hcons]
            simp only [List.cons_append]
            rw [skip_cons hspace, List.head?_cons, Ne, Option.some.injEq]
            exact hclose
          rw [if_neg hhead, hitems]
          rfl
  | obj ms =>
      rw [depth] at hd
      simp only [chars, List.length_cons, List.length_append] at hn
      simp only [chars, List.cons_append, List.append_assoc, List.nil_append]
      rw [value, skip_cons (by decide)]
      dsimp only
      rw [if_neg (by decide), if_neg (by decide), if_pos rfl, if_neg (by omega)]
      cases ms with
      | nil => rfl
      | cons m ms =>
          have hmembers := members_chars (m :: ms) (by simp) hv (n := n) (d := d - 1)
            (by simp at hn; omega)
            (by omega) rest
          have hhead : (skip (charsMembers (m :: ms) ++ '}' :: rest)).head? ≠ some '}' := by
            rw [charsMembers, strText]
            simp only [List.cons_append]
            rw [skip_cons (by decide), List.head?_cons]
            decide
          rw [if_neg hhead, hmembers]
          rfl

theorem items_chars (vs : List Json) (hne : vs ≠ []) (hv : PlainItems vs) {n d : Nat}
    (hn : 2 * (charsItems vs).length + 1 ≤ n) (hd : depthItems vs < d) (rest : List Char) :
    items n d (charsItems vs ++ ']' :: rest) = some (vs, rest) := by
  obtain ⟨n, rfl⟩ : ∃ m, n = m + 1 := ⟨n - 1, by omega⟩
  cases vs with
  | nil => exact absurd rfl hne
  | cons v vs =>
      rw [depthItems, Nat.max_lt] at hd
      rw [charsItems, List.length_append] at hn
      have hvalue {c : Char} (hc : c = ',' ∨ c = ']' ∨ c = '}') (cs : List Char) :
          value n d (v.chars ++ c :: cs) = some (v, c :: cs) :=
        value_chars v hv.1 (by omega) hd.1 (stops_cons hc cs)
      cases vs with
      | nil =>
          rw [charsItems, List.isEmpty_nil, if_pos rfl, List.append_nil, items,
            hvalue (.inr (.inl rfl)) rest]
          rfl
      | cons w vs =>
          rw [if_neg (by simp), List.length_cons] at hn
          have hitems := items_chars (w :: vs) (by simp) hv.2 (n := n) (by omega) hd.2
            rest
          rw [charsItems, if_neg (by simp), List.append_assoc, List.cons_append, items,
            hvalue (.inl rfl)]
          simp only [skip_cons (by decide : isSpace ',' = false), hitems, Option.map_some]

theorem members_chars (ms : List (String × Json)) (hne : ms ≠ []) (hv : PlainMembers ms)
    {n d : Nat} (hn : 2 * (charsMembers ms).length + 1 ≤ n) (hd : depthMembers ms < d)
    (rest : List Char) :
    members n d (charsMembers ms ++ '}' :: rest) = some (ms, rest) := by
  obtain ⟨n, rfl⟩ : ∃ m, n = m + 1 := ⟨n - 1, by omega⟩
  cases ms with
  | nil => exact absurd rfl hne
  | cons m ms =>
      obtain ⟨k, v⟩ := m
      rw [depthMembers, Nat.max_lt] at hd
      have hlen := length_le_flatMap_charText k.toList
      simp only [charsMembers, strText, List.length_append, List.length_cons] at hn
      have hstring (cs : List Char) : string n (k.toList.flatMap charText ++ '"' :: cs) =
          some (k.toList, cs) := string_chars k.toList cs (by omega)
      have hvalue {c : Char} (hc : c = ',' ∨ c = ']' ∨ c = '}') (cs : List Char) :
          value n d (v.chars ++ c :: cs) = some (v, c :: cs) :=
        value_chars v hv.1 (by omega) hd.1 (stops_cons hc cs)
      simp only [charsMembers, strText, List.cons_append, List.append_assoc, List.nil_append]
      rw [members, skip_cons (by decide)]
      simp only [hstring, skip_cons (by decide : isSpace ':' = false)]
      cases ms with
      | nil =>
          rw [List.isEmpty_nil, if_pos rfl, List.nil_append, hvalue (.inr (.inr rfl)) rest]
          simp [skip, isSpace]
      | cons m ms =>
          rw [List.isEmpty_cons, if_neg (by decide), List.length_cons] at hn
          have hmembers := members_chars (m :: ms) (by simp) hv.2 (n := n) (by omega) hd.2
            rest
          rw [List.isEmpty_cons, if_neg (by decide), List.cons_append, hvalue (.inl rfl)]
          simp only [skip_cons (by decide : isSpace ',' = false), hmembers, Option.map_some,
            String.ofList_toList]

end

/-- **A value is read back from its text**, if it is not nested deeper than the parser goes. -/
theorem fromSlice_text {v : Json} (hv : v.Plain) (hd : v.depth < maxDepth) :
    fromSlice v.text = some v := by
  have hstops : Stops [] := by rintro c ⟨⟩
  have hvalue := value_chars v hv (n := 2 * v.chars.length + 2) (Nat.le_add_right _ _) hd hstops
  rw [List.append_nil] at hvalue
  rw [fromSlice, text, decodeUtf8_utf8, Option.bind_some, parse, hvalue]
  rfl

/-! ## The text piece by piece -/

theorem utf8_append (a b : List Char) : utf8 (a ++ b) = utf8 a ++ utf8 b := by
  simp [utf8]

theorem utf8_charText (c : Char) : utf8 (charText c) = JsonText.char c := by
  have hdigit : ∀ n < 16, String.utf8EncodeChar (hexDigit n) = [JsonText.hexDigit n] := by
    decide
  unfold charText JsonText.char
  split_ifs with h₁ h₂ h₃ h₄ h₅ h₆ h₇ h₈
  iterate 7
    · rfl
  · have hhigh := hdigit (c.toNat / 16) (by omega)
    have hlow := hdigit (c.toNat % 16) (by omega)
    simp only [utf8, List.flatMap_cons, List.flatMap_nil, hhigh, hlow]
    rfl
  · simp [utf8]

theorem text_str (s : String) : text (.str s) = JsonText.string s := by
  have hbody : ∀ cs : List Char, utf8 (cs.flatMap charText) = cs.flatMap JsonText.char := by
    intro cs
    induction cs with
    | nil => rfl
    | cons c cs ih => rw [List.flatMap_cons, utf8_append, utf8_charText, ih, List.flatMap_cons]
  have hquote : utf8 ['"'] = [34] := by decide
  have hcons (cs : List Char) : utf8 ('"' :: cs) = 34 :: utf8 cs := by
    rw [← List.singleton_append, utf8_append, hquote]
    rfl
  rw [text, chars, strText, hcons, utf8_append, hbody, hquote]
  rfl

theorem utf8_natText (n : Nat) : utf8 (natText n) = JsonText.nat n := by
  have hdigit : ∀ d < 10, String.utf8EncodeChar (Char.ofNat (48 + d)) = [UInt8.ofNat (48 + d)] := by
    decide
  have hdigits : ∀ ds : List Nat, (∀ d ∈ ds, d < 10) →
      utf8 (ds.map fun d => Char.ofNat (48 + d)) = ds.map fun d => UInt8.ofNat (48 + d) := by
    intro ds
    induction ds with
    | nil => exact fun _ => rfl
    | cons d ds ih =>
        intro h
        have hrest := ih fun e he => h e (List.mem_cons_of_mem d he)
        rw [utf8] at hrest ⊢
        rw [List.map_cons, List.flatMap_cons, hdigit d (h d List.mem_cons_self), hrest]
        rfl
  unfold natText JsonText.nat
  split
  · rfl
  · exact hdigits _ fun d hd => Nat.digits_lt_base (by decide) (List.mem_reverse.1 hd)

theorem text_int (i : Int) : text (.int i) = JsonText.int i := by
  rw [text, chars, intText, JsonText.int]
  split
  · rw [← List.singleton_append, utf8_append, utf8_natText]
    rfl
  · exact utf8_natText _

theorem text_nat (n : Nat) : text (.int n) = JsonText.nat n := by
  rw [text_int, JsonText.int, if_neg (by omega)]
  rfl

theorem text_bool (b : Bool) : text (.bool b) = JsonText.bool b := by
  cases b <;> rfl

theorem text_obj (ms : List (String × Json)) :
    text (.obj ms) = JsonText.object (ms.map fun m => (m.1, m.2.text)) := by
  have hfields : ∀ ms : List (String × Json),
      utf8 (charsMembers ms) = JsonText.fields (ms.map fun m => (m.1, m.2.text)) := by
    intro ms
    induction ms with
    | nil => rfl
    | cons m ms ih =>
        have hfield : utf8 (strText m.1 ++ ':' :: m.2.chars) = JsonText.field (m.1, m.2.text) := by
          rw [utf8_append, ← List.singleton_append, utf8_append]
          exact congrArg (· ++ _) (text_str m.1)
        cases ms with
        | nil =>
            rw [charsMembers, List.isEmpty_nil, if_pos rfl, List.append_nil]
            exact hfield
        | cons m' ms =>
            rw [charsMembers, List.isEmpty_cons, if_neg (by decide), ← List.cons_append,
              ← List.append_assoc, utf8_append, hfield, ← List.singleton_append, utf8_append, ih]
            rfl
  rw [text, chars, ← List.singleton_append, utf8_append, utf8_append, hfields]
  rfl

end Json
