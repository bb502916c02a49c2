import Mathlib.Data.List.Basic
import Mathlib.Data.Nat.Digits.Lemmas

/-!
# JSON text

What a compact JSON serializer writes, as bytes: strings with their escapes, decimal numbers, and
objects whose values are already text. Binary data is written as a base64 string.

* `string`, `nat`, `int`, `bool`, `object`, `base64` — one definition for each kind of value.
* `length_object_cons`, `length_nat_le`, `length_base64` — how long the text is.
-/

namespace JsonText

/-- The UTF-8 bytes of a text. -/
def utf8 (s : String) : List UInt8 := s.toList.flatMap String.utf8EncodeChar

/-! ## Strings -/

def hexDigit (n : Nat) : UInt8 := UInt8.ofNat (if n < 10 then 48 + n else 87 + n)

/-- A character inside a string: quotes, backslashes and control characters are escaped. -/
def char (c : Char) : List UInt8 :=
  if c = '"' then [92, 34]
  else if c = '\\' then [92, 92]
  else if c = '\n' then [92, 110]
  else if c = '\r' then [92, 114]
  else if c = '\t' then [92, 116]
  else if c.toNat = 8 then [92, 98]
  else if c.toNat = 12 then [92, 102]
  else if c.toNat < 32 then [92, 117, 48, 48, hexDigit (c.toNat / 16), hexDigit (c.toNat % 16)]
  else String.utf8EncodeChar c

def quote (text : List UInt8) : List UInt8 := 34 :: (text ++ [34])

def string (s : String) : List UInt8 := quote (s.toList.flatMap char)

/-! ## Numbers and literals -/

/-- The decimal digits, most significant first. -/
def nat (n : Nat) : List UInt8 :=
  if n = 0 then [48] else (Nat.digits 10 n).reverse.map fun d => UInt8.ofNat (48 + d)

def int (i : Int) : List UInt8 := if i < 0 then 45 :: nat i.natAbs else nat i.natAbs

def bool (b : Bool) : List UInt8 := utf8 (if b then "true" else "false")

def null : List UInt8 := utf8 "null"

/-- A value, or `null`. -/
def option {α : Type} (value : α → List UInt8) : Option α → List UInt8
  | none => null
  | some a => value a

/-! ## Objects -/

def field (f : String × List UInt8) : List UInt8 := string f.1 ++ 58 :: f.2

def fields : List (String × List UInt8) → List UInt8
  | [] => []
  | [f] => field f
  | f :: fs => field f ++ 44 :: fields fs

def object (fs : List (String × List UInt8)) : List UInt8 := 123 :: (fields fs ++ [125])

/-! ## Base64 -/

/-- The standard alphabet. -/
def base64Char (n : UInt8) : UInt8 :=
  if n < 26 then 65 + n
  else if n < 52 then 97 + (n - 26)
  else if n < 62 then 48 + (n - 52)
  else if n = 62 then 43
  else 47

/-- With padding. -/
def base64Encode : List UInt8 → List UInt8
  | [] => []
  | [a] => [base64Char (a >>> 2), base64Char ((a &&& 3) <<< 4), 61, 61]
  | [a, b] =>
      [base64Char (a >>> 2), base64Char ((a &&& 3) <<< 4 ||| b >>> 4),
        base64Char ((b &&& 15) <<< 2), 61]
  | a :: b :: c :: rest =>
      base64Char (a >>> 2) :: base64Char ((a &&& 3) <<< 4 ||| b >>> 4) ::
        base64Char ((b &&& 15) <<< 2 ||| c >>> 6) :: base64Char (c &&& 63) :: base64Encode rest

def base64 (bytes : List UInt8) : List UInt8 := quote (base64Encode bytes)

/-! ## Lengths -/

@[simp] theorem length_quote (text : List UInt8) : (quote text).length = text.length + 2 := by
  simp [quote]

@[simp] theorem length_field (f : String × List UInt8) :
    (field f).length = (string f.1).length + f.2.length + 1 := by
  simp [field]
  omega

@[simp] theorem length_object_one (f : String × List UInt8) :
    (object [f]).length = (field f).length + 2 := by
  simp [object, fields]

/-- Each further field costs a comma. -/
@[simp] theorem length_object_cons (f g : String × List UInt8) (fs : List (String × List UInt8)) :
    (object (f :: g :: fs)).length = (field f).length + 1 + (object (g :: fs)).length := by
  simp [object, fields]
  omega

theorem length_base64Encode (bytes : List UInt8) :
    (base64Encode bytes).length = 4 * ((bytes.length + 2) / 3) := by
  induction bytes using base64Encode.induct with
  | case1 => rfl
  | case2 a => simp [base64Encode]
  | case3 a b => simp [base64Encode]
  | case4 a b c rest ih =>
      simp only [base64Encode, List.length_cons, ih]
      omega

theorem length_base64 (bytes : List UInt8) :
    (base64 bytes).length = 4 * ((bytes.length + 2) / 3) + 2 := by
  rw [base64, length_quote, length_base64Encode]

/-- A number below a power of ten has at most as many digits. -/
theorem length_nat_le {n k : Nat} (hk : 0 < k) (h : n < 10 ^ k) : (nat n).length ≤ k := by
  unfold nat
  split
  · exact hk
  · rw [List.length_map, List.length_reverse]
    exact (Nat.digits_length_le_iff (by decide) n).2 h

/-- The longest escape takes six bytes, and a character of UTF-8 at most four. -/
theorem length_char_le (c : Char) : (char c).length ≤ 6 := by
  have h := Char.utf8Size_le_four c
  unfold char
  split_ifs <;> simp
  omega

theorem length_string_le (s : String) : (string s).length ≤ 6 * s.toList.length + 2 := by
  have h : ∀ cs : List Char, (cs.flatMap char).length ≤ 6 * cs.length := by
    intro cs
    induction cs with
    | nil => simp
    | cons c cs ih =>
        have := length_char_le c
        simp only [List.flatMap_cons, List.length_append, List.length_cons]
        omega
  rw [string, length_quote]
  exact Nat.add_le_add_right (h s.toList) 2

/-- Every character takes a byte. -/
theorem le_length_string (s : String) : s.toList.length ≤ (string s).length := by
  have h : ∀ cs : List Char, cs.length ≤ (cs.flatMap char).length := by
    intro cs
    induction cs with
    | nil => simp
    | cons c cs ih =>
        have hpos : 0 < (char c).length := by
          have := Char.utf8Size_pos c
          unfold char
          split_ifs <;> simp
          omega
        simp only [List.flatMap_cons, List.length_append, List.length_cons]
        omega
  rw [string, length_quote]
  exact Nat.le_trans (h s.toList) (Nat.le_add_right _ 2)

end JsonText
