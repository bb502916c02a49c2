import ClipBridge.Lib.JsonText

/-!
# Base64

Bytes as symbols of a 64-letter alphabet, six bits to a symbol, with and without padding. The
decoders are strict ones: the bits that the last symbol leaves over must be zero, and the padding
must be there exactly if it belongs there.

* `Alphabet` — 64 different symbols, none of which is the padding sign.
* `encodeNoPad`, `encode` — without and with padding.
* `decodeNoPad_iff`, `decode_iff` — a text decodes to some bytes exactly if it is their encoding.
* `jsonText_base64` — what a JSON serializer writes for bytes is their standard encoding.
-/

namespace Base64

/-! ## Groups of six bits -/

/-- The first six bits of a byte. -/
def firstSix (a : UInt8) : Fin 64 := ⟨a.toNat / 4, by have := a.toNat_lt; omega⟩

/-- The other two, and four of the next byte. -/
def secondSix (a b : UInt8) : Fin 64 :=
  ⟨a.toNat % 4 * 16 + b.toNat / 16, by have := b.toNat_lt; omega⟩

/-- The other four, and two of the third byte. -/
def thirdSix (b c : UInt8) : Fin 64 :=
  ⟨b.toNat % 16 * 4 + c.toNat / 64, by have := c.toNat_lt; omega⟩

/-- The other six of the third byte. -/
def fourthSix (c : UInt8) : Fin 64 := ⟨c.toNat % 64, by omega⟩

/-- The bytes, cut into groups of six bits. What is left over is filled up with zeros. -/
def sextets : List UInt8 → List (Fin 64)
  | [] => []
  | [a] => [firstSix a, secondSix a 0]
  | [a, b] => [firstSix a, secondSix a b, thirdSix b 0]
  | a :: b :: c :: rest =>
      firstSix a :: secondSix a b :: thirdSix b c :: fourthSix c :: sextets rest

/-- The bytes of which these are the groups. -/
def unsextets : List (Fin 64) → Option (List UInt8)
  | [] => some []
  | [_] => none
  | [p, q] => if q.val % 16 = 0 then some [UInt8.ofNat (p * 4 + q / 16)] else none
  | [p, q, r] =>
      if r.val % 4 = 0 then
        some [UInt8.ofNat (p * 4 + q / 16), UInt8.ofNat (q % 16 * 16 + r / 4)]
      else none
  | p :: q :: r :: s :: rest =>
      (unsextets rest).map fun bytes =>
        UInt8.ofNat (p * 4 + q / 16) :: UInt8.ofNat (q % 16 * 16 + r / 4) ::
          UInt8.ofNat (r % 4 * 64 + s) :: bytes

theorem ofNat_eq {n : Nat} {a : UInt8} (h : n = a.toNat) : UInt8.ofNat n = a := by
  rw [h, UInt8.ofNat_toNat]

theorem unsextets_sextets (bytes : List UInt8) : unsextets (sextets bytes) = some bytes := by
  induction bytes using sextets.induct with
  | case1 => rfl
  | case2 a =>
      have ha : UInt8.ofNat (a.toNat / 4 * 4 + a.toNat % 4 * 16 / 16) = a := ofNat_eq (by omega)
      have hrest : a.toNat % 4 * 16 % 16 = 0 := by omega
      simp only [sextets, unsextets, firstSix, secondSix, UInt8.toNat_zero, Nat.zero_div,
        Nat.add_zero, hrest, ha, if_true]
  | case3 a b =>
      have ha : UInt8.ofNat (a.toNat / 4 * 4 + (a.toNat % 4 * 16 + b.toNat / 16) / 16) = a :=
        ofNat_eq (by have := b.toNat_lt; omega)
      have hb : UInt8.ofNat ((a.toNat % 4 * 16 + b.toNat / 16) % 16 * 16 + b.toNat % 16 * 4 / 4)
          = b := ofNat_eq (by have := b.toNat_lt; omega)
      have hrest : b.toNat % 16 * 4 % 4 = 0 := by omega
      simp only [sextets, unsextets, firstSix, secondSix, thirdSix, UInt8.toNat_zero,
        Nat.zero_div, Nat.add_zero, hrest, ha, hb, if_true]
  | case4 a b c rest ih =>
      have ha : UInt8.ofNat (a.toNat / 4 * 4 + (a.toNat % 4 * 16 + b.toNat / 16) / 16) = a :=
        ofNat_eq (by have := b.toNat_lt; omega)
      have hb : UInt8.ofNat ((a.toNat % 4 * 16 + b.toNat / 16) % 16 * 16 +
          (b.toNat % 16 * 4 + c.toNat / 64) / 4) = b :=
        ofNat_eq (by have := b.toNat_lt; have := c.toNat_lt; omega)
      have hc : UInt8.ofNat ((b.toNat % 16 * 4 + c.toNat / 64) % 4 * 64 + c.toNat % 64) = c :=
        ofNat_eq (by have := c.toNat_lt; omega)
      simp only [sextets, unsextets, firstSix, secondSix, thirdSix, fourthSix, ih, ha, hb, hc,
        Option.map_some]

/-- Groups that were read are the groups of what was read. -/
theorem sextets_of_unsextets {groups : List (Fin 64)} {bytes : List UInt8}
    (h : unsextets groups = some bytes) : sextets bytes = groups := by
  have hbyte {n : Nat} (hn : n < 256) : (UInt8.ofNat n).toNat = n :=
    UInt8.toNat_ofNat_of_lt' hn
  induction groups using unsextets.induct generalizing bytes with
  | case1 =>
      cases h
      rfl
  | case2 => cases h
  | case3 p q hq =>
      rw [unsextets, if_pos hq] at h
      cases h
      simp only [sextets, firstSix, secondSix, UInt8.toNat_zero, List.cons.injEq, Fin.ext_iff,
        and_true]
      rw [hbyte (by omega)]
      omega
  | case4 p q hq =>
      rw [unsextets, if_neg hq] at h
      cases h
  | case5 p q r hr =>
      rw [unsextets, if_pos hr] at h
      cases h
      simp only [sextets, firstSix, secondSix, thirdSix, UInt8.toNat_zero, List.cons.injEq,
        Fin.ext_iff, and_true]
      rw [hbyte (by omega), hbyte (by omega)]
      omega
  | case6 p q r hr =>
      rw [unsextets, if_neg hr] at h
      cases h
  | case7 p q r s rest ih =>
      rw [unsextets, Option.map_eq_some_iff] at h
      obtain ⟨bytes, hrest, rfl⟩ := h
      simp only [sextets, firstSix, secondSix, thirdSix, fourthSix, List.cons.injEq, Fin.ext_iff]
      rw [hbyte (by omega), hbyte (by omega), hbyte (by omega)]
      exact ⟨by omega, by omega, by omega, by omega, ih hrest⟩

/-! ## Symbols -/

structure Alphabet where
  symbol : Fin 64 → Char
  symbol_inj : Function.Injective symbol
  symbol_ne_pad : ∀ n, symbol n ≠ '='

namespace Alphabet

/-- The group that a symbol stands for. -/
def value (A : Alphabet) (c : Char) : Option (Fin 64) :=
  (List.finRange 64).find? fun n => A.symbol n = c

theorem value_iff (A : Alphabet) (c : Char) (n : Fin 64) :
    A.value c = some n ↔ A.symbol n = c := by
  constructor
  · intro h
    simpa using List.find?_some h
  · rintro rfl
    cases hfound : A.value (A.symbol n) with
    | none =>
        have hnone := List.find?_eq_none.1 hfound n (List.mem_finRange n)
        simp at hnone
    | some m =>
        have hm : A.symbol m = A.symbol n := by simpa using List.find?_some hfound
        rw [A.symbol_inj hm]

/-- The groups that a text stands for. -/
def values (A : Alphabet) : List Char → Option (List (Fin 64))
  | [] => some []
  | c :: cs =>
      match A.value c, A.values cs with
      | some n, some ns => some (n :: ns)
      | _, _ => none

theorem values_iff (A : Alphabet) (cs : List Char) (ns : List (Fin 64)) :
    A.values cs = some ns ↔ ns.map A.symbol = cs := by
  induction cs generalizing ns with
  | nil => cases ns <;> simp [values]
  | cons c cs ih =>
      cases ns with
      | nil =>
          simp only [values, List.map_nil]
          split <;> simp
      | cons n ns =>
          rw [List.map_cons, List.cons.injEq, ← A.value_iff, ← ih, values]
          split <;> simp_all

end Alphabet

/-! ## Texts -/

/-- The signs that fill up a text of `n` symbols to whole groups of four. -/
def padding (n : Nat) : List Char := List.replicate ((4 - n % 4) % 4) '='

namespace Alphabet

variable (A : Alphabet) {cs : List Char} {bytes : List UInt8}

def encodeNoPad (bytes : List UInt8) : List Char := (sextets bytes).map A.symbol

def decodeNoPad (cs : List Char) : Option (List UInt8) := (A.values cs).bind unsextets

def encode (bytes : List UInt8) : List Char :=
  A.encodeNoPad bytes ++ padding (A.encodeNoPad bytes).length

/-- The padding must be what `encode` puts there. -/
def decode (cs : List Char) : Option (List UInt8) :=
  let body := cs.takeWhile (· ≠ '=')
  if body ++ padding body.length = cs then A.decodeNoPad body else none

theorem decodeNoPad_iff : A.decodeNoPad cs = some bytes ↔ A.encodeNoPad bytes = cs := by
  rw [decodeNoPad, Option.bind_eq_some_iff]
  constructor
  · rintro ⟨groups, hvalues, hbytes⟩
    rw [encodeNoPad, sextets_of_unsextets hbytes]
    exact (A.values_iff cs groups).1 hvalues
  · intro h
    exact ⟨sextets bytes, (A.values_iff cs _).2 h, unsextets_sextets bytes⟩

theorem pad_notMem_encodeNoPad (bytes : List UInt8) : '=' ∉ A.encodeNoPad bytes := by
  rw [encodeNoPad, List.mem_map]
  rintro ⟨n, -, hn⟩
  exact A.symbol_ne_pad n hn

/-- The symbols of a padded text are what stands before its first padding sign. -/
theorem takeWhile_encode (bytes : List UInt8) :
    (A.encode bytes).takeWhile (· ≠ '=') = A.encodeNoPad bytes := by
  have hbody : ∀ c ∈ A.encodeNoPad bytes, decide (c ≠ '=') = true := fun c hc =>
    decide_eq_true fun h => A.pad_notMem_encodeNoPad bytes (h ▸ hc)
  rw [encode, List.takeWhile_append_of_pos hbody]
  simp [padding]

theorem decode_iff : A.decode cs = some bytes ↔ A.encode bytes = cs := by
  rw [decode]
  constructor
  · intro h
    split at h
    case isTrue hpad =>
      rw [encode, A.decodeNoPad_iff.1 h]
      exact hpad
    case isFalse => cases h
  · rintro rfl
    rw [takeWhile_encode, if_pos (by rw [encode])]
    exact A.decodeNoPad_iff.2 rfl

theorem decode_encode (bytes : List UInt8) : A.decode (A.encode bytes) = some bytes :=
  A.decode_iff.2 rfl

end Alphabet

/-! ## The standard alphabet -/

/-- The letters and digits, and the two symbols in which alphabets differ. -/
def symbolWith (c d : Char) (n : Fin 64) : Char :=
  if n.val < 26 then Char.ofNat (65 + n)
  else if n.val < 52 then Char.ofNat (71 + n)
  else if n.val < 62 then Char.ofNat (n - 4)
  else if n.val = 62 then c
  else d

def standard : Alphabet where
  symbol := symbolWith '+' '/'
  symbol_inj := by
    intro m n
    revert m n
    decide +kernel
  symbol_ne_pad := by decide

/-! ## In JSON

`JsonText` computes the same symbols with shifts and masks. -/

theorem padding_add_four (n : Nat) : padding (n + 1 + 1 + 1 + 1) = padding n := by
  have h : (4 - (n + 4) % 4) % 4 = (4 - n % 4) % 4 := by omega
  rw [padding, padding, h]

theorem char_symbol : ∀ n : Fin 64,
    JsonText.char (standard.symbol n) = [JsonText.base64Char (UInt8.ofNat n)] := by
  decide +kernel

theorem shiftRight_eq (a : UInt8) {k : UInt8} (hk : k.toNat < 8) :
    a >>> k = UInt8.ofNat (a.toNat / 2 ^ k.toNat) := by
  have ha := a.toNat_lt
  have hlt : a.toNat / 2 ^ k.toNat < 2 ^ 8 := Nat.lt_of_le_of_lt (Nat.div_le_self _ _) ha
  rw [← UInt8.toNat_inj, UInt8.toNat_shiftRight, UInt8.toNat_ofNat_of_lt' hlt,
    Nat.mod_eq_of_lt hk, Nat.shiftRight_eq_div_pow]

theorem and_eq (a : UInt8) {k : Nat} (hk : k ≤ 8) :
    a &&& UInt8.ofNat (2 ^ k - 1) = UInt8.ofNat (a.toNat % 2 ^ k) := by
  have ha := a.toNat_lt
  have hpow : 2 ^ k ≤ 2 ^ 8 := Nat.pow_le_pow_right (by decide) hk
  have hlt : a.toNat % 2 ^ k < 2 ^ 8 := Nat.lt_of_le_of_lt (Nat.mod_le _ _) ha
  have hmask : 2 ^ k - 1 < 2 ^ 8 := by omega
  rw [← UInt8.toNat_inj, UInt8.toNat_and, UInt8.toNat_ofNat_of_lt' hlt,
    UInt8.toNat_ofNat_of_lt' hmask, Nat.and_two_pow_sub_one_eq_mod]

theorem or_shift_four : ∀ i < 4, ∀ j < 16,
    UInt8.ofNat i <<< 4 ||| UInt8.ofNat j = UInt8.ofNat (i * 16 + j) := by
  decide +kernel

theorem or_shift_two : ∀ i < 16, ∀ j < 4,
    UInt8.ofNat i <<< 2 ||| UInt8.ofNat j = UInt8.ofNat (i * 4 + j) := by
  decide +kernel

theorem base64Encode_eq (bytes : List UInt8) :
    JsonText.base64Encode bytes = (standard.encode bytes).flatMap JsonText.char := by
  have hpad : JsonText.char '=' = [61] := by decide
  have h₁ (a : UInt8) : a >>> 2 = UInt8.ofNat (firstSix a) := shiftRight_eq a (by decide)
  have h₂ (a b : UInt8) : (a &&& 3) <<< 4 ||| b >>> 4 = UInt8.ofNat (secondSix a b) := by
    have ha : a &&& 3 = UInt8.ofNat (a.toNat % 4) := and_eq a (by decide : 2 ≤ 8)
    have hb : b >>> 4 = UInt8.ofNat (b.toNat / 16) := shiftRight_eq b (by decide)
    have := b.toNat_lt
    rw [ha, hb, or_shift_four _ (by omega) _ (by omega), secondSix]
  have h₃ (b c : UInt8) : (b &&& 15) <<< 2 ||| c >>> 6 = UInt8.ofNat (thirdSix b c) := by
    have hb : b &&& 15 = UInt8.ofNat (b.toNat % 16) := and_eq b (by decide : 4 ≤ 8)
    have hc : c >>> 6 = UInt8.ofNat (c.toNat / 64) := shiftRight_eq c (by decide)
    have := c.toNat_lt
    rw [hb, hc, or_shift_two _ (by omega) _ (by omega), thirdSix]
  have h₄ (c : UInt8) : c &&& 63 = UInt8.ofNat (fourthSix c) := and_eq c (by decide : 6 ≤ 8)
  induction bytes using JsonText.base64Encode.induct with
  | case1 => rfl
  | case2 a =>
      have h₂' : (a &&& 3) <<< 4 = UInt8.ofNat (secondSix a 0) := by simpa using h₂ a 0
      rw [JsonText.base64Encode, h₁, h₂']
      simp [Alphabet.encode, Alphabet.encodeNoPad, sextets, padding, char_symbol, hpad,
        List.replicate]
  | case3 a b =>
      have h₃' : (b &&& 15) <<< 2 = UInt8.ofNat (thirdSix b 0) := by simpa using h₃ b 0
      rw [JsonText.base64Encode, h₁, h₂, h₃']
      simp [Alphabet.encode, Alphabet.encodeNoPad, sextets, padding, char_symbol, hpad]
  | case4 a b c rest ih =>
      rw [JsonText.base64Encode, h₁, h₂, h₃, h₄, ih]
      simp [Alphabet.encode, Alphabet.encodeNoPad, sextets, padding_add_four, char_symbol]

theorem jsonText_base64 (bytes : List UInt8) :
    JsonText.base64 bytes = JsonText.string (String.ofList (standard.encode bytes)) := by
  rw [JsonText.base64, base64Encode_eq, JsonText.string, String.toList_ofList]

/-- The bytes that stand for the encoding are its characters. -/
theorem map_base64Encode (bytes : List UInt8) :
    ((JsonText.base64Encode bytes).map fun b => Char.ofNat b.toNat) = standard.encode bytes := by
  have hpad : (JsonText.char '=').map (fun b => Char.ofNat b.toNat) = ['='] := by decide
  have hsymbol : ∀ n : Fin 64, (JsonText.char (standard.symbol n)).map
      (fun b => Char.ofNat b.toNat) = [standard.symbol n] := by decide +kernel
  have hone : ∀ c ∈ standard.encode bytes,
      (JsonText.char c).map (fun b => Char.ofNat b.toNat) = [c] := by
    intro c hc
    rcases List.mem_append.1 hc with hc | hc
    · obtain ⟨n, -, rfl⟩ := List.mem_map.1 hc
      exact hsymbol n
    · rw [List.eq_of_mem_replicate hc, hpad]
  rw [base64Encode_eq, List.map_flatMap, List.flatMap_congr hone, List.flatMap_singleton']

example : standard.encode [251, 255, 1, 2] = "+/8BAg==".toList := by decide +kernel

end Base64
