import ClipBridge.Core.Basic

/-!
# Sealing and hashing

Following `core/src/crypto.rs`. The ciphers and the hash function themselves are not part of the
repository: `Aead` and `Sha256` stand for the crates. The random nonce that `encrypt` draws is an
argument.
-/

namespace ClipBridge

def nonceLen : Nat := 12

def keyLen : Nat := 32

def sha256Len : Nat := 32

/-- The group key. -/
abbrev Key := { bytes : Bytes // bytes.length = keyLen }

/-- ChaCha20-Poly1305, on a key, a nonce of `nonceLen` bytes and the text. -/
class Aead where
  encrypt : Key → Bytes → Bytes → Option Bytes
  decrypt : Key → Bytes → Bytes → Option Bytes

class Sha256 where
  digest : Bytes → { bytes : Bytes // bytes.length = sha256Len }

inductive CryptoError where
  | encrypt
  | decrypt
  | nonceLen (got : Nat)
  deriving DecidableEq, Repr

section

variable [Aead]

def encrypt (key : Key) (nonce plaintext : Bytes) : Except CryptoError (Bytes × Bytes) :=
  match Aead.encrypt key nonce plaintext with
  | some ciphertext => .ok (ciphertext, nonce)
  | none => .error .encrypt

/-- A ciphertext comes with the nonce it was sealed under. -/
theorem nonce_of_encrypt {key : Key} {nonce nonce' plaintext ciphertext : Bytes}
    (h : encrypt key nonce plaintext = .ok (ciphertext, nonce')) : nonce' = nonce := by
  unfold encrypt at h
  split at h
  · cases h
    rfl
  · cases h

def decrypt (key : Key) (nonceBytes ciphertext : Bytes) : Except CryptoError Bytes :=
  if nonceBytes.length ≠ nonceLen then .error (.nonceLen nonceBytes.length)
  else
    match Aead.decrypt key nonceBytes ciphertext with
    | some plain => .ok plain
    | none => .error .decrypt

end

/-! ## Hexadecimal digests -/

def hexNibble (n : UInt8) : Char :=
  if n ≤ 9 then Char.ofNat ('0'.toNat + n.toNat) else Char.ofNat ('a'.toNat + (n.toNat - 10))

def hexBytes (bytes : Bytes) : List Char :=
  bytes.flatMap fun b : UInt8 => [hexNibble (b >>> 4), hexNibble (b &&& 0x0f)]

def sha256Hex [Sha256] (bytes : Bytes) : String :=
  String.ofList (hexBytes (Sha256.digest bytes).val)

theorem hexNibble_inj : ∀ m < 16, ∀ n < 16,
    hexNibble (UInt8.ofNat m) = hexNibble (UInt8.ofNat n) → m = n := by
  decide

/-- The two digits of a byte tell its two halves. -/
theorem hexByte_inj {b c : UInt8}
    (h : [hexNibble (b >>> 4), hexNibble (b &&& 0x0f)] =
      [hexNibble (c >>> 4), hexNibble (c &&& 0x0f)]) : b = c := by
  have hinj (m n : UInt8) (hm : m.toNat < 16) (hn : n.toNat < 16)
      (h : hexNibble m = hexNibble n) : m.toNat = n.toNat :=
    hexNibble_inj m.toNat hm n.toNat hn (by simpa using h)
  have hhigh (b : UInt8) : (b >>> 4).toNat = b.toNat / 16 := by
    rw [UInt8.toNat_shiftRight]
    exact Nat.shiftRight_eq_div_pow _ _
  have hlow (b : UInt8) : (b &&& 0x0f).toNat = b.toNat % 16 := by
    rw [UInt8.toNat_and]
    exact Nat.and_two_pow_sub_one_eq_mod _ 4
  simp only [List.cons.injEq, and_true] at h
  have hb := b.toNat_lt
  have hc := c.toNat_lt
  have htop := hinj _ _ (by rw [hhigh]; omega) (by rw [hhigh]; omega) h.1
  have hbottom := hinj _ _ (by rw [hlow]; omega) (by rw [hlow]; omega) h.2
  rw [hhigh, hhigh] at htop
  rw [hlow, hlow] at hbottom
  exact UInt8.toNat_inj.1 (by omega)

theorem hexBytes_inj {a b : Bytes} (h : hexBytes a = hexBytes b) : a = b := by
  induction a generalizing b with
  | nil =>
      cases b with
      | nil => rfl
      | cons _ _ => cases h
  | cons x a ih =>
      cases b with
      | nil => cases h
      | cons y b =>
          obtain ⟨hbyte, hrest⟩ := List.append_inj h rfl
          rw [hexByte_inj hbyte, ih hrest]

theorem sha256Hex_inj [Sha256] {a b : Bytes} :
    sha256Hex a = sha256Hex b ↔ Sha256.digest a = Sha256.digest b := by
  refine ⟨fun h => Subtype.ext (hexBytes_inj (String.ofList_injective h)), fun h => ?_⟩
  rw [sha256Hex, sha256Hex, h]

/-! ## Digests for examples -/

def digestBytes (n : Nat) : Bytes :=
  (List.range sha256Len).map fun i => UInt8.ofNat (n >>> (8 * (31 - i)))

theorem length_digestBytes (n : Nat) : (digestBytes n).length = sha256Len := by
  rw [digestBytes, List.length_map, List.length_range]

/-- SHA-256 by its values, as numbers, at the inputs of a run; and at no bytes. -/
@[reducible] def tableSha256 (table : List (Bytes × Nat)) : Sha256 where
  digest bytes :=
    let n := (table.lookup bytes).getD
      0xe3b0c44298fc1c149afbf4c8996fb92427ae41e4649b934ca495991b7852b855
    ⟨digestBytes n, length_digestBytes n⟩

/-- For runs that hash `"abc"`. -/
@[reducible] def abcSha256 : Sha256 :=
  tableSha256
    [([0x61, 0x62, 0x63], 0xba7816bf8f01cfea414140de5dae2223b00361a396177a9cb410ff61f20015ad)]

end ClipBridge
