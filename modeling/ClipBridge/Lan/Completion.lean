import ClipBridge.Lan.Receive

/-!
# Completing an accepted offer

An offer is accepted by `validate_offer`, and the file is finished by `IncomingFileWriter::finish`,
which writes the hash of what it has received and compares it with the text of the offer.

* `hexValue` — the bytes that a hexadecimal text denotes, in either case.
* `writeChunks` — the chunks of a payload, one call after the other.
* `Completes` — the chunks are written and the file is finished, and holds the payload.
* `completes_iff` — every accepted offer is completed by its payload exactly if its hash is written
  without upper-case letters.
-/

namespace ClipBridge

/-! ## What a hash denotes -/

def hexDigitValue (c : Char) : UInt8 :=
  if c ≤ '9' then UInt8.ofNat (c.toNat - '0'.toNat)
  else if 'a' ≤ c then UInt8.ofNat (c.toNat - 'a'.toNat + 10)
  else UInt8.ofNat (c.toNat - 'A'.toNat + 10)

/-- Two digits for each byte. -/
def hexValue : List Char → Bytes
  | a :: b :: rest => (hexDigitValue a <<< 4 ||| hexDigitValue b) :: hexValue rest
  | _ => []

/-- Written with digits and lower-case letters. -/
def isLowerHex (s : String) : Bool := s.toList.all fun c => !c.isUpper

theorem isUpper_hexBytes (bytes : Bytes) : ∀ c ∈ hexBytes bytes, c.isUpper = false :=
  forall_mem_hexBytes (by decide) bytes

/-- A digit that is not written in upper case is one that `hex_nibble` writes. -/
theorem exists_hexNibble {c : Char} (h : isHexDigit c = true) (hlower : c.isUpper = false) :
    ∃ n < 16, c = hexNibble (UInt8.ofNat n) := by
  have hrange : 48 ≤ c.toNat ∧ c.toNat ≤ 57 ∨ 97 ≤ c.toNat ∧ c.toNat ≤ 102 := by
    have hval : c.toNat = c.val.toNat := rfl
    have hupper : c.isUpper = decide (c.val ≥ 'A'.val ∧ c.val ≤ 'Z'.val) := rfl
    rw [hupper, decide_eq_false_iff_not] at hlower
    simp only [isHexDigit, Bool.or_eq_true, Bool.and_eq_true, decide_eq_true_eq, Char.le_def,
      UInt32.le_iff_toNat_le] at h
    simp [UInt32.le_iff_toNat_le] at h hlower
    omega
  have hall : ∀ k < 103, 48 ≤ k ∧ k ≤ 57 ∨ 97 ≤ k ∧ k ≤ 102 →
      ∃ n < 16, Char.ofNat k = hexNibble (UInt8.ofNat n) := by decide
  rw [← Char.ofNat_toNat c]
  exact hall c.toNat (by omega) hrange

theorem hexDigitValue_hexNibble :
    ∀ n < 16, hexDigitValue (hexNibble (UInt8.ofNat n)) = UInt8.ofNat n := by
  decide

theorem hexBytes_nibbles : ∀ i < 16, ∀ j < 16,
    hexBytes [UInt8.ofNat i <<< 4 ||| UInt8.ofNat j] =
      [hexNibble (UInt8.ofNat i), hexNibble (UInt8.ofNat j)] := by
  decide

theorem hexBytes_hexValue {s : List Char} (heven : s.length % 2 = 0)
    (hdigits : ∀ c ∈ s, ∃ n < 16, c = hexNibble (UInt8.ofNat n)) : hexBytes (hexValue s) = s := by
  induction s using hexValue.induct with
  | case1 a b rest ih =>
      obtain ⟨i, hi, rfl⟩ := hdigits a (by simp)
      obtain ⟨j, hj, rfl⟩ := hdigits b (by simp)
      have hpair : hexBytes [hexDigitValue (hexNibble (UInt8.ofNat i)) <<< 4 |||
          hexDigitValue (hexNibble (UInt8.ofNat j))] =
            [hexNibble (UInt8.ofNat i), hexNibble (UInt8.ofNat j)] := by
        rw [hexDigitValue_hexNibble i hi, hexDigitValue_hexNibble j hj, hexBytes_nibbles i hi j hj]
      have hrest : hexBytes (hexValue rest) = rest := by
        refine ih ?_ fun c hc => hdigits c (by simp [hc])
        simp only [List.length_cons] at heven
        omega
      calc hexBytes (hexValue (_ :: _ :: rest))
          = hexBytes [hexDigitValue (hexNibble (UInt8.ofNat i)) <<< 4 |||
              hexDigitValue (hexNibble (UInt8.ofNat j))] ++ hexBytes (hexValue rest) := rfl
        _ = [hexNibble (UInt8.ofNat i), hexNibble (UInt8.ofNat j)] ++ rest := by rw [hpair, hrest]
  | case2 s hshort =>
      cases s with
      | nil => rfl
      | cons a rest =>
          cases rest with
          | nil => simp at heven
          | cons b rest => exact absurd rfl (hshort a b rest)

section

variable [Sha256]

/-- The hash of an offer denotes the hash of the payload. -/
def Denotes (hex : String) (payload : Bytes) : Prop :=
  hexValue hex.toList = (Sha256.digest payload).val

instance (hex : String) (payload : Bytes) : Decidable (Denotes hex payload) :=
  inferInstanceAs (Decidable (_ = _))

/-- It is the text that `hex_digest` writes exactly if it has no upper-case letter. -/
theorem eq_sha256Hex_iff {hex : String} {payload : Bytes} (hvalid : isValidSha256Hex hex = true)
    (hdenotes : Denotes hex payload) : sha256Hex payload = hex ↔ isLowerHex hex = true := by
  obtain ⟨hlen, hdigits⟩ := Bool.and_eq_true_iff.1 hvalid
  rw [beq_iff_eq] at hlen
  rw [List.all_eq_true] at hdigits
  constructor
  · rintro rfl
    unfold isLowerHex sha256Hex
    rw [String.toList_ofList, List.all_eq_true]
    intro c hc
    rw [isUpper_hexBytes _ c hc]
    rfl
  · intro hlower
    have hlower' := List.all_eq_true.1 hlower
    unfold sha256Hex
    rw [← hdenotes, hexBytes_hexValue (by rw [hlen]; decide), String.ofList_toList]
    exact fun c hc => exists_hexNibble (hdigits c hc) (by simpa using hlower' c hc)

end

/-! ## Writing the payload -/

/-- One call of `write_chunk` for each chunk, without an error of the file system. -/
def writeChunks (dir : Dir) (w : IncomingFileWriter) :
    List Chunk → Except FileTransferError IncomingFileWriter × Dir
  | [] => (.ok w, dir)
  | c :: chunks =>
      match w.writeChunk dir {} c.1 c.2 with
      | (.ok w, dir) => writeChunks dir w chunks
      | (.error e, dir) => (.error e, dir)

/-- The chunks of a payload of the offered size are all written. -/
theorem writeChunks_ok {dir₀ dir : Dir} {offer : FileOffer} {w : IncomingFileWriter}
    {done chunks : List Chunk} (h : Progress dir₀ offer done w dir)
    (hcontiguous : Contiguous (content done).length chunks)
    (hsize : (content (done ++ chunks)).length = offer.sizeBytes.toNat)
    (hlen : (content (done ++ chunks)).length ≤ maxFileLen) :
    ∃ w' dir', writeChunks dir w chunks = (.ok w', dir') ∧
      Progress dir₀ offer (done ++ chunks) w' dir' := by
  induction chunks generalizing done w dir with
  | nil => exact ⟨w, dir, rfl, by rwa [List.append_nil]⟩
  | cons c chunks ih =>
      have hlength : (content (done ++ c :: chunks)).length =
          (content done).length + c.2.length + (content chunks).length := by
        simp [content, Nat.add_assoc]
      obtain ⟨w₁, dir₁, hwrite, -, hp⟩ := h.writeChunk_ok {} rfl hcontiguous.1 (by omega) (by omega)
      have hsplit : done ++ c :: chunks = (done ++ [c]) ++ chunks := by simp
      rw [hsplit] at hsize hlen ⊢
      obtain ⟨w', dir', hrest, hp'⟩ := ih hp
        (by rw [content_concat, List.length_append]; exact hcontiguous.2) hsize hlen
      refine ⟨w', dir', ?_, hp'⟩
      unfold writeChunks
      rw [show w.writeChunk dir {} c.1 c.2 = (.ok w₁, dir₁) from hwrite]
      exact hrest

section

variable [Sha256]

/-- The chunks are written and the file is finished, and what was received holds the payload. -/
def Completes (dir : Dir) (w : IncomingFileWriter) (chunks : List Chunk) (payload : Bytes) : Prop :=
  ∃ w' dir₁ file dir₂, writeChunks dir w chunks = (.ok w', dir₁) ∧
    w'.finish dir₁ {} = (.ok file, dir₂) ∧ dir₂.read file.path = some payload

/-- An offer that was accepted is completed exactly if its text is the one `finish` writes. -/
theorem completes_iff_hex_eq {dir dir' : Dir} {io : Io} {offer : FileOffer}
    {config : FileTransferConfig} {w : IncomingFileWriter} {chunks : List Chunk}
    (haccept : IncomingFileWriter.accept dir io offer config = (.ok w, dir'))
    (hsize : (content chunks).length = offer.sizeBytes.toNat)
    (hlen : (content chunks).length ≤ maxFileLen) (hcontiguous : Contiguous 0 chunks) :
    Completes dir' w chunks (content chunks) ↔ sha256Hex (content chunks) = offer.sha256Hex := by
  rcases IncomingFileWriter.accept_cases dir io offer config with
    ⟨e, he⟩ | ⟨path, i, dir₁, hvalid, hpath, hnew, he⟩
  · rw [haccept] at he
    cases he
  · rw [haccept] at he
    cases he
    have hopened := progress_opened hnew (uniqueDestinationPath_free hpath)
    obtain ⟨w', dir₂, hwrite, hp⟩ := writeChunks_ok hopened hcontiguous hsize hlen
    rw [List.nil_append] at hp
    constructor
    · rintro ⟨w₁, dir₃, file, dir₄, hwrite₁, hfinish, -⟩
      rw [hwrite] at hwrite₁
      cases hwrite₁
      rcases hp.finish {} with ⟨file', dir₅, hok, hreceived⟩ | ⟨e, dir₅, herror, -⟩
      · exact hreceived.hash
      · rw [hfinish] at herror
        cases herror
    · intro heq
      obtain ⟨file, dir₃, hfinish, -, hreceived⟩ := hp.finish_ok {} rfl rfl hsize heq
      exact ⟨w', dir₂, file, dir₃, hwrite, hfinish, hreceived.read⟩

/-- **An offer that was accepted is completed by its payload, in whatever contiguous chunks it is
written, exactly if its hash is written without upper-case letters.** -/
theorem completes_iff {dir dir' : Dir} {io : Io} {offer : FileOffer} {config : FileTransferConfig}
    {w : IncomingFileWriter} {chunks : List Chunk} {payload : Bytes}
    (haccept : IncomingFileWriter.accept dir io offer config = (.ok w, dir'))
    (hsize : payload.length = offer.sizeBytes.toNat) (hlen : payload.length ≤ maxFileLen)
    (hhash : Denotes offer.sha256Hex payload) (hcontiguous : Contiguous 0 chunks)
    (hcontent : content chunks = payload) :
    Completes dir' w chunks payload ↔ isLowerHex offer.sha256Hex = true := by
  subst hcontent
  have hvalid : isValidSha256Hex offer.sha256Hex = true := by
    rcases IncomingFileWriter.accept_cases dir io offer config with
      ⟨e, he⟩ | ⟨path, i, dir₁, hvalid, -⟩
    · rw [haccept] at he
      cases he
    · exact (validateOffer_iff.1 hvalid).2.2.1
  rw [completes_iff_hex_eq haccept hsize hlen hcontiguous, eq_sha256Hex_iff hvalid hhash]

end

/-! ## The same hash in either case -/

section

local instance : Sha256 := abcSha256

def hashedOffer (hex : String) : FileOffer where
  transferId := "t-1"
  sourceDeviceId := "laptop"
  targetDeviceId := "pc"
  fileName := "a.txt"
  sizeBytes := 3
  modifiedUnixMillis := none
  mimeType := none
  sha256Hex := hex

def abcHex : String := sha256Hex [97, 98, 99]

/-- The directory with the part file of an accepted offer of `abc`. -/
def abcDir (hex : String) : Dir := (IncomingFileWriter.accept .empty {} (hashedOffer hex) {}).2

def abcWriter (hex : String) : IncomingFileWriter :=
  IncomingFileWriter.opened (hashedOffer hex) "a.txt" 0

theorem accept_hashedOffer {hex : String} (hvalid : isValidSha256Hex hex = true) :
    IncomingFileWriter.accept .empty {} (hashedOffer hex) {} =
      (.ok (abcWriter hex), abcDir hex) := by
  have hname : sanitizeFileName "a.txt" = .ok "a.txt" := by decide +kernel
  have hsize : (3 : UInt64) ≤ defaultMaxFileBytes := by decide
  have hid : trim "t-1".toList ≠ [] := by decide
  have hoffer : validateOffer (hashedOffer hex) {} = .ok () :=
    validateOffer_iff.2 ⟨hsize, ⟨"a.txt", hname⟩, hvalid, hid⟩
  have hpath : uniqueDestinationPath .empty "a.txt" = .ok "a.txt" := by decide +kernel
  refine Prod.ext ?_ rfl
  unfold IncomingFileWriter.accept
  rw [hoffer]
  dsimp only [hashedOffer]
  rw [hpath]
  rfl

theorem abc_completes :
    Completes (abcDir abcHex) (abcWriter abcHex) [(0, [97]), (1, [98, 99])] [97, 98, 99] :=
  (completes_iff (accept_hashedOffer (isValidSha256Hex_sha256Hex _)) rfl (by decide)
    (by decide +kernel) (by exact ⟨rfl, rfl, trivial⟩) rfl).2 (by decide +kernel)

/-- The same hash in upper case is accepted, and the payload it denotes is refused at the end. -/
theorem upperHex_not_completed :
    ¬ ∀ (dir dir' : Dir) (offer : FileOffer) (config : FileTransferConfig)
        (w : IncomingFileWriter) (chunks : List Chunk) (payload : Bytes),
      IncomingFileWriter.accept dir {} offer config = (.ok w, dir') →
      payload.length = offer.sizeBytes.toNat → Denotes offer.sha256Hex payload →
      Contiguous 0 chunks → content chunks = payload → Completes dir' w chunks payload := by
  intro h
  have haccept := accept_hashedOffer (show isValidSha256Hex abcHex.toUpper = true by decide +kernel)
  have hcompletes := h _ _ _ _ _ [(0, [97, 98, 99])] [97, 98, 99] haccept rfl (by decide +kernel)
    ⟨rfl, trivial⟩ rfl
  have heq := (completes_iff_hex_eq haccept rfl (by decide)
    (by exact ⟨rfl, trivial⟩)).1 hcompletes
  exact absurd heq (by decide +kernel)

end

end ClipBridge
