import ClipBridge.Core.Crypto
import ClipBridge.Core.FileName
import ClipBridge.Lib.Directory

/-!
# Writing an incoming file

Following `core/src/file_transfer.rs`: the offer a sender makes, and `IncomingFileWriter`, which
writes the offered bytes under a temporary name and renames the file once its hash is right.

* `validateOffer`, `uniqueDestinationPath` — what is accepted, and under which name.
* `accept`, `writeChunk`, `finish`, `drop` — the operations of the writer, on the directory.
* `accept_cases`, `writeChunk_cases`, `tryFinish_cases` — all that each of them can do.

A call of the file system may fail: `Io` says how it answers in one step. A file is at most
`maxFileLen` bytes long, as `off_t` has it.
-/

namespace ClipBridge

/-- The destination directory. -/
abbrev Dir := Directory String UInt8

/-! ## Configuration and offers -/

def defaultMaxFileBytes : UInt64 := 2 * 1024 * 1024 * 1024

def defaultChunkBytes : Nat := 512 * 1024

def maxFileChunkBytes : Nat := 512 * 1024

structure FileTransferConfig where
  maxFileBytes : UInt64 := defaultMaxFileBytes
  chunkBytes : Nat := defaultChunkBytes
  deriving DecidableEq, Repr

/-- `chunk_bytes.clamp(1, MAX_FILE_CHUNK_BYTES)`. -/
def FileTransferConfig.boundedChunkBytes (config : FileTransferConfig) : Nat :=
  max 1 (min config.chunkBytes maxFileChunkBytes)

theorem FileTransferConfig.boundedChunkBytes_le (config : FileTransferConfig) :
    config.boundedChunkBytes ≤ maxFileChunkBytes :=
  Nat.max_le.2 ⟨by decide, Nat.min_le_right _ _⟩

structure FileOffer where
  transferId : String
  sourceDeviceId : DeviceId
  targetDeviceId : DeviceId
  fileName : String
  sizeBytes : UInt64
  modifiedUnixMillis : Option Int
  mimeType : Option String
  sha256Hex : String
  deriving DecidableEq, Repr

structure ReceivedFile where
  transferId : String
  fileName : String
  path : String
  sizeBytes : UInt64
  sha256Hex : String
  deriving DecidableEq, Repr

def isHexDigit (c : Char) : Bool :=
  ('0' ≤ c && c ≤ '9') || ('a' ≤ c && c ≤ 'f') || ('A' ≤ c && c ≤ 'F')

def isValidSha256Hex (s : String) : Bool :=
  s.toList.length == sha256Len * 2 && s.toList.all isHexDigit

def validateOffer (offer : FileOffer) (config : FileTransferConfig) :
    Except FileTransferError Unit :=
  if config.maxFileBytes < offer.sizeBytes then
    .error (.fileTooLarge offer.sizeBytes config.maxFileBytes)
  else
    match sanitizeFileName offer.fileName with
    | .error e => .error e
    | .ok _ =>
        if ¬ isValidSha256Hex offer.sha256Hex then .error (.invalidSha256 offer.sha256Hex)
        else if trim offer.transferId.toList = [] then .error (.invalidFileName "empty transfer id")
        else .ok ()

/-! ## The file system -/

/-- How the file system answers the calls of one step: `none`, or the error. -/
structure Io where
  createDir : Option IoError := none
  create : Option IoError := none
  /-- A failed write has written so many bytes. -/
  write : Option (Nat × IoError) := none
  sync : Option IoError := none
  rename : Option IoError := none
  remove : Option IoError := none

def maxFileLen : Nat := 0x7fffffffffffffff

/-- What `write_all` returns on a file of `len` bytes, and the bytes it writes: of a failed call,
a proper part of the data. -/
def writeOut (len : Nat) (io : Io) (data : Bytes) : Except IoError Unit × Bytes :=
  if data = [] then (.ok (), [])
  else
    match io.write with
    | some (n, e) => (.error e, data.dropLast.take n)
    | none =>
        if len + data.length ≤ maxFileLen then (.ok (), data)
        else (.error "File too large (os error 27)", data.take (maxFileLen - len))

def writeAll (dir : Dir) (io : Io) (i : Nat) (data : Bytes) : Except IoError Unit × Dir :=
  let (result, bytes) := writeOut (dir.files i).length io data
  (result, dir.append i bytes)

/-- Find a free name: the loop of `unique_destination_path`. -/
def uniqueDestinationPath (dir : Dir) (fileName : String) : Except FileTransferError String :=
  match sanitizeFileName fileName with
  | .error e => .error e
  | .ok safeName =>
      match (candidates safeName).find? (!dir.has ·) with
      | some path => .ok path
      | none => .error (.io "too many same-name files")

/-! ## The writer -/

structure IncomingFileWriter where
  offer : FileOffer
  /-- The open handle. -/
  file : Option Nat
  finalPath : String
  partPath : String
  written : UInt64
  /-- The bytes the hasher was fed. -/
  hasher : Bytes
  finished : Bool
  deriving DecidableEq, Repr

def saturatingAdd (a : UInt64) (n : Nat) : UInt64 :=
  UInt64.ofNat (min (a.toNat + n) (UInt64.size - 1))

namespace IncomingFileWriter

def transferId (w : IncomingFileWriter) : String := w.offer.transferId

/-- The end of `accept`: create the temporary file. -/
def openPart (dir : Dir) (io : Io) (offer : FileOffer) (finalPath : String) :
    Except FileTransferError IncomingFileWriter × Dir :=
  let partPath := partPathFor finalPath offer.transferId
  match io.create with
  | some e => (.error (.io e), dir)
  | none =>
      match dir.createNew partPath with
      | none => (.error (.io "File exists (os error 17)"), dir)
      | some (i, dir) =>
          (.ok {
            offer
            file := some i
            finalPath
            partPath
            written := 0
            hasher := []
            finished := false }, dir)

def accept (dir : Dir) (io : Io) (offer : FileOffer) (config : FileTransferConfig) :
    Except FileTransferError IncomingFileWriter × Dir :=
  match validateOffer offer config with
  | .error e => (.error e, dir)
  | .ok _ =>
      match io.createDir with
      | some e => (.error (.io e), dir)
      | none =>
          match uniqueDestinationPath dir offer.fileName with
          | .error e => (.error e, dir)
          | .ok finalPath => openPart dir io offer finalPath

/-- A chunk that is refused, or whose write fails, leaves the writer as it is. -/
def writeChunk (w : IncomingFileWriter) (dir : Dir) (io : Io) (offset : UInt64) (data : Bytes) :
    Except FileTransferError IncomingFileWriter × Dir :=
  if offset ≠ w.written then (.error (.offsetMismatch w.written offset), dir)
  else
    let next := saturatingAdd w.written data.length
    if w.offer.sizeBytes < next then (.error (.sizeMismatch w.offer.sizeBytes next), dir)
    else
      match w.file with
      | none => (.error (.canceled "writer already closed"), dir)
      | some i =>
          match writeAll dir io i data with
          | (.error e, dir) => (.error (.io e), dir)
          | (.ok _, dir) => (.ok { w with hasher := w.hasher ++ data, written := next }, dir)

variable [Sha256]

/-- What `finish` checks before the rename. -/
def check (w : IncomingFileWriter) (io : Io) : Except FileTransferError Unit :=
  if w.written ≠ w.offer.sizeBytes then .error (.sizeMismatch w.offer.sizeBytes w.written)
  else
    match io.sync with
    | some e => .error (.io e)
    | none =>
        let got := sha256Hex w.hasher
        if got ≠ w.offer.sha256Hex then .error (.hashMismatch w.offer.sha256Hex got)
        else .ok ()

/-- `finish`, before the writer is dropped. -/
def tryFinish (w : IncomingFileWriter) (dir : Dir) (io : Io) :
    Except FileTransferError ReceivedFile × Dir :=
  match w.check io with
  | .error e => (.error e, dir)
  | .ok _ =>
      match io.rename with
      | some e => (.error (.io e), dir)
      | none =>
          match dir.rename w.partPath w.finalPath with
          | none => (.error (.io "No such file or directory (os error 2)"), dir)
          | some dir =>
              (.ok {
                transferId := w.offer.transferId
                fileName := w.offer.fileName
                path := w.finalPath
                sizeBytes := w.written
                sha256Hex := w.offer.sha256Hex }, dir)

/-- The destructor: an error of `remove_file` is ignored. -/
def drop (w : IncomingFileWriter) (dir : Dir) (io : Io) : Dir :=
  if w.finished then dir
  else
    match io.remove with
    | some _ => dir
    | none => (dir.remove w.partPath).getD dir

/-- `finish` takes the writer, which is dropped at its end. -/
def finish (w : IncomingFileWriter) (dir : Dir) (io : Io) :
    Except FileTransferError ReceivedFile × Dir :=
  match w.tryFinish dir io with
  | (.error e, dir) => (.error e, w.drop dir io)
  | (.ok file, dir) => (.ok file, { w with finished := true }.drop dir io)

end IncomingFileWriter

/-! ## Digests are valid -/

/-- What is true of each digit is true of the digits of any bytes. -/
theorem forall_mem_hexBytes {p : Char → Prop} (h : ∀ k < 16, p (hexNibble (UInt8.ofNat k)))
    (bytes : Bytes) : ∀ c ∈ hexBytes bytes, p c := by
  have hnibble : ∀ n : UInt8, n.toNat < 16 → p (hexNibble n) := fun n hn => by
    simpa using h n.toNat hn
  intro c hc
  obtain ⟨b, -, hc⟩ := List.mem_flatMap.1 hc
  rw [List.mem_cons, List.mem_singleton] at hc
  rcases hc with rfl | rfl
  · apply hnibble
    have := b.toNat_lt
    rw [UInt8.toNat_shiftRight]
    simp [Nat.shiftRight_eq_div_pow]
    omega
  · apply hnibble
    rw [UInt8.toNat_and]
    exact Nat.lt_of_le_of_lt Nat.and_le_right (by decide)

theorem hexBytes_hexDigits (bytes : Bytes) : ∀ c ∈ hexBytes bytes, isHexDigit c = true :=
  forall_mem_hexBytes (by decide) bytes

theorem length_hexBytes (bytes : Bytes) : (hexBytes bytes).length = bytes.length * 2 := by
  induction bytes with
  | nil => rfl
  | cons b bytes ih => simp [hexBytes] at ih ⊢; omega

theorem isValidSha256Hex_sha256Hex [Sha256] (bytes : Bytes) :
    isValidSha256Hex (sha256Hex bytes) = true := by
  have hlen := length_hexBytes (Sha256.digest bytes).val
  rw [(Sha256.digest bytes).property] at hlen
  unfold isValidSha256Hex sha256Hex
  rw [String.toList_ofList, hlen]
  simpa using hexBytes_hexDigits (Sha256.digest bytes).val

/-- A transfer id as `Uuid::new_v4` draws it. -/
def IsUuid (s : String) : Prop :=
  s.toList.length = 36 ∧ (s.toList.all fun c => isHexDigit c || c == '-') = true

instance (s : String) : Decidable (IsUuid s) := inferInstanceAs (Decidable (_ ∧ _))

theorem isWhitespace_hexDigit {c : Char} (h : isHexDigit c = true ∨ c = '-') :
    isWhitespace c = false := by
  have hrange : 45 ≤ c.toNat ∧ c.toNat ≤ 102 := by
    rcases h with h | rfl
    · simp only [isHexDigit, Bool.or_eq_true, Bool.and_eq_true, decide_eq_true_eq, Char.le_def,
        UInt32.le_iff_toNat_le] at h
      have : c.toNat = c.val.toNat := rfl
      simp at h
      omega
    · decide
  simp [isWhitespace]
  omega

theorem IsUuid.trim_ne_nil {s : String} (h : IsUuid s) : trim s.toList ≠ [] := by
  intro hnil
  obtain ⟨c, hc⟩ := List.exists_mem_of_length_pos (show 0 < s.toList.length by rw [h.1]; decide)
  have := trimMatches_eq_nil.1 hnil c hc
  have hdigit := List.all_eq_true.1 h.2 c hc
  rw [isWhitespace_hexDigit (by simpa using hdigit)] at this
  simp at this

/-! ## What each operation can do -/

section

variable {dir dir' : Dir} {io : Io} {offer : FileOffer} {config : FileTransferConfig}

theorem validateOffer_iff : validateOffer offer config = .ok () ↔
    offer.sizeBytes ≤ config.maxFileBytes ∧
      (∃ safeName, sanitizeFileName offer.fileName = .ok safeName) ∧
      isValidSha256Hex offer.sha256Hex = true ∧ trim offer.transferId.toList ≠ [] := by
  unfold validateOffer
  split
  · rename_i hsize
    simp [UInt64.not_le.2 hsize]
  · rename_i hsize
    split
    · rename_i e hname
      simp [hname]
    · rename_i safeName hname
      simp [UInt64.not_lt.1 hsize, hname]
      split <;> simp_all

theorem uniqueDestinationPath_free {fileName path : String}
    (h : uniqueDestinationPath dir fileName = .ok path) : dir.has path = false := by
  unfold uniqueDestinationPath at h
  split at h
  · simp at h
  · split at h
    · rename_i hfind
      obtain rfl := Except.ok.inj h
      simpa using List.find?_some hfind
    · simp at h

/-- All the data is written, or the call fails and a proper part of it is. -/
theorem writeOut_cases (len : Nat) (io : Io) (data : Bytes) :
    (writeOut len io data = (.ok (), data) ∧ (data = [] ∨ len + data.length ≤ maxFileLen)) ∨
      ∃ e bytes, writeOut len io data = (.error e, bytes) ∧ bytes.length < data.length := by
  unfold writeOut
  split
  · rename_i hd
    exact .inl ⟨by rw [hd], .inl hd⟩
  · rename_i hd
    have hpos : 0 < data.length := List.length_pos_of_ne_nil hd
    split
    · rename_i n e _
      refine .inr ⟨e, _, rfl, ?_⟩
      rw [List.length_take, List.length_dropLast]
      omega
    · split
      · rename_i hlen
        exact .inl ⟨rfl, .inr hlen⟩
      · refine .inr ⟨_, _, rfl, ?_⟩
        rw [List.length_take]
        omega

end

namespace IncomingFileWriter

section

variable {dir dir' : Dir} {io : Io} {offer : FileOffer} {config : FileTransferConfig}
  {w w' : IncomingFileWriter}

/-- The writer `accept` returns. -/
def opened (offer : FileOffer) (finalPath : String) (i : Nat) : IncomingFileWriter where
  offer := offer
  file := some i
  finalPath := finalPath
  partPath := partPathFor finalPath offer.transferId
  written := 0
  hasher := []
  finished := false

theorem openPart_cases (dir : Dir) (io : Io) (offer : FileOffer) (finalPath : String) :
    (∃ e, openPart dir io offer finalPath = (.error e, dir)) ∨
      ∃ i dir', dir.createNew (partPathFor finalPath offer.transferId) = some (i, dir') ∧
        openPart dir io offer finalPath = (.ok (opened offer finalPath i), dir') := by
  unfold openPart
  dsimp only
  split
  · exact .inl ⟨_, rfl⟩
  · split
    · exact .inl ⟨_, rfl⟩
    · rename_i i dir' h
      exact .inr ⟨i, dir', h, rfl⟩

/-- An accepted offer is valid, and the only change is a new temporary file. -/
theorem accept_cases (dir : Dir) (io : Io) (offer : FileOffer) (config : FileTransferConfig) :
    (∃ e, accept dir io offer config = (.error e, dir)) ∨
      ∃ finalPath i dir', validateOffer offer config = .ok () ∧
        uniqueDestinationPath dir offer.fileName = .ok finalPath ∧
        dir.createNew (partPathFor finalPath offer.transferId) = some (i, dir') ∧
        accept dir io offer config = (.ok (opened offer finalPath i), dir') := by
  unfold accept
  split
  · exact .inl ⟨_, rfl⟩
  · rename_i hvalid
    split
    · exact .inl ⟨_, rfl⟩
    · split
      · exact .inl ⟨_, rfl⟩
      · rename_i finalPath hpath
        rcases openPart_cases dir io offer finalPath with ⟨e, he⟩ | ⟨i, dir', hnew, he⟩
        · exact .inl ⟨e, he⟩
        · exact .inr ⟨finalPath, i, dir', hvalid, hpath, hnew, he⟩

/-- Nothing happens, or something is appended to the open file: the whole chunk, or, where the
write fails, a proper part of it. -/
theorem writeChunk_cases (w : IncomingFileWriter) (dir : Dir) (io : Io) (offset : UInt64)
    (data : Bytes) :
    (∃ e, w.writeChunk dir io offset data = (.error e, dir)) ∨
      ∃ i, w.file = some i ∧ offset = w.written ∧
        saturatingAdd w.written data.length ≤ w.offer.sizeBytes ∧
        ((w.writeChunk dir io offset data =
            (.ok { w with
              hasher := w.hasher ++ data
              written := saturatingAdd w.written data.length }, dir.append i data) ∧
            (data = [] ∨ (dir.files i).length + data.length ≤ maxFileLen)) ∨
          ∃ e bytes, w.writeChunk dir io offset data = (.error e, dir.append i bytes) ∧
            bytes.length < data.length) := by
  unfold writeChunk
  split
  · exact .inl ⟨_, rfl⟩
  · rename_i hoff
    dsimp only
    split
    · exact .inl ⟨_, rfl⟩
    · rename_i hsize
      split
      · exact .inl ⟨_, rfl⟩
      · rename_i i hfile
        refine .inr ⟨i, hfile, by simpa using hoff, UInt64.not_lt.1 hsize, ?_⟩
        rcases writeOut_cases (dir.files i).length io data with
          ⟨h, hlen⟩ | ⟨e, bytes, h, hlen⟩
        · exact .inl ⟨by simp [writeAll, h], hlen⟩
        · exact .inr ⟨.io e, bytes, by simp [writeAll, h], hlen⟩

variable [Sha256]

theorem check_ok (h : w.check io = .ok ()) :
    w.written = w.offer.sizeBytes ∧ sha256Hex w.hasher = w.offer.sha256Hex := by
  unfold check at h
  split at h
  · simp at h
  · rename_i hsize
    split at h
    · simp at h
    · dsimp only at h
      split at h
      · simp at h
      · rename_i hhash
        exact ⟨by simpa using hsize, by simpa using hhash⟩

/-- The file a successful `finish` reports. -/
def received (w : IncomingFileWriter) : ReceivedFile where
  transferId := w.offer.transferId
  fileName := w.offer.fileName
  path := w.finalPath
  sizeBytes := w.written
  sha256Hex := w.offer.sha256Hex

/-- Nothing happens, or the checks pass and the temporary file is renamed. -/
theorem tryFinish_cases (w : IncomingFileWriter) (dir : Dir) (io : Io) :
    (∃ e, w.tryFinish dir io = (.error e, dir)) ∨
      ∃ dir', w.check io = .ok () ∧ io.rename = none ∧
        dir.rename w.partPath w.finalPath = some dir' ∧
        w.tryFinish dir io = (.ok w.received, dir') := by
  unfold tryFinish
  split
  · exact .inl ⟨_, rfl⟩
  · rename_i hcheck
    split
    · exact .inl ⟨_, rfl⟩
    · rename_i hio
      split
      · exact .inl ⟨_, rfl⟩
      · rename_i dir' hdir
        exact .inr ⟨dir', hcheck, hio, hdir, rfl⟩

theorem tryFinish_ok (hcheck : w.check io = .ok ()) (hio : io.rename = none)
    (hdir : dir.rename w.partPath w.finalPath = some dir') :
    w.tryFinish dir io = (.ok w.received, dir') := by
  simp only [tryFinish, hcheck, hio, hdir, received]

end

end IncomingFileWriter

end ClipBridge
