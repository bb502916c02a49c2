import ClipBridge.Core.Basic
import Mathlib.Data.List.DropRight

/-!
# The names of received files

Following `core/src/file_transfer.rs`: which names a peer may offer, what is kept of them, and
the names a receiver tries when one is taken. Paths are names in the destination directory.

* `sanitizeFileName` — accept a name and trim it, or say why not; `sanitizeFileName_idem`.
* `candidates` — the name itself, then `name (1).ext` to `name (9999).ext`.
* `partPathFor` — the temporary name beside a final one; `partPathFor_ne`.
-/

namespace ClipBridge

/-- The text of an `std::io::Error`. -/
abbrev IoError := String

inductive FileTransferError where
  | io (e : IoError)
  | notRegularFile
  | fileTooLarge (size limit : UInt64)
  | invalidFileName (name : String)
  | reservedFileName (name : String)
  | invalidSha256 (sha256Hex : String)
  | offsetMismatch (expected got : UInt64)
  | sizeMismatch (expected got : UInt64)
  | hashMismatch (expected got : String)
  | rejected (reason : String)
  | canceled (reason : String)
  | unexpectedFrame (frame : String)
  | peerMismatch (expected got : String)
  deriving DecidableEq, Repr

/-- The text a peer is sent as the reason. -/
def FileTransferError.message : FileTransferError → String
  | .io e => "io: " ++ e
  | .notRegularFile => "path is not a regular file"
  | .fileTooLarge size limit =>
      "file exceeds configured limit: " ++ toString size.toNat ++ " > " ++ toString limit.toNat
  | .invalidFileName name => "invalid file name: " ++ name
  | .reservedFileName name => "reserved file name: " ++ name
  | .invalidSha256 sha256Hex => "invalid sha256: " ++ sha256Hex
  | .offsetMismatch expected got =>
      "unexpected chunk offset: expected " ++ toString expected.toNat ++ ", got " ++
        toString got.toNat
  | .sizeMismatch expected got =>
      "size mismatch: expected " ++ toString expected.toNat ++ ", got " ++ toString got.toNat
  | .hashMismatch expected got => "hash mismatch: expected " ++ expected ++ ", got " ++ got
  | .rejected reason => "transfer rejected: " ++ reason
  | .canceled reason => "transfer canceled: " ++ reason
  | .unexpectedFrame frame => "unexpected lan frame: " ++ frame
  | .peerMismatch expected got =>
      "peer device mismatch: expected " ++ expected ++ ", got " ++ got

/-! ## Sanitizing -/

def isWindowsReservedName (stem : List Char) : Bool :=
  ["CON", "PRN", "AUX", "NUL", "COM1", "COM2", "COM3", "COM4", "COM5", "COM6", "COM7", "COM8",
    "COM9", "LPT1", "LPT2", "LPT3", "LPT4", "LPT5", "LPT6", "LPT7", "LPT8", "LPT9"].contains
    (String.ofList stem)

/-- Neither a separator nor a control character. -/
def isNameChar (c : Char) : Bool := !(c == '/' || c == '\\' || isControl c)

/-- A space or a dot: trimmed from both ends of a name. -/
def isPadding (c : Char) : Bool := c == ' ' || c == '.'

/-- Up to the first dot, in upper case. -/
def reservedStem (trimmed : List Char) : List Char := (trimmed.takeWhile (· ≠ '.')).map Char.toUpper

def sanitizeFileName (name : String) : Except FileTransferError String :=
  if name = "" ∨ name = "." ∨ name = ".." then .error (.invalidFileName name)
  else if ¬ name.toList.all isNameChar then .error (.invalidFileName name)
  else
    let trimmed := trimMatches isPadding name.toList
    if trimmed = [] then .error (.invalidFileName name)
    else if isWindowsReservedName (reservedStem trimmed) then .error (.reservedFileName name)
    else .ok (String.ofList trimmed)

/-! ## The names tried for one file -/

/-- Split at the last dot, if there is something on both sides of it. -/
def splitNameExt (name : List Char) : List Char × Option (List Char) :=
  let ext := (name.reverse.takeWhile (· ≠ '.')).reverse
  let stem := (name.reverse.dropWhile (· ≠ '.')).tail.reverse
  if '.' ∈ name ∧ stem ≠ [] ∧ ext ≠ [] then (stem, some ext) else (name, none)

def numberedName (name : String) (i : Nat) : String :=
  match splitNameExt name.toList with
  | (stem, some ext) =>
      String.ofList stem ++ " (" ++ toString i ++ ")." ++ String.ofList ext
  | (stem, none) => String.ofList stem ++ " (" ++ toString i ++ ")"

/-- The names `unique_destination_path` tries, in order. -/
def candidates (safeName : String) : List String :=
  safeName :: (List.range' 1 9999).map (numberedName safeName)

/-- At most 64 letters, digits and hyphens of a transfer id. -/
def safeId (transferId : String) : String :=
  String.ofList ((transferId.toList.filter fun c => c.isAlphanum || c == '-').take 64)

def partPathFor (finalPath transferId : String) : String :=
  finalPath ++ "." ++ safeId transferId ++ ".part"

/-! ## What trimming leaves -/

section

variable {p : Char → Bool} {cs : List Char}

theorem trimMatches_eq (p : Char → Bool) (cs : List Char) :
    trimMatches p cs = (cs.dropWhile p).rdropWhile p := rfl

theorem trimMatches_eq_nil : trimMatches p cs = [] ↔ ∀ c ∈ cs, p c = true := by
  rw [trimMatches_eq, List.rdropWhile_eq_nil_iff]
  constructor
  · intro h
    -- The first character that stays would not satisfy `p`.
    by_contra hne
    have hdrop : cs.dropWhile p ≠ [] := fun hnil => hne (List.dropWhile_eq_nil_iff.1 hnil)
    have := h _ (List.head_mem hdrop)
    simp [List.head_dropWhile_not] at this
  · exact fun h c hc => h c ((List.dropWhile_sublist p).mem hc)

theorem mem_of_mem_trimMatches {c : Char} (h : c ∈ trimMatches p cs) : c ∈ cs :=
  (List.dropWhile_sublist p).mem ((List.rdropWhile_prefix p _).mem h)

/-- What is left is not trimmed any further: it starts where `cs.dropWhile p` does. -/
theorem trimMatches_idem : trimMatches p (trimMatches p cs) = trimMatches p cs := by
  have hpre : trimMatches p cs <+: cs.dropWhile p := List.rdropWhile_prefix p _
  have hdrop : (trimMatches p cs).dropWhile p = trimMatches p cs := by
    rw [List.dropWhile_eq_self_iff]
    intro hl
    rw [← List.head_eq_getElem (List.ne_nil_of_length_pos hl), hpre.head]
    simp [List.head_dropWhile_not]
  rw [trimMatches_eq p (trimMatches p cs), hdrop, trimMatches_eq, List.rdropWhile_idempotent]

end

/-! ## What sanitizing leaves -/

theorem sanitizeFileName_ok {name safeName : String}
    (h : sanitizeFileName name = .ok safeName) :
    name.toList.all isNameChar ∧ trimMatches isPadding name.toList = safeName.toList ∧
      safeName.toList ≠ [] ∧ isWindowsReservedName (reservedStem safeName.toList) = false := by
  unfold sanitizeFileName at h
  split at h
  · simp at h
  · split at h
    · simp at h
    · rename_i hall
      dsimp only at h
      split at h
      · simp at h
      · split at h
        · simp at h
        · rename_i hne hres
          obtain rfl := Except.ok.inj h
          rw [String.toList_ofList]
          exact ⟨by simpa using hall, rfl, hne, by simpa using hres⟩

/-- What is kept of a name is a name that is accepted as it is. -/
theorem sanitizeFileName_idem {name safeName : String}
    (h : sanitizeFileName name = .ok safeName) : sanitizeFileName safeName = .ok safeName := by
  obtain ⟨hall, htrim, hne, hres⟩ := sanitizeFileName_ok h
  have hfix : trimMatches isPadding safeName.toList = safeName.toList := by
    rw [← htrim, trimMatches_idem]
  have hdots : ¬ (safeName = "" ∨ safeName = "." ∨ safeName = "..") := by
    rintro (rfl | rfl | rfl)
    · exact hne (by decide)
    · exact hne (hfix ▸ by decide)
    · exact hne (hfix ▸ by decide)
  have hsafe : safeName.toList.all isNameChar := by
    rw [List.all_eq_true] at hall ⊢
    intro c hc
    exact hall c (mem_of_mem_trimMatches (htrim ▸ hc))
  unfold sanitizeFileName
  rw [if_neg hdots, if_neg (by simpa using hsafe)]
  dsimp only
  rw [hfix, if_neg hne, if_neg (by simp [hres]), String.ofList_toList]

/-! ## Temporary names -/

theorem length_partPathFor (finalPath transferId : String) :
    finalPath.toList.length < (partPathFor finalPath transferId).toList.length := by
  simp [partPathFor]

theorem partPathFor_ne (finalPath transferId : String) :
    finalPath ≠ partPathFor finalPath transferId := fun h =>
  absurd (congrArg (·.toList.length) h) (Nat.ne_of_lt (length_partPathFor finalPath transferId))

end ClipBridge
