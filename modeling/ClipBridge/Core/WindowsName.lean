import ClipBridge.Core.SafeName

/-!
# Received files under Windows

What the names of received files stand for on Windows, where `Path::join` and the file system read
more into a name than separators: a drive prefix replaces the base, a colon selects a stream of a
file, and a reserved stem stands for a device, also with spaces after it.

* `WindowsPath`, `join`, `withFileName` — paths, as far as received files need them.
* `InsideFile` — a direct child of the destination directory, and an ordinary file.
* `uniqueDestinationPath`, `partPathFor` — the two paths of a file, on these paths.
* `inside_iff` — which offers are received inside the directory, whatever it contains.
-/

namespace ClipBridge

/-! ## Paths -/

/-- A path that starts from the destination directory. -/
inductive WindowsPath where
  /-- A component below the destination directory. -/
  | child (name : List Char)
  /-- `X:` and a component: relative to the current directory of a drive. -/
  | onDrive (letter : Char) (name : List Char)
  deriving DecidableEq, Repr

namespace WindowsPath

/-- `Path::join` of the destination directory and a name without separators: a drive prefix
replaces the directory. -/
def join : List Char → WindowsPath
  | x :: ':' :: rest => if x.isAlpha then .onDrive x rest else .child (x :: ':' :: rest)
  | name => .child name

/-- `Path::file_name`: a drive alone has none. -/
def fileName : WindowsPath → Option (List Char)
  | .child name => some name
  | .onDrive _ name => if name = [] then none else some name

/-- `Path::with_file_name`: the parent, joined with the new name. -/
def withFileName (p : WindowsPath) (name : List Char) : WindowsPath :=
  match p, join name with
  | .onDrive x _, .child name => .onDrive x name
  | _, joined => joined

/-! ## What a name stands for -/

/-- The names of devices, the two of the console's buffers among them; the three superscript digits
count as digits. -/
def deviceNames : List String :=
  ["CON", "CONIN$", "CONOUT$", "PRN", "AUX", "NUL", "COM1", "COM2", "COM3", "COM4", "COM5", "COM6",
    "COM7", "COM8", "COM9", "COM¹", "COM²", "COM³", "LPT1", "LPT2", "LPT3", "LPT4", "LPT5", "LPT6",
    "LPT7", "LPT8", "LPT9", "LPT¹", "LPT²", "LPT³"]

/-- Up to the first dot or colon, without the spaces at the end. -/
def deviceStem (name : List Char) : List Char :=
  ((name.takeWhile fun c => c ≠ '.' && c ≠ ':').rdropWhile (· = ' ')).map Char.toUpper

def isDevice (name : List Char) : Bool := deviceNames.contains (String.ofList (deviceStem name))

/-- A direct child of the destination directory that stands for an ordinary file: for no stream of
a file, and for no device. -/
def InsideFile (p : WindowsPath) : Prop :=
  ∃ name, p = .child name ∧ ':' ∉ name ∧ isDevice name = false

/-! ## The paths of a received file -/

/-- The loop of `unique_destination_path`, where `present` says which paths exist. -/
def uniqueDestinationPath (present : WindowsPath → Bool) (fileName : String) :
    Except FileTransferError WindowsPath :=
  match sanitizeFileName fileName with
  | .error e => .error e
  | .ok safeName =>
      match ((candidates safeName).map fun name => join name.toList).find? (!present ·) with
      | some path => .ok path
      | none => .error (.io "too many same-name files")

def partPathFor (finalPath : WindowsPath) (transferId : String) : WindowsPath :=
  let fileName := finalPath.fileName.getD "incoming".toList
  finalPath.withFileName (fileName ++ '.' :: (safeId transferId).toList ++ ".part".toList)

/-- The name, without the spaces and dots around it, has no colon, and its stem is no device. -/
def PlainName (name : String) : Prop :=
  ':' ∉ trimMatches isPadding name.toList ∧ isDevice (trimMatches isPadding name.toList) = false

instance (name : String) : Decidable (PlainName name) := inferInstanceAs (Decidable (_ ∧ _))

/-! ## Devices -/

/-- What follows the first dot does not matter. -/
theorem deviceStem_append {front rest : List Char} (h : '.' ∈ front) :
    deviceStem (front ++ rest) = deviceStem front := by
  unfold deviceStem
  rw [takeWhile_append_of_mem h (by decide)]

/-- Nor does the dot. -/
theorem deviceStem_dot (name : List Char) : deviceStem (name ++ ['.']) = deviceStem name := by
  unfold deviceStem
  by_cases hall : ∀ c ∈ name, (c ≠ '.' && c ≠ ':') = true
  · rw [List.takeWhile_append_of_pos hall, List.takeWhile_eq_self_iff.2 hall,
      List.takeWhile_cons_of_neg (by decide), List.append_nil]
  · push Not at hall
    obtain ⟨c, hc, hp⟩ := hall
    rw [takeWhile_append_of_mem hc (by simpa using hp)]

theorem isDevice_dot (name rest : List Char) : isDevice (name ++ '.' :: rest) = isDevice name := by
  have hstem : deviceStem (name ++ '.' :: rest) = deviceStem name := by
    rw [List.append_cons, deviceStem_append (by simp), deviceStem_dot]
  rw [isDevice, hstem, isDevice]

/-- A stem with a number in it is no device. -/
theorem not_device_of_numbered {front : List Char} (i : Nat) (hdot : '.' ∉ front)
    (hcolon : ':' ∉ front) : isDevice (front ++ numberChars i) = false := by
  have hkeep : ∀ c ∈ front ++ numberChars i, (c ≠ '.' && c ≠ ':') = true := by
    intro c hc
    rw [Bool.and_eq_true, decide_eq_true_eq, decide_eq_true_eq]
    rcases List.mem_append.1 hc with hc | hc
    · exact ⟨fun h => hdot (h ▸ hc), fun h => hcolon (h ▸ hc)⟩
    · exact (good_of_mem_numberChars hc).2
  have hback : (front ++ numberChars i).rdropWhile (· = ' ') = front ++ numberChars i := by
    rw [numberChars, ← List.cons_append, ← List.cons_append, ← List.append_assoc]
    exact List.rdropWhile_concat_neg _ _ _ (by decide)
  have hparen : '(' ∈ deviceStem (front ++ numberChars i) := by
    unfold deviceStem
    rw [List.takeWhile_eq_self_iff.2 hkeep, hback]
    exact List.mem_map.2 ⟨'(', by simp [numberChars], by decide⟩
  rw [isDevice, ← Bool.not_eq_true]
  intro hdevice
  have hall : ∀ s ∈ deviceNames, '(' ∉ s.toList := by decide
  have hnone := hall _ (List.contains_iff_mem.1 hdevice)
  rw [String.toList_ofList] at hnone
  exact hnone hparen

/-! ## The two paths of a file -/

/-- A name that is joined with the directory stands for a file in it exactly if it has no colon and
is no device. -/
theorem insideFile_join {name : List Char} :
    InsideFile (join name) ↔ ':' ∉ name ∧ isDevice name = false := by
  have hjoin : ∀ n, join name = .child n → n = name := by
    intro n h
    unfold join at h
    split at h
    · split at h
      · cases h
      · cases h
        rfl
    · cases h
      rfl
  constructor
  · rintro ⟨n, h, hplain⟩
    rwa [← hjoin n h]
  · rintro ⟨hcolon, hdevice⟩
    refine ⟨name, ?_, hcolon, hdevice⟩
    unfold join
    split
    · simp at hcolon
    · rfl

theorem colon_not_mem_safeId (transferId : String) : ':' ∉ (safeId transferId).toList := by
  unfold safeId
  rw [String.toList_ofList]
  intro h
  have hkeep := List.of_mem_filter (List.mem_of_mem_take h)
  exact absurd hkeep (by decide)

/-- The temporary file is beside the final one, and of the same kind. -/
theorem insideFile_part {p : WindowsPath} (h : InsideFile p) (transferId : String) :
    InsideFile (partPathFor p transferId) := by
  obtain ⟨name, rfl, hcolon, hdevice⟩ := h
  show InsideFile (withFileName (.child name) _)
  unfold withFileName
  have hpart : InsideFile (join
      (name ++ '.' :: (safeId transferId).toList ++ ".part".toList)) := by
    rw [insideFile_join, List.append_assoc, List.cons_append, isDevice_dot]
    refine ⟨?_, hdevice⟩
    rw [List.mem_append, List.mem_cons, List.mem_append]
    rintro (h | h | h | h)
    · exact hcolon h
    · exact absurd h (by decide)
    · exact colon_not_mem_safeId transferId h
    · exact absurd h (by decide)
  exact hpart

/-- A number makes a plain name neither a stream nor a device. -/
theorem plain_numbered {name : String} (h : SafeName name) (hcolon : ':' ∉ name.toList)
    (hdevice : isDevice name.toList = false) (i : Nat) :
    ':' ∉ (numberedName name i).toList ∧ isDevice (numberedName name i).toList = false := by
  have hnumber : ':' ∉ numberChars i := fun h => (good_of_mem_numberChars h).2.2 rfl
  rcases numberedName_cases h i with ⟨stem, ext, hname, -, -, hnum⟩ | ⟨hdot, hnum⟩
  · rw [hname, List.mem_append, List.mem_cons] at hcolon
    push Not at hcolon
    rw [hname, isDevice_dot] at hdevice
    rw [hnum]
    constructor
    · simp [hcolon, hnumber]
    · rw [isDevice_dot]
      by_cases hdot : '.' ∈ stem
      · rw [isDevice, deviceStem_append hdot]
        exact hdevice
      · exact not_device_of_numbered i hdot hcolon.1
  · rw [hnum]
    exact ⟨by simp [hcolon, hnumber], not_device_of_numbered i hdot hcolon⟩

/-- **The files of an offer that is accepted are ordinary files inside the destination directory,
whatever exists there and whatever the transfer id, exactly if its name, without the spaces and
dots around it, has no colon and no device as its stem.** -/
theorem inside_iff {offer : FileOffer} {config : FileTransferConfig}
    (h : validateOffer offer config = .ok ()) :
    (∀ present path transferId, uniqueDestinationPath present offer.fileName = .ok path →
      InsideFile path ∧ InsideFile (partPathFor path transferId)) ↔ PlainName offer.fileName := by
  obtain ⟨-, ⟨safeName, hname⟩, -⟩ := validateOffer_iff.1 h
  have hsafe : SafeName safeName := safeName_iff.2 (sanitizeFileName_idem hname)
  have htrim : trimMatches isPadding offer.fileName.toList = safeName.toList :=
    (sanitizeFileName_ok hname).2.1
  have hplain : PlainName offer.fileName ↔
      ':' ∉ safeName.toList ∧ isDevice safeName.toList = false := by
    rw [PlainName, htrim]
  rw [hplain, ← insideFile_join]
  constructor
  · intro hall
    -- Where nothing exists, the name is taken as it is.
    refine (hall (fun _ => false) (join safeName.toList) "" ?_).1
    simp [uniqueDestinationPath, hname, candidates]
  · rw [insideFile_join]
    rintro ⟨hcolon, hdevice⟩ present path transferId hpath
    have hinside : InsideFile path := by
      unfold uniqueDestinationPath at hpath
      rw [hname] at hpath
      dsimp only at hpath
      split at hpath
      · rename_i hfind
        cases hpath
        obtain ⟨name, hmem, rfl⟩ := List.mem_map.1 (List.mem_of_find?_eq_some hfind)
        rw [insideFile_join]
        rcases List.mem_cons.1 hmem with rfl | hmem
        · exact ⟨hcolon, hdevice⟩
        · obtain ⟨i, -, rfl⟩ := List.mem_map.1 hmem
          exact plain_numbered hsafe hcolon hdevice i
      · cases hpath
    exact ⟨hinside, insideFile_part hinside transferId⟩

/-! ## Offers that are accepted -/

def offerNamed (fileName : String) : FileOffer where
  transferId := "t-1"
  sourceDeviceId := "laptop"
  targetDeviceId := "pc"
  fileName := fileName
  sizeBytes := 3
  modifiedUnixMillis := none
  mimeType := none
  sha256Hex := @sha256Hex abcSha256 [97, 98, 99]

theorem report_inside : InsideFile (.child "report.pdf".toList) ∧
    InsideFile (partPathFor (.child "report.pdf".toList) "t-1") :=
  (@inside_iff (offerNamed "report.pdf") {} (by decide +kernel)).2 (by decide +kernel)
    (fun _ => false) (.child "report.pdf".toList) "t-1" (by decide +kernel)

/-- A drive, a stream, a device with a space after it, and a device the program does not know: all
are accepted. -/
theorem driveStreamDevice_outside :
    (∀ name ∈ ["C:evil.txt", "notes.txt:hidden", "CON .txt", "conin$"],
      validateOffer (offerNamed name) {} = .ok () ∧ ¬ PlainName name) ∧
    ¬ ∀ offer config, validateOffer offer config = .ok () →
      ∀ present path transferId, uniqueDestinationPath present offer.fileName = .ok path →
        InsideFile path ∧ InsideFile (partPathFor path transferId) := by
  constructor
  · decide +kernel
  · intro h
    have hpath : uniqueDestinationPath (fun _ => false) "C:evil.txt" =
        .ok (.onDrive 'C' "evil.txt".toList) := by decide +kernel
    obtain ⟨⟨name, hname, -⟩, -⟩ := h (offerNamed "C:evil.txt") {} (by decide +kernel)
      (fun _ => false) _ "t-1" hpath
    cases hname

end WindowsPath

end ClipBridge
