import ClipBridge.Core.FileTransfer
import ClipBridge.Lib.Machine
import ClipBridge.Lib.SharedDirectory

/-!
# Concurrent incoming transfers

Any number of `IncomingFileWriter`s work in one destination directory, and their steps interleave.
A step is one access to the directory: each look at a candidate name, the creation of the
temporary file, a write, the rename, the removal.

* `Task.act` — what one writer does in a step; `Writers.step` — the system.
* `Writers.Safe` — no transfer and no file that was there before loses anything.
* `Writers.Clear` — a rename finds nothing at its final path, and the file it moves is whole.
* `safe_iff` — a run is safe throughout exactly if each of its renames is clear.
* `undisturbed` — alone, the steps of a transfer do what the sequential functions do.

`candidate.exists()` at accept time and the rename at finish time are different steps, so the
condition is not one that the code establishes.
-/

namespace ClipBridge

inductive Stage where
  | writing
  /-- `finish` returned an error, and the destructor has not run yet. -/
  | refused
  /-- Dropped, and `remove_file` failed. -/
  | abandoned
  deriving DecidableEq, Repr

/-- A writer that has its temporary file. Beside the writer it is recorded what its writes put
into the file, and whether one of them failed part-way. -/
structure LiveWriter where
  writer : IncomingFileWriter
  stored : Bytes
  torn : Bool
  stage : Stage
  deriving DecidableEq, Repr

/-- How far one incoming transfer is. -/
inductive Task where
  | idle
  /-- In the loop of `unique_destination_path`, with the candidates not looked at yet. -/
  | probing (offer : FileOffer) (rest : List String)
  | opening (offer : FileOffer) (finalPath : String)
  | live (l : LiveWriter)
  /-- `finish` returned `file`; the transfer's bytes are recorded. -/
  | finished (file : ReceivedFile) (i : Nat) (bytes : Bytes)
  | ended
  deriving DecidableEq, Repr

inductive Op where
  | accept (offer : FileOffer) (config : FileTransferConfig) (io : Io)
  | probe
  | openPart (io : Io)
  | writeChunk (io : Io) (offset : UInt64) (data : Bytes)
  | finish (io : Io)
  | drop (io : Io)

namespace Task

/-- The first part of `accept`, up to the loop over the candidates. -/
def accepting (offer : FileOffer) (config : FileTransferConfig) (io : Io) : Task :=
  match validateOffer offer config, io.createDir, sanitizeFileName offer.fileName with
  | .ok _, none, .ok safeName => .probing offer (candidates safeName)
  | _, _, _ => .ended

/-- What a write put into the open file. -/
def wrote (w : IncomingFileWriter) (dir dir' : Dir) : Bytes :=
  match w.file with
  | none => []
  | some i => (dir'.files i).drop (dir.files i).length

variable [Sha256]

/-- One step of one writer. A writer that is gone does nothing. -/
def act (dir : Dir) : Task → Op → Dir × Task
  | .idle, .accept offer config io => (dir, accepting offer config io)
  | .probing _ [], .probe => (dir, .ended)
  | .probing offer (path :: rest), .probe =>
      (dir, if dir.has path then .probing offer rest else .opening offer path)
  | .opening offer path, .openPart io =>
      match IncomingFileWriter.openPart dir io offer path with
      | (.ok w, dir) => (dir, .live ⟨w, [], false, .writing⟩)
      | (.error _, dir) => (dir, .ended)
  | .live ⟨w, stored, torn, .writing⟩, .writeChunk io offset data =>
      match w.writeChunk dir io offset data with
      | (.ok w', dir') => (dir', .live ⟨w', stored ++ wrote w dir dir', torn, .writing⟩)
      | (.error _, dir') =>
          (dir', .live ⟨w, stored ++ wrote w dir dir', torn || wrote w dir dir' ≠ [], .writing⟩)
  | .live ⟨w, stored, torn, .writing⟩, .finish io =>
      match w.tryFinish dir io with
      | (.ok file, dir) => (dir, .finished file (w.file.getD 0) w.hasher)
      | (.error _, dir) => (dir, .live ⟨w, stored, torn, .refused⟩)
  | .live ⟨w, stored, torn, .abandoned⟩, .drop _ => (dir, .live ⟨w, stored, torn, .abandoned⟩)
  | .live ⟨w, stored, torn, _⟩, .drop io =>
      (w.drop dir io, if io.remove.isSome then .live ⟨w, stored, torn, .abandoned⟩ else .ended)
  | task, _ => (dir, task)

end Task

/-- The directory, and every incoming transfer by its number. -/
structure Writers where
  dir : Dir
  tasks : Nat → Task

namespace Writers

/-- A directory with whatever is in it, and no transfer yet. -/
def start (dir : Dir) : Writers := ⟨dir, fun _ => .idle⟩

/-- A step: the number of the transfer, and what it does. -/
abbrev Event := Nat × Op

/-- Everything that was there before, every received file and every temporary file is there
under its name, the same file with exactly the bytes it has to hold; received files have
different paths, and none the path of a file that was there before. -/
structure Safe (dir₀ : Dir) (s : Writers) : Prop where
  before : dir₀.Keeps s.dir
  received : ∀ a file i bytes, s.tasks a = .finished file i bytes →
    s.dir.entries file.path = some i ∧ s.dir.files i = bytes ∧ dir₀.has file.path = false
  distinct : ∀ a b file i bytes file' i' bytes', s.tasks a = .finished file i bytes →
    s.tasks b = .finished file' i' bytes' → a ≠ b → file.path ≠ file'.path
  part : ∀ a l, s.tasks a = .live l → ∃ i, l.writer.file = some i ∧
    s.dir.entries l.writer.partPath = some i ∧ s.dir.files i = l.stored

variable [Sha256]

def step (s : Writers) (e : Event) : Writers :=
  let r := (s.tasks e.1).act s.dir e.2
  ⟨r.1, Function.update s.tasks e.1 r.2⟩

/-- A `finish` that gets to its rename finds nothing at the final path, and no write of the
transfer has failed part-way. -/
def Clear (s : Writers) (e : Event) : Prop :=
  ∀ w stored torn io, s.tasks e.1 = .live ⟨w, stored, torn, .writing⟩ → e.2 = .finish io →
    w.check io = .ok () → io.rename = none → s.dir.has w.finalPath = false ∧ torn = false

end Writers

/-! ## What a step does to the directory -/

/-- What holds of every writer that has its temporary file. -/
structure LiveWriter.Ok (l : LiveWriter) : Prop where
  file : ∃ i, l.writer.file = some i
  unfinished : l.writer.finished = false
  partPath : l.writer.partPath = partPathFor l.writer.finalPath l.writer.transferId
  whole : l.torn = false → l.stored = l.writer.hasher
  more : l.torn = true → l.writer.hasher.length < l.stored.length

namespace Task

/-- The file of a transfer: its temporary file, and from its `finish` on the received one. -/
def owns : Task → Option (Directory.Owned String UInt8)
  | .live l => l.writer.file.map fun i => ⟨l.writer.partPath, i, l.stored⟩
  | .finished file i bytes => some ⟨file.path, i, bytes⟩
  | _ => none

def Ok (task : Task) : Prop := ∀ l, task = .live l → l.Ok

@[simp] theorem ok_live {l : LiveWriter} : (Task.live l).Ok ↔ l.Ok := by
  simp [Ok]

theorem owns_live {l : LiveWriter} {i : Nat} (h : l.writer.file = some i) :
    (Task.live l).owns = some ⟨l.writer.partPath, i, l.stored⟩ := by
  simp [owns, h]

theorem wrote_append {w : IncomingFileWriter} {dir : Dir} {i : Nat} {bytes : Bytes}
    (h : w.file = some i) : wrote w dir (dir.append i bytes) = bytes := by
  simp [wrote, h, Directory.append_files]

theorem wrote_self (w : IncomingFileWriter) (dir : Dir) : wrote w dir dir = [] := by
  unfold wrote
  split <;> simp

variable [Sha256]

/-- All that a step of a transfer can do to the directory. -/
inductive Effect (dir : Dir) (task : Task) (op : Op) : Dir → Task → Prop
  | still {task' : Task} (hown : task'.owns = task.owns) : Effect dir task op dir task'
  | create {dir' : Dir} {task' : Task} {n : String} {i : Nat} (hown : task.owns = none)
      (hdir : dir.createNew n = some (i, dir')) (hown' : task'.owns = some ⟨n, i, []⟩) :
      Effect dir task op dir' task'
  | append {task' : Task} {o : Directory.Owned String UInt8} (bytes : Bytes)
      (hown : task.owns = some o) (hown' : task'.owns = some ⟨o.name, o.file, o.bytes ++ bytes⟩) :
      Effect dir task op (dir.append o.file bytes) task'
  | rename {dir' : Dir} {w : IncomingFileWriter} {stored : Bytes} {torn : Bool} {i : Nat} {io : Io}
      (htask : task = .live ⟨w, stored, torn, .writing⟩) (hop : op = .finish io)
      (hcheck : w.check io = .ok ()) (hio : io.rename = none) (hfile : w.file = some i)
      (hdir : dir.rename w.partPath w.finalPath = some dir') :
      Effect dir task op dir' (.finished w.received i w.hasher)
  | remove {dir' : Dir} {task' : Task} {o : Directory.Owned String UInt8}
      (hown : task.owns = some o) (hdir : dir' = (dir.remove o.name).getD dir)
      (hown' : task'.owns = none) : Effect dir task op dir' task'

end Task

namespace LiveWriter.Ok

variable {w : IncomingFileWriter} {stored : Bytes} {torn : Bool} {stage : Stage}

/-- A chunk taken. -/
theorem took (h : LiveWriter.Ok ⟨w, stored, torn, stage⟩) (data : Bytes) (written : UInt64) :
    LiveWriter.Ok
      ⟨{ w with hasher := w.hasher ++ data, written }, stored ++ data, torn, stage⟩ where
  file := h.file
  unfinished := h.unfinished
  partPath := h.partPath
  whole := fun ht => congrArg (· ++ data) (h.whole ht)
  more := fun ht => by
    rw [List.length_append, List.length_append]
    exact Nat.add_lt_add_right (h.more ht) _

/-- A write failed after `bytes`. -/
theorem failed (h : LiveWriter.Ok ⟨w, stored, torn, stage⟩) (bytes : Bytes) :
    LiveWriter.Ok ⟨w, stored ++ bytes, torn || bytes ≠ [], stage⟩ := by
  cases bytes with
  | nil => simpa using h
  | cons b bytes =>
      have hle : w.hasher.length ≤ stored.length := by
        cases htorn : torn with
        | true => exact Nat.le_of_lt (h.more htorn)
        | false => exact Nat.le_of_eq (congrArg _ (h.whole htorn).symm)
      exact {
        file := h.file
        unfinished := h.unfinished
        partPath := h.partPath
        whole := fun ht => by simp at ht
        more := fun _ => by
          rw [List.length_append, List.length_cons]
          exact Nat.lt_of_le_of_lt hle (Nat.lt_add_of_pos_right (Nat.succ_pos _)) }

end LiveWriter.Ok

namespace Task

theorem owns_accepting (offer : FileOffer) (config : FileTransferConfig) (io : Io) :
    (accepting offer config io).owns = none ∧ (accepting offer config io).Ok := by
  unfold accepting
  split <;> simp [owns, Ok]

section
variable [Sha256] {dir : Dir} {w : IncomingFileWriter} {stored : Bytes} {torn : Bool}

theorem act_writeChunk (hok : LiveWriter.Ok ⟨w, stored, torn, .writing⟩) (io : Io)
    (offset : UInt64) (data : Bytes) {r : Dir × Task}
    (hr : act dir (.live ⟨w, stored, torn, .writing⟩) (.writeChunk io offset data) = r) :
    r.2.Ok ∧
      Effect dir (.live ⟨w, stored, torn, .writing⟩) (.writeChunk io offset data) r.1 r.2 := by
  subst hr
  obtain ⟨i, hi⟩ := hok.file
  have hown := owns_live (l := ⟨w, stored, torn, .writing⟩) hi
  simp only [act]
  rcases w.writeChunk_cases dir io offset data with
    ⟨e, he⟩ | ⟨j, hj, -, -, ⟨he, -⟩ | ⟨e, bytes, he, -⟩⟩
  · rw [he]
    simp only [wrote_self]
    exact ⟨ok_live.2 (hok.failed []), .still (by simp [owns])⟩
  · obtain rfl : i = j := Option.some.inj (hi.symm.trans hj)
    rw [he]
    simp only [wrote_append hi]
    exact ⟨ok_live.2 (hok.took data _), .append data hown (owns_live hi)⟩
  · obtain rfl : i = j := Option.some.inj (hi.symm.trans hj)
    rw [he]
    simp only [wrote_append hi]
    exact ⟨ok_live.2 (hok.failed bytes), .append bytes hown (owns_live hi)⟩

theorem act_finish (hok : LiveWriter.Ok ⟨w, stored, torn, .writing⟩) (io : Io) {r : Dir × Task}
    (hr : act dir (.live ⟨w, stored, torn, .writing⟩) (.finish io) = r) :
    r.2.Ok ∧ Effect dir (.live ⟨w, stored, torn, .writing⟩) (.finish io) r.1 r.2 := by
  subst hr
  obtain ⟨i, hi⟩ := hok.file
  simp only [act]
  rcases w.tryFinish_cases dir io with ⟨e, he⟩ | ⟨dir', hcheck, hio, hdir, he⟩
  · rw [he]
    exact ⟨ok_live.2 ⟨hok.file, hok.unfinished, hok.partPath, hok.whole, hok.more⟩, .still rfl⟩
  · rw [he]
    have hget : w.file.getD 0 = i := congrArg (·.getD 0) hi
    dsimp only
    rw [hget]
    exact ⟨by simp [Ok], .rename rfl rfl hcheck hio hi hdir⟩

theorem act_drop {stage : Stage} (hok : LiveWriter.Ok ⟨w, stored, torn, stage⟩) (io : Io)
    {r : Dir × Task} (hr : act dir (.live ⟨w, stored, torn, stage⟩) (.drop io) = r) :
    r.2.Ok ∧ Effect dir (.live ⟨w, stored, torn, stage⟩) (.drop io) r.1 r.2 := by
  subst hr
  obtain ⟨i, hi⟩ := hok.file
  have hlive : (Task.live ⟨w, stored, torn, .abandoned⟩).Ok :=
    ok_live.2 ⟨hok.file, hok.unfinished, hok.partPath, hok.whole, hok.more⟩
  -- A destructor that fails leaves everything as it is; otherwise the temporary file goes.
  have hdrop : ∀ r : Dir × Task,
      r = (w.drop dir io,
        if io.remove.isSome then .live ⟨w, stored, torn, .abandoned⟩ else .ended) →
      r.2.Ok ∧ Effect dir (.live ⟨w, stored, torn, stage⟩) (.drop io) r.1 r.2 := by
    rintro r rfl
    unfold IncomingFileWriter.drop
    rw [if_neg (ne_true_of_eq_false hok.unfinished)]
    cases hio : io.remove with
    | some e => exact ⟨by simpa using hlive, .still rfl⟩
    | none => exact ⟨by simp [Ok], .remove (owns_live hi) rfl rfl⟩
  cases stage with
  | writing => exact hdrop _ rfl
  | refused => exact hdrop _ rfl
  | abandoned => exact ⟨hlive, .still rfl⟩

end

/-- **What a step of a transfer does**: one of the effects, and the writer stays in order. -/
theorem act_effect [Sha256] (dir : Dir) {task : Task} (hok : task.Ok) (op : Op) :
    (task.act dir op).2.Ok ∧ Effect dir task op (task.act dir op).1 (task.act dir op).2 := by
  cases task with
  | idle =>
      cases op with
      | accept offer config io =>
          obtain ⟨hown, hok'⟩ := owns_accepting offer config io
          exact ⟨hok', .still hown⟩
      | _ => exact ⟨hok, .still rfl⟩
  | probing offer rest =>
      cases op with
      | probe =>
          cases rest with
          | nil => exact ⟨by simp [act, Ok], .still rfl⟩
          | cons path rest =>
              simp only [act]
              split <;> exact ⟨by simp [Ok], .still rfl⟩
      | _ => cases rest <;> exact ⟨hok, .still rfl⟩
  | opening offer path =>
      cases op with
      | openPart io =>
          simp only [act]
          rcases IncomingFileWriter.openPart_cases dir io offer path with
            ⟨e, he⟩ | ⟨i, dir', hnew, he⟩
          · rw [he]
            exact ⟨by simp [Ok], .still rfl⟩
          · rw [he]
            exact ⟨ok_live.2 ⟨⟨i, rfl⟩, rfl, rfl, fun _ => rfl, by simp⟩, .create rfl hnew rfl⟩
      | _ => exact ⟨hok, .still rfl⟩
  | live l =>
      obtain ⟨w, stored, torn, stage⟩ := l
      have hok' := ok_live.1 hok
      cases op with
      | writeChunk io offset data =>
          cases stage with
          | writing => exact act_writeChunk hok' io offset data rfl
          | _ => exact ⟨hok, .still rfl⟩
      | finish io =>
          cases stage with
          | writing => exact act_finish hok' io rfl
          | _ => exact ⟨hok, .still rfl⟩
      | drop io => exact act_drop hok' io rfl
      | _ => cases stage <;> exact ⟨hok, .still rfl⟩
  | finished file i bytes => exact ⟨by simp [Ok, act], .still rfl⟩
  | ended => exact ⟨by simp [Ok, act], .still rfl⟩

end Task

namespace Writers

/-! ## The invariant, and what safety comes to -/

section

variable {dir₀ : Dir} {s : Writers}

/-- Every transfer's file is its own, and every writer is in order. -/
structure Inv (dir₀ : Dir) (s : Writers) : Prop where
  shared : Directory.Shared dir₀ s.dir fun a => (s.tasks a).owns
  ok : ∀ a, (s.tasks a).Ok

theorem inv_start (dir : Dir) : Inv dir (start dir) where
  shared := Directory.Shared.start dir
  ok := fun a => by simp [start, Task.Ok]

theorem owns_update (tasks : Nat → Task) (a : Nat) (task : Task) :
    (fun b => (Function.update tasks a task b).owns) =
      Function.update (fun b => (tasks b).owns) a task.owns := by
  funext b
  by_cases hb : b = a
  · subst hb
    simp
  · simp [hb]

theorem Inv.safe (h : Inv dir₀ s) : Safe dir₀ s where
  before := h.shared.keeps
  received := fun a file i bytes ha => by
    have hown : (s.tasks a).owns = some ⟨file.path, i, bytes⟩ := by rw [ha]; rfl
    exact ⟨h.shared.entries hown, h.shared.bytes a _ hown, h.shared.fresh a _ hown⟩
  distinct := fun a b file i bytes file' i' bytes' ha hb hab => by
    have hown : (s.tasks a).owns = some ⟨file.path, i, bytes⟩ := by rw [ha]; rfl
    have hown' : (s.tasks b).owns = some ⟨file'.path, i', bytes'⟩ := by rw [hb]; rfl
    exact h.shared.apart a b _ _ hown hown' hab
  part := fun a l ha => by
    obtain ⟨i, hi⟩ := (Task.ok_live.1 (ha ▸ h.ok a)).file
    have hown : (s.tasks a).owns = some _ := ha ▸ Task.owns_live hi
    exact ⟨i, hi, h.shared.entries hown, h.shared.bytes a _ hown⟩

/-- A rename over a name that is taken takes it away from the one who has it. -/
theorem free_of_safe {a i : Nat} {w : IncomingFileWriter} {stored : Bytes} {dir' : Dir}
    (h : Inv dir₀ s) (hown : (s.tasks a).owns = some ⟨w.partPath, i, stored⟩)
    (hpart : w.partPath = partPathFor w.finalPath w.transferId)
    (hsafe : Safe dir₀ ⟨dir', Function.update s.tasks a (.finished w.received i w.hasher)⟩) :
    s.dir.has w.finalPath = false := by
  obtain ⟨hentry, -, hnew⟩ := hsafe.received a w.received i w.hasher (Function.update_self ..)
  rw [Bool.eq_false_iff]
  intro hhas
  rcases h.shared.covered _ hhas with h₀ | ⟨b, o, hb, hname⟩
  · exact absurd h₀ (ne_true_of_eq_false hnew)
  · have hba : b ≠ a := by
      rintro rfl
      rw [hown, Option.some.injEq] at hb
      rw [← hb, hpart] at hname
      exact partPathFor_ne w.finalPath w.transferId hname.symm
    have htask : (Function.update s.tasks a (.finished w.received i w.hasher)) b = s.tasks b :=
      Function.update_of_ne hba ..
    cases hbt : s.tasks b with
    | live l =>
        obtain ⟨j, hj, hentry', -⟩ := hsafe.part b l (htask.trans hbt)
        have hown' := Task.owns_live hj
        rw [hbt, hown', Option.some.injEq] at hb
        have hij : i ≠ j := h.shared.file_ne hown (hbt ▸ hown') hba.symm
        rw [show l.writer.partPath = w.finalPath by rw [← hname, ← hb]] at hentry'
        exact hij (Option.some.inj (hentry.symm.trans hentry'))
    | finished file j bytes =>
        rw [hbt, Task.owns, Option.some.injEq] at hb
        have hne := hsafe.distinct b a file j bytes w.received i w.hasher (htask.trans hbt)
          (Function.update_self ..) hba
        exact hne (by rw [← hb] at hname; exact hname)
    | _ => rw [hbt] at hb; simp [Task.owns] at hb

variable [Sha256]

/-- A clear step keeps every transfer's file its own. -/
theorem inv_step (s : Writers) (e : Event) (hclear : Clear s e) (h : Inv dir₀ s) :
    Inv dir₀ (step s e) := by
  obtain ⟨a, op⟩ := e
  obtain ⟨hok, heff⟩ := Task.act_effect s.dir (h.ok a) op
  refine ⟨?_, fun b => ?_⟩
  · simp only [step, owns_update]
    generalize hr : (s.tasks a).act s.dir op = r at heff
    obtain ⟨dir', task'⟩ := r
    cases heff with
    | still hown =>
        rw [hown, Function.update_eq_self]
        exact h.shared
    | create hown hdir hown' => rw [hown']; exact h.shared.create hown hdir
    | append bytes hown hown' => rw [hown']; exact h.shared.append hown
    | rename htask hop hcheck hio hfile hdir =>
        -- The condition: the new name is free, and what is moved is what was taken.
        obtain ⟨hfree, hwhole⟩ := hclear _ _ _ _ htask hop hcheck hio
        have hstored := (Task.ok_live.1 (htask ▸ h.ok a)).whole hwhole
        have hown : (s.tasks a).owns = some _ := htask ▸ Task.owns_live hfile
        have := h.shared.rename hown hfree hdir
        rwa [hstored] at this
    | remove hown hdir hown' =>
        rw [hown']
        obtain ⟨dir', hrm⟩ := Directory.remove_isSome (h.shared.entries hown)
        rw [hdir, hrm]
        exact h.shared.remove hown hrm
  · simp only [step]
    by_cases hb : b = a
    · rw [hb, Function.update_self]; exact hok
    · rw [Function.update_of_ne hb]; exact h.ok b

/-- A `finish` that gets to its rename renames. -/
theorem step_finish {a : Nat} {w : IncomingFileWriter} {stored : Bytes} {torn : Bool} {io : Io}
    (h : Inv dir₀ s) (hlive : s.tasks a = .live ⟨w, stored, torn, .writing⟩)
    (hcheck : w.check io = .ok ()) (hio : io.rename = none) :
    ∃ i dir', (s.tasks a).owns = some ⟨w.partPath, i, stored⟩ ∧
      s.dir.rename w.partPath w.finalPath = some dir' ∧
      step s (a, .finish io) =
        ⟨dir', Function.update s.tasks a (.finished w.received i w.hasher)⟩ := by
  obtain ⟨i, hi⟩ := (Task.ok_live.1 (hlive ▸ h.ok a)).file
  have hfile : w.file = some i := hi
  have hown : (s.tasks a).owns = some ⟨w.partPath, i, stored⟩ := hlive ▸ Task.owns_live hi
  obtain ⟨dir', hdir⟩ := Directory.rename_isSome w.finalPath (h.shared.entries hown)
  refine ⟨i, dir', hown, hdir, ?_⟩
  simp only [step, hlive, Task.act, IncomingFileWriter.tryFinish_ok hcheck hio hdir, hfile,
    Option.getD_some]

theorem clear_of_safe (e : Event) (h : Inv dir₀ s) (hsafe : Safe dir₀ (step s e)) :
    Clear s e := by
  obtain ⟨a, op⟩ := e
  rintro w stored torn io hlive rfl hcheck hio
  have hok := Task.ok_live.1 (hlive ▸ h.ok a)
  obtain ⟨i, dir', hown, hdir, hstep⟩ := step_finish h hlive hcheck hio
  rw [hstep] at hsafe
  refine ⟨free_of_safe h hown hok.partPath hsafe, Bool.eq_false_iff.2 fun htorn => ?_⟩
  -- The file holds more than was taken.
  obtain ⟨-, hbytes, -⟩ := hsafe.received a w.received i w.hasher (Function.update_self ..)
  have hstored : s.dir.files i = stored := h.shared.bytes a _ hown
  dsimp only at hbytes
  rw [Directory.rename_files hdir, hstored] at hbytes
  exact absurd (hok.more htorn) (by simp [hbytes])

/-- **Concurrent transfers are safe after every step of a run exactly if each of its renames finds
nothing at the final path and moves a file whose writes have all succeeded.** -/
theorem safe_iff (dir₀ : Dir) (es : List Event) :
    Machine.Along step (fun s e => Safe dir₀ (step s e)) (start dir₀) es ↔
      Machine.Along step Clear (start dir₀) es :=
  Machine.along_congr (I := Inv dir₀) inv_step
    (fun s e h => ⟨clear_of_safe e h, fun hclear => (inv_step s e hclear h).safe⟩)
    (inv_start dir₀)

end

end Writers

/-! ## The steps of `accept` -/

namespace Task

variable [Sha256]

/-- A transfer on its own in the directory. -/
def actAll (dir : Dir) (task : Task) (ops : List Op) : Dir × Task :=
  ops.foldl (fun r op => r.2.act r.1 op) (dir, task)

theorem actAll_cons (dir : Dir) (task : Task) (op : Op) (ops : List Op) :
    actAll dir task (op :: ops) = actAll (task.act dir op).1 (task.act dir op).2 ops := rfl

theorem actAll_append (dir : Dir) (task : Task) (ops ops' : List Op) :
    actAll dir task (ops ++ ops') =
      actAll (actAll dir task ops).1 (actAll dir task ops).2 ops' := List.foldl_append

/-- What a probe does not change, any number of them does not. -/
theorem actAll_probes {dir : Dir} {task : Task} (h : task.act dir .probe = (dir, task)) (n : Nat) :
    actAll dir task (List.replicate n .probe) = (dir, task) := by
  induction n with
  | zero => rfl
  | succ n ih => rw [List.replicate_succ, actAll_cons, h]; exact ih

/-- The loop over the candidates stops at the first one that is free. -/
theorem actAll_probing (dir : Dir) (offer : FileOffer) (rest : List String) {n : Nat}
    (hn : rest.length < n) :
    actAll dir (.probing offer rest) (List.replicate n .probe) =
      (dir, match rest.find? (!dir.has ·) with
        | some path => .opening offer path
        | none => .ended) := by
  induction rest generalizing n with
  | nil =>
      obtain ⟨n, rfl⟩ := Nat.exists_eq_succ_of_ne_zero (Nat.ne_of_gt hn)
      rw [List.replicate_succ, actAll_cons]
      exact actAll_probes rfl n
  | cons path rest ih =>
      obtain ⟨n, rfl⟩ := Nat.exists_eq_succ_of_ne_zero (Nat.ne_of_gt (Nat.zero_lt_of_lt hn))
      rw [List.replicate_succ, actAll_cons]
      simp only [act]
      cases hpath : dir.has path with
      | true => simpa [hpath] using ih (Nat.lt_of_succ_lt_succ hn)
      | false => simpa [hpath] using actAll_probes rfl n

/-- The steps of `accept`, with no other transfer's step between them. -/
theorem actAll_accept (dir : Dir) (offer : FileOffer) (config : FileTransferConfig) (io : Io)
    {n : Nat} (hn : 10000 < n) :
    actAll dir .idle (.accept offer config io :: (List.replicate n .probe ++ [.openPart io])) =
      match IncomingFileWriter.accept dir io offer config with
      | (.ok w, dir) => (dir, .live ⟨w, [], false, .writing⟩)
      | (.error _, dir) => (dir, .ended) := by
  have hended : actAll dir .ended (List.replicate n .probe ++ [.openPart io]) = (dir, .ended) := by
    rw [actAll_append, actAll_probes rfl]
    rfl
  rw [actAll_cons]
  simp only [act, accepting, IncomingFileWriter.accept]
  cases hvalid : validateOffer offer config with
  | error e => exact hended
  | ok u =>
      cases hio : io.createDir with
      | some e => exact hended
      | none =>
          obtain ⟨-, ⟨safeName, hname⟩, -⟩ := validateOffer_iff.1 hvalid
          simp only [hname, uniqueDestinationPath]
          rw [actAll_append, actAll_probing dir offer _ (by simpa [candidates] using hn)]
          cases hfind : (candidates safeName).find? (!dir.has ·) with
          | none => rfl
          | some path =>
              simp only [actAll, List.foldl_cons, List.foldl_nil, act]

/-- `finish`, and the destructor. -/
theorem actAll_finish (dir : Dir) (w : IncomingFileWriter) (stored : Bytes) (torn : Bool)
    (io : Io) :
    actAll dir (.live ⟨w, stored, torn, .writing⟩) [.finish io, .drop io] =
      match w.finish dir io with
      | (.ok file, dir) => (dir, .finished file (w.file.getD 0) w.hasher)
      | (.error _, dir) =>
          (dir, if io.remove.isSome then .live ⟨w, stored, torn, .abandoned⟩ else .ended) := by
  simp only [actAll, List.foldl_cons, List.foldl_nil, act, IncomingFileWriter.finish]
  cases htry : w.tryFinish dir io with
  | mk result dir' =>
      cases result with
      | ok file => simp [IncomingFileWriter.drop]
      | error e => rfl

end Task

namespace Writers

theorem run_map [Sha256] (dir : Dir) (tasks : Nat → Task) (a : Nat) (task : Task) (ops : List Op) :
    Machine.run step ⟨dir, Function.update tasks a task⟩ (ops.map (a, ·)) =
      ⟨(task.actAll dir ops).1, Function.update tasks a (task.actAll dir ops).2⟩ := by
  induction ops generalizing dir task with
  | nil => rfl
  | cons op ops ih =>
      rw [List.map_cons, Machine.run_cons]
      simp only [step, Function.update_self, Function.update_idem]
      exact ih _ _

/-- **Undisturbed, the steps of a transfer do what the sequential functions do**: those of `accept`
and those of `finish`, whatever the directory holds and the other transfers are at. -/
theorem undisturbed [Sha256] (dir : Dir) (tasks : Nat → Task) (a : Nat) :
    (∀ offer config io n, Machine.run step ⟨dir, Function.update tasks a .idle⟩
        ((Op.accept offer config io ::
          (List.replicate (10001 + n) .probe ++ [.openPart io])).map (a, ·)) =
      match IncomingFileWriter.accept dir io offer config with
      | (.ok w, dir) => ⟨dir, Function.update tasks a (.live ⟨w, [], false, .writing⟩)⟩
      | (.error _, dir) => ⟨dir, Function.update tasks a .ended⟩) ∧
    ∀ w stored torn io,
      Machine.run step ⟨dir, Function.update tasks a (.live ⟨w, stored, torn, .writing⟩)⟩
        ([Op.finish io, .drop io].map (a, ·)) =
      match w.finish dir io with
      | (.ok file, dir) =>
          ⟨dir, Function.update tasks a (.finished file (w.file.getD 0) w.hasher)⟩
      | (.error _, dir) => ⟨dir, Function.update tasks a
          (if io.remove.isSome then .live ⟨w, stored, torn, .abandoned⟩ else .ended)⟩ := by
  constructor
  · intro offer config io n
    rw [run_map, Task.actAll_accept dir offer config io (by omega)]
    cases IncomingFileWriter.accept dir io offer config with
    | mk result dir' => cases result <;> rfl
  · intro w stored torn io
    rw [run_map, Task.actAll_finish]
    cases w.finish dir io with
    | mk result dir' => cases result <;> rfl

/-! ## Two transfers of one name -/

def abcOffer (transferId : String) : FileOffer where
  transferId := transferId
  sourceDeviceId := "phone"
  targetDeviceId := "pc"
  fileName := "a.txt"
  sizeBytes := 3
  modifiedUnixMillis := none
  mimeType := none
  sha256Hex := "ba7816bf8f01cfea414140de5dae2223b00361a396177a9cb410ff61f20015ad"

/-- The steps of one transfer, up to its `finish`. -/
def abcTransfer (a : Nat) (transferId : String) : List Event :=
  [(a, .accept (abcOffer transferId) {} {}), (a, .probe), (a, .openPart {}),
    (a, .writeChunk {} 0 [97, 98, 99])]

/-- Both are accepted before one of them has finished. -/
def sameNameTwice : List Event :=
  abcTransfer 0 "t0" ++ abcTransfer 1 "t1" ++ [(0, .finish {}), (1, .finish {})]

def abcReceived (transferId : String) : ReceivedFile :=
  ⟨transferId, "a.txt", "a.txt", 3, (abcOffer transferId).sha256Hex⟩

theorem sameNameTwice_not_safe :
    ¬ @Machine.Along _ _ (@step abcSha256) (fun s e => Safe .empty (@step abcSha256 s e))
      (start .empty) sameNameTwice := by
  let _ := abcSha256
  intro h
  have hsafe := Machine.along_iff.1 h (sameNameTwice.take 9) _ [] rfl
  -- Both are reported to be at one path.
  exact hsafe.distinct 0 1 (abcReceived "t0") 0 [97, 98, 99] (abcReceived "t1") 1 [97, 98, 99]
    (by decide) (by decide) (by decide) rfl

end Writers

end ClipBridge
