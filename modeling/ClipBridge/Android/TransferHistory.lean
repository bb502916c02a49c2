import ClipBridge.Lib.SharedCell
import Mathlib.Data.List.Permutation

/-!
# The history of transfers on Android

Following `appendFileTransferHistory` and `upsertFileTransferHistory` in
`ClipBridgeAccessibilityService.kt`. The poller for received files and any number of sends in
progress call them, each on a thread of its own. A call reads the list and writes another one.

* `appendFileTransferHistory`, `upsertFileTransferHistory` — the list that is written for the list
  that was read.
* `UpToDate` — what is listed of a transfer is what the last call for it wrote.
* `history_keeps_updates` — if every call writes before the list that it has read is replaced, the
  history is what the calls make of it one after the other.
-/

namespace ClipBridge.Android

/-! ## The two calls -/

def historyLimit : Nat := 12

inductive FileTransferDirection where
  | sent
  | received
  deriving DecidableEq, Repr

inductive FileTransferStatus where
  | sending
  | sent
  | received
  | failed
  deriving DecidableEq, Repr

structure FileTransferHistoryEntry where
  id : String
  fileName : String
  deviceName : String
  sizeBytes : UInt64
  direction : FileTransferDirection
  status : FileTransferStatus
  path : Option String
  message : Option String
  tsMillis : Int
  deriving DecidableEq, Repr

/-- Of the entries with one id the first stays. -/
def distinctById : List FileTransferHistoryEntry → List FileTransferHistoryEntry
  | [] => []
  | e :: rest => e :: (distinctById rest).filter fun other => other.id ≠ e.id

def appendFileTransferHistory (entry : FileTransferHistoryEntry)
    (current : List FileTransferHistoryEntry) : List FileTransferHistoryEntry :=
  (distinctById (entry :: current)).take historyLimit

def upsertFileTransferHistory (entry : FileTransferHistoryEntry)
    (current : List FileTransferHistoryEntry) : List FileTransferHistoryEntry :=
  let replaced := current.map fun e => if e.id = entry.id then entry else e
  if current.any fun e => e.id = entry.id then replaced
  else (entry :: current).take historyLimit

inductive HistoryCall where
  | append (entry : FileTransferHistoryEntry)
  | upsert (entry : FileTransferHistoryEntry)
  deriving DecidableEq, Repr

namespace HistoryCall

def entry : HistoryCall → FileTransferHistoryEntry
  | append entry => entry
  | upsert entry => entry

def apply : HistoryCall → List FileTransferHistoryEntry → List FileTransferHistoryEntry
  | append entry => appendFileTransferHistory entry
  | upsert entry => upsertFileTransferHistory entry

end HistoryCall

/-- `_fileTransferHistory`, with the calls in progress. -/
abbrev TransferHistory := SharedCell (List FileTransferHistoryEntry) HistoryCall

namespace TransferHistory

open SharedCell

abbrev run (before : List FileTransferHistoryEntry) (events : List (CellEvent HistoryCall)) :
    TransferHistory :=
  Machine.run (step HistoryCall.apply) (init before) events

/-- The last of some calls for a transfer. -/
def lastFor (calls : List HistoryCall) (id : String) : Option HistoryCall :=
  (calls.filter fun call => call.entry.id = id).getLast?

/-- What is listed of a transfer is what the last of the calls for it wrote, if there was any. -/
def UpToDate (calls : List HistoryCall) (history : List FileTransferHistoryEntry) : Prop :=
  ∀ e ∈ history, ∀ call ∈ lastFor calls e.id, call.entry = e

instance (calls : List HistoryCall) (history : List FileTransferHistoryEntry) :
    Decidable (UpToDate calls history) :=
  inferInstanceAs (Decidable (∀ e ∈ history, ∀ call ∈ lastFor calls e.id, call.entry = e))

/-! ## One call after the other -/

section

variable {e entry : FileTransferHistoryEntry} {current : List FileTransferHistoryEntry}

theorem mem_of_mem_distinctById (h : e ∈ distinctById current) : e ∈ current := by
  induction current with
  | nil => exact h
  | cons first rest ih =>
      rcases List.mem_cons.1 h with rfl | hrest
      · exact List.mem_cons_self
      · exact List.mem_cons_of_mem _ (ih (List.mem_of_mem_filter hrest))

/-- A call lists its own entry alone for its transfer, and leaves the others as they are. -/
theorem mem_apply {call : HistoryCall} (h : e ∈ call.apply current) :
    e = call.entry ∨ e ∈ current ∧ e.id ≠ call.entry.id := by
  cases call with
  | append entry =>
      rcases List.mem_cons.1 (List.mem_of_mem_take h) with rfl | hrest
      · exact .inl rfl
      · obtain ⟨hmem, hid⟩ := List.mem_filter.1 hrest
        exact .inr ⟨mem_of_mem_distinctById hmem, of_decide_eq_true hid⟩
  | upsert entry =>
      change e ∈ upsertFileTransferHistory entry current at h
      unfold upsertFileTransferHistory at h
      by_cases hlisted : (current.any fun e => e.id = entry.id) = true
      · rw [if_pos hlisted] at h
        obtain ⟨old, hold, heq⟩ := List.mem_map.1 h
        by_cases hid : old.id = entry.id
        · rw [if_pos hid] at heq
          exact .inl heq.symm
        · rw [if_neg hid] at heq
          subst heq
          exact .inr ⟨hold, hid⟩
      · rw [if_neg hlisted] at h
        rcases List.mem_cons.1 (List.mem_of_mem_take h) with rfl | hmem
        · exact .inl rfl
        · refine .inr ⟨hmem, fun hid => hlisted ?_⟩
          exact List.any_eq_true.2 ⟨e, hmem, decide_eq_true hid⟩

end

theorem lastFor_concat (calls : List HistoryCall) (call : HistoryCall) (id : String) :
    lastFor (calls ++ [call]) id =
      if call.entry.id = id then some call else lastFor calls id := by
  by_cases hid : call.entry.id = id
  · simp [lastFor, hid]
  · simp [lastFor, hid]

/-- The calls one after the other keep the history up to date. -/
theorem upToDate_applyAll (calls : List HistoryCall) (before : List FileTransferHistoryEntry) :
    UpToDate calls (applyAll HistoryCall.apply calls before) := by
  induction calls using List.reverseRecOn with
  | nil => exact fun _ _ _ h => nomatch h
  | append_singleton calls call ih =>
      intro e he last hlast
      rw [applyAll_concat] at he
      rw [lastFor_concat] at hlast
      rcases mem_apply he with rfl | ⟨hmem, hid⟩
      · rw [if_pos rfl] at hlast
        cases hlast
        rfl
      · rw [if_neg (Ne.symm hid)] at hlast
        exact ih e hmem last hlast

end TransferHistory

open TransferHistory SharedCell in
/-- **No update is lost as long as every call writes before the list that it has read is
replaced.** Then the history is, in every state, what the calls make of it in the order of their
writes; what it lists of a transfer is what the last call for it wrote; and when no call is in
progress, the calls that have written are all that were made. -/
theorem history_keeps_updates (before : List FileTransferHistoryEntry)
    (events : List (CellEvent HistoryCall))
    (h : Machine.Along (step HistoryCall.apply) SharedCell.Undisturbed (init before) events) :
    ∀ pre, pre <+: events →
      (run before pre).value = applyAll HistoryCall.apply (run before pre).written before ∧
      UpToDate (run before pre).written (run before pre).value ∧
      ((run before pre).Idle → (run before pre).written.Perm (run before pre).started) := by
  intro pre hpre
  have hserial : (run before pre).value = _ := serial_run h pre hpre
  refine ⟨hserial, ?_, written_perm pre⟩
  rw [hserial]
  exact upToDate_applyAll _ before

namespace TransferHistory

/-! ### A file is received while another one is sent -/

def sending : FileTransferHistoryEntry :=
  ⟨"local", "a.txt", "mac", 3, .sent, .sending, none, none, 0⟩

def sent : FileTransferHistoryEntry := { sending with status := .sent, tsMillis := 7 }

def received : FileTransferHistoryEntry :=
  ⟨"remote", "b.txt", "LAN 设备", 3, .received, .received, some "/b.txt", none, 5⟩

/-- The send is listed, the file is received, and the send is over. -/
def inTurn : List (CellEvent HistoryCall) :=
  [.start (.append sending), .task 0, .task 0, .start (.append received), .task 1, .task 1,
    .start (.upsert sent), .task 2, .task 2]

/-- The second call and the third read the same list. Then they write, in this order. -/
def overlapping (first second : Nat) : List (CellEvent HistoryCall) :=
  [.start (.append sending), .task 0, .task 0, .start (.append received), .start (.upsert sent),
    .task 1, .task 2, .task first, .task second]

end TransferHistory

open TransferHistory in
theorem inTurn_keepsUpdates :
    (run [] inTurn).value =
        SharedCell.applyAll HistoryCall.apply (run [] inTurn).written [] ∧
      UpToDate (run [] inTurn).written (run [] inTurn).value ∧
      ((run [] inTurn).Idle → (run [] inTurn).written.Perm (run [] inTurn).started) :=
  history_keeps_updates [] inTurn (by decide +kernel) inTurn (List.prefix_refl _)

open TransferHistory SharedCell in
/-- If the upsert writes last, the received file is lost, which no order of the calls does; if it
writes first, the send is under way for good. -/
theorem overlapping_losesUpdate :
    (¬ ∀ before events, (run before events).Idle → ∃ order, order.Perm (run before events).started ∧
      (run before events).value = applyAll HistoryCall.apply order before) ∧
    ¬ ∀ before events, (run before events).Idle →
      UpToDate (run before events).started (run before events).value := by
  constructor
  · intro h
    obtain ⟨order, hperm, hvalue⟩ := h [] (overlapping 1 2) (by decide +kernel)
    have hnone : ∀ order ∈ (run [] (overlapping 1 2)).started.permutations',
        (run [] (overlapping 1 2)).value ≠ applyAll HistoryCall.apply order [] := by
      decide +kernel
    exact hnone order (List.mem_permutations'.2 hperm) hvalue
  · intro h
    exact absurd (h [] (overlapping 2 1) (by decide +kernel)) (by decide +kernel)

end ClipBridge.Android
