import ClipBridge.Lib.Machine
import Mathlib.Data.List.Perm.Basic

/-!
# A cell without a lock

A call reads the cell, computes, and writes what it has computed. Each of the two accesses is one
step, and nothing keeps the calls of different threads apart: what another call writes between a
read and the write that follows it is lost.

* `Undisturbed` — a write finds in the cell what its call read there.
* `Serial` — the cell holds what the calls make of it one after the other, in the order of their
  writes.
* `serial_run` — a run of undisturbed writes is serial.
* `written_perm` — when no call is in progress, all that were made have written, each once.
-/

/-- Where a call stands. -/
inductive CellTask (σ ι : Type) where
  | reading (call : ι)
  | writing (call : ι) (read : σ)
  | done
  deriving DecidableEq, Repr

/-- Recorded beside the cell are the calls that were made, and those that have written, in order. -/
structure SharedCell (σ ι : Type) where
  value : σ
  tasks : List (CellTask σ ι)
  started : List ι
  written : List ι

inductive CellEvent (ι : Type) where
  | start (call : ι)
  | task (i : Nat)
  deriving DecidableEq, Repr

/-- The call that a task has yet to write for. -/
def CellTask.pending {σ ι : Type} : CellTask σ ι → Option ι
  | reading call => some call
  | writing call _ => some call
  | done => none

namespace SharedCell

variable {σ ι : Type}

def init (value : σ) : SharedCell σ ι := ⟨value, [], [], []⟩

/-- No call is in progress. -/
def Idle (s : SharedCell σ ι) : Prop := ∀ t ∈ s.tasks, t.pending = none

instance [DecidableEq ι] (s : SharedCell σ ι) : Decidable s.Idle :=
  inferInstanceAs (Decidable (∀ t ∈ s.tasks, _))

variable (apply : ι → σ → σ)

def onTask (s : SharedCell σ ι) (i : Nat) : CellTask σ ι → SharedCell σ ι
  | .reading call => { s with tasks := s.tasks.set i (.writing call s.value) }
  | .writing call read =>
      { s with
        value := apply call read
        tasks := s.tasks.set i .done
        written := s.written ++ [call] }
  | .done => s

def step (s : SharedCell σ ι) : CellEvent ι → SharedCell σ ι
  | .start call => { s with tasks := s.tasks ++ [.reading call], started := s.started ++ [call] }
  | .task i =>
      match s.tasks[i]? with
      | some t => s.onTask apply i t
      | none => s

/-- What is written was computed from what the cell still holds. -/
def Undisturbed (s : SharedCell σ ι) : CellEvent ι → Prop
  | .start _ => True
  | .task i => ∀ call read, s.tasks[i]? = some (.writing call read) → read = s.value

instance [DecidableEq σ] (s : SharedCell σ ι) : (e : CellEvent ι) → Decidable (s.Undisturbed e)
  | .start _ => isTrue trivial
  | .task i =>
      match h : s.tasks[i]? with
      | some (.writing _ read) => decidable_of_iff (read = s.value) (by simp [Undisturbed, h])
      | some (.reading _) | some .done | none => isTrue (by simp [Undisturbed, h])

/-- The calls one after the other. -/
def applyAll (calls : List ι) (value : σ) : σ :=
  calls.foldl (fun value call => apply call value) value

/-- The cell held `before` at the start. -/
def Serial (before : σ) (s : SharedCell σ ι) : Prop := s.value = applyAll apply s.written before

variable {apply} {s : SharedCell σ ι} {before : σ}

theorem step_task {i : Nat} {t : CellTask σ ι} (h : s.tasks[i]? = some t) :
    s.step apply (.task i) = s.onTask apply i t := by
  simp only [step, h]

theorem step_noTask {i : Nat} (h : s.tasks[i]? = none) : s.step apply (.task i) = s := by
  simp only [step, h]

theorem applyAll_concat (calls : List ι) (call : ι) (value : σ) :
    applyAll apply (calls ++ [call]) value = apply call (applyAll apply calls value) := by
  rw [applyAll, List.foldl_append]
  rfl

theorem serial_step (hs : s.Serial apply before) (e : CellEvent ι) (he : s.Undisturbed e) :
    (s.step apply e).Serial apply before := by
  cases e with
  | start call => exact hs
  | task i =>
      cases htask : s.tasks[i]? with
      | none =>
          rw [step_noTask htask]
          exact hs
      | some t =>
          rw [step_task htask]
          cases t with
          | reading call => exact hs
          | writing call read =>
              show apply call read = applyAll apply (s.written ++ [call]) before
              rw [applyAll_concat, ← hs, he call read htask]
          | done => exact hs

/-- If nobody writes between the two accesses of a call, the calls might have been made one after
the other. -/
theorem serial_run {events : List (CellEvent ι)}
    (h : Machine.Along (step apply) Undisturbed (init before) events) :
    ∀ pre, pre <+: events → (Machine.run (step apply) (init before) pre).Serial apply before := by
  have hinit : (init before : SharedCell σ ι).Serial apply before := rfl
  exact Machine.invariant_throughout (I := Serial apply before)
    (fun _ e he hs => serial_step hs e he) hinit h

/-! ## Every call writes once -/

/-- Whatever the order, each call has written or is yet to write. -/
def Counted (s : SharedCell σ ι) : Prop :=
  (s.written ++ s.tasks.filterMap CellTask.pending).Perm s.started

/-- One task moves on; the others have as much to write as before. -/
theorem pending_set {tasks : List (CellTask σ ι)} {i : Nat} {t : CellTask σ ι}
    (h : tasks[i]? = some t) (next : CellTask σ ι) : ∃ earlier later,
      tasks.filterMap CellTask.pending = earlier ++ (t.pending.toList ++ later) ∧
      (tasks.set i next).filterMap CellTask.pending =
        earlier ++ (next.pending.toList ++ later) := by
  have hcons (t : CellTask σ ι) (rest : List (CellTask σ ι)) :
      (t :: rest).filterMap CellTask.pending =
        t.pending.toList ++ rest.filterMap CellTask.pending := by
    cases hpending : t.pending with
    | none => rw [List.filterMap_cons_none hpending, Option.toList_none, List.nil_append]
    | some call => rw [List.filterMap_cons_some hpending, Option.toList_some]; rfl
  obtain ⟨hi, rfl⟩ := List.getElem?_eq_some_iff.1 h
  refine ⟨(tasks.take i).filterMap CellTask.pending,
    (tasks.drop (i + 1)).filterMap CellTask.pending, ?_, ?_⟩
  · rw [← hcons, ← List.filterMap_append, ← List.drop_eq_getElem_cons hi,
      List.take_append_drop]
  · rw [← hcons, ← List.filterMap_append, List.set_eq_take_append_cons_drop, if_pos hi]

theorem counted_step (hs : s.Counted) (e : CellEvent ι) : (s.step apply e).Counted := by
  cases e with
  | start call =>
      show (s.written ++ (s.tasks ++ [CellTask.reading call]).filterMap CellTask.pending).Perm
        (s.started ++ [call])
      rw [List.filterMap_append, ← List.append_assoc]
      exact hs.append_right [call]
  | task i =>
      cases htask : s.tasks[i]? with
      | none =>
          rw [step_noTask htask]
          exact hs
      | some t =>
          rw [step_task htask]
          cases t with
          | reading call =>
              obtain ⟨earlier, later, hold, hnew⟩ := pending_set htask (.writing call s.value)
              show (s.written ++ (s.tasks.set i (.writing call s.value)).filterMap _).Perm s.started
              rw [Counted, hold] at hs
              rw [hnew]
              exact hs
          | writing call read =>
              obtain ⟨earlier, later, hold, hnew⟩ := pending_set htask .done
              show (s.written ++ [call] ++ (s.tasks.set i .done).filterMap _).Perm s.started
              rw [Counted, hold] at hs
              rw [hnew, List.append_assoc]
              have hmiddle : (call :: (earlier ++ later)).Perm (earlier ++ call :: later) :=
                List.perm_middle.symm
              exact (hmiddle.append_left s.written).trans hs
          | done => exact hs

theorem written_perm (events : List (CellEvent ι))
    (h : (Machine.run (step apply) (init before) events).Idle) :
    (Machine.run (step apply) (init before) events).written.Perm
      (Machine.run (step apply) (init before) events).started := by
  have hinit : (init before : SharedCell σ ι).Counted := List.Perm.refl _
  have hcounted : (Machine.run (step apply) (init before) events).Counted :=
    Machine.invariant_run (I := Counted) (fun _ e hs => counted_step hs e) hinit events
  rw [Counted, List.filterMap_eq_nil_iff.2 h, List.append_nil] at hcounted
  exact hcounted

end SharedCell
