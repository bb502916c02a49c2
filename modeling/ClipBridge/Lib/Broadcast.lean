import Mathlib.Data.List.Basic

/-!
# A bounded broadcast channel with lagging receivers

Every receiver of the channel sees every value sent after it subscribed, in order, as long as it
keeps up. The channel buffers the last `cap` values only: a receiver that falls further behind is
told how many values it has lost, and resumes at the oldest one still buffered.

The channel is kept as the list of all values ever sent; what is buffered is its last `cap`
elements, and a receiver is a position in the list.
-/

namespace Broadcast

variable {α : Type*}

/-- A receiver's place in the channel. -/
structure Receiver where
  /-- The position it subscribed at. -/
  start : Nat
  /-- The position of the next value it reads. -/
  next : Nat
  /-- How many values it has been told it lost. -/
  missed : Nat
  deriving DecidableEq, Repr

/-- What one attempt to receive yields. -/
inductive Recv (α : Type*) where
  | value (a : α)
  | lagged (n : Nat)
  | empty

/-- A new receiver sees only what is sent from now on. -/
def subscribe (sent : List α) : Receiver := ⟨sent.length, sent.length, 0⟩

/-- How many values the receiver has not read yet. -/
def Receiver.backlog (sent : List α) (r : Receiver) : Nat := sent.length - r.next

/-- Receive one value: a receiver more than `cap` behind is moved to the oldest value still
buffered and told how many it lost. -/
def recv (cap : Nat) (sent : List α) (r : Receiver) : Recv α × Receiver :=
  if cap < r.backlog sent then
    let lost := r.backlog sent - cap
    (.lagged lost, { r with next := r.next + lost, missed := r.missed + lost })
  else
    match sent[r.next]? with
    | some a => (.value a, { r with next := r.next + 1 })
    | none => (.empty, r)

/-! ## What one attempt can do -/

theorem recv_cases (cap : Nat) (sent : List α) (r : Receiver) :
    (cap < r.backlog sent ∧
      recv cap sent r = (.lagged (r.backlog sent - cap),
        { r with next := r.next + (r.backlog sent - cap),
                 missed := r.missed + (r.backlog sent - cap) })) ∨
    (r.backlog sent ≤ cap ∧ ∃ a, sent[r.next]? = some a ∧
      recv cap sent r = (.value a, { r with next := r.next + 1 })) ∨
    (r.backlog sent ≤ cap ∧ sent[r.next]? = none ∧ recv cap sent r = (.empty, r)) := by
  unfold recv
  by_cases hlag : cap < r.backlog sent
  · exact Or.inl ⟨hlag, by rw [if_pos hlag]⟩
  · rw [if_neg hlag]
    rcases hget : sent[r.next]? with _ | a
    · exact Or.inr (Or.inr ⟨Nat.le_of_not_lt hlag, rfl, rfl⟩)
    · exact Or.inr (Or.inl ⟨Nat.le_of_not_lt hlag, a, rfl, rfl⟩)

end Broadcast
