import Mathlib.Data.Nat.Basic

/-!
# A bell that is not remembered

`notifyWaiters` wakes every waiter there is, and nobody else: a waiter made later does not hear
of it. So all there is to a bell is how often it was rung, and all there is to a waiter is how
often the bell had been rung when it was made.

A task that looks at a flag and then makes its waiter misses a ring that falls in between.
-/

/-- A bell, by the number of times it was rung. -/
structure Notify where
  calls : Nat
  deriving DecidableEq, Repr

/-- A waiter, by the number of rings before it was made. -/
structure Notified where
  seen : Nat
  deriving DecidableEq, Repr

namespace Notify

def new : Notify := ⟨0⟩

/-- A new waiter. -/
def notified (bell : Notify) : Notified := ⟨bell.calls⟩

def notifyWaiters (bell : Notify) : Notify := ⟨bell.calls + 1⟩

/-- The waiter was rung for. -/
def woken (bell : Notify) (waiter : Notified) : Bool := decide (waiter.seen < bell.calls)

/-- The waiter was made from this bell. -/
def Made (bell : Notify) (waiter : Notified) : Prop := waiter.seen ≤ bell.calls

theorem made_notified (bell : Notify) : bell.Made bell.notified := le_refl bell.calls

theorem Made.notifyWaiters {bell : Notify} {waiter : Notified} (h : bell.Made waiter) :
    bell.notifyWaiters.Made waiter := Nat.le_succ_of_le h

/-- Ringing wakes every waiter there is. -/
theorem Made.woken {bell : Notify} {waiter : Notified} (h : bell.Made waiter) :
    bell.notifyWaiters.woken waiter = true :=
  decide_eq_true (Nat.lt_succ_of_le h)

end Notify
