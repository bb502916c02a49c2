import ClipBridge.Lib.Machine
import ClipBridge.Lib.Notify

/-!
# Waiting for a flag

Following `wait_until_flag` in `core/src/lan.rs` and `Client::set_lan_active` in
`core/src/client.rs`. The waiter creates a `Notified`, enables it, loads the flag, and parks. A
setter stores the flag and rings the bell, on any thread: between two steps of the waiter there
can be any number of stores and rings, and between a store and its ring any number of other steps.

A `Notified` that is enabled hears of every later ring. Whether it hears of a ring between its
creation and `enable` does not matter: each turn of the loop says whether it does.

* `FlagRace` — the flag, the bell, the setters that have not rung yet, and the waiter.
* `Settled` — of the setters that stored the value the flag has, one has returned.
* `LeftParked` — the waiter is parked, and has not been woken.
* `waitUntilFlag_wakes` — a waiter for a settled value is not left parked, and returns if it
  gets to run.
-/

namespace ClipBridge

/-! ## The waiter and its setters -/

/-- Where a task stands in `wait_until_flag`. -/
inductive FlagWaiter where
  /-- Before `notify.notified()`. -/
  | head
  /-- Before `enable()`. -/
  | created (notified : Notified)
  /-- Before the load of the flag. -/
  | enabled (notified : Notified)
  /-- In `notified.await`. -/
  | parked (notified : Notified)
  | returned
  deriving DecidableEq, Repr

structure FlagRace where
  flag : Bool
  notify : Notify
  /-- How often the flag was stored: the next call of a setter has this number. -/
  stores : Nat
  /-- The calls that stored the flag and have not called `notify_waiters` yet. -/
  notifying : List Nat
  /-- The calls that stored the value the flag has, since it last had the other one. -/
  storers : List Nat
  waiter : FlagWaiter
  deriving DecidableEq, Repr

inductive FlagEvent where
  /-- A setter stores the flag. -/
  | store (value : Bool)
  /-- The setter of this call calls `notify_waiters` and returns. -/
  | notifyWaiters (call : Nat)
  /-- The waiter goes on. `sinceCreated`: a future it enables hears of what was rung since it
  created it. -/
  | waiter (sinceCreated : Bool)
  deriving DecidableEq, Repr

namespace FlagRace

/-- The flag has a value, nobody is setting it, and the waiter begins. -/
def init (flag : Bool) : FlagRace where
  flag := flag
  notify := .new
  stores := 0
  notifying := []
  storers := []
  waiter := .head

def store (s : FlagRace) (value : Bool) : FlagRace :=
  { s with
    flag := value
    stores := s.stores + 1
    notifying := s.notifying ++ [s.stores]
    storers := if value = s.flag then s.storers ++ [s.stores] else [s.stores] }

def notifyWaiters (s : FlagRace) (call : Nat) : FlagRace :=
  if call ∈ s.notifying then
    { s with notifying := s.notifying.erase call, notify := s.notify.notifyWaiters }
  else s

/-- One step of `wait_until_flag`, up to the next point where others can act. -/
def waiterStep (s : FlagRace) (want sinceCreated : Bool) : FlagWaiter :=
  match s.waiter with
  | .head => .created s.notify.notified
  | .created notified => .enabled (if sinceCreated then notified else s.notify.notified)
  | .enabled notified => if s.flag = want then .returned else .parked notified
  | .parked notified => if s.notify.woken notified then .head else .parked notified
  | .returned => .returned

def step (want : Bool) (s : FlagRace) : FlagEvent → FlagRace
  | .store value => s.store value
  | .notifyWaiters call => s.notifyWaiters call
  | .waiter sinceCreated => { s with waiter := s.waiterStep want sinceCreated }

/-- A setter that stored the value the flag has, has returned; or nobody ever stored it. -/
def Settled (s : FlagRace) : Prop :=
  s.storers = [] ∨ ∃ call ∈ s.storers, call ∉ s.notifying

def LeftParked (s : FlagRace) : Prop :=
  ∃ notified, s.waiter = .parked notified ∧ s.notify.woken notified = false

/-! ## The invariant -/

/-- While a waiter is left parked, all who stored what it waits for are about to ring; and what it
waits on was made from this bell. -/
structure Inv (want : Bool) (s : FlagRace) : Prop where
  created : ∀ notified, s.waiter = .created notified → s.notify.Made notified
  enabled : ∀ notified, s.waiter = .enabled notified → s.notify.Made notified
  parked : ∀ notified, s.waiter = .parked notified → s.notify.Made notified
  ringing : s.LeftParked → s.flag = want →
    s.storers ≠ [] ∧ ∀ call ∈ s.storers, call ∈ s.notifying

theorem inv_init (want flag : Bool) : Inv want (init flag) where
  created _ h := nomatch h
  enabled _ h := nomatch h
  parked _ h := nomatch h
  ringing := fun ⟨_, h, _⟩ => nomatch h

section

variable {want : Bool} {s : FlagRace}

/-- A ring leaves nobody parked. -/
theorem not_leftParked_ring (h : Inv want s) (call : Nat) (hcall : call ∈ s.notifying) :
    ¬ (s.notifyWaiters call).LeftParked := by
  rw [notifyWaiters, if_pos hcall]
  rintro ⟨notified, hwaiter, hwoken⟩
  rw [(h.parked notified hwaiter).woken] at hwoken
  cases hwoken

theorem inv_store (h : Inv want s) (value : Bool) : Inv want (s.store value) where
  created := h.created
  enabled := h.enabled
  parked := h.parked
  ringing := by
    intro hparked hvalue
    by_cases hsame : value = s.flag
    · have hring := (h.ringing hparked (hsame.symm.trans hvalue)).2
      simp only [store, if_pos hsame]
      refine ⟨by simp, fun call hcall => ?_⟩
      rcases List.mem_append.1 hcall with hold | hnew
      · exact List.mem_append_left _ (hring call hold)
      · exact List.mem_append_right _ hnew
    · -- the flag has just changed: this setter alone stored its value
      simp only [store, if_neg hsame]
      exact ⟨by simp, fun call hcall => List.mem_append_right _ hcall⟩

theorem inv_notifyWaiters (h : Inv want s) (call : Nat) : Inv want (s.notifyWaiters call) := by
  by_cases hcall : call ∈ s.notifying
  · have hnone := not_leftParked_ring h call hcall
    rw [notifyWaiters, if_pos hcall] at hnone ⊢
    exact {
      created := fun notified hwaiter => (h.created notified hwaiter).notifyWaiters
      enabled := fun notified hwaiter => (h.enabled notified hwaiter).notifyWaiters
      parked := fun notified hwaiter => (h.parked notified hwaiter).notifyWaiters
      ringing := fun hparked => absurd hparked hnone }
  · rw [notifyWaiters, if_neg hcall]
    exact h

theorem inv_waiter (h : Inv want s) (sinceCreated : Bool) :
    Inv want { s with waiter := s.waiterStep want sinceCreated } := by
  cases hwaiter : s.waiter with
  | head =>
      constructor <;> simp [waiterStep, hwaiter, LeftParked, Notify.made_notified]
  | created notified =>
      have hmade := h.created notified hwaiter
      constructor <;> cases sinceCreated <;>
        simp [waiterStep, hwaiter, LeftParked, Notify.made_notified, hmade]
  | enabled notified =>
      have hmade := h.enabled notified hwaiter
      by_cases hflag : s.flag = want
      · constructor <;> simp [waiterStep, hwaiter, LeftParked, hflag]
      · constructor <;> simp [waiterStep, hwaiter, LeftParked, hflag, hmade]
  | parked notified =>
      cases hwoken : s.notify.woken notified with
      | true => constructor <;> simp [waiterStep, hwaiter, LeftParked, hwoken]
      | false =>
          have hstays : s.waiterStep want sinceCreated = s.waiter := by
            simp [waiterStep, hwaiter, hwoken]
          rw [hstays]
          exact h
  | returned =>
      constructor <;> simp [waiterStep, hwaiter, LeftParked]

theorem inv_step (h : Inv want s) (e : FlagEvent) : Inv want (step want s e) := by
  cases e with
  | store value => exact inv_store h value
  | notifyWaiters call => exact inv_notifyWaiters h call
  | waiter sinceCreated => exact inv_waiter h sinceCreated

theorem inv_run (want flag : Bool) (es : List FlagEvent) :
    Inv want (Machine.run (step want) (init flag) es) :=
  Machine.invariant_run (I := Inv want) (fun _ e h => inv_step h e) (inv_init want flag) es

theorem Inv.not_leftParked (h : Inv want s) (hflag : s.flag = want) (hsettled : s.Settled) :
    ¬ s.LeftParked := by
  intro hparked
  obtain ⟨hsome, hring⟩ := h.ringing hparked hflag
  rcases hsettled with hnone | ⟨call, hstored, hrung⟩
  · exact hsome hnone
  · exact hrung (hring call hstored)

/-! ## The waiter goes on -/

/-- A waiter that is not left parked returns in four steps, if the flag keeps its value. -/
theorem returned_of_not_leftParked (hflag : s.flag = want) (h : ¬ s.LeftParked) (a b c d : Bool) :
    (Machine.run (step want) s [.waiter a, .waiter b, .waiter c, .waiter d]).waiter =
      .returned := by
  cases hwaiter : s.waiter with
  | head => simp [step, waiterStep, hwaiter, hflag]
  | created notified => simp [step, waiterStep, hwaiter, hflag]
  | enabled notified => simp [step, waiterStep, hwaiter, hflag]
  | parked notified =>
      have hwoken : s.notify.woken notified = true := by
        by_contra hnot
        exact h ⟨notified, hwaiter, Bool.eq_false_iff.2 hnot⟩
      simp [step, waiterStep, hwaiter, hflag, hwoken]
  | returned => simp [step, waiterStep, hwaiter]

end

end FlagRace

open FlagRace in
/-- **A wakeup is never lost.** However the stores and the rings fall between the steps of the
waiter: where the flag has the wanted value, and a setter that stored it has returned, the waiter
is not left parked. It returns in four more steps. -/
theorem waitUntilFlag_wakes (want flag : Bool) (es : List FlagEvent)
    (hflag : (Machine.run (step want) (init flag) es).flag = want)
    (hsettled : (Machine.run (step want) (init flag) es).Settled) :
    ¬ (Machine.run (step want) (init flag) es).LeftParked ∧
      ∀ a b c d : Bool, (Machine.run (step want) (init flag)
        (es ++ [.waiter a, .waiter b, .waiter c, .waiter d])).waiter = .returned := by
  have hnot := (inv_run want flag es).not_leftParked hflag hsettled
  refine ⟨hnot, fun a b c d => ?_⟩
  rw [Machine.run_append]
  exact returned_of_not_leftParked hflag hnot a b c d

open FlagRace in
/-- The flag is off; it is stored on and off while the waiter parks, then stored on, and the setter
rings: the waiter is not left parked. -/
theorem toggled_wakes :
    ¬ (Machine.run (step true) (init false) [.waiter true, .waiter true, .waiter true,
        .store true, .store false, .store true, .notifyWaiters 2]).LeftParked ∧
      (Machine.run (step true) (init false) ([.waiter true, .waiter true, .waiter true,
        .store true, .store false, .store true, .notifyWaiters 2] ++
        [.waiter true, .waiter true, .waiter true, .waiter true])).waiter = .returned :=
  have h := waitUntilFlag_wakes true false [.waiter true, .waiter true, .waiter true,
    .store true, .store false, .store true, .notifyWaiters 2] (by decide)
    (.inr ⟨2, by decide, by decide⟩)
  ⟨h.1, h.2 true true true true⟩

end ClipBridge
