import ClipBridge.Client.Attempt
import ClipBridge.Lib.Potential

/-!
# How often the worker dials

`run` of `core/src/client.rs` waits between two session attempts, each time twice as long as the
last time, but not after a session that was stable, and not if the host asks for the next attempt.
As a stable session starts the backoff anew, the most that a bad network can get out of it are
attempts after 1, 2, 4 and 8 seconds, and the fifth one after a session that was just stable: five
attempts in 45 seconds.

* `backoffs`, `backed_step` — the backoff is one of six durations.
* `reserve` — what is yet to be waited, or paid by the host, for the attempts made so far.
* `potential_step` — an attempt costs nine seconds, and only time and calls of the host pay.
* `paced_run` — so in any stretch of any run there are few attempts.
-/

namespace ClipBridge

/-- In the loop of `wait_while_relay_suspended`. -/
def RunTask.suspends : RunTask → Bool
  | .suspendedHead | .suspendedArm | .suspended _ => true
  | _ => false

namespace Client

variable {c c' : Client}

/-! ## The backoff -/

/-- What an attempt costs. -/
def attemptCost : Duration := Duration.fromSecs 9

/-- What a call of the host pays that may have the next attempt come early. -/
def callPay : Duration := Duration.fromSecs 30

/-- The backoff is one of these. -/
def backoffs : List Duration := [1, 2, 4, 8, 16, 30].map Duration.fromSecs

/-- What the waits from backoff `b` on fall short of the cost. -/
def shortfall (b : Duration) : Duration := ((backoffs.filter (b ≤ ·)).map (attemptCost - ·)).sum

theorem double_mem_backoffs : ∀ b ∈ backoffs, min (b * 2) maxBackoff ∈ backoffs := by
  decide

theorem shortfall_le : ∀ b ∈ backoffs, attemptCost + shortfall b ≤ callPay := by
  decide

theorem shortfall_min : attemptCost + shortfall minBackoff = callPay := by
  decide

/-- A wait with backoff `b` pays for an attempt. -/
theorem shortfall_double : ∀ b ∈ backoffs,
    attemptCost + shortfall (min (b * 2) maxBackoff) ≤ min callPay (shortfall b + b) := by
  decide

/-! ## What is owed -/

/-- What has been waited, or paid by the host, for the next attempt. A session that has become
stable has paid for it. -/
def reserveAt (idle : Bool) (backoff : Duration) (sessionStarted now : Instant) :
    RunTask → Duration
  | .gate => if idle then 0 else attemptCost + shortfall backoff
  | .suspendedHead | .suspendedArm | .suspended _ => if idle then 0 else callPay
  | .backoffHead deadline | .backoffArm deadline | .backingOff deadline _ =>
      min callPay (shortfall backoff + (backoff - (deadline - now)))
  | .returned => 0
  | _ => max (shortfall backoff) (min (now - sessionStarted) reconnectStableSession)

/-- It grows no faster than time passes. -/
theorem reserveAt_later (idle : Bool) (backoff : Duration) (sessionStarted now : Instant)
    (d : Duration) (task : RunTask) :
    reserveAt idle backoff sessionStarted (now + d) task ≤
      reserveAt idle backoff sessionStarted now task + d := by
  cases task <;> simp only [reserveAt] <;> unfold Duration Instant at * <;> omega

/-- To begin with idle mode costs nothing, and to end it no more than what the call pays. -/
theorem reserveAt_idle {backoff : Duration} (hbacked : backoff ∈ backoffs)
    (sessionStarted now : Instant) (idle enabled : Bool) (task : RunTask) :
    reserveAt enabled backoff sessionStarted now task ≤
      reserveAt idle backoff sessionStarted now task + if enabled then 0 else callPay := by
  have hshort := shortfall_le _ hbacked
  cases task <;> cases idle <;> cases enabled <;>
    simp only [reserveAt, if_true, Bool.false_eq_true, if_false] <;>
    unfold Duration Instant at * <;> omega

theorem reserveAt_le {backoff : Duration} (hbacked : backoff ∈ backoffs) (idle : Bool)
    (sessionStarted now : Instant) (task : RunTask) :
    reserveAt idle backoff sessionStarted now task ≤ callPay := by
  have hshort := shortfall_le _ hbacked
  have hstable : reconnectStableSession = callPay := rfl
  cases task <;> cases idle <;> simp only [reserveAt, if_true, Bool.false_eq_true, if_false] <;>
    unfold Duration Instant at * <;> omega

def taskReserve (c : Client) : Duration :=
  reserveAt c.reconnectIdleMode c.backoff c.sessionStarted c.now c.task

/-- The same for the client, whose flag for the next attempt is paid for as well. -/
def reserve (c : Client) : Duration :=
  c.taskReserve + if c.reconnectRequested then callPay else 0

/-- The attempts, the reserve and the time have changed by no more than `pay`. -/
def Paid (pay : Duration) (c c' : Client) : Prop :=
  attemptCost * c'.attempts + c'.reserve + c.now ≤
    attemptCost * c.attempts + c.reserve + c'.now + pay

/-- The reserve of a session attempt. -/
theorem reserveAt_attempting {idle : Bool} {backoff : Duration} {sessionStarted now : Instant}
    {task : RunTask} (h : task.attempting = true) :
    reserveAt idle backoff sessionStarted now task =
      max (shortfall backoff) (min (now - sessionStarted) reconnectStableSession) := by
  cases task <;> first
    | rfl
    | cases h

theorem reserveAt_inAttempt {idle : Bool} {backoff : Duration} {sessionStarted now : Instant}
    {task : RunTask} (h : task.inAttempt = true) :
    reserveAt idle backoff sessionStarted now task ≤
      max (shortfall backoff) (min (now - sessionStarted) reconnectStableSession) := by
  cases task <;> first
    | exact Nat.le_refl _
    | exact Nat.zero_le _
    | cases h

theorem paid_of_taskReserve (hattempts : c'.attempts = c.attempts)
    (hrequested : c'.reconnectRequested = true → c.reconnectRequested = true)
    (hreserve : c'.taskReserve + c.now ≤ c.taskReserve + c'.now) : Paid 0 c c' := by
  have hflag : (if c'.reconnectRequested then callPay else 0) ≤
      if c.reconnectRequested then callPay else 0 := by
    by_cases hreq : c'.reconnectRequested = true
    · rw [if_pos hreq, if_pos (hrequested hreq)]
    · rw [if_neg hreq]
      exact Nat.zero_le _
  unfold Paid reserve
  rw [hattempts]
  unfold Duration Instant at *
  omega

/-- The same in a step that takes no time. -/
theorem paid_at_once (hattempts : c'.attempts = c.attempts)
    (hrequested : c'.reconnectRequested = c.reconnectRequested) (hnow : c'.now = c.now)
    (hreserve : c'.taskReserve ≤ c.taskReserve) : Paid 0 c c' :=
  paid_of_taskReserve hattempts (fun hreq => hrequested ▸ hreq)
    (hnow ▸ Nat.add_le_add_right hreserve _)

/-- Inside a session attempt, the reserve grows no faster than time passes. -/
theorem paid_within {item : Option WsItem} (h : Within item (·.inAttempt = true) c c')
    (htask : c.task.attempting = true) : Paid 0 c c' := by
  refine paid_of_taskReserve h.attempts h.reconnectRequested ?_
  have hnow := h.now
  unfold taskReserve
  rw [reserveAt_attempting htask, h.backoff, h.sessionStarted]
  refine Nat.le_trans (Nat.add_le_add_right (reserveAt_inAttempt h.task) _) ?_
  unfold Duration Instant at *
  omega

/-! ## Outside a session attempt -/

theorem paid_refl (c : Client) : Paid 0 c c :=
  paid_at_once rfl rfl rfl (Nat.le_refl _)

theorem taskReserve_of_gate (htask : c.task = .gate) :
    c.taskReserve = if c.reconnectIdleMode then 0 else attemptCost + shortfall c.backoff := by
  simp only [taskReserve, htask, reserveAt]

theorem taskReserve_gate_le (htask : c.task = .gate) :
    c.taskReserve ≤ attemptCost + shortfall c.backoff := by
  rw [taskReserve_of_gate htask]
  split
  · exact Nat.zero_le _
  · exact Nat.le_refl _

/-- An attempt starts. -/
theorem paid_connect (c₀ c : Client) (hattempts : c.attempts = c₀.attempts)
    (hrequested : c.reconnectRequested = c₀.reconnectRequested) (hnow : c.now = c₀.now)
    (hreserve : attemptCost + shortfall c.backoff ≤ c₀.taskReserve) : Paid 0 c₀ c.connect := by
  have hconnect : c.connect.taskReserve = max (shortfall c.backoff) (min (c.now - c.now)
      reconnectStableSession) := rfl
  have hflag : c.connect.reconnectRequested = c₀.reconnectRequested := hrequested
  have hclock : c.connect.now = c₀.now := hnow
  have hcount : c.connect.attempts = c₀.attempts + 1 := by
    rw [← hattempts]
    rfl
  unfold Paid reserve
  rw [hconnect, hflag, hclock, hcount, Nat.mul_succ]
  unfold Duration Instant at *
  simp only [Nat.sub_self, Nat.zero_min, Nat.max_zero]
  omega

theorem taskReserve_of_suspends (h : c.task.suspends = true) :
    c.taskReserve = if c.reconnectIdleMode then 0 else callPay := by
  cases htask : c.task with
  | suspendedHead => simp only [taskReserve, htask, reserveAt]
  | suspendedArm => simp only [taskReserve, htask, reserveAt]
  | suspended waiter => simp only [taskReserve, htask, reserveAt]
  | _ =>
      rw [htask] at h
      cases h

theorem paid_onGate (htask : c.task = .gate) : Paid 0 c c.onGate := by
  unfold onGate
  split
  · next hidle =>
      refine paid_at_once rfl rfl rfl ?_
      rw [taskReserve_of_suspends rfl]
      exact Nat.le_trans (Nat.le_of_eq (if_pos hidle)) (Nat.zero_le _)
  · next hidle =>
      refine paid_connect c c rfl rfl rfl (Nat.le_of_eq ?_)
      rw [taskReserve_of_gate htask, if_neg hidle]

/-- The worker stays suspended. -/
theorem paid_suspends (h : c.task.suspends = true) (h' : c'.task.suspends = true)
    (hattempts : c'.attempts = c.attempts)
    (hrequested : c'.reconnectRequested = c.reconnectRequested)
    (hidle : c'.reconnectIdleMode = c.reconnectIdleMode) (hnow : c'.now = c.now) :
    Paid 0 c c' := by
  refine paid_at_once hattempts hrequested hnow ?_
  rw [taskReserve_of_suspends h, taskReserve_of_suspends h', hidle]

/-- The worker leaves the suspension: the host has paid. -/
theorem paid_resume (h : c.task.suspends = true) (hidle : ¬ c.reconnectIdleMode = true) :
    Paid 0 c c.resume := by
  refine paid_connect c { c with backoff := minBackoff } rfl rfl rfl ?_
  rw [taskReserve_of_suspends h, if_neg hidle]
  exact Nat.le_of_eq shortfall_min

theorem paid_returned (htask : c'.task = .returned) (hattempts : c'.attempts = c.attempts)
    (hrequested : c'.reconnectRequested = c.reconnectRequested) (hnow : c'.now = c.now) :
    Paid 0 c c' := by
  refine paid_at_once hattempts hrequested hnow ?_
  simp only [taskReserve, htask, reserveAt]
  exact Nat.zero_le _

theorem paid_onSuspendedHead (htask : c.task = .suspendedHead) : Paid 0 c c.onSuspendedHead := by
  have hsuspends : c.task.suspends = true := by rw [htask]; rfl
  unfold onSuspendedHead
  split
  · exact paid_suspends hsuspends rfl rfl rfl rfl rfl
  · next hidle => exact paid_resume hsuspends hidle

theorem paid_onSuspended {waiter : Notified} (htask : c.task = .suspended waiter) (io : Answer) :
    Paid 0 c (c.onSuspended io waiter) := by
  have hsuspends : c.task.suspends = true := by rw [htask]; rfl
  unfold onSuspended
  dsimp only
  split
  · unfold onSuspendedCmd
    split
    · exact paid_returned rfl rfl rfl rfl
    · split
      · exact paid_returned rfl rfl rfl rfl
      · exact paid_suspends hsuspends rfl rfl rfl rfl rfl
  · split
    · split
      · exact paid_suspends hsuspends rfl rfl rfl rfl rfl
      · next hidle => exact paid_resume hsuspends hidle
    · exact paid_refl c

/-! ### Between two attempts -/

/-- The worker begins to wait. -/
theorem taskReserve_waiting {deadline : Instant} (htask : c.task = .backoffHead deadline)
    (hdeadline : deadline = c.now + c.backoff) :
    c.taskReserve = min callPay (shortfall c.backoff) := by
  simp only [taskReserve, htask, reserveAt, hdeadline]
  congr 1
  unfold Duration Instant at *
  omega

theorem paid_onEnded {result : Except String Unit} (htask : c.task = .ended result) :
    Paid 0 c (c.onEnded result) := by
  have howed : c.taskReserve =
      max (shortfall c.backoff) (min (c.now - c.sessionStarted) reconnectStableSession) := by
    simp only [taskReserve, htask, reserveAt]
  have hstable : reconnectStableSession ≤ c.now.durationSince c.sessionStarted →
      callPay ≤ c.taskReserve := by
    intro hstable
    rw [howed]
    exact Nat.le_trans (Nat.le_min.2 ⟨hstable, Nat.le_refl _⟩) (Nat.le_max_right _ _)
  have hwait : shortfall c.backoff ≤ c.taskReserve := howed ▸ Nat.le_max_left _ _
  unfold onEnded
  dsimp only
  split
  · split
    · next hidle =>
        refine paid_at_once rfl rfl rfl ?_
        rw [taskReserve_of_gate rfl]
        exact Nat.le_trans (Nat.le_of_eq (if_pos hidle)) (Nat.zero_le _)
    · split
      · next hlong =>
          -- A stable session that was closed: the next attempt comes at once.
          refine paid_at_once rfl rfl rfl (Nat.le_trans (taskReserve_gate_le rfl) ?_)
          exact Nat.le_trans (Nat.le_of_eq shortfall_min) (hstable (of_decide_eq_true hlong))
      · refine paid_at_once rfl rfl rfl ?_
        rw [taskReserve_waiting rfl rfl]
        exact Nat.le_trans (Nat.min_le_right _ _) hwait
  · split
    · next hidle =>
        refine paid_at_once rfl rfl rfl ?_
        rw [taskReserve_of_gate rfl]
        exact Nat.le_trans (Nat.le_of_eq (if_pos hidle)) (Nat.zero_le _)
    · split
      · next hlong =>
          refine paid_at_once rfl rfl rfl ?_
          rw [taskReserve_waiting rfl rfl]
          exact Nat.le_trans (Nat.min_le_left _ _) (hstable (of_decide_eq_true hlong))
      · refine paid_at_once rfl rfl rfl ?_
        rw [taskReserve_waiting rfl rfl]
        exact Nat.le_trans (Nat.min_le_right _ _) hwait

theorem paid_onBackoffHead {deadline : Instant} (htask : c.task = .backoffHead deadline) :
    Paid 0 c (c.onBackoffHead deadline) := by
  unfold onBackoffHead
  split
  · next hreq =>
      -- The host has paid for the attempt when it set the flag.
      set c' := { c with
        reconnectRequested := false, backoff := minBackoff, task := RunTask.gate } with hc'
      have hgate : c'.taskReserve ≤ callPay :=
        Nat.le_trans (taskReserve_gate_le rfl) (Nat.le_of_eq shortfall_min)
      have hafter : c'.reserve = c'.taskReserve := rfl
      have hbefore : c.reserve = c.taskReserve + callPay := by rw [reserve, if_pos hreq]
      have hnow : c'.now = c.now := rfl
      have hattempts : c'.attempts = c.attempts := rfl
      unfold Paid
      rw [hafter, hbefore, hnow, hattempts]
      unfold Duration Instant at *
      omega
  · refine paid_at_once rfl rfl rfl (Nat.le_of_eq ?_)
    simp only [taskReserve, htask, reserveAt]
    rfl

theorem paid_onBackingOff {deadline : Instant} {waiter : Notified}
    (htask : c.task = .backingOff deadline waiter) (hbacked : c.backoff ∈ backoffs)
    (io : Answer) : Paid 0 c (c.onBackingOff io deadline waiter) := by
  unfold onBackingOff
  dsimp only
  split
  · next hgo =>
      have hdue : deadline ≤ c.now := of_decide_eq_true (Bool.and_eq_true_iff.1 hgo).1
      have hwaited : c.taskReserve = min callPay (shortfall c.backoff + c.backoff) := by
        simp only [taskReserve, htask, reserveAt, Nat.sub_eq_zero_of_le hdue, Nat.sub_zero]
      refine paid_at_once rfl rfl rfl (Nat.le_trans (taskReserve_gate_le rfl) ?_)
      rw [hwaited]
      exact shortfall_double _ hbacked
  · split
    · refine paid_at_once rfl rfl rfl (Nat.le_of_eq ?_)
      simp only [taskReserve, htask, reserveAt]
      rfl
    · exact paid_refl c

/-! ## Every step -/

section

variable [Aead] [ClipJson] (cfg : RunConfig)

theorem paid_work (hbacked : c.backoff ∈ backoffs) (io : Answer) : Paid 0 c (c.work cfg io) := by
  by_cases hattempting : c.task.attempting = true
  · exact paid_within (within_work cfg hattempting io) hattempting
  · unfold work
    split
    case h_1 htask => exact paid_onGate htask
    case h_2 htask => exact paid_onSuspendedHead htask
    case h_3 htask =>
      exact paid_suspends (by rw [htask]; rfl) rfl rfl rfl rfl rfl
    case h_4 waiter htask => exact paid_onSuspended htask io
    case h_13 result htask => exact paid_onEnded htask
    case h_14 deadline htask => exact paid_onBackoffHead htask
    case h_15 deadline htask =>
      refine paid_at_once rfl rfl rfl (Nat.le_of_eq ?_)
      simp only [taskReserve, htask, reserveAt]
      rfl
    case h_16 deadline waiter htask => exact paid_onBackingOff htask hbacked io
    case h_17 => exact paid_refl c
    all_goals
      rename_i htask
      exact absurd (by rw [htask]; rfl) hattempting

omit [Aead] [ClipJson] in
theorem backed_onEnded (hbacked : c.backoff ∈ backoffs) (result : Except String Unit) :
    (c.onEnded result).backoff ∈ backoffs := by
  have hmin : minBackoff ∈ backoffs := by decide
  unfold onEnded
  dsimp only
  split
  · split
    · exact hbacked
    · split
      · exact hmin
      · exact hbacked
  · split
    · exact hbacked
    · split
      · exact hmin
      · exact hbacked

theorem backed_work (hbacked : c.backoff ∈ backoffs) (io : Answer) :
    (c.work cfg io).backoff ∈ backoffs := by
  have hmin : minBackoff ∈ backoffs := by decide
  by_cases hattempting : c.task.attempting = true
  · rw [(within_work cfg hattempting io).backoff]
    exact hbacked
  · unfold work
    split
    case h_1 =>
      unfold onGate
      split
      · exact hbacked
      · exact hbacked
    case h_2 =>
      unfold onSuspendedHead
      split
      · exact hbacked
      · exact hmin
    case h_3 => exact hbacked
    case h_4 waiter _ =>
      unfold onSuspended onSuspendedCmd
      dsimp only
      repeat' split
      all_goals first
        | exact hbacked
        | exact hmin
    case h_13 result _ => exact backed_onEnded hbacked result
    case h_14 deadline _ =>
      unfold onBackoffHead
      split
      · exact hmin
      · exact hbacked
    case h_15 => exact hbacked
    case h_16 =>
      unfold onBackingOff
      dsimp only
      split
      · exact double_mem_backoffs _ hbacked
      · split
        · exact hbacked
        · exact hbacked
    case h_17 => exact hbacked
    all_goals
      rename_i htask
      exact absurd (by rw [htask]; rfl) hattempting

theorem backed_step (c : Client) (e : ClientEvent) (hbacked : c.backoff ∈ backoffs) :
    (step cfg c e).backoff ∈ backoffs := by
  have hsame : (∀ io, e ≠ .work io) → (step cfg c e).backoff = c.backoff := by
    intro he
    cases e with
    | work io => exact absurd rfl (he io)
    | send cmd => simp only [step, enqueue]; split <;> rfl
    | notifyMode => simp only [step, notifyMode]; split <;> rfl
    | notifyWake => simp only [step, notifyWake]; split <;> rfl
    | lanInbound clip => simp only [step]; split <;> rfl
    | _ => rfl
  by_cases he : ∃ io, e = .work io
  · obtain ⟨io, rfl⟩ := he
    exact backed_work cfg hbacked io
  · rw [hsame fun io hio => he ⟨io, hio⟩]
    exact hbacked

/-! ## Every run -/

/-- The calls of the host that may have the next attempt come early. -/
def isCall : ClientEvent → Bool
  | .storeRequested | .storeIdleMode false => true
  | _ => false

def pay (e : ClientEvent) : Duration := if isCall e then callPay else 0

omit [Aead] [ClipJson] in
theorem paid_elapse (c : Client) (d : Duration) :
    Paid 0 c { c with worker := c.worker.wait d } := by
  have hlater : taskReserve { c with worker := c.worker.wait d } ≤ c.taskReserve + d :=
    reserveAt_later c.reconnectIdleMode c.backoff c.sessionStarted c.now d c.task
  have hnow : now { c with worker := c.worker.wait d } = c.now + d := rfl
  refine paid_of_taskReserve rfl id ?_
  rw [hnow]
  unfold Duration Instant at *
  omega

omit [Aead] [ClipJson] in
/-- A call of the host. -/
theorem paid_call {pay : Duration} (hattempts : c'.attempts = c.attempts) (hnow : c'.now = c.now)
    (hreserve : c'.reserve ≤ c.reserve + pay) : Paid pay c c' := by
  unfold Paid
  rw [hattempts, hnow]
  unfold Duration Instant at *
  omega

omit [Aead] [ClipJson] in
theorem paid_storeIdleMode (hbacked : c.backoff ∈ backoffs) (enabled : Bool) :
    Paid (pay (.storeIdleMode enabled)) c
      { c with reconnectIdleMode := enabled, modeSetters := c.modeSetters + 1 } := by
  have hidle : taskReserve { c with
      reconnectIdleMode := enabled, modeSetters := c.modeSetters + 1 } ≤
        c.taskReserve + if enabled then 0 else callPay :=
    reserveAt_idle hbacked c.sessionStarted c.now c.reconnectIdleMode enabled c.task
  have hpay : pay (.storeIdleMode enabled) = if enabled then 0 else callPay := by
    cases enabled <;> rfl
  refine paid_call rfl rfl ?_
  rw [hpay]
  calc reserve { c with reconnectIdleMode := enabled, modeSetters := c.modeSetters + 1 }
      ≤ c.taskReserve + (if enabled then 0 else callPay) +
          (if c.reconnectRequested then callPay else 0) := Nat.add_le_add_right hidle _
    _ = c.reserve + if enabled then 0 else callPay := Nat.add_right_comm _ _ _

omit [Aead] [ClipJson] in
/-- The flag is paid for when it is set. -/
theorem paid_storeRequested (c : Client) : Paid (pay .storeRequested) c
    { c with reconnectRequested := true, wakeSetters := c.wakeSetters + 1 } := by
  refine paid_call rfl rfl ?_
  have hpay : pay .storeRequested = callPay := rfl
  unfold reserve
  rw [hpay, if_pos rfl]
  show c.taskReserve + callPay ≤ c.taskReserve + _ + callPay
  exact Nat.add_le_add_right (Nat.le_add_right _ _) _

theorem paid_step (c : Client) (e : ClientEvent) (hbacked : c.backoff ∈ backoffs) :
    Paid (pay e) c (step cfg c e) := by
  cases e with
  | work io => exact paid_work cfg hbacked io
  | elapse d => exact paid_elapse c d
  | storeIdleMode enabled => exact paid_storeIdleMode hbacked enabled
  | storeRequested => exact paid_storeRequested c
  | send cmd =>
      simp only [step, enqueue]
      split
      · exact paid_refl c
      · exact paid_at_once rfl rfl rfl (Nat.le_refl _)
  | notifyMode =>
      simp only [step, notifyMode]
      split
      · exact paid_refl c
      · exact paid_at_once rfl rfl rfl (Nat.le_refl _)
  | notifyWake =>
      simp only [step, notifyWake]
      split
      · exact paid_refl c
      · exact paid_at_once rfl rfl rfl (Nat.le_refl _)
  | lanInbound clip =>
      simp only [step]
      split
      · exact paid_refl c
      · have hclock := (receive_keeps cfg.toClientConfig (c.worker.wait 0) (.lan clip)).1
        refine paid_at_once rfl rfl hclock (Nat.le_of_eq ?_)
        simp only [taskReserve, now, onLanInbound, hclock]
        rfl
  | dropSender => exact paid_at_once rfl rfl rfl (Nat.le_refl _)
  | setLanActive enabled => exact paid_at_once rfl rfl rfl (Nat.le_refl _)

/-! ## Every stretch of a run -/

/-- Attempts cost, and time pays. -/
def potential (c : Client) : ℤ := attemptCost * c.attempts + c.reserve - c.now

omit [Aead] [ClipJson] in
theorem reserve_le (hbacked : c.backoff ∈ backoffs) : c.reserve ≤ callPay + callPay := by
  have htask : c.taskReserve ≤ callPay := reserveAt_le hbacked _ _ _ _
  unfold reserve
  split
  · exact Nat.add_le_add_right htask _
  · exact Nat.le_trans htask (Nat.le_add_right _ _)

theorem potential_step (c : Client) (e : ClientEvent) (hbacked : c.backoff ∈ backoffs) :
    potential (step cfg c e) ≤ potential c + (pay e : ℤ) := by
  have hpaid := paid_step cfg c e hbacked
  unfold Paid at hpaid
  unfold potential
  unfold Duration Instant at *
  omega

omit [Aead] [ClipJson] in
theorem sum_pay (es : List ClientEvent) :
    (es.map fun e => (pay e : ℤ)).sum = callPay * es.countP isCall := by
  induction es with
  | nil => simp
  | cons e es ih =>
      rw [List.map_cons, List.sum_cons, ih, List.countP_cons, pay]
      split <;> push_cast <;> ring

theorem backed_run (es : List ClientEvent) : (run cfg es).backoff ∈ backoffs :=
  Machine.invariant_run (backed_step cfg) (show minBackoff ∈ backoffs by decide) es

/-- **The worker dials rarely**: in any stretch of any run, an attempt for every nine seconds that
pass, ten more for every three calls of the host that may have the next attempt come early, and no
more than six besides. -/
theorem paced_run (cfg : RunConfig) (pre post : List ClientEvent) :
    let c := run cfg pre
    let c' := run cfg (pre ++ post)
    attemptCost * (c'.attempts - c.attempts) ≤
      (c'.now - c.now) + callPay * (post.countP isCall + 2) := by
  intro c c'
  have hc : c.backoff ∈ backoffs := backed_run cfg pre
  have hrun : c' = Machine.run (step cfg) c post := Machine.run_append _ _ _
  have hpotential : potential c' ≤ potential c + callPay * post.countP isCall := by
    rw [hrun, ← sum_pay]
    exact Machine.potential_run (backed_step cfg) (potential_step cfg) hc post
  have hreserve : c.reserve ≤ callPay + callPay := reserve_le hc
  unfold potential at hpotential
  rw [Nat.mul_add]
  rcases Nat.le_total c'.attempts c.attempts with hle | hle
  · rw [Nat.sub_eq_zero_of_le hle]
    exact Nat.zero_le _
  · obtain ⟨k, hk⟩ := Nat.exists_eq_add_of_le hle
    rw [hk] at hpotential ⊢
    rw [Nat.add_sub_cancel_left]
    rw [Nat.cast_add, mul_add] at hpotential
    unfold Duration Instant at *
    omega

end

end Client

end ClipBridge
