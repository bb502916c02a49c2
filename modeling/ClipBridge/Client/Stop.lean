import ClipBridge.Client.CommandOrder

/-!
# How soon `Stop` is read

The worker reads the command channel in the loop of a session and in the suspended loop, and
nowhere else: not while it dials, and not while it sleeps out a backoff. So a `Stop` is read by
the first session attempt after it that gets as far as its loop, and by no attempt that does not.

* `StopsInTime` — after a `Stop`, at most one more session attempt starts.
* `Lasts` — when an attempt begun since ends without having read the `Stop`, idle mode is on.
* `stopsInTime_run` — a run that lasts stops in time.
* `redials_forever` — while every dial fails, there is no bound on the attempts.
-/

namespace ClipBridge

namespace Client

/-- `Stop` has been sent, or the sender of the channel is gone. -/
def StopSent (c : Client) : Prop := Cmd.stop ∈ c.sent ∨ c.senderDropped

/-- Beyond `base` attempts, the worker stands outside of a session attempt, and goes on, only in
idle mode: it is then suspended, and reads the channel. -/
def Lasts (base : Nat) (c : Client) : ClientEvent → Prop
  | .work _ => base < c.attempts → c.task.attempting = false → c.task ≠ .returned →
      c.reconnectIdleMode
  | _ => True

instance decidableLasts (base : Nat) (c : Client) : (e : ClientEvent) → Decidable (Lasts base c e)
  | .work _ => inferInstanceAs (Decidable (_ → _ → _ → _))
  | .send _ | .dropSender | .storeIdleMode _ | .notifyMode | .storeRequested | .notifyWake
  | .setLanActive _ | .elapse _ | .lanInbound _ => isTrue trivial

section

variable [Aead] [ClipJson] {cfg : RunConfig} {c : Client}

/-- In the run that goes on from `pre` with `post`, at most one more session attempt starts, if
`Stop` was sent in `pre`. -/
def StopsInTime (cfg : RunConfig) (pre post : List ClientEvent) : Prop :=
  StopSent (run cfg pre) → (run cfg (pre ++ post)).attempts ≤ (run cfg pre).attempts + 1

/-- A step that lasts does not start a second attempt. -/
theorem attempts_step {base : Nat} (c : Client) (e : ClientEvent) (hlasts : Lasts base c e)
    (h : c.attempts ≤ base + 1) : (step cfg c e).attempts ≤ base + 1 := by
  rcases step_cases cfg c e with ⟨cmd, rfl⟩ | ⟨io, rfl⟩ | hq
  · simp only [step, enqueue]
    split
    · exact h
    · exact h
  · by_cases hret : c.task = .returned
    · rw [step, work_returned hret]
      exact h
    show (c.work cfg io).attempts ≤ base + 1
    cases work_moves cfg c io with
    | writes _ hw => rw [hw.attempts]; exact h
    | connect _ hw _ hout hidle =>
        -- A second attempt would start outside of idle mode.
        have hfirst : ¬ base < c.attempts := by
          intro hbase
          have := hlasts hbase hout hret
          rw [hidle] at this
          cases this
        rw [hw.attempts]
        show c.attempts + 1 ≤ base + 1
        omega
    | aside q rest _ _ _ hw => rw [hw.attempts]; exact h
    | stop q rest _ _ _ hw => rw [hw.attempts]; exact h
    | apply q c₀ task hnext happlies =>
        rw [happlies.writes.attempts]
        rcases nextCmd_cases hnext with ⟨-, -, h₀⟩ | ⟨-, -, h₀⟩ <;> rw [h₀] <;> exact h
  · rw [hq.attempts]
    exact h

/-- **A run that lasts stops in time**: after a `Stop` it starts at most one more session
attempt. -/
theorem stopsInTime_run (cfg : RunConfig) (pre post : List ClientEvent)
    (h : Machine.Along (step cfg) (Lasts (run cfg pre).attempts) (run cfg pre) post) :
    StopsInTime cfg pre post := by
  intro _
  rw [run, Machine.run_append]
  exact Machine.invariant_along (I := fun c => c.attempts ≤ (run cfg pre).attempts + 1)
    attempts_step (Nat.le_succ _) h

/-! ## A relay that cannot be reached -/

/-- The worker is about to start a session attempt, and no `reconnect_now` is pending. -/
structure Redials (c : Client) : Prop where
  gate : c.task = .gate
  idle : c.reconnectIdleMode = false
  requested : c.reconnectRequested = false

/-- A dial that fails, and the backoff after it. -/
def failedDial (backoff : Duration) : List ClientEvent :=
  [.work {}, .work { result := .error "connection refused" }, .work {}, .work {}, .work {},
    .elapse backoff, .work {}]

theorem redials_failedDial (cfg : RunConfig) (h : Redials c) :
    Redials (Machine.run (step cfg) c (failedDial c.backoff)) ∧
      (Machine.run (step cfg) c (failedDial c.backoff)).attempts = c.attempts + 1 := by
  obtain ⟨hgate, hidle, hrequested⟩ := h
  -- The attempt ends at once, so it was not a stable session.
  have hunstable : ¬ reconnectStableSession ≤ c.now.durationSince c.now := by
    simp [Instant.durationSince, reconnectStableSession, Duration.fromSecs]
  let failed : Client := { c.connect with task := .ended (.error "connection refused") }
  let waiting : Client :=
    { failed.onState (.error "connection refused") with task := .backoffHead (c.now + c.backoff) }
  let armed : Client :=
    { waiting with task := .backingOff (c.now + c.backoff) waiting.reconnectWake.notified }
  let due : Client := { armed with worker := armed.worker.wait c.backoff }
  have hconnect : c.work cfg {} = c.connect := by
    simp only [work, hgate, onGate, hidle, Bool.false_eq_true, if_false]
  have hended : failed.work cfg {} = waiting := by
    show failed.onEnded (.error "connection refused") = waiting
    have hnotIdle : ¬ (failed.onState (.error "connection refused")).reconnectIdleMode = true := by
      show ¬ c.reconnectIdleMode = true
      rw [hidle]
      exact Bool.false_ne_true
    have hnotStable : ¬ decide
        (reconnectStableSession ≤ failed.now.durationSince failed.sessionStarted) = true := by
      rw [decide_eq_true_iff]
      exact hunstable
    unfold onEnded
    dsimp only
    rw [if_neg hnotIdle, if_neg hnotStable]
    rfl
  have harm : (waiting.work cfg {}).work cfg {} = armed := by
    have hhead : waiting.work cfg {} =
        { waiting with task := .backoffArm (c.now + c.backoff) } := by
      show waiting.onBackoffHead (c.now + c.backoff) = _
      have hnone : ¬ waiting.reconnectRequested = true := by
        show ¬ c.reconnectRequested = true
        rw [hrequested]
        exact Bool.false_ne_true
      unfold onBackoffHead
      rw [if_neg hnone]
    rw [hhead]
    rfl
  have hdue : due.work cfg {} =
      { due with backoff := min (c.backoff * 2) maxBackoff, task := .gate } := by
    show due.onBackingOff {} (c.now + c.backoff) waiting.reconnectWake.notified = _
    have htrue : decide (c.now + c.backoff ≤ due.now) = true := decide_eq_true (le_refl _)
    simp only [onBackingOff, htrue, Bool.true_and, Bool.true_or, if_true]
    rfl
  have hrun : Machine.run (step cfg) c (failedDial c.backoff) =
      { due with backoff := min (c.backoff * 2) maxBackoff, task := .gate } := by
    simp only [failedDial, Machine.run_cons, Machine.run_nil, step]
    rw [hconnect]
    show (((((failed.work cfg {}).work cfg {}).work cfg {}).step cfg (.elapse c.backoff)).work
      cfg {}) = _
    rw [hended, harm]
    exact hdue
  rw [hrun]
  exact ⟨⟨rfl, hidle, hrequested⟩, rfl⟩

/-- **There is no bound**: while every dial fails, a `Stop` that was sent is not read, and any
number of attempts follows it. -/
theorem redials_forever (cfg : RunConfig) (n : Nat) : ∃ post,
    Redials (run cfg (.send .stop :: post)) ∧ (run cfg (.send .stop :: post)).attempts = n := by
  induction n with
  | zero => exact ⟨[], ⟨rfl, rfl, rfl⟩, rfl⟩
  | succ n ih =>
      obtain ⟨post, hredials, hattempts⟩ := ih
      obtain ⟨hnext, hmore⟩ := redials_failedDial cfg hredials
      refine ⟨post ++ failedDial (run cfg (.send .stop :: post)).backoff, ?_, ?_⟩
      · rw [← List.cons_append, run, Machine.run_append]
        exact hnext
      · rw [← List.cons_append, run, Machine.run_append, hmore, hattempts]

end

/-- `Stop` is sent at once, one dial fails, and the worker dials again. -/
theorem failedDial_not_inTime :
    ¬ @StopsInTime clearAead textJson sampleRunConfig [.send .stop]
      (failedDial minBackoff ++ [.work {}]) := by
  intro h
  have hbound := h (Or.inl (by decide +kernel))
  exact absurd hbound (by decide +kernel)

/-- The next attempt gets as far as its loop, and reads the `Stop` there. -/
theorem nextAttempt_inTime :
    @StopsInTime clearAead textJson sampleRunConfig [.send .stop]
      (opening ++ [.work {}, .work {}, .work {}]) :=
  @stopsInTime_run clearAead textJson sampleRunConfig _ _ (by decide +kernel)

end Client

end ClipBridge
