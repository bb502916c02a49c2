import ClipBridge.Client.Moves

/-!
# Leaving the suspended loop

`set_reconnect_idle_mode` stores the flag and then rings a bell that only wakes the waiters there
are. The suspended loop loads the flag and then makes its waiter. A ring that falls in between is
lost, and the worker then waits for a ring that has been.

* `LeftParked` — the flag is off, its setters have returned, and the worker does not hear of it.
* `Heard` — the last ring does not fall between the load and the making of the waiter.
* `neverLeftParked_iff` — the worker is never left parked exactly if every ring is heard.
-/

namespace ClipBridge

namespace Client

/-- The flag is off and nobody is about to ring, but the worker is parked in the suspended loop,
or about to park. -/
structure LeftParked (c : Client) : Prop where
  off : c.reconnectIdleMode = false
  returned : c.modeSetters = 0
  parked : c.task = .suspendedArm ∨
    ∃ waiter, c.task = .suspended waiter ∧ c.reconnectMode.woken waiter = false

/-- The last ring after the flag was turned off does not fall between the worker's load of the
flag and the making of its waiter. -/
def Heard (c : Client) : ClientEvent → Prop
  | .notifyMode => c.modeSetters = 1 → c.reconnectIdleMode = false → c.task ≠ .suspendedArm
  | _ => True

/-- The worker's waiter is one of the bell's, and nobody has left the worker parked. -/
structure Wakeable (c : Client) : Prop where
  made : ∀ waiter, c.task = .suspended waiter → c.reconnectMode.Made waiter
  never : ¬ LeftParked c

variable {c c' : Client}

/-- What the worker does elsewhere does not matter here. -/
theorem wakeable_elsewhere (harm : c'.task ≠ .suspendedArm)
    (hpark : ∀ waiter, c'.task ≠ .suspended waiter) : Wakeable c' where
  made waiter h := absurd h (hpark waiter)
  never h := by
    rcases h.parked with h | ⟨waiter, h, -⟩
    · exact harm h
    · exact hpark waiter h

/-- The worker stays where it is, and so do the flag, its setters and the bell. -/
theorem Wakeable.of_eq (h : Wakeable c) (htask : c'.task = c.task)
    (hidle : c'.reconnectIdleMode = c.reconnectIdleMode) (hsetters : c'.modeSetters = c.modeSetters)
    (hbell : c'.reconnectMode = c.reconnectMode) : Wakeable c' where
  made waiter hpark := by
    rw [hbell]
    exact h.made waiter (htask ▸ hpark)
  never hleft := by
    refine h.never ⟨hidle ▸ hleft.off, hsetters ▸ hleft.returned, ?_⟩
    rw [← htask, ← hbell]
    exact hleft.parked

theorem wakeable_notifyMode (h : Wakeable c) (hheard : Heard c .notifyMode) :
    Wakeable c.notifyMode := by
  unfold notifyMode
  split
  · exact h
  · rename_i hsome
    constructor
    case made => exact fun waiter hpark => (h.made waiter hpark).notifyWaiters
    case never =>
      rintro ⟨hoff, hreturned, hparked⟩
      have hlast : c.modeSetters = 1 := by
        have : c.modeSetters - 1 = 0 := hreturned
        omega
      rcases hparked with harm | ⟨waiter, hpark, hasleep⟩
      · exact hheard hlast hoff harm
      · -- The ring wakes the waiter there is.
        have hwoken := (h.made waiter hpark).woken
        exact Bool.false_ne_true (hasleep.symm.trans hwoken)

section

variable [Aead] [ClipJson] {cfg : RunConfig}

theorem wakeable_work (h : Wakeable c) (io : Answer) : Wakeable (c.work cfg io) := by
  cases work_moves cfg c io with
  | writes _ hw honward =>
      constructor
      case made =>
        intro waiter hpark
        rw [hw.reconnectMode]
        rcases honward.park waiter hpark with ⟨-, rfl⟩ | hpark
        · exact Notify.made_notified _
        · exact h.made waiter hpark
      case never =>
        rintro ⟨hoff, hreturned, hparked⟩
        rw [hw.reconnectIdleMode] at hoff
        rw [hw.modeSetters] at hreturned
        rw [hw.reconnectMode] at hparked
        rcases hparked with harm | ⟨waiter, hpark, hasleep⟩
        · -- The worker comes here only when it has found the flag on.
          rw [(honward.arm harm).2] at hoff
          cases hoff
        · refine h.never ⟨hoff, hreturned, ?_⟩
          rcases honward.park waiter hpark with ⟨harm, -⟩ | hpark
          · exact Or.inl harm
          · exact Or.inr ⟨waiter, hpark, hasleep⟩
  | connect _ _ htask =>
      exact wakeable_elsewhere (by rw [htask]; simp) (by rw [htask]; simp)
  | aside q rest _ _ _ _ htask =>
      exact wakeable_elsewhere (by rw [htask]; simp) (by rw [htask]; simp)
  | stop q rest _ _ _ _ htask =>
      exact wakeable_elsewhere (by rw [htask]; simp) (by rw [htask]; simp)
  | apply q c₀ task hnext happlies htask =>
      by_cases hstop : q.cmd = .stop
      · exact wakeable_elsewhere (by rw [happlies.stop hstop]; simp)
          (by rw [happlies.stop hstop]; simp)
      · rcases happlies.goes hstop with hgoes | ⟨e, hgoes⟩
        · rcases htask with ⟨rfl, -⟩ | ⟨rfl, -⟩ <;>
            exact wakeable_elsewhere (by rw [hgoes]; simp) (by rw [hgoes]; simp)
        · exact wakeable_elsewhere (by rw [hgoes]; simp) (by rw [hgoes]; simp)

theorem wakeable_step (c : Client) (e : ClientEvent) (hheard : Heard c e) (h : Wakeable c) :
    Wakeable (step cfg c e) := by
  cases e with
  | work io => exact wakeable_work h io
  | notifyMode => exact wakeable_notifyMode h hheard
  | storeIdleMode enabled =>
      -- The caller is still to ring.
      exact ⟨h.made, fun hleft => Nat.succ_ne_zero _ hleft.returned⟩
  | send cmd =>
      simp only [step, enqueue]
      split
      · exact h
      · exact h.of_eq rfl rfl rfl rfl
  | notifyWake =>
      simp only [step, notifyWake]
      split
      · exact h
      · exact h.of_eq rfl rfl rfl rfl
  | lanInbound clip =>
      simp only [step]
      split
      · exact h
      · exact h.of_eq rfl rfl rfl rfl
  | _ => exact h.of_eq rfl rfl rfl rfl

/-- **The worker is never left parked exactly if every ring is heard.** -/
theorem neverLeftParked_iff (cfg : RunConfig) (es : List ClientEvent) :
    (∀ pre, pre <+: es → ¬ LeftParked (run cfg pre)) ↔
      Machine.Along (step cfg) Heard init es := by
  constructor
  · intro h
    rw [Machine.along_iff]
    rintro pre e post rfl
    cases e with
    | notifyMode =>
        intro hlast hoff harm
        refine h (pre ++ [.notifyMode]) (by simp) ?_
        have hrun : run cfg (pre ++ [.notifyMode]) = (run cfg pre).notifyMode :=
          Machine.run_concat _ _ _
        rw [hrun, notifyMode, if_neg (by rw [hlast]; simp)]
        exact ⟨hoff, by rw [hlast], Or.inl harm⟩
    | _ => trivial
  · intro h pre hpre
    have hinit : Wakeable init := wakeable_elsewhere (by simp [init]) (by simp [init])
    exact (Machine.invariant_throughout wakeable_step hinit h pre hpre).never

end

/-- The ring of the second call falls in the gap, and the worker parks. -/
def ringInTheGap : List ClientEvent :=
  [.storeIdleMode true, .notifyMode, .work {}, .work {}, .storeIdleMode false, .notifyMode,
    .work {}]

theorem ringInTheGap_leaves_parked :
    ¬ ∀ pre, pre <+: ringInTheGap → ¬ LeftParked (sampleRun pre) := by
  intro h
  refine h ringInTheGap List.prefix_rfl ⟨by decide +kernel, by decide +kernel, Or.inr ?_⟩
  exact ⟨⟨2⟩, by decide +kernel, by decide +kernel⟩

end Client

end ClipBridge
