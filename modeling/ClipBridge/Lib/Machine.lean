import Mathlib.Data.List.Induction

/-!
# Event-driven machines

A machine is a total function `step : σ → ε → σ`: the state, and one event that carries every
choice its environment makes (which task moves, what the clock says, whether a write fails). An
event that is not enabled leaves the state alone, so a *run* is any list of events, and "for
every run" is a quantifier over lists.

* `run` — the state after a list of events.
* `outputs` — what the steps of a run put out.
* `Along` — a predicate of the state and the event, held at every step of a run.
* `invariant_run`, `invariant_along` — the induction, packaged once: an invariant that every
  step keeps (under a condition that holds along the run) holds at the end of the run.
* `invariant_throughout`, `along_of_invariant` — it holds on the way, and so does what it gives.
* `always_iff` — when a property holds in all states of a run.
-/

namespace Machine

variable {σ ε : Type*}

/-! ## Runs -/

/-- The state after a list of events. -/
def run (step : σ → ε → σ) (s : σ) (es : List ε) : σ := es.foldl step s

variable {step : σ → ε → σ}

@[simp] theorem run_nil (s : σ) : run step s [] = s := rfl

@[simp] theorem run_cons (s : σ) (e : ε) (es : List ε) :
    run step s (e :: es) = run step (step s e) es := rfl

theorem run_append (s : σ) (es fs : List ε) :
    run step s (es ++ fs) = run step (run step s es) fs :=
  List.foldl_append

theorem run_concat (s : σ) (es : List ε) (e : ε) :
    run step s (es ++ [e]) = step (run step s es) e := by
  rw [run_append, run_cons, run_nil]

/-! ## Outputs -/

/-- What the steps of a run put out, in order. -/
def outputs {β : Type*} (step : σ → ε → σ) (out : σ → ε → List β) : σ → List ε → List β
  | _, [] => []
  | s, e :: es => out s e ++ outputs step out (step s e) es

section

variable {β : Type*} {out : σ → ε → List β}

theorem outputs_concat (s : σ) (es : List ε) (e : ε) :
    outputs step out s (es ++ [e]) = outputs step out s es ++ out (run step s es) e := by
  induction es generalizing s with
  | nil => simp [outputs]
  | cons f es ih =>
      rw [List.cons_append, outputs, ih, run_cons, outputs, List.append_assoc]

end

/-! ## Conditions along a run -/

/-- `P` holds of the state and the event at every step of the run. -/
def Along (step : σ → ε → σ) (P : σ → ε → Prop) : σ → List ε → Prop
  | _, [] => True
  | s, e :: es => P s e ∧ Along step P (step s e) es

variable {P Q : σ → ε → Prop}

@[simp] theorem along_nil (s : σ) : Along step P s [] := trivial

@[simp] theorem along_cons {s : σ} {e : ε} {es : List ε} :
    Along step P s (e :: es) ↔ P s e ∧ Along step P (step s e) es := Iff.rfl

instance decidableAlong [∀ s e, Decidable (P s e)] :
    (s : σ) → (es : List ε) → Decidable (Along step P s es)
  | _, [] => isTrue trivial
  | s, e :: es =>
      have := decidableAlong (step s e) es
      inferInstanceAs (Decidable (P s e ∧ Along step P (step s e) es))

theorem along_append {s : σ} {es fs : List ε} :
    Along step P s (es ++ fs) ↔ Along step P s es ∧ Along step P (run step s es) fs := by
  induction es generalizing s with
  | nil => simp
  | cons e es ih => simp [ih, and_assoc]

theorem along_concat {s : σ} {es : List ε} {e : ε} :
    Along step P s (es ++ [e]) ↔ Along step P s es ∧ P (run step s es) e := by
  simp [along_append]

/-- `Along` is a statement about every way of cutting the run at one of its steps. -/
theorem along_iff {s : σ} {es : List ε} :
    Along step P s es ↔ ∀ pre e post, es = pre ++ e :: post → P (run step s pre) e := by
  constructor
  · rintro h pre e post rfl
    exact (along_append.1 h).2.1
  · intro h
    induction es using List.reverseRecOn with
    | nil => trivial
    | append_singleton es e ih =>
        refine along_concat.2 ⟨ih fun pre f post hes => ?_, h es e [] rfl⟩
        exact h pre f (post ++ [e]) (by rw [hes]; simp)

/-- A condition on the events alone. -/
theorem along_iff_forall_mem {P : ε → Prop} {s : σ} {es : List ε} :
    Along step (fun _ e => P e) s es ↔ ∀ e ∈ es, P e := by
  induction es generalizing s with
  | nil => simp
  | cons e es ih => rw [along_cons, ih, List.forall_mem_cons]

/-- Two conditions that agree on the events of a run agree along it. -/
theorem along_congr_mem {s : σ} {es : List ε} (h : ∀ e ∈ es, ∀ s, P s e ↔ Q s e) :
    Along step P s es ↔ Along step Q s es := by
  induction es generalizing s with
  | nil => simp
  | cons e es ih =>
      obtain ⟨he, hes⟩ := List.forall_mem_cons.1 h
      rw [along_cons, along_cons, he, ih hes]

theorem along_mono (hPQ : ∀ s e, P s e → Q s e) {s : σ} {es : List ε} (h : Along step P s es) :
    Along step Q s es := by
  induction es generalizing s with
  | nil => trivial
  | cons e es ih => exact ⟨hPQ s e h.1, ih h.2⟩

theorem along_and {s : σ} {es : List ε} :
    Along step (fun s e => P s e ∧ Q s e) s es ↔ Along step P s es ∧ Along step Q s es := by
  induction es generalizing s with
  | nil => simp
  | cons e es ih => rw [along_cons, along_cons, along_cons, ih]; tauto

/-- Two conditions that agree wherever an invariant holds agree along every run, if the second
one keeps the invariant. -/
theorem along_congr {I : σ → Prop} (hstep : ∀ s e, Q s e → I s → I (step s e))
    (hPQ : ∀ s e, I s → (P s e ↔ Q s e)) {s : σ} (hs : I s) {es : List ε} :
    Along step P s es ↔ Along step Q s es := by
  induction es generalizing s with
  | nil => simp
  | cons e es ih =>
      rw [along_cons, along_cons, hPQ s e hs]
      exact and_congr_right fun hQ => ih (hstep s e hQ hs)

/-! ## Invariants -/

/-- **The invariant rule.** What every step keeps, every run keeps. -/
theorem invariant_run {I : σ → Prop} (hstep : ∀ s e, I s → I (step s e)) {s : σ} (hs : I s)
    (es : List ε) : I (run step s es) := by
  induction es generalizing s with
  | nil => exact hs
  | cons e es ih => exact ih (hstep s e hs)

/-- The invariant rule under a condition: what every step that meets `P` keeps, every run
whose steps all meet `P` keeps. -/
theorem invariant_along {I : σ → Prop} (hstep : ∀ s e, P s e → I s → I (step s e)) {s : σ}
    (hs : I s) {es : List ε} (hP : Along step P s es) : I (run step s es) := by
  induction es generalizing s with
  | nil => exact hs
  | cons e es ih => exact ih (hstep s e hP.1 hs) hP.2

/-- The same in every state that the run goes through. -/
theorem invariant_throughout {I : σ → Prop} (hstep : ∀ s e, P s e → I s → I (step s e)) {s : σ}
    (hs : I s) {es : List ε} (hP : Along step P s es) :
    ∀ pre, pre <+: es → I (run step s pre) := by
  rintro pre ⟨post, rfl⟩
  exact invariant_along hstep hs (along_append.1 hP).1

/-- What the invariant gives at a step, it gives at every step of the run. -/
theorem along_of_invariant {I : σ → Prop} (hstep : ∀ s e, P s e → I s → I (step s e))
    (hPQ : ∀ s e, P s e → I s → Q s e) {s : σ} (hs : I s) {es : List ε}
    (hP : Along step P s es) : Along step Q s es := by
  induction es generalizing s with
  | nil => trivial
  | cons e es ih => exact ⟨hPQ s e hP.1 hs, ih (hstep s e hP.1 hs) hP.2⟩

/-- What holds in every state of a run, by a condition on its steps: in a state where `I` holds,
`I` holds after a step exactly if the step meets `P`. An invariant `J` of all runs may help. -/
theorem always_iff {I J : σ → Prop} (hJ : ∀ s e, J s → J (step s e))
    (hI : ∀ s e, J s → I s → (I (step s e) ↔ P s e)) {s : σ} (hJs : J s) (hIs : I s)
    (es : List ε) : (∀ pre, pre <+: es → I (run step s pre)) ↔ Along step P s es := by
  constructor
  · intro h
    rw [along_iff]
    rintro pre e post rfl
    have hnext := h (pre ++ [e]) (by simp)
    rw [run_concat] at hnext
    exact (hI _ e (invariant_run hJ hJs pre) (h pre (List.prefix_append _ _))).1 hnext
  · intro h pre hpre
    have hboth := invariant_throughout (I := fun s => J s ∧ I s)
      (fun s e hP hs => ⟨hJ s e hs.1, (hI s e hs.1 hs.2).2 hP⟩) ⟨hJs, hIs⟩ h pre hpre
    exact hboth.2

end Machine
