import ClipBridge.Lib.Machine

/-!
# Two parties on a duplex link

Each party reads a byte stream and writes one. A party is deterministic: what it does next depends
on its own state and on the bytes that have arrived, and more bytes do not change a step that did
not wait for them. Which party moves when is left open.

* `Party`, `Link` — a party's program, and two of them with the bytes on the way.
* `act_comm` — the parties' steps commute.
* `settles_of_steps` — so if some order of steps ends with both parties halted, then every order in
  which both parties keep getting turns reaches that end.
-/

namespace Duplex

/-- A step reads some of the bytes that have arrived and writes others; it is `none` while the
party waits, and when it has ended. The stream of an ended party is closed. -/
structure Party (σ β : Type) where
  step : σ → List β → Bool → Option (σ × List β × List β)
  ended : σ → Bool
  step_append : ∀ s inbox s' left out, step s inbox false = some (s', left, out) →
    ∀ more closed, step s (inbox ++ more) closed = some (s', left ++ more, out)
  step_ended : ∀ s inbox closed, ended s = true → step s inbox closed = none

@[ext]
structure Link (σ τ β : Type) where
  left : σ
  right : τ
  toRight : List β
  toLeft : List β

inductive Side where
  | left
  | right
  deriving DecidableEq

variable {σ τ β : Type} (P : Party σ β) (Q : Party τ β)

/-- A turn of one side. -/
def act (s : Link σ τ β) : Side → Option (Link σ τ β)
  | .left => (P.step s.left s.toLeft (Q.ended s.right)).map fun r =>
      { s with left := r.1, toLeft := r.2.1, toRight := s.toRight ++ r.2.2 }
  | .right => (Q.step s.right s.toRight (P.ended s.left)).map fun r =>
      { s with right := r.1, toRight := r.2.1, toLeft := s.toLeft ++ r.2.2 }

/-- A turn that waits changes nothing. -/
def turn (s : Link σ τ β) (side : Side) : Link σ τ β := (act P Q s side).getD s

/-- Neither side can move. -/
def Halted (s : Link σ τ β) : Prop := ∀ side, act P Q s side = none

/-- `n` turns that all do something, one after the other. -/
def Steps : Nat → Link σ τ β → Link σ τ β → Prop
  | 0, s, t => s = t
  | n + 1, s, t => ∃ side u, act P Q s side = some u ∧ Steps n u t

/-- Every side keeps getting turns. -/
def Fair (sched : Nat → Side) : Prop := ∀ side n, ∃ m, n ≤ m ∧ sched m = side

/-- The state after the first `n` turns of a schedule. -/
def after (s : Link σ τ β) (sched : Nat → Side) : Nat → Link σ τ β
  | 0 => s
  | n + 1 => turn P Q (after s sched n) (sched n)

variable {P Q} {s t u v : Link σ τ β}

/-! ## The steps commute -/

theorem act_left (h : act P Q s .left = some u) : ∃ r,
    P.step s.left s.toLeft (Q.ended s.right) = some r ∧ P.ended s.left = false ∧
      u = { s with left := r.1, toLeft := r.2.1, toRight := s.toRight ++ r.2.2 } := by
  obtain ⟨r, hr, rfl⟩ := Option.map_eq_some_iff.1 h
  refine ⟨r, hr, ?_, rfl⟩
  cases ho : P.ended s.left with
  | false => rfl
  | true => rw [P.step_ended _ _ _ ho] at hr; simp at hr

theorem act_right (h : act P Q s .right = some v) : ∃ r,
    Q.step s.right s.toRight (P.ended s.left) = some r ∧ Q.ended s.right = false ∧
      v = { s with right := r.1, toRight := r.2.1, toLeft := s.toLeft ++ r.2.2 } := by
  obtain ⟨r, hr, rfl⟩ := Option.map_eq_some_iff.1 h
  refine ⟨r, hr, ?_, rfl⟩
  cases ho : Q.ended s.right with
  | false => rfl
  | true => rw [Q.step_ended _ _ _ ho] at hr; simp at hr

/-- Where both sides can move, either order leads to the same state. -/
theorem act_comm (hu : act P Q s .left = some u) (hv : act P Q s .right = some v) :
    ∃ t, act P Q u .right = some t ∧ act P Q v .left = some t := by
  obtain ⟨⟨p, lin, lout⟩, hp, hpo, rfl⟩ := act_left hu
  obtain ⟨⟨q, rin, rout⟩, hq, hqo, rfl⟩ := act_right hv
  rw [hqo] at hp
  rw [hpo] at hq
  -- Each side's step is the same after the other's: it had not waited for more.
  have hp' := P.step_append _ _ _ _ _ hp rout (Q.ended q)
  have hq' := Q.step_append _ _ _ _ _ hq lout (P.ended p)
  refine ⟨⟨p, q, rin ++ lout, lin ++ rout⟩, ?_, ?_⟩
  · simp [act, hq']
  · simp [act, hp']

theorem act_diamond {side side' : Side} (hne : side ≠ side') (hu : act P Q s side = some u)
    (hv : act P Q s side' = some v) : ∃ t, act P Q u side' = some t ∧ act P Q v side = some t := by
  cases side <;> cases side'
  · exact absurd rfl hne
  · exact act_comm hu hv
  · obtain ⟨t, h₁, h₂⟩ := act_comm hv hu
    exact ⟨t, h₂, h₁⟩
  · exact absurd rfl hne

/-! ## Every run leads to the same end -/

/-- Whatever is done first, the same end is reached, in one step less. -/
theorem steps_after_act {n : Nat} {side : Side} (h : Steps P Q n s t) (ht : Halted P Q t)
    (hu : act P Q s side = some u) : ∃ m, n = m + 1 ∧ Steps P Q m u t := by
  induction n generalizing s u side with
  | zero =>
      obtain rfl : s = t := h
      rw [ht side] at hu
      simp at hu
  | succ n ih =>
      obtain ⟨side', v, hv, hsteps⟩ := h
      refine ⟨n, rfl, ?_⟩
      by_cases hside : side = side'
      · subst hside
        obtain rfl := Option.some.inj (hu.symm.trans hv)
        exact hsteps
      · obtain ⟨w, huw, hvw⟩ := act_diamond hside hu hv
        obtain ⟨m, rfl, hm⟩ := ih hsteps hvw
        exact ⟨side', w, huw, hm⟩

theorem after_shift (s : Link σ τ β) (sched : Nat → Side) (n : Nat) :
    after P Q s sched (n + 1) = after P Q (turn P Q s (sched 0)) (fun k => sched (k + 1)) n := by
  induction n with
  | zero => rfl
  | succ n ih => rw [after, ih]; rfl

theorem Fair.shift {sched : Nat → Side} (h : Fair sched) : Fair fun k => sched (k + 1) := by
  intro side n
  obtain ⟨m, hm, hside⟩ := h side (n + 1)
  obtain ⟨k, rfl⟩ : ∃ k, m = k + 1 := ⟨m - 1, by omega⟩
  exact ⟨k, by omega, hside⟩

/-- **Every fair schedule reaches that end.** The induction is on the steps that are left, and,
until one of them is taken, on the turns that a side which can move still waits for. -/
theorem settles_of_steps {n : Nat} (h : Steps P Q n s t) (ht : Halted P Q t)
    {sched : Nat → Side} (hfair : Fair sched) : ∃ k, after P Q s sched k = t := by
  induction n generalizing s sched with
  | zero => exact ⟨0, h⟩
  | succ n ih =>
      obtain ⟨side, u, hu, -⟩ := id h
      obtain ⟨wait, -, hwait⟩ := hfair side 0
      induction wait generalizing sched with
      | zero =>
          have hturn : turn P Q s (sched 0) = u := by rw [turn, hwait, hu]; rfl
          obtain ⟨m, hm, hsteps⟩ := steps_after_act h ht hu
          obtain rfl : n = m := by omega
          obtain ⟨k, hk⟩ := ih hsteps hfair.shift
          exact ⟨k + 1, by rw [after_shift, hturn, hk]⟩
      | succ wait ihw =>
          cases hv : act P Q s (sched 0) with
          | none =>
              -- A turn that does nothing.
              have hturn : turn P Q s (sched 0) = s := by rw [turn, hv]; rfl
              obtain ⟨k, hk⟩ := ihw hfair.shift hwait
              exact ⟨k + 1, by rw [after_shift, hturn, hk]⟩
          | some v =>
              have hturn : turn P Q s (sched 0) = v := by rw [turn, hv]; rfl
              obtain ⟨m, hm, hsteps⟩ := steps_after_act h ht hv
              obtain rfl : n = m := by omega
              obtain ⟨k, hk⟩ := ih hsteps hfair.shift
              exact ⟨k + 1, by rw [after_shift, hturn, hk]⟩

/-! ## Putting a run together -/

/-- Some order of turns leads from one state to the other. -/
def Reaches (P : Party σ β) (Q : Party τ β) (s t : Link σ τ β) : Prop := ∃ n, Steps P Q n s t

namespace Reaches

theorem refl (s : Link σ τ β) : Reaches P Q s s := ⟨0, rfl⟩

theorem head {side : Side} (hu : act P Q s side = some u) (h : Reaches P Q u t) :
    Reaches P Q s t := by
  obtain ⟨n, h⟩ := h
  exact ⟨n + 1, side, u, hu, h⟩

theorem trans (h : Reaches P Q s u) (h' : Reaches P Q u t) : Reaches P Q s t := by
  obtain ⟨n, h⟩ := h
  induction n generalizing s with
  | zero =>
      obtain rfl : s = u := h
      exact h'
  | succ n ih =>
      obtain ⟨side, v, hv, hsteps⟩ := h
      exact head hv (ih hsteps)

theorem settles (h : Reaches P Q s t) (ht : Halted P Q t) {sched : Nat → Side}
    (hfair : Fair sched) : ∃ k, after P Q s sched k = t := by
  obtain ⟨n, h⟩ := h
  exact settles_of_steps h ht hfair

end Reaches

end Duplex
