import ClipBridge.Client.CommandOrder

/-!
# What becomes of a clip that the host sends

A `SendClip` is in one of the two queues until the worker takes it, and is then written to the
relay, unless `encrypt` or the write fails: the command was taken from its queue before, and
nothing puts it back.

* `Conserved` — every clip sent is written or waits.
* `Lossless` — no step of the worker takes a clip that it then fails to write.
* `conserved_iff` — a run conserves the clips in all of its states exactly if it is lossless.
-/

namespace ClipBridge

namespace Client

variable {cfg : RunConfig} {c c' : Client} {io : Answer}

section

variable [Aead] [ClipJson]

/-- The clip of command `q`, sealed under the group's key, was written to a WebSocket of the
relay. -/
def Published (cfg : RunConfig) (c : Client) (q : Queued) (payload : ClipPayload) : Prop :=
  ∃ ciphertext nonce, encrypt cfg.key nonce (ClipJson.toVec payload) = .ok (ciphertext, nonce) ∧
    ⟨.text (.publish cfg.groupId ciphertext nonce payload.ts), some q.seq⟩ ∈ c.written

/-- Every `SendClip` that was enqueued is written, or waits in one of the queues. -/
def Conserved (cfg : RunConfig) (c : Client) : Prop :=
  ∀ q ∈ c.enqueued, ∀ payload, q.cmd = .sendClip payload →
    Published cfg c q payload ∨ q ∈ c.pendingCmds ∨ q ∈ c.cmdRx

/-- The worker does not fail to write a clip that it takes from a queue in this step. -/
def Lossless (cfg : RunConfig) (c : Client) : ClientEvent → Prop
  | .work io => ∀ q c₀ payload, c.nextCmd = some (q, c₀) → q.cmd = .sendClip payload →
      ¬ ClipFails cfg io payload
  | _ => True

end

/-! ## Only what was applied is written -/

/-- A message that carries out a command carries out one that was applied. -/
def Accounted (c : Client) : Prop :=
  ∀ w ∈ c.written, ∀ seq, w.own = some seq → ∃ q ∈ c.applied, q.seq = seq

theorem Accounted.writes {own : Option Nat} {c₀ : Client} (h : Accounted c₀)
    (hw : Writes own c₀ c') (hown : ∀ seq, own = some seq → ∃ q ∈ c₀.applied, q.seq = seq) :
    Accounted c' := by
  obtain ⟨new, hnew, hall⟩ := hw.written
  intro w hmem seq hseq
  rw [hw.applied]
  rw [hnew, List.mem_append] at hmem
  rcases hmem with hmem | hmem
  · exact h w hmem seq hseq
  · rcases hall w hmem with hnone | heq
    · rw [hnone] at hseq
      cases hseq
    · exact hown seq (heq.symm.trans hseq)

/-! ## Commands that move between the queues -/

section

variable [Aead] [ClipJson]

theorem Published.mono {q : Queued} {payload : ClipPayload} (h : Published cfg c q payload)
    (hw : ∀ w ∈ c.written, w ∈ c'.written) : Published cfg c' q payload := by
  obtain ⟨ciphertext, nonce, hsealed, hmem⟩ := h
  exact ⟨ciphertext, nonce, hsealed, hw _ hmem⟩

/-- Conservation holds on when commands only move between the queues. -/
theorem Conserved.of_moves (h : Conserved cfg c) (hsent : c'.sent = c.sent)
    (hwritten : ∀ w ∈ c.written, w ∈ c'.written)
    (hqueues : ∀ q, q ∈ c.pendingCmds ∨ q ∈ c.cmdRx →
      (∀ payload, q.cmd = .sendClip payload → Published cfg c' q payload) ∨
        q ∈ c'.pendingCmds ∨ q ∈ c'.cmdRx) : Conserved cfg c' := by
  intro q hq payload hcmd
  rw [enqueued_of_sent hsent] at hq
  rcases h q hq payload hcmd with hpub | hwaits
  · exact Or.inl (hpub.mono hwritten)
  · exact (hqueues q hwaits).imp_left fun hpub => hpub payload hcmd

theorem conserved_enqueue (h : Conserved cfg c) (cmd : Cmd) : Conserved cfg (c.enqueue cmd) := by
  unfold enqueue
  split
  · exact h
  · intro q hq payload hcmd
    rw [enqueued_concat (c := c) (q := ⟨c.sent.length, cmd⟩) rfl rfl, List.mem_append] at hq
    rcases hq with hq | hq
    · rcases h q hq payload hcmd with hpub | hpending | hrx
      · exact Or.inl hpub
      · exact Or.inr (Or.inl hpending)
      · exact Or.inr (Or.inr (List.mem_append_left _ hrx))
    · exact Or.inr (Or.inr (List.mem_append_right _ hq))

/-! ## The steps of the machine -/

theorem accounted_step (c : Client) (e : ClientEvent) (h : Accounted c) :
    Accounted (step cfg c e) := by
  have hnone : ∀ c₀ c' : Client, Writes none c₀ c' → Accounted c₀ → Accounted c' :=
    fun c₀ c' hw h₀ => h₀.writes hw fun seq hseq => by cases hseq
  rcases step_cases cfg c e with ⟨cmd, rfl⟩ | ⟨io, rfl⟩ | hq
  · simp only [step, enqueue]
    split
    · exact h
    · exact h
  · cases work_moves cfg c io with
    | writes _ hw => exact hnone _ _ hw h
    | connect _ hw => exact hnone _ _ hw h
    | aside q rest _ _ _ hw => exact hnone _ _ hw h
    | stop q rest _ _ _ hw => exact hnone _ _ hw h
    | apply q c₀ task hnext happlies =>
        refine Accounted.writes ?_ happlies.writes ?_
        · intro w hmem seq hseq
          have hc₀ : c₀.written = c.written ∧ c₀.applied = c.applied := by
            rcases nextCmd_cases hnext with ⟨-, -, h₀⟩ | ⟨-, -, h₀⟩ <;> rw [h₀] <;> exact ⟨rfl, rfl⟩
          obtain ⟨q', hq', hseq'⟩ := h w (hc₀.1 ▸ hmem) seq hseq
          exact ⟨q', List.mem_append_left _ (hc₀.2 ▸ hq'), hseq'⟩
        · rintro seq ⟨⟩
          exact ⟨q, by simp, rfl⟩
  · intro w hmem seq hseq
    rw [hq.written] at hmem
    rw [hq.applied]
    exact h w hmem seq hseq

theorem accounted_run (cfg : RunConfig) (es : List ClientEvent) : Accounted (run cfg es) :=
  Machine.invariant_run accounted_step (by intro w hw; cases hw) es

/-- A lossless step of the worker conserves the clips. -/
theorem conserved_work (h : Conserved cfg c) (hlossless : Lossless cfg c (.work io))
    (hgoes : (c.work cfg io).task ≠ .returned) : Conserved cfg (c.work cfg io) := by
  cases work_moves cfg c io with
  | writes _ hw =>
      refine h.of_moves hw.sent (fun w => hw.mem) fun q hq => Or.inr ?_
      rw [hw.pendingCmds, hw.cmdRx]
      exact hq
  | connect _ hw =>
      refine h.of_moves hw.sent (fun w => hw.mem) fun q hq => Or.inr ?_
      rw [hw.pendingCmds, hw.cmdRx]
      exact hq
  | aside q rest _ hrx _ hw =>
      refine h.of_moves hw.sent (fun w => hw.mem) fun q' hq' => Or.inr ?_
      rw [hw.pendingCmds, hw.cmdRx]
      rw [hrx, List.mem_cons] at hq'
      rcases hq' with hq' | rfl | hq'
      · exact Or.inl (List.mem_append_left _ hq')
      · exact Or.inl (by simp)
      · exact Or.inr hq'
  | stop q rest _ _ _ _ htask => exact absurd htask hgoes
  | apply q c₀ task hnext happlies =>
      have hw := happlies.writes
      -- The command taken is published; the other ones stay where they are.
      have hpub : ∀ payload, q.cmd = .sendClip payload → Published cfg (c.work cfg io) q payload :=
        fun payload hcmd => happlies.published payload hcmd (hlossless q c₀ payload hnext hcmd)
      rcases nextCmd_cases hnext with ⟨-, hpending, h₀⟩ | ⟨-, hrx, h₀⟩
      · refine h.of_moves (hw.sent.trans (by rw [h₀])) (fun w hmem => hw.mem (by rwa [h₀]))
          fun q' hq' => ?_
        rw [hw.pendingCmds, hw.cmdRx]
        rw [hpending, List.mem_cons] at hq'
        rcases hq' with (rfl | hq') | hq'
        · exact Or.inl hpub
        · exact Or.inr (Or.inl hq')
        · exact Or.inr (Or.inr (by rwa [h₀]))
      · refine h.of_moves (hw.sent.trans (by rw [h₀])) (fun w hmem => hw.mem (by rwa [h₀]))
          fun q' hq' => ?_
        rw [hw.pendingCmds, hw.cmdRx]
        rw [hrx, List.mem_cons] at hq'
        rcases hq' with hq' | rfl | hq'
        · exact Or.inr (Or.inl (by rwa [h₀]))
        · exact Or.inl hpub
        · exact Or.inr (Or.inr hq')

/-- A step that does not end the worker started before its end. -/
theorem going_step {e : ClientEvent} (h : (step cfg c e).task ≠ .returned) :
    c.task ≠ .returned := by
  intro hret
  rcases step_cases cfg c e with ⟨cmd, rfl⟩ | ⟨io, rfl⟩ | hq
  · refine h ?_
    simp only [step, enqueue]
    split
    · exact hret
    · exact hret
  · exact h (by rw [step, work_returned hret, hret])
  · exact h (hq.task.trans hret)

theorem conserved_step (c : Client) (e : ClientEvent) (hlossless : Lossless cfg c e)
    (h : c.task ≠ .returned → Conserved cfg c) (hgoes : (step cfg c e).task ≠ .returned) :
    Conserved cfg (step cfg c e) := by
  have hc : Conserved cfg c := h (going_step hgoes)
  rcases step_cases cfg c e with ⟨cmd, rfl⟩ | ⟨io, rfl⟩ | hq
  · exact conserved_enqueue hc cmd
  · exact conserved_work hc hlossless hgoes
  · refine hc.of_moves hq.sent (fun w hw => by rwa [hq.written]) fun q hwaits => Or.inr ?_
    rw [hq.pendingCmds, hq.cmdRx]
    exact hwaits

/-- A clip that the worker takes and fails to write is gone. -/
theorem not_conserved_of_fails {q : Queued} {c₀ : Client} {payload : ClipPayload}
    (hqueues : Queues c) (haccounted : Accounted c) (hnext : c.nextCmd = some (q, c₀))
    (hcmd : q.cmd = .sendClip payload) (hfails : ClipFails cfg io payload) :
    (c.work cfg io).task ≠ .returned ∧ ¬ Conserved cfg (c.work cfg io) := by
  have hwaits : c.task ≠ .returned ∧ (q ∈ c.pendingCmds ∨ q ∈ c.cmdRx) ∧
      c₀.written = c.written ∧ c₀.sent = c.sent := by
    rcases nextCmd_cases hnext with ⟨htask, hpending, h₀⟩ | ⟨htask, hrx, h₀⟩
    · exact ⟨by rw [htask]; simp, Or.inl (by simp [hpending]), by rw [h₀], by rw [h₀]⟩
    · exact ⟨by rw [htask]; simp, Or.inr (by simp [hrx]), by rw [h₀], by rw [h₀]⟩
  obtain ⟨hgoing, hqueue, hwritten, hsent⟩ := hwaits
  cases work_moves cfg c io with
  | writes hnone | connect hnone | aside _ _ hnone | stop _ _ hnone =>
      rw [hnone] at hnext
      cases hnext
  | apply q' c₁ task hnext' happlies htask =>
      rw [hnext] at hnext'
      cases hnext'
      have hgoes : (c.work cfg io).task ≠ .returned := by
        rcases happlies.goes (by rw [hcmd]; simp) with hgoes | ⟨e, he⟩
        · rcases htask with ⟨rfl, -⟩ | ⟨rfl, -⟩ <;> rw [hgoes] <;> simp
        · rw [he]
          simp
      refine ⟨hgoes, fun hconserved => ?_⟩
      have hqueues' : Queues (c.work cfg io) := hqueues.work io
      have happlied : q ∈ (c.work cfg io).applied := by rw [happlies.writes.applied]; simp
      rcases hconserved q (hqueues'.applied_prefix.subset happlied) payload hcmd with
        ⟨ciphertext, nonce, -, hmem⟩ | hwaits
      · -- What was written carries out a command that was applied before `q`.
        rw [happlies.failed payload hcmd hfails, hwritten] at hmem
        obtain ⟨q₁, hq₁, hseq⟩ := haccounted _ hmem q.seq rfl
        have hsame : q₁ = q := by
          have h₁ := mem_enqueued.1 (hqueues.applied_prefix.subset hq₁)
          have h := mem_enqueued.1 (hqueues.waiting_enqueued hgoing hqueue)
          rw [hseq, h] at h₁
          exact (Option.some.inj h₁).symm
        rw [hsame] at hq₁
        exact hqueues.not_applied hgoing hqueue hq₁
      · exact hqueues'.not_applied hgoes hwaits happlied

/-- **A run conserves the clips that were sent exactly if it is lossless.** -/
theorem conserved_iff (cfg : RunConfig) (es : List ClientEvent) :
    (∀ pre, pre <+: es → (run cfg pre).task ≠ .returned → Conserved cfg (run cfg pre)) ↔
      Machine.Along (step cfg) (Lossless cfg) init es := by
  constructor
  · intro h
    rw [Machine.along_iff]
    rintro pre e post rfl
    cases e with
    | work io =>
        intro q c₀ payload hnext hcmd hfails
        obtain ⟨hgoes, hlost⟩ := not_conserved_of_fails (queues_run cfg pre)
          (accounted_run cfg pre) hnext hcmd hfails
        have hpre : pre ++ [.work io] <+: pre ++ .work io :: post := by simp
        have hrun : run cfg (pre ++ [.work io]) = (run cfg pre).work cfg io :=
          Machine.run_concat _ _ _
        have := h _ hpre
        rw [hrun] at this
        exact hlost (this hgoes)
    | _ => trivial
  · intro h
    refine Machine.invariant_throughout
      (I := fun c : Client => c.task ≠ .returned → Conserved cfg c) conserved_step ?_ h
    intro _ q hq
    cases hq

end

/-- A session opens; a clip is sent, and the write of it fails. -/
def failingWrite : List ClientEvent :=
  opening ++
    [.send (.sendClip ⟨.text, "A", "Me", 7, none⟩), .work {}, .work {},
     .work { result := .error "connection reset" }]

theorem failingWrite_not_conserved :
    ¬ ∀ pre, pre <+: failingWrite → (sampleRun pre).task ≠ .returned →
      @Conserved clearAead textJson sampleRunConfig (sampleRun pre) := by
  intro h
  -- The command is in no queue, and only the opening was written.
  have hrx : (sampleRun failingWrite).cmdRx = [] := by decide +kernel
  have hpending : (sampleRun failingWrite).pendingCmds = [] := by decide +kernel
  have hwritten : (sampleRun failingWrite).written =
      [⟨.text (.join "home" "me"), none⟩, ⟨.text (.fetchRecent "home"), none⟩] := by
    decide +kernel
  rcases h failingWrite List.prefix_rfl (by decide +kernel)
    ⟨0, .sendClip ⟨.text, "A", "Me", 7, none⟩⟩ (by decide +kernel) _ rfl with
    ⟨ciphertext, nonce, -, hmem⟩ | hmem | hmem
  · rw [hwritten] at hmem
    simp at hmem
  · rw [hpending] at hmem
    cases hmem
  · rw [hrx] at hmem
    cases hmem

end Client

end ClipBridge
