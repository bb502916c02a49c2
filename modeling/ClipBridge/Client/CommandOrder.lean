import ClipBridge.Client.Moves

/-!
# The order of commands

What the worker has applied, what it has put aside while suspended, and what is still in the
channel are, in this order, the commands that were enqueued: `Queues`. Every step of the machine
keeps this, whichever of the two queues is drained, and it is all that is needed to see that
commands are applied in order, once each, and never past a `Stop`.

* `Queues`, `queues_run` — the invariant.
* `sent_prefix` — what was sent stays sent.
* `commands_in_order` — the order of what is applied.
-/

namespace ClipBridge

namespace Client

/-! ## The commands enqueued -/

variable {c c' : Client} {q : Queued}

theorem enqueued_getElem? (c : Client) (n : Nat) :
    c.enqueued[n]? = c.sent[n]?.map fun cmd => ⟨n, cmd⟩ := by
  rw [enqueued, List.getElem?_map, List.getElem?_zipIdx, Option.map_map, Nat.zero_add]
  rfl

/-- A command stands at its own place. -/
theorem mem_enqueued : q ∈ c.enqueued ↔ c.enqueued[q.seq]? = some q := by
  constructor
  · intro h
    obtain ⟨n, hn⟩ := List.mem_iff_getElem?.1 h
    have hseq : q.seq = n := by
      rw [enqueued_getElem?] at hn
      obtain ⟨cmd, -, rfl⟩ := Option.map_eq_some_iff.1 hn
      rfl
    rwa [hseq]
  · exact fun h => List.mem_of_getElem? h

theorem nodup_enqueued (c : Client) : c.enqueued.Nodup := by
  rw [List.nodup_iff_getElem?_ne_getElem?]
  intro i j hij hj heq
  have hi : i < c.sent.length := by
    simp only [enqueued, List.length_map, List.length_zipIdx] at hj
    omega
  rw [enqueued_getElem?, enqueued_getElem?, List.getElem?_eq_getElem hi] at heq
  obtain ⟨cmd, -, h⟩ := Option.map_eq_some_iff.1 heq.symm
  have hseq : j = i := congrArg Queued.seq h
  omega

theorem enqueued_concat (h : c'.sent = c.sent ++ [q.cmd]) (hseq : q.seq = c.sent.length) :
    c'.enqueued = c.enqueued ++ [q] := by
  rw [enqueued, h, List.zipIdx_append, List.map_append, enqueued]
  simp [← hseq]

theorem enqueued_of_sent (h : c'.sent = c.sent) : c'.enqueued = c.enqueued := by
  rw [enqueued, h, enqueued]

/-! ## The invariant -/

/-- The two queues and what was taken from them. -/
structure Queues (c : Client) : Prop where
  order : c.task ≠ .returned → c.applied ++ c.pendingCmds ++ c.cmdRx = c.enqueued
  /-- Only what is not a `Stop` is put aside. -/
  aside : ∀ q ∈ c.pendingCmds, q.cmd ≠ .stop
  /-- The loop of a session starts when `pending_cmds` is empty. -/
  flushed : c.task.inSelect → c.pendingCmds = []
  held : c.applied ++ c.pendingCmds <+: c.enqueued
  /-- A worker that goes on has applied no `Stop`. -/
  goes : c.task ≠ .returned → ∀ q ∈ c.applied, q.cmd ≠ .stop
  last : ∀ q ∈ c.applied.dropLast, q.cmd ≠ .stop

theorem queues_init : Queues init where
  order _ := rfl
  aside := by simp [init]
  flushed h := by cases h
  held := List.prefix_rfl
  goes _ := by simp [init]
  last := by simp [init]

/-- The queues stay as they are while the worker goes on. -/
theorem Queues.of_eq (h : Queues c) (hsent : c'.sent = c.sent) (hrx : c'.cmdRx = c.cmdRx)
    (hpending : c'.pendingCmds = c.pendingCmds) (happlied : c'.applied = c.applied)
    (hgoing : c'.task ≠ .returned → c.task ≠ .returned)
    (hsel : c'.task.inSelect → c.task.inSelect ∨ c.pendingCmds = []) : Queues c' := by
  have henqueued : c'.enqueued = c.enqueued := enqueued_of_sent hsent
  constructor
  case order =>
    rw [happlied, hpending, hrx, henqueued]
    exact fun htask => h.order (hgoing htask)
  case aside => rw [hpending]; exact h.aside
  case flushed =>
    rw [hpending]
    exact fun htask => (hsel htask).elim h.flushed id
  case held => rw [happlied, hpending, henqueued]; exact h.held
  case goes =>
    rw [happlied]
    exact fun htask => h.goes (hgoing htask)
  case last => rw [happlied]; exact h.last

theorem queues_enqueue (h : Queues c) (cmd : Cmd) : Queues (c.enqueue cmd) := by
  unfold enqueue
  split
  · exact h
  · rename_i hopen
    have hnew : ∀ c' : Client, c'.sent = c.sent ++ [cmd] →
        c'.enqueued = c.enqueued ++ [⟨c.sent.length, cmd⟩] :=
      fun c' hsent => enqueued_concat hsent rfl
    constructor
    case order =>
      intro htask
      rw [hnew _ rfl, ← h.order htask]
      exact (List.append_assoc _ _ _).symm
    case aside => exact h.aside
    case flushed => exact h.flushed
    case held =>
      rw [hnew _ rfl]
      exact h.held.trans (List.prefix_append _ _)
    case goes => exact h.goes
    case last => exact h.last

section

variable [Aead] [ClipJson] {cfg : RunConfig} {io : Answer}

/-- Once it has returned, the worker does nothing. -/
theorem work_returned (htask : c.task = .returned) (io : Answer) : c.work cfg io = c := by
  unfold work
  rw [htask]

/-- Applying a command moves it from the front of a queue to the end of what was applied. -/
theorem Queues.apply {c₀ : Client} {task : RunTask} (h : Queues c) (hgoing : c.task ≠ .returned)
    (hnext : c.nextCmd = some (q, c₀)) (happlies : Applies cfg c₀ io q task c')
    (htask : task = .flushing ∧ c.task = .flushing ∨ task = .selectHead ∧ c.task = .selecting) :
    Queues c' := by
  have hw := happlies.writes
  have hfront : c.applied ++ [q] ++ c₀.pendingCmds ++ c₀.cmdRx = c.enqueued := by
    rw [← h.order hgoing]
    rcases nextCmd_cases hnext with ⟨-, hpending, h₀⟩ | ⟨hsel, hrx, h₀⟩
    · rw [hpending, h₀]
      simp
    · rw [hrx, h₀, h.flushed (by rw [hsel]; rfl)]
      simp
  have hc₀ : c₀.applied = c.applied ∧ c₀.sent = c.sent ∧
      ∀ q ∈ c₀.pendingCmds, q ∈ c.pendingCmds := by
    rcases nextCmd_cases hnext with ⟨-, hpending, h₀⟩ | ⟨-, -, h₀⟩
    · rw [hpending, h₀]
      exact ⟨rfl, rfl, fun q hq => List.mem_cons_of_mem _ hq⟩
    · rw [h₀]
      exact ⟨rfl, rfl, fun q hq => hq⟩
  have hmore : c'.applied = c.applied ++ [q] := by rw [hw.applied, hc₀.1]
  have hsent : c'.enqueued = c.enqueued := enqueued_of_sent (hw.sent.trans hc₀.2.1)
  have hcmd : c'.task ≠ .returned → q.cmd ≠ .stop :=
    fun hgoes hstop => hgoes (happlies.stop hstop)
  constructor
  case order =>
    intro _
    rw [hmore, hw.pendingCmds, hw.cmdRx, hsent]
    exact hfront
  case aside =>
    rw [hw.pendingCmds]
    exact fun q hq => h.aside q (hc₀.2.2 q hq)
  case flushed =>
    intro hsel
    rw [hw.pendingCmds]
    have hgoes : Goes task c' := happlies.goes (hcmd fun hret => by rw [hret] at hsel; cases hsel)
    rcases hgoes with hgoes | ⟨e, he⟩
    · rcases htask with ⟨rfl, -⟩ | ⟨-, hselecting⟩
      · rw [hgoes] at hsel
        cases hsel
      · refine List.eq_nil_iff_forall_not_mem.2 fun q hq => ?_
        have hempty : c.pendingCmds = [] := h.flushed (by rw [hselecting]; rfl)
        have hmem : q ∈ c.pendingCmds := hc₀.2.2 q hq
        rw [hempty] at hmem
        cases hmem
    · rw [he] at hsel
      cases hsel
  case held =>
    rw [hmore, hw.pendingCmds, hsent, ← hfront]
    exact List.prefix_append _ _
  case goes =>
    intro hgoes q' hq'
    rw [hmore, List.mem_append, List.mem_singleton] at hq'
    rcases hq' with hq' | rfl
    · exact h.goes hgoing q' hq'
    · exact hcmd hgoes
  case last =>
    rw [hmore, List.dropLast_concat]
    exact h.goes hgoing

theorem Queues.work (h : Queues c) (io : Answer) : Queues (c.work cfg io) := by
  by_cases hret : c.task = .returned
  · rw [work_returned hret]
    exact h
  -- `c` goes on, so the commands of `c` are all accounted for.
  cases work_moves cfg c io with
  | writes _ hw honward =>
      exact h.of_eq hw.sent hw.cmdRx hw.pendingCmds hw.applied (fun _ => hret) honward.select
  | connect _ hw htask =>
      refine h.of_eq hw.sent hw.cmdRx hw.pendingCmds hw.applied (fun _ => hret) fun hsel => ?_
      rw [htask] at hsel
      cases hsel
  | aside q rest _ hrx hcmd hw htask =>
      have hsent : (c.work cfg io).enqueued = c.enqueued := enqueued_of_sent hw.sent
      constructor
      case order =>
        intro _
        rw [hw.applied, hw.pendingCmds, hw.cmdRx, hsent, ← h.order hret, hrx]
        simp
      case aside =>
        rw [hw.pendingCmds]
        intro q' hq'
        rcases List.mem_append.1 hq' with hq' | hq'
        · exact h.aside q' hq'
        · rw [List.mem_singleton.1 hq']
          exact hcmd
      case flushed => rw [htask]; intro hsel; cases hsel
      case held =>
        rw [hw.applied, hw.pendingCmds, hsent, ← h.order hret, hrx]
        simp
      case goes => rw [hw.applied]; exact fun _ => h.goes hret
      case last => rw [hw.applied]; exact h.last
  | stop q rest _ hrx hcmd hw htask =>
      constructor
      case order => exact fun hgoes => absurd htask hgoes
      case aside => rw [hw.pendingCmds]; exact h.aside
      case flushed => rw [htask]; intro hsel; cases hsel
      case held =>
        rw [hw.applied, hw.pendingCmds, enqueued_of_sent hw.sent]
        exact h.held
      case goes => exact fun hgoes => absurd htask hgoes
      case last => rw [hw.applied]; exact h.last
  | apply q c₀ task hnext happlies htask => exact h.apply hret hnext happlies htask

theorem queues_step (c : Client) (e : ClientEvent) (h : Queues c) : Queues (step cfg c e) := by
  rcases step_cases cfg c e with ⟨cmd, rfl⟩ | ⟨io, rfl⟩ | hq
  · exact queues_enqueue h cmd
  · exact h.work io
  · refine h.of_eq hq.sent hq.cmdRx hq.pendingCmds hq.applied ?_ ?_
    · rw [hq.task]
      exact id
    · rw [hq.task]
      exact Or.inl

/-- **The queues hold what was enqueued, in every run.** -/
theorem queues_run (cfg : RunConfig) (es : List ClientEvent) : Queues (run cfg es) :=
  Machine.invariant_run queues_step queues_init es

/-- What was sent stays sent. -/
theorem sent_prefix_step (cfg : RunConfig) (c : Client) (e : ClientEvent) :
    c.sent <+: (step cfg c e).sent := by
  rcases step_cases cfg c e with ⟨cmd, rfl⟩ | ⟨io, rfl⟩ | hq
  · simp only [step, enqueue]
    split
    · exact List.prefix_rfl
    · exact List.prefix_append _ _
  · have hsame : ∀ c' : Client, c'.sent = c.sent → c.sent <+: c'.sent :=
      fun c' h => by rw [h]
    cases work_moves cfg c io with
    | writes _ hw => exact hsame _ hw.sent
    | connect _ hw => exact hsame _ hw.sent
    | aside q rest _ _ _ hw => exact hsame _ hw.sent
    | stop q rest _ _ _ hw => exact hsame _ hw.sent
    | apply q c₀ task hnext happlies =>
        refine hsame _ (happlies.writes.sent.trans ?_)
        rcases nextCmd_cases hnext with ⟨-, -, h₀⟩ | ⟨-, -, h₀⟩ <;> rw [h₀]
  · rw [hq.sent]

theorem sent_prefix (cfg : RunConfig) (c : Client) (es : List ClientEvent) :
    c.sent <+: (Machine.run (step cfg) c es).sent :=
  Machine.invariant_run (I := fun c' => c.sent <+: c'.sent)
    (fun c' e h => h.trans (sent_prefix_step cfg c' e)) List.prefix_rfl es

end

/-! ## The order of what is applied -/

theorem getElem?_of_prefix {α : Type*} {l l' : List α} (h : l <+: l') {i : Nat} {a : α}
    (ha : l[i]? = some a) : l'[i]? = some a := by
  obtain ⟨hi, rfl⟩ := List.getElem?_eq_some_iff.1 ha
  exact List.prefix_iff_getElem?.1 h i hi

theorem enqueued_prefix (h : c.sent <+: c'.sent) (hq : q ∈ c.enqueued) : q ∈ c'.enqueued := by
  rw [mem_enqueued, enqueued_getElem?, Option.map_eq_some_iff] at hq ⊢
  obtain ⟨cmd, hcmd, hseq⟩ := hq
  exact ⟨cmd, getElem?_of_prefix h hcmd, hseq⟩

theorem Queues.applied_prefix (h : Queues c) : c.applied <+: c.enqueued :=
  (List.prefix_append _ _).trans h.held

/-- A command that was put aside was enqueued. -/
theorem Queues.pending_enqueued (h : Queues c) (hq : q ∈ c.pendingCmds) : q ∈ c.enqueued :=
  h.held.subset (List.mem_append_right _ hq)

/-- A command is applied at its own place. -/
theorem Queues.applied_at (h : Queues c) (hq : q ∈ c.applied) : c.applied[q.seq]? = some q := by
  obtain ⟨n, hn⟩ := List.mem_iff_getElem?.1 hq
  have henqueued : c.enqueued[n]? = some q := getElem?_of_prefix h.applied_prefix hn
  rw [enqueued_getElem?] at henqueued
  obtain ⟨cmd, -, rfl⟩ := Option.map_eq_some_iff.1 henqueued
  exact hn

/-- What was enqueued before an applied command is applied, and before it. -/
theorem Queues.applied_before (h : Queues c) {q' : Queued} (hq : q ∈ c.enqueued)
    (hq' : q' ∈ c.applied) (hlt : q.seq < q'.seq) : c.applied[q.seq]? = some q := by
  have hlen : q.seq < c.applied.length :=
    hlt.trans (List.getElem?_eq_some_iff.1 (h.applied_at hq')).1
  have hprefix := List.prefix_iff_getElem?.1 h.applied_prefix q.seq hlen
  rw [mem_enqueued.1 hq] at hprefix
  rw [List.getElem?_eq_getElem hlen, hprefix]

/-- What waits in a queue has not been applied. -/
theorem Queues.not_applied (h : Queues c) (hgoing : c.task ≠ .returned)
    (hq : q ∈ c.pendingCmds ∨ q ∈ c.cmdRx) : q ∉ c.applied := by
  intro happlied
  have hnodup : (c.applied ++ (c.pendingCmds ++ c.cmdRx)).Nodup := by
    rw [← List.append_assoc, h.order hgoing]
    exact nodup_enqueued c
  exact (List.nodup_append.1 hnodup).2.2 q happlied q (List.mem_append.2 hq) rfl

/-- What waits in a queue was enqueued. -/
theorem Queues.waiting_enqueued (h : Queues c) (hgoing : c.task ≠ .returned)
    (hq : q ∈ c.pendingCmds ∨ q ∈ c.cmdRx) : q ∈ c.enqueued := by
  rw [← h.order hgoing, List.append_assoc]
  exact List.mem_append_right _ (List.mem_append.2 hq)

variable [Aead] [ClipJson]

/-- The order in which the commands of a run are applied. -/
structure CommandsInOrder (cfg : RunConfig) (es : List ClientEvent) : Prop where
  subsequence : (run cfg es).applied.Sublist (run cfg es).enqueued
  once : (run cfg es).applied.Nodup
  /-- What was put aside, at any time, is applied before what was enqueued later. -/
  buffered : ∀ (pre post : List ClientEvent) (q q' : Queued), es = pre ++ post →
    q ∈ (run cfg pre).pendingCmds → q' ∈ (run cfg es).applied → q.seq < q'.seq →
    ∃ i j : Nat, i < j ∧ (run cfg es).applied[i]? = some q ∧ (run cfg es).applied[j]? = some q'
  stopped : ∀ s q : Queued, s ∈ (run cfg es).enqueued → s.cmd = .stop → s.seq < q.seq →
    q ∉ (run cfg es).applied

/-- **Commands are applied in the order in which they were enqueued**, each at most once, and
none after the first `Stop`. -/
theorem commands_in_order (cfg : RunConfig) (es : List ClientEvent) : CommandsInOrder cfg es := by
  have h := queues_run cfg es
  constructor
  case subsequence => exact h.applied_prefix.sublist
  case once => exact (nodup_enqueued _).sublist h.applied_prefix.sublist
  case buffered =>
    rintro pre post q q' rfl hq hq' hlt
    have hsent : (run cfg pre).sent <+: (run cfg (pre ++ post)).sent := by
      rw [run, run, Machine.run_append]
      exact sent_prefix cfg _ post
    have henqueued : q ∈ (run cfg (pre ++ post)).enqueued :=
      enqueued_prefix hsent ((queues_run cfg pre).pending_enqueued hq)
    exact ⟨q.seq, q'.seq, hlt, h.applied_before henqueued hq' hlt, h.applied_at hq'⟩
  case stopped =>
    intro s q hs hstop hlt hq
    -- The `Stop` was applied, and was not the last command applied.
    have hat : (run cfg es).applied[s.seq]? = some s := h.applied_before hs hq hlt
    have hlen : q.seq < (run cfg es).applied.length :=
      (List.getElem?_eq_some_iff.1 (h.applied_at hq)).1
    refine h.last s (List.mem_iff_getElem?.2 ⟨s.seq, ?_⟩) hstop
    rw [List.getElem?_dropLast, if_pos (by omega)]
    exact hat

end Client

end ClipBridge
