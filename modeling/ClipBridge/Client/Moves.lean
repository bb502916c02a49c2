import ClipBridge.Client.RunLoop
import Mathlib.Data.List.Infix

/-!
# What one step of the worker can do

The case analysis of the worker, done once.

* `Writes` — a step that leaves the queues and all that the host set alone: it writes messages.
* `Goes` — where a step that may fail ends up.
* `Applies` — what applying one command does (`applies_applySessionCmd`).
* `Idles` — what a step outside a session attempt leaves alone.
* `Moves`, `work_moves` — what a step does to the queues: nothing, a command is put aside, a
  command is applied, or the worker stops.
* `Quiet`, `step_cases` — the events that leave the worker and its queues alone.
-/

namespace ClipBridge

namespace Client

/-! ## Writing -/

/-- The queues, what the host set, and the histories, apart from the messages written. -/
structure Ledger where
  sent : List Cmd
  senderDropped : Bool
  reconnectIdleMode : Bool
  reconnectMode : Notify
  modeSetters : Nat
  cmdRx : List Queued
  pendingCmds : List Queued
  applied : List Queued
  attempts : Nat

def ledger (c : Client) : Ledger :=
  ⟨c.sent, c.senderDropped, c.reconnectIdleMode, c.reconnectMode, c.modeSetters, c.cmdRx,
    c.pendingCmds, c.applied, c.attempts⟩

/-- `c'` has the ledger of `c`, and the messages of `c` and some more: none of another command
than `own`. -/
structure Writes (own : Option Nat) (c c' : Client) : Prop where
  ledger : c'.ledger = c.ledger
  written : ∃ new, c'.written = c.written ++ new ∧ ∀ w ∈ new, w.own = none ∨ w.own = own

/-- The step goes on to `task`, or ends the session with an error. -/
def Goes (task : RunTask) (c' : Client) : Prop :=
  c'.task = task ∨ ∃ e, c'.task = .ended (.error e)

/-- A continuation of a step: it writes and goes on to `task`. -/
structure Continues (own : Option Nat) (task : RunTask) (next : Client → Client) : Prop where
  writes : ∀ c, Writes own c (next c)
  goes : ∀ c, Goes task (next c)

variable {own : Option Nat} {task : RunTask} {c c' c'' : Client} {next : Client → Client}

/-- Nothing is written when only other variables change. -/
theorem writes_of_eq (hledger : c'.ledger = c.ledger) (hwritten : c'.written = c.written) :
    Writes own c c' :=
  ⟨hledger, [], by simp [hwritten], by simp⟩

theorem Writes.trans (h : Writes own c c') (h' : Writes own c' c'') : Writes own c c'' where
  ledger := h'.ledger.trans h.ledger
  written := by
    obtain ⟨new, hnew, hown⟩ := h.written
    obtain ⟨new', hnew', hown'⟩ := h'.written
    refine ⟨new ++ new', by rw [hnew', hnew, List.append_assoc], fun w hw => ?_⟩
    rcases List.mem_append.1 hw with hw | hw
    · exact hown w hw
    · exact hown' w hw

theorem Writes.sent (h : Writes own c c') : c'.sent = c.sent :=
  congrArg Ledger.sent h.ledger

theorem Writes.reconnectIdleMode (h : Writes own c c') :
    c'.reconnectIdleMode = c.reconnectIdleMode :=
  congrArg Ledger.reconnectIdleMode h.ledger

theorem Writes.reconnectMode (h : Writes own c c') : c'.reconnectMode = c.reconnectMode :=
  congrArg Ledger.reconnectMode h.ledger

theorem Writes.modeSetters (h : Writes own c c') : c'.modeSetters = c.modeSetters :=
  congrArg Ledger.modeSetters h.ledger

theorem Writes.cmdRx (h : Writes own c c') : c'.cmdRx = c.cmdRx :=
  congrArg Ledger.cmdRx h.ledger

theorem Writes.pendingCmds (h : Writes own c c') : c'.pendingCmds = c.pendingCmds :=
  congrArg Ledger.pendingCmds h.ledger

theorem Writes.applied (h : Writes own c c') : c'.applied = c.applied :=
  congrArg Ledger.applied h.ledger

theorem Writes.attempts (h : Writes own c c') : c'.attempts = c.attempts :=
  congrArg Ledger.attempts h.ledger

/-- A message that was written before is still written. -/
theorem Writes.mem (h : Writes own c c') {w : Written} (hw : w ∈ c.written) : w ∈ c'.written := by
  obtain ⟨new, hnew, -⟩ := h.written
  rw [hnew]
  exact List.mem_append_left _ hw

theorem writes_refl (own : Option Nat) (c : Client) : Writes own c c :=
  writes_of_eq rfl rfl

theorem writes_stopped (own : Option Nat) (c : Client) : Writes own c c.stopped :=
  writes_of_eq rfl rfl

theorem writes_connect (own : Option Nat) (c : Client) :
    Writes own { c with attempts := c.attempts + 1 } c.connect :=
  writes_of_eq rfl rfl

theorem continues_goto (own : Option Nat) (task : RunTask) : Continues own task (goto task) where
  writes _ := writes_of_eq rfl rfl
  goes _ := Or.inl rfl

theorem continues_connected (own : Option Nat) : Continues own .flushing connected where
  writes _ := writes_of_eq rfl rfl
  goes _ := Or.inl rfl

/-- A write, after which the step goes on or the session ends. -/
theorem writes_wsSend (hnext : Continues own task next) (c : Client) (io : Answer)
    (msg : WsMessage) :
    Writes own c (c.wsSend io msg own next) ∧ Goes task (c.wsSend io msg own next) := by
  unfold wsSend
  split
  · exact ⟨writes_of_eq rfl rfl, Or.inr ⟨_, rfl⟩⟩
  · refine ⟨Writes.trans ?_ (hnext.writes _), hnext.goes _⟩
    exact ⟨rfl, [⟨msg, own⟩], rfl, by simp⟩

theorem writes_wsSendLast (own : Option Nat) (c : Client) (io : Answer) (msg : WsMessage) :
    Writes own c (c.wsSendLast io msg) := by
  unfold wsSendLast
  split
  · exact writes_refl own c
  · exact ⟨rfl, [⟨msg, none⟩], rfl, by simp⟩

theorem writes_closeForSuspend (own : Option Nat) (c : Client) (io : Answer) :
    Writes own c (c.closeForSuspend io) :=
  (writes_wsSendLast own c io .close).trans
    (writes_of_eq rfl rfl)

section

variable (cfg : RunConfig)

theorem writes_advertise (hnext : Continues own task next) (c : Client) (io : Answer)
    (networks : List LanCandidate) :
    Writes own c (c.advertise cfg io networks own next) ∧
      Goes task (c.advertise cfg io networks own next) := by
  unfold advertise
  apply writes_wsSend
  constructor
  · intro c
    refine Writes.trans ?_ (hnext.writes _)
    exact writes_of_eq rfl rfl
  · intro c
    exact hnext.goes _

theorem writes_refreshLan (hnext : Continues own task next) (c : Client) (io : Answer)
    (force : Bool) :
    Writes own c (c.refreshLan cfg io force own next) ∧
      Goes task (c.refreshLan cfg io force own next) := by
  unfold refreshLan
  dsimp only
  split
  · exact writes_advertise cfg hnext c io _
  · exact ⟨hnext.writes c, hnext.goes c⟩

/-! ## Applying a command -/

variable [Aead] [ClipJson]

/-- The step that applies `SendClip` does not get its message out. -/
def ClipFails (cfg : RunConfig) (io : Answer) (payload : ClipPayload) : Prop :=
  (∃ e, encrypt cfg.key io.nonce (ClipJson.toVec payload) = .error e) ∨ ∃ e, io.result = .error e

/-- What applying command `q`, taken from a queue of `c`, does. -/
structure Applies (cfg : RunConfig) (c : Client) (io : Answer) (q : Queued) (task : RunTask)
    (c' : Client) : Prop where
  writes : Writes (some q.seq) { c with applied := c.applied ++ [q] } c'
  stop : q.cmd = .stop → c'.task = .returned
  goes : q.cmd ≠ .stop → Goes task c'
  failed : ∀ payload, q.cmd = .sendClip payload → ClipFails cfg io payload →
    c'.written = c.written
  published : ∀ payload, q.cmd = .sendClip payload → ¬ ClipFails cfg io payload →
    ∃ ciphertext nonce, encrypt cfg.key nonce (ClipJson.toVec payload) = .ok (ciphertext, nonce) ∧
      ⟨.text (.publish cfg.groupId ciphertext nonce payload.ts), some q.seq⟩ ∈ c'.written

theorem applies_sendClip {seq : Nat} (hnext : Continues (some seq) task next) (c : Client)
    (io : Answer) (payload : ClipPayload) :
    (Writes (some seq) c (c.sendClip cfg io seq payload next) ∧
      Goes task (c.sendClip cfg io seq payload next)) ∧
    (ClipFails cfg io payload → (c.sendClip cfg io seq payload next).written = c.written) ∧
    (¬ ClipFails cfg io payload → ∃ ciphertext nonce,
      encrypt cfg.key nonce (ClipJson.toVec payload) = .ok (ciphertext, nonce) ∧
        ⟨.text (.publish cfg.groupId ciphertext nonce payload.ts), some seq⟩ ∈
          (c.sendClip cfg io seq payload next).written) := by
  unfold sendClip
  dsimp only
  -- What goes to the LAN peers is none of this.
  have hlan : ∀ c₀, c₀ = (if cfg.lanUp then
      { c with broadcast := c.broadcast ++ [⟨cfg.deviceId, payload.ts, payload⟩] } else c) →
      Writes (some seq) c c₀ ∧ c₀.written = c.written := by
    intro c₀ h
    subst h
    split
    · exact ⟨writes_of_eq rfl rfl, rfl⟩
    · exact ⟨writes_refl _ c, rfl⟩
  generalize hc₀ : (if cfg.lanUp then
    { c with broadcast := c.broadcast ++ [⟨cfg.deviceId, payload.ts, payload⟩] } else c) = c₀
  obtain ⟨hwrites, hwritten⟩ := hlan c₀ hc₀.symm
  rw [← hwritten]
  cases henc : encrypt cfg.key io.nonce (ClipJson.toVec payload) with
  | error e =>
      refine ⟨⟨hwrites.trans ?_, Or.inr ⟨_, rfl⟩⟩, fun _ => rfl, fun hok => ?_⟩
      · exact writes_of_eq rfl rfl
      · exact absurd (Or.inl ⟨e, henc⟩) hok
  | ok sealed =>
      obtain ⟨ciphertext, nonce⟩ := sealed
      obtain rfl := nonce_of_encrypt henc
      have hsend := writes_wsSend hnext c₀ io
        (.text (.publish cfg.groupId ciphertext io.nonce payload.ts))
      refine ⟨⟨hwrites.trans hsend.1, hsend.2⟩, fun hfails => ?_, fun hok => ?_⟩
      · rcases hfails with ⟨e, he⟩ | ⟨e, he⟩
        · rw [henc] at he
          cases he
        · simp only [wsSend, he]
      · refine ⟨ciphertext, io.nonce, henc, ?_⟩
        dsimp only
        unfold wsSend
        cases hres : io.result with
        | error e => exact absurd (Or.inr ⟨e, hres⟩) hok
        | ok u => exact (hnext.writes _).mem (by simp)

theorem applies_applySessionCmd {q : Queued} (hnext : Continues (some q.seq) task next)
    (c : Client) (io : Answer) : Applies cfg c io q task (c.applySessionCmd cfg io q next) := by
  unfold applySessionCmd
  extract_lets c₀
  cases hcmd : q.cmd with
  | stop =>
      constructor
      case writes => exact (writes_wsSendLast _ c₀ io .close).trans (writes_stopped _ _)
      case stop => exact fun _ => rfl
      case goes => exact fun hne => absurd hcmd hne
      case failed => intro payload h; rw [hcmd] at h; cases h
      case published => intro payload h; rw [hcmd] at h; cases h
  | fetchRecent =>
      have h := writes_wsSend hnext c₀ io (.text (.fetchRecent cfg.groupId))
      constructor
      case writes => exact h.1
      case stop => intro h; rw [hcmd] at h; cases h
      case goes => exact fun _ => h.2
      case failed => intro payload h; rw [hcmd] at h; cases h
      case published => intro payload h; rw [hcmd] at h; cases h
  | refreshLan =>
      have h : ∀ c₁, c₁ = (if cfg.lanUp && !c₀.worker.lanAdvertiseDisabled && c₀.lanActive then
          c₀.refreshLan cfg io true (some q.seq) next else next c₀) →
          Writes (some q.seq) c₀ c₁ ∧ Goes task c₁ := by
        intro c₁ h₁
        subst h₁
        split
        · exact writes_refreshLan cfg hnext c₀ io true
        · exact ⟨hnext.writes c₀, hnext.goes c₀⟩
      constructor
      case writes => exact (h _ rfl).1
      case stop => intro h; rw [hcmd] at h; cases h
      case goes => exact fun _ => (h _ rfl).2
      case failed => intro payload h; rw [hcmd] at h; cases h
      case published => intro payload h; rw [hcmd] at h; cases h
  | sendClip payload =>
      obtain ⟨h, hfailed, hpublished⟩ := applies_sendClip cfg hnext c₀ io payload
      constructor
      case writes => exact h.1
      case stop => intro h; rw [hcmd] at h; cases h
      case goes => exact fun _ => h.2
      case failed =>
        intro payload' h'
        rw [hcmd] at h'
        cases h'
        exact hfailed
      case published =>
        intro payload' h'
        rw [hcmd] at h'
        cases h'
        exact hpublished

/-! ## One step -/

end

end Client

/-- In the loop of the session. -/
def RunTask.inSelect : RunTask → Bool
  | .selectHead | .selectArm | .selecting => true
  | _ => false

/-- In a session attempt. -/
def RunTask.attempting : RunTask → Bool
  | .dialing | .joining | .fetching | .advertising | .flushing => true
  | task => task.inSelect

/-- In a session, and its variables are set. -/
def RunTask.inSession : RunTask → Bool
  | .joining | .fetching | .advertising | .flushing => true
  | task => task.inSelect

/-- In a session, before its loop. -/
def RunTask.opening : RunTask → Bool
  | .joining | .fetching | .advertising | .flushing => true
  | _ => false

/-- Neither in a session attempt nor in the `select!` of the suspended loop. -/
def RunTask.outside : RunTask → Bool
  | .gate | .suspendedHead | .ended _ | .backoffHead _ | .backoffArm _ | .backingOff _ _
  | .returned => true
  | _ => false

namespace Client

variable {c c' : Client}

/-- The command that the worker applies in its next step, beside the client without it. -/
def nextCmd (c : Client) : Option (Queued × Client) :=
  match c.task with
  | .flushing =>
      match c.pendingCmds with
      | [] => none
      | q :: rest => some (q, { c with pendingCmds := rest })
  | .selecting =>
      match c.branch, c.cmdRx with
      | .command, q :: rest => some (q, { c with cmdRx := rest })
      | _, _ => none
  | _ => none

/-- A command is taken from `pending_cmds` before the loop, and from the channel in it. -/
theorem nextCmd_cases {q : Queued} {c₀ : Client} (h : c.nextCmd = some (q, c₀)) :
    (c.task = .flushing ∧ c.pendingCmds = q :: c₀.pendingCmds ∧
      c₀ = { c with pendingCmds := c₀.pendingCmds }) ∨
    (c.task = .selecting ∧ c.cmdRx = q :: c₀.cmdRx ∧ c₀ = { c with cmdRx := c₀.cmdRx }) := by
  unfold nextCmd at h
  split at h
  · rename_i htask
    split at h
    · cases h
    · rename_i q' rest hpending
      cases h
      exact Or.inl ⟨htask, hpending, rfl⟩
  · rename_i htask
    split at h
    · rename_i q' rest _ hrx
      cases h
      exact Or.inr ⟨htask, hrx, rfl⟩
    · cases h
  · cases h

/-- Where a step can go that starts no session attempt. -/
structure Onward (c c' : Client) : Prop where
  select : c'.task.inSelect → c.task.inSelect ∨ c.pendingCmds = []
  arm : c'.task = .suspendedArm → c.task = .suspendedHead ∧ c.reconnectIdleMode
  park : ∀ waiter, c'.task = .suspended waiter →
    c.task = .suspendedArm ∧ waiter = c.reconnectMode.notified ∨ c.task = .suspended waiter

/-- On to a place outside a session attempt. -/
theorem onward_outside {t : RunTask} (htask : c'.task = t) (ht : t.outside) : Onward c c' where
  select h := by
    rw [htask] at h
    cases t <;> cases ht <;> cases h
  arm h := by
    rw [← htask, h] at ht
    cases ht
  park waiter h := by
    rw [← htask, h] at ht
    cases ht

/-- The worker stays parked. -/
theorem onward_refl (harm : c.task ≠ .suspendedArm) : Onward c c where
  select h := Or.inl h
  arm h := absurd h harm
  park _ h := Or.inr h

/-- The session ends. -/
theorem onward_ended {result : Except String Unit}
    (htask : c'.task = .ended result) : Onward c c' where
  select h := by rw [htask] at h; cases h
  arm h := by rw [htask] at h; cases h
  park waiter h := by rw [htask] at h; cases h

/-- The session goes on, or ends with an error. -/
theorem onward_goes {t : RunTask} (hgoes : Goes t c') (ht : t.attempting)
    (hsel : t.inSelect → c.task.inSelect ∨ c.pendingCmds = []) : Onward c c' := by
  rcases hgoes with hgoes | ⟨e, he⟩
  · constructor
    case select => rw [hgoes]; exact hsel
    case arm => intro h; rw [← hgoes, h] at ht; cases ht
    case park => intro waiter h; rw [← hgoes, h] at ht; cases ht
  · exact onward_ended he

/-- A step outside a session attempt: it leaves alone what a session depends on, writes nothing
and leads into no session. -/
structure Idles (c c' : Client) : Prop where
  session : c'.session = c.session
  reconnectWake : c'.reconnectWake = c.reconnectWake
  clock : c'.worker.clock = c.worker.clock
  written : c'.written = c.written
  task : c'.task.inSession = false

theorem idles_onGate (c : Client) : Idles c c.onGate := by
  unfold onGate
  split
  · exact ⟨rfl, rfl, rfl, rfl, rfl⟩
  · exact ⟨rfl, rfl, rfl, rfl, rfl⟩

theorem idles_onSuspendedHead (c : Client) : Idles c c.onSuspendedHead := by
  unfold onSuspendedHead
  split
  · exact ⟨rfl, rfl, rfl, rfl, rfl⟩
  · exact ⟨rfl, rfl, rfl, rfl, rfl⟩

theorem idles_onSuspendedCmd (c : Client) : Idles c c.onSuspendedCmd := by
  unfold onSuspendedCmd
  split
  · exact ⟨rfl, rfl, rfl, rfl, rfl⟩
  · split
    · exact ⟨rfl, rfl, rfl, rfl, rfl⟩
    · exact ⟨rfl, rfl, rfl, rfl, rfl⟩

theorem idles_onSuspended {waiter : Notified} (htask : c.task = .suspended waiter) (io : Answer) :
    Idles c (c.onSuspended io waiter) := by
  unfold onSuspended
  dsimp only
  split
  · exact idles_onSuspendedCmd c
  · split
    · split
      · exact ⟨rfl, rfl, rfl, rfl, rfl⟩
      · exact ⟨rfl, rfl, rfl, rfl, rfl⟩
    · exact ⟨rfl, rfl, rfl, rfl, by rw [htask]; rfl⟩

theorem idles_onEnded (c : Client) (result : Except String Unit) :
    Idles c (c.onEnded result) := by
  unfold onEnded
  dsimp only
  repeat' split
  all_goals exact ⟨rfl, rfl, rfl, rfl, rfl⟩

theorem idles_onBackoffHead (c : Client) (deadline : Instant) :
    Idles c (c.onBackoffHead deadline) := by
  unfold onBackoffHead
  split
  · exact ⟨rfl, rfl, rfl, rfl, rfl⟩
  · exact ⟨rfl, rfl, rfl, rfl, rfl⟩

theorem idles_onBackingOff {deadline : Instant} {waiter : Notified}
    (htask : c.task = .backingOff deadline waiter) (io : Answer) :
    Idles c (c.onBackingOff io deadline waiter) := by
  unfold onBackingOff
  dsimp only
  split
  · exact ⟨rfl, rfl, rfl, rfl, rfl⟩
  · split
    · exact ⟨rfl, rfl, rfl, rfl, rfl⟩
    · exact ⟨rfl, rfl, rfl, rfl, by rw [htask]; rfl⟩

/-- What a branch of the `select!` does that goes back to the head of the loop. -/
def Loops (c c' : Client) : Prop := Writes none c c' ∧ Goes .selectHead c'

theorem loops_onPing (c : Client) (io : Answer) : Loops c (c.onPing io) := by
  have h := writes_wsSend (continues_goto none .selectHead) { c with
    session := { c.session with pingInterval := c.session.pingInterval.tick c.now } } io .ping
  exact ⟨Writes.trans (writes_of_eq (by rfl) (by rfl)) h.1, h.2⟩

theorem loops_onWake (c : Client) (io : Answer) : Loops c (c.onWake io) := by
  unfold onWake
  dsimp only
  split
  · exact ⟨writes_of_eq rfl rfl, Or.inl rfl⟩
  · have hnext : Continues none .selectHead (startProbe io.took) :=
      ⟨fun c => writes_of_eq rfl rfl, fun c => Or.inl rfl⟩
    have h := writes_wsSend hnext { c with reconnectRequested := false } io .ping
    exact ⟨Writes.trans (writes_of_eq (by rfl) (by rfl)) h.1, h.2⟩

theorem loops_onAdvertiseTick (cfg : RunConfig) (c : Client) (io : Answer) :
    Loops c (c.onAdvertiseTick cfg io) := by
  unfold onAdvertiseTick
  have h := writes_refreshLan cfg (continues_goto none .selectHead) { c with
    session := { c.session with
      lanAdvertiseInterval := c.session.lanAdvertiseInterval.tick c.now } } io false
  exact ⟨Writes.trans (writes_of_eq (by rfl) (by rfl)) h.1, h.2⟩

section

variable [Aead] [ClipJson]

/-- What a step of the worker does to the queues. -/
inductive Moves (cfg : RunConfig) (c : Client) (io : Answer) (c' : Client) : Prop
  | writes (hnext : c.nextCmd = none) (h : Writes none c c') (honward : Onward c c')
  | connect (hnext : c.nextCmd = none) (h : Writes none { c with attempts := c.attempts + 1 } c')
      (htask : c'.task = .dialing) (hout : c.task.attempting = false)
      (hidle : c.reconnectIdleMode = false)
  | aside (q : Queued) (rest : List Queued) (hnext : c.nextCmd = none)
      (hrx : c.cmdRx = q :: rest) (hcmd : q.cmd ≠ .stop)
      (h : Writes none { c with cmdRx := rest, pendingCmds := c.pendingCmds ++ [q] } c')
      (htask : c'.task = .suspendedHead) (hout : c.task.attempting = false)
  | stop (q : Queued) (rest : List Queued) (hnext : c.nextCmd = none)
      (hrx : c.cmdRx = q :: rest) (hcmd : q.cmd = .stop)
      (h : Writes none { c with cmdRx := rest } c') (htask : c'.task = .returned)
  | apply (q : Queued) (c₀ : Client) (task : RunTask) (hnext : c.nextCmd = some (q, c₀))
      (h : Applies cfg c₀ io q task c')
      (htask : task = .flushing ∧ c.task = .flushing ∨ task = .selectHead ∧ c.task = .selecting)

variable {cfg : RunConfig}

/-- A step outside a session attempt, to a place outside one. -/
theorem moves_outside {t : RunTask} (hnext : c.nextCmd = none) (h : Writes none c c')
    (htask : c'.task = t) (ht : t.outside) (io : Answer) :
    Moves cfg c io c' :=
  .writes hnext h (onward_outside htask ht)

/-- A step of a session that takes no command. -/
theorem moves_session {t : RunTask} (hnext : c.nextCmd = none)
    (h : Writes none c c' ∧ Goes t c') (ht : t.attempting)
    (hsel : t.inSelect → c.task.inSelect ∨ c.pendingCmds = []) (io : Answer) :
    Moves cfg c io c' :=
  .writes hnext h.1 (onward_goes h.2 ht hsel)

/-! ### Outside a session -/

theorem moves_onSuspendedCmd {waiter : Notified} (htask : c.task = .suspended waiter)
    (io : Answer) : Moves cfg c io c.onSuspendedCmd := by
  have hnext : c.nextCmd = none := by simp [nextCmd, htask]
  have hout : c.task.attempting = false := by rw [htask]; rfl
  unfold onSuspendedCmd
  split
  · exact moves_outside (t := .returned) hnext (writes_stopped none c) rfl rfl io
  · rename_i q rest hrx
    split
    · rename_i hcmd
      exact .stop q rest hnext hrx hcmd (writes_stopped none _) rfl
    · rename_i hcmd
      exact .aside q rest hnext hrx hcmd (writes_of_eq (by rfl) (by rfl)) rfl hout

theorem moves_onSuspended {waiter : Notified} (htask : c.task = .suspended waiter)
    (io : Answer) : Moves cfg c io (c.onSuspended io waiter) := by
  have hnext : c.nextCmd = none := by simp [nextCmd, htask]
  have hout : c.task.attempting = false := by rw [htask]; rfl
  unfold onSuspended
  dsimp only
  split
  · exact moves_onSuspendedCmd htask io
  · split
    · split
      · exact moves_outside (t := .suspendedHead) hnext (writes_of_eq (by rfl) (by rfl))
          (by rfl) rfl io
      · rename_i hidle
        exact .connect hnext (writes_of_eq (by rfl) (by rfl)) (by rfl) hout
          (Bool.eq_false_iff.2 hidle)
    · exact .writes hnext (writes_refl none c) (onward_refl (by rw [htask]; simp))

theorem moves_onEnded {result : Except String Unit} (htask : c.task = .ended result)
    (io : Answer) : Moves cfg c io (c.onEnded result) := by
  have hnext : c.nextCmd = none := by simp [nextCmd, htask]
  have hgate : ∀ c', Writes none c c' → c'.task = .gate → Moves cfg c io c' :=
    fun c' h ht => moves_outside (t := .gate) hnext h ht rfl io
  have hback : ∀ c' d, Writes none c c' → c'.task = .backoffHead d → Moves cfg c io c' :=
    fun c' d h ht => moves_outside (t := .backoffHead d) hnext h ht rfl io
  unfold onEnded
  dsimp only
  cases result with
  | ok u =>
      dsimp only
      split
      · exact hgate _ (writes_of_eq rfl rfl) rfl
      · split
        · exact hgate _ (writes_of_eq rfl rfl) rfl
        · exact hback _ _ (writes_of_eq rfl rfl) rfl
  | error e =>
      dsimp only
      split
      · exact hgate _ (writes_of_eq rfl rfl) rfl
      · split
        · exact hback _ _ (writes_of_eq rfl rfl) rfl
        · exact hback _ _ (writes_of_eq rfl rfl) rfl

theorem moves_onBackoffHead {deadline : Instant} (htask : c.task = .backoffHead deadline)
    (io : Answer) : Moves cfg c io (c.onBackoffHead deadline) := by
  have hnext : c.nextCmd = none := by simp [nextCmd, htask]
  unfold onBackoffHead
  split
  · exact moves_outside (t := .gate) hnext (writes_of_eq (by rfl) (by rfl)) (by rfl) rfl io
  · exact moves_outside (t := .backoffArm deadline) hnext (writes_of_eq (by rfl) (by rfl))
      (by rfl) rfl io

theorem moves_onBackingOff {deadline : Instant} {waiter : Notified}
    (htask : c.task = .backingOff deadline waiter) (io : Answer) :
    Moves cfg c io (c.onBackingOff io deadline waiter) := by
  have hnext : c.nextCmd = none := by simp [nextCmd, htask]
  unfold onBackingOff
  dsimp only
  split
  · exact moves_outside (t := .gate) hnext (writes_of_eq (by rfl) (by rfl)) (by rfl) rfl io
  · split
    · exact moves_outside (t := .backoffHead deadline) hnext (writes_of_eq (by rfl) (by rfl))
        (by rfl) rfl io
    · exact .writes hnext (writes_refl none c) (onward_refl (by rw [htask]; simp))

theorem moves_onGate (htask : c.task = .gate) (io : Answer) : Moves cfg c io c.onGate := by
  have hnext : c.nextCmd = none := by simp [nextCmd, htask]
  have hout : c.task.attempting = false := by rw [htask]; rfl
  unfold onGate
  split
  · exact moves_outside (t := .suspendedHead) hnext (writes_of_eq (by rfl) (by rfl)) (by rfl)
      rfl io
  · rename_i hidle
    exact .connect hnext (writes_connect none c) rfl hout (Bool.eq_false_iff.2 hidle)

theorem moves_onSuspendedHead (htask : c.task = .suspendedHead) (io : Answer) :
    Moves cfg c io c.onSuspendedHead := by
  have hnext : c.nextCmd = none := by simp [nextCmd, htask]
  have hout : c.task.attempting = false := by rw [htask]; rfl
  unfold onSuspendedHead
  split
  · rename_i hidle
    refine .writes hnext (writes_of_eq (by rfl) (by rfl)) ⟨?_, ?_, ?_⟩
    · intro h; cases h
    · exact fun _ => ⟨htask, hidle⟩
    · intro waiter h; cases h
  · rename_i hidle
    exact .connect hnext (writes_of_eq (by rfl) (by rfl)) (by rfl) hout
      (Bool.eq_false_iff.2 hidle)

theorem moves_suspendedArm (htask : c.task = .suspendedArm) (io : Answer) :
    Moves cfg c io { c with task := .suspended c.reconnectMode.notified } := by
  have hnext : c.nextCmd = none := by simp [nextCmd, htask]
  refine .writes hnext (writes_of_eq (by rfl) (by rfl)) ⟨?_, ?_, ?_⟩
  · intro h; cases h
  · intro h; cases h
  · intro waiter h
    cases h
    exact Or.inl ⟨htask, rfl⟩

/-! ### In a session -/

theorem moves_onDialing (htask : c.task = .dialing) (io : Answer) :
    Moves cfg c io (c.onDialing io) := by
  have hnext : c.nextCmd = none := by simp [nextCmd, htask]
  unfold onDialing
  split
  · exact .writes hnext (writes_of_eq (by rfl) (by rfl)) (onward_ended rfl)
  · exact moves_session (t := .joining) hnext
      ⟨writes_of_eq (by rfl) (by rfl), Or.inl (by rfl)⟩ rfl (fun h => by cases h) io

theorem moves_onAdvertising (htask : c.task = .advertising) (io : Answer) :
    Moves cfg c io (c.onAdvertising cfg io) := by
  have hnext : c.nextCmd = none := by simp [nextCmd, htask]
  have hflush : Writes none c (c.onAdvertising cfg io) ∧
      Goes .flushing (c.onAdvertising cfg io) := by
    unfold onAdvertising
    dsimp only
    split
    · exact writes_advertise cfg (continues_connected none) c io _
    · exact ⟨(continues_connected none).writes c, (continues_connected none).goes c⟩
  exact moves_session hnext hflush rfl (fun h => by cases h) io

theorem moves_onFlushing (htask : c.task = .flushing) (io : Answer) :
    Moves cfg c io (c.onFlushing cfg io) := by
  unfold onFlushing
  split
  · rename_i hpending
    exact moves_session (t := .selectHead) (by simp [nextCmd, htask, hpending])
      ⟨writes_of_eq (by rfl) (by rfl), Or.inl (by rfl)⟩ rfl
      (fun _ => Or.inr hpending) io
  · rename_i q rest hpending
    refine .apply q { c with pendingCmds := rest } .flushing (by simp [nextCmd, htask, hpending]) ?_
      (Or.inl ⟨rfl, htask⟩)
    exact applies_applySessionCmd cfg (continues_goto _ _) _ io

/-- A step within the session's loop that takes no command. -/
theorem moves_select {t : RunTask} (hnext : c.nextCmd = none) (hin : c.task.inSelect)
    (h : Writes none c c' ∧ Goes t c') (ht : t.inSelect) (io : Answer) : Moves cfg c io c' := by
  refine moves_session hnext h ?_ (fun _ => Or.inl hin) io
  revert ht
  cases t <;> simp [RunTask.attempting, RunTask.inSelect]

theorem moves_onSelectHead (htask : c.task = .selectHead) (io : Answer) :
    Moves cfg c io (c.onSelectHead io) := by
  have hnext : c.nextCmd = none := by simp [nextCmd, htask]
  unfold onSelectHead
  split
  · exact .writes hnext (writes_closeForSuspend none c io) (onward_ended rfl)
  · exact moves_select (t := .selectArm) hnext (by rw [htask]; rfl)
      ⟨writes_of_eq (by rfl) (by rfl), Or.inl (by rfl)⟩ rfl io

theorem moves_onItem (htask : c.task = .selecting) (hnext : c.nextCmd = none) (io : Answer)
    (item : WsItem) : Moves cfg c io (c.onItem cfg io item) := by
  have hend : ∀ c' result, Writes none c c' → c'.task = .ended result → Moves cfg c io c' :=
    fun c' result h ht => .writes hnext h (onward_ended ht)
  have hloop : ∀ c', Loops c c' → Moves cfg c io c' :=
    fun c' h => moves_select hnext (by rw [htask]; rfl) h rfl io
  unfold onItem
  split
  · exact hend _ _ (writes_of_eq rfl rfl) rfl
  · exact hend _ _ (writes_of_eq rfl rfl) rfl
  · exact hend _ _ (writes_of_eq rfl rfl) rfl
  · exact hend _ _ (writes_of_eq rfl rfl) rfl
  · exact hloop _ ⟨writes_of_eq rfl rfl, Or.inl rfl⟩
  · rename_i data
    have h := writes_wsSend (continues_goto none .selectHead) { c with
      session := { c.session with lastSeen := c.now, probeDeadline := none } } io (.pong data)
    exact hloop _ ⟨Writes.trans (writes_of_eq (by rfl) (by rfl)) h.1, h.2⟩
  · exact hloop _ ⟨writes_of_eq rfl rfl, Or.inl rfl⟩

theorem moves_onSelecting (htask : c.task = .selecting) (io : Answer) :
    Moves cfg c io (c.onSelecting cfg io) := by
  have hnone : c.branch ≠ .command → c.nextCmd = none := by
    intro hbranch
    unfold nextCmd
    rw [htask]
    dsimp only
    split
    · rename_i hb _
      exact absurd hb hbranch
    · rfl
  have hloop : c.branch ≠ .command → ∀ c', Loops c c' → Moves cfg c io c' :=
    fun hbranch c' h => moves_select (hnone hbranch) (by rw [htask]; rfl) h rfl io
  unfold onSelecting
  cases hbranch : c.branch with
  | deadline =>
      exact .writes (hnone (by simp [hbranch])) (writes_of_eq (by rfl) (by rfl)) (onward_ended rfl)
  | ping => exact hloop (by simp [hbranch]) _ (loops_onPing c io)
  | wake => exact hloop (by simp [hbranch]) _ (loops_onWake c io)
  | advertise => exact hloop (by simp [hbranch]) _ (loops_onAdvertiseTick cfg c io)
  | mode =>
      dsimp only
      unfold onMode
      split
      · exact .writes (hnone (by simp [hbranch])) (writes_closeForSuspend none c io)
          (onward_ended rfl)
      · exact hloop (by simp [hbranch]) _ ⟨writes_of_eq rfl rfl, Or.inl rfl⟩
  | frame =>
      dsimp only
      unfold onFrameBranch
      split
      · exact moves_select (t := .selecting) (hnone (by simp [hbranch])) (by rw [htask]; rfl)
          ⟨writes_refl none c, Or.inl htask⟩ rfl io
      · exact moves_onItem htask (hnone (by simp [hbranch])) io _
  | command =>
      dsimp only
      unfold onCommand
      split
      · rename_i hrx
        refine .writes (by simp [nextCmd, htask, hbranch, hrx]) (writes_stopped none c) ?_
        exact onward_outside (t := .returned) rfl rfl
      · rename_i q rest hrx
        refine .apply q { c with cmdRx := rest } .selectHead
          (by simp [nextCmd, htask, hbranch, hrx]) ?_ (Or.inr ⟨rfl, htask⟩)
        exact applies_applySessionCmd cfg (continues_goto _ _) _ io

/-- **Every step of the worker moves the queues in one of these ways.** -/
theorem work_moves (cfg : RunConfig) (c : Client) (io : Answer) :
    Moves cfg c io (c.work cfg io) := by
  unfold work
  split
  case h_1 htask => exact moves_onGate htask io
  case h_2 htask => exact moves_onSuspendedHead htask io
  case h_3 htask => exact moves_suspendedArm htask io
  case h_4 waiter htask => exact moves_onSuspended htask io
  case h_5 htask => exact moves_onDialing htask io
  case h_6 htask =>
    exact moves_session (by simp [nextCmd, htask])
      (writes_wsSend (continues_goto none .fetching) c io _) rfl (fun h => by cases h) io
  case h_7 htask =>
    exact moves_session (by simp [nextCmd, htask])
      (writes_wsSend (continues_goto none .advertising) c io _) rfl (fun h => by cases h) io
  case h_8 htask => exact moves_onAdvertising htask io
  case h_9 htask => exact moves_onFlushing htask io
  case h_10 htask => exact moves_onSelectHead htask io
  case h_11 htask =>
    exact moves_select (t := .selecting) (by simp [nextCmd, htask]) (by rw [htask]; rfl)
      ⟨writes_of_eq (by rfl) (by rfl), Or.inl (by rfl)⟩ rfl io
  case h_12 htask => exact moves_onSelecting htask io
  case h_13 result htask => exact moves_onEnded htask io
  case h_14 deadline htask => exact moves_onBackoffHead htask io
  case h_15 deadline htask =>
    exact moves_outside (t := .backingOff deadline c.reconnectWake.notified)
      (by simp [nextCmd, htask]) (writes_of_eq (by rfl) (by rfl)) (by rfl) rfl io
  case h_16 deadline waiter htask => exact moves_onBackingOff htask io
  case h_17 htask =>
    exact .writes (by simp [nextCmd, htask]) (writes_refl none c)
      (onward_refl (by rw [htask]; simp))

/-! ## The other events -/

/-- The worker stands where it stood, with the same queues. -/
structure Quiet (c c' : Client) : Prop where
  task : c'.task = c.task
  sent : c'.sent = c.sent
  cmdRx : c'.cmdRx = c.cmdRx
  pendingCmds : c'.pendingCmds = c.pendingCmds
  applied : c'.applied = c.applied
  written : c'.written = c.written
  attempts : c'.attempts = c.attempts

/-- But for a command that is sent, only the worker moves the queues. -/
theorem step_cases (cfg : RunConfig) (c : Client) (e : ClientEvent) :
    (∃ cmd, e = .send cmd) ∨ (∃ io, e = .work io) ∨ Quiet c (step cfg c e) := by
  have hrefl : Quiet c c := ⟨rfl, rfl, rfl, rfl, rfl, rfl, rfl⟩
  cases e with
  | send cmd => exact Or.inl ⟨cmd, rfl⟩
  | work io => exact Or.inr (Or.inl ⟨io, rfl⟩)
  | notifyMode =>
      refine Or.inr (Or.inr ?_)
      simp only [step, notifyMode]
      split
      · exact hrefl
      · exact ⟨rfl, rfl, rfl, rfl, rfl, rfl, rfl⟩
  | notifyWake =>
      refine Or.inr (Or.inr ?_)
      simp only [step, notifyWake]
      split
      · exact hrefl
      · exact ⟨rfl, rfl, rfl, rfl, rfl, rfl, rfl⟩
  | lanInbound clip =>
      refine Or.inr (Or.inr ?_)
      simp only [step]
      split
      · exact hrefl
      · exact ⟨rfl, rfl, rfl, rfl, rfl, rfl, rfl⟩
  | _ => exact Or.inr (Or.inr ⟨rfl, rfl, rfl, rfl, rfl, rfl, rfl⟩)

/-- What the host, a LAN peer and the passing of time leave alone, and what they may do to the rest
of what a session depends on. -/
structure Outside (cfg : RunConfig) (c c' : Client) : Prop where
  task : c'.task = c.task
  session : c'.session = c.session
  wake : c'.reconnectWake = c.reconnectWake ∨ c'.reconnectWake = c.reconnectWake.notifyWaiters
  worker : c'.worker = c.worker ∨ (∃ d, c'.worker = c.worker.wait d) ∨
    ∃ clip, c'.worker = onLanInbound cfg.toClientConfig c.worker 0 clip

theorem step_outside (cfg : RunConfig) (c : Client) {e : ClientEvent}
    (he : ∀ io, e ≠ .work io) : Outside cfg c (step cfg c e) := by
  have hrest : ∀ c', c'.task = c.task → c'.session = c.session →
      c'.reconnectWake = c.reconnectWake → c'.worker = c.worker → Outside cfg c c' :=
    fun c' htask hsession hwake hworker => ⟨htask, hsession, Or.inl hwake, Or.inl hworker⟩
  cases e with
  | work io => exact absurd rfl (he io)
  | send cmd =>
      simp only [step, enqueue]
      split
      · exact hrest _ rfl rfl rfl rfl
      · exact hrest _ rfl rfl rfl rfl
  | notifyMode =>
      simp only [step, notifyMode]
      split
      · exact hrest _ rfl rfl rfl rfl
      · exact hrest _ rfl rfl rfl rfl
  | notifyWake =>
      simp only [step, notifyWake]
      split
      · exact hrest _ rfl rfl rfl rfl
      · exact ⟨rfl, rfl, Or.inr rfl, Or.inl rfl⟩
  | elapse d => exact ⟨rfl, rfl, Or.inl rfl, Or.inr (Or.inl ⟨d, rfl⟩)⟩
  | lanInbound clip =>
      simp only [step]
      split
      · exact hrest _ rfl rfl rfl rfl
      · exact ⟨rfl, rfl, Or.inl rfl, Or.inr (Or.inr ⟨clip, rfl⟩)⟩
  | dropSender => exact hrest _ rfl rfl rfl rfl
  | storeIdleMode enabled => exact hrest _ rfl rfl rfl rfl
  | storeRequested => exact hrest _ rfl rfl rfl rfl
  | setLanActive enabled => exact hrest _ rfl rfl rfl rfl

end

end Client

end ClipBridge
