import ClipBridge.Client.Moves

/-!
# Inside a session attempt

What the worker's steps between a dial and the end of the session leave alone: all that the outer
loop of `run` goes by. And what they report to the host: that the session is up, an error that the
relay has sent, or that the worker stops.

* `Kept` — a step that leaves the outer loop's variables alone, and reports nothing.
* `Within` — the same, up to one report, with the places where the step can end up.
* `within_work`, `within_loop_work` — every step inside an attempt.
-/

namespace ClipBridge

/-- In a session attempt, or at its end. -/
def RunTask.inAttempt : RunTask → Bool
  | .ended _ | .returned => true
  | task => task.attempting

/-- In the part of a session that is reported as connected, or at its end. -/
def RunTask.inLoop : RunTask → Bool
  | .flushing | .ended _ | .returned => true
  | task => task.inSelect

/-- What a note reports. -/
def Note.state? : Note RecentClip → Option ConnectionState
  | .onState state => some state
  | _ => none

/-- The states that were reported, in order. -/
def Worker.states (w : Worker RecentClip) : List ConnectionState := w.trace.filterMap Note.state?

/-! ## Taking clips -/

namespace Worker

/-- Time may pass, and nothing is reported. -/
structure Silent (w w' : Worker RecentClip) : Prop where
  clock : w.clock ≤ w'.clock
  states : w'.states = w.states

variable {w w' w'' : Worker RecentClip}

theorem Silent.trans (h : Silent w w') (h' : Silent w' w'') : Silent w w'' :=
  ⟨Nat.le_trans h.clock h'.clock, h'.states.trans h.states⟩

theorem silent_refl (w : Worker RecentClip) : w.Silent w := ⟨Nat.le_refl _, rfl⟩

theorem states_note (w : Worker RecentClip) (n : Note RecentClip) :
    (w.note n).states = w.states ++ n.state?.toList := by
  unfold states note
  rw [List.filterMap_append]
  cases hn : n.state? <;> simp [hn]

variable [Aead] [ClipJson] (cfg : ClientConfig)

theorem silent_receive (w : Worker RecentClip) (a : Arrival RecentClip) :
    w.Silent (receive cfg w a) := by
  refine ⟨Nat.le_of_eq (receive_keeps cfg w a).1.symm, ?_⟩
  unfold receive
  split
  · rfl
  · have hinsert : (w.insert a.key).2.states = w.states := rfl
    generalize w.insert a.key = r at hinsert
    obtain ⟨fresh, w'⟩ := r
    cases fresh with
    | false => exact hinsert
    | true =>
        dsimp only
        split
        · rw [states_note, hinsert]
          exact List.append_nil _
        · exact hinsert

theorem silent_receiveRecent (w : Worker RecentClip) (lags : List Duration)
    (clips : List RecentClip) : w.Silent (receiveRecent cfg w lags clips) := by
  induction clips generalizing w lags with
  | nil => exact silent_refl w
  | cons c clips ih =>
      have hwait : w.Silent (w.wait (lags.headD 0)) := ⟨Nat.le_add_right _ _, rfl⟩
      exact hwait.trans ((silent_receive cfg _ (.relay c)).trans (ih _ _))

/-- A message is handled silently, or it is an error of the relay and is reported. -/
theorem onFrame_silent (w : Worker RecentClip) (lags : List Duration)
    (msg : ServerMessage RecentClip) :
    w.Silent (onFrame cfg w lags msg) ∨ w.clock = (onFrame cfg w lags msg).clock ∧
      ∃ reason, msg = .error reason ∧
        (onFrame cfg w lags msg).states = w.states ++ [.error reason] := by
  cases msg with
  | joined g => exact .inl (silent_refl w)
  | clip c => exact .inl (silent_receiveRecent cfg w lags [c])
  | recent clips => exact .inl (silent_receiveRecent cfg w lags clips)
  | lanPeers peers => exact .inl ⟨Nat.le_refl _, rfl⟩
  | error reason =>
      simp only [onFrame, handleServer]
      split
      · split
        · exact .inl ⟨Nat.le_refl _, rfl⟩
        · exact .inr ⟨rfl, reason, rfl, states_note _ _⟩
      · exact .inr ⟨rfl, reason, rfl, states_note _ _⟩

end Worker

namespace Client

def states (c : Client) : List ConnectionState := c.worker.states

/-- What the outer loop goes by is left alone, and nothing is reported. -/
structure Kept (c c' : Client) : Prop where
  attempts : c'.attempts = c.attempts
  backoff : c'.backoff = c.backoff
  sessionStarted : c'.sessionStarted = c.sessionStarted
  reconnectIdleMode : c'.reconnectIdleMode = c.reconnectIdleMode
  reconnectRequested : c'.reconnectRequested = true → c.reconnectRequested = true
  now : c.now ≤ c'.now
  states : c'.states = c.states

/-- What a step from `c` to `c'` may report inside a session attempt, if `item` has arrived. -/
inductive Reported (item : Option WsItem) (c c' : Client) : Prop
  | nothing (htask : c'.task ≠ .returned) (h : c'.states = c.states)
  | connected (htask : c'.task = .flushing) (h : c'.states = c.states ++ [.connected])
  | error (htask : c'.task = .selectHead) (reason : String)
      (hitem : item = some (.text (.ok (.error reason))))
      (h : c'.states = c.states ++ [.error reason])
  | stopped (htask : c'.task = .returned) (h : c'.states = c.states ++ [.disconnected])

/-- A step inside a session attempt, to a place where `P` holds. -/
structure Within (item : Option WsItem) (P : RunTask → Prop) (c c' : Client) : Prop where
  attempts : c'.attempts = c.attempts
  backoff : c'.backoff = c.backoff
  sessionStarted : c'.sessionStarted = c.sessionStarted
  reconnectIdleMode : c'.reconnectIdleMode = c.reconnectIdleMode
  reconnectRequested : c'.reconnectRequested = true → c.reconnectRequested = true
  now : c.now ≤ c'.now
  reported : Reported item c c'
  task : P c'.task

variable {item : Option WsItem} {P Q : RunTask → Prop} {c c' c'' : Client}
  {next : Client → Client}

/-! ## Composing -/

theorem Kept.within (h : Kept c c') {task : RunTask} (htask : c'.task = task) (hP : P task)
    (hgoes : task ≠ .returned) : Within item P c c' :=
  ⟨h.attempts, h.backoff, h.sessionStarted, h.reconnectIdleMode, h.reconnectRequested, h.now,
    .nothing (htask ▸ hgoes) h.states, htask ▸ hP⟩

theorem Kept.before (h : Kept c c') (h' : Within item P c' c'') : Within item P c c'' where
  attempts := h'.attempts.trans h.attempts
  backoff := h'.backoff.trans h.backoff
  sessionStarted := h'.sessionStarted.trans h.sessionStarted
  reconnectIdleMode := h'.reconnectIdleMode.trans h.reconnectIdleMode
  reconnectRequested hreq := h.reconnectRequested (h'.reconnectRequested hreq)
  now := Nat.le_trans h.now h'.now
  reported := by
    rcases h'.reported with ⟨htask, hstates⟩ | ⟨htask, hstates⟩ |
      ⟨htask, reason, hitem, hstates⟩ |
      ⟨htask, hstates⟩
    · exact .nothing htask (hstates.trans h.states)
    · exact .connected htask (h.states ▸ hstates)
    · exact .error htask reason hitem (h.states ▸ hstates)
    · exact .stopped htask (h.states ▸ hstates)
  task := h'.task

theorem Within.mono (h : Within item P c c') (hPQ : ∀ task, P task → Q task) : Within item Q c c' :=
  { h with task := hPQ _ h.task }

/-- A step that changes nothing of this. -/
theorem kept_of_eq (hattempts : c'.attempts = c.attempts) (hbackoff : c'.backoff = c.backoff)
    (hstarted : c'.sessionStarted = c.sessionStarted)
    (hidle : c'.reconnectIdleMode = c.reconnectIdleMode)
    (hrequested : c'.reconnectRequested = c.reconnectRequested)
    (hclock : c'.worker.clock = c.worker.clock) (htrace : c'.worker.trace = c.worker.trace) :
    Kept c c' :=
  ⟨hattempts, hbackoff, hstarted, hidle, fun h => hrequested ▸ h, Nat.le_of_eq hclock.symm,
    by rw [states, states, Worker.states, Worker.states, htrace]⟩

theorem kept_refl (c : Client) : Kept c c := kept_of_eq rfl rfl rfl rfl rfl rfl rfl

theorem within_goto {task : RunTask} (hP : P task) (hgoes : task ≠ .returned) (c : Client) :
    Within item P c (goto task c) :=
  Kept.within (kept_of_eq rfl rfl rfl rfl rfl rfl rfl) rfl hP hgoes

theorem within_wsSend (herror : ∀ e, P (.ended (.error e))) (hnext : ∀ c, Within item P c (next c))
    (c : Client) (io : Answer) (msg : WsMessage) (own : Option Nat) :
    Within item P c (c.wsSend io msg own next) := by
  unfold wsSend
  split
  · exact within_goto (herror _) (by simp) c
  · have hwritten : Kept c { c with written := c.written ++ [⟨msg, own⟩] } :=
      kept_of_eq rfl rfl rfl rfl rfl rfl rfl
    exact hwritten.before (hnext _)

theorem kept_wsSendLast (c : Client) (io : Answer) (msg : WsMessage) :
    Kept c (c.wsSendLast io msg) := by
  unfold wsSendLast
  split
  · exact kept_refl c
  · exact kept_of_eq rfl rfl rfl rfl rfl rfl rfl

section

variable (cfg : RunConfig)

theorem within_advertise (herror : ∀ e, P (.ended (.error e)))
    (hnext : ∀ c, Within item P c (next c)) (c : Client) (io : Answer)
    (networks : List LanCandidate) (own : Option Nat) :
    Within item P c (c.advertise cfg io networks own next) := by
  unfold advertise
  refine within_wsSend herror (fun c => ?_) c io _ own
  refine Kept.before ?_ (hnext _)
  exact kept_of_eq rfl rfl rfl rfl rfl rfl rfl

/-! ## The opening of a session -/

/-- On to `next`, or the attempt has failed. -/
def OpensTo (next task : RunTask) : Prop := task = next ∨ ∃ e, task = .ended (.error e)

theorem opensTo_error (next : RunTask) (e : String) : OpensTo next (.ended (.error e)) :=
  .inr ⟨e, rfl⟩

theorem within_onDialing (c : Client) (io : Answer) :
    Within item (OpensTo .joining) c (c.onDialing io) := by
  unfold onDialing
  split
  · exact within_goto (opensTo_error _ _) (by simp) c
  · exact Kept.within (kept_of_eq rfl rfl rfl rfl rfl rfl rfl) rfl (.inl rfl) (by simp)

theorem within_onJoining (c : Client) (io : Answer) :
    Within item (OpensTo .fetching) c (c.onJoining cfg io) :=
  within_wsSend (opensTo_error _) (within_goto (.inl rfl) (by simp)) c io _ none

theorem within_onFetching (c : Client) (io : Answer) :
    Within item (OpensTo .advertising) c (c.onFetching cfg io) :=
  within_wsSend (opensTo_error _) (within_goto (.inl rfl) (by simp)) c io _ none

theorem within_connected (c : Client) : Within item (OpensTo .flushing) c c.connected where
  attempts := rfl
  backoff := rfl
  sessionStarted := rfl
  reconnectIdleMode := rfl
  reconnectRequested := id
  now := Nat.le_refl _
  reported := .connected rfl (Worker.states_note _ _)
  task := .inl rfl

theorem within_onAdvertising (c : Client) (io : Answer) :
    Within item (OpensTo .flushing) c (c.onAdvertising cfg io) := by
  unfold onAdvertising
  dsimp only
  split
  · exact within_advertise cfg (opensTo_error _) within_connected c io _ none
  · exact within_connected c

/-! ## The session -/

/-- In the session's loop, or at the end of the session. -/
abbrev InLoop (task : RunTask) : Prop := task.inLoop = true

theorem within_ended (c : Client) (result : Except String Unit) :
    Within item InLoop c { c with task := .ended result } :=
  within_goto (show InLoop (.ended result) from rfl) (by simp) c

theorem within_loop (c : Client) : Within item InLoop c (goto .selectHead c) :=
  within_goto (show InLoop .selectHead from rfl) (by simp) c

theorem within_stopped (c : Client) : Within item InLoop c c.stopped where
  attempts := rfl
  backoff := rfl
  sessionStarted := rfl
  reconnectIdleMode := rfl
  reconnectRequested := id
  now := Nat.le_refl _
  reported := .stopped rfl (Worker.states_note _ _)
  task := rfl

theorem within_send (hnext : ∀ c, Within item InLoop c (next c)) (c : Client) (io : Answer)
    (msg : WsMessage) (own : Option Nat) : Within item InLoop c (c.wsSend io msg own next) :=
  within_wsSend (fun _ => rfl) hnext c io msg own

theorem within_closeForSuspend (c : Client) (io : Answer) :
    Within item InLoop c (c.closeForSuspend io) :=
  (kept_wsSendLast c io .close).before (within_ended _ _)

theorem within_onWake (c : Client) (io : Answer) : Within item InLoop c (c.onWake io) := by
  have hconsumed : Kept c { c with reconnectRequested := false } :=
    ⟨rfl, rfl, rfl, rfl, fun h => absurd h (by simp), Nat.le_refl _, rfl⟩
  have hprobe : ∀ c, Within item InLoop c (startProbe io.took c) := fun c =>
    Kept.within ⟨rfl, rfl, rfl, rfl, id, Nat.le_add_right _ _, rfl⟩
      (show _ = RunTask.selectHead from rfl) rfl (by simp)
  unfold onWake
  dsimp only
  split
  · exact hconsumed.before (within_loop _)
  · exact hconsumed.before (within_send hprobe _ io .ping none)

theorem within_refreshLan (hnext : ∀ c, Within item InLoop c (next c)) (c : Client) (io : Answer)
    (force : Bool) (own : Option Nat) :
    Within item InLoop c (c.refreshLan cfg io force own next) := by
  unfold refreshLan
  dsimp only
  split
  · exact within_advertise cfg (fun _ => rfl) hnext c io _ own
  · exact hnext c

variable [Aead] [ClipJson]

theorem within_sendClip (hnext : ∀ c, Within item InLoop c (next c)) (c : Client) (io : Answer)
    (seq : Nat) (payload : ClipPayload) :
    Within item InLoop c (c.sendClip cfg io seq payload next) := by
  unfold sendClip
  extract_lets c₀
  have hlan : Kept c c₀ := by
    show Kept c (if _ then _ else _)
    split
    · exact kept_of_eq rfl rfl rfl rfl rfl rfl rfl
    · exact kept_refl c
  split
  · exact hlan.before (within_ended c₀ _)
  · exact hlan.before (within_send hnext c₀ io _ _)

theorem within_applySessionCmd (hnext : ∀ c, Within item InLoop c (next c)) (c : Client)
    (io : Answer) (q : Queued) : Within item InLoop c (c.applySessionCmd cfg io q next) := by
  unfold applySessionCmd
  extract_lets c₀
  have happlied : Kept c c₀ := kept_of_eq rfl rfl rfl rfl rfl rfl rfl
  split
  · exact happlied.before ((kept_wsSendLast c₀ io .close).before (within_stopped _))
  · exact happlied.before (within_sendClip cfg hnext c₀ io q.seq _)
  · exact happlied.before (within_send hnext c₀ io _ _)
  · split
    · exact happlied.before (within_refreshLan cfg hnext c₀ io true _)
    · exact happlied.before (hnext c₀)

theorem within_onFlushing (c : Client) (io : Answer) :
    Within item InLoop c (c.onFlushing cfg io) := by
  unfold onFlushing
  split
  · exact within_loop c
  · next q rest _ =>
      have htaken : Kept c { c with pendingCmds := rest } :=
        kept_of_eq rfl rfl rfl rfl rfl rfl rfl
      have hflushing : ∀ c, Within item InLoop c (goto .flushing c) :=
        within_goto (show InLoop .flushing from rfl) (by simp)
      exact htaken.before (within_applySessionCmd cfg hflushing _ io q)

theorem within_onItem (c : Client) (io : Answer) (item : WsItem) :
    Within (some item) InLoop c (c.onItem cfg io item) := by
  have hseen : Kept c { c with
      session := { c.session with lastSeen := c.now, probeDeadline := none } } :=
    kept_of_eq rfl rfl rfl rfl rfl rfl rfl
  unfold onItem
  split
  · exact hseen.before (within_ended _ _)
  · exact hseen.before (within_ended _ _)
  · exact hseen.before (within_ended _ _)
  · exact hseen.before (within_ended _ _)
  · next msg =>
      rcases Worker.onFrame_silent cfg.toClientConfig c.worker io.lags msg with
        hsilent | ⟨hclock, reason, hmsg, hstates⟩
      · exact Kept.within ⟨rfl, rfl, rfl, rfl, id, hsilent.clock, hsilent.states⟩ rfl rfl (by simp)
      · have hitem : some (WsItem.text (.ok msg)) = some (.text (.ok (.error reason))) := by
          rw [hmsg]
        exact ⟨rfl, rfl, rfl, rfl, id, Nat.le_of_eq hclock, .error rfl reason hitem hstates, rfl⟩
  · exact hseen.before (within_send within_loop _ io _ none)
  · exact hseen.before (within_loop _)

theorem within_onSelecting (htask : c.task = .selecting) (io : Answer) :
    Within io.item InLoop c (c.onSelecting cfg io) := by
  unfold onSelecting
  split
  · exact within_ended c _
  · refine Kept.before ?_ (within_send within_loop _ io .ping none)
    exact kept_of_eq rfl rfl rfl rfl rfl rfl rfl
  · unfold onMode
    split
    · exact within_closeForSuspend c io
    · exact within_loop c
  · exact within_onWake c io
  · refine Kept.before ?_ (within_refreshLan cfg within_loop _ io false none)
    exact kept_of_eq rfl rfl rfl rfl rfl rfl rfl
  · unfold onCommand
    split
    · exact within_stopped c
    · next q rest _ =>
        have htaken : Kept c { c with cmdRx := rest } := kept_of_eq rfl rfl rfl rfl rfl rfl rfl
        exact htaken.before (within_applySessionCmd cfg within_loop _ io q)
  · unfold onFrameBranch
    split
    · exact Kept.within (kept_refl c) htask rfl (by simp)
    · next item hitem =>
        rw [hitem]
        exact within_onItem cfg c io item

/-- A step of a session that is up. -/
theorem within_loop_work (htask : c.task = .flushing ∨ c.task.inSelect = true) (io : Answer) :
    Within io.item InLoop c (c.work cfg io) := by
  unfold work
  split
  case h_9 => exact within_onFlushing cfg c io
  case h_10 =>
    unfold onSelectHead
    split
    · exact within_closeForSuspend c io
    · exact within_goto (show InLoop .selectArm from rfl) (by simp) c
  case h_11 =>
    exact Kept.within (kept_of_eq rfl rfl rfl rfl rfl rfl rfl)
      (show _ = RunTask.selecting from rfl) rfl (by simp)
  case h_12 hselecting => exact within_onSelecting cfg hselecting io
  all_goals
    rename_i hother
    rw [hother] at htask
    rcases htask with htask | htask <;> cases htask

/-- A step of any place inside a session attempt. -/
theorem within_work (htask : c.task.attempting = true) (io : Answer) :
    Within io.item (·.inAttempt = true) c (c.work cfg io) := by
  have hopens : ∀ next, next.attempting = true → ∀ task, OpensTo next task →
      task.inAttempt = true := by
    rintro next hnext task (rfl | ⟨e, rfl⟩)
    · cases task <;> first
        | rfl
        | cases hnext
    · rfl
  have hloop : ∀ task, InLoop task → task.inAttempt = true := by
    intro task h
    cases task <;> first
      | rfl
      | cases h
  cases hat : c.task with
  | dialing =>
      simp only [work, hat]
      exact (within_onDialing c io).mono (hopens .joining rfl)
  | joining =>
      simp only [work, hat]
      exact (within_onJoining cfg c io).mono (hopens .fetching rfl)
  | fetching =>
      simp only [work, hat]
      exact (within_onFetching cfg c io).mono (hopens .advertising rfl)
  | advertising =>
      simp only [work, hat]
      exact (within_onAdvertising cfg c io).mono (hopens .flushing rfl)
  | flushing => exact (within_loop_work cfg (.inl hat) io).mono hloop
  | selectHead => exact (within_loop_work cfg (.inr (by rw [hat]; rfl)) io).mono hloop
  | selectArm => exact (within_loop_work cfg (.inr (by rw [hat]; rfl)) io).mono hloop
  | selecting => exact (within_loop_work cfg (.inr (by rw [hat]; rfl)) io).mono hloop
  | _ =>
      rw [hat] at htask
      cases htask

end

end Client

end ClipBridge
