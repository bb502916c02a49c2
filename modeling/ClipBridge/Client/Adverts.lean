import ClipBridge.Client.Moves

/-!
# Advertising and reporting

What each step of the worker says about the LAN, and what it reports to the embedder: whether it
writes an advertisement, what becomes of the two flags that `session` keeps for advertisements,
and whether it reports an error.

* `Says` — what a write, or a command, comes to.
* `Speaks`, `speaks_work` — the same for any step of the worker that handles no message.
* `work_handles` — a step that handles one; `Worker.unmoved_onFrame`, `Worker.onFrame_reply` — what
  becomes of the flags.
-/

namespace ClipBridge

namespace Client

/-! ## What is written and reported -/

def isAdvert (w : Written) : Bool :=
  match w.msg with
  | .text (.lanAdvertise ..) => true
  | _ => false

/-- How many advertisements have been written. -/
def adverts (c : Client) : Nat := c.written.countP isAdvert

def isErrorState : Note RecentClip → Bool
  | .onState (.error _) => true
  | _ => false

/-- How many errors were reported. -/
def errors (w : Worker RecentClip) : Nat := w.trace.countP isErrorState

/-- The message that a step of the worker handles. -/
def handles (c : Client) (io : Answer) : Option (ServerMessage RecentClip) :=
  if c.task = .selecting ∧ c.branch = .frame then
    match io.item with
    | some (.text (.ok msg)) => some msg
    | _ => none
  else none

/-- The reason of the error that a step handles. -/
def reply (c : Client) (io : Answer) : Option String :=
  match c.handles io with
  | some (.error reason) => some reason
  | _ => none

/-- Nothing is advertised, handled or reported. -/
structure Keeps (c c' : Client) : Prop where
  pending : c'.worker.lanAdvertiseErrorPending = c.worker.lanAdvertiseErrorPending
  disabled : c'.worker.lanAdvertiseDisabled = c.worker.lanAdvertiseDisabled
  adverts : c'.adverts = c.adverts
  errors : errors c'.worker = errors c.worker

/-- An advertisement is written, and the step goes on to `task`. -/
structure Advertises (task : RunTask) (c c' : Client) : Prop where
  pending : c'.worker.lanAdvertiseErrorPending = true
  disabled : c'.worker.lanAdvertiseDisabled = c.worker.lanAdvertiseDisabled
  adverts : c'.adverts = c.adverts + 1
  errors : errors c'.worker = errors c.worker
  task : c'.task = task

/-- What a write, or a command, comes to: nothing of the kind, or an advertisement if that is
allowed. -/
inductive Says (allowed : Prop) (task : RunTask) (c c' : Client) : Prop
  | keeps (h : Keeps c c') (hgoes : Goes task c' ∨ c'.task = .returned)
  | advertises (hallowed : allowed) (h : Advertises task c c')

/-- A continuation that only goes on to `task`. -/
structure Calm (task : RunTask) (next : Client → Client) : Prop where
  keeps : ∀ c, Keeps c (next c)
  task : ∀ c, (next c).task = task

variable {allowed : Prop} {task : RunTask} {c c' c'' : Client} {next : Client → Client}

theorem Keeps.trans (h : Keeps c c') (h' : Keeps c' c'') : Keeps c c'' :=
  ⟨h'.pending.trans h.pending, h'.disabled.trans h.disabled, h'.adverts.trans h.adverts,
    h'.errors.trans h.errors⟩

/-- The worker's variables are not touched, and nothing is written. -/
theorem keeps_of_eq (hworker : c'.worker = c.worker) (hwritten : c'.written = c.written) :
    Keeps c c' := by
  constructor
  · rw [hworker]
  · rw [hworker]
  · exact congrArg (List.countP isAdvert) hwritten
  · rw [hworker]

theorem keeps_refl (c : Client) : Keeps c c := ⟨rfl, rfl, rfl, rfl⟩

/-- A state that is no error is reported. -/
theorem keeps_onState (state : ConnectionState) (hstate : isErrorState (.onState state) = false)
    (c : Client) : Keeps c (c.onState state) := by
  refine ⟨rfl, rfl, rfl, ?_⟩
  show (c.worker.trace ++ [Note.onState state]).countP isErrorState = _
  rw [List.countP_append, List.countP_singleton, hstate]
  rfl

theorem keeps_written {w : Written} (hw : isAdvert w = false) (c : Client) :
    Keeps c { c with written := c.written ++ [w] } := by
  refine ⟨rfl, rfl, ?_, rfl⟩
  show (c.written ++ [w]).countP isAdvert = _
  rw [List.countP_append, List.countP_singleton, hw]
  rfl

theorem calm_goto (task : RunTask) : Calm task (goto task) :=
  ⟨fun _ => keeps_of_eq rfl rfl, fun _ => rfl⟩

theorem calm_connected : Calm .flushing connected where
  keeps c := (keeps_onState .connected rfl c).trans (keeps_of_eq rfl rfl)
  task _ := rfl

theorem says_wsSend (hnext : Calm task next) (c : Client) (io : Answer) (msg : WsMessage)
    (own : Option Nat) (hmsg : isAdvert ⟨msg, own⟩ = false) :
    Says allowed task c (c.wsSend io msg own next) := by
  unfold wsSend
  split
  · exact .keeps (keeps_of_eq rfl rfl) (Or.inl (Or.inr ⟨_, rfl⟩))
  · exact .keeps ((keeps_written hmsg c).trans (hnext.keeps _)) (Or.inl (Or.inl (hnext.task _)))

theorem keeps_wsSendLast (c : Client) (io : Answer) : Keeps c (c.wsSendLast io .close) := by
  unfold wsSendLast
  split
  · exact keeps_refl c
  · exact keeps_written rfl c

theorem says_advertise (cfg : RunConfig) (hallowed : allowed) (hnext : Calm task next) (c : Client)
    (io : Answer) (networks : List LanCandidate) (own : Option Nat) :
    Says allowed task c (c.advertise cfg io networks own next) := by
  unfold advertise wsSend
  split
  · exact .keeps (keeps_of_eq rfl rfl) (Or.inl (Or.inr ⟨_, rfl⟩))
  · refine .advertises hallowed ?_
    constructor
    case pending => exact (hnext.keeps _).pending
    case disabled => exact (hnext.keeps _).disabled
    case adverts =>
      refine (hnext.keeps _).adverts.trans ?_
      show (c.written ++ [_]).countP isAdvert = _
      rw [List.countP_append, List.countP_singleton]
      rfl
    case errors => exact (hnext.keeps _).errors
    case task => exact hnext.task _

theorem says_refreshLan (cfg : RunConfig) (hallowed : allowed) (hnext : Calm task next)
    (c : Client) (io : Answer) (force : Bool) (own : Option Nat) :
    Says allowed task c (c.refreshLan cfg io force own next) := by
  unfold refreshLan
  dsimp only
  split
  · exact says_advertise cfg hallowed hnext c io _ own
  · exact .keeps (hnext.keeps c) (Or.inl (Or.inl (hnext.task c)))

/-- What comes before it does not matter. -/
theorem Says.after (h : Keeps c c') (hs : Says allowed task c' c'') : Says allowed task c c'' := by
  cases hs with
  | keeps h' hgoes => exact .keeps (h.trans h') hgoes
  | advertises hallowed h' =>
      refine .advertises hallowed ?_
      constructor
      case pending => exact h'.pending
      case disabled => exact h'.disabled.trans h.disabled
      case adverts => rw [h'.adverts, h.adverts]
      case errors => exact h'.errors.trans h.errors
      case task => exact h'.task

section

variable (cfg : RunConfig) [Aead] [ClipJson]

theorem says_sendClip (hnext : Calm task next) (c : Client) (io : Answer) (seq : Nat)
    (payload : ClipPayload) : Says allowed task c (c.sendClip cfg io seq payload next) := by
  unfold sendClip
  extract_lets c₀
  have hlan : Keeps c c₀ := by
    show Keeps c (if _ then _ else _)
    split
    · exact keeps_of_eq rfl rfl
    · exact keeps_refl c
  split
  · exact .keeps (hlan.trans (keeps_of_eq rfl rfl)) (Or.inl (Or.inr ⟨_, rfl⟩))
  · exact Says.after hlan (says_wsSend hnext c₀ io _ _ rfl)

/-- `RefreshLan` advertises only while that is not disabled. -/
theorem says_applySessionCmd (hnext : Calm task next) (c : Client) (io : Answer) (q : Queued) :
    Says (c.worker.lanAdvertiseDisabled = false) task c (c.applySessionCmd cfg io q next) := by
  unfold applySessionCmd
  extract_lets c₀
  have happlied : Keeps c c₀ := keeps_of_eq rfl rfl
  apply Says.after happlied
  split
  · refine .keeps ((keeps_wsSendLast c₀ io).trans ?_) (Or.inr rfl)
    exact (keeps_onState .disconnected rfl _).trans (keeps_of_eq rfl rfl)
  · exact says_sendClip cfg hnext c₀ io q.seq _
  · exact says_wsSend hnext c₀ io _ _ rfl
  · split
    · rename_i hon
      have henabled : c.worker.lanAdvertiseDisabled = false := by
        cases hdisabled : c.worker.lanAdvertiseDisabled with
        | false => rfl
        | true =>
            have hon' : (cfg.lanUp && !c.worker.lanAdvertiseDisabled && c.lanActive) = true := hon
            rw [hdisabled] at hon'
            simp at hon'
      exact says_refreshLan cfg henabled hnext c₀ io true _
    · exact .keeps (hnext.keeps c₀) (Or.inl (Or.inl (hnext.task c₀)))

end

/-- What a step of the worker that handles no message advertises and reports, and where it
leads. -/
inductive Speaks (c c' : Client) : Prop
  | leaves (htask : c'.task.inSession = false) (hadverts : c'.adverts = c.adverts)
      (herrors : c.task.attempting = true → errors c'.worker = errors c.worker)
  | dials (htask : c.task = .dialing) (htask' : c'.task = .joining)
      (hpending : c'.worker.lanAdvertiseErrorPending = false)
      (hdisabled : c'.worker.lanAdvertiseDisabled = false) (hadverts : c'.adverts = c.adverts)
      (herrors : errors c'.worker = errors c.worker)
  | opens (htask : c.task.opening = true) (htask' : c'.task.opening = true ∨ c'.task = .selectHead)
      (h : Keeps c c')
  | loops (htask : c.task.inSelect = true) (htask' : c'.task = .selectHead ∨ c'.task = .selectArm)
      (h : Keeps c c')
  | arms (htask : c.task = .selectArm) (htask' : c'.task = .selecting) (h : Keeps c c')
      (harmed : c'.session.advertiseArmed = true → c.worker.lanAdvertiseDisabled = false)
  | stays (h : c' = c)
  | advertises (task : RunTask) (h : Advertises task c c')
      (htask : task = .flushing ∧ c.task.opening = true ∨
        task = .selectHead ∧ c.task = .selecting)
      (hallowed : c.task = .advertising ∨ c.worker.lanAdvertiseDisabled = false ∨
        c.task = .selecting ∧ c.session.advertiseArmed = true)

/-- A session attempt ends, and nothing is reported yet. -/
theorem speaks_ended (h : Keeps c c') {result : Except String Unit}
    (htask : c'.task = .ended result) : Speaks c c' :=
  .leaves (by rw [htask]; rfl) h.adverts fun _ => h.errors

/-- A step before the loop. -/
theorem speaks_opening (hs : Says allowed task c c') (hin : c.task.opening = true)
    (htask : task.opening = true)
    (hallowed : allowed → task = .flushing ∧ (c.task = .advertising ∨
      c.worker.lanAdvertiseDisabled = false)) : Speaks c c' := by
  cases hs with
  | advertises hallowed' h =>
      obtain ⟨hflush, hwhen⟩ := hallowed hallowed'
      exact .advertises task h (Or.inl ⟨hflush, hin⟩) (hwhen.imp_right Or.inl)
  | keeps h hgoes =>
      rcases hgoes with (hgoes | ⟨e, hgoes⟩) | hgoes
      · exact .opens hin (Or.inl (by rw [hgoes]; exact htask)) h
      · exact speaks_ended h hgoes
      · exact .leaves (by rw [hgoes]; rfl) h.adverts fun _ => h.errors

/-- A turn of the `select!`. -/
theorem speaks_turn (hs : Says allowed .selectHead c c') (htask : c.task = .selecting)
    (hallowed : allowed → c.worker.lanAdvertiseDisabled = false ∨
      c.task = .selecting ∧ c.session.advertiseArmed = true) : Speaks c c' := by
  cases hs with
  | advertises hallowed' h =>
      exact .advertises .selectHead h (Or.inr ⟨rfl, htask⟩) (Or.inr (hallowed hallowed'))
  | keeps h hgoes =>
      rcases hgoes with (hgoes | ⟨e, hgoes⟩) | hgoes
      · exact .loops (by rw [htask]; rfl) (Or.inl hgoes) h
      · exact speaks_ended h hgoes
      · exact .leaves (by rw [hgoes]; rfl) h.adverts fun _ => h.errors

/-- A turn that only writes, and no advertisement. -/
theorem speaks_wsSend (htask : c.task = .selecting) (hkeeps : Keeps c c')
    (hnext : Calm .selectHead next) (io : Answer) (msg : WsMessage)
    (hmsg : isAdvert ⟨msg, none⟩ = false) : Speaks c (c'.wsSend io msg none next) := by
  have hsays : Says False .selectHead c (c'.wsSend io msg none next) :=
    Says.after hkeeps (says_wsSend hnext c' io msg none hmsg)
  exact speaks_turn hsays htask False.elim

theorem keeps_closeForSuspend (c : Client) (io : Answer) : Keeps c (c.closeForSuspend io) :=
  (keeps_wsSendLast c io).trans (keeps_of_eq rfl rfl)

/-- A step outside a session attempt. -/
theorem speaks_idles (hout : c.task.attempting = false) (h : Idles c c') : Speaks c c' := by
  refine .leaves h.task (congrArg (List.countP isAdvert) h.written) fun hin => ?_
  exact absurd (hout.symm.trans hin) Bool.false_ne_true

theorem speaks_onDialing (htask : c.task = .dialing) (io : Answer) :
    Speaks c (c.onDialing io) := by
  unfold onDialing
  split
  · exact speaks_ended (keeps_of_eq rfl rfl) rfl
  · exact .dials htask rfl rfl rfl rfl rfl

theorem calm_startProbe (took : Duration) : Calm .selectHead (startProbe took) :=
  ⟨fun _ => ⟨rfl, rfl, rfl, rfl⟩, fun _ => rfl⟩

/-- The advertising branch is taken only if it is on. -/
theorem armed_of_branch (hbranch : c.branch = .advertise) : c.session.advertiseArmed = true := by
  unfold branch at hbranch
  repeat' split at hbranch
  all_goals cases hbranch
  rename_i harmed
  exact (Bool.and_eq_true_iff.1 harmed).1

theorem speaks_onWake (htask : c.task = .selecting) (io : Answer) : Speaks c (c.onWake io) := by
  unfold onWake
  dsimp only
  split
  · exact .loops (by rw [htask]; rfl) (Or.inl rfl) (keeps_of_eq rfl rfl)
  · exact speaks_wsSend htask (keeps_of_eq (by rfl) (by rfl)) (calm_startProbe io.took) io _ rfl

section

variable (cfg : RunConfig)

theorem speaks_onAdvertising (htask : c.task = .advertising) (io : Answer) :
    Speaks c (c.onAdvertising cfg io) := by
  have hin : c.task.opening = true := by rw [htask]; rfl
  unfold onAdvertising
  dsimp only
  split
  · exact speaks_opening (says_advertise cfg trivial calm_connected c io _ none) hin rfl
      fun _ => ⟨rfl, Or.inl htask⟩
  · exact .opens hin (Or.inl rfl) (calm_connected.keeps c)

variable [Aead] [ClipJson]

theorem speaks_onFlushing (htask : c.task = .flushing) (io : Answer) :
    Speaks c (c.onFlushing cfg io) := by
  have hin : c.task.opening = true := by rw [htask]; rfl
  unfold onFlushing
  split
  · exact .opens hin (Or.inr rfl) (keeps_of_eq rfl rfl)
  · rename_i q rest _
    have hsays := says_applySessionCmd cfg (calm_goto .flushing) { c with pendingCmds := rest } io q
    apply speaks_opening (Says.after (keeps_of_eq (by rfl) (by rfl)) hsays) hin rfl
    exact fun henabled => ⟨rfl, Or.inr henabled⟩

theorem speaks_onFrameBranch (htask : c.task = .selecting) (hbranch : c.branch = .frame)
    (io : Answer) (hmsg : c.handles io = none) : Speaks c (c.onFrameBranch cfg io) := by
  unfold onFrameBranch
  split
  · exact .stays rfl
  · rename_i item hitem
    unfold onItem
    split
    · exact speaks_ended (keeps_of_eq rfl rfl) rfl
    · exact speaks_ended (keeps_of_eq rfl rfl) rfl
    · exact speaks_ended (keeps_of_eq rfl rfl) rfl
    · exact speaks_ended (keeps_of_eq rfl rfl) rfl
    · unfold handles at hmsg
      rw [if_pos ⟨htask, hbranch⟩, hitem] at hmsg
      cases hmsg
    · exact speaks_wsSend htask (keeps_of_eq (by rfl) (by rfl)) (calm_goto .selectHead) io _ rfl
    · exact .loops (by rw [htask]; rfl) (Or.inl rfl) (keeps_of_eq rfl rfl)

theorem speaks_onSelecting (htask : c.task = .selecting) (io : Answer)
    (hmsg : c.handles io = none) : Speaks c (c.onSelecting cfg io) := by
  have hin : c.task.inSelect = true := by rw [htask]; rfl
  unfold onSelecting
  cases hbranch : c.branch with
  | deadline => exact speaks_ended (keeps_of_eq rfl rfl) rfl
  | ping =>
      exact speaks_wsSend htask (keeps_of_eq (by rfl) (by rfl)) (calm_goto .selectHead) io _ rfl
  | mode =>
      dsimp only
      unfold onMode
      split
      · exact speaks_ended (keeps_closeForSuspend c io) rfl
      · exact .loops hin (Or.inl rfl) (keeps_of_eq rfl rfl)
  | wake => exact speaks_onWake htask io
  | advertise =>
      have hsays := says_refreshLan cfg (armed_of_branch hbranch) (calm_goto .selectHead) { c with
        session := { c.session with
          lanAdvertiseInterval := c.session.lanAdvertiseInterval.tick c.now } } io false none
      exact speaks_turn (Says.after (keeps_of_eq (by rfl) (by rfl)) hsays) htask
        fun harmed => Or.inr ⟨htask, harmed⟩
  | command =>
      dsimp only
      unfold onCommand
      split
      · have hkeeps := keeps_onState .disconnected rfl c
        exact .leaves rfl hkeeps.adverts fun _ => hkeeps.errors
      · rename_i q rest _
        have hsays := says_applySessionCmd cfg (calm_goto .selectHead) { c with cmdRx := rest } io q
        exact speaks_turn (Says.after (keeps_of_eq (by rfl) (by rfl)) hsays) htask Or.inl
  | frame => exact speaks_onFrameBranch cfg htask hbranch io hmsg

theorem speaks_work (c : Client) (io : Answer) (hmsg : c.handles io = none) :
    Speaks c (c.work cfg io) := by
  unfold work
  split
  case h_1 htask => exact speaks_idles (by rw [htask]; rfl) (idles_onGate c)
  case h_2 htask => exact speaks_idles (by rw [htask]; rfl) (idles_onSuspendedHead c)
  case h_3 htask => exact speaks_idles (by rw [htask]; rfl) ⟨rfl, rfl, rfl, rfl, rfl⟩
  case h_4 waiter htask => exact speaks_idles (by rw [htask]; rfl) (idles_onSuspended htask io)
  case h_5 htask => exact speaks_onDialing htask io
  case h_6 htask =>
    exact speaks_opening (says_wsSend (calm_goto .fetching) c io _ _ rfl)
      (by rw [htask]; rfl) rfl False.elim
  case h_7 htask =>
    exact speaks_opening (says_wsSend (calm_goto .advertising) c io _ _ rfl)
      (by rw [htask]; rfl) rfl False.elim
  case h_8 htask => exact speaks_onAdvertising cfg htask io
  case h_9 htask => exact speaks_onFlushing cfg htask io
  case h_10 htask =>
    unfold onSelectHead
    split
    · exact speaks_ended (keeps_closeForSuspend c io) rfl
    · exact .loops (by rw [htask]; rfl) (Or.inr rfl) (keeps_of_eq rfl rfl)
  case h_11 htask =>
    refine .arms htask rfl (keeps_of_eq rfl rfl) fun harmed => ?_
    have harmed' : (cfg.lanUp && !c.worker.lanAdvertiseDisabled && c.lanActive) = true := harmed
    cases hdisabled : c.worker.lanAdvertiseDisabled with
    | false => rfl
    | true =>
        rw [hdisabled] at harmed'
        simp at harmed'
  case h_12 htask => exact speaks_onSelecting cfg htask io hmsg
  case h_13 result htask => exact speaks_idles (by rw [htask]; rfl) (idles_onEnded c result)
  case h_14 deadline htask =>
    exact speaks_idles (by rw [htask]; rfl) (idles_onBackoffHead c deadline)
  case h_15 htask => exact speaks_idles (by rw [htask]; rfl) ⟨rfl, rfl, rfl, rfl, rfl⟩
  case h_16 deadline waiter htask =>
    exact speaks_idles (by rw [htask]; rfl) (idles_onBackingOff htask io)
  case h_17 => exact .stays rfl

/-! ## Handling a message -/

omit [Aead] [ClipJson] in
theorem reply_of_handles {reason : String} {io : Answer}
    (hmsg : c.handles io = some (.error reason)) : c.reply io = some reason := by
  rw [reply, hmsg]

theorem work_handles {msg : ServerMessage RecentClip} {io : Answer}
    (hmsg : c.handles io = some msg) :
    c.task = .selecting ∧ (c.work cfg io).task = .selectHead ∧
      (c.work cfg io).worker = onFrame cfg.toClientConfig c.worker io.lags msg ∧
      (c.work cfg io).adverts = c.adverts := by
  unfold handles at hmsg
  split at hmsg
  · rename_i hwhere
    obtain ⟨htask, hbranch⟩ := hwhere
    split at hmsg
    · rename_i hitem
      cases hmsg
      have hwork : c.work cfg io = c.onItem cfg io (.text (.ok msg)) := by
        unfold work onSelecting
        rw [htask, hbranch]
        dsimp only
        unfold onFrameBranch
        rw [hitem]
      rw [hwork]
      exact ⟨htask, rfl, rfl, rfl⟩
    · cases hmsg
  · cases hmsg

end

end Client

/-- Nothing is reported, and the flags of the advertisements stay. -/
structure Worker.Unmoved (w w' : Worker RecentClip) : Prop where
  pending : w'.lanAdvertiseErrorPending = w.lanAdvertiseErrorPending
  disabled : w'.lanAdvertiseDisabled = w.lanAdvertiseDisabled
  errors : Client.errors w' = Client.errors w

namespace Worker

open Client

variable {w w' w'' : Worker RecentClip}

theorem Unmoved.trans (h : w.Unmoved w') (h' : w'.Unmoved w'') : w.Unmoved w'' :=
  ⟨h'.pending.trans h.pending, h'.disabled.trans h.disabled, h'.errors.trans h.errors⟩

theorem unmoved_refl (w : Worker RecentClip) : w.Unmoved w := ⟨rfl, rfl, rfl⟩

theorem unmoved_wait (w : Worker RecentClip) (d : Duration) : w.Unmoved (w.wait d) :=
  ⟨rfl, rfl, rfl⟩

theorem errors_note (w : Worker RecentClip) (n : Note RecentClip) :
    errors (w.note n) = errors w + if isErrorState n then 1 else 0 := by
  show (w.trace ++ [n]).countP isErrorState = _
  rw [List.countP_append, List.countP_singleton]
  rfl

variable [Aead] [ClipJson] (cfg : ClientConfig)

theorem unmoved_receive (w : Worker RecentClip) (a : Arrival RecentClip) :
    w.Unmoved (receive cfg w a) := by
  unfold receive
  split
  · exact unmoved_refl w
  · have hinsert : w.Unmoved (w.insert a.key).2 := ⟨rfl, rfl, rfl⟩
    generalize w.insert a.key = r at hinsert
    obtain ⟨fresh, w'⟩ := r
    cases fresh with
    | false => exact hinsert
    | true =>
        dsimp only
        split
        · exact hinsert.trans ⟨rfl, rfl, errors_note w' _⟩
        · exact hinsert

theorem unmoved_receiveRecent (w : Worker RecentClip) (lags : List Duration)
    (clips : List RecentClip) : w.Unmoved (receiveRecent cfg w lags clips) := by
  induction clips generalizing w lags with
  | nil => exact unmoved_refl w
  | cons c clips ih =>
      have hreceive := (unmoved_wait w (lags.headD 0)).trans (unmoved_receive cfg _ (.relay c))
      exact hreceive.trans (ih _ _)

/-- Only errors and snapshots of LAN peers have to do with the advertisements. -/
theorem unmoved_onFrame {msg : ServerMessage RecentClip} (herror : ∀ reason, msg ≠ .error reason)
    (hpeers : ∀ peers, msg ≠ .lanPeers peers) (w : Worker RecentClip) (lags : List Duration) :
    w.Unmoved (onFrame cfg w lags msg) := by
  cases msg with
  | joined g => exact unmoved_refl w
  | clip c => exact (unmoved_wait w _).trans (unmoved_receive cfg _ (.relay c))
  | recent clips => exact unmoved_receiveRecent cfg w lags clips
  | error reason => exact absurd rfl (herror reason)
  | lanPeers peers => exact absurd rfl (hpeers peers)

/-- The reply to an advertisement disables further ones, if the flag is set. -/
theorem onFrame_reply {reason : String} (hreply : isLanAdvertiseCompatError reason = true)
    (w : Worker RecentClip) (lags : List Duration) :
    onFrame cfg w lags (.error reason) =
      if w.lanAdvertiseErrorPending then
        { w with lanAdvertiseErrorPending := false, lanAdvertiseDisabled := true }
      else w.note (.onState (.error reason)) := by
  simp only [onFrame, handleServer, hreply, if_true]

end Worker

end ClipBridge
