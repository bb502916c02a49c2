import ClipBridge.Client.Command
import ClipBridge.Lib.Machine
import ClipBridge.Lib.Notify

/-!
# The client: its host, and the worker's reconnect loop

Following `run`, `wait_while_relay_suspended`, `wait_backoff`, `session` and `apply_session_cmd`
in `core/src/client.rs`, and the methods of `Client` by which the host's threads reach the worker.

The client is a machine. The worker is one task: `RunTask` says where in its code it stands, and
one `work` event takes it to the next place where it can be interrupted. Such a place is an `await`,
or the point between the load of a flag and the creation of the waiters of a `select!`. Whatever
the worker learns from outside comes with the event (`Answer`): the result of a dial or of a
write, what arrived on the socket, which branch of an unbiased `select!` was picked. Host calls of
two steps, a store and then a `notify_waiters`, are two events, and any number of threads may be
between them.

* `applySessionCmd`, `onSelecting`, … — the worker's steps, under the source's names.
* `Client.step`, `Client.run` — the machine.

Recorded beside the program's variables are the commands sent so far, those that were handed to
`apply_session_cmd`, what was written to a WebSocket, what was given to the LAN node to broadcast,
and the number of session attempts. The LAN node itself and the log are left out.
-/

namespace ClipBridge

/-- A configuration beside whether the LAN node came up. -/
structure RunConfig extends ClientConfig where
  lanUp : Bool

/-! ## State -/

/-- Where the worker stands. -/
inductive RunTask where
  /-- The head of the loop of `run`. -/
  | gate
  /-- The head of the loop of `wait_while_relay_suspended`. -/
  | suspendedHead
  /-- The flag was set; the waiters of the `select!` are made next. -/
  | suspendedArm
  | suspended (waiter : Notified)
  | dialing
  /-- About to write `Join`, `FetchRecent`, and the first advertisement. -/
  | joining
  | fetching
  | advertising
  /-- The loop over `pending_cmds`. -/
  | flushing
  /-- The head of the session's loop. -/
  | selectHead
  | selectArm
  | selecting
  /-- `session` has returned, but not with `Stop`. -/
  | ended (result : Except String Unit)
  /-- The head of the loop of `wait_backoff`. -/
  | backoffHead (deadline : Instant)
  | backoffArm (deadline : Instant)
  | backingOff (deadline : Instant) (waiter : Notified)
  | returned
  deriving DecidableEq

/-- The variables of one session. -/
structure Session where
  lastLanAdvertise : Option (List LanCandidate)
  pingInterval : Interval
  lanAdvertiseInterval : Interval
  lastSeen : Instant
  probeDeadline : Option Instant
  /-- The waiters of the `select!`, and whether its advertising branch is on. -/
  modeNotified : Notified
  wakeNotified : Notified
  advertiseArmed : Bool
  deriving DecidableEq, Repr

/-- The variables when the session has connected. -/
def Session.start (now : Instant) : Session where
  lastLanAdvertise := none
  pingInterval := .start now pingEvery
  lanAdvertiseInterval := .start now lanAdvertiseRefreshEvery
  lastSeen := now
  probeDeadline := none
  modeNotified := ⟨0⟩
  wakeNotified := ⟨0⟩
  advertiseArmed := false

structure Client where
  /-- The command channel, and whether its sender is gone. -/
  cmdRx : List Queued
  senderDropped : Bool
  reconnectIdleMode : Bool
  reconnectMode : Notify
  reconnectRequested : Bool
  reconnectWake : Notify
  lanActive : Bool
  /-- The threads in `set_reconnect_idle_mode` that have stored the flag and not yet notified. -/
  modeSetters : Nat
  /-- The same for `reconnect_now`. -/
  wakeSetters : Nat
  task : RunTask
  pendingCmds : List Queued
  backoff : Duration
  sessionStarted : Instant
  session : Session
  worker : Worker RecentClip
  /-- The commands sent so far. -/
  sent : List Cmd
  applied : List Queued
  written : List Written
  broadcast : List OutgoingLan
  /-- How many session attempts were started. -/
  attempts : Nat

/-- What the worker learns from outside in one step. -/
structure Answer where
  /-- The result of the dial or of the write, if there is one. -/
  result : Except String Unit := .ok ()
  /-- What `advertise_candidate_networks` gives. -/
  networks : List LanCandidate := []
  /-- The nonce drawn by `encrypt`. -/
  nonce : Bytes := []
  /-- What has arrived on the socket. -/
  item : Option WsItem := none
  /-- The time between the clock readings while one message is handled. -/
  lags : List Duration := []
  /-- The time that the write of a probe's ping takes. -/
  took : Duration := 0
  /-- Of two ready branches of an unbiased `select!`, the first one is picked. -/
  first : Bool := true

inductive ClientEvent where
  | send (cmd : Cmd)
  | dropSender
  | storeIdleMode (enabled : Bool)
  | notifyMode
  | storeRequested
  | notifyWake
  | setLanActive (enabled : Bool)
  | elapse (d : Duration)
  /-- The LAN task, which ends with the worker, takes a clip. -/
  | lanInbound (c : IncomingLanClip)
  | work (io : Answer)

namespace Client

/-- A new client whose worker is at the start of its loop. -/
def init : Client where
  cmdRx := []
  senderDropped := false
  reconnectIdleMode := false
  reconnectMode := .new
  reconnectRequested := false
  reconnectWake := .new
  lanActive := true
  modeSetters := 0
  wakeSetters := 0
  task := .gate
  pendingCmds := []
  backoff := minBackoff
  sessionStarted := 0
  session := .start 0
  worker := Worker.start
  sent := []
  applied := []
  written := []
  broadcast := []
  attempts := 0

def now (c : Client) : Instant := c.worker.clock

/-- The commands sent so far, in order. -/
def enqueued (c : Client) : List Queued := c.sent.zipIdx.map fun p => ⟨p.2, p.1⟩

/-! ## The outer loop -/

def onState (c : Client) (state : ConnectionState) : Client :=
  { c with worker := c.worker.note (.onState state) }

/-- `run` returns: the worker reads the channel no more. -/
def stopped (c : Client) : Client := { c.onState .disconnected with task := .returned }

/-- Start a session attempt. -/
def connect (c : Client) : Client :=
  { c.onState .connecting with
    sessionStarted := c.now
    task := .dialing
    attempts := c.attempts + 1 }

def onGate (c : Client) : Client :=
  if c.reconnectIdleMode then { c.onState .disconnected with task := .suspendedHead }
  else c.connect

/-- `SuspendWait::Resume`. -/
def resume (c : Client) : Client := { c with backoff := minBackoff }.connect

def onSuspendedHead (c : Client) : Client :=
  if c.reconnectIdleMode then { c with task := .suspendedArm } else c.resume

def cmdReady (c : Client) : Bool := !c.cmdRx.isEmpty || c.senderDropped

/-- The command branch of the suspended loop: keep what comes for the next session. -/
def onSuspendedCmd (c : Client) : Client :=
  match c.cmdRx with
  | [] => c.stopped
  | q :: rest =>
      match q.cmd with
      | .stop => { c with cmdRx := rest }.stopped
      | _ => { c with
          cmdRx := rest
          pendingCmds := c.pendingCmds ++ [q]
          task := .suspendedHead }

def onSuspended (c : Client) (io : Answer) (waiter : Notified) : Client :=
  let woken := c.reconnectMode.woken waiter
  if c.cmdReady && (io.first || !woken) then c.onSuspendedCmd
  else if woken then
    if c.reconnectIdleMode then { c with task := .suspendedHead } else c.resume
  else c

/-- What `run` does when a session has ended without `Stop`. -/
def onEnded (c : Client) (result : Except String Unit) : Client :=
  let stable := decide (reconnectStableSession ≤ c.now.durationSince c.sessionStarted)
  match result with
  | .ok () =>
      let c := c.onState .disconnected
      if c.reconnectIdleMode then { c with task := .gate }
      else if stable then { c with backoff := minBackoff, task := .gate }
      else { c with task := .backoffHead (c.now + c.backoff) }
  | .error e =>
      let c := c.onState (.error e)
      if c.reconnectIdleMode then { c with task := .gate }
      else
        let c := if stable then { c with backoff := minBackoff } else c
        { c with task := .backoffHead (c.now + c.backoff) }

/-- `requested.swap(false)`. -/
def onBackoffHead (c : Client) (deadline : Instant) : Client :=
  if c.reconnectRequested then
    { c with reconnectRequested := false, backoff := minBackoff, task := .gate }
  else { c with task := .backoffArm deadline }

def onBackingOff (c : Client) (io : Answer) (deadline : Instant) (waiter : Notified) : Client :=
  let due := decide (deadline ≤ c.now)
  let woken := c.reconnectWake.woken waiter
  if due && (io.first || !woken) then
    { c with backoff := min (c.backoff * 2) maxBackoff, task := .gate }
  else if woken then { c with task := .backoffHead deadline }
  else c

/-! ## Writing -/

/-- `ws.send(..).await?`, and then on with `next`. -/
def wsSend (c : Client) (io : Answer) (msg : WsMessage) (own : Option Nat)
    (next : Client → Client) : Client :=
  match io.result with
  | .error e => { c with task := .ended (.error e) }
  | .ok () => next { c with written := c.written ++ [⟨msg, own⟩] }

/-- A last message, its error ignored. -/
def wsSendLast (c : Client) (io : Answer) (msg : WsMessage) : Client :=
  match io.result with
  | .error _ => c
  | .ok () => { c with written := c.written ++ [⟨msg, none⟩] }

def goto (task : RunTask) (c : Client) : Client := { c with task }

section

variable (cfg : RunConfig)

/-- Write an advertisement of the networks, and remember it. -/
def advertise (c : Client) (io : Answer) (networks : List LanCandidate) (own : Option Nat)
    (next : Client → Client) : Client :=
  c.wsSend io (.text (.lanAdvertise cfg.groupId cfg.deviceId cfg.deviceName
      (networks.map (·.addr)) networks)) own fun c =>
    next { c with
      worker := { c.worker with lanAdvertiseErrorPending := true }
      session := { c.session with lastLanAdvertise := some networks } }

/-! ## The opening of a session -/

/-- The dial: a socket, or an error. -/
def onDialing (c : Client) (io : Answer) : Client :=
  match io.result with
  | .error e => { c with task := .ended (.error e) }
  | .ok () => { c with
      session := { c.session with lastLanAdvertise := none }
      worker := { c.worker with lanAdvertiseErrorPending := false, lanAdvertiseDisabled := false }
      task := .joining }

def onJoining (c : Client) (io : Answer) : Client :=
  c.wsSend io (.text (.join cfg.groupId cfg.deviceId)) none (goto .fetching)

def onFetching (c : Client) (io : Answer) : Client :=
  c.wsSend io (.text (.fetchRecent cfg.groupId)) none (goto .advertising)

/-- The session is up; its timers start. -/
def connected (c : Client) : Client :=
  { c.onState .connected with
    session := { Session.start c.now with lastLanAdvertise := c.session.lastLanAdvertise }
    task := .flushing }

def onAdvertising (c : Client) (io : Answer) : Client :=
  let networks := normalizeLanCandidateNetworks io.networks
  if cfg.lanUp && c.lanActive && !networks.isEmpty then
    c.advertise cfg io networks none connected
  else c.connected

/-! ## Commands -/

/-- `RefreshLan`: advertise again, whatever was advertised last. -/
def refreshLan (c : Client) (io : Answer) (force : Bool) (own : Option Nat)
    (next : Client → Client) : Client :=
  let networks := normalizeLanCandidateNetworks io.networks
  if lanAdvertiseRefreshNeeded c.session.lastLanAdvertise networks force then
    c.advertise cfg io networks own next
  else next c

variable [Aead] [ClipJson]

/-- `SendClip`: to the LAN peers first, then sealed to the relay. -/
def sendClip (c : Client) (io : Answer) (seq : Nat) (payload : ClipPayload)
    (next : Client → Client) : Client :=
  let c := if cfg.lanUp then
    { c with broadcast := c.broadcast ++ [⟨cfg.deviceId, payload.ts, payload⟩] } else c
  match encrypt cfg.key io.nonce (ClipJson.toVec payload) with
  | .error _ => { c with task := .ended (.error "encrypt failed") }
  | .ok (ciphertext, nonce) =>
      c.wsSend io (.text (.publish cfg.groupId ciphertext nonce payload.ts)) (some seq) next

/-- `apply_session_cmd` on a command taken from one of the two queues. -/
def applySessionCmd (c : Client) (io : Answer) (q : Queued) (next : Client → Client) : Client :=
  let c := { c with applied := c.applied ++ [q] }
  match q.cmd with
  | .stop => (c.wsSendLast io .close).stopped
  | .sendClip payload => c.sendClip cfg io q.seq payload next
  | .fetchRecent => c.wsSend io (.text (.fetchRecent cfg.groupId)) (some q.seq) next
  | .refreshLan =>
      if cfg.lanUp && !c.worker.lanAdvertiseDisabled && c.lanActive then
        c.refreshLan cfg io true (some q.seq) next
      else next c

def onFlushing (c : Client) (io : Answer) : Client :=
  match c.pendingCmds with
  | [] => { c with task := .selectHead }
  | q :: rest => { c with pendingCmds := rest }.applySessionCmd cfg io q (goto .flushing)

/-! ## The session's loop -/

/-- Idle mode is on: close the socket for the hard suspend. -/
def closeForSuspend (c : Client) (io : Answer) : Client :=
  { c.wsSendLast io .close with task := .ended (.ok ()) }

def onSelectHead (c : Client) (io : Answer) : Client :=
  if c.reconnectIdleMode then c.closeForSuspend io else { c with task := .selectArm }

/-- Make the waiters of the `select!`, and evaluate the guard of its advertising branch. -/
def onSelectArm (c : Client) : Client :=
  { c with
    session := { c.session with
      modeNotified := c.reconnectMode.notified
      wakeNotified := c.reconnectWake.notified
      advertiseArmed := cfg.lanUp && !c.worker.lanAdvertiseDisabled && c.lanActive }
    task := .selecting }

/-- The branches of the `select!`, in the order in which it polls them. -/
inductive Branch where
  | deadline
  | ping
  | mode
  | wake
  | advertise
  | command
  | frame
  deriving DecidableEq, Repr

/-- When the session gives up on the socket. -/
def deadline (s : Session) : Instant :=
  let idleDeadline := s.lastSeen + idleTimeout
  s.probeDeadline.elim idleDeadline (min · idleDeadline)

/-- The first branch that is ready; the socket is the last one. -/
def branch (c : Client) : Branch :=
  if deadline c.session ≤ c.now then .deadline
  else if c.session.pingInterval.due c.now then .ping
  else if c.reconnectMode.woken c.session.modeNotified then .mode
  else if c.reconnectWake.woken c.session.wakeNotified then .wake
  else if c.session.advertiseArmed && c.session.lanAdvertiseInterval.due c.now then .advertise
  else if c.cmdReady then .command
  else .frame

def onPing (c : Client) (io : Answer) : Client :=
  let c := { c with
    session := { c.session with pingInterval := c.session.pingInterval.tick c.now } }
  c.wsSend io .ping none (goto .selectHead)

def onMode (c : Client) (io : Answer) : Client :=
  if c.reconnectIdleMode then c.closeForSuspend io else { c with task := .selectHead }

/-- The ping of the probe has been written, which took some time. -/
def startProbe (took : Duration) (c : Client) : Client :=
  let c := { c with worker := c.worker.wait took }
  { c with
    session := { c.session with probeDeadline := some (c.now + livenessProbeTimeout) }
    task := .selectHead }

/-- `reconnect_now` in a session: ask the relay for a sign of life. -/
def onWake (c : Client) (io : Answer) : Client :=
  let c := { c with reconnectRequested := false }
  match c.session.probeDeadline with
  | some _ => { c with task := .selectHead }
  | none => c.wsSend io .ping none (startProbe io.took)

def onAdvertiseTick (c : Client) (io : Answer) : Client :=
  let c := { c with session := { c.session with
    lanAdvertiseInterval := c.session.lanAdvertiseInterval.tick c.now } }
  c.refreshLan cfg io false none (goto .selectHead)

def onCommand (c : Client) (io : Answer) : Client :=
  match c.cmdRx with
  | [] => c.stopped
  | q :: rest => { c with cmdRx := rest }.applySessionCmd cfg io q (goto .selectHead)

/-- What arrived on the socket; a snapshot of LAN peers goes on to the LAN node. -/
def onItem (c : Client) (io : Answer) (item : WsItem) : Client :=
  let c := { c with session := { c.session with lastSeen := c.now, probeDeadline := none } }
  match item with
  | .ended | .close => { c with task := .ended (.ok ()) }
  | .error reason | .text (.error reason) => { c with task := .ended (.error reason) }
  | .text (.ok msg) =>
      { c with worker := onFrame cfg.toClientConfig c.worker io.lags msg, task := .selectHead }
  | .ping data => c.wsSend io (.pong data) none (goto .selectHead)
  | .other => { c with task := .selectHead }

def onFrameBranch (c : Client) (io : Answer) : Client :=
  match io.item with
  | none => c
  | some item => c.onItem cfg io item

def onSelecting (c : Client) (io : Answer) : Client :=
  match c.branch with
  | .deadline => { c with task := .ended (.ok ()) }
  | .ping => c.onPing io
  | .mode => c.onMode io
  | .wake => c.onWake io
  | .advertise => c.onAdvertiseTick cfg io
  | .command => c.onCommand cfg io
  | .frame => c.onFrameBranch cfg io

/-! ## The machine -/

/-- The worker, from where it stands to the next place. -/
def work (c : Client) (io : Answer) : Client :=
  match c.task with
  | .gate => c.onGate
  | .suspendedHead => c.onSuspendedHead
  | .suspendedArm => { c with task := .suspended c.reconnectMode.notified }
  | .suspended waiter => c.onSuspended io waiter
  | .dialing => c.onDialing io
  | .joining => c.onJoining cfg io
  | .fetching => c.onFetching cfg io
  | .advertising => c.onAdvertising cfg io
  | .flushing => c.onFlushing cfg io
  | .selectHead => c.onSelectHead io
  | .selectArm => c.onSelectArm cfg
  | .selecting => c.onSelecting cfg io
  | .ended result => c.onEnded result
  | .backoffHead deadline => c.onBackoffHead deadline
  | .backoffArm deadline => { c with task := .backingOff deadline c.reconnectWake.notified }
  | .backingOff deadline waiter => c.onBackingOff io deadline waiter
  | .returned => c

/-- `cmd_tx.send`: an error, and no effect, once the worker has returned. -/
def enqueue (c : Client) (cmd : Cmd) : Client :=
  if c.senderDropped || c.task = .returned then c
  else { c with cmdRx := c.cmdRx ++ [⟨c.sent.length, cmd⟩], sent := c.sent ++ [cmd] }

def notifyMode (c : Client) : Client :=
  if c.modeSetters = 0 then c
  else { c with
    modeSetters := c.modeSetters - 1, reconnectMode := c.reconnectMode.notifyWaiters }

def notifyWake (c : Client) : Client :=
  if c.wakeSetters = 0 then c
  else { c with
    wakeSetters := c.wakeSetters - 1, reconnectWake := c.reconnectWake.notifyWaiters }

def step (c : Client) : ClientEvent → Client
  | .send cmd => c.enqueue cmd
  | .dropSender => { c with senderDropped := true }
  | .storeIdleMode enabled =>
      { c with reconnectIdleMode := enabled, modeSetters := c.modeSetters + 1 }
  | .notifyMode => c.notifyMode
  | .storeRequested => { c with reconnectRequested := true, wakeSetters := c.wakeSetters + 1 }
  | .notifyWake => c.notifyWake
  | .setLanActive enabled => { c with lanActive := enabled }
  | .elapse d => { c with worker := c.worker.wait d }
  | .lanInbound clip =>
      if c.task = .returned then c
      else { c with worker := onLanInbound cfg.toClientConfig c.worker 0 clip }
  | .work io => c.work cfg io

/-- The client after a list of events. -/
abbrev run (es : List ClientEvent) : Client := Machine.run (step cfg) init es

end

/-! ## Fixed inputs -/

/-- The sample client without a LAN node. -/
def sampleRunConfig : RunConfig := ⟨sampleConfig, false⟩

def sampleRun (es : List ClientEvent) : Client := @run sampleRunConfig clearAead textJson es

/-- The worker dials, opens its session, and comes to the session's loop. -/
def opening : List ClientEvent := List.replicate 6 (.work {})

end Client

end ClipBridge
