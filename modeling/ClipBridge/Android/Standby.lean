import ClipBridge.Lib.Machine

/-!
# Standby of the Android service

Following `ClipBridgeAccessibilityService.kt`: with the screen off the service suspends the relay
session and tears the LAN down, and it comes back with the screen, with the app, or for a short
window to send something. All of it runs on the main thread, one handler after the other.

`interactive` is what the power manager says. It changes between handlers, and a change to off is
broadcast: `screenOffPending` counts the broadcasts that the main thread is yet to handle.

* `Standby` — with the screen off and nothing pending, the service is in standby.
* `StaysDown` — the app coming to the front, a manual reconnect or the end of the debounce do not
  find the screen off with the broadcast handled.
* `standby_step` — a step keeps `Standby` exactly if it meets `StaysDown`.
* `standby_iff` — the same for a whole run.
* `synced_run` — the client has always been told what mode the service is in.
-/

namespace ClipBridge.Android

/-- What a client has been told: `set_reconnect_idle_mode` and `set_lan_active`. -/
structure Told where
  reconnectIdleMode : Bool
  lanActive : Bool
  deriving DecidableEq, Repr

/-- What comes of making a client: there is no pairing, the constructor throws, or there is one. -/
inductive ClientStart where
  | unpaired
  | failed
  | started
  deriving DecidableEq, Repr

inductive ForegroundReconnectAction where
  | none
  | startClient
  | reconnectNow
  deriving DecidableEq, Repr

structure Service where
  interactive : Bool
  screenOffPending : Nat
  reconnectIdleMode : Bool
  lanActive : Bool
  hasLanNetwork : Bool
  hostAppForeground : Bool
  /-- The wake window is open: its coroutine has not come to its end. -/
  lanActiveJob : Bool
  leaveStandbyDebounceJob : Bool
  /-- The coroutines of `ensureConnected` that are yet to run. -/
  ensurePending : Nat
  multicastLock : Bool
  client : Option Told
  deriving DecidableEq, Repr

inductive Event where
  /-- The power manager turns non-interactive, which is broadcast. -/
  | screenTurnsOff
  | screenTurnsOn
  | onScreenOff
  | onScreenOn
  | onUserPresent
  /-- The default network has changed; `lan` is whether it is LAN capable. -/
  | networkChanged (lan : Bool)
  /-- A local text or image that is not a duplicate or an echo is published. -/
  | publish
  | sendFilesToPeers
  | onHostAppForeground
  | onHostAppBackground
  | requestManualReconnect
  | ensureConnected (start : ClientStart)
  /-- The foreground watchdog comes round. -/
  | watchdog (isConnected : Bool) (start : ClientStart)
  | pairingChanged (start : ClientStart)
  /-- `LEAVE_STANDBY_DEBOUNCE_MS` is over. -/
  | debounceEnds
  /-- `LAN_ACTIVE_WINDOW_MS` is over. -/
  | wakeWindowEnds
  deriving DecidableEq, Repr

namespace Service

def shouldEnableLanTransport (isTransportAwake hasLanNetwork : Bool) : Bool :=
  isTransportAwake && hasLanNetwork

/-- `refresh` only asks the client to look for LAN peers anew. -/
def applyLanTransportPolicy (s : Service) : Service :=
  let enabled := shouldEnableLanTransport (!s.reconnectIdleMode) s.hasLanNetwork
  { s with
    lanActive := enabled
    client := s.client.map fun told => { told with lanActive := enabled }
    multicastLock := if enabled then s.multicastLock || s.client.isSome else false }

def enterStandby (s : Service) : Service :=
  { s with
    leaveStandbyDebounceJob := false
    lanActiveJob := false
    reconnectIdleMode := true
    lanActive := false
    client := s.client.map fun _ => ⟨true, false⟩
    multicastLock := false }

/-- The body `run` of `leaveStandby`, for the transports. -/
def wake (s : Service) : Service :=
  applyLanTransportPolicy { s with
    reconnectIdleMode := false
    client := s.client.map fun told => { told with reconnectIdleMode := false } }

def leaveStandby (s : Service) (immediate : Bool) : Service :=
  let s := { s with lanActiveJob := false }
  if immediate then wake { s with leaveStandbyDebounceJob := false }
  else { s with leaveStandbyDebounceJob := true }

def activateLanTemporarily (s : Service) : Service :=
  let s := leaveStandby s true
  if s.interactive then { s with lanActiveJob := false } else { s with lanActiveJob := true }

def startClient (s : Service) : ClientStart → Service
  | .unpaired => s
  | .failed => { s with client := none, multicastLock := s.lanActive }
  | .started =>
      { s with client := some ⟨s.reconnectIdleMode, s.lanActive⟩, multicastLock := s.lanActive }

/-- An existing client is only asked to reconnect. -/
def ensureConnected (s : Service) (start : ClientStart) : Service :=
  if s.client.isSome then s else startClient s start

/-- What the watchdog of the app in the foreground does. -/
def foregroundReconnectAction (hostAppForeground reconnectIdleMode hasClient isConnected : Bool) :
    ForegroundReconnectAction :=
  if !hostAppForeground then .none
  else if isConnected then .none
  else if reconnectIdleMode then .none
  else if !hasClient then .startClient
  else .reconnectNow

def restartClient (s : Service) (start : ClientStart) : Service :=
  startClient { s with client := none, multicastLock := false } start

def step (s : Service) : Event → Service
  | .screenTurnsOff =>
      if s.interactive then
        { s with interactive := false, screenOffPending := s.screenOffPending + 1 }
      else s
  | .screenTurnsOn => { s with interactive := true }
  | .onScreenOff =>
      if 0 < s.screenOffPending then
        enterStandby { s with screenOffPending := s.screenOffPending - 1 }
      else s
  | .onScreenOn => leaveStandby s false
  | .onUserPresent => leaveStandby s false
  | .networkChanged lan => applyLanTransportPolicy { s with hasLanNetwork := lan }
  | .publish => activateLanTemporarily s
  | .sendFilesToPeers => activateLanTemporarily s
  | .onHostAppForeground =>
      let s := leaveStandby { s with hostAppForeground := true } true
      { s with ensurePending := s.ensurePending + 1 }
  | .onHostAppBackground => { s with hostAppForeground := false }
  | .requestManualReconnect =>
      let s := leaveStandby s true
      { s with ensurePending := s.ensurePending + 1 }
  | .ensureConnected start =>
      if 0 < s.ensurePending then
        ensureConnected { s with ensurePending := s.ensurePending - 1 } start
      else s
  | .watchdog isConnected start =>
      if foregroundReconnectAction s.hostAppForeground s.reconnectIdleMode s.client.isSome
        isConnected = .startClient then startClient s start
      else s
  | .pairingChanged start => restartClient s start
  | .debounceEnds =>
      if s.leaveStandbyDebounceJob then wake { s with leaveStandbyDebounceJob := false } else s
  | .wakeWindowEnds =>
      if s.lanActiveJob then
        let s := { s with lanActiveJob := false }
        if s.interactive then s else enterStandby s
      else s

/-- `onServiceConnected`. -/
def connected (interactive lan : Bool) (start : ClientStart) : Service :=
  let s : Service := ⟨interactive, 0, false, true, lan, false, false, false, 0, false, none⟩
  startClient (if interactive then leaveStandby s true else enterStandby s) start

def run : Service → List Event → Service := Machine.run step

/-! ## Standby -/

/-- With the screen off, its broadcast handled and no job that is yet to put the service to
sleep or to wake it, the service is in standby. -/
def Standby (s : Service) : Prop :=
  s.interactive = false → s.screenOffPending = 0 → s.lanActiveJob = false →
    s.leaveStandbyDebounceJob = false → s.reconnectIdleMode = true ∧ s.lanActive = false

/-- The screen is on, or there is a broadcast still to come that it is off. -/
def ScreenOn (s : Service) : Prop := s.interactive = true ∨ 0 < s.screenOffPending

/-- What wakes the service for good finds the screen on. -/
def StaysDown (s : Service) : Event → Prop
  | .onHostAppForeground => s.ScreenOn
  | .requestManualReconnect => s.ScreenOn
  | .debounceEnds => s.leaveStandbyDebounceJob = true → s.ScreenOn
  | _ => True

/-- There is never more than one job. -/
def OneJob (s : Service) : Prop := ¬ (s.lanActiveJob = true ∧ s.leaveStandbyDebounceJob = true)

theorem standby_of_screenOn {s : Service} (h : s.ScreenOn) : s.Standby := by
  intro hoff hpending
  rcases h with hon | hbroadcast
  · rw [hon] at hoff
    cases hoff
  · omega

/-! ## What a client does not change -/

/-- What `Standby` and `OneJob` are about. -/
structure Flags where
  interactive : Bool
  screenOffPending : Nat
  reconnectIdleMode : Bool
  lanActive : Bool
  lanActiveJob : Bool
  leaveStandbyDebounceJob : Bool

def flags (s : Service) : Flags :=
  ⟨s.interactive, s.screenOffPending, s.reconnectIdleMode, s.lanActive, s.lanActiveJob,
    s.leaveStandbyDebounceJob⟩

theorem Standby.congr {s s' : Service} (h : s'.flags = s.flags) (hs : s.Standby) :
    s'.Standby := by
  injection h with hinteractive hpending hidle hlan hwindow hdebounce
  unfold Standby
  rw [hinteractive, hpending, hidle, hlan, hwindow, hdebounce]
  exact hs

theorem OneJob.congr {s s' : Service} (h : s'.flags = s.flags) (hs : s.OneJob) : s'.OneJob := by
  injection h with _ _ _ _ hwindow hdebounce
  unfold OneJob
  rw [hwindow, hdebounce]
  exact hs

theorem startClient_flags (s : Service) (start : ClientStart) :
    (startClient s start).flags = s.flags := by
  cases start <;> rfl

theorem ensureConnected_flags (s : Service) (start : ClientStart) :
    (ensureConnected s start).flags = s.flags := by
  unfold ensureConnected
  split
  · rfl
  · exact startClient_flags s start

/-- The events that are about the client only. -/
def AboutClient : Event → Prop
  | .onHostAppBackground | .ensureConnected _ | .watchdog .. | .pairingChanged _ => True
  | _ => False

theorem step_flags (s : Service) (e : Event) (h : AboutClient e) :
    (step s e).flags = s.flags := by
  cases e with
  | onHostAppBackground => rfl
  | ensureConnected start =>
      simp only [step]
      split
      · exact ensureConnected_flags _ start
      · rfl
  | watchdog isConnected start =>
      simp only [step]
      split
      · exact startClient_flags s start
      · rfl
  | pairingChanged start => exact startClient_flags _ start
  | _ => exact h.elim

/-! ## One step -/

theorem oneJob_step {s : Service} (hs : s.OneJob) (e : Event) : (step s e).OneJob := by
  have hclient : AboutClient e → (step s e).OneJob := fun h => hs.congr (step_flags s e h)
  cases e with
  | screenTurnsOff =>
      simp only [step]
      split
      · exact hs
      · exact hs
  | screenTurnsOn => exact hs
  | onScreenOff =>
      simp only [step]
      split
      · exact fun h => Bool.false_ne_true h.1
      · exact hs
  | onScreenOn => exact fun h => Bool.false_ne_true h.1
  | onUserPresent => exact fun h => Bool.false_ne_true h.1
  | networkChanged lan => exact hs
  | publish =>
      simp only [step, activateLanTemporarily]
      split <;> exact fun h => Bool.false_ne_true h.2
  | sendFilesToPeers =>
      simp only [step, activateLanTemporarily]
      split <;> exact fun h => Bool.false_ne_true h.2
  | onHostAppForeground => exact fun h => Bool.false_ne_true h.1
  | requestManualReconnect => exact fun h => Bool.false_ne_true h.1
  | debounceEnds =>
      simp only [step]
      split
      · exact fun h => Bool.false_ne_true h.2
      · exact hs
  | wakeWindowEnds =>
      simp only [step]
      split
      · split <;> exact fun h => Bool.false_ne_true h.1
      · exact hs
  | onHostAppBackground => exact hclient trivial
  | ensureConnected start => exact hclient trivial
  | watchdog isConnected start => exact hclient trivial
  | pairingChanged start => exact hclient trivial

/-- A service that is awake with no job is in order only with the screen on. -/
theorem standby_awake {s : Service} (hawake : s.reconnectIdleMode = false)
    (hwindow : s.lanActiveJob = false) (hdebounce : s.leaveStandbyDebounceJob = false) :
    s.Standby ↔ s.ScreenOn := by
  refine ⟨fun h => ?_, standby_of_screenOn⟩
  by_contra hoff
  obtain ⟨hinteractive, hpending⟩ := not_or.1 hoff
  have hidle := (h (Bool.eq_false_iff.2 hinteractive) (Nat.eq_zero_of_not_pos hpending)
    hwindow hdebounce).1
  rw [hawake] at hidle
  cases hidle

/-- A wake window is opened only with the screen off, and stands for the standby to come. -/
theorem standby_activateLanTemporarily (s : Service) : (activateLanTemporarily s).Standby := by
  unfold activateLanTemporarily
  dsimp only
  split
  · rename_i hon
    exact standby_of_screenOn (Or.inl hon)
  · intro _ _ hwindow
    cases hwindow

theorem standby_enterStandby (s : Service) : (enterStandby s).Standby := fun _ _ _ _ => ⟨rfl, rfl⟩

theorem standby_step {s : Service} (hjob : s.OneJob) (hs : s.Standby) (e : Event) :
    (step s e).Standby ↔ s.StaysDown e := by
  have hkeeps : (step s e).Standby → s.StaysDown e → ((step s e).Standby ↔ s.StaysDown e) :=
    fun h h' => ⟨fun _ => h', fun _ => h⟩
  have hclient : AboutClient e → (step s e).Standby := fun h => hs.congr (step_flags s e h)
  cases e with
  | screenTurnsOff =>
      apply hkeeps ?_ trivial
      simp only [step]
      split
      · exact standby_of_screenOn (Or.inr (Nat.succ_pos _))
      · exact hs
  | screenTurnsOn => exact hkeeps (standby_of_screenOn (Or.inl rfl)) trivial
  | onScreenOff =>
      apply hkeeps ?_ trivial
      simp only [step]
      split
      · exact standby_enterStandby _
      · exact hs
  | onScreenOn => exact hkeeps (fun _ _ _ h => absurd h.symm Bool.false_ne_true) trivial
  | onUserPresent => exact hkeeps (fun _ _ _ h => absurd h.symm Bool.false_ne_true) trivial
  | networkChanged lan =>
      refine hkeeps (fun hoff hpending hwindow hdebounce => ?_) trivial
      have hidle : s.reconnectIdleMode = true := (hs hoff hpending hwindow hdebounce).1
      refine ⟨hidle, ?_⟩
      show shouldEnableLanTransport (!s.reconnectIdleMode) lan = false
      rw [hidle]
      rfl
  | publish => exact hkeeps (standby_activateLanTemporarily s) trivial
  | sendFilesToPeers => exact hkeeps (standby_activateLanTemporarily s) trivial
  | onHostAppForeground => exact standby_awake rfl rfl rfl
  | requestManualReconnect => exact standby_awake rfl rfl rfl
  | debounceEnds =>
      show (step s .debounceEnds).Standby ↔ (_ → s.ScreenOn)
      by_cases hdebounce : s.leaveStandbyDebounceJob = true
      · have hwindow : s.lanActiveJob = false :=
          Bool.eq_false_iff.2 fun h => hjob ⟨h, hdebounce⟩
        have hstep : step s .debounceEnds = wake { s with leaveStandbyDebounceJob := false } := by
          rw [step, if_pos hdebounce]
        rw [hstep]
        have hawake := standby_awake (s := wake { s with leaveStandbyDebounceJob := false }) rfl
          hwindow rfl
        exact ⟨fun h _ => hawake.1 h, fun h => hawake.2 (h hdebounce)⟩
      · rw [step, if_neg hdebounce]
        exact ⟨fun _ h => absurd h hdebounce, fun _ => hs⟩
  | wakeWindowEnds =>
      apply hkeeps ?_ trivial
      simp only [step]
      split
      · split
        · rename_i hon
          exact standby_of_screenOn (Or.inl hon)
        · exact standby_enterStandby _
      · exact hs
  | onHostAppBackground => exact hkeeps (hclient trivial) trivial
  | ensureConnected start => exact hkeeps (hclient trivial) trivial
  | watchdog isConnected start => exact hkeeps (hclient trivial) trivial
  | pairingChanged start => exact hkeeps (hclient trivial) trivial

/-! ## What the client is told -/

/-- The client knows the mode the service is in. -/
def Synced (s : Service) : Prop :=
  ∀ told, s.client = some told → told = ⟨s.reconnectIdleMode, s.lanActive⟩

theorem synced_wake {s : Service} : (wake s).Synced := by
  intro told htold
  simp only [wake, applyLanTransportPolicy, Option.map_map, Option.map_eq_some_iff] at htold
  obtain ⟨_, -, rfl⟩ := htold
  rfl

theorem synced_enterStandby (s : Service) : (enterStandby s).Synced := by
  intro told htold
  obtain ⟨_, -, rfl⟩ := Option.map_eq_some_iff.1 htold
  rfl

theorem synced_startClient {s : Service} (hs : s.Synced) (start : ClientStart) :
    (startClient s start).Synced := by
  cases start with
  | unpaired => exact hs
  | failed =>
      intro told htold
      cases htold
  | started =>
      intro told htold
      exact (Option.some.inj htold).symm

theorem synced_step {s : Service} (hs : s.Synced) (e : Event) : (step s e).Synced := by
  cases e with
  | screenTurnsOff =>
      simp only [step]
      split
      · exact hs
      · exact hs
  | screenTurnsOn => exact hs
  | onScreenOff =>
      simp only [step]
      split
      · exact synced_enterStandby _
      · exact hs
  | onScreenOn => exact hs
  | onUserPresent => exact hs
  | networkChanged lan =>
      intro told htold
      obtain ⟨told', htold', rfl⟩ := Option.map_eq_some_iff.1 htold
      rw [hs told' htold']
      rfl
  | publish =>
      simp only [step, activateLanTemporarily]
      split <;> exact synced_wake
  | sendFilesToPeers =>
      simp only [step, activateLanTemporarily]
      split <;> exact synced_wake
  | onHostAppForeground => exact synced_wake
  | onHostAppBackground => exact hs
  | requestManualReconnect => exact synced_wake
  | ensureConnected start =>
      simp only [step, Service.ensureConnected]
      split
      · split
        · exact hs
        · exact synced_startClient (s := { s with ensurePending := s.ensurePending - 1 }) hs start
      · exact hs
  | watchdog isConnected start =>
      simp only [step]
      split
      · exact synced_startClient hs start
      · exact hs
  | pairingChanged start =>
      refine synced_startClient (fun told htold => ?_) start
      cases htold
  | debounceEnds =>
      simp only [step]
      split
      · exact synced_wake
      · exact hs
  | wakeWindowEnds =>
      simp only [step]
      split
      · split
        · exact hs
        · exact synced_enterStandby _
      · exact hs

/-! ## Runs -/

/-- **In every run the client has been told what mode the service is in.** -/
theorem synced_run (interactive lan : Bool) (start : ClientStart) (es : List Event) :
    (run (connected interactive lan start) es).Synced := by
  apply Machine.invariant_run (I := Synced) (fun _ e h => synced_step h e)
  apply synced_startClient
  cases interactive with
  | true => exact synced_wake
  | false => exact synced_enterStandby _

theorem standby_connected (interactive lan : Bool) (start : ClientStart) :
    (connected interactive lan start).Standby ∧ (connected interactive lan start).OneJob := by
  have hflags := startClient_flags
    (if interactive then leaveStandby ⟨interactive, 0, false, true, lan, false, false, false, 0,
        false, none⟩ true
      else enterStandby ⟨interactive, 0, false, true, lan, false, false, false, 0, false, none⟩)
    start
  cases interactive with
  | true =>
      exact ⟨(standby_of_screenOn (Or.inl rfl)).congr hflags,
        OneJob.congr hflags fun h => Bool.false_ne_true h.1⟩
  | false =>
      exact ⟨(standby_enterStandby _).congr hflags,
        OneJob.congr hflags fun h => Bool.false_ne_true h.1⟩

/-- **Whatever happens in whatever order, the service is in standby whenever it should be, exactly
if nothing wakes it for good with the screen off and the broadcast handled.** -/
theorem standby_iff (interactive lan : Bool) (start : ClientStart) (es : List Event) :
    (∀ pre, pre <+: es → (run (connected interactive lan start) pre).Standby) ↔
      Machine.Along step StaysDown (connected interactive lan start) es :=
  Machine.always_iff (I := Standby) (J := OneJob) (fun _ e h => oneJob_step h e)
    (fun _ e hjob hs => standby_step hjob hs e) (standby_connected interactive lan start).2
    (standby_connected interactive lan start).1 es

/-- The app comes to the front after the screen has gone off. -/
def foregroundWhileOff : List Event := [.screenTurnsOff, .onScreenOff, .onHostAppForeground]

theorem foregroundWhileOff_awake :
    ¬ ∀ interactive lan start es pre, pre <+: es →
      (run (connected interactive lan start) pre).Standby := by
  intro h
  have hstandby := h true true .started foregroundWhileOff foregroundWhileOff List.prefix_rfl
  exact absurd (hstandby rfl rfl rfl rfl).1 (by decide)

end Service

end ClipBridge.Android
