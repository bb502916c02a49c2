import ClipBridge.Client.Pacing

/-!
# How long the worker is silent

A worker that is not connected reports a state at every attempt and at its end. Between two of
these reports it dials, writes the opening of a session, or waits for the next attempt. The dial
has a timeout and the wait a deadline; what a write takes is a parameter.

The watchdog of the macOS app, `reconnectAction` in `ReconnectPolicy.swift`, takes a worker that has
been silent for long for one that is gone.

* `Attended` — time passes only while the worker waits, timers fire in time, and a write takes no
  longer than `writeTime`.
* `Talks` — how long ago the last report was, place by place.
* `talks_work`, `talks_host` — every step keeps it.
* `WatchedClient` — the client, and what has been heard of it.
* `watched_run` — a worker that runs is not replaced.
-/

namespace ClipBridge

/-- An error of the relay has arrived. -/
def Answer.bringsError (io : Answer) : Bool :=
  match io.item with
  | some (.text (.ok (.error _))) => true
  | _ => false

/-- A state that was reported, and when. -/
structure Report where
  state : ConnectionState
  time : Instant
  deriving DecidableEq

namespace Client

/-- The cap on the dial. -/
def connectTimeout : Duration := Duration.fromSecs 15

/-- Time may pass until `later`; the worker has last moved at `stepped`. -/
def WaitsAt (writeTime : Duration) (now sessionStarted stepped later : Instant) : RunTask → Prop
  | .dialing => later ≤ sessionStarted + connectTimeout
  | .joining | .fetching | .advertising => later ≤ stepped + writeTime
  | .backingOff deadline _ => later ≤ deadline
  | .flushing | .selecting | .suspended _ | .returned => True
  | _ => later = now

def Waits (writeTime : Duration) (c : Client) (stepped : Instant) (d : Duration) : Prop :=
  WaitsAt writeTime c.now c.sessionStarted stepped (c.now + d) c.task

/-- What the last report says about the worker, or how long ago it was. -/
def TalksAt (writeTime : Duration) (now sessionStarted stepped : Instant) (last : Report) :
    RunTask → Prop
  | .gate => now ≤ last.time + maxBackoff
  | .dialing => sessionStarted = last.time ∧ now ≤ sessionStarted + connectTimeout
  | .joining => stepped ≤ last.time + connectTimeout ∧ now ≤ stepped + writeTime
  | .fetching => stepped ≤ last.time + connectTimeout + writeTime ∧ now ≤ stepped + writeTime
  | .advertising =>
      stepped ≤ last.time + connectTimeout + writeTime + writeTime ∧ now ≤ stepped + writeTime
  | .flushing | .selectHead | .selectArm | .selecting => last.state = .connected
  | .ended _ =>
      last.state = .connected ∨
        now ≤ last.time + connectTimeout + writeTime + writeTime + writeTime
  | .backoffHead deadline | .backoffArm deadline | .backingOff deadline _ =>
      deadline ≤ last.time + maxBackoff ∧ now ≤ deadline
  | .suspendedHead | .suspendedArm | .suspended _ => False
  | .returned => True

/-- The worker is not suspended, and talks. -/
structure Talks (writeTime : Duration) (c : Client) (stepped : Instant) (last : Report) :
    Prop where
  awake : c.reconnectIdleMode = false
  backed : c.backoff ∈ backoffs
  talks : TalksAt writeTime c.now c.sessionStarted stepped last c.task

/-- The longest silence of a worker that is not connected. -/
def silence (writeTime : Duration) : Duration :=
  max (connectTimeout + writeTime + writeTime + writeTime) maxBackoff

variable {writeTime : Duration} {item : Option WsItem} {c c' : Client} {stepped : Instant}
  {last : Report}

theorem Talks.gap (h : Talks writeTime c stepped last) (halive : c.task ≠ .returned)
    (hstate : last.state ≠ .connected) : c.now ≤ last.time + silence writeTime := by
  have htalks := h.talks
  unfold silence
  cases htask : c.task <;> rw [htask] at htalks <;> simp only [TalksAt] at htalks <;>
    unfold Duration Instant at *
  case returned => exact absurd htask halive
  case ended =>
    have hnow := htalks.resolve_left hstate
    omega
  all_goals first
    | exact absurd htalks hstate
    | omega

/-! ## The worker -/

/-- What a step of the worker reports, not too late, and that it talks afterwards. It does not
return without a word. -/
inductive TalksOn (writeTime : Duration) (c c' : Client) (last : Report) : Prop
  | silent (hstates : c'.states = c.states)
      (hreturned : c'.task = .returned → c.task = .returned)
      (htalks : Talks writeTime c' c'.now last)
  | report (state : ConnectionState) (hstates : c'.states = c.states ++ [state])
      (hgap : last.state ≠ .connected → c'.now ≤ last.time + silence writeTime)
      (hreturned : c'.task = .returned → state ≠ .connected)
      (htalks : Talks writeTime c' c'.now ⟨state, c'.now⟩)

theorem backoff_le : ∀ b ∈ backoffs, b ≤ maxBackoff := by
  decide

/-- The worker says nothing, and is where it was not quiet for too long. -/
theorem talksOn_silent (h : Talks writeTime c stepped last) (hstates : c'.states = c.states)
    (hreturned : c'.task = .returned → c.task = .returned)
    (hidle : c'.reconnectIdleMode = c.reconnectIdleMode) (hbacked : c'.backoff ∈ backoffs)
    (htalks : TalksAt writeTime c'.now c'.sessionStarted c'.now last c'.task) :
    TalksOn writeTime c c' last :=
  .silent hstates hreturned ⟨hidle.trans h.awake, hbacked, htalks⟩

/-- The worker reports something. -/
theorem talksOn_report (h : Talks writeTime c stepped last) (halive : c.task ≠ .returned)
    {state : ConnectionState} (hstates : c'.states = c.states ++ [state]) (hnow : c'.now = c.now)
    (hreturned : c'.task ≠ .returned)
    (hidle : c'.reconnectIdleMode = c.reconnectIdleMode) (hbacked : c'.backoff ∈ backoffs)
    (htalks : TalksAt writeTime c'.now c'.sessionStarted c'.now ⟨state, c'.now⟩ c'.task) :
    TalksOn writeTime c c' last :=
  .report state hstates (fun hstate => hnow ▸ h.gap halive hstate) (fun h => absurd h hreturned)
    ⟨hidle.trans h.awake, hbacked, htalks⟩

/-- In a session that is up, the last report says so. -/
theorem connected_of_loop (h : Talks writeTime c stepped last)
    (htask : c.task = .flushing ∨ c.task.inSelect = true) : last.state = .connected := by
  have htalks := h.talks
  cases hat : c.task with
  | flushing =>
      rw [hat] at htalks
      exact htalks
  | selectHead =>
      rw [hat] at htalks
      exact htalks
  | selectArm =>
      rw [hat] at htalks
      exact htalks
  | selecting =>
      rw [hat] at htalks
      exact htalks
  | _ =>
      rw [hat] at htask
      rcases htask with htask | htask <;> cases htask

/-- A step of a session that is up, unless an error of the relay comes. -/
theorem talks_loop (h : Talks writeTime c stepped last)
    (htask : c.task = .flushing ∨ c.task.inSelect = true) (hwithin : Within item InLoop c c')
    (hquiet : ∀ reason, item ≠ some (.text (.ok (.error reason)))) :
    TalksOn writeTime c c' last := by
  have hlast := connected_of_loop h htask
  have hbacked : c'.backoff ∈ backoffs := hwithin.backoff ▸ h.backed
  have hreport : ∀ state, c'.states = c.states ++ [state] →
      (c'.task = .returned → state ≠ .connected) →
      TalksAt writeTime c'.now c'.sessionStarted c'.now ⟨state, c'.now⟩ c'.task →
        TalksOn writeTime c c' last := fun state hstates hreturned htalks =>
    .report state hstates (fun hstate => absurd hlast hstate) hreturned
      ⟨hwithin.reconnectIdleMode.trans h.awake, hbacked, htalks⟩
  rcases hwithin.reported with ⟨hgoes, hstates⟩ | ⟨hat, hstates⟩ | ⟨-, reason, hitem, -⟩ |
    ⟨hat, hstates⟩
  · refine talksOn_silent h hstates (fun hat => absurd hat hgoes) hwithin.reconnectIdleMode
      hbacked ?_
    have hloop := hwithin.task
    cases hat : c'.task with
    | flushing => exact hlast
    | selectHead => exact hlast
    | selectArm => exact hlast
    | selecting => exact hlast
    | ended result => exact .inl hlast
    | returned => exact absurd hat hgoes
    | _ =>
        rw [hat] at hloop
        cases hloop
  · refine hreport _ hstates (fun hreturned => ?_) ?_
    · rw [hat] at hreturned
      cases hreturned
    · rw [hat]
      rfl
  · exact absurd hitem (hquiet reason)
  · refine hreport _ hstates (fun _ => by simp) ?_
    rw [hat]
    trivial

/-! ### The opening -/

section

variable [Aead] [ClipJson] (cfg : RunConfig)

/-- The opening of a session takes time between the steps only. -/
theorem now_opening (htask : c.task = .dialing ∨ c.task.opening = true ∧ c.task ≠ .flushing)
    (io : Answer) : (c.work cfg io).now = c.now := by
  cases hat : c.task with
  | dialing =>
      simp only [work, hat, onDialing]
      split <;> rfl
  | joining =>
      simp only [work, hat, onJoining, wsSend]
      split <;> rfl
  | fetching =>
      simp only [work, hat, onFetching, wsSend]
      split <;> rfl
  | advertising =>
      simp only [work, hat, onAdvertising, advertise, wsSend]
      split
      · split <;> rfl
      · rfl
  | _ =>
      rw [hat] at htask
      rcases htask with htask | ⟨htask, hne⟩
      · cases htask
      · first
          | exact absurd rfl hne
          | cases htask

omit [Aead] [ClipJson] in
/-- A step of the opening that reports nothing: it goes on, or the attempt has failed. -/
theorem talks_opens {next : RunTask} (h : Talks writeTime c stepped last)
    (hwithin : Within none (OpensTo next) c c') (hnow : c'.now = c.now)
    (hnext : next ≠ .flushing ∧ next ≠ .selectHead ∧ next ≠ .returned)
    (hfails : c.now ≤ last.time + connectTimeout + writeTime + writeTime + writeTime)
    (hopens : TalksAt writeTime c.now c.sessionStarted c.now last next) :
    TalksOn writeTime c c' last := by
  have hbacked : c'.backoff ∈ backoffs := hwithin.backoff ▸ h.backed
  have hgoes : c'.task ≠ .flushing ∧ c'.task ≠ .selectHead ∧ c'.task ≠ .returned := by
    rcases hwithin.task with htask | ⟨e, htask⟩
    · rw [htask]
      exact hnext
    · rw [htask]
      simp
  have hstates : c'.states = c.states := by
    rcases hwithin.reported with ⟨-, hstates⟩ | ⟨hat, -⟩ | ⟨hat, -, -, -⟩ | ⟨hat, -⟩
    · exact hstates
    · exact absurd hat hgoes.1
    · exact absurd hat hgoes.2.1
    · exact absurd hat hgoes.2.2
  refine talksOn_silent h hstates (fun hat => absurd hat hgoes.2.2) hwithin.reconnectIdleMode
    hbacked ?_
  rw [hnow, hwithin.sessionStarted]
  rcases hwithin.task with htask | ⟨e, htask⟩
  · rw [htask]
    exact hopens
  · rw [htask]
    exact .inr hfails

theorem talks_dialing (h : Talks writeTime c stepped last) (htask : c.task = .dialing)
    (io : Answer) : TalksOn writeTime c (c.work cfg io) last := by
  have htalks := h.talks
  rw [htask] at htalks
  obtain ⟨hstarted, hdialed⟩ := htalks
  have hnow := now_opening cfg (.inl htask) io
  simp only [work, htask] at hnow ⊢
  rw [hstarted] at hdialed
  refine talks_opens h (within_onDialing c io) hnow (by simp) ?_ ?_
  · unfold Duration Instant at *
    omega
  · exact ⟨hdialed, Nat.le_add_right _ _⟩

theorem talks_joining (h : Talks writeTime c stepped last) (htask : c.task = .joining)
    (io : Answer) : TalksOn writeTime c (c.work cfg io) last := by
  have htalks := h.talks
  rw [htask] at htalks
  obtain ⟨hstepped, hwritten⟩ := htalks
  have hnow := now_opening cfg (.inr (by rw [htask]; simp [RunTask.opening])) io
  simp only [work, htask] at hnow ⊢
  refine talks_opens h (within_onJoining cfg c io) hnow (by simp) ?_ ⟨?_, ?_⟩
  all_goals
    unfold Duration Instant at *
    omega

theorem talks_fetching (h : Talks writeTime c stepped last) (htask : c.task = .fetching)
    (io : Answer) : TalksOn writeTime c (c.work cfg io) last := by
  have htalks := h.talks
  rw [htask] at htalks
  obtain ⟨hstepped, hwritten⟩ := htalks
  have hnow := now_opening cfg (.inr (by rw [htask]; simp [RunTask.opening])) io
  simp only [work, htask] at hnow ⊢
  refine talks_opens h (within_onFetching cfg c io) hnow (by simp) ?_ ⟨?_, ?_⟩
  all_goals
    unfold Duration Instant at *
    omega

omit [Aead] [ClipJson] in
/-- The opening ends with an error, or the session is reported as connected. -/
theorem onAdvertising_cases (c : Client) (io : Answer) :
    ((c.onAdvertising cfg io).states = c.states ∧
      ∃ e, (c.onAdvertising cfg io).task = .ended (.error e)) ∨
    (c.onAdvertising cfg io).states = c.states ++ [.connected] ∧
      (c.onAdvertising cfg io).task = .flushing := by
  simp only [onAdvertising, advertise, wsSend]
  split
  · split
    · next e _ => exact .inl ⟨rfl, e, rfl⟩
    · exact .inr ⟨Worker.states_note _ _, rfl⟩
  · exact .inr ⟨Worker.states_note _ _, rfl⟩

theorem talks_advertising (h : Talks writeTime c stepped last) (htask : c.task = .advertising)
    (io : Answer) : TalksOn writeTime c (c.work cfg io) last := by
  have htalks := h.talks
  rw [htask] at htalks
  obtain ⟨hstepped, hwritten⟩ := htalks
  have hnow := now_opening cfg (.inr (by rw [htask]; simp [RunTask.opening])) io
  have halive : c.task ≠ .returned := by rw [htask]; simp
  simp only [work, htask] at hnow ⊢
  have hwithin : Within none _ _ _ := within_onAdvertising cfg c io
  have hbacked : (c.onAdvertising cfg io).backoff ∈ backoffs := hwithin.backoff ▸ h.backed
  rcases onAdvertising_cases cfg c io with ⟨hstates, e, hat⟩ | ⟨hstates, hat⟩
  · refine talksOn_silent h hstates (fun hreturned => ?_) hwithin.reconnectIdleMode hbacked ?_
    · rw [hat] at hreturned
      cases hreturned
    rw [hnow, hat]
    refine .inr ?_
    unfold Duration Instant at *
    omega
  · refine talksOn_report h halive hstates hnow (by rw [hat]; simp) hwithin.reconnectIdleMode
      hbacked ?_
    rw [hat]
    rfl

/-! ### Between two attempts -/

omit [Aead] [ClipJson] in
theorem states_onState (c : Client) (state : ConnectionState) :
    (c.onState state).states = c.states ++ [state] :=
  Worker.states_note _ _

omit [Aead] [ClipJson] in
/-- An attempt starts. -/
theorem talks_connect (h : Talks writeTime c stepped last) (halive : c.task ≠ .returned) :
    TalksOn writeTime c c.connect last :=
  talksOn_report h halive (states_onState c _) rfl (show RunTask.dialing ≠ _ by simp) rfl h.backed
    ⟨rfl, Nat.le_add_right _ _⟩

omit [Aead] [ClipJson] in
/-- A session has ended: that is reported, and the next attempt comes at once or after a wait. -/
theorem talks_onEnded {result : Except String Unit} (h : Talks writeTime c stepped last)
    (htask : c.task = .ended result) : TalksOn writeTime c (c.onEnded result) last := by
  have halive : c.task ≠ .returned := by rw [htask]; simp
  have hback := backoff_le _ h.backed
  have hmin : minBackoff ∈ backoffs := by decide
  have hwait : ∀ b ∈ backoffs, c.now + b ≤ c.now + maxBackoff ∧ c.now ≤ c.now + b := fun b hb =>
    ⟨Nat.add_le_add_left (backoff_le b hb) _, Nat.le_add_right _ _⟩
  have hsaid : ∀ state (next : RunTask) b, next ≠ .returned → b ∈ backoffs →
      TalksAt writeTime c.now c.sessionStarted c.now ⟨state, c.now⟩ next →
        TalksOn writeTime c { c.onState state with backoff := b, task := next } last :=
    fun state next b hgoes hb htalks =>
      talksOn_report h halive (states_onState c state) rfl hgoes rfl hb htalks
  unfold onEnded
  dsimp only
  split
  · split
    · next hidle => exact absurd (h.awake.symm.trans hidle) (by simp)
    · split
      · exact hsaid _ .gate minBackoff (by simp) hmin (Nat.le_add_right _ _)
      · exact hsaid _ (.backoffHead _) c.backoff (by simp) h.backed (hwait _ h.backed)
  · split
    · next hidle => exact absurd (h.awake.symm.trans hidle) (by simp)
    · split
      · exact hsaid _ (.backoffHead _) minBackoff (by simp) hmin (hwait _ hmin)
      · exact hsaid _ (.backoffHead _) c.backoff (by simp) h.backed (hwait _ h.backed)

/-- Every step of the worker, unless an error of the relay comes. -/
theorem talks_work (h : Talks writeTime c stepped last) (io : Answer)
    (hquiet : io.bringsError = false) : TalksOn writeTime c (c.work cfg io) last := by
  have htalks := h.talks
  have hloop : c.task = .flushing ∨ c.task.inSelect = true →
      TalksOn writeTime c (c.work cfg io) last := by
    intro htask
    refine talks_loop h htask (within_loop_work cfg htask io) fun reason hitem => ?_
    rw [Answer.bringsError, hitem] at hquiet
    cases hquiet
  have hmin : minBackoff ∈ backoffs := by decide
  cases hat : c.task with
  | gate =>
      simp only [work, hat, onGate]
      split
      · next hidle => exact absurd (h.awake.symm.trans hidle) (by simp)
      · exact talks_connect h (by rw [hat]; simp)
  | suspendedHead =>
      rw [hat] at htalks
      exact absurd htalks id
  | suspendedArm =>
      rw [hat] at htalks
      exact absurd htalks id
  | suspended waiter =>
      rw [hat] at htalks
      exact absurd htalks id
  | dialing => exact talks_dialing cfg h hat io
  | joining => exact talks_joining cfg h hat io
  | fetching => exact talks_fetching cfg h hat io
  | advertising => exact talks_advertising cfg h hat io
  | flushing => exact hloop (.inl hat)
  | selectHead => exact hloop (.inr (by rw [hat]; rfl))
  | selectArm => exact hloop (.inr (by rw [hat]; rfl))
  | selecting => exact hloop (.inr (by rw [hat]; rfl))
  | ended result =>
      simp only [work, hat]
      exact talks_onEnded h hat
  | backoffHead deadline =>
      rw [hat] at htalks
      simp only [work, hat, onBackoffHead]
      split
      · exact talksOn_silent h rfl (fun h => by cases h) rfl hmin (Nat.le_trans htalks.2 htalks.1)
      · exact talksOn_silent h rfl (fun h => by cases h) rfl h.backed htalks
  | backoffArm deadline =>
      rw [hat] at htalks
      simp only [work, hat]
      exact talksOn_silent h rfl (fun h => by cases h) rfl h.backed htalks
  | backingOff deadline waiter =>
      rw [hat] at htalks
      simp only [work, hat, onBackingOff]
      split
      · exact talksOn_silent h rfl (fun h => by cases h) rfl (double_mem_backoffs _ h.backed)
          (Nat.le_trans htalks.2 htalks.1)
      · split
        · exact talksOn_silent h rfl (fun h => by cases h) rfl h.backed htalks
        · refine talksOn_silent h rfl id rfl h.backed ?_
          rw [hat]
          exact htalks
  | returned =>
      simp only [work, hat]
      refine talksOn_silent h rfl id rfl h.backed ?_
      rw [hat]
      trivial

/-! ## The host, and time -/

/-- The app does not suspend the worker, the relay sends no errors, and time passes only while the
worker waits. -/
def Attended (writeTime : Duration) (c : Client) (stepped : Instant) : ClientEvent → Prop
  | .work io => io.bringsError = false
  | .storeIdleMode enabled => enabled = false
  | .elapse d => Waits writeTime c stepped d
  | _ => True

omit [Aead] [ClipJson] in
/-- Time passes. -/
theorem talksAt_elapse (h : Talks writeTime c stepped last) {d : Duration}
    (hwaits : Waits writeTime c stepped d) :
    TalksAt writeTime (c.now + d) c.sessionStarted stepped last c.task := by
  have htalks := h.talks
  unfold Waits at hwaits
  cases htask : c.task <;> rw [htask] at htalks hwaits <;> simp only [TalksAt] at htalks ⊢ <;>
    simp only [WaitsAt] at hwaits
  case dialing => exact ⟨htalks.1, hwaits⟩
  case joining => exact ⟨htalks.1, hwaits⟩
  case fetching => exact ⟨htalks.1, hwaits⟩
  case advertising => exact ⟨htalks.1, hwaits⟩
  case backingOff => exact ⟨htalks.1, hwaits⟩
  case gate =>
    rw [hwaits]
    exact htalks
  case backoffHead =>
    rw [hwaits]
    exact htalks
  case backoffArm =>
    rw [hwaits]
    exact htalks
  case ended =>
    rw [hwaits]
    exact htalks
  all_goals exact htalks

/-- Every event but a step of the worker. -/
theorem talks_host (h : Talks writeTime c stepped last) {e : ClientEvent}
    (he : ∀ io, e ≠ .work io) (hattended : Attended writeTime c stepped e) :
    (step cfg c e).states = c.states ∧ Talks writeTime (step cfg c e) stepped last := by
  have hsame : ∀ c', c'.states = c.states → c'.now = c.now → c'.task = c.task →
      c'.sessionStarted = c.sessionStarted → c'.reconnectIdleMode = c.reconnectIdleMode →
        c'.backoff = c.backoff → c'.states = c.states ∧ Talks writeTime c' stepped last := by
    intro c' hstates hnow htask hstarted hidle hbackoff
    refine ⟨hstates, hidle.trans h.awake, hbackoff ▸ h.backed, ?_⟩
    rw [hnow, htask, hstarted]
    exact h.talks
  cases e with
  | work io => exact absurd rfl (he io)
  | dropSender => exact hsame _ rfl rfl rfl rfl rfl rfl
  | storeIdleMode enabled =>
      have henabled : enabled = false := hattended
      exact hsame _ rfl rfl rfl rfl (henabled.trans h.awake.symm) rfl
  | elapse d => exact ⟨rfl, h.awake, h.backed, talksAt_elapse h hattended⟩
  | send cmd =>
      simp only [step, enqueue]
      split
      · exact ⟨rfl, h⟩
      · exact hsame _ rfl rfl rfl rfl rfl rfl
  | notifyMode =>
      simp only [step, notifyMode]
      split
      · exact ⟨rfl, h⟩
      · exact hsame _ rfl rfl rfl rfl rfl rfl
  | notifyWake =>
      simp only [step, notifyWake]
      split
      · exact ⟨rfl, h⟩
      · exact hsame _ rfl rfl rfl rfl rfl rfl
  | lanInbound clip =>
      simp only [step]
      split
      · exact ⟨rfl, h⟩
      · have hsilent := Worker.silent_receive cfg.toClientConfig (c.worker.wait 0) (.lan clip)
        have hclock := (receive_keeps cfg.toClientConfig (c.worker.wait 0) (.lan clip)).1
        exact hsame _ hsilent.states hclock rfl rfl rfl rfl
  | storeRequested => exact hsame _ rfl rfl rfl rfl rfl rfl
  | setLanActive enabled => exact hsame _ rfl rfl rfl rfl rfl rfl

end

end Client

/-! ## The watchdog -/

inductive ReconnectAction where
  | none
  | startClient
  | reconnectNow
  | restartClient
  deriving DecidableEq

def coreSilenceLimit : Duration := Duration.fromSecs 120

def reconnectAction (hasClient workerAlive isConnected : Bool) (sinceLastState : Duration)
    (silenceLimit : Duration) : ReconnectAction :=
  if isConnected then .none
  else if ¬ hasClient then .startClient
  else if ¬ workerAlive then .restartClient
  else if silenceLimit ≤ sinceLastState then .restartClient
  else .reconnectNow

/-- The client of a run, when its worker last moved, and what it reported last. -/
structure WatchedClient where
  client : Client
  stepped : Instant
  last : Report

namespace WatchedClient

open Client (Talks TalksOn Attended silence connectTimeout)

/-- The app takes a client that it has just started for one that is not connected. -/
def init : WatchedClient := ⟨Client.init, Client.init.now, ⟨.disconnected, Client.init.now⟩⟩

/-- The last report, after a step from `c` to `c'`. -/
def hear (last : Report) (c c' : Client) : Report :=
  match (c'.states.drop c.states.length).getLast? with
  | some state => ⟨state, c'.now⟩
  | none => last

theorem hear_silent (last : Report) {c c' : Client} (h : c'.states = c.states) :
    hear last c c' = last := by
  simp [hear, h]

theorem hear_report (last : Report) {c c' : Client} {state : ConnectionState}
    (h : c'.states = c.states ++ [state]) : hear last c c' = ⟨state, c'.now⟩ := by
  simp [hear, h]

/-- What the watchdog does, if it looks now. -/
def watchdogTick (w : WatchedClient) : ReconnectAction :=
  reconnectAction true (w.client.task ≠ .returned) (w.last.state = .connected)
    (w.client.now - w.last.time) coreSilenceLimit

section

variable [Aead] [ClipJson]

def step (cfg : RunConfig) (w : WatchedClient) (e : ClientEvent) : WatchedClient where
  client := w.client.step cfg e
  stepped :=
    match e with
    | .work _ => (w.client.step cfg e).now
    | _ => w.stepped
  last := hear w.last w.client (w.client.step cfg e)

/-- The worker has reported not long ago, or that it is connected; and not that, if it is gone. -/
structure Heard (writeTime : Duration) (w : WatchedClient) : Prop where
  talks : Talks writeTime w.client w.stepped w.last
  gone : w.client.task = .returned → w.last.state ≠ .connected

variable {writeTime : Duration} {w : WatchedClient}

omit [Aead] [ClipJson] in
theorem heard_init (writeTime : Duration) : Heard writeTime init where
  talks := ⟨rfl, by decide, Nat.zero_le _⟩
  gone h := by cases h

theorem heard_step (cfg : RunConfig) {e : ClientEvent} (h : Heard writeTime w)
    (hattended : Attended writeTime w.client w.stepped e) : Heard writeTime (w.step cfg e) := by
  by_cases he : ∃ io, e = .work io
  · obtain ⟨io, rfl⟩ := he
    rcases Client.talks_work cfg h.talks io hattended with
      ⟨hstates, hreturned, htalks⟩ | ⟨state, hstates, -, hreturned, htalks⟩
    · have hlast : (w.step cfg (.work io)).last = w.last := hear_silent w.last hstates
      exact ⟨hlast.symm ▸ htalks, fun hgone => hlast.symm ▸ h.gone (hreturned hgone)⟩
    · have hlast : (w.step cfg (.work io)).last = ⟨state, (w.client.work cfg io).now⟩ :=
        hear_report w.last hstates
      exact ⟨hlast.symm ▸ htalks, fun hgone => hlast.symm ▸ hreturned hgone⟩
  · have hhost : ∀ io, e ≠ .work io := fun io hio => he ⟨io, hio⟩
    obtain ⟨hstates, htalks⟩ := Client.talks_host cfg h.talks hhost hattended
    have hlast : (w.step cfg e).last = w.last := hear_silent w.last hstates
    have hstepped : (w.step cfg e).stepped = w.stepped := by
      cases e with
      | work io => exact absurd rfl (hhost io)
      | _ => rfl
    have htask : (w.step cfg e).client.task = w.client.task :=
      (Client.step_outside cfg w.client hhost).task
    refine ⟨?_, fun hgone => ?_⟩
    · rw [hlast, hstepped]
      exact htalks
    · rw [hlast]
      exact h.gone (htask ▸ hgone)

omit [Aead] [ClipJson] in
/-- What the watchdog makes of a worker that is heard of. -/
theorem Heard.watchdogTick_iff (h : Heard writeTime w) (hwrite : writeTime < Duration.fromSecs 35) :
    w.watchdogTick = .restartClient ↔ w.client.task = .returned := by
  unfold watchdogTick reconnectAction
  by_cases hgone : w.client.task = .returned
  · simp [hgone, h.gone hgone]
  · by_cases hconnected : w.last.state = .connected
    · simp [hgone, hconnected]
    · have hgap := h.talks.gap hgone hconnected
      have hsilence : w.client.now - w.last.time < coreSilenceLimit := by
        unfold silence connectTimeout maxBackoff at hgap
        unfold coreSilenceLimit
        unfold Duration.fromSecs Duration Instant at *
        omega
      simp [hgone, hconnected, Nat.not_le.2 hsilence]

/-- **The watchdog replaces a worker exactly if it is gone**, in every attended run with writes of
less than 35 seconds: a worker that runs and is not connected has reported not longer ago than a
dial and three writes take, or the longest wait. -/
theorem watched_run (cfg : RunConfig) (es : List ClientEvent)
    (hwrite : writeTime < Duration.fromSecs 35)
    (h : Machine.Along (step cfg) (fun w e => Attended writeTime w.client w.stepped e) init es) :
    let w := Machine.run (step cfg) init es
    (w.client.task ≠ .returned → w.last.state ≠ .connected →
        w.client.now ≤ w.last.time + silence writeTime) ∧
      (w.watchdogTick = .restartClient ↔ w.client.task = .returned) := by
  intro w
  have hheard : Heard writeTime w :=
    Machine.invariant_along (fun _ _ hattended hs => heard_step cfg hs hattended)
      (heard_init writeTime) h
  exact ⟨hheard.talks.gap, hheard.watchdogTick_iff hwrite⟩

end

/-! ### A run on fixed inputs -/

instance (writeTime : Duration) (now sessionStarted stepped later : Instant) :
    (task : RunTask) → Decidable (Client.WaitsAt writeTime now sessionStarted stepped later task)
  | .dialing | .joining | .fetching | .advertising | .backingOff _ _ =>
      inferInstanceAs (Decidable (_ ≤ _))
  | .flushing | .selecting | .suspended _ | .returned => isTrue trivial
  | .gate | .suspendedHead | .suspendedArm | .selectHead | .selectArm | .ended _ | .backoffHead _
  | .backoffArm _ => inferInstanceAs (Decidable (_ = _))

instance (writeTime : Duration) (c : Client) (stepped : Instant) :
    (e : ClientEvent) → Decidable (Attended writeTime c stepped e)
  | .work _ | .storeIdleMode _ => inferInstanceAs (Decidable (_ = _))
  | .elapse d =>
      inferInstanceAs (Decidable (Client.WaitsAt writeTime c.now c.sessionStarted stepped
        (c.now + d) c.task))
  | .send _ | .dropSender | .notifyMode | .storeRequested | .notifyWake | .setLanActive _
  | .lanInbound _ => isTrue trivial

/-- The first dial times out, and after a wait the second one gets through, but the opening of the
session is slow. -/
def slowOpening : List ClientEvent :=
  [.work {}, .elapse connectTimeout, .work { result := .error "timeout" }, .work {}, .work {},
    .work {}, .elapse minBackoff, .work {}, .work {}, .elapse connectTimeout, .work {},
    .elapse (Duration.fromSecs 10), .work {}, .elapse (Duration.fromSecs 10), .work {},
    .elapse (Duration.fromSecs 10)]

/-- The session is up, and is then told to stop. -/
def slowOpeningStopped : List ClientEvent :=
  slowOpening ++ [.work {}, .send .stop, .work {}, .work {}, .work {}, .work {}]

theorem slowOpeningStopped_watched :
    let run := Machine.run (@step clearAead textJson Client.sampleRunConfig) init
    (run slowOpening).client.now = (run slowOpening).last.time + Duration.fromSecs 45 ∧
      (run slowOpening).last.state ≠ .connected ∧
      (run slowOpening).watchdogTick ≠ .restartClient ∧
      (run slowOpeningStopped).watchdogTick = .restartClient := by
  have hwrite : Duration.fromSecs 10 < Duration.fromSecs 35 := by decide
  refine ⟨by decide +kernel, by decide +kernel, fun htick => ?_, ?_⟩
  · have hgone := (@watched_run clearAead textJson _ Client.sampleRunConfig slowOpening hwrite
      (by decide +kernel)).2.1 htick
    exact absurd hgone (by decide +kernel)
  · exact (@watched_run clearAead textJson _ Client.sampleRunConfig slowOpeningStopped hwrite
      (by decide +kernel)).2.2 (by decide +kernel)

end WatchedClient

end ClipBridge
