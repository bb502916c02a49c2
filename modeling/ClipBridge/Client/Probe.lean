import ClipBridge.Client.Moves

/-!
# `reconnect_now` in a session

A call stores a flag and rings a bell. The session's loop makes its waiter anew at every turn, and
does not look at the flag: a ring that finds the worker elsewhere in the loop is lost, and so is
one that is found by a turn in which an earlier branch of the `select!` is ready as well.

* `Reconnects` — the client, and the calls that are open: since each of them neither has the
  session ended nor has anything been received.
* `Answered` — `LIVENESS_PROBE_TIMEOUT` after the worker has reached the `select!` again, the
  session ends.
* `Noticed` — a ring finds the worker in the `select!`, and its turn goes to the bell's branch.
* `Covered` — for the open calls a probe is under way, or the worker is about to start one.
* `answered_along` — in a run in which every ring is noticed, every call is answered.
-/

namespace ClipBridge

namespace Client

/-! ## What a step does to the probe -/

/-- The waiter of the session's loop was made from the bell of `reconnect_now`. -/
def Wakeful (c : Client) : Prop := c.reconnectWake.Made c.session.wakeNotified

/-- The probe is left alone, and time does not go back. -/
structure Steady (c c' : Client) : Prop where
  now : c.now ≤ c'.now
  probeDeadline : c'.session.probeDeadline = c.session.probeDeadline
  wakeful : c.Wakeful → c'.Wakeful

/-- The select turn in which something is received. -/
def receives (c : Client) (io : Answer) : Bool :=
  decide (c.task = .selecting) && decide (c.branch = .frame) && io.item.isSome

/-- What a step of the worker does to the probe. -/
inductive Paces (c : Client) (io : Answer) (c' : Client) : Prop
  | steady (h : Steady c c')
  | cleared (hnone : c'.session.probeDeadline = none) (hwakeful : c.Wakeful → c'.Wakeful)
      (hwhen : c.task.inSelect = false ∨ c.receives io = true)
  | probed (hnone : c.session.probeDeadline = none) (hwakeful : c.Wakeful → c'.Wakeful)
      (hnow : c.now ≤ c'.now)
      (hprobe : c'.session.probeDeadline = some (c'.now + livenessProbeTimeout))

/-- The bell has been rung since the waiter was made. -/
def Woken (c : Client) : Prop := c.reconnectWake.woken c.session.wakeNotified = true

/-- The worker stays where it is, and woken if it was. -/
structure Hosted (c c' : Client) : Prop extends Steady c c' where
  task : c'.task = c.task
  woken : c.Woken → c'.Woken

variable {c c' c'' : Client} {next : Client → Client}

theorem Steady.trans (h : Steady c c') (h' : Steady c' c'') : Steady c c'' :=
  ⟨Nat.le_trans h.now h'.now, h'.probeDeadline.trans h.probeDeadline,
    fun hwakeful => h'.wakeful (h.wakeful hwakeful)⟩

theorem steady_of_eq (hclock : c'.worker.clock = c.worker.clock)
    (hprobe : c'.session.probeDeadline = c.session.probeDeadline)
    (hwakeful : c.Wakeful → c'.Wakeful) : Steady c c' :=
  ⟨Nat.le_of_eq hclock.symm, hprobe, hwakeful⟩

theorem steady_refl (c : Client) : Steady c c := steady_of_eq rfl rfl id

theorem steady_goto (task : RunTask) (c : Client) : Steady c (goto task c) :=
  steady_of_eq rfl rfl id

theorem steady_wsSend (hnext : ∀ c, Steady c (next c)) (c : Client) (io : Answer)
    (msg : WsMessage) (own : Option Nat) : Steady c (c.wsSend io msg own next) := by
  unfold wsSend
  split
  · exact steady_of_eq rfl rfl id
  · refine Steady.trans ?_ (hnext _)
    exact steady_of_eq rfl rfl id

theorem steady_wsSendLast (c : Client) (io : Answer) (msg : WsMessage) :
    Steady c (c.wsSendLast io msg) := by
  unfold wsSendLast
  split
  · exact steady_refl c
  · exact steady_of_eq rfl rfl id

theorem steady_closeForSuspend (c : Client) (io : Answer) : Steady c (c.closeForSuspend io) :=
  (steady_wsSendLast c io .close).trans (steady_of_eq rfl rfl id)

section

variable (cfg : RunConfig)

theorem steady_refreshLan (hnext : ∀ c, Steady c (next c)) (c : Client) (io : Answer)
    (force : Bool) (own : Option Nat) : Steady c (c.refreshLan cfg io force own next) := by
  unfold refreshLan
  dsimp only
  split
  · unfold advertise
    apply steady_wsSend
    intro c
    refine Steady.trans ?_ (hnext _)
    exact steady_of_eq rfl rfl id
  · exact hnext c

variable [Aead] [ClipJson]

theorem steady_sendClip (hnext : ∀ c, Steady c (next c)) (c : Client) (io : Answer) (seq : Nat)
    (payload : ClipPayload) : Steady c (c.sendClip cfg io seq payload next) := by
  unfold sendClip
  extract_lets c₀
  have hlan : Steady c c₀ := by
    show Steady c (if _ then _ else _)
    split
    · exact steady_of_eq rfl rfl id
    · exact steady_refl c
  split
  · exact hlan.trans (steady_of_eq rfl rfl id)
  · exact hlan.trans (steady_wsSend hnext c₀ io _ _)

theorem steady_applySessionCmd (hnext : ∀ c, Steady c (next c)) (c : Client) (io : Answer)
    (q : Queued) : Steady c (c.applySessionCmd cfg io q next) := by
  unfold applySessionCmd
  extract_lets c₀
  have happlied : Steady c c₀ := steady_of_eq rfl rfl id
  split
  · exact happlied.trans ((steady_wsSendLast c₀ io .close).trans (steady_of_eq rfl rfl id))
  · exact happlied.trans (steady_sendClip cfg hnext c₀ io q.seq _)
  · exact happlied.trans (steady_wsSend hnext c₀ io _ _)
  · split
    · exact happlied.trans (steady_refreshLan cfg hnext c₀ io true _)
    · exact happlied.trans (hnext c₀)

end

/-! ### Outside the session's loop -/

theorem steady_idles (h : Idles c c') : Steady c c' := by
  refine steady_of_eq h.clock (by rw [h.session]) fun hwakeful => ?_
  unfold Wakeful
  rw [h.session, h.reconnectWake]
  exact hwakeful

theorem steady_onDialing (c : Client) (io : Answer) : Steady c (c.onDialing io) := by
  unfold onDialing
  split
  · exact steady_of_eq rfl rfl id
  · exact steady_of_eq rfl rfl id

theorem paces_onWake (c : Client) (io : Answer) : Paces c io (c.onWake io) := by
  unfold onWake
  dsimp only
  split
  · exact .steady (steady_of_eq rfl rfl id)
  · rename_i hnone
    unfold wsSend
    split
    · exact .steady (steady_of_eq rfl rfl id)
    · exact .probed hnone id (Nat.le_add_right _ _) rfl

section

variable (cfg : RunConfig)

theorem paces_onAdvertising (htask : c.task = .advertising) (io : Answer) :
    Paces c io (c.onAdvertising cfg io) := by
  have hout : c.task.inSelect = false := by rw [htask]; rfl
  unfold onAdvertising
  dsimp only
  split
  · unfold advertise wsSend
    split
    · exact .steady (steady_of_eq rfl rfl id)
    · exact .cleared rfl (fun _ => Nat.zero_le _) (Or.inl hout)
  · exact .cleared rfl (fun _ => Nat.zero_le _) (Or.inl hout)

/-! ### In the session's loop -/

variable [Aead] [ClipJson]

theorem paces_onFrameBranch (htask : c.task = .selecting) (hbranch : c.branch = .frame)
    (io : Answer) : Paces c io (c.onFrameBranch cfg io) := by
  unfold onFrameBranch
  split
  · exact .steady (steady_refl c)
  · rename_i item hitem
    have hreceives : c.receives io = true := by
      unfold receives
      rw [htask, hbranch, hitem]
      rfl
    have hcleared : ∀ c', c'.session.probeDeadline = none → (c.Wakeful → c'.Wakeful) →
        Paces c io c' := fun c' hnone hwakeful => .cleared hnone hwakeful (Or.inr hreceives)
    unfold onItem
    split
    · exact hcleared _ rfl id
    · exact hcleared _ rfl id
    · exact hcleared _ rfl id
    · exact hcleared _ rfl id
    · exact hcleared _ rfl id
    · rename_i data
      have hpong := steady_wsSend (steady_goto .selectHead) { c with
        session := { c.session with lastSeen := c.now, probeDeadline := none } } io (.pong data)
        none
      exact hcleared _ hpong.probeDeadline hpong.wakeful
    · exact hcleared _ rfl id

theorem paces_onSelecting (htask : c.task = .selecting) (io : Answer) :
    Paces c io (c.onSelecting cfg io) := by
  unfold onSelecting
  split
  · exact .steady (steady_of_eq rfl rfl id)
  · refine .steady (Steady.trans ?_ (steady_wsSend (steady_goto .selectHead) _ io .ping none))
    exact steady_of_eq rfl rfl id
  · unfold onMode
    split
    · exact .steady (steady_closeForSuspend c io)
    · exact .steady (steady_of_eq rfl rfl id)
  · exact paces_onWake c io
  · refine .steady (Steady.trans ?_
      (steady_refreshLan cfg (steady_goto .selectHead) _ io false none))
    exact steady_of_eq rfl rfl id
  · unfold onCommand
    split
    · exact .steady (steady_of_eq rfl rfl id)
    · refine .steady (Steady.trans ?_
        (steady_applySessionCmd cfg (steady_goto .selectHead) _ io _))
      exact steady_of_eq rfl rfl id
  · rename_i hbranch
    exact paces_onFrameBranch cfg htask hbranch io

theorem paces_work (c : Client) (io : Answer) : Paces c io (c.work cfg io) := by
  unfold work
  split
  case h_1 => exact .steady (steady_idles (idles_onGate c))
  case h_2 => exact .steady (steady_idles (idles_onSuspendedHead c))
  case h_3 => exact .steady (steady_of_eq rfl rfl id)
  case h_4 waiter htask => exact .steady (steady_idles (idles_onSuspended htask io))
  case h_5 => exact .steady (steady_onDialing c io)
  case h_6 => exact .steady (steady_wsSend (steady_goto .fetching) c io _ none)
  case h_7 => exact .steady (steady_wsSend (steady_goto .advertising) c io _ none)
  case h_8 htask => exact paces_onAdvertising cfg htask io
  case h_9 =>
    unfold onFlushing
    split
    · exact .steady (steady_of_eq rfl rfl id)
    · refine .steady (Steady.trans ?_ (steady_applySessionCmd cfg (steady_goto .flushing) _ io _))
      exact steady_of_eq rfl rfl id
  case h_10 =>
    unfold onSelectHead
    split
    · exact .steady (steady_closeForSuspend c io)
    · exact .steady (steady_of_eq rfl rfl id)
  case h_11 => exact .steady (steady_of_eq rfl rfl fun _ => Notify.made_notified _)
  case h_12 htask => exact paces_onSelecting cfg htask io
  case h_13 result _ => exact .steady (steady_idles (idles_onEnded c result))
  case h_14 deadline _ => exact .steady (steady_idles (idles_onBackoffHead c deadline))
  case h_15 => exact .steady (steady_of_eq rfl rfl id)
  case h_16 deadline waiter htask => exact .steady (steady_idles (idles_onBackingOff htask io))
  case h_17 => exact .steady (steady_refl c)

/-- What the host does, and a LAN peer, leaves the worker where it is and the probe as it is. -/
theorem hosted_step {e : ClientEvent} (he : ∀ io, e ≠ .work io) : Hosted c (step cfg c e) := by
  have hout : Outside cfg c (step cfg c e) := step_outside cfg c he
  generalize step cfg c e = c' at hout
  have hclock : c.now ≤ c'.now := by
    show c.worker.clock ≤ c'.worker.clock
    rcases hout.worker with hworker | ⟨d, hworker⟩ | ⟨clip, hworker⟩
    · rw [hworker]
    · rw [hworker]
      exact Nat.le_add_right _ _
    · rw [hworker]
      exact Nat.le_of_eq (receive_keeps cfg.toClientConfig (c.worker.wait 0) (.lan clip)).1.symm
  refine ⟨⟨hclock, by rw [hout.session], fun h => ?_⟩, hout.task, fun h => ?_⟩
  · show c'.reconnectWake.Made c'.session.wakeNotified
    rw [hout.session]
    rcases hout.wake with hwake | hwake
    · rw [hwake]
      exact h
    · rw [hwake]
      exact h.notifyWaiters
  · show c'.reconnectWake.woken c'.session.wakeNotified = true
    rw [hout.session]
    rcases hout.wake with hwake | hwake
    · rw [hwake]
      exact h
    · rw [hwake]
      exact decide_eq_true (Nat.lt_succ_of_lt (of_decide_eq_true h))

end

end Client

/-! ## The open calls -/

/-- A call of `reconnect_now` that rings while the worker is in the session's loop is open until
the session ends or something is received. Known of it is when the worker has reached the
`select!` again, if it has. -/
structure Reconnects where
  client : Client
  calls : List (Option Instant)

namespace Reconnects

open Client

def init : Reconnects := ⟨Client.init, []⟩

section

variable [Aead] [ClipJson]

def step (cfg : RunConfig) (w : Reconnects) (e : ClientEvent) : Reconnects where
  client := Client.step cfg w.client e
  calls :=
    match e with
    | .notifyWake =>
        if w.client.task.inSelect && 0 < w.client.wakeSetters then w.calls ++ [none] else w.calls
    | .work io =>
        let client := w.client.work cfg io
        if !client.task.inSelect || w.client.receives io then []
        else if w.client.task = .selectArm then
          w.calls.map fun reached => some (reached.getD client.now)
        else w.calls
    | _ => w.calls

/-- A turn of the `select!` that comes when a call has waited long enough ends the session. -/
def Answered (cfg : RunConfig) (w : Reconnects) : ClientEvent → Prop
  | .work io => w.client.task = .selecting → ∀ t, some t ∈ w.calls →
      t + livenessProbeTimeout ≤ w.client.now → (w.client.work cfg io).task.inSelect = false
  | _ => True

end

/-- A branch that comes before the bell's is ready, and goes back to the head of the loop. -/
def PassesOver (c : Client) (io : Answer) : Prop :=
  c.branch = .ping ∧ io.result = .ok () ∨ c.branch = .mode ∧ c.reconnectIdleMode = false

/-- A ring finds the worker in the `select!`, or a probe under way. The turn after a ring that is
to start a probe does not pass it over. -/
def Noticed (w : Reconnects) : ClientEvent → Prop
  | .notifyWake => w.client.task.inSelect = true → 0 < w.client.wakeSetters →
      w.client.task = .selecting ∨ w.client.session.probeDeadline ≠ none
  | .work io => w.client.task = .selecting → w.client.session.probeDeadline = none →
      w.client.Woken → ¬ PassesOver w.client io
  | _ => True

/-- The deadline of a probe is not later than any open call demands. -/
def UnderWay (w : Reconnects) : Prop :=
  ∃ d, w.client.session.probeDeadline = some d ∧ ∀ t, some t ∈ w.calls →
    d ≤ t + livenessProbeTimeout

/-- The worker is parked, and was woken to start a probe. -/
structure AboutToStart (w : Reconnects) : Prop where
  parked : w.client.task = .selecting
  none : w.client.session.probeDeadline = none
  woken : w.client.Woken
  calls : ∀ t, some t ∉ w.calls

structure Covered (w : Reconnects) : Prop where
  wakeful : w.client.Wakeful
  probe : ∀ d, w.client.session.probeDeadline = some d → d ≤ w.client.now + livenessProbeTimeout
  inSelect : w.calls ≠ [] → w.client.task.inSelect = true
  covered : w.calls ≠ [] → w.UnderWay ∨ w.AboutToStart

theorem covered_init : Covered init where
  wakeful := Nat.le_refl 0
  probe _ hd := nomatch hd
  inSelect h := absurd rfl h
  covered h := absurd rfl h

/-! ## One step -/

section

variable [Aead] [ClipJson] {cfg : RunConfig} {w : Reconnects}

theorem covered_host {e : ClientEvent} (he : ∀ io, e ≠ .work io) (hs : Covered w)
    (hin : (step cfg w e).calls ≠ [] → w.client.task.inSelect = true)
    (hcovered : (step cfg w e).calls ≠ [] → (step cfg w e).UnderWay ∨ (step cfg w e).AboutToStart) :
    Covered (step cfg w e) := by
  have hhost : Hosted w.client (step cfg w e).client := hosted_step cfg he
  constructor
  case wakeful => exact hhost.wakeful hs.wakeful
  case probe =>
    intro d hd
    rw [hhost.probeDeadline] at hd
    exact Nat.le_trans (hs.probe d hd) (Nat.add_le_add_right hhost.now _)
  case inSelect =>
    intro hopen
    rw [hhost.task]
    exact hin hopen
  case covered => exact hcovered

/-- No call is added. -/
theorem covered_quiet {e : ClientEvent} (he : ∀ io, e ≠ .work io) (hs : Covered w)
    (hcalls : (step cfg w e).calls = w.calls) : Covered (step cfg w e) := by
  have hhost : Hosted w.client (step cfg w e).client := hosted_step cfg he
  apply covered_host he hs
  · intro hopen
    exact hs.inSelect (hcalls ▸ hopen)
  · intro hopen
    rcases hs.covered (hcalls ▸ hopen) with ⟨d, hd, hbound⟩ | habout
    · refine Or.inl ⟨d, hhost.probeDeadline.trans hd, fun t ht => hbound t ?_⟩
      rw [← hcalls]
      exact ht
    · refine Or.inr ⟨hhost.task.trans habout.parked, hhost.probeDeadline.trans habout.none,
        hhost.woken habout.woken, fun t ht => habout.calls t ?_⟩
      rw [← hcalls]
      exact ht

/-- A call that rings is covered by the probe under way, or wakes the parked worker. -/
theorem covered_notifyWake (hs : Covered w) (hnoticed : w.Noticed .notifyWake) :
    Covered (step cfg w .notifyWake) := by
  have he : ∀ io, ClientEvent.notifyWake ≠ .work io := fun io h => nomatch h
  by_cases hring : w.client.task.inSelect && 0 < w.client.wakeSetters
  · have hhost : Hosted w.client (step cfg w .notifyWake).client := hosted_step cfg he
    have hcalls : (step cfg w .notifyWake).calls = w.calls ++ [none] := if_pos hring
    obtain ⟨hin, hsetters⟩ := Bool.and_eq_true_iff.1 hring
    have hsome : ∀ t, some t ∈ (step cfg w .notifyWake).calls → some t ∈ w.calls := by
      intro t ht
      rw [hcalls] at ht
      rcases List.mem_append.1 ht with ht | ht
      · exact ht
      · exact absurd (List.mem_singleton.1 ht) (Option.some_ne_none t)
    apply covered_host he hs
    · exact fun _ => hin
    · intro _
      cases hprobe : w.client.session.probeDeadline with
      | some d =>
          refine Or.inl ⟨d, hhost.probeDeadline.trans hprobe, fun t ht => ?_⟩
          rcases hs.covered (List.ne_nil_of_mem (hsome t ht)) with ⟨d', hd', hbound⟩ | habout
          · rw [hprobe] at hd'
            cases hd'
            exact hbound t (hsome t ht)
          · rw [habout.none] at hprobe
            cases hprobe
      | none =>
          have hparked : w.client.task = .selecting :=
            (hnoticed hin (of_decide_eq_true hsetters)).resolve_right fun h => h hprobe
          refine Or.inr ⟨hhost.task.trans hparked, hhost.probeDeadline.trans hprobe, ?_, ?_⟩
          · show (Client.step cfg w.client .notifyWake).Woken
            simp only [Client.step, notifyWake]
            rw [if_neg (Nat.ne_of_gt (of_decide_eq_true hsetters))]
            exact hs.wakeful.woken
          · intro t ht
            rcases hs.covered (List.ne_nil_of_mem (hsome t ht)) with ⟨d', hd', -⟩ | habout
            · rw [hprobe] at hd'
              cases hd'
            · exact habout.calls t (hsome t ht)
  · exact covered_quiet he hs (if_neg hring)

/-- The turn of a worker that was woken ends the session or starts a probe. -/
theorem woken_work {c : Client} {io : Answer} (htask : c.task = .selecting)
    (hnone : c.session.probeDeadline = none) (hwoken : c.Woken) (hpass : ¬ PassesOver c io) :
    (c.work cfg io).task.inSelect = false ∨
      ∃ d, (c.work cfg io).session.probeDeadline = some d := by
  have hbranch : c.branch = .deadline ∨ c.branch = .ping ∨ c.branch = .mode ∨ c.branch = .wake := by
    unfold branch
    split
    · exact Or.inl rfl
    · split
      · exact Or.inr (Or.inl rfl)
      · split
        · exact Or.inr (Or.inr (Or.inl rfl))
        · have hring : c.reconnectWake.woken c.session.wakeNotified = true := hwoken
          rw [if_pos hring]
          exact Or.inr (Or.inr (Or.inr rfl))
  unfold work onSelecting
  rw [htask]
  dsimp only
  rcases hbranch with h | h | h | h
  · rw [h]
    exact Or.inl rfl
  · rw [h]
    dsimp only
    unfold onPing wsSend
    cases hresult : io.result with
    | error e => exact Or.inl rfl
    | ok u => exact absurd (Or.inl ⟨h, hresult⟩) hpass
  · rw [h]
    dsimp only
    unfold onMode
    cases hidle : c.reconnectIdleMode with
    | true => exact Or.inl rfl
    | false => exact absurd (Or.inr ⟨h, hidle⟩) hpass
  · rw [h]
    dsimp only
    unfold onWake
    dsimp only
    rw [hnone]
    dsimp only
    unfold wsSend
    split
    · exact Or.inl rfl
    · exact Or.inr ⟨_, rfl⟩

/-- What is still open after a step of the worker. -/
structure StillOpen (cfg : RunConfig) (w : Reconnects) (io : Answer) : Prop where
  before : w.calls ≠ []
  inSelect : (w.client.work cfg io).task.inSelect = true
  receives : w.client.receives io = false
  calls : (step cfg w (.work io)).calls =
    if w.client.task = .selectArm then
      w.calls.map fun reached => some (reached.getD (w.client.work cfg io).now)
    else w.calls

theorem open_work {io : Answer} (hopen : (step cfg w (.work io)).calls ≠ []) :
    StillOpen cfg w io := by
  by_cases hclosed : !(w.client.work cfg io).task.inSelect || w.client.receives io
  · exact absurd (if_pos hclosed) hopen
  · obtain ⟨hin, hreceives⟩ := Bool.or_eq_false_iff.1 (Bool.eq_false_iff.2 hclosed)
    have hcalls : (step cfg w (.work io)).calls = if w.client.task = .selectArm then
        w.calls.map fun reached => some (reached.getD (w.client.work cfg io).now)
      else w.calls := if_neg hclosed
    refine ⟨fun hnil => hopen ?_, by simpa using hin, hreceives, hcalls⟩
    rw [hcalls, hnil]
    split <;> rfl

/-- The open calls stay covered by the probe that is under way. -/
theorem underWay_work (hs : Covered w) {io : Answer} (hunder : w.UnderWay)
    (hopen : (step cfg w (.work io)).calls ≠ []) : (step cfg w (.work io)).UnderWay := by
  have hstill := open_work hopen
  obtain ⟨d, hd, hbound⟩ := hunder
  cases paces_work cfg w.client io with
  | cleared _ _ hwhen =>
      rcases hwhen with hout | hitem
      · exact absurd (hout.symm.trans (hs.inSelect hstill.before)) Bool.false_ne_true
      · exact absurd (hstill.receives.symm.trans hitem) Bool.false_ne_true
  | probed hnone => exact absurd (hnone.symm.trans hd) (Option.some_ne_none d).symm
  | steady h =>
      refine ⟨d, h.probeDeadline.trans hd, fun t ht => ?_⟩
      rw [hstill.calls] at ht
      split at ht
      · obtain ⟨reached, hmem, heq⟩ := List.mem_map.1 ht
        rw [← Option.some.inj heq]
        cases reached with
        | some t' => exact hbound t' hmem
        | none =>
            -- The worker reaches the `select!` now, and the probe has started before.
            exact Nat.le_trans (hs.probe d hd) (Nat.add_le_add_right h.now _)
      · exact hbound t ht

theorem covered_work (hs : Covered w) {io : Answer} (hnoticed : w.Noticed (.work io)) :
    Covered (step cfg w (.work io)) := by
  have hpaces := paces_work cfg w.client io
  constructor
  case wakeful =>
    cases hpaces with
    | steady h => exact h.wakeful hs.wakeful
    | cleared _ hwakeful => exact hwakeful hs.wakeful
    | probed _ hwakeful => exact hwakeful hs.wakeful
  case probe =>
    intro d hd
    cases hpaces with
    | steady h =>
        exact Nat.le_trans (hs.probe d (h.probeDeadline ▸ hd)) (Nat.add_le_add_right h.now _)
    | cleared hnone => exact absurd (hnone.symm.trans hd) (Option.some_ne_none d).symm
    | probed _ _ _ hprobe => exact Nat.le_of_eq (Option.some.inj (hd.symm.trans hprobe))
  case inSelect => exact fun hopen => (open_work hopen).inSelect
  case covered =>
    intro hopen
    have hstill := open_work hopen
    rcases hs.covered hstill.before with hunder | habout
    · exact Or.inl (underWay_work hs hunder hopen)
    · have hturn : (w.client.work cfg io).task.inSelect = false ∨
          ∃ d, (w.client.work cfg io).session.probeDeadline = some d :=
        woken_work habout.parked habout.none habout.woken
          (hnoticed habout.parked habout.none habout.woken)
      rcases hturn with hended | ⟨d, hd⟩
      · exact absurd (hended.symm.trans hstill.inSelect) Bool.false_ne_true
      · refine Or.inl ⟨d, hd, fun t ht => ?_⟩
        rw [hstill.calls, habout.parked, if_neg (fun h => nomatch h)] at ht
        exact absurd ht (habout.calls t)

theorem covered_step {e : ClientEvent} (hnoticed : w.Noticed e) (hs : Covered w) :
    Covered (step cfg w e) := by
  cases e with
  | work io => exact covered_work hs hnoticed
  | notifyWake => exact covered_notifyWake hs hnoticed
  | _ => exact covered_quiet (fun io h => nomatch h) hs rfl

/-- When a call has waited long enough, so has the probe. -/
theorem answered_of_covered (hs : Covered w) (e : ClientEvent) : w.Answered cfg e := by
  cases e with
  | work io =>
      intro htask t ht hlate
      have hclosed : ∀ d, w.client.session.probeDeadline = some d → d ≤ w.client.now →
          (w.client.work cfg io).task.inSelect = false := by
        intro d hd hdue
        have hdeadline : deadline w.client.session ≤ w.client.now := by
          unfold deadline
          rw [hd]
          exact Nat.le_trans (Nat.min_le_left _ _) hdue
        have hbranch : w.client.branch = .deadline := if_pos hdeadline
        unfold work onSelecting
        rw [htask, hbranch]
        rfl
      rcases hs.covered (List.ne_nil_of_mem ht) with ⟨d, hd, hbound⟩ | habout
      · exact hclosed d hd (Nat.le_trans (hbound t ht) hlate)
      · exact absurd ht (habout.calls t)
  | _ => trivial

/-! ## Runs -/

/-- **In every run in which every ring is noticed, no call of `reconnect_now` is swallowed: at
the first turn `LIVENESS_PROBE_TIMEOUT` after the worker has reached the `select!` again, the
session ends, unless something has been received since the call.** -/
theorem answered_along (cfg : RunConfig) (es : List ClientEvent)
    (h : Machine.Along (step cfg) Noticed init es) :
    Machine.Along (step cfg) (Answered cfg) init es :=
  Machine.along_of_invariant (I := Covered) (fun _ _ hnoticed hs => covered_step hnoticed hs)
    (fun _ e _ hs => answered_of_covered hs e) covered_init h

end

/-! ## Two runs -/

instance (c : Client) (io : Answer) : Decidable (PassesOver c io) :=
  inferInstanceAs (Decidable (_ ∧ _ ∨ _ ∧ _))

instance (c : Client) : Decidable c.Woken := inferInstanceAs (Decidable (_ = true))

instance (w : Reconnects) : (e : ClientEvent) → Decidable (w.Noticed e)
  | .notifyWake => inferInstanceAs (Decidable (_ → _ → _ ∨ _))
  | .work io => inferInstanceAs (Decidable (_ → _ → _ → ¬ PassesOver w.client io))
  | .send _ | .dropSender | .storeIdleMode _ | .notifyMode | .storeRequested | .setLanActive _
  | .elapse _ | .lanInbound _ => isTrue trivial

/-- The worker comes to the `select!`. -/
def atSelect : List ClientEvent := opening ++ [.work {}, .work {}]

/-- A call that finds the worker in the `select!`, and a relay that is silent. -/
def probeUnanswered : List ClientEvent :=
  atSelect ++ [.storeRequested, .notifyWake, .work {}, .work {}, .work {},
    .elapse livenessProbeTimeout, .work {}]

theorem probeUnanswered_answered :
    Machine.Along (@step clearAead textJson sampleRunConfig)
      (@Answered clearAead textJson sampleRunConfig) init probeUnanswered :=
  @answered_along clearAead textJson sampleRunConfig probeUnanswered (by decide +kernel)

/-- A call while the worker writes a ping, and then a relay that is silent. -/
def ringDuringPing : List ClientEvent :=
  atSelect ++ [.elapse pingEvery, .work {}, .storeRequested, .notifyWake, .work {}, .work {},
    .elapse livenessProbeTimeout]

/-- The session goes on. -/
theorem ringDuringPing_swallowed :
    ¬ ∀ es, Machine.Along (@step clearAead textJson sampleRunConfig)
      (@Answered clearAead textJson sampleRunConfig) init es := by
  intro h
  have hturn := Machine.along_iff.1 (h (ringDuringPing ++ [.work {}])) ringDuringPing (.work {})
    [] rfl
  have hended := hturn (by decide +kernel) pingEvery (by decide +kernel) (by decide +kernel)
  exact absurd hended (by decide +kernel)

end Reconnects

end ClipBridge
