import ClipBridge.Client.Adverts

/-!
# A relay that does not know `lan_advertise`

Such a relay answers each advertisement with an error about an unknown variant. The client keeps
one flag for an advertisement that may be answered so, and the first reply clears it; several
advertisements can be on their way by then.

* `Adverts` — the client, and what has been advertised and answered in the session.
* `Unseen` — the embedder sees no error in a session, and after a reply nothing is advertised.
* `OldRelay` — the relay's errors are its replies to the advertisements.
* `FirstReply` — a reply that is handled is the first one of its session, and no snapshot of LAN
  peers has come since the last advertisement.
* `Tracks` — the flags say what has been advertised and answered.
* `unseen_iff` — with an old relay the embedder sees nothing of it exactly if only first replies
  are handled.
-/

namespace ClipBridge

/-! ## A session with an old relay -/

/-- The client, and what there has been in the session: how many advertisements were written, how
many replies were handled, and whether a snapshot of LAN peers has come since the last
advertisement. -/
structure Adverts where
  client : Client
  sent : Nat
  replies : Nat
  snapshot : Bool

namespace Adverts

open Client

def init : Adverts := ⟨Client.init, 0, 0, false⟩

/-- A step that handles neither a reply nor a snapshot. The session begins with the dial. -/
def goOn (w : Adverts) (client : Client) : Adverts :=
  if w.client.task = .dialing then ⟨client, 0, 0, false⟩
  else if w.client.adverts < client.adverts then
    { w with client, sent := w.sent + 1, snapshot := false }
  else { w with client }

section

variable [Aead] [ClipJson]

def step (cfg : RunConfig) (w : Adverts) (e : ClientEvent) : Adverts :=
  let client := Client.step cfg w.client e
  match e with
  | .work io =>
      match w.client.handles io with
      | some (.error _) => { w with client, replies := w.replies + 1 }
      | some (.lanPeers _) => { w with client, snapshot := true }
      | _ => w.goOn client
  | _ => { w with client }

/-- In a session no error is reported, and nothing is advertised once a reply was handled. -/
def Unseen (cfg : RunConfig) (w : Adverts) : ClientEvent → Prop
  | .work io =>
      (w.client.task.attempting = true →
        errors (w.client.work cfg io).worker = errors w.client.worker) ∧
      (0 < w.replies → (w.client.work cfg io).adverts = w.client.adverts)
  | _ => True

end

/-- Each error of the relay is about the unknown variant, and there are no more of them than
advertisements. -/
def OldRelay (w : Adverts) : ClientEvent → Prop
  | .work io => ∀ reason ∈ w.client.reply io,
      isLanAdvertiseCompatError reason = true ∧ w.replies < w.sent
  | _ => True

def FirstReply (w : Adverts) : ClientEvent → Prop
  | .work io => ∀ reason ∈ w.client.reply io, w.replies = 0 ∧ w.snapshot = false
  | _ => True

/-- What the worker's variables say of the session. -/
structure Tracks (w : Adverts) : Prop where
  pending : w.client.task.inSession = true → (w.client.worker.lanAdvertiseErrorPending = true ↔
    0 < w.sent ∧ w.replies = 0 ∧ w.snapshot = false)
  disabled : w.client.task.inSession = true → 0 < w.replies →
    w.client.worker.lanAdvertiseDisabled = true
  opening : w.client.task.opening = true → w.replies = 0
  armed : w.client.task = .selecting → w.client.session.advertiseArmed = true →
    w.client.worker.lanAdvertiseDisabled = false

variable {w : Adverts}

theorem inSession_of_opening {task : RunTask} (h : task.opening = true) :
    task.inSession = true := by
  cases task <;> first | rfl | cases h

theorem inSession_of_inSelect {task : RunTask} (h : task.inSelect = true) :
    task.inSession = true := by
  cases task <;> first | rfl | cases h

/-- Outside a session there is nothing to be said. -/
theorem tracks_outside (h : w.client.task.inSession = false) : Tracks w := by
  constructor
  case pending => exact fun hin => absurd (h.symm.trans hin) Bool.false_ne_true
  case disabled => exact fun hin => absurd (h.symm.trans hin) Bool.false_ne_true
  case opening =>
    intro hopening
    exact absurd (h.symm.trans (inSession_of_opening hopening)) Bool.false_ne_true
  case armed =>
    intro htask
    rw [htask] at h
    cases h

/-- At the head of the loop. -/
theorem tracks_head {client : Client} {sent replies : Nat} {snapshot : Bool}
    (htask : client.task = .selectHead ∨ client.task = .selectArm)
    (hpending : client.worker.lanAdvertiseErrorPending = true ↔
      0 < sent ∧ replies = 0 ∧ snapshot = false)
    (hdisabled : 0 < replies → client.worker.lanAdvertiseDisabled = true) :
    Tracks ⟨client, sent, replies, snapshot⟩ := by
  constructor
  case pending => exact fun _ => hpending
  case disabled => exact fun _ => hdisabled
  case opening =>
    intro hopening
    rcases htask with h | h
    · rw [h] at hopening
      cases hopening
    · rw [h] at hopening
      cases hopening
  case armed =>
    intro hselecting
    rcases htask with h | h
    · rw [h] at hselecting
      cases hselecting
    · rw [h] at hselecting
      cases hselecting

theorem tracks_init : Tracks init := tracks_outside rfl

/-! ## One step -/

theorem goOn_same {client : Client} (hdialing : w.client.task ≠ .dialing)
    (hadverts : client.adverts = w.client.adverts) : w.goOn client = { w with client } := by
  have hnone : ¬ w.client.adverts < client.adverts := Nat.not_lt.2 (Nat.le_of_eq hadverts)
  rw [goOn, if_neg hdialing, if_neg hnone]

theorem goOn_client (w : Adverts) (client : Client) : (w.goOn client).client = client := by
  unfold goOn
  split
  · rfl
  · split <;> rfl

theorem not_dialing_of_opening {task : RunTask} (h : task.opening = true) : task ≠ .dialing := by
  intro hdialing
  rw [hdialing] at h
  cases h

theorem not_dialing_of_inSelect {task : RunTask} (h : task.inSelect = true) :
    task ≠ .dialing := by
  intro hdialing
  rw [hdialing] at h
  cases h

/-- What is advertised, is advertised before a reply has come. -/
theorem replies_eq_zero (hs : Tracks w) {task : RunTask}
    (htask : task = .flushing ∧ w.client.task.opening = true ∨
      task = .selectHead ∧ w.client.task = .selecting)
    (hallowed : w.client.task = .advertising ∨ w.client.worker.lanAdvertiseDisabled = false ∨
      w.client.task = .selecting ∧ w.client.session.advertiseArmed = true) : w.replies = 0 := by
  have hin : w.client.task.inSession = true := by
    rcases htask with ⟨-, h⟩ | ⟨-, h⟩
    · exact inSession_of_opening h
    · rw [h]
      rfl
  have henabled : w.client.worker.lanAdvertiseDisabled = false → w.replies = 0 := by
    intro hfalse
    by_contra hne
    have htrue := hs.disabled hin (Nat.pos_of_ne_zero hne)
    rw [hfalse] at htrue
    cases htrue
  rcases hallowed with h | h | ⟨hselecting, harmed⟩
  · exact hs.opening (by rw [h]; rfl)
  · exact henabled h
  · exact henabled (hs.armed hselecting harmed)

theorem tracks_goOn {client : Client} (hs : Tracks w) (h : Speaks w.client client) :
    Tracks (w.goOn client) := by
  cases h with
  | leaves htask =>
      apply tracks_outside
      rw [goOn_client]
      exact htask
  | dials htask htask' hpending =>
      rw [goOn, if_pos htask]
      constructor
      case pending =>
        intro _
        rw [hpending]
        simp
      case disabled => exact fun _ h => absurd h (Nat.lt_irrefl 0)
      case opening => exact fun _ => rfl
      case armed =>
        intro hselecting
        rw [htask'] at hselecting
        cases hselecting
  | opens htask htask' hkeeps =>
      have hin : w.client.task.inSession = true := inSession_of_opening htask
      rw [goOn_same (not_dialing_of_opening htask) hkeeps.adverts]
      constructor
      case pending =>
        intro _
        rw [hkeeps.pending]
        exact hs.pending hin
      case disabled =>
        intro _ hreplies
        rw [hkeeps.disabled]
        exact hs.disabled hin hreplies
      case opening => exact fun _ => hs.opening htask
      case armed =>
        intro hselecting
        rcases htask' with h | h
        · rw [hselecting] at h
          cases h
        · rw [hselecting] at h
          cases h
  | loops htask htask' hkeeps =>
      have hin : w.client.task.inSession = true := inSession_of_inSelect htask
      rw [goOn_same (not_dialing_of_inSelect htask) hkeeps.adverts]
      apply tracks_head htask'
      · rw [hkeeps.pending]
        exact hs.pending hin
      · intro hreplies
        rw [hkeeps.disabled]
        exact hs.disabled hin hreplies
  | arms htask htask' hkeeps harmed =>
      have hin : w.client.task.inSession = true := by rw [htask]; rfl
      rw [goOn_same (by rw [htask]; exact fun h => nomatch h) hkeeps.adverts]
      constructor
      case pending =>
        intro _
        rw [hkeeps.pending]
        exact hs.pending hin
      case disabled =>
        intro _ hreplies
        rw [hkeeps.disabled]
        exact hs.disabled hin hreplies
      case opening =>
        intro hopening
        rw [htask'] at hopening
        cases hopening
      case armed =>
        intro _ h
        rw [hkeeps.disabled]
        exact harmed h
  | stays h =>
      subst h
      by_cases hdialing : w.client.task = .dialing
      · apply tracks_outside
        rw [goOn_client, hdialing]
        rfl
      · rw [goOn_same hdialing rfl]
        exact hs
  | advertises task h htask hallowed =>
      have hzero : w.replies = 0 := replies_eq_zero hs htask hallowed
      have hdialing : w.client.task ≠ .dialing := by
        rcases htask with ⟨-, h⟩ | ⟨-, h⟩
        · exact not_dialing_of_opening h
        · rw [h]
          exact fun h => nomatch h
      have hmore : w.client.adverts < client.adverts := by
        rw [h.adverts]
        exact Nat.lt_succ_self _
      rw [goOn, if_neg hdialing, if_pos hmore]
      constructor
      case pending =>
        intro _
        rw [h.pending]
        simp [hzero]
      case disabled =>
        intro _ hreplies
        exact absurd hzero (Nat.ne_of_gt hreplies)
      case opening => exact fun _ => hzero
      case armed =>
        intro hselecting
        have htask' := h.task.symm.trans hselecting
        rcases htask with ⟨h, -⟩ | ⟨h, -⟩
        · rw [h] at htask'
          cases htask'
        · rw [h] at htask'
          cases htask'

section

variable [Aead] [ClipJson] {cfg : RunConfig}

theorem tracks_host {e : ClientEvent} (he : ∀ io, e ≠ .work io) (hs : Tracks w) :
    Tracks (step cfg w e) := by
  have hout : Outside cfg w.client (Client.step cfg w.client e) := step_outside cfg w.client he
  have hstep : step cfg w e = { w with client := Client.step cfg w.client e } := by
    cases e with
    | work io => exact absurd rfl (he io)
    | _ => rfl
  rw [hstep]
  generalize Client.step cfg w.client e = client at hout
  have hunmoved : w.client.worker.Unmoved client.worker := by
    rcases hout.worker with h | ⟨d, h⟩ | ⟨clip, h⟩
    · rw [h]
      exact Worker.unmoved_refl _
    · rw [h]
      exact Worker.unmoved_wait _ d
    · rw [h]
      exact (Worker.unmoved_wait _ 0).trans (Worker.unmoved_receive _ _ (.lan clip))
  constructor
  case pending =>
    intro hin
    rw [hunmoved.pending]
    exact hs.pending (hout.task ▸ hin)
  case disabled =>
    intro hin hreplies
    rw [hunmoved.disabled]
    exact hs.disabled (hout.task ▸ hin) hreplies
  case opening => exact fun hopening => hs.opening (hout.task ▸ hopening)
  case armed =>
    intro htask harmed
    rw [hunmoved.disabled]
    exact hs.armed (hout.task ▸ htask) (hout.session ▸ harmed)

/-- A message that has nothing to do with the advertisements. -/
theorem tracks_unmoved {io : Answer} {msg : ServerMessage RecentClip}
    (hmsg : w.client.handles io = some msg) (herror : ∀ reason, msg ≠ .error reason)
    (hpeers : ∀ peers, msg ≠ .lanPeers peers) (hs : Tracks w) : Tracks (step cfg w (.work io)) := by
  obtain ⟨htask, htask', hworker, hadverts⟩ := work_handles cfg hmsg
  have hin : w.client.task.inSession = true := by rw [htask]; rfl
  have hdialing : w.client.task ≠ .dialing := by
    rw [htask]
    exact fun h => nomatch h
  have hstep : step cfg w (.work io) = { w with client := w.client.work cfg io } := by
    rw [← goOn_same hdialing hadverts]
    cases msg with
    | error reason => exact absurd rfl (herror reason)
    | lanPeers peers => exact absurd rfl (hpeers peers)
    | _ =>
        simp only [step, hmsg]
        rfl
  have hunmoved := Worker.unmoved_onFrame cfg.toClientConfig herror hpeers w.client.worker io.lags
  rw [hstep]
  apply tracks_head (Or.inl htask')
  · rw [hworker, hunmoved.pending]
    exact hs.pending hin
  · intro hreplies
    rw [hworker, hunmoved.disabled]
    exact hs.disabled hin hreplies

theorem tracks_handles {io : Answer} {msg : ServerMessage RecentClip}
    (hmsg : w.client.handles io = some msg) (hold : w.OldRelay (.work io))
    (hfirst : w.FirstReply (.work io)) (hs : Tracks w) : Tracks (step cfg w (.work io)) := by
  obtain ⟨htask, htask', hworker, hadverts⟩ := work_handles cfg hmsg
  have hin : w.client.task.inSession = true := by rw [htask]; rfl
  cases msg with
  | error reason =>
      obtain ⟨hreply, hless⟩ := hold reason (reply_of_handles hmsg)
      obtain ⟨hzero, hnone⟩ := hfirst reason (reply_of_handles hmsg)
      have hpending := (hs.pending hin).2 ⟨by omega, hzero, hnone⟩
      rw [Worker.onFrame_reply cfg.toClientConfig hreply, if_pos hpending] at hworker
      have hstep : step cfg w (.work io) =
          { w with client := w.client.work cfg io, replies := w.replies + 1 } := by
        simp only [step, hmsg]
        rfl
      rw [hstep]
      apply tracks_head (Or.inl htask')
      · rw [hworker]
        simp
      · intro _
        rw [hworker]
  | lanPeers peers =>
      have hstep : step cfg w (.work io) =
          { w with client := w.client.work cfg io, snapshot := true } := by
        simp only [step, hmsg]
        rfl
      rw [hstep]
      apply tracks_head (Or.inl htask')
      · rw [hworker]
        simp [onFrame]
      · intro hreplies
        rw [hworker]
        exact hs.disabled hin hreplies
  | _ => exact tracks_unmoved hmsg (by simp) (by simp) hs

theorem tracks_step {e : ClientEvent} (hold : w.OldRelay e) (hfirst : w.FirstReply e)
    (hs : Tracks w) : Tracks (step cfg w e) := by
  cases e with
  | work io =>
      cases hmsg : w.client.handles io with
      | some msg => exact tracks_handles hmsg hold hfirst hs
      | none =>
          have hstep : step cfg w (.work io) = w.goOn (w.client.work cfg io) := by
            simp only [step, hmsg]
            rfl
          rw [hstep]
          exact tracks_goOn hs (speaks_work cfg w.client io hmsg)
  | _ => exact tracks_host (fun _ h => nomatch h) hs

/-- A step that handles no message is not seen. -/
theorem unseen_silent (hs : Tracks w) {io : Answer} (hmsg : w.client.handles io = none) :
    w.Unseen cfg (.work io) := by
  cases speaks_work cfg w.client io hmsg with
  | leaves _ hadverts herrors => exact ⟨herrors, fun _ => hadverts⟩
  | dials _ _ _ _ hadverts herrors => exact ⟨fun _ => herrors, fun _ => hadverts⟩
  | opens _ _ h => exact ⟨fun _ => h.errors, fun _ => h.adverts⟩
  | loops _ _ h => exact ⟨fun _ => h.errors, fun _ => h.adverts⟩
  | arms _ _ h => exact ⟨fun _ => h.errors, fun _ => h.adverts⟩
  | stays h => exact ⟨fun _ => by rw [h], fun _ => by rw [h]⟩
  | advertises task h htask hallowed =>
      refine ⟨fun _ => h.errors, fun hreplies => ?_⟩
      exact absurd (replies_eq_zero hs htask hallowed) (Nat.ne_of_gt hreplies)

/-- A reply is not seen exactly if the flag is set. -/
theorem unseen_reply {io : Answer} {reason : String}
    (hmsg : w.client.handles io = some (.error reason))
    (hreply : isLanAdvertiseCompatError reason = true) :
    w.Unseen cfg (.work io) ↔ w.client.worker.lanAdvertiseErrorPending = true := by
  obtain ⟨htask, -, hworker, hadverts⟩ := work_handles cfg hmsg
  have hin : w.client.task.attempting = true := by rw [htask]; rfl
  rw [Worker.onFrame_reply cfg.toClientConfig hreply] at hworker
  constructor
  · intro h
    by_contra hpending
    have herrors := h.1 hin
    rw [hworker, if_neg hpending, Worker.errors_note] at herrors
    exact absurd herrors (Nat.succ_ne_self _)
  · intro hpending
    refine ⟨fun _ => ?_, fun _ => hadverts⟩
    rw [hworker, if_pos hpending]
    rfl

/-- Another message is not seen. -/
theorem unseen_other {io : Answer} {msg : ServerMessage RecentClip}
    (hmsg : w.client.handles io = some msg) (herror : ∀ reason, msg ≠ .error reason) :
    w.Unseen cfg (.work io) := by
  obtain ⟨-, -, hworker, hadverts⟩ := work_handles cfg hmsg
  refine ⟨fun _ => ?_, fun _ => hadverts⟩
  rw [hworker]
  by_cases hpeers : ∃ peers, msg = .lanPeers peers
  · obtain ⟨peers, rfl⟩ := hpeers
    rfl
  · exact (Worker.unmoved_onFrame _ herror (fun peers h => hpeers ⟨peers, h⟩) _ _).errors

theorem unseen_step (hs : Tracks w) {e : ClientEvent} (hold : w.OldRelay e) :
    w.Unseen cfg e ↔ w.FirstReply e := by
  have hboth : w.Unseen cfg e → w.FirstReply e → (w.Unseen cfg e ↔ w.FirstReply e) :=
    fun h h' => ⟨fun _ => h', fun _ => h⟩
  cases e with
  | work io =>
      cases hmsg : w.client.handles io with
      | none =>
          apply hboth (unseen_silent hs hmsg)
          intro reason hreason
          rw [reply, hmsg] at hreason
          cases hreason
      | some msg =>
          by_cases herror : ∃ reason, msg = .error reason
          · obtain ⟨reason, rfl⟩ := herror
            have hreason := reply_of_handles hmsg
            obtain ⟨hreply, hless⟩ := hold reason hreason
            have hin : w.client.task.inSession = true := by
              rw [(work_handles cfg hmsg).1]
              rfl
            rw [unseen_reply hmsg hreply, hs.pending hin]
            constructor
            · intro h reason' _
              exact h.2
            · intro h
              exact ⟨by omega, h reason hreason⟩
          · have hother : ∀ reason, msg ≠ .error reason := fun reason h => herror ⟨reason, h⟩
            apply hboth (unseen_other hmsg hother)
            intro reason hreason
            unfold reply at hreason
            rw [hmsg] at hreason
            cases msg with
            | error reason' => exact absurd rfl (hother reason')
            | _ => cases hreason
  | _ => exact hboth trivial trivial

/-! ## Runs -/

/-- **With an old relay, no session reports an error to the embedder or advertises again after a
reply, exactly if each reply that is handled is the first one of its session, with no snapshot of
LAN peers since the last advertisement.** -/
theorem unseen_iff (cfg : RunConfig) (es : List ClientEvent)
    (hold : Machine.Along (step cfg) OldRelay init es) :
    Machine.Along (step cfg) (Unseen cfg) init es ↔
      Machine.Along (step cfg) FirstReply init es := by
  have hboth : Machine.Along (step cfg) (fun w e => w.Unseen cfg e ∧ w.OldRelay e) init es ↔
      Machine.Along (step cfg) (fun w e => w.FirstReply e ∧ w.OldRelay e) init es :=
    Machine.along_congr (I := Tracks) (fun _ _ h hs => tracks_step h.2 h.1 hs)
      (fun _ _ hs => and_congr_left fun hold => unseen_step hs hold) tracks_init
  rw [Machine.along_and, Machine.along_and] at hboth
  exact ⟨fun h => (hboth.1 ⟨h, hold⟩).1, fun h => (hboth.2 ⟨h, hold⟩).1⟩

end

/-! ## Two runs -/

instance (w : Adverts) : (e : ClientEvent) → Decidable (w.OldRelay e)
  | .work io => inferInstanceAs (Decidable (∀ reason ∈ w.client.reply io, _ ∧ _))
  | .send _ | .dropSender | .storeIdleMode _ | .notifyMode | .storeRequested | .notifyWake
  | .setLanActive _ | .elapse _ | .lanInbound _ => isTrue trivial

instance (w : Adverts) : (e : ClientEvent) → Decidable (w.FirstReply e)
  | .work io => inferInstanceAs (Decidable (∀ reason ∈ w.client.reply io, _ ∧ _))
  | .send _ | .dropSender | .storeIdleMode _ | .notifyMode | .storeRequested | .notifyWake
  | .setLanActive _ | .elapse _ | .lanInbound _ => isTrue trivial

def lanRunConfig : RunConfig := ⟨sampleConfig, true⟩

def unknownVariant : String :=
  "bad message: unknown variant `lan_advertise`, expected one of `join`, `publish`, `fetch_recent`"

def candidates : List LanCandidate := [⟨"192.168.1.7:4000", 24⟩]

def answerReply : Answer := { item := some (.text (.ok (.error unknownVariant))) }

/-- The worker advertises when the session opens, and comes to the `select!`. -/
def advertised : List ClientEvent :=
  List.replicate 4 (.work {}) ++ [.work { networks := candidates }, .work {}, .work {}, .work {}]

/-- The reply comes, and the worker comes to the `select!` again. -/
def advertAnswered : List ClientEvent := advertised ++ [.work answerReply, .work {}, .work {}]

theorem advertAnswered_unseen :
    Machine.Along (@step clearAead textJson lanRunConfig)
      (@Unseen clearAead textJson lanRunConfig) init advertAnswered :=
  (@unseen_iff clearAead textJson lanRunConfig advertAnswered (by decide +kernel)).2
    (by decide +kernel)

/-- The host asks for a refresh before the first reply comes. -/
def refreshedEarly : List ClientEvent :=
  advertised ++ [.send .refreshLan, .work { networks := candidates }, .work {}, .work {},
    .work answerReply, .work {}, .work {}]

/-- The second reply is reported. -/
theorem refreshedEarly_seen :
    ¬ ∀ es, Machine.Along (@step clearAead textJson lanRunConfig) OldRelay init es →
      Machine.Along (@step clearAead textJson lanRunConfig)
        (@Unseen clearAead textJson lanRunConfig) init es := by
  intro h
  have hunseen := Machine.along_iff.1 (h (refreshedEarly ++ [.work answerReply])
    (by decide +kernel)) refreshedEarly (.work answerReply) [] rfl
  exact absurd (hunseen.1 (by decide +kernel)) (by decide +kernel)

end Adverts

end ClipBridge
