import ClipBridge.Relay.Socket
import Mathlib.Data.List.Infix

/-!
# What one event of the relay can do

The case analysis of the socket task, done once. Most events are *still*: they answer the client,
move mailboxes and presence, or end a task, and leave the publish history, the channels, the
caches, the subscriptions and the clips already sent as they were. `step_effect` says that the
others are a new connection, a join, an accepted publish, an answered fetch and one receive from
the broadcast channel, and what each of these does. The invariants of the relay are proved from it
and never unfold a branch.
-/

namespace ClipBridge.Relay

open Broadcast (Receiver Recv)

/-! ## The clips sent to a connection -/

/-- The clip a frame carries, if it is a `Clip` frame. -/
def clipOf : ServerMessage Published → Option Published
  | .clip c => some c
  | _ => none

/-- The clips that went out to a connection as `Clip` frames, oldest first. -/
def Conn.clips (c : Conn) : List Published := c.sent.filterMap clipOf

/-- A frame that carries clips: a `Clip` or a `Recent` frame. -/
def carriesClips : ServerMessage Published → Bool
  | .clip _ | .recent _ => true
  | _ => false

/-- The frames that went out to a connection and carry clips, oldest first. -/
def Conn.frames (c : Conn) : List (ServerMessage Published) := c.sent.filter carriesClips

theorem Conn.clips_eq_frames (c : Conn) : c.clips = c.frames.filterMap clipOf := by
  rw [Conn.clips, Conn.frames, List.filterMap_filter]
  congr 1
  funext msg
  cases msg <;> rfl

theorem Conn.frames_append (c : Conn) (msg : ServerMessage Published) :
    ({ c with sent := c.sent ++ [msg] } : Conn).frames =
      c.frames ++ if carriesClips msg then [msg] else [] := by
  cases h : carriesClips msg <;> simp [Conn.frames, h]

/-! ## Sending -/

@[simp] theorem setConn_conns_self (r : Relay) (cid : ConnId) (c : Conn) :
    (r.setConn cid c).conns cid = c := by
  simp [setConn]

theorem setConn_conns_ne (r : Relay) {cid d : ConnId} (hne : d ≠ cid) (c : Conn) :
    (r.setConn cid c).conns d = r.conns d := by
  simp [setConn, hne]

@[simp] theorem setConn_setConn (r : Relay) (cid : ConnId) (c c' : Conn) :
    (r.setConn cid c).setConn cid c' = r.setConn cid c' := by
  simp [setConn]

@[simp] theorem setConn_hub (r : Relay) (cid : ConnId) (c : Conn) :
    (r.setConn cid c).hub = r.hub := rfl

@[simp] theorem setConn_accepted (r : Relay) (cid : ConnId) (c : Conn) :
    (r.setConn cid c).accepted = r.accepted := rfl

@[simp] theorem send_hub (r : Relay) (cid : ConnId) (msg : ServerMessage Published) :
    (r.send cid msg).hub = r.hub := by
  unfold send; split <;> rfl

@[simp] theorem send_accepted (r : Relay) (cid : ConnId) (msg : ServerMessage Published) :
    (r.send cid msg).accepted = r.accepted := by
  unfold send; split <;> rfl

theorem send_conns_ne (r : Relay) {cid d : ConnId} (hne : d ≠ cid)
    (msg : ServerMessage Published) : (r.send cid msg).conns d = r.conns d := by
  unfold send
  split
  · exact setConn_conns_ne r hne _
  · rfl

/-- Sending adds one frame if the link is up, and nothing if it is down. -/
theorem send_conns_self (r : Relay) (cid : ConnId) (msg : ServerMessage Published) :
    (r.send cid msg).conns cid =
      { r.conns cid with sent := (r.conns cid).sent ++ if (r.conns cid).linkUp then [msg] else [] }
      := by
  unfold send
  by_cases h : (r.conns cid).linkUp
  · simp [h]
  · rw [if_neg h, if_neg h, List.append_nil]

/-! ## Quiet and still events -/

/-- `r'` has the history, the channels and, for every connection, the subscription, the identity
and the sent `Clip` frames of `r`. A task may have ended, or a link gone down. -/
structure Quiet (r r' : Relay) : Prop where
  accepted : r'.accepted = r.accepted
  connSeq : r'.hub.connSeq = r.hub.connSeq
  tx : ∀ g, (r'.hub.entry g).tx = (r.hub.entry g).tx
  rx : ∀ cid, (r'.conns cid).rx = (r.conns cid).rx
  group : ∀ cid, (r'.conns cid).group = (r.conns cid).group
  deviceId : ∀ cid, (r'.conns cid).deviceId = (r.conns cid).deviceId
  clips : ∀ cid, (r'.conns cid).clips = (r.conns cid).clips
  sent : ∀ cid, (r.conns cid).sent <+: (r'.conns cid).sent
  isOpen : ∀ cid, (r'.conns cid).isOpen → (r.conns cid).isOpen
  linkUp : ∀ cid, (r'.conns cid).linkUp → (r.conns cid).linkUp

/-- A quiet event is *still* if it also keeps the caches and sends no clips at all. -/
structure Still (r r' : Relay) : Prop extends Quiet r r' where
  cache : ∀ g, (r'.hub.entry g).cache = (r.hub.entry g).cache
  frames : ∀ cid, (r'.conns cid).frames = (r.conns cid).frames

theorem Still.refl (r : Relay) : Still r r where
  accepted := rfl
  connSeq := rfl
  tx _ := rfl
  rx _ := rfl
  group _ := rfl
  deviceId _ := rfl
  clips _ := rfl
  sent _ := List.prefix_rfl
  isOpen _ h := h
  linkUp _ h := h
  cache _ := rfl
  frames _ := rfl

theorem Quiet.trans {r r' r'' : Relay} (h : Quiet r r') (h' : Quiet r' r'') : Quiet r r'' where
  accepted := h'.accepted.trans h.accepted
  connSeq := h'.connSeq.trans h.connSeq
  tx g := (h'.tx g).trans (h.tx g)
  rx cid := (h'.rx cid).trans (h.rx cid)
  group cid := (h'.group cid).trans (h.group cid)
  deviceId cid := (h'.deviceId cid).trans (h.deviceId cid)
  clips cid := (h'.clips cid).trans (h.clips cid)
  sent cid := (h.sent cid).trans (h'.sent cid)
  isOpen cid hopen := h.isOpen cid (h'.isOpen cid hopen)
  linkUp cid hup := h.linkUp cid (h'.linkUp cid hup)

theorem Still.trans {r r' r'' : Relay} (h : Still r r') (h' : Still r' r'') : Still r r'' where
  toQuiet := h.toQuiet.trans h'.toQuiet
  cache g := (h'.cache g).trans (h.cache g)
  frames cid := (h'.frames cid).trans (h.frames cid)

/-- Rewriting the variables of one task is quiet if these are kept. -/
theorem quiet_setConn {r : Relay} {cid : ConnId} {c : Conn} (hrx : c.rx = (r.conns cid).rx)
    (hgroup : c.group = (r.conns cid).group) (hdid : c.deviceId = (r.conns cid).deviceId)
    (hclips : c.clips = (r.conns cid).clips) (hsent : (r.conns cid).sent <+: c.sent)
    (hopen : c.isOpen → (r.conns cid).isOpen) (hup : c.linkUp → (r.conns cid).linkUp) :
    Quiet r (r.setConn cid c) := by
  have hconn : ∀ d, (r.setConn cid c).conns d = if d = cid then c else r.conns d := by
    intro d
    by_cases hd : d = cid
    · subst hd; simp
    · simp [setConn_conns_ne r hd, hd]
  refine ⟨rfl, rfl, fun _ => rfl, fun d => ?_, fun d => ?_, fun d => ?_, fun d => ?_,
    fun d => ?_, fun d h => ?_, fun d h => ?_⟩
  all_goals
    by_cases hd : d = cid
    · subst hd; simp_all
    · simp_all

theorem still_setConn {r : Relay} {cid : ConnId} {c : Conn} (hrx : c.rx = (r.conns cid).rx)
    (hgroup : c.group = (r.conns cid).group) (hdid : c.deviceId = (r.conns cid).deviceId)
    (hframes : c.frames = (r.conns cid).frames) (hsent : (r.conns cid).sent <+: c.sent)
    (hopen : c.isOpen → (r.conns cid).isOpen) (hup : c.linkUp → (r.conns cid).linkUp) :
    Still r (r.setConn cid c) where
  toQuiet := by
    refine quiet_setConn hrx hgroup hdid ?_ hsent hopen hup
    rw [Conn.clips_eq_frames, hframes, ← Conn.clips_eq_frames]
  cache _ := rfl
  frames d := by
    by_cases hd : d = cid
    · subst hd; rw [setConn_conns_self, hframes]
    · rw [setConn_conns_ne r hd]

/-- A frame that carries no clips is still. -/
theorem still_send (r : Relay) (cid : ConnId) {msg : ServerMessage Published}
    (hmsg : carriesClips msg = false) : Still r (r.send cid msg) := by
  unfold send
  split
  · exact still_setConn rfl rfl rfl (by rw [Conn.frames_append, hmsg]; simp)
      (List.prefix_append _ _) id id
  · exact Still.refl r

/-- A `Recent` frame is quiet. -/
theorem quiet_send_recent (r : Relay) (cid : ConnId) (clips : List Published) :
    Quiet r (r.send cid (.recent clips)) := by
  unfold send
  split
  · exact quiet_setConn rfl rfl rfl (by simp [Conn.clips, clipOf]) (List.prefix_append _ _) id id
  · exact (Still.refl r).toQuiet

theorem still_deliver (r : Relay) (push : Push) : Still r (r.deliver push) := by
  unfold deliver
  split
  · exact still_setConn rfl rfl rfl rfl List.prefix_rfl id id
  · exact Still.refl r

theorem still_deliverAll (r : Relay) (pushes : List Push) : Still r (r.deliverAll pushes) := by
  induction pushes generalizing r with
  | nil => exact Still.refl r
  | cons push pushes ih => exact (still_deliver r push).trans (ih _)

/-- Replacing the hub is quiet if every channel is kept and no connection id is handed out. -/
theorem quiet_hub (r : Relay) {hub : Hub Published}
    (htx : ∀ g, (hub.entry g).tx = (r.hub.entry g).tx) (hseq : hub.connSeq = r.hub.connSeq) :
    Quiet r { r with hub := hub } :=
  { (Still.refl r).toQuiet with connSeq := hseq, tx := htx }

/-- Replacing the presence of one group is still. -/
theorem still_presence (r : Relay) (g : GroupId) (p : Presence) :
    Still r { r with hub := r.hub.set g { r.hub.entry g with presence := p } } := by
  have hentry : ∀ g', ((r.hub.set g { r.hub.entry g with presence := p }).entry g').tx =
      (r.hub.entry g').tx ∧ ((r.hub.set g { r.hub.entry g with presence := p }).entry g').cache =
      (r.hub.entry g').cache := by
    intro g'
    by_cases hg : g' = g
    · subst hg; simp
    · rw [r.hub.entry_set_ne hg]; simp
  exact
    { toQuiet := quiet_hub r (fun g' => (hentry g').1) rfl
      cache := fun g' => (hentry g').2
      frames := fun _ => rfl }

theorem recent_tx (hub : Hub Published) (now : Instant) (g g' : GroupId) :
    ((hub.recent now g).2.entry g').tx = (hub.entry g').tx := by
  unfold Hub.recent
  by_cases hg : g' = g
  · subst hg; simp
  · rw [hub.entry_set_ne hg]

theorem still_onSnapshot (r : Relay) (cid : ConnId) : Still r (r.onSnapshot cid) := by
  unfold onSnapshot
  dsimp only
  split
  · exact Still.refl r
  · refine Still.trans ?_ (still_send _ cid rfl)
    exact still_setConn rfl rfl rfl rfl List.prefix_rfl id id

/-! ## The events that are not still -/

/-- Answer a `FetchRecent` of connection `cid` for the group it is joined to. -/
def fetched (r : Relay) (cid : ConnId) (now : Instant) (g : GroupId) : Relay :=
  ({ r with hub := (r.hub.recent now g).2 } : Relay).send cid (.recent (r.hub.recent now g).1)

theorem quiet_fetched (r : Relay) (cid : ConnId) (now : Instant) (g : GroupId) :
    Quiet r (r.fetched cid now g) :=
  (quiet_hub r (recent_tx r.hub now g) rfl).trans (quiet_send_recent _ cid _)

/-- Connection `cid` is open and joined to `g` as `did`. -/
def JoinedAs (r : Relay) (cid : ConnId) (g : GroupId) (did : DeviceId) : Prop :=
  (r.conns cid).isOpen ∧ (r.conns cid).group = some g ∧ (r.conns cid).deviceId = some did

/-- What one attempt of a task to receive from its broadcast channel does. -/
inductive Received (r : Relay) (cid : ConnId) : Relay → Prop
  | idle : Received r cid r
  | lagged {g : GroupId} {rx : Receiver} (hrx : (r.conns cid).rx = some (g, rx))
      (hlag : broadcastCap < rx.backlog (r.hub.entry g).tx) :
      Received r cid (r.setConn cid { r.conns cid with
        rx := some (g, { rx with
          next := rx.next + (rx.backlog (r.hub.entry g).tx - broadcastCap)
          missed := rx.missed + (rx.backlog (r.hub.entry g).tx - broadcastCap) }) })
  | skip {g : GroupId} {rx : Receiver} {m : Published} (hrx : (r.conns cid).rx = some (g, rx))
      (hm : (r.hub.entry g).tx[rx.next]? = some m)
      (hskip : some m.clip.senderDeviceId = (r.conns cid).deviceId ∨ ¬ (r.conns cid).linkUp) :
      Received r cid (r.setConn cid { r.conns cid with
        rx := some (g, { rx with next := rx.next + 1 }) })
  | forward {g : GroupId} {rx : Receiver} {m : Published}
      (hrx : (r.conns cid).rx = some (g, rx)) (hm : (r.hub.entry g).tx[rx.next]? = some m)
      (hother : some m.clip.senderDeviceId ≠ (r.conns cid).deviceId)
      (hup : (r.conns cid).linkUp) :
      Received r cid (r.setConn cid { r.conns cid with
        rx := some (g, { rx with next := rx.next + 1 })
        sent := (r.conns cid).sent ++ [.clip m] })

theorem received_onBroadcast (r : Relay) (cid : ConnId) : Received r cid (r.onBroadcast cid) := by
  unfold onBroadcast
  dsimp only
  rcases hrx : (r.conns cid).rx with _ | ⟨g, rx⟩
  · exact .idle
  · dsimp only
    rcases Broadcast.recv_cases broadcastCap (r.hub.entry g).tx rx with
      ⟨hlag, hrecv⟩ | ⟨-, m, hm, hrecv⟩ | ⟨-, -, hrecv⟩
    · rw [hrecv]
      exact .lagged hrx hlag
    · rw [hrecv]
      dsimp only
      split
      · rename_i hown
        exact .skip hrx hm (Or.inl hown)
      · rename_i hother
        unfold send
        rw [setConn_conns_self, setConn_setConn]
        split
        · rename_i hup
          exact .forward hrx hm hother hup
        · rename_i hdown
          exact .skip hrx hm (Or.inr hdown)
    · rw [hrecv]
      exact .idle

section Received

variable {r r' : Relay} {cid : ConnId}

@[simp] theorem Received.accepted (h : Received r cid r') : r'.accepted = r.accepted := by
  cases h <;> rfl

@[simp] theorem Received.hub (h : Received r cid r') : r'.hub = r.hub := by
  cases h <;> rfl

/-- One receive changes the subscription and the sent frames of its own connection only. -/
theorem Received.conns (h : Received r cid r') (d : ConnId) :
    ∃ rx sent, r'.conns d = { r.conns d with rx, sent } := by
  by_cases hd : d = cid
  · subst hd
    cases h with
    | idle => exact ⟨_, _, rfl⟩
    | lagged | skip | forward => rw [setConn_conns_self]; exact ⟨_, _, rfl⟩
  · cases h with
    | idle => exact ⟨_, _, rfl⟩
    | lagged | skip | forward => rw [setConn_conns_ne r hd]; exact ⟨_, _, rfl⟩

theorem Received.deviceId (h : Received r cid r') (d : ConnId) :
    (r'.conns d).deviceId = (r.conns d).deviceId := by
  obtain ⟨rx, sent, hd⟩ := h.conns d
  rw [hd]

theorem Received.isOpen (h : Received r cid r') (d : ConnId) :
    (r'.conns d).isOpen = (r.conns d).isOpen := by
  obtain ⟨rx, sent, hd⟩ := h.conns d
  rw [hd]

/-- A receive leaves the start of a subscription alone, and loses nothing without a lag. -/
theorem Received.rx (h : Received r cid r') {d : ConnId} {g : GroupId} {rx : Receiver}
    (hrx : (r.conns d).rx = some (g, rx)) (hlag : ¬ broadcastCap < rx.backlog (r.hub.entry g).tx) :
    ∃ rx', (r'.conns d).rx = some (g, rx') ∧ rx'.start = rx.start ∧ rx'.missed = rx.missed := by
  by_cases hd : d = cid
  · subst hd
    cases h with
    | idle => exact ⟨rx, hrx, rfl, rfl⟩
    | lagged hrx' hlag' =>
        rw [hrx] at hrx'
        cases hrx'
        exact absurd hlag' hlag
    | skip hrx' | forward hrx' =>
        rw [hrx] at hrx'
        cases hrx'
        exact ⟨{ rx with next := rx.next + 1 }, by rw [setConn_conns_self], rfl, rfl⟩
  · cases h with
    | idle => exact ⟨rx, hrx, rfl, rfl⟩
    | lagged | skip | forward =>
        exact ⟨rx, by rw [setConn_conns_ne r hd]; exact hrx, rfl, rfl⟩

theorem Received.sent (h : Received r cid r') (d : ConnId) :
    (r.conns d).sent <+: (r'.conns d).sent := by
  by_cases hd : d = cid
  · subst hd
    cases h with
    | idle => exact List.prefix_rfl
    | lagged | skip => rw [setConn_conns_self]
    | forward => rw [setConn_conns_self]; exact List.prefix_append _ _
  · cases h with
    | idle => exact List.prefix_rfl
    | lagged | skip | forward => rw [setConn_conns_ne r hd]

end Received

/-! ## Every event -/

section

variable [SocketAddrText]

theorem still_rendezvousRemove (r : Relay) (g : GroupId) (egress : IpAddr) (cid : ConnId) :
    Still r { r with hub := (r.hub.rendezvousRemove g egress cid).1 } := by
  unfold Hub.rendezvousRemove
  exact still_presence r g _

theorem still_rendezvousUpsert (r : Relay) (u : RendezvousUpdate) :
    Still r { r with hub := (r.hub.rendezvousUpsert u).1 } := by
  unfold Hub.rendezvousUpsert
  exact still_presence r u.groupId _

theorem still_onLanAdvertise (r : Relay) (cid : ConnId) (g : GroupId) (did : DeviceId)
    (name : String) (candidates : List String) (networks : List LanCandidate) :
    Still r (r.onLanAdvertise cid g did name candidates networks).1 := by
  unfold onLanAdvertise
  split
  · exact still_send r cid rfl
  · split
    · exact still_send r cid rfl
    · split
      · exact still_send r cid rfl
      · refine Still.trans ?_ (still_deliverAll _ _)
        refine Still.trans ?_ (still_rendezvousUpsert _ _)
        exact still_setConn rfl rfl rfl rfl List.prefix_rfl id id

theorem still_onClose (r : Relay) (cid : ConnId) : Still r (r.onClose cid).1 := by
  unfold onClose
  dsimp only
  split
  · exact still_setConn rfl rfl rfl rfl List.prefix_rfl (by simp) id
  · rename_i g hrv
    refine Still.trans ?_ (still_deliverAll _ _)
    refine (still_rendezvousRemove r g (r.conns cid).egress cid).trans ?_
    exact still_setConn rfl rfl rfl rfl List.prefix_rfl (by simp) id

/-- What one event does to the history, the channels, the subscriptions and the sent clips. -/
inductive Effect (r : Relay) : Event → Relay → Prop
  | still {e r'} (h : Still r r') : Effect r e r'
  | connect (egress : IpAddr) :
      Effect r (.connect egress)
        (({ r with hub := r.hub.nextConnId.2 } : Relay).setConn r.hub.connSeq (Conn.start egress))
  | join (cid : ConnId) (now : Instant) (g : GroupId) (did : DeviceId)
      (hopen : (r.conns cid).isOpen) :
      Effect r (.frame cid now (.text (.ok (.join g did)))) (r.onJoin cid g did)
  | publish (cid : ConnId) (now : Instant) (g : GroupId) (ciphertext nonce : Bytes) (ts : UInt64)
      (did : DeviceId) (hjoined : r.JoinedAs cid g did) :
      Effect r (.frame cid now (.text (.ok (.publish g ciphertext nonce ts))))
        { r with
          hub := r.hub.publish now g ⟨r.accepted.length, ⟨ciphertext, nonce, ts, did⟩⟩
          accepted := r.accepted ++ [⟨cid, g, ⟨ciphertext, nonce, ts, did⟩⟩] }
  | fetch (cid : ConnId) (now : Instant) (g : GroupId) (hopen : (r.conns cid).isOpen)
      (hgroup : (r.conns cid).group = some g) :
      Effect r (.frame cid now (.text (.ok (.fetchRecent g)))) (r.fetched cid now g)
  | broadcast (cid : ConnId) (hopen : (r.conns cid).isOpen) {r' : Relay}
      (h : Received r cid r') : Effect r (.broadcast cid) r'

/-- **Every event of the relay has one of these effects.** -/
theorem step_effect (r : Relay) (e : Event) : Effect r e (r.step e) := by
  unfold step act
  cases e with
  | connect egress => exact .connect egress
  | frame cid now f =>
      dsimp only
      split
      · rename_i hopen
        cases f with
        | text parsed =>
            cases parsed with
            | error e => exact .still (still_send r cid rfl)
            | ok msg =>
                cases msg with
                | join g did => exact .join cid now g did hopen
                | publish g ciphertext nonce ts =>
                    simp only [handleFrame, onPublish]
                    split
                    · exact .still (still_send r cid rfl)
                    · rename_i did hdid
                      split
                      · exact .still (still_send r cid rfl)
                      · rename_i hgroup
                        exact .publish cid now g ciphertext nonce ts did
                          ⟨hopen, by simpa using hgroup, hdid⟩
                | fetchRecent g =>
                    simp only [handleFrame, onFetchRecent]
                    split
                    · exact .still (still_send r cid rfl)
                    · rename_i hgroup
                      exact .fetch cid now g hopen (by simpa using hgroup)
                | lanAdvertise g did name candidates networks =>
                    exact .still (still_onLanAdvertise r cid g did name candidates networks)
        | binary | ping | pong => exact .still (Still.refl r)
        | close => exact .still (still_onClose r cid)
      · exact .still (Still.refl r)
  | broadcast cid =>
      dsimp only
      split
      · rename_i hopen
        exact .broadcast cid hopen (received_onBroadcast r cid)
      · exact .still (Still.refl r)
  | snapshot cid =>
      dsimp only
      split
      · exact .still (still_onSnapshot r cid)
      · exact .still (Still.refl r)
  | linkDown cid => exact .still (still_setConn rfl rfl rfl rfl List.prefix_rfl id (by simp))
  | stop cid =>
      dsimp only
      split
      · exact .still (still_onClose r cid)
      · exact .still (Still.refl r)

/-! ## Frames are never taken back -/

/-- What went out on an older connection stays out. -/
theorem sent_extends (r : Relay) (e : Event) {cid : ConnId} (hcid : cid < r.hub.connSeq) :
    (r.conns cid).sent <+: ((r.step e).conns cid).sent := by
  generalize hr' : r.step e = r'
  have heff := step_effect r e
  rw [hr'] at heff
  cases heff with
  | still hs => exact hs.sent cid
  | connect egress =>
      rw [setConn_conns_ne _ (Nat.ne_of_lt hcid)]
  | join d now g did =>
      unfold onJoin
      refine List.IsPrefix.trans ?_ ((still_send _ d rfl).sent cid)
      by_cases hd : cid = d
      · subst hd; rw [setConn_conns_self]
      · rw [setConn_conns_ne _ hd]
  | publish => exact List.prefix_rfl
  | fetch d now g => exact (quiet_fetched r d now g).sent cid
  | broadcast d _ hrecv => exact hrecv.sent cid

/-! ## Connection ids are handed out once -/

theorem connSeq_le_step (r : Relay) (e : Event) : r.hub.connSeq ≤ (r.step e).hub.connSeq := by
  generalize hr' : r.step e = r'
  have heff := step_effect r e
  rw [hr'] at heff
  cases heff with
  | still hs => exact le_of_eq hs.connSeq.symm
  | connect egress => exact Nat.le_succ _
  | join d now g did => exact le_of_eq (by simp [onJoin])
  | publish => exact le_rfl
  | fetch d now g => exact le_of_eq (quiet_fetched r d now g).connSeq.symm
  | broadcast d _ hrecv => exact le_of_eq (by rw [hrecv.hub])

/-- An open connection has an id that was handed out. -/
def OpenHandedOut (r : Relay) : Prop := ∀ cid, (r.conns cid).isOpen → cid < r.hub.connSeq

theorem openHandedOut_step (r : Relay) (e : Event) (h : OpenHandedOut r) :
    OpenHandedOut (r.step e) := by
  intro cid hopen
  generalize hr' : r.step e = r' at hopen ⊢
  have heff := step_effect r e
  rw [hr'] at heff
  cases heff with
  | still hs =>
      rw [hs.connSeq]
      exact h cid (hs.isOpen cid hopen)
  | fetch d now g =>
      have hq := quiet_fetched r d now g
      rw [hq.connSeq]
      exact h cid (hq.isOpen cid hopen)
  | connect egress =>
      by_cases hd : cid = r.hub.connSeq
      · subst hd
        exact Nat.lt_succ_self _
      · rw [setConn_conns_ne _ hd] at hopen
        exact Nat.lt_succ_of_lt (h cid hopen)
  | join d now g did hopen' =>
      have hconn : ((r.onJoin d g did).conns cid).isOpen = (r.conns cid).isOpen := by
        unfold onJoin
        by_cases hd : cid = d
        · subst hd; simp [send_conns_self]
        · rw [send_conns_ne _ hd, setConn_conns_ne _ hd]
      rw [hconn] at hopen
      simpa [onJoin] using h cid hopen
  | publish => exact h cid hopen
  | broadcast d _ hrecv =>
      rw [hrecv.isOpen] at hopen
      rw [hrecv.hub]
      exact h cid hopen

theorem openHandedOut_run (es : List Event) : OpenHandedOut (run es) :=
  Machine.invariant_run openHandedOut_step (fun cid h => by simp [init, Conn.start] at h) es

end

end ClipBridge.Relay
