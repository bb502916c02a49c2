import ClipBridge.System.World

/-!
# The order of delivery in one session

Over the relay path alone, a session gets clips live and in replies to `FetchRecent`. The first
deliveries of clips follow the relay's publish order as long as no reply is out of order with what
the relay sent on this connection or still holds for it, and no two publishes look alike.

* `InPublishOrder` — the first deliveries ascend in the relay's publish order.
* `OneSession` — the run has one session, and no LAN.
* `FetchesInOrder` — the condition on an event.
* `Ordered` — the invariant: what the relay shows is in order (`Relay.InOrder`), and what the
  worker took of it was delivered at its first showing (`Taken`).
* `inPublishOrder_run` — the result.
-/

namespace ClipBridge

open Relay (SocketAddrText Published ConnId IpAddr clipsIn channel Routed Kept InOrder FetchInOrder)

/-- The relay clip of an arrival. -/
def Arrival.clip : Arrival Published → Option Published
  | .relay p => some p
  | .lan _ => none

/-! ## What the worker makes of what it is shown -/

section

variable [Aead] [ClipJson]

/-- A clip the worker could deliver: of another device, and readable. -/
def wants (cfg : ClientConfig) (p : Published) : Bool :=
  p.clip.senderDeviceId ≠ cfg.deviceId && (openClip cfg.key p.clip).isSome

/-- Of what it has `seen`, the worker delivered exactly the clips it wants, the first time in
order, and its cache took no other key. -/
structure Taken (cfg : ClientConfig) (seen : List Published) (w : Worker Published) : Prop where
  only : ∀ a ∈ w.delivered, ∃ p ∈ seen, a = .relay p ∧ wants cfg p
  ascend : FirstsAscend (fun p q : Published => p.seq < q.seq) (w.delivered.filterMap Arrival.clip)
  all : ∀ p ∈ seen, wants cfg p → Arrival.relay p ∈ w.delivered
  recorded : ∀ e ∈ w.recorded, ∃ p ∈ seen, (Arrival.relay p).key = e.1

theorem Taken.idle {cfg : ClientConfig} {seen : List Published} {w w' : Worker Published}
    (h : Taken cfg seen w) (hw : w.Idle w') : Taken cfg seen w' := by
  refine ⟨?_, ?_, ?_, ?_⟩
  · rw [hw.delivered]; exact h.only
  · rw [hw.delivered]; exact h.ascend
  · rw [hw.delivered]; exact h.all
  · rw [hw.recorded]; exact h.recorded

/-- Two clips of a list with one key are the same. -/
def DistinctKeys (clips : List Published) : Prop :=
  ∀ p ∈ clips, ∀ q ∈ clips, (Arrival.relay p).key = (Arrival.relay q).key → p = q

/-- One more clip, in order: it is delivered if it is wanted and new. -/
theorem Taken.receive {cfg : ClientConfig} {seen : List Published} {w : Worker Published}
    (h : Taken cfg seen w) (hw : w.Valid) {p : Published}
    (hasc : FirstsAscend (fun p q : Published => p.seq < q.seq)
      ((seen ++ [p]).filter (wants cfg)))
    (hkeys : DistinctKeys (seen ++ [p])) :
    Taken cfg (seen ++ [p]) (ClipBridge.receive cfg w (.relay p)) := by
  have hrec : ∀ e ∈ (ClipBridge.receive cfg w (.relay p)).recorded,
      ∃ q ∈ seen ++ [p], (Arrival.relay q).key = e.1 := by
    have hold : ∀ e ∈ w.recorded, ∃ q ∈ seen ++ [p], (Arrival.relay q).key = e.1 := by
      intro e he
      obtain ⟨q, hq, hkey⟩ := h.recorded e he
      exact ⟨q, List.mem_append_left _ hq, hkey⟩
    have hnew : ∀ e ∈ w.recorded ++ [((Arrival.relay p).key, w.clock)],
        ∃ q ∈ seen ++ [p], (Arrival.relay q).key = e.1 := by
      intro e he
      rcases List.mem_append.1 he with he | he
      · exact hold e he
      · exact ⟨p, by simp, by rw [List.mem_singleton.1 he]⟩
    rcases (receive_cases hw (.relay p)).2 with ⟨-, -, -, hr⟩ | ⟨-, -, hr | hr⟩ <;> rw [hr]
    · exact hnew
    · exact hold
    · exact hnew
  have hwants : ∀ q : Published, wants cfg q ↔
      (Arrival.relay q).key.1 ≠ cfg.deviceId ∧ ((Arrival.relay q).payload cfg).isSome := by
    intro q
    simp [wants, Arrival.key, Arrival.payload, WireClip.wire]
  by_cases hd : Delivers cfg w (.relay p)
  · have hwant : wants cfg p := (hwants p).2 ⟨hd.foreign, hd.readable⟩
    refine ⟨?_, ?_, ?_, hrec⟩
    · rw [receive_delivered_of hw hd]
      intro a ha
      rcases List.mem_append.1 ha with ha | ha
      · obtain ⟨q, hq, hqa⟩ := h.only a ha
        exact ⟨q, List.mem_append_left _ hq, hqa⟩
      · exact ⟨p, by simp, List.mem_singleton.1 ha, hwant⟩
    · rw [receive_delivered_of hw hd, List.filterMap_append]
      refine firstsAscend_concat.2 ⟨h.ascend, ?_⟩
      by_cases hp : p ∈ seen
      · exact Or.inl (List.mem_filterMap.2 ⟨.relay p, h.all p hp hwant, rfl⟩)
      · -- A new clip is newer than every wanted clip seen, so than every clip delivered.
        rw [List.filter_append, List.filter_cons_of_pos hwant, List.filter_nil,
          firstsAscend_concat] at hasc
        refine Or.inr fun q hq => ?_
        obtain ⟨a, ha, haq⟩ := List.mem_filterMap.1 hq
        obtain ⟨q', hq', rfl, hwant'⟩ := h.only a ha
        cases haq
        exact (hasc.2.resolve_left fun hp' => hp (List.mem_filter.1 hp').1) q
          (List.mem_filter.2 ⟨hq', hwant'⟩)
    · rw [receive_delivered_of hw hd]
      intro q hq hwantq
      rcases List.mem_append.1 hq with hq | hq
      · exact List.mem_append_left _ (h.all q hq hwantq)
      · rw [List.mem_singleton.1 hq]
        exact List.mem_append_right _ (by simp)
  · refine ⟨?_, ?_, ?_, hrec⟩
    · rw [receive_delivered_of_not hw hd]
      intro a ha
      obtain ⟨q, hq, hqa⟩ := h.only a ha
      exact ⟨q, List.mem_append_left _ hq, hqa⟩
    · rw [receive_delivered_of_not hw hd]
      exact h.ascend
    · rw [receive_delivered_of_not hw hd]
      intro q hq hwantq
      rcases List.mem_append.1 hq with hq | hq
      · exact h.all q hq hwantq
      · -- A wanted clip is not delivered only if its key is remembered: it was seen before.
        rw [List.mem_singleton.1 hq] at hwantq ⊢
        obtain ⟨hforeign, hread⟩ := (hwants p).1 hwantq
        have hknows : w.Knows (Arrival.relay p).key := by
          by_contra hno
          exact hd ⟨hforeign, hno, hread⟩
        obtain ⟨i, t, hi, -⟩ := hknows
        obtain ⟨q', hq', hkey⟩ := h.recorded _ (List.mem_of_getElem? hi)
        have := hkeys q' (List.mem_append_left _ hq') p (by simp) hkey
        subst this
        exact h.all q' hq' hwantq

theorem Taken.receiveAll {cfg : ClientConfig} {seen : List Published} {w : Worker Published}
    (h : Taken cfg seen w) (hw : w.Valid) (lags : List Duration) {clips : List Published}
    (hasc : FirstsAscend (fun p q : Published => p.seq < q.seq)
      ((seen ++ clips).filter (wants cfg)))
    (hkeys : DistinctKeys (seen ++ clips)) :
    Taken cfg (seen ++ clips) (ClipBridge.receiveAll cfg w lags (clips.map .relay)) := by
  induction clips generalizing seen w lags with
  | nil => simpa [ClipBridge.receiveAll] using h
  | cons p clips ih =>
      have hsplit : seen ++ p :: clips = (seen ++ [p]) ++ clips := by simp
      rw [hsplit] at hasc hkeys ⊢
      have hwait := hw.wait (lags.headD 0)
      have hone : Taken cfg (seen ++ [p])
          (ClipBridge.receive cfg (w.wait (lags.headD 0)) (.relay p)) := by
        refine Taken.receive ?_ hwait ?_ ?_
        · exact ⟨h.only, h.ascend, h.all, h.recorded⟩
        · rw [List.filter_append] at hasc
          exact hasc.of_append
        · exact fun q hq q' hq' => hkeys q (List.mem_append_left _ hq) q'
            (List.mem_append_left _ hq')
      exact ih hone (receive_valid hwait _) lags.tail hasc hkeys

end

namespace World

/-! ## The statement -/

/-- The first deliveries of clips ascend in the relay's publish order. -/
def InPublishOrder (w : World) : Prop :=
  FirstsAscend (fun p q : Published => p.seq < q.seq) (w.worker.delivered.filterMap Arrival.clip)

/-- The event is neither a second dial nor a clip of a LAN peer. -/
def OneSession (w : World) (e : Event) : Prop :=
  (∀ egress, e = .dial egress → w.mine = []) ∧ ∀ lag c, e ≠ .lanInbound lag c

section

variable [SocketAddrText]

/-- A publish to the client's group carries a key no publish to the group had before. -/
def FreshKey (cfg : ClientConfig) (r : Relay) (f : Relay.Event) : Prop :=
  ∀ a, Relay.Publishes r f a → a.group = cfg.groupId →
    ∀ b ∈ r.accepted, b.group = cfg.groupId →
      (b.clip.senderDeviceId, b.clip.ts) ≠ (a.clip.senderDeviceId, a.clip.ts)

/-- A fresh key keeps the keys of the channel distinct. -/
theorem distinct_step {cfg : ClientConfig} {r : Relay} {f : Relay.Event}
    (h : DistinctKeys (channel r.accepted cfg.groupId)) (hfresh : FreshKey cfg r f) :
    DistinctKeys (channel (r.step f).accepted cfg.groupId) := by
  rcases Relay.accepted_step r f with hacc | ⟨a, hpub, hacc⟩
  · rw [hacc]
    exact h
  · rw [hacc, Relay.channel_concat]
    split
    · rename_i hg
      have hne : ∀ p ∈ channel r.accepted cfg.groupId,
          (p.clip.senderDeviceId, p.clip.ts) ≠ (a.clip.senderDeviceId, a.clip.ts) := by
        intro p hp
        obtain ⟨b, hb, hbg, hbc⟩ := Relay.mem_channel.1 hp
        rw [← hbc]
        exact hfresh a hpub hg b (List.mem_of_getElem? hb) hbg
      intro p hp q hq hkey
      simp only [Arrival.key, WireClip.wire] at hkey
      rcases List.mem_append.1 hp with hp | hp <;> rcases List.mem_append.1 hq with hq | hq
      · exact h p hp q hq hkey
      · rw [List.mem_singleton.1 hq] at hkey
        exact absurd hkey (hne p hp)
      · rw [List.mem_singleton.1 hp] at hkey
        exact absurd hkey.symm (hne q hq)
      · rw [List.mem_singleton.1 hp, List.mem_singleton.1 hq]
    · rw [List.append_nil]
      exact h

variable [Aead] [ClipJson]

/-- Whatever the event does at the relay, a fetch of this client that is answered is in order, and
a publish to its group carries a fresh key. -/
def FetchesInOrder (cfg : ClientConfig) (w : World) (e : Event) : Prop :=
  ∀ f, w.relayEvent e = some f →
    (∀ cid ∈ w.mine, ∀ now, f = .frame cid now (.text (.ok (.fetchRecent cfg.groupId))) →
      (w.relay.conns cid).isOpen → (w.relay.conns cid).group = some cfg.groupId →
        FetchInOrder (wants cfg) w.relay cid now cfg.groupId) ∧
    FreshKey cfg w.relay f

end

/-! ## The invariant -/

/-- The clips in the frames that the client has handled. -/
def seen (w : World) : List Published :=
  w.mine.flatMap fun cid => ((w.relay.conns cid).sent.take w.handled).flatMap clipsIn

theorem arrivals_eq_clipsIn (msg : ServerMessage Published) :
    arrivals msg = (clipsIn msg).map .relay := by
  cases msg <;> rfl

/-- A frame of the client's own connection is the first one in its outbox. -/
theorem relayEvent_frame {w : World} {e : Event} {cid : ConnId} {now : Instant}
    {msg : ClientMessage} (hcid : cid ∈ w.mine)
    (h : w.relayEvent e = some (.frame cid now (.text (.ok msg)))) :
    ∃ out ∈ w.outbox cid, out.msg = msg := by
  cases e with
  | relay f =>
      simp only [relayEvent] at h
      split at h
      · cases h
      · rename_i hmine
        cases h
        simp [framesMine, hcid] at hmine
  | dial egress =>
      simp only [relayEvent] at h
      split at h <;> cases h
  | arrive d now' =>
      simp only [relayEvent] at h
      split at h
      · obtain ⟨out, hout, hf⟩ := Option.map_eq_some_iff.1 h
        cases hf
        exact ⟨out, List.mem_of_head? hout, rfl⟩
      · cases h
  | sendClip _ _ | fetchRecent | advertise _ | handle _ | lanInbound _ _ | hangUp _ =>
      simp [relayEvent] at h

/-- A connection of the client joins its group only. -/
def JoinsGroup (cfg : ClientConfig) (outbox : List Outgoing) : Prop :=
  ∀ out ∈ outbox, ∀ g did, out.msg = .join g did → g = cfg.groupId

theorem JoinsGroup.write {cfg : ClientConfig} {w : World} {cid : ConnId} {out : Outgoing}
    (hout : ∀ g did, out.msg ≠ .join g did) {d : ConnId} (h : JoinsGroup cfg (w.outbox d)) :
    JoinsGroup cfg ((w.write cid out).outbox d) := by
  unfold World.write
  dsimp only
  by_cases hd : d = cid
  · subst hd
    rw [Function.update_self]
    intro o ho g did hmsg
    rcases List.mem_append.1 ho with ho | ho
    · exact h o ho g did hmsg
    · rw [List.mem_singleton.1 ho] at hmsg
      exact absurd hmsg (hout g did)
  · rw [Function.update_of_ne hd]
    exact h

section

variable [Aead] [ClipJson]

structure Ordered (cfg : ClientConfig) (w : World) : Prop where
  routed : Routed w.relay
  kept : Kept w.relay
  distinct : DistinctKeys (channel w.relay.accepted cfg.groupId)
  valid : w.worker.Valid
  single : w.mine.length ≤ 1
  session : ∀ cid, w.session = some cid → cid ∈ w.mine
  handedOut : ∀ cid ∈ w.mine, cid < w.relay.hub.connSeq
  shown : ∀ cid ∈ w.mine, InOrder (wants cfg) cfg.groupId cid w.relay
  handled : ∀ cid ∈ w.mine, w.handled ≤ (w.relay.conns cid).sent.length
  joins : ∀ cid ∈ w.mine, JoinsGroup cfg (w.outbox cid)
  taken : Taken cfg w.seen w.worker

theorem ordered_init (cfg : ClientConfig) : Ordered cfg init where
  routed := Relay.routed_init
  kept := Relay.kept_init
  distinct := by simp [DistinctKeys, init, Relay.init]
  valid := Worker.valid_start
  single := by simp [init]
  session cid h := by simp [init] at h
  handedOut := by simp [init]
  shown := by simp [init]
  handled := by simp [init]
  joins := by simp [init]
  taken := by
    constructor <;> simp [init, seen, Worker.start, Worker.delivered]

/-- An event that leaves the relay and what was handled alone. -/
theorem Ordered.idle {cfg : ClientConfig} {w w' : World} (h : Ordered cfg w)
    (hrelay : w'.relay = w.relay) (hmine : w'.mine = w.mine) (hhandled : w'.handled = w.handled)
    (hsession : ∀ cid, w'.session = some cid → w.session = some cid)
    (hworker : w.worker.Idle w'.worker)
    (hjoins : ∀ cid ∈ w.mine, JoinsGroup cfg (w'.outbox cid)) : Ordered cfg w' := by
  have hseen : w'.seen = w.seen := by rw [seen, hmine, hrelay, hhandled, seen]
  refine ⟨?_, ?_, ?_, h.valid.idle hworker, ?_, ?_, ?_, ?_, ?_, ?_, ?_⟩
  · rw [hrelay]; exact h.routed
  · rw [hrelay]; exact h.kept
  · rw [hrelay]; exact h.distinct
  · rw [hmine]; exact h.single
  · rw [hmine]; exact fun cid hcid => h.session cid (hsession cid hcid)
  · rw [hmine, hrelay]; exact h.handedOut
  · rw [hmine, hrelay]; exact h.shown
  · rw [hmine, hrelay, hhandled]; exact h.handled
  · rw [hmine]; exact hjoins
  · rw [hseen]; exact h.taken.idle hworker

theorem Ordered.hangUp {cfg : ClientConfig} {w : World} (h : Ordered cfg w)
    (state : ConnectionState) : Ordered cfg (w.onHangUp state) := by
  refine h.idle (onHangUp_relay w state) ?_ ?_ ?_ (onHangUp_idle w state) ?_
  all_goals
    unfold onHangUp
    split
  · rfl
  · rfl
  · rfl
  · rfl
  · exact fun cid hcid => hcid
  · exact fun cid hcid => by cases hcid
  · exact h.joins
  · exact h.joins

/-- The session handles one frame. -/
theorem Ordered.handle {cfg : ClientConfig} {w : World} (h : Ordered cfg w)
    (lags : List Duration) : Ordered cfg (w.onHandle cfg lags) := by
  unfold onHandle
  cases hnext : w.nextFrame with
  | none => exact h
  | some msg =>
      obtain ⟨cid, hcid, hget⟩ :
          ∃ cid ∈ w.mine, (w.relay.conns cid).sent[w.handled]? = some msg := by
        unfold nextFrame at hnext
        split at hnext
        · cases hnext
        · rename_i cid hsession
          exact ⟨cid, h.session cid hsession, hnext⟩
      obtain ⟨hlt, hmsg⟩ := List.getElem?_eq_some_iff.1 hget
      have hmine : w.mine = [cid] := by
        obtain ⟨pre, post, hw⟩ := List.append_of_mem hcid
        have hlen := h.single
        rw [hw, List.length_append, List.length_cons] at hlen
        rw [hw, List.eq_nil_of_length_eq_zero (l := pre) (by omega),
          List.eq_nil_of_length_eq_zero (l := post) (by omega)]
        rfl
      have hseen : w.seen = ((w.relay.conns cid).sent.take w.handled).flatMap clipsIn := by
        simp [seen, hmine]
      have hseen' : ((w.relay.conns cid).sent.take (w.handled + 1)).flatMap clipsIn =
          w.seen ++ clipsIn msg := by
        rw [hseen, List.take_add_one, hget, List.flatMap_append]
        simp
      -- What is handled now is a prefix of everything shown.
      have hshown : (w.relay.conns cid).shown = (w.seen ++ clipsIn msg) ++
          ((w.relay.conns cid).sent.drop (w.handled + 1)).flatMap clipsIn := by
        rw [← hseen', ← List.flatMap_append, List.take_append_drop]
        rfl
      have hasc := (h.shown cid hcid).ascend
      rw [hshown, List.filter_append] at hasc
      have hsub : ∀ p ∈ w.seen ++ clipsIn msg, p ∈ channel w.relay.accepted cfg.groupId :=
        fun p hp => (h.shown cid hcid).shown p (by rw [hshown]; exact List.mem_append_left _ hp)
      have htaken : Taken cfg (w.seen ++ clipsIn msg) (onFrame cfg w.worker lags msg) := by
        rcases onFrame_cases cfg w.worker lags msg with hw | ⟨hnone, hw⟩
        · rw [hw, arrivals_eq_clipsIn]
          exact h.taken.receiveAll h.valid lags hasc.of_append
            fun p hp q hq => h.distinct p (hsub p hp) q (hsub q hq)
        · rw [arrivals_eq_clipsIn, List.map_eq_nil_iff] at hnone
          rw [hnone, List.append_nil]
          exact h.taken.idle hw
      have hvalid : (onFrame cfg w.worker lags msg).Valid := by
        rcases onFrame_cases cfg w.worker lags msg with hw | ⟨-, hw⟩
        · rw [hw]
          exact receiveAll_valid _ h.valid _ _
        · exact h.valid.idle hw
      exact
        { routed := h.routed
          kept := h.kept
          distinct := h.distinct
          valid := hvalid
          single := h.single
          session := h.session
          handedOut := h.handedOut
          shown := h.shown
          handled := by
            intro d hd
            rw [hmine, List.mem_singleton] at hd
            rw [hd]
            exact hlt
          joins := h.joins
          taken := by
            simp only [seen, hmine, List.flatMap_cons, List.flatMap_nil, List.append_nil]
            rw [hseen']
            exact htaken }

variable [SocketAddrText]

/-- An event that is event `f` for the relay and nothing for the worker. -/
theorem Ordered.relayed {cfg : ClientConfig} {w w' : World} (h : Ordered cfg w) {f : Relay.Event}
    (hrelay : w'.relay = w.relay.step f) (hmine : w'.mine = w.mine)
    (hhandled : w'.handled = w.handled) (hsession : w'.session = w.session)
    (hworker : w'.worker = w.worker)
    (hjoins : ∀ cid ∈ w.mine, JoinsGroup cfg (w'.outbox cid))
    (hjoin : ∀ cid ∈ w.mine, ∀ now g did,
      f = .frame cid now (.text (.ok (.join g did))) → g = cfg.groupId)
    (hfetch : ∀ cid ∈ w.mine, ∀ now, f = .frame cid now (.text (.ok (.fetchRecent cfg.groupId))) →
      (w.relay.conns cid).isOpen → (w.relay.conns cid).group = some cfg.groupId →
        FetchInOrder (wants cfg) w.relay cid now cfg.groupId)
    (hfresh : FreshKey cfg w.relay f) : Ordered cfg w' := by
  have hsent : ∀ cid ∈ w.mine, (w.relay.conns cid).sent <+: (w'.relay.conns cid).sent := by
    intro cid hcid
    rw [hrelay]
    exact Relay.sent_extends w.relay f (h.handedOut cid hcid)
  -- What was handled is a prefix of what was sent, then and now.
  have hseen : w'.seen = w.seen := by
    unfold seen
    rw [hmine, hhandled]
    refine List.flatMap_congr fun cid hcid => ?_
    obtain ⟨more, hmore⟩ := hsent cid hcid
    rw [← hmore, List.take_append_of_le_length (h.handled cid hcid)]
  refine ⟨?_, ?_, ?_, ?_, ?_, ?_, ?_, ?_, ?_, ?_, ?_⟩
  · rw [hrelay]; exact Relay.routed_step _ _ h.routed
  · rw [hrelay]; exact Relay.kept_step _ _ h.kept
  · rw [hrelay]; exact distinct_step h.distinct hfresh
  · rw [hworker]; exact h.valid
  · rw [hmine]; exact h.single
  · rw [hmine, hsession]; exact h.session
  · rw [hmine, hrelay]
    exact fun cid hcid => lt_of_lt_of_le (h.handedOut cid hcid) (Relay.connSeq_le_step _ _)
  · rw [hmine, hrelay]
    exact fun cid hcid => Relay.inOrder_step w.relay f h.routed h.kept (h.shown cid hcid)
      (h.handedOut cid hcid) (hjoin cid hcid) (hfetch cid hcid)
  · rw [hmine, hhandled]
    exact fun cid hcid => le_trans (h.handled cid hcid) (hsent cid hcid).length_le
  · rw [hmine]; exact hjoins
  · rw [hseen, hworker]; exact h.taken

/-- The first dial. -/
theorem Ordered.dial {cfg : ClientConfig} {w : World} (h : Ordered cfg w) (hmine : w.mine = [])
    (egress : IpAddr) : Ordered cfg (w.onDial cfg egress) := by
  unfold onDial
  cases hsession : w.session with
  | some cid => exact h
  | none =>
      have hconn : ((w.relay.step (.connect egress)).conns w.relay.hub.connSeq) =
          Relay.Conn.start egress := Relay.setConn_conns_self _ _ _
      have hworker : w.worker.Idle
          (({ w.worker with
            lanAdvertiseErrorPending := false
            lanAdvertiseDisabled := false }.note (.onState .connecting)).note
              (.onState .connected)) :=
        ⟨rfl, rfl, rfl, [.onState .connecting, .onState .connected], by simp [Worker.note],
          by simp⟩
      have htaken := h.taken.idle hworker
      simp only [seen, hmine, List.flatMap_nil] at htaken
      dsimp only
      refine
        { routed := Relay.routed_step _ _ h.routed
          kept := Relay.kept_step _ _ h.kept
          distinct := h.distinct
          valid := h.valid.idle hworker
          single := by simp [hmine]
          session := by simp [hmine]
          handedOut := ?_
          shown := ?_
          handled := by simp
          joins := ?_
          taken := by simpa [seen, hmine] using htaken }
      · intro cid hcid
        rw [hmine, List.mem_singleton] at hcid
        rw [hcid]
        exact Nat.lt_succ_self _
      · intro cid hcid
        rw [hmine, List.mem_singleton] at hcid
        rw [hcid]
        exact Relay.inOrder_start hconn
      · intro cid hcid
        rw [hmine, List.mem_singleton] at hcid
        rw [hcid]
        dsimp only
        rw [Function.update_self]
        intro out hout g did hmsg
        rcases List.mem_cons.1 hout with rfl | hout
        · cases hmsg
          rfl
        · rw [List.mem_singleton.1 hout] at hmsg
          cases hmsg

/-- **Every event of one session whose fetches are in order keeps the invariant.** -/
theorem ordered_step (cfg : ClientConfig) (w : World) (e : Event)
    (hP : OneSession w e ∧ FetchesInOrder cfg w e) (h : Ordered cfg w) :
    Ordered cfg (step cfg w e) := by
  obtain ⟨⟨hdial, hlan⟩, hfetches⟩ := hP
  -- What the event is for the relay meets the hypotheses of `Ordered.relayed`.
  have hrelayed : ∀ (w' : World) (f : Relay.Event), w.relayEvent e = some f →
      w'.relay = w.relay.step f → w'.mine = w.mine → w'.handled = w.handled →
      w'.session = w.session → w'.worker = w.worker →
      (∀ cid ∈ w.mine, JoinsGroup cfg (w'.outbox cid)) → Ordered cfg w' := by
    intro w' f hf hrelay hmine hhandled hsession hworker hjoins
    refine h.relayed hrelay hmine hhandled hsession hworker hjoins ?_ (hfetches f hf).1
      (hfetches f hf).2
    rintro cid hcid now g did rfl
    obtain ⟨out, hout, hmsg⟩ := relayEvent_frame hcid hf
    exact h.joins cid hcid out hout g did hmsg
  cases e with
  | relay f =>
      simp only [step]
      split
      · exact h
      · rename_i hmine
        exact hrelayed _ f (by simp [relayEvent, hmine]) rfl rfl rfl rfl rfl h.joins
  | dial egress => exact h.dial (hdial egress rfl) egress
  | sendClip payload nonce =>
      simp only [step, onSendClip]
      cases hs : w.session with
      | none => exact h
      | some cid =>
          dsimp only
          split
          · exact h.hangUp _
          · refine h.idle rfl rfl rfl (fun d hd => hd) (Worker.idle_note (by simp)) ?_
            exact fun d hd => (h.joins d hd).write (by simp)
  | fetchRecent =>
      simp only [step, onFetchRecent]
      split
      · exact h
      · refine h.idle rfl rfl rfl (fun d hd => hd) (Worker.idle_refl _) ?_
        exact fun d hd => (h.joins d hd).write (by simp)
  | advertise candidateNetworks =>
      simp only [step, onAdvertise]
      split
      · exact h
      · split
        · exact h
        · refine h.idle rfl rfl rfl (fun d hd => hd) ⟨rfl, rfl, rfl, [], by simp, by simp⟩ ?_
          exact fun d hd => (h.joins d hd).write (by simp)
  | arrive cid now =>
      simp only [step, onArrive]
      split
      · rename_i hcid
        cases hout : w.outbox cid with
        | nil => exact h
        | cons out rest =>
            refine hrelayed _ (.frame cid now (.text (.ok out.msg)))
              (by simp [relayEvent, hcid, hout]) rfl rfl rfl rfl rfl fun d hd => ?_
            dsimp only
            by_cases hd' : d = cid
            · subst hd'
              rw [Function.update_self]
              intro o ho
              exact h.joins d hd o (by rw [hout]; exact List.mem_cons_of_mem _ ho)
            · rw [Function.update_of_ne hd']
              exact h.joins d hd
      · exact h
  | handle lags => exact h.handle lags
  | lanInbound lag c => exact absurd rfl (hlan lag c)
  | hangUp state => exact h.hangUp state

/-- **In a run of one session whose fetches are in order, clips are first delivered in the order
the relay accepted them.** -/
theorem inPublishOrder_run (cfg : ClientConfig) (es : List Event)
    (hone : Machine.Along (step cfg) OneSession init es)
    (hfetches : Machine.Along (step cfg) (FetchesInOrder cfg) init es) :
    (run cfg es).InPublishOrder := by
  have hboth : Machine.Along (step cfg) (fun w e => OneSession w e ∧ FetchesInOrder cfg w e)
      init es := Machine.along_and.2 ⟨hone, hfetches⟩
  exact (Machine.invariant_along (ordered_step cfg) (ordered_init cfg) hboth).taken.ascend

end

/-- Whether an event is ruled out in a run of one session, given that it was dialled or not. -/
def leavesSession (dialled : Bool) : Event → Bool
  | .dial _ => dialled
  | .lanInbound _ _ => true
  | _ => false

theorem oneSession_of_first {w : World} {e : Event}
    (h : leavesSession (!w.mine.isEmpty) e = false) : OneSession w e := by
  refine ⟨?_, ?_⟩
  · rintro egress rfl
    simpa [leavesSession] using h
  · rintro lag c rfl
    simp [leavesSession] at h

/-- Whether an event of the relay is a fetch in order or a publish with a new time, or neither a
fetch nor a publish. -/
def fetchesInOrder [Aead] [ClipJson] (cfg : ClientConfig) (r : Relay) : Relay.Event → Bool
  | .frame cid now (.text (.ok (.fetchRecent _))) =>
      decide (FetchInOrder (wants cfg) r cid now cfg.groupId)
  | .frame _ _ (.text (.ok (.publish _ _ _ ts))) => r.accepted.all (·.clip.ts ≠ ts)
  | _ => true

theorem fetchesInOrder_of_all [SocketAddrText] [Aead] [ClipJson] {cfg : ClientConfig} {w : World}
    {e : Event} (h : (w.relayEvent e).all (fetchesInOrder cfg w.relay)) :
    FetchesInOrder cfg w e := by
  intro f hf
  rw [hf, Option.all_some] at h
  refine ⟨?_, ?_⟩
  · rintro cid - now rfl - -
    exact of_decide_eq_true h
  · rintro a ⟨⟨now, rfl⟩, -⟩ - b hb - hkey
    have := List.all_eq_true.1 h b hb
    simp [(Prod.mk.inj hkey).2] at this

/-- Four clips are published between the join and the fetch of a session: the reply has room for
the last three, and the first comes after them. -/
def fetchOvertakes : List Event :=
  pcJoins 1 ++ [.dial (.v4 0x0a000002), .arrive 2 0] ++
    [pcPublishes 1 65 1, pcPublishes 1 66 2, pcPublishes 1 67 3, pcPublishes 1 68 4] ++
    [.arrive 2 0, .handle [], .handle [], .relay (.broadcast 2), .handle []]

theorem fetchOvertakes_not_inPublishOrder :
    ¬ (@run noAddrText clearAead textJson sampleConfig fetchOvertakes).InPublishOrder := by
  have hdelivered : (@run noAddrText clearAead textJson sampleConfig
      fetchOvertakes).worker.delivered.filterMap Arrival.clip =
      [pcClip 1 66 2, pcClip 2 67 3, pcClip 3 68 4, pcClip 0 65 1] := by decide
  intro h
  unfold InPublishOrder at h
  rw [hdelivered] at h
  exact absurd (h [pcClip 1 66 2, pcClip 2 67 3, pcClip 3 68 4] (pcClip 0 65 1) [] rfl) (by decide)

/-- Two clips are fetched when the session opens; two more come live, and the answer to another
fetch overtakes the last of them, which it holds. -/
def fetchesTwice : List Event :=
  pcJoins 1 ++ [pcPublishes 1 65 1, pcPublishes 1 66 2] ++ opens 2 0 0 ++
    [pcPublishes 1 67 3, .relay (.broadcast 2), .handle [], .fetchRecent, pcPublishes 1 68 4,
     .arrive 2 0, .handle [], .relay (.broadcast 2), .handle []]

theorem fetchesTwice_inPublishOrder :
    (@run noAddrText clearAead textJson sampleConfig fetchesTwice).InPublishOrder ∧
    (@run noAddrText clearAead textJson sampleConfig fetchesTwice).worker.delivered.filterMap
      Arrival.clip = [pcClip 0 65 1, pcClip 1 66 2, pcClip 2 67 3, pcClip 3 68 4] := by
  let _ := noAddrText
  let _ := clearAead
  let _ := textJson
  refine ⟨inPublishOrder_run sampleConfig fetchesTwice ?_ ?_, by decide +kernel⟩
  · exact Machine.along_mono (fun _ _ => oneSession_of_first)
      (show Machine.Along (step sampleConfig)
        (fun w e => leavesSession (!w.mine.isEmpty) e = false) init fetchesTwice by decide +kernel)
  · exact Machine.along_mono (fun _ _ => fetchesInOrder_of_all)
      (show Machine.Along (step sampleConfig)
        (fun w e => (w.relayEvent e).all (fetchesInOrder sampleConfig w.relay)) init
        fetchesTwice by decide +kernel)

end World

end ClipBridge
