import ClipBridge.Relay.Effects
import Mathlib.Data.List.Pairwise
import Mathlib.Tactic.ByContra

/-!
# Routing: which clips reach which connection

Every clip frame a connection gets stems from one accepted publish to the group the connection is
joined to, under another device id; the frames come in publish order without repeats; and between
a join and the next one nothing is skipped before a later clip is sent, unless the receiver fell
more than `broadcastCap` behind.

* `channel` — what a group's broadcast channel holds, read off the publish history.
* `Conn.Routed` — the invariant of one connection, kept by every event (`routed_step`).
* `Routing` — the statement about a run, and `routing` its proof.
-/

namespace ClipBridge.Relay

open Broadcast (Receiver Recv)

/-! ## The channel of a group, from the history -/

/-- The accepted publishes to group `g`, numbered, in order. -/
def channel (acc : List Accepted) (g : GroupId) : List Published :=
  acc.zipIdx.filterMap fun p => if p.1.group = g then some ⟨p.2, p.1.clip⟩ else none

@[simp] theorem channel_nil (g : GroupId) : channel [] g = [] := rfl

theorem channel_concat (acc : List Accepted) (a : Accepted) (g : GroupId) :
    channel (acc ++ [a]) g =
      channel acc g ++ if a.group = g then [⟨acc.length, a.clip⟩] else [] := by
  by_cases hg : a.group = g <;> simp [channel, List.zipIdx_append, hg]

theorem mem_channel {acc : List Accepted} {g : GroupId} {p : Published} :
    p ∈ channel acc g ↔ ∃ a, acc[p.seq]? = some a ∧ a.group = g ∧ a.clip = p.clip := by
  simp only [channel, List.mem_filterMap, Prod.exists, List.mem_zipIdx_iff_getElem?]
  constructor
  · rintro ⟨a, n, hn, h⟩
    split at h
    · rename_i hg
      cases h
      exact ⟨a, hn, hg, rfl⟩
    · cases h
  · rintro ⟨a, hn, hg, hclip⟩
    exact ⟨a, p.seq, hn, by rw [if_pos hg, hclip]⟩

theorem seq_lt_of_mem_channel {acc : List Accepted} {g : GroupId} {p : Published}
    (h : p ∈ channel acc g) : p.seq < acc.length := by
  obtain ⟨a, ha, -⟩ := mem_channel.1 h
  exact (List.getElem?_eq_some_iff.1 ha).1

/-- A channel holds its clips in publish order. -/
theorem channel_sorted (acc : List Accepted) (g : GroupId) :
    (channel acc g).Pairwise (·.seq < ·.seq) := by
  induction acc using List.reverseRecOn with
  | nil => simp
  | append_singleton acc a ih =>
      rw [channel_concat, List.pairwise_append]
      refine ⟨ih, by split <;> simp, fun p hp q hq => ?_⟩
      split at hq
      · rw [List.mem_singleton.1 hq]
        exact seq_lt_of_mem_channel hp
      · simp at hq

theorem channel_getElem?_of_lt {acc : List Accepted} (a : Accepted) {g : GroupId} {i : Nat}
    (hi : i < (channel acc g).length) : (channel (acc ++ [a]) g)[i]? = (channel acc g)[i]? := by
  rw [channel_concat, List.getElem?_append_left hi]

/-- A place in a channel is determined by the number of the clip found there. -/
theorem channel_index_le {acc : List Accepted} {g : GroupId} {i j : Nat} {p q : Published}
    (hi : (channel acc g)[i]? = some p) (hj : (channel acc g)[j]? = some q)
    (h : p.seq ≤ q.seq) : i ≤ j := by
  by_contra hlt
  obtain ⟨hi', rfl⟩ := List.getElem?_eq_some_iff.1 hi
  obtain ⟨hj', rfl⟩ := List.getElem?_eq_some_iff.1 hj
  have := List.pairwise_iff_getElem.1 (channel_sorted acc g) j i hj' hi' (by omega)
  omega

/-- Two clips of a channel with one number are the same. -/
theorem eq_of_seq_eq {acc : List Accepted} {g : GroupId} {p q : Published}
    (hp : p ∈ channel acc g) (hq : q ∈ channel acc g) (h : p.seq = q.seq) : p = q := by
  obtain ⟨a, ha, -, hpa⟩ := mem_channel.1 hp
  obtain ⟨b, hb, -, hqb⟩ := mem_channel.1 hq
  obtain ⟨n, clip⟩ := p
  obtain ⟨n', clip'⟩ := q
  obtain rfl : n = n' := h
  rw [ha, Option.some.injEq] at hb
  simp only at hpa hqb
  rw [← hpa, ← hqb, hb]

/-! ## The invariant of one connection -/

/-- What holds of a connection once the history is `acc`. -/
structure Conn.Routed (acc : List Accepted) (c : Conn) : Prop where
  joined : c.rx.map (·.1) = c.group
  identified : c.deviceId.isSome = c.group.isSome
  place : ∀ g rx, c.rx = some (g, rx) →
    rx.start ≤ rx.next ∧ rx.next ≤ (channel acc g).length
  known : ∀ m ∈ c.clips, m.seq < acc.length
  ordered : c.clips.Pairwise (·.seq < ·.seq)
  /-- Everything still to be received is newer than everything sent. -/
  ahead : ∀ g rx, c.rx = some (g, rx) →
    ∀ m ∈ c.clips, ∀ p ∈ (channel acc g).drop rx.next, m.seq < p.seq
  /-- While the link is up, what was received was sent on. -/
  caughtUp : ∀ g rx, c.rx = some (g, rx) → rx.missed = 0 → c.linkUp →
    ∀ i p, rx.start ≤ i → i < rx.next → (channel acc g)[i]? = some p →
      some p.clip.senderDeviceId = c.deviceId ∨ p ∈ c.clips
  /-- Up to a clip that was sent, nothing is missing. -/
  noGap : ∀ g rx, c.rx = some (g, rx) → rx.missed = 0 →
    ∀ i j p q, rx.start ≤ i → i ≤ j → (channel acc g)[i]? = some p →
      (channel acc g)[j]? = some q → q ∈ c.clips →
      some p.clip.senderDeviceId = c.deviceId ∨ p ∈ c.clips

/-- The hub's channels hold what the history says, and every connection is routed. -/
structure Routed (r : Relay) : Prop where
  tx : ∀ g, (r.hub.entry g).tx = channel r.accepted g
  conn : ∀ cid, (r.conns cid).Routed r.accepted

theorem Conn.routed_start (acc : List Accepted) (egress : IpAddr) (isOpen : Bool) :
    ({ Conn.start egress with isOpen := isOpen } : Conn).Routed acc := by
  constructor <;> simp [Conn.start, Conn.clips]

/-- The invariant reads the five variables of a connection that a quiet event keeps. -/
theorem Conn.Routed.congr {acc : List Accepted} {c c' : Conn} (h : c.Routed acc)
    (hrx : c'.rx = c.rx) (hgroup : c'.group = c.group) (hdid : c'.deviceId = c.deviceId)
    (hclips : c'.clips = c.clips) (hup : c'.linkUp → c.linkUp) : c'.Routed acc where
  joined := by rw [hrx, hgroup]; exact h.joined
  identified := by rw [hdid, hgroup]; exact h.identified
  place g rx hc := h.place g rx (hrx ▸ hc)
  known := by rw [hclips]; exact h.known
  ordered := by rw [hclips]; exact h.ordered
  ahead g rx hc := by rw [hclips]; exact h.ahead g rx (hrx ▸ hc)
  caughtUp g rx hc hm hl := by
    rw [hclips, hdid]; exact h.caughtUp g rx (hrx ▸ hc) hm (hup hl)
  noGap g rx hc hm := by rw [hclips, hdid]; exact h.noGap g rx (hrx ▸ hc) hm

/-- One more accepted publish leaves every connection routed: its clip is newer than all. -/
theorem Conn.Routed.publish {acc : List Accepted} {c : Conn} (h : c.Routed acc) (a : Accepted) :
    c.Routed (acc ++ [a]) where
  joined := h.joined
  identified := h.identified
  place g rx hc := by
    obtain ⟨h1, h2⟩ := h.place g rx hc
    refine ⟨h1, le_trans h2 ?_⟩
    rw [channel_concat, List.length_append]
    exact Nat.le_add_right _ _
  known m hm := by
    have := h.known m hm
    simp only [List.length_append, List.length_singleton]
    omega
  ordered := h.ordered
  ahead g rx hc m hm p hp := by
    rw [channel_concat, List.drop_append_of_le_length (h.place g rx hc).2,
      List.mem_append] at hp
    rcases hp with hp | hp
    · exact h.ahead g rx hc m hm p hp
    · split at hp
      · rw [List.mem_singleton.1 hp]
        exact h.known m hm
      · simp at hp
  caughtUp g rx hc hm hl i p hi hlt hp := by
    rw [channel_getElem?_of_lt a (by have := (h.place g rx hc).2; omega)] at hp
    exact h.caughtUp g rx hc hm hl i p hi hlt hp
  noGap g rx hc hm i j p q hi hij hp hq hsent := by
    -- `q` was sent, so it is not the new clip, and both places are old ones.
    have hj : j < (channel acc g).length := by
      by_contra hge
      have hseq := h.known q hsent
      rw [channel_concat, List.getElem?_append_right (by omega)] at hq
      split at hq
      · rw [List.getElem?_singleton] at hq
        split at hq
        · cases hq
          exact absurd hseq (lt_irrefl _)
        · cases hq
      · simp at hq
    rw [channel_getElem?_of_lt a (by omega)] at hp
    rw [channel_getElem?_of_lt a hj] at hq
    exact h.noGap g rx hc hm i j p q hi hij hp hq hsent

/-- A new subscription starts at the end of its channel, with nothing received or lost. -/
theorem Conn.Routed.join {acc : List Accepted} {c : Conn} (h : c.Routed acc) (g : GroupId)
    (did : DeviceId) :
    ({ c with
        rx := some (g, Broadcast.subscribe (channel acc g))
        deviceId := some did, group := some g } : Conn).Routed acc where
  joined := rfl
  identified := rfl
  place g' rx hc := by cases hc; exact ⟨le_rfl, le_rfl⟩
  known := h.known
  ordered := h.ordered
  ahead g' rx hc m hm p hp := by
    cases hc
    simp [Broadcast.subscribe] at hp
  caughtUp g' rx hc hm hl i p hi hlt := by
    cases hc
    simp only [Broadcast.subscribe] at hi hlt
    omega
  noGap g' rx hc hm i j p q hi hij hp := by
    cases hc
    simp only [Broadcast.subscribe] at hi
    rw [List.getElem?_eq_none (by omega)] at hp
    cases hp

/-- The connection after it was told that it lost values. -/
theorem Conn.Routed.lagged {acc : List Accepted} {c : Conn} (h : c.Routed acc) {g : GroupId}
    {rx : Receiver} (hrx : c.rx = some (g, rx))
    (hlag : broadcastCap < rx.backlog (channel acc g)) :
    ({ c with rx := some (g,
        { rx with next := rx.next + (rx.backlog (channel acc g) - broadcastCap),
                  missed := rx.missed + (rx.backlog (channel acc g) - broadcastCap) }) } :
      Conn).Routed acc where
  joined := by rw [← h.joined, hrx]; rfl
  identified := h.identified
  place g' rx' hc := by
    cases hc
    obtain ⟨h1, h2⟩ := h.place g rx hrx
    simp only [Receiver.backlog] at hlag ⊢
    omega
  known := h.known
  ordered := h.ordered
  ahead g' rx' hc m hm p hp := by
    cases hc
    refine h.ahead g rx hrx m hm p ?_
    rw [← List.drop_drop] at hp
    exact List.mem_of_mem_drop hp
  caughtUp g' rx' hc hm := by
    cases hc
    simp only at hm
    omega
  noGap g' rx' hc hm := by
    cases hc
    simp only at hm
    omega

/-- A value just read from the channel is newer than every clip sent. -/
theorem Conn.Routed.older {acc : List Accepted} {c : Conn} (h : c.Routed acc) {g : GroupId}
    {rx : Receiver} {m : Published} (hrx : c.rx = some (g, rx))
    (hm : (channel acc g)[rx.next]? = some m) : ∀ p ∈ c.clips, p.seq < m.seq := by
  intro p hp
  refine h.ahead g rx hrx p hp m ?_
  obtain ⟨hi, rfl⟩ := List.getElem?_eq_some_iff.1 hm
  rw [List.drop_eq_getElem_cons hi]
  exact List.mem_cons_self

/-- The connection after it read a value that it does not send on: the value came from this very
device, or the link is down. -/
theorem Conn.Routed.skip {acc : List Accepted} {c : Conn} (h : c.Routed acc) {g : GroupId}
    {rx : Receiver} {m : Published} (hrx : c.rx = some (g, rx))
    (hm : (channel acc g)[rx.next]? = some m)
    (hskip : some m.clip.senderDeviceId = c.deviceId ∨ ¬ c.linkUp) :
    ({ c with rx := some (g, { rx with next := rx.next + 1 }) } : Conn).Routed acc where
  joined := by rw [← h.joined, hrx]; rfl
  identified := h.identified
  place g' rx' hc := by
    cases hc
    exact ⟨le_trans (h.place g rx hrx).1 (Nat.le_succ _), (List.getElem?_eq_some_iff.1 hm).1⟩
  known := h.known
  ordered := h.ordered
  ahead g' rx' hc p hp q hq := by
    cases hc
    rw [← List.drop_drop] at hq
    exact h.ahead g rx hrx p hp q (List.mem_of_mem_drop hq)
  caughtUp g' rx' hc hmiss hup i p hi hlt hp := by
    cases hc
    rcases Nat.lt_succ_iff_lt_or_eq.1 hlt with hlt | rfl
    · exact h.caughtUp g rx hrx hmiss hup i p hi hlt hp
    · rw [hm] at hp
      cases hp
      exact Or.inl (hskip.resolve_right (not_not_intro hup))
  noGap g' rx' hc hmiss i j p q hi hij hp hq hsent := by
    cases hc
    exact h.noGap g rx hrx hmiss i j p q hi hij hp hq hsent

/-- The connection after it read a value and sent it on. -/
theorem Conn.Routed.forward {acc : List Accepted} {c : Conn} (h : c.Routed acc) {g : GroupId}
    {rx : Receiver} {m : Published} (hrx : c.rx = some (g, rx))
    (hm : (channel acc g)[rx.next]? = some m) (hup : c.linkUp) :
    ({ c with
        rx := some (g, { rx with next := rx.next + 1 })
        sent := c.sent ++ [.clip m] } : Conn).Routed acc := by
  have hclips : ({ c with
      rx := some (g, { rx with next := rx.next + 1 })
      sent := c.sent ++ [.clip m] } : Conn).clips = c.clips ++ [m] := by
    simp [Conn.clips, clipOf]
  have hmem : m ∈ channel acc g := List.mem_of_getElem? hm
  -- What is caught up with `next` is caught up with `next + 1`.
  have hcaught : rx.missed = 0 → ∀ i p, rx.start ≤ i → i < rx.next + 1 →
      (channel acc g)[i]? = some p →
        some p.clip.senderDeviceId = c.deviceId ∨ p ∈ c.clips ++ [m] := by
    intro hmiss i p hi hlt hp
    rcases Nat.lt_succ_iff_lt_or_eq.1 hlt with hlt | rfl
    · exact (h.caughtUp g rx hrx hmiss hup i p hi hlt hp).imp_right (List.mem_append_left _)
    · rw [hm] at hp
      cases hp
      exact Or.inr (by simp)
  constructor
  case joined => rw [← h.joined, hrx]; rfl
  case identified => exact h.identified
  case place =>
    intro g' rx' hc
    cases hc
    exact ⟨le_trans (h.place g rx hrx).1 (Nat.le_succ _), (List.getElem?_eq_some_iff.1 hm).1⟩
  case known =>
    intro p hp
    rw [hclips, List.mem_append, List.mem_singleton] at hp
    rcases hp with hp | rfl
    · exact h.known p hp
    · exact seq_lt_of_mem_channel hmem
  case ordered =>
    rw [hclips, List.pairwise_append]
    refine ⟨h.ordered, by simp, fun p hp q hq => ?_⟩
    rw [List.mem_singleton.1 hq]
    exact h.older hrx hm p hp
  case ahead =>
    intro g' rx' hc p hp q hq
    cases hc
    rw [hclips, List.mem_append, List.mem_singleton] at hp
    rcases hp with hp | rfl
    · rw [← List.drop_drop] at hq
      exact h.ahead g rx hrx p hp q (List.mem_of_mem_drop hq)
    · obtain ⟨hi, hpi⟩ := List.getElem?_eq_some_iff.1 hm
      have hsort := (channel_sorted acc g).drop (i := rx.next)
      rw [List.drop_eq_getElem_cons hi, hpi, List.pairwise_cons] at hsort
      exact hsort.1 q hq
  case caughtUp =>
    intro g' rx' hc hmiss _ i p hi hlt hp
    cases hc
    rw [hclips]
    exact hcaught hmiss i p hi hlt hp
  case noGap =>
    intro g' rx' hc hmiss i j p q hi hij hp hq hsent
    cases hc
    rw [hclips] at hsent ⊢
    rcases List.mem_append.1 hsent with hsent | hsent
    · exact (h.noGap g rx hrx hmiss i j p q hi hij hp hq hsent).imp_right
        (List.mem_append_left _)
    · -- The clip just sent ends the gap-free part: `i` is at most its place.
      cases List.mem_singleton.1 hsent
      have hj : j ≤ rx.next := channel_index_le hq hm le_rfl
      exact hcaught hmiss i p hi (by omega) hp

/-! ## Every event keeps the invariant -/

theorem routed_init : Routed init where
  tx _ := rfl
  conn _ := Conn.routed_start [] _ false

theorem Routed.quiet {r r' : Relay} (h : Routed r) (hq : Quiet r r') : Routed r' where
  tx g := by rw [hq.tx, hq.accepted]; exact h.tx g
  conn cid := by
    rw [hq.accepted]
    exact (h.conn cid).congr (hq.rx cid) (hq.group cid) (hq.deviceId cid) (hq.clips cid)
      (hq.linkUp cid)

/-- Rewriting one connection keeps the invariant if the new one is routed. -/
theorem Routed.setConn {r : Relay} (h : Routed r) {cid : ConnId} {c : Conn}
    (hc : c.Routed r.accepted) : Routed (r.setConn cid c) where
  tx := h.tx
  conn d := by
    by_cases hd : d = cid
    · subst hd; rw [setConn_conns_self]; exact hc
    · rw [setConn_conns_ne r hd]; exact h.conn d

theorem publish_tx (hub : Hub Published) (now : Instant) (g g' : GroupId) (m : Published) :
    ((hub.publish now g m).entry g').tx =
      (hub.entry g').tx ++ if g = g' then [m] else [] := by
  unfold Hub.publish
  by_cases hg : g' = g
  · subst hg; simp
  · rw [hub.entry_set_ne hg, if_neg (Ne.symm hg), List.append_nil]

theorem Routed.received {r r' : Relay} (h : Routed r) {cid : ConnId} (hr : Received r cid r') :
    Routed r' := by
  cases hr with
  | idle => exact h
  | lagged hrx hlag =>
      rw [h.tx] at hlag ⊢
      exact h.setConn ((h.conn cid).lagged hrx hlag)
  | skip hrx hm hskip =>
      rw [h.tx] at hm
      exact h.setConn ((h.conn cid).skip hrx hm hskip)
  | forward hrx hm _ hup =>
      rw [h.tx] at hm
      exact h.setConn ((h.conn cid).forward hrx hm hup)

/-- A clip that goes out to a connection in one receive is in its channel, and from another
device. -/
theorem Received.new_clip {r r' : Relay} {cid d : ConnId} (hr : Received r cid r')
    {m : Published} (hnew : m ∈ (r'.conns d).clips) (hold : m ∉ (r.conns d).clips) :
    d = cid ∧ some m.clip.senderDeviceId ≠ (r.conns cid).deviceId ∧
      ∃ g rx, (r.conns cid).rx = some (g, rx) ∧ m ∈ (r.hub.entry g).tx := by
  by_cases hd : d = cid
  · subst hd
    refine ⟨rfl, ?_⟩
    cases hr with
    | idle => exact absurd hnew hold
    | lagged => rw [setConn_conns_self] at hnew; exact absurd hnew hold
    | skip => rw [setConn_conns_self] at hnew; exact absurd hnew hold
    | @forward g rx m' hrx hm hother hup =>
        rw [setConn_conns_self] at hnew
        simp only [Conn.clips, List.filterMap_append, List.mem_append] at hnew
        rcases hnew with hnew | hnew
        · exact absurd hnew hold
        · obtain rfl : m = m' := by simpa [clipOf] using hnew
          exact ⟨hother, g, rx, hrx, List.mem_of_getElem? hm⟩
  · cases hr with
    | idle => exact absurd hnew hold
    | lagged => rw [setConn_conns_ne r hd] at hnew; exact absurd hnew hold
    | skip => rw [setConn_conns_ne r hd] at hnew; exact absurd hnew hold
    | forward => rw [setConn_conns_ne r hd] at hnew; exact absurd hnew hold

section

variable [SocketAddrText]

/-- **One event keeps the routing invariant.** -/
theorem routed_step (r : Relay) (e : Event) (h : Routed r) : Routed (r.step e) := by
  generalize hr' : r.step e = r'
  have heff := step_effect r e
  rw [hr'] at heff
  cases heff with
  | still hs => exact h.quiet hs.toQuiet
  | fetch cid now g => exact h.quiet (quiet_fetched r cid now g)
  | connect egress =>
      refine Routed.setConn ?_ (Conn.routed_start r.accepted egress true)
      exact ⟨h.tx, h.conn⟩
  | join cid _ g did =>
      unfold onJoin
      refine Routed.quiet ?_ (still_send _ cid rfl).toQuiet
      refine h.setConn ?_
      rw [Hub.subscribe, h.tx]
      exact (h.conn cid).join g did
  | publish _ now g ciphertext nonce ts did _ =>
      refine ⟨fun g' => ?_, fun d => (h.conn d).publish _⟩
      rw [publish_tx, channel_concat, h.tx]
  | broadcast cid _ hr => exact h.received hr

theorem routed_run (es : List Event) : Routed (run es) :=
  Machine.invariant_run routed_step routed_init es

/-! ## The publish history, from the events -/

/-- Event `e`, taken in state `r`, is the publish `a`: a `Publish` frame of an open connection,
to the group and under the device id it is joined with. -/
def Publishes (r : Relay) (e : Event) (a : Accepted) : Prop :=
  (∃ now, e = .frame a.conn now
    (.text (.ok (.publish a.group a.clip.ciphertext a.clip.nonce a.clip.ts)))) ∧
  r.JoinedAs a.conn a.group a.clip.senderDeviceId

theorem accepted_of_publishes {r : Relay} {e : Event} {a : Accepted} (h : Publishes r e a) :
    (r.step e).accepted = r.accepted ++ [a] := by
  obtain ⟨⟨now, rfl⟩, hopen, hgroup, hdid⟩ := h
  simp [step, act, handleFrame, onPublish, hopen, hgroup, hdid]

/-- The history grows by the publishes, and by nothing else. -/
theorem accepted_step (r : Relay) (e : Event) :
    (r.step e).accepted = r.accepted ∨
      ∃ a, Publishes r e a ∧ (r.step e).accepted = r.accepted ++ [a] := by
  generalize hr' : r.step e = r'
  have heff := step_effect r e
  rw [hr'] at heff
  cases heff with
  | still hs => exact Or.inl hs.accepted
  | fetch cid now g => exact Or.inl (quiet_fetched r cid now g).accepted
  | connect egress => exact Or.inl rfl
  | join cid _ g did _ => exact Or.inl (by simp [onJoin])
  | publish cid now g ciphertext nonce ts did hjoined =>
      exact Or.inr ⟨⟨cid, g, ⟨ciphertext, nonce, ts, did⟩⟩, ⟨⟨now, rfl⟩, hjoined⟩, rfl⟩
  | broadcast cid _ hr => exact Or.inl (by cases hr <;> rfl)

theorem accepted_extends (r : Relay) (es : List Event) :
    r.accepted <+: (Machine.run step r es).accepted := by
  induction es generalizing r with
  | nil => exact List.prefix_rfl
  | cons e es ih =>
      refine List.IsPrefix.trans ?_ (ih (r.step e))
      rcases accepted_step r e with h | ⟨a, -, h⟩
      · rw [h]
      · rw [h]
        exact List.prefix_append _ _

/-- The publish number `n` of the history was made at one place of the run, and only there. -/
theorem published_once (es : List Event) {n : Nat} {a : Accepted}
    (h : (run es).accepted[n]? = some a) :
    ∃! pre, ∃ e post, es = pre ++ e :: post ∧ Publishes (run pre) e a ∧
      (run pre).accepted.length = n := by
  refine existsUnique_of_exists_of_unique ?_ ?_
  · induction es using List.reverseRecOn with
    | nil => simp [init] at h
    | append_singleton es e ih =>
        have hold : (run es).accepted[n]? = some a →
            ∃ pre f post, es ++ [e] = pre ++ f :: post ∧ Publishes (run pre) f a ∧
              (run pre).accepted.length = n := by
          intro hn
          obtain ⟨pre, f, post, rfl, hpub, hlen⟩ := ih hn
          exact ⟨pre, f, post ++ [e], by simp, hpub, hlen⟩
        rw [run, Machine.run_concat] at h
        rcases accepted_step (run es) e with hacc | ⟨b, hpub, hacc⟩
        · exact hold (by rw [← hacc]; exact h)
        · rw [hacc, List.getElem?_append] at h
          split at h
          · exact hold h
          · rename_i hge
            obtain ⟨hn, rfl⟩ := List.getElem?_eq_some_iff.1 h
            simp only [List.length_singleton] at hn
            refine ⟨es, e, [], rfl, by simpa using hpub, by omega⟩
  · -- Of two places, the history is longer than `n` at the later one.
    have hlt : ∀ pre e mid, Publishes (run pre) e a → (run pre).accepted.length = n →
        (run (pre ++ e :: mid)).accepted.length ≠ n := by
      intro pre e mid hpub hlen
      have hrun : run (pre ++ e :: mid) = Machine.run step ((run pre).step e) mid := by
        simp [run, Machine.run_append]
      have hle := (accepted_extends ((run pre).step e) mid).length_le
      rw [accepted_of_publishes hpub, List.length_append, List.length_singleton] at hle
      rw [hrun]
      omega
    rintro pre pre' ⟨e, post, rfl, hpub, hlen⟩ ⟨e', post', heq, hpub', hlen'⟩
    rcases List.append_eq_append_iff.1 heq with ⟨mid, rfl, hmid⟩ | ⟨mid, rfl, hmid⟩
    · cases mid with
      | nil => simp
      | cons f mid =>
          cases hmid
          exact absurd hlen' (hlt pre e mid hpub hlen)
    · cases mid with
      | nil => simp
      | cons f mid =>
          cases hmid
          exact absurd hlen (hlt pre' e' mid hpub' hlen')

end

/-! ## A subscription, from its join on -/

/-- Event `e` is a join of connection `cid`. -/
def IsJoin (cid : ConnId) (e : Event) : Prop :=
  ∃ now g did, e = .frame cid now (.text (.ok (.join g did)))

/-- The receiver of connection `cid` is more than `broadcastCap` behind. -/
def Lagging (r : Relay) (cid : ConnId) : Prop :=
  ∃ g rx, (r.conns cid).rx = some (g, rx) ∧ broadcastCap < rx.backlog (r.hub.entry g).tx

/-- Connection `cid` reads the channel of `g` as `did` from place `start` on, has lost nothing, and
every clip it was sent is one of the first `n` publishes or in that channel. -/
structure Subscribed (r : Relay) (cid : ConnId) (g : GroupId) (did : DeviceId) (start n : Nat) :
    Prop where
  handedOut : cid < r.hub.connSeq
  deviceId : (r.conns cid).deviceId = some did
  rx : ∃ rx, (r.conns cid).rx = some (g, rx) ∧ rx.start = start ∧ rx.missed = 0
  clips : ∀ m ∈ (r.conns cid).clips, m.seq < n ∨ m ∈ channel r.accepted g
  /-- What the channel held before the subscription is older than publish `n`. -/
  before : ∀ i p, i < start → (channel r.accepted g)[i]? = some p → p.seq < n

theorem subscribed_join {r : Relay} (h : Routed r) {cid : ConnId} (hcid : cid < r.hub.connSeq)
    (g : GroupId) (did : DeviceId) :
    Subscribed (r.onJoin cid g did) cid g did (channel r.accepted g).length r.accepted.length where
  handedOut := by simpa [onJoin] using hcid
  deviceId := by simp [onJoin, send_conns_self]
  rx := by
    refine ⟨_, by simp [onJoin, send_conns_self]; rfl, ?_, rfl⟩
    simp [Hub.subscribe, Broadcast.subscribe, h.tx]
  clips m hm := by
    refine Or.inl ((h.conn cid).known m ?_)
    have hjoined : ((r.onJoin cid g did).conns cid).clips = (r.conns cid).clips := by
      unfold onJoin
      rw [(still_send _ cid rfl).clips, setConn_conns_self]
      rfl
    rwa [hjoined] at hm
  before i p _ hp := by
    rw [show (r.onJoin cid g did).accepted = r.accepted by simp [onJoin]] at hp
    exact seq_lt_of_mem_channel (List.mem_of_getElem? hp)

theorem Subscribed.quiet {r r' : Relay} {cid : ConnId} {g : GroupId} {did : DeviceId}
    {start n : Nat} (h : Subscribed r cid g did start n) (hq : Quiet r r') :
    Subscribed r' cid g did start n where
  handedOut := by rw [hq.connSeq]; exact h.handedOut
  deviceId := by rw [hq.deviceId]; exact h.deviceId
  rx := by rw [hq.rx]; exact h.rx
  clips := by rw [hq.clips, hq.accepted]; exact h.clips
  before := by rw [hq.accepted]; exact h.before

section

variable [SocketAddrText]

/-- A subscription survives every event but a new join of its connection and a lag. -/
theorem subscribed_step {r : Relay} {e : Event} {cid : ConnId} {g : GroupId} {did : DeviceId}
    {start n : Nat} (hr : Routed r) (h : Subscribed r cid g did start n)
    (hjoin : ¬ IsJoin cid e) (hlag : ¬ Lagging r cid) :
    Subscribed (r.step e) cid g did start n := by
  obtain ⟨rx, hrx, hstart, hmissed⟩ := h.rx
  generalize hr' : r.step e = r'
  have heff := step_effect r e
  rw [hr'] at heff
  cases heff with
  | still hs => exact h.quiet hs.toQuiet
  | fetch d now g' => exact h.quiet (quiet_fetched r d now g')
  | connect egress =>
      -- The new connection has an id of its own.
      have hne : cid ≠ r.hub.connSeq := Nat.ne_of_lt h.handedOut
      have hconn := setConn_conns_ne { r with hub := r.hub.nextConnId.2 } hne (Conn.start egress)
      refine ⟨Nat.lt_succ_of_lt h.handedOut, by rw [hconn]; exact h.deviceId,
        ⟨rx, by rw [hconn]; exact hrx, hstart, hmissed⟩, ?_, h.before⟩
      rw [hconn]
      exact h.clips
  | join d now g' did' =>
      have hne : cid ≠ d := by
        rintro rfl
        exact hjoin ⟨now, g', did', rfl⟩
      have hconn : (r.onJoin d g' did').conns cid = r.conns cid := by
        unfold onJoin
        rw [send_conns_ne _ hne, setConn_conns_ne _ hne]
      have hacc : (r.onJoin d g' did').accepted = r.accepted := by simp [onJoin]
      refine ⟨by simpa [onJoin] using h.handedOut, by rw [hconn]; exact h.deviceId,
        ⟨rx, by rw [hconn]; exact hrx, hstart, hmissed⟩, ?_, ?_⟩
      · rw [hconn, hacc]
        exact h.clips
      · rw [hacc]
        exact h.before
  | publish d now g' ciphertext nonce ts did' hjoined =>
      refine ⟨h.handedOut, h.deviceId, h.rx, fun m hm => ?_, fun i p hi hp => ?_⟩
      · refine (h.clips m hm).imp_right fun hm => ?_
        rw [channel_concat]
        exact List.mem_append_left _ hm
      · have hplace := (hr.conn cid).place g rx hrx
        rw [channel_getElem?_of_lt _ (by omega)] at hp
        exact h.before i p hi hp
  | broadcast d hopen hrecv =>
      have hacc := hrecv.accepted
      have hrx' : ∃ rx', (r'.conns cid).rx = some (g, rx') ∧ rx'.start = start ∧
          rx'.missed = 0 := by
        obtain ⟨rx', hrx', hstart', hmissed'⟩ := hrecv.rx hrx (fun hl => hlag ⟨g, rx, hrx, hl⟩)
        exact ⟨rx', hrx', by omega, by omega⟩
      refine ⟨by rw [hrecv.hub]; exact h.handedOut, by rw [hrecv.deviceId]; exact h.deviceId,
        hrx', fun m hm => ?_, by rw [hacc]; exact h.before⟩
      rw [hacc]
      by_cases hold : m ∈ (r.conns cid).clips
      · exact h.clips m hold
      · obtain ⟨rfl, -, g', rx', hrx', hmem⟩ := hrecv.new_clip hm hold
        rw [hrx] at hrx'
        cases hrx'
        exact Or.inr (hr.tx g ▸ hmem)

/-! ## The statement -/

/-- What one run of the relay promises to every connection. -/
structure Routing (es : List Event) : Prop where
  /-- A clip sent stems from exactly one publish, to the group joined and from another device. -/
  attributed : ∀ pre e post cid m, es = pre ++ e :: post →
    m ∈ ((run (pre ++ [e])).conns cid).clips → m ∉ ((run pre).conns cid).clips →
    ∃ a did, (run pre).JoinedAs cid a.group did ∧ a.clip.senderDeviceId ≠ did ∧
      m.clip = a.clip ∧
      ∃! pub, ∃ f rest, pre = pub ++ f :: rest ∧ Publishes (run pub) f a ∧
        (run pub).accepted.length = m.seq
  /-- Clips go out in publish order, without duplicates. -/
  ordered : ∀ cid, ((run es).conns cid).clips.Pairwise (·.seq < ·.seq)
  /-- Between a join and the next one, a receiver that does not lag skips nothing. -/
  noSkip : ∀ pre cid now g did mid,
    es = pre ++ .frame cid now (.text (.ok (.join g did))) :: mid →
    ((run pre).conns cid).isOpen →
    Machine.Along step (fun r e => ¬ IsJoin cid e ∧ ¬ Lagging r cid)
      (run (pre ++ [.frame cid now (.text (.ok (.join g did)))])) mid →
    ∀ n a, (run es).accepted[n]? = some a → a.group = g → (run pre).accepted.length ≤ n →
      a.clip.senderDeviceId ≠ did →
      ∀ q ∈ ((run es).conns cid).clips, n < q.seq → ⟨n, a.clip⟩ ∈ ((run es).conns cid).clips
  /-- A publish or a fetch before the join, or for another group, is answered with an error. -/
  rejected : ∀ cid now g, ((run es).conns cid).isOpen → ((run es).conns cid).group ≠ some g →
    ∀ msg, (msg = .fetchRecent g ∨ ∃ ciphertext nonce ts, msg = .publish g ciphertext nonce ts) →
      (∃ reason, (run es).step (.frame cid now (.text (.ok msg))) =
        (run es).send cid (.error reason)) ∧
      ((run es).step (.frame cid now (.text (.ok msg)))).hub = (run es).hub

theorem attributed (pre : List Event) (e : Event) {cid : ConnId} {m : Published}
    (hnew : m ∈ ((run (pre ++ [e])).conns cid).clips)
    (hold : m ∉ ((run pre).conns cid).clips) :
    ∃ a did, (run pre).JoinedAs cid a.group did ∧ a.clip.senderDeviceId ≠ did ∧
      m.clip = a.clip ∧ (run pre).accepted[m.seq]? = some a := by
  have hrouted := routed_run pre
  rw [run, Machine.run_concat] at hnew
  generalize hr' : (run pre).step e = r' at hnew
  have heff := step_effect (run pre) e
  rw [hr'] at heff
  cases heff with
  | still hs => exact absurd (hs.clips cid ▸ hnew) hold
  | fetch d now g => exact absurd ((quiet_fetched (run pre) d now g).clips cid ▸ hnew) hold
  | connect egress =>
      by_cases hd : cid = (run pre).hub.connSeq
      · subst hd
        rw [setConn_conns_self] at hnew
        simp [Conn.start, Conn.clips] at hnew
      · rw [setConn_conns_ne _ hd] at hnew
        exact absurd hnew hold
  | join d now g did =>
      unfold onJoin at hnew
      rw [(still_send _ d rfl).clips] at hnew
      by_cases hd : cid = d
      · subst hd
        rw [setConn_conns_self] at hnew
        exact absurd hnew hold
      · rw [setConn_conns_ne _ hd] at hnew
        exact absurd hnew hold
  | publish => exact absurd hnew hold
  | broadcast d hopen hrecv =>
      obtain ⟨rfl, hother, g, rx, hrx, hmem⟩ := hrecv.new_clip hnew hold
      rw [hrouted.tx] at hmem
      obtain ⟨a, ha, rfl, hclip⟩ := mem_channel.1 hmem
      have hconn := hrouted.conn cid
      have hgroup : ((run pre).conns cid).group = some a.group := by
        rw [← hconn.joined, hrx]; rfl
      obtain ⟨did, hdid⟩ := Option.isSome_iff_exists.1
        (hconn.identified.trans (by rw [hgroup]; rfl))
      refine ⟨a, did, ⟨hopen, hgroup, hdid⟩, fun heq => hother ?_, hclip.symm, ha⟩
      rw [hdid, ← hclip, heq]

theorem no_skip (pre mid : List Event) (cid : ConnId) (now : Instant) (g : GroupId)
    (did : DeviceId) (hopen : ((run pre).conns cid).isOpen)
    (halong : Machine.Along step (fun r e => ¬ IsJoin cid e ∧ ¬ Lagging r cid)
      (run (pre ++ [.frame cid now (.text (.ok (.join g did)))])) mid)
    {n : Nat} {a : Accepted} {q : Published} {es : List Event}
    (hes : es = pre ++ .frame cid now (.text (.ok (.join g did))) :: mid)
    (ha : (run es).accepted[n]? = some a) (hg : a.group = g)
    (hn : (run pre).accepted.length ≤ n) (hother : a.clip.senderDeviceId ≠ did)
    (hq : q ∈ ((run es).conns cid).clips) (hlt : n < q.seq) :
    ⟨n, a.clip⟩ ∈ ((run es).conns cid).clips := by
  have hjoin : run (pre ++ [.frame cid now (.text (.ok (.join g did)))]) =
      (run pre).onJoin cid g did := by
    rw [run, Machine.run_concat]
    simp [step, act, handleFrame, hopen]
  have hend : run es = Machine.run step ((run pre).onJoin cid g did) mid := by
    rw [← hjoin, hes, run, run, ← Machine.run_append, List.append_assoc, List.singleton_append]
  have hrouted : Routed ((run pre).onJoin cid g did) := hjoin ▸ routed_run _
  have hsub := subscribed_join (routed_run pre) (openHandedOut_run pre cid hopen) g did
  rw [hjoin] at halong
  -- Both the routing invariant and the subscription are kept up to the end of the run.
  obtain ⟨hrouted', hsub'⟩ := Machine.invariant_along
    (I := fun r => Routed r ∧ Subscribed r cid g did (channel (run pre).accepted g).length
      (run pre).accepted.length)
    (fun r e hP hI => ⟨routed_step r e hI.1, subscribed_step hI.1 hI.2 hP.1 hP.2⟩)
    ⟨hrouted, hsub⟩ halong
  rw [← hend] at hrouted' hsub'
  obtain ⟨rx, hrx, hstart, hmissed⟩ := hsub'.rx
  have hp : (⟨n, a.clip⟩ : Published) ∈ channel (run es).accepted g :=
    mem_channel.2 ⟨a, ha, hg, rfl⟩
  have hqmem := (hsub'.clips q hq).resolve_left (by omega)
  obtain ⟨i, hi⟩ := List.getElem?_of_mem hp
  obtain ⟨j, hj⟩ := List.getElem?_of_mem hqmem
  have hij : i ≤ j := channel_index_le hi hj (le_of_lt hlt)
  have hsi : rx.start ≤ i := by
    by_contra hlt'
    have := hsub'.before i _ (by omega) hi
    simp only at this
    omega
  refine ((hrouted'.conn cid).noGap g rx hrx hmissed i j _ q hsi hij hi hj hq).resolve_left ?_
  rw [hsub'.deviceId]
  simpa using hother

theorem rejected {r : Relay} {cid : ConnId} (now : Instant) {g : GroupId}
    (hopen : (r.conns cid).isOpen) (hgroup : (r.conns cid).group ≠ some g) {msg : ClientMessage}
    (hmsg : msg = .fetchRecent g ∨ ∃ ciphertext nonce ts, msg = .publish g ciphertext nonce ts) :
    ∃ reason, r.step (.frame cid now (.text (.ok msg))) = r.send cid (.error reason) := by
  have hstep : r.step (.frame cid now (.text (.ok msg))) =
      (r.handleFrame cid now (.text (.ok msg))).1 := by
    simp [step, act, hopen]
  rw [hstep]
  rcases hmsg with rfl | ⟨ciphertext, nonce, ts, rfl⟩
  · exact ⟨"group mismatch", by simp [handleFrame, onFetchRecent, hgroup]⟩
  · cases hdid : (r.conns cid).deviceId with
    | none => exact ⟨"join first", by simp [handleFrame, onPublish, hdid]⟩
    | some did => exact ⟨"group mismatch", by simp [handleFrame, onPublish, hdid, hgroup]⟩

/-- **The relay routes every run.** -/
theorem routing (es : List Event) : Routing es where
  attributed pre e post cid m _ hnew hold := by
    obtain ⟨a, did, hjoined, hother, hclip, ha⟩ := attributed pre e hnew hold
    exact ⟨a, did, hjoined, hother, hclip, published_once pre ha⟩
  ordered cid := ((routed_run es).conn cid).ordered
  noSkip pre cid now g did mid hes hopen halong n a ha hg hn hother q hq hlt :=
    no_skip pre mid cid now g did hopen halong hes ha hg hn hother hq hlt
  rejected cid now g hopen hgroup msg hmsg := by
    obtain ⟨reason, hstep⟩ := rejected now hopen hgroup hmsg
    exact ⟨⟨reason, hstep⟩, by rw [hstep, send_hub]⟩

end

end ClipBridge.Relay
