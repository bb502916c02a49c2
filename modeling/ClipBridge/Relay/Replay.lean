import ClipBridge.Relay.Routing
import ClipBridge.Lib.FirstOccurrences

/-!
# Replies to `FetchRecent` beside the broadcast

A connection is shown clips on two ways: one by one from its group's channel, and a few at a time
in the replies to `FetchRecent`. Each way alone keeps publish order. Together they need not: a
reply can overtake clips still waiting in the channel.

* `Kept` — the caches and the replies are parts of the channels, in order (`kept_step`).
* `Conn.shown` — every clip that went out to a connection, in either kind of frame.
* `FetchInOrder` — a fetch whose reply is in order with what was sent and is still waiting.
* `InOrder`, `inOrder_step` — with such fetches only, the first showings of clips ascend.
-/

namespace ClipBridge.Relay

open Broadcast (Receiver Recv)

/-! ## What the caches and the replies hold -/

/-- The caches hold parts of the channels, in order, and so does every reply sent. -/
structure Kept (r : Relay) : Prop where
  cache : ∀ g, ((r.hub.entry g).cache.map (·.2)).Sublist (channel r.accepted g)
  replies : ∀ cid clips, .recent clips ∈ (r.conns cid).frames →
    ∃ g, clips.Sublist (channel r.accepted g)

theorem channel_extends {acc acc' : List Accepted} (h : acc <+: acc') (g : GroupId) :
    channel acc g <+: channel acc' g := by
  obtain ⟨more, rfl⟩ := h
  unfold channel
  rw [List.zipIdx_append, List.filterMap_append]
  exact List.prefix_append _ _

theorem retainFresh_sublist {κ : Type} (now : Instant) (cache : List (Instant × κ)) :
    (retainFresh now cache).Sublist cache := List.filter_sublist

theorem recent_sublist (hub : Hub Published) (now : Instant) (g : GroupId) :
    (hub.recent now g).1.Sublist ((hub.entry g).cache.map (·.2)) :=
  (retainFresh_sublist now _).map _

theorem recent_cache (hub : Hub Published) (now : Instant) (g g' : GroupId) :
    (((hub.recent now g).2.entry g').cache).Sublist (hub.entry g').cache := by
  unfold Hub.recent
  by_cases hg : g' = g
  · subst hg
    rw [Hub.entry_set_self]
    exact retainFresh_sublist now _
  · rw [hub.entry_set_ne hg]

/-- A publish puts its clip at the end of what is left of the cache. -/
theorem publish_cache (hub : Hub Published) (now : Instant) (g : GroupId) (m : Published) :
    ∃ old, old.Sublist (hub.entry g).cache ∧
      ((hub.publish now g m).entry g).cache = old ++ [(now, m)] := by
  unfold Hub.publish
  rw [Hub.entry_set_self]
  refine ⟨_, ?_, rfl⟩
  split
  · exact (List.tail_sublist _).trans (retainFresh_sublist now _)
  · exact retainFresh_sublist now _

theorem publish_cache_ne (hub : Hub Published) (now : Instant) {g g' : GroupId} (hne : g' ≠ g)
    (m : Published) : ((hub.publish now g m).entry g').cache = (hub.entry g').cache := by
  unfold Hub.publish
  rw [hub.entry_set_ne hne]

theorem kept_init : Kept init where
  cache g := by simp [init, Hub.new, Hub.entry, Group.new]
  replies cid clips h := by simp [init, Conn.start, Conn.frames] at h

/-- Every reply sent stays a part of a channel when the history grows. -/
theorem Kept.replies_mono {r : Relay} (h : Kept r) {acc : List Accepted} (hacc : r.accepted <+: acc)
    {cid : ConnId} {clips : List Published} (hmem : .recent clips ∈ (r.conns cid).frames) :
    ∃ g, clips.Sublist (channel acc g) := by
  obtain ⟨g, hg⟩ := h.replies cid clips hmem
  exact ⟨g, hg.trans (channel_extends hacc g).sublist⟩

theorem Received.frames {r r' : Relay} {cid : ConnId} (h : Received r cid r') (d : ConnId) :
    (r'.conns d).frames = (r.conns d).frames ∨
      d = cid ∧ ∃ m, (r'.conns d).frames = (r.conns d).frames ++ [.clip m] := by
  by_cases hd : d = cid
  · subst hd
    cases h with
    | idle => exact Or.inl rfl
    | lagged | skip => exact Or.inl (by rw [setConn_conns_self]; rfl)
    | @forward _ _ m =>
        refine Or.inr ⟨rfl, m, ?_⟩
        rw [setConn_conns_self]
        exact Conn.frames_append _ _
  · refine Or.inl ?_
    cases h with
    | idle => rfl
    | lagged | skip | forward => rw [setConn_conns_ne r hd]

theorem fetched_frames (r : Relay) (cid : ConnId) (now : Instant) (g : GroupId) (d : ConnId) :
    ((r.fetched cid now g).conns d).frames = (r.conns d).frames ∨
      d = cid ∧ ((r.fetched cid now g).conns d).frames =
        (r.conns d).frames ++ [.recent (r.hub.recent now g).1] := by
  unfold fetched
  by_cases hd : d = cid
  · subst hd
    rw [send_conns_self]
    dsimp only
    split
    · exact Or.inr ⟨rfl, Conn.frames_append _ _⟩
    · exact Or.inl (by rw [List.append_nil])
  · exact Or.inl (by rw [send_conns_ne _ hd])

theorem onJoin_frames [SocketAddrText] (r : Relay) (cid : ConnId) (g : GroupId) (did : DeviceId)
    (d : ConnId) : ((r.onJoin cid g did).conns d).frames = (r.conns d).frames := by
  unfold onJoin
  rw [(still_send _ cid rfl).frames]
  by_cases hd : d = cid
  · subst hd; rw [setConn_conns_self]; rfl
  · rw [setConn_conns_ne _ hd]

section

variable [SocketAddrText]

theorem kept_step (r : Relay) (e : Event) (h : Kept r) : Kept (r.step e) := by
  have hacc := accepted_extends r [e]
  rw [Machine.run_cons, Machine.run_nil] at hacc
  generalize hr' : r.step e = r' at hacc
  have heff := step_effect r e
  rw [hr'] at heff
  cases heff with
  | still hs =>
      refine ⟨fun g => ?_, fun cid clips hmem => h.replies_mono hacc (hs.frames cid ▸ hmem)⟩
      rw [hs.cache, hs.accepted]
      exact h.cache g
  | connect egress =>
      refine ⟨h.cache, fun cid clips hmem => ?_⟩
      by_cases hd : cid = r.hub.connSeq
      · subst hd
        rw [setConn_conns_self] at hmem
        simp [Conn.start, Conn.frames] at hmem
      · rw [setConn_conns_ne _ hd] at hmem
        exact h.replies cid clips hmem
  | join cid now g did hopen =>
      refine ⟨fun g' => ?_, fun d clips hmem => ?_⟩
      · simpa [onJoin] using h.cache g'
      · rw [onJoin_frames] at hmem
        exact h.replies_mono hacc hmem
  | publish cid now g ciphertext nonce ts did hjoined =>
      refine ⟨fun g' => ?_, fun d clips hmem => h.replies_mono hacc hmem⟩
      rw [channel_concat]
      by_cases hg : g' = g
      · subst hg
        obtain ⟨old, hold, hcache⟩ :=
          publish_cache r.hub now g' ⟨r.accepted.length, ⟨ciphertext, nonce, ts, did⟩⟩
        rw [hcache, List.map_append, if_pos rfl]
        exact ((hold.map _).trans (h.cache g')).append (List.Sublist.refl _)
      · rw [publish_cache_ne _ _ hg]
        exact (h.cache g').trans (List.sublist_append_left _ _)
  | fetch cid now g hopen hgroup =>
      refine ⟨fun g' => ?_, fun d clips hmem => ?_⟩
      · rw [(quiet_fetched r cid now g).accepted]
        refine List.Sublist.trans (List.Sublist.map _ ?_) (h.cache g')
        unfold fetched
        rw [send_hub]
        exact recent_cache r.hub now g g'
      · rcases fetched_frames r cid now g d with hsame | ⟨-, hmore⟩
        · exact h.replies_mono hacc (hsame ▸ hmem)
        · rw [hmore, List.mem_append, List.mem_singleton] at hmem
          rcases hmem with hmem | hmem
          · exact h.replies_mono hacc hmem
          · cases hmem
            refine ⟨g, ?_⟩
            exact ((recent_sublist r.hub now g).trans (h.cache g)).trans
              (channel_extends hacc g).sublist
  | broadcast cid hopen hrecv =>
      refine ⟨fun g => ?_, fun d clips hmem => ?_⟩
      · rw [hrecv.hub, hrecv.accepted]
        exact h.cache g
      · rcases hrecv.frames d with hsame | ⟨-, m, hmore⟩
        · exact h.replies_mono hacc (hsame ▸ hmem)
        · rw [hmore, List.mem_append, List.mem_singleton] at hmem
          exact h.replies_mono hacc (hmem.resolve_right (by simp))

end

/-! ## Everything shown to a connection -/

/-- The clips a frame carries. -/
def clipsIn : ServerMessage Published → List Published
  | .clip c => [c]
  | .recent clips => clips
  | _ => []

/-- Every clip that went out to a connection, oldest frame first. -/
def Conn.shown (c : Conn) : List Published := c.sent.flatMap clipsIn

theorem Conn.shown_eq_frames (c : Conn) : c.shown = c.frames.flatMap clipsIn := by
  unfold Conn.shown Conn.frames
  induction c.sent with
  | nil => rfl
  | cons msg sent ih => cases msg <;> simp [clipsIn, carriesClips, List.filter_cons, ih]

/-- A fetch by connection `cid` whose reply is in order: a clip of the reply was sent before or is
newer than everything sent, and no clip older than one of the reply is still waiting unseen. Only
the clips in `want` count. -/
structure FetchInOrder (want : Published → Bool) (r : Relay) (cid : ConnId) (now : Instant)
    (g : GroupId) : Prop where
  reply : ∀ p ∈ (r.hub.recent now g).1, want p →
    p ∈ (r.conns cid).shown ∨ ∀ q ∈ (r.conns cid).shown, want q → q.seq < p.seq
  waiting : ∀ rx, (r.conns cid).rx = some (g, rx) →
    ∀ q ∈ (r.hub.entry g).tx.drop rx.next, want q →
      ∀ p ∈ (r.hub.recent now g).1, want p → q.seq < p.seq →
        q ∈ (r.conns cid).shown ∨ q ∈ (r.hub.recent now g).1

instance (want : Published → Bool) (r : Relay) (cid : ConnId) (now : Instant) (g : GroupId) :
    Decidable (FetchInOrder want r cid now g) :=
  let reply := (r.hub.recent now g).1
  let shown := (r.conns cid).shown
  decidable_of_iff
    ((∀ p ∈ reply.filter want, p ∈ shown ∨ ∀ q ∈ shown.filter want, q.seq < p.seq) ∧
      ∀ s ∈ (r.conns cid).rx, s.1 = g →
        ∀ q ∈ ((r.hub.entry g).tx.drop s.2.next).filter want, ∀ p ∈ reply.filter want,
          q.seq < p.seq → q ∈ shown ∨ q ∈ reply) <| by
    simp only [List.mem_filter, and_imp, Option.mem_def, Prod.forall]
    constructor
    · rintro ⟨hreply, hwaiting⟩
      exact ⟨hreply, fun rx hrx => hwaiting g rx hrx rfl⟩
    · rintro ⟨hreply, hwaiting⟩
      exact ⟨hreply, fun g' rx hrx hg => hwaiting rx (hg ▸ hrx)⟩

/-- What connection `cid`, which joins only `g`, was shown is in order, and stays so when it is
shown what is waiting. -/
structure InOrder (want : Published → Bool) (g : GroupId) (cid : ConnId) (r : Relay) : Prop where
  shown : ∀ p ∈ (r.conns cid).shown, p ∈ channel r.accepted g
  ascend : FirstsAscend (fun p q : Published => p.seq < q.seq) ((r.conns cid).shown.filter want)
  waiting : ∀ g' rx, (r.conns cid).rx = some (g', rx) →
    g' = g ∧ ∀ q ∈ (channel r.accepted g).drop rx.next, want q →
      q ∈ (r.conns cid).shown ∨ ∀ p ∈ (r.conns cid).shown, want p → p.seq < q.seq

section InOrder

variable {want : Published → Bool} {g : GroupId} {cid : ConnId} {r r' : Relay}

/-- The invariant reads three variables. -/
theorem InOrder.congr (h : InOrder want g cid r) (hacc : r'.accepted = r.accepted)
    (hrx : (r'.conns cid).rx = (r.conns cid).rx)
    (hframes : (r'.conns cid).frames = (r.conns cid).frames) : InOrder want g cid r' := by
  have hshown : (r'.conns cid).shown = (r.conns cid).shown := by
    rw [Conn.shown_eq_frames, hframes, ← Conn.shown_eq_frames]
  refine ⟨?_, ?_, ?_⟩
  · rw [hshown, hacc]; exact h.shown
  · rw [hshown]; exact h.ascend
  · rw [hrx, hshown, hacc]; exact h.waiting

/-- Nothing was shown to a new connection, and nothing is waiting for it. -/
theorem inOrder_start {egress : IpAddr} (hconn : r.conns cid = Conn.start egress) :
    InOrder want g cid r := by
  constructor <;> simp [hconn, Conn.start, Conn.shown]

/-- A new accepted publish is newer than everything shown. -/
theorem InOrder.publish (h : InOrder want g cid r) (hr : Routed r) {a : Accepted}
    (hacc : r'.accepted = r.accepted ++ [a]) (hconns : r'.conns = r.conns) :
    InOrder want g cid r' := by
  refine ⟨fun p hp => ?_, hconns ▸ h.ascend, fun g' rx hrx => ?_⟩
  · rw [hconns] at hp
    rw [hacc, channel_concat]
    exact List.mem_append_left _ (h.shown p hp)
  · rw [hconns] at hrx ⊢
    obtain ⟨rfl, hwait⟩ := h.waiting g' rx hrx
    refine ⟨rfl, fun q hq hwant => ?_⟩
    rw [hacc, channel_concat, List.drop_append_of_le_length ((hr.conn cid).place g' rx hrx).2,
      List.mem_append] at hq
    rcases hq with hq | hq
    · exact hwait q hq hwant
    · split at hq
      · rw [List.mem_singleton.1 hq]
        exact Or.inr fun p hp _ => seq_lt_of_mem_channel (h.shown p hp)
      · simp at hq

/-- The reply to a fetch in order keeps what is shown in order. -/
theorem InOrder.fetched (h : InOrder want g cid r) (hr : Routed r) (hk : Kept r) {now : Instant}
    (hgroup : (r.conns cid).group = some g) (hf : FetchInOrder want r cid now g) :
    InOrder want g cid (r.fetched cid now g) := by
  have hq := quiet_fetched r cid now g
  rcases fetched_frames r cid now g cid with hsame | ⟨-, hmore⟩
  · exact h.congr hq.accepted (hq.rx cid) hsame
  · have hreply : (r.hub.recent now g).1.Sublist (channel r.accepted g) :=
      (recent_sublist r.hub now g).trans (hk.cache g)
    have hshown : ((r.fetched cid now g).conns cid).shown =
        (r.conns cid).shown ++ (r.hub.recent now g).1 := by
      rw [Conn.shown_eq_frames, hmore, List.flatMap_append, ← Conn.shown_eq_frames]
      simp [clipsIn]
    refine ⟨fun p hp => ?_, ?_, fun g' rx hrx => ?_⟩
    · rw [hq.accepted]
      rw [hshown, List.mem_append] at hp
      exact hp.elim (h.shown p) fun hp => hreply.subset hp
    · rw [hshown, List.filter_append]
      refine h.ascend.append_sorted ?_ fun p hp => ?_
      · exact ((channel_sorted r.accepted g).sublist hreply).sublist List.filter_sublist
      · obtain ⟨hp, hwant⟩ := List.mem_filter.1 hp
        rcases hf.reply p hp hwant with hold | hnew
        · exact Or.inl (List.mem_filter.2 ⟨hold, hwant⟩)
        · refine Or.inr fun q hq => ?_
          obtain ⟨hq, hwantq⟩ := List.mem_filter.1 hq
          exact hnew q hq hwantq
    · rw [hq.rx] at hrx
      obtain ⟨rfl, hwait⟩ := h.waiting g' rx hrx
      refine ⟨rfl, fun q hqw hwant => ?_⟩
      rw [hq.accepted] at hqw
      rw [hshown]
      have htx : q ∈ (r.hub.entry g').tx.drop rx.next := by rw [hr.tx]; exact hqw
      -- Either a clip of the reply is newer than `q`, or `q` is newer than all of them.
      rcases hwait q hqw hwant with hold | hnew
      · exact Or.inl (List.mem_append_left _ hold)
      · by_cases hlt : ∃ p ∈ (r.hub.recent now g').1, want p ∧ q.seq < p.seq
        · obtain ⟨p, hp, hwantp, hlt⟩ := hlt
          exact Or.inl (List.mem_append.2 (hf.waiting rx hrx q htx hwant p hp hwantp hlt))
        · by_cases hmem : q ∈ (r.hub.recent now g').1
          · exact Or.inl (List.mem_append_right _ hmem)
          · refine Or.inr fun p hp hwantp => ?_
            rcases List.mem_append.1 hp with hp | hp
            · exact hnew p hp hwantp
            · have hle : p.seq ≤ q.seq := by
                by_contra hgt
                exact hlt ⟨p, hp, hwantp, by omega⟩
              refine lt_of_le_of_ne hle fun heq => hmem ?_
              rwa [← eq_of_seq_eq (hreply.subset hp) (List.mem_of_mem_drop hqw) heq]

/-- One receive keeps what is shown in order. -/
theorem InOrder.received (h : InOrder want g cid r) (hr : Routed r) {d : ConnId}
    (hrecv : Received r d r') : InOrder want g cid r' := by
  by_cases hd : cid = d
  · subst hd
    cases hrecv with
    | idle => exact h
    | @lagged g' rx hrx hlag =>
        refine ⟨?_, ?_, fun g'' rx' hrx' => ?_⟩
        · rw [setConn_conns_self]; exact h.shown
        · rw [setConn_conns_self]; exact h.ascend
        · rw [setConn_conns_self] at hrx' ⊢
          obtain ⟨rfl, hwait⟩ := h.waiting g' rx hrx
          cases hrx'
          refine ⟨rfl, fun q hq => hwait q ?_⟩
          rw [setConn_accepted, ← List.drop_drop] at hq
          exact List.mem_of_mem_drop hq
    | @skip g' rx m hrx hm hskip =>
        refine ⟨?_, ?_, fun g'' rx' hrx' => ?_⟩
        · rw [setConn_conns_self]; exact h.shown
        · rw [setConn_conns_self]; exact h.ascend
        · rw [setConn_conns_self] at hrx' ⊢
          obtain ⟨rfl, hwait⟩ := h.waiting g' rx hrx
          cases hrx'
          refine ⟨rfl, fun q hq => hwait q ?_⟩
          rw [setConn_accepted, ← List.drop_drop] at hq
          exact List.mem_of_mem_drop hq
    | @forward g' rx m hrx hm hother hup =>
        obtain ⟨rfl, hwait⟩ := h.waiting g' rx hrx
        rw [hr.tx] at hm
        obtain ⟨hi, hmi⟩ := List.getElem?_eq_some_iff.1 hm
        -- What waited is `m`, and then what still waits.
        have hdrop : (channel r.accepted g').drop rx.next =
            m :: (channel r.accepted g').drop (rx.next + 1) := by
          rw [List.drop_eq_getElem_cons hi, hmi]
        have hshown : ∀ rx' : Option (GroupId × Receiver), ({ r.conns cid with
            rx := rx', sent := (r.conns cid).sent ++ [.clip m] } : Conn).shown =
              (r.conns cid).shown ++ [m] := by
          intro rx'
          simp [Conn.shown, clipsIn]
        have hm_mem : m ∈ (channel r.accepted g').drop rx.next := by rw [hdrop]; simp
        refine ⟨fun p hp => ?_, ?_, fun g'' rx' hrx' => ?_⟩
        · rw [setConn_conns_self, hshown, List.mem_append, List.mem_singleton] at hp
          rcases hp with hp | rfl
          · exact h.shown p hp
          · exact List.mem_of_getElem? hm
        · rw [setConn_conns_self, hshown, List.filter_append]
          by_cases hwant : want m
          · rw [List.filter_cons_of_pos hwant, List.filter_nil, firstsAscend_concat]
            refine ⟨h.ascend, ?_⟩
            rcases hwait m hm_mem hwant with hold | hnew
            · exact Or.inl (List.mem_filter.2 ⟨hold, hwant⟩)
            · refine Or.inr fun p hp => ?_
              obtain ⟨hp, hwantp⟩ := List.mem_filter.1 hp
              exact hnew p hp hwantp
          · rw [List.filter_cons_of_neg hwant, List.filter_nil, List.append_nil]
            exact h.ascend
        · rw [setConn_conns_self] at hrx' ⊢
          cases hrx'
          refine ⟨rfl, fun q hq hwant => ?_⟩
          rw [setConn_accepted] at hq
          rw [hshown]
          have hsorted := (channel_sorted r.accepted g').drop (i := rx.next)
          rw [hdrop, List.pairwise_cons] at hsorted
          rcases hwait q (by rw [hdrop]; exact List.mem_cons_of_mem _ hq) hwant with hold | hnew
          · exact Or.inl (List.mem_append_left _ hold)
          · refine Or.inr fun p hp hwantp => ?_
            rcases List.mem_append.1 hp with hp | hp
            · exact hnew p hp hwantp
            · rw [List.mem_singleton.1 hp]
              exact hsorted.1 q hq
  · refine h.congr hrecv.accepted ?_ ?_
    · cases hrecv with
      | idle => rfl
      | lagged | skip | forward => rw [setConn_conns_ne r hd]
    · rcases hrecv.frames cid with hsame | ⟨heq, -⟩
      · exact hsame
      · exact absurd heq hd

variable [SocketAddrText]

/-- **An event that joins no other group and fetches in order keeps what is shown in order.** -/
theorem inOrder_step (r : Relay) (e : Event) (hr : Routed r) (hk : Kept r)
    (h : InOrder want g cid r) (hcid : cid < r.hub.connSeq)
    (hjoin : ∀ now g' did, e = .frame cid now (.text (.ok (.join g' did))) → g' = g)
    (hfetch : ∀ now, e = .frame cid now (.text (.ok (.fetchRecent g))) →
      (r.conns cid).isOpen → (r.conns cid).group = some g → FetchInOrder want r cid now g) :
    InOrder want g cid (r.step e) := by
  generalize hr' : r.step e = r'
  have heff := step_effect r e
  rw [hr'] at heff
  cases heff with
  | still hs => exact h.congr hs.accepted (hs.rx cid) (hs.frames cid)
  | connect egress =>
      have hne : cid ≠ r.hub.connSeq := Nat.ne_of_lt hcid
      have hconn := setConn_conns_ne { r with hub := r.hub.nextConnId.2 } hne (Conn.start egress)
      exact h.congr rfl (by rw [hconn]) (by rw [hconn])
  | join d now g' did hopen =>
      by_cases hd : cid = d
      · subst hd
        obtain rfl := hjoin now g' did rfl
        have hshown : ((r.onJoin cid g' did).conns cid).shown = (r.conns cid).shown := by
          rw [Conn.shown_eq_frames, onJoin_frames, ← Conn.shown_eq_frames]
        have hacc : (r.onJoin cid g' did).accepted = r.accepted := by simp [onJoin]
        refine ⟨?_, ?_, fun g'' rx hrx => ?_⟩
        · rw [hshown, hacc]; exact h.shown
        · rw [hshown]; exact h.ascend
        · -- The new subscription starts at the end of the channel.
          have hsub : ((r.onJoin cid g' did).conns cid).rx = some (g', r.hub.subscribe g') := by
            simp [onJoin, send_conns_self]
          rw [hsub] at hrx
          cases hrx
          refine ⟨rfl, fun q hq => ?_⟩
          rw [hacc, Hub.subscribe, Broadcast.subscribe, hr.tx, List.drop_length] at hq
          simp at hq
      · refine h.congr (by simp [onJoin]) ?_ (onJoin_frames r d g' did cid)
        unfold onJoin
        rw [send_conns_ne _ hd, setConn_conns_ne _ hd]
  | publish d now g' ciphertext nonce ts did hjoined => exact h.publish hr rfl rfl
  | fetch d now g' hopen hgroup =>
      by_cases hd : cid = d
      · subst hd
        obtain ⟨⟨g'', rx⟩, hrx, rfl⟩ := Option.map_eq_some_iff.1
          ((hr.conn cid).joined.trans hgroup)
        obtain ⟨rfl, -⟩ := h.waiting _ rx hrx
        exact h.fetched hr hk hgroup (hfetch now rfl hopen hgroup)
      · have hq := quiet_fetched r d now g'
        refine h.congr hq.accepted (hq.rx cid) ?_
        rcases fetched_frames r d now g' cid with hsame | ⟨heq, -⟩
        · exact hsame
        · exact absurd heq hd
  | broadcast d hopen hrecv => exact h.received hr hrecv

end InOrder

end ClipBridge.Relay
