import ClipBridge.Core.WireJson
import ClipBridge.System.Fleet

/-!
# What a device is shown was sent by a device

From the command `SendClip` of one device to the listener of another: the payload is written as
JSON, sealed, published, relayed, fetched or received, opened and read. Whatever happens in
between, what a device is shown through a connection of a device is what that device was told to
send, with its name and the payload's time. What comes through a foreign connection was at least
sealed by some device with the same key, if the cipher cannot be forged.

* `Attributed` — what the relay holds of a connection that joins one group under one name.
* `World.Traced` — where the frames, the accepted publishes and the clips shown come from, for one
  client. `traced_run` — in every run.
* `Fleet.Authentic` — that the cipher cannot be forged.
* `Fleet.Genuine`, `genuine_run` — the same from one end to the other, for a fleet.
-/

namespace ClipBridge

open Relay (Accepted ConnId SocketAddrText channel)

/-! ## One connection, at the relay -/

namespace Relay

/-- Connection `cid` joins only `g`, as `did`, and was shown only clips of that group. -/
structure Attributed (g : GroupId) (did : DeviceId) (cid : ConnId) (r : Relay) : Prop where
  group : ∀ g', (r.conns cid).group = some g' → g' = g
  deviceId : ∀ did', (r.conns cid).deviceId = some did' → did' = did
  shown : ∀ p ∈ (r.conns cid).shown, p ∈ channel r.accepted g

variable {g : GroupId} {did : DeviceId} {cid : ConnId} {r r' : Relay}

theorem attributed_start {egress : IpAddr} (h : r.conns cid = Conn.start egress) :
    Attributed g did cid r := by
  constructor <;> simp [h, Conn.start, Conn.shown]

/-- The connection is shown more clips, all from its group, and nothing else changes. -/
theorem Attributed.more (h : Attributed g did cid r) (hacc : r.accepted <+: r'.accepted)
    (hgroup : (r'.conns cid).group = (r.conns cid).group)
    (hdevice : (r'.conns cid).deviceId = (r.conns cid).deviceId)
    {msgs : List (ServerMessage Published)}
    (hframes : (r'.conns cid).frames = (r.conns cid).frames ++ msgs)
    (hmsgs : ∀ msg ∈ msgs, ∀ p ∈ clipsIn msg, p ∈ channel r.accepted g) :
    Attributed g did cid r' := by
  refine ⟨hgroup ▸ h.group, hdevice ▸ h.deviceId, fun p hp => ?_⟩
  rw [Conn.shown_eq_frames, hframes, List.flatMap_append, List.mem_append,
    ← Conn.shown_eq_frames] at hp
  refine (channel_extends hacc g).subset (hp.elim (h.shown p) fun hp => ?_)
  obtain ⟨msg, hmsg, hp⟩ := List.mem_flatMap.1 hp
  exact hmsgs msg hmsg p hp

theorem Attributed.same (h : Attributed g did cid r) (hacc : r.accepted <+: r'.accepted)
    (hgroup : (r'.conns cid).group = (r.conns cid).group)
    (hdevice : (r'.conns cid).deviceId = (r.conns cid).deviceId)
    (hframes : (r'.conns cid).frames = (r.conns cid).frames) : Attributed g did cid r' :=
  h.more hacc hgroup hdevice (by rw [hframes, List.append_nil]) (by simp)

theorem onJoin_identity [SocketAddrText] (r : Relay) (cid d : ConnId) (g : GroupId)
    (did : DeviceId) :
    (((r.onJoin cid g did).conns d).group = (r.conns d).group ∧
      ((r.onJoin cid g did).conns d).deviceId = (r.conns d).deviceId) ∨
    d = cid ∧ ((r.onJoin cid g did).conns d).group = some g ∧
      ((r.onJoin cid g did).conns d).deviceId = some did := by
  unfold onJoin
  have hsend : carriesClips (.joined g) = false := rfl
  rw [(still_send _ cid hsend).group, (still_send _ cid hsend).deviceId]
  by_cases hd : d = cid
  · subst hd
    rw [setConn_conns_self]
    exact Or.inr ⟨rfl, rfl, rfl⟩
  · rw [setConn_conns_ne r hd]
    exact Or.inl ⟨rfl, rfl⟩

/-- A receive forwards a clip of the group that the connection is joined to. -/
theorem Received.forwards (h : Received r cid r') (hr : Routed r) (d : ConnId) :
    ∃ msgs, (r'.conns d).frames = (r.conns d).frames ++ msgs ∧
      ∀ msg ∈ msgs, ∀ p ∈ clipsIn msg, ∀ g, (∀ g', (r.conns d).group = some g' → g' = g) →
        p ∈ channel r.accepted g := by
  have hsame : ∀ c : Conn, c.frames = (r.conns d).frames → ∃ msgs,
      c.frames = (r.conns d).frames ++ msgs ∧ ∀ msg ∈ msgs, ∀ p ∈ clipsIn msg, ∀ g,
        (∀ g', (r.conns d).group = some g' → g' = g) → p ∈ channel r.accepted g :=
    fun c hc => ⟨[], by rw [hc, List.append_nil], by simp⟩
  by_cases hd : d = cid
  · subst hd
    cases h with
    | idle => exact hsame _ rfl
    | lagged | skip =>
        rw [setConn_conns_self]
        exact hsame _ rfl
    | @forward g' rx m hrx hm =>
        rw [setConn_conns_self]
        refine ⟨[.clip m], Conn.frames_append _ _, fun msg hmsg p hp g hg => ?_⟩
        rw [List.mem_singleton.1 hmsg, clipsIn, List.mem_singleton] at hp
        have hgroup : (r.conns d).group = some g' := by
          rw [← (hr.conn d).joined, hrx]
          rfl
        rw [hp, ← hg g' hgroup, ← hr.tx g']
        exact List.mem_of_getElem? hm
  · cases h with
    | idle => exact hsame _ rfl
    | lagged | skip | forward =>
        rw [setConn_conns_ne r hd]
        exact hsame _ rfl

/-- Every event keeps a connection attributed, if its joins are the ones it is to make. -/
theorem attributed_step [SocketAddrText] (r : Relay) (e : Event) (hr : Routed r) (hk : Kept r)
    (hcid : cid < r.hub.connSeq) (h : Attributed g did cid r)
    (hjoin : ∀ now g' did', e = .frame cid now (.text (.ok (.join g' did'))) →
      g' = g ∧ did' = did) :
    Attributed g did cid (r.step e) := by
  have hacc := accepted_extends r [e]
  rw [Machine.run_cons, Machine.run_nil] at hacc
  generalize hr' : r.step e = r' at hacc
  have heff := step_effect r e
  rw [hr'] at heff
  cases heff with
  | still hs => exact h.same hacc (hs.group cid) (hs.deviceId cid) (hs.frames cid)
  | connect egress =>
      have hconn := setConn_conns_ne { r with hub := r.hub.nextConnId.2 } (Nat.ne_of_lt hcid)
        (Conn.start egress)
      exact h.same hacc (by rw [hconn]) (by rw [hconn]) (by rw [hconn])
  | join d now g' did' hopen =>
      rcases onJoin_identity r d cid g' did' with ⟨hgroup, hdevice⟩ | ⟨rfl, hgroup, hdevice⟩
      · exact h.same hacc hgroup hdevice (onJoin_frames r d g' did' cid)
      · obtain ⟨rfl, rfl⟩ := hjoin now g' did' rfl
        refine ⟨fun g'' hg => ?_, fun did'' hdid => ?_, fun p hp => ?_⟩
        · rw [hgroup] at hg
          exact (Option.some.inj hg).symm
        · rw [hdevice] at hdid
          exact (Option.some.inj hdid).symm
        · rw [Conn.shown_eq_frames, onJoin_frames, ← Conn.shown_eq_frames] at hp
          exact (channel_extends hacc g').subset (h.shown p hp)
  | publish d now g' ciphertext nonce ts did' hjoined => exact h.same hacc rfl rfl rfl
  | fetch d now g' hopen hgroup =>
      have hq := quiet_fetched r d now g'
      rcases fetched_frames r d now g' cid with hsame | ⟨rfl, hmore⟩
      · exact h.same hacc (hq.group cid) (hq.deviceId cid) hsame
      · refine h.more hacc (hq.group cid) (hq.deviceId cid) hmore fun msg hmsg p hp => ?_
        rw [List.mem_singleton.1 hmsg] at hp
        rw [← h.group g' hgroup]
        exact ((recent_sublist r.hub now g').trans (hk.cache g')).subset hp
  | broadcast d hopen hrecv =>
      obtain ⟨rx, sent, hconn⟩ := hrecv.conns cid
      obtain ⟨msgs, hframes, hmsgs⟩ := hrecv.forwards hr cid
      exact h.more hacc (by rw [hconn]) (by rw [hconn]) hframes fun msg hmsg p hp =>
        hmsgs msg hmsg p hp g h.group

end Relay

/-! ## One client -/

namespace World

section

variable [Aead] [ClipJson]

/-- The client of `cfg` writes this message, and publishes what a command in `es` told it to. -/
def Writes (cfg : ClientConfig) (es : List Event) : ClientMessage → Prop
  | .join g did => g = cfg.groupId ∧ did = cfg.deviceId
  | .publish g ciphertext nonce ts =>
      g = cfg.groupId ∧ ∃ payload drawn, .sendClip payload drawn ∈ es ∧
        encrypt cfg.key drawn (ClipJson.toVec payload) = .ok (ciphertext, nonce) ∧ ts = payload.ts
  | _ => True

/-- Where the frames and the clips of one client come from, in a run of the events `es`. -/
structure Traced (cfg : ClientConfig) (es : List Event) (w : World) : Prop where
  routed : Relay.Routed w.relay
  kept : Relay.Kept w.relay
  opened : Relay.OpenHandedOut w.relay
  session : ∀ cid, w.session = some cid → cid ∈ w.mine
  handedOut : ∀ cid ∈ w.mine, cid < w.relay.hub.connSeq
  written : ∀ cid ∈ w.mine, ∀ out ∈ w.outbox cid, Writes cfg es out.msg
  attributed : ∀ cid ∈ w.mine, Relay.Attributed cfg.groupId cfg.deviceId cid w.relay
  older : ∀ a ∈ w.relay.accepted, a.conn < w.relay.hub.connSeq
  published : ∀ a ∈ w.relay.accepted, a.conn ∈ w.mine →
    a.clip.senderDeviceId = cfg.deviceId ∧
      Writes cfg es (.publish a.group a.clip.ciphertext a.clip.nonce a.clip.ts)
  shown : ∀ p payload, .onClip (.relay p) payload ∈ w.worker.trace →
    p ∈ channel w.relay.accepted cfg.groupId ∧ openClip cfg.key p.clip = some payload ∧
      p.clip.senderDeviceId ≠ cfg.deviceId

variable {cfg : ClientConfig} {es : List Event} {w w' : World}

theorem traced_init (cfg : ClientConfig) (es : List Event) : Traced cfg es init where
  routed := Relay.routed_init
  kept := Relay.kept_init
  opened cid h := by simp [init, Relay.init, Relay.Conn.start] at h
  session := by simp [init]
  handedOut := by simp [init]
  written := by simp [init]
  attributed := by simp [init]
  older := by simp [init, Relay.init]
  published := by simp [init, Relay.init]
  shown := by simp [init, Worker.start]

/-- The client writes a frame, or ends its session, and takes no clip. -/
theorem Traced.idle (h : Traced cfg es w) (hrelay : w'.relay = w.relay) (hmine : w'.mine = w.mine)
    (hsession : ∀ cid, w'.session = some cid → w.session = some cid)
    (hworker : w.worker.Idle w'.worker)
    (hwritten : ∀ cid ∈ w.mine, ∀ out ∈ w'.outbox cid, Writes cfg es out.msg) :
    Traced cfg es w' := by
  obtain ⟨notes, htrace, hnotes⟩ := hworker.trace
  refine ⟨?_, ?_, ?_, ?_, ?_, ?_, ?_, ?_, ?_, ?_⟩
  · rw [hrelay]; exact h.routed
  · rw [hrelay]; exact h.kept
  · rw [hrelay]; exact h.opened
  · rw [hmine]; exact fun cid hcid => h.session cid (hsession cid hcid)
  · rw [hmine, hrelay]; exact h.handedOut
  · rw [hmine]; exact hwritten
  · rw [hmine, hrelay]; exact h.attributed
  · rw [hrelay]; exact h.older
  · rw [hmine, hrelay]; exact h.published
  · rw [hrelay, htrace]
    intro p payload hp
    exact h.shown p payload ((List.mem_append.1 hp).resolve_right (hnotes _ _))

theorem Traced.hangUp (h : Traced cfg es w) (state : ConnectionState) :
    Traced cfg es (w.onHangUp state) := by
  refine h.idle (onHangUp_relay w state) ?_ ?_ (onHangUp_idle w state) ?_
  all_goals
    unfold onHangUp
    split
  · rfl
  · rfl
  · exact fun cid hcid => hcid
  · exact fun cid hcid => by cases hcid
  · exact h.written
  · exact h.written

theorem Traced.write (h : Traced cfg es w) {cid : ConnId} {out : Outgoing}
    (hout : Writes cfg es out.msg) :
    ∀ d ∈ w.mine, ∀ o ∈ (w.write cid out).outbox d, Writes cfg es o.msg := by
  intro d hd o ho
  unfold World.write at ho
  dsimp only at ho
  by_cases heq : d = cid
  · subst heq
    rw [Function.update_self] at ho
    rcases List.mem_append.1 ho with ho | ho
    · exact h.written d hd o ho
    · rw [List.mem_singleton.1 ho]
      exact hout
  · rw [Function.update_of_ne heq] at ho
    exact h.written d hd o ho

/-- Clips that are taken are shown only if they are the relay's, and open. -/
theorem shown_receiveAll (cfg : ClientConfig) (v : Worker Relay.Published) (lags : List Duration)
    (as : List (Arrival Relay.Published)) {p : Relay.Published} {payload : ClipPayload}
    (hp : .onClip (.relay p) payload ∈ (receiveAll cfg v lags as).trace) :
    .onClip (.relay p) payload ∈ v.trace ∨
      .relay p ∈ as ∧ openClip cfg.key p.clip = some payload ∧
        p.clip.senderDeviceId ≠ cfg.deviceId := by
  induction as generalizing v lags with
  | nil => exact Or.inl hp
  | cons a as ih =>
      rcases ih _ _ hp with hp | ⟨hmem, hrest⟩
      · unfold receive at hp
        split at hp
        · exact Or.inl hp
        · next hforeign =>
            cases hins : (v.wait (lags.headD 0)).insert a.key with
            | mk fresh v' =>
              have htrace : v'.trace = v.trace := by
                have hv := congrArg (fun q => q.2.trace) hins
                exact hv.symm
              rw [hins] at hp
              cases fresh with
              | false => exact Or.inl (htrace ▸ hp)
              | true =>
                  dsimp only at hp
                  split at hp
                  · next payload' hopen =>
                      rw [Worker.note, htrace] at hp
                      rcases List.mem_append.1 hp with hp | hp
                      · exact Or.inl hp
                      · cases List.mem_singleton.1 hp
                        exact Or.inr ⟨List.mem_cons_self, hopen, hforeign⟩
                  · exact Or.inl (htrace ▸ hp)
      · exact Or.inr ⟨List.mem_cons_of_mem a hmem, hrest⟩

/-- The worker takes clips that the relay sent to the session. -/
theorem Traced.takes (h : Traced cfg es w) {lags : List Duration}
    {as : List (Arrival Relay.Published)}
    (has : ∀ p, .relay p ∈ as → p ∈ channel w.relay.accepted cfg.groupId) {handled : Nat} :
    Traced cfg es { w with worker := receiveAll cfg w.worker lags as, handled } :=
  { h with
    shown := by
      intro p payload hp
      rcases shown_receiveAll cfg w.worker lags as hp with hp | ⟨hmem, hrest⟩
      · exact h.shown p payload hp
      · exact ⟨has p hmem, hrest⟩ }

theorem Traced.handle (h : Traced cfg es w) (lags : List Duration) :
    Traced cfg es (w.onHandle cfg lags) := by
  unfold onHandle
  cases hnext : w.nextFrame with
  | none => exact h
  | some msg =>
      obtain ⟨cid, hcid, hget⟩ :
          ∃ cid ∈ w.mine, (w.relay.conns cid).sent[w.handled]? = some msg := by
        unfold nextFrame at hnext
        split at hnext
        · cases hnext
        · rename_i cid hsession
          exact ⟨cid, h.session cid hsession, hnext⟩
      have hclips : ∀ p, .relay p ∈ arrivals msg → p ∈ channel w.relay.accepted cfg.groupId := by
        intro p hp
        refine (h.attributed cid hcid).shown p
          (List.mem_flatMap.2 ⟨msg, List.mem_of_getElem? hget, ?_⟩)
        cases msg with
        | clip c => simpa [arrivals, Relay.clipsIn] using hp
        | recent clips => simpa [arrivals, Relay.clipsIn] using hp
        | joined | error | lanPeers => simp [arrivals] at hp
      dsimp only
      rcases onFrame_cases cfg w.worker lags msg with hw | ⟨-, hw⟩
      · rw [hw]
        exact h.takes hclips
      · exact h.idle rfl rfl (fun _ hcid => hcid) hw h.written

end

section

variable [SocketAddrText] [Aead] [ClipJson] {cfg : ClientConfig} {es : List Event} {w w' : World}

/-- An event that is event `f` for the relay and nothing for the worker. -/
theorem Traced.relayed (h : Traced cfg es w) {f : Relay.Event}
    (hrelay : w'.relay = w.relay.step f) (hmine : w'.mine = w.mine)
    (hsession : w'.session = w.session) (hworker : w'.worker = w.worker)
    (hwritten : ∀ cid ∈ w.mine, ∀ out ∈ w'.outbox cid, Writes cfg es out.msg)
    (hframe : ∀ cid ∈ w.mine, ∀ now msg, f = .frame cid now (.text (.ok msg)) →
      Writes cfg es msg) : Traced cfg es w' := by
  have hseq := Relay.connSeq_le_step w.relay f
  refine ⟨?_, ?_, ?_, ?_, ?_, ?_, ?_, ?_, ?_, ?_⟩
  · rw [hrelay]; exact Relay.routed_step _ _ h.routed
  · rw [hrelay]; exact Relay.kept_step _ _ h.kept
  · rw [hrelay]; exact Relay.openHandedOut_step _ _ h.opened
  · rw [hmine, hsession]; exact h.session
  · rw [hmine, hrelay]
    exact fun cid hcid => Nat.lt_of_lt_of_le (h.handedOut cid hcid) hseq
  · rw [hmine]; exact hwritten
  · rw [hmine, hrelay]
    exact fun cid hcid => Relay.attributed_step w.relay f h.routed h.kept (h.handedOut cid hcid)
      (h.attributed cid hcid) fun now g did hf => hframe cid hcid now _ hf
  · rw [hrelay]
    intro a ha
    rcases Relay.accepted_step w.relay f with hsame | ⟨b, hb, hmore⟩
    · rw [hsame] at ha
      exact Nat.lt_of_lt_of_le (h.older a ha) hseq
    · rw [hmore, List.mem_append, List.mem_singleton] at ha
      rcases ha with ha | rfl
      · exact Nat.lt_of_lt_of_le (h.older a ha) hseq
      · exact Nat.lt_of_lt_of_le (h.opened a.conn hb.2.1) hseq
  · rw [hmine, hrelay]
    intro a ha hcid
    rcases Relay.accepted_step w.relay f with hsame | ⟨b, ⟨⟨now, hf⟩, hjoined⟩, hmore⟩
    · rw [hsame] at ha
      exact h.published a ha hcid
    · rw [hmore, List.mem_append, List.mem_singleton] at ha
      rcases ha with ha | rfl
      · exact h.published a ha hcid
      · exact ⟨(h.attributed a.conn hcid).deviceId _ hjoined.2.2, hframe a.conn hcid now _ hf⟩
  · rw [hrelay, hworker]
    intro p payload hp
    have hacc := Relay.accepted_extends w.relay [f]
    obtain ⟨hmem, hrest⟩ := h.shown p payload hp
    exact ⟨(Relay.channel_extends hacc _).subset hmem, hrest⟩

theorem Traced.dial (h : Traced cfg es w) (egress : Relay.IpAddr) :
    Traced cfg es (w.onDial cfg egress) := by
  unfold onDial
  cases hsession : w.session with
  | some cid => exact h
  | none =>
      have hstep : ∀ r : Relay, (r.step (.connect egress)).accepted = r.accepted := fun r => rfl
      have hconn : (w.relay.step (.connect egress)).conns w.relay.hub.connSeq =
          Relay.Conn.start egress := Relay.setConn_conns_self _ _ _
      have hseq : (w.relay.step (.connect egress)).hub.connSeq = w.relay.hub.connSeq + 1 := rfl
      refine ⟨?_, ?_, ?_, ?_, ?_, ?_, ?_, ?_, ?_, ?_⟩
      · exact Relay.routed_step _ _ h.routed
      · exact Relay.kept_step _ _ h.kept
      · exact Relay.openHandedOut_step _ _ h.opened
      · intro cid hcid
        cases hcid
        exact List.mem_cons_self
      · intro cid hcid
        dsimp only
        rw [hseq]
        rcases List.mem_cons.1 hcid with rfl | hcid
        · exact Nat.lt_succ_self _
        · exact Nat.lt_succ_of_lt (h.handedOut cid hcid)
      · intro cid hcid out hout
        dsimp only at hout
        by_cases heq : cid = w.relay.hub.connSeq
        · rw [heq, Function.update_self] at hout
          rcases List.mem_cons.1 hout with rfl | hout
          · exact ⟨rfl, rfl⟩
          · rw [List.mem_singleton.1 hout]
            trivial
        · rw [Function.update_of_ne heq] at hout
          exact h.written cid ((List.mem_cons.1 hcid).resolve_left heq) out hout
      · intro cid hcid
        by_cases heq : cid = w.relay.hub.connSeq
        · exact Relay.attributed_start (heq ▸ hconn)
        · have hold := (List.mem_cons.1 hcid).resolve_left heq
          exact Relay.attributed_step w.relay _ h.routed h.kept (h.handedOut cid hold)
            (h.attributed cid hold) fun now g did hf => by cases hf
      · intro a ha
        dsimp only at ha ⊢
        rw [hstep] at ha
        rw [hseq]
        exact Nat.lt_succ_of_lt (h.older a ha)
      · intro a ha hcid
        dsimp only at ha
        rw [hstep] at ha
        rcases List.mem_cons.1 hcid with heq | hcid
        · exact absurd (heq ▸ h.older a ha) (Nat.lt_irrefl _)
        · exact h.published a ha hcid
      · intro p payload hp
        dsimp only at hp ⊢
        rw [hstep]
        refine h.shown p payload ?_
        simpa [Worker.note] using hp

theorem traced_step (cfg : ClientConfig) (es : List Event) (w : World) (e : Event) (he : e ∈ es)
    (h : Traced cfg es w) : Traced cfg es (step cfg w e) := by
  cases e with
  | relay f =>
      simp only [step]
      split
      · exact h
      · next hframes =>
          refine h.relayed rfl rfl rfl rfl h.written fun cid hcid now msg hf => ?_
          subst hf
          simp [framesMine, hcid] at hframes
  | dial egress => exact h.dial egress
  | sendClip payload nonce =>
      simp only [step, onSendClip]
      split
      · exact h
      · split
        · exact h.hangUp _
        · next ciphertext nonce' henc =>
            exact h.idle rfl rfl (fun _ hcid => hcid) (Worker.idle_note (by simp))
              (h.write ⟨rfl, payload, nonce, he, henc, rfl⟩)
  | fetchRecent =>
      simp only [step, onFetchRecent]
      split
      · exact h
      · exact h.idle rfl rfl (fun _ hcid => hcid) w.worker.idle_refl (h.write trivial)
  | advertise candidateNetworks =>
      simp only [step, onAdvertise]
      split
      · exact h
      · split
        · exact h
        · exact h.idle rfl rfl (fun _ hcid => hcid) ⟨rfl, rfl, rfl, [], by simp, by simp⟩
            (h.write trivial)
  | arrive cid now =>
      simp only [step, onArrive]
      split
      · next hcid =>
          split
          · exact h
          · next out rest hout =>
              have hmem : ∀ o ∈ out :: rest, Writes cfg es o.msg := hout ▸ h.written cid hcid
              refine h.relayed rfl rfl rfl rfl (fun d hd o ho => ?_) fun d hd now' msg hf => ?_
              · dsimp only at ho
                by_cases heq : d = cid
                · rw [heq, Function.update_self] at ho
                  exact hmem o (List.mem_cons_of_mem _ ho)
                · rw [Function.update_of_ne heq] at ho
                  exact h.written d hd o ho
              · cases hf
                exact hmem out List.mem_cons_self
      · exact h
  | handle lags => exact h.handle lags
  | lanInbound lag c =>
      exact @Traced.takes _ _ cfg es w h [lag] [.lan c] (by simp) w.handled
  | hangUp state => exact h.hangUp state

theorem traced_run (cfg : ClientConfig) (es : List Event) : Traced cfg es (run cfg es) :=
  Machine.invariant_along (traced_step cfg es) (traced_init cfg es)
    (Machine.along_iff_forall_mem.2 fun _ he => he)

end

end World

/-! ## A fleet -/

namespace Fleet

variable {D : Type}

/-- A connection of none of the devices publishes the clip. -/
def ForeignPublish (es : List (Event D)) (c : RecentClip) : Prop :=
  ∃ cid now g,
    .relay (.frame cid now (.text (.ok (.publish g c.ciphertext c.nonce c.ts)))) ∈ es

variable [DecidableEq D] [SocketAddrText] [Aead] [ClipJson]

def ToldToSend (es : List (Event D)) (d : D) (payload : ClipPayload) : Prop :=
  ∃ drawn, .device d (.sendClip payload drawn) ∈ es

/-- Device `d` seals the payloads that it sends, and with the same key images and LAN frames, which
are `others`. -/
def Seals (others : D → Bytes → Prop) (es : List (Event D)) (d : D) (plain : Bytes) : Prop :=
  (∃ payload, ToldToSend es d payload ∧ plain = ClipJson.toVec payload) ∨ others d plain

/-- The cipher cannot be forged: what a device can open, although a foreign connection published it,
was sealed by a device that has the key. -/
def Authentic (others : D → Bytes → Prop) (cfg : D → ClientConfig) (es : List (Event D)) : Prop :=
  ∀ c, ForeignPublish es c → ∀ d plain,
    Aead.decrypt (cfg d).key c.nonce c.ciphertext = some plain →
      ∃ d', (cfg d').key = (cfg d).key ∧ Seals others es d' plain

/-- What a device is shown through the relay, another device of its group was told to send, and the
clip has that device's name and the payload's time. Or a foreign connection published the clip, and
what it contains was sealed by a device with the same key: as a payload, or as something else that
can be read as one. -/
def Genuine (others : D → Bytes → Prop) (cfg : D → ClientConfig) (es : List (Event D)) : Prop :=
  ∀ d p payload,
    .onClip (.relay p) payload ∈ ((run cfg es).devices d).worker.trace →
      (∃ d', d' ≠ d ∧ (cfg d').groupId = (cfg d).groupId ∧ ToldToSend es d' payload ∧
        p.clip.senderDeviceId = (cfg d').deviceId ∧ p.clip.ts = payload.ts) ∨
      ForeignPublish es p.clip ∧ ∃ d', (cfg d').key = (cfg d).key ∧
        (ToldToSend es d' payload ∨
          ∃ plain, others d' plain ∧ ClipJson.fromSlice plain = some payload)

/-- Every accepted publish was made on a connection of a device, or by a foreign one. -/
def Sourced (es : List (Event D)) (f : Fleet D) : Prop :=
  ∀ a ∈ f.relay.accepted, (∃ d, a.conn ∈ (f.devices d).mine) ∨ ForeignPublish es a.clip

theorem mine_subset_step (cfg : ClientConfig) (w : World) (e : World.Event) :
    w.mine ⊆ (w.step cfg e).mine := by
  rcases mine_step cfg w e with h | ⟨h, -⟩
  · rw [h]
    exact List.Subset.refl _
  · rw [h]
    exact List.subset_cons_self _ _

omit [SocketAddrText] [Aead] [ClipJson] in
/-- A frame that a device's client wrote goes over a connection of the device. -/
theorem mine_of_relayEvent {w : World} {e : World.Event} (he : isOwn e) {cid : ConnId}
    {now : Instant} {frame : Relay.Frame} (h : w.relayEvent e = some (.frame cid now frame)) :
    cid ∈ w.mine := by
  cases e with
  | relay e => simp [isOwn] at he
  | arrive d now' =>
      simp only [World.relayEvent] at h
      split at h
      · next hcid =>
          obtain ⟨out, -, heq⟩ := Option.map_eq_some_iff.1 h
          cases heq
          exact hcid
      · cases h
  | dial egress =>
      simp only [World.relayEvent] at h
      split at h <;> cases h
  | sendClip _ _ | fetchRecent | advertise _ | handle _ | lanInbound _ _ | hangUp _ => cases h

theorem sourced_step (cfg : D → ClientConfig) (es : List (Event D)) (f : Fleet D) (e : Event D)
    (he : e ∈ es) (h : Sourced es f) : Sourced es (step cfg f e) := by
  cases e with
  | device d e =>
      simp only [step]
      split
      · next hown =>
          have hkeep : ∀ cid, (∃ d', cid ∈ (f.devices d').mine) →
              ∃ d', cid ∈ ((f.moved d ((f.view d).step (cfg d) e)).devices d').mine := by
            rintro cid ⟨d', hcid⟩
            by_cases hd : d' = d
            · subst hd
              refine ⟨d', ?_⟩
              simp only [moved, Function.update_self]
              exact mine_subset_step _ _ _ hcid
            · exact ⟨d', by simpa only [moved, Function.update_of_ne hd] using hcid⟩
          intro a ha
          have hrelay : (f.moved d ((f.view d).step (cfg d) e)).relay =
              ((f.view d).relayEvent e).elim f.relay f.relay.step := World.relay_step _ _ _
          rw [hrelay] at ha
          cases hr : (f.view d).relayEvent e with
          | none =>
              rw [hr] at ha
              exact (h a ha).imp_left (hkeep a.conn)
          | some r =>
              rw [hr, Option.elim_some] at ha
              rcases Relay.accepted_step f.relay r with hsame | ⟨b, ⟨⟨now, hb⟩, -⟩, hmore⟩
              · rw [hsame] at ha
                exact (h a ha).imp_left (hkeep a.conn)
              · rw [hmore, List.mem_append, List.mem_singleton] at ha
                rcases ha with ha | rfl
                · exact (h a ha).imp_left (hkeep a.conn)
                · rw [hb] at hr
                  exact Or.inl (hkeep a.conn ⟨d, mine_of_relayEvent hown hr⟩)
      · exact h
  | relay r =>
      simp only [step]
      split
      · exact h
      · intro a ha
        rcases Relay.accepted_step f.relay r with hsame | ⟨b, ⟨⟨now, hb⟩, -⟩, hmore⟩
        · exact h a (hsame ▸ ha)
        · dsimp only at ha
          rw [hmore, List.mem_append, List.mem_singleton] at ha
          rcases ha with ha | rfl
          · exact h a ha
          · exact Or.inr ⟨a.conn, now, a.group, hb ▸ he⟩

theorem sourced_run (cfg : D → ClientConfig) (es : List (Event D)) : Sourced es (run cfg es) :=
  Machine.invariant_along (sourced_step cfg es) (by simp [Sourced, init, Relay.init])
    (Machine.along_iff_forall_mem.2 fun _ he => he)

omit [SocketAddrText] [Aead] [ClipJson] in
/-- A command in a device's world is one of the device's in the fleet. -/
theorem device_of_mem {es : List (Event D)} {d : D} {ws : List World.Event}
    (hws : ws.filter isOwn = es.filterMap (ownEvent d)) {e : World.Event} (he : isOwn e)
    (hmem : e ∈ ws) : .device d e ∈ es := by
  have hfilter : e ∈ ws.filter isOwn := List.mem_filter.2 ⟨hmem, he⟩
  rw [hws, List.mem_filterMap] at hfilter
  obtain ⟨f, hf, hown⟩ := hfilter
  cases f with
  | device d' e' =>
      simp only [ownEvent] at hown
      split at hown
      · next h =>
          cases hown
          rw [← h.1]
          exact hf
      · cases hown
  | relay r => cases hown

omit [DecidableEq D] [SocketAddrText] in
/-- What is opened with a key was opened by the cipher, with a nonce of the right length. -/
theorem decrypt_of_openClip {key : Key} {c : RecentClip} {payload : ClipPayload}
    (h : openClip key c = some payload) :
    c.nonce.length = nonceLen ∧ ∃ plain, Aead.decrypt key c.nonce c.ciphertext = some plain ∧
      ClipJson.fromSlice plain = some payload := by
  unfold openClip decrypt at h
  split at h
  · next plain hplain =>
      split at hplain
      · cases hplain
      · next hlen =>
          split at hplain
          · next hdec =>
              cases hplain
              exact ⟨not_not.1 hlen, plain, hdec, h⟩
          · cases hplain
  · cases h

omit [DecidableEq D] [SocketAddrText] [ClipJson] in
/-- A publish of a device is opened with the key as what was sealed. -/
theorem decrypt_of_encrypt {key : Key} {drawn plain ciphertext nonce : Bytes}
    (hopens : ∀ nonce plain c, nonce.length = nonceLen → Aead.encrypt key nonce plain = some c →
      Aead.decrypt key nonce c = some plain)
    (hlen : nonce.length = nonceLen) (h : encrypt key drawn plain = .ok (ciphertext, nonce)) :
    Aead.decrypt key nonce ciphertext = some plain := by
  unfold encrypt at h
  split at h
  · next c hc =>
      cases h
      exact hopens _ _ _ hlen hc
  · cases h

/-- **What a device is shown is genuine**, in every run of any number of devices, whatever foreign
connections send: if a payload is read back from its text, the cipher opens what it sealed and
cannot be forged, and the devices of a group have the same key. -/
theorem genuine_run (others : D → Bytes → Prop) (cfg : D → ClientConfig) (es : List (Event D))
    (hreads : ∀ payload, ClipJson.fromSlice (ClipJson.toVec payload) = some payload)
    (hopens : ∀ d nonce plain c, nonce.length = nonceLen →
      Aead.encrypt (cfg d).key nonce plain = some c →
        Aead.decrypt (cfg d).key nonce c = some plain)
    (hkeys : ∀ d d', (cfg d').groupId = (cfg d).groupId → (cfg d').key = (cfg d).key)
    (hauthentic : Authentic others cfg es) : Genuine others cfg es := by
  intro d p payload hp
  obtain ⟨ws, hview, -⟩ := refines cfg es d
  have htraced := hview ▸ World.traced_run (cfg d) ws
  obtain ⟨hmem, hopen, hother⟩ := htraced.shown p payload hp
  obtain ⟨a, ha, hgroup, hclip⟩ := Relay.mem_channel.1 hmem
  obtain ⟨hlen, plain, hdec, hread⟩ := decrypt_of_openClip hopen
  rcases sourced_run cfg es a (List.mem_of_getElem? ha) with ⟨d', hmine⟩ | hforeign
  · obtain ⟨ws', hview', hws'⟩ := refines cfg es d'
    have htraced' := hview' ▸ World.traced_run (cfg d') ws'
    obtain ⟨hsender, hg, payload', drawn, hsend, henc, hts⟩ :=
      htraced'.published a (List.mem_of_getElem? ha) hmine
    have hgroups : (cfg d').groupId = (cfg d).groupId := hg.symm.trans hgroup
    have hplain := decrypt_of_encrypt (hopens d') (hclip ▸ hlen) henc
    rw [hclip, hkeys d d' hgroups, hdec, Option.some.injEq] at hplain
    rw [hplain, hreads, Option.some.injEq] at hread
    subst hread
    rw [hclip] at hsender hts
    refine Or.inl ⟨d', ?_, hgroups, ⟨drawn, device_of_mem hws' rfl hsend⟩, hsender, hts⟩
    rintro rfl
    exact hother hsender
  · rw [hclip] at hforeign
    obtain ⟨d', hkey, hseals⟩ := hauthentic p.clip hforeign d plain hdec
    refine Or.inr ⟨hforeign, d', hkey, ?_⟩
    rcases hseals with ⟨payload', hsend, hplain⟩ | hothers
    · rw [hplain, hreads, Option.some.injEq] at hread
      exact Or.inl (hread ▸ hsend)
    · exact Or.inr ⟨plain, hothers, hread⟩

/-! ## A run on fixed inputs -/

/-- Two devices of a group. -/
def pair (first : Bool) : ClientConfig :=
  if first then { sampleConfig with deviceId := "pc" } else sampleConfig

/-- `serde_json` on the payloads that it has written itself. -/
@[reducible] def writtenJson : ClipJson where
  toVec payload := payload.toJson.text
  fromSlice bytes := (Json.fromSlice bytes).bind ClipPayload.ofJson

def sentText : ClipPayload := ⟨.text, "A", "PC", 7, none⟩

/-- The first device sends a text, and the second one is shown it. Then somebody else publishes the
same ciphertext once more, and the second device is shown the text again. -/
def sentAndReplayed : List (Event Bool) :=
  [.device true (.dial (.v4 0x0a000001)), .device true (.arrive 1 0), .device true (.arrive 1 0),
   .device false (.dial (.v4 0x0a000002)), .device false (.arrive 2 0), .device false (.arrive 2 0),
   .device true (.sendClip sentText (List.replicate nonceLen 0)),
   .device true (.arrive 1 0), .relay (.broadcast 2), .device false (.handle []),
   .device false (.handle []), .device false (.handle []),
   .relay (.connect (.v4 0x0a000003)),
   .relay (.frame 3 0 (.text (.ok (.join sampleConfig.groupId "guest")))),
   .relay (.frame 3 0 (.text (.ok (.publish sampleConfig.groupId sentText.toJson.text
     (List.replicate nonceLen 0) 8)))),
   .relay (.broadcast 2), .device false (.handle [])]

omit [SocketAddrText] [Aead] [ClipJson] in
theorem sentAndReplayed_genuine :
    @Genuine Bool _ noAddrText clearAead writtenJson (fun _ _ => False) pair sentAndReplayed ∧
      ((@run Bool _ noAddrText clearAead writtenJson pair sentAndReplayed).devices
        false).worker.delivered.length = 2 := by
  let _ := noAddrText
  let _ := clearAead
  let _ := writtenJson
  have hkey : ∀ d, (pair d).key = sampleConfig.key := by decide
  have hauthentic : Authentic (fun _ _ => False) pair sentAndReplayed := by
    rintro c ⟨cid, now, g, hmem⟩ d plain hdec
    have hclip : c.ciphertext = sentText.toJson.text := by
      simp [sentAndReplayed] at hmem
      exact hmem.2.2.2.1
    rw [hclip] at hdec
    cases hdec
    have hsend : ToldToSend sentAndReplayed true sentText :=
      ⟨List.replicate nonceLen 0, by simp [sentAndReplayed]⟩
    exact ⟨true, by rw [hkey, hkey], Or.inl ⟨sentText, hsend, rfl⟩⟩
  refine ⟨genuine_run _ pair sentAndReplayed (fun payload => payload.faithful.fromSlice (by decide))
    ?_ (fun d d' _ => ?_) hauthentic, by decide +kernel⟩
  · intro d nonce plain c _ h
    cases h
    rfl
  · rw [hkey d, hkey d']

end Fleet

end ClipBridge
