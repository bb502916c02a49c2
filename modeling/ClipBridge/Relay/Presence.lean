import ClipBridge.Relay.Effects

/-!
# Presence: who is introduced to whom

A connection is *present* in a group once it has advertised there, until the relay removes its
slot. The program removes one slot only, at close, in the group it remembers from the last
advertisement; a join does not touch presence.

* `Presence.slot` — the slot of a connection behind an egress address, and what the two
  rendezvous calls do to it.
* `Change`, `step_change` — what one event does to presence and to a connection's standing.
* `JoinsOwn` — the condition that a connection that has advertised joins no other group.
* `presence_iff` — presence follows membership along a run exactly if that condition does.
-/

namespace ClipBridge.Relay

/-! ## Slots -/

/-- The slot of connection `cid` behind the egress address `ip`. -/
def Presence.slot (p : Presence) (ip : IpAddr) (cid : ConnId) : Option RvConn :=
  (p.lookup ip).bind (·.lookup cid)

/-- The slot of connection `cid` in group `g`. -/
def Hub.slot {κ : Type} (hub : Hub κ) (g : GroupId) (ip : IpAddr) (cid : ConnId) :
    Option RvConn :=
  Presence.slot (hub.entry g).presence ip cid

theorem slot_set {κ : Type} (hub : Hub κ) (g g' : GroupId) (group : Group κ) (ip : IpAddr)
    (cid : ConnId) :
    (hub.set g group).slot g' ip cid =
      if g' = g then Presence.slot group.presence ip cid else hub.slot g' ip cid := by
  unfold Hub.slot
  by_cases hg : g' = g
  · subst hg; simp
  · rw [hub.entry_set_ne hg, if_neg hg]

theorem slot_insert (p : Presence) (ip ip' : IpAddr) (conns : Conns) (cid : ConnId) :
    Presence.slot (p.insert ip conns) ip' cid =
      if ip' = ip then conns.lookup cid else Presence.slot p ip' cid := by
  unfold Presence.slot
  by_cases hip : ip' = ip
  · subst hip; simp
  · rw [AList.lookup_insert_ne hip, if_neg hip]

section

variable [SocketAddrText] {κ : Type}

/-- An upsert writes one slot. -/
theorem slot_rendezvousUpsert (hub : Hub κ) (u : RendezvousUpdate) (g : GroupId) (ip : IpAddr)
    (cid : ConnId) :
    (hub.rendezvousUpsert u).1.slot g ip cid =
      if g = u.groupId ∧ ip = u.egress ∧ cid = u.connId then
        some ⟨u.deviceId, u.deviceName, u.candidates, u.candidateNetworks, u.tx⟩
      else hub.slot g ip cid := by
  unfold Hub.rendezvousUpsert
  rw [slot_set]
  by_cases hg : g = u.groupId
  · subst hg
    rw [if_pos rfl, slot_insert]
    by_cases hip : ip = u.egress
    · subst hip
      by_cases hcid : cid = u.connId
      · subst hcid; simp
      · rw [if_pos rfl, AList.lookup_insert_ne hcid, if_neg (by tauto)]
        unfold Hub.slot Presence.slot
        cases (hub.entry u.groupId).presence.lookup u.egress <;> simp
    · rw [if_neg hip, if_neg (by tauto)]
      rfl
  · rw [if_neg hg, if_neg (by tauto)]

/-- A removal clears one slot. -/
theorem slot_rendezvousRemove (hub : Hub κ) (g₀ : GroupId) (egress : IpAddr) (cid₀ : ConnId)
    (g : GroupId) (ip : IpAddr) (cid : ConnId) :
    (hub.rendezvousRemove g₀ egress cid₀).1.slot g ip cid =
      if g = g₀ ∧ ip = egress ∧ cid = cid₀ then none else hub.slot g ip cid := by
  unfold Hub.rendezvousRemove
  rw [slot_set]
  by_cases hg : g = g₀
  · subst hg
    rw [if_pos rfl]
    unfold Hub.slot
    rcases hconns : (hub.entry g).presence.lookup egress with _ | conns
    · dsimp only
      split
      · rename_i h
        rw [h.2.1]
        simp [Presence.slot, hconns]
      · rfl
    · -- The slot map behind `egress` becomes `conns` without `cid₀`, or goes if that is empty.
      have hslot : ∀ d, (if (AList.erase cid₀ conns).entries.isEmpty then
          Presence.slot ((hub.entry g).presence.erase egress) egress d
          else (conns.erase cid₀).lookup d) = (conns.erase cid₀).lookup d := by
        intro d
        split
        · rename_i hempty
          have hnil : conns.erase cid₀ = ∅ := AList.ext (List.isEmpty_iff.1 hempty)
          rw [hnil]
          simp [Presence.slot]
        · rfl
      by_cases hip : ip = egress
      · subst hip
        have hlookup : Presence.slot
            (if (AList.erase cid₀ conns).entries.isEmpty then (hub.entry g).presence.erase ip
              else (hub.entry g).presence.insert ip (conns.erase cid₀)) ip cid =
            (conns.erase cid₀).lookup cid := by
          rw [← hslot cid]
          split
          · rfl
          · rw [slot_insert, if_pos rfl]
        refine hlookup.trans ?_
        by_cases hcid : cid = cid₀
        · subst hcid; simp
        · rw [AList.lookup_erase_ne hcid, if_neg (by tauto)]
          simp [Presence.slot, hconns]
      · rw [if_neg (by tauto)]
        dsimp only
        split
        · simp [Presence.slot, AList.lookup_erase_ne hip]
        · rw [slot_insert, if_neg hip]
  · rw [if_neg hg, if_neg (by tauto)]

theorem rendezvousUpsert_pushes (hub : Hub κ) (u : RendezvousUpdate) :
    (hub.rendezvousUpsert u).2 =
      pushEgress ((hub.rendezvousUpsert u).1.entry u.groupId).presence u.egress := by
  unfold Hub.rendezvousUpsert
  rw [Hub.entry_set_self]

theorem rendezvousRemove_pushes (hub : Hub κ) (g : GroupId) (egress : IpAddr) (cid : ConnId) :
    (hub.rendezvousRemove g egress cid).2 =
      pushEgress ((hub.rendezvousRemove g egress cid).1.entry g).presence egress := by
  unfold Hub.rendezvousRemove
  rw [Hub.entry_set_self]

/-! ## Snapshots -/

omit [SocketAddrText] in
theorem ByDevice.mem_of_lookup_add {byDid : ByDevice} {oid : ConnId} {oc : RvConn}
    {did : DeviceId} {p : ConnId × RvConn} (h : (byDid.add oid oc).lookup did = some p) :
    p.1 = oid ∨ ∃ did', byDid.lookup did' = some p := by
  have hins : ∀ (q : ConnId × RvConn), (byDid.insert oc.deviceId q).lookup did = some p →
      p = q ∨ ∃ did', byDid.lookup did' = some p := by
    intro q hlook
    by_cases hd : did = oc.deviceId
    · subst hd
      rw [AList.lookup_insert, Option.some.injEq] at hlook
      exact Or.inl hlook.symm
    · rw [AList.lookup_insert_ne hd] at hlook
      exact Or.inr ⟨did, hlook⟩
  unfold ByDevice.add at h
  split at h
  · rename_i latest hlatest
    rcases hins _ h with rfl | hold
    · split
      · exact Or.inl rfl
      · exact Or.inr ⟨_, hlatest⟩
    · exact Or.inr hold
  · rcases hins _ h with rfl | hold
    · exact Or.inl rfl
    · exact Or.inr hold

omit [SocketAddrText] in
/-- The rows of a snapshot come from connections present behind the egress address. -/
theorem mem_of_lookup_byDevice {cid : ConnId} {conns : Conns} {did : DeviceId}
    {p : ConnId × RvConn} (h : (byDevice cid conns).lookup did = some p) : p.1 ∈ conns := by
  have hfold : ∀ (entries : List (Sigma fun _ : ConnId => RvConn)) (byDid : ByDevice),
      (∀ entry ∈ entries, entry.1 ∈ conns) →
      (∀ did p, byDid.lookup did = some p → p.1 ∈ conns) →
      ∀ did p, (entries.foldl (fun byDid entry =>
        if entry.1 = cid then byDid else byDid.add entry.1 entry.2) byDid).lookup did = some p →
        p.1 ∈ conns := by
    intro entries
    induction entries with
    | nil => exact fun byDid _ hby => hby
    | cons entry entries ih =>
        intro byDid hentries hby
        refine ih _ (fun e he => hentries e (List.mem_cons_of_mem _ he)) fun did p hp => ?_
        dsimp only at hp
        split at hp
        · exact hby did p hp
        · rcases ByDevice.mem_of_lookup_add hp with hp | ⟨did', hp⟩
          · exact hp ▸ hentries entry List.mem_cons_self
          · exact hby did' p hp
  refine hfold conns.entries ∅ (fun entry hentry => ?_) (by simp) did p h
  exact AList.mem_keys.1 (List.mem_map_of_mem hentry)

/-- A push goes to a connection present behind the egress address, about others that are. -/
theorem mem_pushEgress {p : Presence} {ip : IpAddr} {push : Push} (h : push ∈ pushEgress p ip) :
    (∃ cid c, Presence.slot p ip cid = some c ∧ push.tx = c.tx) ∧
    ∀ row ∈ push.rows, (Presence.slot p ip row.1).isSome := by
  unfold pushEgress at h
  split at h
  · simp at h
  · rename_i conns hconns
    obtain ⟨entry, hentry, rfl⟩ := List.mem_map.1 h
    refine ⟨⟨entry.1, entry.2, ?_, rfl⟩, fun row hrow => ?_⟩
    · rw [Presence.slot, hconns]
      exact AList.mem_lookup_iff.2 hentry
    · obtain ⟨dev, hdev, hrow'⟩ := List.mem_filterMap.1 hrow
      have hmem := mem_of_lookup_byDevice (AList.mem_lookup_iff.2 hdev)
      dsimp only at hrow'
      split at hrow'
      · cases hrow'
      · cases hrow'
        rw [Presence.slot, hconns]
        exact AList.lookup_isSome.2 hmem

end

/-! ## What one event does to presence -/

/-- The part of a connection that presence depends on. -/
structure Standing where
  isOpen : Bool
  group : Option GroupId
  rvGroup : Option GroupId
  egress : IpAddr

def Conn.standing (c : Conn) : Standing := ⟨c.isOpen, c.group, c.rvGroup, c.egress⟩

theorem setConn_standing (r : Relay) (cid : ConnId) (c : Conn) (d : ConnId) :
    ((r.setConn cid c).conns d).standing =
      if d = cid then c.standing else (r.conns d).standing := by
  by_cases hd : d = cid
  · subst hd; simp
  · rw [setConn_conns_ne r hd, if_neg hd]

theorem send_standing (r : Relay) (cid : ConnId) (msg : ServerMessage Published) (d : ConnId) :
    ((r.send cid msg).conns d).standing = (r.conns d).standing := by
  unfold send
  split
  · rw [setConn_standing]
    split
    · rename_i hd
      rw [hd]
      rfl
    · rfl
  · rfl

theorem deliver_hub (r : Relay) (push : Push) : (r.deliver push).hub = r.hub := by
  unfold deliver
  split <;> rfl

theorem deliver_standing (r : Relay) (push : Push) (d : ConnId) :
    ((r.deliver push).conns d).standing = (r.conns d).standing := by
  unfold deliver
  split
  · rw [setConn_standing]
    split
    · rename_i hd
      rw [hd]
      rfl
    · rfl
  · rfl

theorem deliverAll_hub (r : Relay) (pushes : List Push) : (r.deliverAll pushes).hub = r.hub := by
  induction pushes generalizing r with
  | nil => rfl
  | cons push pushes ih => exact (ih _).trans (deliver_hub r push)

theorem deliverAll_standing (r : Relay) (pushes : List Push) (d : ConnId) :
    ((r.deliverAll pushes).conns d).standing = (r.conns d).standing := by
  induction pushes generalizing r with
  | nil => rfl
  | cons push pushes ih => exact (ih _).trans (deliver_standing r push d)

/-- What an event does to the slots and to the standing of every connection. -/
inductive Change (r : Relay) : Event → Relay → Prop
  | still {e r'} (hstand : ∀ d, (r'.conns d).standing = (r.conns d).standing)
      (hslot : ∀ g ip d, r'.hub.slot g ip d = r.hub.slot g ip d) : Change r e r'
  | connect {r'} (egress : IpAddr)
      (hstand : ∀ d, (r'.conns d).standing =
        if d = r.hub.connSeq then (Conn.start egress).standing else (r.conns d).standing)
      (hslot : ∀ g ip d, r'.hub.slot g ip d = r.hub.slot g ip d) :
      Change r (.connect egress) r'
  | join {r'} (cid : ConnId) (now : Instant) (g : GroupId) (did : DeviceId)
      (hopen : (r.conns cid).isOpen)
      (hstand : ∀ d, (r'.conns d).standing =
        if d = cid then { (r.conns cid).standing with group := some g }
        else (r.conns d).standing)
      (hslot : ∀ g ip d, r'.hub.slot g ip d = r.hub.slot g ip d) :
      Change r (.frame cid now (.text (.ok (.join g did)))) r'
  | advertise {e r'} (cid : ConnId) (g : GroupId) (c : RvConn) (hopen : (r.conns cid).isOpen)
      (hgroup : (r.conns cid).group = some g) (htx : c.tx = cid)
      (hstand : ∀ d, (r'.conns d).standing =
        if d = cid then { (r.conns cid).standing with rvGroup := some g }
        else (r.conns d).standing)
      (hslot : ∀ g' ip d, r'.hub.slot g' ip d =
        if g' = g ∧ ip = (r.conns cid).egress ∧ d = cid then some c
        else r.hub.slot g' ip d) : Change r e r'
  | leave {e r'} (cid : ConnId)
      (hstand : ∀ d, (r'.conns d).standing =
        if d = cid then { (r.conns cid).standing with isOpen := false }
        else (r.conns d).standing)
      (hslot : ∀ g ip d, r'.hub.slot g ip d =
        if (r.conns cid).rvGroup = some g ∧ ip = (r.conns cid).egress ∧ d = cid then none
        else r.hub.slot g ip d) : Change r e r'

theorem change_send (r : Relay) (e : Event) (cid : ConnId) (msg : ServerMessage Published) :
    Change r e (r.send cid msg) :=
  .still (send_standing r cid msg) fun g ip d => by rw [send_hub]

theorem change_refl (r : Relay) (e : Event) : Change r e r :=
  .still (fun _ => rfl) fun _ _ _ => rfl

theorem change_setConn {r : Relay} {e : Event} {cid : ConnId} {c : Conn}
    (h : c.standing = (r.conns cid).standing) : Change r e (r.setConn cid c) := by
  refine .still (fun d => ?_) fun _ _ _ => rfl
  rw [setConn_standing]
  split
  · rename_i hd
    rw [hd, h]
  · rfl

section

variable [SocketAddrText]

theorem change_onLanAdvertise (r : Relay) (e : Event) (cid : ConnId) (g : GroupId)
    (did : DeviceId) (name : String) (candidates : List String) (networks : List LanCandidate)
    (hopen : (r.conns cid).isOpen) :
    Change r e (r.onLanAdvertise cid g did name candidates networks).1 := by
  unfold onLanAdvertise
  cases hdid : (r.conns cid).deviceId with
  | none => exact change_send r e cid _
  | some did' =>
      dsimp only
      split
      · exact change_send r e cid _
      · rename_i hgroup
        split
        · exact change_send r e cid _
        · let u := r.rendezvousUpdate cid g did' name candidates networks
          refine .advertise cid g
            ⟨u.deviceId, u.deviceName, u.candidates, u.candidateNetworks, u.tx⟩
            hopen (by simpa using hgroup) rfl (fun d => ?_) fun g' ip d => ?_
          · rw [deliverAll_standing]
            exact setConn_standing _ _ _ d
          · rw [deliverAll_hub]
            exact slot_rendezvousUpsert _ u g' ip d

theorem change_onClose (r : Relay) (e : Event) (cid : ConnId) :
    Change r e (r.onClose cid).1 := by
  unfold onClose
  dsimp only
  split
  · rename_i hrv
    refine .leave cid (fun d => setConn_standing r cid _ d) fun g ip d => ?_
    rw [hrv]
    simp
  · rename_i g hrv
    refine .leave cid (fun d => ?_) fun g' ip d => ?_
    · rw [deliverAll_standing]
      exact setConn_standing _ cid _ d
    · rw [deliverAll_hub, setConn_hub, slot_rendezvousRemove]
      simp only [hrv, Option.some.injEq, eq_comm (a := g)]

/-- **Every event of the relay changes presence in one of these ways.** -/
theorem step_change (r : Relay) (e : Event) : Change r e (r.step e) := by
  unfold step act
  cases e with
  | connect egress =>
      exact .connect egress (fun d => setConn_standing _ _ _ d) fun _ _ _ => rfl
  | frame cid now f =>
      dsimp only
      split
      · rename_i hopen
        cases f with
        | text parsed =>
            cases parsed with
            | error e => exact change_send r _ cid _
            | ok msg =>
                cases msg with
                | join g did =>
                    refine .join cid now g did hopen (fun d => ?_) fun g' ip d => ?_
                    · simp only [handleFrame, onJoin]
                      rw [send_standing, setConn_standing]
                      rfl
                    · simp only [handleFrame, onJoin]
                      rw [send_hub, setConn_hub]
                | publish g ciphertext nonce ts =>
                    simp only [handleFrame, onPublish]
                    split
                    · exact change_send r _ cid _
                    · split
                      · exact change_send r _ cid _
                      · refine .still (fun d => rfl) fun g' ip d => ?_
                        unfold Hub.publish
                        rw [slot_set]
                        split
                        · rename_i hg
                          rw [hg]
                          rfl
                        · rfl
                | fetchRecent g =>
                    simp only [handleFrame, onFetchRecent]
                    split
                    · exact change_send r _ cid _
                    · refine .still (fun d => by rw [send_standing]) fun g' ip d => ?_
                      rw [send_hub]
                      unfold Hub.recent
                      rw [slot_set]
                      split
                      · rename_i hg
                        rw [hg]
                        rfl
                      · rfl
                | lanAdvertise g did name candidates networks =>
                    exact change_onLanAdvertise r _ cid g did name candidates networks hopen
        | binary | ping | pong => exact change_refl r _
        | close => exact change_onClose r _ cid
      · exact change_refl r _
  | broadcast cid =>
      dsimp only
      split
      · have hrecv := received_onBroadcast r cid
        refine .still (fun d => ?_) fun g ip d => ?_
        · obtain ⟨rx, sent, hd⟩ := hrecv.conns d
          rw [hd]
          rfl
        · rw [hrecv.hub]
      · exact change_refl r _
  | snapshot cid =>
      dsimp only
      split
      · unfold onSnapshot
        dsimp only
        split
        · exact change_refl r _
        · refine .still (fun d => ?_) fun g ip d => ?_
          · rw [send_standing, setConn_standing]
            split
            · rename_i hd
              rw [hd]
              rfl
            · rfl
          · rw [send_hub, setConn_hub]
      · exact change_refl r _
  | linkDown cid => exact change_setConn rfl
  | stop cid =>
      dsimp only
      split
      · exact change_onClose r _ cid
      · exact change_refl r _

theorem pushes_onLanAdvertise {r : Relay} {cid : ConnId} {g : GroupId} {did : DeviceId}
    {name : String} {candidates : List String} {networks : List LanCandidate} {gp : GroupPush}
    (h : gp ∈ (r.onLanAdvertise cid g did name candidates networks).2) :
    ∃ ip, gp.push ∈ pushEgress
      ((r.onLanAdvertise cid g did name candidates networks).1.hub.entry gp.group).presence ip := by
  unfold onLanAdvertise at h ⊢
  cases hdid : (r.conns cid).deviceId with
  | none => simp [hdid] at h
  | some did' =>
      simp only [hdid] at h ⊢
      split at h
      · simp at h
      · rename_i hgroup
        split at h
        · simp at h
        · rename_i hsame
          obtain ⟨push, hpush, rfl⟩ := List.mem_map.1 h
          rw [if_neg hgroup, if_neg hsame]
          refine ⟨(r.conns cid).egress, ?_⟩
          rw [deliverAll_hub]
          rw [rendezvousUpsert_pushes] at hpush
          exact hpush

theorem pushes_onClose {r : Relay} {cid : ConnId} {gp : GroupPush} (h : gp ∈ (r.onClose cid).2) :
    ∃ ip, gp.push ∈ pushEgress ((r.onClose cid).1.hub.entry gp.group).presence ip := by
  unfold onClose at h ⊢
  cases hrv : (r.conns cid).rvGroup with
  | none => simp [hrv] at h
  | some g =>
      simp only [hrv] at h ⊢
      obtain ⟨push, hpush, rfl⟩ := List.mem_map.1 h
      refine ⟨(r.conns cid).egress, ?_⟩
      rw [deliverAll_hub, setConn_hub]
      rw [rendezvousRemove_pushes] at hpush
      exact hpush

/-- What the hub pushes in an event is a snapshot of the presence after it. -/
theorem mem_pushes {r : Relay} {e : Event} {gp : GroupPush} (h : gp ∈ r.pushes e) :
    ∃ ip, gp.push ∈ pushEgress ((r.step e).hub.entry gp.group).presence ip := by
  unfold pushes act at h
  unfold step act
  cases e with
  | connect egress => simp at h
  | frame cid now f =>
      dsimp only at h ⊢
      split at h
      · rename_i hopen
        rw [if_pos hopen]
        rcases f with (_ | (_ | _ | _ | _)) | _ | _ | _ | _
        all_goals simp only [handleFrame, List.not_mem_nil] at h
        · exact pushes_onLanAdvertise h
        · exact pushes_onClose h
      · simp at h
  | broadcast cid | snapshot cid =>
      dsimp only at h
      split at h <;> simp at h
  | linkDown cid => simp at h
  | stop cid =>
      dsimp only at h ⊢
      split at h
      · rename_i hopen
        rw [if_pos hopen]
        exact pushes_onClose h
      · simp at h

end

/-! ## Presence follows membership -/

/-- A connection that has a slot is open and has it in the group it remembers; a connection that
remembers a group has a slot there, and is joined to it. -/
structure Standing.Present (st : Standing) (slot : GroupId → IpAddr → Option RvConn)
    (cid : ConnId) : Prop where
  only : ∀ g ip c, slot g ip = some c →
    st.isOpen ∧ st.rvGroup = some g ∧ st.egress = ip ∧ c.tx = cid
  own : ∀ g, st.isOpen → st.rvGroup = some g → st.group = some g ∧ (slot g st.egress).isSome

structure Present (r : Relay) : Prop where
  conn : ∀ cid, (r.conns cid).standing.Present (fun g ip => r.hub.slot g ip cid) cid
  handedOut : OpenHandedOut r

theorem present_init : Present init where
  conn cid :=
    { only := by simp [init, Hub.new, Hub.slot, Hub.entry, Presence.slot, Group.new]
      own := by simp [init, Conn.standing] }
  handedOut cid h := by simp [init, Conn.start] at h

section

variable [SocketAddrText]

/-- In event `e`, a connection that has advertised joins no group but the one it advertised in. -/
def JoinsOwn (r : Relay) (e : Event) : Prop :=
  ∀ cid now g did, e = .frame cid now (.text (.ok (.join g did))) → (r.conns cid).isOpen →
    ∀ g', (r.conns cid).rvGroup = some g' → g = g'

/-- **A step that joins no second group keeps presence in line with membership.** -/
theorem present_step (r : Relay) (e : Event) (hown : JoinsOwn r e) (h : Present r) :
    Present (r.step e) := by
  have hchange := step_change r e
  refine ⟨fun d => ?_, openHandedOut_step r e h.handedOut⟩
  have hd := h.conn d
  generalize r.step e = r' at hchange
  cases hchange with
  | still hstand hslot =>
      rw [hstand]
      simpa only [hslot] using hd
  | connect egress hstand hslot =>
      simp only [hstand, hslot]
      split
      · rename_i hnew
        -- The new id was not open before, so it has no slot.
        refine ⟨fun g ip c hs => ?_, fun g _ hrv => by simp [Conn.standing, Conn.start] at hrv⟩
        exact absurd hnew (Nat.ne_of_lt (h.handedOut d (hd.only g ip c hs).1))
      · exact hd
  | join cid now g did hopen hstand hslot =>
      simp only [hstand, hslot]
      split
      · rename_i heq
        subst heq
        refine ⟨hd.only, fun g' hopen' hrv => ⟨?_, (hd.own g' hopen' hrv).2⟩⟩
        rw [hown d now g did rfl hopen g' hrv]
      · exact hd
  | advertise cid g c hopen hgroup htx hstand hslot =>
      simp only [hstand, hslot]
      split
      · rename_i heq
        subst heq
        refine ⟨fun g' ip c' hs => ?_, fun g' _ hrv => ?_⟩
        · split at hs
          · rename_i hat
            obtain ⟨rfl, rfl, -⟩ := hat
            cases hs
            exact ⟨hopen, rfl, rfl, htx⟩
          · -- An older slot is in the group joined, which is the one advertised in.
            obtain ⟨hopen', hrv, hip, htx'⟩ := hd.only g' ip c' hs
            have hg' := (hd.own g' hopen' hrv).1
            refine ⟨hopen', ?_, hip, htx'⟩
            rw [← hg']
            exact hgroup.symm
        · cases hrv
          exact ⟨hgroup, by simp [Conn.standing]⟩
      · rename_i hne
        simpa [hne] using hd
  | leave cid hstand hslot =>
      simp only [hstand, hslot]
      split
      · rename_i heq
        subst heq
        refine ⟨fun g ip c hs => ?_, fun g hopen => by simp at hopen⟩
        split at hs
        · cases hs
        · rename_i hno
          obtain ⟨-, hrv, hip, -⟩ := hd.only g ip c hs
          exact absurd ⟨hrv, hip.symm, rfl⟩ hno
      · rename_i hne
        simpa [hne] using hd

/-- After event `e` of state `r`, presence and the snapshots just pushed follow membership. -/
structure Follows (r : Relay) (e : Event) : Prop where
  /-- A connection has slots only in the group it is joined to, and none once it is closed. -/
  present : ∀ g ip cid, ((r.step e).hub.slot g ip cid).isSome →
    ((r.step e).conns cid).isOpen ∧ ((r.step e).conns cid).group = some g
  /-- Snapshots are pushed to connections joined to their group. -/
  receiver : ∀ gp ∈ r.pushes e, ((r.step e).conns gp.push.tx).group = some gp.group
  /-- Snapshots have no row made from a closed connection. -/
  rows : ∀ gp ∈ r.pushes e, ∀ row ∈ gp.push.rows, ((r.step e).conns row.1).isOpen

theorem Present.follows {r : Relay} {e : Event} (h : Present (r.step e)) : Follows r e := by
  have hpresent : ∀ g ip cid, ((r.step e).hub.slot g ip cid).isSome →
      ((r.step e).conns cid).isOpen ∧ ((r.step e).conns cid).group = some g := by
    intro g ip cid hs
    obtain ⟨c, hc⟩ := Option.isSome_iff_exists.1 hs
    obtain ⟨hopen, hrv, -, -⟩ := (h.conn cid).only g ip c hc
    exact ⟨hopen, ((h.conn cid).own g hopen hrv).1⟩
  refine ⟨hpresent, fun gp hgp => ?_, fun gp hgp row hrow => ?_⟩
  · obtain ⟨ip, hpush⟩ := mem_pushes hgp
    obtain ⟨⟨cid, c, hc, htx⟩, -⟩ := mem_pushEgress hpush
    obtain ⟨-, -, -, hcid⟩ := (h.conn cid).only gp.group ip c hc
    rw [htx, hcid]
    exact (hpresent gp.group ip cid (Option.isSome_iff_exists.2 ⟨c, hc⟩)).2
  · obtain ⟨ip, hpush⟩ := mem_pushes hgp
    exact (hpresent gp.group ip row.1 ((mem_pushEgress hpush).2 row hrow)).1

/-- Joining a second group leaves the slot in the first one behind. -/
theorem Follows.joinsOwn {r : Relay} {e : Event} (h : Present r) (hf : Follows r e) :
    JoinsOwn r e := by
  rintro cid now g did rfl hopen g' hrv
  have hslot := ((h.conn cid).own g' hopen hrv).2
  have hstep : r.step (.frame cid now (.text (.ok (.join g did)))) = r.onJoin cid g did := by
    simp [step, act, handleFrame, hopen]
  have hafter := (hf.present g' (r.conns cid).egress cid (by
    rw [hstep, onJoin, send_hub, setConn_hub]
    exact hslot)).2
  rw [hstep, onJoin, send_conns_self, setConn_conns_self] at hafter
  exact Option.some.inj hafter

/-- **Presence follows membership along a run exactly if no connection that has advertised joins
another group.** -/
theorem presence_iff (es : List Event) :
    Machine.Along step Follows init es ↔ Machine.Along step JoinsOwn init es := by
  constructor
  · intro h
    induction es using List.reverseRecOn with
    | nil => trivial
    | append_singleton es e ih =>
        obtain ⟨hes, he⟩ := Machine.along_concat.1 h
        have hown := ih hes
        have hpresent := Machine.invariant_along present_step present_init hown
        exact Machine.along_concat.2 ⟨hown, he.joinsOwn hpresent⟩
  · intro h
    rw [Machine.along_iff] at h ⊢
    intro pre e post hes
    have hpre : Machine.Along step JoinsOwn init (pre ++ [e]) := by
      rw [Machine.along_iff]
      intro p f q hpq
      exact h p f (q ++ post) (by rw [hes, ← List.singleton_append, ← List.append_assoc, hpq]; simp)
    have hpresent := Machine.invariant_along present_step present_init hpre
    rw [Machine.run_concat] at hpresent
    exact hpresent.follows

end

/-- A device that joins `"work"`, advertises there, and then joins `"home"`. -/
def switchGroups : List Event :=
  [.connect (.v4 0x0a000001),
   .frame 1 0 (.text (.ok (.join "work" "laptop"))),
   .frame 1 0 (.text (.ok (.lanAdvertise "work" "laptop" "Laptop" ["192.168.1.7:4000"] []))),
   .frame 1 0 (.text (.ok (.join "home" "laptop")))]

/-- The text of the one address in `switchGroups`. -/
@[reducible] def oneAddrText : SocketAddrText where
  parse s := if s = "192.168.1.7:4000" then some ⟨.v4 0xc0a80107, 4000, 0⟩ else none
  display _ := "192.168.1.7:4000"

theorem switchGroups_not_follows :
    ¬ @Machine.Along _ _ (@step oneAddrText) (@Follows oneAddrText) init switchGroups := by
  let _ := oneAddrText
  intro h
  -- The slot in "work" is still there after the last join.
  have hstep := Machine.along_iff.1 h (switchGroups.take 3) _ [] rfl
  have hgroup := (hstep.present "work" (.v4 0x0a000001) 1 (by decide)).2
  exact absurd hgroup (by decide)

end ClipBridge.Relay
