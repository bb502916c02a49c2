import ClipBridge.Relay.Presence

/-!
# Rendezvous: every snapshot is current

Each call of the two rendezvous operations sends a snapshot to every connection behind the egress
address it is about. So the last snapshot in a mailbox is what its connection should see now, as
long as a connection keeps its group and its address.

* `Visible` — the peers a connection should see, read off the slots and nothing else.
* `byDevice_lookup`, `mem_snapshotFor` — the loop over the connections computes them, in whatever
  order it meets the entries.
* `Rendezvous` — the hub and the mailboxes, with a call as a step.
* `Current`, `Current.step`, `snapshots_current` — the invariant, kept by every call.
-/

namespace ClipBridge.Relay

/-! ## What a connection should see -/

section

variable (slots : ConnId → Option RvConn)

/-- Of the connections other than `cid` that its device has, `oid` has the highest id. -/
structure Latest (cid oid : ConnId) (oc : RvConn) : Prop where
  slot : slots oid = some oc
  other : oid ≠ cid
  highest : ∀ oid' oc', slots oid' = some oc' → oid' ≠ cid → oc'.deviceId = oc.deviceId →
    oid' ≤ oid

/-- A row connection `cid` should see: the latest connection of some device, with the addresses
that the receiver may dial, if there are any. -/
def Visible [SocketAddrText] (cid : ConnId) (row : Row) : Prop :=
  ∃ c oc, slots cid = some c ∧ Latest slots cid row.1 oc ∧ candidatesForReceiver c oc ≠ [] ∧
    row.2 = ⟨oc.deviceId, oc.deviceName, candidatesForReceiver c oc⟩

end

/-! ## The loop over the connections -/

/-- What the loop has found once it has met the entries `seen`: for each device, the highest of
its connections, other than `cid`. -/
structure Found (cid : ConnId) (seen : List (Sigma fun _ : ConnId => RvConn))
    (byDid : ByDevice) : Prop where
  mem : ∀ did p, byDid.lookup did = some p →
    ⟨p.1, p.2⟩ ∈ seen ∧ p.1 ≠ cid ∧ p.2.deviceId = did
  highest : ∀ e ∈ seen, e.1 ≠ cid → ∃ p, byDid.lookup e.2.deviceId = some p ∧ e.1 ≤ p.1

theorem found_nil (cid : ConnId) : Found cid [] ∅ := by
  constructor
  · intro did p h
    simp at h
  · intro e he
    simp at he

/-- The entry of a device after one turn. -/
theorem ByDevice.lookup_add (byDid : ByDevice) (oid : ConnId) (oc : RvConn) (did : DeviceId) :
    (byDid.add oid oc).lookup did =
      if did = oc.deviceId then
        some (match byDid.lookup oc.deviceId with
          | some latest => if latest.1 < oid then (oid, oc) else latest
          | none => (oid, oc))
      else byDid.lookup did := by
  unfold ByDevice.add
  by_cases hd : did = oc.deviceId
  · subst hd
    rw [if_pos rfl]
    cases byDid.lookup oc.deviceId <;> simp
  · rw [if_neg hd]
    cases byDid.lookup oc.deviceId <;> simp [AList.lookup_insert_ne hd]

section

variable {cid : ConnId} {seen : List (Sigma fun _ : ConnId => RvConn)} {byDid : ByDevice}

/-- Our own entry is passed over. -/
theorem Found.own (h : Found cid seen byDid) (c : RvConn) :
    Found cid (seen ++ [⟨cid, c⟩]) byDid where
  mem did p hp := by
    obtain ⟨hmem, hrest⟩ := h.mem did p hp
    exact ⟨List.mem_append_left _ hmem, hrest⟩
  highest e he hne := by
    rcases List.mem_append.1 he with he | he
    · exact h.highest e he hne
    · rw [List.mem_singleton.1 he] at hne
      exact absurd rfl hne

/-- Another entry takes the place of its device if its id is higher than the one found. -/
theorem Found.add (h : Found cid seen byDid) {oid : ConnId} (hother : oid ≠ cid) (oc : RvConn) :
    Found cid (seen ++ [⟨oid, oc⟩]) (byDid.add oid oc) where
  mem did p hp := by
    have hold : byDid.lookup did = some p →
        ⟨p.1, p.2⟩ ∈ seen ++ [⟨oid, oc⟩] ∧ p.1 ≠ cid ∧ p.2.deviceId = did := by
      intro hlook
      obtain ⟨hmem, hrest⟩ := h.mem did p hlook
      exact ⟨List.mem_append_left _ hmem, hrest⟩
    rw [ByDevice.lookup_add] at hp
    split at hp
    · rename_i hdid
      subst hdid
      have hnew : some (oid, oc) = some p →
          ⟨p.1, p.2⟩ ∈ seen ++ [⟨oid, oc⟩] ∧ p.1 ≠ cid ∧ p.2.deviceId = oc.deviceId := by
        intro heq
        cases heq
        exact ⟨by simp, hother, rfl⟩
      split at hp
      · rename_i latest hlatest
        split at hp
        · exact hnew hp
        · exact hold (hlatest.trans hp)
      · exact hnew hp
    · exact hold hp
  highest e he hne := by
    rw [ByDevice.lookup_add]
    rcases List.mem_append.1 he with he | he
    · obtain ⟨p, hp, hle⟩ := h.highest e he hne
      split
      · rename_i hdid
        rw [← hdid, hp]
        dsimp only
        split
        · rename_i hlt
          exact ⟨_, rfl, hle.trans (le_of_lt hlt)⟩
        · exact ⟨p, rfl, hle⟩
      · exact ⟨p, hp, hle⟩
    · rw [List.mem_singleton.1 he, if_pos rfl]
      refine ⟨_, rfl, ?_⟩
      split
      · split
        · exact le_rfl
        · rename_i hlt
          exact not_lt.1 hlt
      · exact le_rfl

end

theorem found_byDevice (cid : ConnId) (conns : Conns) :
    Found cid conns.entries (byDevice cid conns) := by
  have hfold : ∀ (entries seen : List (Sigma fun _ : ConnId => RvConn)) (byDid : ByDevice),
      Found cid seen byDid →
        Found cid (seen ++ entries) (entries.foldl (fun byDid entry =>
          if entry.1 = cid then byDid else byDid.add entry.1 entry.2) byDid) := by
    intro entries
    induction entries with
    | nil => intro seen byDid h; simpa using h
    | cons entry entries ih =>
        intro seen byDid h
        rw [List.foldl_cons, ← List.singleton_append, ← List.append_assoc]
        apply ih
        obtain ⟨oid, oc⟩ := entry
        by_cases hown : oid = cid
        · subst hown
          rw [if_pos rfl]
          exact h.own oc
        · rw [if_neg hown]
          exact h.add hown oc
  exact hfold conns.entries [] ∅ (found_nil cid)

/-- **The loop finds the latest connection of every device**, whatever the order of entries. -/
theorem byDevice_lookup (cid : ConnId) (conns : Conns) (did : DeviceId)
    (p : ConnId × RvConn) :
    (byDevice cid conns).lookup did = some p ↔
      Latest (conns.lookup ·) cid p.1 p.2 ∧ p.2.deviceId = did := by
  have hfound := found_byDevice cid conns
  constructor
  · intro hlook
    obtain ⟨hmem, hne, hdid⟩ := hfound.mem did p hlook
    refine ⟨⟨AList.mem_lookup_iff.2 hmem, hne, fun oid' oc' hslot hne' hdid' => ?_⟩, hdid⟩
    obtain ⟨q, hq, hle⟩ := hfound.highest ⟨oid', oc'⟩ (AList.mem_lookup_iff.1 hslot) hne'
    dsimp only at hq hle
    rw [hdid', hdid, hlook, Option.some.injEq] at hq
    rwa [hq]
  · rintro ⟨hlatest, hdid⟩
    obtain ⟨q, hq, hle⟩ := hfound.highest ⟨p.1, p.2⟩ (AList.mem_lookup_iff.1 hlatest.slot)
      hlatest.other
    dsimp only at hq hle
    rw [hdid] at hq
    obtain ⟨hmem, hne, hdid'⟩ := hfound.mem did q hq
    have hslot : conns.lookup q.1 = some q.2 := AList.mem_lookup_iff.2 hmem
    have hge := hlatest.highest q.1 q.2 hslot hne (hdid'.trans hdid.symm)
    have heq : q.1 = p.1 := le_antisymm hge hle
    rw [heq, hlatest.slot, Option.some.injEq] at hslot
    rw [hq, Option.some.injEq]
    exact Prod.ext heq hslot.symm

/-! ## Snapshots -/

section

variable [SocketAddrText]

/-- **A snapshot shows what should be seen.** -/
theorem mem_snapshotFor {cid : ConnId} {c : RvConn} {conns : Conns}
    (hc : conns.lookup cid = some c) (row : Row) :
    row ∈ snapshotFor cid c conns ↔ Visible (conns.lookup ·) cid row := by
  unfold snapshotFor Visible
  rw [List.mem_filterMap]
  constructor
  · rintro ⟨⟨did, oid, oc⟩, hentry, hrow⟩
    obtain ⟨hlatest, rfl⟩ :=
      (byDevice_lookup cid conns did (oid, oc)).1 (AList.mem_lookup_iff.2 hentry)
    dsimp only at hrow
    split at hrow
    · cases hrow
    · rename_i hsome
      cases hrow
      exact ⟨c, oc, hc, hlatest, by simpa using hsome, rfl⟩
  · rintro ⟨c', oc, hc', hlatest, hsome, hrow⟩
    obtain rfl : c = c' := Option.some.inj (hc.symm.trans hc')
    refine ⟨⟨oc.deviceId, row.1, oc⟩, ?_, ?_⟩
    · exact AList.mem_lookup_iff.1 ((byDevice_lookup cid conns _ (row.1, oc)).2 ⟨hlatest, rfl⟩)
    · dsimp only
      rw [if_neg (by simpa using hsome), ← hrow]

/-- A snapshot lists a device once. -/
theorem nodup_snapshotFor (cid : ConnId) (c : RvConn) (conns : Conns) :
    ((snapshotFor cid c conns).map (·.2.deviceId)).Nodup := by
  have hsub : ((snapshotFor cid c conns).map (·.2.deviceId)).Sublist (byDevice cid conns).keys := by
    unfold snapshotFor AList.keys List.keys
    rw [List.map_filterMap]
    generalize (byDevice cid conns).entries = entries
    induction entries with
    | nil => exact List.Sublist.slnil
    | cons entry entries ih =>
        rw [List.filterMap_cons, List.map_cons]
        dsimp only
        split
        · exact ih.cons _
        · rename_i did hdid
          split at hdid
          · cases hdid
          · cases hdid
            exact ih.cons_cons _
  exact hsub.nodup (byDevice cid conns).keys_nodup

end

/-! ## Pushes -/

section

variable [SocketAddrText]

/-- The connections behind an egress address. -/
def Presence.connsAt (p : Presence) (ip : IpAddr) : Conns := (p.lookup ip).getD ∅

omit [SocketAddrText] in
theorem slot_eq_connsAt (p : Presence) (ip : IpAddr) (cid : ConnId) :
    Presence.slot p ip cid = (p.connsAt ip).lookup cid := by
  unfold Presence.slot Presence.connsAt
  cases p.lookup ip <;> simp

theorem pushEgress_eq (p : Presence) (ip : IpAddr) :
    pushEgress p ip = (p.connsAt ip).entries.map fun entry =>
      ⟨entry.2.tx, snapshotFor entry.1 entry.2 (p.connsAt ip)⟩ := by
  unfold pushEgress Presence.connsAt
  cases p.lookup ip <;> rfl

/-- A push goes to a connection behind the address, with what that connection should see. -/
theorem pushEgress_sound {p : Presence} {ip : IpAddr} {push : Push} (h : push ∈ pushEgress p ip) :
    ∃ cid c, Presence.slot p ip cid = some c ∧ push.tx = c.tx ∧
      (∀ row, row ∈ push.rows ↔ Visible (Presence.slot p ip) cid row) ∧
      (push.rows.map (·.2.deviceId)).Nodup := by
  rw [pushEgress_eq] at h
  obtain ⟨entry, hentry, rfl⟩ := List.mem_map.1 h
  have hlook : (p.connsAt ip).lookup entry.1 = some entry.2 := AList.mem_lookup_iff.2 hentry
  have hslots : Presence.slot p ip = ((p.connsAt ip).lookup ·) := by
    funext cid
    exact slot_eq_connsAt p ip cid
  refine ⟨entry.1, entry.2, (slot_eq_connsAt p ip _).trans hlook, rfl, fun row => ?_,
    nodup_snapshotFor _ _ _⟩
  rw [hslots]
  exact mem_snapshotFor hlook row

/-- Every connection behind the address gets a push. -/
theorem pushEgress_complete {p : Presence} {ip : IpAddr} {cid : ConnId} {c : RvConn}
    (h : Presence.slot p ip cid = some c) : ∃ push ∈ pushEgress p ip, push.tx = c.tx := by
  rw [slot_eq_connsAt] at h
  rw [pushEgress_eq]
  exact ⟨_, List.mem_map_of_mem (AList.mem_lookup_iff.1 h), rfl⟩

end

/-! ## Calls and mailboxes -/

inductive RvCall where
  | upsert (update : RendezvousUpdate)
  | remove (groupId : GroupId) (egress : IpAddr) (connId : ConnId)

namespace RvCall

def connId : RvCall → ConnId
  | upsert update => update.connId
  | remove _ _ cid => cid

/-- The group and the egress address a call is about. -/
def place : RvCall → GroupId × IpAddr
  | upsert update => (update.groupId, update.egress)
  | remove groupId egress _ => (groupId, egress)

/-- The call is about the place of its connection, and hands over that connection's mailbox. -/
def Homed (home : ConnId → GroupId × IpAddr) : RvCall → Prop
  | upsert update => (update.groupId, update.egress) = home update.connId ∧
      update.tx = update.connId
  | remove groupId egress cid => (groupId, egress) = home cid

theorem Homed.place {home : ConnId → GroupId × IpAddr} {call : RvCall}
    (hhome : call.Homed home) : call.place = home call.connId := by
  cases call with
  | upsert u => exact hhome.1
  | remove => exact hhome

variable [SocketAddrText] {κ : Type}

def apply (hub : Hub κ) : RvCall → Hub κ × List Push
  | upsert update => hub.rendezvousUpsert update
  | remove groupId egress cid => hub.rendezvousRemove groupId egress cid

end RvCall

/-- The hub, and every snapshot put into the mailbox of a connection so far. -/
structure Rendezvous (κ : Type) where
  hub : Hub κ
  mailbox : ConnId → List (List Row)

namespace Rendezvous

section

variable {κ : Type}

def init : Rendezvous κ := ⟨Hub.new, fun _ => []⟩

/-- The slots of the place of connection `cid`. -/
def slots (s : Rendezvous κ) (home : ConnId → GroupId × IpAddr) (cid : ConnId) :
    ConnId → Option RvConn :=
  s.hub.slot (home cid).1 (home cid).2

/-- A connection is present at its place only, with its own mailbox. -/
def Settled (home : ConnId → GroupId × IpAddr) (s : Rendezvous κ) : Prop :=
  ∀ g ip cid c, s.hub.slot g ip cid = some c → (g, ip) = home cid ∧ c.tx = cid

theorem settled_init (home : ConnId → GroupId × IpAddr) : (init : Rendezvous κ).Settled home := by
  intro g ip cid c hslot
  simp [init, Hub.slot, Hub.new, Hub.entry, Group.new, Presence.slot] at hslot

variable [SocketAddrText]

/-- One call: what it pushes goes to the mailboxes. -/
def step (s : Rendezvous κ) (call : RvCall) : Rendezvous κ :=
  let (hub, pushes) := call.apply s.hub
  ⟨hub, fun cid => s.mailbox cid ++ (pushes.filter (·.tx = cid)).map (·.rows)⟩

abbrev run (calls : List RvCall) : Rendezvous κ := Machine.run step init calls

/-- The last snapshot of every connection present shows what the connection should see: never
itself, no device twice. -/
def Current (home : ConnId → GroupId × IpAddr) (s : Rendezvous κ) : Prop :=
  ∀ cid, (s.slots home cid cid).isSome → ∃ rows, (s.mailbox cid).getLast? = some rows ∧
    (∀ row, row ∈ rows ↔ Visible (s.slots home cid) cid row) ∧
    (∀ row ∈ rows, row.1 ≠ cid) ∧ (rows.map (·.2.deviceId)).Nodup

/-! ## What a call does -/

variable {home : ConnId → GroupId × IpAddr} {s : Rendezvous κ} {call : RvCall}

/-- A call writes the slot of its connection at its place. -/
theorem step_slot (s : Rendezvous κ) (call : RvCall) (g : GroupId) (ip : IpAddr)
    (cid : ConnId) :
    (s.step call).hub.slot g ip cid =
      if (g, ip) = call.place ∧ cid = call.connId then
        match call with
        | .upsert u => some ⟨u.deviceId, u.deviceName, u.candidates, u.candidateNetworks, u.tx⟩
        | .remove _ _ _ => none
      else s.hub.slot g ip cid := by
  cases call with
  | upsert u =>
      refine (slot_rendezvousUpsert s.hub u g ip cid).trans ?_
      simp only [RvCall.place, RvCall.connId, Prod.mk.injEq, and_assoc]
  | remove g₀ ip₀ cid₀ =>
      refine (slot_rendezvousRemove s.hub g₀ ip₀ cid₀ g ip cid).trans ?_
      simp only [RvCall.place, RvCall.connId, Prod.mk.injEq, and_assoc]

/-- A call pushes the snapshots of its place. -/
theorem apply_pushes (s : Rendezvous κ) (call : RvCall) :
    (call.apply s.hub).2 =
      pushEgress ((s.step call).hub.entry call.place.1).presence call.place.2 := by
  cases call with
  | upsert u => exact rendezvousUpsert_pushes s.hub u
  | remove g ip cid => exact rendezvousRemove_pushes s.hub g ip cid

theorem Settled.step (h : s.Settled home) (hhome : call.Homed home) :
    (s.step call).Settled home := by
  intro g ip cid c hslot
  rw [step_slot] at hslot
  split at hslot
  · rename_i hat
    obtain ⟨hplace, rfl⟩ := hat
    cases call with
    | remove => cases hslot
    | upsert u =>
        cases hslot
        exact ⟨hplace.trans hhome.1, hhome.2⟩
  · exact h g ip cid c hslot

/-- A push goes to a connection of the place the call is about. -/
theorem push_home (h : (s.step call).Settled home) {push : Push}
    (hpush : push ∈ (call.apply s.hub).2) : home push.tx = call.place := by
  rw [apply_pushes] at hpush
  obtain ⟨cid, c, hslot, htx, -⟩ := pushEgress_sound hpush
  obtain ⟨hplace, hown⟩ := h _ _ cid c hslot
  rw [htx, hown]
  exact hplace.symm

/-- **Elsewhere, nothing arrives.** -/
theorem step_elsewhere (h : s.Settled home) (hhome : call.Homed home) {cid : ConnId}
    (hne : home cid ≠ home call.connId) : (s.step call).mailbox cid = s.mailbox cid := by
  have hnone : (call.apply s.hub).2.filter (·.tx = cid) = [] := by
    rw [List.filter_eq_nil_iff]
    intro push hpush htx
    apply hne
    rw [← hhome.place, ← push_home (h.step hhome) hpush, of_decide_eq_true htx]
  change s.mailbox cid ++ ((call.apply s.hub).2.filter (·.tx = cid)).map (·.rows) = _
  rw [hnone, List.map_nil, List.append_nil]

/-- At the place of the call, every mailbox gets what its connection should see now. -/
theorem step_here (h : (s.step call).Settled home) {cid : ConnId} (hcid : home cid = call.place)
    (hpresent : ((s.step call).slots home cid cid).isSome) :
    ∃ rows, ((s.step call).mailbox cid).getLast? = some rows ∧
      (∀ row, row ∈ rows ↔ Visible ((s.step call).slots home cid) cid row) ∧
      (rows.map (·.2.deviceId)).Nodup := by
  have hslots : (s.step call).slots home cid =
      Presence.slot ((s.step call).hub.entry call.place.1).presence call.place.2 := by
    rw [slots, hcid]
    rfl
  obtain ⟨c, hc⟩ := Option.isSome_iff_exists.1 hpresent
  have hpushes := apply_pushes s call
  -- Of the pushes to this mailbox there is one, and each of them shows what should be seen.
  have hlast : ∃ push, ((call.apply s.hub).2.filter (·.tx = cid)).getLast? = some push := by
    rw [hslots] at hc
    obtain ⟨push, hmem, htx⟩ := pushEgress_complete hc
    have hown : c.tx = cid := (h _ _ cid c hc).2
    rw [← hpushes] at hmem
    cases hgl : ((call.apply s.hub).2.filter (·.tx = cid)).getLast? with
    | some push' => exact ⟨push', rfl⟩
    | none =>
        rw [List.getLast?_eq_none_iff, List.filter_eq_nil_iff] at hgl
        exact absurd (decide_eq_true (htx.trans hown)) (hgl push hmem)
  obtain ⟨push, hpush⟩ := hlast
  obtain ⟨hmem, htx⟩ := List.mem_filter.1 (List.mem_of_getLast? hpush)
  rw [hpushes] at hmem
  obtain ⟨cid', c', hslot', htx', hrows, hnodup⟩ := pushEgress_sound hmem
  obtain rfl : cid' = cid := by
    rw [← (h _ _ cid' c' hslot').2, ← htx', of_decide_eq_true htx]
  refine ⟨push.rows, ?_, fun row => by rw [hslots]; exact hrows row, hnodup⟩
  change (s.mailbox cid' ++ ((call.apply s.hub).2.filter (·.tx = cid')).map (·.rows)).getLast? = _
  rw [List.getLast?_append, List.getLast?_map, hpush]
  rfl

theorem Current.step (hs : s.Settled home) (h : s.Current home) (hhome : call.Homed home) :
    (s.step call).Current home := by
  intro cid hpresent
  by_cases hcid : home cid = call.place
  · obtain ⟨rows, hlast, hrows, hnodup⟩ := step_here (hs.step hhome) hcid hpresent
    refine ⟨rows, hlast, hrows, fun row hrow => ?_, hnodup⟩
    obtain ⟨c, oc, -, hlatest, -⟩ := (hrows row).1 hrow
    exact hlatest.other
  · -- Behind another address, or in another group, nothing has changed.
    have hsame : (s.step call).slots home cid = s.slots home cid := by
      funext d
      refine (step_slot s call _ _ d).trans (if_neg fun hat => hcid ?_)
      exact hat.1
    have hmail : (s.step call).mailbox cid = s.mailbox cid := by
      apply step_elsewhere hs hhome
      rwa [← hhome.place]
    rw [hsame] at hpresent ⊢
    rw [hmail]
    exact h cid hpresent

/-- In whatever order the entries of the maps are met, a mailbox gets the same set of rows. -/
theorem push_order (h : s.Settled home) (hhome : call.Homed home) {s' : Rendezvous κ}
    (hsame : ∀ g ip cid, s'.hub.slot g ip cid = s.hub.slot g ip cid) {push push' : Push}
    (hpush : push ∈ (call.apply s.hub).2) (hpush' : push' ∈ (call.apply s'.hub).2)
    (htx : push.tx = push'.tx) (row : Row) : row ∈ push.rows ↔ row ∈ push'.rows := by
  have hsettled : s'.Settled home := by
    intro g ip cid c hslot
    rw [hsame] at hslot
    exact h g ip cid c hslot
  have hslots : ∀ g ip cid, (s'.step call).hub.slot g ip cid = (s.step call).hub.slot g ip cid := by
    intro g ip cid
    rw [step_slot, step_slot, hsame]
  rw [apply_pushes] at hpush hpush'
  obtain ⟨cid, c, hslot, hown, hrows, -⟩ := pushEgress_sound hpush
  obtain ⟨cid', c', hslot', hown', hrows', -⟩ := pushEgress_sound hpush'
  obtain rfl : cid = cid' := by
    rw [← ((h.step hhome) _ _ cid c hslot).2, ← ((hsettled.step hhome) _ _ cid' c' hslot').2,
      ← hown, ← hown', htx]
  have hplace : Presence.slot ((s'.step call).hub.entry call.place.1).presence call.place.2 =
      Presence.slot ((s.step call).hub.entry call.place.1).presence call.place.2 := by
    funext d
    exact hslots call.place.1 call.place.2 d
  rw [hrows, hrows', hplace]

/-! ## Every sequence of calls -/

theorem current_init : (init : Rendezvous κ).Current home := by
  intro cid hpresent
  simp [slots, init, Hub.slot, Hub.new, Hub.entry, Group.new, Presence.slot] at hpresent

theorem settled_current_run {calls : List RvCall} (h : ∀ call ∈ calls, call.Homed home) :
    (run calls : Rendezvous κ).Settled home ∧ (run calls : Rendezvous κ).Current home := by
  refine Machine.invariant_along (P := fun _ call => call.Homed home)
    (I := fun s : Rendezvous κ => s.Settled home ∧ s.Current home) ?_
    ⟨settled_init home, current_init⟩ ?_
  · intro s call hhome hI
    exact ⟨hI.1.step hhome, hI.2.step hI.1 hhome⟩
  · refine Machine.along_iff.2 fun pre call post hcalls => h call ?_
    rw [hcalls]
    simp

variable (home) in
/-- The last snapshots are current, and what the next call sends is no one else's business and
independent of the order of the maps. -/
structure Snapshots (s : Rendezvous κ) : Prop where
  current : s.Current home
  elsewhere : ∀ call : RvCall, call.Homed home → ∀ cid, home cid ≠ home call.connId →
    (s.step call).mailbox cid = s.mailbox cid
  /-- A hub with the same slots, but with its maps in another order, sends the same sets. -/
  order : ∀ call : RvCall, call.Homed home → ∀ s' : Rendezvous κ,
    (∀ g ip cid, s'.hub.slot g ip cid = s.hub.slot g ip cid) →
      ∀ push ∈ (call.apply s.hub).2, ∀ push' ∈ (call.apply s'.hub).2, push.tx = push'.tx →
        ∀ row, row ∈ push.rows ↔ row ∈ push'.rows

/-- **Snapshots are current** after any calls in which a connection keeps its place. -/
theorem snapshots_current (calls : List RvCall) (h : ∀ call ∈ calls, call.Homed home) :
    (run calls : Rendezvous κ).Snapshots home := by
  obtain ⟨hsettled, hcurrent⟩ := settled_current_run h
  refine ⟨hcurrent, fun call hhome cid hne => step_elsewhere hsettled hhome hne, ?_⟩
  intro call hhome s' hsame push hpush push' hpush' htx row
  exact push_order hsettled hhome hsame hpush hpush' htx row

end

/-! ## Two connections of one device -/

section

/-- No text is an address: nothing below advertises a network. -/
local instance noAddresses : SocketAddrText := ⟨fun _ => none, fun _ => ""⟩

def office (_ : ConnId) : GroupId × IpAddr := ("g", .v4 1)

/-- Connection `cid` of device `did` advertises the address `addr`. -/
def arrival (cid : ConnId) (did : DeviceId) (addr : String) : RvCall :=
  .upsert ⟨"g", .v4 1, cid, did, "name", [addr], [], cid⟩

def reconnects : List RvCall := [arrival 1 "a" "x", arrival 2 "b" "y", arrival 3 "b" "z"]

/-- Device `b` reconnects: device `a` is sent both advertisements, the later one with the address
of the newer connection. -/
theorem reconnects_current :
    (run reconnects : Rendezvous Unit).Snapshots office ∧
      (run reconnects : Rendezvous Unit).mailbox 1 =
        [[], [(2, ⟨"b", "name", ["y"]⟩)], [(3, ⟨"b", "name", ["z"]⟩)]] := by
  refine ⟨snapshots_current reconnects ?_, by decide⟩
  intro call hcall
  simp only [reconnects, List.mem_cons, List.not_mem_nil, or_false] at hcall
  rcases hcall with rfl | rfl | rfl <;> exact ⟨rfl, rfl⟩

end

end Rendezvous

end ClipBridge.Relay
