import ClipBridge.Lib.RecentLog
import ClipBridge.Relay.Routing

/-!
# History: what `FetchRecent` answers, and what a join hears of

The hub prunes a group's cache when it is touched, by age and by count. Whatever the calls before,
it answers like the list of all publishes to the group. A connection that joins and then fetches
misses nothing: what was published before the fetch is in the reply, if it is recent enough, and
what is published after the join goes to its queue.

* `recentReference` — the answer, from all publishes to a group with their times.
* `Hub.Remembers` — the caches answer like the publishes so far, kept by every call
  (`Hub.Remembers.apply`).
* `hubCalls` — the calls of `publish` and `recent` that one event of the relay makes.
* `History`, `history` — the statement about calls and about runs, and its proof.
-/

namespace ClipBridge.Relay

open Broadcast (Receiver)

/-! ## The cache as a log -/

section

variable {κ : Type}

/-- A clip of the cache is fresh while it is younger than `recentTtl`. -/
def freshAt (now : Instant) (entry : Instant × κ) : Bool :=
  decide (now.durationSince entry.1 < recentTtl)

/-- Of the last `recentCap` publishes, the clips that are fresh, oldest first. -/
def recentReference (now : Instant) (log : List (Instant × κ)) : List κ :=
  (RecentLog.lastFresh freshAt recentCap now log).map (·.2)

theorem fading_freshAt : RecentLog.Fading (freshAt : Instant → Instant × κ → Bool) := by
  intro s t entry hle h
  have hlt : t - entry.1 < recentTtl := of_decide_eq_true h
  exact decide_eq_true (lt_of_le_of_lt (Nat.sub_le_sub_right hle entry.1) hlt)

theorem aging_of_sorted {log : List (Instant × κ)} (h : log.Pairwise (·.1 ≤ ·.1)) :
    RecentLog.Aging freshAt log := by
  apply h.imp
  intro entry entry' hle t hfresh
  have hlt : t - entry.1 < recentTtl := of_decide_eq_true hfresh
  exact decide_eq_true (lt_of_le_of_lt (Nat.sub_le_sub_left hle t) hlt)

/-! ## Calls of the hub -/

/-- A call of one of the two operations that touch a cache, with the clock they read. -/
inductive HubCall (κ : Type) where
  | publish (now : Instant) (groupId : GroupId) (clip : κ)
  | recent (now : Instant) (groupId : GroupId)

namespace HubCall

def now : HubCall κ → Instant
  | publish now _ _ | recent now _ => now

def apply (hub : Hub κ) : HubCall κ → Hub κ
  | publish now groupId clip => hub.publish now groupId clip
  | recent now groupId => (hub.recent now groupId).2

/-- What the call publishes to group `g`. -/
def publishedTo (g : GroupId) : HubCall κ → List (Instant × κ)
  | publish now groupId clip => if groupId = g then [(now, clip)] else []
  | recent _ _ => []

end HubCall

/-- All publishes to group `g`, in order. -/
def publishes (g : GroupId) (calls : List (HubCall κ)) : List (Instant × κ) :=
  calls.flatMap (·.publishedTo g)

theorem publishes_append (g : GroupId) (calls calls' : List (HubCall κ)) :
    publishes g (calls ++ calls') = publishes g calls ++ publishes g calls' :=
  List.flatMap_append

theorem publishes_singleton (g : GroupId) (call : HubCall κ) :
    publishes g [call] = call.publishedTo g := by
  simp [publishes]

/-- At time `now`, every cache answers like the publishes to its group. -/
structure Hub.Remembers (hub : Hub κ) (now : Instant) (log : GroupId → List (Instant × κ)) :
    Prop where
  sorted : ∀ g, (log g).Pairwise (·.1 ≤ ·.1)
  past : ∀ g, ∀ entry ∈ log g, entry.1 ≤ now
  cache : ∀ g, RecentLog.Tracks freshAt recentCap now (log g) (hub.entry g).cache

theorem Hub.remembers_new (now : Instant) : (Hub.new : Hub κ).Remembers now fun _ => [] where
  sorted _ := List.Pairwise.nil
  past _ entry h := by simp at h
  cache _ := RecentLog.tracks_nil now

variable {hub : Hub κ} {now : Instant} {log : GroupId → List (Instant × κ)}

theorem Hub.Remembers.later (h : hub.Remembers now log) {now' : Instant} (hle : now ≤ now') :
    hub.Remembers now' log where
  sorted := h.sorted
  past g entry he := (h.past g entry he).trans hle
  cache g := (h.cache g).later hle

/-- The invariant reads the caches only. -/
theorem Hub.Remembers.congr (h : hub.Remembers now log) {hub' : Hub κ}
    (hcache : ∀ g, (hub'.entry g).cache = (hub.entry g).cache) : hub'.Remembers now log where
  sorted := h.sorted
  past := h.past
  cache g := by rw [hcache]; exact h.cache g

theorem publish_cache_eq (hub : Hub κ) (now : Instant) (g g' : GroupId) (clip : κ) :
    ((hub.publish now g clip).entry g').cache =
      if g = g' then RecentLog.push freshAt recentCap now (now, clip) (hub.entry g').cache
      else (hub.entry g').cache := by
  unfold Hub.publish
  by_cases hg : g = g'
  · subst hg
    rw [Hub.entry_set_self, if_pos rfl]
    rfl
  · rw [hub.entry_set_ne (Ne.symm hg), if_neg hg]

theorem recent_cache_eq (hub : Hub κ) (now : Instant) (g g' : GroupId) :
    ((hub.recent now g).2.entry g').cache =
      if g = g' then RecentLog.retain freshAt now (hub.entry g').cache
      else (hub.entry g').cache := by
  unfold Hub.recent
  by_cases hg : g = g'
  · subst hg
    rw [Hub.entry_set_self, if_pos rfl]
    rfl
  · rw [hub.entry_set_ne (Ne.symm hg), if_neg hg]

/-- **Every call keeps the caches true to the publishes**, whichever group it is for. -/
theorem Hub.Remembers.apply (h : hub.Remembers now log) (call : HubCall κ)
    (hle : now ≤ call.now) :
    (call.apply hub).Remembers call.now fun g => log g ++ call.publishedTo g := by
  have hlater := h.later hle
  cases call with
  | recent now' g =>
      refine ⟨fun g' => ?_, fun g' => ?_, fun g' => ?_⟩
      · simpa [HubCall.publishedTo] using h.sorted g'
      · simpa [HubCall.publishedTo, HubCall.now] using hlater.past g'
      · have htracks := hlater.cache g'
        simp only [HubCall.publishedTo, List.append_nil, HubCall.apply, recent_cache_eq]
        split
        · exact htracks.retain fading_freshAt
        · exact htracks
  | publish now' g clip =>
      refine ⟨fun g' => ?_, fun g' entry he => ?_, fun g' => ?_⟩
      · simp only [HubCall.publishedTo]
        refine List.pairwise_append.2 ⟨h.sorted g', by split <;> simp, fun a ha b hb => ?_⟩
        split at hb
        · rw [List.mem_singleton.1 hb]
          exact hlater.past g' a ha
        · simp at hb
      · simp only [HubCall.publishedTo, List.mem_append] at he
        rcases he with he | he
        · exact hlater.past g' entry he
        · split at he
          · rw [List.mem_singleton.1 he]
            exact le_rfl
          · simp at he
      · have htracks := hlater.cache g'
        simp only [HubCall.publishedTo, HubCall.apply, publish_cache_eq]
        split
        · exact htracks.push fading_freshAt (by decide) (aging_of_sorted (h.sorted g')) _
        · rw [List.append_nil]
          exact htracks

/-- What the calls of a list with non-decreasing times leave in the caches. -/
theorem Hub.Remembers.applyAll (h : hub.Remembers now log) (calls : List (HubCall κ))
    {now' : Instant} (htimes : (now :: calls.map HubCall.now ++ [now']).Pairwise (· ≤ ·)) :
    (calls.foldl HubCall.apply hub).Remembers now' fun g => log g ++ publishes g calls := by
  induction calls generalizing hub now log with
  | nil =>
      have hle : now ≤ now' := by simpa using htimes
      simpa [publishes] using h.later hle
  | cons call calls ih =>
      obtain ⟨hfirst, hrest⟩ := List.pairwise_cons.1 htimes
      have hnext := ih (h.apply call (hfirst call.now (by simp))) hrest
      simpa [publishes, List.append_assoc] using hnext

/-- The answer of `recent` is the reference. -/
theorem Hub.Remembers.recent (h : hub.Remembers now log) (g : GroupId) :
    (hub.recent now g).1 = recentReference now (log g) := by
  rw [recentReference, ← (h.cache g).read]
  rfl

/-- The hub after some calls. -/
def Hub.after (calls : List (HubCall κ)) : Hub κ := calls.foldl HubCall.apply Hub.new

theorem Hub.remembers_after {calls : List (HubCall κ)} {now : Instant}
    (htimes : (calls.map HubCall.now ++ [now]).Pairwise (· ≤ ·)) :
    (Hub.after calls).Remembers now (publishes · calls) := by
  have hstart : (0 :: calls.map HubCall.now ++ [now]).Pairwise (· ≤ ·) := by
    rw [List.cons_append, List.pairwise_cons]
    exact ⟨fun t _ => Nat.zero_le t, htimes⟩
  have h := (Hub.remembers_new 0).applyAll calls hstart
  simp only [List.nil_append] at h
  exact h

end

/-! ## The calls of the relay -/

/-- The clock an event reads. -/
def Event.now? : Event → Option Instant
  | .frame _ now _ => some now
  | _ => none

/-- The clock does not run backwards. -/
def Clocked (es : List Event) : Prop := (es.filterMap Event.now?).Pairwise (· ≤ ·)

/-- The calls of `publish` and `recent` that an event makes: a `Publish` or `FetchRecent` frame of
an open connection, for the group it is joined to. -/
def hubCalls (r : Relay) : Event → List (HubCall Published)
  | .frame cid now (.text (.ok (.publish g ciphertext nonce ts))) =>
      match (r.conns cid).deviceId with
      | some did =>
          if (r.conns cid).isOpen ∧ (r.conns cid).group = some g then
            [.publish now g ⟨r.accepted.length, ⟨ciphertext, nonce, ts, did⟩⟩]
          else []
      | none => []
  | .frame cid now (.text (.ok (.fetchRecent g))) =>
      if (r.conns cid).isOpen ∧ (r.conns cid).group = some g then [.recent now g] else []
  | _ => []

/-- The clips waiting in the broadcast queue of connection `cid`. -/
def waiting (r : Relay) (cid : ConnId) : List Published :=
  match (r.conns cid).rx with
  | none => []
  | some (g, rx) => (r.hub.entry g).tx.drop rx.next

section

variable [SocketAddrText]

/-- The publishes to group `g` that the relay took in a run, with their times. -/
def publishLog (es : List Event) (g : GroupId) : List (Instant × Published) :=
  publishes g (Machine.outputs step hubCalls init es)

/-- What a connection hears of the publishes to its group, in one run. -/
structure History (es : List Event) : Prop where
  /-- The log is the group's part of the publish history. -/
  log : ∀ g, (publishLog es g).map (·.2) = channel (run es).accepted g
  /-- A fetch is answered with the fresh ones of the last `recentCap` publishes. -/
  reply : ∀ cid now g, ((run es).conns cid).isOpen → ((run es).conns cid).group = some g →
    Clocked (es ++ [.frame cid now (.text (.ok (.fetchRecent g)))]) →
    ((run (es ++ [.frame cid now (.text (.ok (.fetchRecent g)))])).conns cid).sent =
      ((run es).conns cid).sent ++
        if ((run es).conns cid).linkUp then [.recent (recentReference now (publishLog es g))]
        else []
  /-- After a join, every publish to the group goes to the queue. -/
  queue : ∀ pre cid now g did mid, es = pre ++ .frame cid now (.text (.ok (.join g did))) :: mid →
    ((run pre).conns cid).isOpen → (∀ e ∈ mid, ¬ IsJoin cid e) →
    ∀ e a, Publishes (run es) e a → a.group = g →
      waiting ((run es).step e) cid = waiting (run es) cid ++ [⟨(run es).accepted.length, a.clip⟩]

/-! ## The caches along a run -/

/-- What the calls of one event, `calls`, have to do with the state after it. -/
inductive Called (r : Relay) (e : Event) (r' : Relay) : List (HubCall Published) → Prop
  | none (hacc : r'.accepted = r.accepted)
      (hcache : ∀ g, (r'.hub.entry g).cache = (r.hub.entry g).cache) : Called r e r' []
  | publish (now : Instant) (a : Accepted) (hnow : e.now? = some now)
      (hacc : r'.accepted = r.accepted ++ [a])
      (hhub : r'.hub = r.hub.publish now a.group ⟨r.accepted.length, a.clip⟩) :
      Called r e r' [.publish now a.group ⟨r.accepted.length, a.clip⟩]
  | recent (now : Instant) (g : GroupId) (hnow : e.now? = some now)
      (hacc : r'.accepted = r.accepted) (hhub : r'.hub = (r.hub.recent now g).2) :
      Called r e r' [.recent now g]

/-- **Every event changes the caches by its calls, and by nothing else.** -/
theorem step_called (r : Relay) (e : Event) : Called r e (r.step e) (hubCalls r e) := by
  by_cases hpub : ∃ cid now ciphertext nonce ts g did, r.JoinedAs cid g did ∧
      e = .frame cid now (.text (.ok (.publish g ciphertext nonce ts)))
  · obtain ⟨cid, now, ciphertext, nonce, ts, g, did, ⟨hopen, hgroup, hdid⟩, rfl⟩ := hpub
    have hcalls : hubCalls r (.frame cid now (.text (.ok (.publish g ciphertext nonce ts)))) =
        [.publish now g ⟨r.accepted.length, ⟨ciphertext, nonce, ts, did⟩⟩] := by
      simp [hubCalls, hopen, hgroup, hdid]
    rw [hcalls]
    refine .publish now ⟨cid, g, ⟨ciphertext, nonce, ts, did⟩⟩ rfl ?_ ?_
    · simp [step, act, handleFrame, onPublish, hopen, hgroup, hdid]
    · simp [step, act, handleFrame, onPublish, hopen, hgroup, hdid]
  by_cases hfetch : ∃ cid now g, (r.conns cid).isOpen ∧ (r.conns cid).group = some g ∧
      e = .frame cid now (.text (.ok (.fetchRecent g)))
  · obtain ⟨cid, now, g, hopen, hgroup, rfl⟩ := hfetch
    have hcalls : hubCalls r (.frame cid now (.text (.ok (.fetchRecent g)))) =
        [.recent now g] := by
      simp [hubCalls, hopen, hgroup]
    rw [hcalls]
    refine .recent now g rfl ?_ ?_
    · simp [step, act, handleFrame, onFetchRecent, hopen, hgroup]
    · simp [step, act, handleFrame, onFetchRecent, hopen, hgroup]
  -- Anything else calls neither operation.
  have hnone : hubCalls r e = [] := by
    unfold hubCalls
    split
    · rename_i cid now g ciphertext nonce ts
      split
      · rename_i did hdid
        refine if_neg fun hjoined => hpub ?_
        exact ⟨cid, now, ciphertext, nonce, ts, g, did, ⟨hjoined.1, hjoined.2, hdid⟩, rfl⟩
      · rfl
    · rename_i cid now g
      exact if_neg fun hjoined => hfetch ⟨cid, now, g, hjoined.1, hjoined.2, rfl⟩
    · rfl
  rw [hnone]
  have heff := step_effect r e
  generalize r.step e = r' at heff
  cases heff with
  | still hs => exact .none hs.accepted hs.cache
  | connect egress => exact .none rfl fun g => rfl
  | join cid now g did _ => exact .none (by simp [onJoin]) fun g' => by simp [onJoin]
  | publish cid now g ciphertext nonce ts did hjoined =>
      exact absurd ⟨cid, now, ciphertext, nonce, ts, g, did, hjoined, rfl⟩ hpub
  | fetch cid now g hopen hgroup => exact absurd ⟨cid, now, g, hopen, hgroup, rfl⟩ hfetch
  | broadcast cid _ hrecv => exact .none hrecv.accepted fun g => by rw [hrecv.hub]

theorem publishLog_concat (es : List Event) (e : Event) (g : GroupId) :
    publishLog (es ++ [e]) g = publishLog es g ++ publishes g (hubCalls (run es) e) := by
  rw [publishLog, Machine.outputs_concat, publishes_append, publishLog]

/-- The log of a group is its part of the publish history. -/
theorem publishLog_clips (es : List Event) (g : GroupId) :
    (publishLog es g).map (·.2) = channel (run es).accepted g := by
  induction es using List.reverseRecOn with
  | nil => rfl
  | append_singleton es e ih =>
      rw [publishLog_concat, List.map_append, ih, run_concat]
      have hcalled := step_called (run es) e
      generalize hubCalls (run es) e = calls at hcalled
      cases hcalled with
      | none hacc hcache => rw [hacc]; simp [publishes]
      | recent now g' hnow hacc hhub => rw [hacc]; simp [publishes, HubCall.publishedTo]
      | publish now a hnow hacc hhub =>
          rw [hacc, channel_concat, publishes_singleton, HubCall.publishedTo]
          split <;> rfl

/-- **The caches of a run answer like its log.** -/
theorem remembers_run (es : List Event) {now : Instant}
    (htimes : (es.filterMap Event.now? ++ [now]).Pairwise (· ≤ ·)) :
    (run es).hub.Remembers now (publishLog es) := by
  induction es using List.reverseRecOn generalizing now with
  | nil => exact Hub.remembers_new now
  | append_singleton es e ih =>
      rw [List.filterMap_append, List.append_assoc] at htimes
      -- The event reads the clock after everything before it, and no later than `now`.
      have hbefore : ∀ t, e.now? = some t →
          (es.filterMap Event.now? ++ [t]).Pairwise (· ≤ ·) ∧ t ≤ now := by
        intro t ht
        simp only [List.filterMap_cons, ht, List.filterMap_nil, List.singleton_append] at htimes
        obtain ⟨hes, htail, hcross⟩ := List.pairwise_append.1 htimes
        refine ⟨List.pairwise_append.2 ⟨hes, by simp, fun a ha b hb => ?_⟩, ?_⟩
        · exact hcross a ha b (List.mem_cons.2 (Or.inl (List.mem_singleton.1 hb)))
        · exact (List.pairwise_cons.1 htail).1 now (by simp)
      have hwhole : (es.filterMap Event.now? ++ [now]).Pairwise (· ≤ ·) := by
        refine htimes.sublist ((List.append_sublist_append_left _).2 ?_)
        exact List.sublist_append_right _ _
      have hlog : publishLog (es ++ [e]) =
          fun g => publishLog es g ++ publishes g (hubCalls (run es) e) := by
        funext g
        exact publishLog_concat es e g
      rw [hlog, run_concat]
      have hcalled := step_called (run es) e
      generalize hubCalls (run es) e = calls at hcalled
      cases hcalled with
      | none hacc hcache => simpa [publishes] using (ih hwhole).congr hcache
      | publish t a hnow hacc hhub =>
          obtain ⟨hes, hle⟩ := hbefore t hnow
          rw [hhub]
          simp only [publishes_singleton]
          exact ((ih hes).apply (.publish t a.group _) le_rfl).later hle
      | recent t g hnow hacc hhub =>
          obtain ⟨hes, hle⟩ := hbefore t hnow
          rw [hhub]
          simp only [publishes_singleton]
          exact ((ih hes).apply (.recent t g) le_rfl).later hle

/-! ## The reply and the queue -/

theorem reply (es : List Event) {cid : ConnId} {now : Instant} {g : GroupId}
    (hopen : ((run es).conns cid).isOpen) (hgroup : ((run es).conns cid).group = some g)
    (hclock : Clocked (es ++ [.frame cid now (.text (.ok (.fetchRecent g)))])) :
    ((run (es ++ [.frame cid now (.text (.ok (.fetchRecent g)))])).conns cid).sent =
      ((run es).conns cid).sent ++
        if ((run es).conns cid).linkUp then [.recent (recentReference now (publishLog es g))]
        else [] := by
  have hremembers : (run es).hub.Remembers now (publishLog es) := by
    apply remembers_run
    simpa [Clocked, Event.now?] using hclock
  have hstep : (run es).step (.frame cid now (.text (.ok (.fetchRecent g)))) =
      (run es).fetched cid now g := by
    simp [step, act, handleFrame, onFetchRecent, hopen, hgroup, fetched]
  rw [run_concat, hstep, fetched, send_conns_self, hremembers.recent]

/-- An open connection stays in its group until its next join. -/
theorem group_step {r : Relay} {e : Event} {cid : ConnId} (hcid : cid < r.hub.connSeq)
    (hjoin : ¬ IsJoin cid e) : ((r.step e).conns cid).group = (r.conns cid).group := by
  have heff := step_effect r e
  generalize r.step e = r' at heff
  cases heff with
  | still hs => exact hs.group cid
  | connect egress => rw [setConn_conns_ne _ (Nat.ne_of_lt hcid)]
  | join d now g did _ =>
      have hne : cid ≠ d := by
        intro heq
        subst heq
        exact hjoin ⟨now, g, did, rfl⟩
      rw [onJoin, send_conns_ne _ hne, setConn_conns_ne _ hne]
  | publish => rfl
  | fetch d now g => exact (quiet_fetched r d now g).group cid
  | broadcast d _ hrecv =>
      obtain ⟨rx, sent, hd⟩ := hrecv.conns cid
      rw [hd]

theorem group_joined (pre mid : List Event) {cid : ConnId} (now : Instant) (g : GroupId)
    (did : DeviceId) (hopen : ((run pre).conns cid).isOpen) (hmid : ∀ e ∈ mid, ¬ IsJoin cid e) :
    ((run (pre ++ .frame cid now (.text (.ok (.join g did))) :: mid)).conns cid).group =
      some g := by
  have hjoin : (run pre).step (.frame cid now (.text (.ok (.join g did)))) =
      (run pre).onJoin cid g did := by
    simp [step, act, handleFrame, hopen]
  rw [run, Machine.run_append, Machine.run_cons, hjoin]
  let Joined : Relay → Prop := fun r => cid < r.hub.connSeq ∧ (r.conns cid).group = some g
  have hjoined : Joined ((run pre).onJoin cid g did) :=
    ⟨by simpa [onJoin] using openHandedOut_run pre cid hopen, by simp [onJoin, send_conns_self]⟩
  have hnoJoin : Machine.Along step (fun _ e => ¬ IsJoin cid e) ((run pre).onJoin cid g did) mid :=
    Machine.along_iff.2 fun pre' e post hes => hmid e (by rw [hes]; simp)
  have hI : Joined (Machine.run step ((run pre).onJoin cid g did) mid) :=
    Machine.invariant_along
      (fun r e hP hI => ⟨hI.1.trans_le (connSeq_le_step r e), by rw [group_step hI.1 hP, hI.2]⟩)
      hjoined hnoJoin
  exact hI.2

/-- A publish to the group of a connection goes to its queue. -/
theorem waiting_publish {r : Relay} (hr : Routed r) {e : Event} {a : Accepted}
    (hpub : Publishes r e a) {cid : ConnId} (hgroup : (r.conns cid).group = some a.group) :
    waiting (r.step e) cid = waiting r cid ++ [⟨r.accepted.length, a.clip⟩] := by
  obtain ⟨⟨g, rx⟩, hrx, rfl⟩ := Option.map_eq_some_iff.1 ((hr.conn cid).joined.trans hgroup)
  obtain ⟨⟨now, rfl⟩, hopen, hpgroup, hdid⟩ := hpub
  have hstep : r.step (.frame a.conn now
      (.text (.ok (.publish a.group a.clip.ciphertext a.clip.nonce a.clip.ts)))) =
      { r with
        hub := r.hub.publish now a.group ⟨r.accepted.length, a.clip⟩
        accepted := r.accepted ++ [a] } := by
    simp [step, act, handleFrame, onPublish, hopen, hpgroup, hdid]
  have hplace := ((hr.conn cid).place _ rx hrx).2
  rw [hstep]
  unfold waiting
  simp only [hrx]
  rw [publish_tx, if_pos rfl, hr.tx, List.drop_append_of_le_length hplace]

/-- **`recent` answers like the publishes of any calls before it, and a connection that joins and
then fetches misses nothing.** -/
theorem history :
    (∀ (κ : Type) (calls : List (HubCall κ)) (now : Instant) (g : GroupId),
      (calls.map HubCall.now ++ [now]).Pairwise (· ≤ ·) →
        ((Hub.after calls).recent now g).1 = recentReference now (publishes g calls)) ∧
    ∀ es, History es := by
  refine ⟨fun κ calls now g htimes => (Hub.remembers_after htimes).recent g, fun es => ?_⟩
  refine ⟨publishLog_clips es, fun cid now g hopen hgroup hclock => ?_, ?_⟩
  · exact reply es hopen hgroup hclock
  · intro pre cid now g did mid hes hopen hmid e a hpub hag
    apply waiting_publish (routed_run es) hpub
    rw [hes, hag]
    exact group_joined pre mid now g did hopen hmid

end

end ClipBridge.Relay
