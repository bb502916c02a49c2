import ClipBridge.System.World

/-!
# Whether a replay rolls the clipboard back

The clip current on a device is the last one it was handed or published itself. A reply to
`FetchRecent` replays what the relay retains, oldest first; the worker skips its own clips and the
repeats it remembers. If what it skips is the newest part, an older clip ends up current.

* `World.current`, `World.rank` — the current clip, and its place in the relay's publish order.
* `KeepsNewest` — after a reply the newest of the current clip and the reply is current.
* `ReplayInOrder` — what has to hold of the reply and the worker before it.
* `keepsNewest_iff` — the two agree along every run.

A clip of a LAN peer has no place in the relay's order; a run without LAN clips never asks for it.
-/

namespace ClipBridge

open Relay (SocketAddrText Published ConnId)

/-- A clip that can be current on a device. -/
inductive Current where
  | received (a : Arrival Published)
  | own (k : Nat)
  deriving DecidableEq, Repr

def Note.current : Note Published → Option Current
  | .onClip a _ => some (.received a)
  | .published k => some (.own k)
  | .onState _ => none

/-- The last clip handed to the listener or published. -/
def Worker.current (w : Worker Published) : Option Current :=
  (w.trace.filterMap Note.current).getLast?

/-! ## What a message makes current -/

section

variable [Aead] [ClipJson]

theorem current_receive_of {cfg : ClientConfig} {w : Worker Published} (h : w.Valid)
    {a : Arrival Published} (hd : Delivers cfg w a) :
    (receive cfg w a).current = some (.received a) := by
  rcases (receive_cases h a).2 with ⟨-, payload, htrace, -⟩ | ⟨hno, -⟩
  · rw [Worker.current, htrace, List.filterMap_append]
    simp [Note.current]
  · exact absurd hd hno

theorem current_receive_of_not {cfg : ClientConfig} {w : Worker Published} (h : w.Valid)
    {a : Arrival Published} (hd : ¬ Delivers cfg w a) :
    (receive cfg w a).current = w.current := by
  rcases (receive_cases h a).2 with ⟨hyes, -⟩ | ⟨-, htrace, -⟩
  · exact absurd hyes hd
  · rw [Worker.current, htrace, Worker.current]

/-- Some delivery of a message becomes current, or nothing is delivered and nothing changes. -/
theorem current_receiveAll (cfg : ClientConfig) {w : Worker Published} (h : w.Valid)
    (lags : List Duration) (as : List (Arrival Published)) :
    (∃ t ∈ turns cfg w lags as, Delivers cfg t.1 t.2 ∧
      (receiveAll cfg w lags as).current = some (.received t.2)) ∨
    (∀ t ∈ turns cfg w lags as, ¬ Delivers cfg t.1 t.2) ∧
      (receiveAll cfg w lags as).current = w.current := by
  induction as using List.reverseRecOn with
  | nil => exact Or.inr ⟨by simp [turns], rfl⟩
  | append_singleton as a ih =>
      obtain ⟨d, hturns, hall⟩ := turns_concat cfg w lags as a
      have hvalid := (receiveAll_valid cfg h lags as).wait d
      rw [hturns, hall]
      by_cases hd : Delivers cfg ((receiveAll cfg w lags as).wait d) a
      · exact Or.inl ⟨(_, a), List.mem_append_right _ (List.mem_singleton_self _), hd,
          current_receive_of hvalid hd⟩
      · rw [current_receive_of_not hvalid hd]
        rcases ih with ⟨t, ht, hdt, hcur⟩ | ⟨hnone, hcur⟩
        · exact Or.inl ⟨t, List.mem_append_left _ ht, hdt, hcur⟩
        · refine Or.inr ⟨fun t ht => ?_, hcur⟩
          rcases List.mem_append.1 ht with ht | ht
          · exact hnone t ht
          · rw [List.mem_singleton.1 ht]
            exact hd

/-- Of a reply, its newest clip becomes current, or an older one although the newest is not
delivered, or none is delivered. -/
theorem current_reply (cfg : ClientConfig) {w : Worker Published} (h : w.Valid)
    (lags : List Duration) (older : List Published) (newest : Published) :
    let ts := turns cfg w lags ((older ++ [newest]).map .relay)
    let cur := (receiveAll cfg w lags ((older ++ [newest]).map .relay)).current
    (∃ t, ts.getLast? = some t ∧ Delivers cfg t.1 t.2 ∧
      cur = some (.received (.relay newest))) ∨
    ((¬ ∃ t, ts.getLast? = some t ∧ Delivers cfg t.1 t.2) ∧ (∃ t ∈ ts, Delivers cfg t.1 t.2) ∧
      ∃ p ∈ older, cur = some (.received (.relay p))) ∨
    ((∀ t ∈ ts, ¬ Delivers cfg t.1 t.2) ∧ cur = w.current) := by
  dsimp only
  rw [List.map_append, List.map_singleton]
  obtain ⟨d, hturns, hall⟩ := turns_concat cfg w lags (older.map .relay) (.relay newest)
  have hvalid := (receiveAll_valid cfg h lags (older.map .relay)).wait d
  rw [hturns, hall, List.getLast?_concat]
  by_cases hd : Delivers cfg ((receiveAll cfg w lags (older.map .relay)).wait d) (.relay newest)
  · exact Or.inl ⟨_, rfl, hd, current_receive_of hvalid hd⟩
  · rw [current_receive_of_not hvalid hd]
    rcases current_receiveAll cfg h lags (older.map .relay) with
      ⟨t, ht, hdt, hcur⟩ | ⟨hnone, hcur⟩
    · refine Or.inr (Or.inl ⟨?_, ⟨t, List.mem_append_left _ ht, hdt⟩, ?_⟩)
      · rintro ⟨t', ht', hdt'⟩
        cases ht'
        exact hd hdt'
      · have hmem : t.2 ∈ older.map Arrival.relay := by
          rw [← turns_map_snd cfg w lags (older.map .relay)]
          exact List.mem_map_of_mem ht
        obtain ⟨p, hp, hpt⟩ := List.mem_map.1 hmem
        exact ⟨p, hp, by rw [hpt]; exact hcur⟩
    · refine Or.inr (Or.inr ⟨fun t ht => ?_, hcur⟩)
      rcases List.mem_append.1 ht with ht | ht
      · exact hnone t ht
      · rw [List.mem_singleton.1 ht]
        exact hd

end

namespace World

def current (w : World) : Option Current := w.worker.current

/-- The place of a clip in the relay's publish order, counted from one. An own clip that the
relay has not accepted yet comes after all it has. -/
def rank (w : World) : Option Current → Nat
  | none => 0
  | some (.received (.relay p)) => p.seq + 1
  | some (.received (.lan _)) => 0
  | some (.own k) =>
      match w.ownSeq k with
      | some n => n + 1
      | none => w.relay.accepted.length + 1

/-- A reply the session handles lists its clips in publish order. -/
theorem nextFrame_sorted {w : World} (hk : Relay.Kept w.relay) {clips : List Published}
    (h : w.nextFrame = some (.recent clips)) : clips.Pairwise (·.seq < ·.seq) := by
  unfold nextFrame at h
  split at h
  · cases h
  · rename_i cid hcid
    have hmem : .recent clips ∈ (w.relay.conns cid).frames :=
      List.mem_filter.2 ⟨List.mem_of_getElem? h, rfl⟩
    obtain ⟨g, hsub⟩ := hk.replies cid clips hmem
    exact (Relay.channel_sorted w.relay.accepted g).sublist hsub

section

variable [Aead] [ClipJson]

/-- When the next frame handled is a reply, the reply's last clip is delivered at its turn and
the current clip is not newer, or no clip of the reply is delivered at its turn and the current
clip is not older. -/
def ReplayInOrder (cfg : ClientConfig) (w : World) (e : Event) : Prop :=
  ∀ lags clips newest, e = .handle lags → w.nextFrame = some (.recent clips) →
    clips.getLast? = some newest →
    ((∃ t, (w.turnsOf cfg e).getLast? = some t ∧ Delivers cfg t.1 t.2) ∧
      w.rank w.current ≤ newest.seq + 1) ∨
    (∀ t ∈ w.turnsOf cfg e, ¬ Delivers cfg t.1 t.2) ∧ newest.seq + 1 ≤ w.rank w.current

variable [SocketAddrText]

/-- After a reply is handled, the clip current on the device is the newest of the one current
before and the clips of the reply. -/
def KeepsNewest (cfg : ClientConfig) (w : World) (e : Event) : Prop :=
  ∀ lags clips, e = .handle lags → w.nextFrame = some (.recent clips) →
    ((step cfg w e).current = w.current ∨
      ∃ p ∈ clips, (step cfg w e).current = some (.received (.relay p))) ∧
    w.rank w.current ≤ (step cfg w e).rank (step cfg w e).current ∧
    ∀ p ∈ clips, p.seq + 1 ≤ (step cfg w e).rank (step cfg w e).current

theorem step_handle_recent (cfg : ClientConfig) {w : World} (lags : List Duration)
    {clips : List Published} (h : w.nextFrame = some (.recent clips)) :
    (step cfg w (.handle lags)).current =
      (receiveAll cfg w.worker lags (clips.map .relay)).current ∧
    w.turnsOf cfg (.handle lags) = turns cfg w.worker lags (clips.map .relay) ∧
    (step cfg w (.handle lags)).rank = w.rank := by
  refine ⟨?_, ?_, ?_⟩
  · simp only [current, step, onHandle, h, onFrame, handleServer, receiveRecent_eq]
  · simp only [turnsOf, brings, h, Option.map_some, Option.getD_some, arrivals]
  · simp only [step, onHandle, h]
    rfl

/-- **One event keeps the newest clip current exactly if its replay is in order.** -/
theorem keepsNewest_iff_step (cfg : ClientConfig) (w : World) (e : Event)
    (h : Relay.Kept w.relay ∧ w.worker.Valid) :
    KeepsNewest cfg w e ↔ ReplayInOrder cfg w e := by
  unfold KeepsNewest ReplayInOrder
  refine forall_congr' fun lags => forall_congr' fun clips => ?_
  constructor
  · rintro hkeep newest rfl hnext hlast
    obtain ⟨-, hold, hnew⟩ := hkeep rfl hnext
    obtain ⟨hcur, hturns, hrank⟩ := step_handle_recent cfg lags hnext
    obtain ⟨older, rfl⟩ := List.getLast?_eq_some_iff.1 hlast
    have hsorted := nextFrame_sorted h.1 hnext
    have hlatest := hnew newest (by simp)
    rw [hrank, hcur] at hold hlatest
    rw [hturns]
    rcases current_reply cfg h.2 lags older newest with
      ⟨t, ht, hd, hc⟩ | ⟨-, -, p, hp, hc⟩ | ⟨hnone, hc⟩
    · rw [hc] at hold
      exact Or.inl ⟨⟨t, ht, hd⟩, hold⟩
    · -- An older clip of the reply is current: it is not the newest.
      rw [hc] at hlatest
      have hlt := (List.pairwise_append.1 hsorted).2.2 p hp newest (by simp)
      simp only [rank] at hlatest
      omega
    · rw [hc] at hlatest
      exact Or.inr ⟨hnone, hlatest⟩
  · rintro hsafe rfl hnext
    obtain ⟨hcur, hturns, hrank⟩ := step_handle_recent cfg lags hnext
    rw [hrank, hcur]
    rcases List.eq_nil_or_concat clips with rfl | ⟨older, newest, rfl⟩
    · exact ⟨Or.inl rfl, le_rfl, by simp⟩
    · rw [List.concat_eq_append] at hsafe hnext hturns ⊢
      have hsorted := nextFrame_sorted h.1 hnext
      have hle : ∀ p ∈ older ++ [newest], p.seq ≤ newest.seq := by
        intro p hp
        rcases List.mem_append.1 hp with hp | hp
        · exact le_of_lt ((List.pairwise_append.1 hsorted).2.2 p hp newest (by simp))
        · rw [List.mem_singleton.1 hp]
      have hcase := hsafe newest rfl hnext (by simp)
      rw [hturns] at hcase
      rcases current_reply cfg h.2 lags older newest with
        ⟨t, ht, hd, hc⟩ | ⟨hlast, hsome, -⟩ | ⟨hnone, hc⟩
      · rcases hcase with ⟨-, hrk⟩ | ⟨hnone, -⟩
        · rw [hc]
          exact ⟨Or.inr ⟨newest, by simp, rfl⟩, hrk, fun p hp => Nat.succ_le_succ (hle p hp)⟩
        · exact absurd hd (hnone t (List.mem_of_getLast? ht))
      · rcases hcase with ⟨hsafe', -⟩ | ⟨hnone, -⟩
        · exact absurd hsafe' hlast
        · obtain ⟨t, ht, hd⟩ := hsome
          exact absurd hd (hnone t ht)
      · rcases hcase with ⟨⟨t, ht, hd⟩, -⟩ | ⟨-, hrk⟩
        · exact absurd hd (hnone t (List.mem_of_getLast? ht))
        · rw [hc]
          exact ⟨Or.inl rfl, le_rfl, fun p hp => le_trans (Nat.succ_le_succ (hle p hp)) hrk⟩

/-- **A run keeps the newest clip current at every reply exactly if every replay is in order.** -/
theorem keepsNewest_iff (cfg : ClientConfig) (es : List Event) :
    Machine.Along (step cfg) (KeepsNewest cfg) init es ↔
      Machine.Along (step cfg) (ReplayInOrder cfg) init es := by
  refine Machine.along_congr (I := fun w : World => Relay.Kept w.relay ∧ w.worker.Valid)
    (fun w e _ h => ⟨?_, worker_valid_step cfg w e h.2⟩) (keepsNewest_iff_step cfg)
    ⟨Relay.kept_init, Worker.valid_start⟩
  exact relay_invariant_step Relay.kept_step cfg w e h.1

end

/-- The device gets `"A"`, publishes `"B"`, and reconnects eleven seconds later. -/
def publishThenReconnect : List Event :=
  pcJoins 1 ++ [pcPublishes 1 65 7] ++ opens 2 0 0 ++
    [.sendClip ⟨.text, "B", "Me", 8, none⟩ (List.replicate nonceLen 0), .arrive 2 0,
     .hangUp .disconnected] ++
    opens 3 (Duration.fromSecs 11) (Duration.fromSecs 11)

theorem publishThenReconnect_rolls_back :
    ¬ @Machine.Along _ _ (@step noAddrText clearAead textJson sampleConfig)
      (@KeepsNewest clearAead textJson noAddrText sampleConfig) init publishThenReconnect := by
  let _ := noAddrText
  let _ := clearAead
  let _ := textJson
  intro h
  have hlast := Machine.along_iff.1 h (publishThenReconnect.take 15) _ [] rfl
  -- The reply holds both clips, and the older one is current after it.
  obtain ⟨-, hold, -⟩ := hlast [Duration.fromSecs 11] _ rfl rfl
  exact absurd hold (by decide)

end World

end ClipBridge
