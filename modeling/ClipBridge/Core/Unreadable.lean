import ClipBridge.Core.Worker
import ClipBridge.Lib.Machine

/-!
# Entries that cannot be read

Two runs of the worker, side by side: one takes all that comes in, the other takes what is left
when some clips that cannot be decrypted or parsed are deleted from it. Both read the clock at the
same times. The cache records a clip's key before the clip is opened, so a deleted clip may have
claimed the key of another one, or have pushed it out.

* `Inbound`, `Inbound.take` — what comes in, and what the worker does with it.
* `prune` — the input without the deleted clips.
* `NoEffect` — both runs hand the same payloads to `on_clip`.
* `Undisturbed` — the cache answers as if nothing had been recorded for deleted clips.
* `noEffect_run` — deleting clips has no effect on a run that is undisturbed by them.
-/

namespace ClipBridge

/-! ## The input -/

/-- A clip in a message of the relay, the time since the clock was last read, and a mark if the
clip is to be deleted. -/
structure MarkedClip where
  lag : Duration
  clip : RecentClip
  deleted : Bool

/-- What comes in: a message of the relay, or a clip of a LAN peer. -/
inductive Inbound where
  | clip (c : MarkedClip)
  | recent (clips : List MarkedClip)
  | joined (groupId : GroupId)
  | error (reason : String)
  | lanPeers (peers : List LanPeer)
  | lan (lag : Duration) (c : IncomingLanClip)

def Inbound.clips : Inbound → List MarkedClip
  | .clip c => [c]
  | .recent clips => clips
  | _ => []

/-- Delete the marked clips of a message. The time that passed goes to the clip after them. -/
def pruneClips (carry : Duration) : List MarkedClip → Duration × List MarkedClip
  | [] => (carry, [])
  | c :: clips =>
      if c.deleted then pruneClips (carry + c.lag) clips
      else
        let (carry', clips') := pruneClips 0 clips
        (carry', { c with lag := carry + c.lag } :: clips')

/-- Delete the marked clips of an input, beside the time that is left over. -/
def prune (carry : Duration) : List Inbound → Duration × List Inbound
  | [] => (carry, [])
  | .clip c :: input =>
      if c.deleted then prune (carry + c.lag) input
      else
        let (carry', input') := prune 0 input
        (carry', .clip { c with lag := carry + c.lag } :: input')
  | .recent clips :: input =>
      let (carry', clips') := pruneClips carry clips
      let (carry'', input') := prune carry' input
      (carry'', .recent clips' :: input')
  | .lan lag c :: input =>
      let (carry', input') := prune 0 input
      (carry', .lan (carry + lag) c :: input')
  | i :: input =>
      let (carry', input') := prune carry input
      (carry', i :: input')

def Note.payload {κ : Type} : Note κ → Option ClipPayload
  | .onClip _ payload => some payload
  | _ => none

/-- The payloads handed to `on_clip`, oldest first. -/
def Worker.payloads {κ : Type} (w : Worker κ) : List ClipPayload :=
  w.trace.filterMap Note.payload

/-! ## Turn by turn -/

/-- A clip whose turn it is. -/
structure Arriving where
  lag : Duration
  arrival : Arrival RecentClip
  deleted : Bool

def MarkedClip.arriving (c : MarkedClip) : Arriving := ⟨c.lag, .relay c.clip, c.deleted⟩

def Inbound.arriving : Inbound → List Arriving
  | .clip c => [c.arriving]
  | .recent clips => clips.map (·.arriving)
  | .lan lag c => [⟨lag, .lan c, false⟩]
  | _ => []

/-! ## Both runs -/

/-- The worker, beside what it has recorded for clips that are not deleted. -/
structure Watched where
  worker : Worker RecentClip
  kept : List (ClipKey × Instant)

def Watched.start : Watched := ⟨Worker.start, []⟩

/-- The cache would remember the key, had it recorded nothing for deleted clips. -/
def Watched.KnowsKept (s : Watched) (key : ClipKey) : Prop :=
  RecencyWindow.Remembers s.worker.dedup.capacity s.worker.dedup.ttl s.worker.clock s.kept key

def Watched.wait (s : Watched) (d : Duration) : Watched := { s with worker := s.worker.wait d }

/-- The worker of the run without the deleted clips. Its clock lags behind by what will be added
to the next turn. -/
structure Mirrors (carry : Duration) (s : Watched) (w : Worker RecentClip) : Prop where
  full : s.worker.Valid
  valid : w.Valid
  clock : s.worker.clock = w.clock + carry
  capacity : w.dedup.capacity = s.worker.dedup.capacity
  ttl : w.dedup.ttl = s.worker.dedup.ttl
  recorded : w.recorded = s.kept
  payloads : w.payloads = s.worker.payloads

theorem mirrors_start : Mirrors 0 Watched.start Worker.start where
  full := Worker.valid_start
  valid := Worker.valid_start
  clock := rfl
  capacity := rfl
  ttl := rfl
  recorded := rfl
  payloads := rfl

variable {w w' : Worker RecentClip} {s : Watched} {carry : Duration}

theorem Worker.Idle.payloads (h : w.Idle w') : w'.payloads = w.payloads := by
  obtain ⟨notes, htrace, hnone⟩ := h.trace
  have hnil : notes.filterMap Note.payload = [] := by
    rw [List.filterMap_eq_nil_iff]
    intro n hn
    cases n with
    | onClip a payload => exact absurd hn (hnone a payload)
    | onState _ | published _ => rfl
  rw [Worker.payloads, htrace, List.filterMap_append, hnil, List.append_nil, Worker.payloads]

/-- Both runs go on without a clip. -/
theorem Mirrors.idle (h : Mirrors carry s w) {u : Worker RecentClip} (hs : s.worker.Idle u)
    (hw : w.Idle w') : Mirrors carry ⟨u, s.kept⟩ w' where
  full := h.full.idle hs
  valid := h.valid.idle hw
  clock := by rw [hs.clock, hw.clock]; exact h.clock
  capacity := by rw [hs.dedup, hw.dedup]; exact h.capacity
  ttl := by rw [hs.dedup, hw.dedup]; exact h.ttl
  recorded := by rw [hw.recorded]; exact h.recorded
  payloads := by rw [hs.payloads, hw.payloads]; exact h.payloads

/-! ## What the worker does -/

section

variable [Aead] [ClipJson]

/-- The worker takes what comes in. -/
def Inbound.take (cfg : ClientConfig) (w : Worker RecentClip) : Inbound → Worker RecentClip
  | .clip c => onFrame cfg w [c.lag] (.clip c.clip)
  | .recent clips => onFrame cfg w (clips.map (·.lag)) (.recent (clips.map (·.clip)))
  | .joined groupId => onFrame cfg w [] (.joined groupId)
  | .error reason => onFrame cfg w [] (.error reason)
  | .lanPeers peers => onFrame cfg w [] (.lanPeers peers)
  | .lan lag c => onLanInbound cfg w lag c

/-- The worker after an input. -/
def inboundRun (cfg : ClientConfig) (input : List Inbound) : Worker RecentClip :=
  Machine.run (Inbound.take cfg) Worker.start input

/-- No marked clip can be decrypted and parsed. -/
def Unreadable (cfg : ClientConfig) (input : List Inbound) : Prop :=
  ∀ i ∈ input, ∀ c ∈ i.clips, c.deleted → openClip cfg.key c.clip = none

/-- After every part of the input, the payloads delivered are the same as without the marked
clips, if none of these can be read. -/
def NoEffect (cfg : ClientConfig) (input : List Inbound) : Prop :=
  Unreadable cfg input → ∀ pre, pre <+: input →
    (inboundRun cfg pre).payloads = (inboundRun cfg (prune 0 pre).2).payloads

def Arriving.take (cfg : ClientConfig) (w : Worker RecentClip) (a : Arriving) :
    Worker RecentClip :=
  receive cfg (w.wait a.lag) a.arrival

/-- What the worker does on one turn, watched. -/
def watch (cfg : ClientConfig) (s : Watched) (a : Arriving) : Watched where
  worker := a.take cfg s.worker
  kept :=
    if a.deleted then s.kept
    else s.kept ++ (a.take cfg s.worker).recorded.drop s.worker.recorded.length

/-- What the worker does with a message or with a clip of a LAN peer, watched. -/
def watchInbound (cfg : ClientConfig) (s : Watched) (i : Inbound) : Watched where
  worker := i.take cfg s.worker
  kept := (Machine.run (watch cfg) s i.arriving).kept

/-- On the turn of a clip of another device that is not deleted, no deleted clip has claimed its
key, and none has pushed its key out of the cache. -/
structure Undisturbed (cfg : ClientConfig) (s : Watched) (a : Arriving) : Prop where
  unclaimed : a.deleted = false → a.arrival.key.1 ≠ cfg.deviceId →
    (s.worker.wait a.lag).Knows a.arrival.key → (s.wait a.lag).KnowsKept a.arrival.key
  unevicted : a.deleted = false → a.arrival.key.1 ≠ cfg.deviceId →
    (s.wait a.lag).KnowsKept a.arrival.key → (s.worker.wait a.lag).Knows a.arrival.key

instance decidableUndisturbed (cfg : ClientConfig) (s : Watched) (a : Arriving) :
    Decidable (Undisturbed cfg s a) :=
  have (w : Worker RecentClip) (key : ClipKey) : Decidable (w.Knows key) :=
    inferInstanceAs (Decidable (RecencyWindow.Remembers _ _ _ _ _))
  have (s : Watched) (key : ClipKey) : Decidable (s.KnowsKept key) :=
    inferInstanceAs (Decidable (RecencyWindow.Remembers _ _ _ _ _))
  decidable_of_iff (a.deleted = false → a.arrival.key.1 ≠ cfg.deviceId →
      ((s.worker.wait a.lag).Knows a.arrival.key ↔ (s.wait a.lag).KnowsKept a.arrival.key))
    ⟨fun h => ⟨fun hk hf => (h hk hf).1, fun hk hf => (h hk hf).2⟩,
      fun h hk hf => ⟨h.unclaimed hk hf, h.unevicted hk hf⟩⟩

/-- Every turn of a message is undisturbed. -/
def UndisturbedInbound (cfg : ClientConfig) (s : Watched) (i : Inbound) : Prop :=
  Machine.Along (watch cfg) (Undisturbed cfg) s i.arriving

instance decidableUndisturbedInbound (cfg : ClientConfig) (s : Watched) (i : Inbound) :
    Decidable (UndisturbedInbound cfg s i) :=
  inferInstanceAs (Decidable (Machine.Along _ _ _ _))

/-! ## What one clip does to the worker -/

variable {cfg : ClientConfig} {a : Arriving}

/-- Our own clip, or a key that is remembered: nothing is recorded, and nothing delivered. -/
theorem receive_skipped (h : w.Valid) {a : Arrival RecentClip}
    (hskip : a.key.1 = cfg.deviceId ∨ w.Knows a.key) :
    (receive cfg w a).recorded = w.recorded ∧ (receive cfg w a).payloads = w.payloads := by
  unfold receive
  split
  · exact ⟨rfl, rfl⟩
  · rename_i hforeign
    have hknows : w.Knows a.key := hskip.resolve_left hforeign
    rcases h.insert a.key with ⟨-, dedup, hins, -⟩ | ⟨hnew, -⟩
    · rw [hins]
      exact ⟨rfl, rfl⟩
    · exact absurd hknows hnew

/-- Any other clip is recorded, and its payload is delivered if it has one. -/
theorem receive_taken (h : w.Valid) {a : Arrival RecentClip} (hforeign : a.key.1 ≠ cfg.deviceId)
    (hnew : ¬ w.Knows a.key) :
    (receive cfg w a).recorded = w.recorded ++ [(a.key, w.clock)] ∧
      (receive cfg w a).payloads = w.payloads ++ (a.payload cfg).toList := by
  unfold receive
  rw [if_neg hforeign]
  rcases h.insert a.key with ⟨hknows, -⟩ | ⟨-, dedup, hins, -⟩
  · exact absurd hknows hnew
  · rw [hins]
    dsimp only
    cases a.payload cfg with
    | none => exact ⟨rfl, by simp [Worker.payloads]⟩
    | some payload =>
        refine ⟨rfl, ?_⟩
        show (w.trace ++ [Note.onClip a payload]).filterMap Note.payload = _
        rw [List.filterMap_append]
        rfl

/-! ## One clip in both runs -/

/-- A deleted clip comes in one run only. -/
theorem Mirrors.deleted (h : Mirrors carry s w) (hdel : a.deleted)
    (hbad : a.arrival.payload cfg = none) : Mirrors (carry + a.lag) (watch cfg s a) w := by
  have hfull := h.full.wait a.lag
  obtain ⟨hclock, hcapacity, httl⟩ := receive_keeps cfg (s.worker.wait a.lag) a.arrival
  constructor
  case full => exact receive_valid hfull a.arrival
  case valid => exact h.valid
  case clock =>
    show (receive cfg (s.worker.wait a.lag) a.arrival).clock = _
    rw [hclock]
    show s.worker.clock + a.lag = _
    rw [h.clock, Nat.add_assoc]
  case capacity => exact h.capacity.trans hcapacity.symm
  case ttl => exact h.ttl.trans httl.symm
  case recorded =>
    show w.recorded = if a.deleted then s.kept else _
    rw [if_pos hdel]
    exact h.recorded
  case payloads =>
    refine h.payloads.trans (Eq.symm ?_)
    show (receive cfg (s.worker.wait a.lag) a.arrival).payloads = s.worker.payloads
    by_cases hskip : a.arrival.key.1 = cfg.deviceId ∨ (s.worker.wait a.lag).Knows a.arrival.key
    · exact (receive_skipped hfull hskip).2
    · push Not at hskip
      rw [(receive_taken hfull hskip.1 hskip.2).2, hbad, Option.toList_none, List.append_nil]
      rfl

/-- Any other clip comes in both runs, and the cache answers the same. -/
theorem Mirrors.kept (h : Mirrors carry s w) (hkept : a.deleted = false)
    (hund : Undisturbed cfg s a) :
    Mirrors 0 (watch cfg s a) (receive cfg (w.wait (carry + a.lag)) a.arrival) := by
  have hfull := h.full.wait a.lag
  have hvalid := h.valid.wait (carry + a.lag)
  have hclocks : (s.worker.wait a.lag).clock = (w.wait (carry + a.lag)).clock := by
    show s.worker.clock + a.lag = w.clock + (carry + a.lag)
    rw [h.clock, Nat.add_assoc]
  obtain ⟨hclock, hcapacity, httl⟩ := receive_keeps cfg (s.worker.wait a.lag) a.arrival
  obtain ⟨hclock', hcapacity', httl'⟩ := receive_keeps cfg (w.wait (carry + a.lag)) a.arrival
  have hknows : a.arrival.key.1 ≠ cfg.deviceId →
      ((s.worker.wait a.lag).Knows a.arrival.key ↔
        (w.wait (carry + a.lag)).Knows a.arrival.key) := by
    intro hforeign
    have hsame : (w.wait (carry + a.lag)).Knows a.arrival.key ↔
        (s.wait a.lag).KnowsKept a.arrival.key := by
      unfold Worker.Knows Watched.KnowsKept
      rw [← hclocks]
      show RecencyWindow.Remembers w.dedup.capacity w.dedup.ttl _ w.recorded _ ↔ _
      rw [h.capacity, h.ttl, h.recorded]
      exact Iff.rfl
    exact ⟨fun hk => hsame.2 (hund.unclaimed hkept hforeign hk),
      fun hk => hund.unevicted hkept hforeign (hsame.1 hk)⟩
  have hturn : (receive cfg (w.wait (carry + a.lag)) a.arrival).recorded =
        (watch cfg s a).kept ∧
      (receive cfg (w.wait (carry + a.lag)) a.arrival).payloads =
        (receive cfg (s.worker.wait a.lag) a.arrival).payloads := by
    have hkeptlog : (watch cfg s a).kept =
        s.kept ++ (receive cfg (s.worker.wait a.lag) a.arrival).recorded.drop
          s.worker.recorded.length := by
      show (if a.deleted then s.kept else _) = _
      rw [hkept]
      rfl
    rw [hkeptlog]
    by_cases hskip : a.arrival.key.1 = cfg.deviceId ∨ (s.worker.wait a.lag).Knows a.arrival.key
    · have hskip' : a.arrival.key.1 = cfg.deviceId ∨
          (w.wait (carry + a.lag)).Knows a.arrival.key := by
        by_cases hown : a.arrival.key.1 = cfg.deviceId
        · exact Or.inl hown
        · exact Or.inr ((hknows hown).1 (hskip.resolve_left hown))
      obtain ⟨hrec, hpay⟩ := receive_skipped hfull hskip
      obtain ⟨hrec', hpay'⟩ := receive_skipped hvalid hskip'
      rw [hrec, hpay, hrec', hpay']
      refine ⟨?_, h.payloads⟩
      show w.recorded = s.kept ++ s.worker.recorded.drop s.worker.recorded.length
      rw [List.drop_length, List.append_nil]
      exact h.recorded
    · push Not at hskip
      obtain ⟨hforeign, hnew⟩ := hskip
      have hnew' : ¬ (w.wait (carry + a.lag)).Knows a.arrival.key :=
        fun hk => hnew ((hknows hforeign).2 hk)
      obtain ⟨hrec, hpay⟩ := receive_taken hfull hforeign hnew
      obtain ⟨hrec', hpay'⟩ := receive_taken hvalid hforeign hnew'
      rw [hrec, hpay, hrec', hpay', hclocks]
      constructor
      · show w.recorded ++ _ = s.kept ++ (s.worker.recorded ++ _).drop s.worker.recorded.length
        rw [List.drop_left, h.recorded]
      · show w.payloads ++ _ = s.worker.payloads ++ _
        rw [h.payloads]
  constructor
  case full => exact receive_valid hfull a.arrival
  case valid => exact receive_valid hvalid a.arrival
  case clock => exact hclock.trans (hclocks.trans hclock'.symm)
  case capacity => exact hcapacity'.trans (h.capacity.trans hcapacity.symm)
  case ttl => exact httl'.trans (h.ttl.trans httl.symm)
  case recorded => exact hturn.1
  case payloads => exact hturn.2

/-! ## A message in both runs -/

/-- The loop over a `Recent` reply takes one clip after the other. -/
theorem receiveRecent_eq_run (cfg : ClientConfig) (s : Watched) (clips : List MarkedClip) :
    receiveRecent cfg s.worker (clips.map (·.lag)) (clips.map (·.clip)) =
      (Machine.run (watch cfg) s (clips.map (·.arriving))).worker := by
  induction clips generalizing s with
  | nil => rfl
  | cons c clips ih => exact ih (watch cfg s c.arriving)

theorem mirrors_clips {clips : List MarkedClip} (h : Mirrors carry s w)
    (hbad : ∀ c ∈ clips, c.deleted → openClip cfg.key c.clip = none)
    (hund : Machine.Along (watch cfg) (Undisturbed cfg) s (clips.map (·.arriving))) :
    Mirrors (pruneClips carry clips).1 (Machine.run (watch cfg) s (clips.map (·.arriving)))
      (receiveRecent cfg w ((pruneClips carry clips).2.map (·.lag))
        ((pruneClips carry clips).2.map (·.clip))) := by
  induction clips generalizing s w carry with
  | nil => exact h
  | cons c clips ih =>
      have hrest : ∀ c' ∈ clips, c'.deleted → openClip cfg.key c'.clip = none :=
        fun c' hc' => hbad c' (List.mem_cons_of_mem _ hc')
      rw [List.map_cons, Machine.along_cons] at hund
      rw [List.map_cons, Machine.run_cons, pruneClips]
      cases hdel : c.deleted with
      | true =>
          rw [if_pos rfl]
          have hc : openClip cfg.key c.clip = none := hbad c List.mem_cons_self hdel
          exact ih (h.deleted (a := c.arriving) hdel hc) hrest hund.2
      | false =>
          rw [if_neg Bool.false_ne_true]
          exact ih (h.kept hdel hund.1) hrest hund.2

/-- A message without clips leaves the worker idle. -/
theorem onFrame_idle (cfg : ClientConfig) (w : Worker RecentClip) (msg : ServerMessage RecentClip)
    (hnone : arrivals msg = []) : w.Idle (onFrame cfg w [] msg) := by
  rcases onFrame_cases cfg w [] msg with h | ⟨-, h⟩
  · rw [h, hnone]
    exact w.idle_refl
  · exact h

theorem Mirrors.message {i : Inbound} (h : Mirrors carry s w) (hnone : i.arriving = [])
    (hidle : ∀ u : Worker RecentClip, u.Idle (i.take cfg u)) :
    Mirrors carry (watchInbound cfg s i) (i.take cfg w) := by
  rw [watchInbound, hnone]
  exact h.idle (hidle _) (hidle _)

theorem watchInbound_recent (cfg : ClientConfig) (s : Watched) (clips : List MarkedClip) :
    watchInbound cfg s (.recent clips) =
      Machine.run (watch cfg) s (clips.map (·.arriving)) := by
  show Watched.mk (receiveRecent cfg s.worker _ _) _ = _
  rw [receiveRecent_eq_run]
  rfl

/-- Both runs take the input, one of them without the deleted clips. -/
theorem mirrors_run {input : List Inbound} (h : Mirrors carry s w) (hbad : Unreadable cfg input)
    (hund : Machine.Along (watchInbound cfg) (UndisturbedInbound cfg) s input) :
    Mirrors (prune carry input).1 (Machine.run (watchInbound cfg) s input)
      (Machine.run (Inbound.take cfg) w (prune carry input).2) := by
  induction input generalizing s w carry with
  | nil => exact h
  | cons i input ih =>
      have hrest : Unreadable cfg input := fun j hj => hbad j (List.mem_cons_of_mem _ hj)
      have hhead := hbad i List.mem_cons_self
      obtain ⟨hturn, hlater⟩ := Machine.along_cons.1 hund
      cases i with
      | clip c =>
          rw [Machine.run_cons, prune]
          cases hdel : c.deleted with
          | true =>
              rw [if_pos rfl]
              have hc : openClip cfg.key c.clip = none := hhead c List.mem_cons_self hdel
              exact ih (h.deleted (a := c.arriving) hdel hc) hrest hlater
          | false =>
              rw [if_neg Bool.false_ne_true]
              exact ih (h.kept hdel hturn.1) hrest hlater
      | recent clips =>
          rw [Machine.run_cons, prune]
          refine ih ?_ hrest hlater
          rw [watchInbound_recent]
          exact mirrors_clips h hhead hturn
      | joined groupId =>
          have hidle := fun u => onFrame_idle cfg u (.joined groupId) rfl
          exact ih (h.message rfl hidle) hrest hlater
      | error reason =>
          have hidle := fun u => onFrame_idle cfg u (.error reason) rfl
          exact ih (h.message rfl hidle) hrest hlater
      | lanPeers peers =>
          have hidle := fun u => onFrame_idle cfg u (.lanPeers peers) rfl
          exact ih (h.message rfl hidle) hrest hlater
      | lan lag c =>
          rw [Machine.run_cons, prune]
          exact ih (h.kept rfl hturn.1) hrest hlater

theorem watchInbound_worker (cfg : ClientConfig) (s : Watched) (input : List Inbound) :
    (Machine.run (watchInbound cfg) s input).worker =
      Machine.run (Inbound.take cfg) s.worker input := by
  induction input generalizing s with
  | nil => rfl
  | cons i input ih => exact ih (watchInbound cfg s i)

/-- **Deleting clips that cannot be read has no effect on a run that is undisturbed by them.** -/
theorem noEffect_run (cfg : ClientConfig) (input : List Inbound)
    (h : Machine.Along (watchInbound cfg) (UndisturbedInbound cfg) Watched.start input) :
    NoEffect cfg input := by
  rintro hbad pre ⟨post, rfl⟩
  have hpre : Unreadable cfg pre := fun i hi => hbad i (List.mem_append_left _ hi)
  have hrun := mirrors_run mirrors_start hpre (Machine.along_append.1 h).1
  have hpayloads := hrun.payloads
  rw [watchInbound_worker] at hpayloads
  exact hpayloads.symm

end

/-- A clip of the sample group, one byte of text; it can be read if its nonce has the right
length. -/
def sampleClip (byte : UInt8) (nonceLen : Nat) (ts : UInt64) : RecentClip :=
  ⟨[byte], List.replicate nonceLen 0, ts, "pc"⟩

/-- A clip that cannot be read, and then another one with a later timestamp. -/
def otherKey : List Inbound :=
  [.clip ⟨0, sampleClip 65 0 7, true⟩, .recent [⟨1, sampleClip 66 nonceLen 8, false⟩]]

theorem otherKey_noEffect : @NoEffect clearAead textJson sampleConfig otherKey :=
  @noEffect_run clearAead textJson sampleConfig otherKey (by decide +kernel)

/-- A clip that cannot be read, and then one of the same device with the same timestamp. -/
def claimedKey : List Inbound :=
  [.clip ⟨0, sampleClip 65 0 7, true⟩, .clip ⟨1, sampleClip 66 nonceLen 7, false⟩]

theorem claimedKey_has_effect : ¬ @NoEffect clearAead textJson sampleConfig claimedKey := by
  intro h
  have hsame := h ?_ claimedKey List.prefix_rfl
  · exact absurd hsame (by decide +kernel)
  · intro i hi c hc hdel
    simp only [claimedKey, List.mem_cons, List.not_mem_nil, or_false] at hi
    rcases hi with rfl | rfl
    · rw [List.mem_singleton.1 hc]
      rfl
    · rw [List.mem_singleton.1 hc] at hdel
      cases hdel

end ClipBridge
