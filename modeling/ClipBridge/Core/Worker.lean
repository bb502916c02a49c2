import ClipBridge.Core.Crypto
import ClipBridge.Core.DedupCache
import ClipBridge.Core.Protocol
import Mathlib.Data.List.Infix

/-!
# The client's worker

Following `core/src/client.rs`: what the worker does with the messages of the relay and with the
clips of LAN peers. It runs on one thread and does not suspend while it handles a message.

* `handleServer` — one message of the relay; `onLanInbound` — one clip of a LAN peer.
* `receive` — the part both share: skip our own clip, ask the cache, open, deliver.
* `Worker.Knows`, `Delivers` — what decides whether an arrival is delivered, as a statement about
  the log of recorded clips (`receive_delivered_of`, `receive_delivered_of_not`).
* `turns` — the arrivals a message brings, each with the worker that its turn finds.

The worker is generic in how a relay clip is represented. Time passes only before the clock is
read, so each reading comes with the time that passed since the last one. Two things are recorded
beside the worker's variables: the log of all keys the cache took, and the trace of what the
embedder saw.
-/

namespace ClipBridge

/-- `serde_json` on the payload of a clip. -/
class ClipJson where
  toVec : ClipPayload → Bytes
  fromSlice : Bytes → Option ClipPayload

structure ClientConfig where
  groupId : GroupId
  deviceId : DeviceId
  deviceName : String
  key : Key

inductive ConnectionState where
  | connecting
  | connected
  | disconnected
  | error (message : String)
  deriving DecidableEq, Repr

structure IncomingLanClip where
  senderDeviceId : DeviceId
  ts : UInt64
  payload : ClipPayload
  deriving DecidableEq, Repr

/-- A clip that reaches the worker: in a relay message, or from a LAN peer. -/
inductive Arrival (κ : Type) where
  | relay (c : κ)
  | lan (c : IncomingLanClip)
  deriving DecidableEq, Repr

/-- What the embedder sees of the worker: the calls of its listener, and that one of its own
clips, the `k`-th, was published. -/
inductive Note (κ : Type) where
  | onClip (a : Arrival κ) (payload : ClipPayload)
  | onState (state : ConnectionState)
  | published (k : Nat)
  deriving DecidableEq, Repr

structure Worker (κ : Type) where
  clock : Instant
  dedup : DedupCache
  /-- Every key the cache took, with the time. -/
  recorded : List (ClipKey × Instant)
  trace : List (Note κ)
  lanAdvertiseErrorPending : Bool
  lanAdvertiseDisabled : Bool
  deriving DecidableEq, Repr

/-- The cache of `run`: 128 clips, ten seconds. -/
def dedupNew : DedupCache := DedupCache.new 128 (Duration.fromSecs 10)

def Worker.start {κ : Type} : Worker κ where
  clock := 0
  dedup := dedupNew
  recorded := []
  trace := []
  lanAdvertiseErrorPending := false
  lanAdvertiseDisabled := false

section

variable {κ : Type}

/-- Time passes. -/
def Worker.wait (w : Worker κ) (d : Duration) : Worker κ := { w with clock := w.clock + d }

def Worker.note (w : Worker κ) (n : Note κ) : Worker κ := { w with trace := w.trace ++ [n] }

/-- `dedup.lock().insert(..)`. -/
def Worker.insert (w : Worker κ) (key : ClipKey) : Bool × Worker κ :=
  let (fresh, dedup) := w.dedup.insert w.clock key.1 key.2
  (fresh, { w with
    dedup
    recorded := if fresh then w.recorded ++ [(key, w.clock)] else w.recorded })

variable [WireClip κ] [Aead] [ClipJson]

/-- Decrypt a clip and parse its payload. -/
def openClip (key : Key) (c : RecentClip) : Option ClipPayload :=
  match decrypt key c.nonce c.ciphertext with
  | .ok plain => ClipJson.fromSlice plain
  | .error _ => none

def Arrival.key : Arrival κ → ClipKey
  | .relay c => ((wire c).senderDeviceId, (wire c).ts)
  | .lan c => (c.senderDeviceId, c.ts)

def Arrival.payload (cfg : ClientConfig) : Arrival κ → Option ClipPayload
  | .relay c => openClip cfg.key (wire c)
  | .lan c => some c.payload

/-- Take one clip: not our own, not a recent duplicate, and readable. -/
def receive (cfg : ClientConfig) (w : Worker κ) (a : Arrival κ) : Worker κ :=
  if a.key.1 = cfg.deviceId then w
  else
    match w.insert a.key with
    | (false, w) => w
    | (true, w) =>
        match a.payload cfg with
        | some payload => w.note (.onClip a payload)
        | none => w

/-- The loop over the clips of a `Recent` reply, oldest first. -/
def receiveRecent (cfg : ClientConfig) (w : Worker κ) (lags : List Duration) : List κ → Worker κ
  | [] => w
  | c :: clips =>
      receiveRecent cfg (receive cfg (w.wait (lags.headD 0)) (.relay c)) lags.tail clips

/-- The inbound loop of the LAN node. -/
def onLanInbound (cfg : ClientConfig) (w : Worker κ) (lag : Duration) (c : IncomingLanClip) :
    Worker κ :=
  receive cfg (w.wait lag) (.lan c)

end

/-- Whether `t` occurs in `s`. -/
def hasInfix (t : List Char) : List Char → Bool
  | [] => t.isEmpty
  | c :: cs => t.isPrefixOf (c :: cs) || hasInfix t cs

def isLanAdvertiseCompatError (reason : String) : Bool :=
  hasInfix "bad message:".toList reason.toList &&
    hasInfix "unknown variant".toList reason.toList &&
    hasInfix "lan_advertise".toList reason.toList

section

variable {κ : Type} [WireClip κ] [Aead] [ClipJson]

def handleServer (cfg : ClientConfig) (w : Worker κ) (lags : List Duration) :
    ServerMessage κ → Worker κ
  | .joined _ => w
  | .clip c => receive cfg (w.wait (lags.headD 0)) (.relay c)
  | .recent clips => receiveRecent cfg w lags clips
  | .error reason =>
      if w.lanAdvertiseErrorPending then
        let w := { w with lanAdvertiseErrorPending := false }
        if isLanAdvertiseCompatError reason then { w with lanAdvertiseDisabled := true }
        else w.note (.onState (.error reason))
      else w.note (.onState (.error reason))
  | .lanPeers _ => w

/-- The text branch of the session loop: a snapshot of LAN peers goes to the LAN node instead. -/
def onFrame (cfg : ClientConfig) (w : Worker κ) (lags : List Duration) (msg : ServerMessage κ) :
    Worker κ :=
  match msg with
  | .lanPeers _ => { w with lanAdvertiseErrorPending := false }
  | msg => handleServer cfg w lags msg

/-! ## What decides a delivery -/

/-- The cache remembers the key: recorded at most its time to live ago, and fewer clips than its
capacity recorded since. -/
def Worker.Knows (w : Worker κ) (key : ClipKey) : Prop :=
  RecencyWindow.Remembers w.dedup.capacity w.dedup.ttl w.clock w.recorded key

/-- The cache holds what the log of recorded keys says. -/
structure Worker.Valid (w : Worker κ) : Prop where
  capacity : 0 < w.dedup.capacity
  tracks : RecencyWindow.Tracks w.dedup.capacity w.dedup.ttl w.clock w.recorded w.dedup.entries

/-- The arrival is delivered: it is not our own, not remembered, and readable. -/
structure Delivers (cfg : ClientConfig) (w : Worker κ) (a : Arrival κ) : Prop where
  foreign : a.key.1 ≠ cfg.deviceId
  unknown : ¬ w.Knows a.key
  readable : (a.payload cfg).isSome

omit [WireClip κ] [Aead] [ClipJson] in
theorem Worker.valid_start : (Worker.start : Worker κ).Valid :=
  ⟨by simp [Worker.start, dedupNew, DedupCache.new], RecencyWindow.tracks_nil _ _ _⟩

omit [WireClip κ] [Aead] [ClipJson] in
theorem Worker.Valid.wait {w : Worker κ} (h : w.Valid) (d : Duration) : (w.wait d).Valid :=
  ⟨h.capacity, h.tracks.later (Nat.le_add_right _ _)⟩

omit [WireClip κ] [Aead] [ClipJson] in
theorem Worker.Valid.note {w : Worker κ} (h : w.Valid) (n : Note κ) : (w.note n).Valid :=
  ⟨h.capacity, h.tracks⟩

omit [WireClip κ] [Aead] [ClipJson] in
/-- A key is fresh exactly if it is not remembered; then it is recorded. -/
theorem Worker.Valid.insert {w : Worker κ} (h : w.Valid) (key : ClipKey) :
    (w.Knows key ∧ ∃ dedup, w.insert key = (false, { w with dedup }) ∧
      ({ w with dedup } : Worker κ).Valid) ∨
    (¬ w.Knows key ∧ ∃ dedup,
      w.insert key = (true, { w with dedup, recorded := w.recorded ++ [(key, w.clock)] }) ∧
      ({ w with dedup, recorded := w.recorded ++ [(key, w.clock)] } : Worker κ).Valid) := by
  obtain ⟨sender, ts⟩ := key
  have hins := DedupCache.insert_eq w.dedup w.clock sender ts
  have hfst := h.tracks.insert_fst (sender, ts)
  have hrep := h.tracks.insert_repeat (k := (sender, ts))
  have hnew := h.tracks.insert_new h.capacity (k := (sender, ts))
  unfold Worker.insert
  generalize RecencyWindow.insert w.dedup.capacity w.dedup.ttl w.clock (sender, ts)
    w.dedup.entries = r at hins hfst hrep hnew
  obtain ⟨fresh, entries⟩ := r
  simp only at hins hfst hrep hnew
  rw [hins]
  cases fresh with
  | false => exact Or.inl ⟨hfst.1 rfl, _, rfl, h.capacity, hrep rfl⟩
  | true =>
      refine Or.inr ⟨fun hk => ?_, _, rfl, h.capacity, hnew rfl⟩
      simpa using hfst.2 hk

/-- What one arrival does: a delivery adds one note and is recorded; anything else adds no note,
and a key recorded then is the arrival's. -/
theorem receive_cases {cfg : ClientConfig} {w : Worker κ} (h : w.Valid) (a : Arrival κ) :
    (receive cfg w a).Valid ∧
    ((Delivers cfg w a ∧ ∃ payload,
        (receive cfg w a).trace = w.trace ++ [.onClip a payload] ∧
        (receive cfg w a).recorded = w.recorded ++ [(a.key, w.clock)]) ∨
      (¬ Delivers cfg w a ∧ (receive cfg w a).trace = w.trace ∧
        ((receive cfg w a).recorded = w.recorded ∨
          (receive cfg w a).recorded = w.recorded ++ [(a.key, w.clock)]))) := by
  unfold receive
  by_cases hown : a.key.1 = cfg.deviceId
  · rw [if_pos hown]
    exact ⟨h, Or.inr ⟨fun hd => hd.foreign hown, rfl, Or.inl rfl⟩⟩
  · rw [if_neg hown]
    rcases h.insert a.key with ⟨hknows, dedup, hins, hvalid⟩ | ⟨hknows, dedup, hins, hvalid⟩
    · rw [hins]
      exact ⟨hvalid, Or.inr ⟨fun hd => hd.unknown hknows, rfl, Or.inl rfl⟩⟩
    · rw [hins]
      dsimp only
      cases hp : a.payload cfg with
      | none =>
          refine ⟨hvalid, Or.inr ⟨fun hd => ?_, rfl, Or.inr rfl⟩⟩
          have := hd.readable
          rw [hp] at this
          simp at this
      | some payload =>
          exact ⟨hvalid.note _, Or.inl ⟨⟨hown, hknows, by rw [hp]; rfl⟩, payload, rfl, rfl⟩⟩

theorem receive_valid {cfg : ClientConfig} {w : Worker κ} (h : w.Valid) (a : Arrival κ) :
    (receive cfg w a).Valid := (receive_cases h a).1

theorem receive_keeps (cfg : ClientConfig) (w : Worker κ) (a : Arrival κ) :
    (receive cfg w a).clock = w.clock ∧
      (receive cfg w a).dedup.capacity = w.dedup.capacity ∧
      (receive cfg w a).dedup.ttl = w.dedup.ttl := by
  unfold receive
  split
  · exact ⟨rfl, rfl, rfl⟩
  · have hkeeps : (w.insert a.key).2.clock = w.clock ∧
        (w.insert a.key).2.dedup.capacity = w.dedup.capacity ∧
        (w.insert a.key).2.dedup.ttl = w.dedup.ttl := by
      unfold Worker.insert
      rw [DedupCache.insert_eq]
      exact ⟨rfl, rfl, rfl⟩
    generalize w.insert a.key = r at hkeeps
    obtain ⟨fresh, w'⟩ := r
    cases fresh with
    | false => exact hkeeps
    | true =>
        dsimp only
        split
        · exact hkeeps
        · exact hkeeps

/-- `w'` has taken no clip since `w`. -/
structure Worker.Idle (w w' : Worker κ) : Prop where
  clock : w'.clock = w.clock
  dedup : w'.dedup = w.dedup
  recorded : w'.recorded = w.recorded
  trace : ∃ notes, w'.trace = w.trace ++ notes ∧ ∀ a payload, Note.onClip a payload ∉ notes

/-! ## Turn by turn -/

/-- The arrivals `as`, each beside the worker that finds it when its turn comes. -/
def turns (cfg : ClientConfig) (w : Worker κ) (lags : List Duration) :
    List (Arrival κ) → List (Worker κ × Arrival κ)
  | [] => []
  | a :: as =>
      (w.wait (lags.headD 0), a) ::
        turns cfg (receive cfg (w.wait (lags.headD 0)) a) lags.tail as

/-- The worker after it has taken the arrivals in order. -/
def receiveAll (cfg : ClientConfig) (w : Worker κ) (lags : List Duration) :
    List (Arrival κ) → Worker κ
  | [] => w
  | a :: as => receiveAll cfg (receive cfg (w.wait (lags.headD 0)) a) lags.tail as

/-- The clips a relay message brings. -/
def arrivals : ServerMessage κ → List (Arrival κ)
  | .clip c => [.relay c]
  | .recent clips => clips.map .relay
  | _ => []

theorem receiveRecent_eq (cfg : ClientConfig) (w : Worker κ) (lags : List Duration)
    (clips : List κ) :
    receiveRecent cfg w lags clips = receiveAll cfg w lags (clips.map .relay) := by
  induction clips generalizing w lags with
  | nil => rfl
  | cons c clips ih => exact ih _ _

omit [WireClip κ] [Aead] [ClipJson] in
theorem Worker.idle_refl (w : Worker κ) : w.Idle w :=
  ⟨rfl, rfl, rfl, [], by simp, by simp⟩

omit [WireClip κ] [Aead] [ClipJson] in
theorem Worker.idle_note {w : Worker κ} {n : Note κ} (hn : ∀ a payload, n ≠ .onClip a payload) :
    w.Idle (w.note n) :=
  ⟨rfl, rfl, rfl, [n], rfl, fun a payload h => hn a payload (List.mem_singleton.1 h).symm⟩

omit [WireClip κ] [Aead] [ClipJson] in
theorem Worker.Valid.idle {w w' : Worker κ} (h : w.Valid) (hw : w.Idle w') : w'.Valid := by
  refine ⟨?_, ?_⟩
  · rw [hw.dedup]; exact h.capacity
  · rw [hw.dedup, hw.clock, hw.recorded]; exact h.tracks

/-- A message either only takes the clips it brings, or brings none and takes none. -/
theorem onFrame_cases (cfg : ClientConfig) (w : Worker κ) (lags : List Duration)
    (msg : ServerMessage κ) :
    onFrame cfg w lags msg = receiveAll cfg w lags (arrivals msg) ∨
      arrivals msg = [] ∧ w.Idle (onFrame cfg w lags msg) := by
  cases msg with
  | clip c => exact Or.inl rfl
  | recent clips => exact Or.inl (receiveRecent_eq cfg w lags clips)
  | joined g => exact Or.inl rfl
  | lanPeers peers => exact Or.inr ⟨rfl, rfl, rfl, rfl, [], by simp [onFrame], by simp⟩
  | error reason =>
      refine Or.inr ⟨rfl, ?_⟩
      simp only [onFrame, handleServer]
      split
      · split
        · exact ⟨rfl, rfl, rfl, [], by simp, by simp⟩
        · exact ⟨rfl, rfl, rfl, [.onState (.error reason)], rfl, by simp⟩
      · exact Worker.idle_note (by simp)

/-- The last turn finds the worker that has taken everything before it. -/
theorem turns_concat (cfg : ClientConfig) (w : Worker κ) (lags : List Duration)
    (as : List (Arrival κ)) (a : Arrival κ) :
    ∃ d, turns cfg w lags (as ++ [a]) =
        turns cfg w lags as ++ [((receiveAll cfg w lags as).wait d, a)] ∧
      receiveAll cfg w lags (as ++ [a]) = receive cfg ((receiveAll cfg w lags as).wait d) a := by
  induction as generalizing w lags with
  | nil => exact ⟨lags.headD 0, rfl, rfl⟩
  | cons b as ih =>
      obtain ⟨d, hturns, hall⟩ := ih (receive cfg (w.wait (lags.headD 0)) b) lags.tail
      refine ⟨d, ?_, hall⟩
      rw [List.cons_append, turns, hturns, turns, List.cons_append]
      rfl

theorem turns_map_snd (cfg : ClientConfig) (w : Worker κ) (lags : List Duration)
    (as : List (Arrival κ)) : (turns cfg w lags as).map (·.2) = as := by
  induction as generalizing w lags with
  | nil => rfl
  | cons a as ih => rw [turns, List.map_cons, ih]

/-- **The turn rule.** What every turn keeps, under a condition on the turn, a whole message
keeps; the invariant may read the arrivals taken so far. -/
theorem receiveAll_induction {cfg : ClientConfig} {I : List (Arrival κ) → Worker κ → Prop}
    {P : Worker κ → Arrival κ → Prop}
    (hturn : ∀ seen w d a, P (w.wait d) a → I seen w →
      I (seen ++ [a]) (receive cfg (w.wait d) a))
    (seen : List (Arrival κ)) {w : Worker κ} (lags : List Duration) (as : List (Arrival κ))
    (hP : ∀ t ∈ turns cfg w lags as, P t.1 t.2) (h : I seen w) :
    I (seen ++ as) (receiveAll cfg w lags as) := by
  induction as generalizing seen w lags with
  | nil => simpa [receiveAll] using h
  | cons a as ih =>
      have hnext := hturn seen w (lags.headD 0) a (hP _ List.mem_cons_self) h
      have := ih _ lags.tail (fun t ht => hP t (List.mem_cons_of_mem _ ht)) hnext
      rwa [List.append_assoc, List.singleton_append] at this

theorem receiveAll_valid (cfg : ClientConfig) {w : Worker κ} (h : w.Valid) (lags : List Duration)
    (as : List (Arrival κ)) : (receiveAll cfg w lags as).Valid :=
  receiveAll_induction (I := fun _ w => w.Valid) (P := fun _ _ => True)
    (fun _ _ d a _ hw => receive_valid (hw.wait d) a) [] lags as (fun _ _ => trivial) h

/-! ## What was delivered -/

/-- The arrival a note delivers. -/
def Note.delivery {κ : Type} : Note κ → Option (Arrival κ)
  | .onClip a _ => some a
  | _ => none

/-- The arrivals handed to the listener, oldest first. -/
def Worker.delivered {κ : Type} (w : Worker κ) : List (Arrival κ) :=
  w.trace.filterMap Note.delivery

omit [WireClip κ] [Aead] [ClipJson] in
theorem Worker.Idle.delivered {w w' : Worker κ} (h : w.Idle w') :
    w'.delivered = w.delivered := by
  obtain ⟨notes, htrace, hnone⟩ := h.trace
  have hnil : notes.filterMap Note.delivery = [] := by
    rw [List.filterMap_eq_nil_iff]
    intro n hn
    cases n with
    | onClip a payload => exact absurd hn (hnone a payload)
    | onState _ | published _ => rfl
  rw [Worker.delivered, htrace, List.filterMap_append, hnil, List.append_nil, Worker.delivered]

theorem receive_delivered_of {cfg : ClientConfig} {w : Worker κ} (h : w.Valid) {a : Arrival κ}
    (hd : Delivers cfg w a) : (receive cfg w a).delivered = w.delivered ++ [a] := by
  rcases (receive_cases h a).2 with ⟨-, payload, htrace, -⟩ | ⟨hno, -⟩
  · rw [Worker.delivered, htrace, List.filterMap_append]
    rfl
  · exact absurd hd hno

theorem receive_delivered_of_not {cfg : ClientConfig} {w : Worker κ} (h : w.Valid)
    {a : Arrival κ} (hd : ¬ Delivers cfg w a) : (receive cfg w a).delivered = w.delivered := by
  rcases (receive_cases h a).2 with ⟨hyes, -⟩ | ⟨-, htrace, -⟩
  · exact absurd hyes hd
  · rw [Worker.delivered, htrace, Worker.delivered]

theorem receive_delivered_extends {cfg : ClientConfig} {w : Worker κ} (h : w.Valid)
    (a : Arrival κ) : w.delivered <+: (receive cfg w a).delivered := by
  by_cases hd : Delivers cfg w a
  · rw [receive_delivered_of h hd]
    exact List.prefix_append _ _
  · rw [receive_delivered_of_not h hd]

theorem receiveAll_delivered_extends {cfg : ClientConfig} {w : Worker κ} (h : w.Valid)
    (lags : List Duration) (as : List (Arrival κ)) :
    w.delivered <+: (receiveAll cfg w lags as).delivered := by
  induction as generalizing w lags with
  | nil => exact List.prefix_rfl
  | cons a as ih =>
      have hwait := h.wait (lags.headD 0)
      exact (receive_delivered_extends hwait a).trans (ih (receive_valid hwait a) lags.tail)

/-- What a turn delivers stays delivered; the worker a turn finds is valid. -/
theorem turns_spec {cfg : ClientConfig} {w : Worker κ} (h : w.Valid) (lags : List Duration)
    (as : List (Arrival κ)) {t : Worker κ × Arrival κ} (ht : t ∈ turns cfg w lags as) :
    t.1.Valid ∧ (receive cfg t.1 t.2).delivered <+: (receiveAll cfg w lags as).delivered := by
  induction as generalizing w lags with
  | nil => simp [turns] at ht
  | cons a as ih =>
      have hwait := h.wait (lags.headD 0)
      rcases List.mem_cons.1 ht with rfl | ht
      · exact ⟨hwait, receiveAll_delivered_extends (receive_valid hwait a) lags.tail as⟩
      · exact ih (receive_valid hwait a) lags.tail ht

end

/-! ## Stand-ins for examples -/

/-- A cipher that leaves the text as it is. -/
@[reducible] def clearAead : Aead where
  encrypt _ _ plain := some plain
  decrypt _ _ ciphertext := some ciphertext

/-- A payload that is its text. -/
@[reducible] def textJson : ClipJson where
  toVec payload := payload.content.toList.map fun c => UInt8.ofNat c.toNat
  fromSlice bytes :=
    some ⟨.text, String.ofList (bytes.map fun b => Char.ofNat b.toNat), "", 0, none⟩

/-- The client of the fixed runs: device `"me"` of group `"home"`. -/
def sampleConfig : ClientConfig := ⟨"home", "me", "Me", ⟨List.replicate keyLen 0, rfl⟩⟩

end ClipBridge
