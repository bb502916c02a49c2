import ClipBridge.Lan.Transfer
import ClipBridge.Lib.Machine

/-!
# How long a handshake may take

`send_file_to_candidates` connects first, and `OutgoingFile::open` then hashes the file before the
sender says Hello. Meanwhile the task of `run_peer` waits five seconds for the Hello, and then five
seconds for the next frame.

Nothing but `OutgoingFile::open` takes time here: a frame arrives when it is sent, and what can be
done is done before time passes. Times are in milliseconds since the connection was made.

* `TimedLink`, `timedStep` — both programs with a clock: a turn, a timeout, or time that passes.
* `InTime` — no timeout fires, and once the file is open the Hello and the offer are there.
* `Stage` — where a handshake may be. `stage_step` — what a step makes of it.
* `inTime_iff` — every run is in time exactly if the file is opened within five seconds.
-/

namespace ClipBridge

/-- `Duration::from_secs(5)`. -/
def readTimeout : Nat := 5000

/-- In `OutgoingFile::open`. -/
def Sender.opening : Sender → Bool
  | .start | .hashing .. => true
  | _ => false

namespace TransferReceiver

/-- It reads under a timeout. -/
def timed : TransferReceiver → Bool
  | runPeer _ p =>
      match p.phase with
      | .hello | .classify _ => true
      | _ => false
  | receiveFile .. => false

def onTimeout (env : PeerEnv) : TransferReceiver → TransferReceiver
  | runPeer ctx p =>
      match p.phase with
      | .hello => runPeer ctx p.onHelloTimeout
      | .classify peerDid => runPeer ctx (p.onClassifyTimeout env peerDid)
      | _ => runPeer ctx p
  | receiveFile ctx r => receiveFile ctx r

/-- A task of `run_peer` that has taken an offer. -/
def past : TransferReceiver → Bool
  | runPeer _ p =>
      match p.phase with
      | .receiving _ | .ended _ => true
      | _ => false
  | receiveFile .. => false

theorem timed_of_past {r : TransferReceiver} (h : r.past = true) : r.timed = false := by
  cases r with
  | runPeer ctx p =>
      simp only [past, timed] at h ⊢
      cases hphase : p.phase <;> simp [hphase] at h ⊢
  | receiveFile => rfl

theorem past_absorb (ctx : PeerRunContext) (p : Peer) (turn : Turn) :
    (TransferReceiver.runPeer ctx (p.absorb turn).1).past = true := by
  obtain ⟨receiving, dir, sent⟩ := turn
  cases receiving with
  | waiting incoming => rfl
  | returned result => cases result <;> rfl

theorem past_onRead [Sha256] (env : PeerEnv) {r : TransferReceiver} (h : r.past = true)
    (read : Read) : (r.onRead env read).1.past = true := by
  cases r with
  | runPeer ctx p =>
      simp only [past] at h
      cases hphase : p.phase with
      | receiving incoming =>
          simp only [onRead, Peer.onRead, hphase]
          exact past_absorb ..
      | ended result => simp [onRead, Peer.onRead, hphase, past]
      | _ => simp [hphase] at h
  | receiveFile => cases h

theorem mode_of_past {r : TransferReceiver} (h : r.past = true) : r.mode ≠ .works := by
  cases r with
  | runPeer ctx p =>
      simp only [past] at h
      cases hphase : p.phase <;> simp [mode, Peer.mode, hphase] at h ⊢
  | receiveFile => cases h

end TransferReceiver

/-- Both programs, with a clock. -/
structure TimedLink where
  link : Duplex.Link Sender TransferReceiver UInt8
  now : Nat
  /-- When the receiver's call of `read_frame` began. -/
  since : Nat
  /-- What the receiver's calls have returned, and when. -/
  reads : List (Nat × Read)
  timedOut : Bool

inductive TimedEvent where
  | turn (side : Duplex.Side)
  /-- The receiver's read has lasted too long. -/
  | timeout
  | pass (millis : Nat)

namespace Transfer

section

variable [Aead] [LanJson] [Sha256] (t : Transfer) (openTime : Nat)

/-- A turn. The file is open when `openTime` has passed, and not before. -/
def nextLink (s : TimedLink) (side : Duplex.Side) :
    Option (Duplex.Link Sender TransferReceiver UInt8) :=
  (Duplex.act t.senderParty t.receiverParty s.link side).filter fun link =>
    !(s.link.left.opening && !link.left.opening) || decide (openTime ≤ s.now)

/-- Something is to be done before time passes. -/
def busy (s : TimedLink) : Bool :=
  (Duplex.act t.senderParty t.receiverParty s.link .right).isSome ||
    ((Duplex.act t.senderParty t.receiverParty s.link .left).isSome &&
      (!s.link.left.opening || decide (openTime ≤ s.now)))

/-- What a turn of the receiver reads. -/
def receiverReads (s : TimedLink) : Option Read :=
  if s.link.right.mode = .waits then
    (readFrame t.key s.link.toRight (s.link.left.mode = .ended)).map Prod.fst
  else none

def timedStep (s : TimedLink) : TimedEvent → TimedLink
  | .turn side =>
      match t.nextLink openTime s side, side with
      | none, _ => s
      | some link, .left => { s with link }
      | some link, .right =>
          { s with
            link
            since := s.now
            reads := s.reads ++ ((t.receiverReads s).map fun read => (s.now, read)).toList }
  | .timeout =>
      if !t.busy openTime s && s.link.right.timed && decide (s.since + readTimeout ≤ s.now) then
        { s with
          link := { s.link with right := s.link.right.onTimeout t.receiveEnv }
          since := s.now
          timedOut := true }
      else s
  | .pass millis =>
      if !t.busy openTime s && (!s.link.left.opening || decide (s.now + millis ≤ openTime)) &&
          (!s.link.right.timed || decide (s.now + millis ≤ s.since + readTimeout)) then
        { s with now := s.now + millis }
      else s

/-- The connection was just made. -/
def timedStart : TimedLink := ⟨t.start, 0, 0, [], false⟩

def timedRun (es : List TimedEvent) : TimedLink :=
  Machine.run (t.timedStep openTime) t.timedStart es

/-- No timeout has fired; when the file has been opened and time goes on, the receiver has read the
Hello and the offer, each within its timeout. -/
def InTime (s : TimedLink) : Prop :=
  s.timedOut = false ∧ (openTime < s.now → ∃ t₁ t₂ rest,
    s.reads = (t₁, .ok (some t.senderHello)) :: (t₂, .ok (some (.fileOffer t.offer))) :: rest ∧
      t₁ ≤ readTimeout ∧ t₂ ≤ t₁ + readTimeout)

/-- The sender can open its file, its frames are carried, and the receiver is a task of `run_peer`
that goes on after its Hello. -/
structure Dials (ctx : PeerRunContext) (p : Peer) : Prop where
  seals : Seals t.key
  nonceS : ∀ msg, (t.nonceS msg).length = nonceLen
  nonceR : ∀ msg, (t.nonceR msg).length = nonceLen
  isFile : t.src.isFile = true
  named : ∃ name, t.src.fileName = some name ∧ sanitizeFileName name = .ok t.safeName
  maxSend : t.size ≤ t.req.config.maxFileBytes.toNat
  receiver : t.receiver = .runPeer ctx { p with phase := .start }
  target : t.req.targetDeviceId = ctx.selfDeviceId
  admits : t.receiver.Admits t.req.sourceDeviceId
  fits : Fits t.senderHello ∧ Fits t.receiver.hello ∧ Fits (.fileOffer t.offer)
  readsBack : ∀ msg ∈ [t.senderHello, t.receiver.hello, .ping, .fileOffer t.offer], ReadsBack msg

/-! ## What a step of the clock does -/

variable {t openTime} {s : TimedLink} {link : Duplex.Link Sender TransferReceiver UInt8}

theorem turn_left (hact : Duplex.act t.senderParty t.receiverParty s.link .left = some link)
    (hopen : link.left.opening = true ∨ openTime ≤ s.now ∨ s.link.left.opening = false) :
    t.timedStep openTime s (.turn .left) = { s with link } := by
  have hnext : t.nextLink openTime s .left = some link := by
    rw [nextLink, hact]
    rcases hopen with h | h | h <;> simp [Option.filter, h]
  simp [timedStep, hnext]

/-- The file is not open yet. -/
theorem turn_left_early (hact : Duplex.act t.senderParty t.receiverParty s.link .left = some link)
    (hopening : s.link.left.opening = true) (hopen : link.left.opening = false)
    (hearly : s.now < openTime) : t.timedStep openTime s (.turn .left) = s := by
  have hnext : t.nextLink openTime s .left = none := by
    rw [nextLink, hact]
    simp [Option.filter, hopening, hopen, hearly]
  simp [timedStep, hnext]

theorem turn_right (hact : Duplex.act t.senderParty t.receiverParty s.link .right = some link) :
    t.timedStep openTime s (.turn .right) =
      { s with
        link
        since := s.now
        reads := s.reads ++ ((t.receiverReads s).map fun read => (s.now, read)).toList } := by
  obtain ⟨r, -, -, rfl⟩ := Duplex.act_right hact
  have hnext : t.nextLink openTime s .right =
      some { s.link with right := r.1, toRight := r.2.1, toLeft := s.link.toLeft ++ r.2.2 } := by
    rw [nextLink, hact]
    simp [Option.filter]
  simp [timedStep, hnext]

/-- The receiver reads a frame that is there. -/
theorem turn_receiver_reads {l : Sender} {r r' : TransferReceiver} {msg : LanMessage}
    {toReceiver toSender sent : List LanMessage} {now since : Nat} {reads : List (Nat × Read)}
    {timedOut : Bool} (hmode : r.mode = .waits) (hmsg : Carried t.key t.nonceS msg)
    (hread : r.onRead t.receiveEnv (.ok (some msg)) = (r', sent)) :
    t.timedStep openTime ⟨t.link l r (msg :: toReceiver) toSender, now, since, reads, timedOut⟩
        (.turn .right) =
      ⟨t.link l r' toReceiver (toSender ++ sent), now, now, reads ++ [(now, .ok (some msg))],
        timedOut⟩ := by
  have hreads : t.receiverReads
      ⟨t.link l r (msg :: toReceiver) toSender, now, since, reads, timedOut⟩ =
        some (.ok (some msg)) := by
    unfold receiverReads
    rw [if_pos (by exact hmode)]
    show (readFrame t.key (wireBytes t.key t.nonceS (msg :: toReceiver)) _).map Prod.fst = _
    rw [readFrame_carried hmsg]
    rfl
  rw [turn_right (act_receiver_reads hmode hmsg hread), hreads]
  rfl

theorem turn_none {side : Duplex.Side}
    (hact : Duplex.act t.senderParty t.receiverParty s.link side = none) :
    t.timedStep openTime s (.turn side) = s := by
  simp [timedStep, nextLink, hact]

theorem step_busy (hbusy : t.busy openTime s = true) :
    t.timedStep openTime s .timeout = s ∧ ∀ d, t.timedStep openTime s (.pass d) = s := by
  simp [timedStep, hbusy]

theorem busy_right (hact : Duplex.act t.senderParty t.receiverParty s.link .right = some link) :
    t.busy openTime s = true := by
  simp [busy, hact]

theorem busy_left (hact : Duplex.act t.senderParty t.receiverParty s.link .left = some link)
    (hopen : s.link.left.opening = false ∨ openTime ≤ s.now) : t.busy openTime s = true := by
  rcases hopen with h | h <;> simp [busy, hact, h]

/-! ## What the two programs do -/

variable {ctx : PeerRunContext} {p : Peer}

/-- The task of `run_peer` in a phase. -/
def peerIn (ctx : PeerRunContext) (p : Peer) (phase : PeerPhase) : TransferReceiver :=
  .runPeer ctx { p with phase }

variable (t) in
/-- The sender is opening its file. -/
def Opening (s : Sender) : Prop := s = .start ∨ ∃ pos, pos ≤ t.size ∧ s = t.hashing pos

section

variable (h : t.Dials ctx p)

include h

theorem Dials.carried (msg : LanMessage)
    (hmsg : msg ∈ [t.senderHello, t.receiver.hello, .ping, .fileOffer t.offer]) :
    Carried t.key t.nonceS msg ∧ Carried t.key t.nonceR msg := by
  have hfits : Fits msg := by
    have hread := h.fits
    simp only [List.mem_cons, List.not_mem_nil, or_false] at hmsg
    rcases hmsg with rfl | rfl | rfl | rfl
    · exact hread.1
    · exact hread.2.1
    · decide
    · exact hread.2.2
  exact ⟨carried_of_fits h.seals (h.nonceS msg) hfits (h.readsBack msg hmsg),
    carried_of_fits h.seals (h.nonceR msg) hfits (h.readsBack msg hmsg)⟩

theorem Dials.deviceId : t.receiver.deviceId = ctx.selfDeviceId := by
  rw [h.receiver]
  rfl

/-- The sender opens and hashes its file, and then says Hello. -/
theorem work_opening {s : Sender} (hs : t.Opening s) :
    s.opening = true ∧ s.mode = .works ∧
      ((∃ s', t.Opening s' ∧ s.work t.req (t.sendEnv s) t.src = (s', [])) ∨
        s.work t.req (t.sendEnv s) t.src = (.hello (t.out 0), [t.senderHello])) := by
  have hhello := wireSend_carried (h.carried t.senderHello (by simp)).1
  rcases hs with rfl | ⟨pos, hpos, rfl⟩
  · exact ⟨rfl, rfl, .inl ⟨_, .inr ⟨0, Nat.zero_le _, rfl⟩, work_start h.isFile h.named h.maxSend⟩⟩
  · refine ⟨rfl, rfl, ?_⟩
    rcases work_hashing hhello hpos with ⟨pos', -, hle, hwork⟩ | hwork
    · exact .inl ⟨_, .inr ⟨pos', hle, rfl⟩, hwork⟩
    · exact .inr hwork

theorem work_peer : (peerIn ctx p .start).work t.receiveEnv =
    (peerIn ctx p .hello, [t.receiver.hello]) := by
  have hsend := wireSend_carried (h.carried t.receiver.hello (by simp)).2
  have hhello : t.receiver.hello = .hello ctx.selfDeviceId protoVersion ctx.selfDeviceName := by
    rw [h.receiver]
    rfl
  rw [hhello] at hsend ⊢
  simp [peerIn, TransferReceiver.work, Peer.start, Peer.write, receiveEnv, hsend]

theorem onRead_senderHello : (peerIn ctx p .hello).onRead t.receiveEnv (.ok (some t.senderHello)) =
    (peerIn ctx p (.classify t.req.sourceDeviceId), [.ping]) := by
  have hsend := wireSend_carried (h.carried .ping (by simp)).2
  obtain ⟨hexpected, hself⟩ := h.receiver ▸ h.admits
  simp only [peerIn, TransferReceiver.onRead, Peer.onRead, senderHello, Peer.onHello, hexpected,
    Bool.false_eq_true, if_false, if_neg hself, Peer.write, receiveEnv, hsend]

omit [LanJson] h in
theorem onRead_offer (offer : FileOffer) :
    ((peerIn ctx p (.classify t.req.sourceDeviceId)).onRead t.receiveEnv
      (.ok (some (.fileOffer offer)))).1.past = true := by
  simp only [peerIn, TransferReceiver.onRead, Peer.onRead, Peer.onClassify, receiveEnv, if_true]
  exact TransferReceiver.past_absorb ..

end

/-! ## The stages of a handshake -/

variable (t openTime ctx p) in
/-- A handshake in its order: time passes while the file is opened and when all is done. -/
inductive Stage : TimedLink → Prop
  | starts {s : Sender} (hs : t.Opening s) :
      Stage ⟨t.link s (peerIn ctx p .start) [] [], 0, 0, [], false⟩
  | opens {s : Sender} {now : Nat} (hs : t.Opening s) (hnow : now ≤ openTime) :
      Stage ⟨t.link s (peerIn ctx p .hello) [] [t.receiver.hello], now, 0, [], false⟩
  /-- The file was opened before the receiver's task has run. -/
  | early (hnow : openTime = 0) :
      Stage ⟨t.link (.hello (t.out 0)) (peerIn ctx p .start) [t.senderHello] [], 0, 0, [], false⟩
  | greets : Stage ⟨t.link (.hello (t.out 0)) (peerIn ctx p .hello) [t.senderHello]
      [t.receiver.hello], openTime, 0, [], false⟩
  | classifies : Stage ⟨t.link (.hello (t.out 0)) (peerIn ctx p (.classify t.req.sourceDeviceId)) []
      [t.receiver.hello, .ping], openTime, openTime, [(openTime, .ok (some t.senderHello))], false⟩
  | offers : Stage ⟨t.link (.offered (t.out 0)) (peerIn ctx p .hello)
      [t.senderHello, .fileOffer t.offer] [], openTime, 0, [], false⟩
  | takes {toSender : List LanMessage} (hping : toSender = [.ping] ∨ toSender = []) :
      Stage ⟨t.link (.offered (t.out 0)) (peerIn ctx p (.classify t.req.sourceDeviceId))
        [.fileOffer t.offer] toSender, openTime, openTime,
        [(openTime, .ok (some t.senderHello))], false⟩
  | done {s : TimedLink} (hpast : s.link.right.past = true) (htimed : s.timedOut = false)
      (hreads : ∃ rest, s.reads = (openTime, .ok (some t.senderHello)) ::
        (openTime, .ok (some (.fileOffer t.offer))) :: rest) : Stage s

/-- The receiver goes on from there. -/
theorem past_act {s link : Duplex.Link Sender TransferReceiver UInt8} (hpast : s.right.past = true)
    (hact : Duplex.act t.senderParty t.receiverParty s .right = some link) :
    link.right.past = true := by
  obtain ⟨r, hr, -, rfl⟩ := Duplex.act_right hact
  have hmode := TransferReceiver.mode_of_past hpast
  cases hcase : s.right.mode with
  | works => exact absurd hcase hmode
  | ended => simp [receiverParty, frameParty, hcase] at hr
  | waits =>
      simp only [receiverParty, frameParty, hcase, Option.map_eq_some_iff] at hr
      obtain ⟨read, -, rfl⟩ := hr
      exact TransferReceiver.past_onRead _ hpast _

/-- Once the offer is taken, nothing is read under a timeout any more. -/
theorem stage_done {s : TimedLink} (hpast : s.link.right.past = true) (htimed : s.timedOut = false)
    (hreads : ∃ rest, s.reads = (openTime, .ok (some t.senderHello)) ::
      (openTime, .ok (some (.fileOffer t.offer))) :: rest) (e : TimedEvent) :
    Stage t openTime ctx p (t.timedStep openTime s e) := by
  have hs : Stage t openTime ctx p s := .done hpast htimed hreads
  cases e with
  | turn side =>
      cases hact : Duplex.act t.senderParty t.receiverParty s.link side with
      | none => rwa [turn_none hact]
      | some link =>
          cases side with
          | left =>
              obtain ⟨r, -, -, rfl⟩ := Duplex.act_left hact
              cases hnext : t.nextLink openTime s .left with
              | none => simpa [timedStep, hnext] using hs
              | some link' =>
                  obtain ⟨hact', -⟩ := Option.filter_eq_some_iff.1 hnext
                  rw [hact, Option.some.injEq] at hact'
                  simp only [timedStep, hnext]
                  exact .done (hact' ▸ hpast) htimed hreads
          | right =>
              rw [turn_right hact]
              obtain ⟨rest, hrest⟩ := hreads
              exact .done (past_act hpast hact) htimed ⟨rest ++ _, by rw [hrest]; rfl⟩
  | timeout =>
      have hnot : t.timedStep openTime s .timeout = s := by
        simp [timedStep, TransferReceiver.timed_of_past hpast]
      rwa [hnot]
  | pass millis =>
      simp only [timedStep]
      split
      · exact .done hpast htimed hreads
      · exact hs

section

variable (h : t.Dials ctx p)

include h

omit h in
/-- Where something is to be done, only the two turns count. -/
theorem stage_of_turns {s : TimedLink} (hs : Stage t openTime ctx p s)
    (hbusy : t.busy openTime s = true)
    (hleft : Stage t openTime ctx p (t.timedStep openTime s (.turn .left)))
    (hright : Stage t openTime ctx p (t.timedStep openTime s (.turn .right))) (e : TimedEvent) :
    Stage t openTime ctx p (t.timedStep openTime s e) := by
  obtain ⟨htimeout, hpass⟩ := step_busy hbusy
  cases e with
  | turn side =>
      cases side with
      | left => exact hleft
      | right => exact hright
  | timeout => rwa [htimeout]
  | pass millis => rwa [hpass]

/-- The receiver is to say Hello; the sender may be opening its file. -/
theorem stage_starts {s : Sender} (hs : t.Opening s) (e : TimedEvent) :
    Stage t openTime ctx p (t.timedStep openTime
      ⟨t.link s (peerIn ctx p .start) [] [], 0, 0, [], false⟩ e) := by
  have hright : Duplex.act t.senderParty t.receiverParty (t.link s (peerIn ctx p .start) [] [])
      .right = some (t.link s (peerIn ctx p .hello) [] [t.receiver.hello]) :=
    act_receiver_works rfl (work_peer h)
  refine stage_of_turns (.starts hs) (busy_right hright) ?_ ?_ e
  · obtain ⟨hopening, hmode, ⟨s', hs', hwork⟩ | hwork⟩ := work_opening h hs
    · rw [turn_left (act_sender_works hmode hwork) (.inl (work_opening h hs').1)]
      exact .starts hs'
    · by_cases hnow : openTime = 0
      · rw [turn_left (act_sender_works hmode hwork) (.inr (.inl hnow.le))]
        exact .early hnow
      · rw [turn_left_early (act_sender_works hmode hwork) hopening rfl (Nat.pos_of_ne_zero hnow)]
        exact .starts hs
  · rw [turn_right hright]
    exact .opens hs (Nat.zero_le _)

/-- Time passes until the file is open, which is before the timeout. -/
theorem stage_opens (hlimit : openTime ≤ readTimeout) {s : Sender} {now : Nat} (hs : t.Opening s)
    (hnow : now ≤ openTime) (e : TimedEvent) :
    Stage t openTime ctx p (t.timedStep openTime
      ⟨t.link s (peerIn ctx p .hello) [] [t.receiver.hello], now, 0, [], false⟩ e) := by
  obtain ⟨hopening, hmode, hwork⟩ := work_opening h hs
  obtain ⟨link, hact⟩ : ∃ link, Duplex.act t.senderParty t.receiverParty
      (t.link s (peerIn ctx p .hello) [] [t.receiver.hello]) .left = some link := by
    rcases hwork with ⟨s', -, hwork⟩ | hwork <;> exact ⟨_, act_sender_works hmode hwork⟩
  have hstage : Stage t openTime ctx p
      ⟨t.link s (peerIn ctx p .hello) [] [t.receiver.hello], now, 0, [], false⟩ := .opens hs hnow
  cases e with
  | turn side =>
      cases side with
      | left =>
          rcases hwork with ⟨s', hs', hwork⟩ | hwork
          · rw [turn_left (act_sender_works hmode hwork) (.inl (work_opening h hs').1)]
            exact .opens hs' hnow
          · by_cases hopen : openTime ≤ now
            · obtain rfl := Nat.le_antisymm hnow hopen
              rw [turn_left (act_sender_works hmode hwork) (.inr (.inl hopen))]
              exact .greets
            · rwa [turn_left_early (act_sender_works hmode hwork) hopening rfl
                (Nat.lt_of_not_le hopen)]
      | right =>
          have hnone : Duplex.act t.senderParty t.receiverParty
              (t.link s (peerIn ctx p .hello) [] [t.receiver.hello]) .right = none :=
            right_waits rfl (by rw [hmode]; exact nofun)
          rwa [turn_none hnone]
  | timeout =>
      simp only [timedStep]
      split
      · rename_i hfires
        -- The time is over, so that the sender is to say Hello.
        simp only [Bool.and_eq_true, decide_eq_true_eq, Nat.zero_add] at hfires
        rw [busy_left hact (.inr (Nat.le_trans hlimit hfires.2))] at hfires
        exact absurd hfires.1.1 Bool.false_ne_true
      · exact hstage
  | pass millis =>
      simp only [timedStep]
      split
      · rename_i hpasses
        have hleft : (t.link s (peerIn ctx p .hello) [] [t.receiver.hello]).left.opening = true :=
          hopening
        simp only [hleft, Bool.not_true, Bool.false_or, Bool.and_eq_true, decide_eq_true_eq]
          at hpasses
        exact .opens hs hpasses.1.2
      · exact hstage

/-- The sender reads the receiver's Hello and makes its offer. -/
theorem act_offers (r : TransferReceiver) (toReceiver toSender : List LanMessage) :
    Duplex.act t.senderParty t.receiverParty
        (t.link (.hello (t.out 0)) r toReceiver (t.receiver.hello :: toSender)) .left =
      some (t.link (.offered (t.out 0)) r (toReceiver ++ [.fileOffer t.offer]) toSender) :=
  act_sender_reads rfl (h.carried t.receiver.hello (by simp)).2 <|
    onRead_receiverHello (h.target.trans h.deviceId.symm)
      (wireSend_carried (h.carried (.fileOffer t.offer) (by simp)).1)

theorem stage_early (hnow : openTime = 0) (e : TimedEvent) :
    Stage t openTime ctx p (t.timedStep openTime
      ⟨t.link (.hello (t.out 0)) (peerIn ctx p .start) [t.senderHello] [], 0, 0, [], false⟩ e) := by
  subst hnow
  have hleft : Duplex.act t.senderParty t.receiverParty
      (t.link (.hello (t.out 0)) (peerIn ctx p .start) [t.senderHello] []) .left = none :=
    left_waits rfl nofun
  have hright : Duplex.act t.senderParty t.receiverParty
      (t.link (.hello (t.out 0)) (peerIn ctx p .start) [t.senderHello] []) .right =
        some (t.link (.hello (t.out 0)) (peerIn ctx p .hello) [t.senderHello]
          [t.receiver.hello]) := act_receiver_works rfl (work_peer h)
  refine stage_of_turns (.early rfl) (busy_right hright) ?_ ?_ e
  · rw [turn_none hleft]
    exact .early rfl
  · rw [turn_right hright]
    exact .greets

/-- Both Hellos are on their way. -/
theorem stage_greets (e : TimedEvent) :
    Stage t openTime ctx p (t.timedStep openTime
      ⟨t.link (.hello (t.out 0)) (peerIn ctx p .hello) [t.senderHello] [t.receiver.hello],
        openTime, 0, [], false⟩ e) := by
  have hleft := act_offers h (peerIn ctx p .hello) [t.senderHello] []
  refine stage_of_turns .greets (busy_left hleft (.inl rfl)) ?_ ?_ e
  · rw [turn_left hleft (.inr (.inr rfl))]
    exact .offers
  · rw [turn_receiver_reads rfl (h.carried t.senderHello (by simp)).1 (onRead_senderHello h)]
    exact .classifies

/-- The receiver was the first to read. -/
theorem stage_classifies (e : TimedEvent) :
    Stage t openTime ctx p (t.timedStep openTime
      ⟨t.link (.hello (t.out 0)) (peerIn ctx p (.classify t.req.sourceDeviceId)) []
        [t.receiver.hello, .ping], openTime, openTime, [(openTime, .ok (some t.senderHello))],
        false⟩ e) := by
  have hleft := act_offers h (peerIn ctx p (.classify t.req.sourceDeviceId)) [] [.ping]
  have hright : Duplex.act t.senderParty t.receiverParty (t.link (.hello (t.out 0))
      (peerIn ctx p (.classify t.req.sourceDeviceId)) [] [t.receiver.hello, .ping]) .right =
        none := right_waits rfl nofun
  refine stage_of_turns .classifies (busy_left hleft (.inl rfl)) ?_ ?_ e
  · rw [turn_left hleft (.inr (.inr rfl))]
    exact .takes (.inl rfl)
  · rw [turn_none hright]
    exact .classifies

/-- The sender was the first to read. -/
theorem stage_offers (e : TimedEvent) :
    Stage t openTime ctx p (t.timedStep openTime
      ⟨t.link (.offered (t.out 0)) (peerIn ctx p .hello) [t.senderHello, .fileOffer t.offer] [],
        openTime, 0, [], false⟩ e) := by
  have hhello := (h.carried t.senderHello (by simp)).1
  have hleft : Duplex.act t.senderParty t.receiverParty (t.link (.offered (t.out 0))
      (peerIn ctx p .hello) [t.senderHello, .fileOffer t.offer] []) .left = none :=
    left_waits rfl nofun
  have hright : Duplex.act t.senderParty t.receiverParty (t.link (.offered (t.out 0))
      (peerIn ctx p .hello) [t.senderHello, .fileOffer t.offer] []) .right =
        some (t.link (.offered (t.out 0)) (peerIn ctx p (.classify t.req.sourceDeviceId))
          [.fileOffer t.offer] [.ping]) :=
    act_receiver_reads rfl hhello (onRead_senderHello h)
  refine stage_of_turns .offers (busy_right hright) ?_ ?_ e
  · rw [turn_none hleft]
    exact .offers
  · rw [turn_receiver_reads rfl hhello (onRead_senderHello h)]
    exact .takes (.inl rfl)

/-- The offer is there; the sender may have read the Ping. -/
theorem stage_takes {toSender : List LanMessage} (hping : toSender = [.ping] ∨ toSender = [])
    (e : TimedEvent) : Stage t openTime ctx p (t.timedStep openTime
      ⟨t.link (.offered (t.out 0)) (peerIn ctx p (.classify t.req.sourceDeviceId))
        [.fileOffer t.offer] toSender, openTime, openTime,
        [(openTime, .ok (some t.senderHello))], false⟩ e) := by
  have hoffer := (h.carried (.fileOffer t.offer) (by simp)).1
  have hbusy : t.busy openTime ⟨t.link (.offered (t.out 0))
      (peerIn ctx p (.classify t.req.sourceDeviceId)) [.fileOffer t.offer] toSender,
        openTime, openTime, [(openTime, .ok (some t.senderHello))], false⟩ = true :=
    busy_right (act_receiver_reads rfl hoffer rfl)
  refine stage_of_turns (.takes hping) hbusy ?_ ?_ e
  · rcases hping with rfl | rfl
    · have hleft : Duplex.act t.senderParty t.receiverParty (t.link (.offered (t.out 0))
          (peerIn ctx p (.classify t.req.sourceDeviceId)) [.fileOffer t.offer] [.ping]) .left =
            some (t.link (.offered (t.out 0)) (peerIn ctx p (.classify t.req.sourceDeviceId))
              [.fileOffer t.offer] []) := act_sender_reads rfl (h.carried .ping (by simp)).2 rfl
      rw [turn_left hleft (.inr (.inr rfl))]
      exact .takes (.inr rfl)
    · have hleft : Duplex.act t.senderParty t.receiverParty (t.link (.offered (t.out 0))
          (peerIn ctx p (.classify t.req.sourceDeviceId)) [.fileOffer t.offer] []) .left =
            none := left_waits rfl nofun
      rw [turn_none hleft]
      exact .takes (.inr rfl)
  · rw [turn_receiver_reads rfl hoffer rfl]
    exact .done (onRead_offer t.offer) rfl ⟨[], rfl⟩

theorem stage_step (hlimit : openTime ≤ readTimeout) {s : TimedLink}
    (hs : Stage t openTime ctx p s) (e : TimedEvent) :
    Stage t openTime ctx p (t.timedStep openTime s e) := by
  cases hs with
  | starts hs => exact stage_starts h hs e
  | opens hs hnow => exact stage_opens h hlimit hs hnow e
  | early hnow => exact stage_early h hnow e
  | greets => exact stage_greets h e
  | classifies => exact stage_classifies h e
  | offers => exact stage_offers h e
  | takes hping => exact stage_takes h hping e
  | done hpast htimed hreads => exact stage_done hpast htimed hreads e

theorem timedStart_eq : t.timedStart =
    ⟨t.link .start (peerIn ctx p .start) [] [], 0, 0, [], false⟩ := by
  rw [timedStart, start, h.receiver]
  rfl

theorem stage_timedRun (hlimit : openTime ≤ readTimeout) (es : List TimedEvent) :
    Stage t openTime ctx p (t.timedRun openTime es) := by
  refine Machine.invariant_run (I := Stage t openTime ctx p)
    (fun _ e hs => stage_step h hlimit hs e) ?_ es
  rw [timedStart_eq h]
  exact .starts (.inl rfl)

omit [LanJson] h in
theorem Stage.inTime (hlimit : openTime ≤ readTimeout) {s : TimedLink}
    (hs : Stage t openTime ctx p s) : t.InTime openTime s := by
  cases hs with
  | done hpast htimed hreads =>
      obtain ⟨rest, hrest⟩ := hreads
      exact ⟨htimed, fun _ => ⟨_, _, rest, hrest, hlimit, Nat.le_add_right _ _⟩⟩
  | starts | early => exact ⟨rfl, fun hlate => absurd hlate (Nat.not_lt_zero _)⟩
  | opens hs hnow => exact ⟨rfl, fun hlate => absurd hlate (Nat.not_lt.2 hnow)⟩
  | greets | classifies | offers | takes => exact ⟨rfl, fun hlate => absurd hlate (Nat.lt_irrefl _)⟩

/-- The receiver says Hello, waits for five seconds, and gives up. -/
theorem timedOut_of_lt (hlong : readTimeout < openTime) :
    (t.timedRun openTime [.turn .right, .pass readTimeout, .timeout]).timedOut = true := by
  have hturn : t.timedStep openTime t.timedStart (.turn .right) =
      ⟨t.link .start (peerIn ctx p .hello) [] [t.receiver.hello], 0, 0, [], false⟩ := by
    rw [timedStart_eq h, turn_right (act_receiver_works rfl (work_peer h))]
    rfl
  have hbusy : ∀ now < openTime, t.busy openTime
      ⟨t.link .start (peerIn ctx p .hello) [] [t.receiver.hello], now, 0, [], false⟩ = false := by
    intro now hnow
    have hright : Duplex.act t.senderParty t.receiverParty
        (t.link .start (peerIn ctx p .hello) [] [t.receiver.hello]) .right = none :=
      right_waits rfl nofun
    have hleft : (t.link .start (peerIn ctx p .hello) [] [t.receiver.hello]).left.opening = true :=
      rfl
    simp [busy, hright, hleft, hnow]
  have hpass : t.timedStep openTime
      ⟨t.link .start (peerIn ctx p .hello) [] [t.receiver.hello], 0, 0, [], false⟩
        (.pass readTimeout) =
      ⟨t.link .start (peerIn ctx p .hello) [] [t.receiver.hello], readTimeout, 0, [], false⟩ := by
    simp [timedStep, hbusy 0 (Nat.zero_lt_of_lt hlong), Nat.le_of_lt hlong]
  show (t.timedStep openTime (t.timedStep openTime (t.timedStep openTime t.timedStart
    (.turn .right)) (.pass readTimeout)) .timeout).timedOut = true
  have htimed : (t.link .start (peerIn ctx p .hello) [] [t.receiver.hello]).right.timed = true :=
    rfl
  rw [hturn, hpass]
  simp [timedStep, hbusy readTimeout hlong, htimed]

/-- **The Hello and the offer are in time in every run exactly if opening and hashing the file takes
five seconds at most.** -/
theorem inTime_iff : (∀ es, t.InTime openTime (t.timedRun openTime es)) ↔
    openTime ≤ readTimeout := by
  constructor
  · intro hall
    by_contra hlong
    have hout := timedOut_of_lt h (Nat.lt_of_not_le hlong)
    rw [(hall _).1] at hout
    cases hout
  · exact fun hlimit es => (stage_timedRun h hlimit es).inTime hlimit

end

end

section

local instance : Sha256 := abcSha256

local instance : Aead := tagAead

local instance : LanJson :=
  tableJson ((abc abcPeer).frames ++ (List.range 3).map (abc abcPeer).chunkFrame)

theorem dials_abc : (abc abcPeer).Dials ⟨"phone", "Phone", none⟩
    { phase := .start, dir := .empty } := by
  have healthy := healthy_abc (.inl rfl)
  exact {
    seals := healthy.seals
    nonceS := healthy.nonceS
    nonceR := healthy.nonceR
    isFile := healthy.isFile
    named := healthy.named
    maxSend := healthy.maxSend
    receiver := rfl
    target := rfl
    admits := healthy.admits
    fits := healthy.fits
    readsBack := by
      intro msg hmsg
      refine healthy.readsBack msg ?_
      simp only [List.mem_cons, List.not_mem_nil, or_false] at hmsg
      rcases hmsg with rfl | rfl | rfl | rfl <;> simp [frames] }

/-- The receiver waits while the file is opened and hashed, and time goes on when all is sent. -/
def abcEvents : List TimedEvent :=
  [.turn .right, .turn .left, .turn .left, .turn .left, .pass 3, .turn .left, .turn .right,
    .turn .left, .turn .right, .turn .left, .turn .left, .turn .left, .turn .right, .turn .left,
    .turn .right, .turn .left, .turn .right, .pass 2]

theorem abc_inTime : (abc abcPeer).InTime 3 ((abc abcPeer).timedRun 3 abcEvents) :=
  (inTime_iff dials_abc).2 (by decide) abcEvents

/-- Opening and hashing the file takes six seconds. -/
theorem abc_timedOut : ¬ ∀ openTime es,
    (abc abcPeer).InTime openTime ((abc abcPeer).timedRun openTime es) := by
  intro hall
  have hout := timedOut_of_lt dials_abc (show readTimeout < 6000 by decide)
  rw [(hall 6000 _).1] at hout
  cases hout

end

end Transfer

end ClipBridge
