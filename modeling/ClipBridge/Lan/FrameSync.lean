import ClipBridge.Lan.RunPeer
import ClipBridge.Lib.Machine

/-!
# Whether a session stays in step with its peer's frames

The bytes of the peer arrive in pieces, and `read_frame` holds what it has of a frame in its own
variables. In the `select!` loop of `run_peer`, and under the timeout before it, another branch
may win: then the call is dropped and the next turn starts a new one.

* `RunPeer.step` — the session on its byte stream. A read takes any number of the bytes asked for.
* `RunPeer.InSync` — what was decoded is what the peer wrote, up to where the reader stands.
* `RunPeer.Interrupts` — another branch wins and the session goes on.
* `inSync_iff` — a session stays in step exactly if it is only interrupted between two frames.
-/

namespace ClipBridge

/-- A session, what is on the way from the peer, and what went to the peer. -/
structure RunPeer (key : Key) [Aead] [LanJson] where
  peer : Peer
  reader : Framing.Reader UInt8 (WireFrame key) LanMessage
  closed : Bool
  sent : List LanMessage

namespace RunPeer

variable {key : Key} [Aead] [LanJson]

/-- Nothing was read or written yet. -/
def init (key : Key) (dir : Dir) : RunPeer key where
  peer := { phase := .start, dir }
  reader := .start
  closed := false
  sent := []

inductive Event (key : Key) where
  | start (env : PeerEnv)
  | peerWrites (f : WireFrame key)
  | peerCloses
  /-- `read_frame` gets up to `n` bytes. -/
  | read (env : PeerEnv) (n : Nat)
  /-- The stream has ended. -/
  | eof (env : PeerEnv)
  | readError (env : PeerEnv) (e : IoError)
  | helloTimeout
  | classifyTimeout (env : PeerEnv)
  | idle
  | ping (env : PeerEnv)
  | modeNotify (env : PeerEnv)
  | outgoing (env : PeerEnv) (out : OutRecv)

/-- The task waits for a frame. -/
def reads (s : RunPeer key) : Bool :=
  match s.peer.phase with
  | .start | .ended _ => false
  | _ => true

def took (s : RunPeer key) (r : Peer × List LanMessage) : RunPeer key :=
  { s with peer := r.1, sent := s.sent ++ r.2 }

/-- The call of `read_frame` is dropped. -/
def dropRead (s : RunPeer key) : RunPeer key := { s with reader := s.reader.interrupt }

variable [Sha256] (ctx : PeerRunContext)

def step (s : RunPeer key) : Event key → RunPeer key
  | .start env =>
      match s.peer.phase with
      | .start => s.took (s.peer.start ctx env)
      | _ => s
  | .peerWrites f => if s.closed then s else { s with reader := s.reader.write (framing key) f }
  | .peerCloses => { s with closed := true }
  | .read env n =>
      if s.reads then
        match s.reader.read (framing key) n with
        | (some res, reader) =>
            ({ s with reader } : RunPeer key).took (s.peer.onRead ctx env (res.map some))
        | (none, reader) => { s with reader }
      else s
  | .eof env =>
      if s.reads ∧ s.closed ∧ s.reader.stream = [] then
        let read := if s.reader.got.length < 4 then .ok none else .error (.io "early eof")
        s.dropRead.took (s.peer.onRead ctx env read)
      else s
  | .readError env e =>
      if s.reads then s.dropRead.took (s.peer.onRead ctx env (.error (.io e))) else s
  | .helloTimeout =>
      match s.peer.phase with
      | .hello => s.dropRead.took (s.peer.onHelloTimeout, [])
      | _ => s
  | .classifyTimeout env =>
      match s.peer.phase with
      | .classify peerDid => s.dropRead.took (s.peer.onClassifyTimeout env peerDid, [])
      | _ => s
  | .idle =>
      match s.peer.phase with
      | .session _ => s.dropRead.took (s.peer.onIdle, [])
      | _ => s
  | .ping env =>
      match s.peer.phase with
      | .session _ => if env.lanActive then s.dropRead.took (s.peer.onPing env) else s
      | _ => s
  | .modeNotify env =>
      match s.peer.phase with
      | .session _ => s.dropRead.took (s.peer.onModeNotify env, [])
      | _ => s
  | .outgoing env out =>
      match s.peer.phase with
      | .session peerDid =>
          if env.lanActive then s.dropRead.took (s.peer.onOutgoing env peerDid out) else s
      | _ => s

/-! ## In step, and its condition -/

/-- While the session lasts, what the peer wrote is what was decoded, then the frame the reader is
in, then what is on the way; what was decoded is a prefix of what was written to its end. -/
def InSync (s : RunPeer key) : Prop :=
  if s.peer.hasEnded then s.reader.decoded <+: s.reader.written.map WireFrame.msg
  else s.reader.Intact (framing key)

/-- Another branch wins the turn, and the session goes on: a ping goes out, the mode is still
active, an outgoing clip is written or skipped, or the peer is taken for a control peer because no
frame came in time. -/
def Interrupts (s : RunPeer key) : Event key → Prop
  | .classifyTimeout env => (∃ peerDid, s.peer.phase = .classify peerDid) ∧ env.lanActive
  | .ping env => (∃ peerDid, s.peer.phase = .session peerDid) ∧ env.lanActive ∧
      env.send .ping = none
  | .modeNotify env => (∃ peerDid, s.peer.phase = .session peerDid) ∧ env.lanActive
  | .outgoing env out => ∃ peerDid, s.peer.phase = .session peerDid ∧ env.lanActive ∧
      match out with
      | .clip out => out.senderDeviceId = peerDid ∨
          env.send (.clip out.senderDeviceId out.ts out.payload) = none
      | .lagged => True
      | .closed => False
  | _ => False

section

omit [Sha256]

variable {s : RunPeer key}

theorem inSync_of_intact (h : s.reader.Intact (framing key)) : InSync s := by
  unfold InSync
  split
  · exact h.decoded_isPrefix
  · exact h

theorem InSync.intact (h : InSync s) (hover : s.peer.hasEnded = false) :
    s.reader.Intact (framing key) := by
  rwa [InSync, if_neg (by simp [hover])] at h

/-- A dropped call costs nothing where the session has ended, or the reader held nothing. -/
theorem inSync_dropRead (h : InSync s) (hover : s.peer.hasEnded = false)
    (r : Peer × List LanMessage) :
    InSync (s.dropRead.took r) ↔ (r.1.hasEnded = false → s.reader.got = []) := by
  have hintact := h.intact hover
  cases hr : r.1.hasEnded with
  | true =>
      have hin : InSync (s.dropRead.took r) := by
        rw [InSync, if_pos (by exact hr)]
        exact hintact.decoded_isPrefix
      simp [hin]
  | false =>
      have hiff := Framing.Reader.intact_interrupt_iff hintact
      rw [InSync, if_neg (by simp [took, hr])]
      exact ⟨fun h _ => hiff.1 h, fun h => hiff.2 (h rfl)⟩

theorem hasEnded_of_phase {phase : PeerPhase} (h : s.peer.phase = phase)
    (hphase : ∀ result, phase ≠ .ended result) : s.peer.hasEnded = false := by
  unfold Peer.hasEnded
  rw [h]
  cases phase with
  | ended result => exact absurd rfl (hphase result)
  | _ => rfl

theorem hasEnded_of_reads (h : s.reads = true) :
    s.peer.hasEnded = false ∧ s.peer.phase ≠ .start := by
  unfold reads at h
  unfold Peer.hasEnded
  split at h
  · simp at h
  · simp at h
  · rename_i hstart hover
    refine ⟨?_, hstart⟩
    split
    · rename_i result hphase
      exact absurd hphase (hover result)
    · rfl

end

variable {ctx} {s : RunPeer key}

/-- The stream has ended or failed, and so does the task. -/
theorem inSync_end (h : InSync s) (hreads : s.reads = true) (env : PeerEnv) {read : Read}
    (hread : ∀ msg, read ≠ .ok (some msg)) :
    InSync (s.dropRead.took (s.peer.onRead ctx env read)) := by
  obtain ⟨hover, hstart⟩ := hasEnded_of_reads hreads
  rw [inSync_dropRead h hover, Peer.hasEnded_onRead hstart hread]
  simp

/-- A piece of the stream, whatever its size. -/
theorem inSync_read (h : InSync s) (env : PeerEnv) (n : Nat) :
    InSync (step ctx s (.read env n)) := by
  simp only [step]
  split
  · rename_i hreads
    have hintact := Framing.Reader.intact_read (h.intact (hasEnded_of_reads hreads).1) n
    split
    · rename_i res reader hr
      rw [hr] at hintact
      exact inSync_of_intact hintact
    · rename_i reader hr
      rw [hr] at hintact
      exact inSync_of_intact hintact
  · exact h

theorem inSync_write (h : InSync s) (f : WireFrame key) :
    InSync (step ctx s (.peerWrites f)) := by
  simp only [step]
  split
  · exact h
  · unfold InSync at h ⊢
    split at h
    · rename_i hover
      rw [if_pos hover]
      rw [Framing.Reader.write, List.map_append]
      exact h.trans (List.prefix_append ..)
    · rename_i hover
      rw [if_neg hover]
      exact Framing.Reader.intact_write h f

/-- **A step keeps the session in step exactly if it does not interrupt a frame.** -/
theorem inSync_step (ctx : PeerRunContext) (s : RunPeer key) (e : Event key) (h : InSync s) :
    InSync (step ctx s e) ↔ (Interrupts s e → s.reader.got = []) := by
  cases e with
  | start env =>
      simp only [step, Interrupts, false_implies, iff_true]
      split
      · rename_i hphase
        exact inSync_of_intact (h.intact (hasEnded_of_phase hphase (by simp)))
      · exact h
  | peerWrites f => simp only [Interrupts, false_implies, iff_true]; exact inSync_write h f
  | peerCloses => simp only [Interrupts, false_implies, iff_true]; exact h
  | read env n => simp only [Interrupts, false_implies, iff_true]; exact inSync_read h env n
  | eof env =>
      simp only [step, Interrupts, false_implies, iff_true]
      split
      · rename_i hend
        exact inSync_end h hend.1 env (by intro msg; split <;> simp)
      · exact h
  | readError env e =>
      simp only [step, Interrupts, false_implies, iff_true]
      split
      · rename_i hreads
        exact inSync_end h hreads env (by simp)
      · exact h
  | helloTimeout =>
      simp only [step, Interrupts, false_implies, iff_true]
      split
      · rename_i hphase
        rw [inSync_dropRead h (hasEnded_of_phase hphase (by simp))]
        simp [Peer.onHelloTimeout]
      · exact h
  | classifyTimeout env =>
      simp only [step, Interrupts]
      split
      · rename_i peerDid hphase
        rw [inSync_dropRead h (hasEnded_of_phase hphase (by simp)), Peer.onClassifyTimeout,
          Peer.hasEnded_enterSession]
        simp [hphase]
      · rename_i hphase
        exact iff_of_true h fun hi => hi.1.elim fun d hd => absurd hd (hphase d)
  | idle =>
      simp only [step, Interrupts, false_implies, iff_true]
      split
      · rename_i hphase
        rw [inSync_dropRead h (hasEnded_of_phase hphase (by simp))]
        simp [Peer.onIdle]
      · exact h
  | ping env =>
      simp only [step, Interrupts]
      split
      · rename_i peerDid hphase
        have hover := hasEnded_of_phase hphase (by simp)
        split
        · rename_i hactive
          rw [inSync_dropRead h hover, Peer.onPing, Peer.hasEnded_write hover]
          simp [hphase, hactive]
        · rename_i hactive
          exact iff_of_true h fun hi => absurd hi.2.1 hactive
      · rename_i hphase
        exact iff_of_true h fun hi => hi.1.elim fun d hd => absurd hd (hphase d)
  | modeNotify env =>
      simp only [step, Interrupts]
      split
      · rename_i peerDid hphase
        have hover := hasEnded_of_phase hphase (by simp)
        rw [inSync_dropRead h hover]
        cases hactive : env.lanActive <;> simp [Peer.onModeNotify, hactive, hphase, hover]
      · rename_i hphase
        exact iff_of_true h fun hi => hi.1.elim fun d hd => absurd hd (hphase d)
  | outgoing env out =>
      simp only [step, Interrupts]
      split
      · rename_i peerDid hphase
        have hover := hasEnded_of_phase hphase (by simp)
        split
        · rename_i hactive
          rw [inSync_dropRead h hover]
          cases out with
          | clip out =>
              by_cases hown : out.senderDeviceId = peerDid
              · simp [Peer.onOutgoing, hown, hover, hphase, hactive]
              · rw [Peer.onOutgoing, if_neg hown, Peer.hasEnded_write hover]
                simp [hown, hphase, hactive]
          | lagged => simp [Peer.onOutgoing, hover, hphase, hactive]
          | closed => simp [Peer.onOutgoing]
        · rename_i hactive
          refine iff_of_true h ?_
          rintro ⟨-, -, hi, -⟩
          exact absurd hi hactive
      · rename_i hphase
        refine iff_of_true h ?_
        rintro ⟨d, hd, -⟩
        exact absurd hd (hphase d)

/-- **A session stays in step with its peer's frames exactly if no branch interrupts it while
`read_frame` holds part of a frame.** -/
theorem inSync_iff (ctx : PeerRunContext) (dir : Dir) (es : List (Event key)) :
    Machine.Along (step ctx) (fun s e => InSync (step ctx s e)) (init key dir) es ↔
      Machine.Along (step ctx) (fun s e => Interrupts s e → s.reader.got = []) (init key dir) es :=
  Machine.along_congr (fun s e hQ h => (inSync_step ctx s e h).2 hQ)
    (fun s e h => inSync_step ctx s e h) (inSync_of_intact (Framing.Reader.intact_start _))

/-- Where every step ended in step, the run does. -/
theorem inSync_run {ctx : PeerRunContext} {dir : Dir} {es : List (Event key)}
    (h : Machine.Along (step ctx) (fun s e => InSync (step ctx s e)) (init key dir) es) :
    InSync (Machine.run (step ctx) (init key dir) es) :=
  Machine.invariant_along (I := InSync) (fun _ _ hafter _ => hafter)
    (inSync_of_intact (Framing.Reader.intact_start _)) h

end RunPeer

/-! ## A ping inside a frame -/

namespace RunPeer

section

def phoneHello : LanMessage := .hello "phone" protoVersion "Phone"

local instance : Aead := tagAead
local instance : LanJson := tableJson [phoneHello, .ping]
local instance : Sha256 := abcSha256

/-- What `writeFrame` puts after the length. -/
def plainBody (msg : LanMessage) : Bytes :=
  List.replicate nonceLen 0 ++ msg.toVec ++ List.replicate 16 0

def phoneHelloFrame : WireFrame zeroKey := ⟨phoneHello, plainBody phoneHello, by decide, by decide⟩

def pingFrame : WireFrame zeroKey := ⟨.ping, plainBody .ping, by decide, by decide⟩

def pcContext : PeerRunContext := ⟨"pc", "PC", none⟩

/-- The session is up, and three of the four bytes of a length have been read. -/
def insideHeader : List (Event zeroKey) :=
  [.start {}, .peerWrites phoneHelloFrame, .read {} 4, .read {} 200, .peerWrites pingFrame,
    .read {} 4, .read {} 200, .peerWrites pingFrame, .read {} 3]

theorem pingInsideHeader_not_inSync :
    ¬ Machine.Along (step pcContext) (fun s e => InSync (step pcContext s e))
      (init zeroKey .empty) (insideHeader ++ [.ping {}]) := by
  have hphase : (Machine.run (step pcContext) (init zeroKey .empty) insideHeader).peer.phase =
      .session "phone" := by decide +kernel
  have hgot : (Machine.run (step pcContext) (init zeroKey .empty) insideHeader).reader.got =
      [0, 0, 0] := by decide +kernel
  generalize insideHeader = es at hphase hgot ⊢
  intro h
  obtain ⟨hbefore, hping⟩ := Machine.along_concat.1 h
  have hnone := (inSync_step pcContext _ (.ping {}) (inSync_run hbefore)).1 hping
    ⟨⟨_, hphase⟩, rfl, rfl⟩
  rw [hgot] at hnone
  simp at hnone

end

end RunPeer

end ClipBridge
