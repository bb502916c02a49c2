import ClipBridge.Lan.SendFile
import ClipBridge.Lib.Machine

/-!
# What the two ends of a transfer agree on

The sender and either receiver take turns in any order, and anything may fail: a write, a read of
the source, the link (a read then returns an error, or the end of the stream), the receiver's file
system. The source file may change between two turns. Frames arrive whole and in order.

* `Exchange`, `step` — the two programs, the frames on their way, and one turn.
* `Accepted` — the sender streams only what the receiver has accepted.
* `Sent`, `Followed` — what the sender has written, and what the receiver has made of it.
* `agree_run` — when the sender has returned `Ok`, the receiver had accepted that transfer; and it
  returns `Ok` itself, if the source does not change and nothing fails on its side.
-/

namespace ClipBridge

structure Exchange where
  sender : Sender := .start
  receiver : TransferReceiver
  toReceiver : List LanMessage := []
  toSender : List LanMessage := []
  /-- All that the sender has written. -/
  wrote : List LanMessage := []
  /-- All that the receiver has written. -/
  replied : List LanMessage := []

/-- How a link fails a read. -/
inductive ReadFault where
  | closed
  | failed (e : LanError)

def ReadFault.read : ReadFault → Read
  | closed => .ok none
  | failed e => .error e

/-- A turn of one side, with what it finds. -/
inductive ExchangeEvent where
  | sender (env : SendEnv) (src : SourceFile) (fault : Option ReadFault)
  | receiver (env : PeerEnv) (fault : Option ReadFault)

namespace Exchange

/-- What a read returns, and the frames that are left; `none` while it waits. -/
def nextRead : Option ReadFault → List LanMessage → Option (Read × List LanMessage)
  | some fault, inbox => some (fault.read, inbox)
  | none, msg :: inbox => some (.ok (some msg), inbox)
  | none, [] => none

def senderSteps (s : Exchange) (left : List LanMessage) (r : Sender × List LanMessage) : Exchange :=
  { s with
    sender := r.1
    toSender := left
    toReceiver := s.toReceiver ++ r.2
    wrote := s.wrote ++ r.2 }

def receiverSteps (s : Exchange) (left : List LanMessage) (r : TransferReceiver × List LanMessage) :
    Exchange :=
  { s with
    receiver := r.1
    toReceiver := left
    toSender := s.toSender ++ r.2
    replied := s.replied ++ r.2 }

variable [Sha256]

def step (req : SendFileRequest) (s : Exchange) : ExchangeEvent → Exchange
  | .sender env src fault =>
      match s.sender.mode with
      | .ended => s
      | .works => s.senderSteps s.toSender (s.sender.work req env src)
      | .waits =>
          match nextRead fault s.toSender with
          | none => s
          | some (read, left) => s.senderSteps left (s.sender.onRead req env read)
  | .receiver env fault =>
      match s.receiver.mode with
      | .ended => s
      | .works => s.receiverSteps s.toReceiver (s.receiver.work env)
      | .waits =>
          match nextRead fault s.toReceiver with
          | none => s
          | some (read, left) => s.receiverSteps left (s.receiver.onRead env read)

/-- A run from the start. -/
def run (req : SendFileRequest) (receiver : TransferReceiver) (es : List ExchangeEvent) :
    Exchange :=
  Machine.run (step req) { receiver } es

end Exchange

/-! ## What has been accepted -/

/-- The transfer the sender streams, or has sent. -/
def Sender.accepted : Sender → Option String
  | .sending out _ => some out.offer.transferId
  | .ended (.ok sent) => some sent.transferId
  | _ => none

/-- The writer of a file that is being received. -/
def TransferReceiver.incoming : TransferReceiver → Option IncomingFileWriter
  | .runPeer _ p =>
      match p.phase with
      | .receiving incoming => some incoming
      | _ => none
  | .receiveFile _ r =>
      match r.phase with
      | .receiving incoming => some incoming
      | _ => none

section

variable {req : SendFileRequest} {env : SendEnv} {src : SourceFile} {s next : Sender} {read : Read}
  {id : String} {msg : LanMessage}

theorem Sender.write_cases (env : SendEnv) (msg : LanMessage) (next : Sender) :
    (∃ e, Sender.write env msg next = (.ended (.error e), [])) ∨
      Sender.write env msg next = (next, [msg]) := by
  unfold Sender.write
  cases env.send msg with
  | some e => exact .inl ⟨e, rfl⟩
  | none => exact .inr rfl

theorem Sender.accepted_write (h : (Sender.write env msg next).1.accepted = some id) :
    next.accepted = some id := by
  rcases Sender.write_cases env msg next with ⟨e, he⟩ | he
  · rw [he] at h
    simp [accepted] at h
  · rwa [he] at h

/-- Nothing is accepted while the sender works. -/
theorem Sender.accepted_work [Sha256] (h : (s.work req env src).1.accepted = some id) :
    s.accepted = some id := by
  unfold Sender.work at h
  split at h
  · simp [fail, accepted] at h
  · simp [fail, accepted] at h
  · simp [fail, accepted] at h
  · unfold openSource at h
    dsimp only at h
    repeat' split at h
    all_goals simp [fail, accepted] at h
  · dsimp only at h
    split at h
    · simpa [accepted] using accepted_write h
    · simp [accepted] at h
  · dsimp only at h
    split at h
    · simpa [accepted] using accepted_write h
    · simpa [accepted] using accepted_write h
  · exact h

/-- A transfer is accepted when the sender reads `FileAccept`. -/
theorem Sender.accepted_onRead (h : (s.onRead req env read).1.accepted = some id) :
    s.accepted = some id ∨ read = .ok (some (.fileAccept id)) := by
  cases s with
  | hello out =>
      rcases read with e | _ | msg
      · simp [Sender.onRead, accepted] at h
      · simp [Sender.onRead, fail, accepted] at h
      · cases msg with
        | hello peerDeviceId version name =>
            simp only [Sender.onRead] at h
            split at h
            · simp [fail, accepted] at h
            · simpa [accepted] using accepted_write h
        | _ => simp [Sender.onRead, fail, accepted] at h
  | offered out =>
      rcases read with e | _ | msg
      · simp [Sender.onRead, accepted] at h
      · simp [Sender.onRead, fail, accepted] at h
      · cases msg with
        | fileAccept transferId =>
            simp only [Sender.onRead] at h
            split at h
            · rename_i hid
              obtain rfl := Option.some.inj h
              exact .inr (by rw [hid])
            · simp [fail, accepted] at h
        | _ => simp [Sender.onRead, fail, accepted] at h
  | _ => exact .inl (by simpa [Sender.onRead] using h)

end

/-! ## The receiver accepts an offer -/

/-- A step after which nothing is accepted yet. -/
def TransferReceiver.Quiet (r : TransferReceiver) (out : TransferReceiver × List LanMessage) :
    Prop :=
  (∀ id, .fileAccept id ∉ out.2) ∧ out.1.incoming = none ∧
    (out.1.mode = .ended ∨ out.1.dir = r.dir)

section

variable {env : PeerEnv} {id : String} {ctx : PeerRunContext} {p : Peer} {msg : LanMessage}
  {phase : PeerPhase}

theorem mem_sendAll {env : Env} {msgs : List LanMessage} (h : msg ∈ (sendAll env msgs).1) :
    msg ∈ msgs := by
  induction msgs with
  | nil => exact h
  | cons m msgs ih =>
      unfold sendAll at h
      split at h
      · simp at h
      · rcases List.mem_cons.1 h with rfl | h
        · exact List.mem_cons_self
        · exact List.mem_cons_of_mem _ (ih h)

theorem mem_blobChunks {bytes : Bytes} (h : msg ∈ blobChunks bytes) :
    ∃ data last, msg = .blobChunk data last := by
  fun_induction blobChunks bytes with
  | case1 bytes hle => exact ⟨bytes, true, by simpa using h⟩
  | case2 bytes hle ih =>
      rcases List.mem_cons.1 h with rfl | h
      · exact ⟨_, _, rfl⟩
      · exact ih h

theorem fileAccept_not_mem_serveBlob (env : PeerEnv) (sha256Hex id : String) :
    .fileAccept id ∉ (serveBlob env sha256Hex).1 := by
  intro h
  unfold serveBlob at h
  split at h
  · simpa using mem_sendAll h
  · obtain ⟨data, last, hmsg⟩ := mem_blobChunks (mem_sendAll h)
    simp at hmsg

/-- A frame other than `FileAccept` is written, or the task returns. -/
theorem Peer.quiet_write {env : Env} (hmsg : ∀ id, msg ≠ .fileAccept id)
    (hphase : (TransferReceiver.runPeer ctx { p with phase }).incoming = none) :
    (TransferReceiver.runPeer ctx p).Quiet
      (.runPeer ctx (p.write env msg phase).1, (p.write env msg phase).2) := by
  unfold Peer.write
  split
  · exact ⟨by simp, rfl, .inl rfl⟩
  · exact ⟨by simpa using fun id => (hmsg id).symm, hphase, .inr rfl⟩

theorem Peer.quiet_finish (ctx : PeerRunContext) (p : Peer) (result : Except LanError Unit) :
    (TransferReceiver.runPeer ctx p).Quiet (.runPeer ctx (p.finish result), []) :=
  ⟨by simp, rfl, .inl rfl⟩

theorem Peer.quiet_enterSession (ctx : PeerRunContext) (p : Peer) (env : PeerEnv)
    (peerDid : DeviceId) (pending : Option LanMessage) :
    (TransferReceiver.runPeer ctx p).Quiet
      (.runPeer ctx (p.enterSession env peerDid pending), []) := by
  refine ⟨by simp, ?_⟩
  unfold Peer.enterSession
  dsimp only
  split
  · refine ⟨rfl, .inr ?_⟩
    rcases pending with _ | msg
    · rfl
    · cases msg <;> rfl
  · exact ⟨rfl, .inl rfl⟩

theorem fileAccept_mem_startReceive {ctx : ReceiveOfferContext} {env : Env} {dir : Dir}
    {offer : FileOffer} (h : .fileAccept id ∈ (startReceive ctx env dir offer).sent) :
    ∃ incoming, (startReceive ctx env dir offer).receiving = .waiting incoming := by
  have hrefuse : ∀ dir transferId reason e,
      .fileAccept id ∉ (refuse env dir transferId reason e).sent := by
    intro dir transferId reason e
    unfold refuse
    split <;> simp
  unfold startReceive at h ⊢
  split
  · rename_i htarget
    rw [if_pos htarget] at h
    exact (hrefuse _ _ _ _ h).elim
  · rename_i htarget
    rw [if_neg htarget] at h
    split
    · rename_i hsource
      rw [if_pos hsource] at h
      exact (hrefuse _ _ _ _ h).elim
    · rename_i hsource
      rw [if_neg hsource] at h
      split
      · rename_i haccept
        rw [haccept] at h
        exact (hrefuse _ _ _ _ h).elim
      · rename_i haccept
        rw [haccept] at h
        dsimp only at h ⊢
        split
        · rename_i hsend
          rw [hsend] at h
          simp at h
        · exact ⟨_, rfl⟩

/-- The offer is refused, or accepted. -/
theorem TransferReceiver.absorb_startReceive (r : TransferReceiver) (ctx : ReceiveOfferContext)
    (env : Env) (offer : FileOffer) :
    r.Quiet (r.absorb (startReceive ctx env r.dir offer)) ∨
      ∃ incoming dir, Progress r.dir offer [] incoming dir ∧
        r.absorb (startReceive ctx env r.dir offer) =
          ((r.absorb ⟨.waiting incoming, dir, []⟩).1, [.fileAccept offer.transferId]) := by
  rcases startReceive_cases ctx env r.dir offer with
    ⟨incoming, dir, hstart, -, -, -, hprogress⟩ | ⟨⟨e, he⟩, -⟩
  · refine .inr ⟨incoming, dir, hprogress, ?_⟩
    rw [hstart]
    cases r <;> rfl
  · refine .inl ⟨fun id hid => ?_, ?_⟩
    · rw [absorb_sent] at hid
      obtain ⟨incoming, hwait⟩ := fileAccept_mem_startReceive hid
      simp [he] at hwait
    · generalize startReceive ctx env r.dir offer = turn at he
      obtain ⟨receiving, dir, sent⟩ := turn
      obtain rfl : receiving = .returned (.error e) := he
      cases r with
      | runPeer ctx p => exact ⟨rfl, .inl rfl⟩
      | receiveFile ctx r => exact ⟨rfl, .inl rfl⟩

theorem TransferReceiver.quiet_work {r : TransferReceiver} (hr : r.incoming = none)
    (env : PeerEnv) : r.Quiet (r.work env) := by
  cases r with
  | runPeer ctx p => exact Peer.quiet_write (by simp) rfl
  | receiveFile ctx r =>
      simp only [work, FileReceiver.start]
      split
      · exact ⟨by simp, rfl, .inl rfl⟩
      · exact ⟨by simp, rfl, .inr rfl⟩

variable [Sha256]

/-- **A receiver accepts by reading an offer**, and then it has an empty temporary file. -/
theorem TransferReceiver.onRead_cases {r : TransferReceiver} (hr : r.incoming = none)
    (env : PeerEnv) (read : Read) :
    r.Quiet (r.onRead env read) ∨
      ∃ offer incoming dir, read = .ok (some (.fileOffer offer)) ∧
        Progress r.dir offer [] incoming dir ∧
        r.onRead env read =
          ((r.absorb ⟨.waiting incoming, dir, []⟩).1, [.fileAccept offer.transferId]) := by
  cases r with
  | runPeer ctx p =>
      obtain ⟨phase, dir, inbound, fileInbound⟩ := p
      cases phase with
      | start => exact .inl ⟨by simp [onRead, Peer.onRead], rfl, .inr rfl⟩
      | ended result => exact .inl ⟨by simp [onRead, Peer.onRead], rfl, .inr rfl⟩
      | receiving incoming => exact absurd hr (by simp [TransferReceiver.incoming])
      | hello =>
          refine .inl ?_
          simp only [onRead, Peer.onRead]
          rcases read with e | _ | msg
          · exact Peer.quiet_finish ..
          · exact Peer.quiet_finish ..
          · cases msg with
            | hello peerDid version name =>
                simp only [Peer.onHello]
                split
                · exact Peer.quiet_finish ..
                · split
                  · exact Peer.quiet_finish ..
                  · exact Peer.quiet_write (by simp) rfl
            | _ => exact Peer.quiet_finish ..
      | classify peerDid =>
          simp only [onRead, Peer.onRead]
          rcases read with e | _ | msg
          · exact .inl (Peer.quiet_finish ..)
          · exact .inl (Peer.quiet_finish ..)
          · cases msg with
            | blobRequest sha256Hex =>
                exact .inl ⟨fun id => fileAccept_not_mem_serveBlob env sha256Hex id, rfl, .inl rfl⟩
            | fileOffer offer =>
                simp only [Peer.onClassify]
                split
                · rcases absorb_startReceive
                    (.runPeer ctx ⟨.classify peerDid, dir, inbound, fileInbound⟩)
                    ⟨ctx.selfDeviceId, peerDid, {}⟩ env.toEnv offer with
                    hquiet | ⟨incoming, dir', hp, he⟩
                  · exact .inl hquiet
                  · exact .inr ⟨offer, incoming, dir', rfl, hp, he⟩
                · exact .inl (Peer.quiet_write (by simp) rfl)
            | _ => exact .inl (Peer.quiet_enterSession ..)
      | session peerDid =>
          refine .inl ?_
          simp only [onRead, Peer.onRead]
          rcases read with e | _ | msg
          · exact Peer.quiet_finish ..
          · exact Peer.quiet_finish ..
          · cases msg <;> exact ⟨by simp, rfl, .inr rfl⟩
  | receiveFile ctx r =>
      obtain ⟨phase, dir⟩ := r
      cases phase with
      | start => exact .inl ⟨by simp [onRead, FileReceiver.onRead], rfl, .inr rfl⟩
      | ended result => exact .inl ⟨by simp [onRead, FileReceiver.onRead], rfl, .inr rfl⟩
      | receiving incoming => exact absurd hr (by simp [TransferReceiver.incoming])
      | hello =>
          refine .inl ?_
          rcases read with e | _ | msg
          · exact ⟨by simp [onRead, FileReceiver.onRead], rfl, .inl rfl⟩
          · exact ⟨by simp [onRead, FileReceiver.onRead, FileReceiver.fail], rfl, .inl rfl⟩
          · cases msg with
            | hello peerDid version name =>
                exact ⟨by simp [onRead, FileReceiver.onRead], rfl, .inr rfl⟩
            | _ => exact ⟨by simp [onRead, FileReceiver.onRead, FileReceiver.fail], rfl, .inl rfl⟩
      | offer peerDid =>
          rcases read with e | _ | msg
          · exact .inl ⟨by simp [onRead, FileReceiver.onRead], rfl, .inl rfl⟩
          · exact .inl ⟨by simp [onRead, FileReceiver.onRead, FileReceiver.fail], rfl, .inl rfl⟩
          · cases msg with
            | fileOffer offer =>
                rcases absorb_startReceive (.receiveFile ctx ⟨.offer peerDid, dir⟩)
                  ⟨ctx.selfDeviceId, peerDid, ctx.config⟩ env.toEnv offer with
                  hquiet | ⟨incoming, dir', hp, he⟩
                · exact .inl hquiet
                · exact .inr ⟨offer, incoming, dir', rfl, hp, he⟩
            | _ =>
                exact .inl
                  ⟨by simp [onRead, FileReceiver.onRead, FileReceiver.fail], rfl, .inl rfl⟩

end

/-! ## The sender streams what was accepted -/

section

variable {req : SendFileRequest} {id : String}

theorem TransferReceiver.eq_absorb {r : TransferReceiver} {incoming : IncomingFileWriter}
    (hr : r.incoming = some incoming) : r = (r.absorb ⟨.waiting incoming, r.dir, []⟩).1 := by
  cases r with
  | runPeer ctx p =>
      obtain ⟨phase, dir, inbound, fileInbound⟩ := p
      cases phase <;>
        simp_all [TransferReceiver.incoming, absorb, Peer.absorb, TransferReceiver.dir]
  | receiveFile ctx r =>
      obtain ⟨phase, dir⟩ := r
      cases phase <;>
        simp_all [TransferReceiver.incoming, absorb, FileReceiver.absorb, TransferReceiver.dir]

@[simp] theorem TransferReceiver.incoming_waiting {r : TransferReceiver}
    {incoming : IncomingFileWriter} {dir : Dir} {sent : List LanMessage} :
    (r.absorb ⟨.waiting incoming, dir, sent⟩).1.incoming = some incoming := by
  cases r <;> rfl

theorem TransferReceiver.incoming_of_works {r : TransferReceiver} (hmode : r.mode = .works) :
    r.incoming = none := by
  cases r with
  | runPeer ctx p =>
      obtain ⟨phase, dir, inbound, fileInbound⟩ := p
      cases phase <;> simp_all [TransferReceiver.incoming, mode, Peer.mode]
  | receiveFile ctx r =>
      obtain ⟨phase, dir⟩ := r
      cases phase <;> simp_all [TransferReceiver.incoming, mode, FileReceiver.mode]

theorem Exchange.nextRead_cases {fault : Option ReadFault} {inbox left : List LanMessage}
    {read : Read} (h : Exchange.nextRead fault inbox = some (read, left)) :
    (∃ f, fault = some f ∧ read = f.read ∧ left = inbox) ∨
      ∃ msg, fault = none ∧ read = .ok (some msg) ∧ inbox = msg :: left := by
  cases fault with
  | some f =>
      obtain ⟨rfl, rfl⟩ := Prod.mk.inj (Option.some.inj h)
      exact .inl ⟨f, rfl, rfl, rfl⟩
  | none =>
      cases inbox with
      | nil => simp [Exchange.nextRead] at h
      | cons msg inbox =>
          obtain ⟨rfl, rfl⟩ := Prod.mk.inj (Option.some.inj h)
          exact .inr ⟨msg, rfl, rfl, rfl⟩

variable [Sha256]

theorem fileAccept_not_mem_onRead (incoming : IncomingFileWriter) (env : Env) (dir : Dir)
    (read : Read) : .fileAccept id ∉ (Receiving.onRead incoming env dir read).sent := by
  rcases read with e | _ | msg
  · simp [Receiving.onRead, Receiving.fail]
  · simp [Receiving.onRead, Receiving.fail]
  · cases msg with
    | fileChunk transferId offset data =>
        simp only [Receiving.onRead]
        split
        · split
          · simp
          · simp only [Env.sends]
            split <;> simp
        · simp [Receiving.unexpected, Receiving.fail]
    | fileComplete transferId =>
        simp only [Receiving.onRead]
        split
        · split <;> simp
        · simp [Receiving.unexpected, Receiving.fail]
    | _ => simp [Receiving.onRead, Receiving.unexpected, Receiving.fail]

/-- After the step that sends `FileAccept`, the file is being received. -/
theorem TransferReceiver.incoming_of_accept {r : TransferReceiver} {env : PeerEnv} {read : Read}
    (h : .fileAccept id ∈ (r.onRead env read).2) :
    ∃ incoming, (r.onRead env read).1.incoming = some incoming ∧ incoming.transferId = id := by
  cases hr : r.incoming with
  | none =>
      rcases onRead_cases hr env read with hquiet | ⟨offer, incoming, dir, -, hp, he⟩
      · exact absurd h (hquiet.1 id)
      · rw [he] at h ⊢
        refine ⟨incoming, incoming_waiting, ?_⟩
        obtain rfl : id = offer.transferId := by simpa using h
        rw [IncomingFileWriter.transferId, hp.same]
  | some incoming =>
      rw [eq_absorb hr, onRead_waiting rfl] at h
      exact (fileAccept_not_mem_onRead _ _ _ _ h).elim

namespace Exchange

variable {s : Exchange} {e : ExchangeEvent} {r₀ : TransferReceiver} {es : List ExchangeEvent}

/-- What a turn can do: nothing, or a step of the sender, or one of the receiver. -/
theorem step_cases (req : SendFileRequest) (s : Exchange) (e : ExchangeEvent) :
    step req s e = s ∨
      (∃ env src fault, e = .sender env src fault ∧
        (s.sender.mode = .works ∧
            step req s e = s.senderSteps s.toSender (s.sender.work req env src) ∨
          ∃ read left, s.sender.mode = .waits ∧ nextRead fault s.toSender = some (read, left) ∧
            step req s e = s.senderSteps left (s.sender.onRead req env read))) ∨
      ∃ env fault, e = .receiver env fault ∧
        (s.receiver.mode = .works ∧
            step req s e = s.receiverSteps s.toReceiver (s.receiver.work env) ∨
          ∃ read left, s.receiver.mode = .waits ∧ nextRead fault s.toReceiver = some (read, left) ∧
            step req s e = s.receiverSteps left (s.receiver.onRead env read)) := by
  cases e with
  | sender env src fault =>
      simp only [step]
      cases hmode : s.sender.mode with
      | ended => exact .inl rfl
      | works => exact .inr (.inl ⟨env, src, fault, rfl, .inl ⟨rfl, rfl⟩⟩)
      | waits =>
          cases hread : nextRead fault s.toSender with
          | none => exact .inl rfl
          | some r => exact .inr (.inl ⟨env, src, fault, rfl, .inr ⟨r.1, r.2, rfl, hread, rfl⟩⟩)
  | receiver env fault =>
      simp only [step]
      cases hmode : s.receiver.mode with
      | ended => exact .inl rfl
      | works => exact .inr (.inr ⟨env, fault, rfl, .inl ⟨rfl, rfl⟩⟩)
      | waits =>
          cases hread : nextRead fault s.toReceiver with
          | none => exact .inl rfl
          | some r => exact .inr (.inr ⟨env, fault, rfl, .inr ⟨r.1, r.2, rfl, hread, rfl⟩⟩)

/-- The sender's inbox is what the receiver wrote last, and the sender streams what it read that
the receiver accepts. -/
structure Linked (s : Exchange) : Prop where
  inbox : s.toSender <:+ s.replied
  accepted : ∀ id, s.sender.accepted = some id → .fileAccept id ∈ s.replied

theorem linked_step (h : Linked s) : Linked (step req s e) := by
  rcases step_cases req s e with he | ⟨env, src, fault, -, ⟨-, he⟩ | ⟨read, left, -, hread, he⟩⟩ |
    ⟨env, fault, -, hsteps⟩
  · rwa [he]
  · rw [he]
    exact ⟨h.inbox, fun id hid => h.accepted id (Sender.accepted_work hid)⟩
  · rw [he]
    rcases nextRead_cases hread with ⟨f, -, hf, rfl⟩ | ⟨msg, -, rfl, hinbox⟩
    · refine ⟨h.inbox, fun id hid => ?_⟩
      rcases Sender.accepted_onRead hid with hid | hid
      · exact h.accepted id hid
      · rw [hf] at hid
        cases f <;> simp [ReadFault.read] at hid
    · refine ⟨(List.suffix_cons msg left).trans (hinbox ▸ h.inbox), fun id hid => ?_⟩
      rcases Sender.accepted_onRead hid with hid | hid
      · exact h.accepted id hid
      · have hmsg : msg ∈ s.toSender := by rw [hinbox]; exact List.mem_cons_self
        obtain rfl : msg = .fileAccept id := by simpa using hid
        exact h.inbox.subset hmsg
  · have hkeeps : ∀ left r, Linked (s.receiverSteps left r) := fun left r =>
      ⟨by
        obtain ⟨t, ht⟩ := h.inbox
        exact ⟨t, by simp [receiverSteps, ← ht]⟩,
        fun id hid => List.mem_append_left _ (h.accepted id hid)⟩
    rcases hsteps with ⟨-, he⟩ | ⟨read, left, -, -, he⟩ <;> rw [he] <;> exact hkeeps ..

/-- A turn that sends `FileAccept` leaves the file being received. -/
theorem step_accepts {id : String} (h : .fileAccept id ∈ (step req s e).replied)
    (hnew : .fileAccept id ∉ s.replied) : ∃ incoming,
      (step req s e).receiver.incoming = some incoming ∧ incoming.transferId = id := by
  rcases step_cases req s e with he | ⟨env, src, fault, -, ⟨-, he⟩ | ⟨read, left, -, -, he⟩⟩ |
    ⟨env, fault, -, ⟨hmode, he⟩ | ⟨read, left, -, -, he⟩⟩
  · rw [he] at h
    exact absurd h hnew
  · rw [he] at h
    exact absurd h hnew
  · rw [he] at h
    exact absurd h hnew
  · rw [he] at h
    rcases List.mem_append.1 h with h | h
    · exact absurd h hnew
    · have hquiet := TransferReceiver.quiet_work (TransferReceiver.incoming_of_works hmode) env
      exact absurd h (hquiet.1 id)
  · rw [he] at h ⊢
    rcases List.mem_append.1 h with h | h
    · exact absurd h hnew
    · exact TransferReceiver.incoming_of_accept h

/-- Every transfer that the receiver sent `FileAccept` for was being received at some time. -/
theorem incoming_of_replied {id : String} (h : .fileAccept id ∈ (run req r₀ es).replied) :
    ∃ pre post incoming, es = pre ++ post ∧ (run req r₀ pre).receiver.incoming = some incoming ∧
      incoming.transferId = id := by
  induction es using List.reverseRecOn with
  | nil => simp [run] at h
  | append_singleton es e ih =>
      have hstep : run req r₀ (es ++ [e]) = step req (run req r₀ es) e := Machine.run_concat ..
      by_cases hold : .fileAccept id ∈ (run req r₀ es).replied
      · obtain ⟨pre, post, incoming, rfl, hincoming⟩ := ih hold
        exact ⟨pre, post ++ [e], incoming, by simp, hincoming⟩
      · rw [hstep] at h
        obtain ⟨incoming, hincoming⟩ := step_accepts h hold
        exact ⟨es ++ [e], [], incoming, by simp, hstep ▸ hincoming⟩

end Exchange

end

/-! ## What the sender has written -/

/-- A chunk as a message. -/
def Chunk.message (transferId : String) (c : Chunk) : LanMessage :=
  .fileChunk transferId c.1 c.2

/-- The chunks are the source up to `pos`. -/
structure UpTo (src : SourceFile) (pos : Nat) (chunks : List Chunk) : Prop where
  contiguous : Contiguous 0 chunks
  content : content chunks = src.content.val.take pos
  le : pos ≤ src.content.val.length

theorem UpTo.concat {src : SourceFile} {pos limit short : Nat} {offset : UInt64}
    {chunks : List Chunk} (h : UpTo src pos chunks) (hoffset : offset.toNat = pos)
    (hlimit : limit ≠ 0) (hread : src.readAt pos limit short ≠ []) :
    UpTo src (pos + (src.readAt pos limit short).length)
        (chunks ++ [(offset, src.readAt pos limit short)]) ∧
      (offset + UInt64.ofNat (src.readAt pos limit short).length).toNat =
        pos + (src.readAt pos limit short).length := by
  have hpos : pos < src.content.val.length := by
    rw [Ne, SourceFile.readAt_eq_nil hlimit] at hread
    omega
  obtain ⟨-, hle⟩ := SourceFile.length_readAt short hlimit hpos
  have hmax : src.content.val.length ≤ 0x7fffffffffffffff := src.content.property
  refine ⟨⟨contiguous_concat.2 ⟨h.contiguous, ?_⟩, ?_, hle⟩, ?_⟩
  · rw [hoffset, h.content, List.length_take, Nat.zero_add]
    omega
  · rw [content_concat, h.content]
    exact SourceFile.take_append_readAt ..
  · have hsize : UInt64.size = 2 ^ 64 := rfl
    rw [UInt64.toNat_add, UInt64.toNat_ofNat_of_lt' (by omega), hoffset]
    omega

theorem message_injective (id : String) : Function.Injective (Chunk.message id) := by
  rintro ⟨o, d⟩ ⟨o', d'⟩ h
  simpa [Chunk.message] using h

/-- Where a script of items and at most one closing message is cut. -/
theorem split_script {α : Type} {f : α → LanMessage} {items : List α}
    {tail before rest : List LanMessage} {msg : LanMessage} (htail : tail.length ≤ 1)
    (h : items.map f ++ tail = before ++ msg :: rest) :
    (∃ taken item more, items = taken ++ item :: more ∧ before = taken.map f ∧ msg = f item) ∨
      before = items.map f ∧ tail = [msg] := by
  induction items generalizing before with
  | nil =>
      have hlen := congrArg List.length h
      simp only [List.map_nil, List.nil_append, List.length_append, List.length_cons] at hlen
      have hbefore : before = [] := List.eq_nil_of_length_eq_zero (by omega)
      have hrest : rest = [] := List.eq_nil_of_length_eq_zero (by omega)
      subst hbefore hrest
      exact .inr ⟨rfl, h⟩
  | cons item items ih =>
      rcases before with _ | ⟨m, before⟩
      · obtain ⟨hmsg, -⟩ := List.cons.inj h
        exact .inl ⟨[], item, items, rfl, rfl, hmsg.symm⟩
      · obtain ⟨rfl, h'⟩ := List.cons.inj h
        rcases ih h' with ⟨taken, item', more, rfl, rfl, rfl⟩ | ⟨rfl, htail⟩
        · exact .inl ⟨item :: taken, item', more, rfl, rfl, rfl⟩
        · exact .inr ⟨rfl, htail⟩

section

variable [Sha256]

/-- The offer is about this source. -/
structure Offers (src : SourceFile) (offer : FileOffer) : Prop where
  size : offer.sizeBytes.toNat = src.content.val.length
  hash : offer.sha256Hex = sha256Hex src.content.val

/-- All that the sender has written, in each of its states, while the source does not change. -/
inductive Sent (src : SourceFile) (hello : LanMessage) : Sender → List LanMessage → Prop where
  | start : Sent src hello .start []
  | hashing {size modified name pos} (hsize : size.toNat = src.content.val.length)
      (hpos : pos ≤ src.content.val.length) :
      Sent src hello (.hashing size modified name pos (src.content.val.take pos)) []
  | hello {out} (hout : Offers src out.offer) (hlimit : out.chunkBytes ≠ 0) (hpos : out.pos = 0) :
      Sent src hello (.hello out) [hello]
  | offered {out} (hout : Offers src out.offer) (hlimit : out.chunkBytes ≠ 0) (hpos : out.pos = 0) :
      Sent src hello (.offered out) [hello, .fileOffer out.offer]
  | sending {out offset chunks} (hout : Offers src out.offer) (hlimit : out.chunkBytes ≠ 0)
      (hoffset : offset.toNat = out.pos) (hchunks : UpTo src out.pos chunks) :
      Sent src hello (.sending out offset)
        (hello :: .fileOffer out.offer :: chunks.map (Chunk.message out.offer.transferId))
  | complete {offer chunks sent} (hout : Offers src offer)
      (hid : sent.transferId = offer.transferId)
      (hchunks : UpTo src src.content.val.length chunks) :
      Sent src hello (.ended (.ok sent)) (hello :: .fileOffer offer ::
        (chunks.map (Chunk.message offer.transferId) ++ [.fileComplete offer.transferId]))
  | failed (e : LanError) (wrote : List LanMessage) : Sent src hello (.ended (.error e)) wrote

variable {req : SendFileRequest} {env : SendEnv} {src : SourceFile} {hello : LanMessage}
  {s next : Sender} {wrote : List LanMessage} {read : Read}

theorem sent_write (wrote : List LanMessage) {msg : LanMessage}
    (h : Sent src hello next (wrote ++ [msg])) :
    Sent src hello (Sender.write env msg next).1 (wrote ++ (Sender.write env msg next).2) := by
  rcases Sender.write_cases env msg next with ⟨e, he⟩ | he
  · rw [he]
    exact .failed e _
  · rwa [he]

/-- A step that waits for nothing keeps it. -/
theorem Sent.work {req : SendFileRequest} {hello : LanMessage}
    (hhello : hello = .hello req.sourceDeviceId protoVersion req.sourceDeviceName)
    (hmode : s.mode = .works) (h : Sent src hello s wrote) :
    Sent src hello (s.work req env src).1 (wrote ++ (s.work req env src).2) := by
  cases h with
  | start =>
      cases hfault : env.fault with
      | some e =>
          simp only [Sender.work, hfault]
          exact .failed _ _
      | none =>
          simp only [Sender.work, hfault]
          have hsize : (UInt64.ofNat src.content.val.length).toNat = src.content.val.length :=
            UInt64.toNat_ofNat_of_lt' (Nat.lt_of_le_of_lt src.content.property (by decide))
          unfold Sender.openSource
          dsimp only
          split
          · exact .failed _ _
          · split
            · exact .failed _ _
            · split
              · exact .failed _ _
              · split
                · exact .failed _ _
                · exact .hashing hsize (Nat.zero_le _)
  | @hashing size modified name pos hsize hpos =>
      cases hfault : env.fault with
      | some e =>
          simp only [Sender.work, hfault]
          exact .failed _ _
      | none =>
          simp only [Sender.work, hfault]
          split
          · rename_i hend
            rw [SourceFile.readAt_eq_nil (by decide)] at hend
            rw [← hhello, List.take_of_length_le hend]
            refine sent_write [] (.hello ⟨hsize, rfl⟩ ?_ rfl)
            show max 1 _ ≠ 0
            omega
          · rename_i hdata
            rw [SourceFile.readAt_eq_nil (by decide)] at hdata
            rw [SourceFile.take_append_readAt]
            exact .hashing hsize
              (SourceFile.length_readAt _ (by decide) (Nat.lt_of_not_le hdata)).2
  | @sending out offset chunks hout hlimit hoffset hchunks =>
      cases hfault : env.fault with
      | some e =>
          simp only [Sender.work, hfault]
          exact .failed _ _
      | none =>
          simp only [Sender.work, hfault]
          split
          · rename_i hend
            rw [SourceFile.readAt_eq_nil hlimit] at hend
            obtain hpos : out.pos = src.content.val.length := Nat.le_antisymm hchunks.le hend
            exact sent_write _ (.complete hout rfl (hpos ▸ hchunks))
          · rename_i hdata
            obtain ⟨hnext, hsum⟩ := hchunks.concat hoffset hlimit hdata
            refine sent_write _ ?_
            have hsending : Sent src hello
                (.sending { out with
                  pos := out.pos + (src.readAt out.pos out.chunkBytes env.short).length } _) _ :=
              .sending hout hlimit hsum hnext
            simpa [Chunk.message] using hsending
  | hello hout hlimit hpos => simp [Sender.mode] at hmode
  | offered hout hlimit hpos => simp [Sender.mode] at hmode
  | complete hout hid hchunks => simp [Sender.mode] at hmode
  | failed e wrote => simp [Sender.mode] at hmode

/-- So does a frame that it reads. -/
theorem Sent.onRead (hmode : s.mode = .waits) (h : Sent src hello s wrote) :
    Sent src hello (s.onRead req env read).1 (wrote ++ (s.onRead req env read).2) := by
  cases h with
  | @hello out hout hlimit hpos =>
      rcases read with e | _ | msg
      · exact .failed _ _
      · exact .failed _ _
      · cases msg with
        | hello peerDid version name =>
            simp only [Sender.onRead]
            split
            · exact .failed _ _
            · exact sent_write _ (.offered hout hlimit hpos)
        | _ => exact .failed _ _
  | @offered out hout hlimit hpos =>
      have hstays : Sent src hello (.offered out) ([hello, .fileOffer out.offer] ++ []) :=
        .offered hout hlimit hpos
      rcases read with e | _ | msg
      · exact .failed _ _
      · exact .failed _ _
      · cases msg with
        | fileAccept transferId =>
            simp only [Sender.onRead]
            split
            · have hnone : UpTo src out.pos [] :=
                ⟨trivial, by rw [hpos, List.take_zero]; rfl, by omega⟩
              have hzero : (0 : UInt64).toNat = out.pos := by rw [hpos]; rfl
              exact .sending hout hlimit hzero hnone
            · exact .failed _ _
        | ping => exact hstays
        | hello peerDid version name => exact hstays
        | _ => exact .failed _ _
  | start => simp [Sender.mode] at hmode
  | hashing hsize hpos => simp [Sender.mode] at hmode
  | sending hout hlimit hoffset hchunks => simp [Sender.mode] at hmode
  | complete hout hid hchunks => simp [Sender.mode] at hmode
  | failed e wrote => simp [Sender.mode] at hmode

/-! ## What comes next -/

/-- What the sender has written is a script: its Hello, the offer, chunks, and the end. -/
theorem Sent.script (h : Sent src hello s wrote) (hs : ∀ e, s ≠ .ended (.error e))
    (hwrote : wrote ≠ []) : ∃ offer pos chunks tail, Offers src offer ∧ UpTo src pos chunks ∧
      (tail = [] ∨ tail = [.fileComplete offer.transferId] ∧ pos = src.content.val.length) ∧
      wrote <+: hello :: .fileOffer offer ::
        (chunks.map (Chunk.message offer.transferId) ++ tail) := by
  have hnone : UpTo src 0 [] := ⟨trivial, rfl, Nat.zero_le _⟩
  cases h with
  | start => exact absurd rfl hwrote
  | hashing hsize hpos => exact absurd rfl hwrote
  | @hello out hout hlimit hpos =>
      exact ⟨out.offer, 0, [], [], hout, hnone, .inl rfl, [.fileOffer out.offer], rfl⟩
  | @offered out hout hlimit hpos =>
      exact ⟨out.offer, 0, [], [], hout, hnone, .inl rfl, [], rfl⟩
  | @sending out offset chunks hout hlimit hoffset hchunks =>
      exact ⟨out.offer, _, chunks, [], hout, hchunks, .inl rfl, [], rfl⟩
  | @complete offer chunks sent hout hid hchunks =>
      exact ⟨offer, _, chunks, _, hout, hchunks, .inr ⟨rfl, rfl⟩, [], List.append_nil _⟩
  | failed e wrote => exact absurd rfl (hs e)

/-- The frame after those that were read. -/
theorem Sent.following {before rest : List LanMessage} {msg : LanMessage}
    (h : Sent src hello s (before ++ msg :: rest)) (hs : ∀ e, s ≠ .ended (.error e)) :
    before = [] ∧ msg = hello ∨ ∃ offer, Offers src offer ∧
      (before = [hello] ∧ msg = .fileOffer offer ∨
        ∃ chunks, before = hello :: .fileOffer offer ::
            chunks.map (Chunk.message offer.transferId) ∧
          ((∃ c : Chunk, msg = c.message offer.transferId ∧ c.1.toNat = (content chunks).length ∧
              (content chunks).length + c.2.length ≤ src.content.val.length) ∨
            msg = .fileComplete offer.transferId ∧ content chunks = src.content.val)) := by
  obtain ⟨offer, pos, chunks, tail, hoffer, hupto, htail, more, hmore⟩ := h.script hs (by simp)
  rcases before with _ | ⟨m, _ | ⟨m', before⟩⟩
  · simp only [List.nil_append, List.cons_append, List.cons.injEq] at hmore
    exact .inl ⟨rfl, hmore.1⟩
  · simp only [List.cons_append, List.nil_append, List.cons.injEq] at hmore
    obtain ⟨rfl, rfl, -⟩ := hmore
    exact .inr ⟨offer, hoffer, .inl ⟨rfl, rfl⟩⟩
  · simp only [List.cons_append, List.append_assoc, List.cons.injEq] at hmore
    obtain ⟨rfl, rfl, hmore⟩ := hmore
    have hlen : tail.length ≤ 1 := by rcases htail with rfl | ⟨rfl, -⟩ <;> simp
    refine .inr ⟨offer, hoffer, .inr ?_⟩
    rcases split_script hlen hmore.symm with ⟨taken, c, later, rfl, rfl, rfl⟩ | ⟨rfl, hlast⟩
    · refine ⟨taken, rfl, .inl ⟨c, rfl, ?_, ?_⟩⟩
      · simpa using (contiguous_append.1 hupto.contiguous).2.1
      · have hlength := congrArg List.length hupto.content
        simp only [content, List.flatMap_append, List.flatMap_cons, List.length_append,
          List.length_take] at hlength ⊢
        omega
    · refine ⟨chunks, rfl, .inr ?_⟩
      rcases htail with rfl | ⟨rfl, rfl⟩
      · simp at hlast
      · obtain ⟨rfl, -⟩ := List.cons.inj hlast
        exact ⟨rfl, by rw [hupto.content, List.take_of_length_le (Nat.le_refl _)]⟩

/-! ## What the receiver has made of it -/

/-- The receiver, after the frames it has read: it has accepted nothing, or is in the middle of the
file, or has received it. -/
inductive Followed (dir₀ : Dir) (hello : LanMessage) (r : TransferReceiver)
    (replied : List LanMessage) : List LanMessage → Prop where
  | early {before} (hquiet : ∀ id, .fileAccept id ∉ replied) (hr : r.incoming = none)
      (hdir : r.mode = .ended ∨ r.dir = dir₀) : Followed dir₀ hello r replied before
  | taking {offer chunks incoming} (hr : r.incoming = some incoming)
      (hprogress : Progress dir₀ offer chunks incoming r.dir) :
      Followed dir₀ hello r replied
        (hello :: .fileOffer offer :: chunks.map (Chunk.message offer.transferId))
  | took {offer chunks file} (hmode : r.mode = .ended) (hfile : r.received = some file)
      (hreceived : Received dir₀ offer chunks file r.dir) :
      Followed dir₀ hello r replied (hello :: .fileOffer offer ::
        (chunks.map (Chunk.message offer.transferId) ++ [.fileComplete offer.transferId]))

variable {dir₀ : Dir} {r : TransferReceiver} {replied before rest : List LanMessage} {env : PeerEnv}
  {msg : LanMessage}

/-- A receiver in the middle of the file goes on with it. -/
theorem followed_taking {offer : FileOffer} {chunks : List Chunk} {incoming : IncomingFileWriter}
    (hr : r.incoming = some incoming) (hprogress : Progress dir₀ offer chunks incoming r.dir)
    (hio : env.io = {})
    (hsent : Sent src hello s ((hello :: .fileOffer offer ::
      chunks.map (Chunk.message offer.transferId)) ++ msg :: rest))
    (hs : ∀ e, s ≠ .ended (.error e)) :
    Followed dir₀ hello (r.onRead env (.ok (some msg))).1 replied
      ((hello :: .fileOffer offer :: chunks.map (Chunk.message offer.transferId)) ++ [msg]) := by
  rcases hsent.following hs with ⟨hnil, -⟩ | ⟨offer', hoffers, ⟨hone, -⟩ | ⟨chunks', heq, hmsg⟩⟩
  · simp at hnil
  · simp at hone
  simp only [List.cons.injEq, true_and, LanMessage.fileOffer.injEq] at heq
  obtain ⟨rfl, hchunks⟩ := heq
  obtain rfl : chunks = chunks' := (message_injective _).list_map hchunks
  have hmax : src.content.val.length ≤ maxFileLen := src.content.property
  have hwrite : env.toEnv.io = {} := hio
  rw [TransferReceiver.eq_absorb hr]
  rcases hmsg with ⟨c, rfl, hoff, hfits⟩ | ⟨rfl, hall⟩
  · obtain ⟨incoming', dir', hread, -, hprogress'⟩ := hprogress.onRead_chunk env.toEnv
      (by rw [hwrite]) hoff (by rw [hoffers.size]; exact hfits) (by omega)
    have hstep : (r.absorb ⟨.waiting incoming, r.dir, []⟩).1.onRead env
        (.ok (some (c.message offer.transferId))) = _ := TransferReceiver.onRead_waiting hread
    rw [hstep]
    have htaking : Followed dir₀ hello (r.absorb ⟨.waiting incoming', dir', []⟩).1 replied
        (hello :: .fileOffer offer ::
          (chunks ++ [c]).map (Chunk.message offer.transferId)) :=
      .taking TransferReceiver.incoming_waiting (by
        rw [TransferReceiver.dir_waiting]
        exact hprogress')
    simpa using htaking
  · obtain ⟨file, dir', hread, -, hreceived⟩ := hprogress.onRead_complete env.toEnv
      (by rw [hwrite]) (by rw [hwrite]) (by rw [hall, hoffers.size]) (by rw [hall, hoffers.hash])
    rw [TransferReceiver.onRead_waiting hread]
    exact .took TransferReceiver.mode_returned TransferReceiver.received_returned
      (TransferReceiver.dir_returned (r := r) ▸ hreceived)

/-- A receiver that has accepted nothing yet goes on, or accepts the offer. -/
theorem followed_early (hr : r.incoming = none) (hdir : r.dir = dir₀)
    (hquiet : ∀ id, .fileAccept id ∉ replied) (hsent : Sent src hello s (before ++ msg :: rest))
    (hs : ∀ e, s ≠ .ended (.error e)) (hhello : ∀ offer, hello ≠ .fileOffer offer) :
    Followed dir₀ hello (r.onRead env (.ok (some msg))).1
      (replied ++ (r.onRead env (.ok (some msg))).2) (before ++ [msg]) := by
  rcases TransferReceiver.onRead_cases hr env (.ok (some msg)) with
    ⟨hnone, hincoming, hmode⟩ | ⟨offer, incoming, dir, hmsg, hprogress, he⟩
  · refine .early (fun id hid => ?_) hincoming (hdir ▸ hmode)
    exact (List.mem_append.1 hid).elim (hquiet id) (hnone id)
  · obtain rfl : msg = .fileOffer offer := by simpa using hmsg
    obtain rfl : before = [hello] := by
      rcases hsent.following hs with ⟨-, h⟩ | ⟨offer', -, ⟨h, -⟩ | ⟨chunks, -, ⟨c, h, -⟩ | ⟨h, -⟩⟩⟩
      · exact absurd h.symm (hhello offer)
      · exact h
      · simp [Chunk.message] at h
      · simp at h
    rw [he]
    have hprogress' :
        Progress dir₀ offer [] incoming (r.absorb ⟨.waiting incoming, dir, []⟩).1.dir := by
      rw [TransferReceiver.dir_waiting, ← hdir]
      exact hprogress
    exact .taking TransferReceiver.incoming_waiting hprogress'

namespace Exchange

/-- The source is `src` in this turn, and nothing fails on the receiver's side. -/
def Sound (src : SourceFile) : ExchangeEvent → Prop
  | .sender _ src' _ => src' = src
  | .receiver env fault => env.io = {} ∧ fault = none

/-- The sender has failed, or everything the receiver has read is part of a sound script. -/
def Good (src : SourceFile) (dir₀ : Dir) (hello : LanMessage) (s : Exchange) : Prop :=
  (∃ e, s.sender = .ended (.error e)) ∨
    Sent src hello s.sender s.wrote ∧
      ∃ before, s.wrote = before ++ s.toReceiver ∧ Followed dir₀ hello s.receiver s.replied before

variable {x : Exchange} {e : ExchangeEvent}

theorem good_step (hhello : hello = .hello req.sourceDeviceId protoVersion req.sourceDeviceName)
    (hsound : Sound src e) (h : Good src dir₀ hello x) : Good src dir₀ hello (step req x e) := by
  rcases h with ⟨err, herr⟩ | ⟨hsent, before, hwrote, hfollowed⟩
  · refine .inl ⟨err, ?_⟩
    rcases step_cases req x e with
      he | ⟨env, src', fault, -, ⟨hmode, -⟩ | ⟨read, left, hmode, -⟩⟩ |
      ⟨env, fault, -, ⟨-, he⟩ | ⟨read, left, -, -, he⟩⟩
    · rwa [he]
    · simp [herr, Sender.mode] at hmode
    · simp [herr, Sender.mode] at hmode
    · rw [he]; exact herr
    · rw [he]; exact herr
  rcases step_cases req x e with
    he | ⟨env, src', fault, rfl, ⟨hmode, he⟩ | ⟨read, left, hmode, -, he⟩⟩ |
      ⟨env, fault, rfl, hsteps⟩
  · rw [he]
    exact .inr ⟨hsent, before, hwrote, hfollowed⟩
  · obtain rfl : src' = src := hsound
    rw [he]
    exact .inr ⟨hsent.work hhello hmode, before, by simp [senderSteps, hwrote], hfollowed⟩
  · rw [he]
    exact .inr ⟨hsent.onRead hmode, before, by simp [senderSteps, hwrote], hfollowed⟩
  · obtain ⟨hio, rfl⟩ := hsound
    by_cases hs : ∃ err, x.sender = .ended (.error err)
    · rcases hsteps with ⟨-, he⟩ | ⟨read, left, -, -, he⟩ <;> rw [he] <;> exact .inl hs
    have hs' : ∀ err, x.sender ≠ .ended (.error err) := fun err herr => hs ⟨err, herr⟩
    rcases hsteps with ⟨hmode, he⟩ | ⟨read, left, hmode, hread, he⟩
    · have hr := TransferReceiver.incoming_of_works hmode
      obtain ⟨hnone, hincoming, hdir'⟩ := TransferReceiver.quiet_work hr env
      rw [he]
      refine .inr ⟨hsent, before, hwrote, ?_⟩
      cases hfollowed with
      | early hquiet _ hdir =>
          have hdir : x.receiver.dir = dir₀ := by simpa [hmode] using hdir
          refine .early (fun id hid => ?_) hincoming (hdir ▸ hdir')
          exact (List.mem_append.1 hid).elim (hquiet id) (hnone id)
      | taking hr' _ => simp [hr] at hr'
      | took hover _ _ => simp [hmode] at hover
    · rcases nextRead_cases hread with ⟨f, hf, -⟩ | ⟨msg, -, rfl, hinbox⟩
      · simp at hf
      rw [he]
      rw [hinbox] at hwrote
      rw [hwrote] at hsent
      refine .inr ⟨by simpa [receiverSteps, hwrote] using hsent, before ++ [msg],
        by simp [receiverSteps, hwrote], ?_⟩
      cases hfollowed with
      | early hquiet hr hdir =>
          have hdir : x.receiver.dir = dir₀ := by simpa [hmode] using hdir
          exact followed_early hr hdir hquiet hsent hs' (by simp [hhello])
      | taking hr hprogress => exact followed_taking hr hprogress hio hsent hs'
      | took hover _ _ => simp [hmode] at hover

/-- When both sides have ended, the receiver has received what the sender has sent. -/
def Agrees (s : Exchange) : Prop :=
  ∀ sent, s.sender = .ended (.ok sent) → s.receiver.mode = .ended →
    ∃ file, s.receiver.received = some file ∧ file.transferId = sent.transferId

/-- In a sound run, a sender that is done leaves the receiver done, or with frames to read. -/
theorem good_complete {sent : SentFile} (hhello : ∀ id, hello ≠ .fileComplete id)
    (h : Good src dir₀ hello x) (hok : x.sender = .ended (.ok sent))
    (haccept : .fileAccept sent.transferId ∈ x.replied) :
    (∃ file, x.receiver.mode = .ended ∧ x.receiver.received = some file ∧
        file.transferId = sent.transferId ∧
        x.receiver.dir.read file.path = some src.content.val) ∨
      x.receiver.mode ≠ .ended ∧ x.toReceiver ≠ [] := by
  rcases h with ⟨err, herr⟩ | ⟨hsent, before, hwrote, hfollowed⟩
  · simp [hok] at herr
  rw [hok, hwrote] at hsent
  generalize hall : before ++ x.toReceiver = all at hsent
  cases hsent with
  | @complete offer chunks _ hout hid hchunks =>
      cases hfollowed with
      | early hquiet _ _ => exact absurd haccept (hquiet _)
      | @taking offer' chunks' incoming hr hprogress =>
          refine .inr ⟨?_, fun hnil => ?_⟩
          · rw [TransferReceiver.eq_absorb hr, TransferReceiver.mode_waiting]
            simp
          · -- The last frame is among those that were written, and not among those that were read.
            have hmem : LanMessage.fileComplete offer.transferId ∈
                hello :: .fileOffer offer' :: chunks'.map (Chunk.message offer'.transferId) := by
              rw [hnil, List.append_nil] at hall
              rw [hall]
              simp
            simp [Chunk.message, (hhello offer.transferId).symm] at hmem
      | @took offer' chunks' file hmode hfile hreceived =>
          simp only [List.cons_append, List.append_assoc, List.cons.injEq, true_and,
            LanMessage.fileOffer.injEq] at hall
          obtain ⟨rfl, hall⟩ := hall
          have hsame : chunks' = chunks := by
            rcases split_script (by simp) hall.symm with ⟨taken, c, more, -, -, hc⟩ | ⟨hmap, -⟩
            · simp [Chunk.message] at hc
            · exact (message_injective _).list_map hmap
          subst hsame
          refine .inl ⟨file, hmode, hfile, hreceived.fields.1.trans hid.symm, ?_⟩
          rw [hreceived.read, hchunks.content, List.take_of_length_le (Nat.le_refl _)]

/-- **What a sender that has returned `Ok` can rely on.** The receiver had accepted this transfer.
If the source was the same in all turns and nothing failed on the receiver's side, the receiver
returns `Ok` as well, at the latest when it has read everything, and has the source's bytes. -/
theorem agree_run (req : SendFileRequest) (r₀ : TransferReceiver) (hstart : r₀.mode = .works)
    (es : List ExchangeEvent) (sent : SentFile)
    (hok : (run req r₀ es).sender = .ended (.ok sent)) :
    (∃ pre post incoming, es = pre ++ post ∧
      (run req r₀ pre).receiver.incoming = some incoming ∧
      incoming.transferId = sent.transferId) ∧
    ∀ src, (∀ e ∈ es, Sound src e) →
      ((run req r₀ es).receiver.mode = .ended → ∃ file,
        (run req r₀ es).receiver.received = some file ∧ file.transferId = sent.transferId ∧
        (run req r₀ es).receiver.dir.read file.path = some src.content.val) ∧
      ((run req r₀ es).toReceiver = [] → (run req r₀ es).receiver.mode = .ended) := by
  have hlinked : Linked (run req r₀ es) :=
    Machine.invariant_run (fun _ _ h => linked_step h)
      ⟨List.suffix_rfl, by simp [Sender.accepted]⟩ es
  have haccept : .fileAccept sent.transferId ∈ (run req r₀ es).replied :=
    hlinked.accepted _ (by rw [hok]; rfl)
  refine ⟨incoming_of_replied haccept, fun src hsound => ?_⟩
  have hgood : Good src r₀.dir (.hello req.sourceDeviceId protoVersion req.sourceDeviceName)
      (run req r₀ es) :=
    Machine.invariant_along (P := fun _ e => Sound src e) (fun _ _ he h => good_step rfl he h)
      (.inr ⟨.start, [], rfl,
        .early (by simp) (TransferReceiver.incoming_of_works hstart) (.inr rfl)⟩)
      (Machine.along_iff.2 fun pre e post hes => hsound e (by simp [hes]))
  rcases good_complete (by simp) hgood hok haccept with
    ⟨file, hmode, hfile, hid, hread⟩ | ⟨hmode, hleft⟩
  · exact ⟨fun _ => ⟨file, hfile, hid, hread⟩, fun _ => hmode⟩
  · exact ⟨fun h => absurd h hmode, fun h => absurd h hleft⟩

end Exchange

end

/-! ## The link breaks late -/

namespace Exchange

section

local instance : Sha256 := abcSha256

/-- A turn of the sender, or of the receiver, in which nothing fails. -/
def senderTurn : ExchangeEvent := .sender { transferId := "t1", short := 3 } abcSource none

def receiverTurn : ExchangeEvent := .receiver {} none

/-- The last turn is the receiver's read of `FileComplete`. -/
def abcExchange (last : ExchangeEvent) : List ExchangeEvent :=
  [senderTurn, senderTurn, senderTurn, receiverTurn, receiverTurn, senderTurn, receiverTurn,
    senderTurn, senderTurn, senderTurn, receiverTurn, last]

def abcRun (last : ExchangeEvent) : Exchange :=
  run ⟨"laptop", "Laptop", "phone", none, {}⟩
    (.receiveFile ⟨"phone", "Phone", {}⟩ { phase := .start, dir := .empty }) (abcExchange last)

def abcSent : SentFile := ⟨"t1", "abc.txt", 3, sha256Hex [97, 98, 99]⟩

/-- Where nothing fails, the receiver has the file. -/
theorem abcRun_agrees : ∃ file, (abcRun receiverTurn).receiver.received = some file ∧
    file.transferId = "t1" ∧
    (abcRun receiverTurn).receiver.dir.read file.path = some [97, 98, 99] := by
  have hok : (abcRun receiverTurn).sender = .ended (.ok abcSent) := by decide +kernel
  have hmode : (abcRun receiverTurn).receiver.mode = .ended := by decide +kernel
  have hsound : ∀ e ∈ abcExchange receiverTurn, Sound abcSource e := by
    simp [abcExchange, senderTurn, receiverTurn, Sound]
  exact ((agree_run _ _ rfl _ _ hok).2 abcSource hsound).1 hmode

/-- The stream ends when the sender has written everything, and the receiver has not read the
end. -/
theorem linkBreaksLate_not_agrees : ¬ (abcRun (.receiver {} (some .closed))).Agrees := by
  intro hagrees
  have hok : (abcRun (.receiver {} (some .closed))).sender = .ended (.ok abcSent) := by
    decide +kernel
  have hover : (abcRun (.receiver {} (some .closed))).receiver.mode = .ended := by decide +kernel
  have hnone : (abcRun (.receiver {} (some .closed))).receiver.received = none := by decide +kernel
  obtain ⟨file, hfile, -⟩ := hagrees abcSent hok hover
  rw [hnone] at hfile
  simp at hfile

end

end Exchange

end ClipBridge
