import ClipBridge.Lan.SendFile

/-!
# A file transfer from end to end

The sender on one end of a healthy connection and either receiver on the other: every frame
arrives, and no call fails. Each frame is sent once and each read of the source made once, so the
nonces and the lengths of the reads are functions of the message and of the sender's state.

* `Transfer` — the two programs and what they depend on. `Healthy` — what nothing failing means.
* `hash`, `handshake`, `stream` — one run in three parts; in the last, the two loops take turns.
* `delivered_of_fair` — every fair order of turns ends as that run does.
-/

namespace ClipBridge

structure Transfer where
  key : Key
  /-- The nonces the sender draws. -/
  nonceS : LanMessage → Bytes
  /-- The nonces the receiver draws. -/
  nonceR : LanMessage → Bytes
  req : SendFileRequest
  src : SourceFile
  transferId : String
  /-- How many bytes the source may give at most, in each state of the sender. -/
  short : Sender → Nat
  /-- The receiver as it starts. -/
  receiver : TransferReceiver
  lanActive : Bool
  blobCache : String → Option Bytes

namespace Transfer

variable (t : Transfer)

def size : Nat := t.src.content.val.length

/-- The name of the source file, made safe. -/
def safeName : String :=
  match t.src.fileName with
  | some name => (sanitizeFileName name).toOption.getD ""
  | none => ""

theorem toNat_ofNat_of_le {n : Nat} (hn : n ≤ t.size) : (UInt64.ofNat n).toNat = n := by
  have hsize : t.size ≤ maxFileLen := t.src.content.property
  have hmax : maxFileLen < UInt64.size := by decide
  exact UInt64.toNat_ofNat_of_lt' (by omega)

section

variable [Aead] [Sha256]

def sendEnv (s : Sender) : SendEnv where
  send := wireSend t.key t.nonceS
  transferId := t.transferId
  short := t.short s

def receiveEnv : PeerEnv where
  send := wireSend t.key t.nonceR
  lanActive := t.lanActive
  blobCache := t.blobCache

def senderParty [LanJson] : Duplex.Party Sender UInt8 :=
  frameParty t.key t.nonceS Sender.mode (fun s => s.work t.req (t.sendEnv s) t.src)
    fun s read => s.onRead t.req (t.sendEnv s) read

def receiverParty [LanJson] : Duplex.Party TransferReceiver UInt8 :=
  frameParty t.key t.nonceR TransferReceiver.mode (TransferReceiver.work t.receiveEnv)
    (TransferReceiver.onRead t.receiveEnv)

end

/-! ## The frames of a transfer -/

def senderHello : LanMessage :=
  .hello t.req.sourceDeviceId protoVersion t.req.sourceDeviceName

section

variable [Sha256]

/-- The open file at `pos`, with the offer. -/
def out (pos : Nat) : OutgoingFile :=
  { Sender.outgoing t.req t.transferId (UInt64.ofNat t.size) t.src.modified t.safeName
      t.src.content.val with pos }

def offer : FileOffer := (t.out 0).offer

def hashing (pos : Nat) : Sender :=
  .hashing (UInt64.ofNat t.size) t.src.modified t.safeName pos (t.src.content.val.take pos)

def sending (pos : Nat) : Sender := .sending (t.out pos) (UInt64.ofNat pos)

/-- What is read of the source at `pos`, while the file is sent. -/
def chunkAt (pos : Nat) : Chunk :=
  (UInt64.ofNat pos,
    t.src.readAt pos t.req.config.boundedChunkBytes (t.short (t.sending pos)))

def chunkFrame (pos : Nat) : LanMessage :=
  .fileChunk t.transferId (t.chunkAt pos).1 (t.chunkAt pos).2

/-- The frames beside the chunks. -/
def frames : List LanMessage :=
  [t.senderHello, t.receiver.hello, .ping, .fileOffer t.offer, .fileAccept t.transferId,
    .fileComplete t.transferId]

/-- What the sender returns after `pos` bytes. -/
def sentAt (pos : Nat) : SentFile where
  transferId := t.transferId
  fileName := t.safeName
  bytesSent := UInt64.ofNat pos
  sha256Hex := sha256Hex t.src.content.val

variable [Aead] [LanJson]

/-- Nothing fails: the source can be offered, the receiver can take it, and every frame that is
sent is written and parsed. -/
structure Healthy : Prop where
  seals : Seals t.key
  nonceS : ∀ msg, (t.nonceS msg).length = nonceLen
  nonceR : ∀ msg, (t.nonceR msg).length = nonceLen
  transferId : IsUuid t.transferId
  isFile : t.src.isFile = true
  named : ∃ name, t.src.fileName = some name ∧ sanitizeFileName name = .ok t.safeName
  maxSend : t.size ≤ t.req.config.maxFileBytes.toNat
  maxReceive : t.size ≤ t.receiver.config.maxFileBytes.toNat
  starts : t.receiver.mode = .works
  target : t.req.targetDeviceId = t.receiver.deviceId
  admits : t.receiver.Admits t.req.sourceDeviceId
  /-- A name for the file is free, and so is its temporary name. -/
  free : ∃ path, uniqueDestinationPath t.receiver.dir t.safeName = .ok path ∧
    t.receiver.dir.has (partPathFor path t.transferId) = false
  fits : Fits t.senderHello ∧ Fits t.receiver.hello ∧ Fits (.fileOffer t.offer)
  readsBack : ∀ msg ∈ t.frames, ReadsBack msg
  readsBackChunk : ∀ pos, pos < t.size → ReadsBack (t.chunkFrame pos)

/-! ## What nothing failing means -/

variable {t} (h : t.Healthy)

include h

theorem Healthy.fits_of_mem {msg : LanMessage} (hmsg : msg ∈ t.frames) : Fits msg := by
  have hid : t.transferId.toList.length ≤ 36 := Nat.le_of_eq h.transferId.1
  have hlen := LanMessage.length_transferId_le hid
  have hmax : frameMax = 1048576 := rfl
  have hnonce : nonceLen = 12 := rfl
  simp only [frames, List.mem_cons, List.not_mem_nil, or_false] at hmsg
  rcases hmsg with rfl | rfl | rfl | rfl | rfl | rfl
  · exact h.fits.1
  · exact h.fits.2.1
  · decide
  · exact h.fits.2.2
  · unfold Fits; omega
  · unfold Fits; omega

theorem Healthy.carried {msg : LanMessage} (hmsg : msg ∈ t.frames) :
    Carried t.key t.nonceS msg ∧ Carried t.key t.nonceR msg :=
  ⟨carried_of_fits h.seals (h.nonceS msg) (h.fits_of_mem hmsg) (h.readsBack msg hmsg),
    carried_of_fits h.seals (h.nonceR msg) (h.fits_of_mem hmsg) (h.readsBack msg hmsg)⟩

theorem Healthy.carried_chunk {pos : Nat} (hpos : pos < t.size) :
    Carried t.key t.nonceS (t.chunkFrame pos) := by
  refine carried_of_fits h.seals (h.nonceS _) ?_ (h.readsBackChunk pos hpos)
  exact fits_fileChunk h.transferId _ SourceFile.length_readAt_le

theorem Healthy.validateOffer_ok : validateOffer t.offer t.receiver.config = .ok () := by
  obtain ⟨name, -, hname⟩ := h.named
  have hsize : UInt64.ofNat t.size ≤ t.receiver.config.maxFileBytes := by
    rw [UInt64.le_iff_toNat_le, t.toNat_ofNat_of_le (Nat.le_refl _)]
    exact h.maxReceive
  exact validateOffer_iff.2 ⟨hsize, ⟨t.safeName, sanitizeFileName_idem hname⟩,
    isValidSha256Hex_sha256Hex _, h.transferId.trim_ne_nil⟩

omit h

/-! ## Turns -/

variable (t) in
/-- The two programs, and the frames on their way. -/
def link (s : Sender) (r : TransferReceiver) (toReceiver toSender : List LanMessage) :
    Duplex.Link Sender TransferReceiver UInt8 :=
  onWire t.key t.nonceS t.nonceR s r toReceiver toSender

variable (t) in
def Reaches := Duplex.Reaches t.senderParty t.receiverParty

section

variable {s s' : Sender} {r r' : TransferReceiver} {msg : LanMessage}
  {toReceiver toSender sent : List LanMessage} {goal : Duplex.Link Sender TransferReceiver UInt8}

theorem act_sender_works (hmode : s.mode = .works)
    (hwork : s.work t.req (t.sendEnv s) t.src = (s', sent)) :
    Duplex.act t.senderParty t.receiverParty (t.link s r toReceiver toSender) .left =
      some (t.link s' r (toReceiver ++ sent) toSender) :=
  (left_works hmode).trans (by rw [hwork]; rfl)

theorem act_sender_reads (hmode : s.mode = .waits) (hmsg : Carried t.key t.nonceR msg)
    (hread : s.onRead t.req (t.sendEnv s) (.ok (some msg)) = (s', sent)) :
    Duplex.act t.senderParty t.receiverParty (t.link s r toReceiver (msg :: toSender)) .left =
      some (t.link s' r (toReceiver ++ sent) toSender) :=
  (left_reads hmode hmsg).trans (by rw [hread]; rfl)

theorem act_receiver_works (hmode : r.mode = .works) (hwork : r.work t.receiveEnv = (r', sent)) :
    Duplex.act t.senderParty t.receiverParty (t.link s r toReceiver toSender) .right =
      some (t.link s r' toReceiver (toSender ++ sent)) :=
  (right_works hmode).trans (by rw [hwork]; rfl)

theorem act_receiver_reads (hmode : r.mode = .waits) (hmsg : Carried t.key t.nonceS msg)
    (hread : r.onRead t.receiveEnv (.ok (some msg)) = (r', sent)) :
    Duplex.act t.senderParty t.receiverParty (t.link s r (msg :: toReceiver) toSender) .right =
      some (t.link s r' toReceiver (toSender ++ sent)) :=
  (right_reads hmode hmsg).trans (by rw [hread]; rfl)

theorem sender_works (hmode : s.mode = .works)
    (hwork : s.work t.req (t.sendEnv s) t.src = (s', sent))
    (hrest : t.Reaches (t.link s' r (toReceiver ++ sent) toSender) goal) :
    t.Reaches (t.link s r toReceiver toSender) goal :=
  Duplex.Reaches.head (act_sender_works hmode hwork) hrest

theorem sender_reads (hmode : s.mode = .waits) (hmsg : Carried t.key t.nonceR msg)
    (hread : s.onRead t.req (t.sendEnv s) (.ok (some msg)) = (s', sent))
    (hrest : t.Reaches (t.link s' r (toReceiver ++ sent) toSender) goal) :
    t.Reaches (t.link s r toReceiver (msg :: toSender)) goal :=
  Duplex.Reaches.head (act_sender_reads hmode hmsg hread) hrest

theorem receiver_works (hmode : r.mode = .works) (hwork : r.work t.receiveEnv = (r', sent))
    (hrest : t.Reaches (t.link s r' toReceiver (toSender ++ sent)) goal) :
    t.Reaches (t.link s r toReceiver toSender) goal :=
  Duplex.Reaches.head (act_receiver_works hmode hwork) hrest

theorem receiver_reads (hmode : r.mode = .waits) (hmsg : Carried t.key t.nonceS msg)
    (hread : r.onRead t.receiveEnv (.ok (some msg)) = (r', sent))
    (hrest : t.Reaches (t.link s r' toReceiver (toSender ++ sent)) goal) :
    t.Reaches (t.link s r (msg :: toReceiver) toSender) goal :=
  Duplex.Reaches.head (act_receiver_reads hmode hmsg hread) hrest

end

/-! ## The sender opens and hashes the file -/

section

variable {r : TransferReceiver} {toSender : List LanMessage}
  {goal : Duplex.Link Sender TransferReceiver UInt8}

include h

theorem write_frames {s next : Sender} {msg : LanMessage} (hmsg : msg ∈ t.frames) :
    Sender.write (t.sendEnv s) msg next = (next, [msg]) := by
  simp [Sender.write, sendEnv, wireSend_carried (h.carried hmsg).1]

omit [LanJson] h in
/-- The checks before the file is hashed. -/
theorem work_start (hfile : t.src.isFile = true)
    (hnamed : ∃ name, t.src.fileName = some name ∧ sanitizeFileName name = .ok t.safeName)
    (hmax : t.size ≤ t.req.config.maxFileBytes.toNat) :
    Sender.start.work t.req (t.sendEnv .start) t.src = (t.hashing 0, []) := by
  obtain ⟨name, hname, hsafe⟩ := hnamed
  have hsize : ¬ t.req.config.maxFileBytes < UInt64.ofNat t.src.content.val.length := by
    rw [UInt64.not_lt, UInt64.le_iff_toNat_le, ← size, t.toNat_ofNat_of_le (Nat.le_refl _)]
    exact hmax
  show Sender.openSource t.req t.src = _
  unfold Sender.openSource
  dsimp only
  rw [if_neg (not_not.2 hfile), if_neg hsize, hname]
  dsimp only
  rw [hsafe]
  rfl

omit [LanJson] h in
/-- One read of the hash loop: it gets further, or the file is hashed and the sender says Hello. -/
theorem work_hashing (hhello : wireSend t.key t.nonceS t.senderHello = none) {pos : Nat}
    (hpos : pos ≤ t.size) :
    (∃ pos', pos < pos' ∧ pos' ≤ t.size ∧
      (t.hashing pos).work t.req (t.sendEnv (t.hashing pos)) t.src = (t.hashing pos', [])) ∨
    (t.hashing pos).work t.req (t.sendEnv (t.hashing pos)) t.src =
      (.hello (t.out 0), [t.senderHello]) := by
  have hwork : (t.hashing pos).work t.req (t.sendEnv (t.hashing pos)) t.src =
      if t.src.readAt pos defaultChunkBytes (t.short (t.hashing pos)) = [] then
        Sender.write (t.sendEnv (t.hashing pos)) t.senderHello
          (.hello (Sender.outgoing t.req t.transferId (UInt64.ofNat t.size) t.src.modified
            t.safeName (t.src.content.val.take pos)))
      else
        (t.hashing (pos + (t.src.readAt pos defaultChunkBytes (t.short (t.hashing pos))).length),
          []) := by
    have htake := t.src.take_append_readAt pos defaultChunkBytes (t.short (t.hashing pos))
    unfold hashing at htake ⊢
    rw [← htake]
    rfl
  by_cases hend : pos < t.size
  · obtain ⟨hread, hle⟩ := SourceFile.length_readAt (t.short (t.hashing pos))
      (show defaultChunkBytes ≠ 0 by decide) hend
    rw [if_neg (List.ne_nil_of_length_pos hread)] at hwork
    exact .inl ⟨_, by omega, hle, hwork⟩
  · obtain rfl : pos = t.size := by omega
    have hdone : t.src.content.val.length ≤ t.size := Nat.le_refl _
    rw [if_pos (SourceFile.readAt_end hdone), List.take_of_length_le hdone] at hwork
    refine .inr (hwork.trans ?_)
    simp [Sender.write, sendEnv, hhello]
    rfl

/-- The induction is on what is left to read. -/
theorem hash_loop {pos : Nat} (hpos : pos ≤ t.size)
    (hrest : t.Reaches (t.link (.hello (t.out 0)) r [t.senderHello] toSender) goal) :
    t.Reaches (t.link (t.hashing pos) r [] toSender) goal := by
  have hmem : t.senderHello ∈ t.frames := by simp [frames]
  have hhello := wireSend_carried (h.carried hmem).1
  induction hn : t.size - pos using Nat.strong_induction_on generalizing pos with
  | _ n ih =>
      rcases work_hashing hhello hpos with ⟨pos', hlt, hle, hwork⟩ | hwork
      · exact sender_works rfl hwork (ih _ (by omega) hle rfl)
      · exact sender_works rfl hwork hrest

theorem hash (hrest : t.Reaches (t.link (.hello (t.out 0)) r [t.senderHello] toSender) goal) :
    t.Reaches (t.link .start r [] toSender) goal :=
  sender_works rfl (work_start h.isFile h.named h.maxSend) (hash_loop h (Nat.zero_le _) hrest)

omit [LanJson] h in
/-- The receiver's Hello is answered with the offer. -/
theorem onRead_receiverHello (htarget : t.req.targetDeviceId = t.receiver.deviceId)
    (hoffer : wireSend t.key t.nonceS (.fileOffer t.offer) = none) :
    Sender.onRead t.req (t.sendEnv (.hello (t.out 0))) (.hello (t.out 0))
      (.ok (some t.receiver.hello)) = (.offered (t.out 0), [.fileOffer t.offer]) := by
  show (if t.receiver.deviceId ≠ t.req.targetDeviceId then _ else _) = _
  rw [if_neg (not_not.2 htarget.symm)]
  show Sender.write _ (.fileOffer t.offer) _ = _
  simp [Sender.write, sendEnv, hoffer]

/-! ## The handshake -/

/-- Up to the accepted offer. -/
theorem handshake {path : String}
    (hpath : uniqueDestinationPath t.receiver.dir t.safeName = .ok path)
    (hpart : t.receiver.dir.has (partPathFor path t.transferId) = false) :
    ∃ (r : TransferReceiver) (incoming : IncomingFileWriter) (dir : Dir),
      incoming.finalPath = path ∧
      Progress t.receiver.dir t.offer [] incoming dir ∧
      t.Reaches (t.link (.hello (t.out 0)) t.receiver [t.senderHello] [])
        (t.link (t.sending 0) (r.absorb ⟨.waiting incoming, dir, []⟩).1 [] []) := by
  have hsend : ∀ msg ∈ t.frames, t.receiveEnv.send msg = none := fun msg hmsg =>
    wireSend_carried (h.carried hmsg).2
  have hmem : t.receiver.hello ∈ t.frames ∧ .ping ∈ t.frames ∧ t.senderHello ∈ t.frames ∧
      .fileOffer t.offer ∈ t.frames ∧ .fileAccept t.transferId ∈ t.frames := by simp [frames]
  obtain ⟨hhello, hping, hsender, hoffer, haccept⟩ := hmem
  obtain ⟨r₁, hwork, hwaits, hnext⟩ := TransferReceiver.handshake t.receiveEnv h.starts
    (hsend _ hhello) (hsend _ hping) rfl h.admits
  obtain ⟨r₂, side, hread, hside, hwaits', hstart⟩ := hnext protoVersion t.req.sourceDeviceName
  obtain ⟨incoming, dir, hopened, hfinal, hprogress⟩ := startReceive_ok
    ⟨t.receiver.deviceId, t.req.sourceDeviceId, t.receiver.config⟩ t.receiveEnv.toEnv t.offer
    h.target rfl h.validateOffer_ok rfl rfl hpath hpart (hsend _ haccept)
  have htake : r₂.onRead t.receiveEnv (.ok (some (.fileOffer t.offer))) =
      ((r₂.absorb ⟨.waiting incoming, dir, []⟩).1, [.fileAccept t.transferId]) := by
    rw [hstart, hopened]
    exact Prod.ext (by cases r₂ <;> rfl) TransferReceiver.absorb_sent
  have hoffers := onRead_receiverHello h.target (wireSend_carried (h.carried hoffer).1)
  have hgo : t.Reaches (t.link (.offered (t.out 0)) r₂ [.fileOffer t.offer] [])
      (t.link (t.sending 0) (r₂.absorb ⟨.waiting incoming, dir, []⟩).1 [] []) :=
    receiver_reads hwaits' (h.carried hoffer).1 htake <|
      sender_reads rfl (h.carried haccept).2 (if_pos rfl) <| Duplex.Reaches.refl _
  refine ⟨r₂, incoming, dir, hfinal, hprogress, ?_⟩
  refine receiver_works h.starts hwork <| receiver_reads hwaits (h.carried hsender).1 hread <|
    sender_reads rfl (h.carried hhello).2 hoffers ?_
  rcases hside with rfl | rfl
  · exact hgo
  · exact sender_reads rfl (h.carried hping).2 rfl hgo

/-! ## The two loops -/

/-- The sender sends what is left, and the receiver takes it. The induction is on what is left. -/
theorem stream {r : TransferReceiver} {chunks : List Chunk} {incoming : IncomingFileWriter}
    {dir : Dir} {pos : Nat} (hprogress : Progress t.receiver.dir t.offer chunks incoming dir)
    (hcontent : content chunks = t.src.content.val.take pos) (hpos : pos ≤ t.size) :
    ∃ file dir' chunks',
      t.Reaches (t.link (t.sending pos) (r.absorb ⟨.waiting incoming, dir, []⟩).1 [] [])
        (t.link (.ended (.ok (t.sentAt t.size))) (r.absorb ⟨.returned (.ok file), dir', []⟩).1 []
          []) ∧
      file.path = incoming.finalPath ∧ content chunks' = t.src.content.val ∧
      Received t.receiver.dir t.offer chunks' file dir' := by
  have hlength : (content chunks).length = pos := by
    rw [hcontent, List.length_take]
    exact Nat.min_eq_left hpos
  have hsizeBytes : t.offer.sizeBytes.toNat = t.size := t.toNat_ofNat_of_le (Nat.le_refl _)
  have hmax : t.size ≤ maxFileLen := t.src.content.property
  induction hn : t.size - pos using Nat.strong_induction_on
    generalizing pos chunks incoming dir with
  | _ n ih =>
      have hwork : (t.sending pos).work t.req (t.sendEnv (t.sending pos)) t.src =
          if (t.chunkAt pos).2 = [] then
            Sender.write (t.sendEnv (t.sending pos)) (.fileComplete t.transferId)
              (.ended (.ok (t.sentAt pos)))
          else
            Sender.write (t.sendEnv (t.sending pos)) (t.chunkFrame pos)
              (t.sending (pos + (t.chunkAt pos).2.length)) := by
        have hnext : t.sending (pos + (t.chunkAt pos).2.length) =
            .sending (t.out (pos + (t.chunkAt pos).2.length))
              (UInt64.ofNat pos + UInt64.ofNat (t.chunkAt pos).2.length) := by
          rw [sending, UInt64.ofNat_add]
        rw [hnext]
        rfl
      by_cases hend : pos < t.size
      · obtain ⟨hread, hle⟩ : 0 < (t.chunkAt pos).2.length ∧
            pos + (t.chunkAt pos).2.length ≤ t.size :=
          SourceFile.length_readAt _ (by unfold FileTransferConfig.boundedChunkBytes; omega) hend
        rw [if_neg (List.ne_nil_of_length_pos hread)] at hwork
        have hsend : Sender.write (t.sendEnv (t.sending pos)) (t.chunkFrame pos)
            (t.sending (pos + (t.chunkAt pos).2.length)) =
              (t.sending (pos + (t.chunkAt pos).2.length), [t.chunkFrame pos]) := by
          simp [Sender.write, sendEnv, wireSend_carried (h.carried_chunk hend)]
        have hoff : (t.chunkAt pos).1.toNat = (content chunks).length := by
          rw [hlength]
          exact t.toNat_ofNat_of_le hpos
        obtain ⟨incoming', dir', htake, hpath, hprogress'⟩ := hprogress.onRead_chunk
          t.receiveEnv.toEnv (c := t.chunkAt pos) rfl hoff (by omega) (by omega)
        have hcontent' : content (chunks ++ [t.chunkAt pos]) =
            t.src.content.val.take (pos + (t.chunkAt pos).2.length) := by
          rw [content_concat, hcontent]
          exact SourceFile.take_append_readAt ..
        obtain ⟨file, dir'', chunks', hreaches, hpath', hreceived⟩ := ih _ (by omega) hprogress'
          hcontent' hle (by rw [hcontent', List.length_take]; exact Nat.min_eq_left hle) rfl
        refine ⟨file, dir'', chunks', ?_, hpath'.trans hpath, hreceived⟩
        exact sender_works rfl (hwork.trans hsend) <| receiver_reads TransferReceiver.mode_waiting
          (h.carried_chunk hend) (TransferReceiver.onRead_waiting htake) hreaches
      · obtain rfl : pos = t.size := by omega
        have hdone : t.src.content.val.length ≤ t.size := Nat.le_refl _
        have hnil : (t.chunkAt t.size).2 = [] := SourceFile.readAt_end hdone
        rw [if_pos hnil, write_frames h (by simp [frames])] at hwork
        rw [List.take_of_length_le hdone] at hcontent
        obtain ⟨file, dir', hread, hpath, hreceived⟩ := hprogress.onRead_complete
          t.receiveEnv.toEnv rfl rfl (by omega) (by rw [hcontent]; rfl)
        refine ⟨file, dir', chunks, ?_, hpath, hcontent, hreceived⟩
        exact sender_works rfl hwork <| receiver_reads TransferReceiver.mode_waiting
          (h.carried (by simp [frames])).1 (TransferReceiver.onRead_waiting hread) <|
          Duplex.Reaches.refl _

end

/-! ## Every fair schedule -/

variable (t) in
/-- Both programs as they start. -/
def start : Duplex.Link Sender TransferReceiver UInt8 := t.link .start t.receiver [] []

variable (t) in
/-- The file has arrived: both programs have ended, and the source's bytes are all that is new in
the directory. -/
structure Delivered (s : Duplex.Link Sender TransferReceiver UInt8) (file : ReceivedFile) :
    Prop where
  halted : Duplex.Halted t.senderParty t.receiverParty s
  sent : s.left = .ended (.ok (t.sentAt t.size))
  received : s.right.received = some file
  transferId : file.transferId = t.transferId
  bytesSent : (t.sentAt t.size).bytesSent.toNat = t.size
  sizeBytes : file.sizeBytes.toNat = t.size
  read : s.right.dir.read file.path = some t.src.content.val
  noPart : s.right.dir.read (partPathFor file.path t.transferId) = none
  others : ∀ n, n ≠ file.path → s.right.dir.read n = t.receiver.dir.read n

/-- The run in three parts, one after the other. -/
theorem delivers (h : t.Healthy) : ∃ s file, t.Reaches t.start s ∧ t.Delivered s file := by
  obtain ⟨path, hpath, hpart⟩ := h.free
  obtain ⟨r, incoming, dir, hfinal, hprogress, hshake⟩ := handshake h hpath hpart
  obtain ⟨file, dir', chunks, hstream, hfile, hcontent, hreceived⟩ :=
    stream h (r := r) hprogress rfl (Nat.zero_le _)
  have hread := hreceived.read
  have hsize := hreceived.length
  rw [hcontent] at hread hsize
  refine ⟨_, file, hash h (hshake.trans hstream), ?_⟩
  exact {
    halted := halted_of_ended rfl TransferReceiver.mode_returned
    sent := rfl
    received := TransferReceiver.received_returned
    transferId := hreceived.fields.1
    bytesSent := t.toNat_ofNat_of_le (Nat.le_refl _)
    sizeBytes := by rw [hreceived.fields.2.2.1, ← hsize]; rfl
    read := by rw [← hread]; exact congrArg (·.read file.path) TransferReceiver.dir_returned
    noPart := by
      have hfree : t.receiver.dir.read (partPathFor file.path t.transferId) = none := by
        rw [Directory.read_eq_none, ← Directory.has_eq_false, hfile, hfinal]
        exact hpart
      rw [← hfree, ← hreceived.others _ (partPathFor_ne _ _).symm]
      exact congrArg (·.read (partPathFor file.path t.transferId)) TransferReceiver.dir_returned
    others := fun n hn => by
      rw [← hreceived.others n hn]
      exact congrArg (·.read n) TransferReceiver.dir_returned }

/-- **A transfer on a healthy link.** Whatever the order of the turns, if both programs keep getting
turns, the sender and the receiver return `Ok`, and the file that was received is the source. -/
theorem delivered_of_fair (h : t.Healthy) {sched : Nat → Duplex.Side} (hfair : Duplex.Fair sched) :
    ∃ k file, t.Delivered (Duplex.after t.senderParty t.receiverParty t.start sched k) file := by
  obtain ⟨s, file, hreaches, hdelivered⟩ := delivers h
  obtain ⟨k, hk⟩ := hreaches.settles hdelivered.halted hfair
  exact ⟨k, file, hk ▸ hdelivered⟩

end

/-! ## One transfer -/

section

/-- The three bytes of "abc", read two at a time. -/
def abc (receiver : TransferReceiver) : Transfer where
  key := zeroKey
  nonceS _ := List.replicate nonceLen 0
  nonceR _ := List.replicate nonceLen 0
  req := ⟨"laptop", "Laptop", "phone", none, {}⟩
  src := ⟨"/tmp/abc.txt", some "abc.txt", true, ⟨[97, 98, 99], Nat.le_of_ble_eq_true rfl⟩, none⟩
  transferId := "6ba7b810-9dad-41d1-80b4-00c04fd430c8"
  short _ := 2
  receiver
  lanActive := true
  blobCache _ := none

def abcPeer : TransferReceiver :=
  .runPeer ⟨"phone", "Phone", none⟩ { phase := .start, dir := .empty }

def abcReceiver : TransferReceiver :=
  .receiveFile ⟨"phone", "Phone", {}⟩ { phase := .start, dir := .empty }

local instance : Sha256 := abcSha256

local instance : Aead := tagAead

/-- The frames of both transfers. -/
local instance : LanJson :=
  tableJson ((abc abcPeer).frames ++ (List.range 3).map (abc abcPeer).chunkFrame)

def alternating (n : Nat) : Duplex.Side := if n % 2 = 0 then .left else .right

theorem fair_alternating : Duplex.Fair alternating := by
  intro side n
  cases side with
  | left => exact ⟨2 * n, by omega, by simp [alternating]⟩
  | right => exact ⟨2 * n + 1, by omega, by simp [alternating, Nat.add_mod]⟩

theorem abc_readsBack : (∀ msg ∈ (abc abcPeer).frames, ReadsBack msg) ∧
    ∀ pos, pos < 3 → ReadsBack ((abc abcPeer).chunkFrame pos) := by
  decide +kernel

theorem healthy_abc {receiver : TransferReceiver}
    (hreceiver : receiver = abcPeer ∨ receiver = abcReceiver) : (abc receiver).Healthy := by
  have hsafe : sanitizeFileName "abc.txt" = .ok (abc abcPeer).safeName := by decide +kernel
  have hpath : uniqueDestinationPath .empty (abc abcPeer).safeName = .ok "abc.txt" := by
    decide +kernel
  have hid : IsUuid (abc abcPeer).transferId := ⟨by decide +kernel, by decide +kernel⟩
  have hhello : receiver.hello = abcPeer.hello := by rcases hreceiver with rfl | rfl <;> rfl
  have hfits : Fits (abc abcPeer).senderHello ∧ Fits abcPeer.hello ∧
      Fits (.fileOffer (abc abcPeer).offer) := by decide +kernel
  exact {
    seals := seals_tagAead zeroKey
    nonceS := fun _ => rfl
    nonceR := fun _ => rfl
    transferId := hid
    isFile := rfl
    named := ⟨"abc.txt", rfl, hsafe⟩
    maxSend := show 3 ≤ defaultMaxFileBytes.toNat by decide
    maxReceive := by
      rcases hreceiver with rfl | rfl <;> exact show 3 ≤ defaultMaxFileBytes.toNat by decide
    starts := by rcases hreceiver with rfl | rfl <;> rfl
    target := by rcases hreceiver with rfl | rfl <;> rfl
    admits := by
      rcases hreceiver with rfl | rfl
      · exact ⟨rfl, by decide⟩
      · trivial
    free := ⟨"abc.txt", by rcases hreceiver with rfl | rfl <;> exact hpath,
      by rcases hreceiver with rfl | rfl <;> rfl⟩
    fits := ⟨hfits.1, hhello ▸ hfits.2.1, hfits.2.2⟩
    readsBack := by rcases hreceiver with rfl | rfl <;> exact abc_readsBack.1
    readsBackChunk := abc_readsBack.2 }

/-- A task of `run_peer` and a call of `receive_file_from_stream` both receive it. -/
theorem abc_delivered :
    (∃ k file, (abc abcPeer).Delivered (Duplex.after (abc abcPeer).senderParty
      (abc abcPeer).receiverParty (abc abcPeer).start alternating k) file) ∧
    ∃ k file, (abc abcReceiver).Delivered (Duplex.after (abc abcReceiver).senderParty
      (abc abcReceiver).receiverParty (abc abcReceiver).start alternating k) file :=
  ⟨delivered_of_fair (healthy_abc (.inl rfl)) fair_alternating,
    delivered_of_fair (healthy_abc (.inr rfl)) fair_alternating⟩

end

end Transfer

end ClipBridge
