import ClipBridge.Lan.Frame

/-!
# Receiving an offered file

Following `receive_offered_file` in `core/src/lan.rs`: check whom the offer is from and for, accept
it, then take chunks until `FileComplete`, `FileCancel` or anything unexpected.

* `receiveOfferedFile` — the start, then `Receiving.onRead` for each result of `read_frame`.
* `Progress` — what holds while it waits: the chunks so far are in the temporary file.
* `onRead_cases` — one more chunk, or a finished file, or an error after which the directory is as
  it was.
* `receiveOfferedFile_safe` — when it returns `Ok`, and what it leaves behind.

Everything the program asks of its environment may fail: the file system (`Io`) and the writes to
the peer (`Send`), each as it answers in one turn of the loop.
-/

namespace ClipBridge

/-- How `write_frame` answers, for each message. -/
abbrev Send := LanMessage → Option LanError

structure Env where
  io : Io := {}
  send : Send := fun _ => none

structure ReceiveOfferContext where
  selfDeviceId : DeviceId
  peerDeviceId : DeviceId
  config : FileTransferConfig

/-- Waiting for the next frame, or returned. -/
inductive Receiving where
  | waiting (incoming : IncomingFileWriter)
  | returned (result : Except LanError ReceivedFile)
  deriving DecidableEq

/-- What a turn leaves: the receiver, the directory, and the frames that went to the peer. -/
structure Turn where
  receiving : Receiving
  dir : Dir
  sent : List LanMessage := []

/-- A message goes out, unless the write fails. -/
def Env.sends (env : Env) (msg : LanMessage) : List LanMessage :=
  match env.send msg with
  | some _ => []
  | none => [msg]

/-- `reject_file_offer`, and the error to return. -/
def refuse (env : Env) (dir : Dir) (transferId reason : String) (e : FileTransferError) : Turn :=
  match env.send (.fileReject transferId reason) with
  | some e' => ⟨.returned (.error e'), dir, []⟩
  | none => ⟨.returned (.error (.fileTransfer e)), dir, [.fileReject transferId reason]⟩

/-- Up to the loop. -/
def startReceive (ctx : ReceiveOfferContext) (env : Env) (dir : Dir) (offer : FileOffer) : Turn :=
  if offer.targetDeviceId ≠ ctx.selfDeviceId then
    refuse env dir offer.transferId "file offer targeted a different device"
      (.peerMismatch ctx.selfDeviceId offer.targetDeviceId)
  else if offer.sourceDeviceId ≠ ctx.peerDeviceId then
    refuse env dir offer.transferId "file offer source did not match handshake"
      (.peerMismatch ctx.peerDeviceId offer.sourceDeviceId)
  else
    match IncomingFileWriter.accept dir env.io offer ctx.config with
    | (.error e, dir) => refuse env dir offer.transferId e.message e
    | (.ok incoming, dir) =>
        match env.send (.fileAccept offer.transferId) with
        | some e => ⟨.returned (.error e), incoming.drop dir env.io, []⟩
        | none => ⟨.waiting incoming, dir, [.fileAccept offer.transferId]⟩

namespace Receiving

/-- Return an error; the writer is dropped. -/
def fail (incoming : IncomingFileWriter) (env : Env) (dir : Dir) (e : LanError) : Turn :=
  ⟨.returned (.error e), incoming.drop dir env.io, []⟩

def unexpected (incoming : IncomingFileWriter) (env : Env) (dir : Dir) (msg : LanMessage) : Turn :=
  fail incoming env dir (.fileTransfer (.unexpectedFrame msg.frameLabel))

variable [Sha256]

/-- One turn of the loop: what `read_frame` returned. -/
def onRead (incoming : IncomingFileWriter) (env : Env) (dir : Dir) : Read → Turn
  | .error e => fail incoming env dir e
  | .ok none =>
      fail incoming env dir
        (.fileTransfer (.canceled "peer closed before file transfer completed"))
  | .ok (some (.fileChunk transferId offset data)) =>
      if transferId = incoming.transferId then
        match incoming.writeChunk dir env.io offset data with
        | (.ok incoming, dir) => ⟨.waiting incoming, dir, []⟩
        | (.error e, dir) =>
            ⟨.returned (.error (.fileTransfer e)), incoming.drop dir env.io,
              env.sends (.fileCancel transferId e.message)⟩
      else unexpected incoming env dir (.fileChunk transferId offset data)
  | .ok (some (.fileComplete transferId)) =>
      if transferId = incoming.transferId then
        match incoming.finish dir env.io with
        | (.ok file, dir) => ⟨.returned (.ok file), dir, []⟩
        | (.error e, dir) => ⟨.returned (.error (.fileTransfer e)), dir, []⟩
      else unexpected incoming env dir (.fileComplete transferId)
  | .ok (some (.fileCancel _ reason)) =>
      fail incoming env dir (.fileTransfer (.canceled reason))
  | .ok (some msg) => unexpected incoming env dir msg

end Receiving

/-- The loop, over the turns that come: what each `read_frame` returns, and how the environment
answers in that turn. Once it has returned, the rest is not read. -/
def receiveLoop [Sha256] : Receiving → Dir → List (Env × Read) → Receiving × Dir
  | .waiting incoming, dir, (env, read) :: turns =>
      let turn := Receiving.onRead incoming env dir read
      receiveLoop turn.receiving turn.dir turns
  | receiving, dir, _ => (receiving, dir)

def receiveOfferedFile [Sha256] (ctx : ReceiveOfferContext) (env : Env) (dir : Dir)
    (offer : FileOffer) (turns : List (Env × Read)) : Receiving × Dir :=
  let turn := startReceive ctx env dir offer
  receiveLoop turn.receiving turn.dir turns

/-! ## Chunks -/

/-- A chunk: its offset and its data. -/
abbrev Chunk := UInt64 × Bytes

def Chunk.frame (transferId : String) (c : Chunk) : Read :=
  .ok (some (.fileChunk transferId c.1 c.2))

/-- The chunks' data, one after the other. -/
def content (chunks : List Chunk) : Bytes := chunks.flatMap (·.2)

/-- Each chunk starts where the chunks before it end. -/
def Contiguous : Nat → List Chunk → Prop
  | _, [] => True
  | n, c :: chunks => c.1.toNat = n ∧ Contiguous (n + c.2.length) chunks

theorem contiguous_append {n : Nat} {chunks more : List Chunk} :
    Contiguous n (chunks ++ more) ↔
      Contiguous n chunks ∧ Contiguous (n + (content chunks).length) more := by
  induction chunks generalizing n with
  | nil => simp [Contiguous, content]
  | cons d chunks ih =>
      rw [List.cons_append, Contiguous, ih, Contiguous, and_assoc]
      simp [content, Nat.add_assoc]

theorem contiguous_concat {n : Nat} {chunks : List Chunk} {c : Chunk} :
    Contiguous n (chunks ++ [c]) ↔
      Contiguous n chunks ∧ c.1.toNat = n + (content chunks).length := by
  rw [contiguous_append]
  simp [Contiguous]

theorem content_concat (chunks : List Chunk) (c : Chunk) :
    content (chunks ++ [c]) = content chunks ++ c.2 := by
  simp [content]

/-! ## While it waits -/

/-- The chunks taken so far are in the temporary file, everything else in the directory is as it
was, and the final name was free. -/
structure Progress (dir₀ : Dir) (offer : FileOffer) (chunks : List Chunk)
    (incoming : IncomingFileWriter) (dir : Dir) : Prop where
  same : incoming.offer = offer
  part : incoming.partPath = partPathFor incoming.finalPath offer.transferId
  unfinished : incoming.finished = false
  file : ∃ i, incoming.file = some i ∧ dir.Sole i incoming.partPath ∧
    dir.files i = content chunks
  contiguous : Contiguous 0 chunks
  hasher : incoming.hasher = content chunks
  written : incoming.written.toNat = (content chunks).length
  length : (content chunks).length ≤ maxFileLen
  free : dir₀.has incoming.finalPath = false
  partFree : dir₀.has incoming.partPath = false
  others : ∀ n, n ≠ incoming.partPath → dir.read n = dir₀.read n

/-- The file was received: the names other than its path are as they were. -/
structure Received [Sha256] (dir₀ : Dir) (offer : FileOffer) (chunks : List Chunk)
    (file : ReceivedFile) (dir : Dir) : Prop where
  contiguous : Contiguous 0 chunks
  length : (content chunks).length = offer.sizeBytes.toNat
  hash : sha256Hex (content chunks) = offer.sha256Hex
  fields : file.transferId = offer.transferId ∧ file.fileName = offer.fileName ∧
    file.sizeBytes = offer.sizeBytes ∧ file.sha256Hex = offer.sha256Hex
  free : dir₀.has file.path = false
  read : dir.read file.path = some (content chunks)
  others : ∀ n, n ≠ file.path → dir.read n = dir₀.read n

/-- Every name stands for what it stood for. -/
def Restored (dir₀ dir : Dir) : Prop := ∀ n, dir.read n = dir₀.read n

/-- What a turn can come to: the error is returned, with the directory as it was where the
temporary file could be removed. -/
def Failed (dir₀ : Dir) (env : Env) (turn : Turn) : Prop :=
  (∃ e, turn.receiving = .returned (.error e)) ∧ (env.io.remove = none → Restored dir₀ turn.dir)

section

variable {dir₀ dir : Dir} {offer : FileOffer} {chunks : List Chunk} {incoming : IncomingFileWriter}
  {env : Env}

/-- Dropping the writer takes the temporary file away. -/
theorem restored_drop (hunfinished : incoming.finished = false) (hio : env.io.remove = none)
    {i : Nat} (hsole : dir.Sole i incoming.partPath) (hfree : dir₀.has incoming.partPath = false)
    (hothers : ∀ n, n ≠ incoming.partPath → dir.read n = dir₀.read n) :
    Restored dir₀ (incoming.drop dir env.io) := by
  obtain ⟨dir', hdir⟩ := Directory.remove_isSome hsole.entries
  have hdrop : incoming.drop dir env.io = dir' := by
    simp [IncomingFileWriter.drop, hunfinished, hio, hdir]
  intro n
  rw [hdrop]
  by_cases hn : n = incoming.partPath
  · rw [hn, Directory.read_remove hdir, eq_comm, Directory.read_eq_none]
    exact Directory.has_eq_false.1 hfree
  · rw [Directory.read_remove_of_ne hdir hn, hothers n hn]

theorem Progress.failed (h : Progress dir₀ offer chunks incoming dir) (e : LanError) :
    Failed dir₀ env (Receiving.fail incoming env dir e) := by
  obtain ⟨i, -, hsole, -⟩ := h.file
  exact ⟨⟨e, rfl⟩, fun hio => restored_drop h.unfinished hio hsole h.partFree h.others⟩

/-- A new writer has an empty temporary file beside everything that was there. -/
theorem progress_opened {finalPath : String} {i : Nat}
    (hnew : dir₀.createNew (partPathFor finalPath offer.transferId) = some (i, dir))
    (hfree : dir₀.has finalPath = false) :
    Progress dir₀ offer [] (IncomingFileWriter.opened offer finalPath i) dir where
  same := rfl
  part := rfl
  unfinished := rfl
  file := ⟨i, rfl, Directory.createNew_sole hnew, Directory.createNew_files hnew⟩
  contiguous := trivial
  hasher := rfl
  written := rfl
  length := Nat.zero_le _
  free := hfree
  partFree := (Directory.createNew_some hnew).1
  others := fun _ hn => Directory.createNew_read_of_ne hnew hn

theorem toNat_saturatingAdd {a : UInt64} {n : Nat} (h : a.toNat + n ≤ maxFileLen) :
    (saturatingAdd a n).toNat = a.toNat + n := by
  have hmax : maxFileLen < UInt64.size - 1 := by decide
  have hsize : UInt64.size = 2 ^ 64 := rfl
  rw [saturatingAdd, Nat.min_eq_left (by omega), UInt64.toNat_ofNat_of_lt' (by omega)]

theorem saturatingAdd_le {a b : UInt64} {n : Nat} (h : a.toNat + n ≤ b.toNat) :
    saturatingAdd a n ≤ b := by
  have hb := b.toNat_lt
  have hsize : UInt64.size = 2 ^ 64 := rfl
  rw [UInt64.le_iff_toNat_le, saturatingAdd, Nat.min_eq_left (by omega),
    UInt64.toNat_ofNat_of_lt' (by omega)]
  exact h

theorem writeAll_ok {io : Io} {i : Nat} {data : Bytes} (hio : io.write = none)
    (hlen : (dir.files i).length + data.length ≤ maxFileLen) :
    writeAll dir io i data = (.ok (), dir.append i data) := by
  unfold writeAll writeOut
  by_cases hd : data = []
  · simp [hd]
  · simp [hd, hio, hlen]

/-- A chunk is taken, or refused, or its write fails. -/
theorem Progress.writeChunk (h : Progress dir₀ offer chunks incoming dir) (env : Env)
    (c : Chunk) :
    (∃ incoming' dir', incoming.writeChunk dir env.io c.1 c.2 = (.ok incoming', dir') ∧
        Progress dir₀ offer (chunks ++ [c]) incoming' dir') ∨
      ∃ e dir', incoming.writeChunk dir env.io c.1 c.2 = (.error e, dir') ∧
        (env.io.remove = none → Restored dir₀ (incoming.drop dir' env.io)) := by
  obtain ⟨i, hi, hsole, hbytes⟩ := h.file
  have hrestored : ∀ bytes, env.io.remove = none →
      Restored dir₀ (incoming.drop (dir.append i bytes) env.io) := fun bytes hio =>
    restored_drop h.unfinished hio
      (show (dir.append i bytes).Sole i incoming.partPath from hsole.append) h.partFree
      fun n hn => by rw [Directory.read_append_of_ne hsole hn, h.others n hn]
  rcases incoming.writeChunk_cases dir env.io c.1 c.2 with
    ⟨e, he⟩ | ⟨j, hj, hoff, hsize, ⟨he, hlen⟩ | ⟨e, bytes, he, -⟩⟩
  · exact .inr ⟨e, dir, he, fun hio => restored_drop h.unfinished hio hsole h.partFree h.others⟩
  · obtain rfl : i = j := Option.some.inj (hi.symm.trans hj)
    have hfits : (content chunks).length + c.2.length ≤ maxFileLen := by
      rcases hlen with hlen | hlen
      · rw [hlen]; exact h.length
      · rwa [hbytes] at hlen
    refine .inl ⟨_, _, he, ?_⟩
    exact {
      same := h.same
      part := h.part
      unfinished := h.unfinished
      file := ⟨i, hi, hsole.append, by rw [Directory.append_files, hbytes, content_concat]⟩
      contiguous := contiguous_concat.2 ⟨h.contiguous, by rw [hoff, h.written, Nat.zero_add]⟩
      hasher := by rw [content_concat, ← h.hasher]
      written := by
        rw [toNat_saturatingAdd (by rw [h.written]; exact hfits), h.written, content_concat,
          List.length_append]
      length := by rwa [content_concat, List.length_append]
      free := h.free
      partFree := h.partFree
      others := fun n hn => by rw [Directory.read_append_of_ne hsole hn, h.others n hn] }
  · obtain rfl : i = j := Option.some.inj (hi.symm.trans hj)
    exact .inr ⟨e, _, he, hrestored bytes⟩

/-- The next chunk is written, if it stays within the offered size. -/
theorem Progress.writeChunk_ok (h : Progress dir₀ offer chunks incoming dir) (env : Env) {c : Chunk}
    (hio : env.io.write = none) (hoff : c.1.toNat = (content chunks).length)
    (hsize : (content chunks).length + c.2.length ≤ offer.sizeBytes.toNat)
    (hlen : (content chunks).length + c.2.length ≤ maxFileLen) :
    ∃ incoming' dir', incoming.writeChunk dir env.io c.1 c.2 = (.ok incoming', dir') ∧
      incoming'.finalPath = incoming.finalPath ∧
      Progress dir₀ offer (chunks ++ [c]) incoming' dir' := by
  obtain ⟨i, hi, hsole, hbytes⟩ := h.file
  have hoff' : c.1 = incoming.written := UInt64.toNat_inj.1 (hoff.trans h.written.symm)
  have hsize' : ¬ incoming.offer.sizeBytes < saturatingAdd incoming.written c.2.length := by
    rw [UInt64.not_lt]
    exact saturatingAdd_le (by rw [h.written, h.same]; exact hsize)
  have hwrite : incoming.writeChunk dir env.io c.1 c.2 = (.ok { incoming with
      hasher := incoming.hasher ++ c.2
      written := saturatingAdd incoming.written c.2.length }, dir.append i c.2) := by
    unfold IncomingFileWriter.writeChunk
    rw [if_neg (not_not.2 hoff')]
    dsimp only
    rw [if_neg hsize', hi]
    dsimp only
    rw [writeAll_ok hio (by rw [hbytes]; exact hlen)]
  rcases h.writeChunk env c with ⟨incoming', dir', he, hp⟩ | ⟨e, dir', he, -⟩
  · refine ⟨incoming', dir', he, ?_, hp⟩
    rw [hwrite] at he
    obtain ⟨rfl, -⟩ := Prod.mk.inj he |>.imp_left Except.ok.inj
    rfl
  · rw [hwrite] at he
    simp at he

variable [Sha256]

/-- The file is complete and right, or it is taken away. -/
theorem Progress.finish (h : Progress dir₀ offer chunks incoming dir) (env : Env) :
    (∃ file dir', incoming.finish dir env.io = (.ok file, dir') ∧
        Received dir₀ offer chunks file dir') ∨
      ∃ e dir', incoming.finish dir env.io = (.error e, dir') ∧
        (env.io.remove = none → Restored dir₀ dir') := by
  obtain ⟨i, hi, hsole, hbytes⟩ := h.file
  unfold IncomingFileWriter.finish
  rcases incoming.tryFinish_cases dir env.io with ⟨e, he⟩ | ⟨dir', hcheck, -, hdir, he⟩
  · rw [he]
    exact .inr ⟨e, _, rfl, fun hio =>
      restored_drop h.unfinished hio hsole h.partFree h.others⟩
  · rw [he]
    obtain ⟨hsize, hhash⟩ := IncomingFileWriter.check_ok hcheck
    have hne : incoming.finalPath ≠ incoming.partPath := h.part ▸ partPathFor_ne _ _
    refine .inl ⟨incoming.received, dir', by simp [IncomingFileWriter.drop], ?_⟩
    exact {
      contiguous := h.contiguous
      length := by rw [← h.written, hsize, h.same]
      hash := by rw [← h.hasher, hhash, h.same]
      fields := by simp [IncomingFileWriter.received, hsize, h.same]
      free := h.free
      read := by
        rw [show incoming.received.path = incoming.finalPath from rfl, Directory.read_rename hdir,
          hsole.read, hbytes]
      others := fun n hn => by
        by_cases hpart : n = incoming.partPath
        · rw [hpart, Directory.read_rename_src hdir hne.symm, eq_comm, Directory.read_eq_none]
          exact Directory.has_eq_false.1 h.partFree
        · rw [Directory.read_rename_of_ne hdir hpart hn, h.others n hpart] }

/-- **What a turn of the loop can come to**: one more chunk, the finished file, or an error. -/
theorem onRead_cases (h : Progress dir₀ offer chunks incoming dir) (env : Env) (read : Read) :
    (∃ c incoming' dir', read = Chunk.frame offer.transferId c ∧
        Receiving.onRead incoming env dir read = ⟨.waiting incoming', dir', []⟩ ∧
        Progress dir₀ offer (chunks ++ [c]) incoming' dir') ∨
      (∃ file dir', read = .ok (some (.fileComplete offer.transferId)) ∧
        Receiving.onRead incoming env dir read = ⟨.returned (.ok file), dir', []⟩ ∧
        Received dir₀ offer chunks file dir') ∨
      Failed dir₀ env (Receiving.onRead incoming env dir read) := by
  have hid : incoming.transferId = offer.transferId := by
    rw [IncomingFileWriter.transferId, h.same]
  rcases read with e | _ | msg
  · exact .inr (.inr (h.failed e))
  · exact .inr (.inr (h.failed _))
  · cases msg with
    | fileChunk transferId offset data =>
        simp only [Receiving.onRead, hid]
        by_cases ht : transferId = offer.transferId
        · rw [if_pos ht]
          rcases h.writeChunk env (offset, data) with
            ⟨incoming', dir', he, hp⟩ | ⟨e, dir', he, hr⟩
          · exact .inl ⟨(offset, data), incoming', dir', by rw [ht]; rfl, by rw [he], hp⟩
          · rw [he]
            exact .inr (.inr ⟨⟨_, rfl⟩, hr⟩)
        · rw [if_neg ht]
          exact .inr (.inr (h.failed _))
    | fileComplete transferId =>
        simp only [Receiving.onRead, hid]
        by_cases ht : transferId = offer.transferId
        · rw [if_pos ht]
          rcases h.finish env with ⟨file, dir', he, hreceived⟩ | ⟨e, dir', he, hr⟩
          · exact .inr (.inl ⟨file, dir', by rw [ht], by rw [he], hreceived⟩)
          · rw [he]
            exact .inr (.inr ⟨⟨_, rfl⟩, hr⟩)
        · rw [if_neg ht]
          exact .inr (.inr (h.failed _))
    | fileCancel transferId reason => exact .inr (.inr (h.failed _))
    | _ => exact .inr (.inr (h.failed _))

/-! ## When nothing fails -/

/-- The next chunk is taken. -/
theorem Progress.onRead_chunk (h : Progress dir₀ offer chunks incoming dir) (env : Env) {c : Chunk}
    (hio : env.io.write = none) (hoff : c.1.toNat = (content chunks).length)
    (hsize : (content chunks).length + c.2.length ≤ offer.sizeBytes.toNat)
    (hlen : (content chunks).length + c.2.length ≤ maxFileLen) :
    ∃ incoming' dir', Receiving.onRead incoming env dir (Chunk.frame offer.transferId c) =
        ⟨.waiting incoming', dir', []⟩ ∧ incoming'.finalPath = incoming.finalPath ∧
      Progress dir₀ offer (chunks ++ [c]) incoming' dir' := by
  have hid : offer.transferId = incoming.transferId := by
    rw [IncomingFileWriter.transferId, h.same]
  obtain ⟨incoming', dir', he, hpath, hp⟩ := h.writeChunk_ok env hio hoff hsize hlen
  refine ⟨incoming', dir', ?_, hpath, hp⟩
  simp only [Chunk.frame, Receiving.onRead, if_pos hid, he]

/-- The file is finished, if it has the offered size and hash. -/
theorem Progress.finish_ok (h : Progress dir₀ offer chunks incoming dir) (env : Env)
    (hsync : env.io.sync = none) (hrename : env.io.rename = none)
    (hsize : (content chunks).length = offer.sizeBytes.toNat)
    (hhash : sha256Hex (content chunks) = offer.sha256Hex) :
    ∃ file dir', incoming.finish dir env.io = (.ok file, dir') ∧
      file.path = incoming.finalPath ∧ Received dir₀ offer chunks file dir' := by
  obtain ⟨i, -, hsole, -⟩ := h.file
  obtain ⟨dir', hdir⟩ := Directory.rename_isSome incoming.finalPath hsole.entries
  have hcheck : incoming.check env.io = .ok () := by
    have hwritten : incoming.written = incoming.offer.sizeBytes :=
      UInt64.toNat_inj.1 (by rw [h.written, hsize, h.same])
    unfold IncomingFileWriter.check
    rw [if_neg (not_not.2 hwritten), hsync]
    dsimp only
    rw [if_neg (by rw [h.hasher, h.same, hhash]; exact not_not.2 rfl)]
  have hfinish : incoming.finish dir env.io = (.ok incoming.received, dir') := by
    unfold IncomingFileWriter.finish
    rw [IncomingFileWriter.tryFinish_ok hcheck hrename hdir]
    rfl
  rcases h.finish env with ⟨file, dir'', he, hr⟩ | ⟨e, dir'', he, -⟩
  · refine ⟨file, dir'', he, ?_, hr⟩
    rw [hfinish] at he
    obtain ⟨rfl, -⟩ := Prod.mk.inj he |>.imp_left Except.ok.inj
    rfl
  · rw [hfinish] at he
    simp at he

/-- The file is returned. -/
theorem Progress.onRead_complete (h : Progress dir₀ offer chunks incoming dir) (env : Env)
    (hsync : env.io.sync = none) (hrename : env.io.rename = none)
    (hsize : (content chunks).length = offer.sizeBytes.toNat)
    (hhash : sha256Hex (content chunks) = offer.sha256Hex) :
    ∃ file dir', Receiving.onRead incoming env dir
        (.ok (some (.fileComplete offer.transferId))) = ⟨.returned (.ok file), dir', []⟩ ∧
      file.path = incoming.finalPath ∧ Received dir₀ offer chunks file dir' := by
  have hid : offer.transferId = incoming.transferId := by
    rw [IncomingFileWriter.transferId, h.same]
  obtain ⟨file, dir', he, hpath, hr⟩ := h.finish_ok env hsync hrename hsize hhash
  refine ⟨file, dir', ?_, hpath, hr⟩
  simp only [Receiving.onRead, if_pos hid, he]

theorem receiveLoop_returned (result : Except LanError ReceivedFile) (dir : Dir)
    (turns : List (Env × Read)) :
    receiveLoop (.returned result) dir turns = (.returned result, dir) := by
  cases turns <;> rfl

/-- What the loop can come to, from the chunks taken so far. -/
theorem receiveLoop_cases (turns : List (Env × Read))
    (h : Progress dir₀ offer chunks incoming dir) :
    let r := receiveLoop (.waiting incoming) dir turns
    (∃ incoming', r.1 = .waiting incoming') ∨
      (∃ file more rest, r.1 = .returned (.ok file) ∧
        turns.map (·.2) = more.map (Chunk.frame offer.transferId) ++
          .ok (some (.fileComplete offer.transferId)) :: rest ∧
        Received dir₀ offer (chunks ++ more) file r.2) ∨
      (∃ e, r.1 = .returned (.error e)) ∧
        ((∀ turn ∈ turns, turn.1.io.remove = none) → Restored dir₀ r.2) := by
  induction turns generalizing chunks incoming dir with
  | nil => exact .inl ⟨incoming, rfl⟩
  | cons turn turns ih =>
      obtain ⟨env, read⟩ := turn
      simp only [receiveLoop]
      rcases onRead_cases h env read with
        ⟨c, incoming', dir', hread, he, hp⟩ | ⟨file, dir', hread, he, hr⟩ | ⟨⟨e, he⟩, hr⟩
      · rw [he]
        rcases ih hp with hwait | ⟨file, more, rest, hok, hturns, hr⟩ | ⟨herr, hr⟩
        · exact .inl hwait
        · refine .inr (.inl ⟨file, c :: more, rest, hok, ?_, by simpa using hr⟩)
          rw [List.map_cons, hturns, List.map_cons, List.cons_append, ← hread]
        · exact .inr (.inr ⟨herr, fun hio => hr fun t ht => hio t (List.mem_cons_of_mem _ ht)⟩)
      · rw [he, receiveLoop_returned]
        refine .inr (.inl ⟨file, [], turns.map (·.2), rfl, ?_, by simpa using hr⟩)
        rw [List.map_cons, hread, List.map_nil, List.nil_append]
      · rw [he, receiveLoop_returned]
        exact .inr (.inr ⟨⟨e, rfl⟩, fun hio => hr (hio (env, read) List.mem_cons_self)⟩)

end

section

variable {dir : Dir} {ctx : ReceiveOfferContext} {env : Env} {offer : FileOffer}

theorem failed_refuse (transferId reason : String) (e : FileTransferError) :
    Failed dir env (refuse env dir transferId reason e) := by
  unfold refuse
  split <;> exact ⟨⟨_, rfl⟩, fun _ _ => rfl⟩

/-- The offer is accepted, or refused with the directory as it was. -/
theorem startReceive_cases (ctx : ReceiveOfferContext) (env : Env) (dir : Dir)
    (offer : FileOffer) :
    (∃ incoming dir', startReceive ctx env dir offer =
        ⟨.waiting incoming, dir', [.fileAccept offer.transferId]⟩ ∧
        offer.targetDeviceId = ctx.selfDeviceId ∧ offer.sourceDeviceId = ctx.peerDeviceId ∧
        validateOffer offer ctx.config = .ok () ∧ Progress dir offer [] incoming dir') ∨
      Failed dir env (startReceive ctx env dir offer) := by
  unfold startReceive
  split
  · exact .inr (failed_refuse ..)
  · rename_i htarget
    split
    · exact .inr (failed_refuse ..)
    · rename_i hsource
      rcases IncomingFileWriter.accept_cases dir env.io offer ctx.config with
        ⟨e, he⟩ | ⟨finalPath, i, dir', hvalid, hpath, hnew, he⟩
      · rw [he]
        exact .inr (failed_refuse ..)
      · rw [he]
        have hprogress := progress_opened hnew (uniqueDestinationPath_free hpath)
        dsimp only
        split
        · exact .inr (hprogress.failed _)
        · exact .inl ⟨_, dir', rfl, by simpa using htarget, by simpa using hsource, hvalid,
            hprogress⟩

/-- The offer is accepted, if it is valid and the names it needs are free. -/
theorem startReceive_ok (ctx : ReceiveOfferContext) (env : Env) (offer : FileOffer) {path : String}
    (htarget : offer.targetDeviceId = ctx.selfDeviceId)
    (hsource : offer.sourceDeviceId = ctx.peerDeviceId)
    (hvalid : validateOffer offer ctx.config = .ok ())
    (hdir : env.io.createDir = none) (hcreate : env.io.create = none)
    (hpath : uniqueDestinationPath dir offer.fileName = .ok path)
    (hpart : dir.has (partPathFor path offer.transferId) = false)
    (hsend : env.send (.fileAccept offer.transferId) = none) :
    ∃ incoming dir', startReceive ctx env dir offer =
        ⟨.waiting incoming, dir', [.fileAccept offer.transferId]⟩ ∧ incoming.finalPath = path ∧
      Progress dir offer [] incoming dir' := by
  obtain ⟨i, dir', hnew⟩ := Directory.createNew_isSome hpart
  have haccept : IncomingFileWriter.accept dir env.io offer ctx.config =
      (.ok (IncomingFileWriter.opened offer path i), dir') := by
    unfold IncomingFileWriter.accept
    rw [hvalid, hdir, hpath]
    dsimp only
    simp only [IncomingFileWriter.openPart, hcreate, hnew, IncomingFileWriter.opened]
  refine ⟨_, dir', ?_, rfl, progress_opened hnew (uniqueDestinationPath_free hpath)⟩
  unfold startReceive
  rw [if_neg (not_not.2 htarget), if_neg (not_not.2 hsource), haccept]
  dsimp only
  rw [hsend]

/-- **What `receive_offered_file` promises.** It returns `Ok` only if the offer is for this device
and from the peer, and the frames were contiguous chunks of the offered size and hash and then
`FileComplete`; then the file holds the chunks. When it returns `Err`, nothing has changed in the
directory, where a file can be removed. -/
theorem receiveOfferedFile_safe [Sha256] (ctx : ReceiveOfferContext) (env : Env) (dir : Dir)
    (offer : FileOffer) (turns : List (Env × Read)) :
    let r := receiveOfferedFile ctx env dir offer turns
    (∀ file, r.1 = .returned (.ok file) →
      offer.targetDeviceId = ctx.selfDeviceId ∧ offer.sourceDeviceId = ctx.peerDeviceId ∧
        offer.sizeBytes ≤ ctx.config.maxFileBytes ∧
        ∃ chunks rest, turns.map (·.2) = chunks.map (Chunk.frame offer.transferId) ++
            .ok (some (.fileComplete offer.transferId)) :: rest ∧
          Received dir offer chunks file r.2) ∧
      ∀ e, r.1 = .returned (.error e) → env.io.remove = none →
        (∀ turn ∈ turns, turn.1.io.remove = none) → Restored dir r.2 := by
  unfold receiveOfferedFile
  dsimp only
  rcases startReceive_cases ctx env dir offer with
    ⟨incoming, dir', hstart, htarget, hsource, hvalid, hp⟩ | ⟨⟨e, he⟩, hr⟩
  · rw [hstart]
    rcases receiveLoop_cases turns hp with ⟨w, hw⟩ | ⟨file, chunks, rest, hok, hturns, hr⟩ |
      ⟨⟨e, he⟩, hr⟩
    · constructor
      · intro file hfile
        simp [hw] at hfile
      · intro e he
        simp [hw] at he
    · constructor
      · intro file' hfile
        rw [hok] at hfile
        simp only [Receiving.returned.injEq, Except.ok.injEq] at hfile
        subst hfile
        exact ⟨htarget, hsource, (validateOffer_iff.1 hvalid).1, chunks, rest, hturns, hr⟩
      · intro e he
        simp [hok] at he
    · constructor
      · intro file hfile
        simp [he] at hfile
      · exact fun _ _ _ hio => hr hio
  · rw [he, receiveLoop_returned]
    constructor
    · intro file hfile
      simp at hfile
    · exact fun _ _ hio _ => hr hio

/-! ## One offer -/

section

local instance : Sha256 := abcSha256

def abcOffer : FileOffer :=
  ⟨"t1", "laptop", "phone", "abc.txt", 3, none, none, sha256Hex [97, 98, 99]⟩

def abcFile : ReceivedFile := ⟨"t1", "abc.txt", "abc.txt", 3, sha256Hex [97, 98, 99]⟩

/-- Two chunks, and then `FileComplete` or the end of the stream. -/
def abcTurns (complete : Bool) : List (Env × Read) :=
  [({}, .ok (some (.fileChunk "t1" 0 [97, 98]))), ({}, .ok (some (.fileChunk "t1" 2 [99]))),
    ({}, .ok (if complete then some (.fileComplete "t1") else none))]

def abcReceive (complete : Bool) : Receiving × Dir :=
  receiveOfferedFile ⟨"phone", "laptop", {}⟩ {} .empty abcOffer (abcTurns complete)

/-- The whole file is received, and of a part of it nothing is left. -/
theorem abc_received :
    (∃ chunks, Received .empty abcOffer chunks abcFile (abcReceive true).2) ∧
      Restored .empty (abcReceive false).2 := by
  have hok : (abcReceive true).1 = .returned (.ok abcFile) := by decide +kernel
  have herror : (abcReceive false).1 = .returned (.error
      (.fileTransfer (.canceled "peer closed before file transfer completed"))) := by
    decide +kernel
  constructor
  · obtain ⟨-, -, -, chunks, -, -, hreceived⟩ := (receiveOfferedFile_safe ⟨"phone", "laptop", {}⟩ {}
      .empty abcOffer (abcTurns true)).1 abcFile hok
    exact ⟨chunks, hreceived⟩
  · exact (receiveOfferedFile_safe ⟨"phone", "laptop", {}⟩ {} .empty abcOffer
      (abcTurns false)).2 _ herror rfl (by decide)

end

end

end ClipBridge
