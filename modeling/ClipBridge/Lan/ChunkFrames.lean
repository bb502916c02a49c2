import ClipBridge.Lan.FrameCodec
import ClipBridge.Lan.SendFile
import ClipBridge.Lib.Machine

/-!
# Chunks in frames

The chunk loop of `send_file_to_stream` and the loop of `serve_blob` cut what they send into pieces
of at most 512 KiB; the piece is then written in base64 in a JSON text, sealed, and put behind a
nonce.

* `Sender.nextChunk` — the message that the chunk loop builds next.
* `Sender.Chunked` — the invariant: what the sender keeps of the open file comes from its request.
* `chunkFrames_accepted` — the chunks of every run, and of every blob, are written as frames whose
  length the reader takes.
-/

namespace ClipBridge

/-- The message is written as a frame, whose length is in the reader's range. -/
def FrameAccepted [Aead] (key : Key) (nonce : Bytes) (msg : LanMessage) : Prop :=
  ∃ body, writeFrame key nonce msg = .ok (u32Bytes body.length ++ body) ∧ GoodLen body.length

theorem accepted_of_fits [Aead] {key : Key} {nonce : Bytes} {msg : LanMessage} (hseal : Seals key)
    (hnonce : nonce.length = nonceLen) (hfits : Fits msg) : FrameAccepted key nonce msg := by
  obtain ⟨cipher, -, hgood, hwrite⟩ := writeFrame_of_fits hseal hnonce hfits
  have hbody : nonceLen + cipher.length = (nonce ++ cipher).length := by
    rw [List.length_append, hnonce]
  rw [hbody, List.append_assoc] at hwrite
  exact ⟨nonce ++ cipher, hwrite, hbody ▸ hgood⟩

/-! ## A file -/

namespace Sender

/-- The chunk that the loop reads and builds a message of. -/
def nextChunk (src : SourceFile) (short : Nat) : Sender → Option LanMessage
  | .sending out offset =>
      let data := src.readAt out.pos out.chunkBytes short
      if data = [] then none else some (.fileChunk out.offer.transferId offset data)
  | _ => none

/-- A step of the sender; the source may have changed since the last one. -/
inductive Event where
  | work (env : SendEnv) (src : SourceFile)
  | read (env : SendEnv) (read : Read)

def Event.env : Event → SendEnv
  | .work env _ | .read env _ => env

/-- The chunk size is that of the request, and the transfer id is a UUID. -/
def Chunked (req : SendFileRequest) : Sender → Prop
  | .hello out | .offered out | .sending out _ =>
      out.chunkBytes = req.config.boundedChunkBytes ∧ IsUuid out.offer.transferId
  | _ => True

theorem chunked_write {req : SendFileRequest} {next : Sender} (env : SendEnv) (msg : LanMessage)
    (h : Chunked req next) : Chunked req (write env msg next).1 := by
  unfold write
  split
  · trivial
  · exact h

section

variable [Sha256]

def step (req : SendFileRequest) (s : Sender) : Event → Sender
  | .work env src => (s.work req env src).1
  | .read env read => (s.onRead req env read).1

/-- What is sent of the file is the chunk that was built. -/
theorem work_nextChunk {req : SendFileRequest} {env : SendEnv} {src : SourceFile} {s : Sender}
    {msg : LanMessage} (hfault : env.fault = none) (h : s.nextChunk src env.short = some msg) :
    ∃ next, s.work req env src = write env msg next := by
  unfold nextChunk at h
  split at h
  · rename_i out offset
    dsimp only at h
    split at h
    · cases h
    · rename_i hdata
      cases h
      unfold work
      rw [hfault]
      dsimp only
      rw [if_neg hdata]
      exact ⟨_, rfl⟩
  · cases h

theorem chunked_work {req : SendFileRequest} {env : SendEnv} (src : SourceFile) {s : Sender}
    (hid : IsUuid env.transferId) (h : Chunked req s) : Chunked req (s.work req env src).1 := by
  unfold work
  split
  · trivial
  · trivial
  · trivial
  · unfold openSource
    dsimp only
    split
    · trivial
    · split
      · trivial
      · split
        · trivial
        · split <;> trivial
  · dsimp only
    split
    · exact chunked_write env _ ⟨rfl, hid⟩
    · trivial
  · dsimp only
    split
    · exact chunked_write env _ trivial
    · exact chunked_write env _ h
  · exact h

omit [Sha256] in
theorem chunked_onRead {req : SendFileRequest} {env : SendEnv} (read : Read) {s : Sender}
    (h : Chunked req s) : Chunked req (s.onRead req env read).1 := by
  unfold onRead
  split
  any_goals trivial
  · split
    · trivial
    · exact chunked_write env _ h
  · split
    · exact h
    · trivial

theorem chunked_step {req : SendFileRequest} {s : Sender} {e : Event}
    (hid : IsUuid e.env.transferId) (h : Chunked req s) : Chunked req (s.step req e) := by
  cases e with
  | work env src => exact chunked_work src hid h
  | read env read => exact chunked_onRead read h

end

theorem fits_nextChunk {req : SendFileRequest} {src : SourceFile} {short : Nat} {s : Sender}
    {msg : LanMessage} (h : Chunked req s) (hnext : s.nextChunk src short = some msg) :
    Fits msg := by
  unfold nextChunk at hnext
  split at hnext
  · rename_i out offset
    dsimp only at hnext
    split at hnext
    · cases hnext
    · cases hnext
      obtain ⟨hchunk, hid⟩ := h
      exact fits_fileChunk hid offset (Nat.le_trans SourceFile.length_readAt_le hchunk.le)
  · cases hnext

end Sender

/-! ## A blob -/

theorem fits_blobChunk {data : Bytes} (hdata : data.length ≤ blobChunk) (last : Bool) :
    Fits (.blobChunk data last) := by
  have hlen := LanMessage.length_blobChunk_le data last
  have hbound : blobChunk = 524288 := rfl
  have hmax : frameMax = 1048576 := rfl
  have hnonce : nonceLen = 12 := rfl
  unfold Fits
  omega

theorem fits_of_mem_blobChunks (bytes : Bytes) : ∀ msg ∈ blobChunks bytes, Fits msg := by
  induction bytes using blobChunks.induct with
  | case1 bytes hlen =>
      rw [blobChunks, if_pos hlen]
      simpa using fits_blobChunk hlen true
  | case2 bytes hlen ih =>
      rw [blobChunks, if_neg hlen]
      refine List.forall_mem_cons.2 ⟨fits_blobChunk ?_ false, ih⟩
      rw [List.length_take]
      omega

/-! ## Every chunk -/

/-- **Every chunk of a file or of a blob is written as a frame whose length the reader takes.** The
file is sent with any configuration, and may change while it is sent. -/
theorem chunkFrames_accepted [Aead] [Sha256] {key : Key} (hseal : Seals key) :
    (∀ req events, (∀ e ∈ events, IsUuid (Sender.Event.env e).transferId) →
      ∀ env src msg nonce, env.fault = none → nonce.length = nonceLen →
        (Machine.run (Sender.step req) .start events).nextChunk src env.short = some msg →
        (∃ next, (Machine.run (Sender.step req) .start events).work req env src =
          Sender.write env msg next) ∧ FrameAccepted key nonce msg) ∧
    ∀ bytes, ∀ msg ∈ blobChunks bytes, ∀ nonce, nonce.length = nonceLen →
      FrameAccepted key nonce msg := by
  constructor
  · intro req events hids env src msg nonce hfault hnonce hnext
    have hstart : Sender.Chunked req .start := trivial
    have hchunked := Machine.invariant_along
      (P := fun _ e => IsUuid (Sender.Event.env e).transferId)
      (fun _ _ hid h => Sender.chunked_step hid h) hstart (Machine.along_iff_forall_mem.2 hids)
    exact ⟨Sender.work_nextChunk hfault hnext,
      accepted_of_fits hseal hnonce (Sender.fits_nextChunk hchunked hnext)⟩
  · intro bytes msg hmsg nonce hnonce
    exact accepted_of_fits hseal hnonce (fits_of_mem_blobChunks bytes msg hmsg)

/-! ## A short file, with chunks of the largest size -/

def wideRequest : SendFileRequest := ⟨"laptop", "Laptop", "phone", none, ⟨1024, 2 ^ 64 - 1⟩⟩

def uuidEnv : SendEnv := ⟨fun _ => none, "6ba7b810-9dad-41d1-80b4-00c04fd430c8", 1024, none⟩

/-- The sender up to the accepted offer. -/
def acceptedOffer : List Sender.Event :=
  [.work uuidEnv abcSource, .work uuidEnv abcSource, .work uuidEnv abcSource,
    .read uuidEnv (.ok (some (.hello "phone" 1 "Phone"))),
    .read uuidEnv (.ok (some (.fileAccept uuidEnv.transferId)))]

theorem abcChunk_accepted :
    @FrameAccepted tagAead zeroKey (List.replicate nonceLen 0)
        (.fileChunk uuidEnv.transferId 0 [97, 98, 99]) ∧
      @FrameAccepted tagAead zeroKey (List.replicate nonceLen 0) (.blobChunk [1, 2] true) := by
  have hid : IsUuid uuidEnv.transferId := ⟨by decide +kernel, by decide +kernel⟩
  have hids : ∀ e ∈ acceptedOffer, IsUuid (Sender.Event.env e).transferId := by
    simpa [acceptedOffer, Sender.Event.env] using hid
  obtain ⟨hfile, hblob⟩ := @chunkFrames_accepted tagAead abcSha256 zeroKey (seals_tagAead zeroKey)
  constructor
  · exact (hfile wideRequest acceptedOffer hids uuidEnv abcSource _ _ rfl rfl
      (by decide +kernel)).2
  · exact hblob [1, 2] _ (by rw [blobChunks]; simp [blobChunk]) _ rfl

end ClipBridge
