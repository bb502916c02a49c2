import ClipBridge.Lan.Frame

/-!
# Many frames on one stream

Calls of `write_frame` and of `read_frame` in `core/src/lan.rs`, one after the other, on the same
stream.

* `writeFrames`, `readFrames` — the calls in a row.
* `wireFrame_of_writeFrame` — whatever `write_frame` accepts is a frame that reads back.
* `writeFrame_iff_fits` — it accepts a message exactly if it fits.
* `frames_roundTrip` — what was written is read, and nothing after it; the writer keeps to the
  reader's limits, and the reader stops at a length outside them.
-/

namespace ClipBridge

/-- A call of `write_frame`, with the nonce that it draws. -/
structure WriteCall where
  nonce : { bytes : Bytes // bytes.length = nonceLen }
  msg : LanMessage

/-- A length that is out of range ends a call at once, whether or not anything follows it. -/
theorem readFrame_of_not_goodLen [Aead] [LanJson] {key : Key} {header : Bytes}
    (hheader : header.length = 4) (hlen : ¬ GoodLen (u32Value header)) (rest : Bytes)
    (closed : Bool) :
    readFrame key (header ++ rest) closed = some (.error sizeOutOfRange, rest) := by
  unfold readFrame
  rw [if_neg (by rw [List.length_append]; omega), List.take_left' hheader, List.drop_left' hheader]
  exact if_pos hlen

section

variable [Aead]

/-- The cipher opens what it has sealed, which is longer than the text by a tag of 16 bytes. -/
def Opens (key : Key) : Prop :=
  ∀ nonce plain cipher : Bytes, nonce.length = nonceLen →
    Aead.encrypt key nonce plain = some cipher →
    cipher.length = plain.length + 16 ∧ Aead.decrypt key nonce cipher = some plain

/-- One call after the other, until one fails. -/
def writeFrames (key : Key) : List WriteCall → Except LanError Bytes
  | [] => .ok []
  | c :: calls => do
      let frame ← writeFrame key c.nonce c.msg
      let frames ← writeFrames key calls
      return frame ++ frames

variable [LanJson]

/-- `n` calls in a row, with what is left of the stream; `none` if one of them still waits. -/
def readFrames (key : Key) (closed : Bool) : Nat → Bytes → Option (List Read × Bytes)
  | 0, stream => some ([], stream)
  | n + 1, stream => do
      let (read, rest) ← readFrame key stream closed
      let (reads, left) ← readFrames key closed n rest
      return (read :: reads, left)

variable {key : Key} {nonce bytes : Bytes} {msg : LanMessage}

omit [LanJson] in
/-- All that a call of `write_frame` writes. -/
theorem writeFrame_eq_ok (h : writeFrame key nonce msg = .ok bytes) :
    ∃ cipher, Aead.encrypt key nonce msg.toVec = some cipher ∧
      nonceLen + cipher.length ≤ frameMax ∧
      bytes = u32Bytes (nonceLen + cipher.length) ++ nonce ++ cipher := by
  unfold writeFrame encrypt at h
  cases henc : Aead.encrypt key nonce msg.toVec with
  | none => simp [henc] at h
  | some cipher =>
      simp only [henc] at h
      split at h
      · cases h
      · rename_i hle
        cases h
        exact ⟨cipher, rfl, Nat.not_lt.1 hle, rfl⟩

/-- What was accepted is a frame within the reader's limits, and reads back as its message. -/
theorem wireFrame_of_writeFrame (hopens : Opens key) (hnonce : nonce.length = nonceLen)
    (hread : ReadsBack msg) (h : writeFrame key nonce msg = .ok bytes) :
    ∃ f : WireFrame key, f.msg = msg ∧ f.bytes = bytes := by
  obtain ⟨cipher, henc, hmax, rfl⟩ := writeFrame_eq_ok h
  obtain ⟨hlen, hdec⟩ := hopens nonce msg.toVec cipher hnonce henc
  exact wireFrame_of_decrypt hnonce hdec hread ⟨by omega, hmax⟩

omit [LanJson] in
/-- The writer's limit, as one on the text of the message. -/
theorem writeFrame_iff_fits (hseal : Seals key) (hopens : Opens key)
    (hnonce : nonce.length = nonceLen) :
    (∃ bytes, writeFrame key nonce msg = .ok bytes) ↔ Fits msg := by
  constructor
  · rintro ⟨bytes, h⟩
    obtain ⟨cipher, henc, hmax, -⟩ := writeFrame_eq_ok h
    obtain ⟨hlen, -⟩ := hopens nonce msg.toVec cipher hnonce henc
    unfold Fits
    omega
  · intro hfits
    obtain ⟨cipher, -, -, hwrite⟩ := writeFrame_of_fits hseal hnonce hfits
    exact ⟨_, hwrite⟩

/-! ## A row of frames -/

omit [LanJson] in
theorem writeFrames_cons {c : WriteCall} {calls : List WriteCall} {stream : Bytes} :
    writeFrames key (c :: calls) = .ok stream ↔
      ∃ frame frames, writeFrame key c.nonce c.msg = .ok frame ∧
        writeFrames key calls = .ok frames ∧ stream = frame ++ frames := by
  rw [writeFrames]
  cases hframe : writeFrame key c.nonce c.msg with
  | error e => simp [bind, Except.bind]
  | ok frame =>
      cases hframes : writeFrames key calls with
      | error e => simp [bind, Except.bind]
      | ok frames => simp [bind, Except.bind, pure, Except.pure, eq_comm]

/-- What was accepted is a row of frames that read back. -/
theorem wireFrames_of_writeFrames (hopens : Opens key) {calls : List WriteCall} {stream : Bytes}
    (hread : ∀ c ∈ calls, ReadsBack c.msg) (hwrite : writeFrames key calls = .ok stream) :
    ∃ fs : List (WireFrame key), fs.map WireFrame.msg = calls.map WriteCall.msg ∧
      fs.flatMap WireFrame.bytes = stream := by
  induction calls generalizing stream with
  | nil =>
      cases hwrite
      exact ⟨[], rfl, rfl⟩
  | cons c calls ih =>
      obtain ⟨frame, frames, hframe, hframes, rfl⟩ := writeFrames_cons.1 hwrite
      obtain ⟨hc, hcalls⟩ := List.forall_mem_cons.1 hread
      obtain ⟨f, hmsg, rfl⟩ := wireFrame_of_writeFrame hopens c.nonce.property hc hframe
      obtain ⟨fs, hmsgs, rfl⟩ := ih hcalls hframes
      exact ⟨f :: fs, by rw [List.map_cons, List.map_cons, hmsg, hmsgs], rfl⟩

/-- Messages that fit are all accepted. -/
theorem wireFrames_of_fits (hseal : Seals key) {calls : List WriteCall}
    (hfits : ∀ c ∈ calls, Fits c.msg) (hread : ∀ c ∈ calls, ReadsBack c.msg) :
    ∃ fs : List (WireFrame key), fs.map WireFrame.msg = calls.map WriteCall.msg ∧
      writeFrames key calls = .ok (fs.flatMap WireFrame.bytes) := by
  induction calls with
  | nil => exact ⟨[], rfl, rfl⟩
  | cons c calls ih =>
      obtain ⟨hfit, hfits⟩ := List.forall_mem_cons.1 hfits
      obtain ⟨hc, hcalls⟩ := List.forall_mem_cons.1 hread
      obtain ⟨f, hmsg, hframe⟩ := exists_wireFrame hseal c.nonce.property hfit hc
      obtain ⟨fs, hmsgs, hframes⟩ := ih hfits hcalls
      exact ⟨f :: fs, by rw [List.map_cons, List.map_cons, hmsg, hmsgs],
        writeFrames_cons.2 ⟨_, _, hframe, hframes, rfl⟩⟩

/-- The frames are read one after the other. -/
theorem readFrames_flatMap (fs : List (WireFrame key)) (following : Bytes) (closed : Bool) :
    readFrames key closed fs.length (fs.flatMap WireFrame.bytes ++ following) =
      some (fs.map fun f => .ok (some f.msg), following) := by
  induction fs with
  | nil => rfl
  | cons f fs ih =>
      simp only [List.length_cons, List.flatMap_cons, List.map_cons, readFrames, List.append_assoc,
        f.readFrame_bytes, ih, Option.bind_eq_bind, Option.bind_some]
      rfl

/-- **Calls of `read_frame` return what was written and leave the rest unread. Every frame that was
accepted has a length in the reader's range, and at any other length the reader stops before the
body.** -/
theorem frames_roundTrip (hopens : Opens key) :
    (∀ calls stream, (∀ c ∈ calls, ReadsBack c.msg) → writeFrames key calls = .ok stream →
      ∀ following closed, readFrames key closed calls.length (stream ++ following) =
        some (calls.map fun c => .ok (some c.msg), following)) ∧
    (∀ (c : WriteCall) frame, writeFrame key c.nonce c.msg = .ok frame →
      ∃ header body, frame = header ++ body ∧ header.length = 4 ∧
        u32Value header = body.length ∧ GoodLen body.length) ∧
    ∀ header rest closed, header.length = 4 → ¬ GoodLen (u32Value header) →
      readFrame key (header ++ rest) closed = some (.error sizeOutOfRange, rest) := by
  refine ⟨fun calls stream hread hwrite following closed => ?_, fun c frame hframe => ?_,
    fun header rest closed hheader hlen => readFrame_of_not_goodLen hheader hlen rest closed⟩
  · obtain ⟨fs, hmsgs, rfl⟩ := wireFrames_of_writeFrames hopens hread hwrite
    have hlength : fs.length = calls.length := by simpa using congrArg List.length hmsgs
    have hreads : fs.map (fun f => (.ok (some f.msg) : Read)) =
        calls.map fun c => .ok (some c.msg) := by
      simpa [Function.comp_def] using congrArg (List.map fun msg => (.ok (some msg) : Read)) hmsgs
    rw [← hlength, readFrames_flatMap, hreads]
  · obtain ⟨cipher, henc, hmax, rfl⟩ := writeFrame_eq_ok hframe
    obtain ⟨hlen, -⟩ := hopens _ _ _ c.nonce.property henc
    have hbody : nonceLen + cipher.length = (c.nonce.val ++ cipher).length := by
      rw [List.length_append, c.nonce.property]
    have hgood : GoodLen (nonceLen + cipher.length) := ⟨by omega, hmax⟩
    refine ⟨u32Bytes (nonceLen + cipher.length), c.nonce ++ cipher, by rw [List.append_assoc],
      length_u32Bytes _, ?_, hbody ▸ hgood⟩
    rw [u32Value_u32Bytes (Nat.lt_of_le_of_lt hmax (by decide)), hbody]

end

/-! ## A short stream -/

theorem opens_tagAead (key : Key) : @Opens tagAead key := by
  intro nonce plain cipher _ henc
  cases henc
  refine ⟨by simp, ?_⟩
  show some (List.take _ _) = _
  simp

section

local instance : Aead := tagAead

def sampleNonce : { bytes : Bytes // bytes.length = nonceLen } := ⟨List.replicate nonceLen 0, rfl⟩

def sampleCalls : List WriteCall :=
  [.ping, .blobChunk [1, 2] false, .fileChunk "t" 7 [], .blobChunk [] true].map
    (⟨sampleNonce, ·⟩)

local instance : LanJson := tableJson (sampleCalls.map (·.msg))

theorem sampleCalls_roundTrip : ∃ stream, writeFrames zeroKey sampleCalls = .ok stream ∧
    readFrames zeroKey false 4 (stream ++ [0, 0, 0, 1, 9]) =
      some (sampleCalls.map fun c => .ok (some c.msg), [0, 0, 0, 1, 9]) ∧
    readFrame zeroKey [0, 0, 0, 1, 9] false = some (.error sizeOutOfRange, [9]) := by
  have hok : (writeFrames zeroKey sampleCalls).isOk = true := by decide +kernel
  have h := frames_roundTrip (opens_tagAead zeroKey)
  cases hstream : writeFrames zeroKey sampleCalls with
  | error e =>
      rw [hstream] at hok
      cases hok
  | ok stream =>
      exact ⟨stream, rfl, h.1 sampleCalls stream (by decide +kernel) hstream _ false,
        h.2.2 [0, 0, 0, 1] [9] false rfl (by decide)⟩

end

end ClipBridge
