import ClipBridge.Lan.Message
import ClipBridge.Lib.Framing

/-!
# Frames on a LAN connection

Following `write_frame` and `read_frame` in `core/src/lan.rs`: the length as four bytes, big
endian, then the nonce and the ciphertext of the message.

* `writeFrame` — the bytes of one message. `readFrame` — what one call returns, and what is left
  of the stream; `none` while it waits for more.
* `WireFrame` — a frame that reads back as its message; `exists_wireFrame`: what `writeFrame`
  writes is one.
* `readFrame_append` — later bytes do not change what a call returns.
* `framing` — the same frames, read in pieces; `readFrame_of_reads` connects the two.
-/

namespace ClipBridge

def frameMax : Nat := 1024 * 1024

/-! ## The length -/

def u32Bytes (n : Nat) : Bytes :=
  [UInt8.ofNat (n / 2 ^ 24), UInt8.ofNat (n / 2 ^ 16), UInt8.ofNat (n / 2 ^ 8), UInt8.ofNat n]

def u32Value (bytes : Bytes) : Nat := bytes.foldl (fun acc b => acc * 256 + b.toNat) 0

@[simp] theorem length_u32Bytes (n : Nat) : (u32Bytes n).length = 4 := rfl

theorem u32Value_u32Bytes {n : Nat} (h : n < 2 ^ 32) : u32Value (u32Bytes n) = n := by
  simp [u32Value, u32Bytes]
  omega

/-- What `read_frame` accepts as a length. -/
def GoodLen (len : Nat) : Prop := nonceLen < len ∧ len ≤ frameMax

instance (len : Nat) : Decidable (GoodLen len) := inferInstanceAs (Decidable (_ ∧ _))

section

variable [Aead] [LanJson]

/-! ## Writing and reading -/

def CryptoError.message : CryptoError → String
  | .encrypt => "encrypt failed"
  | .decrypt => "decrypt failed"
  | .nonceLen got =>
      "invalid nonce length: expected " ++ toString ClipBridge.nonceLen ++ ", got " ++ toString got

omit [LanJson] in
/-- The bytes of one message, with the nonce that was drawn for it. -/
def writeFrame (key : Key) (nonce : Bytes) (msg : LanMessage) : Except LanError Bytes :=
  match encrypt key nonce msg.toVec with
  | .error e => .error (.io e.message)
  | .ok (cipher, nonce) =>
      let total := nonceLen + cipher.length
      if frameMax < total then .error (.io "frame too large for LAN")
      else .ok (u32Bytes total ++ nonce ++ cipher)

/-- Decrypt what follows the length, and parse it. -/
def openBody (key : Key) (buf : Bytes) : Except LanError LanMessage :=
  match decrypt key (buf.take nonceLen) (buf.drop nonceLen) with
  | .error _ => .error (.io "AEAD decrypt failed (wrong group key?)")
  | .ok plain =>
      match LanJson.fromSlice plain with
      | .error e => .error (.io e)
      | .ok msg => .ok msg

/-- What `read_frame` returns: a message, `none` at the end of the stream, or an error. -/
abbrev Read := Except LanError (Option LanMessage)

def sizeOutOfRange : LanError := .io "frame size out of range"

/-- One call of `read_frame` on the bytes that have arrived, with what is left of them. -/
def readFrame (key : Key) (stream : Bytes) (closed : Bool) : Option (Read × Bytes) :=
  if stream.length < 4 then
    if closed then some (.ok none, []) else none
  else
    let len := u32Value (stream.take 4)
    let rest := stream.drop 4
    if ¬ GoodLen len then some (.error sizeOutOfRange, rest)
    else if rest.length < len then
      if closed then some (.error (.io "early eof"), []) else none
    else some ((openBody key (rest.take len)).map some, rest.drop len)

/-- A call that does not wait returns the same when more bytes follow, or the stream ends. -/
theorem readFrame_append {key : Key} {stream left : Bytes} {r : Read}
    (h : readFrame key stream false = some (r, left)) (more : Bytes) (closed : Bool) :
    readFrame key (stream ++ more) closed = some (r, left ++ more) := by
  unfold readFrame at h ⊢
  split at h
  · simp at h
  · rename_i hlen
    rw [if_neg (by simp; omega), List.take_append_of_le_length (by omega),
      List.drop_append_of_le_length (by omega)]
    dsimp only at h ⊢
    split at h
    · rename_i hbad
      rw [if_pos hbad]
      obtain ⟨rfl, rfl⟩ := Prod.mk.inj (Option.some.inj h)
      rfl
    · rename_i hgood
      rw [if_neg hgood]
      split at h
      · simp at h
      · rename_i hrest
        obtain ⟨rfl, rfl⟩ := Prod.mk.inj (Option.some.inj h)
        rw [if_neg (by rw [List.length_append]; omega),
          List.take_append_of_le_length (by omega), List.drop_append_of_le_length (by omega)]

/-! ## Frames that read back -/

/-- A frame on the wire, and the message it reads back as. -/
structure WireFrame (key : Key) where
  msg : LanMessage
  /-- Nonce and ciphertext. -/
  body : Bytes
  good : GoodLen body.length
  opens : openBody key body = .ok msg

namespace WireFrame

variable {key : Key}

def bytes (f : WireFrame key) : Bytes := u32Bytes f.body.length ++ f.body

theorem u32Value_length (f : WireFrame key) : u32Value (u32Bytes f.body.length) = f.body.length :=
  u32Value_u32Bytes (Nat.lt_of_le_of_lt f.good.2 (by decide))

theorem take_bytes (f : WireFrame key) : f.bytes.take 4 = u32Bytes f.body.length :=
  List.take_left' (length_u32Bytes _)

theorem drop_bytes (f : WireFrame key) : f.bytes.drop 4 = f.body :=
  List.drop_left' (length_u32Bytes _)

theorem length_bytes (f : WireFrame key) : f.bytes.length = 4 + f.body.length := by
  simp [bytes]

/-- A complete frame is read, whatever follows it. -/
theorem readFrame_bytes (f : WireFrame key) (rest : Bytes) (closed : Bool) :
    readFrame key (f.bytes ++ rest) closed = some (.ok (some f.msg), rest) := by
  have h : readFrame key f.bytes false = some (.ok (some f.msg), []) := by
    unfold readFrame
    rw [if_neg (by rw [length_bytes]; omega), take_bytes, drop_bytes, u32Value_length]
    dsimp only
    rw [if_neg (by simpa using f.good), if_neg (Nat.lt_irrefl _), List.take_length,
      List.drop_length, f.opens]
    rfl
  exact readFrame_append h rest closed

end WireFrame

/-! ## What is written reads back -/

/-- The laws of the cipher that a frame relies on: a text that is not too long is sealed, with a
tag of 16 bytes, and what is sealed is opened. -/
def Seals (key : Key) : Prop :=
  ∀ nonce plain : Bytes, nonce.length = nonceLen → plain.length ≤ 2 ^ 38 - 64 →
    ∃ cipher, Aead.encrypt key nonce plain = some cipher ∧ cipher.length = plain.length + 16 ∧
      Aead.decrypt key nonce cipher = some plain

/-- The law of the parser: the text of the message parses as the message. -/
def ReadsBack (msg : LanMessage) : Prop := LanJson.fromSlice msg.toVec = .ok msg

instance (msg : LanMessage) : Decidable (ReadsBack msg) := inferInstanceAs (Decidable (_ = _))

/-- The message is short enough for a frame. -/
def Fits (msg : LanMessage) : Prop := nonceLen + (msg.toVec.length + 16) ≤ frameMax

instance (msg : LanMessage) : Decidable (Fits msg) := inferInstanceAs (Decidable (_ ≤ _))

omit [Aead] [LanJson] in
/-- A chunk of a file, whatever the configured size and the offset. -/
theorem fits_fileChunk {config : FileTransferConfig} {transferId : String} (hid : IsUuid transferId)
    (offset : UInt64) {data : Bytes} (hdata : data.length ≤ config.boundedChunkBytes) :
    Fits (.fileChunk transferId offset data) := by
  have hlen := LanMessage.length_fileChunk_le (Nat.le_of_eq hid.1) offset data
  have hchunk := config.boundedChunkBytes_le
  have hbound : maxFileChunkBytes = 524288 := rfl
  have hmax : frameMax = 1048576 := rfl
  have hnonce : nonceLen = 12 := rfl
  unfold Fits
  omega

/-- A ciphertext that is opened as the text of the message, in a frame of a good length. -/
theorem wireFrame_of_decrypt {key : Key} {nonce cipher : Bytes} {msg : LanMessage}
    (hnonce : nonce.length = nonceLen) (hdec : Aead.decrypt key nonce cipher = some msg.toVec)
    (hread : ReadsBack msg) (hgood : GoodLen (nonceLen + cipher.length)) :
    ∃ f : WireFrame key, f.msg = msg ∧
      f.bytes = u32Bytes (nonceLen + cipher.length) ++ nonce ++ cipher := by
  have hbody : nonceLen + cipher.length = (nonce ++ cipher).length := by
    rw [List.length_append, hnonce]
  have hopen : openBody key (nonce ++ cipher) = .ok msg := by
    unfold openBody decrypt
    rw [List.take_left' hnonce, List.drop_left' hnonce, if_neg (by simp [hnonce]), hdec]
    dsimp only
    rw [hread]
  rw [hbody] at hgood ⊢
  exact ⟨⟨msg, nonce ++ cipher, hgood, hopen⟩, rfl, by rw [List.append_assoc]; rfl⟩

omit [LanJson] in
/-- A message that fits is sealed and written. -/
theorem writeFrame_of_fits {key : Key} {nonce : Bytes} {msg : LanMessage} (hseal : Seals key)
    (hnonce : nonce.length = nonceLen) (hfits : Fits msg) :
    ∃ cipher, Aead.decrypt key nonce cipher = some msg.toVec ∧
      GoodLen (nonceLen + cipher.length) ∧
      writeFrame key nonce msg = .ok (u32Bytes (nonceLen + cipher.length) ++ nonce ++ cipher) := by
  have hmax : frameMax ≤ 2 ^ 38 - 64 := by decide
  unfold Fits at hfits
  obtain ⟨cipher, henc, hlen, hdec⟩ := hseal nonce msg.toVec hnonce (by omega)
  refine ⟨cipher, hdec, ⟨by omega, by omega⟩, ?_⟩
  unfold writeFrame encrypt
  rw [henc]
  exact if_neg (by omega)

/-- A message that fits is written, as a frame that reads back as the message. -/
theorem exists_wireFrame {key : Key} {nonce : Bytes} {msg : LanMessage} (hseal : Seals key)
    (hnonce : nonce.length = nonceLen) (hfits : Fits msg) (hread : ReadsBack msg) :
    ∃ f : WireFrame key, f.msg = msg ∧ writeFrame key nonce msg = .ok f.bytes := by
  obtain ⟨cipher, hdec, hgood, hwrite⟩ := writeFrame_of_fits hseal hnonce hfits
  obtain ⟨f, hmsg, hbytes⟩ := wireFrame_of_decrypt hnonce hdec hread hgood
  exact ⟨f, hmsg, by rw [hwrite, hbytes]⟩

/-! ## Reading in pieces -/

/-- How many more bytes `read_frame` asks for: the length, then what the length says. -/
def frameWant (got : Bytes) : Nat :=
  if got.length < 4 then 4 - got.length
  else
    let len := u32Value (got.take 4)
    if ¬ GoodLen len then 0 else 4 + len - got.length

def frameDecode (key : Key) (got : Bytes) : Except LanError LanMessage :=
  if ¬ GoodLen (u32Value (got.take 4)) then .error sizeOutOfRange else openBody key (got.drop 4)

omit [Aead] [LanJson] in
theorem frameWant_short {got : Bytes} (h : got.length < 4) : frameWant got = 4 - got.length :=
  if_pos h

omit [Aead] [LanJson] in
theorem frameWant_long {got : Bytes} (h : 4 ≤ got.length)
    (hgood : GoodLen (u32Value (got.take 4))) :
    frameWant got = 4 + u32Value (got.take 4) - got.length := by
  unfold frameWant
  rw [if_neg (by omega)]
  dsimp only
  rw [if_neg (by simpa using hgood)]

omit [LanJson] in
/-- Once the length has been read, it is the frame's. -/
theorem WireFrame.take_prefix [LanJson] {key : Key} (f : WireFrame key) {p : Bytes}
    (hp : p <+: f.bytes) (h : 4 ≤ p.length) : u32Value (p.take 4) = f.body.length := by
  obtain ⟨t, ht⟩ := hp
  have := f.take_bytes
  rw [← ht, List.take_append_of_le_length h] at this
  rw [this, f.u32Value_length]

/-- The frames of a connection, as a reader takes them in pieces. -/
def framing (key : Key) : Framing UInt8 (WireFrame key) LanMessage LanError where
  bytes := WireFrame.bytes
  message := WireFrame.msg
  want := frameWant
  decode := frameDecode key
  want_nil := by decide
  want_bytes f := by
    have h : 4 ≤ f.bytes.length := by rw [f.length_bytes]; omega
    have hlen := f.take_prefix List.prefix_rfl h
    rw [frameWant_long h (hlen ▸ f.good), hlen, f.length_bytes, Nat.sub_self]
  want_prefix f p hp hne := by
    have hlt : p.length < f.bytes.length :=
      Nat.lt_of_le_of_ne hp.length_le fun h => hne (hp.eq_of_length h)
    rw [f.length_bytes] at hlt ⊢
    by_cases h : 4 ≤ p.length
    · have hlen := f.take_prefix hp h
      rw [frameWant_long h (hlen ▸ f.good), hlen]
      omega
    · rw [frameWant_short (by omega)]
      omega
  decode_bytes f := by
    unfold frameDecode
    rw [f.take_bytes, f.u32Value_length, if_neg (by simpa using f.good), f.drop_bytes]
    exact f.opens

omit [Aead] [LanJson] in
/-- What is asked for ends where the frame ends: a length out of range ends it at once. -/
theorem frameWant_eq_zero {got more : Bytes} (hwant : 0 < frameWant got)
    (hmore : more.length ≤ frameWant got) (h : frameWant (got ++ more) = 0) :
    4 ≤ (got ++ more).length ∧
      if GoodLen (u32Value ((got ++ more).take 4)) then
        (got ++ more).length = 4 + u32Value ((got ++ more).take 4)
      else (got ++ more).length = 4 := by
  have h4 : 4 ≤ (got ++ more).length := by
    by_contra hlt
    rw [frameWant_short (by omega)] at h
    omega
  refine ⟨h4, ?_⟩
  rw [List.length_append] at h4 ⊢
  by_cases hgot : got.length < 4
  · rw [frameWant_short hgot] at hmore
    split
    · rename_i hgood
      rw [frameWant_long (by rw [List.length_append]; omega) hgood, List.length_append] at h
      have := hgood.1
      omega
    · omega
  · have htake : (got ++ more).take 4 = got.take 4 := List.take_append_of_le_length (by omega)
    have hgood : GoodLen (u32Value (got.take 4)) := by
      by_contra hbad
      unfold frameWant at hwant
      rw [if_neg hgot] at hwant
      simp [hbad] at hwant
    rw [htake, if_pos hgood]
    rw [frameWant_long (by omega) hgood] at hmore hwant
    rw [frameWant_long (by rw [List.length_append]; omega) (htake ▸ hgood), htake,
      List.length_append] at h
    omega

/-- The piece that completes a frame. -/
theorem readFrame_of_read {key : Key} {r : Framing.Reader UInt8 (WireFrame key) LanMessage}
    (hwant : 0 < frameWant r.got) {n : Nat} {res : Except LanError LanMessage}
    (h : (r.read (framing key) n).1 = some res) (closed : Bool) :
    readFrame key (r.got ++ r.stream) closed =
      some (res.map some, (r.read (framing key) n).2.stream) := by
  obtain ⟨k, hk, hdone, hdec, hleft⟩ := Framing.Reader.read_some h
  have hmore : (r.stream.take k).length ≤ frameWant r.got :=
    Nat.le_trans (List.length_take_le ..) hk
  obtain ⟨h4, hend⟩ := frameWant_eq_zero hwant hmore hdone
  have hsplit : r.got ++ r.stream = r.got ++ r.stream.take k ++ r.stream.drop k := by
    rw [List.append_assoc, List.take_append_drop]
  have hdec' : frameDecode key (r.got ++ r.stream.take k) = res := hdec
  rw [hleft, hsplit]
  generalize r.got ++ r.stream.take k = got at *
  have hcall : readFrame key got false = some (res.map some, []) := by
    rw [← hdec']
    unfold readFrame frameDecode
    rw [if_neg (by omega)]
    dsimp only
    by_cases hgood : GoodLen (u32Value (got.take 4))
    · rw [if_pos hgood] at hend
      have hlen : (got.drop 4).length = u32Value (got.take 4) := by rw [List.length_drop]; omega
      rw [if_neg (by simpa using hgood), if_neg (by omega), if_neg (by simpa using hgood),
        List.take_of_length_le (Nat.le_of_eq hlen), List.drop_of_length_le (Nat.le_of_eq hlen)]
    · rw [if_neg hgood] at hend
      rw [if_pos hgood, if_pos hgood, List.drop_of_length_le (by omega)]
      rfl
  exact readFrame_append hcall (r.stream.drop k) closed

/-- **A frame read in pieces of any size, without an interruption, is what one call of `readFrame`
returns, and leaves the same bytes.** -/
theorem readFrame_of_reads {key : Key} {r : Framing.Reader UInt8 (WireFrame key) LanMessage}
    (hgot : r.got = []) {ns : List Nat} {res : Except LanError LanMessage}
    (h : (r.reads (framing key) ns).1 = some res) (closed : Bool) :
    readFrame key r.stream closed =
      some (res.map some, (r.reads (framing key) ns).2.stream) := by
  have hstart : 0 < (framing key).want r.got := by
    rw [hgot]
    exact (framing key).want_nil
  obtain ⟨r', n, hwant, hbytes, hlast⟩ := Framing.Reader.reads_some hstart h
  have hres : (r'.read (framing key) n).1 = some res := by rw [hlast]
  have hread := readFrame_of_read hwant hres closed
  rw [hgot, List.nil_append] at hbytes
  rwa [hbytes, hlast] at hread

end

/-! ## Stand-ins for examples -/

/-- A cipher that leaves the text as it is and adds a tag of zeros. -/
@[reducible] def tagAead : Aead where
  encrypt _ _ plain := some (plain ++ List.replicate 16 0)
  decrypt _ _ cipher := some (cipher.take (cipher.length - 16))

theorem seals_tagAead (key : Key) : @Seals tagAead key := by
  intro nonce plain _ _
  refine ⟨plain ++ List.replicate 16 0, rfl, by simp, ?_⟩
  show some (List.take _ _) = _
  simp

/-- A parser that knows the texts of some messages. -/
@[reducible] def tableJson (msgs : List LanMessage) : LanJson where
  fromSlice bytes :=
    match msgs.find? (·.toVec = bytes) with
    | some msg => .ok msg
    | none => .error "unknown message"

def zeroKey : Key := ⟨List.replicate keyLen 0, by decide⟩

/-- The frame of a ping, and the first bytes of the next one. -/
def pingStream : Bytes :=
  u32Bytes 43 ++ List.replicate nonceLen 0 ++ LanMessage.ping.toVec ++ List.replicate 16 0 ++
    [0, 0, 1]

def pingReader : Framing.Reader UInt8 (@WireFrame tagAead (tableJson [.ping]) zeroKey) LanMessage :=
  ⟨[], pingStream, [], []⟩

/-- The length comes in two pieces, and the rest in three. -/
theorem readFrame_of_reads_ping :
    @readFrame tagAead (tableJson [.ping]) zeroKey pingStream false =
      some (.ok (some .ping), [0, 0, 1]) := by
  let _ := tagAead
  let _ := tableJson [.ping]
  have hread : (pingReader.reads (framing zeroKey) [1, 3, 20, 20, 100]).1 = some (.ok .ping) := by
    decide +kernel
  have hrest : (pingReader.reads (framing zeroKey) [1, 3, 20, 20, 100]).2.stream = [0, 0, 1] := by
    decide +kernel
  have hframe := @readFrame_of_reads _ _ zeroKey pingReader rfl _ _ hread false
  generalize pingReader.reads (framing zeroKey) [1, 3, 20, 20, 100] = pieces at hrest hframe
  rw [hrest] at hframe
  exact hframe

end ClipBridge
