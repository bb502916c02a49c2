import ClipBridge.Client.Image
import ClipBridge.Lan.ChunkFrames

/-!
# Blobs from one peer to another

`serve_blob` and `fetch_blob` in `core/src/lan.rs`, on the two ends of a connection. Other tasks may
write between the chunks, and what follows the last chunk is not read.

* `streamMessages` — what calls of `read_frame` take from a stream, up to its end or an error.
* `Assembled` — the payloads up to the first chunk that is marked as the last.
* `readBlob_iff` — the reading loop returns what they are assembled to, if it is not too long and
  nothing is in between that it does not expect.
* `blobStream_exact` — so a blob arrives as it is, and nothing else is ever taken for one.
-/

namespace ClipBridge

open Relay (SocketAddr)

/-! ## What is on a stream -/

section

variable [Aead] [LanJson] {key : Key}

def readMessages (key : Key) : Nat → Bytes → List LanMessage
  | 0, _ => []
  | n + 1, stream =>
      match readFrame key stream true with
      | some (.ok (some msg), rest) => msg :: readMessages key n rest
      | _ => []

/-- Every message takes a byte, so that these are enough calls. -/
def streamMessages (key : Key) (stream : Bytes) : List LanMessage :=
  readMessages key stream.length stream

theorem readMessages_flatMap (fs : List (WireFrame key)) (n : Nat) (following : Bytes) :
    readMessages key (fs.length + n) (fs.flatMap WireFrame.bytes ++ following) =
      fs.map WireFrame.msg ++ readMessages key n following := by
  induction fs with
  | nil => simp
  | cons f fs ih =>
      rw [List.length_cons, Nat.add_right_comm, readMessages, List.flatMap_cons, List.append_assoc,
        f.readFrame_bytes, List.map_cons, List.cons_append, ← ih]

/-- The messages of frames, whatever follows them. -/
theorem streamMessages_flatMap (fs : List (WireFrame key)) (following : Bytes) :
    fs.map WireFrame.msg <+: streamMessages key (fs.flatMap WireFrame.bytes ++ following) := by
  have hlength : fs.length ≤ (fs.flatMap WireFrame.bytes ++ following).length := by
    have hle : fs.length ≤ (fs.flatMap WireFrame.bytes).length := by
      induction fs with
      | nil => simp
      | cons f fs ih =>
          rw [List.length_cons, List.flatMap_cons, List.length_append, f.length_bytes]
          omega
    rw [List.length_append]
    omega
  obtain ⟨n, hn⟩ := Nat.exists_eq_add_of_le hlength
  unfold streamMessages
  rw [hn, readMessages_flatMap]
  exact List.prefix_append ..

end

/-! ## Chunks among other messages -/

namespace LanMessage

def isBlobChunk : LanMessage → Bool
  | blobChunk .. => true
  | _ => false

/-- What the reading loop passes over. -/
def isSkipped : LanMessage → Bool
  | ping | hello .. | clip .. => true
  | _ => false

/-- What a message contributes to the blob. -/
def payload : LanMessage → Bytes
  | blobChunk data _ => data
  | _ => []

/-- It does not end the reading loop. -/
def goesOn : LanMessage → Bool
  | blobChunk _ last => !last
  | msg => msg.isSkipped

end LanMessage

/-- The payloads up to the first chunk that is marked as the last. -/
def Assembled (msgs : List LanMessage) (bytes : Bytes) : Prop :=
  ∃ pre data post, msgs = pre ++ .blobChunk data true :: post ∧
    (∀ msg ∈ pre, ∀ data, msg ≠ .blobChunk data true) ∧
    bytes = pre.flatMap LanMessage.payload ++ data

theorem readBlob_skipped {maxBytes : Nat} {buf : Bytes} {msg : LanMessage}
    {msgs : List LanMessage} (h : msg.isSkipped = true) :
    readBlob maxBytes buf (msg :: msgs) = readBlob maxBytes buf msgs ∧ msg.payload = [] := by
  cases msg <;> first | exact ⟨rfl, rfl⟩ | cases h

theorem goesOn_of_isSkipped {msg : LanMessage} (h : msg.isSkipped = true) : msg.goesOn = true := by
  cases msg with
  | blobChunk => cases h
  | _ => exact h

/-- The loop gets to the last chunk, if that is not too much. -/
theorem readBlob_append {maxBytes : Nat} {buf data : Bytes} {pre post : List LanMessage}
    (hpre : ∀ msg ∈ pre, msg.goesOn = true)
    (hlen : (buf ++ pre.flatMap LanMessage.payload ++ data).length ≤ maxBytes) :
    readBlob maxBytes buf (pre ++ .blobChunk data true :: post) =
      some (buf ++ pre.flatMap LanMessage.payload ++ data) := by
  induction pre generalizing buf with
  | nil =>
      simp only [List.flatMap_nil, List.append_nil] at hlen ⊢
      rw [List.nil_append, readBlob, if_neg (Nat.not_lt.2 hlen), if_pos rfl]
  | cons msg pre ih =>
      obtain ⟨hmsg, hpre⟩ := List.forall_mem_cons.1 hpre
      have hassoc : buf ++ (msg :: pre).flatMap LanMessage.payload ++ data =
          buf ++ msg.payload ++ pre.flatMap LanMessage.payload ++ data := by simp
      rw [hassoc] at hlen ⊢
      rw [← ih hpre hlen, List.cons_append]
      by_cases hskip : msg.isSkipped = true
      · obtain ⟨hread, hnil⟩ := readBlob_skipped hskip
        rw [hread, hnil, List.append_nil]
      · cases msg with
        | blobChunk part last =>
            obtain rfl : last = false := by simpa [LanMessage.goesOn] using hmsg
            have hpart : ¬ maxBytes < (buf ++ part).length := by
              simp only [LanMessage.payload, List.length_append] at hlen ⊢
              omega
            rw [readBlob, if_neg hpart, if_neg Bool.false_ne_true]
            rfl
        | _ => exact absurd hmsg hskip

/-- **All that the reading loop returns.** -/
theorem readBlob_iff {maxBytes : Nat} {buf bytes : Bytes} {msgs : List LanMessage} :
    readBlob maxBytes buf msgs = some bytes ↔
      ∃ pre data post, msgs = pre ++ .blobChunk data true :: post ∧
        (∀ msg ∈ pre, msg.goesOn = true) ∧
        bytes = buf ++ pre.flatMap LanMessage.payload ++ data ∧ bytes.length ≤ maxBytes := by
  constructor
  · intro h
    induction msgs generalizing buf with
    | nil => cases h
    | cons msg msgs ih =>
        -- The loop goes on, and what it returns then starts with this message's payload.
        have hgoes : msg.goesOn = true → readBlob maxBytes (buf ++ msg.payload) msgs = some bytes →
            ∃ pre data post, msg :: msgs = pre ++ .blobChunk data true :: post ∧
              (∀ msg ∈ pre, msg.goesOn = true) ∧
              bytes = buf ++ pre.flatMap LanMessage.payload ++ data ∧
              bytes.length ≤ maxBytes := by
          intro hmsg hrest
          obtain ⟨pre, data, post, rfl, hpre, hbytes, hlen⟩ := ih hrest
          exact ⟨msg :: pre, data, post, rfl, List.forall_mem_cons.2 ⟨hmsg, hpre⟩,
            by simpa using hbytes, hlen⟩
        cases msg with
        | blobChunk data last =>
            simp only [readBlob] at h
            split at h
            · cases h
            · rename_i hlen
              split at h
              · rename_i hlast
                cases h
                exact ⟨[], data, msgs, by rw [hlast]; rfl, by simp, by simp, Nat.not_lt.1 hlen⟩
              · rename_i hlast
                exact hgoes (by simp [LanMessage.goesOn, hlast]) h
        | ping | hello | clip => exact hgoes rfl (by rw [← h]; simp [LanMessage.payload, readBlob])
        | _ => cases h
  · rintro ⟨pre, data, post, rfl, hpre, rfl, hlen⟩
    exact readBlob_append hpre hlen

/-! ## The chunks of a blob -/

/-- They are marked and cut as the loop expects. -/
theorem blobChunks_eq (bytes : Bytes) :
    ∃ pre data, blobChunks bytes = pre ++ [.blobChunk data true] ∧
      (∀ msg ∈ pre, ∃ part, msg = .blobChunk part false) ∧
      pre.flatMap LanMessage.payload ++ data = bytes := by
  induction bytes using blobChunks.induct with
  | case1 bytes hlen =>
      rw [blobChunks, if_pos hlen]
      exact ⟨[], bytes, rfl, by simp, rfl⟩
  | case2 bytes hlen ih =>
      obtain ⟨pre, data, hchunks, hpre, hbytes⟩ := ih
      rw [blobChunks, if_neg hlen, hchunks]
      refine ⟨.blobChunk (bytes.take blobChunk) false :: pre, data, rfl,
        List.forall_mem_cons.2 ⟨⟨_, rfl⟩, hpre⟩, ?_⟩
      rw [List.flatMap_cons, List.append_assoc, hbytes]
      exact List.take_append_drop ..

/-- The messages of `chunks`, in order, and between them only what is passed over. -/
def Interleaved (chunks msgs : List LanMessage) : Prop :=
  msgs.filter LanMessage.isBlobChunk = chunks ∧
    ∀ msg ∈ msgs, msg.isBlobChunk = false → msg.isSkipped = true

theorem flatMap_payload_filter (msgs : List LanMessage) :
    (msgs.filter LanMessage.isBlobChunk).flatMap LanMessage.payload =
      msgs.flatMap LanMessage.payload := by
  induction msgs with
  | nil => rfl
  | cons msg msgs ih =>
      rw [List.flatMap_cons, ← ih]
      cases msg <;> rfl

/-- A blob among other messages is read as it is. -/
theorem readBlob_interleaved {maxBytes : Nat} {bytes : Bytes} {msgs : List LanMessage}
    (h : Interleaved (blobChunks bytes) msgs) (hlen : bytes.length ≤ maxBytes)
    (post : List LanMessage) : readBlob maxBytes [] (msgs ++ post) = some bytes := by
  obtain ⟨hfilter, hskips⟩ := h
  obtain ⟨pre, data, hchunks, hpre, hbytes⟩ := blobChunks_eq bytes
  rw [hchunks] at hfilter
  obtain ⟨before, rest, rfl, hbefore, hrest⟩ := List.filter_eq_append_iff.1 hfilter
  obtain ⟨between, after, rfl, hbetween, -, -⟩ := List.filter_eq_cons_iff.1 hrest
  have hfilter' : (before ++ between).filter LanMessage.isBlobChunk = pre := by
    rw [List.filter_append, hbefore, List.filter_eq_nil_iff.2 hbetween, List.append_nil]
  refine readBlob_iff.2 ⟨before ++ between, data, after ++ post, by simp, ?_, ?_, hlen⟩
  · intro msg hmsg
    by_cases hchunk : msg.isBlobChunk = true
    · obtain ⟨part, rfl⟩ := hpre msg (hfilter' ▸ List.mem_filter.2 ⟨hmsg, hchunk⟩)
      rfl
    · have hskip := hskips msg (by simp at hmsg ⊢; tauto) (by simpa using hchunk)
      exact goesOn_of_isSkipped hskip
  · rw [← flatMap_payload_filter, hfilter', List.nil_append, hbytes]

theorem sendAll_ok {env : Env} {msgs : List LanMessage} (h : (sendAll env msgs).2 = none) :
    (sendAll env msgs).1 = msgs := by
  induction msgs with
  | nil => rfl
  | cons msg msgs ih =>
      unfold sendAll at h ⊢
      cases hsend : env.send msg with
      | some e => simp [hsend] at h
      | none =>
          simp only [hsend] at h ⊢
          rw [ih h]

/-- A blob that is cached is served in its chunks. -/
theorem serveBlob_ok {env : PeerEnv} {sha256Hex : String} {bytes : Bytes}
    (hcached : env.blobCache sha256Hex = some bytes) (h : (serveBlob env sha256Hex).2 = none) :
    (serveBlob env sha256Hex).1 = blobChunks bytes := by
  unfold serveBlob at h ⊢
  rw [hcached] at h ⊢
  exact sendAll_ok h

/-! ## Over a stream -/

/-- The connection is made and the blob is asked for. -/
def Attempt.Asks (a : Attempt) (candidates : List SocketAddr) : Prop :=
  candidates.any a.connects = true ∧ a.helloSent = true ∧ a.requestSent = true

/-- The loop is all that is left of `fetch_blob` then; without it nothing is returned. -/
theorem fetchBlob_iff {candidates : List SocketAddr} {maxBytes : Nat} {a : Attempt}
    {bytes : Bytes} : fetchBlob candidates maxBytes a = some bytes ↔
      a.Asks candidates ∧ readBlob maxBytes [] a.reads = some bytes := by
  unfold fetchBlob Attempt.Asks
  by_cases hconnects : candidates.any a.connects = true
  · by_cases hsent : (a.helloSent && a.requestSent) = true
    · simp [hconnects, Bool.and_eq_true_iff.1 hsent]
    · rw [if_pos hconnects, if_neg hsent]
      simp only [Bool.and_eq_true] at hsent
      simp [hsent]
  · rw [if_neg hconnects]
    simp [hconnects]

section

variable [Aead] [LanJson]

/-- **A cached blob, served while other messages are written, is fetched as it is; and whatever the
peer replies, what is fetched is the payloads up to the last chunk, and not too long.** -/
theorem blobStream_exact {key : Key} (hseal : Seals key) :
    (∀ env sha256Hex bytes maxBytes candidates (a : Attempt) (calls : List WriteCall),
      env.blobCache sha256Hex = some bytes → (serveBlob env sha256Hex).2 = none →
      bytes.length ≤ maxBytes → a.Asks candidates →
      Interleaved (serveBlob env sha256Hex).1 (calls.map WriteCall.msg) →
      (∀ c ∈ calls, c.msg.isBlobChunk = false → Fits c.msg) → (∀ c ∈ calls, ReadsBack c.msg) →
      ∃ stream, writeFrames key calls = .ok stream ∧ ∀ following,
        fetchBlob candidates maxBytes
          { a with reads := streamMessages key (stream ++ following) } = some bytes) ∧
    ∀ stream maxBytes candidates (a : Attempt) bytes,
      fetchBlob candidates maxBytes { a with reads := streamMessages key stream } = some bytes →
      Assembled (streamMessages key stream) bytes ∧ bytes.length ≤ maxBytes := by
  constructor
  · intro env sha256Hex bytes maxBytes candidates a calls hcached hserved hlen hasks hcalls hfits
      hread
    rw [serveBlob_ok hcached hserved] at hcalls
    have hfits' : ∀ c ∈ calls, Fits c.msg := by
      intro c hc
      by_cases hchunk : c.msg.isBlobChunk = true
      · refine fits_of_mem_blobChunks bytes c.msg ?_
        rw [← hcalls.1]
        exact List.mem_filter.2 ⟨List.mem_map_of_mem hc, hchunk⟩
      · exact hfits c hc (by simpa using hchunk)
    obtain ⟨fs, hmsgs, hwrite⟩ := wireFrames_of_fits hseal hfits' hread
    refine ⟨_, hwrite, fun following => fetchBlob_iff.2 ⟨hasks, ?_⟩⟩
    obtain ⟨post, hpost⟩ := streamMessages_flatMap fs following
    rw [hmsgs] at hpost
    dsimp only
    rw [← hpost]
    exact readBlob_interleaved hcalls hlen post
  · intro stream maxBytes candidates a bytes hfetch
    obtain ⟨-, hread⟩ := fetchBlob_iff.1 hfetch
    obtain ⟨pre, data, post, hmsgs, hpre, hbytes, hlen⟩ := readBlob_iff.1 hread
    refine ⟨⟨pre, data, post, hmsgs, ?_, by simpa using hbytes⟩, hlen⟩
    rintro msg hmsg part rfl
    cases hpre _ hmsg

end

/-! ## Three bytes -/

section

local instance : Aead := tagAead

/-- A Hello and a Ping before the chunk, as `run_peer` sends them, and a Ping after it. -/
def abcReply : List WriteCall :=
  [.hello "phone" 1 "Phone", .ping, .blobChunk [97, 98, 99] true, .ping].map
    (⟨sampleNonce, ·⟩)

local instance : LanJson := tableJson (abcReply.map (·.msg))

def phoneAddr : SocketAddr := ⟨.v4 0xc0a80102#32, 5000, 0⟩

/-- An attempt that reaches the peer and reads what is on the stream. -/
def oneAttempt (stream : Bytes) : Attempt :=
  ⟨true, fun _ => true, true, true, streamMessages zeroKey stream⟩

theorem abcReply_fetched : ∃ stream, writeFrames zeroKey abcReply = .ok stream ∧
    fetchBlob [phoneAddr] 3 (oneAttempt stream) = some [97, 98, 99] ∧
    Assembled (streamMessages zeroKey stream) [97, 98, 99] := by
  have hchunks : blobChunks [97, 98, 99] = [.blobChunk [97, 98, 99] true] := by
    rw [blobChunks, if_pos (by decide)]
  have hserved : serveBlob { blobCache := fun _ => some [97, 98, 99] } "sha" =
      ([.blobChunk [97, 98, 99] true], none) := by
    simp [serveBlob, hchunks, sendAll]
  obtain ⟨hexact, hsafe⟩ := blobStream_exact (seals_tagAead zeroKey)
  obtain ⟨stream, hwrite, hfetch⟩ := hexact { blobCache := fun _ => some [97, 98, 99] } "sha"
    [97, 98, 99] 3 [phoneAddr] (oneAttempt []) abcReply rfl (by rw [hserved]) (by decide)
    ⟨rfl, rfl, rfl⟩ (by rw [hserved]; exact ⟨by decide, by decide⟩) (by decide +kernel)
    (by decide +kernel)
  have hfetched := hfetch []
  rw [List.append_nil] at hfetched
  exact ⟨stream, hwrite, hfetched, (hsafe stream 3 [phoneAddr] (oneAttempt []) _ hfetched).1⟩

end

end ClipBridge
