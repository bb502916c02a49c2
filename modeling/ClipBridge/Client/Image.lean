import ClipBridge.Core.Worker
import ClipBridge.Lan.Frame
import ClipBridge.Lib.Machine
import ClipBridge.Relay.Hub

/-!
# Sending and fetching images

Following `send_image` and `fetch_image` of `core/src/client.rs`, `BlobCache` and `fetch_blob` of
`core/src/lan.rs`, and `core/src/blob.rs`. The ciphertext of an image is kept under its own
SHA-256: by the relay, and in a small cache from which LAN peers are served. An image is fetched
from LAN peers one after the other, and from the relay if none of them has it.

What a call finds outside is an argument of it: the nonce that is drawn, the answers of the LAN
peers, the reply of the relay. The messages of a peer are those that arrive before the stream
ends, fails or is silent for ten seconds.

* `Addressed` — every entry of the cache hashes to its key.
* `Verified` — an image that is returned has been decrypted from a ciphertext of the right hash.
* `RelayMatches` — what the relay serves has the right hash, if it is used.
* `contentAddressed_iff` — calls are verified and the cache is addressed exactly if that is so.
-/

namespace ClipBridge

open Relay (SocketAddr)

/-! ## The cache -/

def blobCacheMaxBytes : Nat := 64 * 1024 * 1024

def blobCacheMaxEntries : Nat := 32

structure BlobCache where
  map : AList fun _ : String => Bytes
  order : List String
  bytes : Nat

namespace BlobCache

def empty : BlobCache := ⟨∅, [], 0⟩

def get (c : BlobCache) (sha256Hex : String) : Option Bytes := c.map.lookup sha256Hex

/-- The eviction loop, oldest first until both caps hold. -/
def evict (map : AList fun _ : String => Bytes) (bytes : Nat) : List String → BlobCache
  | [] => ⟨map, [], bytes⟩
  | old :: order =>
      if blobCacheMaxBytes < bytes ∨ blobCacheMaxEntries < map.entries.length then
        match map.lookup old with
        | some v => evict (map.erase old) (bytes - v.length) order
        | none => evict map bytes order
      else ⟨map, old :: order, bytes⟩

def insert (c : BlobCache) (sha256Hex : String) (data : Bytes) : BlobCache :=
  if sha256Hex ∈ c.map then c
  else evict (c.map.insert sha256Hex data) (c.bytes + data.length) (c.order ++ [sha256Hex])

end BlobCache

/-! ## The relay's endpoint -/

inductive BlobError where
  | http (message : String)
  | notFound
  | tooLarge
  | rejected (message : String)
  | joinPanic
  deriving DecidableEq, Repr

def BlobError.message : BlobError → String
  | .http message => "http: " ++ message
  | .notFound => "blob not found"
  | .tooLarge => "blob too large for relay (status 413)"
  | .rejected message => "relay rejected upload: " ++ message
  | .joinPanic => "worker thread join failed"

/-- What comes of a request; the body may fail to arrive. -/
inductive HttpReply (β : Type) where
  | failed (message : String)
  | panicked
  | answered (status : Nat) (body : Except String β)

def upload : HttpReply String → Except BlobError Unit
  | .failed message => .error (.http message)
  | .panicked => .error .joinPanic
  | .answered status body =>
      if status = 204 ∨ status = 200 then .ok ()
      else if status = 413 then .error .tooLarge
      else .error (.rejected (toString status ++ " " ++ body.toOption.getD ""))

def download : HttpReply Bytes → Except BlobError Bytes
  | .failed message => .error (.http message)
  | .panicked => .error .joinPanic
  | .answered status body =>
      if status = 200 then body.mapError .http
      else if status = 404 then .error .notFound
      else .error (.rejected (toString status))

/-! ## Errors -/

inductive ClientError where
  | stopped
  | encrypt (e : CryptoError)
  | blob (e : BlobError)
  | invalidImageMeta (reason : String)

def ClientError.message : ClientError → String
  | .stopped => "client already stopped"
  | .encrypt e => "encrypt failed: " ++ e.message
  | .blob e => "blob: " ++ e.message
  | .invalidImageMeta reason => "invalid image meta: " ++ reason

inductive FfiError where
  | stopped
  | blobNotFound
  | blobTooLarge
  | internal (reason : String)
  deriving DecidableEq, Repr

def ClientError.toFfi : ClientError → FfiError
  | .stopped => .stopped
  | .blob .notFound => .blobNotFound
  | .blob .tooLarge => .blobTooLarge
  | e => .internal e.message

/-! ## A LAN peer -/

/-- What an attempt to fetch from one peer meets. -/
structure Attempt where
  /-- The thread gets its runtime and is joined. -/
  runs : Bool
  connects : SocketAddr → Bool
  helloSent : Bool
  requestSent : Bool
  reads : List LanMessage

/-- The reading loop, with the bytes that have come so far. -/
def readBlob (maxBytes : Nat) (buf : Bytes) : List LanMessage → Option Bytes
  | [] => none
  | .blobChunk data last :: rest =>
      let buf := buf ++ data
      if maxBytes < buf.length then none
      else if last then some buf
      else readBlob maxBytes buf rest
  | .blobMiss _ :: _ => none
  | .ping :: rest | .hello .. :: rest | .clip .. :: rest => readBlob maxBytes buf rest
  | .blobRequest _ :: _ | .fileOffer _ :: _ | .fileAccept _ :: _ | .fileReject .. :: _
  | .fileChunk .. :: _ | .fileComplete _ :: _ | .fileCancel .. :: _ => none

def fetchBlob (candidates : List SocketAddr) (maxBytes : Nat) (a : Attempt) : Option Bytes :=
  if candidates.any a.connects then
    if a.helloSent && a.requestSent then readBlob maxBytes [] a.reads else none
  else none

def lanFetchBlob (candidates : List SocketAddr) (maxBytes : Nat) (a : Attempt) : Option Bytes :=
  if candidates.isEmpty then none
  else if a.runs then fetchBlob candidates maxBytes a
  else none

/-! ## The calls -/

/-- The base64 crate's standard engine; an error comes with its text. -/
class Base64 where
  decode : String → Except String Bytes

structure SendImageEnv where
  /-- The nonce that `encrypt` draws. -/
  nonce : Bytes
  uploaded : HttpReply String
  /-- The worker still receives commands. -/
  cmdOpen : Bool

structure FetchEnv where
  lanPeers : Nat
  /-- The candidates in `peer_addrs`, in the order of the map, and what comes of dialling them. -/
  peers : List (List SocketAddr × Attempt)
  relay : HttpReply Bytes

section

variable [Aead] [Sha256]

/-- Also returns the clip that is queued. -/
def sendImage (key : Key) (c : BlobCache) (imageBytes : Bytes) (mimeType : String)
    (width height : UInt32) (deviceName : String) (ts : UInt64) (env : SendImageEnv) :
    Except FfiError Unit × BlobCache × Option ClipPayload :=
  match encrypt key env.nonce imageBytes with
  | .error e => (.error (ClientError.encrypt e).toFfi, c, none)
  | .ok (ciphertext, nonce) =>
      let sha := sha256Hex ciphertext
      let c := c.insert sha ciphertext
      match upload env.uploaded with
      | .error e => (.error (ClientError.blob e).toFfi, c, none)
      | .ok () =>
          let nonceB64 := (JsonText.base64Encode nonce).map fun b => Char.ofNat b.toNat
          let image : ImageMeta :=
            ⟨mimeType, width, height, UInt64.ofNat imageBytes.length, sha, .ofList nonceB64⟩
          let payload : ClipPayload := ⟨.image, "", deviceName, ts, some image⟩
          if env.cmdOpen then (.ok (), c, some payload) else (.error .stopped, c, none)

/-- Ciphertext is the plain text and a tag; capped at what a `usize` of 64 bits holds. -/
def maxBlobBytes (image : ImageMeta) : Nat := min (image.sizeBytes.toNat + 1024) (2 ^ 64 - 1)

/-- The loop over the LAN peers: the first ciphertext of the right hash that can be opened, and
what it contains. -/
def fetchLan (key : Key) (nonce : Bytes) (image : ImageMeta) :
    List (List SocketAddr × Attempt) → Option (Bytes × Bytes)
  | [] => none
  | (candidates, a) :: peers =>
      match lanFetchBlob candidates (maxBlobBytes image) a with
      | none => fetchLan key nonce image peers
      | some ciphertext =>
          if sha256Hex ciphertext ≠ image.sha256Hex then fetchLan key nonce image peers
          else
            match decrypt key nonce ciphertext with
            | .ok plain => some (ciphertext, plain)
            | .error _ => fetchLan key nonce image peers

variable [Base64]

/-- The nonce of an image, of the right length. -/
def decodeNonce (image : ImageMeta) : Except ClientError Bytes :=
  match Base64.decode image.nonceB64 with
  | .error e => .error (.invalidImageMeta ("nonce_b64: " ++ e))
  | .ok nonce =>
      if nonce.length ≠ nonceLen then
        .error (.invalidImageMeta
          ("nonce length " ++ toString nonce.length ++ " != " ++ toString nonceLen))
      else .ok nonce

/-- What `fetch_image` gets hold of: the ciphertext, and what it contains. -/
def fetchOpened (key : Key) (image : ImageMeta) (env : FetchEnv) :
    Except ClientError (Bytes × Bytes) :=
  match decodeNonce image with
  | .error e => .error e
  | .ok nonce =>
      match (if 0 < env.lanPeers then fetchLan key nonce image env.peers else none) with
      | some opened => .ok opened
      | none =>
          match download env.relay with
          | .error e => .error (.blob e)
          | .ok ciphertext =>
              match decrypt key nonce ciphertext with
              | .error e => .error (.encrypt e)
              | .ok plain => .ok (ciphertext, plain)

def fetchImage (key : Key) (c : BlobCache) (image : ImageMeta) (env : FetchEnv) :
    Except FfiError Bytes × BlobCache :=
  match fetchOpened key image env with
  | .error e => (.error e.toFfi, c)
  | .ok (ciphertext, plain) => (.ok plain, c.insert image.sha256Hex ciphertext)

end

inductive ImageCall where
  | send (imageBytes : Bytes) (mimeType : String) (width height : UInt32) (deviceName : String)
      (ts : UInt64) (env : SendImageEnv)
  | fetch (image : ImageMeta) (env : FetchEnv)

/-! ## What is fetched -/

section

variable [Aead] [Sha256]

theorem fetchLan_sound {key : Key} {nonce : Bytes} {image : ImageMeta}
    {peers : List (List SocketAddr × Attempt)} {ciphertext plain : Bytes}
    (h : fetchLan key nonce image peers = some (ciphertext, plain)) :
    sha256Hex ciphertext = image.sha256Hex ∧ decrypt key nonce ciphertext = .ok plain := by
  induction peers with
  | nil => cases h
  | cons p peers ih =>
      unfold fetchLan at h
      split at h
      · exact ih h
      · split at h
        · exact ih h
        · rename_i hsha
          split at h
          · rename_i hplain
            cases h
            exact ⟨not_not.1 hsha, hplain⟩
          · exact ih h

/-- A LAN peer gives a ciphertext of the right hash that can be opened. -/
def LanServes (key : Key) (nonce : Bytes) (image : ImageMeta) (env : FetchEnv) : Prop :=
  0 < env.lanPeers ∧ ∃ p ∈ env.peers, ∃ ciphertext plain,
    lanFetchBlob p.1 (maxBlobBytes image) p.2 = some ciphertext ∧
      sha256Hex ciphertext = image.sha256Hex ∧ decrypt key nonce ciphertext = .ok plain

theorem fetchLan_eq_none {key : Key} {nonce : Bytes} {image : ImageMeta}
    {peers : List (List SocketAddr × Attempt)} :
    fetchLan key nonce image peers = none ↔ ∀ p ∈ peers, ∀ ciphertext plain,
      lanFetchBlob p.1 (maxBlobBytes image) p.2 = some ciphertext →
      sha256Hex ciphertext = image.sha256Hex → decrypt key nonce ciphertext ≠ .ok plain := by
  induction peers with
  | nil => exact ⟨fun _ p hp => absurd hp List.not_mem_nil, fun _ => rfl⟩
  | cons p peers ih =>
      obtain ⟨candidates, a⟩ := p
      rw [fetchLan, List.forall_mem_cons, ← ih]
      cases hfetch : lanFetchBlob candidates (maxBlobBytes image) a with
      | none =>
          constructor
          · intro h
            exact ⟨fun _ _ hnone => (by cases hnone), h⟩
          · exact And.right
      | some ciphertext =>
          by_cases hsha : sha256Hex ciphertext = image.sha256Hex
          · simp only [if_neg (not_not.2 hsha)]
            cases hplain : decrypt key nonce ciphertext with
            | ok plain =>
                constructor
                · intro h
                  cases h
                · intro h
                  exact absurd hplain (h.1 ciphertext plain rfl hsha)
            | error e =>
                constructor
                · intro h
                  refine ⟨fun c plain hc _ hok => ?_, h⟩
                  cases hc
                  rw [hplain] at hok
                  cases hok
                · exact And.right
          · simp only [if_pos hsha]
            constructor
            · intro h
              refine ⟨fun c plain hc hsha' => ?_, h⟩
              cases hc
              exact absurd hsha' hsha
            · exact And.right

variable [Base64]

/-- What is opened is of the right hash, or it comes from the relay. -/
theorem fetchOpened_eq_ok {key : Key} {image : ImageMeta} {env : FetchEnv}
    {ciphertext plain : Bytes} (h : fetchOpened key image env = .ok (ciphertext, plain)) :
    ∃ nonce, decodeNonce image = .ok nonce ∧ decrypt key nonce ciphertext = .ok plain ∧
      (sha256Hex ciphertext = image.sha256Hex ∨
        download env.relay = .ok ciphertext ∧ ¬ LanServes key nonce image env) := by
  unfold fetchOpened at h
  split at h
  · cases h
  · rename_i nonce hnonce
    refine ⟨nonce, hnonce, ?_⟩
    split at h
    · rename_i opened hlan
      cases h
      split at hlan
      · obtain ⟨hsha, hplain⟩ := fetchLan_sound hlan
        exact ⟨hplain, Or.inl hsha⟩
      · cases hlan
    · rename_i hlan
      have hserves : ¬ LanServes key nonce image env := by
        rintro ⟨hpeers, p, hp, c, plain', hfetch, hsha, hplain⟩
        rw [if_pos hpeers] at hlan
        exact fetchLan_eq_none.1 hlan p hp c plain' hfetch hsha hplain
      split at h
      · cases h
      · rename_i hdownload
        split at h
        · cases h
        · rename_i hplain
          cases h
          exact ⟨hplain, Or.inr ⟨hdownload, hserves⟩⟩

theorem fetchOpened_of_relay {key : Key} {image : ImageMeta} {env : FetchEnv}
    {nonce ciphertext plain : Bytes} (hnonce : decodeNonce image = .ok nonce)
    (hserves : ¬ LanServes key nonce image env) (hdownload : download env.relay = .ok ciphertext)
    (hplain : decrypt key nonce ciphertext = .ok plain) :
    fetchOpened key image env = .ok (ciphertext, plain) := by
  have hlan : (if 0 < env.lanPeers then fetchLan key nonce image env.peers else none) = none := by
    split
    · rename_i hpeers
      apply fetchLan_eq_none.2
      intro p hp c plain' hfetch hsha hopen
      exact hserves ⟨hpeers, p, hp, c, plain', hfetch, hsha, hopen⟩
    · rfl
  simp only [fetchOpened, hnonce, hlan, hdownload, hplain]

end

/-! ## Content addresses -/

namespace BlobCache

/-- What stays was there before. -/
theorem lookup_evict {map : AList fun _ : String => Bytes} {bytes : Nat} {order : List String}
    {k : String} {v : Bytes} (h : (evict map bytes order).map.lookup k = some v) :
    map.lookup k = some v := by
  induction order generalizing map bytes with
  | nil => exact h
  | cons old order ih =>
      unfold evict at h
      split at h
      · split at h
        · have herase := ih h
          by_cases hk : k = old
          · rw [hk, AList.lookup_erase] at herase
            cases herase
          · rwa [AList.lookup_erase_ne hk] at herase
        · exact ih h
      · exact h

section

variable [Sha256]

/-- Every entry hashes to its key. -/
def Addressed (c : BlobCache) : Prop := ∀ k v, c.get k = some v → sha256Hex v = k

theorem addressed_empty : Addressed empty := by
  intro k v h
  cases h

theorem Addressed.insert {c : BlobCache} (hc : Addressed c) {data : Bytes} {k : String}
    (hdata : sha256Hex data = k) : Addressed (c.insert k data) := by
  intro k' v h
  unfold BlobCache.insert BlobCache.get at h
  split at h
  · exact hc k' v h
  · have hmap := lookup_evict h
    by_cases hk : k' = k
    · rw [hk, AList.lookup_insert, Option.some.injEq] at hmap
      rw [hk, ← hmap, hdata]
    · rw [AList.lookup_insert_ne hk] at hmap
      exact hc k' v hmap

variable [Aead] [Base64]

def step (key : Key) (c : BlobCache) : ImageCall → BlobCache
  | .send imageBytes mimeType width height deviceName ts env =>
      (sendImage key c imageBytes mimeType width height deviceName ts env).2.1
  | .fetch image env => (fetchImage key c image env).2

def run (key : Key) : BlobCache → List ImageCall → BlobCache := Machine.run (step key)

/-- An image that `fetch_image` returns was decrypted from a ciphertext of the hash asked for. -/
def Verified (key : Key) (c : BlobCache) : ImageCall → Prop
  | .fetch image env => ∀ plain, (fetchImage key c image env).1 = .ok plain →
      ∃ nonce ciphertext, fetchOpened key image env = .ok (ciphertext, plain) ∧
        decodeNonce image = .ok nonce ∧ decrypt key nonce ciphertext = .ok plain ∧
        sha256Hex ciphertext = image.sha256Hex
  | .send .. => True

/-- What the relay serves is of the hash asked for, if it can be opened and no LAN peer has served
the image. -/
def RelayMatches (key : Key) (_ : BlobCache) : ImageCall → Prop
  | .fetch image env => ∀ nonce ciphertext plain, decodeNonce image = .ok nonce →
      ¬ LanServes key nonce image env → download env.relay = .ok ciphertext →
      decrypt key nonce ciphertext = .ok plain → sha256Hex ciphertext = image.sha256Hex
  | .send .. => True

theorem fetchImage_eq_ok {key : Key} {c : BlobCache} {image : ImageMeta} {env : FetchEnv}
    {plain : Bytes} : (fetchImage key c image env).1 = .ok plain ↔
      ∃ ciphertext, fetchOpened key image env = .ok (ciphertext, plain) := by
  unfold fetchImage
  split
  · rename_i e hopened
    simp [hopened]
  · rename_i ciphertext plain' hopened
    simp [hopened]

theorem verified_iff (key : Key) (c : BlobCache) (call : ImageCall) :
    Verified key c call ↔ RelayMatches key c call := by
  cases call with
  | send => exact Iff.rfl
  | fetch image env =>
      constructor
      · intro h nonce ciphertext plain hnonce hserves hdownload hplain
        have hopened := fetchOpened_of_relay hnonce hserves hdownload hplain
        obtain ⟨_, c', hopened', -, -, hsha⟩ := h plain (fetchImage_eq_ok.2 ⟨_, hopened⟩)
        rw [hopened] at hopened'
        cases hopened'
        exact hsha
      · intro h plain hok
        obtain ⟨ciphertext, hopened⟩ := fetchImage_eq_ok.1 hok
        obtain ⟨nonce, hnonce, hplain, hfrom⟩ := fetchOpened_eq_ok hopened
        refine ⟨nonce, ciphertext, hopened, hnonce, hplain, ?_⟩
        rcases hfrom with hsha | ⟨hdownload, hserves⟩
        · exact hsha
        · exact h nonce ciphertext plain hnonce hserves hdownload hplain

theorem addressed_step {key : Key} {c : BlobCache} {call : ImageCall}
    (hverified : Verified key c call) (hc : Addressed c) : Addressed (step key c call) := by
  cases call with
  | send imageBytes mimeType width height deviceName ts env =>
      show Addressed (sendImage key c imageBytes mimeType width height deviceName ts env).2.1
      unfold sendImage
      split
      · exact hc
      · rename_i ciphertext nonce _
        have hseeded : Addressed (c.insert (sha256Hex ciphertext) ciphertext) := hc.insert rfl
        dsimp only
        split
        · exact hseeded
        · split <;> exact hseeded
  | fetch image env =>
      show Addressed (fetchImage key c image env).2
      cases hopened : fetchOpened key image env with
      | error e =>
          simp only [fetchImage, hopened]
          exact hc
      | ok opened =>
          obtain ⟨ciphertext, plain⟩ := opened
          obtain ⟨_, c', hopened', -, -, hsha⟩ :=
            hverified plain (fetchImage_eq_ok.2 ⟨ciphertext, hopened⟩)
          rw [hopened] at hopened'
          cases hopened'
          simp only [fetchImage, hopened]
          exact hc.insert hsha

/-- **Through any calls, every image that is fetched is verified and every entry of the cache
hashes to its key, exactly if what is taken from the relay has the hash asked for.** -/
theorem contentAddressed_iff (key : Key) (calls : List ImageCall) :
    (Machine.Along (step key) (Verified key) empty calls ∧
        ∀ pre, pre <+: calls → Addressed (run key empty pre)) ↔
      Machine.Along (step key) (RelayMatches key) empty calls := by
  have hsame : Machine.Along (step key) (Verified key) empty calls ↔
      Machine.Along (step key) (RelayMatches key) empty calls :=
    Machine.along_congr (I := fun _ => True) (fun _ _ _ _ => trivial)
      (fun c call _ => verified_iff key c call) trivial
  rw [← hsame]
  refine ⟨And.left, fun hverified => ⟨hverified, ?_⟩⟩
  exact Machine.invariant_throughout (fun _ _ => addressed_step) addressed_empty hverified

end

/-! ## A relay that serves other bytes -/

/-- The nonce is written as sixteen `A`s. -/
@[reducible] def zeroBase64 : Base64 where
  decode _ := .ok (List.replicate nonceLen 0)

/-- An image by the hash of other bytes than the relay serves. -/
def otherBytes : List ImageCall :=
  [.fetch ⟨"image/png", 1, 1, 3,
      "e3b0c44298fc1c149afbf4c8996fb92427ae41e4649b934ca495991b7852b855", "AAAAAAAAAAAAAAAA"⟩
    ⟨0, [], .answered 200 (.ok [97, 98, 99])⟩]

theorem otherBytes_unverified :
    let _ := abcSha256; let _ := clearAead; let _ := zeroBase64
    ¬ ∀ calls, Machine.Along (step sampleConfig.key) (Verified sampleConfig.key) empty calls ∧
      ∀ pre, pre <+: calls → Addressed (run sampleConfig.key empty pre) := by
  intro _ _ _ h
  exact absurd ((h otherBytes).2 otherBytes List.prefix_rfl
    "e3b0c44298fc1c149afbf4c8996fb92427ae41e4649b934ca495991b7852b855" [97, 98, 99]
    (by decide +kernel)) (by decide +kernel)

end BlobCache

end ClipBridge
