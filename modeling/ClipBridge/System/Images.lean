import ClipBridge.Client.Image
import ClipBridge.Lan.FrameCodec
import ClipBridge.Lib.Base64
import ClipBridge.Relay.BlobService

/-!
# Images from one device to another

`send_image` and `fetch_image` of `core/src/client.rs` on any number of devices, with the relay of
`relay/src/blob_routes.rs` between them. The relay also serves requests of others, and the calls
that serve the requests take their steps in any order. A request may fail, and the body of a
response may be cut off. What LAN peers send is arbitrary.

* `BlobServer.reply` — what a client gets for a request.
* `ImageFleet` — the relay, the cache of each device, and what was sent and fetched.
* `CollisionFree` — the hash tells apart the ciphertexts that occur in a run.
* `Intact` — each cache is addressed by content, and an image is fetched as it was sent or not at
  all.
* `intact_run` — in every run.
-/

namespace ClipBridge

open Relay (BlobServer BlobRequest BlobStore Response ResponseBody refused SocketAddr)

/-! ## One request -/

def HttpReply.map {β γ : Type} (f : β → γ) : HttpReply β → HttpReply γ
  | .failed message => .failed message
  | .panicked => .panicked
  | .answered status body => .answered status (body.map f)

namespace Relay

/-- What comes of a request; `cut` is the error if the body does not arrive. The layer that limits
the length of bodies has nothing to say here: a `GET` of `fetch_image` has none. -/
inductive Exchange where
  | failed (message : String)
  | panicked
  | refused (cut : Option String)
  | served (i : Nat) (cut : Option String)

def ResponseBody.bytes : ResponseBody → Bytes
  | .empty => []
  | .text s => s.toUTF8.toList
  | .octets bytes => bytes

def Response.arrive (cut : Option String) (resp : Response) : HttpReply ResponseBody :=
  .answered resp.status (cut.elim (.ok resp.body) .error)

/-- The reply to request `r`, unless the server has not come to it. -/
def BlobServer.reply (s : BlobServer) (r : BlobRequest) : Exchange → Option (HttpReply ResponseBody)
  | .failed message => some (.failed message)
  | .panicked => some .panicked
  | .refused cut => (Relay.refused r).map (·.arrive cut)
  | .served i cut => if s.requests[i]? = some r then (s.response i).map (·.arrive cut) else none

/-- A reply is none at all, or a response that the server has given to the request. -/
theorem BlobServer.responds_of_reply {s : BlobServer} {r : BlobRequest} {x : Exchange}
    {status : Nat} {body : Except String ResponseBody}
    (h : s.reply r x = some (.answered status body)) :
    ∃ resp cut, s.Responds r resp ∧ Response.arrive cut resp = .answered status body := by
  cases x with
  | failed message => cases h
  | panicked => cases h
  | refused cut =>
      obtain ⟨resp, hresp, harrive⟩ := Option.map_eq_some_iff.1 h
      exact ⟨resp, cut, Or.inl hresp, harrive⟩
  | served i cut =>
      simp only [reply] at h
      split at h
      · next hr =>
          obtain ⟨resp, hresp, harrive⟩ := Option.map_eq_some_iff.1 h
          exact ⟨resp, cut, Or.inr ⟨i, hr, hresp⟩, harrive⟩
      · cases h

/-- What is downloaded from the server is stored under what was asked for. -/
theorem BlobServer.stored_of_download [Sha256] {s : BlobServer} (h : s.AllAnswered)
    {groupId : GroupId} {sha : String} {x : Exchange} {reply : HttpReply ResponseBody}
    {ciphertext : Bytes} (hreply : s.reply (.get groupId sha) x = some reply)
    (hdownload : download (reply.map ResponseBody.bytes) = .ok ciphertext) :
    Stored s.maxBlobBytes s.requests ⟨groupId, sha⟩ ciphertext := by
  cases reply with
  | failed message => cases hdownload
  | panicked => cases hdownload
  | answered status body =>
      obtain ⟨resp, cut, hresponds, harrive⟩ := responds_of_reply hreply
      cases harrive
      simp only [HttpReply.map, download] at hdownload
      split at hdownload
      · next hstatus =>
          have hanswer := h _ _ hresponds
          simp only [Answer] at hanswer
          split at hanswer
          · rcases hanswer with rfl | ⟨body, rfl, hstored⟩
            · cases hstatus
            · cases cut with
              | none =>
                  simp only [Option.elim_none, Except.map, Except.mapError, ResponseBody.bytes,
                    Except.ok.injEq] at hdownload
                  exact hdownload ▸ hstored
              | some e => cases hdownload
          · subst hanswer
            cases hstatus
      · split at hdownload <;> cases hdownload

/-- A request to the server was made when it got it. -/
theorem BlobServer.requests_step [Sha256] (s : BlobServer) (e : BlobServer.Event) :
    ∀ r ∈ (s.step e).requests, r ∈ s.requests ∨ e = .request r := by
  intro r hr
  cases e with
  | request r' =>
      simp only [BlobServer.step] at hr
      split at hr
      · exact Or.inl hr
      · cases r' with
        | put groupId sha body =>
            rcases List.mem_append.1 hr with hr | hr
            · exact Or.inl hr
            · exact Or.inr (by rw [List.mem_singleton.1 hr])
        | get groupId sha =>
            rcases List.mem_append.1 hr with hr | hr
            · exact Or.inl hr
            · exact Or.inr (by rw [List.mem_singleton.1 hr])
  | thread i it => exact Or.inl hr
  | wait d => exact Or.inl hr

end Relay

/-! ## The fleet -/

structure ImageFleet (D : Type) where
  server : BlobServer
  caches : D → BlobCache
  /-- The images that `send_image` has handed on as clips. -/
  sent : List (D × Bytes × ImageMeta)
  /-- What `fetch_image` has returned. -/
  fetched : List (D × ImageMeta × Except FfiError Bytes)

/-- The base64 crate's standard engine, but for the texts of its errors. -/
@[reducible] def standardBase64 (errorText : String → String) : Base64 where
  decode text := (Base64.standard.decode text.toList).elim (.error (errorText text)) .ok

namespace ImageFleet

inductive Event (D : Type) where
  /-- The relay moves, or gets a request. -/
  | server (e : BlobServer.Event)
  | send (d : D) (imageBytes : Bytes) (mimeType : String) (width height : UInt32) (ts : UInt64)
      (nonce : { bytes : Bytes // bytes.length = nonceLen }) (uploaded : HttpReply String)
      (cmdOpen : Bool)
  | fetch (d : D) (image : ImageMeta) (lanPeers : Nat) (peers : List (List SocketAddr × Attempt))
      (x : Relay.Exchange)

variable {D : Type}

def init (store : BlobStore) : ImageFleet D := ⟨.init store, fun _ => .empty, [], []⟩

section

variable [DecidableEq D] [Aead] [Sha256] [Base64]

def step (cfg : D → ClientConfig) (f : ImageFleet D) : Event D → ImageFleet D
  | .server e => { f with server := f.server.step e }
  | .send d imageBytes mimeType width height ts nonce uploaded cmdOpen =>
      let sent := sendImage (cfg d).key (f.caches d) imageBytes mimeType width height
        (cfg d).deviceName ts ⟨nonce, uploaded, cmdOpen⟩
      { f with
        caches := Function.update f.caches d sent.2.1
        sent := f.sent ++
          ((sent.2.2.bind (·.image)).map fun image => (d, imageBytes, image)).toList }
  | .fetch d image lanPeers peers x =>
      match f.server.reply (.get (cfg d).groupId image.sha256Hex) x with
      | none => f
      | some reply =>
          let fetched := fetchImage (cfg d).key (f.caches d) image
            ⟨lanPeers, peers, reply.map ResponseBody.bytes⟩
          { f with
            caches := Function.update f.caches d fetched.2
            fetched := f.fetched ++ [(d, image, fetched.1)] }

def run (cfg : D → ClientConfig) : ImageFleet D → List (Event D) → ImageFleet D :=
  Machine.run (step cfg)

end

/-! ## The ciphertexts of a run -/

section

variable [Aead]

/-- A device has sealed an image as this ciphertext. -/
def Sealed (cfg : D → ClientConfig) (es : List (Event D)) (c : Bytes) : Prop :=
  ∃ d imageBytes mimeType width height ts, ∃ nonce : { bytes : Bytes // bytes.length = nonceLen },
    ∃ uploaded cmdOpen, .send d imageBytes mimeType width height ts nonce uploaded cmdOpen ∈ es ∧
      Aead.encrypt (cfg d).key nonce imageBytes = some c

/-- Somebody has put the bytes on the relay, or a LAN peer has sent them. -/
def Offered (es : List (Event D)) (c : Bytes) : Prop :=
  (∃ groupId sha, .server (.request (.put groupId sha c)) ∈ es) ∨
    ∃ d image lanPeers peers x, .fetch d image lanPeers peers x ∈ es ∧
      ∃ p ∈ peers, lanFetchBlob p.1 (maxBlobBytes image) p.2 = some c

variable [Sha256]

/-- Nothing that is offered has the hash of a sealed image and is another one. -/
def CollisionFree (cfg : D → ClientConfig) (es : List (Event D)) : Prop :=
  ∀ a b, Offered es a → Sealed cfg es b → sha256Hex a = sha256Hex b → a = b

variable [Base64]

/-- Where an image that was sent comes from. -/
structure SentAs (cfg : D → ClientConfig) (es : List (Event D)) (d : D) (imageBytes : Bytes)
    (image : ImageMeta) (nonce ciphertext : Bytes) : Prop where
  nonceLen : nonce.length = nonceLen
  encrypted : Aead.encrypt (cfg d).key nonce imageBytes = some ciphertext
  isSealed : Sealed cfg es ciphertext
  hash : image.sha256Hex = sha256Hex ciphertext
  nonceB64 : image.nonceB64 = String.ofList (Base64.standard.encode nonce)

/-- What comes of a fetch. -/
def Outcome (cfg : D → ClientConfig) (es : List (Event D)) (d : D) (image : ImageMeta)
    (result : Except FfiError Bytes) : Prop :=
  (∃ e : BlobError, result = .error (ClientError.blob e).toFfi) ∨
    (∃ e, decodeNonce image = .error e) ∨
    ∃ nonce c, decodeNonce image = .ok nonce ∧ Offered es c ∧ sha256Hex c = image.sha256Hex ∧
      result = (decrypt (cfg d).key nonce c).mapError fun e => (ClientError.encrypt e).toFfi

/-- What holds in every state that the events `es` lead to. -/
structure Tracked (cfg : D → ClientConfig) (es : List (Event D)) (f : ImageFleet D) : Prop where
  server : f.server.Serving
  requests : ∀ r ∈ f.server.requests, .server (.request r) ∈ es
  addressed : ∀ d, (f.caches d).Addressed
  sent : ∀ d imageBytes image, (d, imageBytes, image) ∈ f.sent →
    ∃ nonce ciphertext, SentAs cfg es d imageBytes image nonce ciphertext
  fetched : ∀ d image result, (d, image, result) ∈ f.fetched → Outcome cfg es d image result

variable {cfg : D → ClientConfig} {es : List (Event D)} {f : ImageFleet D}

theorem tracked_init (cfg : D → ClientConfig) (es : List (Event D)) (store : BlobStore)
    (h : store.inner = ∅) : Tracked cfg es (init store) where
  server := BlobServer.serving_init store h
  requests := by simp [init, BlobServer.init]
  addressed d := BlobCache.addressed_empty
  sent := by simp [init]
  fetched := by simp [init]

omit [Base64] in
/-- What `send_image` hands on tells how to fetch and open what it has sealed. -/
theorem sendImage_sentAs {d : D} {c : BlobCache} {imageBytes : Bytes} {mimeType : String}
    {width height : UInt32} {ts : UInt64} {nonce : { bytes : Bytes // bytes.length = nonceLen }}
    {uploaded : HttpReply String} {cmdOpen : Bool}
    (he : .send d imageBytes mimeType width height ts nonce uploaded cmdOpen ∈ es)
    {payload : ClipPayload} {image : ImageMeta}
    (h : (sendImage (cfg d).key c imageBytes mimeType width height (cfg d).deviceName ts
      ⟨nonce, uploaded, cmdOpen⟩).2.2 = some payload) (himage : payload.image = some image) :
    ∃ nonce ciphertext, SentAs cfg es d imageBytes image nonce ciphertext := by
  unfold sendImage encrypt at h
  cases hsealed : Aead.encrypt (cfg d).key nonce imageBytes with
  | none => simp [hsealed] at h
  | some ciphertext =>
      simp only [hsealed] at h
      split at h
      · cases h
      · split at h
        · cases h
          cases himage
          refine ⟨nonce, ciphertext, nonce.2, hsealed, ?_, rfl, ?_⟩
          · exact ⟨d, imageBytes, mimeType, width, height, ts, nonce, uploaded, cmdOpen, he,
              hsealed⟩
          · rw [← Base64.map_base64Encode]
        · cases h

omit [Base64] in
theorem fetchLan_offered {key : Key} {nonce : Bytes} {image : ImageMeta}
    {peers : List (List SocketAddr × Attempt)} {ciphertext plain : Bytes}
    (h : fetchLan key nonce image peers = some (ciphertext, plain)) :
    ∃ p ∈ peers, lanFetchBlob p.1 (maxBlobBytes image) p.2 = some ciphertext := by
  induction peers with
  | nil => cases h
  | cons p peers ih =>
      have hlater : fetchLan key nonce image peers = some (ciphertext, plain) →
          ∃ q ∈ p :: peers, lanFetchBlob q.1 (maxBlobBytes image) q.2 = some ciphertext :=
        fun h => (ih h).imp fun q hq => ⟨List.mem_cons_of_mem _ hq.1, hq.2⟩
      unfold fetchLan at h
      split at h
      · exact hlater h
      · next hfetch =>
          split at h
          · exact hlater h
          · split at h
            · cases h
              exact ⟨_, List.mem_cons_self, hfetch⟩
            · exact hlater h

/-- The relay serves what is stored under the hash asked for, and the LAN peers are checked. -/
theorem fetchImage_outcome {s : BlobServer} (hs : s.AllAnswered)
    (hrequests : ∀ r ∈ s.requests, .server (.request r) ∈ es) {d : D} {image : ImageMeta}
    {lanPeers : Nat} {peers : List (List SocketAddr × Attempt)} {x : Relay.Exchange}
    (he : .fetch d image lanPeers peers x ∈ es) {reply : HttpReply ResponseBody}
    (hreply : s.reply (.get (cfg d).groupId image.sha256Hex) x = some reply) (c : BlobCache) :
    Outcome cfg es d image
      (fetchImage (cfg d).key c image ⟨lanPeers, peers, reply.map ResponseBody.bytes⟩).1 := by
  cases hnonce : decodeNonce image with
  | error e => exact Or.inr (Or.inl ⟨e, hnonce⟩)
  | ok nonce =>
      cases hlan : (if 0 < lanPeers then fetchLan (cfg d).key nonce image peers else none) with
      | some opened =>
          obtain ⟨ciphertext, plain⟩ := opened
          have hopened := hlan
          split at hlan
          · obtain ⟨hsha, hplain⟩ := fetchLan_sound hlan
            obtain ⟨p, hp, hfetch⟩ := fetchLan_offered hlan
            have hoffered : Offered es ciphertext :=
              Or.inr ⟨d, image, lanPeers, peers, x, he, p, hp, hfetch⟩
            refine Or.inr (Or.inr ⟨nonce, ciphertext, hnonce, hoffered, hsha, ?_⟩)
            simp only [fetchImage, fetchOpened, hnonce, hopened, hplain]
            rfl
          · cases hlan
      | none =>
          cases hdownload : download (reply.map ResponseBody.bytes) with
          | error e =>
              refine Or.inl ⟨e, ?_⟩
              simp only [fetchImage, fetchOpened, hnonce, hlan, hdownload]
          | ok ciphertext =>
              have hstored := BlobServer.stored_of_download hs hreply hdownload
              have hoffered : Offered es ciphertext :=
                Or.inl ⟨_, _, hrequests _ hstored.requested⟩
              refine Or.inr (Or.inr ⟨nonce, ciphertext, hnonce, hoffered, hstored.hash, ?_⟩)
              simp only [fetchImage, fetchOpened, hnonce, hlan, hdownload]
              cases decrypt (cfg d).key nonce ciphertext <;> rfl

theorem tracked_step [DecidableEq D] (cfg : D → ClientConfig) (es : List (Event D))
    (f : ImageFleet D) (e : Event D) (he : e ∈ es) (h : Tracked cfg es f) :
    Tracked cfg es (step cfg f e) := by
  cases e with
  | server e =>
      refine ⟨BlobServer.serving_step _ _ h.server, ?_, h.addressed, h.sent, h.fetched⟩
      intro r hr
      rcases BlobServer.requests_step f.server e r hr with hr | rfl
      · exact h.requests r hr
      · exact he
  | send d imageBytes mimeType width height ts nonce uploaded cmdOpen =>
      refine ⟨h.server, h.requests, fun d' => ?_, ?_, h.fetched⟩
      · by_cases hd : d' = d
        · subst hd
          simp only [step, Function.update_self]
          have hverified : BlobCache.Verified (cfg d').key (f.caches d') (.send imageBytes mimeType
              width height (cfg d').deviceName ts ⟨nonce, uploaded, cmdOpen⟩) := trivial
          exact BlobCache.addressed_step hverified (h.addressed d')
        · simp only [step, Function.update_of_ne hd]
          exact h.addressed d'
      · intro d' imageBytes' image hsent
        rcases List.mem_append.1 hsent with hsent | hsent
        · exact h.sent d' imageBytes' image hsent
        · obtain ⟨image', hbind, heq⟩ := Option.map_eq_some_iff.1 (Option.mem_toList.1 hsent)
          obtain ⟨payload, hpayload, himage⟩ := Option.bind_eq_some_iff.1 hbind
          cases heq
          exact sendImage_sentAs he hpayload himage
  | fetch d image lanPeers peers x =>
      simp only [step]
      split
      · exact h
      · next reply hreply =>
          have hanswered := h.server.answered
          refine ⟨h.server, h.requests, fun d' => ?_, h.sent, ?_⟩
          · by_cases hd : d' = d
            · subst hd
              simp only [Function.update_self]
              have hverified : BlobCache.Verified (cfg d').key (f.caches d')
                  (.fetch image ⟨lanPeers, peers, reply.map ResponseBody.bytes⟩) := by
                rw [BlobCache.verified_iff]
                intro nonce ciphertext plain _ _ hdownload _
                exact (BlobServer.stored_of_download hanswered hreply hdownload).hash
              exact BlobCache.addressed_step hverified (h.addressed d')
            · simp only [Function.update_of_ne hd]
              exact h.addressed d'
          · intro d' image' result hmem
            rcases List.mem_append.1 hmem with hmem | hmem
            · exact h.fetched d' image' result hmem
            · cases List.mem_singleton.1 hmem
              exact fetchImage_outcome hanswered h.requests he hreply _

theorem tracked_run [DecidableEq D] (cfg : D → ClientConfig) (store : BlobStore)
    (hstore : store.inner = ∅) (es : List (Event D)) : Tracked cfg es (run cfg (init store) es) :=
  Machine.invariant_along (tracked_step cfg es) (tracked_init cfg es store hstore)
    (Machine.along_iff_forall_mem.2 fun _ he => he)

end

/-! ## What is fetched was sent -/

section

variable [Sha256]

/-- * Every entry of every cache hashes to its key.
* An image that a device with the same key has sent is fetched as it was, or the relay did not
  serve it. -/
structure Intact (cfg : D → ClientConfig) (f : ImageFleet D) : Prop where
  addressed : ∀ d, (f.caches d).Addressed
  fetched : ∀ d d' image imageBytes result, (d, image, result) ∈ f.fetched →
    (d', imageBytes, image) ∈ f.sent → (cfg d').key = (cfg d).key →
      result = .ok imageBytes ∨ ∃ e : BlobError, result = .error (ClientError.blob e).toFfi

omit [Sha256] in
theorem decodeNonce_sent (errorText : String → String) {image : ImageMeta} {nonce : Bytes}
    (hlen : nonce.length = nonceLen)
    (h : image.nonceB64 = String.ofList (Base64.standard.encode nonce)) :
    @decodeNonce (standardBase64 errorText) image = .ok nonce := by
  have hdecode : (standardBase64 errorText).decode image.nonceB64 = .ok nonce := by
    show (Base64.standard.decode image.nonceB64.toList).elim _ Except.ok = .ok nonce
    rw [h, String.toList_ofList, Base64.Alphabet.decode_encode, Option.elim_some]
  simp only [decodeNonce, hdecode, hlen, ne_eq, not_true_eq_false, if_false]

variable [Aead]

/-- **An image is fetched as it was sent or not at all, and every cache is addressed by content**,
in every run of any number of devices with the relay, in whatever order its calls take their
steps and whatever else is asked of it: if the cipher opens what it sealed, and no two of the
ciphertexts that occur collide. -/
theorem intact_run [DecidableEq D] (errorText : String → String) (cfg : D → ClientConfig)
    (budgetBytes : UInt64) (ttl : Duration) (maxBlobBytes : UInt64) (es : List (Event D))
    (hopens : ∀ d nonce plain c, nonce.length = nonceLen →
      Aead.encrypt (cfg d).key nonce plain = some c →
        Aead.decrypt (cfg d).key nonce c = some plain)
    (hfree : CollisionFree cfg es) :
    let _ := standardBase64 errorText
    Intact cfg (run cfg (init (.new budgetBytes ttl maxBlobBytes)) es) := by
  intro _
  have htracked := tracked_run cfg (.new budgetBytes ttl maxBlobBytes) rfl es
  refine ⟨htracked.addressed, fun d d' image imageBytes result hfetched hsent hkey => ?_⟩
  obtain ⟨nonce, ciphertext, hsent⟩ := htracked.sent d' imageBytes image hsent
  have hnonce := decodeNonce_sent errorText hsent.nonceLen hsent.nonceB64
  rcases htracked.fetched d image result hfetched with
    hblob | ⟨e, he⟩ | ⟨nonce', c, hnonce', hoffered, hsha, hresult⟩
  · exact Or.inr hblob
  · rw [hnonce] at he
    cases he
  · rw [hnonce, Except.ok.injEq] at hnonce'
    have hc : c = ciphertext := hfree c ciphertext hoffered hsent.isSealed (hsha.trans hsent.hash)
    have hplain : decrypt (cfg d).key nonce ciphertext = .ok imageBytes := by
      have hdec := hopens d' nonce imageBytes ciphertext hsent.nonceLen hsent.encrypted
      rw [hkey] at hdec
      simp only [decrypt, hsent.nonceLen, ne_eq, not_true_eq_false, if_false, hdec]
    rw [← hnonce', hc, hplain] at hresult
    exact Or.inl hresult

end

/-- Two devices with the same key: one sends an image of three bytes, the other one fetches it. -/
def sentAndFetched : List (Event Bool) :=
  let sha := @sha256Hex abcSha256 [97, 98, 99]
  let image : ImageMeta := ⟨"image/png", 1, 1, 3, sha, "AAAAAAAAAAAAAAAA"⟩
  [.send true [97, 98, 99] "image/png" 1 1 7 sampleNonce (.answered 204 (.ok "")) true,
    .server (.request (.put "home" sha [97, 98, 99]))] ++
  List.replicate 7 (.server (.thread 0 BlobStore.asStored)) ++
  [.server (.request (.get "home" sha)), .server (.thread 1 BlobStore.asStored),
    .fetch false image 0 [] (.served 1 none)]

theorem sentAndFetched_intact :
    let _ := abcSha256; let _ := clearAead; let _ := standardBase64 id
    let f := run (fun _ : Bool => sampleConfig) (init (.new 1024 300 512)) sentAndFetched
    Intact (fun _ => sampleConfig) f ∧
      f.sent.length = 1 ∧ f.fetched.map (·.2.2.toOption) = [some [97, 98, 99]] := by
  intro _ _ _ f
  have hoffered : ∀ a, Offered sentAndFetched a → a = [97, 98, 99] := by
    rintro a (⟨groupId, sha, hmem⟩ | ⟨d, image, lanPeers, peers, x, hmem, p, hp, -⟩)
    · simp [sentAndFetched] at hmem
      exact hmem.2.2
    · simp [sentAndFetched] at hmem
      rw [hmem.2.2.2.1] at hp
      cases hp
  have hsealed : ∀ b, Sealed (fun _ => sampleConfig) sentAndFetched b → b = [97, 98, 99] := by
    rintro b ⟨d, imageBytes, mimeType, width, height, ts, nonce, uploaded, cmdOpen, hmem, hseal⟩
    simp [sentAndFetched] at hmem
    cases hseal
    exact hmem.2.1
  refine ⟨intact_run id (fun _ => sampleConfig) 1024 300 512 sentAndFetched ?_ ?_,
    by decide +kernel⟩
  · intro d nonce plain c _ h
    cases h
    rfl
  · intro a b ha hb _
    rw [hoffered a ha, hsealed b hb]

end ImageFleet

end ClipBridge
