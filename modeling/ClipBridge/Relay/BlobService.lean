import ClipBridge.Relay.BlobStoreThreads

/-!
# The blob endpoint

Following `put_blob` and `get_blob` of `relay/src/blob_routes.rs`, and `put` and `get` of
`relay/src/blob.rs` as they are called from there: by any number of requests at a time, whose calls
take their steps in any order. In front of the handlers `app` of `relay/src/lib.rs` puts the layers
of other crates, which limit the length of bodies: the requests here are those that they let
through, and nothing is assumed of which these are.

* `BlobThread.Reaches` — what a call does while no other one moves and no time passes.
* `BlobRuntime.alone_run` — by itself, a call under way does what `BlobStore.put` and
  `BlobStore.get` say.
* `BlobServer` — the requests and the calls that serve them.
* `Answer` — a right answer: what is served was put under that group and key, and hashes to it.
* `answers_run` — every answer is right, however the calls get in each other's way.
-/

namespace ClipBridge.Relay

open BlobStore (expiredKeys oldestKey evictOldest evictUntilRoomFor)

/-! ## A call by itself -/

namespace BlobThread

/-- The steps of one call, at one time. -/
def Reaches (clock : Instant) (it : Iteration) :
    BlobStore × BlobThread → BlobStore × BlobThread → Prop :=
  Relation.ReflTransGen fun a b => a.2.step a.1 clock it = b

variable {clock : Instant} {it : Iteration}

theorem Reaches.of_step {s s' : BlobStore} {t t' : BlobThread} {b : BlobStore × BlobThread}
    (hstep : t.step s clock it = (s', t')) (h : Reaches clock it (s', t') b) :
    Reaches clock it (s, t) b :=
  Relation.ReflTransGen.head hstep h

theorem reaches_removeEntry (s : BlobStore) (key : BlobKey) (next : BlobThread) :
    Reaches clock it (removeEntry s key next) (s.remove key, next) := by
  cases hlookup : s.inner.lookup key with
  | none =>
      simp only [removeEntry, BlobStore.remove, hlookup]
      exact .refl
  | some entry =>
      simp only [removeEntry, BlobStore.remove, hlookup]
      exact .single rfl

theorem reaches_remove (s : BlobStore) (key : BlobKey) (next : BlobThread) :
    Reaches clock it (s, .remove key next) (s.remove key, next) :=
  .head rfl (reaches_removeEntry s key next)

theorem reaches_foldr_remove (keys : List BlobKey) (s : BlobStore) (t : BlobThread) :
    Reaches clock it (s, keys.foldr .remove t) (keys.foldl BlobStore.remove s, t) := by
  induction keys generalizing s with
  | nil => exact .refl
  | cons key keys ih => exact (reaches_remove s key _).trans (ih (s.remove key))

/-- Every turn of the loop takes an entry out, so there are no more turns than entries. -/
theorem reaches_evictOldest (key : BlobKey) (body : Bytes) {turns : Nat} {s : BlobStore}
    (hturns : s.inner.entries.length ≤ turns) :
    Reaches clock it (s, .load key body)
      (evictOldest it (UInt64.ofNat body.length) turns s, .stamp key body) := by
  by_cases hover : s.budgetBytes < s.totalBytes + UInt64.ofNat body.length
  · refine .of_step (by rw [step, if_pos hover]) ?_
    cases hold : oldestKey it s.inner with
    | none =>
        have hsame : evictOldest it (UInt64.ofNat body.length) turns s = s := by
          cases turns <;> simp [evictOldest, hold]
        rw [hsame]
        exact .single (by simp only [step, hold])
    | some old =>
        refine .of_step (by rw [step, hold]) ((reaches_remove s old _).trans ?_)
        obtain ⟨e, hlookup⟩ := BlobStore.mem_of_oldestKey hold
        have hmem : old ∈ s.inner := AList.lookup_isSome.1 (by rw [hlookup]; rfl)
        have hlength : (s.remove old).inner.entries.length + 1 = s.inner.entries.length := by
          rw [BlobStore.remove_inner, ← BlobStore.length_keys, ← BlobStore.length_keys,
            AList.keys_erase, List.length_erase_of_mem (AList.mem_keys.2 hmem)]
          exact Nat.sub_add_cancel (List.length_pos_of_mem (AList.mem_keys.2 hmem))
        cases turns with
        | zero => omega
        | succ turns =>
            rw [evictOldest, if_pos hover, hold]
            exact reaches_evictOldest key body (by omega)
  · have hsame : evictOldest it (UInt64.ofNat body.length) turns s = s := by
      cases turns with
      | zero => rfl
      | succ turns => rw [evictOldest, if_neg hover]
    rw [hsame]
    exact .single (by rw [step, if_neg hover])

theorem reaches_put [Sha256] (s : BlobStore) (key : BlobKey) (body : Bytes) :
    Reaches clock it (s, startPut s.maxBlobBytes key body)
      ((s.put key body clock clock it).2, .done (.put (s.put key body clock clock it).1)) := by
  unfold startPut BlobStore.put
  split
  · exact .refl
  split
  · exact .refl
  split
  · next hmem => exact .single (by rw [step, if_pos hmem])
  · next hmem =>
      let swept := (expiredKeys it s.ttl clock s.inner).foldl BlobStore.remove s
      have hsweep : Reaches clock it (s, .contains key body) (swept, .load key body) := by
        refine .of_step (by rw [step, if_neg hmem]) (Reaches.of_step rfl ?_)
        exact .of_step rfl (reaches_foldr_remove _ s _)
      have hevict : Reaches clock it (swept, .load key body)
          (evictUntilRoomFor it clock s (UInt64.ofNat body.length), .stamp key body) :=
        reaches_evictOldest key body le_rfl
      refine (hsweep.trans hevict).trans ?_
      dsimp only
      generalize evictUntilRoomFor it clock s (UInt64.ofNat body.length) = evicted
      refine Reaches.of_step rfl ?_
      cases hlookup : evicted.inner.lookup key with
      | none => exact .of_step (by rw [step, hlookup]) (.single rfl)
      | some entry => exact .single (by simp only [step, hlookup])

theorem reaches_get (s : BlobStore) (key : BlobKey) :
    Reaches clock it (s, .find key)
      ((s.get key clock).2, .done (.got (s.get key clock).1)) := by
  unfold BlobStore.get
  cases hlookup : s.inner.lookup key with
  | none => exact .single (by simp only [step, hlookup])
  | some entry =>
      dsimp only
      split
      · next hexpired =>
          refine .of_step (by simp only [step, hlookup, if_pos hexpired]; rfl) ?_
          exact .head rfl (reaches_removeEntry s key _)
      · next hexpired => exact .single (by simp only [step, hlookup, if_neg hexpired])

theorem lookup_of_removeEntry {store : BlobStore} {key key' : BlobKey} {next : BlobThread}
    {e : BlobEntry} (h : (removeEntry store key' next).1.inner.lookup key = some e) :
    store.inner.lookup key = some e := by
  unfold removeEntry at h
  split at h
  · exact AList.lookup_of_lookup_erase h
  · exact h

theorem step_maxBlobBytes (t : BlobThread) (store : BlobStore) (clock : Instant)
    (it : Iteration) : (t.step store clock it).1.maxBlobBytes = store.maxBlobBytes := by
  cases t with
  | drop key foundAt => simp only [step, removeEntry]; split <;> rfl
  | remove key next => simp only [step, removeEntry]; split <;> rfl
  | _ => rfl

end BlobThread

namespace BlobRuntime

theorem run_of_reaches [Sha256] {w : BlobRuntime} {i : Nat} {t : BlobThread} {it : Iteration}
    {b : BlobStore × BlobThread} (hget : w.threads[i]? = some t)
    (h : BlobThread.Reaches w.clock it (w.store, t) b) :
    ∃ n, run w (List.replicate n (.thread i it)) =
      { w with store := b.1, threads := w.threads.set i b.2 } := by
  have hi : i < w.threads.length := (List.getElem?_eq_some_iff.1 hget).1
  induction h with
  | refl =>
      refine ⟨0, ?_⟩
      obtain ⟨_, rfl⟩ := List.getElem?_eq_some_iff.1 hget
      simp only [List.set_getElem_self]
      rfl
  | tail _ hstep ih =>
      obtain ⟨n, hn⟩ := ih
      refine ⟨n + 1, ?_⟩
      rw [List.replicate_succ', run, Machine.run_concat, ← run, hn, ← hstep]
      simp only [step, List.getElem?_set_self hi, List.set_set]

/-- **While no other call moves and no time passes, a `put` and a `get` that are under way do, in
finitely many steps, what `BlobStore.put` and `BlobStore.get` do at once**, whatever the other
calls have left behind. -/
theorem alone_run [Sha256] (w : BlobRuntime) (it : Iteration) :
    (∀ key body, ∃ n,
      run w (.put key body :: List.replicate n (.thread w.threads.length it)) =
        { w with
          store := (w.store.put key body w.clock w.clock it).2
          threads := w.threads ++ [.done (.put (w.store.put key body w.clock w.clock it).1)] }) ∧
      ∀ key, ∃ n, run w (.get key :: List.replicate n (.thread w.threads.length it)) =
        { w with
          store := (w.store.get key w.clock).2
          threads := w.threads ++ [.done (.got (w.store.get key w.clock).1)] } := by
  have hbegin : ∀ (t : BlobThread) (b : BlobStore × BlobThread),
      BlobThread.Reaches w.clock it (w.store, t) b → ∃ n,
        run { w with threads := w.threads ++ [t] }
            (List.replicate n (.thread w.threads.length it)) =
          { w with store := b.1, threads := w.threads ++ [b.2] } := by
    intro t b h
    obtain ⟨n, hn⟩ := @run_of_reaches _ { w with threads := w.threads ++ [t] } w.threads.length t
      it b List.getElem?_concat_length h
    exact ⟨n, by rw [hn]; simp⟩
  constructor
  · intro key body
    exact hbegin _ _ (BlobThread.reaches_put w.store key body)
  · intro key
    exact hbegin _ _ (BlobThread.reaches_get w.store key)

end BlobRuntime

/-! ## Requests and responses -/

/-- What is asked of `/blob/:group_id/:sha256`, when it gets to the handlers. -/
inductive BlobRequest where
  | put (groupId : GroupId) (sha256Hex : String) (body : Bytes)
  | get (groupId : GroupId) (sha256Hex : String)
  deriving DecidableEq

inductive ResponseBody where
  | empty
  | text (text : String)
  | octets (bytes : Bytes)
  deriving DecidableEq

structure Response where
  status : Nat
  body : ResponseBody
  deriving DecidableEq

def isHexDigit (c : Char) : Bool := ('0' ≤ c && c ≤ '9') || ('a' ≤ c && c ≤ 'f')

def isValidSha256Hex (s : String) : Bool := s.utf8ByteSize == 64 && s.toList.all isHexDigit

/-- What the handlers answer before they ask the store. -/
def refused : BlobRequest → Option Response
  | .put _ sha256Hex _ | .get _ sha256Hex =>
      if isValidSha256Hex sha256Hex then none else some ⟨400, .text "invalid sha256"⟩

/-- What `put_blob` and `get_blob` make of the store's answer. -/
def respond : BlobResult → Response
  | .put (.ok ()) => ⟨204, .empty⟩
  | .put (.error (.tooLarge max)) => ⟨413, .text ("blob exceeds " ++ toString max ++ " bytes")⟩
  | .put (.error .hashMismatch) => ⟨400, .text "body sha256 mismatch"⟩
  | .got (some bytes) => ⟨200, .octets bytes⟩
  | .got none => ⟨404, .empty⟩

/-! ## The server -/

structure BlobServer where
  runtime : BlobRuntime
  /-- The requests that have come to the store, one for each call. -/
  requests : List BlobRequest

namespace BlobServer

inductive Event where
  | request (r : BlobRequest)
  | thread (i : Nat) (it : Iteration)
  | wait (d : Duration)

def init (store : BlobStore) : BlobServer := ⟨.init store, []⟩

def maxBlobBytes (s : BlobServer) : UInt64 := s.runtime.store.maxBlobBytes

section

variable [Sha256]

def step (s : BlobServer) : Event → BlobServer
  | .request r =>
      if (refused r).isSome then s
      else
        match r with
        | .put groupId sha256Hex body =>
            ⟨s.runtime.step (.put ⟨groupId, sha256Hex⟩ body), s.requests ++ [r]⟩
        | .get groupId sha256Hex =>
            ⟨s.runtime.step (.get ⟨groupId, sha256Hex⟩), s.requests ++ [r]⟩
  | .thread i it => { s with runtime := s.runtime.step (.thread i it) }
  | .wait d => { s with runtime := s.runtime.step (.wait d) }

def run : BlobServer → List Event → BlobServer := Machine.run step

end

/-- The response of a call that is done. -/
def response (s : BlobServer) (i : Nat) : Option Response :=
  match s.runtime.threads[i]? with
  | some (.done result) => some (respond result)
  | _ => none

/-- A request is refused, or a call has served it. -/
def Responds (s : BlobServer) (r : BlobRequest) (resp : Response) : Prop :=
  refused r = some resp ∨ ∃ i, s.requests[i]? = some r ∧ s.response i = some resp

/-! ## Right answers -/

section

variable [Sha256]

/-- The bytes hash to the key, are not too long, and somebody asked to put them there. -/
structure Stored (max : UInt64) (requests : List BlobRequest) (key : BlobKey) (body : Bytes) :
    Prop where
  hash : sha256Hex body = key.sha256Hex
  short : body.length ≤ max.toNat
  requested : .put key.groupId key.sha256Hex body ∈ requests

/-- A right answer. What comes of a `PUT` depends on the request alone. -/
def Answer (s : BlobServer) : BlobRequest → Response → Prop
  | .put _ sha body, resp =>
      resp =
        if isValidSha256Hex sha = false then ⟨400, .text "invalid sha256"⟩
        else if s.maxBlobBytes.toNat < body.length then
          ⟨413, .text ("blob exceeds " ++ toString s.maxBlobBytes ++ " bytes")⟩
        else if sha256Hex body ≠ sha then ⟨400, .text "body sha256 mismatch"⟩
        else ⟨204, .empty⟩
  | .get groupId sha, resp =>
      if isValidSha256Hex sha then
        resp = ⟨404, .empty⟩ ∨
          ∃ body, resp = ⟨200, .octets body⟩ ∧ Stored s.maxBlobBytes s.requests ⟨groupId, sha⟩ body
      else resp = ⟨400, .text "invalid sha256"⟩

/-- Every response is a right answer. -/
def AllAnswered (s : BlobServer) : Prop := ∀ r resp, s.Responds r resp → s.Answer r resp

/-! ## One call -/

/-- The call puts this body under this key, as the request asks it to. -/
structure Puts (max : UInt64) (r : BlobRequest) (key : BlobKey) (body : Bytes) : Prop where
  request : r = .put key.groupId key.sha256Hex body
  valid : isValidSha256Hex key.sha256Hex = true
  hash : sha256Hex body = key.sha256Hex
  short : body.length ≤ max.toNat

/-- The call asks for this key, as the request does. -/
structure Gets (r : BlobRequest) (key : BlobKey) : Prop where
  request : r = .get key.groupId key.sha256Hex
  valid : isValidSha256Hex key.sha256Hex = true

/-- The call serves the request. -/
def Serves (s : BlobServer) (r : BlobRequest) : BlobThread → Prop
  | .contains key body | .evict key body | .iterate key body _ | .load key body
  | .oldest key body | .stamp key body | .insert key body _ | .add key body =>
      Puts s.maxBlobBytes r key body
  | .find key | .drop key _ => Gets r key
  | .remove _ next | .subtract _ next => Serves s r next
  | .done result => s.Answer r (respond result)

structure Serving (s : BlobServer) : Prop where
  calls : s.requests.length = s.runtime.threads.length
  stored : ∀ key e, s.runtime.store.inner.lookup key = some e →
    Stored s.maxBlobBytes s.requests key e.bytes
  serves : ∀ (i : Nat) r t, s.requests[i]? = some r → s.runtime.threads[i]? = some t → s.Serves r t

variable {s s' : BlobServer} {r : BlobRequest}

theorem Stored.more {max : UInt64} {requests more : List BlobRequest} {key : BlobKey}
    {body : Bytes} (h : Stored max requests key body) (hmore : requests ⊆ more) :
    Stored max more key body :=
  ⟨h.hash, h.short, hmore h.requested⟩

theorem Answer.more {resp : Response} (h : s.Answer r resp)
    (hmax : s'.maxBlobBytes = s.maxBlobBytes) (hmore : s.requests ⊆ s'.requests) :
    s'.Answer r resp := by
  cases r with
  | put groupId sha body =>
      simp only [Answer, hmax] at h ⊢
      exact h
  | get groupId sha =>
      simp only [Answer, hmax] at h ⊢
      by_cases hvalid : isValidSha256Hex sha
      · rw [if_pos hvalid] at h ⊢
        exact h.imp_right fun ⟨body, hresp, hstored⟩ => ⟨body, hresp, hstored.more hmore⟩
      · rw [if_neg hvalid] at h ⊢
        exact h

/-- More requests come, and the call stays where it is. -/
theorem Serves.more {t : BlobThread} (h : s.Serves r t)
    (hmax : s'.maxBlobBytes = s.maxBlobBytes) (hmore : s.requests ⊆ s'.requests) :
    s'.Serves r t := by
  induction t with
  | remove key next ih => exact ih h
  | subtract removed next ih => exact ih h
  | done result => exact Answer.more h hmax hmore
  | _ =>
      simp only [Serves, hmax] at h ⊢
      exact h

theorem serves_foldr_remove (keys : List BlobKey) {t : BlobThread} (h : s.Serves r t) :
    s.Serves r (keys.foldr .remove t) := by
  induction keys with
  | nil => exact h
  | cons key keys ih => exact ih

theorem answer_put {key : BlobKey} {body : Bytes} (h : Puts s.maxBlobBytes r key body) :
    s.Answer r (respond (.put (.ok ()))) := by
  rw [h.request, Answer, if_neg (by simp [h.valid]), if_neg (Nat.not_lt.2 h.short),
    if_neg (not_not.2 h.hash), respond]

theorem answer_got_none {key : BlobKey} (h : Gets r key) :
    s.Answer r (respond (.got none)) := by
  rw [h.request, Answer, if_pos h.valid]
  exact Or.inl rfl

theorem answer_got {key : BlobKey} {body : Bytes} (h : Gets r key)
    (hstored : Stored s.maxBlobBytes s.requests key body) :
    s.Answer r (respond (.got (some body))) := by
  rw [h.request, Answer, if_pos h.valid]
  exact Or.inr ⟨body, rfl, hstored⟩

omit [Sha256] in
theorem valid_of_not_refused {sha : String} {resp : Response}
    (h : (if isValidSha256Hex sha then none else some resp) = none) :
    isValidSha256Hex sha = true := by
  by_contra hno
  rw [if_neg hno] at h
  cases h

/-- What a call that begins serves. -/
theorem serves_startPut {groupId : GroupId} {sha : String} {body : Bytes}
    (h : refused (.put groupId sha body) = none) :
    s.Serves (.put groupId sha body)
      (.startPut s.maxBlobBytes ⟨groupId, sha⟩ body) := by
  have hvalid := valid_of_not_refused h
  unfold BlobThread.startPut
  split
  · next hlong =>
      simp only [Serves, Answer, hvalid, Bool.true_eq_false, if_false, if_pos hlong, respond]
  · next hshort =>
      split
      · next hsha =>
          simp only [Serves, Answer, if_neg hshort, hvalid, Bool.true_eq_false, if_false,
            if_pos hsha, respond]
      · next hsha => exact ⟨rfl, hvalid, not_not.1 hsha, Nat.not_lt.1 hshort⟩

theorem serves_find {groupId : GroupId} {sha : String}
    (h : refused (.get groupId sha) = none) :
    s.Serves (.get groupId sha) (.find ⟨groupId, sha⟩) :=
  ⟨rfl, valid_of_not_refused h⟩

theorem serves_step {t : BlobThread} {clock : Instant} {it : Iteration}
    (hstored : ∀ key e, s.runtime.store.inner.lookup key = some e →
      Stored s.maxBlobBytes s.requests key e.bytes) (h : s.Serves r t) :
    s.Serves r (t.step s.runtime.store clock it).2 := by
  cases t with
  | contains key body =>
      simp only [BlobThread.step]
      split
      · exact answer_put h
      · exact h
  | evict key body => exact h
  | iterate key body now => exact serves_foldr_remove _ h
  | load key body =>
      simp only [BlobThread.step]
      split <;> exact h
  | oldest key body =>
      simp only [BlobThread.step]
      split <;> exact h
  | stamp key body => exact h
  | insert key body insertedAt =>
      simp only [BlobThread.step]
      split
      · exact h
      · exact answer_put h
  | add key body => exact answer_put h
  | find key =>
      simp only [BlobThread.step]
      split
      · exact answer_got_none h
      · next entry hlookup =>
          split
          · exact h
          · exact answer_got h (hstored key entry hlookup)
  | drop key foundAt =>
      simp only [BlobThread.step, BlobThread.removeEntry]
      split <;> exact answer_got_none h
  | remove key next =>
      simp only [BlobThread.step, BlobThread.removeEntry]
      split <;> exact h
  | subtract removed next => exact h
  | done result => exact h

/-- A step of a call leaves the entries alone, removes some, or inserts what it is to put. -/
theorem stored_step {t : BlobThread} {clock : Instant} {it : Iteration} (hr : r ∈ s.requests)
    (hstored : ∀ key e, s.runtime.store.inner.lookup key = some e →
      Stored s.maxBlobBytes s.requests key e.bytes) (h : s.Serves r t) {key : BlobKey}
    {e : BlobEntry} (hlookup : (t.step s.runtime.store clock it).1.inner.lookup key = some e) :
    Stored s.maxBlobBytes s.requests key e.bytes := by
  cases t with
  | insert key' body insertedAt =>
      have hputs : Puts s.maxBlobBytes r key' body := h
      simp only [BlobThread.step] at hlookup
      by_cases hkey : key = key'
      · rw [hkey, AList.lookup_insert, Option.some.injEq] at hlookup
        subst hkey hlookup
        exact ⟨hputs.hash, hputs.short, hputs.request ▸ hr⟩
      · rw [AList.lookup_insert_ne hkey] at hlookup
        exact hstored key e hlookup
  | drop key' foundAt => exact hstored key e (BlobThread.lookup_of_removeEntry hlookup)
  | remove key' next => exact hstored key e (BlobThread.lookup_of_removeEntry hlookup)
  | _ => exact hstored key e hlookup

/-! ## Every run -/

theorem serving_init (store : BlobStore) (h : store.inner = ∅) : Serving (init store) where
  calls := rfl
  stored key e hlookup := by
    rw [init, BlobRuntime.init, h, AList.lookup_empty] at hlookup
    cases hlookup
  serves i r t hr := by simp [init] at hr

/-- A request comes to the store, and a call begins. -/
theorem Serving.request (h : Serving s) {r : BlobRequest} {t : BlobThread}
    (ht : (⟨{ s.runtime with threads := s.runtime.threads ++ [t] }, s.requests ++ [r]⟩ :
      BlobServer).Serves r t) :
    Serving ⟨{ s.runtime with threads := s.runtime.threads ++ [t] }, s.requests ++ [r]⟩ := by
  have hmore : s.requests ⊆ s.requests ++ [r] := List.subset_append_left _ _
  refine ⟨?_, fun key e hlookup => (h.stored key e hlookup).more hmore, ?_⟩
  · rw [List.length_append, List.length_append, h.calls]
    rfl
  · intro i r' t' hr' ht'
    dsimp only at hr' ht'
    by_cases hi : i < s.requests.length
    · rw [List.getElem?_append_left hi] at hr'
      rw [List.getElem?_append_left (h.calls ▸ hi)] at ht'
      exact (h.serves i r' t' hr' ht').more rfl hmore
    · rw [List.getElem?_append_right (Nat.not_lt.1 hi), List.getElem?_singleton] at hr'
      rw [List.getElem?_append_right (by rw [← h.calls]; exact Nat.not_lt.1 hi),
        List.getElem?_singleton] at ht'
      split at hr'
      · split at ht'
        · cases hr'
          cases ht'
          exact ht
        · cases ht'
      · cases hr'

theorem serving_step (s : BlobServer) (e : Event) (h : Serving s) : Serving (s.step e) := by
  cases e with
  | request r =>
      simp only [step]
      split
      · exact h
      · next hrefused =>
          have hnone : refused r = none := by
            simpa using hrefused
          cases r with
          | put groupId sha body => exact h.request (serves_startPut (s := ⟨_, _⟩) hnone)
          | get groupId sha => exact h.request (serves_find (s := ⟨_, _⟩) hnone)
  | thread i it =>
      simp only [step, BlobRuntime.step]
      cases hget : s.runtime.threads[i]? with
      | none => exact h
      | some t =>
          have hi : i < s.requests.length := by
            rw [h.calls]
            exact (List.getElem?_eq_some_iff.1 hget).1
          have hr : s.requests[i]? = some s.requests[i] := List.getElem?_eq_getElem hi
          have hserves := h.serves i _ t hr hget
          have hmax := BlobThread.step_maxBlobBytes t s.runtime.store s.runtime.clock it
          refine ⟨?_, ?_, ?_⟩
          · rw [List.length_set]
            exact h.calls
          · intro key e hlookup
            rw [maxBlobBytes, hmax]
            exact stored_step (List.getElem_mem hi) h.stored hserves hlookup
          · intro j r' t' hr' ht'
            have hnext : s.Serves r' t' := by
              dsimp only at hr' ht'
              by_cases hij : i = j
              · subst hij
                rw [List.getElem?_set_self (h.calls ▸ hi), Option.some.injEq] at ht'
                rw [hr, Option.some.injEq] at hr'
                subst hr' ht'
                exact serves_step h.stored hserves
              · rw [List.getElem?_set_ne hij] at ht'
                exact h.serves j r' t' hr' ht'
            exact hnext.more hmax (List.Subset.refl _)
  | wait d =>
      refine ⟨h.calls, h.stored, fun i r t hr ht => ?_⟩
      exact (h.serves i r t hr ht).more rfl (List.Subset.refl _)

theorem Serving.answered (h : Serving s) : AllAnswered s := by
  rintro r resp (hrefused | ⟨i, hr, hresp⟩)
  · cases r with
    | put groupId sha body | get groupId sha =>
        simp only [refused] at hrefused
        simp only [Answer]
        split at hrefused
        · cases hrefused
        · next hvalid =>
            cases hrefused
            simp [hvalid]
  · unfold response at hresp
    split at hresp
    · next result hdone =>
        cases hresp
        exact h.serves i r _ hr hdone
    · cases hresp

/-- **Every answer of the handlers is right**, in whatever order the calls of all requests take
their steps: what becomes of a `PUT` depends on the request alone, and a `GET` is answered only with
bytes that hash to its key, are not too long, and that a request of the same group has put under
that key. -/
theorem answers_run (budgetBytes : UInt64) (ttl : Duration) (maxBlobBytes : UInt64)
    (es : List Event) : AllAnswered (run (init (.new budgetBytes ttl maxBlobBytes)) es) :=
  (Machine.invariant_run serving_step (serving_init _ rfl) es).answered

end

end BlobServer

end ClipBridge.Relay
