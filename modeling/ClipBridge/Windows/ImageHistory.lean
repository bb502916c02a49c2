import ClipBridge.Lib.Machine
import ClipBridge.Windows.ImageSend
import Mathlib.Data.List.AList

/-!
# The history of images on Windows

Following `store_history` and its callers `send_image_bytes`, `send_image_paths`,
`try_publish_image` and `handle_remote_image` in `clients/windows/src/bridge.rs`. The history holds
the last few images that were sent or received, and a map beside it their bytes, by id. Each has a
lock of its own: a run puts its entry into the history and takes out the bytes of what it evicts,
and later puts its own bytes into the map.

* `ImageTask` — a run that is in progress, by the step it takes next.
* `Intact` — the history is short, and the map holds the bytes of its entries and no others.
* `Consistent` — the same with what is yet to be put counted as being there.
* `EvictsUnlisted` — an entry that is evicted leaves no other entry with its id, unless somebody is
  yet to put the bytes of both.
* `intact_of_evictsUnlisted` — a run whose evictions are like that is intact whenever nothing is in
  progress.
-/

namespace ClipBridge.Windows

/-! ## Runs -/

def historyLimit : Nat := 24

structure ImageHistoryEntry where
  id : String
  mime : String
  width : UInt32
  height : UInt32
  sizeBytes : UInt64
  deviceName : String
  ts : UInt64
  direction : String
  deriving DecidableEq, Repr

/-- One image on its way, with what the world answers: the result of `publish_image`, and the clock
in milliseconds. -/
inductive ImageJob where
  | picked (bytes : Bytes) (published : Bool) (ts : UInt64)
  /-- The bytes of a dropped file, if it is an image file that is short enough and can be read. -/
  | path (file : Option Bytes) (published : Bool) (ts : UInt64)
  | clipboard (png : NormalizedPng) (published : Bool) (ts : UInt64)
  /-- A clip that came in, and what `fetch_image` gave for it. -/
  | remote (image : ImageMeta) (deviceName : String) (ts : UInt64) (fetched : Option Bytes)
  deriving DecidableEq, Repr

inductive ImageCall where
  | sendImageBytes (bytes : Bytes) (published : Bool) (ts : UInt64)
  | sendImagePaths (files : List (Option Bytes × Bool × UInt64))
  | tryPublishImage (png : NormalizedPng) (published : Bool) (ts : UInt64)
  | handleRemoteImage (image : ImageMeta) (deviceName : String) (ts : UInt64)
      (fetched : Option Bytes)

def ImageCall.jobs : ImageCall → List ImageJob
  | sendImageBytes bytes published ts => [.picked bytes published ts]
  | sendImagePaths files => files.map fun f => .path f.1 f.2.1 f.2.2
  | tryPublishImage png published ts => [.clipboard png published ts]
  | handleRemoteImage image deviceName ts fetched => [.remote image deviceName ts fetched]

/-- The next step of a run. -/
inductive ImageTask where
  /-- Look at the next image; there is none when the run is over. -/
  | consider (jobs : List ImageJob)
  /-- `store_history`, on the history. -/
  | push (entry : ImageHistoryEntry) (bytes : Bytes) (rest : List ImageJob)
  /-- `store_history`, on the bytes. -/
  | put (id : String) (bytes : Bytes) (rest : List ImageJob)
  deriving DecidableEq, Repr

abbrev ImageBytesMap := AList fun _ : String => Bytes

structure ImageBridge where
  deviceName : String
  recentImageHashes : LruSet String 32
  imageHistory : List ImageHistoryEntry
  imageBytes : ImageBytesMap
  tasks : List ImageTask

inductive ImageEvent where
  | start (call : ImageCall)
  | task (i : Nat)

section

variable [Sha256]

/-- `build_history_entry`, for what is sent. -/
def buildHistoryEntry (png : NormalizedPng) (deviceName : String) (ts : UInt64) :
    ImageHistoryEntry :=
  ⟨sha256Hex png.bytes, png.mime, png.width, png.height, UInt64.ofNat png.bytes.length,
    deviceName, ts, "sent"⟩

variable [ImageCodec]

/-- The entry to store for an image, if it comes to that; the hashes; and whether the run goes on to
the next image. -/
def admitImage (deviceName : String) (hashes : LruSet String 32) :
    ImageJob → Option (ImageHistoryEntry × Bytes) × LruSet String 32 × Bool
  | .picked bytes published ts =>
      match sendImageBytes hashes bytes with
      | (.error _, hashes) => (none, hashes, false)
      | (.ok png, hashes) =>
          if published then (some (buildHistoryEntry png deviceName ts, png.bytes), hashes, true)
          else (none, hashes, false)
  | .path file published ts =>
      match (file.filter fun bytes => bytes.length ≤ maxImageBytes).bind encodeForWire with
      | none => (none, hashes, true)
      | some png =>
          let hashes :=
            match pixelHashHex png.bytes with
            | some h => (hashes.touch h).2
            | none => hashes
          if published then (some (buildHistoryEntry png deviceName ts, png.bytes), hashes, true)
          else (none, hashes, false)
  | .clipboard png published ts =>
      match tryPublishImage hashes png with
      | (none, hashes) => (none, hashes, false)
      | (some png, hashes) =>
          if published then (some (buildHistoryEntry png deviceName ts, png.bytes), hashes, true)
          else (none, hashes, false)
  | .remote image deviceName ts fetched =>
      match fetched with
      | none => (none, hashes, false)
      | some bytes =>
          match pixelHashHex bytes with
          | none => (none, hashes, false)
          | some h =>
              let (seen, hashes) := hashes.touch h
              if seen then (none, hashes, false)
              else
                (some (⟨h, image.mimeType, image.width, image.height,
                  UInt64.ofNat bytes.length, deviceName, ts, "received"⟩, bytes), hashes, true)

/-- The loop that evicts. A turn takes an entry out or is the last one. -/
def evictBeyondLimit : Nat → List ImageHistoryEntry → ImageBytesMap →
    List ImageHistoryEntry × ImageBytesMap
  | 0, h, bs => (h, bs)
  | turns + 1, h, bs =>
      if historyLimit < h.length then
        match h.getLast? with
        | some evicted => evictBeyondLimit turns h.dropLast (bs.erase evicted.id)
        | none => (h, bs)
      else (h, bs)

/-- What `store_history` does under the lock of the history. What another run does meanwhile, it
might have done before. -/
def pushFront (entry : ImageHistoryEntry) (h : List ImageHistoryEntry) (bs : ImageBytesMap) :
    List ImageHistoryEntry × ImageBytesMap :=
  evictBeyondLimit (h.length + 1) (entry :: h) bs

namespace ImageBridge

def init (deviceName : String) : ImageBridge := ⟨deviceName, .empty, [], ∅, []⟩

def onTask (s : ImageBridge) (i : Nat) : ImageTask → ImageBridge
  | .consider [] => s
  | .consider (job :: rest) =>
      let (stored, hashes, goesOn) := admitImage s.deviceName s.recentImageHashes job
      let next :=
        match stored with
        | some (entry, bytes) => .push entry bytes rest
        | none => .consider (if goesOn then rest else [])
      { s with recentImageHashes := hashes, tasks := s.tasks.set i next }
  | .push entry bytes rest =>
      let (h, bs) := pushFront entry s.imageHistory s.imageBytes
      { s with
        imageHistory := h, imageBytes := bs, tasks := s.tasks.set i (.put entry.id bytes rest) }
  | .put id bytes rest =>
      { s with imageBytes := s.imageBytes.insert id bytes, tasks := s.tasks.set i (.consider rest) }

def step (s : ImageBridge) : ImageEvent → ImageBridge
  | .start call => { s with tasks := s.tasks ++ [.consider call.jobs] }
  | .task i =>
      match s.tasks[i]? with
      | some t => s.onTask i t
      | none => s

abbrev run (deviceName : String) (events : List ImageEvent) : ImageBridge :=
  Machine.run step (init deviceName) events

/-- `image_bytes_for`. -/
def imageBytesFor (s : ImageBridge) (id : String) : Option Bytes := s.imageBytes.lookup id

end ImageBridge

end

/-! ## What is listed and what is held -/

def listed (h : List ImageHistoryEntry) (id : String) : Prop := ∃ e ∈ h, e.id = id

/-- The id of the bytes that a run puts next. -/
def ImageTask.pending : ImageTask → Option String
  | put id _ _ => some id
  | _ => none

namespace ImageBridge

/-- No run is in progress. -/
def Idle (s : ImageBridge) : Prop := ∀ t ∈ s.tasks, t = .consider []

instance (s : ImageBridge) : Decidable s.Idle :=
  inferInstanceAs (Decidable (∀ t ∈ s.tasks, t = .consider []))

/-- A run is yet to put bytes under the id. -/
def Pending (s : ImageBridge) (id : String) : Prop := ∃ t ∈ s.tasks, t.pending = some id

structure Intact (s : ImageBridge) : Prop where
  length : s.imageHistory.length ≤ historyLimit
  found : ∀ e ∈ s.imageHistory, (s.imageBytesFor e.id).isSome
  needed : ∀ id ∈ s.imageBytes, listed s.imageHistory id

structure Consistent (s : ImageBridge) : Prop where
  length : s.imageHistory.length ≤ historyLimit
  held : ∀ id, (id ∈ s.imageBytes ∨ s.Pending id) ↔ listed s.imageHistory id

/-- Where a run pushes an entry into a full history, the id of the last entry is the new one's, or
it is still listed exactly if bytes are yet to be put under it. -/
def EvictsUnlisted (s : ImageBridge) : ImageEvent → Prop
  | .task i => ∀ entry bytes rest old, s.tasks[i]? = some (.push entry bytes rest) →
      s.imageHistory.length = historyLimit → s.imageHistory.getLast? = some old →
      old.id = entry.id ∨ (listed s.imageHistory.dropLast old.id ↔ s.Pending old.id)
  | .start _ => True

theorem Consistent.intact {s : ImageBridge} (h : s.Consistent) (hidle : s.Idle) : s.Intact := by
  have hnone : ∀ id, ¬ s.Pending id := by
    rintro id ⟨t, ht, hpending⟩
    rw [hidle t ht] at hpending
    cases hpending
  refine ⟨h.length, fun e he => ?_, fun id hid => (h.held id).1 (.inl hid)⟩
  rcases (h.held e.id).2 ⟨e, he, rfl⟩ with hmem | hpending
  · exact AList.lookup_isSome.2 hmem
  · exact absurd hpending (hnone e.id)

theorem consistent_init (deviceName : String) : (init deviceName).Consistent := by
  refine ⟨Nat.zero_le _, fun id => ⟨?_, ?_⟩⟩
  · rintro (h | ⟨t, ht, -⟩)
    · exact absurd h (AList.notMem_empty id)
    · cases ht
  · rintro ⟨e, he, -⟩
    cases he

/-! ## One step -/

/-- A run that goes on to another step is pending with that step alone. -/
theorem pending_set {tasks : List ImageTask} {i : Nat} {t t' : ImageTask} {id : String}
    (ht : tasks[i]? = some t) (hmoved : t.pending = some id → t'.pending = some id) :
    (∃ u ∈ tasks.set i t', u.pending = some id) ↔
      t'.pending = some id ∨ ∃ u ∈ tasks, u.pending = some id := by
  have hi : i < tasks.length := (List.getElem?_eq_some_iff.1 ht).1
  constructor
  · rintro ⟨u, hu, hpending⟩
    rcases List.mem_or_eq_of_mem_set hu with hu | rfl
    · exact .inr ⟨u, hu, hpending⟩
    · exact .inl hpending
  · rintro (hpending | ⟨u, hu, hpending⟩)
    · exact ⟨t', List.mem_set hi t', hpending⟩
    · obtain ⟨j, hj, rfl⟩ := List.mem_iff_getElem.1 hu
      by_cases hij : i = j
      · subst hij
        rw [List.getElem?_eq_getElem hi, Option.some.injEq] at ht
        exact ⟨t', List.mem_set hi t', hmoved (ht ▸ hpending)⟩
      · refine ⟨tasks[j], ?_, hpending⟩
        rw [← List.getElem_set_of_ne hij t' (by simpa using hj)]
        exact List.getElem_mem _

end ImageBridge

section

variable {entry old : ImageHistoryEntry} {h : List ImageHistoryEntry} {bs : ImageBytesMap}

theorem evictBeyondLimit_of_le (hle : h.length ≤ historyLimit) (turns : Nat) :
    evictBeyondLimit turns h bs = (h, bs) := by
  cases turns with
  | zero => rfl
  | succ turns => rw [evictBeyondLimit, if_neg (Nat.not_lt.2 hle)]

theorem pushFront_room (hroom : h.length < historyLimit) :
    pushFront entry h bs = (entry :: h, bs) := by
  have hle : (entry :: h).length ≤ historyLimit := hroom
  exact evictBeyondLimit_of_le hle _

theorem pushFront_full (hfull : h.length = historyLimit) (hold : h.getLast? = some old) :
    pushFront entry h bs = (entry :: h.dropLast, bs.erase old.id) := by
  have hne : h ≠ [] := by
    rintro rfl
    cases hold
  have hlength : historyLimit < (entry :: h).length := by
    rw [List.length_cons, hfull]
    exact Nat.lt_succ_self _
  have hlast : (entry :: h).getLast? = some old := by
    rw [List.getLast?_cons_of_ne_nil hne, hold]
  have hdrop : (entry :: h).dropLast = entry :: h.dropLast := List.dropLast_cons_of_ne_nil hne
  have hdone : (entry :: h.dropLast).length ≤ historyLimit := by
    rw [List.length_cons, List.length_dropLast, hfull]
    decide
  rw [pushFront, evictBeyondLimit, if_pos hlength, hlast]
  dsimp only
  rw [hdrop, evictBeyondLimit_of_le hdone]

theorem listed_cons (id : String) : listed (entry :: h) id ↔ entry.id = id ∨ listed h id :=
  List.exists_mem_cons_iff ..

/-- The last entry and the others. -/
theorem listed_getLast (hold : h.getLast? = some old) (id : String) :
    listed h id ↔ old.id = id ∨ listed h.dropLast id := by
  obtain ⟨init, rfl⟩ := List.getLast?_eq_some_iff.1 hold
  simp only [listed, List.mem_append, List.mem_singleton, List.dropLast_concat]
  constructor
  · rintro ⟨e, he | rfl, hid⟩
    · exact .inr ⟨e, he, hid⟩
    · exact .inl hid
  · rintro (hid | ⟨e, he, hid⟩)
    · exact ⟨old, .inr rfl, hid⟩
    · exact ⟨e, .inl he, hid⟩

end

namespace ImageBridge

section

variable {s : ImageBridge} {i : Nat}

/-- What only lets a run go on keeps what is held and listed. -/
theorem Consistent.move (hs : s.Consistent) {t t' : ImageTask} (ht : s.tasks[i]? = some t)
    (hidle : t.pending = none) (hidle' : t'.pending = none) (hashes : LruSet String 32) :
    Consistent { s with recentImageHashes := hashes, tasks := s.tasks.set i t' } := by
  refine ⟨hs.length, fun id => ?_⟩
  have hpending := @pending_set _ _ _ t' id ht (by simp [hidle])
  rw [← hs.held id]
  exact or_congr_right (hpending.trans (or_iff_right (by simp [hidle'])))

theorem Consistent.push (hs : s.Consistent) {entry : ImageHistoryEntry} {bytes : Bytes}
    {rest : List ImageJob} (ht : s.tasks[i]? = some (.push entry bytes rest))
    (hcond : s.EvictsUnlisted (.task i)) :
    Consistent
      { s with
        imageHistory := (pushFront entry s.imageHistory s.imageBytes).1
        imageBytes := (pushFront entry s.imageHistory s.imageBytes).2
        tasks := s.tasks.set i (.put entry.id bytes rest) } := by
  have hpending : ∀ id, (∃ u ∈ s.tasks.set i (.put entry.id bytes rest), u.pending = some id) ↔
      entry.id = id ∨ s.Pending id := fun id =>
    (pending_set ht fun h => by cases h).trans
      (or_congr_left ⟨fun h => Option.some.inj h, fun h => h ▸ rfl⟩)
  rcases Nat.lt_or_eq_of_le hs.length with hroom | hfull
  · rw [pushFront_room hroom]
    refine ⟨hroom, fun id => ?_⟩
    show id ∈ s.imageBytes ∨ (∃ u ∈ s.tasks.set i _, _) ↔ listed (entry :: s.imageHistory) id
    rw [hpending, listed_cons, ← hs.held, or_left_comm]
  · obtain ⟨old, hold⟩ : ∃ old, s.imageHistory.getLast? = some old := by
      rw [← Option.isSome_iff_exists, List.getLast?_isSome]
      rintro hnil
      rw [hnil] at hfull
      cases hfull
    rw [pushFront_full hfull hold]
    refine ⟨?_, fun id => ?_⟩
    · show (entry :: s.imageHistory.dropLast).length ≤ historyLimit
      rw [List.length_cons, List.length_dropLast, hfull]
      decide
    · show id ∈ s.imageBytes.erase old.id ∨ (∃ u ∈ s.tasks.set i _, _) ↔
        listed (entry :: s.imageHistory.dropLast) id
      rw [hpending, listed_cons, AList.mem_erase]
      by_cases hid : id = old.id
      · -- The evicted id: its bytes are gone.
        subst hid
        rcases hcond entry bytes rest old ht hfull hold with hsame | hiff
        · simp [hsame]
        · rw [hiff]
          simp
      · have hheld := hs.held id
        rw [listed_getLast hold, or_iff_right (Ne.symm hid)] at hheld
        rw [← hheld, or_left_comm, and_iff_right hid]

theorem Consistent.put (hs : s.Consistent) {id : String} {bytes : Bytes} {rest : List ImageJob}
    (ht : s.tasks[i]? = some (.put id bytes rest)) :
    Consistent
      { s with
        imageBytes := s.imageBytes.insert id bytes
        tasks := s.tasks.set i (.consider rest) } := by
  refine ⟨hs.length, fun id' => ?_⟩
  show id' ∈ s.imageBytes.insert id bytes ∨ (∃ u ∈ s.tasks.set i (.consider rest), _) ↔ _
  rw [AList.mem_insert]
  by_cases hid : id' = id
  · subst hid
    have hpending : s.Pending id' := ⟨_, List.mem_of_getElem? ht, rfl⟩
    have hlisted := (hs.held id').1 (.inr hpending)
    exact ⟨fun _ => hlisted, fun _ => .inl (.inl rfl)⟩
  · rw [pending_set ht fun h => absurd (Option.some.inj h).symm hid, ← hs.held id',
      or_iff_right hid]
    exact or_congr_right (or_iff_right (by simp [ImageTask.pending]))

end

section

variable [Sha256] [ImageCodec]

theorem consistent_step (s : ImageBridge) (e : ImageEvent) (hcond : s.EvictsUnlisted e)
    (hs : s.Consistent) : (s.step e).Consistent := by
  cases e with
  | start call =>
      refine ⟨hs.length, fun id => Iff.trans (or_congr_right ?_) (hs.held id)⟩
      simp [Pending, step, or_and_right, exists_or, ImageTask.pending]
  | task i =>
      show Consistent (match s.tasks[i]? with
        | some t => s.onTask i t
        | none => s)
      cases ht : s.tasks[i]? with
      | none => exact hs
      | some t =>
          cases t with
          | consider jobs =>
              cases jobs with
              | nil => exact hs
              | cons job rest =>
                  simp only [onTask]
                  obtain ⟨stored, hashes, goesOn⟩ :=
                    admitImage s.deviceName s.recentImageHashes job
                  refine hs.move ht rfl ?_ hashes
                  cases stored <;> rfl
          | push entry bytes rest => exact hs.push ht hcond
          | put id bytes rest => exact hs.put ht

/-- **In a run in which no entry is evicted while another one needs its bytes, and none stays
without a need, the history is intact whenever nothing is in progress.** -/
theorem intact_of_evictsUnlisted (deviceName : String) (events : List ImageEvent)
    (hcond : Machine.Along step EvictsUnlisted (init deviceName) events) :
    ∀ pre, pre <+: events → (run deviceName pre).Idle → (run deviceName pre).Intact :=
  fun pre hpre hidle =>
    (Machine.invariant_throughout consistent_step (consistent_init deviceName) hcond pre
      hpre).intact hidle

end

/-! ### The same image twice, and then others -/

/-- A file of one black pixel, with a byte after its end. -/
def blackPng (k : UInt8) : Bytes := pixelPng ++ [k]

/-- The SHA-256 of `blackPng k`, for the first few `k`. -/
def blackPngDigests : List Nat :=
  [0xd2ff422ef85b0d4d5559d895af9b82dd2788179b5a27b4448d0e1876a8835b44,
   0xbfe9c98a1cb26288ec3aa48b5476f5829b3fbdf99fedf6746b386cdc0d554c3d,
   0x1343480dbe4e42a468831d104e14c83a6edf388738e5157cea9e11c69f197aab,
   0x7928b1f63551b5923b698e80fde61df12446e41d073baa02b67ee886bd6c7a3b,
   0xc65b92173ba832b2dd3fc6810622e290617b05cc4e137bdf1effc7b0c55a132a,
   0x22de5143125585fdf96050f39a00bde6264214078028cc94ff422399b7b51f5c,
   0xc6a98e0dcfdfda0763e6ebedda0232983f1ae1e897bf8ed50f18a1825f261aae,
   0x8e7775570ff9ae0bb1b3de350b3d0ff2b507d2080df5ac9cfeedcb76a1098cef,
   0x683f27fbbc61eff58c3b5471114474989bd7bcdb8a4a0edb407824215cfc355b,
   0x2371f8c28fc6c450703dfcf830b92e21b6170b0bfe557bec71a712e3f36d5722,
   0x1ede1f515f0fd04001d85c4c772d3f5d0c063973f80e1faf67be34266dfb7706,
   0xa17c707a0e2050648e3c9f540433aa68cf0d73b85e6a04240b8d8de08ea954a3,
   0xe90bb95ad0a0a90dd14ae37e4c272c1784df0b14ed01bd787f12011d10818d5b,
   0xb862f50c4fe677f9792640da90a22327c5b64f439cf47cbd10cbb6160e4df1b8,
   0x21860b7c5073bac260df7493c068d74e356265d2a096d52d52ee06a9043d3ac2,
   0x5488006354acb7ce48456acb54f1690ba803486c14ea58883147c3452acdeef7,
   0x268cd89ea0c6b228a92acd14d64fd0a5163dc0e13d0d0feb395652786d292ed5,
   0x680073c03a52f543ace31ce36f2de1d7f940fabd3933d712b9d81aac3949df16,
   0x6a016bf38b2038d0fbdc84e60b33edad314c3f2a06f32d01509831be2e7b1cdb,
   0xd70ae0695a5588857e3d8a20799395f1872aaf1cbf12a0a732b55a3a330f411f,
   0x28580e78d94a0d5b58d9e2d81d4907cbf302e9fbd3108a2531d728b2dc06206b,
   0xca9eb65aa1534936d881cc071d6b3d0772fcb13419c82399075c0adda0fd992d,
   0xc48520a958698cdfec8c2754b997067506862597f9b127dd70bafde4d5e25571,
   0x166ba6245e5f452c32bdd2fdb1bf3529909ebaf72a01d593c0e62a84a60f76aa,
   0x6c9fc1e6dbd875e845b891beb07147f714888ba7450ad1b226ec72054778ec38]

/-- SHA-256 at a black pixel, and at the files. -/
@[reducible] def blackPngSha256 : Sha256 where
  digest bytes :=
    let n := (bytes.getLast?.bind fun k => blackPngDigests[k.toNat]?).getD
      0xe3820096cb82366b860b8a4e668453a7aaaf423af03bdf289fa308ea03a79332
    ⟨digestBytes n, length_digestBytes n⟩

/-- One file twice, and then as many others as push out its first entry. -/
def twiceAndOthers : List ImageEvent :=
  .start (.sendImagePaths ((0 :: List.range 24).map fun k =>
    (some (blackPng (UInt8.ofNat k)), true, UInt64.ofNat k))) ::
    List.replicate 75 (.task 0)

/-- The last entry left is the second one of the file, and its bytes went with the first. -/
theorem twiceAndOthers_not_intact :
    ¬ ∀ (_ : Sha256) (_ : ImageCodec) deviceName events,
      (run deviceName events).Idle → (run deviceName events).Intact := by
  intro h
  have hidle : (@run blackPngSha256 pixelCodec "pc" twiceAndOthers).Idle := by decide +kernel
  have hfound := (h blackPngSha256 pixelCodec "pc" twiceAndOthers hidle).found
  have hlost : ¬ ∀ e ∈ (@run blackPngSha256 pixelCodec "pc" twiceAndOthers).imageHistory,
      ((@run blackPngSha256 pixelCodec "pc" twiceAndOthers).imageBytesFor e.id).isSome = true := by
    decide +kernel
  exact hlost hfound

instance (h : List ImageHistoryEntry) (id : String) : Decidable (listed h id) :=
  inferInstanceAs (Decidable (∃ e ∈ h, e.id = id))

instance (s : ImageBridge) (id : String) : Decidable (s.Pending id) :=
  inferInstanceAs (Decidable (∃ t ∈ s.tasks, t.pending = some id))

/-- `EvictsUnlisted` of a step that pushes this entry. -/
def pushEvictsUnlisted (s : ImageBridge) (entry : ImageHistoryEntry) : Bool :=
  decide (s.imageHistory.length = historyLimit →
    ∀ old ∈ s.imageHistory.getLast?,
      old.id = entry.id ∨ (listed s.imageHistory.dropLast old.id ↔ s.Pending old.id))

def stepEvictsUnlisted (s : ImageBridge) : ImageEvent → Bool
  | .task i =>
      match s.tasks[i]? with
      | some (.push entry _ _) => s.pushEvictsUnlisted entry
      | _ => true
  | .start _ => true

theorem evictsUnlisted_of_check {s : ImageBridge} {e : ImageEvent}
    (h : s.stepEvictsUnlisted e = true) : s.EvictsUnlisted e := by
  cases e with
  | start call => trivial
  | task i =>
      intro entry bytes rest old hpush hfull hold
      simp only [stepEvictsUnlisted, hpush] at h
      exact of_decide_eq_true h hfull old hold

/-- As many files as the history holds; the first one again, which pushes out its own entry; and
another one, which pushes out the second. -/
def fullAndTwoMore : List ImageEvent :=
  .start (.sendImagePaths ((List.range 24 ++ [0, 24]).map fun k =>
    (some (blackPng (UInt8.ofNat k)), true, UInt64.ofNat k))) ::
    List.replicate 78 (.task 0)

theorem fullAndTwoMore_intact :
    (@run blackPngSha256 pixelCodec "pc" fullAndTwoMore).Intact ∧
    (@run blackPngSha256 pixelCodec "pc" fullAndTwoMore).imageHistory.map (·.ts.toNat) =
      24 :: 0 :: (List.range 22).map (23 - ·) := by
  let _ := blackPngSha256
  let _ := pixelCodec
  refine ⟨intact_of_evictsUnlisted "pc" fullAndTwoMore ?_ fullAndTwoMore (List.prefix_refl _)
    (by decide +kernel), by decide +kernel⟩
  exact Machine.along_mono (fun _ _ => evictsUnlisted_of_check)
    (show Machine.Along step (fun s e => s.stepEvictsUnlisted e = true) (init "pc")
      fullAndTwoMore by decide +kernel)

end ImageBridge

end ClipBridge.Windows
