import ClipBridge.Lib.LruSet
import ClipBridge.Lib.Machine

/-!
# Remote images on Android

Following `handleRemoteClip` and `handleRemoteImage` of `ClipBridgeAccessibilityService.kt`, and
what `publish`, `publishImage` and `leaveStandby` do to `pendingRemoteImage`. An image that comes
in standby is kept in that field, to be fetched when the service wakes; otherwise it is fetched
at once. The field is written by the core's thread and by the main thread, and a fetch runs on a
thread of its own until the main thread writes the image to the clipboard.

Clips are numbered: a remote clip when it is delivered, a local copy when it is published. Each
thread takes its steps one at a time, in any order with those of the others.

* `Newest` — an image that is written to the clipboard is the newest clip.
* `Undisturbed` — no image is on its way to the clipboard when a newer clip comes.
* `Fresh` — what is on its way is the newest clip.
* `newest_along` — a run whose steps are undisturbed writes only the newest clip.
-/

namespace ClipBridge.Android

abbrev ClipNumber := Nat

def recentImageHashesCap : Nat := 32

/-- The thread that delivers clips. -/
inductive CoreTask where
  | free
  /-- `setPrimaryClip` is next. -/
  | writingText (n : ClipNumber)
  /-- It has found the service in standby, and keeps the image for later. -/
  | storing (n : ClipNumber)
  deriving DecidableEq, Repr

/-- The main thread. -/
inductive MainTask where
  | free
  /-- The service is about to leave standby. -/
  | waking
  /-- The image kept for later is looked for next. -/
  | flushing
  | clearing (n : ClipNumber)
  | handling (n : ClipNumber)
  deriving DecidableEq, Repr

inductive Fetch where
  | running (n : ClipNumber)
  /-- The main thread is to write it. -/
  | writing (n : ClipNumber)
  | done
  deriving DecidableEq, Repr

structure ImageService where
  reconnectIdleMode : Bool
  pendingRemoteImage : Option ClipNumber
  recentImageHashes : LruSet String recentImageHashesCap
  core : CoreTask
  main : MainTask
  fetches : List Fetch
  /-- The remote clip that was written last. -/
  clipboard : Option ClipNumber
  /-- The newest clip. -/
  latest : ClipNumber

inductive ImageEvent where
  | onClipText
  /-- An image without its meta data is skipped. -/
  | onClipImage (hasMeta : Bool)
  | coreStep
  /-- A local text, not a duplicate and not an echo. -/
  | publish
  /-- An image of this pixel hash, copied or (`dedup = false`) picked. -/
  | publishImage (hash : String) (dedup : Bool)
  | sendFilesToPeers
  | enterStandby
  | leaveStandby
  | mainStep
  /-- A fetch fails, or brings an image of this pixel hash. -/
  | fetched (i : Nat) (hash : Option String)
  /-- The main thread writes a fetched image. -/
  | write (i : Nat)

namespace ImageService

def init (reconnectIdleMode : Bool) : ImageService :=
  ⟨reconnectIdleMode, none, LruSet.empty, .free, .free, [], none, 0⟩

/-- A local copy outranks what is kept for later, and wakes the service. -/
def publishNow (s : ImageService) : ImageService :=
  { s with latest := s.latest + 1, pendingRemoteImage := none, main := .waking }

def step (s : ImageService) : ImageEvent → ImageService
  | .onClipText =>
      if s.core = .free then
        { s with
          latest := s.latest + 1
          pendingRemoteImage := none
          core := .writingText (s.latest + 1) }
      else s
  | .onClipImage hasMeta =>
      if s.core = .free && hasMeta then
        let s := { s with latest := s.latest + 1 }
        if s.reconnectIdleMode then { s with core := .storing s.latest }
        else { s with fetches := s.fetches ++ [.running s.latest] }
      else s
  | .coreStep =>
      match s.core with
      | .free => s
      | .writingText n => { s with clipboard := some n, core := .free }
      | .storing n => { s with pendingRemoteImage := some n, core := .free }
  | .publish => if s.main = .free then publishNow s else s
  | .publishImage hash dedup =>
      if s.main = .free then
        let (seen, hashes) := s.recentImageHashes.touch hash
        let s := { s with recentImageHashes := hashes }
        if dedup && seen then s else publishNow s
      else s
  | .sendFilesToPeers => if s.main = .free then { s with main := .waking } else s
  | .enterStandby => if s.main = .free then { s with reconnectIdleMode := true } else s
  | .leaveStandby => if s.main = .free then { s with main := .waking } else s
  | .mainStep =>
      match s.main with
      | .free => s
      | .waking => { s with reconnectIdleMode := false, main := .flushing }
      | .flushing =>
          match s.pendingRemoteImage with
          | some n => { s with main := .clearing n }
          | none => { s with main := .free }
      | .clearing n => { s with pendingRemoteImage := none, main := .handling n }
      | .handling n =>
          if s.reconnectIdleMode then { s with pendingRemoteImage := some n, main := .free }
          else { s with fetches := s.fetches ++ [.running n], main := .free }
  | .fetched i hash =>
      match s.fetches[i]?, hash with
      | some (.running _), none => { s with fetches := s.fetches.set i .done }
      | some (.running n), some hash =>
          let (seen, hashes) := s.recentImageHashes.touch hash
          { s with
            recentImageHashes := hashes
            fetches := s.fetches.set i (if seen then .done else .writing n) }
      | _, _ => s
  | .write i =>
      match s.fetches[i]? with
      | some (.writing n) =>
          if s.main = .free then
            { s with clipboard := some n, fetches := s.fetches.set i .done }
          else s
      | _ => s

end ImageService

/-! ## What is on its way -/

/-- The image that a fetch is to write. -/
def Fetch.carries : Fetch → Option ClipNumber
  | .running n => some n
  | .writing n => some n
  | .done => none

/-- The image that the main thread has taken and is to fetch. -/
def MainTask.carries : MainTask → Option ClipNumber
  | .clearing n => some n
  | .handling n => some n
  | _ => none

def CoreTask.stores : CoreTask → Option ClipNumber
  | .storing n => some n
  | _ => none

namespace ImageService

/-- An image that is written to the clipboard is the newest clip. -/
def Newest (s : ImageService) : ImageEvent → Prop
  | .write i => ∀ n, s.fetches[i]? = some (.writing n) → s.main = .free → n = s.latest
  | _ => True

def NoFetch (s : ImageService) : Prop := ∀ f ∈ s.fetches, f.carries = none

/-- When a clip comes, no image is on its way to the clipboard, on whatever thread it is. When
the service wakes and looks for an image kept for later, none is about to take its place. -/
def Undisturbed (s : ImageService) : ImageEvent → Prop
  | .onClipText => s.core = .free → s.NoFetch ∧ s.main.carries = none
  | .onClipImage true => s.core = .free → s.NoFetch ∧ s.main.carries = none ∧
      (s.reconnectIdleMode = false → s.pendingRemoteImage = none)
  | .publish => s.main = .free → s.NoFetch ∧ s.core.stores = none
  | .publishImage hash dedup => s.main = .free → dedup = false ∨ hash ∉ s.recentImageHashes.keys →
      s.NoFetch ∧ s.core.stores = none
  | .mainStep => s.main = .flushing → s.core.stores = none ∨ s.pendingRemoteImage = none
  | _ => True

/-- What is on its way is the newest clip. What is kept for later is too, unless the core is
about to replace it. -/
structure Fresh (s : ImageService) : Prop where
  fetches : ∀ f ∈ s.fetches, ∀ n ∈ f.carries, n = s.latest
  main : ∀ n ∈ s.main.carries, n = s.latest
  core : ∀ n ∈ s.core.stores, n = s.latest
  pending : ∀ n ∈ s.pendingRemoteImage, n = s.latest ∨ s.core.stores ≠ none

theorem fresh_init (reconnectIdleMode : Bool) : Fresh (init reconnectIdleMode) := by
  constructor
  · intro f hf
    cases hf
  · intro n hn
    cases hn
  · intro n hn
    cases hn
  · intro n hn
    cases hn

/-! ## One step -/

variable {s : ImageService}

theorem NoFetch.elim (h : s.NoFetch) {P : ClipNumber → Prop} :
    ∀ f ∈ s.fetches, ∀ n ∈ f.carries, P n := by
  intro f hf n hn
  rw [h f hf] at hn
  cases hn

/-- A fetch that goes on with its image, or ends. -/
theorem Fresh.set_fetch (hs : Fresh s) {i : Nat} {f : Fetch}
    (hf : ∀ n ∈ f.carries, n = s.latest) :
    ∀ f' ∈ s.fetches.set i f, ∀ n ∈ f'.carries, n = s.latest := by
  intro f' hf'
  rcases List.mem_or_eq_of_mem_set hf' with hf' | rfl
  · exact hs.fetches f' hf'
  · exact hf

/-- A new fetch is of the newest clip. -/
theorem fetches_append {fetches : List Fetch} {latest : ClipNumber}
    (h : ∀ f ∈ fetches, ∀ n ∈ f.carries, n = latest) {m : ClipNumber} (hm : m = latest) :
    ∀ f ∈ fetches ++ [.running m], ∀ n ∈ f.carries, n = latest := by
  intro f hf
  rcases List.mem_append.1 hf with hf | hf
  · exact h f hf
  · rw [List.mem_singleton.1 hf]
    intro n hn
    rw [← Option.some.inj hn, hm]

theorem fresh_publishNow (hfetches : s.NoFetch) (hcore : s.core.stores = none) :
    Fresh (publishNow s) where
  fetches := hfetches.elim
  main := fun n hn => (nomatch hn)
  core := by
    intro n hn
    have hstores : s.core.stores = some n := hn
    rw [hcore] at hstores
    cases hstores
  pending := fun n hn => (nomatch hn)

theorem fresh_step {e : ImageEvent} (hs : Fresh s) (h : s.Undisturbed e) : Fresh (step s e) := by
  cases e with
  | onClipText =>
      simp only [step]
      split
      · rename_i hcore
        obtain ⟨hfetches, hmain⟩ := h hcore
        refine ⟨hfetches.elim, ?_, fun n hn => (nomatch hn), fun n hn => (nomatch hn)⟩
        intro n hn
        have hcarries : s.main.carries = some n := hn
        rw [hmain] at hcarries
        cases hcarries
      · exact hs
  | onClipImage hasMeta =>
      cases hasMeta with
      | false => simpa [step] using hs
      | true =>
          simp only [step]
          split
          · rename_i hcore
            obtain ⟨hfetches, hmain, hpending⟩ := h (by simpa using hcore)
            have hcarries : ∀ n ∈ s.main.carries, n = s.latest + 1 := by
              intro n hn
              rw [hmain] at hn
              cases hn
            split
            · -- The core is about to replace what is kept for later.
              refine ⟨hfetches.elim, hcarries, fun n hn => (Option.some.inj hn).symm, ?_⟩
              exact fun n _ => Or.inr (Option.some_ne_none _)
            · rename_i hidle
              refine ⟨fetches_append hfetches.elim rfl, hcarries, ?_, ?_⟩
              · intro n hn
                rw [show s.core = .free by simpa using hcore] at hn
                cases hn
              · intro n hn
                have hnone := hpending (Bool.eq_false_iff.2 hidle)
                have hsome : s.pendingRemoteImage = some n := hn
                rw [hnone] at hsome
                cases hsome
          · exact hs
  | coreStep =>
      simp only [step]
      split
      · exact hs
      · rename_i n hcore
        refine ⟨hs.fetches, hs.main, fun n hn => (nomatch hn), fun m hm => Or.inl ?_⟩
        rcases hs.pending m hm with hlatest | hstores
        · exact hlatest
        · rw [hcore] at hstores
          exact absurd rfl hstores
      · rename_i n hcore
        refine ⟨hs.fetches, hs.main, fun n hn => (nomatch hn), fun m hm => Or.inl ?_⟩
        rw [← Option.some.inj hm]
        exact hs.core n (by rw [hcore]; rfl)
  | publish =>
      simp only [step]
      split
      · rename_i hmain
        obtain ⟨hfetches, hcore⟩ := h hmain
        exact fresh_publishNow hfetches hcore
      · exact hs
  | publishImage hash dedup =>
      simp only [step]
      split
      · rename_i hmain
        split
        · exact ⟨hs.fetches, hs.main, hs.core, hs.pending⟩
        · rename_i hskip
          have hgoes : dedup = false ∨ hash ∉ s.recentImageHashes.keys := by
            rw [LruSet.touch_fst] at hskip
            cases dedup with
            | false => exact Or.inl rfl
            | true => exact Or.inr (by simpa using hskip)
          obtain ⟨hfetches, hcore⟩ := h hmain hgoes
          exact fresh_publishNow (s := { s with
            recentImageHashes := (s.recentImageHashes.touch hash).2 }) hfetches hcore
      · exact hs
  | sendFilesToPeers =>
      simp only [step]
      split
      · exact ⟨hs.fetches, fun n hn => (nomatch hn), hs.core, hs.pending⟩
      · exact hs
  | enterStandby =>
      simp only [step]
      split
      · exact ⟨hs.fetches, hs.main, hs.core, hs.pending⟩
      · exact hs
  | leaveStandby =>
      simp only [step]
      split
      · exact ⟨hs.fetches, fun n hn => (nomatch hn), hs.core, hs.pending⟩
      · exact hs
  | mainStep =>
      simp only [step]
      split
      · exact hs
      · exact ⟨hs.fetches, fun n hn => (nomatch hn), hs.core, hs.pending⟩
      · rename_i hmain
        split
        · rename_i n hpending
          refine ⟨hs.fetches, fun m hm => ?_, hs.core, hs.pending⟩
          rw [← Option.some.inj hm]
          rcases h hmain with hcore | hnone
          · exact (hs.pending n hpending).resolve_right (fun hstores => hstores hcore)
          · rw [hnone] at hpending
            cases hpending
        · exact ⟨hs.fetches, fun n hn => (nomatch hn), hs.core, hs.pending⟩
      · rename_i n hmain
        refine ⟨hs.fetches, fun m hm => ?_, hs.core, fun m hm => (nomatch hm)⟩
        rw [← Option.some.inj hm]
        exact hs.main n (by rw [hmain]; rfl)
      · rename_i n hmain
        have hlatest : n = s.latest := hs.main n (by rw [hmain]; rfl)
        split
        · refine ⟨hs.fetches, fun m hm => (nomatch hm), hs.core, fun m hm => Or.inl ?_⟩
          rw [← Option.some.inj hm, hlatest]
        · exact ⟨fetches_append hs.fetches hlatest, fun m hm => (nomatch hm), hs.core, hs.pending⟩
  | fetched i hash =>
      simp only [step]
      split
      · exact ⟨hs.set_fetch fun n hn => (nomatch hn), hs.main, hs.core, hs.pending⟩
      · rename_i n hash hget
        refine ⟨hs.set_fetch ?_, hs.main, hs.core, hs.pending⟩
        intro m hm
        split at hm
        · cases hm
        · rw [← Option.some.inj hm]
          exact hs.fetches _ (List.mem_of_getElem? hget) n rfl
      · exact hs
  | write i =>
      simp only [step]
      split
      · split
        · exact ⟨hs.set_fetch fun n hn => (nomatch hn), hs.main, hs.core, hs.pending⟩
        · exact hs
      · exact hs

theorem newest_of_fresh (hs : Fresh s) (e : ImageEvent) : s.Newest e := by
  cases e with
  | write i => exact fun n hget _ => hs.fetches _ (List.mem_of_getElem? hget) n rfl
  | _ => trivial

/-! ## Runs -/

/-- **In every undisturbed run, an image is written to the clipboard only if no newer remote clip
has been delivered and no newer local copy published.** -/
theorem newest_along (reconnectIdleMode : Bool) (es : List ImageEvent)
    (h : Machine.Along step Undisturbed (init reconnectIdleMode) es) :
    Machine.Along step Newest (init reconnectIdleMode) es :=
  Machine.along_of_invariant (I := Fresh) (fun _ _ hundisturbed hs => fresh_step hs hundisturbed)
    (fun _ e _ hs => newest_of_fresh hs e) (fresh_init reconnectIdleMode) h

/-! ## Two runs -/

instance (s : ImageService) : Decidable s.NoFetch :=
  inferInstanceAs (Decidable (∀ f ∈ s.fetches, f.carries = none))

instance (s : ImageService) : (e : ImageEvent) → Decidable (s.Undisturbed e)
  | .onClipText => inferInstanceAs (Decidable (_ → _ ∧ _))
  | .onClipImage true => inferInstanceAs (Decidable (_ → _ ∧ _ ∧ (_ → _)))
  | .publish => inferInstanceAs (Decidable (_ → _ ∧ _))
  | .publishImage _ _ => inferInstanceAs (Decidable (_ → _ ∨ _ → _ ∧ _))
  | .mainStep => inferInstanceAs (Decidable (_ → _ ∨ _))
  | .onClipImage false | .coreStep | .sendFilesToPeers | .enterStandby | .leaveStandby
  | .fetched .. | .write _ => isTrue trivial

/-- Four images come in standby. The first is superseded by the second, this one by a text, and the
third by a local copy; the fourth is fetched and written when the service wakes. Then a newer text
is written, and an image that was there before is not. -/
def keptForLater : List ImageEvent :=
  [.onClipImage true, .coreStep, .onClipImage true, .coreStep, .onClipText, .coreStep,
    .onClipImage true, .coreStep, .publish, .mainStep, .mainStep, .enterStandby,
    .onClipImage true, .coreStep, .leaveStandby, .mainStep, .mainStep, .mainStep, .mainStep,
    .fetched 0 (some "a"), .write 0, .onClipText, .coreStep,
    .onClipImage true, .fetched 1 (some "a")]

theorem keptForLater_newest :
    Machine.Along step Newest (init true) keptForLater ∧
      (Machine.run step (init true) (keptForLater.take 21)).clipboard = some 6 ∧
      (Machine.run step (init true) keptForLater).clipboard = some 7 :=
  ⟨newest_along true keptForLater (by decide), by decide, by decide⟩

/-- While an image is fetched, a text is delivered and written. -/
def overtaken : List ImageEvent :=
  [.onClipImage true, .onClipText, .coreStep, .fetched 0 (some "a"), .write 0]

theorem overtaken_overwrites :
    ¬ ∀ reconnectIdleMode es, Machine.Along step Newest (init reconnectIdleMode) es := by
  intro h
  have hlast := Machine.along_iff.1 (h false overtaken) (overtaken.take 4) (.write 0) [] rfl
  exact absurd (hlast 1 (by decide) (by decide)) (by decide)

end ImageService

end ClipBridge.Android
