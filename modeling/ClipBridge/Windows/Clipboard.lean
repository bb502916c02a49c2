import ClipBridge.Lib.LruSet
import ClipBridge.Lib.Machine

/-!
# The Windows clipboard

Following `BridgeListener::on_clip` and `handle_remote_image` of `clients/windows/src/bridge.rs`.
A text is set at once, before `on_clip` returns. An image is fetched on a thread of its own, and
set when that thread comes to it, unless its pixels are among the last ones remembered.

The clips are kept in the order in which they are delivered, with what has become of each of them.
An image is known by the hash of its pixels; what cannot be decoded is no image.

* `Settled` — when all is done, the clipboard holds the newest clip whose content was obtained.
* `InOrder` — a clip does not come to be written after a later one, and is skipped only where the
  clipboard holds it already.
* `Fair` — the newest clip with a content is on the clipboard, or still to come.
* `settled_along` — a run in order always ends in the newest clip.
-/

namespace ClipBridge.Windows

inductive Content where
  | text (content : String)
  | image (hash : String)
  deriving DecidableEq, Repr

/-- What has become of a clip that was delivered. -/
inductive Clip where
  | settingText (content : String)
  | fetching
  /-- The image is there; `remember_hash` is next. -/
  | remembering (hash : String)
  | writing (hash : String)
  /-- All is done; the content is what was obtained. -/
  | finished (content : Option Content)
  deriving DecidableEq, Repr

structure Bridge where
  clips : List Clip
  recentImageHashes : LruSet String 32
  clipboard : Option Content
  /-- The last clip that the clipboard holds, by its place in the order. -/
  shown : Option Nat

inductive BridgeEvent where
  | onClipText (content : String)
  /-- `on_clip` sets the text and returns. -/
  | setText (ok : Bool)
  /-- Nothing is fetched where there are no meta data or no client. -/
  | onClipImage (fetches : Bool)
  /-- `fetch_image` brings an image of this pixel hash, or nothing that is an image. -/
  | fetched (i : Nat) (hash : Option String)
  | remember (i : Nat)
  | write (i : Nat) (ok : Bool)
  /-- A callback that has seen an image, or an image sent from a file. -/
  | rememberOther (hash : String)

namespace Bridge

def init (clipboard : Option Content) (hashes : LruSet String 32) : Bridge :=
  ⟨[], hashes, clipboard, none⟩

/-- `on_clip` has not returned. -/
def Busy (s : Bridge) : Prop := ∃ content, s.clips.getLast? = some (.settingText content)

instance (s : Bridge) : Decidable s.Busy :=
  match h : s.clips.getLast? with
  | some (.settingText content) => isTrue ⟨content, h⟩
  | some .fetching | some (.remembering _) | some (.writing _) | some (.finished _) | none =>
      isFalse fun ⟨_, h'⟩ => nomatch h.symm.trans h'

/-- The clipboard is found to hold the content of clip `i` as well. -/
def alsoShown (s : Bridge) (i : Nat) : Option Nat := some (s.shown.elim i (max i))

def step (s : Bridge) : BridgeEvent → Bridge
  | .onClipText content =>
      if s.Busy then s else { s with clips := s.clips ++ [.settingText content] }
  | .setText ok =>
      match s.clips.getLast? with
      | some (.settingText content) =>
          let i := s.clips.length - 1
          let s := { s with clips := s.clips.set i (.finished (some (.text content))) }
          if ok then { s with clipboard := some (.text content), shown := some i } else s
      | _ => s
  | .onClipImage fetches =>
      if s.Busy then s
      else { s with clips := s.clips ++ [if fetches then .fetching else .finished none] }
  | .fetched i hash =>
      match s.clips[i]? with
      | some .fetching =>
          let clip := match hash with
            | some hash => .remembering hash
            | none => .finished none
          { s with clips := s.clips.set i clip }
      | _ => s
  | .remember i =>
      match s.clips[i]? with
      | some (.remembering hash) =>
          let (seen, hashes) := s.recentImageHashes.touch hash
          let s := { s with recentImageHashes := hashes }
          if seen then
            { s with
              clips := s.clips.set i (.finished (some (.image hash)))
              shown := if s.clipboard = some (.image hash) then s.alsoShown i else s.shown }
          else { s with clips := s.clips.set i (.writing hash) }
      | _ => s
  | .write i ok =>
      match s.clips[i]? with
      | some (.writing hash) =>
          let s := { s with clips := s.clips.set i (.finished (some (.image hash))) }
          if ok then { s with clipboard := some (.image hash), shown := some i } else s
      | _ => s
  | .rememberOther hash =>
      { s with recentImageHashes := (s.recentImageHashes.touch hash).2 }

def run : Bridge → List BridgeEvent → Bridge := Machine.run step

end Bridge

/-! ## The newest content -/

def Clip.obtained : Clip → Option Content
  | .settingText content => some (.text content)
  | .fetching => none
  | .remembering hash => some (.image hash)
  | .writing hash => some (.image hash)
  | .finished content => content

def Clip.Finished : Clip → Prop
  | .finished _ => True
  | _ => False

def Clip.toRemember : Clip → Option String
  | .remembering hash => some hash
  | _ => none

def Clip.toWrite : Clip → Option String
  | .writing hash => some hash
  | _ => none

namespace Bridge

/-- Clip `i` is the last one whose content was obtained. -/
structure Newest (s : Bridge) (i : Nat) (clip : Clip) (content : Content) : Prop where
  at_i : s.clips[i]? = some clip
  obtained : clip.obtained = some content
  last : ∀ j clip', s.clips[j]? = some clip' → i < j → clip'.obtained = none

/-- When every thread has finished, the clipboard holds the newest content. -/
def Settled (s : Bridge) : Prop :=
  (∀ clip ∈ s.clips, clip.Finished) →
    ∀ i clip content, s.Newest i clip content → s.clipboard = some content

/-- The clipboard does not go back to an earlier clip. -/
def Onward (s : Bridge) (e : BridgeEvent) : Prop :=
  ∀ j ∈ s.shown, ∃ j' ∈ (step s e).shown, j ≤ j'

/-- A skipped image is on the clipboard, or a later clip is. A write succeeds, and the clipboard
does not hold a later clip. -/
def InOrder (s : Bridge) : BridgeEvent → Prop
  | .setText ok => s.Busy → ok = true
  | .remember i => ∀ clip ∈ s.clips[i]?, ∀ hash ∈ clip.toRemember,
      hash ∈ s.recentImageHashes.keys →
        s.clipboard = some (.image hash) ∨ ∃ j ∈ s.shown, i < j
  | .write i ok => ∀ clip ∈ s.clips[i]?, clip.toWrite ≠ none →
      ok = true ∧ ∀ j ∈ s.shown, j < i
  | _ => True

/-- The newest content is on the clipboard, or its clip is still under way. -/
structure Fair (s : Bridge) : Prop where
  newest : ∀ i clip content, s.Newest i clip content → clip.Finished →
    s.shown = some i ∧ s.clipboard = some content
  shown : ∀ j ∈ s.shown, ∃ clip, s.clips[j]? = some clip ∧ clip.obtained ≠ none

theorem settled_of_fair {s : Bridge} (h : s.Fair) : s.Settled := by
  intro hfinished i clip content hnewest
  exact (h.newest i clip content hnewest (hfinished clip (List.mem_of_getElem? hnewest.at_i))).2

theorem fair_init (clipboard : Option Content) (hashes : LruSet String 32) :
    Fair (init clipboard hashes) := by
  constructor
  · intro i clip content hnewest
    exact absurd hnewest.at_i (by simp [init])
  · intro j hj
    cases hj

/-! ## A clip is added, or moves on -/

variable {s s' : Bridge}

theorem fair_append (h : s.Fair) {clip : Clip} (hclips : s'.clips = s.clips ++ [clip])
    (hclipboard : s'.clipboard = s.clipboard) (hshown : s'.shown = s.shown)
    (hopen : clip.Finished → clip.obtained = none) : s'.Fair := by
  have hold : ∀ {j : Nat} {clip' : Clip}, s.clips[j]? = some clip' →
      s'.clips[j]? = some clip' := by
    intro j clip' hj
    rw [hclips, List.getElem?_append_left (List.getElem?_eq_some_iff.1 hj).1]
    exact hj
  constructor
  · intro i clip' content hnewest hfinished
    have hi := hnewest.at_i
    rw [hclips] at hi
    by_cases hlt : i < s.clips.length
    · rw [List.getElem?_append_left hlt] at hi
      rw [hshown, hclipboard]
      exact h.newest i clip' content ⟨hi, hnewest.obtained,
        fun j clip'' hj hij => hnewest.last j clip'' (hold hj) hij⟩ hfinished
    · -- The clip that is added has no content, or is under way.
      rw [List.getElem?_append_right (Nat.le_of_not_lt hlt), List.getElem?_singleton] at hi
      split at hi
      · cases hi
        have hnone := hopen hfinished
        rw [hnewest.obtained] at hnone
        cases hnone
      · cases hi
  · intro j hj
    rw [hshown] at hj
    obtain ⟨clip', hget, hobtained⟩ := h.shown j hj
    exact ⟨clip', hold hget, hobtained⟩

/-- What the clipboard holds is not later than a clip that is the newest. -/
theorem shown_le (h : s.Fair) {i j : Nat} (hj : s.shown = some j)
    (hlast : ∀ k clip, s.clips[k]? = some clip → i < k → clip.obtained = none) : j ≤ i := by
  obtain ⟨clip, hget, hobtained⟩ := h.shown j hj
  by_contra hlt
  exact hobtained (hlast j clip hget (Nat.lt_of_not_le hlt))

/-- One clip moves on. If that ends its way and it is the newest one, the clipboard holds it; if a
later one is on the clipboard, that stays. -/
theorem fair_set (h : s.Fair) {i : Nat} {clip clip' : Clip} (hi : s.clips[i]? = some clip)
    (hclips : s'.clips = s.clips.set i clip')
    (hobtained : clip'.obtained = none → clip.obtained = none)
    (hself : clip'.Finished → ∀ content, clip'.obtained = some content →
      (∀ k c, s.clips[k]? = some c → i < k → c.obtained = none) →
      s'.shown = some i ∧ s'.clipboard = some content)
    (hothers : ∀ k, s.shown = some k → (clip'.obtained ≠ none → i < k) →
      s'.shown = some k ∧ s'.clipboard = s.clipboard)
    (hshown : ∀ j, s'.shown = some j → j = i ∧ clip'.obtained ≠ none ∨ s.shown = some j) :
    s'.Fair := by
  have hlt : i < s.clips.length := (List.getElem?_eq_some_iff.1 hi).1
  have hget_i : s'.clips[i]? = some clip' := by rw [hclips, List.getElem?_set_self hlt]
  have hget : ∀ k, i ≠ k → s'.clips[k]? = s.clips[k]? := by
    intro k hk
    rw [hclips, List.getElem?_set_ne hk]
  constructor
  · intro k c content hnewest hfinished
    have hlast : ∀ j c', s.clips[j]? = some c' → k < j → c'.obtained = none := by
      intro j c' hj hkj
      by_cases hji : i = j
      · subst hji
        rw [hi] at hj
        cases hj
        exact hobtained (hnewest.last i clip' hget_i hkj)
      · exact hnewest.last j c' ((hget j hji).trans hj) hkj
    by_cases hk : i = k
    · subst hk
      have hc := hnewest.at_i
      rw [hget_i] at hc
      cases hc
      exact hself hfinished content hnewest.obtained hlast
    · have hc := hnewest.at_i
      rw [hget k hk] at hc
      obtain ⟨hshown_k, hclipboard⟩ := h.newest k c content ⟨hc, hnewest.obtained, hlast⟩ hfinished
      have hafter : clip'.obtained ≠ none → i < k := by
        intro hsome
        by_contra hle
        exact hsome (hnewest.last i clip' hget_i (by omega))
      obtain ⟨hshown', hclipboard'⟩ := hothers k hshown_k hafter
      exact ⟨hshown', hclipboard'.trans hclipboard⟩
  · intro j hj
    rcases hshown j hj with ⟨rfl, hsome⟩ | hold
    · exact ⟨clip', hget_i, hsome⟩
    · obtain ⟨c, hc, hsome⟩ := h.shown j hold
      by_cases hji : i = j
      · subst hji
        rw [hi] at hc
        cases hc
        exact ⟨clip', hget_i, fun hnone => hsome (hobtained hnone)⟩
      · exact ⟨c, (hget j hji).trans hc, hsome⟩

/-! ## One step -/

theorem fair_step {e : BridgeEvent} (h : s.Fair) (hin : s.InOrder e) : (step s e).Fair := by
  cases e with
  | onClipText content =>
      simp only [step]
      split
      · exact h
      · exact fair_append h rfl rfl rfl fun hfinished => hfinished.elim
  | setText ok =>
      simp only [step]
      split
      · rename_i content hlast
        have hi : s.clips[s.clips.length - 1]? = some (.settingText content) := by
          rw [← List.getLast?_eq_getElem?]
          exact hlast
        rw [if_pos (hin ⟨content, hlast⟩)]
        refine fair_set h hi rfl (fun hnone => (nomatch hnone)) ?_ ?_ ?_
        · intro _ content' hcontent _
          exact ⟨rfl, hcontent⟩
        · -- No clip comes after the text.
          intro k hk hafter
          obtain ⟨c, hc, -⟩ := h.shown k hk
          have hlt := (List.getElem?_eq_some_iff.1 hc).1
          have hlater := hafter (Option.some_ne_none _)
          omega
        · intro j hj
          exact Or.inl ⟨(Option.some.inj hj).symm, Option.some_ne_none _⟩
      · exact h
  | onClipImage fetches =>
      simp only [step]
      split
      · exact h
      · cases fetches with
        | true => exact fair_append h rfl rfl rfl fun hfinished => hfinished.elim
        | false => exact fair_append h rfl rfl rfl fun _ => rfl
  | fetched i hash =>
      simp only [step]
      split
      · rename_i hi
        refine fair_set h hi rfl (fun _ => rfl) ?_ (fun k hk _ => ⟨hk, rfl⟩) fun j hj => Or.inr hj
        intro hfinished content hcontent
        cases hash with
        | none => cases hcontent
        | some hash => exact hfinished.elim
      · exact h
  | remember i =>
      simp only [step]
      split
      · rename_i hash hi
        split
        · rename_i hseen
          rw [LruSet.touch_fst] at hseen
          have hheld := hin _ hi hash rfl (of_decide_eq_true hseen)
          refine fair_set h hi rfl (fun hnone => (nomatch hnone)) ?_ ?_ ?_
          · intro _ content hcontent hlast
            have hclipboard : s.clipboard = some (.image hash) := by
              rcases hheld with hclipboard | ⟨j, hj, hij⟩
              · exact hclipboard
              · exact absurd (shown_le h hj hlast) (Nat.not_le.2 hij)
            refine ⟨?_, hclipboard.trans hcontent⟩
            show (if _ then _ else _) = _
            rw [if_pos hclipboard]
            show some (s.shown.elim i (max i)) = some i
            cases hshown : s.shown with
            | none => rfl
            | some j => exact congrArg some (Nat.max_eq_left (shown_le h hshown hlast))
          · intro k hk hafter
            refine ⟨?_, rfl⟩
            show (if _ then some (s.shown.elim i (max i)) else s.shown) = _
            have hlater := hafter (Option.some_ne_none _)
            rw [hk]
            split
            · exact congrArg some (Nat.max_eq_right (Nat.le_of_lt hlater))
            · rfl
          · intro j hj
            have hj' : (if s.clipboard = some (.image hash) then
              some (s.shown.elim i (max i)) else s.shown) = some j := hj
            split at hj'
            · cases hshown : s.shown with
              | none =>
                  rw [hshown] at hj'
                  exact Or.inl ⟨(Option.some.inj hj').symm, Option.some_ne_none _⟩
              | some k =>
                  rw [hshown] at hj'
                  have hmax : max i k = j := Option.some.inj hj'
                  by_cases hik : j = i
                  · exact Or.inl ⟨hik, Option.some_ne_none _⟩
                  · exact Or.inr (congrArg some (by omega))
            · exact Or.inr hj'
        · refine fair_set h hi rfl (fun hnone => (nomatch hnone)) ?_ (fun k hk _ => ⟨hk, rfl⟩)
            fun j hj => Or.inr hj
          exact fun hfinished => hfinished.elim
      · exact h
  | write i ok =>
      simp only [step]
      split
      · rename_i hash hi
        obtain ⟨hok, hbefore⟩ := hin _ hi (Option.some_ne_none _)
        rw [if_pos hok]
        refine fair_set h hi rfl (fun hnone => (nomatch hnone)) ?_ ?_ ?_
        · intro _ content hcontent _
          exact ⟨rfl, hcontent⟩
        · intro k hk hafter
          exact absurd (hbefore k hk) (Nat.not_lt.2 (Nat.le_of_lt (hafter (Option.some_ne_none _))))
        · intro j hj
          exact Or.inl ⟨(Option.some.inj hj).symm, Option.some_ne_none _⟩
      · exact h
  | rememberOther hash => exact ⟨fun i clip content hnewest =>
      h.newest i clip content ⟨hnewest.at_i, hnewest.obtained, hnewest.last⟩, h.shown⟩

theorem onward_of_shown_eq {e : BridgeEvent} (h : (step s e).shown = s.shown) : s.Onward e := by
  intro j hj
  exact ⟨j, by rw [h]; exact hj, Nat.le_refl _⟩

theorem onward_of_shown {e : BridgeEvent} {i : Nat} (h : (step s e).shown = some i)
    (hle : ∀ j ∈ s.shown, j ≤ i) : s.Onward e := by
  intro j hj
  exact ⟨i, h, hle j hj⟩

theorem onward_step {e : BridgeEvent} (h : s.Fair) (hin : s.InOrder e) : s.Onward e := by
  cases e with
  | onClipText content =>
      apply onward_of_shown_eq
      simp only [step]
      split <;> rfl
  | setText ok =>
      cases hlast : s.clips.getLast? with
      | none => exact onward_of_shown_eq (by simp only [step, hlast])
      | some clip =>
          cases clip with
          | settingText content =>
              apply onward_of_shown (i := s.clips.length - 1)
              · simp only [step, hlast]
                rw [if_pos (hin ⟨content, hlast⟩)]
              · intro j hj
                obtain ⟨c, hc, -⟩ := h.shown j hj
                exact Nat.le_sub_one_of_lt (List.getElem?_eq_some_iff.1 hc).1
          | _ => exact onward_of_shown_eq (by simp only [step, hlast])
  | onClipImage fetches =>
      apply onward_of_shown_eq
      simp only [step]
      split <;> rfl
  | fetched i hash =>
      apply onward_of_shown_eq
      simp only [step]
      split <;> rfl
  | remember i =>
      intro j hj
      simp only [step]
      split
      · split
        · show ∃ j' ∈ (if s.clipboard = _ then some (s.shown.elim i (max i)) else s.shown), j ≤ j'
          split
          · rw [hj]
            exact ⟨max i j, rfl, Nat.le_max_right i j⟩
          · exact ⟨j, hj, Nat.le_refl _⟩
        · exact ⟨j, hj, Nat.le_refl _⟩
      · exact ⟨j, hj, Nat.le_refl _⟩
  | write i ok =>
      cases hi : s.clips[i]? with
      | none => exact onward_of_shown_eq (by simp only [step, hi])
      | some clip =>
          cases clip with
          | writing hash =>
              obtain ⟨hok, hbefore⟩ := hin _ hi (Option.some_ne_none _)
              apply onward_of_shown (i := i)
              · simp only [step, hi]
                rw [if_pos hok]
              · intro j hj
                exact Nat.le_of_lt (hbefore j hj)
          | _ => exact onward_of_shown_eq (by simp only [step, hi])
  | rememberOther hash => exact onward_of_shown_eq rfl

/-! ## Runs -/

/-- **In every run in order, the clipboard never goes back to an earlier clip, and whenever all
threads have finished it holds the newest clip whose content was obtained.** -/
theorem settled_along (clipboard : Option Content) (hashes : LruSet String 32)
    (es : List BridgeEvent) (h : Machine.Along step InOrder (init clipboard hashes) es) :
    Machine.Along step Onward (init clipboard hashes) es ∧
      ∀ pre, pre <+: es → (run (init clipboard hashes) pre).Settled := by
  have hstep : ∀ s e, InOrder s e → Fair s → Fair (step s e) := fun _ _ hin hs => fair_step hs hin
  have hinit := fair_init clipboard hashes
  constructor
  · apply Machine.along_of_invariant hstep ?_ hinit h
    intro s e hin hs
    exact onward_step hs hin
  · intro pre hpre
    exact settled_of_fair (Machine.invariant_throughout hstep hinit h pre hpre)

/-! ## Two runs -/

instance (s : Bridge) : (e : BridgeEvent) → Decidable (s.InOrder e)
  | .setText ok => inferInstanceAs (Decidable (s.Busy → ok = true))
  | .remember i => inferInstanceAs (Decidable (∀ clip ∈ s.clips[i]?, ∀ hash ∈ clip.toRemember,
      hash ∈ s.recentImageHashes.keys →
        s.clipboard = some (.image hash) ∨ ∃ j ∈ s.shown, i < j))
  | .write i ok => inferInstanceAs (Decidable (∀ clip ∈ s.clips[i]?, clip.toWrite ≠ none →
      ok = true ∧ ∀ j ∈ s.shown, j < i))
  | .onClipText _ | .onClipImage _ | .fetched _ _ | .rememberOther _ => isTrue trivial

/-- An image, and a text that comes when the image is on the clipboard. -/
def imageThenText : List BridgeEvent :=
  [.onClipImage true, .fetched 0 (some "pixels"), .remember 0, .write 0 true, .onClipText "note",
    .setText true]

theorem imageThenText_settled : Machine.Along step Onward (init none LruSet.empty) imageThenText ∧
    ∀ pre, pre <+: imageThenText → (run (init none LruSet.empty) pre).Settled :=
  settled_along none LruSet.empty imageThenText (by decide)

/-- A text comes while the image is fetched. -/
def textDuringFetch : List BridgeEvent :=
  [.onClipImage true, .onClipText "note", .setText true, .fetched 0 (some "pixels"), .remember 0,
    .write 0 true]

/-- The text is the last clip, the image is what stays. -/
theorem textDuringFetch_unsettled : ¬ (run (init none LruSet.empty) textDuringFetch).Settled := by
  intro h
  have hfinished : ∀ clip ∈ (run (init none LruSet.empty) textDuringFetch).clips,
      clip.Finished := by
    intro clip hclip
    have hclips : clip ∈ [Clip.finished (some (.image "pixels")),
        Clip.finished (some (.text "note"))] := hclip
    rcases List.mem_pair.1 hclips with rfl | rfl
    · trivial
    · trivial
  have hnewest : (run (init none LruSet.empty) textDuringFetch).Newest 1
      (.finished (some (.text "note"))) (.text "note") := by
    refine ⟨rfl, rfl, fun j clip' hj hlast => ?_⟩
    have hj' := (List.getElem?_eq_some_iff.1 hj).1
    exact absurd hj' (Nat.not_lt.2 hlast)
  exact absurd (h hfinished 1 _ _ hnewest) (by decide)

end Bridge

end ClipBridge.Windows
