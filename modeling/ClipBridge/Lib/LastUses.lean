import ClipBridge.Lib.FittingSuffix
import ClipBridge.Lib.RecentLog
import Mathlib.Data.Finset.Card

/-!
# The keys that were used last

A log of uses grows at its end. Of each key only the last use counts, and of these only the last
`cap` that are still fresh. A queue answers like the log if it moves a key to its end when it is
used, and is trimmed at its front; stale uses may be dropped whenever it is touched.

* `lastUses` — the last use of each key, in the order of these uses.
* `Recent` — a use that no later one of its key replaces, with fewer than `cap` other keys since.
* `keepLast` — trim the queue to `cap` uses.
* `Tracks` — the queue answers like the log: `Tracks.mem_iff`. It is kept by time passing, by
  dropping what is stale, and by one more use.
-/

namespace LastUses

variable {α κ τ : Type*} [DecidableEq κ] (key : α → κ)

/-! ## The reference -/

/-- Move the key of `a` to the end. -/
def use (l : List α) (a : α) : List α := l.filter (key · ≠ key a) ++ [a]

/-- The last use of each key, in the order of these uses. -/
def lastUses (log : List α) : List α := log.foldl (use key) []

/-- The last use of its key, with fewer than `cap` other keys since. -/
def Recent (cap : Nat) (log : List α) (a : α) : Prop :=
  ∃ old new, log = old ++ a :: new ∧ key a ∉ new.map key ∧ (new.map key).toFinset.card < cap

/-- The last use of the one comes before the last use of the other. -/
def UsedBefore (log : List α) (a b : α) : Prop :=
  ∃ old mid new, log = old ++ a :: (mid ++ b :: new) ∧ key a ∉ (mid ++ b :: new).map key ∧
    key b ∉ new.map key

variable {key} {log l s : List α} {a : α} {cap : Nat}

theorem lastUses_concat (log : List α) (a : α) :
    lastUses key (log ++ [a]) = use key (lastUses key log) a := by
  simp [lastUses, List.foldl_append]

theorem map_key_lastUses (log : List α) (k : κ) :
    k ∈ (lastUses key log).map key ↔ k ∈ log.map key := by
  induction log using List.reverseRecOn with
  | nil => simp [lastUses]
  | append_singleton log a ih =>
      have hfilter : k ∈ ((lastUses key log).filter (key · ≠ key a)).map key ↔
          k ∈ log.map key ∧ k ≠ key a := by
        rw [← ih]
        simp only [List.mem_map, List.mem_filter, decide_eq_true_eq]
        constructor
        · rintro ⟨b, ⟨hb, hne⟩, rfl⟩
          exact ⟨⟨b, hb, rfl⟩, hne⟩
        · rintro ⟨⟨b, hb, rfl⟩, hne⟩
          exact ⟨b, ⟨hb, hne⟩, rfl⟩
      rw [lastUses_concat, use, List.map_append, List.map_append, List.mem_append, hfilter,
        List.mem_append]
      by_cases hk : k = key a <;> simp [hk]

theorem nodup_lastUses (log : List α) : ((lastUses key log).map key).Nodup := by
  induction log using List.reverseRecOn with
  | nil => exact List.nodup_nil
  | append_singleton log a ih =>
      rw [lastUses_concat, use, List.map_append]
      refine (ih.sublist (List.filter_sublist.map key)).append (List.nodup_singleton _) ?_
      simp

/-- As many as there are keys. -/
theorem length_lastUses (log : List α) :
    (lastUses key log).length = (log.map key).toFinset.card := by
  have hset : (log.map key).toFinset = ((lastUses key log).map key).toFinset := by
    ext k
    rw [List.mem_toFinset, List.mem_toFinset, map_key_lastUses]
  rw [hset, List.toFinset_card_of_nodup (nodup_lastUses log), List.length_map]

theorem lastUses_sublist (log : List α) : (lastUses key log).Sublist log := by
  induction log using List.reverseRecOn with
  | nil => exact List.Sublist.slnil
  | append_singleton log a ih =>
      rw [lastUses_concat]
      exact (List.filter_sublist.trans ih).append (List.Sublist.refl _)

/-- What is used later comes later, and replaces what it uses again. -/
theorem lastUses_append (old new : List α) : lastUses key (old ++ new) =
    (lastUses key old).filter (key · ∉ new.map key) ++ lastUses key new := by
  induction new using List.reverseRecOn with
  | nil => simp [lastUses]
  | append_singleton new a ih =>
      rw [← List.append_assoc, lastUses_concat, lastUses_concat, ih, use, use, List.filter_append,
        List.filter_filter, List.append_assoc]
      congr 1
      refine List.filter_congr fun b _ => ?_
      by_cases hb : key b = key a <;> simp [hb]

/-- Of the keys that were used once only, each stays where it is. -/
theorem lastUses_eq_self (h : (l.map key).Nodup) : lastUses key l = l := by
  induction l using List.reverseRecOn with
  | nil => rfl
  | append_singleton l a ih =>
      rw [List.map_append, List.nodup_append] at h
      have hother : l.filter (key · ≠ key a) = l := by
        rw [List.filter_eq_self]
        intro b hb
        exact decide_eq_true (h.2.2 _ (List.mem_map_of_mem hb) _ (by simp))
      rw [lastUses_concat, ih h.1, use, hother]

theorem lastUses_append_cons {old new : List α} (hnew : key a ∉ new.map key) :
    lastUses key (old ++ a :: new) =
      (lastUses key old).filter (key · ∉ (a :: new).map key) ++ a :: lastUses key new := by
  have hsingle : lastUses key (a :: new) = a :: lastUses key new := by
    have hkept : [a].filter (key · ∉ new.map key) = [a] :=
      List.filter_cons_of_pos (decide_eq_true hnew)
    rw [show a :: new = [a] ++ new from rfl, lastUses_append,
      lastUses_eq_self (by simp), hkept]
    rfl
  rw [lastUses_append, hsingle]

theorem exists_of_mem_lastUses (h : a ∈ lastUses key log) :
    ∃ old new, log = old ++ a :: new ∧ key a ∉ new.map key := by
  induction log using List.reverseRecOn with
  | nil => cases h
  | append_singleton log b ih =>
      rw [lastUses_concat, use, List.mem_append, List.mem_filter, List.mem_singleton] at h
      rcases h with ⟨hmem, hne⟩ | rfl
      · obtain ⟨old, new, rfl, hnew⟩ := ih hmem
        refine ⟨old, new ++ [b], by simp, ?_⟩
        simpa [hnew] using hne
      · exact ⟨log, [], rfl, by simp⟩

/-- A use is followed by the last uses of what comes after it. -/
theorem cons_suffix_lastUses_iff : a :: s <:+ lastUses key log ↔
    ∃ old new, log = old ++ a :: new ∧ key a ∉ new.map key ∧ s = lastUses key new := by
  constructor
  · intro h
    obtain ⟨old, new, rfl, hnew⟩ := exists_of_mem_lastUses (h.subset List.mem_cons_self)
    refine ⟨old, new, rfl, hnew, ?_⟩
    have h' := h
    rw [lastUses_append_cons hnew] at h'
    have hnodup : (lastUses key (old ++ a :: new)).Nodup := (nodup_lastUses _).of_map key
    rw [lastUses_append_cons hnew] at hnodup
    have hright : a ∉ lastUses key new :=
      (List.nodup_cons.1 (List.nodup_append.1 hnodup).2.1).1
    -- Both are suffixes that begin with `a`, and there is only one `a`.
    rcases List.suffix_or_suffix_of_suffix h' (List.suffix_append _ _) with hle | hle
    · rcases List.suffix_cons_iff.1 hle with heq | hlt
      · exact (List.cons_inj_right a).1 heq
      · exact absurd (hlt.subset List.mem_cons_self) hright
    · rcases List.suffix_cons_iff.1 hle with heq | hlt
      · exact ((List.cons_inj_right a).1 heq).symm
      · have hs := (List.nodup_cons.1 (hnodup.sublist h'.sublist)).1
        exact absurd (hlt.subset List.mem_cons_self) hs
  · rintro ⟨old, new, rfl, hnew, rfl⟩
    rw [lastUses_append_cons hnew]
    exact List.suffix_append _ _

theorem pairwise_lastUses (log : List α) : (lastUses key log).Pairwise (UsedBefore key log) := by
  have hsuffix : ∀ s, s <:+ lastUses key log → s.Pairwise (UsedBefore key log) := by
    intro s hs
    induction s with
    | nil => exact List.Pairwise.nil
    | cons a s ih =>
        refine List.pairwise_cons.2 ⟨fun b hb => ?_, ih ((List.suffix_cons a s).trans hs)⟩
        obtain ⟨old, new, rfl, hnew, rfl⟩ := cons_suffix_lastUses_iff.1 hs
        obtain ⟨mid, new, rfl, hlast⟩ := exists_of_mem_lastUses hb
        exact ⟨old, mid, new, rfl, hnew, hlast⟩
  exact hsuffix _ List.suffix_rfl

/-- **The last `cap` of the last uses are the recent ones.** -/
theorem recent_iff : Recent key cap log a ↔
    ∃ s, a :: s <:+ lastUses key log ∧ s.length < cap := by
  constructor
  · rintro ⟨old, new, hlog, hnew, hcard⟩
    exact ⟨_, cons_suffix_lastUses_iff.2 ⟨old, new, hlog, hnew, rfl⟩, by rwa [length_lastUses]⟩
  · rintro ⟨s, hs, hlen⟩
    obtain ⟨old, new, hlog, hnew, rfl⟩ := cons_suffix_lastUses_iff.1 hs
    exact ⟨old, new, hlog, hnew, by rwa [length_lastUses] at hlen⟩

/-! ## Trimming -/

/-- Trim the front. -/
def keepLast (cap : Nat) (l : List α) : List α := l.drop (l.length - cap)

theorem keepLast_suffix (cap : Nat) (l : List α) : keepLast cap l <:+ l := List.drop_suffix _ _

theorem length_keepLast_le (cap : Nat) (l : List α) : (keepLast cap l).length ≤ cap := by
  rw [keepLast, List.length_drop]
  omega

theorem suffix_keepLast (hs : s <:+ l) (hlen : s.length ≤ cap) : s <:+ keepLast cap l := by
  refine List.suffix_of_suffix_length_le hs (keepLast_suffix cap l) ?_
  have := hs.length_le
  rw [keepLast, List.length_drop]
  omega

theorem keepLast_of_le (h : l.length ≤ cap) : keepLast cap l = l := by
  rw [keepLast, Nat.sub_eq_zero_of_le h, List.drop_zero]

/-- A loop that drops the first one as long as there are too many. -/
theorem fittingSuffix_length_le (cap : Nat) (l : List α) :
    List.fittingSuffix (·.length ≤ cap) l = keepLast cap l := by
  have hfits : List.Hereditary fun l : List α => l.length ≤ cap :=
    ⟨Nat.zero_le _, fun hsub h => hsub.length_le.trans h⟩
  have hforth := suffix_keepLast (List.fittingSuffix_suffix l) (hfits.fits_fittingSuffix l)
  have hback : keepLast cap l <:+ List.fittingSuffix (·.length ≤ cap) l :=
    List.suffix_fittingSuffix (keepLast_suffix cap l) (length_keepLast_le cap l)
  exact hforth.eq_of_length_le hback.length_le

/-! ## The queue -/

section

variable (key) (fresh : τ → α → Bool) (cap : Nat)

/-- From `now` on, the queue answers like the log: it ends with all of the last `cap` uses that
are still fresh, and what else it holds are last uses too. -/
structure Tracks (now : τ) (log entries : List α) : Prop where
  suffix : entries <:+ lastUses key log
  bounded : entries.length ≤ cap
  complete : ∀ s, s <:+ lastUses key log → s.length ≤ cap → (∀ a ∈ s, fresh now a = true) →
    s <:+ entries

variable {key fresh cap} {now : τ} {entries : List α}

theorem tracks_nil (now : τ) : Tracks key fresh cap now [] [] :=
  ⟨List.suffix_rfl, Nat.zero_le _, fun _ hs _ _ => hs⟩

theorem Tracks.nodup (h : Tracks key fresh cap now log entries) : (entries.map key).Nodup :=
  (nodup_lastUses log).sublist (h.suffix.sublist.map key)

theorem Tracks.later [Preorder τ] (hf : RecentLog.Fading fresh)
    (h : Tracks key fresh cap now log entries) {now' : τ} (hle : now ≤ now') :
    Tracks key fresh cap now' log entries :=
  ⟨h.suffix, h.bounded, fun s hs hlen hfresh =>
    h.complete s hs hlen fun a ha => hf a hle (hfresh a ha)⟩

/-- What is stale comes first. -/
theorem retain_suffix (ha : RecentLog.Aging fresh l) : RecentLog.retain fresh now l <:+ l := by
  induction l with
  | nil => exact List.suffix_rfl
  | cons a l ih =>
      obtain ⟨hhead, htail⟩ := List.pairwise_cons.1 ha
      cases hfresh : fresh now a with
      | false =>
          rw [RecentLog.retain, List.filter_cons_of_neg (by simp [hfresh])]
          exact (ih htail).trans (List.suffix_cons a l)
      | true =>
          have hall : RecentLog.retain fresh now (a :: l) = a :: l := by
            rw [RecentLog.retain, List.filter_eq_self]
            intro b hb
            rcases List.mem_cons.1 hb with rfl | hb
            · exact hfresh
            · exact hhead b hb now hfresh
          rw [hall]

theorem Tracks.retain (ha : RecentLog.Aging fresh log)
    (h : Tracks key fresh cap now log entries) :
    Tracks key fresh cap now log (RecentLog.retain fresh now entries) := by
  have hentries : RecentLog.Aging fresh entries :=
    ha.sublist (h.suffix.sublist.trans (lastUses_sublist log))
  have hsuffix : RecentLog.retain fresh now entries <:+ entries := retain_suffix hentries
  refine ⟨hsuffix.trans h.suffix, hsuffix.length_le.trans h.bounded, fun s hs hlen hfresh => ?_⟩
  -- What is fresh is a suffix of the fresh ones.
  obtain ⟨t, rfl⟩ := h.complete s hs hlen hfresh
  have hall : s.filter (fresh now) = s := List.filter_eq_self.2 hfresh
  rw [RecentLog.retain, List.filter_append, hall]
  exact List.suffix_append _ _

/-- A suffix of what is kept comes from a suffix that begins with something kept. -/
theorem exists_suffix_of_filter {p : α → Bool} (h : s <:+ l.filter p) :
    ∃ t, t <:+ l ∧ t.filter p = s ∧ ∀ a ∈ t.head?, p a = true := by
  induction l with
  | nil => exact ⟨[], List.suffix_rfl, by simpa using h, by simp⟩
  | cons b l ih =>
      cases hb : p b with
      | false =>
          rw [List.filter_cons_of_neg (by simp [hb])] at h
          obtain ⟨t, ht, hfilter, hhead⟩ := ih h
          exact ⟨t, ht.trans (List.suffix_cons b l), hfilter, hhead⟩
      | true =>
          rw [List.filter_cons_of_pos hb] at h
          rcases List.suffix_cons_iff.1 h with rfl | h
          · exact ⟨b :: l, List.suffix_rfl, List.filter_cons_of_pos hb, by simpa using hb⟩
          · obtain ⟨t, ht, hfilter, hhead⟩ := ih h
            exact ⟨t, ht.trans (List.suffix_cons b l), hfilter, hhead⟩

/-- A key is in there once at most. -/
theorem length_le_of_filter {k : κ} (h : (l.map key).Nodup) :
    l.length ≤ (l.filter (key · ≠ k)).length + 1 := by
  induction l with
  | nil => exact Nat.zero_le _
  | cons b l ih =>
      rw [List.map_cons, List.nodup_cons] at h
      by_cases hb : key b = k
      · have hall : l.filter (key · ≠ k) = l := by
          rw [List.filter_eq_self]
          intro c hc
          refine decide_eq_true fun hck => h.1 ?_
          rw [hb, ← hck]
          exact List.mem_map_of_mem hc
        rw [List.filter_cons_of_neg (by simp [hb]), hall]
        exact le_rfl
      · rw [List.filter_cons_of_pos (by simp [hb]), List.length_cons, List.length_cons]
        exact Nat.succ_le_succ (ih h.2)

/-- **A use goes to the end of the queue, which is trimmed.** -/
theorem Tracks.use (ha : RecentLog.Aging fresh log) (h : Tracks key fresh cap now log entries)
    (a : α) : Tracks key fresh cap now (log ++ [a])
      (keepLast cap (LastUses.use key entries a)) := by
  have hmoved : ∀ t, t <:+ entries →
      LastUses.use key t a <:+ LastUses.use key entries a := by
    rintro t ⟨r, rfl⟩
    rw [LastUses.use, LastUses.use, List.filter_append, List.append_assoc]
    exact List.suffix_append _ _
  constructor
  case suffix =>
    refine (keepLast_suffix _ _).trans ?_
    obtain ⟨r, hr⟩ := h.suffix
    rw [lastUses_concat, ← hr, LastUses.use, LastUses.use, List.filter_append, List.append_assoc]
    exact List.suffix_append _ _
  case bounded => exact length_keepLast_le _ _
  case complete =>
    intro s hs hlen hfresh
    refine suffix_keepLast ?_ hlen
    rw [lastUses_concat] at hs
    rcases List.eq_nil_or_concat s with rfl | ⟨s, b, rfl⟩
    · exact List.nil_suffix
    · obtain ⟨hs, rfl⟩ : s <:+ (lastUses key log).filter (key · ≠ key a) ∧ b = a := by
        obtain ⟨r, hr⟩ := hs
        rw [LastUses.use, List.concat_eq_append, ← List.append_assoc] at hr
        obtain ⟨hr, hb⟩ := List.append_inj' hr rfl
        exact ⟨⟨r, hr⟩, by simpa using hb⟩
      obtain ⟨t, ht, rfl, hhead⟩ := exists_suffix_of_filter hs
      rw [List.concat_eq_append]
      refine hmoved t (h.complete t ht ?_ ?_)
      · have hnodup := (nodup_lastUses log).sublist (ht.sublist.map key)
        have hone := length_le_of_filter (k := key b) hnodup
        rw [List.concat_eq_append, List.length_append, List.length_singleton] at hlen
        omega
      · -- It begins with a use that is fresh, so all of it is.
        have haging : RecentLog.Aging fresh t :=
          ha.sublist (ht.sublist.trans (lastUses_sublist log))
        cases t with
        | nil => simp
        | cons c t =>
            have hc : c ∈ (c :: t).filter (key · ≠ key b) :=
              List.mem_filter.2 ⟨List.mem_cons_self, hhead c rfl⟩
            have hfirst : fresh now c = true :=
              hfresh c (List.concat_eq_append ▸ List.mem_append_left [b] hc)
            intro d hd
            rcases List.mem_cons.1 hd with rfl | hd
            · exact hfirst
            · exact (List.pairwise_cons.1 haging).1 d hd now hfirst

/-- **What is in the queue and fresh are the recent uses that are fresh.** -/
theorem Tracks.mem_iff (ha : RecentLog.Aging fresh log) (h : Tracks key fresh cap now log entries) :
    a ∈ entries ∧ fresh now a = true ↔ Recent key cap log a ∧ fresh now a = true := by
  refine and_congr_left fun hfresh => ?_
  rw [recent_iff]
  constructor
  · intro hmem
    obtain ⟨r, s, rfl⟩ := List.append_of_mem hmem
    refine ⟨s, (List.suffix_append r _).trans h.suffix, ?_⟩
    have hbounded := h.bounded
    rw [List.length_append, List.length_cons] at hbounded
    omega
  · rintro ⟨s, hs, hlen⟩
    have haging : RecentLog.Aging fresh (a :: s) :=
      ha.sublist (hs.sublist.trans (lastUses_sublist log))
    refine (h.complete (a :: s) hs hlen fun b hb => ?_).subset List.mem_cons_self
    rcases List.mem_cons.1 hb with rfl | hb
    · exact hfresh
    · exact (List.pairwise_cons.1 haging).1 b hb now hfresh

end

end LastUses
