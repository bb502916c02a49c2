import Mathlib.Data.List.Basic

/-!
# Reading frames from a byte stream, piece by piece

A writer puts self-delimiting frames on a stream. A reader takes the bytes in pieces of any size,
and holds what it has of the frame it is in. It may also be interrupted: then it forgets the
bytes it holds, which are gone from the stream.

* `Framing` — how many more bytes the reader asks for, and what a complete frame decodes to.
* `Reader.read`, `Reader.interrupt` — what happens to the reader; `Reader.write` to the stream.
* `Reader.reads` — pieces one after the other, up to the end of a frame.
* `Reader.Intact` — nothing is lost: what was written is what was decoded, then what is still to
  come, and the reader stands inside the next frame.
* `intact_write`, `intact_read` — writing and reading keep it, whatever the sizes of the pieces.
* `intact_interrupt_iff` — an interruption keeps it exactly if the reader holds nothing.
-/

/-- `want` is how many more bytes a reader of the bytes so far asks for, zero when the frame is
complete. It never asks for more than the frame has left. -/
structure Framing (β F M ε : Type) where
  bytes : F → List β
  message : F → M
  want : List β → Nat
  decode : List β → Except ε M
  want_nil : 0 < want []
  want_bytes : ∀ f, want (bytes f) = 0
  want_prefix : ∀ f p, p <+: bytes f → p ≠ bytes f →
    0 < want p ∧ p.length + want p ≤ (bytes f).length
  decode_bytes : ∀ f, decode (bytes f) = .ok (message f)

namespace Framing

variable {β F M ε : Type}

/-- A reader at the end of a stream. Beside the bytes it is recorded which frames were written
and which messages were decoded. -/
structure Reader (β F M : Type) where
  /-- The bytes of the frame it is in. -/
  got : List β
  /-- The bytes on their way. -/
  stream : List β
  written : List F
  decoded : List M

namespace Reader

def start : Reader β F M := ⟨[], [], [], []⟩

def write (fr : Framing β F M ε) (r : Reader β F M) (f : F) : Reader β F M :=
  { r with stream := r.stream ++ fr.bytes f, written := r.written ++ [f] }

/-- Take up to `n` bytes of what is asked for; when that completes a frame, decode it. -/
def read (fr : Framing β F M ε) (r : Reader β F M) (n : Nat) :
    Option (Except ε M) × Reader β F M :=
  let k := min n (fr.want r.got)
  let got := r.got ++ r.stream.take k
  let stream := r.stream.drop k
  if fr.want got = 0 then
    match fr.decode got with
    | .ok m => (some (.ok m), { r with got := [], stream, decoded := r.decoded ++ [m] })
    | .error e => (some (.error e), { r with got := [], stream })
  else (none, { r with got, stream })

/-- Pieces of at most these lengths, until one completes a frame. -/
def reads (fr : Framing β F M ε) (r : Reader β F M) :
    List Nat → Option (Except ε M) × Reader β F M
  | [] => (none, r)
  | n :: ns =>
      match r.read fr n with
      | (none, r) => r.reads fr ns
      | (some res, r) => (some res, r)

/-- The reader is dropped, with the bytes it holds, and starts over. -/
def interrupt (r : Reader β F M) : Reader β F M := { r with got := [] }

/-- What was written is what was decoded and then `rest`; the reader stands inside the first
frame of `rest`, and the stream holds everything after that. -/
structure IntactBy (fr : Framing β F M ε) (r : Reader β F M) (done rest : List F) : Prop where
  written : r.written = done ++ rest
  decoded : r.decoded = done.map fr.message
  stream : rest.flatMap fr.bytes = r.got ++ r.stream
  inside : ∀ f ∈ rest.head?, r.got <+: fr.bytes f ∧ r.got ≠ fr.bytes f

def Intact (fr : Framing β F M ε) (r : Reader β F M) : Prop := ∃ done rest, IntactBy fr r done rest

variable {fr : Framing β F M ε} {r : Reader β F M}

/-- A piece that completes a frame. -/
theorem read_some {n : Nat} {res : Except ε M} (h : (r.read fr n).1 = some res) :
    ∃ k ≤ fr.want r.got, fr.want (r.got ++ r.stream.take k) = 0 ∧
      fr.decode (r.got ++ r.stream.take k) = res ∧ (r.read fr n).2.stream = r.stream.drop k := by
  refine ⟨min n (fr.want r.got), Nat.min_le_right _ _, ?_⟩
  unfold read at h ⊢
  dsimp only at h ⊢
  split at h
  · rename_i hdone
    simp only [hdone, if_true]
    split at h
    · rename_i hdec
      exact ⟨trivial, hdec.trans (Option.some.inj h), by simp⟩
    · rename_i hdec
      exact ⟨trivial, hdec.trans (Option.some.inj h), by simp⟩
  · simp at h

/-- A piece that does not. -/
theorem read_none {n : Nat} (h : (r.read fr n).1 = none) :
    0 < fr.want (r.read fr n).2.got ∧
      (r.read fr n).2.got ++ (r.read fr n).2.stream = r.got ++ r.stream := by
  unfold read at h ⊢
  dsimp only at h ⊢
  split at h
  · rename_i hdone
    split at h <;> cases h
  · rename_i hmore
    simp only [hmore, if_false]
    refine ⟨Nat.pos_of_ne_zero hmore, ?_⟩
    rw [List.append_assoc, List.take_append_drop]

/-- The piece that completes a frame, and what was there when it came. -/
theorem reads_some {ns : List Nat} {res : Except ε M} (hwant : 0 < fr.want r.got)
    (h : (r.reads fr ns).1 = some res) :
    ∃ (r' : Reader β F M) (n : Nat), 0 < fr.want r'.got ∧
      r'.got ++ r'.stream = r.got ++ r.stream ∧ r'.read fr n = (some res, (r.reads fr ns).2) := by
  induction ns generalizing r with
  | nil => cases h
  | cons n ns ih =>
      unfold reads at h ⊢
      cases hread : r.read fr n with
      | mk out r₁ =>
          rw [hread] at h
          cases out with
          | none =>
              have hout : (r.read fr n).1 = none := by rw [hread]
              have hnone := read_none hout
              rw [hread] at hnone
              obtain ⟨r', n', hwant', hbytes, hlast⟩ := ih hnone.1 h
              exact ⟨r', n', hwant', hbytes.trans hnone.2, hlast⟩
          | some res' =>
              cases h
              exact ⟨r, n, hwant, rfl, hread⟩

theorem bytes_ne_nil (fr : Framing β F M ε) (f : F) : fr.bytes f ≠ [] := by
  intro h
  have := fr.want_bytes f
  rw [h] at this
  exact absurd fr.want_nil (by omega)

theorem intact_start (fr : Framing β F M ε) : Intact fr (start : Reader β F M) :=
  ⟨[], [], rfl, rfl, rfl, by simp⟩

/-- What was decoded is a prefix of what was written. -/
theorem Intact.decoded_isPrefix (h : Intact fr r) : r.decoded <+: r.written.map fr.message := by
  obtain ⟨done, rest, h⟩ := h
  rw [h.decoded, h.written, List.map_append]
  exact List.prefix_append ..

theorem intact_write (h : Intact fr r) (f : F) : Intact fr (r.write fr f) := by
  obtain ⟨done, rest, h⟩ := h
  refine ⟨done, rest ++ [f], ?_, h.decoded, ?_, ?_⟩
  · rw [write, h.written, List.append_assoc]
  · simp [write, h.stream]
  · cases rest with
    | nil =>
        -- Nothing was to come, so the reader holds nothing.
        have hs := h.stream
        rw [List.flatMap_nil, eq_comm, List.append_eq_nil_iff] at hs
        simp [write, hs.1, bytes_ne_nil fr f]
    | cons g rest => simpa [write] using h.inside

/-- Inside the frame `f`, the bytes taken are the next ones of `f`. -/
theorem take_inside {f : F} {t : List β} (ht : fr.bytes f = r.got ++ t) (htne : t ≠ [])
    {later : List β} (hs : r.stream = t ++ later) (n : Nat) :
    let k := min n (fr.want r.got)
    r.stream.take k = t.take k ∧ r.stream.drop k = t.drop k ++ later := by
  have hlen : (fr.bytes f).length = r.got.length + t.length := by rw [ht, List.length_append]
  obtain ⟨-, hle⟩ := fr.want_prefix f r.got ⟨t, ht.symm⟩ (by simpa [ht] using htne)
  have hk : min n (fr.want r.got) ≤ t.length := by omega
  dsimp only
  rw [hs, List.take_append_of_le_length hk, List.drop_append_of_le_length hk]
  exact ⟨rfl, rfl⟩

/-- A reader inside a frame gets further in it, or finishes it and decodes its message. -/
theorem intact_read (h : Intact fr r) (n : Nat) : Intact fr (r.read fr n).2 := by
  obtain ⟨done, rest, h⟩ := h
  cases rest with
  | nil =>
      -- There is nothing to take.
      have hs := h.stream
      rw [List.flatMap_nil, eq_comm, List.append_eq_nil_iff] at hs
      obtain ⟨got, stream, written, decoded⟩ := r
      obtain ⟨rfl, rfl⟩ := hs
      refine ⟨done, [], ?_⟩
      simp only [read, List.take_nil, List.drop_nil, List.append_nil,
        if_neg (Nat.ne_of_gt fr.want_nil)]
      exact h
  | cons f rest =>
      obtain ⟨⟨t, ht⟩, hne⟩ := h.inside f rfl
      have htne : t ≠ [] := by
        rintro rfl
        exact hne (by simpa using ht)
      have hs : r.stream = t ++ rest.flatMap fr.bytes := by
        have := h.stream
        rw [List.flatMap_cons, ← ht, List.append_assoc] at this
        exact (List.append_cancel_left this).symm
      obtain ⟨htake, hdrop⟩ := take_inside ht.symm htne hs n
      generalize hk : min n (fr.want r.got) = k at htake hdrop
      by_cases hend : t.drop k = []
      · -- The frame is complete.
        have hgot : r.got ++ t.take k = fr.bytes f := by
          rw [← ht, List.take_of_length_le (List.drop_eq_nil_iff.1 hend)]
        refine ⟨done ++ [f], rest, ?_⟩
        simp only [read, hk, htake, hdrop, hgot, hend, fr.want_bytes, if_true, fr.decode_bytes,
          List.nil_append]
        refine ⟨by rw [h.written, List.append_assoc, List.singleton_append], ?_, rfl, ?_⟩
        · rw [h.decoded, List.map_append, List.map_singleton]
        · exact fun g _ => ⟨List.nil_prefix, (bytes_ne_nil fr g).symm⟩
      · have hpre : r.got ++ t.take k <+: fr.bytes f :=
          ⟨t.drop k, by rw [List.append_assoc, List.take_append_drop, ht]⟩
        have hproper : r.got ++ t.take k ≠ fr.bytes f := by
          rw [← ht]
          intro he
          have := List.take_append_drop k t
          rw [List.append_cancel_left he, List.append_right_eq_self] at this
          exact hend this
        have hwant := (fr.want_prefix f _ hpre hproper).1
        refine ⟨done, f :: rest, ?_⟩
        simp only [read, hk, htake, hdrop, if_neg (Nat.ne_of_gt hwant)]
        refine ⟨h.written, h.decoded, ?_, ?_⟩
        · dsimp only
          rw [List.flatMap_cons, ← ht, List.append_assoc, List.append_assoc,
            ← List.append_assoc (t.take k), List.take_append_drop]
        · rintro g ⟨rfl⟩
          exact ⟨hpre, hproper⟩

/-- **An interruption loses nothing exactly if the reader holds nothing.** -/
theorem intact_interrupt_iff (h : Intact fr r) : Intact fr r.interrupt ↔ r.got = [] := by
  constructor
  · rintro ⟨done', rest', h'⟩
    obtain ⟨done, rest, h⟩ := h
    -- The same messages were decoded, so the same bytes should still be to come.
    have hlen : done.length = done'.length := by
      have := h.decoded.symm.trans h'.decoded
      simpa using congrArg List.length this
    have hrest : rest = rest' :=
      (List.append_inj (h.written.symm.trans h'.written) hlen).2
    have := h.stream.symm.trans (hrest ▸ h'.stream)
    simpa [interrupt] using this
  · intro hgot
    have hr : r.interrupt = r := by rw [interrupt, ← hgot]
    rwa [hr]

end Reader

end Framing
