import ClipBridge.Lib.Machine
import Mathlib.Algebra.Order.BigOperators.Group.List
import Mathlib.Algebra.Order.Group.Nat
import Mathlib.Data.Int.Cast.Lemmas

/-!
# Clipboard text in chunks

Following `sendClipboardText` in `ClipboardUserService.kt` and `ClipboardTextAssembler.kt` of the
Android client. The service sends a clipboard text in several Binder transactions, and the app puts
them together again. A string is its UTF-16 units.

* `sendClipboardText` — the chunks of a text, up to the first call that does not return.
* `ClipboardTextAssembler.append`, `clear` — what the app does with a chunk.
* `Collected` — an assembler holds the chunks of its last calls, from the first one on.
* `text_chunks_exact` — a text that is sent arrives as it is with its last chunk. Whatever is
  appended, a text that comes out is the chunks of one transfer in order, and the buffer is bounded.
-/

namespace ClipBridge.Android

/-- A string of Kotlin. -/
abbrev Utf16 := List UInt16

def aidlTextChunkChars : Nat := 64 * 1024

def aidlTextMaxChunks : Nat := 512

/-- What a call of `onClipboardTextChunk` carries. -/
structure TextChunk where
  transferId : Int
  chunkIndex : Int
  chunkCount : Int
  textChunk : Utf16
  deriving DecidableEq

/-! ## The sender -/

/-- How a turn of the sending loop goes. -/
inductive ChunkCall where
  /-- `shouldContinue` says no. -/
  | stopped
  /-- The callback throws, before or after the app got the chunk. -/
  | threw (arrived : Bool)
  | returned
  deriving DecidableEq

/-- `substring`; `none` where it throws. -/
def substring (text : Utf16) (start stop : Nat) : Option Utf16 :=
  if start ≤ stop ∧ stop ≤ text.length then some ((text.drop start).take (stop - start)) else none

/-- The division is that of Kotlin: it goes towards zero. -/
def chunkCountOf (text : Utf16) : Int :=
  ((text.length : Int) - 1).tdiv aidlTextChunkChars + 1

/-- The text of one chunk. -/
def chunkText (text : Utf16) (chunkIndex : Nat) : Option Utf16 :=
  let start := chunkIndex * aidlTextChunkChars
  let stop := min text.length (start + aidlTextChunkChars)
  substring text start stop

/-- One turn of the loop: whether it goes on, and the chunk if it reaches the app. -/
def sendChunk (transferId : Int) (text : Utf16) (calls : Nat → ChunkCall) (chunkIndex : Nat) :
    Bool × List TextChunk :=
  match calls chunkIndex, chunkText text chunkIndex with
  | .stopped, _ => (false, [])
  | _, none => (false, [])
  | .threw arrived, some textChunk =>
      (false, if arrived then [⟨transferId, chunkIndex, chunkCountOf text, textChunk⟩] else [])
  | .returned, some textChunk => (true, [⟨transferId, chunkIndex, chunkCountOf text, textChunk⟩])

/-- The `repeat` loop, from one index on, for the chunks that are left. -/
def sendChunks (transferId : Int) (text : Utf16) (calls : Nat → ChunkCall) :
    Nat → Nat → Bool × List TextChunk
  | _, 0 => (true, [])
  | chunkIndex, left + 1 =>
      let (goesOn, sent) := sendChunk transferId text calls chunkIndex
      if goesOn then
        let (done, rest) := sendChunks transferId text calls (chunkIndex + 1) left
        (done, sent ++ rest)
      else (false, sent)

/-- The text is reported to exceed the chunk limit. -/
def ExceedsLimit (text : Utf16) : Prop := chunkCountOf text > aidlTextMaxChunks

instance (text : Utf16) : Decidable (ExceedsLimit text) := inferInstanceAs (Decidable (_ > _))

def sendClipboardText (transferId : Int) (text : Utf16) (calls : Nat → ChunkCall) :
    Bool × List TextChunk :=
  if ExceedsLimit text then (false, [])
  else sendChunks transferId text calls 0 (chunkCountOf text).toNat

/-! ## The assembler -/

structure ClipboardTextAssembler where
  transferId : Option Int
  expectedIndex : Int
  chunkCount : Int
  text : Utf16
  deriving DecidableEq

namespace ClipboardTextAssembler

def new : ClipboardTextAssembler := ⟨none, 0, 0, []⟩

/-- Every field is set again, whatever it was. -/
def clear (_ : ClipboardTextAssembler) : ClipboardTextAssembler := ⟨none, 0, 0, []⟩

/-- A chunk that cannot be one of a transfer. -/
def Malformed (chunk : TextChunk) : Prop :=
  ¬ (1 ≤ chunk.chunkCount ∧ chunk.chunkCount ≤ aidlTextMaxChunks) ∨
    ¬ (0 ≤ chunk.chunkIndex ∧ chunk.chunkIndex < chunk.chunkCount) ∨
    chunk.textChunk.length > aidlTextChunkChars

instance (chunk : TextChunk) : Decidable (Malformed chunk) :=
  inferInstanceAs (Decidable (_ ∨ _ ∨ _))

/-- The end of `append`, for a chunk that fits: with the last one, the text is out. -/
def accept (a : ClipboardTextAssembler) (textChunk : Utf16) :
    Option Utf16 × ClipboardTextAssembler :=
  let a := { a with text := a.text ++ textChunk, expectedIndex := a.expectedIndex + 1 }
  if a.expectedIndex ≠ a.chunkCount then (none, a) else (some a.text, a.clear)

def append (a : ClipboardTextAssembler) (chunk : TextChunk) :
    Option Utf16 × ClipboardTextAssembler :=
  if Malformed chunk then (none, a.clear)
  else if chunk.chunkIndex = 0 then
    { a.clear with transferId := some chunk.transferId, chunkCount := chunk.chunkCount }.accept
      chunk.textChunk
  else if a.transferId ≠ some chunk.transferId ∨ a.chunkCount ≠ chunk.chunkCount ∨
      a.expectedIndex ≠ chunk.chunkIndex then
    (none, a.clear)
  else a.accept chunk.textChunk

/-- What `append` returns for each of some chunks. -/
def appendAll : ClipboardTextAssembler → List TextChunk → List (Option Utf16)
  | _, [] => []
  | a, chunk :: chunks => (a.append chunk).1 :: appendAll (a.append chunk).2 chunks

end ClipboardTextAssembler

/-- A call of the assembler. -/
inductive AssemblerCall where
  | append (chunk : TextChunk)
  | clear
  deriving DecidableEq

def ClipboardTextAssembler.step (a : ClipboardTextAssembler) :
    AssemblerCall → ClipboardTextAssembler
  | .append chunk => (a.append chunk).2
  | .clear => a.clear

/-! ## What is sent -/

/-- How many chunks a text has. The empty text has one. -/
theorem chunkCountOf_eq (text : Utf16) :
    chunkCountOf text = ((text.length - 1) / aidlTextChunkChars + 1 : Nat) := by
  cases text with
  | nil => rfl
  | cons unit text =>
      have hlength : (((unit :: text).length : Int) - 1) = (text.length : Nat) := by
        rw [List.length_cons]
        omega
      rw [chunkCountOf, hlength, ← Int.ofNat_tdiv, List.length_cons, Nat.add_sub_cancel]
      rfl

theorem chunkCountOf_toNat (text : Utf16) :
    (chunkCountOf text).toNat = (text.length - 1) / aidlTextChunkChars + 1 := by
  rw [chunkCountOf_eq, Int.toNat_natCast]

theorem natCast_chunkCountOf (text : Utf16) :
    ((chunkCountOf text).toNat : Int) = chunkCountOf text := by
  rw [chunkCountOf_toNat, chunkCountOf_eq]

theorem length_le_chunkCountOf (text : Utf16) :
    text.length ≤ (chunkCountOf text).toNat * aidlTextChunkChars := by
  rw [chunkCountOf_toNat]
  unfold aidlTextChunkChars
  omega

/-- The chunk of an index, as it is sent. -/
def chunkAt (transferId : Int) (text : Utf16) (chunkIndex : Nat) : TextChunk where
  transferId := transferId
  chunkIndex := chunkIndex
  chunkCount := chunkCountOf text
  textChunk := (text.drop (chunkIndex * aidlTextChunkChars)).take aidlTextChunkChars

/-- No `substring` of the sender throws. -/
theorem chunkText_eq {text : Utf16} {chunkIndex : Nat}
    (h : chunkIndex < (chunkCountOf text).toNat) (transferId : Int) :
    chunkText text chunkIndex = some (chunkAt transferId text chunkIndex).textChunk := by
  have hstart : chunkIndex * aidlTextChunkChars ≤ text.length := by
    rw [chunkCountOf_toNat] at h
    unfold aidlTextChunkChars at h ⊢
    omega
  rw [chunkText, substring, if_pos ⟨by omega, Nat.min_le_left _ _⟩, chunkAt]
  congr 1
  rw [List.take_eq_take_iff, List.length_drop]
  omega

/-- A turn as it goes where no `substring` throws. -/
theorem sendChunk_eq {text : Utf16} {chunkIndex : Nat}
    (h : chunkIndex < (chunkCountOf text).toNat) (transferId : Int) (calls : Nat → ChunkCall) :
    sendChunk transferId text calls chunkIndex =
      match calls chunkIndex with
      | .stopped => (false, [])
      | .threw arrived => (false, if arrived then [chunkAt transferId text chunkIndex] else [])
      | .returned => (true, [chunkAt transferId text chunkIndex]) := by
  rw [sendChunk, chunkText_eq h transferId]
  cases calls chunkIndex <;> rfl

/-- The chunks that are sent are the first ones of the text; all of them if every call returns. -/
theorem sendChunks_eq (transferId : Int) (text : Utf16) (calls : Nat → ChunkCall) {left : Nat} :
    ∀ {chunkIndex : Nat}, chunkIndex + left ≤ (chunkCountOf text).toNat →
      ∃ sent ≤ left, (sendChunks transferId text calls chunkIndex left).2 =
          (List.range' chunkIndex sent).map (chunkAt transferId text) ∧
        ((sendChunks transferId text calls chunkIndex left).1 = true ↔
          ∀ i, chunkIndex ≤ i → i < chunkIndex + left → calls i = .returned) ∧
        ((sendChunks transferId text calls chunkIndex left).1 = true → sent = left) := by
  induction left with
  | zero => exact fun _ =>
      ⟨0, le_refl 0, rfl, iff_of_true rfl fun i hi hlt => by omega, fun _ => rfl⟩
  | succ left ih =>
      intro chunkIndex hle
      have hindex : chunkIndex < (chunkCountOf text).toNat := by omega
      have hnotAll (hnot : calls chunkIndex ≠ .returned) :
          ¬ ∀ i, chunkIndex ≤ i → i < chunkIndex + (left + 1) → calls i = .returned :=
        fun h => hnot (h chunkIndex (le_refl _) (by omega))
      rw [sendChunks, sendChunk_eq hindex]
      cases hcall : calls chunkIndex with
      | stopped =>
          exact ⟨0, Nat.zero_le _, rfl, iff_of_false nofun (hnotAll (by simp [hcall])), nofun⟩
      | threw arrived =>
          refine ⟨if arrived then 1 else 0, by split <;> omega, ?_,
            iff_of_false nofun (hnotAll (by simp [hcall])), nofun⟩
          cases arrived <;> rfl
      | returned =>
          obtain ⟨sent, hsent, hchunks, hdone, hall⟩ := ih (by omega : chunkIndex + 1 + left ≤ _)
          refine ⟨sent + 1, by omega, ?_, ?_, fun h => by rw [hall h]⟩
          · rw [List.range'_succ, List.map_cons, ← hchunks]
            rfl
          · refine hdone.trans ?_
            constructor
            · intro h i hi hlt
              rcases Nat.eq_or_lt_of_le hi with rfl | hi
              · exact hcall
              · exact h i hi (by omega)
            · exact fun h i hi hlt => h i (by omega) (by omega)

namespace ClipboardTextAssembler

/-! ## What an assembler holds -/

/-- The text of some chunks. -/
def joined (chunks : List TextChunk) : Utf16 := (chunks.map (·.textChunk)).flatten

/-- The assembler that holds these chunks of a transfer. -/
def holding (transferId chunkCount : Int) (chunks : List TextChunk) : ClipboardTextAssembler where
  transferId := some transferId
  expectedIndex := chunks.length
  chunkCount := chunkCount
  text := joined chunks

theorem joined_concat (chunks : List TextChunk) (chunk : TextChunk) :
    joined (chunks ++ [chunk]) = joined chunks ++ chunk.textChunk := by
  simp [joined]

theorem accept_holding (transferId chunkCount : Int) (chunks : List TextChunk)
    (chunk : TextChunk) :
    (holding transferId chunkCount chunks).accept chunk.textChunk =
      if (chunks ++ [chunk]).length = chunkCount then
        (some (joined (chunks ++ [chunk])), new)
      else (none, holding transferId chunkCount (chunks ++ [chunk])) := by
  by_cases hlast : (chunks.length : Int) + 1 = chunkCount
  · simp [accept, holding, joined_concat, clear, new, hlast]
  · simp [accept, holding, joined_concat, hlast]

section

variable {chunk : TextChunk} (hok : ¬ Malformed chunk)

include hok

/-- The first chunk is taken in any state. -/
theorem append_first (hfirst : chunk.chunkIndex = 0) (a : ClipboardTextAssembler) :
    a.append chunk = (holding chunk.transferId chunk.chunkCount []).accept chunk.textChunk := by
  rw [append, if_neg hok, if_pos hfirst]
  rfl

/-- The next chunk of the transfer is taken. -/
theorem append_next {chunks : List TextChunk} (hsome : chunks ≠ [])
    (hnext : chunk.chunkIndex = chunks.length) :
    (holding chunk.transferId chunk.chunkCount chunks).append chunk =
      (holding chunk.transferId chunk.chunkCount chunks).accept chunk.textChunk := by
  have hlength := List.length_pos_iff.2 hsome
  rw [append, if_neg hok, if_neg (by omega), if_neg]
  simp [holding, hnext]

end

/-! ## The round trip -/

theorem joined_chunkAt (transferId : Int) (text : Utf16) (k : Nat) :
    joined ((List.range k).map (chunkAt transferId text)) =
      text.take (k * aidlTextChunkChars) := by
  induction k with
  | zero => simp [joined]
  | succ k ih =>
      rw [List.range_succ, List.map_append, List.map_singleton, joined_concat, ih, Nat.succ_mul,
        List.take_add]
      rfl

theorem not_malformed_chunkAt {transferId : Int} {text : Utf16} (hlimit : ¬ ExceedsLimit text)
    {i : Nat} (hi : i < (chunkCountOf text).toNat) : ¬ Malformed (chunkAt transferId text i) := by
  have hcount := natCast_chunkCountOf text
  simp only [ExceedsLimit] at hlimit
  simp only [Malformed, chunkAt, List.length_take]
  omega

/-- A chunk that is sent, by an assembler that holds the ones before it. Before the first one, the
assembler is in any state. -/
theorem append_chunkAt {transferId : Int} {text : Utf16} (hlimit : ¬ ExceedsLimit text) {i : Nat}
    (hi : i < (chunkCountOf text).toNat) {a : ClipboardTextAssembler}
    (ha : i ≠ 0 →
      a = holding transferId (chunkCountOf text) ((List.range i).map (chunkAt transferId text))) :
    a.append (chunkAt transferId text i) =
      if i + 1 = (chunkCountOf text).toNat then (some text, new)
      else (none, holding transferId (chunkCountOf text)
        ((List.range (i + 1)).map (chunkAt transferId text))) := by
  have hok : ¬ Malformed (chunkAt transferId text i) := not_malformed_chunkAt hlimit hi
  have happend : a.append (chunkAt transferId text i) =
      (holding transferId (chunkCountOf text) ((List.range i).map (chunkAt transferId text))).accept
        (chunkAt transferId text i).textChunk := by
    by_cases hzero : i = 0
    · subst hzero
      exact append_first hok rfl a
    · rw [ha hzero]
      refine @append_next (chunkAt transferId text i) hok _ ?_ ?_
      · simpa using hzero
      · simp [chunkAt]
  have hconcat : (List.range i).map (chunkAt transferId text) ++ [chunkAt transferId text i] =
      (List.range (i + 1)).map (chunkAt transferId text) := by
    rw [List.range_succ, List.map_append, List.map_singleton]
  have hcount := natCast_chunkCountOf text
  rw [happend, accept_holding, hconcat, List.length_map, List.length_range]
  by_cases hlast : i + 1 = (chunkCountOf text).toNat
  · rw [if_pos (by omega), if_pos hlast, joined_chunkAt, hlast,
      List.take_of_length_le (length_le_chunkCountOf text)]
  · rw [if_neg (by omega), if_neg hlast]

/-- The chunks from one on: the text is out with the last one of all, and not before. -/
theorem appendAll_chunkAt {transferId : Int} {text : Utf16} (hlimit : ¬ ExceedsLimit text)
    {sent : Nat} : ∀ {i : Nat} {a : ClipboardTextAssembler}, i + sent ≤ (chunkCountOf text).toNat →
      (i ≠ 0 →
        a = holding transferId (chunkCountOf text) ((List.range i).map (chunkAt transferId text))) →
      a.appendAll ((List.range' i sent).map (chunkAt transferId text)) =
        (List.range' i sent).map fun j =>
          if j + 1 = (chunkCountOf text).toNat then some text else none := by
  induction sent with
  | zero => exact fun _ _ => rfl
  | succ sent ih =>
      intro i a hle ha
      have happend := append_chunkAt hlimit (by omega) ha
      rw [List.range'_succ, List.map_cons, List.map_cons, appendAll, happend]
      by_cases hlast : i + 1 = (chunkCountOf text).toNat
      · obtain rfl : sent = 0 := by omega
        simp [appendAll, hlast]
      · simp only [if_neg hlast]
        rw [ih (by omega) fun _ => rfl]

/-! ## Any calls -/

/-- The last calls appended these chunks: the first ones of a transfer, in order. -/
structure FirstChunks (log : List AssemblerCall) (transferId chunkCount : Int)
    (chunks : List TextChunk) : Prop where
  last : chunks.map AssemblerCall.append <:+ log
  inOrder : ∀ (i : Nat) (chunk : TextChunk), chunks[i]? = some chunk →
    chunk.transferId = transferId ∧ chunk.chunkCount = chunkCount ∧ chunk.chunkIndex = i
  bounded : ∀ chunk ∈ chunks, chunk.textChunk.length ≤ aidlTextChunkChars

section

variable {log : List AssemblerCall} {chunks : List TextChunk} {chunk : TextChunk}

theorem firstChunks_nil (log : List AssemblerCall) (transferId chunkCount : Int) :
    FirstChunks log transferId chunkCount [] where
  last := List.nil_suffix
  inOrder _ _ h := nomatch h
  bounded := List.forall_mem_nil _

theorem FirstChunks.concat (h : FirstChunks log chunk.transferId chunk.chunkCount chunks)
    (hnext : chunk.chunkIndex = chunks.length)
    (hbound : chunk.textChunk.length ≤ aidlTextChunkChars) :
    FirstChunks (log ++ [.append chunk]) chunk.transferId chunk.chunkCount (chunks ++ [chunk]) where
  last := by
    obtain ⟨earlier, hlog⟩ := h.last
    exact ⟨earlier, by rw [List.map_append, ← List.append_assoc, hlog, List.map_singleton]⟩
  inOrder := by
    intro i other hget
    rcases Nat.lt_trichotomy i chunks.length with hlt | rfl | hgt
    · rw [List.getElem?_append_left hlt] at hget
      exact h.inOrder i other hget
    · rw [List.getElem?_concat_length] at hget
      cases hget
      exact ⟨rfl, rfl, hnext⟩
    · rw [List.getElem?_eq_none (by rw [List.length_append]; exact hgt)] at hget
      cases hget
  bounded := by
    intro other hmem
    rcases List.mem_append.1 hmem with hold | hnew
    · exact h.bounded other hold
    · rw [List.mem_singleton.1 hnew]
      exact hbound

theorem FirstChunks.length_joined {transferId chunkCount : Int}
    (h : FirstChunks log transferId chunkCount chunks) :
    (joined chunks).length ≤ chunks.length * aidlTextChunkChars := by
  have hsum := List.sum_le_card_nsmul (chunks.map (·.textChunk.length)) aidlTextChunkChars
    (List.forall_mem_map.2 h.bounded)
  rw [List.length_map, nsmul_eq_mul, Nat.cast_id] at hsum
  rw [joined, List.length_flatten, List.map_map]
  exact hsum

/-- The assembler holds nothing, or the first chunks of a transfer that has more. -/
def Collected (log : List AssemblerCall) (a : ClipboardTextAssembler) : Prop :=
  a = new ∨ ∃ transferId chunkCount chunks, FirstChunks log transferId chunkCount chunks ∧
    chunks ≠ [] ∧ (chunks.length : Int) < chunkCount ∧ chunkCount ≤ aidlTextMaxChunks ∧
    a = holding transferId chunkCount chunks

/-- A chunk is refused, or it goes on with the chunks that the last calls appended. -/
theorem append_cases {a : ClipboardTextAssembler} (h : Collected log a) (chunk : TextChunk) :
    a.append chunk = (none, new) ∨
      ∃ chunks, FirstChunks log chunk.transferId chunk.chunkCount chunks ∧
        ¬ Malformed chunk ∧ chunk.chunkIndex = chunks.length ∧
        a.append chunk =
          (holding chunk.transferId chunk.chunkCount chunks).accept chunk.textChunk := by
  by_cases hok : Malformed chunk
  · exact .inl (by rw [append, if_pos hok]; rfl)
  by_cases hfirst : chunk.chunkIndex = 0
  · exact .inr ⟨[], firstChunks_nil _ _ _, hok, hfirst, append_first hok hfirst a⟩
  by_cases hother : a.transferId ≠ some chunk.transferId ∨ a.chunkCount ≠ chunk.chunkCount ∨
      a.expectedIndex ≠ chunk.chunkIndex
  · exact .inl (by rw [append, if_neg hok, if_neg hfirst, if_pos hother]; rfl)
  · rcases h with rfl | ⟨transferId, chunkCount, chunks, hchunks, hsome, -, -, rfl⟩
    · -- a clear assembler has no transfer that the chunk could be of
      exact absurd (.inl nofun) hother
    · simp only [holding, not_or, not_not, Option.some.injEq] at hother
      obtain ⟨rfl, rfl, hindex⟩ := hother
      exact .inr ⟨chunks, hchunks, hok, hindex.symm, append_next hok hsome hindex.symm⟩

theorem collected_append {a : ClipboardTextAssembler} (h : Collected log a) (chunk : TextChunk) :
    Collected (log ++ [.append chunk]) (a.append chunk).2 := by
  rcases append_cases h chunk with hrefused | ⟨chunks, hchunks, hok, hnext, htaken⟩
  · rw [hrefused]
    exact .inl rfl
  · simp only [Malformed, not_or, not_not] at hok
    rw [htaken, accept_holding]
    by_cases hlast : ((chunks ++ [chunk]).length : Int) = chunk.chunkCount
    · rw [if_pos hlast]
      exact .inl rfl
    · rw [if_neg hlast]
      refine .inr ⟨_, _, _, hchunks.concat hnext (by omega), by simp, ?_, by omega, rfl⟩
      rw [List.length_append, List.length_singleton] at hlast ⊢
      omega

theorem collected_run (log : List AssemblerCall) : Collected log (Machine.run step new log) := by
  induction log using List.reverseRecOn with
  | nil => exact .inl rfl
  | append_singleton log call ih =>
      rw [Machine.run_concat]
      cases call with
      | append chunk => exact collected_append ih chunk
      | clear => exact .inl rfl

/-- What comes out is the chunks of the last calls. -/
theorem append_eq_some {a : ClipboardTextAssembler} (h : Collected log a) {text : Utf16}
    (htext : (a.append chunk).1 = some text) :
    ∃ chunks, FirstChunks (log ++ [.append chunk]) chunk.transferId chunk.chunkCount chunks ∧
      (chunks.length : Int) = chunk.chunkCount ∧ chunk.chunkCount ≤ aidlTextMaxChunks ∧
      text = joined chunks := by
  rcases append_cases h chunk with hrefused | ⟨chunks, hchunks, hok, hnext, htaken⟩
  · rw [hrefused] at htext
    cases htext
  · simp only [Malformed, not_or, not_not] at hok
    rw [htaken, accept_holding] at htext
    by_cases hlast : ((chunks ++ [chunk]).length : Int) = chunk.chunkCount
    · rw [if_pos hlast] at htext
      cases htext
      exact ⟨_, hchunks.concat hnext (by omega), hlast, by omega, rfl⟩
    · rw [if_neg hlast] at htext
      cases htext

theorem Collected.length_text {a : ClipboardTextAssembler} (h : Collected log a) :
    a.text.length ≤ aidlTextMaxChunks * aidlTextChunkChars := by
  rcases h with rfl | ⟨transferId, chunkCount, chunks, hchunks, -, hmore, hmax, rfl⟩
  · exact Nat.zero_le _
  · exact hchunks.length_joined.trans (Nat.mul_le_mul_right _ (by omega))

end

end ClipboardTextAssembler

open ClipboardTextAssembler in
/-- **Clipboard text arrives as it is.** A text that does not exceed the limit is sent in full
exactly if every call of the callback returns. Its chunks, appended to an assembler in any state,
give the text with the last one and nothing before. And whatever calls an assembler gets, a text
that `append` returns is what the last calls appended, the chunks of one transfer in order; neither
that text nor the buffer is ever longer than the chunks of one transfer can be. -/
theorem text_chunks_exact :
    (∀ (transferId : Int) (text : Utf16) (calls : Nat → ChunkCall) (a : ClipboardTextAssembler),
      ¬ ExceedsLimit text →
      let count := (chunkCountOf text).toNat
      let sent := sendClipboardText transferId text calls
      (sent.1 = true ↔ ∀ i < count, calls i = .returned) ∧
      (sent.1 = true → sent.2.length = count) ∧
      a.appendAll sent.2 =
        (List.range sent.2.length).map fun i => if i + 1 = count then some text else none) ∧
    ∀ log : List AssemblerCall,
      (Machine.run step new log).text.length ≤ aidlTextMaxChunks * aidlTextChunkChars ∧
      ∀ (chunk : TextChunk) (text : Utf16),
        ((Machine.run step new log).append chunk).1 = some text →
        ∃ chunks, FirstChunks (log ++ [.append chunk]) chunk.transferId chunk.chunkCount chunks ∧
          (chunks.length : Int) = chunk.chunkCount ∧ text = joined chunks ∧
          text.length ≤ aidlTextMaxChunks * aidlTextChunkChars := by
  constructor
  · intro transferId text calls a hlimit
    obtain ⟨sent, hsent, hchunks, hdone, hall⟩ :=
      sendChunks_eq transferId text calls (Nat.zero_add (chunkCountOf text).toNat).le
    have harrive : a.appendAll ((List.range' 0 sent).map (chunkAt transferId text)) = _ :=
      appendAll_chunkAt hlimit (by omega) (absurd rfl)
    simp only [sendClipboardText, if_neg hlimit]
    rw [hchunks, List.length_map, List.length_range', List.range_eq_range']
    refine ⟨?_, hall, harrive⟩
    rw [hdone]
    simp
  · intro log
    have hcollected := collected_run log
    refine ⟨hcollected.length_text, fun chunk text htext => ?_⟩
    obtain ⟨chunks, hchunks, hcount, hmax, rfl⟩ := append_eq_some hcollected htext
    exact ⟨chunks, hchunks, hcount, rfl,
      hchunks.length_joined.trans (Nat.mul_le_mul_right _ (by omega))⟩

/-- One unit more than a chunk has. -/
def twoChunkText : Utf16 := List.replicate (aidlTextChunkChars + 1) 104

theorem chunkCountOf_twoChunkText : chunkCountOf twoChunkText = 2 := by
  rw [chunkCountOf, twoChunkText, List.length_replicate]
  decide

/-- The first chunks of two transfers. -/
def startedTransfers : List AssemblerCall :=
  [.append ⟨3, 0, 2, [120]⟩, .append ⟨7, 0, 2, [104, 105]⟩]

open ClipboardTextAssembler in
/-- A text of two chunks arrives in the middle of another transfer. The other one could have been
finished instead. -/
theorem twoChunkText_arrives :
    let a := Machine.run step new startedTransfers
    let last : TextChunk := ⟨7, 1, 2, [33]⟩
    a.appendAll (sendClipboardText 9 twoChunkText fun _ => .returned).2 =
        [none, some twoChunkText] ∧
      (a.append last).1 = some [104, 105, 33] ∧
      ∃ chunks, FirstChunks (startedTransfers ++ [.append last]) 7 2 chunks ∧
        (chunks.length : Int) = 2 ∧ [104, 105, 33] = joined chunks ∧
        [104, 105, 33].length ≤ aidlTextMaxChunks * aidlTextChunkChars := by
  intro a last
  have hcount : (chunkCountOf twoChunkText).toNat = 2 := by rw [chunkCountOf_twoChunkText]; rfl
  have hlimit : ¬ ExceedsLimit twoChunkText := by
    rw [ExceedsLimit, chunkCountOf_twoChunkText]
    decide
  obtain ⟨hall, hlength, harrive⟩ :=
    text_chunks_exact.1 9 twoChunkText (fun _ => .returned) a hlimit
  have hlast : (a.append last).1 = some [104, 105, 33] := by decide
  refine ⟨?_, hlast, (text_chunks_exact.2 startedTransfers).2 last [104, 105, 33] hlast⟩
  rw [harrive, hlength (hall.2 fun _ _ => rfl), hcount]
  rfl

end ClipBridge.Android
