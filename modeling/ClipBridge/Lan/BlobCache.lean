import ClipBridge.Client.Image
import ClipBridge.Lib.FittingSuffix
import ClipBridge.Lib.Weight

/-!
# What the blob cache keeps

`BlobCache` in `core/src/lan.rs` has a map, a queue of its keys and a counter of its bytes, and
caps on the bytes and on the entries. All three are read off one list: the insertions that were
accepted, of which it keeps the longest suffix that is within both caps.

* `accepted` — the insertions of a key that was not there.
* `Holds` — the three pieces of state are those of a list of items.
* `NoUnderflow` — the eviction loop subtracts no more than the counter reads.
* `holds_evict` — a loop of evictions leaves the longest suffix within the caps.
* `cache_keeps_newest` — so does every run.
-/

namespace ClipBridge

namespace BlobCache

/-- What `insert` is given. -/
abbrev Item := Sigma fun _ : String => Bytes

def size (items : List Item) : Nat := (items.map (·.2.length)).sum

/-- Both caps hold. -/
def WithinCaps (items : List Item) : Prop :=
  size items ≤ blobCacheMaxBytes ∧ items.length ≤ blobCacheMaxEntries

instance (items : List Item) : Decidable (WithinCaps items) :=
  inferInstanceAs (Decidable (_ ∧ _))

theorem hereditary_withinCaps : List.Hereditary WithinCaps where
  nil := by decide
  sublist hsub h :=
    ⟨((hsub.map _).sum_le_sum fun _ _ => Nat.zero_le _).trans h.1, hsub.length_le.trans h.2⟩

/-- No subtraction of the eviction loop takes more than there is. -/
def NoUnderflow (map : AList fun _ : String => Bytes) (bytes : Nat) : List String → Prop
  | [] => True
  | old :: order =>
      blobCacheMaxBytes < bytes ∨ blobCacheMaxEntries < map.entries.length →
        match map.lookup old with
        | some v => v.length ≤ bytes ∧ NoUnderflow (map.erase old) (bytes - v.length) order
        | none => NoUnderflow map bytes order

/-- The map, the queue and the counter are those of `items`. -/
structure Holds (c : BlobCache) (items : List Item) : Prop where
  order : c.order = items.map Sigma.fst
  entries : c.map.entries.Perm items
  bytes : c.bytes = size items

theorem holds_empty : Holds empty [] := ⟨rfl, List.Perm.refl _, rfl⟩

/-! ## One insertion -/

/-- The first item is at the front of the queue, and in the map. -/
theorem holds_cons {map : AList fun _ : String => Bytes} {bytes : Nat} {order : List String}
    {k : String} {v : Bytes} {items : List Item} (h : Holds ⟨map, order, bytes⟩ (⟨k, v⟩ :: items)) :
    order = k :: items.map Sigma.fst ∧ map.lookup k = some v ∧ v.length ≤ bytes ∧
      Holds ⟨map.erase k, items.map Sigma.fst, bytes - v.length⟩ items := by
  obtain ⟨horder, hentries, hbytes⟩ := h
  have hsize : bytes = v.length + size items := hbytes
  have hlookup : map.lookup k = some v :=
    AList.mem_lookup_iff.2 (hentries.mem_iff.2 List.mem_cons_self)
  have herase : (map.erase k).entries.Perm items := by
    have hhead : List.kerase k (⟨k, v⟩ :: items) = items := List.kerase_cons_eq rfl
    exact hhead ▸ hentries.kerase map.nodupKeys
  exact ⟨horder, hlookup, by omega, rfl, herase, by show bytes - v.length = _; omega⟩

/-- The loop goes on while the caps do not hold. -/
theorem Holds.withinCaps_iff {map : AList fun _ : String => Bytes} {bytes : Nat}
    {order : List String} {items : List Item} (h : Holds ⟨map, order, bytes⟩ items) :
    (blobCacheMaxBytes < bytes ∨ blobCacheMaxEntries < map.entries.length) ↔
      ¬ WithinCaps items := by
  have hlength : map.entries.length = items.length := h.entries.length_eq
  have hbytes : bytes = size items := h.bytes
  rw [hlength, hbytes, WithinCaps, not_and_or, not_le, not_le]

/-- **The loop leaves the longest suffix that is within the caps.** -/
theorem holds_evict {map : AList fun _ : String => Bytes} {bytes : Nat} {order : List String}
    {items : List Item} (h : Holds ⟨map, order, bytes⟩ items) :
    Holds (evict map bytes order) (List.fittingSuffix WithinCaps items) ∧
      NoUnderflow map bytes order := by
  induction items generalizing map bytes order with
  | nil =>
      obtain rfl : order = [] := h.order
      exact ⟨h, trivial⟩
  | cons item items ih =>
      obtain ⟨k, v⟩ := item
      obtain ⟨rfl, hlookup, hle, hrest⟩ := holds_cons h
      by_cases hcaps : WithinCaps (⟨k, v⟩ :: items)
      · have hover := mt h.withinCaps_iff.1 (not_not.2 hcaps)
        rw [evict, if_neg hover, List.fittingSuffix_cons_of_fits hcaps]
        exact ⟨h, fun hmore => absurd hmore hover⟩
      · have hover := h.withinCaps_iff.2 hcaps
        obtain ⟨hevict, hsafe⟩ := ih hrest
        rw [evict, if_pos hover, List.fittingSuffix_cons_of_not_fits hcaps, hlookup]
        refine ⟨hevict, fun _ => ?_⟩
        rw [hlookup]
        exact ⟨hle, hsafe⟩

theorem Holds.nodup {c : BlobCache} {items : List Item} (h : Holds c items) : c.order.Nodup := by
  rw [h.order]
  exact ((h.entries.map Sigma.fst).nodup_iff).1 c.map.nodupKeys

theorem Holds.lookup_iff {c : BlobCache} {items : List Item} (h : Holds c items) {k : String}
    {v : Bytes} : c.map.lookup k = some v ↔ ⟨k, v⟩ ∈ items :=
  AList.mem_lookup_iff.trans h.entries.mem_iff

theorem Holds.mem_order_iff {c : BlobCache} {items : List Item} (h : Holds c items) (k : String) :
    k ∈ c.order ↔ k ∈ c.map := by
  rw [h.order]
  exact ((h.entries.map Sigma.fst).mem_iff).symm

/-- A new item goes to the end. -/
theorem Holds.push {c : BlobCache} {items : List Item} (h : Holds c items) {k : String}
    (hnew : k ∉ c.map) (v : Bytes) :
    Holds ⟨c.map.insert k v, c.order ++ [k], c.bytes + v.length⟩ (items ++ [⟨k, v⟩]) where
  order := by simp [h.order]
  entries := by
    rw [AList.entries_insert_of_notMem hnew]
    exact (h.entries.cons _).trans (List.perm_append_singleton _ _).symm
  bytes := by simp [h.bytes, size]

/-! ## Every run -/

def call (c : BlobCache) (item : Item) : BlobCache := c.insert item.1 item.2

/-- What goes in; a key that is there is left as it is. -/
def accepts (c : BlobCache) (item : Item) : List Item := if item.1 ∈ c.map then [] else [item]

/-- The insertions that were accepted, oldest first. -/
def accepted (calls : List Item) : List Item := Machine.outputs call accepts empty calls

theorem holds_run (calls : List Item) :
    Holds (Machine.run call empty calls) (List.fittingSuffix WithinCaps (accepted calls)) := by
  induction calls using List.reverseRecOn with
  | nil => exact holds_empty
  | append_singleton calls item ih =>
      rw [Machine.run_concat, accepted, Machine.outputs_concat]
      change Holds (BlobCache.insert _ _ _) (List.fittingSuffix _ (accepted calls ++ _))
      unfold BlobCache.insert accepts
      by_cases hmem : item.1 ∈ (Machine.run call empty calls).map
      · rw [if_pos hmem, if_pos hmem, List.append_nil]
        exact ih
      · rw [if_neg hmem, if_neg hmem, ← hereditary_withinCaps.fittingSuffix_append]
        exact (holds_evict (ih.push hmem item.2)).1

/-- `kept` is the longest suffix of `log` that is within the caps. -/
structure Newest (log kept : List Item) : Prop where
  suffix : kept <:+ log
  withinCaps : WithinCaps kept
  longest : ∀ s, s <:+ log → WithinCaps s → s <:+ kept

theorem newest_fittingSuffix (log : List Item) : Newest log (List.fittingSuffix WithinCaps log) :=
  ⟨List.fittingSuffix_suffix log, hereditary_withinCaps.fits_fittingSuffix log,
    fun _ => List.suffix_fittingSuffix⟩

/-- **After any insertions, the queue has the keys of the map, each once; the counter is the sum of
the lengths, and does not underflow in the next insertion; both caps hold; and what is there is the
longest suffix of the accepted insertions within the caps.** -/
theorem cache_keeps_newest (calls : List Item) :
    let c := Machine.run call empty calls
    (c.order.Nodup ∧ ∀ k, k ∈ c.order ↔ k ∈ c.map) ∧
    c.bytes = c.map.weight List.length ∧
    (∀ k v, k ∉ c.map → NoUnderflow (c.map.insert k v) (c.bytes + v.length) (c.order ++ [k])) ∧
    (c.bytes ≤ blobCacheMaxBytes ∧ c.map.entries.length ≤ blobCacheMaxEntries) ∧
    ∃ kept, Newest (accepted calls) kept ∧ c.order = kept.map Sigma.fst ∧
      ∀ k v, c.map.lookup k = some v ↔ ⟨k, v⟩ ∈ kept := by
  intro c
  have h : Holds c (List.fittingSuffix WithinCaps (accepted calls)) := holds_run calls
  have hnewest := newest_fittingSuffix (accepted calls)
  refine ⟨⟨h.nodup, h.mem_order_iff⟩, ?_, fun k v hnew => (holds_evict (h.push hnew v)).2, ?_,
    _, hnewest, h.order, fun k v => h.lookup_iff⟩
  · rw [h.bytes]
    exact ((h.entries.map _).sum_eq).symm
  · rw [h.bytes, h.entries.length_eq]
    exact hnewest.withinCaps

end BlobCache

end ClipBridge
