import ClipBridge.Lib.Json

/-!
# Records in JSON

How a record with named fields is read from a JSON value, the way `serde` derives it: from an
object by the names of its members, or from an array by position. An object may have members of
other names, which are ignored, but none of the record's names twice. An enumeration whose tag is
a member beside the fields is read by its tag first.

* `Json.record` — the declared fields, each with its value if it has one.
* `Json.readVariant` — by the tag, and then by the fields.
* `required`, `defaulted` — a field that must be there, and one that need not.
* `Newer` — a value with further members, in any order, at any depth.
* `Faithful` — what is written is read back, from its text, and also what a newer writer may have
  written for it. `Faithful.list`, `Faithful.option`, `Variant.faithful` — how it composes.
-/

namespace Json

/-! ## Values of fields -/

def asString : Json → Option String
  | .str s => some s
  | _ => none

def asBool : Json → Option Bool
  | .bool b => some b
  | _ => none

/-- An integer from `low` on, below `high`. -/
def asInt (low high : Int) : Json → Option Int
  | .int i => if low ≤ i ∧ i < high then some i else none
  | _ => none

def asInt64 : Json → Option Int := asInt (-2 ^ 63) (2 ^ 63)

def asUInt8 (v : Json) : Option UInt8 := (v.asInt 0 (2 ^ 8)).map fun i => UInt8.ofNat i.toNat

def asUInt32 (v : Json) : Option UInt32 := (v.asInt 0 (2 ^ 32)).map fun i => UInt32.ofNat i.toNat

def asUInt64 (v : Json) : Option UInt64 := (v.asInt 0 (2 ^ 64)).map fun i => UInt64.ofNat i.toNat

section

variable {α : Type}

/-- Every item, read by `f`. -/
def asItems (f : Json → Option α) : List Json → Option (List α)
  | [] => some []
  | v :: vs =>
      match f v, asItems f vs with
      | some a, some as => some (a :: as)
      | _, _ => none

def asList (f : Json → Option α) : Json → Option (List α)
  | .arr items => asItems f items
  | _ => none

/-- A value that may be `null`. -/
def asOption (f : Json → Option α) : Json → Option (Option α)
  | .null => some none
  | v => (f v).map some

end

/-! ## Fields -/

/-- What the members of a name are. -/
def valuesOf (name : String) (members : List (String × Json)) : List Json :=
  members.filterMap fun m => if m.1 = name then some m.2 else none

/-- The fields of a record, by their names. -/
abbrev Record := String → Option Json

def record (names : List String) : Json → Option Record
  | .obj members =>
      if ∀ name ∈ names, (valuesOf name members).length ≤ 1 then
        some fun name => if name ∈ names then (valuesOf name members).head? else none
      else none
  | .arr items =>
      if items.length ≤ names.length then some fun name => (names.zip items).lookup name else none
  | _ => none

section

variable {α : Type}

def required (f : Json → Option α) (r : Record) (name : String) : Option α := (r name).bind f

/-- A field with a default. -/
def defaulted (default : α) (f : Json → Option α) (r : Record) (name : String) : Option α :=
  match r name with
  | some v => f v
  | none => some default

end

/-- The tag of an enumeration, and the value without it. -/
def tagged (tag : String) : Json → Option (String × Json)
  | .obj members =>
      match valuesOf tag members with
      | [.str t] => some (t, .obj (members.filter fun m => m.1 ≠ tag))
      | _ => none
  | .arr (.str t :: items) => some (t, .arr items)
  | _ => none

/-- An enumeration whose variants have the fields `fieldNames` and are made by `ofFields`. -/
def readVariant {α : Type} (tag : String) (fieldNames : String → List String)
    (ofFields : String → Record → Option α) (v : Json) : Option α := do
  let (type, body) ← v.tagged tag
  let r ← body.record (fieldNames type)
  ofFields type r

/-! ## What a newer writer may write -/

mutual

/-- The same value with further members, of names that are not `known`, and with the members in
any order, at any depth. -/
inductive Newer (known : List String) : Json → Json → Prop
  | null : Newer known .null .null
  | bool (b : Bool) : Newer known (.bool b) (.bool b)
  | int (i : Int) : Newer known (.int i) (.int i)
  | float : Newer known .float .float
  | str (s : String) : Newer known (.str s) (.str s)
  | arr {vs vs' : List Json} (items : List.Forall₂ (Newer known) vs vs') :
      Newer known (.arr vs) (.arr vs')
  | obj {ms same extra ms' : List (String × Json)}
      (members : NewerMembers known ms same) (unknown : ∀ m ∈ extra, m.1 ∉ known)
      (perm : ms'.Perm (same ++ extra)) : Newer known (.obj ms) (.obj ms')

/-- The same members, with newer values. -/
inductive NewerMembers (known : List String) : List (String × Json) → List (String × Json) → Prop
  | nil : NewerMembers known [] []
  | cons (k : String) {v v' : Json} {ms ms' : List (String × Json)} (head : Newer known v v')
      (tail : NewerMembers known ms ms') : NewerMembers known ((k, v) :: ms) ((k, v') :: ms')

end

section

variable {known names : List String} {name tag t : String} {v : Json}
  {members same extra members' : List (String × Json)}

mutual

theorem Newer.refl : ∀ v, Newer known v v
  | .null => .null
  | .bool b => .bool b
  | .int i => .int i
  | .float => .float
  | .str s => .str s
  | .arr vs => .arr (Newer.reflItems vs)
  | .obj ms => @Newer.obj known ms ms [] ms (Newer.reflMembers ms) (by simp)
      (by rw [List.append_nil])

theorem Newer.reflItems : ∀ vs, List.Forall₂ (Newer known) vs vs
  | [] => .nil
  | v :: vs => .cons (Newer.refl v) (Newer.reflItems vs)

theorem Newer.reflMembers : ∀ ms, NewerMembers known ms ms
  | [] => .nil
  | (k, v) :: ms => .cons k (Newer.refl v) (Newer.reflMembers ms)

end

theorem NewerMembers.keys {ms ms' : List (String × Json)} (h : NewerMembers known ms ms') :
    ms'.map Prod.fst = ms.map Prod.fst := by
  induction ms generalizing ms' with
  | nil =>
      cases h
      rfl
  | cons m ms ih =>
      cases h with
      | cons k hv hrest => rw [List.map_cons, List.map_cons, ih hrest]

theorem valuesOf_of_notMem (h : name ∉ members.map Prod.fst) : valuesOf name members = [] := by
  rw [valuesOf, List.filterMap_eq_nil_iff]
  intro m hm
  have hne : m.1 ≠ name := fun heq => h (heq ▸ List.mem_map_of_mem hm)
  exact if_neg hne

theorem valuesOf_of_mem {m : String × Json} (hn : (members.map Prod.fst).Nodup)
    (hm : m ∈ members) : valuesOf m.1 members = [m.2] := by
  induction members with
  | nil => cases hm
  | cons m' members ih =>
      rw [List.map_cons, List.nodup_cons] at hn
      rw [valuesOf, List.filterMap_cons]
      rcases List.mem_cons.1 hm with rfl | hm
      · rw [if_pos rfl]
        exact congrArg (m.2 :: ·) (valuesOf_of_notMem hn.1)
      · have hne : m'.1 ≠ m.1 := fun heq => hn.1 (heq ▸ List.mem_map_of_mem hm)
        rw [if_neg hne]
        exact ih hn.2 hm

/-- The values of a known name are those of the older members, in some order. -/
theorem valuesOf_newer
    (hsame : NewerMembers known members same)
    (hextra : ∀ m ∈ extra, m.1 ∉ known) (hperm : members'.Perm (same ++ extra))
    (hname : name ∈ known) :
    ∃ vs, (valuesOf name members').Perm vs ∧
      List.Forall₂ (Newer known) (valuesOf name members) vs := by
  have hunknown : valuesOf name extra = [] := valuesOf_of_notMem fun h => by
    obtain ⟨m, hm, rfl⟩ := List.mem_map.1 h
    exact hextra m hm hname
  refine ⟨valuesOf name same, ?_, ?_⟩
  · have hvalues := hperm.filterMap fun m => if m.1 = name then some m.2 else none
    rw [List.filterMap_append] at hvalues
    have hnil : extra.filterMap (fun m => if m.1 = name then some m.2 else none) = [] := hunknown
    rwa [hnil, List.append_nil] at hvalues
  · clear hperm
    induction members generalizing same with
    | nil =>
        cases hsame
        exact .nil
    | cons m members ih =>
        cases hsame with
        | cons k hv hrest =>
            rw [valuesOf, valuesOf, List.filterMap_cons, List.filterMap_cons]
            by_cases heq : k = name
            · rw [if_pos heq, if_pos heq]
              exact .cons hv (ih hrest)
            · rw [if_neg heq, if_neg heq]
              exact ih hrest

theorem valuesOf_newer_one {w : Json}
    (hsame : NewerMembers known members same)
    (hextra : ∀ m ∈ extra, m.1 ∉ known) (hperm : members'.Perm (same ++ extra))
    (hname : name ∈ known) (hone : valuesOf name members = [w]) :
    ∃ w', valuesOf name members' = [w'] ∧ Newer known w w' := by
  obtain ⟨vs, hvs, hnewer⟩ := valuesOf_newer hsame hextra hperm hname
  rw [hone] at hnewer
  cases hnewer with
  | cons hw hnil =>
      cases hnil with
      | nil => exact ⟨_, List.perm_singleton.1 hvs, hw⟩

theorem valuesOf_newer_none
    (hsame : NewerMembers known members same)
    (hextra : ∀ m ∈ extra, m.1 ∉ known) (hperm : members'.Perm (same ++ extra))
    (hname : name ∈ known) (hnone : valuesOf name members = []) : valuesOf name members' = [] := by
  obtain ⟨vs, hvs, hnewer⟩ := valuesOf_newer hsame hextra hperm hname
  rw [hnone] at hnewer
  cases hnewer with
  | nil => exact hvs.eq_nil

/-- An object whose members are some of the fields, as it was written or by a newer writer. -/
theorem record_fields (hknown : names ⊆ known) (hn : names.Nodup)
    (hsub : (members.map Prod.fst).Sublist names) (h : Newer known (.obj members) v) :
    ∃ r, record names v = some r ∧
      (∀ m ∈ members, ∃ w, r m.1 = some w ∧ Newer known m.2 w) ∧
      ∀ name ∉ members.map Prod.fst, r name = none := by
  cases h with
  | @obj _ same extra members' hsame hextra hperm =>
      have hsome : ∀ m ∈ members, ∃ w, valuesOf m.1 members' = [w] ∧ Newer known m.2 w :=
        fun m hm => valuesOf_newer_one hsame hextra hperm
          (hknown (hsub.subset (List.mem_map_of_mem hm))) (valuesOf_of_mem (hn.sublist hsub) hm)
      have hnone : ∀ name ∈ names, name ∉ members.map Prod.fst → valuesOf name members' = [] :=
        fun name hname hnot => valuesOf_newer_none hsame hextra hperm (hknown hname)
          (valuesOf_of_notMem hnot)
      have honce : ∀ name ∈ names, (valuesOf name members').length ≤ 1 := by
        intro name hname
        by_cases hmem : name ∈ members.map Prod.fst
        · obtain ⟨m, hm, rfl⟩ := List.mem_map.1 hmem
          obtain ⟨w, hw, -⟩ := hsome m hm
          rw [hw]
          exact Nat.le_refl 1
        · rw [hnone name hname hmem]
          exact Nat.zero_le 1
      refine ⟨_, by rw [record, if_pos honce], fun m hm => ?_, fun name hnot => ?_⟩
      · obtain ⟨w, hw, hnewer⟩ := hsome m hm
        have hname : m.1 ∈ names := hsub.subset (List.mem_map_of_mem hm)
        exact ⟨w, by rw [if_pos hname, hw]; rfl, hnewer⟩
      · by_cases hname : name ∈ names
        · rw [if_pos hname, hnone name hname hnot]
          rfl
        · rw [if_neg hname]

theorem tagged_newer (hknown : tag ∈ known) (htag : tag ∉ members.map Prod.fst)
    (h : Newer known (.obj ((tag, .str t) :: members)) v) :
    ∃ body, v.tagged tag = some (t, body) ∧ Newer known (.obj members) body := by
  cases h with
  | @obj _ same extra members' hsame hextra hperm =>
      have hone : valuesOf tag ((tag, .str t) :: members) = [.str t] := by
        rw [valuesOf, List.filterMap_cons, if_pos rfl]
        exact congrArg (Json.str t :: ·) (valuesOf_of_notMem htag)
      obtain ⟨w, hw, hnewer⟩ := valuesOf_newer_one hsame hextra hperm hknown hone
      cases hnewer
      cases hsame with
      | @cons _ _ _ _ rest _ hrest =>
          have hkeep : ∀ ms : List (String × Json), tag ∉ ms.map Prod.fst →
              ms.filter (fun m => m.1 ≠ tag) = ms := fun ms hms =>
            List.filter_eq_self.2 fun m hm =>
              decide_eq_true fun heq => hms (heq ▸ List.mem_map_of_mem hm)
          have hextraTag : tag ∉ extra.map Prod.fst := fun hmem => by
            obtain ⟨m, hm, rfl⟩ := List.mem_map.1 hmem
            exact hextra m hm hknown
          have hfilter := hperm.filter fun m => decide (m.1 ≠ tag)
          rw [List.cons_append, List.filter_cons_of_neg (by simp), List.filter_append,
            hkeep rest (hrest.keys ▸ htag), hkeep extra hextraTag] at hfilter
          exact ⟨_, by rw [tagged, hw], .obj hrest hextra hfilter⟩

end

/-! ## Reading back -/

theorem asInt_int {low high i : Int} (h : low ≤ i ∧ i < high) :
    asInt low high (.int i) = some i := if_pos h

/-- A value whose text parses, and which is at most `d` deep. -/
structure Shallow (d : Nat) (v : Json) : Prop where
  plain : v.Plain
  depth : v.depth ≤ d

theorem Shallow.mono {d d' : Nat} {v : Json} (h : Shallow d v) (hd : d ≤ d') : Shallow d' v :=
  ⟨h.plain, Nat.le_trans h.depth hd⟩

theorem shallow_str (s : String) : Shallow 0 (.str s) := ⟨trivial, Nat.le_refl 0⟩

theorem shallow_items {vs : List Json} {d : Nat} (h : ∀ v ∈ vs, Shallow d v) :
    Shallow (d + 1) (.arr vs) := by
  induction vs with
  | nil => exact ⟨trivial, Nat.succ_le_succ (Nat.zero_le d)⟩
  | cons v vs ih =>
      have hv := h v List.mem_cons_self
      have hvs := ih fun w hw => h w (List.mem_cons_of_mem v hw)
      exact ⟨⟨hv.plain, hvs.plain⟩,
        Nat.succ_le_succ (Nat.max_le.2 ⟨hv.depth, Nat.le_of_succ_le_succ hvs.depth⟩)⟩

theorem shallow_members {ms : List (String × Json)} {d : Nat} (h : ∀ m ∈ ms, Shallow d m.2) :
    Shallow (d + 1) (.obj ms) := by
  induction ms with
  | nil => exact ⟨trivial, Nat.succ_le_succ (Nat.zero_le d)⟩
  | cons m ms ih =>
      have hm := h m List.mem_cons_self
      have hms := ih fun m' hm' => h m' (List.mem_cons_of_mem m hm')
      exact ⟨⟨hm.plain, hms.plain⟩,
        Nat.succ_le_succ (Nat.max_le.2 ⟨hm.depth, Nat.le_of_succ_le_succ hms.depth⟩)⟩

/-- A value is written at most `d` deep, and is read back from what was written or from what a
newer writer wrote for it. -/
structure Faithful {α : Type} (known : List String) (toJson : α → Json) (ofJson : Json → Option α)
    (d : Nat) (a : α) : Prop where
  newer : ∀ v, Newer known (toJson a) v → ofJson v = some a
  shallow : Shallow d (toJson a)

section

variable {known : List String}

/-- A scalar has no members. -/
theorem Faithful.of_read {α : Type} {toJson : α → Json} {ofJson : Json → Option α} {d : Nat} {a : α}
    (hscalar : ∀ v, Newer known (toJson a) v → v = toJson a) (hread : ofJson (toJson a) = some a)
    (hshallow : Shallow d (toJson a)) : Faithful known toJson ofJson d a :=
  ⟨fun v hv => by rw [hscalar v hv, hread], hshallow⟩

theorem faithful_string (s : String) : Faithful known .str asString 0 s :=
  .of_read (by rintro v ⟨⟩; rfl) rfl (shallow_str s)

theorem faithful_bool (b : Bool) : Faithful known .bool asBool 0 b :=
  .of_read (by rintro v ⟨⟩; rfl) rfl ⟨trivial, Nat.le_refl 0⟩

theorem faithful_uint8 (n : UInt8) : Faithful known (fun n => .int n.toNat) asUInt8 0 n := by
  have := n.toNat_lt
  refine .of_read (by rintro v ⟨⟩; rfl) ?_ ⟨⟨by omega, by omega⟩, Nat.le_refl 0⟩
  rw [asUInt8, asInt_int (by omega)]
  simp

theorem faithful_uint32 (n : UInt32) : Faithful known (fun n => .int n.toNat) asUInt32 0 n := by
  have := n.toNat_lt
  refine .of_read (by rintro v ⟨⟩; rfl) ?_ ⟨⟨by omega, by omega⟩, Nat.le_refl 0⟩
  rw [asUInt32, asInt_int (by omega)]
  simp

theorem faithful_uint64 (n : UInt64) : Faithful known (fun n => .int n.toNat) asUInt64 0 n := by
  have := n.toNat_lt
  refine .of_read (by rintro v ⟨⟩; rfl) ?_ ⟨⟨by omega, by omega⟩, Nat.le_refl 0⟩
  rw [asUInt64, asInt_int (by omega)]
  simp

theorem faithful_int64 {i : Int} (h : -2 ^ 63 ≤ i ∧ i < 2 ^ 63) :
    Faithful known .int asInt64 0 i :=
  .of_read (by rintro v ⟨⟩; rfl) (asInt_int h)
    ⟨⟨h.1, Int.lt_trans h.2 (by decide)⟩, Nat.le_refl 0⟩

namespace Faithful

variable {α : Type} {toJson : α → Json} {ofJson : Json → Option α} {d : Nat} {a : α} {as : List α}

theorem read (h : Faithful known toJson ofJson d a) : ofJson (toJson a) = some a :=
  h.newer _ (.refl _)

/-- What was written as text is read back from it. -/
theorem fromSlice (h : Faithful known toJson ofJson d a) (hd : d < maxDepth) :
    (Json.fromSlice (toJson a).text).bind ofJson = some a := by
  rw [fromSlice_text h.shallow.plain (Nat.lt_of_le_of_lt h.shallow.depth hd), Option.bind_some,
    h.read]

/-- And from any text that a newer writer may have written for it. -/
theorem fromSlice_newer (h : Faithful known toJson ofJson d a) {bytes : List UInt8} {v : Json}
    (hparse : Json.fromSlice bytes = some v) (hv : Newer known (toJson a) v) :
    (Json.fromSlice bytes).bind ofJson = some a := by
  rw [hparse, Option.bind_some, h.newer v hv]

theorem required {r : Record} {name : String} (h : Faithful known toJson ofJson d a)
    (hr : ∃ v, r name = some v ∧ Newer known (toJson a) v) :
    Json.required ofJson r name = some a := by
  obtain ⟨v, hv, hnewer⟩ := hr
  rw [Json.required, hv, Option.bind_some, h.newer v hnewer]

theorem defaulted {r : Record} {name : String} {default : α} (h : Faithful known toJson ofJson d a)
    (hr : ∃ v, r name = some v ∧ Newer known (toJson a) v) :
    Json.defaulted default ofJson r name = some a := by
  obtain ⟨v, hv, hnewer⟩ := hr
  rw [Json.defaulted, hv]
  exact h.newer v hnewer

/-- A field that is left out when it has its default. -/
theorem skippable {r : Record} (name : String) (default : α) {members : List (String × Json)}
    (h : Faithful known toJson ofJson d a)
    (hmem : ∀ m ∈ members, ∃ v, r m.1 = some v ∧ Newer known m.2 v)
    (hnot : ∀ name ∉ members.map Prod.fst, r name = none)
    (hout : a = default → name ∉ members.map Prod.fst)
    (hin : a ≠ default → (name, toJson a) ∈ members) :
    Json.defaulted default ofJson r name = some a := by
  by_cases ha : a = default
  · rw [Json.defaulted, hnot name (hout ha), ha]
  · exact h.defaulted (hmem _ (hin ha))

theorem list (h : ∀ a ∈ as, Faithful known toJson ofJson d a) :
    Faithful known (fun as => .arr (as.map toJson)) (asList ofJson) (d + 1) as := by
  refine ⟨?_, shallow_items fun v hv => ?_⟩
  · rintro v ⟨⟩
    next vs hvs =>
      show asItems ofJson vs = some as
      induction as generalizing vs with
      | nil =>
          cases hvs
          rfl
      | cons a as ih =>
          cases hvs with
          | cons hv hvs =>
              rw [asItems, (h a List.mem_cons_self).newer _ hv,
                ih (fun b hb => h b (List.mem_cons_of_mem a hb)) hvs]
  · obtain ⟨a, ha, rfl⟩ := List.mem_map.1 hv
    exact (h a ha).shallow

/-- `null` stands for nothing, so no value may be written as `null`. -/
theorem option {a : Option α} (h : ∀ b ∈ a, Faithful known toJson ofJson d b)
    (hnull : ∀ b, toJson b ≠ .null) :
    Faithful known (fun a => a.elim .null toJson) (asOption ofJson) d a := by
  cases a with
  | none => exact ⟨by rintro v ⟨⟩; rfl, trivial, Nat.zero_le d⟩
  | some b =>
      have hb := h b rfl
      refine ⟨fun v hv => ?_, hb.shallow⟩
      unfold asOption
      split
      · next hnone =>
          have heq : toJson b = .null := by
            cases hshape : toJson b <;> simp only [Option.elim_some, hshape] at hv <;> cases hv
            rfl
          exact absurd heq (hnull b)
      · rw [hb.newer v hv, Option.map_some]

end Faithful

/-- A variant that is written with a tag and these members, and made from its fields. -/
structure Variant {α : Type} (known : List String) (tag type : String)
    (members : List (String × Json)) (fieldNames : String → List String)
    (ofFields : String → Record → Option α) (d : Nat) (a : α) : Prop where
  names : tag :: fieldNames type ⊆ known
  nodup : (tag :: fieldNames type).Nodup
  sublist : (members.map Prod.fst).Sublist (fieldNames type)
  ofFields : ∀ r : Record, (∀ m ∈ members, ∃ v, r m.1 = some v ∧ Newer known m.2 v) →
    (∀ name ∉ members.map Prod.fst, r name = none) → ofFields type r = some a
  shallow : ∀ m ∈ members, Shallow d m.2

theorem Variant.faithful {α : Type} {tag : String} {type : α → String}
    {members : α → List (String × Json)} {fieldNames : String → List String}
    {ofFields : String → Record → Option α} {d : Nat} {a : α}
    (h : Variant known tag (type a) (members a) fieldNames ofFields d a) :
    Faithful known (fun a => .obj ((tag, .str (type a)) :: members a))
      (readVariant tag fieldNames ofFields) (d + 1) a := by
  refine ⟨fun v hv => ?_, shallow_members ?_⟩
  · have htag : tag ∉ (members a).map Prod.fst := fun hmem =>
      (List.nodup_cons.1 h.nodup).1 (h.sublist.subset hmem)
    obtain ⟨body, htagged, hbody⟩ := tagged_newer (h.names List.mem_cons_self) htag hv
    obtain ⟨r, hr, hmem, hnot⟩ := record_fields (List.subset_of_cons_subset h.names)
      (List.nodup_cons.1 h.nodup).2 h.sublist hbody
    simp only [readVariant, htagged, hr, Option.bind_eq_bind, Option.bind_some]
    exact h.ofFields r hmem hnot
  · exact List.forall_mem_cons.2 ⟨(shallow_str _).mono (Nat.zero_le d), h.shallow⟩

end

end Json
