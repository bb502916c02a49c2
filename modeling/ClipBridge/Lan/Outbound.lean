import ClipBridge.Lan.Edits
import Mathlib.Data.List.Perm.Basic
import Mathlib.Data.List.Perm.Subperm

/-!
# The books of the connections

Who is being dialled stands in `outbound_peers`: the reconciler writes an entry before it starts a
task, and the task takes it out when it ends. Who has a session stands in the registry, and
`peer_count` says how many. The suspend step clears `outbound_peers` while tasks may still be alive,
and a session takes the place of another one that is registered under its key.

* `Books.Registered` — what every run keeps: the counter counts the sessions, and only they are
  registered.
* `Books.Consistent` — one outbound task for each key, an entry for each outbound task, and a
  counter that agrees with the registry.
* `Orderly` — suspend finds no outbound task, and a session takes nobody's place.
* `consistent_iff` — a run keeps the books consistent exactly if it is orderly.
-/

namespace ClipBridge

open Relay (SocketAddrText)

namespace LanNode

/-! ## The books -/

/-- The keys of the outbound tasks. Such a task lives until it has taken its entry out. -/
def outboundKeys (tasks : List PeerTask) : List String :=
  (tasks.filter (·.expectedPeer.isSome)).map (·.registryKey)

/-- The keys of the tasks with a `PeerSessionGuard`. -/
def sessionKeys (tasks : List PeerTask) : List String :=
  (tasks.filter (·.phase = .session)).map (·.registryKey)

structure Books.Consistent (b : Books) : Prop where
  /-- No two outbound tasks have one key. -/
  once : (outboundKeys b.tasks).Nodup
  dialling : ∀ key, key ∈ b.outbound ↔ key ∈ outboundKeys b.tasks
  counted : b.count = b.registry.entries.length

/-- What holds of the books in every run. -/
structure Books.Registered (b : Books) : Prop where
  sessions : b.count = (sessionKeys b.tasks).length
  registered : b.registry.keys ⊆ sessionKeys b.tasks
  /-- Only outbound tasks have an entry to take out. -/
  ended : ∀ t ∈ b.tasks, t.phase = .ended → t.expectedPeer.isSome = true

variable {cfg : LanConfig} {n : LanNode}

/-! ## Keys -/

theorem outboundKeys_cons (t : PeerTask) (tasks : List PeerTask) :
    outboundKeys (t :: tasks) =
      if t.expectedPeer.isSome then t.registryKey :: outboundKeys tasks
      else outboundKeys tasks := by
  simp only [outboundKeys, List.filter_cons]
  split
  · rfl
  · rfl

theorem sessionKeys_cons (t : PeerTask) (tasks : List PeerTask) :
    sessionKeys (t :: tasks) =
      if t.phase = .session then t.registryKey :: sessionKeys tasks
      else sessionKeys tasks := by
  simp only [sessionKeys, List.filter_cons, decide_eq_true_eq]
  split
  · rfl
  · rfl

theorem outboundKeys_perm {tasks tasks' : List PeerTask} (h : tasks.Perm tasks') :
    (outboundKeys tasks).Perm (outboundKeys tasks') := (h.filter _).map _

theorem sessionKeys_perm {tasks tasks' : List PeerTask} (h : tasks.Perm tasks') :
    (sessionKeys tasks).Perm (sessionKeys tasks') := (h.filter _).map _

section

variable {tasks : List PeerTask} {i : Nat} {t : PeerTask}

theorem perm_get (h : tasks[i]? = some t) : tasks.Perm (t :: tasks.eraseIdx i) := by
  obtain ⟨hi, rfl⟩ := List.getElem?_eq_some_iff.1 h
  exact (List.getElem_cons_eraseIdx_perm hi).symm

theorem perm_set (h : tasks[i]? = some t) (t' : PeerTask) :
    (tasks.set i t').Perm (t' :: tasks.eraseIdx i) := by
  obtain ⟨hi, -⟩ := List.getElem?_eq_some_iff.1 h
  exact List.set_perm_cons_eraseIdx hi t'

/-- A change of the phase keeps the entry. -/
theorem outboundKeys_set (h : tasks[i]? = some t) (phase : PeerTaskPhase) :
    (outboundKeys (tasks.set i { t with phase })).Perm (outboundKeys tasks) := by
  refine List.Perm.trans ?_ (outboundKeys_perm (perm_get h)).symm
  have hset := outboundKeys_perm (perm_set h { t with phase })
  rw [outboundKeys_cons] at hset ⊢
  exact hset

/-- A task that is over still has its entry. -/
theorem outboundKeys_finished (h : tasks[i]? = some t) :
    (outboundKeys (finished tasks i t)).Perm (outboundKeys tasks) := by
  unfold finished
  split
  · exact outboundKeys_set h .ended
  · rename_i hin
    have hkeys := outboundKeys_perm (perm_get h)
    rw [outboundKeys_cons, if_neg hin] at hkeys
    exact hkeys.symm

/-- It has no session. -/
theorem sessionKeys_finished (h : tasks[i]? = some t) :
    (sessionKeys (finished tasks i t)).Perm (sessionKeys (tasks.eraseIdx i)) := by
  unfold finished
  split
  · have hset := sessionKeys_perm (perm_set h { t with phase := .ended })
    rwa [sessionKeys_cons, if_neg nofun] at hset
  · exact .refl _

/-- A task without a session adds nothing. -/
theorem sessionKeys_idle (h : tasks[i]? = some t) (hphase : t.phase ≠ .session) :
    (sessionKeys tasks).Perm (sessionKeys (tasks.eraseIdx i)) := by
  have hkeys := sessionKeys_perm (perm_get h)
  rwa [sessionKeys_cons, if_neg hphase] at hkeys

theorem sessionKeys_session (h : tasks[i]? = some t) (hphase : t.phase = .session) :
    (sessionKeys tasks).Perm (t.registryKey :: sessionKeys (tasks.eraseIdx i)) := by
  have hkeys := sessionKeys_perm (perm_get h)
  rwa [sessionKeys_cons, if_pos hphase] at hkeys

theorem sessionKeys_concat (tasks : List PeerTask) (h : t.phase ≠ .session) :
    sessionKeys (tasks ++ [t]) = sessionKeys tasks := by
  simp [sessionKeys, List.filter_append, h]

end

/-! ## What every run keeps -/

namespace Books

variable {b : Books} {i : Nat} {t : PeerTask}

namespace Registered

/-- A task starts. -/
theorem start (h : b.Registered) (ht : t.phase = .starting) (outbound : Finset String) :
    Registered ⟨b.tasks ++ [t], outbound, b.count, b.registry⟩ := by
  have hkeys := sessionKeys_concat b.tasks (t := t) (by rw [ht]; exact nofun)
  constructor
  · rw [hkeys]
    exact h.sessions
  · rw [hkeys]
    exact h.registered
  · intro t' ht' hended
    rcases List.mem_append.1 ht' with hold | hnew
    · exact h.ended t' hold hended
    · rw [List.mem_singleton.1 hnew, ht] at hended
      cases hended

theorem ended_finished (h : b.Registered) :
    ∀ t' ∈ finished b.tasks i t, t'.phase = .ended → t'.expectedPeer.isSome = true := by
  intro t' ht'
  unfold finished at ht'
  split at ht'
  · rename_i hout
    rcases List.mem_or_eq_of_mem_set ht' with hold | rfl
    · exact h.ended t' hold
    · exact fun _ => hout
  · exact h.ended t' (List.mem_of_mem_eraseIdx ht')

/-- A task ends without a session. -/
theorem fail (h : b.Registered) (hget : b.tasks[i]? = some t) (hphase : t.phase = .starting) :
    Registered { b with tasks := finished b.tasks i t } := by
  have hidle : t.phase ≠ .session := by rw [hphase]; exact nofun
  have hkeys := (sessionKeys_finished hget).trans (sessionKeys_idle hget hidle).symm
  constructor
  · rw [hkeys.length_eq]
    exact h.sessions
  · exact fun key hkey => hkeys.mem_iff.2 (h.registered hkey)
  · exact h.ended_finished

/-- A session starts. -/
theorem begin (h : b.Registered) (hget : b.tasks[i]? = some t) (hphase : t.phase = .starting)
    (peer : DeviceId × String) :
    Registered { b with
      tasks := b.tasks.set i { t with phase := .session }
      count := b.count + 1
      registry := b.registry.insert t.registryKey peer } := by
  have hidle : t.phase ≠ .session := by rw [hphase]; exact nofun
  have hold := sessionKeys_idle hget hidle
  have hnew := sessionKeys_perm (perm_set hget { t with phase := .session })
  rw [sessionKeys_cons, if_pos rfl] at hnew
  constructor
  · rw [hnew.length_eq, List.length_cons, ← hold.length_eq, h.sessions]
  · intro key hkey
    rw [hnew.mem_iff, List.mem_cons]
    rcases (AList.mem_insert _).1 (AList.mem_keys.2 hkey) with hself | hother
    · exact Or.inl hself
    · exact Or.inr (hold.mem_iff.1 (h.registered hother))
  · intro t' ht'
    rcases List.mem_or_eq_of_mem_set ht' with hmem | rfl
    · exact h.ended t' hmem
    · exact nofun

/-- A session ends. -/
theorem hangUp (h : b.Registered) (hget : b.tasks[i]? = some t) (hphase : t.phase = .session) :
    Registered { b with
      tasks := finished b.tasks i t
      count := b.count - 1
      registry := b.registry.erase t.registryKey } := by
  have hold := sessionKeys_session hget hphase
  have hnew := sessionKeys_finished hget
  constructor
  · rw [hnew.length_eq, h.sessions, hold.length_eq, List.length_cons, Nat.add_sub_cancel]
  · intro key hkey
    rw [hnew.mem_iff]
    obtain ⟨hne, hin⟩ := AList.mem_erase.1 (AList.mem_keys.2 hkey)
    exact (List.mem_cons.1 (hold.mem_iff.1 (h.registered hin))).resolve_left hne
  · exact h.ended_finished

/-- An outbound task takes its entry out. -/
theorem leave (h : b.Registered) (hget : b.tasks[i]? = some t) (hphase : t.phase = .ended)
    (outbound : Finset String) :
    Registered ⟨b.tasks.eraseIdx i, outbound, b.count, b.registry⟩ := by
  have hidle : t.phase ≠ .session := by rw [hphase]; exact nofun
  have hold := sessionKeys_idle hget hidle
  constructor
  · rw [← hold.length_eq]
    exact h.sessions
  · exact fun key hkey => hold.mem_iff.1 (h.registered hkey)
  · exact fun t' ht' => h.ended t' (List.mem_of_mem_eraseIdx ht')

/-- While the counter agrees with the registry, everybody with a session is registered. -/
theorem keys_perm (h : b.Registered) (hcounted : b.count = b.registry.entries.length) :
    (sessionKeys b.tasks).Perm b.registry.keys := by
  have hsub : b.registry.keys.Subperm (sessionKeys b.tasks) :=
    b.registry.keys_nodup.subperm h.registered
  refine (hsub.perm_of_length_le ?_).symm
  rw [← h.sessions, hcounted]
  exact (List.length_map _).ge

end Registered

/-! ## What keeps the books consistent -/

namespace Consistent

theorem dial (h : b.Consistent) {fullname : String} (hnew : fullname ∉ b.outbound)
    (peerDid : DeviceId) :
    Consistent { b with
      tasks := b.tasks ++ [⟨fullname, some peerDid, .starting⟩]
      outbound := insert fullname b.outbound } := by
  have hkeys : outboundKeys (b.tasks ++ [⟨fullname, some peerDid, .starting⟩]) =
      outboundKeys b.tasks ++ [fullname] := by
    simp [outboundKeys, List.filter_append]
  constructor
  · rw [hkeys]
    refine List.nodup_append.2 ⟨h.once, List.nodup_singleton _, ?_⟩
    intro a ha x hx hax
    rw [List.mem_singleton.1 hx] at hax
    exact hnew ((h.dialling fullname).2 (hax ▸ ha))
  · intro key
    rw [hkeys, List.mem_append, List.mem_singleton, Finset.mem_insert, or_comm]
    exact or_congr_left (h.dialling key)
  · exact h.counted

theorem accept (h : b.Consistent) (key : String) :
    Consistent { b with tasks := b.tasks ++ [⟨key, none, .starting⟩] } := by
  have hkeys : outboundKeys (b.tasks ++ [⟨key, none, .starting⟩]) = outboundKeys b.tasks := by
    simp [outboundKeys, List.filter_append]
  constructor
  · rw [hkeys]
    exact h.once
  · rw [hkeys]
    exact h.dialling
  · exact h.counted

/-- The entries stay right as long as the keys of the outbound tasks stay the same. -/
theorem retask (h : b.Consistent) {tasks : List PeerTask}
    (hkeys : (outboundKeys tasks).Perm (outboundKeys b.tasks)) {count : Nat}
    {registry : AList fun _ : String => DeviceId × String}
    (hcounted : count = registry.entries.length) :
    Consistent ⟨tasks, b.outbound, count, registry⟩ where
  once := hkeys.nodup_iff.2 h.once
  dialling key := (h.dialling key).trans hkeys.mem_iff.symm
  counted := hcounted

theorem clear_iff (h : b.Consistent) :
    Consistent { b with outbound := ∅ } ↔ outboundKeys b.tasks = [] := by
  constructor
  · intro hclear
    refine List.eq_nil_iff_forall_not_mem.2 fun key hkey => ?_
    exact Finset.notMem_empty key ((hclear.dialling key).2 hkey)
  · intro hnone
    refine ⟨h.once, fun key => ?_, h.counted⟩
    rw [hnone]
    exact ⟨nofun, nofun⟩

/-- A session starts: the counter agrees exactly if the key was free. -/
theorem begin_iff (h : b.Consistent) (hget : b.tasks[i]? = some t) (peer : DeviceId × String) :
    Consistent { b with
      tasks := b.tasks.set i { t with phase := .session }
      count := b.count + 1
      registry := b.registry.insert t.registryKey peer } ↔ t.registryKey ∉ b.registry := by
  have hlength : (b.registry.insert t.registryKey peer).entries.length =
      (b.registry.keys.erase t.registryKey).length + 1 := by
    rw [← List.length_map, ← List.length_cons, ← AList.keys_insert]
    rfl
  have hcount : b.count = b.registry.keys.length := h.counted.trans (List.length_map _).symm
  constructor
  · rintro ⟨-, -, hagree⟩ hin
    have hpos := List.length_pos_of_mem (AList.mem_keys.1 hin)
    have hagree' : b.count + 1 = _ := hagree.trans hlength
    rw [List.length_erase_of_mem (AList.mem_keys.1 hin), hcount] at hagree'
    omega
  · intro hfree
    refine h.retask (outboundKeys_set hget .session) ?_
    have hout : t.registryKey ∉ b.registry.keys := fun hin => hfree (AList.mem_keys.2 hin)
    rw [hlength, List.erase_of_not_mem hout, ← hcount]

/-- A session ends: its key is registered, so the registry gets smaller by one. -/
theorem hangUp (h : b.Consistent) (hreg : b.Registered) (hget : b.tasks[i]? = some t)
    (hphase : t.phase = .session) :
    Consistent { b with
      tasks := finished b.tasks i t
      count := b.count - 1
      registry := b.registry.erase t.registryKey } := by
  refine h.retask (outboundKeys_finished hget) ?_
  have hin : t.registryKey ∈ b.registry.keys := by
    rw [← (hreg.keys_perm h.counted).mem_iff, (sessionKeys_session hget hphase).mem_iff]
    exact List.mem_cons_self
  have hcount : b.count = b.registry.keys.length := h.counted.trans (List.length_map _).symm
  rw [← List.length_map, hcount, ← List.length_erase_of_mem hin, ← AList.keys_erase]
  rfl

theorem leave (h : b.Consistent) (hreg : b.Registered) (hget : b.tasks[i]? = some t)
    (hphase : t.phase = .ended) :
    Consistent { b with
      tasks := b.tasks.eraseIdx i
      outbound := b.outbound.erase t.registryKey } := by
  have hout : t.expectedPeer.isSome = true := hreg.ended t (List.mem_of_getElem? hget) hphase
  have hkeys := outboundKeys_perm (perm_get hget)
  rw [outboundKeys_cons, if_pos hout] at hkeys
  obtain ⟨hfree, honce⟩ := List.nodup_cons.1 (hkeys.nodup_iff.1 h.once)
  refine ⟨honce, fun key => ?_, h.counted⟩
  rw [Finset.mem_erase, h.dialling, hkeys.mem_iff, List.mem_cons]
  constructor
  · rintro ⟨hne, hmem⟩
    exact hmem.resolve_left hne
  · intro hmem
    exact ⟨fun heq => hfree (heq ▸ hmem), Or.inr hmem⟩

end Consistent

end Books

/-! ## Runs -/

theorem registered_init (active : Bool) : (init active).books.Registered where
  sessions := rfl
  registered := nofun
  ended := nofun

theorem consistent_init (active : Bool) : (init active).books.Consistent where
  once := List.nodup_nil
  dialling := by
    intro key
    exact ⟨nofun, nofun⟩
  counted := rfl

/-- The suspend step completes when no outbound task is left; a session starts under a key that
is free. -/
def Orderly (cfg : LanConfig) (n : LanNode) : LanEvent → Prop
  | .lifecycle _ _ => n.lifecycle = .clearingOutbound → outboundKeys n.tasks = []
  | .handshake i peerDid _ => ∀ t, n.tasks[i]? = some t → Starts cfg t peerDid →
      t.registryKey ∉ n.peers
  | _ => True

theorem Harmless.orderly {e : LanEvent} (h : Harmless cfg n e) : Orderly cfg n e := by
  cases e with
  | lifecycle confirmed started => exact fun hlife => absurd hlife h
  | handshake i peerDid name => exact fun t hget hstarts => absurd hstarts (h t hget)
  | _ => trivial

section

variable [SocketAddrText]

theorem registered_step (cfg : LanConfig) (n : LanNode) (e : LanEvent)
    (h : n.books.Registered) : (step cfg n e).books.Registered := by
  cases step_edits cfg n e with
  | nothing _ _ hb => rw [hb]; exact h
  | resolved _ _ _ _ _ _ _ _ _ hb => rw [hb]; exact h
  | inserted _ _ _ _ _ _ hb => rw [hb]; exact h
  | removed _ _ _ _ _ hb => rw [hb]; exact h
  | ingested _ _ _ hb => rw [hb]; exact h
  | clearedKnown _ _ hb => rw [hb]; exact h
  | clearedOutbound _ _ hb => rw [hb]; exact ⟨h.sessions, h.registered, h.ended⟩
  | dialed _ _ _ _ _ _ hb => rw [hb]; exact h.start rfl _
  | accepted _ _ hb => rw [hb]; exact h.start rfl n.outboundPeers
  | failed _ _ _ hget hphase _ hb => rw [hb]; exact h.fail hget hphase
  | began _ hget hstarts _ hb => rw [hb]; exact h.begin hget hstarts.1 _
  | hungUp _ hget hphase _ hb => rw [hb]; exact h.hangUp hget hphase
  | left _ hget hphase _ hb => rw [hb]; exact h.leave hget hphase _

theorem consistent_step (cfg : LanConfig) (n : LanNode) (e : LanEvent)
    (hreg : n.books.Registered) (h : n.books.Consistent) :
    (step cfg n e).books.Consistent ↔ Orderly cfg n e := by
  cases step_edits cfg n e with
  | nothing hquiet _ hb => rw [hb]; exact iff_of_true h hquiet.orderly
  | resolved _ _ _ _ _ _ _ _ _ hb => rw [hb]; exact iff_of_true h trivial
  | inserted _ _ _ _ _ _ hb => rw [hb]; exact iff_of_true h trivial
  | removed _ _ _ _ _ hb => rw [hb]; exact iff_of_true h trivial
  | ingested _ _ _ hb => rw [hb]; exact iff_of_true h trivial
  | clearedKnown hlife _ hb =>
      rw [hb]
      refine iff_of_true h fun hclearing => ?_
      rw [hlife] at hclearing
      cases hclearing
  | clearedOutbound hlife _ hb =>
      rw [hb, h.clear_iff]
      exact ⟨fun hnone _ => hnone, fun hnone => hnone hlife⟩
  | dialed _ kp _ _ hnew _ hb => rw [hb]; exact iff_of_true (h.dial hnew kp.peerDid) trivial
  | accepted key _ hb => rw [hb]; exact iff_of_true (h.accept key) trivial
  | failed _ _ hquiet hget _ _ hb =>
      rw [hb]
      exact iff_of_true (h.retask (outboundKeys_finished hget) h.counted) hquiet.orderly
  | began t hget hstarts _ hb =>
      rw [hb]
      refine (h.begin_iff hget _).trans ⟨fun hfree t' hget' _ => ?_, fun hfree => ?_⟩
      · rw [hget, Option.some.injEq] at hget'
        rw [← hget']
        exact hfree
      · exact hfree t hget hstarts
  | hungUp _ hget hphase _ hb => rw [hb]; exact iff_of_true (h.hangUp hreg hget hphase) trivial
  | left _ hget hphase _ hb => rw [hb]; exact iff_of_true (h.leave hreg hget hphase) trivial

/-- **A run keeps the books consistent exactly if it is orderly.** -/
theorem consistent_iff (cfg : LanConfig) (active : Bool) (es : List LanEvent) :
    (∀ pre, pre <+: es → (run cfg active pre).books.Consistent) ↔
      Machine.Along (step cfg) (Orderly cfg) (init active) es :=
  Machine.always_iff (I := fun n : LanNode => n.books.Consistent)
    (J := fun n : LanNode => n.books.Registered) (registered_step cfg) (consistent_step cfg)
    (registered_init active) (consistent_init active) es

end

/-! ## Suspended while dialling -/

/-- A peer is being dialled when the node is suspended. After the resume it is found again. -/
def redialed : List LanEvent :=
  let found : ServiceEvent := .resolved ⟨some "gid", some "a", [.v4 0xc0a80102], 5000, "a-1"⟩
  let order := [("a-1", ⟨"a", [⟨.v4 0xc0a80102, 5000, 0⟩]⟩)]
  [.mdns 0 found, .discover 0 [], .discover 0 [], .tick, .snapshot order, .dial, .dial,
    .storeActive false, .notifyMode, .lifecycle true true, .lifecycle true true,
    .lifecycle true true, .storeActive true, .notifyMode, .lifecycle true true,
    .lifecycle true true, .mdns 1 found, .discover 1 [], .discover 1 [], .tick, .snapshot order,
    .dial]

theorem redialed_not_consistent :
    ¬ ∀ pre, pre <+: redialed →
      (@run sampleAddrText sampleLanConfig true pre).books.Consistent := by
  intro h
  have hkeys : outboundKeys (@run sampleAddrText sampleLanConfig true redialed).tasks =
      ["a-1", "a-1"] := by
    decide +kernel
  have honce := (h redialed List.prefix_rfl).once
  rw [show outboundKeys (Books.tasks _) = _ from hkeys] at honce
  exact absurd honce (by decide)

end LanNode

end ClipBridge
