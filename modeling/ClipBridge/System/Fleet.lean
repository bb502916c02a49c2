import ClipBridge.System.World

/-!
# Any number of clients and the relay

The devices of all groups at one relay. Each device runs the client of `World`, and they share the
relay; other connections are there too, whose frames are anything at all.

* `Fleet.step`, `Fleet.run` — the machine. A device's own event is a step of its `World`, on the
  relay of the fleet.
* `Fleet.view` — the world as one device knows it. `seenBy` — what an event of the fleet is there.
* `refines` — every device's view goes through a run of `World`, with the device's own events, so
  that what holds of every run of one client holds of every device of a fleet.
-/

namespace ClipBridge

open Relay (ConnId SocketAddrText)

structure Fleet (D : Type) where
  relay : Relay
  /-- What each device holds itself. The relay of the fleet stands in for the one in it. -/
  devices : D → World
  /-- The device that dialled a connection. -/
  owner : ConnId → Option D

namespace Fleet

variable {D : Type}

def init : Fleet D := ⟨Relay.init, fun _ => World.init, fun _ => none⟩

inductive Event (D : Type) where
  /-- A device moves, or the relay's task reads the next frame that the device wrote. -/
  | device (d : D) (e : World.Event)
  /-- The relay moves: any event but a frame on a connection of a device. -/
  | relay (e : Relay.Event)

/-- The world as device `d` knows it. -/
def view (f : Fleet D) (d : D) : World := { f.devices d with relay := f.relay }

def framesOwned (f : Fleet D) : Relay.Event → Bool
  | .frame cid _ _ => (f.owner cid).isSome
  | _ => false

/-- Device `d` has moved, to the world `w`. -/
def moved [DecidableEq D] (f : Fleet D) (d : D) (w : World) : Fleet D where
  relay := w.relay
  devices := Function.update f.devices d w
  owner cid := if cid ∈ w.mine then some d else f.owner cid

theorem view_moved_self [DecidableEq D] (f : Fleet D) (d : D) (w : World) :
    (f.moved d w).view d = w := by
  simp only [view, moved, Function.update_self]

theorem view_moved_ne [DecidableEq D] (f : Fleet D) {d d' : D} (hd : d' ≠ d) (w : World) :
    (f.moved d w).view d' = { f.view d' with relay := w.relay } := by
  simp only [view, moved, Function.update_of_ne hd]

/-- An event that is not the relay's alone. -/
def isOwn : World.Event → Bool
  | .relay _ => false
  | _ => true

section

variable [DecidableEq D] [SocketAddrText] [Aead] [ClipJson]

def step (cfg : D → ClientConfig) (f : Fleet D) : Event D → Fleet D
  | .device d e => if isOwn e then f.moved d ((f.view d).step (cfg d) e) else f
  | .relay e => if f.framesOwned e then f else { f with relay := f.relay.step e }

/-- The fleet after a list of events. -/
abbrev run (cfg : D → ClientConfig) (es : List (Event D)) : Fleet D :=
  Machine.run (step cfg) init es

end

/-! ## Connections belong to one device -/

structure Owned (f : Fleet D) : Prop where
  mine : ∀ d cid, cid ∈ (f.devices d).mine ↔ f.owner cid = some d
  handedOut : ∀ cid d, f.owner cid = some d → cid < f.relay.hub.connSeq

theorem owned_init : Owned (init : Fleet D) where
  mine := by simp [init, World.init]
  handedOut := by simp [init]

variable [DecidableEq D] [SocketAddrText] [Aead] [ClipJson]

/-- Only a dial adds a connection to a client's own, and it is a new one. -/
theorem mine_step (cfg : ClientConfig) (w : World) (e : World.Event) :
    (w.step cfg e).mine = w.mine ∨
      (w.step cfg e).mine = w.relay.hub.connSeq :: w.mine ∧
        (w.step cfg e).relay.hub.connSeq = w.relay.hub.connSeq + 1 := by
  cases e with
  | dial egress =>
      simp only [World.step, World.onDial]
      cases w.session with
      | some cid => exact Or.inl rfl
      | none => exact Or.inr ⟨rfl, rfl⟩
  | relay e =>
      simp only [World.step]
      split <;> exact Or.inl rfl
  | sendClip payload nonce =>
      refine Or.inl ?_
      simp only [World.step, World.onSendClip]
      cases w.session with
      | none => rfl
      | some cid =>
          dsimp only
          split
          · unfold World.onHangUp
            split <;> rfl
          · rfl
  | fetchRecent =>
      simp only [World.step, World.onFetchRecent]
      split <;> exact Or.inl rfl
  | advertise candidateNetworks =>
      refine Or.inl ?_
      simp only [World.step, World.onAdvertise]
      split
      · rfl
      · split <;> rfl
  | arrive cid now =>
      refine Or.inl ?_
      simp only [World.step, World.onArrive]
      split
      · split <;> rfl
      · rfl
  | handle lags =>
      simp only [World.step, World.onHandle]
      split <;> exact Or.inl rfl
  | lanInbound lag c => exact Or.inl rfl
  | hangUp state =>
      simp only [World.step, World.onHangUp]
      split <;> exact Or.inl rfl

theorem connSeq_le_world_step (cfg : ClientConfig) (w : World) (e : World.Event) :
    w.relay.hub.connSeq ≤ (w.step cfg e).relay.hub.connSeq := by
  rw [World.relay_step]
  cases w.relayEvent e with
  | none => exact Nat.le_refl _
  | some r => exact Relay.connSeq_le_step w.relay r

theorem Owned.device {cfg : ClientConfig} {f : Fleet D} (h : f.Owned) (d : D) (e : World.Event) :
    (f.moved d ((f.view d).step cfg e)).Owned := by
  have hmine : ∀ cid, cid ∈ ((f.view d).step cfg e).mine →
      cid ∈ (f.devices d).mine ∨ cid = f.relay.hub.connSeq := by
    intro cid hcid
    rcases mine_step cfg (f.view d) e with heq | ⟨heq, -⟩
    · rw [heq] at hcid
      exact Or.inl hcid
    · rw [heq] at hcid
      exact (List.mem_cons.1 hcid).symm
  have hkept : ∀ cid, cid ∈ (f.devices d).mine → cid ∈ ((f.view d).step cfg e).mine := by
    intro cid hcid
    rcases mine_step cfg (f.view d) e with heq | ⟨heq, -⟩
    · rw [heq]
      exact hcid
    · rw [heq]
      exact List.mem_cons_of_mem _ hcid
  constructor
  · intro d' cid
    unfold moved
    dsimp only
    by_cases hd : d' = d
    · subst hd
      rw [Function.update_self]
      by_cases hcid : cid ∈ ((f.view d').step cfg e).mine
      · simp [hcid]
      · have hnot : cid ∉ (f.devices d').mine := fun hin => hcid (hkept cid hin)
        simp only [hcid, if_false, false_iff]
        exact fun hown => hnot ((h.mine d' cid).2 hown)
    · rw [Function.update_of_ne hd]
      by_cases hcid : cid ∈ ((f.view d).step cfg e).mine
      · rw [if_pos hcid, Option.some.injEq, eq_comm, iff_false_right hd, h.mine]
        intro hown
        rcases hmine cid hcid with hin | rfl
        · rw [(h.mine d cid).1 hin, Option.some.injEq] at hown
          exact hd hown.symm
        · exact Nat.lt_irrefl _ (h.handedOut _ d' hown)
      · rw [if_neg hcid, h.mine]
  · intro cid d' hown
    unfold moved at hown ⊢
    dsimp only at hown ⊢
    have hle : f.relay.hub.connSeq ≤ ((f.view d).step cfg e).relay.hub.connSeq :=
      connSeq_le_world_step cfg (f.view d) e
    have hold : ∀ d'', f.owner cid = some d'' →
        cid < ((f.view d).step cfg e).relay.hub.connSeq := fun d'' hown' =>
      Nat.lt_of_lt_of_le (h.handedOut cid d'' hown') hle
    by_cases hcid : cid ∈ ((f.view d).step cfg e).mine
    · rcases mine_step cfg (f.view d) e with heq | ⟨heq, hseq⟩
      · rw [heq] at hcid
        exact hold d ((h.mine d cid).1 hcid)
      · rw [heq] at hcid
        rcases List.mem_cons.1 hcid with rfl | hin
        · rw [hseq]
          exact Nat.lt_succ_self _
        · exact hold d ((h.mine d cid).1 hin)
    · rw [if_neg hcid] at hown
      exact hold d' hown

theorem owned_step (cfg : D → ClientConfig) (f : Fleet D) (e : Event D) (h : f.Owned) :
    (step cfg f e).Owned := by
  cases e with
  | device d e =>
      simp only [step]
      split
      · exact h.device d e
      · exact h
  | relay e =>
      simp only [step]
      split
      · exact h
      · exact ⟨h.mine, fun cid d hown =>
          Nat.lt_of_lt_of_le (h.handedOut cid d hown) (Relay.connSeq_le_step f.relay e)⟩

/-! ## Every device runs the client -/

/-- What an event of the fleet is in the world of device `d`. -/
def seenBy (f : Fleet D) (d : D) : Event D → Option World.Event
  | .device d' e =>
      if ¬ isOwn e then none
      else if d' = d then some e
      else ((f.view d').relayEvent e).map .relay
  | .relay e => if f.framesOwned e then none else some (.relay e)

/-- The events of `d` itself. -/
def ownEvent (d : D) : Event D → Option World.Event
  | .device d' e => if d' = d ∧ isOwn e then some e else none
  | .relay _ => none

omit [DecidableEq D] [SocketAddrText] [Aead] [ClipJson] in
/-- A frame that another device's client writes is not one of `d`'s. -/
theorem framesMine_relayEvent {f : Fleet D} (h : f.Owned) {d d' : D} (hd : d' ≠ d)
    {e : World.Event} (he : isOwn e) {r : Relay.Event} (hr : (f.view d').relayEvent e = some r) :
    (f.view d).framesMine r = false := by
  cases e with
  | relay e => simp [isOwn] at he
  | dial egress =>
      simp only [World.relayEvent] at hr
      split at hr
      · cases hr
        rfl
      · cases hr
  | arrive cid now =>
      simp only [World.relayEvent] at hr
      split at hr
      · next hcid =>
          obtain ⟨out, -, rfl⟩ := Option.map_eq_some_iff.1 hr
          have hown : f.owner cid = some d' := (h.mine d' cid).1 hcid
          have hnot : cid ∉ (f.devices d).mine := fun hin => by
            rw [(h.mine d cid).1 hin, Option.some.injEq] at hown
            exact hd hown.symm
          simpa [World.framesMine, view] using hnot
      · cases hr
  | sendClip _ _ | fetchRecent | advertise _ | handle _ | lanInbound _ _ | hangUp _ => cases hr

/-- **One event of the fleet is at most one event of a device's world.** -/
theorem view_step (cfg : D → ClientConfig) {f : Fleet D} (h : f.Owned) (d : D) (e : Event D) :
    (step cfg f e).view d = (f.seenBy d e).elim (f.view d) ((f.view d).step (cfg d)) := by
  cases e with
  | device d' e =>
      by_cases he : isOwn e
      · simp only [step, seenBy, if_pos he, if_neg (not_not_intro he)]
        by_cases hd : d' = d
        · subst hd
          rw [if_pos rfl, Option.elim_some, view_moved_self]
        · rw [if_neg hd, view_moved_ne f (Ne.symm hd), World.relay_step]
          cases hr : (f.view d').relayEvent e with
          | none => rfl
          | some r =>
              have hframes : ¬ (f.view d).framesMine r := by
                rw [framesMine_relayEvent h hd he hr]
                exact Bool.false_ne_true
              have hstep : (f.view d).step (cfg d) (.relay r) =
                  { f.view d with relay := f.relay.step r } := if_neg hframes
              exact hstep.symm
      · simp only [step, seenBy, if_neg he, if_pos he, Option.elim_none]
  | relay e =>
      simp only [step, seenBy]
      by_cases he : f.framesOwned e
      · rw [if_pos he, if_pos he, Option.elim_none]
      · rw [if_neg he, if_neg he, Option.elim_some, World.step, if_neg ?_]
        · rfl
        · intro hmine
          cases e with
          | frame cid now frame =>
              have hin : cid ∈ (f.devices d).mine := by simpa [World.framesMine, view] using hmine
              have hown := (h.mine d cid).1 hin
              simp [framesOwned, hown] at he
          | connect | broadcast | snapshot | linkDown | stop =>
              simp [World.framesMine] at hmine

omit [SocketAddrText] [Aead] [ClipJson] in
theorem filter_seenBy (f : Fleet D) (d : D) (e : Event D) :
    (f.seenBy d e).toList.filter isOwn = (ownEvent d e).toList := by
  cases e with
  | device d' e =>
      by_cases he : isOwn e
      · by_cases hd : d' = d
        · simp [seenBy, ownEvent, he, hd]
        · cases hr : (f.view d').relayEvent e <;> simp [seenBy, ownEvent, hd, hr, isOwn]
      · simp [seenBy, ownEvent, he]
  | relay e =>
      by_cases he : f.framesOwned e <;> simp [seenBy, ownEvent, he, isOwn]

/-- **Every device of a fleet runs the client of `World`**: what it knows after any run of the
fleet is a run of its own world, with exactly its own events, in order, among the relay's. -/
theorem refines (cfg : D → ClientConfig) (es : List (Event D)) (d : D) :
    ∃ ws, (run cfg es).view d = World.run (cfg d) ws ∧
      ws.filter isOwn = es.filterMap (ownEvent d) := by
  induction es using List.reverseRecOn with
  | nil => exact ⟨[], rfl, rfl⟩
  | append_singleton es e ih =>
      obtain ⟨ws, hview, hown⟩ := ih
      have howned : (run cfg es).Owned := Machine.invariant_run (owned_step cfg) owned_init es
      refine ⟨ws ++ ((run cfg es).seenBy d e).toList, ?_, ?_⟩
      · rw [run, Machine.run_concat, view_step cfg howned, World.run, Machine.run_append]
        cases hseen : (run cfg es).seenBy d e with
        | none => exact hview
        | some w =>
            show ((run cfg es).view d).step (cfg d) w = (World.run (cfg d) ws).step (cfg d) w
            rw [hview]
      · rw [List.filter_append, hown, filter_seenBy, List.filterMap_append]
        cases hevent : ownEvent d e <;> simp [hevent]

end Fleet

end ClipBridge
