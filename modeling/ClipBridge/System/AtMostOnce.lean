import ClipBridge.System.World

/-!
# Delivery at most once

A clip can reach the worker many times: live from the relay, in the reply that opens every
session, and from a LAN peer. The worker drops a repeat only while its cache remembers the clip,
and the relay keeps clips for far longer than that.

* `AtMostOnce` — no clip was handed to the listener twice.
* `StillKnown` — whatever an event brings again is still remembered.
* `atMostOnce_iff` — a run delivers at most once exactly if this holds at every event.
-/

namespace ClipBridge.World

open Relay (SocketAddrText Published)

/-- No clip, told by its sender and timestamp, was handed to the listener twice. -/
def AtMostOnce (w : World) : Prop := (w.worker.delivered.map Arrival.key).Nodup

section

variable [Aead] [ClipJson]

/-- If the arrival is a readable clip of another device that was delivered before, the worker
still remembers it: it was recorded at most ten seconds ago, and fewer than 128 clips were
recorded since. -/
def KnownIfDelivered (cfg : ClientConfig) (w : Worker Published) (a : Arrival Published) : Prop :=
  a.key.1 ≠ cfg.deviceId → (a.payload cfg).isSome → a.key ∈ w.delivered.map Arrival.key →
    w.Knows a.key

/-- Every clip that the event brings again is still remembered when its turn comes. -/
def StillKnown (cfg : ClientConfig) (w : World) (e : Event) : Prop :=
  ∀ t ∈ w.turnsOf cfg e, KnownIfDelivered cfg t.1 t.2

/-- One turn keeps deliveries distinct if a clip delivered before is still remembered. -/
theorem nodup_receive {cfg : ClientConfig} {w : Worker Published} (h : w.Valid)
    {a : Arrival Published} (hnodup : (w.delivered.map Arrival.key).Nodup)
    (hknown : KnownIfDelivered cfg w a) :
    ((receive cfg w a).delivered.map Arrival.key).Nodup := by
  by_cases hd : Delivers cfg w a
  · have hnew : a.key ∉ w.delivered.map Arrival.key :=
      fun hold => hd.unknown (hknown hd.foreign hd.readable hold)
    rw [receive_delivered_of h hd, List.map_append, List.nodup_append]
    refine ⟨hnodup, by simp, fun k hk k' hk' heq => hnew ?_⟩
    rw [List.map_singleton, List.mem_singleton] at hk'
    rwa [← hk', ← heq]
  · rw [receive_delivered_of_not h hd]
    exact hnodup

variable [SocketAddrText]

theorem atMostOnce_step (cfg : ClientConfig) (w : World) (e : Event) (hknown : StillKnown cfg w e)
    (h : w.worker.Valid ∧ w.AtMostOnce) :
    (step cfg w e).worker.Valid ∧ (step cfg w e).AtMostOnce := by
  refine ⟨worker_valid_step cfg w e h.1, ?_⟩
  unfold AtMostOnce
  rcases worker_step cfg w e with hw | ⟨-, hw⟩
  · rw [hw]
    exact (receiveAll_induction
      (I := fun _ w => w.Valid ∧ (w.delivered.map Arrival.key).Nodup) (P := KnownIfDelivered cfg)
      (fun _ w d a hP hI => ⟨receive_valid (hI.1.wait d) a, nodup_receive (hI.1.wait d) hI.2 hP⟩)
      [] _ _ hknown ⟨h.1, h.2⟩).2
  · rw [hw.delivered]
    exact h.2

/-- A clip that comes again when it is forgotten is delivered again. -/
theorem stillKnown_of_step {cfg : ClientConfig} {w : World} {e : Event} (h : w.worker.Valid)
    (honce : (step cfg w e).AtMostOnce) : StillKnown cfg w e := by
  intro t ht hforeign hread hold
  by_contra hknows
  rcases worker_step cfg w e with hw | ⟨hnone, -⟩
  · obtain ⟨hvalid, hpre⟩ := turns_spec h _ _ ht
    unfold AtMostOnce at honce
    rw [hw] at honce
    have hnodup := honce.sublist (hpre.map Arrival.key).sublist
    rw [receive_delivered_of hvalid ⟨hforeign, hknows, hread⟩, List.map_append,
      List.nodup_append] at hnodup
    exact hnodup.2.2 _ hold _ (by simp) rfl
  · rw [turnsOf, hnone] at ht
    simp [turns] at ht

theorem delivered_prefix_step (cfg : ClientConfig) (w : World) (e : Event)
    (h : w.worker.Valid) : w.worker.delivered <+: (step cfg w e).worker.delivered := by
  rcases worker_step cfg w e with hw | ⟨-, hw⟩
  · rw [hw]
    exact receiveAll_delivered_extends h _ _
  · rw [hw.delivered]

theorem worker_valid_run (cfg : ClientConfig) (es : List Event) : (run cfg es).worker.Valid :=
  Machine.invariant_run (I := fun w : World => w.worker.Valid) (worker_valid_step cfg)
    Worker.valid_start es

/-- **A run delivers every clip at most once exactly if every clip that comes again is still
remembered.** -/
theorem atMostOnce_iff (cfg : ClientConfig) (es : List Event) :
    (run cfg es).AtMostOnce ↔ Machine.Along (step cfg) (StillKnown cfg) init es := by
  constructor
  · intro h
    induction es using List.reverseRecOn with
    | nil => trivial
    | append_singleton es e ih =>
        have hvalid := worker_valid_run cfg es
        unfold run at h
        rw [Machine.run_concat] at h
        refine Machine.along_concat.2 ⟨ih ?_, stillKnown_of_step hvalid h⟩
        exact h.sublist ((delivered_prefix_step cfg _ e hvalid).map Arrival.key).sublist
  · intro h
    have hinit : init.worker.Valid ∧ init.AtMostOnce :=
      ⟨Worker.valid_start, by simp [AtMostOnce, init, Worker.start, Worker.delivered]⟩
    exact (Machine.invariant_along
      (I := fun w : World => w.worker.Valid ∧ w.AtMostOnce) (atMostOnce_step cfg) hinit h).2

end

/-- A clip that both of two sessions, eleven seconds apart, get from the relay. -/
def reconnectAfterTtl : List Event :=
  pcJoins 1 ++ [pcPublishes 1 65 7] ++ opens 2 0 0 ++ [.hangUp .disconnected] ++
    opens 3 (Duration.fromSecs 11) (Duration.fromSecs 11)

theorem reconnectAfterTtl_not_once :
    ¬ (@run noAddrText clearAead textJson sampleConfig reconnectAfterTtl).AtMostOnce := by
  unfold AtMostOnce
  decide

end ClipBridge.World
