import ClipBridge.Core.Worker
import ClipBridge.Relay.Replay

/-!
# One client and the relay

The whole of one client's relay path: its worker with a session that comes and goes, the relay
with all its other connections, and the two directions of each socket between them. What the
client writes waits in an outbox until the relay's task reads it, and what the relay sent is
handled frame by frame; both may lag behind as far as they like, and neither is reordered.

* `World.Event` — what can happen next: something at the relay, a step of the client's session
  (following `session` and `apply_session_cmd` in `core/src/client.rs`), a clip of a LAN peer.
* `World.step`, `World.run` — the machine.
* `relayEvent`, `relay_step` — what an event is for the relay, which keeps the relay's invariants
  (`relay_invariant_step`).
* `brings`, `worker_step` — what an event is for the worker.
-/

namespace ClipBridge

open Relay (ConnId Published IpAddr SocketAddrText)

/-- A frame on its way to the relay. A publish is numbered among the device's own. -/
structure Outgoing where
  msg : ClientMessage
  own : Option Nat

structure World where
  relay : Relay
  worker : Worker Published
  /-- The connection of the session that is up. -/
  session : Option ConnId
  /-- How many frames of the session were handled. -/
  handled : Nat
  /-- Every connection this client has dialled. -/
  mine : List ConnId
  outbox : ConnId → List Outgoing
  /-- How many clips this device has published. -/
  ownCount : Nat
  /-- Where in the relay's publish order the own clips ended up. -/
  ownSeq : Nat → Option Nat

namespace World

def init : World where
  relay := Relay.init
  worker := Worker.start
  session := none
  handled := 0
  mine := []
  outbox := fun _ => []
  ownCount := 0
  ownSeq := fun _ => none

inductive Event where
  /-- The relay moves: any event but a frame on a connection of this client. -/
  | relay (e : Relay.Event)
  /-- The client connects; the session opens with `Join` and `FetchRecent`. -/
  | dial (egress : IpAddr)
  /-- The command `SendClip`, with the nonce drawn for it. -/
  | sendClip (payload : ClipPayload) (nonce : Bytes)
  /-- The command `FetchRecent`. -/
  | fetchRecent
  /-- The session advertises its LAN addresses. -/
  | advertise (candidateNetworks : List LanCandidate)
  /-- The relay's task of connection `cid` reads the next frame. -/
  | arrive (cid : ConnId) (now : Instant)
  /-- The session handles the next frame of the relay. -/
  | handle (lags : List Duration)
  /-- The worker takes a clip of a LAN peer. -/
  | lanInbound (lag : Duration) (c : IncomingLanClip)
  /-- The session ends. -/
  | hangUp (state : ConnectionState)

/-! ## The client's steps -/

def write (w : World) (cid : ConnId) (out : Outgoing) : World :=
  { w with outbox := Function.update w.outbox cid (w.outbox cid ++ [out]) }

def onHangUp (w : World) (state : ConnectionState) : World :=
  match w.session with
  | none => w
  | some _ => { w with session := none, worker := w.worker.note (.onState state) }

/-- The frame of the relay that the session handles next. -/
def nextFrame (w : World) : Option (ServerMessage Published) :=
  match w.session with
  | none => none
  | some cid => (w.relay.conns cid).sent[w.handled]?

section

variable [SocketAddrText]

def onDial (cfg : ClientConfig) (w : World) (egress : IpAddr) : World :=
  match w.session with
  | some _ => w
  | none =>
      let cid := w.relay.hub.connSeq
      let worker := { w.worker with
        lanAdvertiseErrorPending := false
        lanAdvertiseDisabled := false }
      { w with
        relay := w.relay.step (.connect egress)
        worker := (worker.note (.onState .connecting)).note (.onState .connected)
        session := some cid
        handled := 0
        mine := cid :: w.mine
        outbox := Function.update w.outbox cid
          [⟨.join cfg.groupId cfg.deviceId, none⟩, ⟨.fetchRecent cfg.groupId, none⟩] }

def onArrive (w : World) (cid : ConnId) (now : Instant) : World :=
  if cid ∈ w.mine then
    match w.outbox cid with
    | [] => w
    | out :: rest =>
        let relay := w.relay.step (.frame cid now (.text (.ok out.msg)))
        let place : Nat → Option Nat :=
          match out.own with
          | none => w.ownSeq
          | some k =>
              if w.relay.accepted.length < relay.accepted.length then
                Function.update w.ownSeq k (some w.relay.accepted.length)
              else w.ownSeq
        { w with relay, outbox := Function.update w.outbox cid rest, ownSeq := place }
  else w

end

section

variable [Aead] [ClipJson]

def onSendClip (cfg : ClientConfig) (w : World) (payload : ClipPayload) (nonce : Bytes) : World :=
  match w.session with
  | none => w
  | some cid =>
      match encrypt cfg.key nonce (ClipJson.toVec payload) with
      | .error _ => w.onHangUp (.error "encrypt failed")
      | .ok (ciphertext, nonce) =>
          { w.write cid ⟨.publish cfg.groupId ciphertext nonce payload.ts, some w.ownCount⟩ with
            worker := w.worker.note (.published w.ownCount)
            ownCount := w.ownCount + 1 }

def onFetchRecent (cfg : ClientConfig) (w : World) : World :=
  match w.session with
  | none => w
  | some cid => w.write cid ⟨.fetchRecent cfg.groupId, none⟩

def onAdvertise (cfg : ClientConfig) (w : World) (candidateNetworks : List LanCandidate) :
    World :=
  match w.session with
  | none => w
  | some cid =>
      if w.worker.lanAdvertiseDisabled then w
      else
        { w.write cid ⟨.lanAdvertise cfg.groupId cfg.deviceId cfg.deviceName
            (candidateNetworks.map (·.addr)) candidateNetworks, none⟩ with
          worker := { w.worker with lanAdvertiseErrorPending := true } }

def onHandle (cfg : ClientConfig) (w : World) (lags : List Duration) : World :=
  match w.nextFrame with
  | none => w
  | some msg => { w with worker := onFrame cfg w.worker lags msg, handled := w.handled + 1 }

end

/-! ## The machine -/

/-- The event is a frame on a connection of this client. -/
def framesMine (w : World) : Relay.Event → Bool
  | .frame cid _ _ => w.mine.contains cid
  | _ => false

@[simp] theorem onHangUp_relay (w : World) (state : ConnectionState) :
    (w.onHangUp state).relay = w.relay := by
  unfold onHangUp
  split <;> rfl

theorem onHangUp_idle (w : World) (state : ConnectionState) :
    w.worker.Idle (w.onHangUp state).worker := by
  unfold onHangUp
  split
  · exact w.worker.idle_refl
  · exact Worker.idle_note (by simp)

variable [SocketAddrText] [Aead] [ClipJson]

def step (cfg : ClientConfig) (w : World) : Event → World
  | .relay e => if w.framesMine e then w else { w with relay := w.relay.step e }
  | .dial egress => w.onDial cfg egress
  | .sendClip payload nonce => w.onSendClip cfg payload nonce
  | .fetchRecent => w.onFetchRecent cfg
  | .advertise candidateNetworks => w.onAdvertise cfg candidateNetworks
  | .arrive cid now => w.onArrive cid now
  | .handle lags => w.onHandle cfg lags
  | .lanInbound lag c => { w with worker := onLanInbound cfg w.worker lag c }
  | .hangUp state => w.onHangUp state

/-- The world after a list of events. -/
abbrev run (cfg : ClientConfig) (es : List Event) : World := Machine.run (step cfg) init es

/-! ## What an event is for the relay -/

/-- The relay's part of an event. -/
def relayEvent (w : World) : Event → Option Relay.Event
  | .relay e => if w.framesMine e then none else some e
  | .dial egress => if w.session.isNone then some (.connect egress) else none
  | .arrive cid now =>
      if cid ∈ w.mine then
        (w.outbox cid).head?.map fun out => .frame cid now (.text (.ok out.msg))
      else none
  | _ => none

theorem relay_step (cfg : ClientConfig) (w : World) (e : Event) :
    (step cfg w e).relay = ((w.relayEvent e).elim w.relay w.relay.step) := by
  cases e with
  | relay e =>
      simp only [step, relayEvent]
      split <;> rfl
  | dial egress =>
      simp only [step, relayEvent, onDial]
      cases w.session <;> rfl
  | sendClip payload nonce =>
      simp only [step, relayEvent, onSendClip]
      split
      · rfl
      · split
        · exact onHangUp_relay w _
        · rfl
  | fetchRecent =>
      simp only [step, relayEvent, onFetchRecent]
      split <;> rfl
  | advertise candidateNetworks =>
      simp only [step, relayEvent, onAdvertise]
      split
      · rfl
      · split <;> rfl
  | arrive cid now =>
      simp only [step, relayEvent, onArrive]
      split
      · cases w.outbox cid <;> rfl
      · rfl
  | handle lags =>
      simp only [step, relayEvent, onHandle]
      split <;> rfl
  | lanInbound lag c => rfl
  | hangUp state => exact onHangUp_relay w state

/-- An invariant of the relay is kept by every event of the world. -/
theorem relay_invariant_step {I : Relay → Prop} (hstep : ∀ r e, I r → I (r.step e))
    (cfg : ClientConfig) (w : World) (e : Event) (h : I w.relay) :
    I (step cfg w e).relay := by
  rw [relay_step]
  cases w.relayEvent e with
  | none => exact h
  | some f => exact hstep _ f h

/-! ## What an event is for the worker -/

/-- The clips an event brings to the worker, with the time that passes before each. -/
def brings (w : World) : Event → List Duration × List (Arrival Published)
  | .handle lags => (lags, (w.nextFrame.map arrivals).getD [])
  | .lanInbound lag c => ([lag], [.lan c])
  | _ => ([], [])

/-- The clips an event brings, each beside the worker that its turn finds. -/
def turnsOf (cfg : ClientConfig) (w : World) (e : Event) :
    List (Worker Published × Arrival Published) :=
  turns cfg w.worker (w.brings e).1 (w.brings e).2

/-- An event either only makes the worker take the clips it brings, or brings none. -/
theorem worker_step (cfg : ClientConfig) (w : World) (e : Event) :
    (step cfg w e).worker = receiveAll cfg w.worker (w.brings e).1 (w.brings e).2 ∨
      (w.brings e).2 = [] ∧ w.worker.Idle (step cfg w e).worker := by
  cases e with
  | relay e =>
      refine Or.inl ?_
      simp only [step, brings, receiveAll]
      split <;> rfl
  | dial egress =>
      refine Or.inr ⟨rfl, ?_⟩
      simp only [step, onDial]
      cases w.session with
      | some cid => exact w.worker.idle_refl
      | none =>
          exact ⟨rfl, rfl, rfl, [.onState .connecting, .onState .connected],
            by simp [Worker.note], by simp⟩
  | sendClip payload nonce =>
      refine Or.inr ⟨rfl, ?_⟩
      simp only [step, onSendClip]
      cases w.session with
      | none => exact w.worker.idle_refl
      | some cid =>
          dsimp only
          split
          · exact w.onHangUp_idle _
          · exact Worker.idle_note (by simp)
  | fetchRecent =>
      refine Or.inl ?_
      simp only [step, brings, onFetchRecent, receiveAll]
      split <;> rfl
  | advertise candidateNetworks =>
      refine Or.inr ⟨rfl, ?_⟩
      simp only [step, onAdvertise]
      cases w.session with
      | none => exact w.worker.idle_refl
      | some cid =>
          dsimp only
          split
          · exact w.worker.idle_refl
          · exact ⟨rfl, rfl, rfl, [], by simp, by simp⟩
  | arrive cid now =>
      refine Or.inl ?_
      simp only [step, brings, onArrive, receiveAll]
      split
      · cases w.outbox cid <;> rfl
      · rfl
  | handle lags =>
      simp only [step, brings, onHandle]
      cases w.nextFrame with
      | none => exact Or.inl rfl
      | some msg => exact onFrame_cases cfg w.worker lags msg
  | lanInbound lag c => exact Or.inl rfl
  | hangUp state => exact Or.inr ⟨rfl, w.onHangUp_idle state⟩

theorem worker_valid_step (cfg : ClientConfig) (w : World) (e : Event) (h : w.worker.Valid) :
    (step cfg w e).worker.Valid := by
  rcases worker_step cfg w e with hw | ⟨-, hw⟩
  · rw [hw]
    exact receiveAll_valid _ h _ _
  · exact h.idle hw

end World

/-! ## Fixed inputs

For runs on fixed inputs: a relay that reads no addresses, and another device of the group. -/

@[reducible] def noAddrText : SocketAddrText where
  parse _ := none
  display _ := ""

/-- The first frames of another device's connection: it joins the group as `"pc"`. -/
def pcJoins (cid : ConnId) : List World.Event :=
  [.relay (.connect (.v4 0x0a000001)),
   .relay (.frame cid 0 (.text (.ok (.join "home" "pc"))))]

/-- Connection `cid` of another device publishes one byte of text. -/
def pcPublishes (cid : ConnId) (byte : UInt8) (ts : UInt64) : World.Event :=
  .relay (.frame cid 0 (.text (.ok (.publish "home" [byte] (List.replicate nonceLen 0) ts))))

/-- The clip of a `pcPublishes`, as publish number `seq`. -/
def pcClip (seq : Nat) (byte : UInt8) (ts : UInt64) : Published :=
  ⟨seq, ⟨[byte], List.replicate nonceLen 0, ts, "pc"⟩⟩

/-- A session of the client opens on connection `cid`: it joins, fetches, and handles both
replies, the second one after `lag`. -/
def opens (cid : ConnId) (now : Instant) (lag : Duration) : List World.Event :=
  [.dial (.v4 0x0a000002), .arrive cid now, .arrive cid now, .handle [], .handle [lag]]

end ClipBridge
