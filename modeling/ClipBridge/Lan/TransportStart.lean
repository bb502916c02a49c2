import ClipBridge.Core.Crypto
import ClipBridge.Lan.Node

/-!
# Starting a transport, and what a failed start leaves

Following `start_transport`, `TransportGuard` and the lifecycle task of `LanNode::spawn` in
`core/src/lan.rs`. A start binds a listener, publishes its port, makes an mDNS daemon, registers
a service with it and browses. Each step can fail, and the lifecycle task then tries again a second
later.

* A daemon is a thread of its own. It goes on when its handle is dropped, and ends when it is
  told to shut down.
* `startTransport_cases` — a start fails before its port is published, or leaves the port behind,
  or comes to its end.
* `NothingLeft` — no daemon but that of the transport that is up, and no port and no candidates
  where none is up.
* `nothingLeft_iff` — that holds through a run exactly if every start that fails does so before its
  port is published, and every daemon takes the request to shut down.
-/

namespace ClipBridge

open Relay (IpAddr SocketAddr SocketAddrText)

/-! ## Daemons -/

def serviceType : String := "_clipbridge._tcp.local."

/-- The port of a listener: one bound to port 0 gets another one. -/
abbrev BoundPort := { port : UInt16 // port ≠ 0 }

/-- What is registered with mDNS. -/
structure MdnsService where
  tyDomain : String
  instanceName : String
  hostname : String
  port : UInt16
  properties : List (String × String)
  deriving DecidableEq, Repr

/-- The thread of a `ServiceDaemon`. -/
structure MdnsDaemon where
  id : Nat
  services : List MdnsService
  browsed : List String
  deriving DecidableEq, Repr

/-- What the transports of a node share with everybody, and the daemons that run. -/
structure TransportHost where
  port : UInt16
  daemons : List MdnsDaemon
  spawned : Nat
  deriving DecidableEq, Repr

structure TransportGuard where
  port : BoundPort
  daemon : Nat
  deriving DecidableEq, Repr

/-- How each step of a start turns out. -/
structure StartOutcome where
  bind : Except IoError Unit
  localAddr : Except IoError BoundPort
  daemonNew : Except String Unit
  /-- Four random bytes. -/
  suffix : Bytes
  serviceInfoNew : Except String Unit
  register : Except String Unit
  browse : Except String Unit

def serviceInfoNew (cfg : LanConfig) (suffix : Bytes) (port : UInt16) : MdnsService :=
  let instanceName := String.ofList (shortId cfg.selfDeviceId ++ '-' :: hexBytes suffix)
  { tyDomain := serviceType
    instanceName
    hostname := "clipbridge-" ++ instanceName ++ ".local."
    port
    properties := [("v", toString protoVersion), ("gid", cfg.fingerprint),
      ("did", cfg.selfDeviceId)] }

namespace TransportHost

def new : TransportHost := ⟨0, [], 0⟩

/-- `ServiceDaemon::new`. -/
def serviceDaemonNew (h : TransportHost) : TransportHost :=
  { h with daemons := h.daemons ++ [⟨h.spawned, [], []⟩], spawned := h.spawned + 1 }

/-- A command that the daemon takes. -/
def command (h : TransportHost) (id : Nat) (f : MdnsDaemon → MdnsDaemon) : TransportHost :=
  { h with daemons := h.daemons.map fun d => if d.id = id then f d else d }

def shutdown (h : TransportHost) (id : Nat) : TransportHost :=
  { h with daemons := h.daemons.filter (·.id ≠ id) }

/-- An early return drops what has been made so far, and the handle of the daemon with it. -/
def startTransport (cfg : LanConfig) (outcome : StartOutcome) (h : TransportHost) :
    Except LanError TransportGuard × TransportHost :=
  match outcome.bind with
  | .error e => (.error (.io e), h)
  | .ok () =>
      match outcome.localAddr with
      | .error e => (.error (.io e), h)
      | .ok boundPort =>
          let h := { h with port := boundPort.1 }
          match outcome.daemonNew with
          | .error e => (.error (.mdns e), h)
          | .ok () =>
              let daemon := h.spawned
              let h := h.serviceDaemonNew
              match outcome.serviceInfoNew with
              | .error e => (.error (.mdns e), h)
              | .ok () =>
                  let service := serviceInfoNew cfg outcome.suffix boundPort.1
                  match outcome.register with
                  | .error e => (.error (.mdns e), h)
                  | .ok () =>
                      let h := h.command daemon fun d =>
                        { d with services := d.services ++ [service] }
                      match outcome.browse with
                      | .error e => (.error (.mdns e), h)
                      | .ok () =>
                          let h := h.command daemon fun d =>
                            { d with browsed := d.browsed ++ [serviceType] }
                          (.ok ⟨boundPort, daemon⟩, h)

/-- `TransportGuard::drop`: whether the daemon takes the request to shut down. -/
def dropGuard (h : TransportHost) (guard : TransportGuard) (taken : Bool) : TransportHost :=
  if taken then h.shutdown guard.daemon else h

end TransportHost

/-! ## What is advertised -/

/-- The loop of `local_private_candidate_networks`; `local_private_networks` gives the networks. -/
def localPrivateCandidateNetworks [SocketAddrText] (port : UInt16)
    (candidates : List LanCandidate) : List LocalNetwork → List LanCandidate
  | [] => candidates
  | network :: rest =>
      let s := SocketAddrText.display ⟨network.ip, port, 0⟩
      if (candidates.map (·.addr)).contains s then
        localPrivateCandidateNetworks port candidates rest
      else localPrivateCandidateNetworks port (candidates ++ [⟨s, network.prefixLen⟩]) rest

def advertiseCandidateNetworks [SocketAddrText] (networks : List LocalNetwork) (port : UInt16) :
    List LanCandidate :=
  if port = 0 then [] else localPrivateCandidateNetworks port [] networks

/-! ## The lifecycle task -/

inductive TransportPhase where
  /-- `spawn` brings up the first transport, if the host starts active. -/
  | spawning
  /-- `spawn` has returned an error. -/
  | failed
  | up (guard : TransportGuard)
  /-- The flag was off; the guard is dropped next. -/
  | suspending (guard : TransportGuard)
  /-- The guard is dropped; the port is next. -/
  | dropped
  /-- Waits for the flag to be on. -/
  | down
  | starting
  /-- Sleeps a second after a start that failed. -/
  | retrying
  deriving DecidableEq, Repr

structure NodeTransport where
  lanActive : Bool
  host : TransportHost
  phase : TransportPhase
  deriving DecidableEq, Repr

inductive TransportEvent where
  | setLanActive (enabled : Bool)
  /-- The lifecycle task goes on: how the steps of a start turn out, and whether a daemon takes the
  request to shut down. -/
  | lifecycle (outcome : StartOutcome) (taken : Bool)

namespace TransportPhase

/-- The daemon of the transport that is up. -/
def daemon : TransportPhase → Option Nat
  | up guard | suspending guard => some guard.daemon
  | _ => none

/-- No transport is up, and none is being dropped. -/
def idle : TransportPhase → Bool
  | up _ | suspending _ | dropped => false
  | _ => true

end TransportPhase

namespace NodeTransport

def init (active : Bool) : NodeTransport := ⟨active, .new, .spawning⟩

/-- A start, and what comes after it. -/
def start (cfg : LanConfig) (n : NodeTransport) (outcome : StartOutcome)
    (onError : TransportPhase) : NodeTransport :=
  match n.host.startTransport cfg outcome with
  | (.ok guard, host) => { n with host, phase := .up guard }
  | (.error _, host) => { n with host, phase := onError }

def onLifecycle (cfg : LanConfig) (n : NodeTransport) (outcome : StartOutcome) (taken : Bool) :
    NodeTransport :=
  match n.phase with
  | .spawning => if n.lanActive then n.start cfg outcome .failed else { n with phase := .down }
  | .failed => n
  | .up guard => if n.lanActive then n else { n with phase := .suspending guard }
  | .suspending guard => { n with host := n.host.dropGuard guard taken, phase := .dropped }
  | .dropped => { n with host := { n.host with port := 0 }, phase := .down }
  | .down => if n.lanActive then { n with phase := .starting } else n
  | .starting => n.start cfg outcome .retrying
  | .retrying => { n with phase := .down }

def step (cfg : LanConfig) (n : NodeTransport) : TransportEvent → NodeTransport
  | .setLanActive enabled => { n with lanActive := enabled }
  | .lifecycle outcome taken => n.onLifecycle cfg outcome taken

abbrev run (cfg : LanConfig) (active : Bool) (events : List TransportEvent) : NodeTransport :=
  Machine.run (step cfg) (init active) events

end NodeTransport

/-! ## How a start ends -/

/-- The start fails before it publishes its port. -/
def StartOutcome.early (outcome : StartOutcome) : Bool :=
  !(outcome.bind.isOk && outcome.localAddr.isOk)

/-- No step fails after the port is published. -/
def StartOutcome.completes (outcome : StartOutcome) : Bool :=
  outcome.daemonNew.isOk && outcome.serviceInfoNew.isOk && outcome.register.isOk &&
    outcome.browse.isOk

namespace TransportHost

variable (cfg : LanConfig)

/-- The ids of the daemons that run. -/
def ids (h : TransportHost) : List Nat := h.daemons.map (·.id)

@[simp] theorem ids_serviceDaemonNew (h : TransportHost) :
    h.serviceDaemonNew.ids = h.ids ++ [h.spawned] := by
  simp [ids, serviceDaemonNew]

@[simp] theorem ids_command {f : MdnsDaemon → MdnsDaemon} (hf : ∀ d, (f d).id = d.id)
    (h : TransportHost) (id : Nat) : (h.command id f).ids = h.ids := by
  simp only [ids, command, List.map_map]
  refine List.map_congr_left fun d _ => ?_
  show (if d.id = id then f d else d).id = d.id
  split
  · exact hf d
  · rfl

theorem ids_shutdown {h : TransportHost} {id : Nat} (hids : h.ids = [id]) :
    (h.shutdown id).ids = [] := by
  have hall : ∀ d ∈ h.daemons, d.id = id := fun d hd =>
    List.mem_singleton.1 (hids ▸ List.mem_map_of_mem hd)
  have hnone : h.daemons.filter (fun d => decide (d.id ≠ id)) = [] :=
    List.filter_eq_nil_iff.2 fun d hd => by simp [hall d hd]
  rw [ids, shutdown, hnone]
  rfl

/-- **A start fails before it publishes its port and leaves the host as it was; or it fails later,
and leaves its port behind and its daemon if there is one; or it comes to its end.** -/
theorem startTransport_cases (outcome : StartOutcome) (h : TransportHost) :
    (outcome.early = true ∧ ∃ e, h.startTransport cfg outcome = (.error e, h)) ∨
    (outcome.early = false ∧ outcome.completes = false ∧ ∃ e h',
      h.startTransport cfg outcome = (.error e, h') ∧ h'.port ≠ 0 ∧
        h'.ids = h.ids ++ if outcome.daemonNew.isOk then [h.spawned] else []) ∨
    (outcome.early = false ∧ outcome.completes = true ∧ ∃ guard h',
      h.startTransport cfg outcome = (.ok guard, h') ∧ guard.daemon = h.spawned ∧
        h'.port = guard.port.1 ∧ h'.ids = h.ids ++ [h.spawned]) := by
  obtain ⟨bind, localAddr, daemonNew, suffix, service, register, browse⟩ := outcome
  cases bind with
  | error e => exact .inl ⟨rfl, .io e, rfl⟩
  | ok =>
      cases localAddr with
      | error e => exact .inl ⟨rfl, .io e, rfl⟩
      | ok port =>
          refine .inr ?_
          cases daemonNew with
          | error e =>
              exact .inl ⟨rfl, rfl, .mdns e, _, rfl, port.2, (List.append_nil _).symm⟩
          | ok =>
              cases service with
              | error e =>
                  exact .inl ⟨rfl, rfl, .mdns e, _, rfl, port.2, ids_serviceDaemonNew _⟩
              | ok =>
                  cases register with
                  | error e =>
                      exact .inl ⟨rfl, rfl, .mdns e, _, rfl, port.2, ids_serviceDaemonNew _⟩
                  | ok =>
                      cases browse with
                      | error e =>
                          refine .inl ⟨rfl, rfl, .mdns e, _, rfl, port.2, ?_⟩
                          exact (ids_command (by intro d; rfl) _ _).trans (ids_serviceDaemonNew _)
                      | ok =>
                          refine .inr ⟨rfl, rfl, _, _, rfl, rfl, rfl, ?_⟩
                          refine (ids_command (by intro d; rfl) _ _).trans ?_
                          exact (ids_command (by intro d; rfl) _ _).trans (ids_serviceDaemonNew _)

end TransportHost

/-! ## Nothing is left -/

/-- No daemon runs, and no service is registered, but for the transport that is up. Where none is
up, there is no port, and nothing is advertised. -/
structure NothingLeft [SocketAddrText] (n : NodeTransport) : Prop where
  daemons : n.host.ids = n.phase.daemon.toList
  port : n.phase.idle = true → n.host.port = 0
  candidates : n.phase.idle = true →
    ∀ networks, advertiseCandidateNetworks networks n.host.port = []

namespace NodeTransport

/-- A start that fails does so before it publishes its port, and a daemon takes the request to
shut down. -/
def LeavesNothing (n : NodeTransport) : TransportEvent → Prop
  | .setLanActive _ => True
  | .lifecycle outcome taken =>
      match n.phase with
      | .spawning => n.lanActive = true → outcome.early = true ∨ outcome.completes = true
      | .starting => outcome.early = true ∨ outcome.completes = true
      | .suspending _ => taken = true
      | _ => True

section

variable [SocketAddrText] {n : NodeTransport}

/-- Without a port nothing is advertised. -/
theorem nothingLeft_iff_port : NothingLeft n ↔
    n.host.ids = n.phase.daemon.toList ∧ (n.phase.idle = true → n.host.port = 0) := by
  refine ⟨fun h => ⟨h.daemons, h.port⟩, fun h => ⟨h.1, h.2, fun hidle networks => ?_⟩⟩
  rw [advertiseCandidateNetworks, if_pos (h.2 hidle)]

theorem nothingLeft_init (active : Bool) : NothingLeft (init active) :=
  nothingLeft_iff_port.2 ⟨rfl, fun _ => rfl⟩

/-- A start leaves nothing exactly if it fails early or comes to its end. -/
theorem nothingLeft_start (cfg : LanConfig) (hids : n.host.ids = []) (hport : n.host.port = 0)
    (outcome : StartOutcome) {onError : TransportPhase} (hidle : onError.idle = true)
    (hnone : onError.daemon = none) :
    NothingLeft (n.start cfg outcome onError) ↔
      outcome.early = true ∨ outcome.completes = true := by
  rw [nothingLeft_iff_port]
  unfold start
  rcases n.host.startTransport_cases cfg outcome with ⟨hearly, e, hstart⟩ |
    ⟨hearly, hcompletes, e, h', hstart, hleft, -⟩ |
    ⟨-, hcompletes, guard, h', hstart, hdaemon, -, hids'⟩
  · rw [hstart]
    simp only [hearly, true_or, iff_true]
    exact ⟨by rw [hids, hnone]; rfl, fun _ => hport⟩
  · rw [hstart]
    simp only [hearly, hcompletes, Bool.false_eq_true, or_self, iff_false]
    exact fun h => hleft (h.2 hidle)
  · rw [hstart]
    simp only [hcompletes, or_true, iff_true]
    refine ⟨?_, fun h => by cases h⟩
    rw [hids', hids, ← hdaemon]
    rfl

theorem nothingLeft_step (cfg : LanConfig) (hn : NothingLeft n) (e : TransportEvent) :
    NothingLeft (n.step cfg e) ↔ n.LeavesNothing e := by
  cases e with
  | setLanActive enabled =>
      exact ⟨fun _ => trivial, fun _ => nothingLeft_iff_port.2 ⟨hn.daemons, hn.port⟩⟩
  | lifecycle outcome taken =>
      obtain ⟨lanActive, host, phase⟩ := n
      obtain ⟨hids, hport⟩ := nothingLeft_iff_port.1 hn
      cases phase with
      | spawning =>
          cases lanActive with
          | true =>
              refine (nothingLeft_start cfg hids (hport rfl) outcome rfl rfl).trans ?_
              exact ⟨fun h _ => h, fun h => h rfl⟩
          | false =>
              refine ⟨fun _ h => (by cases h), fun _ => ?_⟩
              exact nothingLeft_iff_port.2 ⟨hids, hport⟩
      | failed => exact ⟨fun _ => trivial, fun _ => hn⟩
      | up guard =>
          refine ⟨fun _ => trivial, fun _ => ?_⟩
          cases lanActive with
          | true => exact hn
          | false => exact nothingLeft_iff_port.2 ⟨hids, hport⟩
      | suspending guard =>
          rw [nothingLeft_iff_port]
          show (host.dropGuard guard taken).ids = [] ∧ _ ↔ taken = true
          cases taken with
          | true =>
              refine ⟨fun _ => rfl, fun _ => ⟨?_, fun h => by cases h⟩⟩
              exact TransportHost.ids_shutdown hids
          | false =>
              refine ⟨fun h => ?_, fun h => by cases h⟩
              cases hids.symm.trans h.1
      | dropped =>
          exact ⟨fun _ => trivial, fun _ => nothingLeft_iff_port.2 ⟨hids, fun _ => rfl⟩⟩
      | down =>
          refine ⟨fun _ => trivial, fun _ => ?_⟩
          cases lanActive with
          | true => exact nothingLeft_iff_port.2 ⟨hids, hport⟩
          | false => exact hn
      | starting => exact nothingLeft_start cfg hids (hport rfl) outcome rfl rfl
      | retrying => exact ⟨fun _ => trivial, fun _ => nothingLeft_iff_port.2 ⟨hids, hport⟩⟩

/-- **Through a run of the lifecycle task nothing is left exactly if every start that fails does so
before it publishes its port, and every daemon takes the request to shut down.** -/
theorem nothingLeft_iff (cfg : LanConfig) (active : Bool) (events : List TransportEvent) :
    (∀ pre, pre <+: events → NothingLeft (run cfg active pre)) ↔
      Machine.Along (step cfg) LeavesNothing (init active) events :=
  Machine.always_iff (I := NothingLeft) (J := fun _ => True) (fun _ _ _ => trivial)
    (fun _ e _ hn => nothingLeft_step cfg hn e) trivial (nothingLeft_init active) events

end

/-- A port, and then no daemon. -/
def noDaemon : StartOutcome where
  bind := .ok ()
  localAddr := .ok ⟨40000, by decide⟩
  daemonNew := .error "Too many open files"
  suffix := [1, 2, 3, 4]
  serviceInfoNew := .ok ()
  register := .ok ()
  browse := .ok ()

theorem noDaemon_leaves_port :
    ¬ ∀ (_ : SocketAddrText) cfg active events pre, pre <+: events →
      NothingLeft (run cfg active pre) := by
  intro h
  let _ := LanNode.sampleAddrText
  have hleft := h LanNode.sampleAddrText LanNode.sampleLanConfig true [.lifecycle noDaemon true]
    _ List.prefix_rfl
  exact absurd (hleft.port rfl) (by decide)

end NodeTransport

end ClipBridge
