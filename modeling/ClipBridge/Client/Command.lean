import ClipBridge.Core.Worker
import ClipBridge.Lan.RunPeer
import Mathlib.Data.List.Destutter
import Mathlib.Data.List.Sort
import Mathlib.Data.String.Basic

/-!
# Commands, and what goes out on the WebSocket

Following `core/src/client.rs`: the commands the host gives the worker, the messages the worker
writes, and the rules for advertising LAN addresses. A command is kept beside its place in the
order of the host's calls, and a message beside the command it carries out.
-/

namespace ClipBridge

inductive Cmd where
  | sendClip (payload : ClipPayload)
  | fetchRecent
  | refreshLan
  | stop
  deriving DecidableEq, Repr

/-- A command beside its place in the order of the calls of `cmd_tx.send`. -/
structure Queued where
  seq : Nat
  cmd : Cmd
  deriving DecidableEq, Repr

inductive WsMessage where
  | text (msg : ClientMessage)
  | ping
  | pong (data : Bytes)
  | close
  deriving DecidableEq, Repr

/-- A message that was written, beside the command it carries out. -/
structure Written where
  msg : WsMessage
  own : Option Nat
  deriving DecidableEq, Repr

/-- What `ws.next()` yields. The text of a frame is parsed at once. -/
inductive WsItem where
  | ended
  | error (reason : String)
  | text (parsed : Except String (ServerMessage RecentClip))
  | ping (data : Bytes)
  | close
  | other
  deriving DecidableEq

/-! ## Times -/

/-- A session that survived this long counts as stable. -/
def reconnectStableSession : Duration := Duration.fromSecs 30

def pingEvery : Duration := Duration.fromSecs 30

def idleTimeout : Duration := Duration.fromSecs 60

/-- How long the relay may take to answer a liveness probe. -/
def livenessProbeTimeout : Duration := Duration.fromSecs 8

def lanAdvertiseRefreshEvery : Duration := Duration.fromSecs 5

def minBackoff : Duration := Duration.fromSecs 1

def maxBackoff : Duration := Duration.fromSecs 30

/-- `tokio::time::Interval`, which skips the ticks it has missed. -/
structure Interval where
  period : Duration
  next : Instant
  deriving DecidableEq, Repr

namespace Interval

/-- An interval whose immediate first tick was consumed. -/
def start (now : Instant) (period : Duration) : Interval := ⟨period, now + period⟩

def due (i : Interval) (now : Instant) : Bool := decide (i.next ≤ now)

def tick (i : Interval) (now : Instant) : Interval :=
  { i with next := now + i.period - (now - i.next) % i.period }

end Interval

/-! ## Advertising -/

/-- By address, then by prefix length. -/
def LanCandidate.le (a b : LanCandidate) : Bool :=
  decide (a.addr < b.addr) || (a.addr == b.addr && decide (a.prefixLen ≤ b.prefixLen))

def normalizeLanCandidateNetworks (candidates : List LanCandidate) : List LanCandidate :=
  (candidates.insertionSort (·.le ·)).destutter (· ≠ ·)

def lanAdvertiseRefreshNeeded (last : Option (List LanCandidate)) (current : List LanCandidate)
    (force : Bool) : Bool :=
  if force then !current.isEmpty
  else
    match last with
    | some last => decide (last ≠ current)
    | none => !current.isEmpty

end ClipBridge
