import Rfrp.Client.RunProxy
import Mathlib.Algebra.Group.Nat.Defs

/-!
# The reconnect loop

`rfrp_client` of `rfrp_client/src/lib.rs`. Each call of `run_proxy` makes its own channel and maps,
and the tasks it spawns hold clones of them for as long as they run, past the end of the call. So
all calls share one heap: channels with their frame writers, connection maps, and internal
connections live in arenas, and a task reaches what it captured through a reference.
-/

namespace Rfrp

def maxReconnectDelay : Nat := 60

def initialReconnectDelay : Nat := 3

/-- `u64` arithmetic that stops at the largest value. -/
def saturating (n : Nat) : Nat := min n (2 ^ 64 - 1)

def calcReconnectDelay (attempt : UInt32) : Nat :=
  min (saturating (initialReconnectDelay * saturating (2 ^ (attempt.toNat - 1)))) maxReconnectDelay

theorem calcReconnectDelay_bounds (attempt : UInt32) :
    initialReconnectDelay ≤ calcReconnectDelay attempt ∧
      calcReconnectDelay attempt ≤ maxReconnectDelay := by
  have power : 1 ≤ 2 ^ (attempt.toNat - 1) := Nat.one_le_two_pow
  unfold calcReconnectDelay saturating initialReconnectDelay maxReconnectDelay
  omega

inductive LoopMain
  -- `TcpStream::connect(server_addr).await` and the handshake
  | connecting
  -- `run_proxy(remote, config).await`, call `k`
  | running (k : Nat)
  | sleeping (seconds : Nat)
deriving DecidableEq, Repr

/-- What one call of `run_proxy` keeps in its main loop and its heartbeat. `tunnel` is the frame
channel of `tx_to_server`, with the server connection behind it. -/
structure Call where
  main : ClientMain
  received : List RfrpFrame
  proxyConfigs : DashMap UInt32 ClientInfo
  proxyConns : DashMap UInt32 Nat
  cachedConns : Option (UInt32 × Nat)
  ping : PingTask
  pingAborted : Bool
  tunnel : Nat

/-- What the tasks of an internal connection captured beside the map in its `Link`: the
`tx_to_server` of the read task. The call that opened it is remembered; nothing reads it back. -/
structure Captured where
  tunnel : Nat
  call : Nat
deriving DecidableEq, Repr

/-- `holders` names, for each map, the call whose `proxy_conns` keeps it. `sent` and `delivered`
remember which call's tasks queued a frame, and which call's main loop handed what to which internal
connection; nothing reads them back. -/
structure Reconnect where
  config : List ClientInfo
  loop : LoopMain
  attempt : UInt32
  calls : List Call
  tunnels : List FrameWriter
  maps : List (DashMap UInt64 Nat)
  holders : List Nat
  links : List (Link String)
  captured : List Captured
  sent : List (Nat × RfrpFrame)
  delivered : List (Nat × DataInfo × Nat)

inductive ReconnectAct
  | connectFailed
  -- the handshake fails and `run_proxy` returns before it spawns anything
  | handshakeFailed
  | connected (sndBuf : Nat)
  | returned
  | wake
  -- the main loop or the heartbeat of call `k`
  | call (k : Nat) (a : ClientAct)
  -- the frame writer that call `k` spawned
  | writer (k : Nat) (a : WriterAct)
  -- a task of an internal connection, or its service
  | task (a : EndpointAct)

def ClientAct.isEndpoint : ClientAct → Bool
  | .endpoint _ => true
  | _ => false

def EndpointAct.link? : EndpointAct → Option Nat
  | .conn n _ | .sendData n | .sendDataErr n | .remove n | .finish n => some n
  | .writer _ => none

/-- The state of `run_proxy` in this call. -/
def Call.view (call : Call) (config : List ClientInfo) (endpoint : Endpoint String) : Client where
  config
  main := call.main
  received := call.received
  proxyConfigs := call.proxyConfigs
  proxyConns := call.proxyConns
  cachedConns := call.cachedConns
  ping := call.ping
  pingAborted := call.pingAborted
  endpoint

def Client.call (c : Client) (tunnel : Nat) : Call where
  main := c.main
  received := c.received
  proxyConfigs := c.proxyConfigs
  proxyConns := c.proxyConns
  cachedConns := c.cachedConns
  ping := c.ping
  pingAborted := c.pingAborted
  tunnel

def Call.owners (call : Call) : Owners := (call.view [] (.spawn 0)).owners

/-- What a `forward` step hands over, and to whom. -/
def Client.handed (c : Client) : ClientAct → Option (DataInfo × Nat)
  | .forward =>
      match c.main with
      | .forwarding n d _ => some (d, n)
      | _ => none
  | _ => none

namespace Reconnect

def start (config : List ClientInfo) : Reconnect :=
  { config, loop := .connecting, attempt := 1, calls := [], tunnels := [], maps := [], holders := []
    links := [], captured := [], sent := [], delivered := [] }

/-- The heap as the holder of a reference to `tunnel` sees it. -/
def heap (s : Reconnect) (tunnel : FrameWriter) : Endpoint String := ⟨tunnel, s.maps, s.links⟩

def tunnelSenders (s : Reconnect) (t : Nat) : Bool :=
  (s.calls.any fun call => call.tunnel = t ∧ call.owners.tunnel) ||
    (s.links.zip s.captured).any fun (l, captured) => captured.tunnel = t ∧ l.conn.reader ≠ .done

/-- Who holds the objects that the tasks of an internal connection use: any main loop the sender it
is forwarding to, a forwarding call the maps in its `proxy_conns`. -/
def owners (s : Reconnect) (t : Nat) : Owners where
  link n := s.calls.any fun call => call.owners.link n
  map m := (s.holders[m]?.bind fun k => s.calls[k]?).any fun call => call.owners.map m
  tunnel := s.tunnelSenders t

/-- The heap after a step of call `k`, whose main loop now stands at `c`. What is new was made by
this call, and captured what it holds. -/
def commit (s : Reconnect) (k : Nat) (tunnel : Nat) (w : FrameWriter) (c : Client) : Reconnect :=
  { s with
    calls := s.calls.set k (c.call tunnel)
    tunnels := s.tunnels.set tunnel c.endpoint.tunnel
    maps := c.endpoint.maps
    holders := s.holders ++ List.replicate (c.endpoint.maps.length - s.maps.length) k
    links := c.endpoint.links
    captured := s.captured ++
      List.replicate (c.endpoint.links.length - s.links.length) ⟨tunnel, k⟩
    sent := s.sent ++ (c.endpoint.tunnel.chan.log.drop w.chan.log.length).map fun f => (k, f) }

def step (s : Reconnect) : ReconnectAct → Option Reconnect
  | .connectFailed | .handshakeFailed =>
      if s.loop = .connecting then
        some { s with loop := .sleeping (calcReconnectDelay s.attempt) }
      else none
  | .connected sndBuf =>
      if s.loop = .connecting then
        let c := Client.start s.config sndBuf
        some { s with
          loop := .running s.calls.length
          calls := s.calls ++ [c.call s.tunnels.length]
          tunnels := s.tunnels ++ [c.endpoint.tunnel] }
      else none
  | .returned =>
      match s.loop with
      | .running k => s.calls[k]?.bind fun call =>
          if call.main matches .ended _ then
            some { s with loop := .sleeping (calcReconnectDelay s.attempt) }
          else none
      | _ => none
  | .wake =>
      match s.loop with
      | .sleeping _ => some { s with loop := .connecting, attempt := s.attempt + 1 }
      | _ => none
  | .call k a =>
      if a.isEndpoint then none
      else
        s.calls[k]?.bind fun call => s.tunnels[call.tunnel]?.bind fun w =>
          let c := call.view s.config (s.heap w)
          (c.step a).map fun c' =>
            { s.commit k call.tunnel w c' with
              delivered := s.delivered ++ ((c.handed a).map fun (d, n) => (k, d, n)).toList }
  | .writer k a =>
      s.calls[k]?.bind fun call => s.tunnels[call.tunnel]?.bind fun w =>
        (w.step (s.tunnelSenders call.tunnel) a).map fun w =>
          { s with tunnels := s.tunnels.set call.tunnel w }
  | .task a =>
      a.link?.bind fun n => s.captured[n]?.bind fun captured =>
        s.tunnels[captured.tunnel]?.bind fun w =>
          ((s.heap w).step (s.owners captured.tunnel) a).map fun e =>
            { s with
              tunnels := s.tunnels.set captured.tunnel e.tunnel
              maps := e.maps
              links := e.links
              sent := s.sent ++
                (e.tunnel.chan.log.drop w.chan.log.length).map fun f => (captured.call, f) }

end Reconnect

end Rfrp
