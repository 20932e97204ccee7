import Rfrp.Config.ConfigParser
import Rfrp.Client.Calls
import Rfrp.Host.Ports
import Rfrp.Session.Wires

/-!
# A deployment

One server process and all that connects to it: client processes, each with its reconnect loop and
one heap for all its calls of `run_proxy`, and other programs, which may send any frame they like.
Both kinds of process are what `rfrp_main` makes of a configuration. A connection is known by its
position in the accept loop of the server, and ends there at a call of a client process.
-/

namespace Rfrp

open Transition

/-- `rfrp_main`: the side that runs, if the configuration passes validation. -/
def ConfigInfo.rfrpMain (config : ConfigInfo) : Option RunningMode :=
  match config.validate with
  | .ok () => some config.runningMode
  | .error _ => none

structure ClientProcess where
  config : ConfigInfo
  loop : Reconnect

inductive Peer
  -- a program that is not this client, or does not have the token of the server
  | foreign
  -- process `p`, until its handshake is through
  | dialing (p : Nat)
  -- call `k` of process `p`
  | call (p k : Nat)
deriving DecidableEq, Repr

structure Deployment where
  authToken : String
  host : Host
  processes : List ClientProcess
  -- of the connections of `host`, in the same order
  peers : List Peer

inductive DeploymentAct
  -- a client process is started
  | launch (config : ConfigInfo)
  -- `host` accepts a connection from process `p`, or from another program
  | accept (p : Option Nat)
  | host (a : HostAct)
  | process (p : Nat) (a : ReconnectAct)
  -- the handshake on connection `i` is through on the side of the client as well
  | join (i : Nat) (sndBuf : Nat)
  -- the oldest frame in flight on connection `i` is read
  | toServer (i : Nat)
  | toClient (i : Nat)
  -- what is read there is the end of the stream
  | eofToServer (i : Nat)
  | eofToClient (i : Nat)

namespace Host

/-- The session on connection `i`, once `run_proxy` has begun it. -/
def serverAt (h : Host) (i : Nat) : Option Server := h.clients[i]?.bind ClientTask.server?

end Host

namespace Reconnect

/-- The frame writer of call `k`. -/
def tunnelOf (s : Reconnect) (k : Nat) : Option FrameWriter :=
  s.calls[k]?.bind fun call => s.tunnels[call.tunnel]?

end Reconnect

/-- What a client process does by itself, without reading from its server connection. -/
def ReconnectAct.isLocal : ReconnectAct → Bool
  | .connected _ => false
  | .call _ a => a.isLocal
  | .writer _ a => a ≠ .peerReads
  | _ => true

/-- The process gives up the connection it was making. -/
def ReconnectAct.hangsUp : ReconnectAct → Bool
  | .connectFailed | .handshakeFailed => true
  | _ => false

/-- What the server does by itself; of a foreign peer it may read anything at any time. -/
def HostAct.isLocal (peers : List Peer) : HostAct → Bool
  | .accept => false
  | .session i a => a.isLocal ∨ peers[i]? = some .foreign
  | _ => true

namespace Deployment

/-- The server process, started with its configuration. -/
def start (config : ConfigInfo) : Deployment :=
  ⟨config.server.authToken, .start config.server.serverPort, [], []⟩

def hostStep (d : Deployment) (a : HostAct) : Option Deployment :=
  (d.host.step a).map fun host => { d with host }

def processStep (d : Deployment) (p : Nat) (a : ReconnectAct) : Option Deployment :=
  d.processes[p]?.bind fun process => (process.loop.step a).map fun loop =>
    { d with processes := d.processes.set p { process with loop } }

def tunnelOf (d : Deployment) (p k : Nat) : Option FrameWriter :=
  d.processes[p]?.bind fun process => process.loop.tunnelOf k

def step (d : Deployment) : DeploymentAct → Option Deployment
  | .launch config =>
      if config.init.rfrpMain = some .client ∧ config.server.authToken = d.authToken then
        some { d with processes := d.processes ++ [⟨config, .start config.init.clientProxy⟩] }
      else none
  | .accept none =>
      (d.hostStep .accept).map fun d => { d with peers := d.peers ++ [.foreign] }
  | .accept (some p) =>
      d.processes[p]?.bind fun process =>
        if process.loop.loop = .connecting ∧ .dialing p ∉ d.peers then
          (d.hostStep .accept).map fun d => { d with peers := d.peers ++ [.dialing p] }
        else none
  | .host a => if a.isLocal d.peers then d.hostStep a else none
  | .process p a =>
      if a.isLocal then
        (d.processStep p a).map fun d =>
          if a.hangsUp then
            { d with peers := d.peers.map fun peer => if peer = .dialing p then .foreign else peer }
          else d
      else none
  | .join i sndBuf =>
      match d.peers[i]? with
      | some (.dialing p) =>
          d.processes[p]?.bind fun process => (d.host.serverAt i).bind fun _ =>
            (d.processStep p (.connected sndBuf)).map fun d =>
              { d with peers := d.peers.set i (.call p process.loop.calls.length) }
      | _ => none
  | .toServer i =>
      match d.peers[i]? with
      | some (.call p k) =>
          (d.tunnelOf p k).bind fun w => w.wire.pop.bind fun (f, _) =>
            (d.processStep p (.writer k .peerReads)).bind fun d =>
              d.hostStep (.session i (.recv f.skipAddr))
      | _ => none
  | .toClient i =>
      match d.peers[i]? with
      | some (.call p k) =>
          (d.host.serverAt i).bind fun s => s.endpoint.tunnel.wire.pop.bind fun (f, _) =>
            (d.hostStep (.session i (.endpoint (.writer .peerReads)))).bind fun d =>
              d.processStep p (.call k (.recv f.skipAddr))
      | _ => none
  | .eofToServer i =>
      match d.peers[i]? with
      | some (.call p k) =>
          (d.tunnelOf p k).bind fun w =>
            if w.ended then d.hostStep (.session i (.exit .eof)) else none
      | _ => none
  | .eofToClient i =>
      match d.peers[i]? with
      | some (.call p k) =>
          (d.host.serverAt i).bind fun s =>
            if s.endpoint.tunnel.ended then d.processStep p (.call k (.exit .eof)) else none
      | _ => none

def Reachable (d : Deployment) : Prop :=
  ∃ config : ConfigInfo, config.init.rfrpMain = some .server ∧ Reach step (start config) d

/-! ## Schedules -/

/-- A step of the session between call `k` of process `p`, which has the heap to itself, and the
server at connection `i`. -/
def carries (i p k : Nat) : SessionAct → DeploymentAct
  | .server a => .host (.session i a)
  | .client (.endpoint (.writer a)) => .process p (.writer k a)
  | .client (.endpoint a) => .process p (.task a)
  | .client a => .process p (.call k a)
  | .toServer => .toServer i
  | .toClient => .toClient i

/-- Connection `i` comes from `peer` and is served. -/
def serves (i : Nat) (peer : Option Nat) : List DeploymentAct :=
  [.accept peer, .host (.acquire i), .host .grant, .host (.shake i 8)]

def serverConfig : ConfigInfo where
  runningMode := .server
  server := ⟨"127.0.0.1", 11000, "token", ""⟩
  clientProxy := []

def webConfig : ConfigInfo where
  runningMode := .client
  server := ⟨"127.0.0.1", 11000, "token", ""⟩
  clientProxy := [⟨"web", 22002, "127.0.0.1", 80, "tcp", ""⟩]

/-- Two processes tunnel a byte each, while another program asks for the port of the first. -/
def twoProcesses : List DeploymentAct :=
  [.launch Session.sshConfig, .launch webConfig] ++ serves 0 (some 0) ++ serves 1 (some 1) ++
    serves 2 none ++ [.join 0 8, .join 1 8] ++ Session.firstByte.map (carries 0 0 0) ++
    [.host (.session 2 (.recv (.register ⟨"ssh", 22001, "127.0.0.1", 22, "tcp", ""⟩))),
      .host (.session 2 (.bind 0 false))] ++ Session.firstByte.map (carries 1 1 0)

end Deployment

end Rfrp
