import Rfrp.Proto.Endpoint

/-!
# The client's side of a session

`rfrp_client/src/run_proxy.rs`: the registration phase, the forwarding loop with
`get_or_create_internal_conn`, and the heartbeat task. `received` remembers the frames the client
has decoded; nothing reads it back.
-/

namespace Rfrp

inductive PingTask
  | unspawned
  | waiting
  | sending
  | done
deriving DecidableEq, Repr

inductive ClientExit
  | sendFailed
  | rejected
  | unexpectedFrame
  | undecodable
  | readError
  | eof
  | keepaliveTimeout
deriving DecidableEq, Repr

inductive ClientMain
  -- `tx_to_server.send(reg_frame).await` for entry `i`
  | registering (i : Nat)
  -- `reader.next()` for the answer to entry `i`
  | awaiting (i : Nat)
  | reading
  -- `TcpStream::connect(addr).await`
  | connecting (client : ClientInfo) (d : DataInfo) (m : Nat)
  -- `sender.send(data).await`
  | forwarding (n : Nat) (d : DataInfo) (m : Nat)
  | ended (r : ClientExit)
deriving DecidableEq, Repr

structure Client where
  config : List ClientInfo
  main : ClientMain
  received : List RfrpFrame
  proxyConfigs : DashMap UInt32 ClientInfo
  proxyConns : DashMap UInt32 Nat
  cachedConns : Option (UInt32 × Nat)
  ping : PingTask
  pingAborted : Bool
  endpoint : Endpoint String

inductive ClientAct
  -- the main loop reads and decodes a frame
  | recv (f : RfrpFrame)
  | exit (r : ClientExit)
  -- the send of a Register frame
  | register
  | registerErr
  | connected (sndBuf : Nat)
  | refused
  | forward
  | forwardErr
  -- the heartbeat timer
  | tick
  | ping
  | pingErr
  | pingCancel
  | endpoint (a : EndpointAct)
deriving DecidableEq, Repr

namespace Client

/-- The head of the registration loop at entry `i`; past the last entry the heartbeat task is
spawned and the forwarding loop begins. -/
def registerFrom (c : Client) (i : Nat) : Client :=
  if i < c.config.length then { c with main := .registering i }
  else { c with main := .reading, ping := .waiting }

def start (config : List ClientInfo) (sndBuf : Nat) : Client :=
  registerFrom
    { config, main := .registering 0, received := [], proxyConfigs := .empty, proxyConns := .empty
      cachedConns := none, ping := .unspawned, pingAborted := false, endpoint := .spawn sndBuf } 0

def running (c : Client) : Bool := !(c.main matches .ended _)

/-- The forwarding loop has been entered and not left. -/
def forwarding (c : Client) : Bool :=
  c.main matches .reading | .connecting _ _ _ | .forwarding _ _ _

/-- An error in the registration phase returns at once; the frame writer is left to run out. -/
def giveUp (c : Client) (r : ClientExit) : Client := { c with main := .ended r }

/-- After the forwarding loop: abort the frame writer and the heartbeat. -/
def teardown (c : Client) (r : ClientExit) : Client :=
  { c with
    main := .ended r
    pingAborted := true
    endpoint := { c.endpoint with tunnel := { c.endpoint.tunnel with aborted := true } } }

/-- The connection map of a proxy, created on first use, and the cache after looking it up. -/
def connsFor (c : Client) (p : UInt32) : Nat × Client :=
  let fromMap :=
    match c.proxyConns p with
    | some m => (m, { c with cachedConns := some (p, m) })
    | none =>
        let m := c.endpoint.maps.length
        (m, { c with
          proxyConns := c.proxyConns.insert p m
          cachedConns := some (p, m)
          endpoint := { c.endpoint with maps := c.endpoint.maps ++ [.empty] } })
  match c.cachedConns with
  | some (id, m) => if id = p then (m, c) else fromMap
  | none => fromMap

/-- The answer to entry `i` of the registration phase. -/
def handleAnswer (c : Client) (i : Nat) : RfrpFrame → Client
  | .registerAck resp =>
      if resp.success then
        match c.config[i]? with
        | some client =>
            { c with proxyConfigs := c.proxyConfigs.insert resp.proxyId client }.registerFrom (i + 1)
        | none => c
      else c.giveUp .rejected
  | _ => c.giveUp .unexpectedFrame

/-- What the forwarding loop does with a decoded frame, up to its next await. -/
def handleFrame (c : Client) : RfrpFrame → Client
  | .data d =>
      match c.proxyConfigs d.proxyId with
      | none => c
      | some client =>
          let (m, c) := c.connsFor d.proxyId
          -- the fast path of `get_or_create_internal_conn`, else a connect
          match c.endpoint.lookup m d.connId with
          | some n => { c with main := .forwarding n d m }
          | none => { c with main := .connecting client d m }
  | _ => c

def owners (c : Client) : Owners where
  link n :=
    match c.main with
    | .forwarding m _ _ => m == n
    | _ => false
  map _ := c.forwarding
  tunnel := c.running || c.ping matches .waiting | .sending

/-- `conns.entry(conn_id)` after a successful connect. -/
def insertConn (c : Client) (client : ClientInfo) (d : DataInfo) (m sndBuf : Nat) : Client :=
  match c.endpoint.lookup m d.connId with
  | some n => { c with main := .forwarding n d m }
  | none =>
      { c with
        main := .forwarding c.endpoint.links.length d m
        endpoint := c.endpoint.addLink client.addr d.proxyId d.connId m (Conn.fresh sndBuf).spawn }

/-- `conns.remove(&conn_id)` of the main loop. -/
def removeConn (c : Client) (m : Nat) (connId : UInt64) : Client :=
  { c with endpoint :=
    { c.endpoint with maps := c.endpoint.maps.modify m fun map => map.remove connId } }

def step (c : Client) : ClientAct → Option Client
  | .recv f =>
      match c.main with
      | .awaiting i => some { c.handleAnswer i f with received := c.received ++ [f] }
      | .reading => some { c.handleFrame f with received := c.received ++ [f] }
      | _ => none
  | .exit r =>
      if r matches .undecodable | .readError | .eof | .keepaliveTimeout then
        match c.main with
        | .awaiting _ => some (c.giveUp r)
        | .reading => some (c.teardown r)
        | _ => none
      else none
  | .register =>
      match c.main with
      | .registering i => c.config[i]?.bind fun client =>
          (c.endpoint.enqueue (.register client)).map fun endpoint =>
            { c with endpoint, main := .awaiting i }
      | _ => none
  | .registerErr =>
      match c.main with
      | .registering _ => if c.endpoint.tunnel.closed then some (c.giveUp .sendFailed) else none
      | _ => none
  | .connected sndBuf =>
      match c.main with
      | .connecting client d m => some (c.insertConn client d m sndBuf)
      | _ => none
  | .refused =>
      match c.main with
      | .connecting _ _ _ => some { c with main := .reading }
      | _ => none
  | .forward =>
      match c.main with
      | .forwarding n d _ =>
          (c.endpoint.deliver n d.data).map fun endpoint => { c with endpoint, main := .reading }
      | _ => none
  -- the failed send and the removal are one step: nothing but this loop adds entries
  | .forwardErr =>
      match c.main with
      | .forwarding n d m =>
          if c.endpoint.undeliverable n then
            some { c.removeConn m d.connId with main := .reading }
          else none
      | _ => none
  | .tick => if c.ping = .waiting then some { c with ping := .sending } else none
  | .ping =>
      if c.ping = .sending then
        (c.endpoint.enqueue .newPingFrame).map fun endpoint => { c with endpoint, ping := .waiting }
      else none
  | .pingErr =>
      if c.ping = .sending ∧ c.endpoint.tunnel.closed then some { c with ping := .done } else none
  | .pingCancel =>
      if c.pingAborted ∧ (c.ping = .waiting ∨ c.ping = .sending) then
        some { c with ping := .done }
      else none
  | .endpoint a =>
      (c.endpoint.step c.owners a).map fun endpoint => { c with endpoint }

end Client

/-- Steps that only a failure of the tunnel connection or a timeout takes. -/
def ClientAct.transportFails : ClientAct → Bool
  | .exit _ | .endpoint (.writer .sendErr) => true
  | _ => false

/-- Steps that only a failing socket takes. -/
def ClientAct.socketFails : ClientAct → Bool
  | .endpoint a => a.fails
  | _ => false

/-- Steps of the client's own tasks when nothing fails; connects are answered by the internal
service. -/
def ClientAct.isTask : ClientAct → Bool
  | .recv _ | .exit _ | .connected _ | .refused | .tick => false
  | .endpoint a => a.isTask
  | _ => true

end Rfrp
