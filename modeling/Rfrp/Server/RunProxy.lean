import Rfrp.Proto.FrameHandle

/-!
# The server's side of a session

`rfrp_server/src/run_proxy.rs` together with the registration tasks it spawns. `tasks` is
`proxy_tasks`: task `r` was spawned for the `r`-th accepted Register. `received` remembers the
frames the main loop has decoded; nothing reads it back.
-/

namespace Rfrp

def maxProxiesPerClient : Nat := 16

inductive ExitReason
  | eof
  | readError
  | keepaliveTimeout
  | undecodable
  | pongFailed
deriving DecidableEq, Repr

inductive ServerMain
  | reading
  -- `tx_channel.send(reject).await` over the proxy limit
  | rejecting (client : ClientInfo)
  -- `tx_channel.send(pong).await`
  | ponging
  -- `sender.send(data_info.data).await`
  | routing (n : Nat) (data : Bytes)
  | ended (r : ExitReason)
deriving DecidableEq, Repr

structure Server where
  main : ServerMain
  received : List RfrpFrame
  nextProxyId : UInt32
  proxyRouting : DashMap UInt32 Nat
  cachedRouting : Option (UInt32 × Nat)
  tasks : List RegTask
  endpoint : Endpoint UInt16

inductive ServerAct
  -- the main loop reads and decodes a frame
  | recv (f : RfrpFrame)
  | exit (r : ExitReason)
  -- the main loop's send of a reject or a pong
  | reply
  | replyErr
  | route
  | routeErr
  -- an external user connects to the port of task `r`
  | connect (r : Nat)
  | bind (r : Nat) (ok : Bool)
  | answer (r : Nat)
  | answerErr (r : Nat)
  | accept (r : Nat) (sndBuf : Nat)
  | acquire (r : Nat)
  -- an aborted registration task is dropped
  | cancel (r : Nat)
  | endpoint (a : EndpointAct)
deriving DecidableEq, Repr

namespace Server

def start (sndBuf : Nat) : Server :=
  { main := .reading, received := [], nextProxyId := 0, proxyRouting := .empty
    cachedRouting := none, tasks := [], endpoint := .spawn sndBuf }

def running (s : Server) : Bool := !(s.main matches .ended _)

/-- The table of a proxy and the cache after looking it up. -/
def routingFor (s : Server) (p : UInt32) : Option Nat × Option (UInt32 × Nat) :=
  let fromMap :=
    match s.proxyRouting p with
    | some t => (some t, some (p, t))
    | none => (none, s.cachedRouting)
  match s.cachedRouting with
  | some (id, t) => if id = p then (some t, s.cachedRouting) else fromMap
  | none => fromMap

/-- What the main loop does with a decoded frame, up to its next await. -/
def handleFrame (s : Server) : RfrpFrame → Server
  | .register client =>
      if maxProxiesPerClient ≤ s.tasks.length then { s with main := .rejecting client }
      else
        let table := s.endpoint.maps.length
        { s with
          nextProxyId := s.nextProxyId + 1
          proxyRouting := s.proxyRouting.insert s.nextProxyId table
          tasks := s.tasks ++ [.spawn client s.nextProxyId table]
          endpoint := { s.endpoint with maps := s.endpoint.maps ++ [.empty] } }
  | .control info => if info.command = "ping" then { s with main := .ponging } else s
  | .registerAck _ => s
  | .data d =>
      let (table, cachedRouting) := s.routingFor d.proxyId
      match table.bind fun t => s.endpoint.lookup t d.connId with
      | some n => { s with cachedRouting, main := .routing n d.data }
      | none => { s with cachedRouting }

/-- After the loop: abort the listener tasks, clear the routing map, drop the rest. -/
def teardown (s : Server) (r : ExitReason) : Server :=
  { s with
    main := .ended r
    proxyRouting := .empty
    cachedRouting := none
    tasks := s.tasks.map fun t => { t with aborted := true } }

def owners (s : Server) : Owners where
  link n :=
    match s.main with
    | .routing m _ => m == n
    | _ => false
  map m := s.running || s.tasks.any fun t => t.routing = m ∧ t.pc ≠ .done
  tunnel := s.running || s.tasks.any fun t => t.pc ≠ .done

def replyFrame (s : Server) : Option RfrpFrame :=
  match s.main with
  | .rejecting client => some (.newRegAckFrame client false 0)
  | .ponging => some .newPongFrame
  | _ => none

def setTask (s : Server) (r : Nat) (t : RegTask) : Server := { s with tasks := s.tasks.set r t }

/-- `listener.accept()` up to the wait for a permit: the connection is entered into the routing
table under the next id. -/
def acceptConn (s : Server) (r : Nat) (t : RegTask) (sndBuf : Nat) : Server :=
  { s with
    tasks := s.tasks.set r { t with
      pc := .acquiring s.endpoint.links.length
      nextConnId := t.nextConnId + 1
      backlog := t.backlog - 1 }
    endpoint := s.endpoint.addLink t.clientInfo.bindPort t.proxyId t.nextConnId t.routing
      (.fresh sndBuf) }

/-- How many permits of the task's semaphore are taken. -/
def permitsTaken (s : Server) (t : RegTask) : Nat :=
  s.endpoint.links.countP fun l => l.map = t.routing ∧ l.holdsPermit

def step (s : Server) : ServerAct → Option Server
  | .recv f =>
      match s.main with
      | .reading => some { s.handleFrame f with received := s.received ++ [f] }
      | _ => none
  | .exit r =>
      match s.main with
      | .reading => if r = .pongFailed then none else some (s.teardown r)
      | _ => none
  | .reply =>
      s.replyFrame.bind fun f =>
        (s.endpoint.enqueue f).map fun endpoint => { s with endpoint, main := .reading }
  | .replyErr =>
      if s.endpoint.tunnel.closed then
        match s.main with
        | .rejecting _ => some { s with main := .reading }
        | .ponging => some (s.teardown .pongFailed)
        | _ => none
      else none
  | .route =>
      match s.main with
      | .routing n data =>
          (s.endpoint.deliver n data).map fun endpoint => { s with endpoint, main := .reading }
      | _ => none
  | .routeErr =>
      match s.main with
      | .routing n _ => if s.endpoint.undeliverable n then some { s with main := .reading } else none
      | _ => none
  | .connect r =>
      s.tasks[r]?.bind fun t =>
        if t.bound then some (s.setTask r { t with backlog := t.backlog + 1 }) else none
  | .bind r ok => s.tasks[r]?.bind fun t => (t.bind ok).map fun t => s.setTask r t
  | .answer r =>
      s.tasks[r]?.bind fun t => t.answer.bind fun (f, t) =>
        (s.endpoint.enqueue f).map fun endpoint => { s with endpoint }.setTask r t
  | .answerErr r =>
      s.tasks[r]?.bind fun t => t.answer.bind fun (_, t) =>
        if s.endpoint.tunnel.closed then some (s.setTask r t) else none
  | .accept r sndBuf =>
      s.tasks[r]?.bind fun t =>
        if t.pc = .accepting ∧ 0 < t.backlog then some (s.acceptConn r t sndBuf) else none
  | .acquire r =>
      s.tasks[r]?.bind fun t =>
        match t.pc with
        | .acquiring n => s.endpoint.links[n]?.bind fun l =>
            if s.permitsTaken t < maxConcurrentExternalConns then
              some ({ s with endpoint := s.endpoint.setLink n (l.setConn l.conn.spawn) }.setTask r
                { t with pc := .accepting })
            else none
        | _ => none
  | .cancel r =>
      s.tasks[r]?.bind fun t =>
        if t.aborted then
          match t.pc with
          | .done => none
          | .acquiring n => s.endpoint.links[n]?.bind fun l =>
              some ({ s with endpoint := s.endpoint.setLink n (l.setConn l.conn.drop) }.setTask r
                { t with pc := .done })
          | _ => some (s.setTask r { t with pc := .done })
        else none
  | .endpoint a =>
      (s.endpoint.step s.owners a).map fun endpoint => { s with endpoint }

end Server

/-- Steps that only a failure of the tunnel connection or a timeout takes. -/
def ServerAct.transportFails : ServerAct → Bool
  | .exit _ | .endpoint (.writer .sendErr) => true
  | _ => false

/-- Steps that only a failing socket takes. -/
def ServerAct.socketFails : ServerAct → Bool
  | .endpoint a => a.fails
  | _ => false

/-- Steps of the server's own tasks when nothing fails. -/
def ServerAct.isTask : ServerAct → Bool
  | .recv _ | .exit _ | .connect _ | .bind _ false => false
  | .endpoint a => a.isTask
  | _ => true

end Rfrp
