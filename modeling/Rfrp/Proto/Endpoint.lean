import Rfrp.Lib.DashMap
import Rfrp.Lib.Slots
import Rfrp.Proto.ConnTasks

/-!
# One side of the tunnel

What a session's `run_proxy` keeps on either side beside its main loop: the frame writer, the
per-proxy maps from `conn_id` to the channel of a connection (`RoutingTable` on the server, the
inner maps of `ProxyInternalConnMap` on the client), and the connections with their tasks. Maps
and connections are shared objects, so they live in arenas and are named by their position.
-/

namespace Rfrp

/-- A connection with what its tasks captured: the ids of its frames and the map its read task
cleans up. `info` is what the socket was accepted on or connected to. -/
structure Link (τ : Type) where
  info : τ
  proxyId : UInt32
  connId : UInt64
  map : Nat
  conn : Conn
deriving DecidableEq, Repr

structure Endpoint (τ : Type) where
  tunnel : FrameWriter
  maps : List (DashMap UInt64 Nat)
  links : List (Link τ)

/-- Who else, beside the read tasks, holds a shared object: a sender of a connection's channel
outside the maps, a map, a sender of the frame channel. -/
structure Owners where
  link : Nat → Bool
  map : Nat → Bool
  tunnel : Bool

inductive EndpointAct
  | conn (n : Nat) (a : ConnAct)
  -- `tx.send(frame).await` of the read task
  | sendData (n : Nat)
  | sendDataErr (n : Nat)
  -- the read task's cleanup of its map entry
  | remove (n : Nat)
  -- the read task drops its captures
  | finish (n : Nat)
  | writer (a : WriterAct)
deriving DecidableEq, Repr

def EndpointAct.fails : EndpointAct → Bool
  | .conn _ a => a.fails
  | .writer .sendErr => true
  | _ => false

def EndpointAct.isTask : EndpointAct → Bool
  | .conn _ a => a.isTask
  | .writer .sendErr | .writer .peerReads => false
  | _ => true

def EndpointAct.pushes : EndpointAct → Bool
  | .conn _ a => a.pushes
  | _ => false

def Link.setConn {τ : Type} (l : Link τ) (conn : Conn) : Link τ := { l with conn }

def Link.setReader {τ : Type} (l : Link τ) (reader : ReadTask) : Link τ :=
  { l with conn := { l.conn with reader } }

namespace Endpoint

variable {τ : Type}

def spawn (sndBuf : Nat) : Endpoint τ := ⟨.spawn sndBuf, [], []⟩

/-- `map.get(&conn_id)`. -/
def lookup (e : Endpoint τ) (m : Nat) (c : UInt64) : Option Nat :=
  e.maps[m]?.bind fun map => map c

/-- The map is still referenced: its entries keep their senders alive. -/
def mapAlive (o : Owners) (e : Endpoint τ) (m : Nat) : Bool :=
  o.map m || e.links.any fun l => l.map = m ∧ l.conn.reader ≠ .done

/-- A sender of the connection's channel is alive. -/
def senders (o : Owners) (e : Endpoint τ) (n : Nat) : Bool :=
  o.link n ||
    match e.links[n]? with
    | some l => e.mapAlive o l.map && (e.lookup l.map l.connId == some n)
    | none => false

def tunnelSenders (o : Owners) (e : Endpoint τ) : Bool :=
  o.tunnel || e.links.any fun l => l.conn.reader ≠ .done

def setLink (e : Endpoint τ) (n : Nat) (l : Link τ) : Endpoint τ :=
  { e with links := e.links.set n l }

@[simp] theorem setLink_tunnel (e : Endpoint τ) (n : Nat) (l : Link τ) :
    (e.setLink n l).tunnel = e.tunnel := rfl

@[simp] theorem setLink_maps (e : Endpoint τ) (n : Nat) (l : Link τ) :
    (e.setLink n l).maps = e.maps := rfl

@[simp] theorem setLink_links (e : Endpoint τ) (n : Nat) (l : Link τ) :
    (e.setLink n l).links = e.links.set n l := rfl

def step (o : Owners) (e : Endpoint τ) : EndpointAct → Option (Endpoint τ)
  | .conn n a =>
      e.links[n]?.bind fun l =>
        (l.conn.step (e.senders o n) a).map fun conn => e.setLink n (l.setConn conn)
  | .sendData n =>
      e.links[n]?.bind fun l =>
        match l.conn.reader with
        | .sending data =>
            (e.tunnel.send (.newDataFrame data l.proxyId l.connId)).map fun tunnel =>
              { e with tunnel }.setLink n (l.setReader .reading)
        | _ => none
  | .sendDataErr n =>
      e.links[n]?.bind fun l =>
        match l.conn.reader with
        | .sending _ => if e.tunnel.closed then some (e.setLink n (l.setReader .cleanup)) else none
        | _ => none
  | .remove n =>
      e.links[n]?.bind fun l =>
        if l.conn.reader = .cleanup then
          some ({ e with maps := e.maps.modify l.map fun map => map.remove l.connId }.setLink n
            (l.setReader .ending))
        else none
  | .finish n =>
      e.links[n]?.bind fun l =>
        if l.conn.reader = .ending then some (e.setLink n (l.setReader .done)) else none
  | .writer a => (e.tunnel.step (e.tunnelSenders o) a).map fun tunnel => { e with tunnel }

/-- `tx.send(frame).await` of a task other than the read tasks. -/
def enqueue (e : Endpoint τ) (f : RfrpFrame) : Option (Endpoint τ) :=
  (e.tunnel.send f).map fun tunnel => { e with tunnel }

/-- `sender.send(data).await` of the main loop. -/
def deliver (e : Endpoint τ) (n : Nat) (data : Bytes) : Option (Endpoint τ) :=
  e.links[n]?.bind fun l => (l.conn.send data).map fun conn => e.setLink n (l.setConn conn)

/-- The same send failing: the connection's write task is gone. -/
def undeliverable (e : Endpoint τ) (n : Nat) : Bool :=
  match e.links[n]? with
  | some l => l.conn.closed
  | none => false

def addLink (e : Endpoint τ) (info : τ) (p : UInt32) (c : UInt64) (m : Nat) (conn : Conn) :
    Endpoint τ :=
  { e with
    maps := e.maps.modify m fun map => map.insert c e.links.length
    links := e.links ++ [⟨info, p, c, m, conn⟩] }

end Endpoint

end Rfrp
