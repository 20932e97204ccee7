import Rfrp.Proto.Endpoint

/-!
# The registration task

`handle_reg_frame` of `rfrp_proto/src/frame_handle.rs`: bind the port, answer the client, then
accept external connections for as long as the task is not aborted. The steps that touch the shared
tables are taken by the server, which owns the arenas; here are the task's own state and moves.
-/

namespace Rfrp

def maxConcurrentExternalConns : Nat := 1024

def firstUnprivilegedPort : UInt16 := 1024

inductive RegPc
  -- spawned, `bind_port` not yet looked at
  | checking
  -- `tx_channel.send(reject).await`
  | rejecting
  -- bound, `tx_channel.send(ack).await`
  | acking
  -- `listener.accept().await`
  | accepting
  -- `acquire_owned().await` for the connection just accepted
  | acquiring (n : Nat)
  | done
deriving DecidableEq, Repr

structure RegTask where
  clientInfo : ClientInfo
  proxyId : UInt32
  -- the proxy's routing table
  routing : Nat
  pc : RegPc
  nextConnId : UInt64
  -- users whose connection the listener has not accepted yet
  backlog : Nat
  aborted : Bool
deriving DecidableEq, Repr

namespace RegTask

def spawn (clientInfo : ClientInfo) (proxyId : UInt32) (routing : Nat) : RegTask :=
  ⟨clientInfo, proxyId, routing, .checking, 0, 0, false⟩

/-- The task holds a listener on `bind_port`. -/
def bound (t : RegTask) : Bool := t.pc matches .acking | .accepting | .acquiring _

/-- The check of `bind_port` and the outcome of `TcpListener::bind`. -/
def bind (t : RegTask) (ok : Bool) : Option RegTask :=
  if t.pc = .checking then
    some { t with
      pc := if t.clientInfo.bindPort < firstUnprivilegedPort then .rejecting
        else if ok then .acking else .rejecting }
  else none

/-- The answer the task is sending and what it does after the send, whether that succeeds or not:
a failed acknowledgement is logged and the listener runs all the same. -/
def answer (t : RegTask) : Option (RfrpFrame × RegTask) :=
  match t.pc with
  | .rejecting => some (.newRegAckFrame t.clientInfo false 0, { t with pc := .done })
  | .acking => some (.newRegAckFrame t.clientInfo true t.proxyId, { t with pc := .accepting })
  | _ => none

end RegTask

def Link.holdsPermit {τ : Type} (l : Link τ) : Bool :=
  l.conn.reader ≠ .unspawned ∧ l.conn.reader ≠ .done

end Rfrp
