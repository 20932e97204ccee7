import Rfrp.Server.Registration

/-!
# The server with all its clients

`rfrp_server/src/lib.rs`: the accept loop and a task for each connection, which waits for a permit,
runs `run_proxy` and drops the permit. The semaphore of tokio is fair: permits go to the tasks in
the order in which they first asked. A session that has returned may leave tasks behind, so its
state is kept. All sessions bind their ports on one machine, where a port has one listener.
-/

namespace Rfrp

open Transition

def maxConcurrentClients : Nat := 64

/-- The task of an accepted connection. -/
inductive ClientTask
  -- not yet polled
  | spawned
  -- `permit.acquire_owned().await`
  | acquiring
  -- `run_proxy`, in `server_handshake`
  | handshaking
  -- `run_proxy`, after it
  | serving (server : Server)
  | returned (server : Option Server)

namespace ClientTask

def holdsPermit : ClientTask → Bool
  | .handshaking | .serving _ => true
  | _ => false

def server? : ClientTask → Option Server
  | .serving server => some server
  | .returned server => server
  | _ => none

def setServer (server : Server) : ClientTask → ClientTask
  | .returned _ => .returned (some server)
  | _ => .serving server

end ClientTask

/-- The listener of task `r` is bound to `port`. -/
def Server.listens (s : Server) (r : Nat) (port : UInt16) : Prop :=
  ∃ t, s.tasks[r]? = some t ∧ t.bound = true ∧ t.clientInfo.bindPort = port

structure Host where
  -- of the listener of `rfrp_server` itself
  serverPort : UInt16
  permits : Nat
  waiters : Fifo Nat
  clients : List ClientTask

inductive HostAct
  | accept
  -- a task is polled for the first time and asks for a permit
  | acquire (i : Nat)
  | grant
  | shake (i : Nat) (sndBuf : Nat)
  | shakeErr (i : Nat)
  -- a step of a session or of what it left behind
  | session (i : Nat) (a : ServerAct)
  -- `run_proxy` returns after its main loop
  | finish (i : Nat)
deriving DecidableEq, Repr

namespace Host

def start (serverPort : UInt16) : Host := ⟨serverPort, maxConcurrentClients, .empty, []⟩

def setClient (h : Host) (i : Nat) (client : ClientTask) : Host :=
  { h with clients := h.clients.set i client }

/-- No listener of this process is bound to `port`. -/
def portFree (h : Host) (port : UInt16) : Bool :=
  port ≠ h.serverPort && h.clients.all fun client =>
    match client.server? with
    | some s => s.tasks.all fun t => !(t.bound && t.clientInfo.bindPort == port)
    | none => true

/-- `TcpListener::bind` fails on a port that is taken. -/
def admits (h : Host) (s : Server) : ServerAct → Bool
  | .bind r true =>
      match s.tasks[r]? with
      | some t => h.portFree t.clientInfo.bindPort
      | none => true
  | _ => true

def step (h : Host) : HostAct → Option Host
  | .accept => some { h with clients := h.clients ++ [.spawned] }
  | .acquire i =>
      match h.clients[i]? with
      | some .spawned => some { h.setClient i .acquiring with waiters := h.waiters.push i }
      | _ => none
  | .grant =>
      if 0 < h.permits then
        h.waiters.pop.map fun (i, waiters) =>
          { h.setClient i .handshaking with permits := h.permits - 1, waiters }
      else none
  | .shake i sndBuf =>
      match h.clients[i]? with
      | some .handshaking => some (h.setClient i (.serving (.start sndBuf)))
      | _ => none
  | .shakeErr i =>
      match h.clients[i]? with
      | some .handshaking => some { h.setClient i (.returned none) with permits := h.permits + 1 }
      | _ => none
  | .session i a =>
      h.clients[i]?.bind fun client => client.server?.bind fun s =>
        if h.admits s a then (s.step a).map fun s' => h.setClient i (client.setServer s') else none
  | .finish i =>
      match h.clients[i]? with
      | some (.serving s) =>
          if s.running then none
          else some { h.setClient i (.returned (some s)) with permits := h.permits + 1 }
      | _ => none

def Reachable (h : Host) : Prop := ∃ serverPort, Reach step (start serverPort) h

variable {h h' : Host} {a : HostAct}

/-- What each step of the host can do. -/
inductive Moves (h : Host) : HostAct → Host → Prop
  | accept : Moves h .accept { h with clients := h.clients ++ [.spawned] }
  | acquire {i : Nat} (here : h.clients[i]? = some .spawned) :
      Moves h (.acquire i) { h.setClient i .acquiring with waiters := h.waiters.push i }
  | grant {i : Nat} {waiters : Fifo Nat} (free : 0 < h.permits)
      (popped : h.waiters.pop = some (i, waiters)) :
      Moves h .grant { h.setClient i .handshaking with permits := h.permits - 1, waiters }
  | shake {i sndBuf : Nat} (here : h.clients[i]? = some .handshaking) :
      Moves h (.shake i sndBuf) (h.setClient i (.serving (.start sndBuf)))
  | shakeErr {i : Nat} (here : h.clients[i]? = some .handshaking) :
      Moves h (.shakeErr i) { h.setClient i (.returned none) with permits := h.permits + 1 }
  | session {i : Nat} {client : ClientTask} {s s' : Server} {a : ServerAct}
      (here : h.clients[i]? = some client) (has : client.server? = some s)
      (admits : h.admits s a = true) (move : s.step a = some s') :
      Moves h (.session i a) (h.setClient i (client.setServer s'))
  | finish {i : Nat} {s : Server} (here : h.clients[i]? = some (.serving s))
      (ended : s.running = false) :
      Moves h (.finish i) { h.setClient i (.returned (some s)) with permits := h.permits + 1 }

theorem moves_of_step (move : h.step a = some h') : Moves h a h' := by
  cases a with
  | accept =>
      cases move
      exact .accept
  | acquire i =>
      simp only [step] at move
      split at move
      · rename_i here
        cases move
        exact .acquire here
      · cases move
  | grant =>
      obtain ⟨free, move⟩ := Option.ite_none_right_eq_some.mp move
      obtain ⟨⟨i, waiters⟩, popped, rfl⟩ := Option.map_eq_some_iff.mp move
      exact .grant free popped
  | shake i sndBuf =>
      simp only [step] at move
      split at move
      · rename_i here
        cases move
        exact .shake here
      · cases move
  | shakeErr i =>
      simp only [step] at move
      split at move
      · rename_i here
        cases move
        exact .shakeErr here
      · cases move
  | session i a =>
      obtain ⟨client, here, move⟩ := Option.bind_eq_some_iff.mp move
      obtain ⟨s, has, move⟩ := Option.bind_eq_some_iff.mp move
      obtain ⟨admits, move⟩ := Option.ite_none_right_eq_some.mp move
      obtain ⟨s', stepped, rfl⟩ := Option.map_eq_some_iff.mp move
      exact .session here has admits stepped
  | finish i =>
      simp only [step] at move
      split at move
      · rename_i s here
        obtain ⟨ended, move⟩ := Option.ite_none_left_eq_some.mp move
        cases move
        exact .finish here (Bool.eq_false_iff.mpr ended)
      · cases move

theorem Reachable.induct {P : Host → Prop} (reach : h.Reachable) (fresh : ∀ port, P (start port))
    (preserve : ∀ h a h', h.Reachable → P h → Moves h a h' → P h') : P h := by
  obtain ⟨port, run⟩ := reach
  exact Run.induct run (fresh port) fun _ _ _ before ih _ move =>
    preserve _ _ _ ⟨port, before⟩ ih (moves_of_step move)

theorem Reachable.tail (reach : h.Reachable) (move : h.step a = some h') : h'.Reachable := by
  obtain ⟨port, run⟩ := reach
  exact ⟨port, run.tail trivial move⟩

@[simp] theorem clients_setClient (i : Nat) (client : ClientTask) :
    (h.setClient i client).clients = h.clients.set i client := rfl

theorem setClient_setClient (i : Nat) (client client' : ClientTask) :
    (h.setClient i client).setClient i client' = h.setClient i client' := by
  unfold setClient
  rw [List.set_set]

theorem portFree_iff {port : UInt16} : h.portFree port = true ↔
    port ≠ h.serverPort ∧ ∀ (i : Nat) (client : ClientTask) (s : Server) (r : Nat),
      h.clients[i]? = some client → client.server? = some s → ¬ s.listens r port := by
  unfold portFree Server.listens
  rw [Bool.and_eq_true, decide_eq_true_eq, List.all_eq_true]
  constructor
  · rintro ⟨other, all⟩
    refine ⟨other, fun i client s r here has => ?_⟩
    rintro ⟨t, task, bound, port⟩
    have none := all client (List.mem_of_getElem? here)
    rw [has] at none
    have silent := List.all_eq_true.mp none t (List.mem_of_getElem? task)
    simp [bound, port] at silent
  · rintro ⟨other, all⟩
    refine ⟨other, fun client mem => ?_⟩
    obtain ⟨i, here⟩ := List.mem_iff_getElem?.mp mem
    cases has : client.server? with
    | none => rfl
    | some s =>
        apply List.all_eq_true.mpr
        intro t mem
        obtain ⟨r, task⟩ := List.mem_iff_getElem?.mp mem
        have silent := all i client s r here has
        cases bound : t.bound with
        | false => rfl
        | true =>
            simp only [Bool.true_and, Bool.not_eq_true', beq_eq_false_iff_ne]
            exact fun port => silent ⟨t, task, bound, port⟩

end Host

end Rfrp
