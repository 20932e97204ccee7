import Rfrp.Server.Routing
import Rfrp.Proto.Dispatch

/-!
# The server's main loop with room

A frame that finds room for its payload or its answer is dealt with by the main loop alone.
-/

namespace Rfrp

open Transition

def RfrpFrame.asks (f : RfrpFrame) : Bool := f.isPing || f.register?.isSome

def ServerAct.ofLoop : ServerAct → Bool
  | .reply | .route | .routeErr => true
  | _ => false

namespace Server

open Endpoint

variable {s s' : Server} {f : RfrpFrame}

structure Handles (fs : List RfrpFrame) (s s' : Server) : Prop where
  main : s'.main = .reading
  received : s'.received = s.received ++ fs
  takes : Takes (dataOf fs) s.endpoint s'.endpoint
  task : s'.endpoint.tunnel.task = s.endpoint.tunnel.task
  queue : s'.endpoint.tunnel.chan.queue.length ≤
    s.endpoint.tunnel.chan.queue.length + fs.countP RfrpFrame.asks

/-- Room for what the frames carry and for what they ask. -/
structure Ready (fs : List RfrpFrame) (s : Server) : Prop where
  main : s.main = .reading
  live : s.endpoint.tunnel.task ≠ .done
  room : Room (dataOf fs) s.endpoint
  answers : s.endpoint.tunnel.chan.queue.length + fs.countP RfrpFrame.asks ≤ channelCapacity

theorem Handles.refl (main : s.main = .reading) : s.Handles [] s :=
  ⟨main, (List.append_nil _).symm, .idle rfl (fun _ _ _ found => found) fun _ _ _ => rfl, rfl,
    Nat.le_refl _⟩

theorem Handles.trans {s'' : Server} {fs gs : List RfrpFrame} (first : s.Handles fs s')
    (second : s'.Handles gs s'') : s.Handles (fs ++ gs) s'' := by
  refine ⟨second.main, ?_, ?_, second.task.trans first.task, ?_⟩
  · rw [second.received, first.received, List.append_assoc]
  · rw [dataOf_append]
    exact first.takes.trans second.takes
  · have more := first.queue
    have most := second.queue
    rw [List.countP_append]
    omega

theorem Ready.left {fs gs : List RfrpFrame} (ready : s.Ready (fs ++ gs)) : s.Ready fs := by
  obtain ⟨main, live, room, answers⟩ := ready
  rw [dataOf_append] at room
  rw [List.countP_append] at answers
  exact ⟨main, live, room.left, by omega⟩

theorem Ready.rest {fs gs : List RfrpFrame} (ready : s.Ready (fs ++ gs))
    (handles : s.Handles fs s') : s'.Ready gs := by
  obtain ⟨main, live, room, answers⟩ := ready
  rw [dataOf_append] at room
  rw [List.countP_append] at answers
  have queue := handles.queue
  exact ⟨handles.main, by rwa [handles.task], room.rest handles.takes, by omega⟩

def Deals (f : RfrpFrame) (s : Server) : Prop :=
  ∃ s₁ s₂, s.step (.recv f) = some s₁ ∧ Run step (fun _ a => a.ofLoop = true) s₁ s₂ ∧
    s.Handles [f] s₂

section recv
variable {s₁ : Server} (recv : s.step (.recv f) = some s₁) (received : s₁.received = s.received ++ [f])
  (tunnel : s₁.endpoint.tunnel = s.endpoint.tunnel) (links : s₁.endpoint.links = s.endpoint.links)
  (entries : ∀ m c n, s.endpoint.lookup m c = some n → s₁.endpoint.lookup m c = some n)
include recv received tunnel links entries

theorem deals_skip (main : s₁.main = .reading)
    (none : ∀ n l, s.endpoint.Open n l → payloads l.proxyId l.connId (dataOf [f]) = []) :
    s.Deals f :=
  ⟨s₁, s₁, recv, Run.refl s₁, main, received, .idle links entries none, by rw [tunnel],
    by rw [tunnel]; exact Nat.le_add_right _ _⟩

theorem deals_reply (ready : s.Ready [f]) {g : RfrpFrame} (frame : s₁.replyFrame = some g)
    (none : dataOf [f] = []) (asks : f.asks = true) : s.Deals f := by
  have free : s.endpoint.tunnel.chan.queue.length < channelCapacity := by
    have answers := ready.answers
    simp only [List.countP_singleton, asks, if_true] at answers
    omega
  have closed : s.endpoint.tunnel.closed = false := by simp [FrameWriter.closed, ready.live]
  refine ⟨s₁, { s₁ with
      main := .reading
      endpoint := { s₁.endpoint with tunnel :=
        { s₁.endpoint.tunnel with chan := s₁.endpoint.tunnel.chan.push g } } },
    recv, (Run.refl s₁).tail (a := .reply) rfl ?_, rfl, received, ?_, ?_, ?_⟩
  · simp [step, frame, Endpoint.enqueue, FrameWriter.send, tunnel, closed, free]
  · exact .idle links entries fun _ _ _ => by rw [none]; rfl
  · rw [tunnel]
  · simp [tunnel, asks]

theorem deals_route (ready : s.Ready [f]) {d : DataInfo} (data : f = .data d) {n : Nat}
    {l : Link UInt16} (main : s₁.main = .routing n d.data) (same : s₁.endpoint = s.endpoint)
    (here : s.endpoint.links[n]? = some l) (proxy : l.proxyId = d.proxyId)
    (conn : l.connId = d.connId)
    (only : ∀ k l', s.endpoint.Open k l' → l'.proxyId = d.proxyId → l'.connId = d.connId → k = n) :
    s.Deals f := by
  subst data
  have room : Room [d] s.endpoint := ready.room
  by_cases gone : l.conn.writer = .done
  · refine ⟨s₁, { s₁ with main := .reading }, recv, (Run.refl s₁).tail (a := .routeErr) rfl ?_,
      rfl, received, ?_, by rw [tunnel], by rw [tunnel]; exact Nat.le_add_right _ _⟩
    · simp [step, main, same, Endpoint.undeliverable, here, Conn.closed, gone]
    · apply Takes.idle links entries
      intro k l' up
      rw [dataOf_data, payloads_singleton, if_neg]
      rintro ⟨proxy', conn'⟩
      obtain rfl := only k l' up proxy'.symm conn'.symm
      obtain rfl := Option.some.inj (here.symm.trans up.here)
      exact up.live gone
  · obtain ⟨endpoint, sent, takes⟩ := takes_deliver here proxy conn gone room only
    refine ⟨s₁, { s₁ with endpoint, main := .reading }, recv,
      (Run.refl s₁).tail (a := .route) rfl ?_, rfl, received, takes, ?_, ?_⟩
    · simp [step, main, same, sent]
    · obtain ⟨l, -, -, rfl⟩ := deliver_eq_some sent
      rfl
    · obtain ⟨l, -, -, rfl⟩ := deliver_eq_some sent
      exact Nat.le_add_right _ _

end recv

theorem deals_frame (reach : s.Reachable) (ready : s.Ready [f]) : s.Deals f := by
  obtain ⟨s₁, recv⟩ : ∃ s₁, s.step (.recv f) = some s₁ := by simp [step, ready.main]
  have running : s.running = true := by simp [running, ready.main]
  have entries : ∀ m c n, s.endpoint.lookup m c = some n → s.endpoint.lookup m c = some n :=
    fun _ _ _ found => found
  cases moves_of_step recv with
  | recvLimit =>
      exact deals_reply recv rfl rfl rfl entries ready rfl rfl rfl
  | recvPing main ping =>
      refine deals_reply recv rfl rfl rfl entries ready rfl rfl ?_
      simp [RfrpFrame.asks, RfrpFrame.isPing, ping]
  | recvRegister main =>
      exact deals_skip recv rfl rfl rfl (fun _ _ _ => lookup_addMap_old) main fun _ _ _ => rfl
  | recvOther main register data =>
      refine deals_skip recv rfl rfl rfl entries main fun _ _ _ => ?_
      simp [dataOf, data]
  | @recvRouted d t n main table found =>
      obtain ⟨l, here, proxy, conn, map⟩ := reach.routed_link table found
      refine deals_route recv rfl rfl rfl entries ready rfl rfl rfl here proxy conn ?_
      intro k l' up proxy' conn'
      have table' := reach.routingFor_link running up.here
      rw [proxy', table] at table'
      have entry := up.entry
      rw [conn', ← Option.some.inj table', found] at entry
      exact (Option.some.inj entry).symm
  | @recvUnrouted d main miss =>
      refine deals_skip recv rfl rfl rfl entries main fun k l' up => ?_
      rw [dataOf_data, payloads_singleton, if_neg]
      rintro ⟨proxy, conn⟩
      rw [proxy, reach.routingFor_link running up.here, Option.bind_some, conn, up.entry] at miss
      cases miss

end Server

end Rfrp
