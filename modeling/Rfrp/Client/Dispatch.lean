import Rfrp.Client.Forwarding
import Rfrp.Proto.Dispatch

/-!
# The client's main loop with room

A frame of an open connection that finds room for its payload is dealt with by the main loop alone.
-/

namespace Rfrp

open Transition

def ClientAct.ofLoop : ClientAct → Bool
  | .forward | .forwardErr => true
  | _ => false

namespace Client

open Endpoint

variable {c c' : Client} {f : RfrpFrame} {d : DataInfo} {config : List ClientInfo}

def Reaches (c : Client) (d : DataInfo) : Prop :=
  c.proxyConfigs d.proxyId = none ∨
    ∃ n l, c.endpoint.Open n l ∧ l.proxyId = d.proxyId ∧ l.connId = d.connId

structure Handles (fs : List RfrpFrame) (c c' : Client) : Prop where
  main : c'.main = .reading
  received : c'.received = c.received ++ fs
  takes : Takes (dataOf fs) c.endpoint c'.endpoint
  configs : c'.proxyConfigs = c.proxyConfigs

/-- Every payload has an open connection with room for it. -/
structure Ready (fs : List RfrpFrame) (c : Client) : Prop where
  main : c.main = .reading
  room : Room (dataOf fs) c.endpoint
  reaches : ∀ d ∈ dataOf fs, c.Reaches d

theorem Handles.refl (main : c.main = .reading) : c.Handles [] c :=
  ⟨main, (List.append_nil _).symm, .idle rfl (fun _ _ _ found => found) fun _ _ _ => rfl, rfl⟩

theorem Handles.trans {c'' : Client} {fs gs : List RfrpFrame} (first : c.Handles fs c')
    (second : c'.Handles gs c'') : c.Handles (fs ++ gs) c'' := by
  refine ⟨second.main, ?_, ?_, second.configs.trans first.configs⟩
  · rw [second.received, first.received, List.append_assoc]
  · rw [dataOf_append]
    exact first.takes.trans second.takes

theorem Ready.left {fs gs : List RfrpFrame} (ready : c.Ready (fs ++ gs)) : c.Ready fs := by
  obtain ⟨main, room, reaches⟩ := ready
  rw [dataOf_append] at room reaches
  exact ⟨main, room.left, fun d mem => reaches d (List.mem_append_left _ mem)⟩

theorem Ready.rest {fs gs : List RfrpFrame} (ready : c.Ready (fs ++ gs))
    (handles : c.Handles fs c') : c'.Ready gs := by
  obtain ⟨main, room, reaches⟩ := ready
  rw [dataOf_append] at room reaches
  refine ⟨handles.main, room.rest handles.takes, fun d mem => ?_⟩
  rcases reaches d (List.mem_append_right _ mem) with unknown | ⟨n, l, up, ids⟩
  · exact Or.inl (by rw [handles.configs, unknown])
  · exact Or.inr ⟨n, _, handles.takes.open up, ids⟩

theorem takes_finds {p : UInt32} {m : Nat} (finds : Finds c p m c') :
    Takes [] c.endpoint c'.endpoint := by
  apply Takes.idle (config_of_finds finds).2
  · cases finds with
    | created => exact fun _ _ _ => lookup_addMap_old
    | cached | known => exact fun _ _ _ found => found
  · exact fun _ _ _ => rfl

theorem deals_frame (reach : c.Reachable config) (ready : c.Ready [f]) :
    ∃ c₁ c₂, c.step (.recv f) = some c₁ ∧ Run step (fun _ a => a.ofLoop = true) c₁ c₂ ∧
      c.Handles [f] c₂ := by
  obtain ⟨c₁, recv⟩ : ∃ c₁, c.step (.recv f) = some c₁ := by simp [step, ready.main]
  obtain ⟨kept, -⟩ := reach.kept
  have reading := ready.main
  cases moves_of_step recv with
  | recvAck main | recvLastAck main | recvStray main | recvReject main | recvUnexpected main =>
      rw [reading] at main
      cases main
  | recvOther main other =>
      refine ⟨_, _, recv, Run.refl _, main, rfl, ?_, rfl⟩
      exact .idle rfl (fun _ _ _ found => found) fun _ _ _ => by simp [dataOf, other]
  | recvUnknown main unknown =>
      refine ⟨_, _, recv, Run.refl _, main, rfl, .idle rfl (fun _ _ _ found => found) ?_, rfl⟩
      intro n l up
      rw [dataOf_data, payloads_singleton, if_neg]
      rintro ⟨proxy, -⟩
      obtain ⟨client, known, -⟩ := kept.source n l up.here
      rw [← proxy, unknown] at known
      cases known
  | @recvFast d client m n c' main known finds found =>
      obtain ⟨k, l, up, proxy, conn⟩ := (ready.reaches d (by simp)).resolve_left (by simp [known])
      have first := takes_finds finds
      have slot : ∀ {k : Nat} {l' : Link String}, c'.endpoint.Open k l' →
          l'.proxyId = d.proxyId → l'.connId = d.connId → k = n := by
        intro k l' up proxy conn
        have here : c.endpoint.links[k]? = some l' := (config_of_finds finds).2 ▸ up.here
        obtain ⟨map, -⟩ := kept.lookup_of_finds finds here proxy
        have entry := up.entry
        rw [map, conn, found] at entry
        exact (Option.some.inj entry).symm
      have up' : c'.endpoint.Open k l := by
        have up' := first.open up
        rwa [payloads_nil, give_nil] at up'
      obtain rfl := slot up' proxy conn
      have waiting : Room ([] ++ [d]) c.endpoint := ready.room
      have room := waiting.rest first
      obtain ⟨endpoint, sent, takes⟩ := takes_deliver up'.here proxy conn up'.live room
        fun _ _ => slot
      refine ⟨_, { c' with endpoint, main := .reading, received := c.received ++ [.data d] }, recv,
        (Run.refl _).tail (a := .forward) rfl ?_, rfl, rfl, first.trans takes,
        (config_of_finds finds).1⟩
      simp [step, sent]
  | @recvNew d client m c' main known finds miss =>
      obtain ⟨k, l, up, proxy, conn⟩ := (ready.reaches d (by simp)).resolve_left (by simp [known])
      obtain ⟨map, same⟩ := kept.lookup_of_finds finds up.here proxy
      have entry := up.entry
      rw [map, conn, ← same, miss] at entry
      cases entry

end Client

end Rfrp
