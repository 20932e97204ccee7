import Rfrp.Deployment.Basic

/-!
# The connections of a deployment

Each connection between a client process and the server is a session by itself, as if there were no
other process, no other program, no other session on the server and no earlier call in the heap of
the client.
-/

namespace Rfrp

open Transition

namespace Host

variable {h h' : Host} {a : HostAct} {i : Nat} {s : Server}

theorem serverAt_set {client client' : ClientTask} (here : h.clients[i]? = some client) (j : Nat) :
    (h.setClient i client').serverAt j = if j = i then client'.server? else h.serverAt j := by
  unfold serverAt setClient
  by_cases own : j = i
  · subst own
    rw [if_pos rfl]
    show (h.clients.set j client')[j]?.bind _ = _
    rw [Slots.get_set_self here, Option.bind_some]
  · rw [if_neg own]
    show (h.clients.set i client')[j]?.bind _ = _
    rw [Slots.get_set_ne own]

/-- A step of the host begins a session, takes one further, or leaves all of them as they are. -/
inductive Serves (h h' : Host) (a : HostAct) (j : Nat) : Prop
  | same (same : h'.serverAt j = h.serverAt j)
  | begun {sndBuf : Nat} (act : a = .shake j sndBuf) (before : h.serverAt j = none)
      (after : h'.serverAt j = some (.start sndBuf))
  | moved {b : ServerAct} {s s' : Server} (act : a = .session j b) (before : h.serverAt j = some s)
      (move : s.step b = some s') (after : h'.serverAt j = some s')

theorem serves_of_step (orderly : h.Orderly) (move : Moves h a h') (j : Nat) : Serves h h' a j := by
  have silent : ∀ {i : Nat} {client client' : ClientTask} {permits : Nat} {waiters : Fifo Nat},
      h.clients[i]? = some client → client'.server? = client.server? →
      Serves h { h.setClient i client' with permits, waiters } a j := by
    intro i client client' permits waiters here kept
    refine .same ((serverAt_set here j).trans ?_)
    split
    · rename_i own
      rw [own, serverAt, here, kept, Option.bind_some]
    · rfl
  cases move with
  | accept =>
      apply Serves.same
      unfold serverAt
      by_cases old : j < h.clients.length
      · rw [List.getElem?_append_left old]
      · rw [List.getElem?_append_right (Nat.le_of_not_lt old),
          List.getElem?_eq_none (Nat.le_of_not_lt old)]
        cases j - h.clients.length <;> rfl
  | acquire here => exact silent here rfl
  | @grant i waiters free popped =>
      obtain ⟨-, -, queue⟩ := Fifo.pop_eq_some popped
      have here := (orderly.counted.queued i).mp (by rw [queue]; exact List.mem_cons_self)
      exact silent here rfl
  | @shake i sndBuf here =>
      by_cases own : j = i
      · subst own
        refine .begun rfl ?_ ((serverAt_set here j).trans (if_pos rfl))
        rw [serverAt, here]
        rfl
      · exact .same ((serverAt_set here j).trans (if_neg own))
  | shakeErr here => exact silent here rfl
  | @session i client s s' b here has admits move =>
      by_cases own : j = i
      · subst own
        refine .moved rfl ?_ move ?_
        · rw [serverAt, here]
          exact has
        · refine (serverAt_set here j).trans ((if_pos rfl).trans ?_)
          cases client with
          | serving | returned => rfl
          | _ => cases has
      · exact .same ((serverAt_set here j).trans (if_neg own))
  | finish here ended => exact silent here rfl

theorem serverAt_session (orderly : h.Orderly) {b : ServerAct} (move : h.step (.session i b) = some h')
    {j : Nat} (other : j ≠ i) : h'.serverAt j = h.serverAt j := by
  cases serves_of_step orderly (moves_of_step move) j with
  | same same => exact same
  | begun act => cases act
  | moved act =>
      cases act
      exact absurd rfl other

theorem session_of_step {b : ServerAct} (move : h.step (.session i b) = some h') :
    ∃ s s', h.serverAt i = some s ∧ s.step b = some s' ∧ h'.serverAt i = some s' := by
  cases moves_of_step move with
  | @session _ client s s' _ here has admits taken =>
      refine ⟨s, s', ?_, taken, ?_⟩
      · rw [serverAt, here]
        exact has
      · refine (serverAt_set here i).trans ((if_pos rfl).trans ?_)
        cases client with
        | serving | returned => rfl
        | _ => cases has

theorem length_of_step (move : Moves h a h') (old : a ≠ .accept) :
    h'.clients.length = h.clients.length := by
  cases move with
  | accept => exact absurd rfl old
  | _ => exact List.length_set

end Host

namespace Deployment

variable {d d' : Deployment} {i j p k : Nat} {peer : Peer}

/-- What stands at the two ends of connection `i`. -/
def Joined (d : Deployment) (i : Nat) : Peer → Prop
  | .foreign => True
  | .dialing p => ∃ process, d.processes[p]? = some process ∧
      ∀ (s : Server) (sndBuf : Nat), d.host.serverAt i = some s →
        Session.Reachable process.config ⟨s, .start process.config.init.clientProxy sndBuf⟩
  | .call p k => ∃ process s c, d.processes[p]? = some process ∧ d.host.serverAt i = some s ∧
      process.loop.Hosts k c ∧ Session.Reachable process.config ⟨s, c⟩

structure Sound (d : Deployment) : Prop where
  host : d.host.Reachable
  count : d.peers.length = d.host.clients.length
  processes : ∀ (p : Nat) (process : ClientProcess), d.processes[p]? = some process →
    Reach Reconnect.step (.start process.config.init.clientProxy) process.loop
  joined : ∀ (i : Nat) (peer : Peer), d.peers[i]? = some peer → d.Joined i peer
  once : ∀ (i j p k : Nat), d.peers[i]? = some (.call p k) → d.peers[j]? = some (.call p k) → i = j
  met : ∀ (p : Nat) (process : ClientProcess), d.processes[p]? = some process →
    ∀ k < process.loop.calls.length, ∃ i : Nat, d.peers[i]? = some (.call p k)

theorem Joined.frame (joined : d.Joined i peer) (host : d'.host.serverAt i = d.host.serverAt i)
    (processes : ∀ (p : Nat) (process : ClientProcess), d.processes[p]? = some process →
      d'.processes[p]? = some process) : d'.Joined i peer := by
  cases peer with
  | foreign => trivial
  | dialing p =>
      obtain ⟨process, here, reach⟩ := joined
      refine ⟨process, processes p process here, fun s sndBuf has => ?_⟩
      exact reach s sndBuf (host ▸ has)
  | call p k =>
      obtain ⟨process, s, c, here, has, hosts, reach⟩ := joined
      exact ⟨process, s, c, processes p process here, host.trans has, hosts, reach⟩

/-- A step of a process that is none of the call at connection `i`. -/
theorem Joined.processStep {process : ClientProcess} {a : ReconnectAct} {loop : Reconnect}
    (joined : d.Joined i peer) (here : d.processes[p]? = some process)
    (apart : process.loop.Apart) (move : process.loop.step a = some loop)
    (other : ∀ k, peer = .call p k → process.loop.actor a ≠ some k) :
    Joined { d with processes := d.processes.set p { process with loop } } i peer := by
  have config : ∀ (q : Nat) (process' : ClientProcess), d.processes[q]? = some process' → q ≠ p →
      (d.processes.set p { process with loop })[q]? = some process' :=
    fun q process' found ne => (Slots.get_set_ne ne).trans found
  cases peer with
  | foreign => trivial
  | dialing q =>
      obtain ⟨process', found, reach⟩ := joined
      by_cases own : q = p
      · subst own
        rw [here] at found
        cases found
        exact ⟨_, Slots.get_set_self here, reach⟩
      · exact ⟨process', config q process' found own, reach⟩
  | call q k =>
      obtain ⟨process', s, c, found, has, hosts, reach⟩ := joined
      by_cases own : q = p
      · subst own
        rw [here] at found
        cases found
        have hosts := Reconnect.hosts_other apart hosts move (other k rfl)
        exact ⟨_, s, c, Slots.get_set_self here, has, hosts, reach⟩
      · exact ⟨process', s, c, config q process' found own, has, hosts, reach⟩

theorem isLocal_of_mirrors {a : ReconnectAct} {b : ClientAct} (mirrors : Reconnect.Mirrors a b)
    (here : a.isLocal = true) : b.isLocal = true := by
  cases mirrors with
  | call => exact here
  | writer k b =>
      cases b with
      | peerReads => cases here
      | _ => rfl
  | @task a n' link =>
      cases a with
      | writer => cases link
      | _ => rfl

/-- A step of the call at connection `i` itself. -/
theorem Joined.callStep {process : ClientProcess} {a : ReconnectAct} {loop : Reconnect}
    (joined : d.Joined i (.call p k)) (here : d.processes[p]? = some process)
    (apart : process.loop.Apart) (move : process.loop.step a = some loop)
    (own : process.loop.actor a = some k) (alone : a.isLocal = true) :
    Joined { d with processes := d.processes.set p { process with loop } } i (.call p k) := by
  obtain ⟨process', s, c, found, has, hosts, reach⟩ := joined
  rw [here] at found
  cases found
  obtain ⟨b, c', mirrors, step, after⟩ := Reconnect.hosts_own apart hosts move own
  refine ⟨_, s, c', Slots.get_set_self here, has, after, ?_⟩
  apply reach.next (a := .client b)
  simp only [Session.step, isLocal_of_mirrors mirrors alone, true_or, if_true, step, Option.map_some]

/-- A step of the host that reads nothing from a client process. -/
theorem Joined.hostStep {a : HostAct} (joined : d.Joined i peer) (there : d.peers[i]? = some peer)
    (orderly : d.host.Orderly) {host : Host} (move : d.host.step a = some host)
    (alone : a.isLocal d.peers = true) : Joined { d with host } i peer := by
  cases Host.serves_of_step orderly (Host.moves_of_step move) i with
  | same same => exact joined.frame same fun _ _ here => here
  | @begun sndBuf act before after =>
      cases peer with
      | foreign => trivial
      | dialing p =>
          obtain ⟨process, here, -⟩ := joined
          refine ⟨process, here, fun s buf has => ?_⟩
          obtain rfl := Option.some.inj (after.symm.trans has)
          exact ⟨sndBuf, buf, Run.refl _⟩
      | call p k =>
          obtain ⟨_, s, _, _, has, _⟩ := joined
          rw [before] at has
          cases has
  | @moved b s s' act before taken after =>
      subst act
      have alone : b.isLocal = true ∨ d.peers[i]? = some .foreign := of_decide_eq_true alone
      cases peer with
      | foreign => trivial
      | dialing p =>
          obtain ⟨process, here, reach⟩ := joined
          refine ⟨process, here, fun t buf has => ?_⟩
          obtain rfl := Option.some.inj (after.symm.trans has)
          apply (reach s buf before).next (a := .server b)
          have alone := alone.resolve_right (by rw [there]; simp)
          simp only [Session.step, alone, true_or, if_true, taken, Option.map_some]
      | call p k =>
          obtain ⟨process, t, c, here, has, hosts, reach⟩ := joined
          obtain rfl := Option.some.inj (before.symm.trans has)
          refine ⟨process, s', c, here, after, hosts, ?_⟩
          apply reach.next (a := .server b)
          have alone := alone.resolve_right (by rw [there]; simp)
          simp only [Session.step, alone, true_or, if_true, taken, Option.map_some]

theorem hostStep_eq_some {a : HostAct} (move : d.hostStep a = some d') :
    ∃ host, d.host.step a = some host ∧ d' = { d with host } := by
  obtain ⟨host, taken, rfl⟩ := Option.map_eq_some_iff.mp move
  exact ⟨host, taken, rfl⟩

theorem processStep_eq_some {a : ReconnectAct} (move : d.processStep p a = some d') :
    ∃ process loop, d.processes[p]? = some process ∧ process.loop.step a = some loop ∧
      d' = { d with processes := d.processes.set p { process with loop } } := by
  obtain ⟨process, here, move⟩ := Option.bind_eq_some_iff.mp move
  obtain ⟨loop, taken, rfl⟩ := Option.map_eq_some_iff.mp move
  exact ⟨process, loop, here, taken, rfl⟩

section sound
variable (sound : d.Sound)
include sound

theorem Sound.apart {process : ClientProcess} (here : d.processes[p]? = some process) :
    process.loop.Apart := Reconnect.apart_of_run (sound.processes p process here)

theorem Sound.set {process : ClientProcess} {a : ReconnectAct} {loop : Reconnect}
    (here : d.processes[p]? = some process) (move : process.loop.step a = some loop) :
    ∀ (q : Nat) (process' : ClientProcess),
      (d.processes.set p { process with loop })[q]? = some process' →
      Reach Reconnect.step (.start process'.config.init.clientProxy) process'.loop := by
  intro q process' found
  rcases Slots.get_set found with ⟨rfl, rfl⟩ | ⟨-, found⟩
  · exact (sound.processes q process here).tail trivial move
  · exact sound.processes q process' found

theorem Sound.meet {process : ClientProcess} {a : ReconnectAct} {loop : Reconnect}
    (here : d.processes[p]? = some process) (move : process.loop.step a = some loop)
    (old : ∀ sndBuf, a ≠ .connected sndBuf) :
    ∀ (q : Nat) (process' : ClientProcess),
      (d.processes.set p { process with loop })[q]? = some process' →
      ∀ k < process'.loop.calls.length, ∃ i : Nat, d.peers[i]? = some (.call q k) := by
  intro q process' found
  rcases Slots.get_set found with ⟨rfl, rfl⟩ | ⟨-, found⟩
  · have kept : loop.calls.length = process.loop.calls.length := by
      rcases (Reconnect.calls_of_step move).2 with kept | ⟨sndBuf, new, -⟩
      · exact kept
      · exact absurd new (old sndBuf)
    intro k bound
    exact sound.met q process here k (Nat.lt_of_lt_of_eq bound kept)
  · exact sound.met q process' found

theorem Sound.launch {config : ConfigInfo} :
    Sound { d with processes := d.processes ++ [⟨config, .start config.init.clientProxy⟩] } where
  host := sound.host
  count := sound.count
  processes := by
    intro p process here
    rcases Slots.get_append here with here | ⟨-, rfl⟩
    · exact sound.processes p process here
    · exact Run.refl _
  joined := fun i peer there =>
    (sound.joined i peer there).frame rfl fun _ _ here => Slots.get_append_left here
  once := sound.once
  met := by
    intro p process here
    rcases Slots.get_append here with here | ⟨-, rfl⟩
    · exact sound.met p process here
    · exact fun k bound => absurd bound (Nat.not_lt_zero k)

theorem Sound.accept {host : Host} {peer : Peer} (move : d.host.step .accept = some host)
    (fresh : peer = .foreign ∨ ∃ p process, peer = .dialing p ∧ d.processes[p]? = some process) :
    Sound { d with host, peers := d.peers ++ [peer] } := by
  have orderly := sound.host.orderly
  have kept : ∀ i, host.serverAt i = d.host.serverAt i := by
    intro i
    cases Host.serves_of_step orderly (Host.moves_of_step move) i with
    | same same => exact same
    | begun act => cases act
    | moved act => cases act
  have grows : host.clients = d.host.clients ++ [.spawned] := by
    cases move
    rfl
  have known : ∀ {i p k : Nat}, (d.peers ++ [peer])[i]? = some (.call p k) →
      d.peers[i]? = some (.call p k) := by
    intro i p k there
    rcases Slots.get_append there with there | ⟨-, rfl⟩
    · exact there
    · rcases fresh with new | ⟨p, process, new, -⟩ <;> cases new
  refine ⟨sound.host.tail move, ?_, sound.processes, ?_, ?_, ?_⟩
  · rw [grows, List.length_append, List.length_append, sound.count]
    rfl
  · intro i other there
    rcases Slots.get_append there with there | ⟨rfl, rfl⟩
    · exact (sound.joined i other there).frame (kept i) fun _ _ here => here
    · rcases fresh with rfl | ⟨p, process, rfl, here⟩
      · trivial
      · refine ⟨process, here, fun s buf has => ?_⟩
        have none : d.host.serverAt d.peers.length = none := by
          unfold Host.serverAt
          rw [List.getElem?_eq_none (Nat.le_of_eq sound.count.symm)]
          rfl
        have has := (kept d.peers.length).symm.trans has
        rw [none] at has
        cases has
  · exact fun i j p k there there' => sound.once i j p k (known there) (known there')
  · intro p process here k bound
    obtain ⟨i, there⟩ := sound.met p process here k bound
    exact ⟨i, Slots.get_append_left there⟩

theorem Sound.hostStep {a : HostAct} {host : Host} (move : d.host.step a = some host)
    (alone : a.isLocal d.peers = true) : Sound { d with host } where
  host := sound.host.tail move
  count := by
    have old : a ≠ .accept := by
      rintro rfl
      cases alone
    exact sound.count.trans (Host.length_of_step (Host.moves_of_step move) old).symm
  processes := sound.processes
  joined := fun i peer there =>
    (sound.joined i peer there).hostStep there sound.host.orderly move alone
  once := sound.once
  met := sound.met

theorem Sound.processStep {process : ClientProcess} {a : ReconnectAct} {loop : Reconnect}
    (here : d.processes[p]? = some process) (move : process.loop.step a = some loop)
    (alone : a.isLocal = true) :
    Sound { d with processes := d.processes.set p { process with loop } } where
  host := sound.host
  count := sound.count
  processes := sound.set here move
  joined := by
    intro i peer there
    have joined := sound.joined i peer there
    by_cases own : ∃ k, peer = .call p k ∧ process.loop.actor a = some k
    · obtain ⟨k, rfl, own⟩ := own
      exact joined.callStep here (sound.apart here) move own alone
    · exact joined.processStep here (sound.apart here) move fun k same acts => own ⟨k, same, acts⟩
  once := sound.once
  met := by
    apply sound.meet here move
    rintro sndBuf rfl
    cases alone

/-- The connections that the process was making are left to whatever becomes of them. -/
theorem Sound.hangUp (p : Nat) :
    Sound { d with peers := d.peers.map fun peer => if peer = .dialing p then .foreign else peer } := by
  have back : ∀ {i : Nat} {peer : Peer},
      (d.peers.map fun peer => if peer = .dialing p then .foreign else peer)[i]? = some peer →
      peer = .foreign ∨ d.peers[i]? = some peer := by
    intro i peer there
    rw [List.getElem?_map] at there
    obtain ⟨old, there, same⟩ := Option.map_eq_some_iff.mp there
    split at same
    · exact Or.inl same.symm
    · exact Or.inr (same ▸ there)
  have known : ∀ {i p k : Nat}, _ → d.peers[i]? = some (.call p k) :=
    fun there => (back there).resolve_left (by simp)
  refine ⟨sound.host, ?_, sound.processes, ?_, ?_, ?_⟩
  · exact (List.length_map _).trans sound.count
  · intro i peer there
    rcases back there with rfl | there
    · trivial
    · exact (sound.joined i peer there).frame rfl fun _ _ here => here
  · exact fun i j p k there there' => sound.once i j p k (known there) (known there')
  · intro q process here k bound
    obtain ⟨i, there⟩ := sound.met q process here k bound
    refine ⟨i, ?_⟩
    show (d.peers.map _)[i]? = _
    rw [List.getElem?_map, there]
    rfl

theorem Sound.called {process : ClientProcess} (here : d.processes[p]? = some process)
    (there : d.peers[i]? = some (.call p k)) : k < process.loop.calls.length := by
  obtain ⟨process', s, c, found, -, hosts, -⟩ := sound.joined i _ there
  rw [here] at found
  cases found
  obtain ⟨call, w, ls, ms, standing⟩ := hosts
  exact Slots.get_lt standing.here

theorem Sound.join {process : ClientProcess} {sndBuf : Nat} {loop : Reconnect} {s : Server}
    (there : d.peers[i]? = some (.dialing p)) (here : d.processes[p]? = some process)
    (serving : d.host.serverAt i = some s)
    (move : process.loop.step (.connected sndBuf) = some loop) :
    Sound { d with
      processes := d.processes.set p { process with loop }
      peers := d.peers.set i (.call p process.loop.calls.length) } := by
  have known : ∀ {j q k : Nat},
      (d.peers.set i (.call p process.loop.calls.length))[j]? = some (.call q k) →
      (j = i ∧ q = p ∧ k = process.loop.calls.length) ∨ (j ≠ i ∧ d.peers[j]? = some (.call q k)) := by
    intro j q k found
    rcases Slots.get_set found with ⟨rfl, same⟩ | ⟨other, found⟩
    · cases same
      exact Or.inl ⟨rfl, rfl, rfl⟩
    · exact Or.inr ⟨other, found⟩
  have kept : ∀ {j q k : Nat}, d.peers[j]? = some (.call q k) →
      (d.peers.set i (.call p process.loop.calls.length))[j]? = some (.call q k) := by
    intro j q k found
    have other : j ≠ i := by
      rintro rfl
      rw [there] at found
      cases found
    exact (Slots.get_set_ne other).trans found
  refine ⟨sound.host, ?_, sound.set here move, ?_, ?_, ?_⟩
  · exact List.length_set.trans sound.count
  · intro j peer found
    rcases Slots.get_set found with ⟨rfl, rfl⟩ | ⟨-, found⟩
    · have hosts := Reconnect.hosts_connected (sound.apart here) move
      rw [(Reconnect.hosted_of_run (sound.processes p process here)).1] at hosts
      obtain ⟨process', found, reach⟩ := sound.joined j _ there
      rw [here] at found
      cases found
      exact ⟨_, s, _, Slots.get_set_self here, serving, hosts, reach s sndBuf serving⟩
    · exact (sound.joined j peer found).processStep here (sound.apart here) move
        fun k _ acts => by cases acts
  · intro j j' q k found found'
    rcases known found with ⟨rfl, rfl, rfl⟩ | ⟨other, old⟩
    · rcases known found' with ⟨rfl, -⟩ | ⟨-, old'⟩
      · rfl
      · exact absurd (sound.called here old') (Nat.lt_irrefl _)
    · rcases known found' with ⟨rfl, rfl, rfl⟩ | ⟨-, old'⟩
      · exact absurd (sound.called here old) (Nat.lt_irrefl _)
      · exact sound.once j j' q k old old'
  · intro q process' found k bound
    rcases Slots.get_set found with ⟨rfl, rfl⟩ | ⟨-, found⟩
    · by_cases old : k < process.loop.calls.length
      · obtain ⟨j, met⟩ := sound.met q process here k old
        exact ⟨j, kept met⟩
      · have grows : loop.calls.length = process.loop.calls.length + 1 := by
          obtain ⟨-, move⟩ := Option.ite_none_right_eq_some.mp move
          cases move
          exact List.length_append
        have last : k = process.loop.calls.length := by
          have bound : k < loop.calls.length := bound
          omega
        exact ⟨i, last ▸ Slots.get_set_self there⟩
    · obtain ⟨j, met⟩ := sound.met q process' found k bound
      exact ⟨j, kept met⟩

/-- Only the two ends of connection `i` change. -/
theorem Sound.cross {host : Host} {processes : List ClientProcess}
    (there : d.peers[i]? = some (.call p k)) (reach : host.Reachable)
    (count : host.clients.length = d.host.clients.length)
    (runs : ∀ (q : Nat) (process : ClientProcess), processes[q]? = some process →
      Reach Reconnect.step (.start process.config.init.clientProxy) process.loop)
    (met : ∀ (q : Nat) (process : ClientProcess), processes[q]? = some process →
      ∀ k < process.loop.calls.length, ∃ i : Nat, d.peers[i]? = some (.call q k))
    (others : ∀ (j : Nat) (peer : Peer), j ≠ i → peer ≠ .call p k → d.Joined j peer →
      Joined { d with host, processes } j peer)
    (own : Joined { d with host, processes } i (.call p k)) : Sound { d with host, processes } where
  host := reach
  count := sound.count.trans count.symm
  processes := runs
  joined := by
    intro j peer found
    by_cases same : j = i
    · subst same
      obtain rfl := Option.some.inj (there.symm.trans found)
      exact own
    · apply others j peer same
      · rintro rfl
        exact same (sound.once j i p k found there)
      · exact sound.joined j peer found
  once := sound.once
  met := met

end sound

theorem hosts_tunnelOf {s : Reconnect} {c : Client} (hosts : s.Hosts k c) :
    s.tunnelOf k = some c.endpoint.tunnel := by
  obtain ⟨call, w, ls, ms, standing⟩ := hosts
  have same : w = c.endpoint.tunnel := standing.hosted.heap.tunnel
  unfold Reconnect.tunnelOf
  rw [standing.here, Option.bind_some, standing.behind, same]

/-- The host at one end and the call at the other, seen from any other connection. -/
theorem Joined.elsewhere {process : ClientProcess} {a : ReconnectAct} {loop : Reconnect} {host : Host}
    (joined : d.Joined j peer) (here : d.processes[p]? = some process)
    (apart : process.loop.Apart) (move : process.loop.step a = some loop)
    (acts : process.loop.actor a = some k) (other : peer ≠ .call p k)
    (kept : host.serverAt j = d.host.serverAt j) :
    Joined { d with host, processes := d.processes.set p { process with loop } } j peer := by
  have after : Joined { d with processes := d.processes.set p { process with loop } } j peer := by
    refine joined.processStep here apart move fun k' same acts' => other ?_
    rw [acts] at acts'
    cases acts'
    exact same
  exact after.frame kept fun _ _ found => found

section crossing
variable (sound : d.Sound) (there : d.peers[i]? = some (.call p k))
include sound there

/-- What the two ends of a connection do is one step of its session, and nobody else's. -/
theorem Sound.both {process : ClientProcess} {a : ReconnectAct} {loop : Reconnect} {host : Host}
    {b : ServerAct} (here : d.processes[p]? = some process)
    (move : process.loop.step a = some loop) (acts : process.loop.actor a = some k)
    (reads : d.host.step (.session i b) = some host)
    (session : ∀ (s s' : Server) (c c' : Client) (e : ClientAct), d.host.serverAt i = some s →
      process.loop.Hosts k c → s.step b = some s' → Reconnect.Mirrors a e → c.step e = some c' →
      Session.Reachable process.config ⟨s, c⟩ → Session.Reachable process.config ⟨s', c'⟩) :
    Sound { d with host, processes := d.processes.set p { process with loop } } := by
  have orderly := sound.host.orderly
  have apart := sound.apart here
  refine sound.cross there (sound.host.tail reads) ?_ (sound.set here move)
    (sound.meet here move ?_) ?_ ?_
  · exact Host.length_of_step (Host.moves_of_step reads) (by simp)
  · rintro sndBuf rfl
    cases acts
  · intro j peer ne other joined
    exact joined.elsewhere here apart move acts other (Host.serverAt_session orderly reads ne)
  · obtain ⟨process', s, c, found, has, hosts, reach⟩ := sound.joined i _ there
    rw [here] at found
    cases found
    obtain ⟨t, s', has', step, after⟩ := Host.session_of_step reads
    obtain rfl := Option.some.inj (has.symm.trans has')
    obtain ⟨e, c', mirrors, step', hosts'⟩ := Reconnect.hosts_own apart hosts move acts
    exact ⟨_, s', c', Slots.get_set_self here, after, hosts',
      session s s' c c' e has hosts step mirrors step' reach⟩

theorem Sound.eofToServer {w : FrameWriter} {host : Host} (stream : d.tunnelOf p k = some w)
    (ended : w.ended = true) (reads : d.host.step (.session i (.exit .eof)) = some host) :
    Sound { d with host } := by
  have orderly := sound.host.orderly
  refine sound.cross there (sound.host.tail reads) ?_ sound.processes sound.met ?_ ?_
  · exact Host.length_of_step (Host.moves_of_step reads) (by simp)
  · intro j peer ne _ joined
    exact joined.frame (Host.serverAt_session orderly reads ne) fun _ _ here => here
  · obtain ⟨process, s, c, here, has, hosts, reach⟩ := sound.joined i _ there
    obtain ⟨t, s', has', step, after⟩ := Host.session_of_step reads
    obtain rfl := Option.some.inj (has.symm.trans has')
    refine ⟨process, s', c, here, after, hosts, ?_⟩
    unfold tunnelOf at stream
    rw [here, Option.bind_some, hosts_tunnelOf hosts] at stream
    cases stream
    apply reach.next (a := .server (.exit .eof))
    simp [Session.step, ended, step]

theorem Sound.eofToClient {process : ClientProcess} {loop : Reconnect} {s : Server}
    (here : d.processes[p]? = some process) (has : d.host.serverAt i = some s)
    (ended : s.endpoint.tunnel.ended = true)
    (move : process.loop.step (.call k (.exit .eof)) = some loop) :
    Sound { d with processes := d.processes.set p { process with loop } } := by
  have apart := sound.apart here
  refine sound.cross there sound.host rfl (sound.set here move) (sound.meet here move (by simp))
    ?_ ?_
  · intro j peer _ other joined
    exact joined.elsewhere here apart move rfl other rfl
  · obtain ⟨process', t, c, found, has', hosts, reach⟩ := sound.joined i _ there
    rw [here] at found
    cases found
    obtain rfl := Option.some.inj (has.symm.trans has')
    obtain ⟨b, c', mirrors, step, after⟩ := Reconnect.hosts_own apart hosts move rfl
    cases mirrors
    refine ⟨_, s, c', Slots.get_set_self here, has, after, ?_⟩
    apply reach.next (a := .client (.exit .eof))
    simp [Session.step, ended, step]

end crossing

theorem Sound.step (sound : d.Sound) {a : DeploymentAct} (move : d.step a = some d') : d'.Sound := by
  cases a with
  | launch config =>
      obtain ⟨-, move⟩ := Option.ite_none_right_eq_some.mp move
      cases move
      exact sound.launch
  | accept peer =>
      cases peer with
      | none =>
          simp only [Deployment.step] at move
          obtain ⟨d₁, accepted, rfl⟩ := Option.map_eq_some_iff.mp move
          obtain ⟨host, taken, rfl⟩ := hostStep_eq_some accepted
          exact sound.accept taken (Or.inl rfl)
      | some p =>
          obtain ⟨process, here, move⟩ := Option.bind_eq_some_iff.mp move
          obtain ⟨-, move⟩ := Option.ite_none_right_eq_some.mp move
          obtain ⟨d₁, accepted, rfl⟩ := Option.map_eq_some_iff.mp move
          obtain ⟨host, taken, rfl⟩ := hostStep_eq_some accepted
          exact sound.accept taken (Or.inr ⟨p, process, rfl, here⟩)
  | host a =>
      obtain ⟨alone, move⟩ := Option.ite_none_right_eq_some.mp move
      obtain ⟨host, taken, rfl⟩ := hostStep_eq_some move
      exact sound.hostStep taken alone
  | process p a =>
      obtain ⟨alone, move⟩ := Option.ite_none_right_eq_some.mp move
      obtain ⟨d₁, stepped, rfl⟩ := Option.map_eq_some_iff.mp move
      obtain ⟨process, loop, here, taken, rfl⟩ := processStep_eq_some stepped
      have after := sound.processStep here taken alone
      split
      · exact after.hangUp p
      · exact after
  | join i sndBuf =>
      simp only [Deployment.step] at move
      split at move
      · rename_i p there
        obtain ⟨process, here, move⟩ := Option.bind_eq_some_iff.mp move
        obtain ⟨s, serving, move⟩ := Option.bind_eq_some_iff.mp move
        obtain ⟨d₁, stepped, rfl⟩ := Option.map_eq_some_iff.mp move
        obtain ⟨process', loop, here', taken, rfl⟩ := processStep_eq_some stepped
        obtain rfl := Option.some.inj (here.symm.trans here')
        exact sound.join there here serving taken
      · cases move
  | toServer i =>
      simp only [Deployment.step] at move
      split at move
      · rename_i p k there
        obtain ⟨w, stream, move⟩ := Option.bind_eq_some_iff.mp move
        obtain ⟨⟨f, wire⟩, popped, move⟩ := Option.bind_eq_some_iff.mp move
        obtain ⟨d₁, read, move⟩ := Option.bind_eq_some_iff.mp move
        obtain ⟨process, loop, here, taken, rfl⟩ := processStep_eq_some read
        obtain ⟨host, recv, rfl⟩ := hostStep_eq_some move
        refine sound.both there here taken rfl recv ?_
        intro s s' c c' e has hosts step mirrors step' reach
        cases mirrors
        unfold tunnelOf at stream
        rw [here, Option.bind_some, hosts_tunnelOf hosts] at stream
        cases stream
        apply reach.next (a := .toServer)
        simp only [Session.step, popped, Option.bind_some, step', step, Option.map_some]
      · cases move
  | toClient i =>
      simp only [Deployment.step] at move
      split at move
      · rename_i p k there
        obtain ⟨s, has, move⟩ := Option.bind_eq_some_iff.mp move
        obtain ⟨⟨f, wire⟩, popped, move⟩ := Option.bind_eq_some_iff.mp move
        obtain ⟨d₁, read, move⟩ := Option.bind_eq_some_iff.mp move
        obtain ⟨host, taken, rfl⟩ := hostStep_eq_some read
        obtain ⟨process, loop, here, recv, rfl⟩ := processStep_eq_some move
        refine sound.both there here recv rfl taken ?_
        intro t s' c c' e has' hosts step mirrors step' reach
        cases mirrors
        obtain rfl := Option.some.inj (has.symm.trans has')
        apply reach.next (a := .toClient)
        simp only [Session.step, popped, Option.bind_some, step, step', Option.map_some]
      · cases move
  | eofToServer i =>
      simp only [Deployment.step] at move
      split at move
      · rename_i p k there
        obtain ⟨w, stream, move⟩ := Option.bind_eq_some_iff.mp move
        obtain ⟨ended, move⟩ := Option.ite_none_right_eq_some.mp move
        obtain ⟨host, reads, rfl⟩ := hostStep_eq_some move
        exact sound.eofToServer there stream ended reads
      · cases move
  | eofToClient i =>
      simp only [Deployment.step] at move
      split at move
      · rename_i p k there
        obtain ⟨s, has, move⟩ := Option.bind_eq_some_iff.mp move
        obtain ⟨ended, move⟩ := Option.ite_none_right_eq_some.mp move
        obtain ⟨process, loop, here, taken, rfl⟩ := processStep_eq_some move
        exact sound.eofToClient there here has ended taken
      · cases move

theorem Reachable.sound (reach : d.Reachable) : d.Sound := by
  obtain ⟨config, -, run⟩ := reach
  refine run.induct (P := Sound) ⟨⟨_, Run.refl _⟩, rfl, ?_, ?_, ?_, ?_⟩ fun d a d' _ ih _ move => ih.step move
  · exact fun p process here => by simp [start] at here
  · exact fun i peer there => by simp [start] at there
  · exact fun i j p k there => by simp [start] at there
  · exact fun p process here => by simp [start] at here

theorem Reachable.session (reach : d.Reachable) {process : ClientProcess}
    (here : d.processes[p]? = some process) (bound : k < process.loop.calls.length) :
    ∃ i s c, d.peers[i]? = some (.call p k) ∧ d.host.serverAt i = some s ∧
      process.loop.Hosts k c ∧ Session.Reachable process.config ⟨s, c⟩ := by
  obtain ⟨i, there⟩ := reach.sound.met p process here k bound
  obtain ⟨process', s, c, found, has, hosts, session⟩ := reach.sound.joined i _ there
  rw [here] at found
  cases found
  exact ⟨i, s, c, there, has, hosts, session⟩

/-- Every call of every client process has one connection of its own to the server, and with the
server's end of it makes up a session that runs as if it were alone. -/
theorem connections (d : Deployment) (reach : d.Reachable) :
    d.host.Reachable ∧
    ∀ (p k : Nat) (process : ClientProcess) (call : Call), d.processes[p]? = some process →
      process.loop.calls[k]? = some call →
      ∃ i s c, d.peers[i]? = some (.call p k) ∧
        (∀ j : Nat, d.peers[j]? = some (.call p k) → j = i) ∧
        d.host.serverAt i = some s ∧ process.loop.Hosts k c ∧
        Session.Reachable process.config ⟨s, c⟩ := by
  have sound := reach.sound
  refine ⟨sound.host, fun p k process call here called => ?_⟩
  obtain ⟨i, s, c, there, has, hosts, session⟩ := reach.session here (Slots.get_lt called)
  exact ⟨i, s, c, there, fun j met => sound.once j i p k met there, has, hosts, session⟩

theorem connections_twoProcesses : ∃ (d : Deployment) (i : Nat) (s : Server) (c : Client),
    d.Reachable ∧ d.peers[i]? = some (.call 1 0) ∧ d.host.serverAt i = some s ∧
    Session.Reachable webConfig ⟨s, c⟩ := by
  have view : (exec step (start serverConfig) twoProcesses).map (fun d =>
      (d.processes[1]?.map fun process => (process.config, process.loop.calls.length))) =
      some (some (webConfig, 1)) := by decide +kernel
  obtain ⟨d, run, view⟩ := Option.map_eq_some_iff.mp view
  obtain ⟨process, here, view⟩ := Option.map_eq_some_iff.mp view
  obtain ⟨config, count⟩ := Prod.mk.inj view
  have reach : d.Reachable := ⟨serverConfig, by decide +kernel, reach_of_exec _ run⟩
  obtain ⟨call, called⟩ : ∃ call, process.loop.calls[0]? = some call :=
    ⟨_, List.getElem?_eq_getElem (by omega)⟩
  obtain ⟨i, s, c, there, -, has, -, session⟩ := (connections d reach).2 1 0 process call here called
  exact ⟨d, i, s, c, reach, there, has, config ▸ session⟩

end Deployment

end Rfrp
