import Rfrp.Client.Forwarding
import Rfrp.Proto.Flushing
import Rfrp.Server.Teardown

/-!
# Flushing

On both sides a write task has handed everything over whenever it waits with its channel empty and
when it has ended, whatever the main loop pushes and whenever the last sender is dropped.
-/

namespace Rfrp

open Transition Endpoint

def ServerAct.writeFails : ServerAct → Bool
  | .endpoint a => a.writeFails
  | _ => false

def ClientAct.writeFails : ClientAct → Bool
  | .endpoint a => a.writeFails
  | _ => false

theorem EndpointAct.calm_conn {a : EndpointAct} (calm : a.writeFails = false) :
    ∀ n b, a = .conn n b → Calm b := by
  rintro n b rfl
  exact calm

namespace Server

variable {s s' : Server} {a : ServerAct} {r n : Nat} {t t' : RegTask}

theorem drives (s : Server) : Drives s.owners s.hand where
  link := fun n => by
    unfold owners hand
    cases s.main <;> simp
  map := fun entry m held => by
    unfold hand at held
    unfold owners running
    cases main : s.main <;> simp_all

theorem done_set (here : s.tasks[r]? = some t) (kept : t.pc = .done → t'.pc = .done) {q : Nat}
    {u u' : RegTask} (found : s.tasks[q]? = some u) (found' : (s.tasks.set r t')[q]? = some u')
    (ended : u.pc = .done) : u'.pc = .done := by
  rcases Slots.get_set found' with ⟨rfl, rfl⟩ | ⟨-, old⟩
  · cases here.symm.trans found
    exact kept ended
  · cases old.symm.trans found
    exact ended

theorem done_of_step (h : Moves s a s') (here : s.tasks[r]? = some t)
    (here' : s'.tasks[r]? = some t') (ended : t.pc = .done) : t'.pc = .done := by
  cases h with
  | recvRegister =>
      rw [Slots.get_append_left here] at here'
      cases here'
      exact ended
  | exit | pongErr =>
      simp only [teardown, List.getElem?_map, here, Option.map_some, Option.some.injEq] at here'
      subst here'
      exact ended
  | connect found =>
      refine done_set found ?_ here here' ended
      exact id
  | bind found move =>
      obtain ⟨pc, -⟩ := RegTask.bind_eq_some move
      exact done_set found (by simp [pc]) here here' ended
  | answer found move | answerErr found move =>
      refine done_set found ?_ here here' ended
      rcases RegTask.answer_eq_some move with ⟨pc, -⟩ | ⟨pc, -⟩ <;> simp [pc]
  | accept found pc | acquire found pc => exact done_set found (by simp [pc]) here here' ended
  | cancelWaiting found | cancel found => exact done_set found (fun _ => rfl) here here' ended
  | _ =>
      cases here.symm.trans here'
      exact ended

theorem maps_of_step (h : Moves s a s') {m : Nat} (held : s'.owners.map m = true) :
    s.owners.map m = true := by
  by_cases running : s.running = true
  · simp [owners, running]
  · have stopped : s'.running = false := by
      simpa using mt (running_of_step h) running
    have tasks : s'.tasks.map RegTask.ident = s.tasks.map RegTask.ident := by
      refine (step_tasks h).resolve_right ?_
      rintro ⟨client, rfl, -⟩
      cases h <;> simp_all [Server.running]
    simp only [owners, stopped, Bool.false_or, List.any_eq_true, decide_eq_true_eq] at held
    obtain ⟨t', mem, routing, live⟩ := held
    obtain ⟨r, here'⟩ := List.mem_iff_getElem?.mp mem
    obtain ⟨t, here, ident⟩ := Slots.get_of_map RegTask.ident tasks here'
    simp only [RegTask.ident, Prod.mk.injEq] at ident
    simp only [owners, Bool.or_eq_true, List.any_eq_true, decide_eq_true_eq]
    exact Or.inr ⟨t, List.mem_of_getElem? here, ident.2.2.trans routing,
      fun ended => live (done_of_step h here here' ended)⟩

theorem carries_of_step (reach : s.Reachable) (h : Moves s a s') (calm : a.writeFails = false) :
    Endpoint.Carries Calm s.owners s.endpoint s'.owners s'.endpoint := by
  apply carries_of_evolves (step_endpoint reach h) (feeds_of_step reach h)
  · rintro o b ⟨rfl, rfl⟩
    exact ⟨rfl, EndpointAct.calm_conn calm⟩
  · exact drives s
  · exact drives s'
  · exact fun _ m => maps_of_step h
  · intro l new
    rcases link_of_step h new with ⟨u, old, -⟩ | ⟨r, t, here, pc, ident⟩
    · exact absurd (Slots.get_lt old) (Nat.lt_irrefl _)
    · simp only [Link.ident, Prod.mk.injEq] at ident
      simp only [owners, Bool.or_eq_true, List.any_eq_true, decide_eq_true_eq]
      exact Or.inr ⟨t, List.mem_of_getElem? here, ident.2.2.2.symm, by simp [pc]⟩
  · intro l alive new
    obtain ⟨r, sndBuf, -, fresh⟩ := new_conn h new
    rw [fresh]
    exact Conn.prompt_fresh sndBuf

end Server

namespace Client

variable {c c' : Client} {a : ClientAct} {config : List ClientInfo} {n : Nat}

theorem drives (c : Client) : Drives c.owners c.hand where
  link := fun n => by
    unfold owners hand
    cases c.main <;> simp
  map := fun entry m held => by
    unfold hand at held
    unfold owners forwarding
    cases main : c.main <;> simp_all

theorem forwarding_of_step (holds : c.Holds) (linked : c.endpoint.links ≠ []) (h : Moves c a c')
    (after : c'.forwarding = true) : c.forwarding = true := by
  cases h with
  | recvLastAck main =>
      simp only [Holds, main] at holds
      exact absurd holds linked
  | recvFast main | recvNew main => simp [forwarding, main]
  | tick | ping | pingErr | pingCancel | endpoint | recvStray | recvOther | recvUnknown =>
      exact after
  | _ => simp_all [forwarding, giveUp, teardown]

theorem carries_of_step (reach : c.Reachable config) (h : Moves c a c')
    (calm : a.writeFails = false) :
    Endpoint.Carries Calm c.owners c.endpoint c'.owners c'.endpoint := by
  apply carries_of_evolves (step_endpoint h) (feeds_of_step reach h)
  · rintro o b ⟨rfl, rfl⟩
    exact ⟨rfl, EndpointAct.calm_conn calm⟩
  · exact drives c
  · exact drives c'
  · exact fun linked _ => forwarding_of_step reach.kept.2 linked h
  · intro l new
    obtain ⟨client, d, m, sndBuf, -, main, -⟩ := step_grown h (Slots.get_lt new)
    simp [owners, forwarding, main]
  · intro l alive new
    obtain ⟨client, d, m, sndBuf, -, -, -, -, endpoint⟩ := step_grown h (Slots.get_lt new)
    rw [endpoint] at new
    rcases Slots.get_append new with old | ⟨-, rfl⟩
    · exact absurd (Slots.get_lt old) (Nat.lt_irrefl _)
    · exact Conn.prompt_spawn rfl

end Client

/-- Every write task that was spawned has handed over what its channel accepted, at each later
moment at which it waits with the channel empty or has ended. -/
theorem write_tasks_flush (config : List ClientInfo) (sndBuf n : Nat) :
    (∀ s s', Run Server.step (fun _ a => a.writeFails = false) (.start sndBuf) s →
      Run Server.step (fun _ a => a.writeFails = false) s s' →
      ∀ l, s.endpoint.links[n]? = some l → l.conn.writer ≠ .unspawned → l.conn.writer ≠ .done →
        ∃ l', s'.endpoint.links[n]? = some l' ∧ l'.conn.Flushed) ∧
    (∀ c c', Run Client.step (fun _ a => a.writeFails = false) (.start config sndBuf) c →
      Run Client.step (fun _ a => a.writeFails = false) c c' →
      ∀ l, c.endpoint.links[n]? = some l → l.conn.writer ≠ .unspawned → l.conn.writer ≠ .done →
        ∃ l', c'.endpoint.links[n]? = some l' ∧ l'.conn.Flushed) := by
  constructor
  · intro s s' before after l here spawned live
    have reach : ∀ {s}, Reach Server.step (.start sndBuf) s → s.Reachable :=
      fun run => ⟨sndBuf, run⟩
    refine flushed_of_run Server.owners Server.endpoint ?_ ?_ ?_
      before after here spawned live
    · exact fun _ _ here => by simp [Server.start, Endpoint.spawn] at here
    · exact fun _ run => (reach run.reach).endpoint_ok
    · exact fun _ _ _ run calm move =>
        Server.carries_of_step (reach run.reach) (Server.moves_of_step move) calm
  · intro c c' before after l here spawned live
    have reach : ∀ {c}, Reach Client.step (.start config sndBuf) c → c.Reachable config :=
      fun run => ⟨sndBuf, run⟩
    refine flushed_of_run Client.owners Client.endpoint ?_ ?_ ?_
      before after here spawned live
    · exact fun _ _ here => by simp [Client.endpoint_start, Endpoint.spawn] at here
    · exact fun _ run => (reach run.reach).endpoint_ok
    · exact fun _ _ _ run calm move =>
        Client.carries_of_step (reach run.reach) (Client.moves_of_step move) calm

namespace Server

def twoChunks : List ServerAct :=
  [.recv (.data ⟨0, 0, [7]⟩), .route, .endpoint (.conn 0 .recv), .endpoint (.conn 0 .writeDone),
    .recv (.data ⟨0, 0, [8]⟩), .route, .endpoint (.conn 0 .test), .endpoint (.conn 0 .recv),
    .endpoint (.conn 0 .writeDone), .endpoint (.conn 0 .test), .endpoint (.conn 0 (.push 2)),
    .endpoint (.conn 0 .flushDone)]

theorem twoChunks_view :
    ((exec (guarded step fun _ a => a.writeFails = false) (start 8) oneUser).bind fun s =>
      (exec (guarded step fun _ a => a.writeFails = false) s twoChunks).map fun t =>
        (s.endpoint.links.map fun l => l.conn.writer,
          t.endpoint.links.map fun l => (l.conn.writer, l.conn.chan.log, l.conn.chan.queue))) =
      some ([.receiving], [(.receiving, [[7], [8]], [])]) := by
  rfl

end Server

theorem write_tasks_flush_chunks : ∃ (s : Server) (l : Link UInt16), s.endpoint.links = [l] ∧
    l.conn.chan.log = [[7], [8]] ∧ l.conn.writer = .receiving ∧ l.conn.outbound.log = [7, 8] := by
  obtain ⟨s, before, view⟩ := Option.bind_eq_some_iff.mp Server.twoChunks_view
  obtain ⟨t, after, view⟩ := Option.map_eq_some_iff.mp view
  obtain ⟨view, view'⟩ := Prod.mk.inj view
  obtain ⟨l, links, writer⟩ := List.map_eq_singleton_iff.mp view
  obtain ⟨l', links', view'⟩ := List.map_eq_singleton_iff.mp view'
  simp only [Prod.mk.injEq] at view'
  obtain ⟨waiting, log, drained⟩ := view'
  obtain ⟨k, found, flushed⟩ := (write_tasks_flush [] 8 0).1 s t (run_of_exec _ before)
    (run_of_exec _ after) l (by rw [links]; rfl) (by simp [writer]) (by simp [writer])
  rw [links'] at found
  cases found
  exact ⟨t, l', links', log, waiting, by rw [(flushed.waiting waiting drained).2, log]; rfl⟩

end Rfrp
