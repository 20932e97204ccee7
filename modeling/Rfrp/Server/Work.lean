import Rfrp.Proto.Work
import Rfrp.Server.Steps

/-!
# The server's work

What is left to do on the server's side is the work of its main loop, of its registration tasks with
the users who wait in their listeners, and of its connections and the frame writer.
-/

namespace Rfrp

def ServerAct.costs : ServerAct → Nat
  | .connect _ => 0
  | .endpoint a => a.costs
  | _ => 1

/-- `connect` brings the two tasks of a connection and the way to them. -/
def ServerAct.brings : ServerAct → Nat
  | .recv f => f.forServer
  | .connect _ => 7
  | .endpoint a => a.brings Rates.server.byte
  | _ => 0

def ServerMain.work : ServerMain → Nat
  | .reading => 1
  | .rejecting _ | .ponging => 5
  | .routing _ data => 2 * data.length + 6
  | .ended _ => 0

def RegPc.work : RegPc → Nat
  | .checking => 6
  | .acking => 5
  | .rejecting => 4
  | .accepting => 1
  | .acquiring _ => 7
  | .done => 0

def RegTask.work (t : RegTask) : Nat := t.pc.work + 7 * t.backlog

theorem RegPc.work_pos {pc : RegPc} (live : pc ≠ .done) : 0 < pc.work := by
  cases pc with
  | done => exact absurd rfl live
  | _ => exact Nat.succ_pos _

namespace Server

variable {s s' : Server} {a : ServerAct} {r : Nat} {t : RegTask}

def work (s : Server) : Nat :=
  s.main.work + (s.tasks.map RegTask.work).sum + s.endpoint.work Rates.server

theorem work_tasks (here : s.tasks[r]? = some t) (t' : RegTask) :
    ((s.tasks.set r t').map RegTask.work).sum + t.work = (s.tasks.map RegTask.work).sum + t'.work :=
  Slots.sum_map_set RegTask.work here

theorem work_step (h : Moves s a s') (other : a ≠ .endpoint (.writer .peerReads)) :
    s'.work + a.costs ≤ s.work + a.brings := by
  unfold work
  cases h with
  | recvLimit main =>
      simp only [main, ServerMain.work, ServerAct.costs, ServerAct.brings, RfrpFrame.forServer]
      omega
  | recvRegister main =>
      simp only [main, ServerMain.work, RegTask.spawn, RegTask.work, RegPc.work, Endpoint.work,
        List.map_append, List.sum_append, List.map_singleton, List.sum_singleton, ServerAct.costs,
        ServerAct.brings, RfrpFrame.forServer]
      omega
  | recvPing main =>
      simp only [main, ServerMain.work, ServerAct.costs, ServerAct.brings, RfrpFrame.forServer]
      omega
  | @recvOther f main =>
      have some : 0 < f.forServer := by
        cases f <;> exact Nat.succ_pos _
      simp only [ServerAct.costs, ServerAct.brings]
      omega
  | recvRouted main =>
      simp only [main, ServerMain.work, ServerAct.costs, ServerAct.brings, RfrpFrame.forServer]
      omega
  | recvUnrouted main =>
      simp only [ServerAct.costs, ServerAct.brings, RfrpFrame.forServer]
      omega
  | exit main | pongErr main =>
      have aborted : ((s.tasks.map fun t => { t with aborted := true }).map RegTask.work).sum =
          (s.tasks.map RegTask.work).sum := by
        rw [List.map_map]
        rfl
      simp only [teardown, main, ServerMain.work, aborted, ServerAct.costs, ServerAct.brings]
      omega
  | reply frame sent =>
      rw [Endpoint.work_enqueue _ sent]
      rcases replyFrame_eq_some frame with ⟨client, main, rfl⟩ | ⟨main, rfl⟩
      · simp only [main, ServerMain.work, Rates.server, RfrpFrame.newRegAckFrame,
          RfrpFrame.forClient, ServerAct.costs, ServerAct.brings]
        omega
      · simp only [main, ServerMain.work, Rates.server, RfrpFrame.newPongFrame,
          RfrpFrame.forClient, ServerAct.costs, ServerAct.brings]
        omega
  | replyErr main =>
      simp only [main, ServerMain.work, ServerAct.costs, ServerAct.brings]
      omega
  | route main sent =>
      rw [Endpoint.work_deliver _ sent]
      simp only [main, ServerMain.work, chunkWork, ServerAct.costs, ServerAct.brings]
      omega
  | routeErr main =>
      simp only [main, ServerMain.work, ServerAct.costs, ServerAct.brings]
      omega
  | @connect r t here =>
      have moved := work_tasks here { t with backlog := t.backlog + 1 }
      have more : ({ t with backlog := t.backlog + 1 } : RegTask).work = t.work + 7 := rfl
      simp only [setTask, ServerAct.costs, ServerAct.brings]
      omega
  | @bind r ok t t' here move =>
      have moved := work_tasks here t'
      obtain ⟨pc, next, keeps⟩ := RegTask.bind_eq_some move
      have less : t'.work + 1 ≤ t.work := by
        rw [keeps]
        rcases next with ⟨next, -⟩ | ⟨next, -⟩ <;> simp only [RegTask.work, pc, next, RegPc.work] <;>
          omega
      simp only [setTask, ServerAct.costs, ServerAct.brings]
      omega
  | @answer r t t' f endpoint here move sent =>
      have moved := work_tasks here t'
      have queued := Endpoint.work_enqueue Rates.server sent
      have less : t'.work + Rates.server.frame f + 3 ≤ t.work := by
        rcases RegTask.answer_eq_some move with ⟨pc, rfl, rfl⟩ | ⟨pc, rfl, rfl⟩ <;>
          simp only [RegTask.work, pc, RegPc.work, Rates.server, RfrpFrame.newRegAckFrame,
            RfrpFrame.forClient] <;>
          omega
      simp only [setTask, ServerAct.costs, ServerAct.brings]
      omega
  | @answerErr r t t' f here move =>
      have moved := work_tasks here t'
      have less : t'.work + 1 ≤ t.work := by
        rcases RegTask.answer_eq_some move with ⟨pc, -, rfl⟩ | ⟨pc, -, rfl⟩ <;>
          simp only [RegTask.work, pc, RegPc.work] <;>
          omega
      simp only [setTask, ServerAct.costs, ServerAct.brings]
      omega
  | @accept r sndBuf t here pc waiting =>
      have moved := work_tasks here { t with
        pc := .acquiring s.endpoint.links.length
        nextConnId := t.nextConnId + 1
        backlog := t.backlog - 1 }
      have fresh : (s.endpoint.addLink t.clientInfo.bindPort t.proxyId t.nextConnId t.routing
          (.fresh sndBuf)).work Rates.server = s.endpoint.work Rates.server + 0 :=
        Endpoint.work_addLink _ _ _ _ _ _ ⟨rfl, rfl, rfl, rfl⟩ fun _ => rfl
      simp only [RegTask.work, pc, RegPc.work] at moved
      simp only [acceptConn, ServerAct.costs, ServerAct.brings]
      omega
  | @acquire r n t l here pc link =>
      have moved := work_tasks here { t with pc := .accepting }
      have spawned := Endpoint.work_setLink Rates.server link (l.setConn l.conn.spawn)
      have most := Endpoint.linkWork_spawn Rates.server l
      simp only [RegTask.work, pc, RegPc.work] at moved
      simp only [setTask, ServerAct.costs, ServerAct.brings]
      omega
  | @cancelWaiting r n t l here _ pc link =>
      have moved := work_tasks here { t with pc := .done }
      have dropped := Endpoint.work_setLink Rates.server link (l.setConn l.conn.drop)
      have most := Endpoint.linkWork_drop Rates.server l
      simp only [RegTask.work, pc, RegPc.work] at moved
      simp only [setTask, ServerAct.costs, ServerAct.brings]
      omega
  | @cancel r t here _ live =>
      have moved := work_tasks here { t with pc := .done }
      have some := RegPc.work_pos live
      have before : t.work = t.pc.work + 7 * t.backlog := rfl
      have after : ({ t with pc := .done } : RegTask).work = 7 * t.backlog := Nat.zero_add _
      simp only [setTask, ServerAct.costs, ServerAct.brings]
      omega
  | endpoint move =>
      have paid := Endpoint.work_step Rates.server move fun same => other (same ▸ rfl)
      simp only [ServerAct.costs, ServerAct.brings]
      omega

end Server

end Rfrp
