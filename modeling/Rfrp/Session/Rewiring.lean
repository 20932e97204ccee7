import Rfrp.Session.Wires

/-!
# What does not look at the wire

No step but a send or a read on the tunnel socket looks at the frames in flight: with other frames
in flight, and another socket, every other step is the same.
-/

namespace Rfrp

def FrameWriter.onWire (wire : Fifo RfrpFrame) (sndBuf : Nat) (w : FrameWriter) : FrameWriter :=
  { w with wire, sndBuf }

def Endpoint.onWire {τ : Type} (wire : Fifo RfrpFrame) (sndBuf : Nat) (e : Endpoint τ) :
    Endpoint τ :=
  { e with tunnel := e.tunnel.onWire wire sndBuf }

def Server.onWire (wire : Fifo RfrpFrame) (sndBuf : Nat) (s : Server) : Server :=
  { s with endpoint := s.endpoint.onWire wire sndBuf }

def Client.onWire (wire : Fifo RfrpFrame) (sndBuf : Nat) (c : Client) : Client :=
  { c with endpoint := c.endpoint.onWire wire sndBuf }

def EndpointAct.offWire : EndpointAct → Bool
  | .writer .sent | .writer .peerReads => false
  | _ => true

def ServerAct.offWire : ServerAct → Bool
  | .endpoint a => a.offWire
  | _ => true

def ClientAct.offWire : ClientAct → Bool
  | .endpoint a => a.offWire
  | _ => true

variable {wire : Fifo RfrpFrame} {n : Nat}

namespace FrameWriter

theorem send_onWire (w : FrameWriter) (f : RfrpFrame) :
    (w.onWire wire n).send f = (w.send f).map (onWire wire n) := by
  unfold send
  rw [apply_ite (Option.map (onWire wire n))]
  rfl

theorem step_onWire (w : FrameWriter) (senders : Bool) {a : WriterAct}
    (off : EndpointAct.offWire (.writer a) = true) :
    (w.onWire wire n).step senders a = (w.step senders a).map (onWire wire n) := by
  cases a with
  | sent => cases off
  | peerReads => cases off
  | recv =>
      unfold step
      rw [show (w.onWire wire n).task = w.task from rfl,
        show (w.onWire wire n).chan = w.chan from rfl]
      cases w.task <;> cases w.chan.pop <;> rfl
  | sendErr =>
      unfold step
      rw [show (w.onWire wire n).task = w.task from rfl]
      cases w.task <;> rfl
  | recvNone | cancel =>
      unfold step
      rw [apply_ite (Option.map (onWire wire n))]
      rfl

end FrameWriter

namespace Endpoint

variable {τ : Type}

theorem enqueue_onWire (e : Endpoint τ) (f : RfrpFrame) :
    (e.onWire wire n).enqueue f = (e.enqueue f).map (onWire wire n) := by
  unfold enqueue
  rw [show (e.onWire wire n).tunnel = e.tunnel.onWire wire n from rfl, FrameWriter.send_onWire,
    Option.map_map, Option.map_map]
  rfl

theorem deliver_onWire (e : Endpoint τ) (k : Nat) (data : Bytes) :
    (e.onWire wire n).deliver k data = (e.deliver k data).map (onWire wire n) := by
  unfold deliver
  rw [Option.map_bind]
  apply congrArg (Option.bind e.links[k]?)
  funext l
  show _ = Option.map _ (Option.map _ _)
  rw [Option.map_map]
  rfl

theorem step_onWire (e : Endpoint τ) (o : Owners) {a : EndpointAct} (off : a.offWire = true) :
    (e.onWire wire n).step o a = (e.step o a).map (onWire wire n) := by
  cases a with
  | writer a =>
      unfold step
      rw [Option.map_map]
      show ((e.tunnel.onWire wire n).step (e.tunnelSenders o) a).map _ = _
      rw [FrameWriter.step_onWire _ _ off, Option.map_map]
      rfl
  | conn k a =>
      unfold step
      rw [Option.map_bind]
      apply congrArg (Option.bind e.links[k]?)
      funext l
      show _ = Option.map _ (Option.map _ _)
      rw [Option.map_map]
      rfl
  | sendData k =>
      unfold step
      rw [Option.map_bind]
      apply congrArg (Option.bind e.links[k]?)
      funext l
      cases hand : l.conn.reader with
      | sending data =>
          simp only [hand, Function.comp_apply]
          rw [show (e.onWire wire n).tunnel = e.tunnel.onWire wire n from rfl,
            FrameWriter.send_onWire, Option.map_map, Option.map_map]
          rfl
      | _ => simp only [hand, Function.comp_apply, Option.map_none]
  | sendDataErr k =>
      unfold step
      rw [Option.map_bind]
      apply congrArg (Option.bind e.links[k]?)
      funext l
      cases hand : l.conn.reader with
      | sending data =>
          simp only [hand, Function.comp_apply]
          rw [apply_ite (Option.map (onWire wire n))]
          rfl
      | _ => simp only [hand, Function.comp_apply, Option.map_none]
  | remove k =>
      unfold step
      rw [Option.map_bind]
      apply congrArg (Option.bind e.links[k]?)
      funext l
      rw [Function.comp_apply, apply_ite (Option.map (onWire wire n))]
      rfl
  | finish k =>
      unfold step
      rw [Option.map_bind]
      apply congrArg (Option.bind e.links[k]?)
      funext l
      rw [Function.comp_apply, apply_ite (Option.map (onWire wire n))]
      rfl

end Endpoint

namespace Server

theorem handleFrame_onWire (s : Server) (f : RfrpFrame) :
    (s.onWire wire n).handleFrame f = (s.handleFrame f).onWire wire n := by
  cases f with
  | register client | control info =>
      unfold handleFrame
      dsimp only
      rw [apply_ite (onWire wire n)]
      rfl
  | registerAck => rfl
  | data d =>
      unfold handleFrame
      dsimp only
      rw [show (s.onWire wire n).routingFor d.proxyId = s.routingFor d.proxyId from rfl,
        show (s.onWire wire n).endpoint.lookup = s.endpoint.lookup from rfl]
      cases (s.routingFor d.proxyId).1.bind fun t => s.endpoint.lookup t d.connId <;> rfl

theorem step_onWire (s : Server) {a : ServerAct} (off : a.offWire = true) :
    (s.onWire wire n).step a = (s.step a).map (onWire wire n) := by
  cases a with
  | recv f =>
      unfold step
      dsimp only
      rw [handleFrame_onWire, show (s.onWire wire n).main = s.main from rfl]
      cases s.main <;> rfl
  | exit r =>
      unfold step
      rw [show (s.onWire wire n).main = s.main from rfl]
      cases s.main with
      | reading =>
          dsimp only
          rw [apply_ite (Option.map (onWire wire n))]
          rfl
      | _ => rfl
  | reply =>
      unfold step
      rw [show (s.onWire wire n).replyFrame = s.replyFrame from rfl, Option.map_bind]
      apply congrArg (Option.bind s.replyFrame)
      funext f
      rw [Function.comp_apply, show (s.onWire wire n).endpoint = s.endpoint.onWire wire n from rfl,
        Endpoint.enqueue_onWire, Option.map_map, Option.map_map]
      rfl
  | replyErr =>
      unfold step
      rw [apply_ite (Option.map (onWire wire n)), show (s.onWire wire n).main = s.main from rfl]
      cases s.main <;> rfl
  | route =>
      unfold step
      rw [show (s.onWire wire n).main = s.main from rfl]
      cases s.main with
      | routing k data =>
          dsimp only
          rw [show (s.onWire wire n).endpoint = s.endpoint.onWire wire n from rfl,
            Endpoint.deliver_onWire, Option.map_map, Option.map_map]
          rfl
      | _ => rfl
  | routeErr =>
      unfold step
      rw [show (s.onWire wire n).main = s.main from rfl]
      cases s.main with
      | routing k data =>
          dsimp only
          rw [apply_ite (Option.map (onWire wire n))]
          rfl
      | _ => rfl
  | connect r =>
      unfold step
      rw [Option.map_bind]
      apply congrArg (Option.bind s.tasks[r]?)
      funext t
      rw [Function.comp_apply, apply_ite (Option.map (onWire wire n))]
      rfl
  | bind r ok =>
      unfold step
      rw [Option.map_bind]
      apply congrArg (Option.bind s.tasks[r]?)
      funext t
      rw [Function.comp_apply, Option.map_map]
      rfl
  | answer r =>
      unfold step
      rw [Option.map_bind]
      apply congrArg (Option.bind s.tasks[r]?)
      funext t
      rw [Function.comp_apply, Option.map_bind]
      apply congrArg (Option.bind t.answer)
      funext ft
      cases ft
      dsimp only [Function.comp_apply]
      rw [show (s.onWire wire n).endpoint = s.endpoint.onWire wire n from rfl,
        Endpoint.enqueue_onWire, Option.map_map, Option.map_map]
      rfl
  | answerErr r =>
      unfold step
      rw [Option.map_bind]
      apply congrArg (Option.bind s.tasks[r]?)
      funext t
      rw [Function.comp_apply, Option.map_bind]
      apply congrArg (Option.bind t.answer)
      funext ft
      rw [Function.comp_apply, apply_ite (Option.map (onWire wire n))]
      rfl
  | accept r sndBuf =>
      unfold step
      rw [Option.map_bind]
      apply congrArg (Option.bind s.tasks[r]?)
      funext t
      rw [Function.comp_apply, apply_ite (Option.map (onWire wire n))]
      rfl
  | acquire r =>
      unfold step
      rw [Option.map_bind]
      apply congrArg (Option.bind s.tasks[r]?)
      funext t
      rw [Function.comp_apply]
      cases t.pc with
      | acquiring k =>
          dsimp only
          rw [Option.map_bind]
          apply congrArg (Option.bind s.endpoint.links[k]?)
          funext l
          rw [Function.comp_apply, apply_ite (Option.map (onWire wire n))]
          rfl
      | _ => rfl
  | cancel r =>
      unfold step
      rw [Option.map_bind]
      apply congrArg (Option.bind s.tasks[r]?)
      funext t
      rw [Function.comp_apply, apply_ite (Option.map (onWire wire n))]
      cases t.pc with
      | acquiring k =>
          dsimp only
          rw [Option.map_bind]
          rfl
      | _ => rfl
  | endpoint a =>
      unfold step
      rw [Option.map_map]
      show ((s.endpoint.onWire wire n).step s.owners a).map _ = _
      rw [Endpoint.step_onWire _ _ off, Option.map_map]
      rfl

end Server

namespace Client

theorem registerFrom_onWire (c : Client) (i : Nat) :
    (c.onWire wire n).registerFrom i = (c.registerFrom i).onWire wire n := by
  unfold registerFrom
  rw [apply_ite (onWire wire n)]
  rfl

theorem handleAnswer_onWire (c : Client) (i : Nat) (f : RfrpFrame) :
    (c.onWire wire n).handleAnswer i f = (c.handleAnswer i f).onWire wire n := by
  cases f with
  | registerAck resp =>
      unfold handleAnswer
      dsimp only
      rw [apply_ite (onWire wire n), show (c.onWire wire n).config = c.config from rfl]
      cases c.config[i]? with
      | none => rfl
      | some client =>
          dsimp only
          rw [← registerFrom_onWire]
          rfl
  | _ => rfl

theorem connsFor_onWire (c : Client) (p : UInt32) :
    (c.onWire wire n).connsFor p = ((c.connsFor p).1, (c.connsFor p).2.onWire wire n) := by
  unfold connsFor
  rw [show (c.onWire wire n).proxyConns = c.proxyConns from rfl,
    show (c.onWire wire n).cachedConns = c.cachedConns from rfl]
  cases c.proxyConns p <;> cases c.cachedConns with
  | none => rfl
  | some cached =>
      dsimp only
      by_cases same : cached.1 = p
      · rw [if_pos same, if_pos same]
      · rw [if_neg same, if_neg same]
        rfl

theorem handleFrame_onWire (c : Client) (f : RfrpFrame) :
    (c.onWire wire n).handleFrame f = (c.handleFrame f).onWire wire n := by
  cases f with
  | data d =>
      unfold handleFrame
      dsimp only
      rw [show (c.onWire wire n).proxyConfigs = c.proxyConfigs from rfl]
      cases c.proxyConfigs d.proxyId with
      | none => rfl
      | some client =>
          dsimp only
          rw [connsFor_onWire]
          rw [show ((c.connsFor d.proxyId).2.onWire wire n).endpoint.lookup =
            (c.connsFor d.proxyId).2.endpoint.lookup from rfl]
          cases (c.connsFor d.proxyId).2.endpoint.lookup (c.connsFor d.proxyId).1 d.connId <;> rfl
  | _ => rfl

theorem insertConn_onWire (c : Client) (client : ClientInfo) (d : DataInfo) (m sndBuf : Nat) :
    (c.onWire wire n).insertConn client d m sndBuf = (c.insertConn client d m sndBuf).onWire wire n := by
  unfold insertConn
  rw [show (c.onWire wire n).endpoint.lookup = c.endpoint.lookup from rfl]
  cases c.endpoint.lookup m d.connId <;> rfl

theorem step_onWire (c : Client) {a : ClientAct} (off : a.offWire = true) :
    (c.onWire wire n).step a = (c.step a).map (onWire wire n) := by
  cases a with
  | recv f =>
      unfold step
      rw [show (c.onWire wire n).main = c.main from rfl]
      cases c.main with
      | awaiting i =>
          dsimp only
          rw [handleAnswer_onWire]
          rfl
      | reading =>
          dsimp only
          rw [handleFrame_onWire]
          rfl
      | _ => rfl
  | exit r =>
      unfold step
      rw [apply_ite (Option.map (onWire wire n)), show (c.onWire wire n).main = c.main from rfl]
      cases c.main <;> rfl
  | register =>
      unfold step
      rw [show (c.onWire wire n).main = c.main from rfl]
      cases c.main with
      | registering i =>
          dsimp only
          rw [Option.map_bind]
          apply congrArg (Option.bind c.config[i]?)
          funext client
          rw [Function.comp_apply, show (c.onWire wire n).endpoint = c.endpoint.onWire wire n from rfl,
            Endpoint.enqueue_onWire, Option.map_map, Option.map_map]
          rfl
      | _ => rfl
  | registerErr =>
      unfold step
      rw [show (c.onWire wire n).main = c.main from rfl]
      cases c.main with
      | registering i =>
          dsimp only
          rw [apply_ite (Option.map (onWire wire n))]
          rfl
      | _ => rfl
  | connected sndBuf =>
      unfold step
      rw [show (c.onWire wire n).main = c.main from rfl]
      cases c.main with
      | connecting client d m =>
          dsimp only
          rw [insertConn_onWire]
          rfl
      | _ => rfl
  | refused =>
      unfold step
      rw [show (c.onWire wire n).main = c.main from rfl]
      cases c.main <;> rfl
  | forward =>
      unfold step
      rw [show (c.onWire wire n).main = c.main from rfl]
      cases c.main with
      | forwarding k d m =>
          dsimp only
          rw [show (c.onWire wire n).endpoint = c.endpoint.onWire wire n from rfl,
            Endpoint.deliver_onWire, Option.map_map, Option.map_map]
          rfl
      | _ => rfl
  | forwardErr =>
      unfold step
      rw [show (c.onWire wire n).main = c.main from rfl]
      cases c.main with
      | forwarding k d m =>
          dsimp only
          rw [apply_ite (Option.map (onWire wire n))]
          rfl
      | _ => rfl
  | tick | pingErr | pingCancel =>
      unfold step
      rw [apply_ite (Option.map (onWire wire n))]
      rfl
  | ping =>
      unfold step
      rw [apply_ite (Option.map (onWire wire n)),
        show (c.onWire wire n).endpoint = c.endpoint.onWire wire n from rfl,
        Endpoint.enqueue_onWire, Option.map_map, Option.map_map]
      rfl
  | endpoint a =>
      unfold step
      rw [Option.map_map]
      show ((c.endpoint.onWire wire n).step c.owners a).map _ = _
      rw [Endpoint.step_onWire _ _ off, Option.map_map]
      rfl

end Client

end Rfrp
