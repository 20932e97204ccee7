import Rfrp.Session.ByteRefinement

/-!
# Nothing stays behind in the reader

`FramedRead` asks the socket for bytes only when its codec wishes for more. So a frame that was
written in full is read by the other side without another byte being written.
-/

namespace Rfrp

open Transition

variable {S Z Z' : Type} {aesGcm : Block 32 → Aead 12 16} {messagePack : MessagePack}
  {deflate : Coder Z} {inflate : Coder Z'} {represents : Bytes → Bytes → Prop} {codec : Codec S}
  {frame : Bytes → Bytes} {fresh : S} {pending : S → Bytes → Bytes → Prop} {key : Block 32}

/-- What the main loop gets of a frame. -/
def arrivalOf (messagePack : MessagePack) (f : RfrpFrame) : Arrival :=
  match received messagePack f with
  | .ok g => .frame g
  | .error _ => .undecodable

namespace Transit

variable {σ σ' : Type} [RunProxy σ] {Carried : RfrpFrame → Bytes → Prop} {p : TunnelEnd σ S Z Z'}
  {q : TunnelEnd σ' S Z Z'} {f : RfrpFrame} {rest : List RfrpFrame}

/-- When everything written has been read, the codec has the oldest frame. -/
theorem answer_of_read (codecs : Codecs messagePack deflate inflate represents codec frame fresh pending)
    (transit : Transit Carried frame pending key p q (f :: rest)) (all : p.outbound.queue = []) :
    ∃ reader buf, q.reader.next codec = (reader, .ok (some buf)) := by
  obtain ⟨bufs, read, tail, carry, small, waits, stream, -, -⟩ := transit.stream
  cases carry with
  | @cons _ buf _ bufs _ _ =>
  have fits := small buf List.mem_cons_self
  rw [all, List.append_nil, List.map_cons, List.flatten_cons, List.append_assoc] at stream
  rw [stream] at waits
  unfold FramedRead.next
  by_cases eof : q.reader.eof = true
  · obtain ⟨state, buffer, decoded, -⟩ := codecs.framing.eofWhole _ _ _ _ fits waits
    rw [if_pos eof, decoded]
    exact ⟨_, _, rfl⟩
  · obtain ⟨state, buffer, decoded, -⟩ := codecs.framing.whole _ _ _ _ fits waits
    rw [if_neg eof, decoded]
    exact ⟨_, _, rfl⟩

/-- A reader that waits for bytes has not got the frame that is in flight. -/
theorem unread (codecs : Codecs messagePack deflate inflate represents codec frame fresh pending)
    (transit : Transit Carried frame pending key p q (f :: rest)) (dry : q.reader.readable = false) :
    p.outbound.queue ≠ [] := by
  intro all
  obtain ⟨reader, buf, answered⟩ := transit.answer_of_read codecs all
  obtain ⟨live, read, waits, payload, fits, part, short⟩ := transit.dry dry
  obtain ⟨state, buffer, decoded, -⟩ := codecs.framing.part _ _ _ _ fits waits part short
  unfold FramedRead.next at answered
  rw [live, if_neg (by decide), decoded] at answered
  cases answered

/-- The oldest frame in flight is decoded, or the reader asks for more. -/
theorem next_or_dry (codecs : Codecs messagePack deflate inflate represents codec frame fresh pending)
    (transit : Transit (Carries aesGcm messagePack represents key) frame pending key p q (f :: rest))
    (reads : messagePack.RoundTrips f) (ready : q.reader.readable = true) :
    ∃ few, ∀ fuel ≥ few, ∃ reader receiver arrival,
      TunnelEnd.next aesGcm messagePack inflate codec fuel q.reader q.receiver =
        some (reader, receiver, arrival) ∧
      (arrival = arrivalOf messagePack f ∨
        arrival = .pending ∧ reader.readable = false ∧ p.outbound.queue ≠ []) := by
  cases asked : q.reader.next codec with
  | mk reader result =>
  rcases transit.answer codecs ready asked with ⟨g, buf, gs, same, carries, rfl, -⟩ | ⟨none, -, waiting⟩
  · cases same
    obtain ⟨few, decoded⟩ := decode_carried codecs.flate reads carries
    refine ⟨few, fun fuel enough => ?_⟩
    have opened := decoded fuel enough q.receiver transit.receiver
    unfold TunnelEnd.next arrivalOf
    rw [asked]
    dsimp only
    unfold TunnelEnd.decode
    generalize RfrpFrame.decodeEncryptedBytesMut aesGcm messagePack inflate fuel buf q.receiver = out
      at opened ⊢
    obtain ⟨answer, receiver⟩ := out
    cases opened
    cases received messagePack f with
    | ok g => exact ⟨reader, receiver, .frame g, rfl, Or.inl rfl⟩
    | error e => exact ⟨reader, receiver, .undecodable, rfl, Or.inl rfl⟩
  · rcases waiting with ⟨rfl, live, -⟩ | ⟨-, -, empty⟩
    · refine ⟨0, fun fuel _ => ⟨{ reader with readable := false }, q.receiver, .pending, ?_, Or.inr ⟨rfl, rfl, ?_⟩⟩⟩
      · unfold TunnelEnd.next
        rw [asked]
        dsimp only
        rw [live]
        rfl
      · intro all
        obtain ⟨_, _, answered⟩ := transit.answer_of_read codecs all
        rw [asked] at answered
        cases answered
    · cases empty

end Transit

/-- `q` reads from what `p` has written, or asks its codec. -/
def Pulls {σ σ' : Type} [RunProxy σ] [RunProxy σ'] (aesGcm : Block 32 → Aead 12 16)
    (messagePack : MessagePack) (deflate : Coder Z) (inflate : Coder Z') (codec : Codec S)
    (frame : Bytes → Bytes) (before after : TunnelEnd σ S Z Z' × TunnelEnd σ' S Z Z') : Prop :=
  (∃ fuel, before.2.step aesGcm messagePack deflate inflate codec frame (.next fuel) = some after.2 ∧
    after.1 = before.1) ∨
  ∃ k, before.2.readFrom k before.1 = some (after.2, after.1)

namespace Transit

open Relation

variable {σ σ' : Type} [RunProxy σ] [RunProxy σ'] {p : TunnelEnd σ S Z Z'} {q : TunnelEnd σ' S Z Z'}
  {f : RfrpFrame} {rest : List RfrpFrame} {proxy : σ'}
  (codecs : Codecs messagePack deflate inflate represents codec frame fresh pending)
  (transit : Transit (Carries aesGcm messagePack represents key) frame pending key p q (f :: rest))
  (reads : ∀ g ∈ f :: rest, messagePack.RoundTrips g) (waits : RunProxy.waits q.proxy = true)
  (arrives : RunProxy.arrive q.proxy (arrivalOf messagePack f) = some proxy)
include codecs transit reads waits arrives

/-- Asked for a frame, the codec has it or wishes for more. -/
theorem pull_ready (ready : q.reader.readable = true) :
    ∃ q', Pulls aesGcm messagePack deflate inflate codec frame (p, q) (p, q') ∧
      (q'.proxy = proxy ∨ q'.proxy = q.proxy ∧ q'.reader.readable = false ∧ p.outbound.queue ≠ [] ∧
        Transit (Carries aesGcm messagePack represents key) frame pending key p q' (f :: rest)) := by
  obtain ⟨few, answers⟩ := transit.next_or_dry codecs (reads f List.mem_cons_self) ready
  obtain ⟨reader, receiver, arrival, answered, got⟩ := answers few (Nat.le_refl _)
  have move : ∀ {proxy' : σ'}, RunProxy.arrive q.proxy arrival = some proxy' →
      q.step aesGcm messagePack deflate inflate codec frame (.next few) =
        some { q with proxy := proxy', reader, receiver } := by
    intro proxy' here
    show (if _ then _ else _) = _
    rw [if_pos ⟨waits, ready⟩, answered, Option.bind_some]
    show (RunProxy.arrive q.proxy arrival).map _ = _
    rw [here]
    rfl
  rcases got with rfl | ⟨rfl, dry, more⟩
  · exact ⟨_, Or.inl ⟨few, move arrives, rfl⟩, Or.inl rfl⟩
  · obtain ⟨left, same, -, after⟩ := transit.next codecs reads ready answered
    cases same
    have idle := RunProxy.arrive_pending q.proxy
    exact ⟨_, Or.inl ⟨few, move idle, rfl⟩, Or.inr ⟨rfl, dry, more, after⟩⟩

theorem pull_dry (dry : q.reader.readable = false) :
    ∃ p' q', ReflTransGen (Pulls aesGcm messagePack deflate inflate codec frame) (p, q) (p', q') ∧
      q'.proxy = proxy ∧ p'.proxy = p.proxy := by
  have more := transit.unread codecs dry
  have live := (transit.dry dry).1
  have asks : q.reads = true := by
    unfold TunnelEnd.reads
    rw [waits, dry, live]
    rfl
  obtain ⟨q₁, p₁, moved, ready, all⟩ : ∃ q₁ p₁, q.readFrom p.outbound.queue.length p = some (q₁, p₁) ∧
      q₁.reader.readable = true ∧ p₁.outbound.queue = [] := by
    have some : p.outbound.queue.length ≠ 0 := fun none => more (List.length_eq_zero_iff.mp none)
    refine ⟨_, _, if_pos ⟨asks, Nat.le_refl _, fun none => absurd none some⟩, rfl, ?_⟩
    rw [Fifo.queue_advance, List.drop_length]
  obtain ⟨after, same, same'⟩ := transit.readFrom codecs moved
  obtain ⟨q₂, pull, done | ⟨-, -, unread, -⟩⟩ := after.pull_ready codecs reads (same ▸ waits)
    (same ▸ arrives) ready
  · have read : Pulls aesGcm messagePack deflate inflate codec frame (p, q) (p₁, q₁) :=
      Or.inr ⟨_, moved⟩
    exact ⟨p₁, q₂, (ReflTransGen.single read).tail pull, done, same'⟩
  · exact absurd all unread

/-- The oldest frame in flight arrives. -/
theorem pulled :
    ∃ p' q', ReflTransGen (Pulls aesGcm messagePack deflate inflate codec frame) (p, q) (p', q') ∧
      q'.proxy = proxy ∧ p'.proxy = p.proxy := by
  cases ready : q.reader.readable with
  | false => exact transit.pull_dry codecs reads waits arrives ready
  | true =>
      obtain ⟨q₁, pull, done | ⟨same, dry, -, after⟩⟩ :=
        transit.pull_ready codecs reads waits arrives ready
      · exact ⟨p, q₁, ReflTransGen.single pull, done, rfl⟩
      · obtain ⟨p₂, q₂, run, done, same'⟩ :=
          after.pull_dry codecs reads (same ▸ waits) (same ▸ arrives) dry
        exact ⟨p₂, q₂, run.head pull, done, same'⟩

end Transit

theorem Server.arrives (messagePack : MessagePack) {s : Server} (waits : s.main = .reading)
    (f : RfrpFrame) :
    ∃ s', s.onArrival (arrivalOf messagePack f) = some s' := by
  unfold arrivalOf
  split <;> simp [onArrival, step, waits]

theorem Client.arrives (messagePack : MessagePack) {c : Client}
    (waits : (∃ i, c.main = .awaiting i) ∨ c.main = .reading) (f : RfrpFrame) : ∃ c', c.onArrival (arrivalOf messagePack f) = some c' := by
  unfold arrivalOf
  rcases waits with ⟨i, main⟩ | main <;> split <;> simp [onArrival, step, main]

def ByteAct.readsAtServer : ByteAct → Prop
  | .toServer _ | .serverSocket (.next _) => True
  | _ => False

def ByteAct.readsAtClient : ByteAct → Prop
  | .toClient _ | .clientSocket (.next _) => True
  | _ => False

namespace ByteSession

variable {config : ConfigInfo} {b b' : ByteSession S Z Z'}

theorem run_pulls_server {client : TunnelEnd Client S Z Z'} {server : TunnelEnd Server S Z Z'}
    (pulls : Relation.ReflTransGen (Pulls aesGcm messagePack deflate inflate codec frame)
      (b.client, b.server) (client, server)) :
    Run (step aesGcm messagePack deflate inflate codec frame) (fun _ a => a.readsAtServer) b
      ⟨server, client⟩ := by
  apply pulls.lift fun ends => (⟨ends.2, ends.1⟩ : ByteSession S Z Z')
  rintro ⟨client, server⟩ ⟨client', server'⟩ (⟨fuel, moved, same⟩ | ⟨k, moved⟩)
  · cases same
    refine ⟨.serverSocket (.next fuel), trivial, ?_⟩
    simp only [step]
    rw [moved]
    rfl
  · refine ⟨.toServer k, trivial, ?_⟩
    simp only [step]
    rw [moved]
    rfl

theorem run_pulls_client {client : TunnelEnd Client S Z Z'} {server : TunnelEnd Server S Z Z'}
    (pulls : Relation.ReflTransGen (Pulls aesGcm messagePack deflate inflate codec frame)
      (b.server, b.client) (server, client)) :
    Run (step aesGcm messagePack deflate inflate codec frame) (fun _ a => a.readsAtClient) b
      ⟨server, client⟩ := by
  apply pulls.lift fun ends => (⟨ends.1, ends.2⟩ : ByteSession S Z Z')
  rintro ⟨server, client⟩ ⟨server', client'⟩ (⟨fuel, moved, same⟩ | ⟨k, moved⟩)
  · cases same
    refine ⟨.clientSocket (.next fuel), trivial, ?_⟩
    simp only [step]
    rw [moved]
    rfl
  · refine ⟨.toClient k, trivial, ?_⟩
    simp only [step]
    rw [moved]
    rfl

/-- The oldest frame in flight reaches a main loop that waits for one, whatever pieces of it have been
read before and though nothing more is written. -/
theorem delivered {S Z Z' : Type} (aesGcm : Block 32 → Aead 12 16) (messagePack : MessagePack)
    (deflate : Coder Z) (inflate : Coder Z') (represents : Bytes → Bytes → Prop) (codec : Codec S)
    (frame : Bytes → Bytes) (fresh : S) (pending : S → Bytes → Bytes → Prop)
    (codecs : Codecs messagePack deflate inflate represents codec frame fresh pending)
    (config : ConfigInfo) (small : ∀ client ∈ config.clientProxy, client.fits) (key : Block 32)
    (b : ByteSession S Z Z')
    (reach : b.Reachable aesGcm messagePack deflate inflate codec frame fresh key config) :
    ∃ (toServer toClient : Fifo RfrpFrame) (n : Nat),
      (b.frames toServer toClient n).Reachable config ∧
      b.Flies aesGcm messagePack represents frame pending key toServer toClient ∧
      (∀ f rest, toServer.queue = f :: rest → b.server.proxy.main = .reading →
        ∃ b', Run (step aesGcm messagePack deflate inflate codec frame) (fun _ a => a.readsAtServer) b b' ∧
          b.server.proxy.onArrival (arrivalOf messagePack f) = some b'.server.proxy ∧
          b'.client.proxy = b.client.proxy) ∧
      ∀ f rest, toClient.queue = f :: rest →
        (∃ i, b.client.proxy.main = .awaiting i) ∨ b.client.proxy.main = .reading →
        ∃ b', Run (step aesGcm messagePack deflate inflate codec frame) (fun _ a => a.readsAtClient) b b' ∧
          b.client.proxy.onArrival (arrivalOf messagePack f) = some b'.client.proxy ∧
          b'.server.proxy = b.server.proxy := by
  obtain ⟨toServer, toClient, n, reach, inward, outward⟩ := reach.refines codecs small
  refine ⟨toServer, toClient, n, reach, ⟨inward, outward⟩, ?_, ?_⟩
  · intro f rest queue waits
    obtain ⟨proxy, arrives⟩ := Server.arrives messagePack waits f
    have waiting : RunProxy.waits b.server.proxy = true := decide_eq_true waits
    have transit := inward.transit (RunProxy.running_of_waits _ waiting)
    have reads : ∀ g ∈ toServer.queue, messagePack.RoundTrips g :=
      fun g mem => codecs.roundTrips g (reach.client_fits small (Or.inr mem))
    rw [queue] at transit reads
    obtain ⟨client, server, pulls, rfl, same⟩ := transit.pulled codecs reads waiting arrives
    exact ⟨⟨server, client⟩, run_pulls_server pulls, arrives, same⟩
  · intro f rest queue waits
    obtain ⟨proxy, arrives⟩ := Client.arrives messagePack waits f
    have waiting : RunProxy.waits b.client.proxy = true := by
      rcases waits with ⟨i, main⟩ | main
      · simp only [RunProxy.waits, main]
      · simp only [RunProxy.waits, main]
    have transit := outward.transit (RunProxy.running_of_waits _ waiting)
    have reads : ∀ g ∈ toClient.queue, messagePack.RoundTrips g :=
      fun g mem => codecs.roundTrips g (reach.server_fits small (Or.inr mem))
    rw [queue] at transit reads
    obtain ⟨server, client, pulls, rfl, same⟩ := transit.pulled codecs reads waiting arrives
    exact ⟨⟨server, client⟩, run_pulls_client pulls, arrives, same⟩

/-- The client's first heartbeat, written in full and half read. -/
def wholePing : List ByteAct :=
  [.client .tick, .client .ping, .client (.endpoint (.writer .recv)), .clientSocket (.encode 99),
    .clientSocket (.write 50), .toServer 7, .serverSocket (.next 99)]

theorem delivered_wholePing : ∃ (b b' : ByteSession Unit Coder.OneShot Coder.OneShot) (f : RfrpFrame),
    b.server.reader.buffer.length = 7 ∧
    Run (step (fun _ => pingGcm) RmpSerde.messagePack (.oneShot pingDeflate) (.oneShot pingInflate)
      ServerIo.lengthDelimited ServerIo.delimit) (fun _ a => a.readsAtServer) b b' ∧
    b.server.proxy.onArrival (arrivalOf RmpSerde.messagePack f) = some b'.server.proxy := by
  have view : (exec (step (fun _ => pingGcm) RmpSerde.messagePack (.oneShot pingDeflate)
      (.oneShot pingInflate) ServerIo.lengthDelimited ServerIo.delimit)
      (start Session.noProxies 64 () zeroSender zeroSender zeroReceiver zeroReceiver) wholePing).map
      (fun b => (b.server.reader.buffer.length, b.server.proxy.main,
        (ServerIo.lengthDelimited.decode () (b.server.reader.buffer ++ b.client.outbound.queue)).2.1)) =
        some (7, .reading, []) := by decide +kernel
  obtain ⟨b, run, seen⟩ := Option.map_eq_some_iff.mp view
  obtain ⟨seven, seen⟩ := Prod.mk.inj seen
  obtain ⟨waits, taken⟩ := Prod.mk.inj seen
  have reach : b.Reachable (fun _ => pingGcm) RmpSerde.messagePack (.oneShot pingDeflate)
      (.oneShot pingInflate) ServerIo.lengthDelimited ServerIo.delimit () (.zero 32)
      Session.noProxies :=
    ⟨64, zeroSender, zeroSender, zeroReceiver, zeroReceiver, rfl, rfl, rfl, rfl,
      reach_of_exec wholePing run⟩
  obtain ⟨toServer, toClient, n, -, flies, arrives, -⟩ := delivered _ _ _ _ _ _ _ _ _ pingCodecs
    Session.noProxies noProxies_small _ b reach
  cases queue : toServer.queue with
  | cons f rest =>
      obtain ⟨b', reads, arrived, -⟩ := arrives f rest queue waits
      exact ⟨b, b', f, seven, reads, arrived⟩
  | nil =>
      -- the bytes would not hold a frame
      have transit := flies.toServer.transit (RunProxy.running_of_waits _ (decide_eq_true waits))
      obtain ⟨bufs, read, tail, carry, -, rfl, stream, ⟨p, fits, part, short⟩, -⟩ := transit.stream
      rw [queue] at carry
      cases carry
      rw [stream, List.map_nil, List.flatten_nil, List.nil_append,
        ServerIo.decode_part fits part short] at taken
      rw [show tail = [] from taken, List.map_nil, List.flatten_nil, List.nil_append] at stream
      have none := congrArg List.length stream
      rw [List.length_append, seven, List.length_nil] at none
      omega

end ByteSession

end Rfrp
