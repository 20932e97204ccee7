import Rfrp.Session.Opening

/-!
# Every session on bytes is connected

The other direction of a connection from its first byte: on sockets that take any bytes at all the
two handshakes can get through, and behind them the connection can follow every session on bytes.
-/

namespace Rfrp

open Transition

namespace TunnelEnd

variable {σ S Z Z' : Type} [RunProxy σ] {p p' q : TunnelEnd σ S Z Z'} {nonce : Block 32}
  {aesGcm : Block 32 → Aead 12 16} {messagePack : MessagePack} {deflate : Coder Z}
  {inflate : Coder Z'} {codec : Codec S} {frame : Bytes → Bytes} {a : SocketAct}

/-- Behind the nonce the socket takes what it took before. -/
theorem Past.answer (past : p'.Past nonce p) (read : 32 ≤ p'.outbound.taken)
    (h : p.step aesGcm messagePack deflate inflate codec frame a = some q) :
    ∃ q', p'.step aesGcm messagePack deflate inflate codec frame a = some q' ∧ q'.Past nonce q ∧
      q'.outbound.taken = p'.outbound.taken := by
  have queue := past.queue read
  obtain ⟨same, log, taken⟩ := id past
  by_cases writes : ∃ k, a = .write k
  · obtain ⟨k, rfl⟩ := writes
    have tunnel : p'.tunnel = p.tunnel := by rw [same]; rfl
    have writing : p'.writing = p.writing := by rw [same]; rfl
    have sndBuf : p'.sndBuf = p.sndBuf := by rw [same]; rfl
    simp only [TunnelEnd.step, TunnelEnd.write, tunnel, writing, sndBuf, queue] at h ⊢
    cases hand : p.tunnel.task with
    | sending f =>
        simp only [hand] at h ⊢
        obtain ⟨room, h⟩ := Option.ite_none_right_eq_some.mp h
        have pushed := past.pushAll (p.writing.take k) (p.writing.drop k)
        rw [sndBuf] at pushed
        rw [if_pos room]
        by_cases last : p.writing.drop k = []
        · rw [if_pos last] at h ⊢
          cases h
          exact ⟨_, rfl, pushed.setTask _, rfl⟩
        · rw [if_neg last] at h ⊢
          cases h
          exact ⟨_, rfl, pushed, rfl⟩
    | _ => simp [hand] at h
  · have back : p = (p.setOutbound p'.outbound).setOutbound p.outbound := rfl
    rw [back] at h
    obtain ⟨q', move, out, rfl⟩ := step_setOutbound (fun k write => writes ⟨k, write⟩) h
    rw [← same] at move
    have out : q'.outbound = p'.outbound := out
    refine ⟨q', move, ⟨rfl, ?_, ?_⟩, congrArg Fifo.taken out⟩
    · rw [out, log]
      rfl
    · rw [out, ← taken]
      rfl

end TunnelEnd

namespace Opening

variable {S Z Z' : Type} {o : Opening S Z Z'} {aesGcm : Block 32 → Aead 12 16}
  {messagePack : MessagePack} {deflate : Coder Z} {inflate : Coder Z'} {codec : Codec S}
  {frame : Bytes → Bytes} {sndBuf : Nat} {fresh : S} {A : Setup Server Z Z'} {B : Setup Client Z Z'}
  {first b b' : ByteSession S Z Z'} {act : ByteAct} {serverCipher clientCipher : Cipher}

/-- Both handshakes are through, and behind the nonces the ends are those of the session. -/
structure Through (A : Setup Server Z Z') (B : Setup Client Z Z') (o : Opening S Z Z')
    (b : ByteSession S Z Z') (p : TunnelEnd Server S Z Z') (q : TunnelEnd Client S Z Z') : Prop where
  server : o.server = .proxying p
  client : o.client = .proxying q
  past : p.Past A.nonce b.server
  past' : q.Past B.nonce b.client
  read : 32 ≤ p.outbound.taken
  read' : 32 ≤ q.outbound.taken

theorem readFrom_answer {σ σ' : Type} [RunProxy σ] [RunProxy σ'] {C : Setup σ Z Z'}
    {p' p p₁ : TunnelEnd σ S Z Z'} {q' q q₁ : TunnelEnd σ' S Z Z'} {nonce nonce' : Block 32} {k : Nat}
    (past : p'.Past nonce p) (past' : q'.Past nonce' q) (read : 32 ≤ q'.outbound.taken)
    (h : p.readFrom k q = some (p₁, q₁)) : ∃ p₁' q₁',
      Opener.readFrom C k (.proxying p') (.proxying q') = some (.proxying p₁', .proxying q₁') ∧
      p₁'.Past nonce p₁ ∧ q₁'.Past nonce' q₁ ∧ p₁'.outbound = p'.outbound ∧
      32 ≤ q₁'.outbound.taken := by
  have queue := past'.queue read
  have same : q'.tunnel = q.tunnel := by rw [past'.same]; rfl
  have reads : p'.reads = p.reads := by rw [past.same]; rfl
  have ended : q'.ended = q.ended := by rw [TunnelEnd.ended, TunnelEnd.ended, same, queue]
  obtain ⟨⟨ready, most, eof⟩, h⟩ := Option.ite_none_right_eq_some.mp h
  cases h
  have most' : k ≤ q'.outbound.queue.length := queue ▸ most
  refine ⟨_, _, Option.ite_none_right_eq_some.mpr
    ⟨⟨reads.trans ready, most', fun none => ended.trans (eof none)⟩, rfl⟩, ?_,
    past'.advance most' read, rfl, ?_⟩
  · rw [show (Opener.proxying q' : Opener σ' S Z Z').outbound.queue = q.outbound.queue from queue]
    exact past.read _
  · rw [TunnelEnd.outbound_setOutbound]
    exact (Nat.le_add_right_of_le read).trans_eq (Fifo.taken_advance most').symm

/-- Every step of the session is one of the connection. -/
theorem Through.answer {p : TunnelEnd Server S Z Z'} {q : TunnelEnd Client S Z Z'}
    (through : o.Through A B b p q)
    (h : b.step aesGcm messagePack deflate inflate codec frame act = some b') :
    ∃ a o' p' q', o.step aesGcm messagePack deflate inflate codec frame sndBuf fresh A B a = some o' ∧
      o'.Through A B b' p' q' := by
  obtain ⟨server, client, past, past', read, read'⟩ := through
  obtain ⟨x, y⟩ := o
  cases server
  cases client
  cases act with
  | server a =>
      obtain ⟨inner, h⟩ := Option.ite_none_right_eq_some.mp h
      obtain ⟨proxy, move, rfl⟩ := Option.map_eq_some_iff.mp h
      have same : p.proxy = b.server.proxy := by rw [past.same]; rfl
      rw [← same] at move
      exact ⟨.server a, ⟨.proxying { p with proxy }, .proxying q⟩, _, _,
        by simp [Opening.step, inner, move],
        ⟨rfl, rfl, past.setProxy proxy, past', read, read'⟩⟩
  | client a =>
      obtain ⟨inner, h⟩ := Option.ite_none_right_eq_some.mp h
      obtain ⟨proxy, move, rfl⟩ := Option.map_eq_some_iff.mp h
      have same : q.proxy = b.client.proxy := by rw [past'.same]; rfl
      rw [← same] at move
      exact ⟨.client a, ⟨.proxying p, .proxying { q with proxy }⟩, _, _,
        by simp [Opening.step, inner, move],
        ⟨rfl, rfl, past, past'.setProxy proxy, read, read'⟩⟩
  | serverSocket a =>
      obtain ⟨end', move, rfl⟩ := Option.map_eq_some_iff.mp h
      obtain ⟨p', taken, after, same⟩ := past.answer read move
      exact ⟨.serverOpener (.socket a), ⟨.proxying p', .proxying q⟩, _, _,
        by simp [Opening.step, Opener.step, taken],
        ⟨rfl, rfl, after, past', same ▸ read, read'⟩⟩
  | clientSocket a =>
      obtain ⟨end', move, rfl⟩ := Option.map_eq_some_iff.mp h
      obtain ⟨q', taken, after, same⟩ := past'.answer read' move
      exact ⟨.clientOpener (.socket a), ⟨.proxying p, .proxying q'⟩, _, _,
        by simp [Opening.step, Opener.step, taken],
        ⟨rfl, rfl, past, after, read, same ▸ read'⟩⟩
  | toServer k =>
      obtain ⟨⟨reader, writer⟩, move, rfl⟩ := Option.map_eq_some_iff.mp h
      obtain ⟨p', q', taken, after, after', same, more⟩ :=
        readFrom_answer (C := A) past past' read' move
      exact ⟨.toServer k, ⟨.proxying p', .proxying q'⟩, _, _, by simp [Opening.step, taken],
        ⟨rfl, rfl, after, after', same ▸ read, more⟩⟩
  | toClient k =>
      obtain ⟨⟨reader, writer⟩, move, rfl⟩ := Option.map_eq_some_iff.mp h
      obtain ⟨q', p', taken, after, after', same, more⟩ :=
        readFrom_answer (C := B) past' past read move
      exact ⟨.toClient k, ⟨.proxying p', .proxying q'⟩, _, _, by simp [Opening.step, taken],
        ⟨rfl, rfl, after', after, more, same ▸ read'⟩⟩

/-! ## The handshakes get through -/

/-- Of a nonce the first `n` bytes are written and read. -/
structure Carried (nonce : Block 32) (n : Nat) (unsent : Bytes) (out : Fifo UInt8) (got : Bytes) :
    Prop where
  unsent : unsent = nonce.bytes.drop n
  log : out.log = nonce.bytes.take n
  taken : out.taken = n
  got : got = nonce.bytes.take n

section
variable {nonce : Block 32} {n : Nat} {unsent got : Bytes} {out : Fifo UInt8}
  (carried : Carried nonce n unsent out got)
include carried

theorem Carried.queue : out.queue = [] := by
  rw [Fifo.queue, carried.log, carried.taken, List.drop_take, Nat.sub_self, List.take_zero]

theorem Carried.length (most : n ≤ 32) : got.length = n ∧ unsent.length = 32 - n := by
  rw [carried.got, carried.unsent, List.length_take, List.length_drop, nonce.length_eq]
  exact ⟨Nat.min_eq_left most, rfl⟩

theorem Carried.pushed : (out.pushAll (unsent.take 1)).queue = (nonce.bytes.drop n).take 1 := by
  rw [Fifo.queue_pushAll, carried.queue, carried.unsent]
  rfl

theorem Carried.one (less : n < 32) : 1 ≤ (out.pushAll (unsent.take 1)).queue.length := by
  rw [carried.pushed, List.length_take, List.length_drop, nonce.length_eq]
  omega

theorem Carried.next (less : n < 32) :
    Carried nonce (n + 1) (unsent.drop 1) ((out.pushAll (unsent.take 1)).advance 1)
      (got ++ (out.pushAll (unsent.take 1)).queue.take 1) := by
  have pushed := carried.pushed
  refine ⟨?_, ?_, ?_, ?_⟩
  · rw [carried.unsent, List.drop_drop]
  · rw [Fifo.log_advance, Fifo.log_pushAll, carried.log, carried.unsent, List.take_add]
  · rw [Fifo.taken_advance (carried.one less)]
    exact congrArg (· + 1) carried.taken
  · rw [pushed, List.take_take, carried.got, List.take_add]
    rfl

/-- One more byte is written by the one side and read by the other. -/
theorem Carried.relay {σ σ' : Type} [RunProxy σ] [RunProxy σ'] {C : Setup σ Z Z'} {D : Setup σ' Z Z'}
    (less : n < 32) (room : 0 < sndBuf) (own unsent' : Bytes) (out' : Fifo UInt8)
    (writes : C.speaksFirst = true ∨ own.length = 32)
    (reads : D.speaksFirst = false ∨ unsent' = []) :
    (Opener.shaking unsent own out : Opener σ S Z Z').write sndBuf C 1 =
      some (.shaking (unsent.drop 1) own (out.pushAll (unsent.take 1))) ∧
    Opener.readFrom D 1 (.shaking unsent' got out' : Opener σ' S Z Z')
      (.shaking (unsent.drop 1) own (out.pushAll (unsent.take 1)) : Opener σ S Z Z') =
      some (.shaking unsent' (got ++ (out.pushAll (unsent.take 1)).queue.take 1) out',
        .shaking (unsent.drop 1) own ((out.pushAll (unsent.take 1)).advance 1)) := by
  obtain ⟨length, left⟩ := carried.length less.le
  constructor
  · have free : out.queue.length + 1 ≤ sndBuf := by
      rw [carried.queue]
      exact room
    have some : 1 ≤ unsent.length := by omega
    simp only [Opener.write, writes, Nat.one_pos, some, free, and_self, if_true]
  · have short : got.length + 1 ≤ 32 := by omega
    have may : (!D.speaksFirst) = true ∨ unsent' = [] := by simpa using reads
    simp only [Opener.readFrom, may, Opener.outbound, Opener.setOutbound, carried.one less, short,
      Nat.one_pos, and_self, if_true]

end

/-- The server has read `m` bytes of the client's nonce, and the client `n` of the server's. -/
def Shaken (A : Setup Server Z Z') (B : Setup Client Z Z') (m n : Nat) (o : Opening S Z Z') : Prop :=
  ∃ unsent got out unsent' got' out',
    o = ⟨.shaking unsent got out, .shaking unsent' got' out'⟩ ∧
    Carried B.nonce m unsent' out' got ∧ Carried A.nonce n unsent out got'

section
variable (room : 0 < sndBuf)
include room

theorem shaken_client (silent : A.speaksFirst = false) (speaks : B.speaksFirst = true) {m n : Nat}
    (less : m < 32) :
    Leads (step aesGcm messagePack deflate inflate codec frame sndBuf fresh A B) (fun _ _ => True)
      (Shaken A B m n) (Shaken A B (m + 1) n) := by
  rintro o ⟨unsent, got, out, unsent', got', out', rfl, carried, other⟩
  obtain ⟨write, read⟩ := carried.relay (S := S) (C := B) (D := A) less room got' unsent out
    (Or.inl speaks) (Or.inl silent)
  have written : step aesGcm messagePack deflate inflate codec frame sndBuf fresh A B
      ⟨.shaking unsent got out, .shaking unsent' got' out'⟩ (.clientOpener (.write 1)) =
      some ⟨.shaking unsent got out,
        .shaking (unsent'.drop 1) got' (out'.pushAll (unsent'.take 1))⟩ := by
    simp only [step, Opener.step, write, Option.map_some]
  have received : step aesGcm messagePack deflate inflate codec frame sndBuf fresh A B
      ⟨.shaking unsent got out,
        .shaking (unsent'.drop 1) got' (out'.pushAll (unsent'.take 1))⟩ (.toServer 1) =
      some ⟨.shaking unsent (got ++ (out'.pushAll (unsent'.take 1)).queue.take 1) out,
        .shaking (unsent'.drop 1) got' ((out'.pushAll (unsent'.take 1)).advance 1)⟩ := by
    simp only [step, read, Option.map_some]
  exact ⟨_, ((Run.refl _).tail trivial written).tail trivial received, _, _, _, _, _, _, rfl,
    carried.next less, other⟩

theorem shaken_server {n : Nat} (less : n < 32) :
    Leads (step aesGcm messagePack deflate inflate codec frame sndBuf fresh A B) (fun _ _ => True)
      (Shaken A B 32 n) (Shaken A B 32 (n + 1)) := by
  rintro o ⟨unsent, got, out, unsent', got', out', rfl, other, carried⟩
  obtain ⟨whole, left⟩ := other.length (Nat.le_refl 32)
  have done : unsent' = [] := List.eq_nil_of_length_eq_zero left
  obtain ⟨write, read⟩ := carried.relay (S := S) (C := A) (D := B) less room got unsent' out'
    (Or.inr whole) (Or.inr done)
  have written : step aesGcm messagePack deflate inflate codec frame sndBuf fresh A B
      ⟨.shaking unsent got out, .shaking unsent' got' out'⟩ (.serverOpener (.write 1)) =
      some ⟨.shaking (unsent.drop 1) got (out.pushAll (unsent.take 1)),
        .shaking unsent' got' out'⟩ := by
    simp only [step, Opener.step, write, Option.map_some]
  have received : step aesGcm messagePack deflate inflate codec frame sndBuf fresh A B
      ⟨.shaking (unsent.drop 1) got (out.pushAll (unsent.take 1)),
        .shaking unsent' got' out'⟩ (.toClient 1) =
      some ⟨.shaking (unsent.drop 1) got ((out.pushAll (unsent.take 1)).advance 1),
        .shaking unsent' (got' ++ (out.pushAll (unsent.take 1)).queue.take 1) out'⟩ := by
    simp only [step, read, Option.map_some]
  exact ⟨_, ((Run.refl _).tail trivial written).tail trivial received, _, _, _, _, _, _, rfl, other,
    carried.next less⟩

theorem shaken_all (silent : A.speaksFirst = false) (speaks : B.speaksFirst = true) :
    Leads (step aesGcm messagePack deflate inflate codec frame sndBuf fresh A B) (fun _ _ => True)
      (Shaken A B 0 0) (Shaken A B 32 32) :=
  (Leads.iterate (P := fun m => Shaken A B m 0) fun _ less =>
      shaken_client room silent speaks less).trans
    (Leads.iterate (P := Shaken A B 32) fun _ less => shaken_server room less)

end

theorem finish_eq {σ : Type} {C : Setup σ Z Z'} {nonce : Block 32} {cipher : Cipher}
    (answers : C.handshake nonce = .ok cipher) (sndBuf : Nat) (fresh : S) (out : Fifo UInt8) :
    (Opener.shaking [] nonce.bytes out).finish sndBuf fresh C =
      some (.proxying ((C.opens sndBuf fresh cipher).setOutbound out)) := by
  simp only [Opener.finish, dif_pos nonce.length_eq]
  rw [show (⟨nonce.bytes, nonce.length_eq⟩ : Block 32) = nonce from rfl, answers]

theorem Carried.past {σ : Type} {C : Setup σ Z Z'} {unsent got : Bytes} {out : Fifo UInt8}
    (carried : Carried C.nonce 32 unsent out got) (sndBuf : Nat) (fresh : S) (cipher : Cipher) :
    ((C.opens sndBuf fresh cipher).setOutbound out).Past C.nonce (C.opens sndBuf fresh cipher) where
  same := rfl
  log := carried.log.trans ((List.take_of_length_le C.nonce.length_eq.le).trans
    (List.append_nil _).symm)
  taken := by
    rw [TunnelEnd.outbound_setOutbound, carried.taken]
    rfl

theorem through_of_shaken (answers : A.handshake B.nonce = .ok serverCipher)
    (answers' : B.handshake A.nonce = .ok clientCipher) :
    Leads (step aesGcm messagePack deflate inflate codec frame sndBuf fresh A B) (fun _ _ => True)
      (Shaken A B 32 32) fun o => ∃ p q, o.Through A B
        ⟨A.opens sndBuf fresh serverCipher, B.opens sndBuf fresh clientCipher⟩ p q := by
  rintro o ⟨unsent, got, out, unsent', got', out', rfl, fromClient, fromServer⟩
  have done : unsent = [] :=
    List.eq_nil_of_length_eq_zero (fromServer.length (Nat.le_refl 32)).2
  have done' : unsent' = [] :=
    List.eq_nil_of_length_eq_zero (fromClient.length (Nat.le_refl 32)).2
  have whole : got = B.nonce.bytes :=
    fromClient.got.trans (List.take_of_length_le B.nonce.length_eq.le)
  have whole' : got' = A.nonce.bytes :=
    fromServer.got.trans (List.take_of_length_le A.nonce.length_eq.le)
  have past := fromServer.past sndBuf fresh serverCipher
  have past' := fromClient.past sndBuf fresh clientCipher
  have read := fromServer.taken.ge
  have read' := fromClient.taken.ge
  subst done done' whole whole'
  have server : step aesGcm messagePack deflate inflate codec frame sndBuf fresh A B
      ⟨.shaking [] B.nonce.bytes out, .shaking [] A.nonce.bytes out'⟩ (.serverOpener .finish) =
      some ⟨.proxying ((A.opens sndBuf fresh serverCipher).setOutbound out),
        .shaking [] A.nonce.bytes out'⟩ := by
    simp only [step, Opener.step, finish_eq answers, Option.map_some]
  have client : step aesGcm messagePack deflate inflate codec frame sndBuf fresh A B
      ⟨.proxying ((A.opens sndBuf fresh serverCipher).setOutbound out),
        .shaking [] A.nonce.bytes out'⟩ (.clientOpener .finish) =
      some ⟨.proxying ((A.opens sndBuf fresh serverCipher).setOutbound out),
        .proxying ((B.opens sndBuf fresh clientCipher).setOutbound out')⟩ := by
    simp only [step, Opener.step, finish_eq answers', Option.map_some]
  exact ⟨_, ((Run.refl _).tail trivial server).tail trivial client, _, _, rfl, rfl, past, past',
    read, read'⟩

theorem shaken_start : Shaken A B 0 0 (start A B : Opening S Z Z') :=
  ⟨_, _, _, _, _, _, rfl, ⟨rfl, rfl, rfl, rfl⟩, ⟨rfl, rfl, rfl, rfl⟩⟩

theorem through_of_run (room : 0 < sndBuf) (silent : A.speaksFirst = false)
    (speaks : B.speaksFirst = true) (answers : A.handshake B.nonce = .ok serverCipher)
    (answers' : B.handshake A.nonce = .ok clientCipher)
    (run : Reach (ByteSession.step aesGcm messagePack deflate inflate codec frame)
      ⟨A.opens sndBuf fresh serverCipher, B.opens sndBuf fresh clientCipher⟩ b) :
    ∃ o, Reach (step aesGcm messagePack deflate inflate codec frame sndBuf fresh A B) (start A B) o ∧
      ∃ p q, o.Through A B b p q := by
  refine run.induct (P := fun b => ∃ o,
    Reach (step aesGcm messagePack deflate inflate codec frame sndBuf fresh A B) (start A B) o ∧
      ∃ p q, o.Through A B b p q) ?_ ?_
  · exact ((shaken_all room silent speaks).trans (through_of_shaken answers answers')) _ shaken_start
  · rintro b act b' - ⟨o, reach, p, q, through⟩ - move
    obtain ⟨a, o', p', q', taken, after⟩ := through.answer move
    exact ⟨o', reach.tail trivial taken, p', q', after⟩

/-- On sockets that take any bytes at all, every session on bytes under the key of two nonces is what
comes of a connection whose two handshakes got through. -/
theorem realized {S Z Z' : Type} (aesGcm : Block 32 → Aead 12 16) (messagePack : MessagePack)
    (deflate : Coder Z) (inflate : Coder Z') (codec : Codec S) (frame : Bytes → Bytes) (sndBuf : Nat)
    (room : 0 < sndBuf) (fresh : S) (sha256 : Bytes → Block 32) (authToken : String)
    (config : ConfigInfo) (shared : config.server.authToken = authToken)
    (serverNonce clientNonce : Block 32) (serverPrefix clientPrefix : Block 4) (serverZ clientZ : Z)
    (serverZ' clientZ' : Z') (key : Block 32)
    (derived : key = deriveSessionKey sha256 authToken clientNonce serverNonce)
    (b : ByteSession S Z Z')
    (reach : Reach (ByteSession.step aesGcm messagePack deflate inflate codec frame)
      (.start config sndBuf fresh ⟨.new key serverPrefix, [], serverZ⟩
        ⟨.new key clientPrefix, [], clientZ⟩ ⟨.new key serverPrefix, [], serverZ'⟩
        ⟨.new key clientPrefix, [], clientZ'⟩) b) :
    ∃ (o : Opening S Z Z') (p : TunnelEnd Server S Z Z') (q : TunnelEnd Client S Z Z'),
      Reach (step aesGcm messagePack deflate inflate codec frame sndBuf fresh
        (serverSetup sha256 authToken serverNonce serverPrefix serverZ serverZ')
        (clientSetup sha256 config clientNonce clientPrefix clientZ clientZ'))
        (start (serverSetup sha256 authToken serverNonce serverPrefix serverZ serverZ')
          (clientSetup sha256 config clientNonce clientPrefix clientZ clientZ')) o ∧
      o.server = .proxying p ∧ o.client = .proxying q ∧
      p.Past serverNonce b.server ∧ q.Past clientNonce b.client ∧
      p.outbound.queue = b.server.outbound.queue ∧ q.outbound.queue = b.client.outbound.queue := by
  subst shared derived
  obtain ⟨o, run, p, q, through⟩ := through_of_run
    (A := serverSetup sha256 config.server.authToken serverNonce serverPrefix serverZ serverZ')
    (B := clientSetup sha256 config clientNonce clientPrefix clientZ clientZ') room rfl rfl rfl rfl
    reach
  exact ⟨o, p, q, run, through.server, through.client, through.past, through.past',
    through.past.queue through.read, through.past'.queue through.read'⟩

theorem realized_halfAPing : ∃ (o : Opening Unit Coder.OneShot Coder.OneShot)
    (p : TunnelEnd Server Unit Coder.OneShot Coder.OneShot)
    (q : TunnelEnd Client Unit Coder.OneShot Coder.OneShot),
    Reach (step (fun _ => secretGcm) RmpSerde.messagePack (.oneShot pingDeflate)
      (.oneShot pingInflate) ServerIo.lengthDelimited ServerIo.delimit 64 () atServer atClient)
      (start atServer atClient) o ∧
    o.server = .proxying p ∧ o.client = .proxying q ∧
    p.reader.buffer = [0, 0, 0, 46, 206, 205, 58] ∧ q.outbound.queue.length = 13 := by
  have view : (exec (ByteSession.step (fun _ => secretGcm) RmpSerde.messagePack
      (.oneShot pingDeflate) (.oneShot pingInflate) ServerIo.lengthDelimited ServerIo.delimit)
      (.start secretConfig 64 ()
        ⟨.new (deriveSessionKey sha256Table "secret" (.replicate 32 1) (.replicate 32 2))
          (.replicate 4 1), [], ⟨none, 0, 0⟩⟩
        ⟨.new (deriveSessionKey sha256Table "secret" (.replicate 32 1) (.replicate 32 2))
          (.zero 4), [], ⟨none, 0, 0⟩⟩
        ⟨.new (deriveSessionKey sha256Table "secret" (.replicate 32 1) (.replicate 32 2))
          (.replicate 4 1), [], ⟨none, 0, 0⟩⟩
        ⟨.new (deriveSessionKey sha256Table "secret" (.replicate 32 1) (.replicate 32 2))
          (.zero 4), [], ⟨none, 0, 0⟩⟩) ByteSession.halfAPing).map
      (fun b => (b.server.reader.buffer, b.client.outbound.queue.length)) =
        some ([0, 0, 0, 46, 206, 205, 58], 13) := by decide +kernel
  obtain ⟨b, run, seen⟩ := Option.map_eq_some_iff.mp view
  obtain ⟨buffer, outbound⟩ := Prod.mk.inj seen
  obtain ⟨o, p, q, reach, server, client, past, past', -, queue⟩ := realized (fun _ => secretGcm)
    RmpSerde.messagePack (.oneShot pingDeflate) (.oneShot pingInflate) ServerIo.lengthDelimited
    ServerIo.delimit 64 (by decide) () sha256Table "secret" secretConfig rfl (.replicate 32 2)
    (.replicate 32 1) (.replicate 4 1) (.zero 4) ⟨none, 0, 0⟩ ⟨none, 0, 0⟩ ⟨none, 0, 0⟩ ⟨none, 0, 0⟩ _
    rfl b (reach_of_exec ByteSession.halfAPing run)
  have same : p.reader = b.server.reader := by rw [past.same]; rfl
  exact ⟨o, p, q, reach, server, client, same ▸ buffer, queue ▸ outbound⟩

end Opening

end Rfrp
