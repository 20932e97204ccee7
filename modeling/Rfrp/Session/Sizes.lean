import Rfrp.Session.ByteRefinement

/-!
# Frames within the limits

`make_length_delimited_codec` refuses a frame over 1 MiB and `decompress_into_vec` stops at 64 MiB.
Neither limit is met by a session whose entries are of a sensible length: a Data frame holds one
read, and no other frame holds more than an entry.
-/

namespace Rfrp

open Transition

/-- DEFLATE does not blow up what it cannot compress. -/
def Coder.Squeezes {Z : Type} (deflate : Coder Z) : Prop :=
  ∀ fuel data dst z z' stream, compressIntoBytesMut deflate fuel data dst z = some (z', stream) →
    stream.length ≤ 2 * data.length + 128

/-- What the limits rest on of the code that is not here. `encrypt_in_place_detached` works on a slice,
so a ciphertext is as long as its plaintext. -/
structure Slim {Z : Type} (aesGcm : Block 32 → Aead 12 16) (messagePack : MessagePack)
    (deflate : Coder Z) : Prop where
  compact : messagePack.Compact
  squeezes : deflate.Squeezes
  inPlace : ∀ key nonce data, ((aesGcm key).encrypt nonce data).1.length = data.length

/-- The longest entry that surely fits. -/
def maxEntrySize : Nat := 256 * 1024

theorem ClientInfo.fits_of_size {client : ClientInfo} (modest : client.size ≤ maxEntrySize) :
    client.fits := by
  unfold size maxEntrySize at modest
  unfold fits shortString
  omega

theorem Client.Speaks.size_le {config : ConfigInfo} {f : RfrpFrame}
    (modest : ∀ client ∈ config.clientProxy, client.size ≤ maxEntrySize)
    (speaks : Client.Speaks config.init.clientProxy f) : f.size ≤ maxEntrySize := by
  cases speaks with
  | data chunk => exact Nat.le_trans chunk.2 (by decide)
  | register entry =>
      obtain ⟨client, here, rfl⟩ := List.mem_map.mp entry
      exact modest client here
  | ping => decide

theorem Server.Speaks.size_le {config : ConfigInfo} {f : RfrpFrame}
    (modest : ∀ client ∈ config.clientProxy, client.size ≤ maxEntrySize)
    (speaks : Server.Speaks (config.init.clientProxy.map ClientInfo.skipAddr) f) :
    f.size ≤ maxEntrySize := by
  cases speaks with
  | data chunk => exact Nat.le_trans chunk.2 (by decide)
  | @ack r asked =>
      obtain ⟨entry, here, same⟩ := List.mem_map.mp asked
      obtain ⟨client, there, rfl⟩ := List.mem_map.mp here
      show r.client.size ≤ maxEntrySize
      rw [← same]
      exact modest client there
  | pong => decide

/-! ## One frame -/

variable {S Z Z' : Type} {aesGcm : Block 32 → Aead 12 16} {messagePack : MessagePack}
  {deflate : Coder Z} {inflate : Coder Z'} {represents : Bytes → Bytes → Prop} {codec : Codec S}
  {frame : Bytes → Bytes} {fresh : S} {pending : S → Bytes → Bytes → Prop} {key : Block 32}
  {config : ConfigInfo} {f : RfrpFrame}

theorem length_encodeEncrypted (slim : Slim aesGcm messagePack deflate) {s s' : Sender Z} {buf : Bytes}
    {fuel : Nat} (encoded : f.encodeEncrypted aesGcm messagePack deflate fuel s = some (buf, s')) :
    buf.length ≤ 2 * f.size + 284 := by
  obtain ⟨bytes, written, encoded⟩ := Option.bind_eq_some_iff.mp encoded
  obtain ⟨⟨compress, stream⟩, squeezed, encoded⟩ := Option.bind_eq_some_iff.mp encoded
  cases encoded
  have packed := slim.compact f bytes written
  have short : stream.length ≤ 2 * bytes.length + 128 := slim.squeezes _ _ _ _ _ _ squeezed
  have whole := slim.inPlace s.cipher.key s.cipher.nonce stream
  show (((aesGcm s.cipher.key).encrypt s.cipher.nonce stream).1 ++ (s.cipher.nonce.bytes ++
    ((aesGcm s.cipher.key).encrypt s.cipher.nonce stream).2.bytes)).length ≤ _
  rw [List.length_append, List.length_append, Block.length_eq, Block.length_eq, whole]
  omega

theorem received_ok (compact : messagePack.Compact) (modest : f.size ≤ maxEntrySize)
    (writes : messagePack.RoundTrips f) : received messagePack f = .ok f.skipAddr := by
  obtain ⟨bytes, written, -⟩ := writes
  have packed := compact f bytes written
  unfold maxEntrySize at modest
  unfold received maxDecompressedSize
  rw [written, Option.getD_some, if_pos (by omega)]

theorem TunnelEnd.proxy_of_encode {σ : Type} [RunProxy σ] (slim : Slim aesGcm messagePack deflate)
    {p p' : TunnelEnd σ S Z Z'} {fuel : Nat}
    (modest : ∀ f, p.tunnel.task = .sending f → f.size ≤ maxEntrySize)
    (move : p.encode aesGcm messagePack deflate frame fuel = some p') : p'.proxy = p.proxy := by
  unfold TunnelEnd.encode at move
  split at move
  · rename_i f sending
    obtain ⟨-, move⟩ := Option.ite_none_right_eq_some.mp move
    obtain ⟨⟨buf, sender⟩, encoded, rfl⟩ := Option.map_eq_some_iff.mp move
    have short := length_encodeEncrypted slim encoded
    have few := modest f sending
    unfold maxEntrySize at few
    have fits : buf.length ≤ maxFrameLen := by
      unfold maxFrameLen
      omega
    dsimp only
    rw [if_pos fits]
  · cases move

/-! ## How a main loop ends -/

theorem Server.cause_of_step {s s' : Server} {a : ServerAct} {r : ExitReason} (h : s.step a = some s')
    (now : s'.main = .ended r) : s.main = .ended r ∨ a = .exit r ∨ r = .pongFailed := by
  cases moves_of_step h with
  | exit main =>
      cases now
      exact Or.inr (Or.inl rfl)
  | pongErr =>
      cases now
      exact Or.inr (Or.inr rfl)
  | recvLimit | recvPing | recvRouted | reply | replyErr | route | routeErr => cases now
  | _ => exact Or.inl now

theorem Client.cause_of_step {c c' : Client} {a : ClientAct} {r : ClientExit} (h : c.step a = some c')
    (now : c'.main = .ended r) :
    c.main = .ended r ∨ a = .exit r ∨ r = .rejected ∨ r = .unexpectedFrame ∨ r = .sendFailed := by
  cases moves_of_step h with
  | giveUp | exit =>
      cases now
      exact Or.inr (Or.inl rfl)
  | recvReject =>
      cases now
      exact Or.inr (Or.inr (Or.inl rfl))
  | recvUnexpected =>
      cases now
      exact Or.inr (Or.inr (Or.inr (Or.inl rfl)))
  | registerErr =>
      cases now
      exact Or.inr (Or.inr (Or.inr (Or.inr rfl)))
  | recvAck | recvLastAck | recvFast | recvNew | register | connectedTwice | connected | refused
  | forward | forwardErr => cases now
  | _ => exact Or.inl now

theorem Server.ended_of_onArrival {s s' : Server} {arrival : Arrival} {r : ExitReason}
    (h : s.onArrival arrival = some s') (other : r ≠ .pongFailed) (now : s'.main = .ended r) :
    s.main = .ended r ∨ (r = .undecodable → arrival = .undecodable) ∧
      (r = .readError → arrival = .readError) := by
  cases arrival with
  | pending =>
      cases h
      exact Or.inl now
  | frame f =>
      rcases cause_of_step (a := .recv f) h now with before | same | failed
      · exact Or.inl before
      · cases same
      · exact absurd failed other
  | eof | readError | undecodable | keepaliveTimeout =>
      rcases cause_of_step (a := .exit _) h now with before | same | failed
      · exact Or.inl before
      · cases same
        exact Or.inr (by decide)
      · exact absurd failed other

theorem Client.ended_of_onArrival {c c' : Client} {arrival : Arrival} {r : ClientExit}
    (h : c.onArrival arrival = some c') (other : r = .undecodable ∨ r = .readError)
    (now : c'.main = .ended r) :
    c.main = .ended r ∨ (r = .undecodable → arrival = .undecodable) ∧
      (r = .readError → arrival = .readError) := by
  have outside : ¬ (r = .rejected ∨ r = .unexpectedFrame ∨ r = .sendFailed) := by
    rcases other with rfl | rfl <;> decide
  have leaves : ∀ r', c.step (.exit r') = some c' → c.main = .ended r ∨ r' = r := by
    intro r' move
    rcases cause_of_step move now with before | same | failed
    · exact Or.inl before
    · exact Or.inr (ClientAct.exit.inj same)
    · exact absurd failed outside
  cases arrival with
  | pending =>
      cases h
      exact Or.inl now
  | frame f =>
      rcases cause_of_step (a := .recv f) h now with before | same | failed
      · exact Or.inl before
      · cases same
      · exact absurd failed outside
  | eof => exact (leaves .eof h).imp_right (by rintro rfl; decide)
  | readError => exact (leaves .readError h).imp_right (by rintro rfl; decide)
  | undecodable => exact (leaves .undecodable h).imp_right (by rintro rfl; decide)
  | keepaliveTimeout => exact (leaves .keepaliveTimeout h).imp_right (by rintro rfl; decide)

/-- The main loop is left as it was but for the write task, or something arrived. -/
theorem TunnelEnd.Comes.arrival {σ : Type} [RunProxy σ] {p : TunnelEnd σ S Z Z'} {proxy : σ}
    {Carried : RfrpFrame → Bytes → Prop} {peerEnded : Bool} {a : SocketAct}
    {incoming outgoing incoming' outgoing' : Fifo RfrpFrame}
    (comes : p.Comes messagePack Carried peerEnded incoming outgoing a proxy incoming' outgoing') :
    (∃ tunnel, proxy = RunProxy.setTunnel p.proxy tunnel) ∨ proxy = p.proxy ∨
    ∃ arrival, RunProxy.arrive p.proxy arrival = some proxy ∧
      (arrival = .undecodable → ∃ f e, f ∈ incoming.queue ∧ received messagePack f = .error e) ∧
      (arrival = .readError → a = .readErr ∨ peerEnded = true) := by
  cases comes with
  | idle => exact Or.inr (Or.inl rfl)
  | refused | failed | sent => exact Or.inl ⟨_, rfl⟩
  | frame _ arrives => exact Or.inr (Or.inr ⟨_, arrives, by simp⟩)
  | undecodable flying bad arrives =>
      exact Or.inr (Or.inr ⟨_, arrives, fun _ => ⟨_, _, flying, bad⟩, by simp⟩)
  | readError why arrives => exact Or.inr (Or.inr ⟨_, arrives, by simp, fun _ => why⟩)
  | eof _ _ arrives | keepaliveTimeout arrives => exact Or.inr (Or.inr ⟨_, arrives, by simp⟩)

/-! ## Whole runs -/

namespace ByteSession

variable {b b' : ByteSession S Z Z'}

section
variable (codecs : Codecs messagePack deflate inflate represents codec frame fresh pending)
  (slim : Slim aesGcm messagePack deflate)
  (modest : ∀ client ∈ config.clientProxy, client.size ≤ maxEntrySize)
  {toServer toClient : Fifo RfrpFrame} {n : Nat} {a : SocketAct}
  (refines : b.Refines aesGcm messagePack represents frame pending key config toServer toClient n)
include codecs slim modest refines

theorem Refines.serverSocket {server : TunnelEnd Server S Z Z'}
    (moved : b.server.step aesGcm messagePack deflate inflate codec frame a = some server) :
    (server.proxy.main = .ended .undecodable → b.server.proxy.main = .ended .undecodable) ∧
    (server.proxy.main = .ended .readError →
      b.server.proxy.main = .ended .readError ∨ a = .readErr ∨ b.client.ended = true) := by
  have small := fun client mem => ClientInfo.fits_of_size (modest client mem)
  obtain ⟨toServer', toClient', comes, -⟩ := refines.comes_server codecs small moved
  rcases comes.arrival with ⟨tunnel, same⟩ | same | ⟨arrival, arrives, bad, why⟩
  · rw [same]
    exact ⟨id, Or.inl⟩
  · rw [same]
    exact ⟨id, Or.inl⟩
  · constructor
    · intro now
      rcases Server.ended_of_onArrival arrives (by decide) now with before | ⟨cause, -⟩
      · exact before
      · obtain ⟨f, e, flying, failed⟩ := bad (cause rfl)
        have ok := refines.reach.client.endpoint_ok.tunnel
        have speaks := refines.reach.client_speaks f (ok.mem_of_flying flying)
        rw [received_ok slim.compact (speaks.size_le modest) (codecs.roundTrips f (speaks.fits small))]
          at failed
        cases failed
    · intro now
      rcases Server.ended_of_onArrival arrives (by decide) now with before | ⟨-, cause⟩
      · exact Or.inl before
      · exact Or.inr (why (cause rfl))

theorem Refines.clientSocket {client : TunnelEnd Client S Z Z'}
    (moved : b.client.step aesGcm messagePack deflate inflate codec frame a = some client) :
    (client.proxy.main = .ended .undecodable → b.client.proxy.main = .ended .undecodable) ∧
    (client.proxy.main = .ended .readError →
      b.client.proxy.main = .ended .readError ∨ a = .readErr ∨ b.server.ended = true) := by
  have small := fun client mem => ClientInfo.fits_of_size (modest client mem)
  obtain ⟨toClient', toServer', comes, -⟩ := refines.comes_client codecs small moved
  rcases comes.arrival with ⟨tunnel, same⟩ | same | ⟨arrival, arrives, bad, why⟩
  · rw [same]
    exact ⟨id, Or.inl⟩
  · rw [same]
    exact ⟨id, Or.inl⟩
  · constructor
    · intro now
      rcases Client.ended_of_onArrival arrives (Or.inl rfl) now with before | ⟨cause, -⟩
      · exact before
      · obtain ⟨f, e, flying, failed⟩ := bad (cause rfl)
        have ok := refines.reach.server.endpoint_ok.tunnel
        have speaks := refines.reach.server_speaks f (ok.mem_of_flying flying)
        rw [received_ok slim.compact (speaks.size_le modest) (codecs.roundTrips f (speaks.fits small))]
          at failed
        cases failed
    · intro now
      rcases Client.ended_of_onArrival arrives (Or.inr rfl) now with before | ⟨-, cause⟩
      · exact Or.inl before
      · exact Or.inr (why (cause rfl))

end

theorem proxy_of_readFrom {σ σ' : Type} [RunProxy σ] [RunProxy σ'] {p p' : TunnelEnd σ S Z Z'}
    {q q' : TunnelEnd σ' S Z Z'} {k : Nat} (moved : p.readFrom k q = some (p', q')) :
    p'.proxy = p.proxy ∧ q'.proxy = q.proxy := by
  obtain ⟨-, same⟩ := Option.ite_none_right_eq_some.mp moved
  cases same
  exact ⟨rfl, rfl⟩

section
variable (codecs : Codecs messagePack deflate inflate represents codec frame fresh pending)
  (slim : Slim aesGcm messagePack deflate)
  (modest : ∀ client ∈ config.clientProxy, client.size ≤ maxEntrySize)
  (reach : b.Reachable aesGcm messagePack deflate inflate codec frame fresh key config)
include codecs slim modest reach

theorem Reachable.decodes :
    b.server.proxy.main ≠ .ended .undecodable ∧ b.client.proxy.main ≠ .ended .undecodable := by
  have small := fun client mem => ClientInfo.fits_of_size (modest client mem)
  refine reach.induct (P := fun b => b.server.proxy.main ≠ .ended .undecodable ∧
    b.client.proxy.main ≠ .ended .undecodable) ?_ ?_
  · intro sndBuf serverSender clientSender serverReceiver clientReceiver
    refine ⟨(fun now => by cases now), fun now => ?_⟩
    have main : (Client.start config.init.clientProxy 0).main = .ended .undecodable := now
    rcases Client.main_start config.init.clientProxy 0 with ⟨-, start⟩ | ⟨-, start⟩ <;>
      rw [start] at main <;> cases main
  · rintro b act b' reach ⟨server, client⟩ move
    obtain ⟨toServer, toClient, n, refines⟩ := reach.refines codecs small
    cases act with
    | server a =>
        obtain ⟨inner, move⟩ := Option.ite_none_right_eq_some.mp move
        obtain ⟨proxy, moved, rfl⟩ := Option.map_eq_some_iff.mp move
        refine ⟨fun now => ?_, client⟩
        rcases Server.cause_of_step moved now with before | rfl | failed
        · exact server before
        · cases inner
        · cases failed
    | client a =>
        obtain ⟨inner, move⟩ := Option.ite_none_right_eq_some.mp move
        obtain ⟨proxy, moved, rfl⟩ := Option.map_eq_some_iff.mp move
        refine ⟨server, fun now => ?_⟩
        rcases Client.cause_of_step moved now with before | rfl | failed
        · exact client before
        · cases inner
        · simp at failed
    | serverSocket a =>
        obtain ⟨half, moved, rfl⟩ := Option.map_eq_some_iff.mp move
        exact ⟨fun now => server ((refines.serverSocket codecs slim modest moved).1 now), client⟩
    | clientSocket a =>
        obtain ⟨half, moved, rfl⟩ := Option.map_eq_some_iff.mp move
        exact ⟨server, fun now => client ((refines.clientSocket codecs slim modest moved).1 now)⟩
    | toServer k =>
        obtain ⟨⟨_, _⟩, moved, rfl⟩ := Option.map_eq_some_iff.mp move
        obtain ⟨same, same'⟩ := proxy_of_readFrom moved
        exact ⟨same ▸ server, same' ▸ client⟩
    | toClient k =>
        obtain ⟨⟨_, _⟩, moved, rfl⟩ := Option.map_eq_some_iff.mp move
        obtain ⟨same, same'⟩ := proxy_of_readFrom moved
        exact ⟨same' ▸ server, same ▸ client⟩

end

/-- No frame of a session is refused for its length, none fails to decode, and a main loop gets an
error from its reader only when the socket fails or the other side stopped writing. -/
theorem within_limits {S Z Z' : Type} (aesGcm : Block 32 → Aead 12 16) (messagePack : MessagePack)
    (deflate : Coder Z) (inflate : Coder Z') (represents : Bytes → Bytes → Prop) (codec : Codec S)
    (frame : Bytes → Bytes) (fresh : S) (pending : S → Bytes → Bytes → Prop)
    (codecs : Codecs messagePack deflate inflate represents codec frame fresh pending)
    (slim : Slim aesGcm messagePack deflate) (config : ConfigInfo)
    (modest : ∀ client ∈ config.clientProxy, client.size ≤ maxEntrySize) (key : Block 32)
    (b : ByteSession S Z Z')
    (reach : b.Reachable aesGcm messagePack deflate inflate codec frame fresh key config) :
    (b.server.proxy.main ≠ .ended .undecodable ∧ b.client.proxy.main ≠ .ended .undecodable) ∧
    (∀ fuel server, b.server.encode aesGcm messagePack deflate frame fuel = some server →
      server.proxy = b.server.proxy) ∧
    (∀ fuel client, b.client.encode aesGcm messagePack deflate frame fuel = some client →
      client.proxy = b.client.proxy) ∧
    (∀ a server, b.server.step aesGcm messagePack deflate inflate codec frame a = some server →
      server.proxy.main = .ended .readError →
        b.server.proxy.main = .ended .readError ∨ a = .readErr ∨ b.client.ended = true) ∧
    (∀ a client, b.client.step aesGcm messagePack deflate inflate codec frame a = some client →
      client.proxy.main = .ended .readError →
        b.client.proxy.main = .ended .readError ∨ a = .readErr ∨ b.server.ended = true) := by
  have small := fun client mem => ClientInfo.fits_of_size (modest client mem)
  obtain ⟨toServer, toClient, n, refines⟩ := reach.refines codecs small
  have server := refines.reach.server.endpoint_ok.tunnel
  have client := refines.reach.client.endpoint_ok.tunnel
  refine ⟨reach.decodes codecs slim modest, ?_, ?_, ?_, ?_⟩
  · intro fuel p move
    apply TunnelEnd.proxy_of_encode slim _ move
    intro f sending
    exact (refines.reach.server_speaks f (server.mem_of_sending sending)).size_le modest
  · intro fuel p move
    apply TunnelEnd.proxy_of_encode slim _ move
    intro f sending
    exact (refines.reach.client_speaks f (client.mem_of_sending sending)).size_le modest
  · exact fun a p move => (refines.serverSocket codecs slim modest move).2
  · exact fun a p move => (refines.clientSocket codecs slim modest move).2

theorem pingSlim : Slim (fun _ => pingGcm) RmpSerde.messagePack (.oneShot pingDeflate) where
  compact := RmpSerde.compact
  squeezes fuel data dst z z' stream squeezed := by
    obtain ⟨stream', z'', valid, few, result⟩ := pingFlate.compress data dst z
    have same := (compress_more squeezed (Nat.le_max_left fuel few)).symm.trans
      (result _ (Nat.le_max_right fuel few))
    cases same
    have back : pingInflate stream = some data := valid
    unfold pingInflate at back
    split at back
    · cases back
      rw [List.length_cons]
      omega
    · obtain ⟨rfl, -⟩ := Option.ite_none_right_eq_some.mp back
      exact Nat.le_trans (show pingStream.length ≤ 128 by decide) (Nat.le_add_left _ _)
  inPlace _ nonce data := by simp [pingGcm, Aead.counterMode, mask]

theorem within_limits_halfAPing : ∃ b : ByteSession Unit Coder.OneShot Coder.OneShot,
    b.server.reader.buffer ≠ [] ∧
    (b.server.proxy.main ≠ .ended .undecodable ∧ b.client.proxy.main ≠ .ended .undecodable) ∧
    ∀ fuel client, b.client.encode (fun _ => pingGcm) RmpSerde.messagePack (.oneShot pingDeflate)
      ServerIo.delimit fuel = some client → client.proxy = b.client.proxy := by
  obtain ⟨b, reach, buffer, -⟩ := halfAPing_reachable
  obtain ⟨decodes, -, encodes, -⟩ := within_limits _ _ _ _ _ _ _ _ _ pingCodecs pingSlim
    Session.noProxies noProxies_small _ b reach
  exact ⟨b, by simp [buffer], decodes, encodes⟩

end ByteSession

end Rfrp
