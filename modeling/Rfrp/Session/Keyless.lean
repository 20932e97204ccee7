import Rfrp.Session.ByteRefinement

/-!
# The client against a peer without the key

The client's end of the tunnel connection with a peer that writes what it likes and sees every byte
the client writes. `encoded` remembers the buffers that `encode_encrypted` has returned; nothing
reads it back. What such a peer can have accepted is what the client has said itself: an answer to a
registration is never among it.
-/

namespace Rfrp

open Transition

structure ClientIo (S Z Z' : Type) where
  near : TunnelEnd Client S Z Z'
  encoded : List Bytes

inductive ClientIoAct
  -- the peer's bytes arrive; no bytes mean the end of the stream
  | read (bytes : Bytes)
  -- the peer takes `k` bytes of what was written
  | take (k : Nat)
  | socket (a : SocketAct)
  | other (a : ClientAct)
deriving DecidableEq, Repr

namespace ClientIo

variable {S Z Z' : Type}

def start (config : List ClientInfo) (sndBuf : Nat) (sender : Sender Z) (fresh : S)
    (receiver : Receiver Z') : ClientIo S Z Z' :=
  ⟨.start (.start config 0) sndBuf sender fresh receiver, []⟩

section
variable (aesGcm : Block 32 → Aead 12 16) (messagePack : MessagePack) (deflate : Coder Z)
  (inflate : Coder Z') (codec : Codec S) (frame : Bytes → Bytes)

/-- The buffer that a step of the write task encodes. -/
def encodes (p : TunnelEnd Client S Z Z') : SocketAct → List Bytes
  | .encode fuel =>
      match p.tunnel.task with
      | .sending f =>
          ((f.encodeEncrypted aesGcm messagePack deflate fuel p.sender).map Prod.fst).toList
      | _ => []
  | _ => []

def step (s : ClientIo S Z Z') : ClientIoAct → Option (ClientIo S Z Z')
  | .read bytes =>
      if s.near.reads then some { s with near.reader := s.near.reader.read bytes } else none
  | .take k => some { s with near.outbound := s.near.outbound.advance k }
  | .socket a =>
      (s.near.step aesGcm messagePack deflate inflate codec frame a).map fun near =>
        { near, encoded := s.encoded ++ encodes aesGcm messagePack deflate s.near a }
  | .other a =>
      if a.isInner then (s.near.proxy.step a).map fun proxy => { s with near.proxy := proxy } else none

/-- The peer has no key: a buffer authenticates only if the client has encrypted it. -/
def keyless (s : ClientIo S Z Z') : ClientIoAct → Bool
  | .socket (.next _) =>
      match s.near.reader.next codec with
      | (_, .ok (some buf)) =>
          match (Cipher.decryptInPlaceBytesMut aesGcm s.near.receiver.cipher buf).2 with
          | .ok _ => buf ∈ s.encoded
          | .error _ => true
      | _ => true
  | _ => true

end

/-! ## A client that nobody has answered -/

/-- All that a client says before it is answered. -/
def Own (entries : List ClientInfo) (f : RfrpFrame) : Prop :=
  f = .newPingFrame ∨ ∃ client, entries[0]? = some client ∧ f = .register client

/-- The client waits for the answer to its first entry, or has ended; without entries it waits for
data it knows no proxy for. -/
structure Unanswered (entries : List ClientInfo) (c : Client) : Prop where
  config : c.config = entries
  main : c.main = .registering 0 ∨ c.main = .awaiting 0 ∨ (c.main = .reading ∧ entries = []) ∨
    ∃ r, c.main = .ended r
  proxyConfigs : c.proxyConfigs = .empty
  maps : c.endpoint.maps = []
  links : c.endpoint.links = []
  queued : ∀ f ∈ c.endpoint.tunnel.chan.log, Own entries f
  hand : ∀ f, c.endpoint.tunnel.task = .sending f → f ∈ c.endpoint.tunnel.chan.log
  received : ∀ f ∈ c.received, f.ack? = none ∧ f.dataInfo? = none

variable {entries : List ClientInfo} {c c' : Client} {f : RfrpFrame}

theorem Unanswered.no_link (h : Unanswered entries c) {i : Nat} {l : Link String}
    (here : c.endpoint.links[i]? = some l) : False := by
  rw [h.links] at here
  cases here

theorem Unanswered.tunnel (h : Unanswered entries c) {tunnel : FrameWriter}
    (log : tunnel.chan.log = c.endpoint.tunnel.chan.log)
    (hand : ∀ f, tunnel.task = .sending f → f ∈ tunnel.chan.log) :
    Unanswered entries { c with endpoint := { c.endpoint with tunnel } } :=
  { h with queued := fun f mem => h.queued f (log ▸ mem), hand }

theorem Unanswered.writer (h : Unanswered entries c) {senders : Bool} {a : WriterAct}
    {tunnel : FrameWriter} (move : c.endpoint.tunnel.step senders a = some tunnel) :
    Unanswered entries { c with endpoint := { c.endpoint with tunnel } } := by
  have log := FrameWriter.step_log move
  apply h.tunnel log
  intro f sending
  rw [log]
  cases FrameWriter.moves_of_step move with
  | recv receiving popped =>
      cases sending
      obtain ⟨-, -, queue⟩ := Fifo.pop_eq_some popped
      rw [← Fifo.received_append_queue, queue]
      exact List.mem_append_right _ List.mem_cons_self
  | peerReads => exact h.hand f sending
  | recvNone | sent | sendErr | cancel => cases sending

theorem Unanswered.queue (h : Unanswered entries c) {endpoint : Endpoint String}
    (sent : c.endpoint.enqueue f = some endpoint) (own : Own entries f) :
    Unanswered entries { c with endpoint } := by
  obtain ⟨-, rfl⟩ := Endpoint.enqueue_eq_some sent
  refine { h with queued := ?_, hand := ?_ }
  · intro g mem
    rcases List.mem_append.mp mem with old | new
    · exact h.queued g old
    · rw [List.mem_singleton.mp new]
      exact own
  · intro g sending
    exact List.mem_append_left _ (h.hand g sending)

theorem Unanswered.step (h : Unanswered entries c) {a : ClientAct} (inner : a.isInner = true)
    (move : c.step a = some c') : Unanswered entries c' := by
  cases Client.moves_of_step move with
  | register main here sent =>
      have first : c.main = .awaiting 0 ∨ c.main = .registering 0 := by
        rcases h.main with at' | at' | ⟨at', -⟩ | ⟨r, at'⟩
        · exact Or.inr at'
        all_goals exact absurd (main.symm.trans at') (by simp)
      rw [main] at first
      cases first.resolve_left (by simp)
      have said := h.queue sent (Or.inr ⟨_, h.config ▸ here, rfl⟩)
      exact { said with main := Or.inr (Or.inl rfl) }
  | registerErr => exact { h with main := Or.inr (Or.inr (Or.inr ⟨_, rfl⟩)) }
  | connectedTwice main | connected main | refused main | forward main | forwardErr main =>
      exact absurd h.main (by simp [main])
  | tick | pingErr | pingCancel => exact { h with }
  | ping _ sent => exact { h.queue sent (Or.inl rfl) with }
  | @endpoint a endpoint moved =>
      cases a with
      | writer a =>
          obtain ⟨tunnel, turned, rfl⟩ := Option.map_eq_some_iff.mp moved
          exact h.writer turned
      | conn n a =>
          obtain ⟨l, here, -⟩ := Option.bind_eq_some_iff.mp moved
          exact (h.no_link here).elim
      | sendData n =>
          obtain ⟨l, here, -⟩ := Option.bind_eq_some_iff.mp moved
          exact (h.no_link here).elim
      | sendDataErr n =>
          obtain ⟨l, here, -⟩ := Option.bind_eq_some_iff.mp moved
          exact (h.no_link here).elim
      | remove n =>
          obtain ⟨l, here, -⟩ := Option.bind_eq_some_iff.mp moved
          exact (h.no_link here).elim
      | finish n =>
          obtain ⟨l, here, -⟩ := Option.bind_eq_some_iff.mp moved
          exact (h.no_link here).elim
  | _ => cases inner

/-- A frame that is no answer and no data ends a registration and changes nothing else. -/
theorem Unanswered.recv (h : Unanswered entries c) (ack : f.ack? = none) (data : f.dataInfo? = none)
    (move : c.step (.recv f) = some c') :
    Unanswered entries c' ∧ (c'.running = true → entries = []) := by
  have heard : ∀ g ∈ c.received ++ [f], g.ack? = none ∧ g.dataInfo? = none := by
    intro g mem
    rcases List.mem_append.mp mem with old | new
    · exact h.received g old
    · rw [List.mem_singleton.mp new]
      exact ⟨ack, data⟩
  cases Client.moves_of_step move with
  | recvUnexpected =>
      exact ⟨{ h with main := Or.inr (Or.inr (Or.inr ⟨_, rfl⟩)), received := heard },
        fun running => by cases running⟩
  | recvOther main =>
      have none : entries = [] := by
        rcases h.main with at' | at' | ⟨-, none⟩ | ⟨r, at'⟩
        · cases main.symm.trans at'
        · cases main.symm.trans at'
        · exact none
        · cases main.symm.trans at'
      exact ⟨{ h with received := heard }, fun _ => none⟩
  | recvAck | recvLastAck | recvStray | recvReject => cases ack
  | recvUnknown | recvFast | recvNew => cases data

theorem Unanswered.exit (h : Unanswered entries c) {r : ClientExit}
    (move : c.step (.exit r) = some c') : Unanswered entries c' ∧ c'.running = false := by
  cases Client.moves_of_step move with
  | giveUp => exact ⟨{ h with main := Or.inr (Or.inr (Or.inr ⟨_, rfl⟩)) }, rfl⟩
  | exit => exact ⟨{ h with main := Or.inr (Or.inr (Or.inr ⟨_, rfl⟩)) }, rfl⟩

/-! ## What holds in every run -/

section
variable {aesGcm : Block 32 → Aead 12 16} {messagePack : MessagePack} {deflate : Coder Z}
  {inflate : Coder Z'} {represents : Bytes → Bytes → Prop} {codec : Codec S} {frame : Bytes → Bytes}
  {key : Block 32} {s s' : ClientIo S Z Z'}

theorem Own.fits (small : ∀ client ∈ entries, client.fits) (own : Own entries f) : f.fits := by
  rcases own with rfl | ⟨client, here, rfl⟩
  · exact ⟨show "ping".utf8ByteSize < 2 ^ 32 by decide, by decide, by simp⟩
  · exact small client (List.mem_of_getElem? here)

theorem Own.skipAddr (own : Own entries f) :
    f.skipAddr.ack? = none ∧ f.skipAddr.dataInfo? = none := by
  rcases own with rfl | ⟨client, -, rfl⟩ <;> exact ⟨rfl, rfl⟩

/-- Both ciphers have the key, and what was encrypted with it are the client's own frames. -/
structure Talks (aesGcm : Block 32 → Aead 12 16) (messagePack : MessagePack)
    (represents : Bytes → Bytes → Prop) (key : Block 32) (entries : List ClientInfo)
    (s : ClientIo S Z Z') : Prop where
  client : Unanswered entries s.near.proxy
  sender : s.near.sender.cipher.key = key
  receiver : s.near.receiver.cipher.key = key
  encoded : ∀ buf ∈ s.encoded, ∃ f, Own entries f ∧
    Carries aesGcm messagePack represents key f buf

theorem Talks.setTask (talks : Talks aesGcm messagePack represents key entries s)
    {task : WriterTask} (idle : ∀ f, task ≠ .sending f) :
    Unanswered entries (s.near.setTask task).proxy := by
  have hand : ∀ f, ({ s.near.tunnel with task } : FrameWriter).task = .sending f →
      f ∈ ({ s.near.tunnel with task } : FrameWriter).chan.log :=
    fun f sending => absurd sending (idle f)
  exact talks.client.tunnel rfl hand

theorem Talks.encode (talks : Talks aesGcm messagePack represents key entries s)
    (flate : Flate deflate inflate represents)
    (reads : ∀ f, Own entries f → messagePack.RoundTrips f) {fuel : Nat}
    {near : TunnelEnd Client S Z Z'}
    (move : s.near.encode aesGcm messagePack deflate frame fuel = some near) :
    Talks aesGcm messagePack represents key entries
      { near, encoded := s.encoded ++ encodes aesGcm messagePack deflate s.near (.encode fuel) } := by
  unfold TunnelEnd.encode at move
  unfold encodes
  cases task : s.near.tunnel.task with
  | receiving | done =>
      rw [task] at move
      cases move
  | sending f =>
      rw [task] at move
      obtain ⟨-, move⟩ := Option.ite_none_right_eq_some.mp move
      obtain ⟨⟨bytes, sender⟩, encoded, moved⟩ := Option.map_eq_some_iff.mp move
      have own := talks.client.queued f (talks.client.hand f task)
      obtain ⟨carries, same⟩ := carries_of_encode flate (reads f own) encoded
      have kept : sender.cipher.key = key := same.trans talks.sender
      have heard : ∀ buf ∈ s.encoded ++ [bytes], ∃ f, Own entries f ∧
          Carries aesGcm messagePack represents key f buf := by
        intro buf mem
        rcases List.mem_append.mp mem with old | new
        · exact talks.encoded buf old
        · rw [List.mem_singleton.mp new]
          exact ⟨f, own, talks.sender ▸ carries⟩
      simp only [encoded, Option.map_some, Option.toList_some]
      by_cases small : bytes.length ≤ maxFrameLen
      · simp only [if_pos small] at moved
        subst moved
        exact ⟨talks.client, kept, talks.receiver, heard⟩
      · simp only [if_neg small] at moved
        subst moved
        exact ⟨talks.setTask (by simp), kept, talks.receiver, heard⟩

theorem Talks.write (talks : Talks aesGcm messagePack represents key entries s) {k : Nat}
    {near : TunnelEnd Client S Z Z'} (move : s.near.write k = some near) :
    Talks aesGcm messagePack represents key entries { s with near } := by
  unfold TunnelEnd.write at move
  split at move
  · obtain ⟨-, moved⟩ := Option.ite_none_right_eq_some.mp move
    cases moved
    dsimp only
    split
    · exact ⟨talks.setTask (by simp), talks.sender, talks.receiver, talks.encoded⟩
    · exact ⟨talks.client, talks.sender, talks.receiver, talks.encoded⟩
  · cases move

theorem Talks.leaves (talks : Talks aesGcm messagePack represents key entries s) {r : ClientExit}
    {proxy : Client} (move : s.near.proxy.step (.exit r) = some proxy) :
    Talks aesGcm messagePack represents key entries { s with near.proxy := proxy } ∧
      proxy.running = false := by
  obtain ⟨client, stopped⟩ := talks.client.exit move
  exact ⟨⟨client, talks.sender, talks.receiver, talks.encoded⟩, stopped⟩

/-- What a peer without the key is answered with: the end of the session, unless there is nothing to
register or the codec wishes for more. -/
theorem Talks.next (talks : Talks aesGcm messagePack represents key entries s)
    (flate : Flate deflate inflate represents)
    (reads : ∀ f, Own entries f → messagePack.RoundTrips f) {fuel : Nat}
    (keyless : s.keyless aesGcm codec (.socket (.next fuel)) = true) {reader : FramedRead S}
    {receiver : Receiver Z'} {arrival : Arrival} {proxy : Client}
    (move : TunnelEnd.next aesGcm messagePack inflate codec fuel s.near.reader s.near.receiver =
      some (reader, receiver, arrival))
    (arrives : s.near.proxy.onArrival arrival = some proxy) :
    Unanswered entries proxy ∧ receiver.cipher.key = key ∧
      (proxy.running = true → entries = [] ∨ reader.readable = false) := by
  unfold TunnelEnd.next at move
  unfold ClientIo.keyless at keyless
  cases asked : s.near.reader.next codec with
  | mk reader' answer =>
  rw [asked] at move keyless
  cases answer with
  | error e =>
      cases move
      obtain ⟨client, stopped⟩ := talks.client.exit (r := .readError) arrives
      exact ⟨client, talks.receiver, fun running => by simp [stopped] at running⟩
  | ok cut =>
      cases cut with
      | none =>
          dsimp only at move
          split at move
          · cases move
            obtain ⟨client, stopped⟩ := talks.client.exit (r := .eof) arrives
            exact ⟨client, talks.receiver, fun running => by simp [stopped] at running⟩
          · cases move
            cases arrives
            exact ⟨talks.client, talks.receiver, fun _ => Or.inr rfl⟩
      | some buf =>
          obtain ⟨⟨receiver', arrival'⟩, decoded, moved⟩ := Option.map_eq_some_iff.mp move
          cases moved
          have same : (RfrpFrame.decodeEncryptedBytesMut aesGcm messagePack inflate fuel buf
              s.near.receiver).2.cipher.key = key := decode_key fuel buf talks.receiver
          unfold TunnelEnd.decode at decoded
          split at decoded
          · rename_i f _ opened
            rw [opened] at same
            cases decoded
            cases decrypted : (Cipher.decryptInPlaceBytesMut aesGcm s.near.receiver.cipher buf).2 with
            | error e => simp [RfrpFrame.decodeEncryptedBytesMut, decrypted] at opened
            | ok plaintext =>
                simp only [decrypted] at keyless
                obtain ⟨g, own, carries⟩ := talks.encoded buf (of_decide_eq_true keyless)
                have got := received_of_decode flate (reads g own) carries talks.receiver
                  (congrArg Prod.fst opened)
                obtain rfl := skipAddr_of_received got.symm
                obtain ⟨client, none⟩ := talks.client.recv own.skipAddr.1 own.skipAddr.2 arrives
                exact ⟨client, same, fun running => Or.inl (none running)⟩
          · rename_i opened
            rw [opened] at same
            cases decoded
            obtain ⟨client, stopped⟩ := talks.client.exit (r := .undecodable) arrives
            exact ⟨client, same, fun running => by simp [stopped] at running⟩
          · cases decoded

theorem Talks.step (talks : Talks aesGcm messagePack represents key entries s)
    (flate : Flate deflate inflate represents)
    (reads : ∀ f, Own entries f → messagePack.RoundTrips f) {a : ClientIoAct}
    (keyless : s.keyless aesGcm codec a = true)
    (move : s.step aesGcm messagePack deflate inflate codec frame a = some s') :
    Talks aesGcm messagePack represents key entries s' := by
  cases a with
  | read bytes =>
      obtain ⟨-, moved⟩ := Option.ite_none_right_eq_some.mp move
      cases moved
      exact ⟨talks.client, talks.sender, talks.receiver, talks.encoded⟩
  | take k =>
      cases move
      exact ⟨talks.client, talks.sender, talks.receiver, talks.encoded⟩
  | other a =>
      obtain ⟨inner, move⟩ := Option.ite_none_right_eq_some.mp move
      obtain ⟨proxy, moved, rfl⟩ := Option.map_eq_some_iff.mp move
      exact ⟨talks.client.step inner moved, talks.sender, talks.receiver, talks.encoded⟩
  | socket a =>
      obtain ⟨near, moved, rfl⟩ := Option.map_eq_some_iff.mp move
      cases a with
      | encode fuel => exact talks.encode flate reads moved
      | write k =>
          have kept := talks.write moved
          exact ⟨kept.client, kept.sender, kept.receiver, by simpa [encodes] using kept.encoded⟩
      | sendErr =>
          simp only [TunnelEnd.step] at moved
          split at moved
          · cases moved
            exact ⟨talks.setTask (by simp), talks.sender, talks.receiver,
              by simpa [encodes] using talks.encoded⟩
          · cases moved
      | readErr =>
          obtain ⟨-, moved⟩ := Option.ite_none_right_eq_some.mp moved
          obtain ⟨proxy, left, rfl⟩ := Option.map_eq_some_iff.mp moved
          exact ⟨(talks.client.exit (r := .readError) left).1, talks.sender, talks.receiver,
            by simpa [encodes] using talks.encoded⟩
      | deadline =>
          obtain ⟨proxy, left, rfl⟩ := Option.map_eq_some_iff.mp moved
          exact ⟨(talks.client.exit (r := .keepaliveTimeout) left).1, talks.sender, talks.receiver,
            by simpa [encodes] using talks.encoded⟩
      | next fuel =>
          obtain ⟨-, moved⟩ := Option.ite_none_right_eq_some.mp moved
          obtain ⟨⟨reader, receiver, arrival⟩, asked, moved⟩ := Option.bind_eq_some_iff.mp moved
          obtain ⟨proxy, arrives, rfl⟩ := Option.map_eq_some_iff.mp moved
          obtain ⟨client, same, -⟩ := talks.next flate reads keyless asked arrives
          exact ⟨client, talks.sender, same, by simpa [encodes] using talks.encoded⟩

end

end ClientIo

end Rfrp
