import Mathlib.Data.List.Forall2
import Rfrp.Lib.Framing
import Rfrp.Proto.TunnelEnd

/-!
# One direction of the tunnel, in bytes

How the frames in flight lie in the bytes between the two ends: what the reader has buffered, what
the socket holds and what `FramedWrite` has not written yet are the frames' encodings, one after the
other.
-/

namespace Rfrp

/-- What an arrival does to the frames in flight. -/
def Arrival.Takes (messagePack : MessagePack) : Arrival → List RfrpFrame → List RfrpFrame → Prop
  | .pending, before, after | .readError, before, after => after = before
  | .frame g, before, after => ∃ f, before = f :: after ∧ g = f.skipAddr
  | .undecodable, before, after => ∃ f e, before = f :: after ∧ received messagePack f = .error e
  | .eof, before, after => before = [] ∧ after = []
  -- not from the reader
  | .keepaliveTimeout, _, _ => False

/-- A session's codecs do what their crates promise. -/
structure Codecs {S Z Z' : Type} (messagePack : MessagePack) (deflate : Coder Z)
    (inflate : Coder Z') (represents : Bytes → Bytes → Prop) (codec : Codec S)
    (frame : Bytes → Bytes) (fresh : S) (pending : S → Bytes → Bytes → Prop) : Prop where
  roundTrips : ∀ f : RfrpFrame, f.fits → messagePack.RoundTrips f
  flate : Flate deflate inflate represents
  framing : Framing codec.decode codec.decodeEof frame (fun p => p.length ≤ maxFrameLen) fresh pending

/-- `tail` is what has been written of the frame the write task has in hand. -/
def Handing (Carried : RfrpFrame → Bytes → Prop) (frame : Bytes → Bytes) (task : WriterTask)
    (writing tail : Bytes) : Prop :=
  match task with
  | .receiving => writing = [] ∧ tail = []
  | .sending f => (writing = [] ∧ tail = []) ∨
      (writing ≠ [] ∧ ∃ p, Carried f p ∧ p.length ≤ maxFrameLen ∧ tail ++ writing = frame p)
  | .done => True

/-- The bytes from `p` to `q` carry the frames `flying`. -/
structure Transit {σ σ' S Z Z' : Type} [RunProxy σ] (Carried : RfrpFrame → Bytes → Prop)
    (frame : Bytes → Bytes) (pending : S → Bytes → Bytes → Prop) (key : Block 32)
    (p : TunnelEnd σ S Z Z') (q : TunnelEnd σ' S Z Z') (flying : List RfrpFrame) : Prop where
  sender : p.sender.cipher.key = key
  receiver : q.receiver.cipher.key = key
  eof : q.reader.eof = true → p.ended = true
  -- the codec was asked and wishes for more
  dry : q.reader.readable = false → q.reader.eof = false ∧
    ∃ read, pending q.reader.codec q.reader.buffer read ∧
      Torn frame (fun p => p.length ≤ maxFrameLen) read
  stream : ∃ bufs read tail, List.Forall₂ Carried flying bufs ∧
    (∀ buf ∈ bufs, buf.length ≤ maxFrameLen) ∧ pending q.reader.codec q.reader.buffer read ∧
    read ++ p.outbound.queue = (bufs.map frame).flatten ++ tail ∧
    Torn frame (fun p => p.length ≤ maxFrameLen) tail ∧
    Handing Carried frame p.tunnel.task p.writing tail

variable {σ σ' S Z Z' : Type} [RunProxy σ] {aesGcm : Block 32 → Aead 12 16}
  {messagePack : MessagePack} {deflate : Coder Z} {inflate : Coder Z'}
  {represents : Bytes → Bytes → Prop} {codec : Codec S} {frame : Bytes → Bytes} {fresh : S}
  {pending : S → Bytes → Bytes → Prop} {Carried : RfrpFrame → Bytes → Prop} {key : Block 32}
  {p p' : TunnelEnd σ S Z Z'} {q q' : TunnelEnd σ' S Z Z'} {flying : List RfrpFrame} {fuel k : Nat}

theorem TunnelEnd.ended_iff : p.ended = true ↔ p.tunnel.task = .done ∧ p.outbound.queue = [] := by
  simp only [ended, decide_eq_true_eq]

theorem Codecs.torn_nil
    (codecs : Codecs messagePack deflate inflate represents codec frame fresh pending) :
    Torn frame (fun p => p.length ≤ maxFrameLen) [] :=
  codecs.framing.torn_nil (p := []) (Nat.zero_le _)

/-- Sending leaves the reading half alone. -/
theorem TunnelEnd.reader_of_encode
    (move : p.encode aesGcm messagePack deflate frame fuel = some p') :
    p'.reader = p.reader ∧ p'.receiver = p.receiver := by
  unfold encode at move
  split at move
  · obtain ⟨-, move⟩ := Option.ite_none_right_eq_some.mp move
    obtain ⟨encoded, -, rfl⟩ := Option.map_eq_some_iff.mp move
    dsimp only
    split <;> exact ⟨rfl, rfl⟩
  · cases move

theorem TunnelEnd.reader_of_write (move : p.write k = some p') :
    p'.reader = p.reader ∧ p'.receiver = p.receiver := by
  unfold write at move
  split at move
  · obtain ⟨-, moved⟩ := Option.ite_none_right_eq_some.mp move
    cases moved
    dsimp only
    split <;> exact ⟨rfl, rfl⟩
  · cases move

namespace Transit

theorem start (codecs : Codecs messagePack deflate inflate represents codec frame fresh pending)
    {proxy : σ} {proxy' : σ'} {n n' : Nat} {sender sender' : Sender Z} {receiver receiver' : Receiver Z'}
    (receiving : (RunProxy.tunnel proxy).task = .receiving) (ours : sender.cipher.key = key)
    (theirs : receiver'.cipher.key = key) :
    Transit Carried frame pending key (TunnelEnd.start proxy n sender fresh receiver)
      (TunnelEnd.start proxy' n' sender' fresh receiver') [] where
  sender := ours
  receiver := theirs
  eof := fun eof => by cases eof
  dry := fun _ => ⟨rfl, [], codecs.framing.fresh, codecs.torn_nil⟩
  stream := by
    refine ⟨[], [], [], .nil, by simp, codecs.framing.fresh, rfl, codecs.torn_nil, ?_⟩
    rw [show (TunnelEnd.start proxy n sender fresh receiver).tunnel.task = .receiving from receiving]
    exact ⟨rfl, rfl⟩

/-- What the tasks of a session may do to the write task without the socket. -/
inductive Turns : WriterTask → WriterTask → Prop
  | same (task : WriterTask) : Turns task task
  | takes (f : RfrpFrame) : Turns .receiving (.sending f)
  | ends (task : WriterTask) : Turns task .done

/-- The sending side but for its write task. -/
theorem source (transit : Transit Carried frame pending key p q flying)
    (sender : p'.sender = p.sender) (writing : p'.writing = p.writing)
    (outbound : p'.outbound = p.outbound) (turns : Turns p.tunnel.task p'.tunnel.task) :
    Transit Carried frame pending key p' q flying where
  sender := sender ▸ transit.sender
  receiver := transit.receiver
  eof := by
    intro eof
    obtain ⟨done, empty⟩ := TunnelEnd.ended_iff.mp (transit.eof eof)
    refine TunnelEnd.ended_iff.mpr ⟨?_, outbound ▸ empty⟩
    rw [done] at turns
    generalize p'.tunnel.task = task' at turns ⊢
    cases turns <;> rfl
  dry := transit.dry
  stream := by
    obtain ⟨bufs, read, tail, carry, small, waits, stream, torn, handing⟩ := transit.stream
    refine ⟨bufs, read, tail, carry, small, waits, outbound ▸ stream, torn, ?_⟩
    rw [writing]
    generalize p.tunnel.task = task at turns handing
    generalize p'.tunnel.task = task' at turns ⊢
    cases turns with
    | same => exact handing
    | takes f => exact Or.inl handing
    | ends => trivial

/-- The receiving side but for its reader. -/
theorem target (transit : Transit Carried frame pending key p q flying) (reader : q'.reader = q.reader)
    (receiver : q'.receiver = q.receiver) : Transit Carried frame pending key p q' flying where
  sender := transit.sender
  receiver := receiver ▸ transit.receiver
  eof := reader ▸ transit.eof
  dry := reader ▸ transit.dry
  stream := reader ▸ transit.stream

theorem setTask_done (transit : Transit Carried frame pending key p q flying) :
    Transit Carried frame pending key (p.setTask .done) q flying := by
  apply transit.source
  · rfl
  · rfl
  · rfl
  · rw [TunnelEnd.tunnel_setTask]
    exact .ends _

/-- The frame in hand is encoded, or refused for its length. -/
theorem encode (codecs : Codecs messagePack deflate inflate represents codec frame fresh pending)
    (transit : Transit (Carries aesGcm messagePack represents key) frame pending key p q flying)
    (hand : ∀ f, p.tunnel.task = .sending f → messagePack.RoundTrips f)
    (move : p.encode aesGcm messagePack deflate frame fuel = some p') :
    Transit (Carries aesGcm messagePack represents key) frame pending key p' q flying ∧
      (p'.proxy = p.proxy ∨ ∃ f buf, p.tunnel.task = .sending f ∧
        Carries aesGcm messagePack represents key f buf ∧ maxFrameLen < buf.length ∧
        p'.proxy = RunProxy.setTunnel p.proxy { p.tunnel with task := .done }) := by
  unfold TunnelEnd.encode at move
  split at move
  case h_2 => cases move
  case h_1 f sending =>
    obtain ⟨idle, move⟩ := Option.ite_none_right_eq_some.mp move
    obtain ⟨⟨bytes, sender⟩, encoded, rfl⟩ := Option.map_eq_some_iff.mp move
    obtain ⟨carries, same⟩ := carries_of_encode codecs.flate (hand f sending) encoded
    rw [transit.sender] at carries same
    have ours : Transit (Carries aesGcm messagePack represents key) frame pending key
        { p with sender } q flying :=
      ⟨same, transit.receiver, transit.eof, transit.dry, transit.stream⟩
    dsimp only
    split
    · rename_i small
      refine ⟨⟨same, transit.receiver, transit.eof, transit.dry, ?_⟩, Or.inl rfl⟩
      obtain ⟨bufs, read, tail, carry, few, waits, stream, torn, handing⟩ := transit.stream
      refine ⟨bufs, read, tail, carry, few, waits, stream, torn, ?_⟩
      show Handing _ frame p.tunnel.task (frame bytes) tail
      rw [sending] at handing ⊢
      rcases handing with ⟨-, rfl⟩ | ⟨begun, -⟩
      · exact Or.inr ⟨codecs.framing.frame_ne_nil _, bytes, carries, small, rfl⟩
      · exact absurd idle begun
    · rename_i large
      exact ⟨ours.setTask_done, Or.inr ⟨f, bytes, sending, carries, Nat.lt_of_not_le large, rfl⟩⟩

/-- The socket takes a piece of the frame, or the last of it. -/
theorem write (codecs : Codecs messagePack deflate inflate represents codec frame fresh pending)
    (transit : Transit Carried frame pending key p q flying) (move : p.write k = some p') :
    (Transit Carried frame pending key p' q flying ∧ p'.proxy = p.proxy) ∨
      ∃ f, p.tunnel.task = .sending f ∧ Transit Carried frame pending key p' q (flying ++ [f]) ∧
        p'.proxy = RunProxy.setTunnel p.proxy { p.tunnel with task := .receiving } := by
  unfold TunnelEnd.write at move
  split at move
  case h_2 => cases move
  case h_1 f sending =>
    obtain ⟨⟨some, there, room⟩, move⟩ := Option.ite_none_right_eq_some.mp move
    obtain ⟨bufs, read, tail, carry, small, waits, stream, torn, handing⟩ := transit.stream
    have live : q.reader.eof = false := by
      by_contra eof
      obtain ⟨done, -⟩ := TunnelEnd.ended_iff.mp (transit.eof (by simpa using eof))
      rw [sending] at done
      cases done
    rw [sending] at handing
    rcases handing with ⟨idle, -⟩ | ⟨begun, buf, carries, fits, whole⟩
    · rw [idle] at there
      exact absurd (Nat.lt_of_lt_of_le some there) (Nat.not_lt_zero _)
    have written : read ++ (p.outbound.pushAll (p.writing.take k)).queue =
        (bufs.map frame).flatten ++ (tail ++ p.writing.take k) := by
      rw [Fifo.queue_pushAll, ← List.append_assoc, stream, List.append_assoc]
    have cut : (tail ++ p.writing.take k) ++ p.writing.drop k = frame buf := by
      rw [List.append_assoc, List.take_append_drop, whole]
    by_cases last : p.writing.drop k = []
    · right
      dsimp only at move
      rw [if_pos last] at move
      cases move
      refine ⟨f, sending, ⟨transit.sender, transit.receiver, ?_, transit.dry, ?_⟩, rfl⟩
      · intro eof
        rw [live] at eof
        cases eof
      · rw [last, List.append_nil] at cut
        refine ⟨bufs ++ [buf], read, [], List.rel_append carry (.cons carries .nil), ?_, waits, ?_,
          codecs.torn_nil, ?_⟩
        · intro b mem
          rcases List.mem_append.mp mem with old | new
          · exact small b old
          · rw [List.mem_singleton.mp new]
            exact fits
        · rw [List.map_append, List.flatten_append, List.append_nil]
          show read ++ (p.outbound.pushAll (p.writing.take k)).queue = _
          rw [written, cut]
          simp
        · rw [TunnelEnd.tunnel_setTask]
          exact ⟨last, rfl⟩
    · left
      dsimp only at move
      rw [if_neg last] at move
      cases move
      refine ⟨⟨transit.sender, transit.receiver, ?_, transit.dry, ?_⟩, rfl⟩
      · intro eof
        rw [live] at eof
        cases eof
      · refine ⟨bufs, read, tail ++ p.writing.take k, carry, small, waits, written, ?_, ?_⟩
        · refine ⟨buf, fits, ⟨_, cut⟩, fun all => last ?_⟩
          rw [all] at cut
          exact List.self_eq_append_right.mp cut.symm
        · show Handing Carried frame p.tunnel.task (p.writing.drop k) _
          rw [sending]
          exact Or.inr ⟨last, buf, carries, fits, cut⟩

section
variable [RunProxy σ']

/-- However much is read at once, the frames in flight stay the same. -/
theorem readFrom (codecs : Codecs messagePack deflate inflate represents codec frame fresh pending)
    (transit : Transit Carried frame pending key p q flying)
    (move : q.readFrom k p = some (q', p')) :
    Transit Carried frame pending key p' q' flying ∧ q'.proxy = q.proxy ∧ p'.proxy = p.proxy := by
  obtain ⟨⟨-, there, ends⟩, moved⟩ := Option.ite_none_right_eq_some.mp move
  cases moved
  refine ⟨⟨transit.sender, transit.receiver, ?_, (fun read => by cases read), ?_⟩, rfl, rfl⟩
  · intro eof
    have none : p.outbound.queue.take k = [] := List.isEmpty_iff.mp eof
    have zero : k = 0 := by
      rcases List.take_eq_nil_iff.mp none with zero | empty
      · exact zero
      · rw [empty] at there
        exact Nat.le_zero.mp there
    obtain ⟨done, empty⟩ := TunnelEnd.ended_iff.mp (ends zero)
    refine TunnelEnd.ended_iff.mpr ⟨done, ?_⟩
    show (p.outbound.advance k).queue = []
    rw [Fifo.queue_advance, empty, List.drop_nil]
  · obtain ⟨bufs, read, tail, carry, small, waits, stream, torn, handing⟩ := transit.stream
    refine ⟨bufs, read ++ p.outbound.queue.take k, tail, carry, small,
      codecs.framing.more _ _ _ _ waits, ?_, torn, handing⟩
    show read ++ p.outbound.queue.take k ++ (p.outbound.advance k).queue = _
    rw [Fifo.queue_advance, List.append_assoc, List.take_append_drop, stream]

end

theorem answer (codecs : Codecs messagePack deflate inflate represents codec frame fresh pending)
    (transit : Transit Carried frame pending key p q flying) (ready : q.reader.readable = true)
    {reader : FramedRead S} {result : Except String (Option Bytes)} (asked : q.reader.next codec = (reader, result)) :
    (∃ f buf rest, flying = f :: rest ∧ Carried f buf ∧ result = .ok (some buf) ∧
      Transit Carried frame pending key p { q with reader } rest) ∨
    ((∀ buf, result ≠ .ok (some buf)) ∧ Transit Carried frame pending key p { q with reader } flying ∧
      (result = .ok none ∧ (reader.eof = false ∧ ∃ read, pending reader.codec reader.buffer read ∧
        Torn frame (fun p => p.length ≤ maxFrameLen) read) ∨
        reader.eof = true ∧ p.ended = true ∧ flying = [])) := by
  obtain ⟨bufs, read, tail, carry, small, waits, stream, torn, handing⟩ := transit.stream
  have busy : ∀ {P : Prop}, q.reader.readable = false → P := by
    intro P waiting
    rw [ready] at waiting
    cases waiting
  have taken : ∀ {buf : Bytes} {bs : List Bytes} {state : S} {buffer rest : Bytes}, bufs = buf :: bs →
      pending state buffer rest → rest ++ p.outbound.queue = (bs.map frame).flatten ++ tail →
      ∃ f fs, flying = f :: fs ∧ Carried f buf ∧ Transit Carried frame pending key p
        { q with reader := { q.reader with codec := state, buffer } } fs := by
    rintro buf bs state buffer rest rfl waits stream
    cases carry with
    | @cons f _ fs _ carries carry =>
    exact ⟨f, fs, rfl, carries, transit.sender, transit.receiver, transit.eof, busy, bs, rest, tail, carry,
      fun b mem => small b (List.mem_cons_of_mem _ mem), waits, stream, torn, handing⟩
  have kept : ∀ {state : S} {buffer : Bytes}, pending state buffer read →
      Transit Carried frame pending key p
        { q with reader := { q.reader with codec := state, buffer } } flying :=
    fun waits => ⟨transit.sender, transit.receiver, transit.eof, busy, bufs, read, tail, carry, small,
      waits, stream, torn, handing⟩
  unfold FramedRead.next at asked
  by_cases eof : q.reader.eof = true
  · rw [if_pos eof] at asked
    have ended := transit.eof eof
    rw [(TunnelEnd.ended_iff.mp ended).2, List.append_nil] at stream
    rcases codecs.framing.answerEof waits stream small torn with
      ⟨buf, bs, state, buffer, rest, some, decoded, waits, stream⟩ |
      ⟨state, buffer, answer, decoded, waits, none, empty⟩
    · rw [decoded] at asked
      cases asked
      left
      rw [← List.append_nil rest] at stream
      rw [← (TunnelEnd.ended_iff.mp ended).2] at stream
      obtain ⟨f, fs, flying, carries, transit⟩ := taken some waits stream
      exact ⟨f, buf, fs, flying, carries, rfl, transit⟩
    · rw [decoded] at asked
      cases asked
      right
      subst empty
      cases carry
      exact ⟨none, kept waits, Or.inr ⟨eof, ended, rfl⟩⟩
  · rw [if_neg eof] at asked
    rcases codecs.framing.answer waits stream small torn with
      ⟨buf, bs, state, buffer, rest, some, decoded, waits, stream⟩ |
      ⟨state, buffer, decoded, waits, part⟩
    · rw [decoded] at asked
      cases asked
      left
      obtain ⟨f, fs, flying, carries, transit⟩ := taken some waits stream
      exact ⟨f, buf, fs, flying, carries, rfl, transit⟩
    · rw [decoded] at asked
      cases asked
      right
      exact ⟨(fun buf same => by cases same), kept waits,
        Or.inl ⟨rfl, Bool.eq_false_iff.mpr eof, read, waits, part⟩⟩

/-- What the main loop gets is the oldest frame in flight, if it gets a frame at all. -/
theorem next (codecs : Codecs messagePack deflate inflate represents codec frame fresh pending)
    (transit : Transit (Carries aesGcm messagePack represents key) frame pending key p q flying)
    (fits : ∀ f ∈ flying, messagePack.RoundTrips f) (ready : q.reader.readable = true)
    {reader : FramedRead S} {receiver : Receiver Z'} {arrival : Arrival}
    (move : TunnelEnd.next aesGcm messagePack inflate codec fuel q.reader q.receiver =
      some (reader, receiver, arrival)) :
    ∃ rest, arrival.Takes messagePack flying rest ∧
      (arrival = .eof ∨ arrival = .readError → p.ended = true) ∧
      Transit (Carries aesGcm messagePack represents key) frame pending key p
        { q with reader, receiver } rest := by
  unfold TunnelEnd.next at move
  cases asked : q.reader.next codec with
  | mk reader' result =>
  rw [asked] at move
  rcases transit.answer codecs ready asked with ⟨f, buf, rest, rfl, carries, rfl, after⟩ | ⟨none, after, ends⟩
  · obtain ⟨⟨receiver', arrival'⟩, decoded, moved⟩ := Option.map_eq_some_iff.mp move
    cases moved
    have reads := fits f List.mem_cons_self
    have same : (RfrpFrame.decodeEncryptedBytesMut aesGcm messagePack inflate fuel buf
        q.receiver).2.cipher.key = key := decode_key fuel buf transit.receiver
    unfold TunnelEnd.decode at decoded
    split at decoded
    · rename_i g _ opened
      have got := received_of_decode codecs.flate reads carries transit.receiver
        (congrArg Prod.fst opened)
      rw [opened] at same
      cases decoded
      refine ⟨rest, ⟨f, rfl, skipAddr_of_received got.symm⟩, (fun eof => by simp at eof), ?_⟩
      exact ⟨after.sender, same, after.eof, after.dry, after.stream⟩
    · rename_i e _ opened
      have got := received_of_decode codecs.flate reads carries transit.receiver
        (congrArg Prod.fst opened)
      rw [opened] at same
      cases decoded
      refine ⟨rest, ⟨f, e, rfl, got.symm⟩, (fun eof => by simp at eof), ?_⟩
      exact ⟨after.sender, same, after.eof, after.dry, after.stream⟩
    · cases decoded
  · cases result with
    | error e =>
        cases move
        have ended : p.ended = true := by
          rcases ends with ⟨same, -⟩ | ⟨-, ended, -⟩
          · cases same
          · exact ended
        exact ⟨flying, rfl, fun _ => ended, after⟩
    | ok answer =>
        cases answer with
        | some buf => exact absurd rfl (none buf)
        | none =>
            dsimp only at move
            split at move
            · rename_i eof
              cases move
              obtain ⟨-, ended, rfl⟩ := ends.resolve_left fun waiting => by simp [eof] at waiting
              exact ⟨[], ⟨rfl, rfl⟩, fun _ => ended, after⟩
            · cases move
              rename_i waiting
              obtain ⟨-, dry⟩ := ends.resolve_right fun done => waiting done.1
              exact ⟨flying, rfl, (fun eof => by simp at eof), after.sender, after.receiver, after.eof,
                (fun _ => dry), after.stream⟩

end Transit

/-! ## One end, both directions -/

variable [RunProxy σ']

/-- The bytes from `p` to `q` carry the frames in flight but for those `q` could not decode, after
which it does not read any more. -/
def Flight (Carried : RfrpFrame → Bytes → Prop) (frame : Bytes → Bytes)
    (pending : S → Bytes → Bytes → Prop) (key : Block 32) (p : TunnelEnd σ S Z Z')
    (q : TunnelEnd σ' S Z Z') (wire : Fifo RfrpFrame) : Prop :=
  ∃ lost flying, wire.queue = lost ++ flying ∧ Transit Carried frame pending key p q flying ∧
    (RunProxy.running q.proxy = true → lost = [])

namespace Flight

variable {wire : Fifo RfrpFrame}

theorem of_transit (transit : Transit Carried frame pending key p q wire.queue) :
    Flight Carried frame pending key p q wire :=
  ⟨[], wire.queue, rfl, transit, fun _ => rfl⟩

theorem transit (flight : Flight Carried frame pending key p q wire)
    (running : RunProxy.running q.proxy = true) :
    Transit Carried frame pending key p q wire.queue := by
  obtain ⟨lost, flying, queue, transit, none⟩ := flight
  rw [queue, none running]
  exact transit

theorem source (flight : Flight Carried frame pending key p q wire)
    (sender : p'.sender = p.sender) (writing : p'.writing = p.writing)
    (outbound : p'.outbound = p.outbound) (turns : Transit.Turns p.tunnel.task p'.tunnel.task) :
    Flight Carried frame pending key p' q wire := by
  obtain ⟨lost, flying, queue, transit, none⟩ := flight
  exact ⟨lost, flying, queue, transit.source sender writing outbound turns, none⟩

theorem target (flight : Flight Carried frame pending key p q wire)
    (reader : q'.reader = q.reader) (receiver : q'.receiver = q.receiver)
    (less : RunProxy.running q'.proxy = true → RunProxy.running q.proxy = true) :
    Flight Carried frame pending key p q' wire := by
  obtain ⟨lost, flying, queue, transit, none⟩ := flight
  exact ⟨lost, flying, queue, transit.target reader receiver, fun live => none (less live)⟩

theorem readFrom (codecs : Codecs messagePack deflate inflate represents codec frame fresh pending)
    {back : Fifo RfrpFrame} (flight : Flight Carried frame pending key p q wire)
    (other : Flight Carried frame pending key q p back) (move : q.readFrom k p = some (q', p')) :
    Flight Carried frame pending key p' q' wire ∧ Flight Carried frame pending key q' p' back ∧
      q'.proxy = q.proxy ∧ p'.proxy = p.proxy := by
  obtain ⟨lost, flying, queue, transit, none⟩ := flight
  obtain ⟨transit, same, same'⟩ := transit.readFrom codecs move
  refine ⟨⟨lost, flying, queue, transit, same ▸ none⟩, ?_, same, same'⟩
  obtain ⟨-, moved⟩ := Option.ite_none_right_eq_some.mp move
  cases moved
  have ours : Flight Carried frame pending key
      { q with reader := q.reader.read (p.outbound.queue.take k) } p back :=
    other.source rfl rfl rfl (.same _)
  exact ours.target rfl rfl id

end Flight

/-- What a step at the socket of `p` comes to: a frame is in flight from the moment the socket has
taken its last byte until the other side has decoded it. -/
inductive TunnelEnd.Comes (messagePack : MessagePack) (Carried : RfrpFrame → Bytes → Prop)
    (p : TunnelEnd σ S Z Z') (peerEnded : Bool) (incoming outgoing : Fifo RfrpFrame) :
    SocketAct → σ → Fifo RfrpFrame → Fifo RfrpFrame → Prop
  | idle {a : SocketAct} : Comes messagePack Carried p peerEnded incoming outgoing a p.proxy incoming outgoing
  | refused {f : RfrpFrame} {buf : Bytes} {fuel : Nat} (sending : p.tunnel.task = .sending f)
      (carries : Carried f buf) (large : maxFrameLen < buf.length) :
      Comes messagePack Carried p peerEnded incoming outgoing (.encode fuel)
        (RunProxy.setTunnel p.proxy { p.tunnel with task := .done }) incoming outgoing
  | failed {f : RfrpFrame} (sending : p.tunnel.task = .sending f) :
      Comes messagePack Carried p peerEnded incoming outgoing .sendErr
        (RunProxy.setTunnel p.proxy { p.tunnel with task := .done }) incoming outgoing
  | sent {f : RfrpFrame} {k : Nat} (sending : p.tunnel.task = .sending f) :
      Comes messagePack Carried p peerEnded incoming outgoing (.write k)
        (RunProxy.setTunnel p.proxy { p.tunnel with task := .receiving }) incoming (outgoing.push f)
  | frame {f : RfrpFrame} {wire : Fifo RfrpFrame} {proxy : σ} {fuel : Nat}
      (popped : incoming.pop = some (f, wire))
      (arrives : RunProxy.arrive p.proxy (.frame f.skipAddr) = some proxy) :
      Comes messagePack Carried p peerEnded incoming outgoing (.next fuel) proxy wire outgoing
  | undecodable {f : RfrpFrame} {e : String} {proxy : σ} {fuel : Nat}
      (flying : f ∈ incoming.queue) (bad : received messagePack f = .error e)
      (arrives : RunProxy.arrive p.proxy .undecodable = some proxy) :
      Comes messagePack Carried p peerEnded incoming outgoing (.next fuel) proxy incoming outgoing
  | eof {proxy : σ} {fuel : Nat} (queue : incoming.queue = []) (ended : peerEnded = true)
      (arrives : RunProxy.arrive p.proxy .eof = some proxy) :
      Comes messagePack Carried p peerEnded incoming outgoing (.next fuel) proxy incoming outgoing
  | readError {proxy : σ} {a : SocketAct} (why : a = .readErr ∨ peerEnded = true)
      (arrives : RunProxy.arrive p.proxy .readError = some proxy) :
      Comes messagePack Carried p peerEnded incoming outgoing a proxy incoming outgoing
  | keepaliveTimeout {proxy : σ}
      (arrives : RunProxy.arrive p.proxy .keepaliveTimeout = some proxy) :
      Comes messagePack Carried p peerEnded incoming outgoing .deadline proxy incoming outgoing

theorem TunnelEnd.Comes.length_le {peerEnded : Bool} {a : SocketAct} {proxy : σ}
    {incoming outgoing incoming' outgoing' : Fifo RfrpFrame}
    (comes : p.Comes messagePack Carried peerEnded incoming outgoing a proxy incoming' outgoing') :
    incoming'.queue.length ≤ incoming.queue.length ∧
      outgoing'.queue.length ≤ outgoing.queue.length + 1 := by
  cases comes with
  | sent => exact ⟨Nat.le_refl _, by simp⟩
  | frame popped =>
      obtain ⟨-, -, queue⟩ := Fifo.pop_eq_some popped
      exact ⟨by simp [queue], Nat.le_succ _⟩
  | _ => exact ⟨Nat.le_refl _, Nat.le_succ _⟩

section
variable (codecs : Codecs messagePack deflate inflate represents codec frame fresh pending)
  {incoming outgoing : Fifo RfrpFrame}
  (inward : Flight (Carries aesGcm messagePack represents key) frame pending key q p incoming)
  (outward : Flight (Carries aesGcm messagePack represents key) frame pending key p q outgoing)

include codecs inward in
theorem Flight.next (flying : ∀ f ∈ incoming.queue, messagePack.RoundTrips f)
    (waits : RunProxy.waits p.proxy = true) (ready : p.reader.readable = true)
    {reader : FramedRead S} {receiver : Receiver Z'} {arrival : Arrival} {proxy : σ}
    (answered : TunnelEnd.next aesGcm messagePack inflate codec fuel p.reader p.receiver =
      some (reader, receiver, arrival))
    (arrives : RunProxy.arrive p.proxy arrival = some proxy) :
    ∃ incoming', TunnelEnd.Comes messagePack (Carries aesGcm messagePack represents key) p q.ended
        incoming outgoing (.next fuel) proxy incoming' outgoing ∧
      Flight (Carries aesGcm messagePack represents key) frame pending key q
        { p with proxy, reader, receiver } incoming' := by
  obtain ⟨rest, takes, ended, transit⟩ :=
    (inward.transit (RunProxy.running_of_waits _ waits)).next codecs flying ready answered
  have after : Transit (Carries aesGcm messagePack represents key) frame pending key q
      { p with proxy, reader, receiver } rest := transit.target rfl rfl
  cases arrival with
  | pending =>
      rw [show rest = incoming.queue from takes] at after
      rw [RunProxy.arrive_pending] at arrives
      cases arrives
      exact ⟨incoming, .idle, .of_transit after⟩
  | frame g =>
      obtain ⟨f, queue, rfl⟩ := takes
      obtain ⟨f', wire, popped⟩ := Fifo.exists_pop (f := incoming) (by simp [queue])
      obtain ⟨-, -, queue'⟩ := Fifo.pop_eq_some popped
      rw [queue] at queue'
      obtain ⟨rfl, rfl⟩ := List.cons.inj queue'
      exact ⟨wire, .frame popped arrives, .of_transit after⟩
  | eof =>
      obtain ⟨queue, rfl⟩ := takes
      rw [← queue] at after
      exact ⟨incoming, .eof queue (ended (Or.inl rfl)) arrives, .of_transit after⟩
  | readError =>
      rw [show rest = incoming.queue from takes] at after
      exact ⟨incoming, .readError (Or.inr (ended (Or.inr rfl))) arrives, .of_transit after⟩
  | undecodable =>
      obtain ⟨f, e, queue, bad⟩ := takes
      refine ⟨incoming, .undecodable (f := f) (by simp [queue]) bad arrives, [f], rest, queue, after, ?_⟩
      intro running
      rw [RunProxy.arrive_undecodable _ _ arrives] at running
      cases running
  | keepaliveTimeout => exact takes.elim

include inward outward in
theorem Flight.leaves {arrival : Arrival} (move : p.arrive arrival = some p') :
    RunProxy.arrive p.proxy arrival = some p'.proxy ∧
      Flight (Carries aesGcm messagePack represents key) frame pending key p' q outgoing ∧
      Flight (Carries aesGcm messagePack represents key) frame pending key q p' incoming := by
  obtain ⟨proxy, arrives, rfl⟩ := Option.map_eq_some_iff.mp move
  refine ⟨arrives, outward.source rfl rfl rfl ?_, inward.target rfl rfl ?_⟩
  · show Transit.Turns p.tunnel.task (RunProxy.tunnel proxy).task
    rw [RunProxy.arrive_task _ _ _ arrives]
    exact .same _
  · exact RunProxy.arrive_running _ _ _ arrives

include codecs inward outward in
/-- Whatever happens at a socket, the frames in flight are what the bytes between the ends encode. -/
theorem Flight.step {a : SocketAct} (hand : ∀ f, p.tunnel.task = .sending f → messagePack.RoundTrips f)
    (flying : ∀ f ∈ incoming.queue, messagePack.RoundTrips f)
    (move : p.step aesGcm messagePack deflate inflate codec frame a = some p') :
    ∃ incoming' outgoing', TunnelEnd.Comes messagePack (Carries aesGcm messagePack represents key) p
        q.ended incoming outgoing a p'.proxy incoming' outgoing' ∧
      Flight (Carries aesGcm messagePack represents key) frame pending key p' q outgoing' ∧
      Flight (Carries aesGcm messagePack represents key) frame pending key q p' incoming' := by
  obtain ⟨lost, sent, queue, transit, none⟩ := id outward
  have writes : ∀ {task : WriterTask}, p'.reader = p.reader → p'.receiver = p.receiver →
      p'.proxy = RunProxy.setTunnel p.proxy { p.tunnel with task } →
      Flight (Carries aesGcm messagePack represents key) frame pending key q p' incoming := by
    intro task reader receiver proxy
    apply inward.target reader receiver
    rw [proxy, RunProxy.running_setTunnel]
    exact id
  cases a with
  | encode fuel =>
      obtain ⟨reader, receiver⟩ := TunnelEnd.reader_of_encode move
      obtain ⟨transit, same | ⟨f, buf, sending, carries, large, proxy⟩⟩ :=
        transit.encode codecs hand move
      · refine ⟨incoming, outgoing, same ▸ .idle, ⟨lost, sent, queue, transit, none⟩, ?_⟩
        exact inward.target reader receiver (by rw [same]; exact id)
      · exact ⟨incoming, outgoing, proxy ▸ .refused sending carries large,
          ⟨lost, sent, queue, transit, none⟩, writes reader receiver proxy⟩
  | write k =>
      obtain ⟨reader, receiver⟩ := TunnelEnd.reader_of_write move
      rcases transit.write codecs move with ⟨transit, same⟩ | ⟨f, sending, transit, proxy⟩
      · refine ⟨incoming, outgoing, same ▸ .idle, ⟨lost, sent, queue, transit, none⟩, ?_⟩
        exact inward.target reader receiver (by rw [same]; exact id)
      · refine ⟨incoming, outgoing.push f, proxy ▸ .sent sending, ⟨lost, sent ++ [f], ?_, transit, none⟩,
          writes reader receiver proxy⟩
        rw [Fifo.queue_push, queue, List.append_assoc]
  | sendErr =>
      simp only [TunnelEnd.step] at move
      split at move
      · rename_i f sending
        cases move
        exact ⟨incoming, outgoing, .failed sending, ⟨lost, sent, queue, transit.setTask_done, none⟩,
          writes rfl rfl rfl⟩
      · cases move
  | readErr =>
      obtain ⟨-, move⟩ := Option.ite_none_right_eq_some.mp move
      obtain ⟨arrives, flights⟩ := Flight.leaves inward outward move
      exact ⟨incoming, outgoing, .readError (Or.inl rfl) arrives, flights⟩
  | deadline =>
      obtain ⟨arrives, flights⟩ := Flight.leaves inward outward move
      exact ⟨incoming, outgoing, .keepaliveTimeout arrives, flights⟩
  | next fuel =>
      obtain ⟨⟨waits, ready⟩, move⟩ := Option.ite_none_right_eq_some.mp move
      obtain ⟨⟨reader, receiver, arrival⟩, answered, move⟩ := Option.bind_eq_some_iff.mp move
      obtain ⟨proxy, arrives, rfl⟩ := Option.map_eq_some_iff.mp move
      obtain ⟨incoming', comes, inward⟩ :=
        Flight.next codecs inward flying waits ready answered arrives
      refine ⟨incoming', outgoing, comes, outward.source rfl rfl rfl ?_, inward⟩
      show Transit.Turns p.tunnel.task (RunProxy.tunnel proxy).task
      rw [RunProxy.arrive_task _ _ _ arrives]
      exact .same _

end

end Rfrp
