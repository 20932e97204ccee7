import Rfrp.Lib.Transition
import Rfrp.Proto.FrameCodec
import Rfrp.Proto.Nonces
import Mathlib.Data.List.Infix
import Mathlib.Logic.Function.Basic

/-!
# The encrypted channel under an active network

Both endpoints encode under one key. The network hands either of them any buffer at any time, as
often as it likes, also one that the endpoint made itself; it only cannot forge. The loops that
decode keep no record of nonces, so a frame is what one of the two write tasks made of it, and
nothing is known of its place in the order but what the network keeps of it.
-/

namespace Rfrp

structure Party (Z Z' : Type) where
  sender : Sender Z
  receiver : Receiver Z'
  encoded : List (RfrpFrame × Bytes)
  decoded : List (Bytes × RfrpFrame)
  stopped : Bool

abbrev Channel (Z Z' : Type) := Side → Party Z Z'

namespace Channel

inductive Label
  | encode (side : Side) (f : RfrpFrame)
  | deliver (side : Side) (buf : Bytes)

section
variable {Z Z' : Type} (aesGcm : Block 32 → Aead 12 16) (messagePack : MessagePack)
  (deflate : Coder Z) (inflate : Coder Z') (fuel : Nat)

def encode (f : RfrpFrame) (p : Party Z Z') : Option (Party Z Z') :=
  (f.encodeEncrypted aesGcm messagePack deflate fuel p.sender).map fun (buf, sender) =>
    { p with sender, encoded := p.encoded ++ [(f, buf)] }

def receive (buf : Bytes) (p : Party Z Z') : Option (Party Z Z') :=
  if p.stopped then some p
  else
    match RfrpFrame.decodeEncryptedBytesMut aesGcm messagePack inflate fuel buf p.receiver with
    | (some (.ok f), receiver) => some { p with receiver, decoded := p.decoded ++ [(buf, f)] }
    | (some (.error _), receiver) => some { p with receiver, stopped := true }
    | (none, _) => none

def step (c : Channel Z Z') : Label → Option (Channel Z Z')
  | .encode side f =>
      (encode aesGcm messagePack deflate fuel f (c side)).map (Function.update c side)
  | .deliver side buf =>
      (receive aesGcm messagePack inflate fuel buf (c side)).map (Function.update c side)

/-- The serializer can write the frames that are encoded, and a buffer that neither endpoint has
made does not authenticate. -/
def Admits (c : Channel Z Z') : Label → Prop
  | .encode _ f => messagePack.RoundTrips f
  | .deliver side buf => ∀ plain,
      (Cipher.decryptInPlaceBytesMut aesGcm (c side).receiver.cipher buf).2 = .ok plain →
        ∃ other f, (f, buf) ∈ (c other).encoded

end

def start {Z Z' : Type} (key : Block 32) (randomPrefix : Side → Block 4) (deflate : Side → Z)
    (inflate : Side → Z') : Channel Z Z' := fun side =>
  ⟨⟨.new key (randomPrefix side), [], deflate side⟩, ⟨.new key (randomPrefix side), [], inflate side⟩,
    [], [], false⟩

def peer : Side → Side
  | .client => .server
  | .server => .client

section
variable {Z Z' : Type} {aesGcm : Block 32 → Aead 12 16} {messagePack : MessagePack}
  {deflate : Coder Z} {inflate : Coder Z'} {fuel : Nat} {represents : Bytes → Bytes → Prop}
  {key : Block 32} {c d : Channel Z Z'} {p p' : Party Z Z'}

/-! ## What one step does -/

theorem encode_cases {f : RfrpFrame} (h : encode aesGcm messagePack deflate fuel f p = some p') :
    ∃ buf sender, f.encodeEncrypted aesGcm messagePack deflate fuel p.sender = some (buf, sender) ∧
      p' = { p with sender, encoded := p.encoded ++ [(f, buf)] } := by
  obtain ⟨⟨buf, sender⟩, encoded, same⟩ := Option.map_eq_some_iff.mp h
  exact ⟨buf, sender, encoded, same.symm⟩

theorem receive_cases {buf : Bytes} (h : receive aesGcm messagePack inflate fuel buf p = some p') :
    (p.stopped = true ∧ p' = p) ∨ (p.stopped = false ∧ ∃ receiver,
      (receiver = (RfrpFrame.decodeEncryptedBytesMut aesGcm messagePack inflate fuel buf
        p.receiver).2) ∧
      ((∃ f, (RfrpFrame.decodeEncryptedBytesMut aesGcm messagePack inflate fuel buf
          p.receiver).1 = some (.ok f) ∧
          p' = { p with receiver, decoded := p.decoded ++ [(buf, f)] }) ∨
        p' = { p with receiver, stopped := true })) := by
  unfold receive at h
  by_cases stopped : p.stopped = true
  · rw [if_pos stopped] at h
    exact Or.inl ⟨stopped, (Option.some.inj h).symm⟩
  · rw [if_neg stopped] at h
    refine Or.inr ⟨by simpa using stopped, _, rfl, ?_⟩
    split at h
    · rename_i f receiver decoded
      rw [decoded]
      exact Or.inl ⟨f, rfl, (Option.some.inj h).symm⟩
    · rename_i decoded
      rw [decoded]
      exact Or.inr (Option.some.inj h).symm
    · cases h

/-! ## What holds in every run -/

/-- Every decoded buffer is one that an endpoint made, and gave what that endpoint put in. -/
structure Authentic (aesGcm : Block 32 → Aead 12 16) (messagePack : MessagePack)
    (represents : Bytes → Bytes → Prop) (key : Block 32) (c : Channel Z Z') : Prop where
  senderKey : ∀ side, (c side).sender.cipher.key = key
  receiverKey : ∀ side, (c side).receiver.cipher.key = key
  encoded : ∀ side f buf, (f, buf) ∈ (c side).encoded →
    Carries aesGcm messagePack represents key f buf ∧ messagePack.RoundTrips f
  decoded : ∀ side buf g, (buf, g) ∈ (c side).decoded →
    ∃ other f, (f, buf) ∈ (c other).encoded ∧ g = f.skipAddr

theorem authentic_start (randomPrefix : Side → Block 4) (z : Side → Z) (z' : Side → Z') :
    Authentic aesGcm messagePack represents key (start key randomPrefix z z') where
  senderKey _ := rfl
  receiverKey _ := rfl
  encoded _ _ _ mem := by cases mem
  decoded _ _ _ mem := by cases mem

theorem Authentic.update (inv : Authentic aesGcm messagePack represents key c) {side : Side}
    (senderKey : p.sender.cipher.key = key) (receiverKey : p.receiver.cipher.key = key)
    (kept : ∀ entry ∈ (c side).encoded, entry ∈ p.encoded)
    (encoded : ∀ f buf, (f, buf) ∈ p.encoded → (f, buf) ∈ (c side).encoded ∨
      (Carries aesGcm messagePack represents key f buf ∧ messagePack.RoundTrips f))
    (decoded : ∀ buf g, (buf, g) ∈ p.decoded → (buf, g) ∈ (c side).decoded ∨
      ∃ other f, (f, buf) ∈ (c other).encoded ∧ g = f.skipAddr) :
    Authentic aesGcm messagePack represents key (Function.update c side p) := by
  have grows : ∀ other entry, entry ∈ (c other).encoded →
      entry ∈ (Function.update c side p other).encoded := by
    intro other entry mem
    by_cases here : other = side
    · subst here
      rw [Function.update_self]
      exact kept entry mem
    · rw [Function.update_of_ne here]
      exact mem
  constructor
  · intro other
    by_cases here : other = side
    · rw [here, Function.update_self]
      exact senderKey
    · rw [Function.update_of_ne here]
      exact inv.senderKey other
  · intro other
    by_cases here : other = side
    · rw [here, Function.update_self]
      exact receiverKey
    · rw [Function.update_of_ne here]
      exact inv.receiverKey other
  · intro other f buf mem
    by_cases here : other = side
    · rw [here, Function.update_self] at mem
      exact (encoded f buf mem).elim (inv.encoded side f buf) id
    · rw [Function.update_of_ne here] at mem
      exact inv.encoded other f buf mem
  · intro other buf g mem
    have before : ∃ other f, (f, buf) ∈ (c other).encoded ∧ g = f.skipAddr := by
      by_cases here : other = side
      · rw [here, Function.update_self] at mem
        exact (decoded buf g mem).elim (inv.decoded side buf g) id
      · rw [Function.update_of_ne here] at mem
        exact inv.decoded other buf g mem
    obtain ⟨maker, f, made, same⟩ := before
    exact ⟨maker, f, grows maker _ made, same⟩

theorem decrypts_of_decode {buf : Bytes} {r : Receiver Z'} {f : RfrpFrame}
    (decoded : (RfrpFrame.decodeEncryptedBytesMut aesGcm messagePack inflate fuel buf r).1 =
      some (.ok f)) :
    ∃ plain, (Cipher.decryptInPlaceBytesMut aesGcm r.cipher buf).2 = .ok plain := by
  unfold RfrpFrame.decodeEncryptedBytesMut at decoded
  split at decoded
  · cases decoded
  · rename_i plain decrypted
    exact ⟨plain, decrypted⟩

theorem authentic_step (flate : Flate deflate inflate represents)
    (inv : Authentic aesGcm messagePack represents key c) {a : Label}
    (admitted : Admits aesGcm messagePack c a)
    (move : step aesGcm messagePack deflate inflate fuel c a = some d) :
    Authentic aesGcm messagePack represents key d := by
  cases a with
  | encode side f =>
      obtain ⟨p, moved, rfl⟩ := Option.map_eq_some_iff.mp move
      obtain ⟨buf, sender, encoded, rfl⟩ := encode_cases moved
      obtain ⟨carries, sameKey⟩ := carries_of_encode flate admitted encoded
      rw [inv.senderKey] at carries sameKey
      apply inv.update
      · exact sameKey
      · exact inv.receiverKey side
      · intro entry mem
        exact List.mem_append_left _ mem
      · intro g buf' mem
        rcases List.mem_append.mp mem with old | new
        · exact Or.inl old
        · cases List.mem_singleton.mp new
          exact Or.inr ⟨carries, admitted⟩
      · intro buf' g mem
        exact Or.inl mem
  | deliver side buf =>
      obtain ⟨p, moved, rfl⟩ := Option.map_eq_some_iff.mp move
      obtain ⟨-, rfl⟩ | ⟨-, receiver, turned, outcome⟩ := receive_cases moved
      · rw [Function.update_eq_self]
        exact inv
      · have sameKey : receiver.cipher.key = key := by
          rw [turned]
          exact decode_key fuel buf (inv.receiverKey side)
        obtain ⟨g, decoded, rfl⟩ | rfl := outcome
        · obtain ⟨plain, decrypted⟩ := decrypts_of_decode decoded
          obtain ⟨maker, f, made⟩ := admitted plain decrypted
          obtain ⟨carries, reads⟩ := inv.encoded maker f buf made
          have result := received_of_decode flate reads carries (inv.receiverKey side) decoded
          apply inv.update
          · exact inv.senderKey side
          · exact sameKey
          · exact fun entry mem => mem
          · exact fun _ _ mem => Or.inl mem
          · intro buf' g' mem
            rcases List.mem_append.mp mem with old | new
            · exact Or.inl old
            · cases List.mem_singleton.mp new
              exact Or.inr ⟨maker, f, made, skipAddr_of_received result.symm⟩
        · apply inv.update
          · exact inv.senderKey side
          · exact sameKey
          · exact fun entry mem => mem
          · exact fun _ _ mem => Or.inl mem
          · exact fun _ _ mem => Or.inl mem

theorem stopped_step {side : Side} (stopped : (c side).stopped = true) {a : Label}
    (move : step aesGcm messagePack deflate inflate fuel c a = some d) :
    (d side).stopped = true ∧ (d side).decoded = (c side).decoded := by
  cases a with
  | encode other f =>
      obtain ⟨p, moved, rfl⟩ := Option.map_eq_some_iff.mp move
      obtain ⟨buf, sender, -, rfl⟩ := encode_cases moved
      by_cases here : side = other
      · subst here
        rw [Function.update_self]
        exact ⟨stopped, rfl⟩
      · rw [Function.update_of_ne here]
        exact ⟨stopped, rfl⟩
  | deliver other buf =>
      obtain ⟨p, moved, rfl⟩ := Option.map_eq_some_iff.mp move
      by_cases here : side = other
      · subst here
        obtain ⟨-, rfl⟩ | ⟨running, -⟩ := receive_cases moved
        · rw [Function.update_self]
          exact ⟨stopped, rfl⟩
        · rw [running] at stopped
          cases stopped
      · rw [Function.update_of_ne here]
        exact ⟨stopped, rfl⟩

theorem stopped_run {ok : Channel Z Z' → Label → Prop} {side : Side}
    (run : Transition.Run (step aesGcm messagePack deflate inflate fuel) ok c d)
    (stopped : (c side).stopped = true) :
    (d side).stopped = true ∧ (d side).decoded = (c side).decoded := by
  apply run.induct
  · exact ⟨stopped, rfl⟩
  · intro t a u _ ih _ move
    obtain ⟨still, same⟩ := stopped_step ih.1 move
    exact ⟨still, same.trans ih.2⟩

theorem Authentic.contents (flate : Flate deflate inflate represents)
    (inv : Authentic aesGcm messagePack represents key c) :
    ∃ contents : Bytes → RfrpFrame,
      (∀ side f buf, (f, buf) ∈ (c side).encoded → contents buf = f.skipAddr) ∧
      ∀ side buf g, (buf, g) ∈ (c side).decoded → contents buf = g := by
  classical
  let inside (buf : Bytes) (f : RfrpFrame) :=
    Carries aesGcm messagePack represents key f buf ∧ messagePack.RoundTrips f
  let contents (buf : Bytes) : RfrpFrame :=
    if known : ∃ f, inside buf f then known.choose.skipAddr else .newPingFrame
  have encoded : ∀ side f buf, (f, buf) ∈ (c side).encoded → contents buf = f.skipAddr := by
    intro side f buf mem
    have known : ∃ f, inside buf f := ⟨f, inv.encoded side f buf mem⟩
    have chosen := known.choose_spec
    obtain ⟨carries, reads⟩ := inv.encoded side f buf mem
    show dite _ _ _ = _
    rw [dif_pos known]
    exact chosen.1.skipAddr_eq flate carries chosen.2 reads
  refine ⟨contents, encoded, ?_⟩
  intro side buf g mem
  obtain ⟨other, f, made, rfl⟩ := inv.decoded side buf g mem
  exact encoded other f buf made

end

/-- Frames are not forged, and their order is the order of the buffers. -/
theorem integrity {Z Z' : Type} (aesGcm : Block 32 → Aead 12 16) (messagePack : MessagePack)
    (deflate : Coder Z) (inflate : Coder Z') (represents : Bytes → Bytes → Prop)
    (flate : Flate deflate inflate represents) (fuel : Nat) (key : Block 32)
    (randomPrefix : Side → Block 4) (z : Side → Z) (z' : Side → Z') (c : Channel Z Z')
    (run : Transition.Run (step aesGcm messagePack deflate inflate fuel)
      (Admits aesGcm messagePack) (start key randomPrefix z z') c) (side : Side) :
    (∀ buf g, (buf, g) ∈ (c side).decoded →
      ∃ maker f, (f, buf) ∈ (c maker).encoded ∧ g = f.skipAddr) ∧
    ((c side).decoded.map Prod.fst <+: (c (peer side)).encoded.map Prod.snd →
      (c side).decoded.map Prod.snd <+:
        (c (peer side)).encoded.map fun entry => entry.1.skipAddr) ∧
    (List.Sublist ((c side).decoded.map Prod.fst) ((c (peer side)).encoded.map Prod.snd) →
      List.Sublist ((c side).decoded.map Prod.snd)
        ((c (peer side)).encoded.map fun entry => entry.1.skipAddr)) ∧
    ((c side).stopped = true → ∀ d, Transition.Run (step aesGcm messagePack deflate inflate fuel)
      (Admits aesGcm messagePack) c d → (d side).decoded = (c side).decoded) := by
  have inv : Authentic aesGcm messagePack represents key c :=
    run.induct (authentic_start randomPrefix z z') fun _ _ _ _ inv admitted move =>
      authentic_step flate inv admitted move
  obtain ⟨contents, encoded, decoded⟩ := inv.contents flate
  have decodedMap : (c side).decoded.map Prod.snd =
      ((c side).decoded.map Prod.fst).map contents := by
    rw [List.map_map]
    apply List.map_congr_left
    intro ⟨buf, g⟩ mem
    exact (decoded side buf g mem).symm
  have encodedMap : ((c (peer side)).encoded.map fun entry => entry.1.skipAddr) =
      ((c (peer side)).encoded.map Prod.snd).map contents := by
    rw [List.map_map]
    apply List.map_congr_left
    intro ⟨f, buf⟩ mem
    exact (encoded (peer side) f buf mem).symm
  rw [decodedMap, encodedMap]
  refine ⟨inv.decoded side, ?_, ?_, ?_⟩
  · intro first
    exact first.map contents
  · intro part
    exact part.map contents
  · intro stopped d more
    exact (stopped_run more stopped).2

/-! ## A ping, replayed -/

def pingStart : Channel Coder.OneShot Coder.OneShot :=
  start (.zero 32) (fun | .client => .zero 4 | .server => .replicate 4 1) (fun _ => ⟨none, 0, 0⟩)
    fun _ => ⟨none, 0, 0⟩

abbrev pingStep (fuel : Nat) :=
  step (fun _ => pingGcm) pingPack (.oneShot pingDeflate) (.oneShot pingInflate) fuel

theorem pingPack_roundTrips : pingPack.RoundTrips .newPingFrame := ⟨pingBytes, rfl, rfl⟩

theorem ping_replayed : ∃ fuel buf, ∀ n, ∃ c,
    Transition.Run (pingStep fuel) (Admits (fun _ => pingGcm) pingPack) pingStart c ∧
      (c .client).encoded = [(.newPingFrame, buf)] ∧ (c .server).stopped = false ∧
      (c .server).receiver.cipher.key = .zero 32 ∧
      (c .server).decoded = List.replicate n (buf, .newPingFrame) := by
  obtain ⟨buf, sender, carries, -, -, few, encoded⟩ := encode_carries (fun _ => pingGcm) pingFlate
    pingPack_roundTrips (pingStart .client).sender
  obtain ⟨few', decoded⟩ := decode_carried pingFlate pingPack_roundTrips carries
  have whole : received pingPack .newPingFrame = .ok .newPingFrame := rfl
  rw [whole] at decoded
  refine ⟨max few few', buf, fun n => ?_⟩
  induction n with
  | zero =>
      have made : pingStep (max few few') pingStart (.encode .client .newPingFrame) =
          some (Function.update pingStart .client
            { pingStart .client with sender, encoded := [(.newPingFrame, buf)] }) := by
        show Option.map _ (Option.map _ _) = _
        rw [encoded _ (Nat.le_max_left few few')]
        rfl
      have writes : Admits (fun _ => pingGcm) pingPack pingStart (.encode .client .newPingFrame) :=
        pingPack_roundTrips
      exact ⟨_, (Transition.Run.refl _).tail writes made, rfl, rfl, rfl, rfl⟩
  | succ n ih =>
      obtain ⟨c, run, made, running, key, before⟩ := ih
      have result := decoded _ (Nat.le_max_right few few') (c .server).receiver key
      have sameKey : (RfrpFrame.decodeEncryptedBytesMut (fun _ => pingGcm) pingPack
          (.oneShot pingInflate) (max few few') buf (c .server).receiver).2.cipher.key = .zero 32 :=
        decode_key _ buf key
      cases turned : RfrpFrame.decodeEncryptedBytesMut (fun _ => pingGcm) pingPack
          (.oneShot pingInflate) (max few few') buf (c .server).receiver with
      | mk outcome receiver =>
      rw [turned] at result sameKey
      cases result
      have again : pingStep (max few few') c (.deliver .server buf) =
          some (Function.update c .server { c .server with
            receiver, decoded := (c .server).decoded ++ [(buf, .newPingFrame)] }) := by
        show Option.map _ (receive _ _ _ _ _ _) = _
        unfold receive
        rw [if_neg (by simp [running]), turned]
        rfl
      have known : Admits (fun _ => pingGcm) pingPack c (.deliver .server buf) :=
        fun _ _ => ⟨.client, .newPingFrame, made ▸ List.mem_singleton_self _⟩
      refine ⟨_, run.tail known again, made, running, sameKey, ?_⟩
      rw [List.replicate_succ']
      exact congrArg (· ++ _) before

theorem integrity_ping : ∃ fuel c,
    Transition.Run (pingStep fuel) (Admits (fun _ => pingGcm) pingPack) pingStart c ∧
      (c .server).decoded.map Prod.snd = [.newPingFrame] ∧
      (c .server).decoded.map Prod.snd <+: (c .client).encoded.map fun entry => entry.1.skipAddr := by
  obtain ⟨fuel, buf, replayed⟩ := ping_replayed
  obtain ⟨c, run, made, -, -, decoded⟩ := replayed 1
  have result := integrity (fun _ => pingGcm) pingPack (.oneShot pingDeflate)
    (.oneShot pingInflate) _ pingFlate fuel (.zero 32) _ _ _ c run .server
  refine ⟨fuel, c, run, ?_, result.2.1 ?_⟩
  · rw [decoded]
    rfl
  · show _ <+: (c .client).encoded.map Prod.snd
    rw [decoded, made]
    exact List.prefix_rfl

theorem replay_accepted : ¬ ∀ (Z Z' : Type) (aesGcm : Block 32 → Aead 12 16)
    (messagePack : MessagePack) (deflate : Coder Z) (inflate : Coder Z')
    (represents : Bytes → Bytes → Prop), Flate deflate inflate represents →
    ∀ (fuel : Nat) (key : Block 32) (randomPrefix : Side → Block 4) (z : Side → Z) (z' : Side → Z')
      (c : Channel Z Z'), Transition.Run (step aesGcm messagePack deflate inflate fuel)
        (Admits aesGcm messagePack) (start key randomPrefix z z') c →
      ∀ side, (c side).decoded.map Prod.snd <+:
        (c (peer side)).encoded.map fun entry => entry.1.skipAddr := by
  intro claim
  obtain ⟨fuel, buf, replayed⟩ := ping_replayed
  obtain ⟨c, run, made, -, -, decoded⟩ := replayed 2
  have first := claim _ _ (fun _ => pingGcm) pingPack (.oneShot pingDeflate) (.oneShot pingInflate) _
    pingFlate fuel (.zero 32) _ _ _ c run .server
  rw [decoded, show peer .server = .client from rfl, made] at first
  have length := first.length_le
  simp at length

end Channel

end Rfrp
