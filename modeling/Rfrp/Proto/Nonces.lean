import Rfrp.Proto.Crypto

/-!
# Nonces under a session key

Both endpoints encrypt under the one session key, each with a counter that starts at zero and a
random prefix of its own. Within an endpoint the counter keeps the nonces apart, between the
endpoints only the prefixes do.
-/

namespace Rfrp

inductive Side
  | client
  | server
deriving DecidableEq, Repr

structure Ciphers where
  client : Cipher
  server : Cipher
  used : List (Block 12)

namespace Ciphers

def start (key : Block 32) (clientPrefix serverPrefix : Block 4) : Ciphers :=
  ⟨.new key clientPrefix, .new key serverPrefix, []⟩

def encrypt (aesGcm : Block 32 → Aead 12 16) (c : Ciphers) : Side × Bytes → Ciphers
  | (.client, data) =>
      let (client, nonce, _) := Cipher.encryptInner aesGcm c.client data
      { c with client, used := c.used ++ [nonce] }
  | (.server, data) =>
      let (server, nonce, _) := Cipher.encryptInner aesGcm c.server data
      { c with server, used := c.used ++ [nonce] }

def run (aesGcm : Block 32 → Aead 12 16) (c : Ciphers) (data : List (Side × Bytes)) : Ciphers :=
  data.foldl (encrypt aesGcm) c

def nonceAt (random : Block 4) (i : Nat) : Block 12 :=
  Cipher.nonce ⟨.zero 32, UInt64.ofNat i, random⟩

def count (side : Side) (data : List (Side × Bytes)) : Nat := data.countP fun d => d.1 = side

def nonces (clientPrefix serverPrefix : Block 4) : Nat → Nat → List (Side × Bytes) → List (Block 12)
  | _, _, [] => []
  | i, j, (.client, _) :: rest =>
      nonceAt clientPrefix i :: nonces clientPrefix serverPrefix (i + 1) j rest
  | i, j, (.server, _) :: rest =>
      nonceAt serverPrefix j :: nonces clientPrefix serverPrefix i (j + 1) rest

section
variable {aesGcm : Block 32 → Aead 12 16} {p q : Block 4} {i j k : Nat} {data : List (Side × Bytes)}

theorem nonceAt_inj (hi : i < 2 ^ 64) (hj : j < 2 ^ 64) (h : nonceAt p i = nonceAt q j) :
    p = q ∧ i = j := by
  obtain ⟨same, counter⟩ := Cipher.nonce_inj h
  refine ⟨same, ?_⟩
  have values := congrArg UInt64.toNat counter
  simp only [UInt64.toNat_ofNat'] at values
  omega

theorem run_used (key : Block 32) (used : List (Block 12)) :
    (run aesGcm ⟨⟨key, UInt64.ofNat i, p⟩, ⟨key, UInt64.ofNat j, q⟩, used⟩ data).used =
      used ++ nonces p q i j data := by
  induction data generalizing i j used with
  | nil => simp [run, nonces]
  | cons d rest ih =>
      obtain ⟨side, data⟩ := d
      cases side with
      | client =>
          have step := ih (i := i + 1) (j := j) (used ++ [nonceAt p i])
          rw [UInt64.ofNat_add] at step
          rw [nonces, List.append_cons]
          exact step
      | server =>
          have step := ih (i := i) (j := j + 1) (used ++ [nonceAt q j])
          rw [UInt64.ofNat_add] at step
          rw [nonces, List.append_cons]
          exact step

@[simp] theorem count_nil (side : Side) : count side [] = 0 := rfl

@[simp] theorem count_self (side : Side) (d : Bytes) :
    count side ((side, d) :: data) = count side data + 1 := by
  simp [count]

theorem count_other {side other : Side} (ne : other ≠ side) (d : Bytes) :
    count side ((other, d) :: data) = count side data := by
  simp [count, ne]

theorem mem_nonces {nonce : Block 12} (h : nonce ∈ nonces p q i j data) :
    (∃ m < count .client data, nonce = nonceAt p (i + m)) ∨
      ∃ m < count .server data, nonce = nonceAt q (j + m) := by
  induction data generalizing i j with
  | nil => cases h
  | cons d rest ih =>
      obtain ⟨side, data⟩ := d
      cases side with
      | client =>
          rw [count_self, count_other (by decide)]
          rcases List.mem_cons.mp h with rfl | later
          · exact Or.inl ⟨0, by omega, rfl⟩
          · apply (ih later).imp_left
            intro ⟨m, bound, same⟩
            exact ⟨m + 1, by omega, by rw [same, Nat.add_right_comm, Nat.add_assoc]⟩
      | server =>
          rw [count_self, count_other (by decide)]
          rcases List.mem_cons.mp h with rfl | later
          · exact Or.inr ⟨0, by omega, rfl⟩
          · apply (ih later).imp_right
            intro ⟨m, bound, same⟩
            exact ⟨m + 1, by omega, by rw [same, Nat.add_right_comm, Nat.add_assoc]⟩

theorem nonceAt_mem_client (some : 0 < count .client data) :
    nonceAt p i ∈ nonces p q i j data := by
  induction data generalizing j with
  | nil => cases some
  | cons d rest ih =>
      obtain ⟨side, data⟩ := d
      cases side with
      | client => exact List.mem_cons_self
      | server =>
          rw [count_other (by decide)] at some
          exact List.mem_cons_of_mem _ (ih some)

theorem nonceAt_mem_server (some : 0 < count .server data) :
    nonceAt q j ∈ nonces p q i j data := by
  induction data generalizing i with
  | nil => cases some
  | cons d rest ih =>
      obtain ⟨side, data⟩ := d
      cases side with
      | server => exact List.mem_cons_self
      | client =>
          rw [count_other (by decide)] at some
          exact List.mem_cons_of_mem _ (ih some)

theorem nodup_nonces (apart : p ≠ q ∨ count .client data = 0 ∨ count .server data = 0)
    (hi : i + count .client data ≤ 2 ^ 64) (hj : j + count .server data ≤ 2 ^ 64) :
    (nonces p q i j data).Nodup := by
  induction data generalizing i j with
  | nil => exact List.nodup_nil
  | cons d rest ih =>
      obtain ⟨side, data⟩ := d
      cases side with
      | client =>
          rw [count_self] at apart hi
          rw [count_other (by decide)] at apart hj
          refine List.nodup_cons.mpr ⟨fun again => ?_, ih (apart.imp_right fun h => ?_) (by omega) hj⟩
          · rcases mem_nonces again with ⟨m, bound, same⟩ | ⟨m, bound, same⟩
            · have eq := (nonceAt_inj (by omega) (by omega) same).2
              omega
            · obtain ⟨rfl, -⟩ := nonceAt_inj (by omega) (by omega) same
              rcases apart with ne | none | none
              · exact ne rfl
              · omega
              · omega
          · omega
      | server =>
          rw [count_self] at apart hj
          rw [count_other (by decide)] at apart hi
          refine List.nodup_cons.mpr ⟨fun again => ?_, ih (apart.imp_right fun h => ?_) hi (by omega)⟩
          · rcases mem_nonces again with ⟨m, bound, same⟩ | ⟨m, bound, same⟩
            · obtain ⟨rfl, -⟩ := nonceAt_inj (by omega) (by omega) same
              rcases apart with ne | none | none
              · exact ne rfl
              · omega
              · omega
            · have eq := (nonceAt_inj (by omega) (by omega) same).2
              omega
          · omega

theorem not_nodup_nonces (client : 0 < count .client data) (server : 0 < count .server data) :
    ¬ (nonces p p 0 0 data).Nodup := by
  intro nodup
  cases data with
  | nil => cases client
  | cons d rest =>
      obtain ⟨side, data⟩ := d
      cases side with
      | client =>
          rw [count_other (by decide)] at server
          exact (List.nodup_cons.mp nodup).1 (nonceAt_mem_server server)
      | server =>
          rw [count_other (by decide)] at client
          exact (List.nodup_cons.mp nodup).1 (nonceAt_mem_client client)

end

theorem nonces_unique (aesGcm : Block 32 → Aead 12 16) (key : Block 32)
    (clientPrefix serverPrefix : Block 4) (data : List (Side × Bytes))
    (few : ∀ side, count side data < 2 ^ 64) :
    ((start key clientPrefix serverPrefix).run aesGcm data).used.Nodup ↔
      (clientPrefix ≠ serverPrefix ∨ count .client data = 0 ∨ count .server data = 0) := by
  have client := few .client
  have server := few .server
  have used : ((start key clientPrefix serverPrefix).run aesGcm data).used =
      nonces clientPrefix serverPrefix 0 0 data := run_used key []
  rw [used]
  constructor
  · intro nodup
    by_contra together
    simp only [not_or, not_not] at together
    obtain ⟨rfl, some, some'⟩ := together
    exact not_nodup_nonces (Nat.pos_of_ne_zero some) (Nat.pos_of_ne_zero some') nodup
  · intro apart
    exact nodup_nonces apart (by omega) (by omega)

def firstPrefix : Block 4 := ⟨[0, 0, 0, 0], rfl⟩

def secondPrefix : Block 4 := ⟨[0, 0, 0, 1], rfl⟩

/-- AES-256-GCM under the zero key, for empty plaintexts under the nonces that occur below. -/
def zeroKeyGcm : Aead 12 16 :=
  .counterMode (fun _ _ => 0) fun nonce _ =>
    if nonce = nonceAt firstPrefix 0 then
      ⟨[83, 15, 138, 251, 199, 69, 54, 185, 169, 99, 180, 241, 196, 203, 115, 139], rfl⟩
    else if nonce = nonceAt firstPrefix 1 then
      ⟨[132, 134, 54, 79, 200, 64, 151, 98, 246, 230, 35, 43, 101, 55, 107, 151], rfl⟩
    else if nonce = nonceAt secondPrefix 0 then
      ⟨[75, 244, 202, 241, 143, 128, 76, 183, 248, 141, 196, 155, 79, 229, 110, 110], rfl⟩
    else .zero 16

theorem nonces_unique_apart :
    ((start (.zero 32) firstPrefix secondPrefix).run (fun _ => zeroKeyGcm)
      [(.client, []), (.server, []), (.client, [])]).used.Nodup := by
  apply (nonces_unique (fun _ => zeroKeyGcm) (.zero 32) firstPrefix secondPrefix _ ?_).mpr
  · exact Or.inl (by decide)
  · intro side
    cases side <;> decide

theorem nonce_reused : ¬ ∀ (aesGcm : Block 32 → Aead 12 16) (key : Block 32)
    (clientPrefix serverPrefix : Block 4) (data : List (Side × Bytes)),
    (∀ side, count side data < 2 ^ 64) →
    ((start key clientPrefix serverPrefix).run aesGcm data).used.Nodup := by
  intro claim
  have few : ∀ side, count side [(Side.client, []), (Side.server, [])] < 2 ^ 64 := by
    intro side
    cases side <;> decide
  have nodup := claim (fun _ => zeroKeyGcm) (.zero 32) firstPrefix firstPrefix _ few
  revert nodup
  decide

end Ciphers

end Rfrp
