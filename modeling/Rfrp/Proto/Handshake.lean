import Rfrp.Proto.Crypto
import Rfrp.Lib.Result

/-!
# The handshake

`rfrp_proto/src/handshake.rs`. Each side sends a fresh nonce, reads the other's and derives the
session key from the token and the two nonces. What a side reads is up to the network.
-/

namespace Rfrp

/-- How a socket operation under `tokio::time::timeout` ends. -/
inductive Awaited (α : Type)
  | done (a : α)
  | failed (e : String)
  | timedOut

def Awaited.mapErr {α : Type} (timedOut failed : String) : Awaited α → Except String α
  | .done a => .ok a
  | .failed e => .error (failed ++ ": " ++ e)
  | .timedOut => .error timedOut

def serverHandshake (sha256 : Bytes → Block 32) (authToken : String) (serverNonce : Block 32)
    (randomPrefix : Block 4) (read : Awaited (Block 32)) (wrote : Awaited Unit) :
    Except String Cipher := do
  let clientNonce ← read.mapErr "Handshake: timed out waiting for client nonce"
    "Handshake: failed to read client nonce"
  wrote.mapErr "Handshake: timed out sending server nonce" "Handshake: failed to send server nonce"
  return .new (deriveSessionKey sha256 authToken clientNonce serverNonce) randomPrefix

def clientHandshake (sha256 : Bytes → Block 32) (authToken : String) (clientNonce : Block 32)
    (randomPrefix : Block 4) (wrote : Awaited Unit) (read : Awaited (Block 32)) :
    Except String Cipher := do
  wrote.mapErr "Handshake: timed out sending client nonce" "Handshake: failed to send client nonce"
  let serverNonce ← read.mapErr "Handshake: timed out waiting for server nonce"
    "Handshake: failed to read server nonce"
  return .new (deriveSessionKey sha256 authToken clientNonce serverNonce) randomPrefix

section
variable {sha256 : Bytes → Block 32} {token token' : String} {own : Block 32} {random : Block 4}
  {read : Awaited (Block 32)} {wrote : Awaited Unit} {cipher : Cipher}

theorem Awaited.mapErr_eq_ok {α : Type} {a : α} {x : Awaited α} {timedOut failed : String}
    (h : x.mapErr timedOut failed = .ok a) : x = .done a := by
  cases x <;> cases h
  rfl

theorem serverHandshake_eq_ok (h : serverHandshake sha256 token own random read wrote = .ok cipher) :
    ∃ clientNonce, read = .done clientNonce ∧
      cipher.key = sha256 (sessionKeyInput token clientNonce own) := by
  unfold serverHandshake at h
  obtain ⟨clientNonce, received, h⟩ := Result.bind_eq_ok.mp h
  obtain ⟨-, -, h⟩ := Result.bind_eq_ok.mp h
  cases h
  exact ⟨clientNonce, Awaited.mapErr_eq_ok received, rfl⟩

theorem clientHandshake_eq_ok (h : clientHandshake sha256 token own random wrote read = .ok cipher) :
    ∃ serverNonce, read = .done serverNonce ∧
      cipher.key = sha256 (sessionKeyInput token own serverNonce) := by
  unfold clientHandshake at h
  obtain ⟨-, -, h⟩ := Result.bind_eq_ok.mp h
  obtain ⟨serverNonce, received, h⟩ := Result.bind_eq_ok.mp h
  cases h
  exact ⟨serverNonce, Awaited.mapErr_eq_ok received, rfl⟩

theorem asBytes_inj (h : asBytes token = asBytes token') : token = token' := by
  apply String.toByteArray_inj.mp
  apply ByteArray.ext
  exact Array.toList_inj.mp h

theorem sessionKeyInput_inj {clientNonce serverNonce clientNonce' serverNonce' : Block 32}
    (h : sessionKeyInput token clientNonce serverNonce =
      sessionKeyInput token' clientNonce' serverNonce') :
    token = token' ∧ clientNonce = clientNonce' ∧ serverNonce = serverNonce' := by
  unfold sessionKeyInput at h
  obtain ⟨h, server⟩ := Block.append_inj h
  obtain ⟨h, client⟩ := Block.append_inj h
  exact ⟨asBytes_inj (List.append_cancel_right h), client, server⟩

end

theorem handshake_agreement (sha256 : Bytes → Block 32) (clientToken serverToken : String)
    (clientNonce serverNonce : Block 32) (clientPrefix serverPrefix : Block 4)
    (clientWrote serverWrote : Awaited Unit) (clientRead serverRead : Awaited (Block 32))
    (client server : Cipher)
    (atClient : clientHandshake sha256 clientToken clientNonce clientPrefix clientWrote clientRead =
      .ok client)
    (atServer : serverHandshake sha256 serverToken serverNonce serverPrefix serverRead serverWrote =
      .ok server)
    (noCollision : ∀ toClient toServer, clientRead = .done toClient → serverRead = .done toServer →
      sha256 (sessionKeyInput clientToken clientNonce toClient) =
        sha256 (sessionKeyInput serverToken toServer serverNonce) →
      sessionKeyInput clientToken clientNonce toClient =
        sessionKeyInput serverToken toServer serverNonce) :
    client.key = server.key ↔ clientToken = serverToken ∧ serverRead = .done clientNonce ∧
      clientRead = .done serverNonce := by
  obtain ⟨toClient, readClient, clientKey⟩ := clientHandshake_eq_ok atClient
  obtain ⟨toServer, readServer, serverKey⟩ := serverHandshake_eq_ok atServer
  rw [clientKey, serverKey]
  constructor
  · intro same
    obtain ⟨token, first, second⟩ :=
      sessionKeyInput_inj (noCollision toClient toServer readClient readServer same)
    exact ⟨token, by rw [readServer, first], by rw [readClient, second]⟩
  · rintro ⟨rfl, received, received'⟩
    cases readServer.symm.trans received
    cases readClient.symm.trans received'
    rfl

/-- SHA-256 on the two strings that are hashed below. -/
def sha256Table (bytes : Bytes) : Block 32 :=
  if bytes = sessionKeyInput "secret" (.replicate 32 1) (.replicate 32 2) then
    ⟨[76, 229, 115, 235, 139, 131, 31, 197, 85, 183, 16, 181, 39, 112, 218, 84, 21, 160, 63, 78, 23,
      35, 108, 41, 176, 232, 192, 141, 100, 213, 19, 238], rfl⟩
  else if bytes = sessionKeyInput "secret" (.replicate 32 1) (.replicate 32 3) then
    ⟨[12, 80, 203, 224, 221, 247, 29, 0, 98, 146, 59, 75, 65, 59, 109, 1, 37, 232, 160, 247, 124,
      129, 122, 26, 16, 210, 188, 111, 106, 157, 77, 233], rfl⟩
  else .zero 32

theorem handshake_agreement_tampered : ∃ client server : Cipher,
    clientHandshake sha256Table "secret" (.replicate 32 1) (.zero 4) (.done ())
      (.done (.replicate 32 3)) = .ok client ∧
    serverHandshake sha256Table "secret" (.replicate 32 2) (.zero 4) (.done (.replicate 32 1))
      (.done ()) = .ok server ∧
    client.key ≠ server.key := by
  refine ⟨_, _, rfl, rfl, ?_⟩
  intro same
  have agree := (handshake_agreement sha256Table "secret" "secret" (.replicate 32 1)
    (.replicate 32 2) (.zero 4) (.zero 4) (.done ()) (.done ()) (.done (.replicate 32 3))
    (.done (.replicate 32 1)) _ _ rfl rfl ?_).mp same
  · have nonce := Awaited.done.inj agree.2.2
    revert nonce
    decide
  · intro toClient toServer readClient readServer digests
    cases readClient
    cases readServer
    revert digests
    decide

end Rfrp
