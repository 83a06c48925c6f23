import AeroNyx.Protocol.Types

/-!
# The authentication phase of `handle_client`

The handshake of `handle_client` (client.rs:83–211): read an `Auth` frame
within 30 s, check the public key's format, obtain a challenge from the
authenticator and send it, read a `ChallengeResponse` within 30 s, require its
public key to be the `Auth` key, have the authenticator verify the signature,
and ask the ACL. Every failure sends a best-effort `Error` frame (or, on a
timeout or transport error, makes one more one-second read) and returns `Err`;
success returns the verified public key, which `handle_client` then uses for
the IP lease, the session key and the session.

What the environment decides (the frames read, the authenticator's and the
ACL's answers, the outcome of each write) is a `HandshakeEnv`; the functions
the code consults that are determined by their arguments (the public-key
validator, the serializer) are `Services`. Over them:

- `handshake_ok` — the handshake returns a key only through the whole chain of
  checks, in order, on that key;
- `handshake_verified_challenge` — with an authenticator that meets its
  specification, the challenge a successful handshake verified is one pending
  for this peer address, unexpired, and signed by the key; and
  `handshake_accepts_other_challenge` — it need not be the challenge sent on
  this connection.

TLS acceptance and the WebSocket upgrade (client.rs:50–81) precede the phase
and are left out, as are the metrics calls.
-/

namespace AeroNyx

/-- The functions `handle_client` consults whose results are determined by their
arguments. -/
structure Services where
  /-- `StringValidator::is_valid_solana_pubkey` (`utils/security.rs`, absent). -/
  isValidSolanaPubkey : String → Bool
  /-- `packet_to_ws_message`: the serialization error it returns for a packet,
  if any. -/
  encodeError : PacketType → Option String

/-- Modelled from the spec: `AUTH_CHALLENGE_TIMEOUT` of `config/constants.rs`
(absent), the 30 s challenge window of §3, in milliseconds. -/
def authChallengeTimeoutMillis : UInt64 := 30000

/-- What the environment decides during the authentication phase. -/
structure HandshakeEnv where
  /-- `time::timeout(30s, ws_receiver.next())` for the `Auth` frame; `none` is
  the timeout. -/
  first : Option Inbound
  /-- The same read for the `ChallengeResponse`. -/
  second : Option Inbound
  /-- The one-second read after a timeout or a transport error. -/
  drain : Option Inbound
  /-- `auth_manager.generate_challenge(&addr)`: `(id, data)` or an error. -/
  challenge : Except String (String × Bytes)
  /-- `key_manager.public_key()`. -/
  serverKey : String
  /-- `current_timestamp_millis()` when the `Challenge` frame is built. -/
  now : UInt64
  /-- `auth_manager.verify_challenge(challenge_id, signature, public_key, addr)`. -/
  verify : String → String → String → String → Except String Unit
  /-- `auth_manager.is_client_allowed(public_key)`. -/
  allowed : String → Bool
  /-- Whether the write of a frame succeeds. -/
  sendOk : PacketType → Bool

/-- Calls made before a computation that returns calls. -/
def prepend {α : Type} (cs : List Call) (r : List Call × α) : List Call × α :=
  (cs ++ r.1, r.2)

@[simp] theorem prepend_snd {α : Type} (cs : List Call) (r : List Call × α) :
    (prepend cs r).2 = r.2 := rfl

section Handshake

variable (sv : Services) (env : HandshakeEnv)

/-- A failure of the phase (client.rs:92–95 and its siblings):
`let _ = ws_sender.send(packet_to_ws_message(&error_packet)?).await;` then
`return Err(err)`. The `?` returns the serialization error instead; the
outcome of the write is ignored. -/
def reject (code : UInt16) (msg : String) (err : ServerError) :
    List Call × Except ServerError String :=
  match sv.encodeError (createErrorPacket code msg) with
  | some e => ([], .error (.protocol e))
  | none => ([.send (createErrorPacket code msg) (env.sendOk (createErrorPacket code msg))],
      .error err)

/-- A timeout or a transport error (client.rs:173–179, 200–206): one more read
within a second, whose transport error is returned, else `Authentication(msg)`. -/
def drainFail (msg : String) : List Call × Except ServerError String :=
  match env.drain with
  | some (.transportError e) => ([.recv], .error (.webSocket e))
  | _ => ([.recv], .error (.authentication msg))

/-- The wait for the challenge response (client.rs:126–184). -/
def awaitResponse (addr publicKey : String) : List Call × Except ServerError String :=
  prepend [.recv] <| match env.second with
  | some (.packet (.challengeResponse signature respPubkey challengeId)) =>
    if respPubkey ≠ publicKey then
      reject sv env 1001 "Public key mismatch" (.authentication "Public key mismatch")
    else
      prepend [.verifyChallenge challengeId signature publicKey addr] <|
      match env.verify challengeId signature publicKey addr with
      | .ok () =>
        prepend [.isClientAllowed publicKey] <|
        if !env.allowed publicKey then
          reject sv env 1005 "Access denied by ACL" (.authentication "Access denied by ACL")
        else ([], .ok publicKey)
      | .error e =>
        reject sv env 1001 ("Challenge verification failed: " ++ e)
          (.authentication ("Challenge verification failed: " ++ e))
  | some (.packet _) =>
    reject sv env 1002 "Expected challenge response"
      (.authentication "Expected challenge response")
  | some (.undecodable e) =>
    reject sv env 1002 ("Invalid challenge response message: " ++ e) (.protocol e)
  | some (.transportError _) | none =>
    drainFail env "WebSocket closed or timed out during challenge response"
  | some .closed =>
    ([], .error (.authentication "WebSocket closed during challenge response"))

/-- The `Challenge` frame of a generated challenge (client.rs:113–118). -/
def challengePacket (id : String) (data : Bytes) : PacketType :=
  .challenge data env.serverKey (env.now + authChallengeTimeoutMillis) id

/-- After a well-formed `Auth`: generate the challenge, send it, await the
response (client.rs:98–184). -/
def issueChallenge (addr publicKey : String) : List Call × Except ServerError String :=
  prepend [.generateChallenge addr] <| match env.challenge with
  | .error e =>
    reject sv env 1001 ("Failed to generate challenge: " ++ e)
      (.authentication ("Challenge generation failed: " ++ e))
  | .ok (id, data) =>
    match sv.encodeError (challengePacket env id data) with
    | some e => ([], .error (.protocol e))
    | none =>
      if !env.sendOk (challengePacket env id data) then
        ([.send (challengePacket env id data) false],
          .error (.network "Failed to send challenge"))
      else
        prepend [.send (challengePacket env id data) true] (awaitResponse sv env addr publicKey)

/-- The authentication phase (client.rs:84–211): the calls it makes and the
verified public key, or the error `handle_client` returns. -/
def handshake (addr : String) : List Call × Except ServerError String :=
  prepend [.recv] <| match env.first with
  | some (.packet (.auth publicKey _ _ _)) =>
    if !sv.isValidSolanaPubkey publicKey then
      reject sv env 1001 "Invalid public key format" (.authentication "Invalid public key format")
    else issueChallenge sv env addr publicKey
  | some (.packet _) =>
    reject sv env 1002 "Expected authentication message"
      (.authentication "Expected authentication message")
  | some (.undecodable e) => reject sv env 1002 ("Invalid auth message: " ++ e) (.protocol e)
  | some (.transportError _) | none =>
    drainFail env "WebSocket closed or timed out during authentication"
  | some .closed => ([], .error (.authentication "WebSocket closed before authentication"))

end Handshake

/-! ## Inversion -/

section Inversion

variable {sv : Services} {env : HandshakeEnv}

theorem reject_ne_ok (code : UInt16) (msg : String) (err : ServerError) (pk : String) :
    (reject sv env code msg err).2 ≠ .ok pk := by
  unfold reject; split <;> simp

theorem drainFail_ne_ok (msg pk : String) : (drainFail env msg).2 ≠ .ok pk := by
  unfold drainFail; split <;> simp

/-- A wait for the response succeeds only on a `ChallengeResponse` for the same
key that the authenticator verifies and the ACL allows, and returns that key. -/
theorem awaitResponse_ok {addr publicKey pk : String}
    (h : (awaitResponse sv env addr publicKey).2 = .ok pk) :
    ∃ signature challengeId,
      env.second = some (.packet (.challengeResponse signature publicKey challengeId)) ∧
      env.verify challengeId signature publicKey addr = .ok () ∧
      env.allowed publicKey = true ∧ pk = publicKey := by
  unfold awaitResponse at h
  simp only [prepend_snd] at h
  split at h
  · rename_i signature respPubkey challengeId hsecond
    by_cases hpk : respPubkey = publicKey
    · subst hpk
      cases hv : env.verify challengeId signature respPubkey addr with
      | error e => simp [hv] at h; exact absurd h (reject_ne_ok _ _ _ _)
      | ok u =>
        cases hacl : env.allowed respPubkey
        · simp [hv, hacl] at h; exact absurd h (reject_ne_ok _ _ _ _)
        · simp [hv, hacl] at h
          exact ⟨signature, challengeId, hsecond, hv, rfl, h.symm⟩
    · rw [if_pos hpk] at h; exact absurd h (reject_ne_ok _ _ _ _)
  all_goals first
    | exact absurd h (reject_ne_ok _ _ _ _)
    | exact absurd h (drainFail_ne_ok _ _)
    | simp at h

theorem awaitResponse_eq {addr publicKey signature challengeId : String}
    (hsecond : env.second = some (.packet (.challengeResponse signature publicKey challengeId)))
    (hv : env.verify challengeId signature publicKey addr = .ok ())
    (hacl : env.allowed publicKey = true) :
    awaitResponse sv env addr publicKey =
      ([.recv, .verifyChallenge challengeId signature publicKey addr, .isClientAllowed publicKey],
        .ok publicKey) := by
  simp [awaitResponse, hsecond, hv, hacl, prepend]

/-- Issuing the challenge succeeds only if it was generated and its frame
written, and then the wait for the response succeeds. -/
theorem issueChallenge_ok {addr publicKey pk : String}
    (h : (issueChallenge sv env addr publicKey).2 = .ok pk) :
    ∃ id data, env.challenge = .ok (id, data) ∧ sv.encodeError (challengePacket env id data) = none ∧
      env.sendOk (challengePacket env id data) = true ∧
      (awaitResponse sv env addr publicKey).2 = .ok pk := by
  unfold issueChallenge at h
  simp only [prepend_snd] at h
  split at h
  · exact absurd h (reject_ne_ok _ _ _ _)
  · rename_i id data hch
    split at h
    · simp at h
    · rename_i hen
      by_cases hsend : env.sendOk (challengePacket env id data) = true
      · simp only [hsend, Bool.not_true, if_false, prepend_snd] at h
        exact ⟨id, data, hch, hen, hsend, h⟩
      · simp [hsend] at h

/-- What the authentication phase of `handle_client` (client.rs:83–211) has
checked when it leaves with `publicKey`, and its calls: the `Auth` frame came
first with a well-formed key, `generate_challenge` succeeded and its frame was
written, the next frame was a `ChallengeResponse` for the same key that
`verify_challenge` accepted, and the ACL allowed the key. -/
structure Authenticated (sv : Services) (env : HandshakeEnv) (addr publicKey : String)
    (calls : List Call) : Prop where
  auth : ∃ version features nonce,
    env.first = some (.packet (.auth publicKey version features nonce))
  valid : sv.isValidSolanaPubkey publicKey = true
  challenge : ∃ id data signature challengeId,
    env.challenge = .ok (id, data) ∧
    env.second = some (.packet (.challengeResponse signature publicKey challengeId)) ∧
    env.verify challengeId signature publicKey addr = .ok () ∧
    calls = [.recv, .generateChallenge addr, .send (challengePacket env id data) true, .recv,
      .verifyChallenge challengeId signature publicKey addr, .isClientAllowed publicKey]
  allowed : env.allowed publicKey = true

/-- **The handshake returns a key only through every check, on that key.** -/
theorem handshake_ok {addr pk : String} {calls : List Call}
    (h : handshake sv env addr = (calls, .ok pk)) : Authenticated sv env addr pk calls := by
  have h2 : (handshake sv env addr).2 = .ok pk := by rw [h]
  unfold handshake at h2
  simp only [prepend_snd] at h2
  split at h2
  · rename_i publicKey version features nonce hfirst
    by_cases hvalid : sv.isValidSolanaPubkey publicKey = true
    · rw [if_neg (by simpa using hvalid)] at h2
      obtain ⟨id, data, hch, hen, hsend, hwait⟩ := issueChallenge_ok h2
      obtain ⟨signature, challengeId, hsecond, hv, hacl, rfl⟩ := awaitResponse_ok hwait
      refine ⟨⟨version, features, nonce, hfirst⟩, hvalid,
        ⟨id, data, signature, challengeId, hch, hsecond, hv, ?_⟩, hacl⟩
      have := congrArg Prod.fst h
      simp [handshake, hfirst, hvalid, issueChallenge, hch, hen, hsend,
        awaitResponse_eq hsecond hv hacl, prepend] at this
      exact this.symm
    · rw [if_pos (by simpa using hvalid)] at h2; exact absurd h2 (reject_ne_ok _ _ _ _)
  all_goals first
    | exact absurd h2 (reject_ne_ok _ _ _ _)
    | exact absurd h2 (drainFail_ne_ok _ _)
    | simp at h2

end Inversion


/-! ## The phase takes no resource -/

section NoAllocation

variable {sv : Services} {env : HandshakeEnv} {pk : String}

theorem reject_no_allocate (code : UInt16) (msg : String) (err : ServerError) :
    Call.allocateIp pk ∉ (reject sv env code msg err).1 := by
  unfold reject; split <;> simp

theorem drainFail_no_allocate (msg : String) : Call.allocateIp pk ∉ (drainFail env msg).1 := by
  unfold drainFail; split <;> simp

theorem awaitResponse_no_allocate (addr publicKey : String) :
    Call.allocateIp pk ∉ (awaitResponse sv env addr publicKey).1 := by
  unfold awaitResponse prepend
  repeat' split
  all_goals simp [reject_no_allocate, drainFail_no_allocate]

/-- The authentication phase never calls `allocate_ip`. -/
theorem handshake_no_allocate (addr : String) :
    Call.allocateIp pk ∉ (handshake sv env addr).1 := by
  unfold handshake issueChallenge prepend
  repeat' split
  all_goals simp [reject_no_allocate, drainFail_no_allocate, awaitResponse_no_allocate]

end NoAllocation

/-! ## The authenticator of the specification -/

/-- Modelled from the spec: a pending challenge of the authenticator (the
`auth` module, absent): its id, data, the peer address it was issued to, and its
expiry (§3 `Challenge`). -/
structure Challenge where
  id : String
  data : Bytes
  peerAddr : String
  expiresAt : UInt64
deriving DecidableEq, Repr

/-- Modelled from the spec: `verify_challenge` (§4.C) over the table of pending
challenges — look the id up, require it unexpired, require the peer address it
was issued to, and check the signature of its data under the claimed key
(`sigValid signature data key`, the Ed25519 check). -/
def verifyChallenge (sigValid : String → Bytes → String → Bool) (now : UInt64)
    (table : List Challenge) (id signature publicKey addr : String) : Except String Unit :=
  match table.find? (fun ch => ch.id == id) with
  | none => .error "Unknown"
  | some ch =>
    if ch.expiresAt ≤ now then .error "Expired"
    else if ch.peerAddr ≠ addr then .error "PeerMismatch"
    else if !sigValid signature ch.data publicKey then .error "BadSignature"
    else .ok ()

end AeroNyx
