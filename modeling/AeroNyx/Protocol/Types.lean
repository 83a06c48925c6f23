import Mathlib.Data.String.Basic

/-!
# Protocol vocabulary of the session engine

The data the per-client engine of `server/client.rs` reads and writes: the
protocol packets (`PacketType`), the server's error type, the global
`ServerState`, and one inbound frame as the engine sees it after decoding.

`protocol/mod.rs` only re-exports `types::PacketType`; the declaring file, the
serializer (`create_error_packet`, `create_disconnect_packet`) and
`server/core.rs` are not among the repository's files, so these declarations
follow the wire schema and the error taxonomy of the specification (§6, §7),
keeping the field names `client.rs` uses.

The last part is the vocabulary of *calls*: every interaction of the engine
with a shared service (IP pool, session-key store, registry, router,
authenticator) or with the transport is recorded as a `Call`, so that the
later modules can state what a run did, in order.
-/

namespace AeroNyx

/-- Byte strings (`Vec<u8>`): keys, nonces, ciphertexts. -/
abbrev Bytes := List UInt8

/-- Modelled from the spec: `PacketType` of `protocol/types.rs` (absent), after
the wire schema of §6, one constructor per tag with the fields `client.rs`
matches on. -/
inductive PacketType where
  | auth (publicKey version : String) (features : List String) (nonce : String)
  | challenge (data : Bytes) (serverKey : String) (expiresAt : UInt64) (id : String)
  | challengeResponse (signature publicKey challengeId : String)
  | ipAssign (ipAddress : String) (leaseDuration : UInt64) (sessionId : String)
      (encryptedSessionKey keyNonce : Bytes)
  | ipRenewal (sessionId ipAddress : String)
  | ipRenewalResponse (sessionId : String) (expiresAt : UInt64) (success : Bool)
  | data (encrypted nonce : Bytes) (counter : UInt64) (padding : Option Bytes)
  | ping (timestamp sequence : UInt64)
  | pong (echoTimestamp serverTimestamp sequence : UInt64)
  | keyRotation (encryptedNewKey nonce : Bytes) (keyId signature : String)
  | disconnect (reason : UInt16) (message : String)
  | error (code : UInt16) (message : String)
deriving DecidableEq, Repr

/-- Modelled from the spec: `create_error_packet` of `protocol/serialization.rs`
(absent), an `Error` frame with the given code (§6: 1001 auth/format, 1002
protocol, 1005 ACL, 1006 crypto, 1007 IP allocation). -/
def createErrorPacket (code : UInt16) (message : String) : PacketType :=
  .error code message

/-- Modelled from the spec: `create_disconnect_packet` of
`protocol/serialization.rs` (absent). -/
def createDisconnectPacket (reason : UInt16) (message : String) : PacketType :=
  .disconnect reason message

/-- Modelled from the spec: `ServerState` of `server/core.rs` (absent), the
read-mostly global the inbound loop polls (§9). -/
inductive ServerState where
  | starting
  | running
  | stopping
deriving DecidableEq, Repr

/-- Modelled from the spec: the variants of `ServerError` (`server/core.rs`,
absent) that `client.rs` constructs, each with the text it is built from.
`session` is the conversion `?` applies to a failed `ClientSession::new`
(client.rs:287–294), whose target variant is not in the repository's files. -/
inductive ServerError where
  | webSocket (e : String)
  | authentication (msg : String)
  | protocol (e : String)
  | network (msg : String)
  | keyError (msg : String)
  | internal (msg : String)
  | session (e : String)
deriving DecidableEq, Repr

/-- One inbound frame as the engine sees it: the stream ended (`None`), a
transport error (`Some(Err(e))`), a message `ws_message_to_packet` rejects, or a
decoded packet. -/
inductive Inbound where
  | closed
  | transportError (e : String)
  | undecodable (e : String)
  | packet (p : PacketType)
deriving DecidableEq, Repr

/-! ## Calls -/

/-- What one step of the engine does to the outside world, in program order.
`send p ok` is a frame written to this connection's transport with the outcome
of the write; `acceptCounter c` records the loop's write
`last_counter = Some(counter)` (client.rs:451). -/
inductive Call where
  | recv
  | send (p : PacketType) (ok : Bool)
  | generateChallenge (addr : String)
  | verifyChallenge (challengeId signature publicKey addr : String)
  | isClientAllowed (publicKey : String)
  | allocateIp (clientId : String)
  | releaseIp (ip : String)
  | renewIp (ip : String)
  | storeKey (clientId : String) (key : Bytes)
  | getKey (clientId : String)
  | needsRotation (clientId : String)
  | removeKey (clientId : String)
  | addSession (id clientId ip : String)
  | removeSession (id : String)
  | route (encrypted nonce key : Bytes)
  | acceptCounter (counter : UInt64)
deriving DecidableEq, Repr

namespace Call

/-- The frame a call put on the wire, if it is a successful send. -/
def delivered : Call → Option PacketType
  | send p true => some p
  | _ => none

/-- Whether a call is a `release_ip`. -/
def isRelease : Call → Bool
  | releaseIp _ => true
  | _ => false

/-- The client id a call names, if any. -/
def clientOf : Call → Option String
  | allocateIp q | storeKey q _ | removeKey q | getKey q | needsRotation q
  | addSession _ q _ | isClientAllowed q | verifyChallenge _ _ q _ => some q
  | _ => none

end Call

/-- Every call in a list that names a client names `pk`. -/
def BoundTo (pk : String) (calls : List Call) : Prop :=
  ∀ c ∈ calls, ∀ q, c.clientOf = some q → q = pk

@[simp] theorem boundTo_nil (pk : String) : BoundTo pk [] := by
  simp [BoundTo]

@[simp] theorem boundTo_cons {pk : String} {c : Call} {l : List Call} :
    BoundTo pk (c :: l) ↔ (∀ q, c.clientOf = some q → q = pk) ∧ BoundTo pk l := by
  simp [BoundTo]

@[simp] theorem boundTo_append {pk : String} {l₁ l₂ : List Call} :
    BoundTo pk (l₁ ++ l₂) ↔ BoundTo pk l₁ ∧ BoundTo pk l₂ := by
  simp [BoundTo, or_imp, forall_and]

/-- The frames a run delivered to the client, in order. -/
def sentFrames (log : List Call) : List PacketType :=
  log.filterMap Call.delivered

@[simp] theorem sentFrames_nil : sentFrames [] = [] := rfl

@[simp] theorem sentFrames_append (l₁ l₂ : List Call) :
    sentFrames (l₁ ++ l₂) = sentFrames l₁ ++ sentFrames l₂ :=
  List.filterMap_append _ _ _

@[simp] theorem sentFrames_cons (c : Call) (l : List Call) :
    sentFrames (c :: l) = (c.delivered.toList) ++ sentFrames l := by
  cases h : c.delivered <;> simp [sentFrames, List.filterMap_cons, h]

end AeroNyx
