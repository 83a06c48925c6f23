import AeroNyx.Session.Loop
import AeroNyx.Server.Handshake

/-!
# One connection after authentication

`handle_client` after its handshake (client.rs:215–321) together with the three
activities of `process_client_session` (client.rs:342–575), as a state machine
over the state the engine shares with every other connection: the session-key
store and the registry of live sessions (`Store`).

A connection (`Conn`) is in one `Phase`: before `allocate_ip`; with its session
key stored and the rest of the establishment pending; running its inbound loop,
heartbeat task and key-rotation task; with the loop left and the teardown
pending; or returned. One step (`connStep`) is one atomic action of one of its
activities, between two points where another activity, or another connection,
may run:

- `allocate` — `allocate_ip`, then the session id and key, then `store_key`;
- `establish` — `Pubkey::from_str`, the shared secret, the encryption of the
  session key, the `IpAssign` frame, `ClientSession::new` and `add_session`,
  with the compensation each failure runs;
- `inbound` — one iteration of the inbound loop (`inboundStep`), reading the key
  store for `get_key`;
- `heartbeat` — one tick of the heartbeat task;
- `rotate`, `rotationSend`, `rotationStore` — the rotation task: up to the
  encrypted `KeyRotation` frame, its send, and the `store_key` after a
  successful send;
- `teardown` — `remove_session`, `release_ip`, `remove_key`.

Every step returns the calls it made; the store after it is the store before
with those calls applied (`Store.applyAll`). The environment's choices in a step
are its `Label`; the functions the code consults that are determined by their
arguments are `Services` and `Crypto`.

The loop's exit aborts the two tasks (client.rs:569–570), and the model records
it (`Conn.aborted`). Tokio cancels a task only at its next yield: a task being
polled at the abort goes on, and an `await` that is ready at once (an interval
that fell behind, a free lock) does not yield. The model does not locate that
yield, so the tasks of a connection whose loop has exited may still take any of
their steps (`Conn.tasksLive`): a heartbeat `Ping`, a rotation's
`needs_rotation` and `get_key`, its send and its `store_key`, before or after
the teardown.
-/

namespace AeroNyx

/-- The state connections share: the session keys (`SessionKeyManager`, keyed
by client id) and the live session ids (`SessionManager`). -/
structure Store where
  keys : String → Option Bytes
  sessions : String → Bool

namespace Store

/-- What one call does to the shared state. -/
def apply (st : Store) : Call → Store
  | .storeKey clientId key => { st with keys := Function.update st.keys clientId (some key) }
  | .removeKey clientId => { st with keys := Function.update st.keys clientId none }
  | .addSession id _ _ => { st with sessions := Function.update st.sessions id true }
  | .removeSession id => { st with sessions := Function.update st.sessions id false }
  | _ => st

/-- The shared state after a sequence of calls. -/
def applyAll (st : Store) (calls : List Call) : Store :=
  calls.foldl apply st

@[simp] theorem applyAll_nil (st : Store) : st.applyAll [] = st := rfl

@[simp] theorem applyAll_cons (st : Store) (c : Call) (l : List Call) :
    st.applyAll (c :: l) = (st.apply c).applyAll l := rfl

@[simp] theorem applyAll_append (st : Store) (l₁ l₂ : List Call) :
    st.applyAll (l₁ ++ l₂) = (st.applyAll l₁).applyAll l₂ :=
  List.foldl_append _ _ _ _

/-- The slot of a client after a call depends only on the slot before it. -/
theorem keys_apply_congr {st st' : Store} {pk : String} (h : st.keys pk = st'.keys pk)
    (c : Call) : (st.apply c).keys pk = (st'.apply c).keys pk := by
  cases c <;> simp only [apply, Function.update_apply, h]

theorem keys_applyAll_congr {st st' : Store} {pk : String} (h : st.keys pk = st'.keys pk)
    (calls : List Call) : (st.applyAll calls).keys pk = (st'.applyAll calls).keys pk := by
  induction calls generalizing st st' with
  | nil => exact h
  | cons c cs ih => exact ih (keys_apply_congr h c)

/-- Calls that name no client but `q` leave every other client's slot alone. -/
theorem keys_applyAll_of_boundTo {q pk : String} (hq : q ≠ pk) :
    ∀ (st : Store) {calls : List Call}, BoundTo q calls → (st.applyAll calls).keys pk = st.keys pk
  | _, [], _ => rfl
  | st, c :: cs, h => by
    rw [boundTo_cons] at h
    rw [applyAll_cons, keys_applyAll_of_boundTo hq _ h.2]
    have hc : ∀ q', c.clientOf = some q' → q' ≠ pk := fun q' h' => h.1 q' h' ▸ hq
    cases c <;> simp_all [apply, Call.clientOf, Function.update_apply, eq_comm]

end Store

/-- Whether a call stores or removes a session key. -/
def Call.writesKey : Call → Bool
  | .storeKey _ _ | .removeKey _ => true
  | _ => false

/-- Calls that write no key leave every slot alone. -/
theorem Store.keys_applyAll_of_not_writesKey (st : Store) :
    ∀ {calls : List Call}, (∀ c ∈ calls, c.writesKey = false) → (st.applyAll calls).keys = st.keys
  | [], _ => rfl
  | c :: cs, h => by
    rw [List.forall_mem_cons] at h
    rw [Store.applyAll_cons, Store.keys_applyAll_of_not_writesKey _ h.2]
    cases c <;> simp_all [Store.apply, Call.writesKey]

theorem Call.writesKey_of_isLoopCall {clientId : String} {key : Option Bytes} {c : Call}
    (h : c.isLoopCall clientId key = true) : c.writesKey = false := by
  cases c <;> simp_all [Call.isLoopCall, Call.writesKey]

/-- The cryptography and parsing `handle_client` relies on (`crypto`,
`solana_sdk`; absent), as functions of their arguments. -/
structure Crypto where
  /-- `Pubkey::from_str`: the parse error for a key string, if any. -/
  pubkeyError : String → Option String
  /-- `key_manager.get_shared_secret(&pubkey)`. -/
  sharedSecret : String → Except String Bytes
  /-- The AEAD (ChaCha20-Poly1305): `encrypt key nonce plaintext`. -/
  encrypt : Bytes → Bytes → Bytes → Bytes
  /-- Its opening: `decrypt key nonce ciphertext`, `none` when it fails. -/
  decrypt : Bytes → Bytes → Bytes → Option Bytes
  /-- `key_manager.sign_message(&data).to_string()`. -/
  sign : Bytes → String

/-- Where a connection's `handle_client` stands. -/
inductive Phase where
  /-- Authenticated; `allocate_ip` is next (client.rs:216). -/
  | establishing
  /-- The session key is stored (client.rs:235); the rest of the establishment
  is pending. -/
  | keyStored (ip sessionId : String) (key : Bytes)
  /-- `process_client_session` is running its loop and its two tasks. -/
  | running (sessionId ip : String)
  /-- The loop has left with `process_result`; the teardown is pending. -/
  | closing (sessionId ip : String) (r : Except ServerError Unit)
  /-- `handle_client` has returned. -/
  | finished (r : Except ServerError Unit)

/-- Where the key-rotation task stands (client.rs:369–415). -/
inductive RotationTask where
  /-- Waiting for its next tick. -/
  | idle
  /-- The new key is generated and the fields of its `KeyRotation` frame are
  built: the new key encrypted under the current one, the nonce, the key id and
  the signature. The frame is about to be sent. -/
  | encrypted (newKey encryptedNewKey nonce : Bytes) (keyId signature : String)
  /-- The frame was sent; `store_key(new_key)` is next. -/
  | sent (newKey : Bytes)
  /-- Left its loop after a failed send. -/
  | stopped

/-- Who a connection serves, fixed for its whole life: the public key its
handshake verified (`public_key_string`, the client id) and the peer address. -/
structure Peer where
  clientId : String
  address : String

/-- The `ClientSession` the establishment builds (client.rs:287–294). -/
def Peer.session (p : Peer) (sessionId ip : String) : ClientSession :=
  ⟨sessionId, p.clientId, ip, p.address⟩

/-- What changes in a connection: its phase, the inbound loop's `last_counter`,
the heartbeat's `sequence`, the two tasks' states, and whether the loop's exit
has aborted the tasks. -/
structure Conn where
  phase : Phase
  lastCounter : Option UInt64
  sequence : UInt64
  heartbeatStopped : Bool
  rotation : RotationTask
  aborted : Bool

/-- A connection whose handshake has just returned. -/
def Conn.init : Conn :=
  ⟨.establishing, none, 0, false, .idle, false⟩

/-- Whether the heartbeat and rotation tasks may take a step: they are spawned
when the session starts running (client.rs:345, 369) and go on while the loop
runs; once its exit has aborted them they may still be mid-poll, until a yield
the model does not locate. -/
def Conn.tasksLive (c : Conn) : Bool :=
  match c.phase with
  | .running _ _ => true
  | .closing .. | .finished _ => c.aborted
  | _ => false

theorem Conn.tasksLive_of_eq {c c' : Conn} (hph : c'.phase = c.phase) (hab : c'.aborted = c.aborted) :
    c'.tasksLive = c.tasksLive := by
  simp only [Conn.tasksLive, hph, hab]

/-- The environment's choices in the establishment after `store_key`. -/
structure Establishment where
  /-- `encrypt_session_key`: the nonce, or an error. -/
  keyNonce : Except String Bytes
  /-- `ip_pool.get_default_lease_duration().as_secs()`. -/
  leaseDuration : UInt64
  /-- Whether the write of the step's frame (`IpAssign` or `Error`) succeeds. -/
  sendOk : Bool
  /-- `ClientSession::new`: an error, if any. -/
  sessionError : Option String

/-- The environment's choices in one tick of the rotation task. -/
structure Rotation where
  /-- `needs_rotation(&client_id)`. -/
  needsRotation : Bool
  /-- `SessionKeyManager::generate_key()`. -/
  newKey : Bytes
  /-- `encrypt_chacha20(&new_key, &current_key, None)`: the nonce, or an error. -/
  nonce : Except String Bytes
  /-- `random_string(16)`. -/
  keyId : String

/-- What the environment decides in one step of a connection. -/
inductive Label where
  | allocate (ip : Except String String) (randomId : String) (key : Bytes) (sendOk : Bool)
  | establish (o : Establishment)
  | inbound (ev : LoopEvent)
  | heartbeat (now : UInt64) (sendOk : Bool)
  | rotate (o : Rotation)
  | rotationSend (ok : Bool)
  | rotationStore
  | teardown

section Step

variable (sv : Services) (cr : Crypto) (peer : Peer)

/-- `allocate_ip` and what follows up to `store_key` (client.rs:216–235). -/
def allocateStep (c : Conn) (ip : Except String String) (randomId : String) (key : Bytes)
    (sendOk : Bool) : List Call × Conn :=
  match ip with
  | .error e =>
    let p := createErrorPacket 1007 ("Failed to allocate IP: " ++ e)
    match sv.encodeError p with
    | some e' => ([.allocateIp peer.clientId], { c with phase := .finished (.error (.protocol e')) })
    | none => ([.allocateIp peer.clientId, .send p sendOk],
        { c with phase := .finished (.error (.network ("IP allocation failed: " ++ e))) })
  | .ok ip =>
    ([.allocateIp peer.clientId, .storeKey peer.clientId key],
      { c with phase := .keyStored ip ("session_" ++ randomId) key })

/-- A crypto failure of the establishment (client.rs:243–248, 259–264): the
`Error` frame (the `?` on its serialization returns at once), `release_ip`, and
`return Err(err)`. -/
def compensate (c : Conn) (ip : String) (sendOk : Bool) (code : UInt16) (msg : String)
    (err : ServerError) : List Call × Conn :=
  match sv.encodeError (createErrorPacket code msg) with
  | some e => ([], { c with phase := .finished (.error (.protocol e)) })
  | none => ([.send (createErrorPacket code msg) sendOk, .releaseIp ip],
      { c with phase := .finished (.error err) })

/-- The `IpAssign` frame of the establishment (client.rs:269–275). -/
def ipAssignPacket (ip sessionId : String) (o : Establishment) (secret key nonce : Bytes) :
    PacketType :=
  .ipAssign ip o.leaseDuration sessionId (cr.encrypt secret nonce key) nonce

/-- From `IpAssign`'s serialization to `add_session` (client.rs:277–297). -/
def assignStep (c : Conn) (ip sessionId : String) (o : Establishment) (p : PacketType) :
    List Call × Conn :=
  match sv.encodeError p with
  | some e => ([], { c with phase := .finished (.error (.protocol e)) })
  | none =>
    if !o.sendOk then
      ([.send p false, .releaseIp ip],
        { c with phase := .finished (.error (.network "Failed to send IP assignment")) })
    else
      match o.sessionError with
      | some e => ([.send p true], { c with phase := .finished (.error (.session e)) })
      | none =>
        ([.send p true, .addSession sessionId peer.clientId ip],
          { c with phase := .running sessionId ip })

/-- The establishment after `store_key` (client.rs:237–297). -/
def establishStep (c : Conn) (ip sessionId : String) (key : Bytes) (o : Establishment) :
    List Call × Conn :=
  match cr.pubkeyError peer.clientId with
  | some e => ([], { c with phase := .finished (.error (.keyError ("Invalid public key: " ++ e))) })
  | none =>
    match cr.sharedSecret peer.clientId with
    | .error e =>
      compensate sv c ip o.sendOk 1006 ("Failed to derive shared secret: " ++ e)
        (.keyError ("Failed to derive shared secret: " ++ e))
    | .ok secret =>
      match o.keyNonce with
      | .error e =>
        compensate sv c ip o.sendOk 1006 ("Encryption failed: " ++ e)
          (.internal ("Failed to encrypt session key: " ++ e))
      | .ok nonce =>
        assignStep sv peer c ip sessionId o (ipAssignPacket cr ip sessionId o secret key nonce)

/-- One iteration of the inbound loop, with `get_key` reading the store. -/
def inboundConnStep (st : Store) (c : Conn) (sessionId ip : String) (ev : LoopEvent) :
    List Call × Conn :=
  let r := inboundStep (peer.session sessionId ip) c.lastCounter
    { ev with key := st.keys peer.clientId }
  match r.2 with
  | .next last => (r.1, { c with lastCounter := last })
  | .exit res => (r.1, { c with phase := .closing sessionId ip res, aborted := true })

theorem inboundConnStep_fst (st : Store) (c : Conn) (sessionId ip : String) (ev : LoopEvent) :
    (inboundConnStep peer st c sessionId ip ev).1 =
      (inboundStep (peer.session sessionId ip) c.lastCounter
        { ev with key := st.keys peer.clientId }).1 := by
  unfold inboundConnStep; dsimp only; split <;> rfl

/-- One tick of the heartbeat task (client.rs:348–360): a `Ping` with the
current sequence, which then wraps forward; a failed send ends the task. -/
def heartbeatStep (c : Conn) (now : UInt64) (sendOk : Bool) : List Call × Conn :=
  ([.send (.ping now c.sequence) sendOk],
    if sendOk then { c with sequence := c.sequence + 1 } else { c with heartbeatStopped := true })

/-- The rotation task once its `KeyRotation` frame is built: the new key
encrypted under the current one, the nonce, the key id, and the signature of
`key_id || nonce` (client.rs:382–396). -/
def encryptedRotation (current : Bytes) (o : Rotation) (nonce : Bytes) : RotationTask :=
  .encrypted o.newKey (cr.encrypt current nonce o.newKey) nonce o.keyId
    (cr.sign (o.keyId.toUTF8.toList ++ nonce))

/-- One tick of the rotation task up to its send (client.rs:372–396), reading
the current key from the store. -/
def rotateStep (st : Store) (c : Conn) (o : Rotation) : List Call × Conn :=
  if !o.needsRotation then ([.needsRotation peer.clientId], c)
  else
    let calls := [.needsRotation peer.clientId, .getKey peer.clientId]
    match st.keys peer.clientId with
    | none => (calls, c)
    | some current =>
      match o.nonce with
      | .error _ => (calls, c)
      | .ok nonce =>
        (calls, { c with rotation := encryptedRotation cr current o nonce })

/-- One step of a connection, or `none` when the label does not apply. -/
def connStep (st : Store) (c : Conn) : Label → Option (List Call × Conn)
  | .allocate ip randomId key sendOk =>
    match c.phase with
    | .establishing => some (allocateStep sv peer c ip randomId key sendOk)
    | _ => none
  | .establish o =>
    match c.phase with
    | .keyStored ip sessionId key => some (establishStep sv cr peer c ip sessionId key o)
    | _ => none
  | .inbound ev =>
    match c.phase with
    | .running sessionId ip => some (inboundConnStep peer st c sessionId ip ev)
    | _ => none
  | .heartbeat now sendOk =>
    match c.tasksLive, c.heartbeatStopped with
    | true, false => some (heartbeatStep c now sendOk)
    | _, _ => none
  | .rotate o =>
    match c.tasksLive, c.rotation with
    | true, .idle => some (rotateStep cr peer st c o)
    | _, _ => none
  | .rotationSend ok =>
    match c.rotation with
    | .encrypted k encryptedNewKey nonce keyId signature =>
      some ([.send (.keyRotation encryptedNewKey nonce keyId signature) ok],
        { c with rotation := if ok then .sent k else .stopped })
    | _ => none
  | .rotationStore =>
    match c.rotation with
    | .sent k => some ([.storeKey peer.clientId k], { c with rotation := .idle })
    | _ => none
  | .teardown =>
    match c.phase with
    | .closing sessionId ip r =>
      some ([.removeSession sessionId, .releaseIp ip, .removeKey peer.clientId],
        { c with phase := .finished r })
    | _ => none

/-! ### What each step can do -/

/-- `allocateStep` either returns with the connection finished, or stores the
session key and goes on with the lease and the session id. -/
theorem allocateStep_spec (c : Conn) (ip : Except String String) (randomId : String)
    (key : Bytes) (sendOk : Bool) :
    (∃ r, (allocateStep sv peer c ip randomId key sendOk).2 = { c with phase := .finished r }) ∨
    ∃ ip', allocateStep sv peer c ip randomId key sendOk =
      ([.allocateIp peer.clientId, .storeKey peer.clientId key],
        { c with phase := .keyStored ip' ("session_" ++ randomId) key }) := by
  unfold allocateStep
  split
  · dsimp only
    split <;> exact .inl ⟨_, rfl⟩
  · exact .inr ⟨_, rfl⟩

theorem compensate_snd (c : Conn) (ip : String) (sendOk : Bool) (code : UInt16) (msg : String)
    (err : ServerError) : ∃ r, (compensate sv c ip sendOk code msg err).2 = { c with phase := .finished r } := by
  unfold compensate
  split <;> exact ⟨_, rfl⟩

/-- `establishStep` either returns with the connection finished, or delivers the
session key encrypted under the client's shared secret and registers the
session. -/
theorem establishStep_spec (c : Conn) (ip sessionId : String) (key : Bytes) (o : Establishment) :
    (∃ r, (establishStep sv cr peer c ip sessionId key o).2 = { c with phase := .finished r }) ∨
    ∃ secret nonce, cr.sharedSecret peer.clientId = .ok secret ∧
      establishStep sv cr peer c ip sessionId key o =
        ([.send (ipAssignPacket cr ip sessionId o secret key nonce) true,
          .addSession sessionId peer.clientId ip], { c with phase := .running sessionId ip }) := by
  unfold establishStep
  split
  · exact .inl ⟨_, rfl⟩
  · split
    · exact .inl (compensate_snd sv c ip _ _ _ _)
    · rename_i secret hsecret
      split
      · exact .inl (compensate_snd sv c ip _ _ _ _)
      · rename_i nonce _
        unfold assignStep
        split
        · exact .inl ⟨_, rfl⟩
        · split_ifs
          · exact .inl ⟨_, rfl⟩
          · split
            · exact .inl ⟨_, rfl⟩
            · exact .inr ⟨secret, nonce, hsecret, rfl⟩

/-- An iteration of the loop keeps the connection running or closes it. -/
theorem inboundConnStep_snd (st : Store) (c : Conn) (sessionId ip : String) (ev : LoopEvent) :
    (∃ last, (inboundConnStep peer st c sessionId ip ev).2 = { c with lastCounter := last }) ∨
    ∃ r, (inboundConnStep peer st c sessionId ip ev).2 =
      { c with phase := .closing sessionId ip r, aborted := true } := by
  unfold inboundConnStep
  dsimp only
  split
  · exact .inl ⟨_, rfl⟩
  · exact .inr ⟨_, rfl⟩

/-- A tick of the rotation task only asks `needs_rotation` and reads the key;
it either stays idle or holds the new key encrypted under the stored one. -/
theorem rotateStep_spec (st : Store) (c : Conn) (o : Rotation) :
    (∀ x ∈ (rotateStep cr peer st c o).1,
      x = .needsRotation peer.clientId ∨ x = .getKey peer.clientId) ∧
    ((rotateStep cr peer st c o).2 = c ∨
      ∃ current nonce, st.keys peer.clientId = some current ∧
        (rotateStep cr peer st c o).2 =
          { c with rotation := encryptedRotation cr current o nonce }) := by
  unfold rotateStep
  split_ifs
  · simp
  · split
    · simp
    · rename_i current hcur
      split
      · simp
      · exact ⟨by simp, .inr ⟨current, _, hcur, rfl⟩⟩

/-- **What a step can do**, case by case: the phase or task state it needs, and
the calls it makes with the connection it leaves. -/
inductive StepSpec (st : Store) (c : Conn) : List Call × Conn → Prop
  | allocate (ip : Except String String) (randomId : String) (key : Bytes) (sendOk : Bool) :
    c.phase = .establishing → StepSpec st c (allocateStep sv peer c ip randomId key sendOk)
  | establish (ip sessionId : String) (key : Bytes) (o : Establishment) :
    c.phase = .keyStored ip sessionId key →
    StepSpec st c (establishStep sv cr peer c ip sessionId key o)
  | inbound (sessionId ip : String) (ev : LoopEvent) :
    c.phase = .running sessionId ip → StepSpec st c (inboundConnStep peer st c sessionId ip ev)
  | heartbeat (now : UInt64) (sendOk : Bool) :
    c.tasksLive = true → c.heartbeatStopped = false → StepSpec st c (heartbeatStep c now sendOk)
  | rotate (o : Rotation) :
    c.tasksLive = true → c.rotation = .idle → StepSpec st c (rotateStep cr peer st c o)
  | rotationSend (k encryptedNewKey nonce : Bytes) (keyId signature : String) (ok : Bool) :
    c.rotation = .encrypted k encryptedNewKey nonce keyId signature →
    StepSpec st c ([.send (.keyRotation encryptedNewKey nonce keyId signature) ok],
      { c with rotation := if ok then .sent k else .stopped })
  | rotationStore (k : Bytes) :
    c.rotation = .sent k → StepSpec st c ([.storeKey peer.clientId k], { c with rotation := .idle })
  | teardown (sessionId ip : String) (r : Except ServerError Unit) :
    c.phase = .closing sessionId ip r →
    StepSpec st c ([.removeSession sessionId, .releaseIp ip, .removeKey peer.clientId],
      { c with phase := .finished r })

theorem connStep_spec {st : Store} {c : Conn} {l : Label} {r : List Call × Conn}
    (h : connStep sv cr peer st c l = some r) : StepSpec sv cr peer st c r := by
  cases l <;> simp only [connStep] at h <;> split at h <;> cases h
  · exact .allocate _ _ _ _ ‹_›
  · exact .establish _ _ _ _ ‹_›
  · exact .inbound _ _ _ ‹_›
  · exact .heartbeat _ _ ‹_› ‹_›
  · exact .rotate _ ‹_› ‹_›
  · exact .rotationSend _ _ _ _ _ _ ‹_›
  · exact .rotationStore _ ‹_›
  · exact .teardown _ _ _ ‹_›

/-- A connection running alone from a store: the store, connection and calls
after a list of steps, or `none` when one of them does not apply. -/
def Conn.run : Store → Conn → List Label → Option (Store × Conn × List Call)
  | st, c, [] => some (st, c, [])
  | st, c, l :: ls =>
    match connStep sv cr peer st c l with
    | none => none
    | some (calls, c') =>
      (Conn.run (st.applyAll calls) c' ls).map fun r => (r.1, r.2.1, calls ++ r.2.2)

/-- `handle_client` from its handshake on: the store and all calls after the
handshake and a list of later steps. A handshake that fails returns at once. -/
def handleClient (env : HandshakeEnv) (addr : String) (st : Store) (ls : List Label) :
    Option (Store × List Call) :=
  match handshake sv env addr with
  | (calls, .ok publicKey) =>
    (Conn.run sv cr ⟨publicKey, addr⟩ st Conn.init ls).map fun r => (r.1, calls ++ r.2.2)
  | (calls, .error _) => some (st, calls)

/-! ### Every call names the connection's own client -/

theorem allocateStep_boundTo (c : Conn) (ip : Except String String) (randomId : String)
    (key : Bytes) (sendOk : Bool) :
    BoundTo peer.clientId (allocateStep sv peer c ip randomId key sendOk).1 := by
  unfold allocateStep
  split
  · dsimp only
    split <;> simp [Call.clientOf]
  · simp [Call.clientOf]

theorem compensate_boundTo (c : Conn) (ip : String) (sendOk : Bool) (code : UInt16)
    (msg : String) (err : ServerError) :
    BoundTo peer.clientId (compensate sv c ip sendOk code msg err).1 := by
  unfold compensate
  split <;> simp [Call.clientOf]

theorem establishStep_boundTo (c : Conn) (ip sessionId : String) (key : Bytes)
    (o : Establishment) : BoundTo peer.clientId (establishStep sv cr peer c ip sessionId key o).1 := by
  unfold establishStep
  split
  · simp
  · split
    · exact compensate_boundTo sv peer _ _ _ _ _ _
    · split
      · exact compensate_boundTo sv peer _ _ _ _ _ _
      · unfold assignStep
        split
        · simp
        · split_ifs
          · simp [Call.clientOf]
          · split <;> simp [Call.clientOf]

theorem rotateStep_boundTo (st : Store) (c : Conn) (o : Rotation) :
    BoundTo peer.clientId (rotateStep cr peer st c o).1 := by
  unfold rotateStep
  split_ifs
  · simp [Call.clientOf]
  · split
    · simp [Call.clientOf]
    · split <;> simp [Call.clientOf]

/-- **A step names no client but the connection's.** -/
theorem connStep_boundTo {st : Store} {c : Conn} {l : Label} {r : List Call × Conn}
    (h : connStep sv cr peer st c l = some r) : BoundTo peer.clientId r.1 := by
  cases connStep_spec sv cr peer h with
  | allocate => exact allocateStep_boundTo sv peer _ _ _ _ _
  | establish => exact establishStep_boundTo sv cr peer _ _ _ _ _
  | inbound => rw [inboundConnStep_fst]; exact inboundStep_boundTo (peer.session _ _) _ _
  | rotate => exact rotateStep_boundTo cr peer _ _ _
  | heartbeat => simp [heartbeatStep, Call.clientOf]
  | _ => simp [Call.clientOf]

end Step

end AeroNyx
