import AeroNyx.Server.Lifecycle

/-!
# Connections sharing the key store

The engine runs one `handle_client` per accepted connection (client.rs:83–322),
each with its heartbeat and rotation tasks, over one `SessionKeyManager` and one
`SessionManager` (`Store`). `Engine` runs any number of connections at once; a
step of the engine is one step of one connection (`Engine.step`), so a run of
the engine is an arbitrary interleaving of the connections' activities.

The client's side of the key exchange is not in the repository. `clientView`
follows the spec: an `IpAssign` hands the client its session key encrypted
under the shared secret, and a `KeyRotation` hands it the next key encrypted
under the one it holds. `clientKey` is the key a client holds after the frames
its connection delivered.

Two invariants hold of every reachable engine whose connections' client keys
are pairwise distinct: each client's slot holds what its own connection's calls
made of it (`Reachable.owned`), and, when the AEAD opens what it seals
(`Crypto.Opens`), each connection agrees with its client (`Reachable.agrees`).

- `storedKey_agrees` — while a session runs, the key stored for its client is
  the client's own, except between a delivered `KeyRotation` and the
  `store_key` after it; and the only step that changes it is that `store_key`;
- `sessionKeys_isolated` — no connection's step changes another's slot, and the
  key a session's loop hands to the router is the one its own run last stored,
  which is its client's outside the rotation window;
- `routed_key_not_delivered` — when two connections authenticate with the same
  key, the second one's `store_key` replaces the key of the first, whose loop
  then hands its client's traffic to the router with the other session's key;
  and within one session, between a delivered `KeyRotation` and its
  `store_key`, the loop routes with the old key.
-/

namespace AeroNyx

/-! ## The client's view -/

/-- Modelled from the spec: the session key a client holds after a frame
reaches it. An `IpAssign` carries the session key encrypted under the shared
secret; a `KeyRotation` carries the new key encrypted under the key the client
holds. Every other frame leaves the key as it was. -/
def clientView (cr : Crypto) (clientId : String) (held : Option Bytes) : PacketType → Option Bytes
  | .ipAssign _ _ _ encryptedSessionKey keyNonce =>
    match cr.sharedSecret clientId with
    | .ok secret => cr.decrypt secret keyNonce encryptedSessionKey
    | .error _ => none
  | .keyRotation encryptedNewKey nonce _ _ =>
    held.bind fun current => cr.decrypt current nonce encryptedNewKey
  | _ => held

/-- The key a client holds after the frames its connection delivered. -/
def clientKey (cr : Crypto) (clientId : String) (log : List Call) : Option Bytes :=
  (sentFrames log).foldl (clientView cr clientId) none

theorem clientKey_append (cr : Crypto) (clientId : String) (l₁ l₂ : List Call) :
    clientKey cr clientId (l₁ ++ l₂) =
      (sentFrames l₂).foldl (clientView cr clientId) (clientKey cr clientId l₁) := by
  simp [clientKey, List.foldl_append]

/-- Whether a frame changes the key its client holds. -/
def PacketType.carriesKey : PacketType → Bool
  | .ipAssign .. | .keyRotation .. => true
  | _ => false

/-- A call that neither writes a key into the store nor delivers a frame that
carries one. -/
def Call.quiet (c : Call) : Bool :=
  !c.writesKey && c.delivered.all fun p => !p.carriesKey

theorem Store.keys_applyAll_of_quiet (st : Store) {calls : List Call}
    (h : ∀ c ∈ calls, c.quiet = true) : (st.applyAll calls).keys = st.keys :=
  Store.keys_applyAll_of_not_writesKey st fun c hc => by
    have := h c hc
    simp_all [Call.quiet]

theorem Call.quiet_clientView {c : Call} (h : c.quiet = true) (cr : Crypto) (clientId : String)
    (held : Option Bytes) : (sentFrames [c]).foldl (clientView cr clientId) held = held := by
  cases c with
  | send p ok =>
    cases ok <;> cases p <;>
      simp_all [Call.quiet, Call.writesKey, Call.delivered, PacketType.carriesKey, clientView]
  | _ => rfl

theorem clientKey_append_of_quiet (cr : Crypto) (clientId : String) (log : List Call) :
    ∀ {calls : List Call}, (∀ c ∈ calls, c.quiet = true) →
      clientKey cr clientId (log ++ calls) = clientKey cr clientId log
  | [], _ => by simp
  | c :: cs, h => by
    rw [List.forall_mem_cons] at h
    rw [← List.singleton_append, ← List.append_assoc, clientKey_append_of_quiet cr clientId _ h.2,
      clientKey_append, Call.quiet_clientView h.1]

theorem Call.quiet_of_isLoopCall {clientId : String} {key : Option Bytes} {c : Call}
    (h : c.isLoopCall clientId key = true) : c.quiet = true := by
  cases c with
  | send p ok =>
    cases p <;> cases ok <;>
      simp_all [Call.isLoopCall, Call.quiet, Call.writesKey, Call.delivered, PacketType.carriesKey]
  | _ => simp_all [Call.isLoopCall, Call.quiet, Call.writesKey, Call.delivered]

/-! ## One connection and its client -/

/-- The AEAD opens what it seals: decryption under the key and nonce of an
encryption gives its plaintext back. -/
def Crypto.Opens (cr : Crypto) : Prop :=
  ∀ key nonce m, cr.decrypt key nonce (cr.encrypt key nonce m) = some m

/-- What the rotation task's state says of the stored key and the key the client
holds: the two are equal, except once a `KeyRotation` is delivered and not yet
followed by its `store_key`, when the client holds the new key already; a frame
still to be sent opens, under the stored key, to the new key. -/
def RotationAgrees (cr : Crypto) (stored held : Option Bytes) : RotationTask → Prop
  | .idle | .stopped => held = stored
  | .encrypted k encryptedNewKey nonce _ _ =>
    held = stored ∧ (stored.bind fun current => cr.decrypt current nonce encryptedNewKey) = some k
  | .sent k => held = some k

/-- A connection agrees with its client: from `store_key` on, the stored key is
the one the establishment is about to deliver, and once the session runs the
rotation task's state relates the stored key to the client's. -/
def Agrees (cr : Crypto) (clientId : String) (stored : Option Bytes) (c : Conn)
    (log : List Call) : Prop :=
  match c.phase with
  | .establishing => c.rotation = .idle
  | .keyStored _ _ key => stored = some key ∧ c.rotation = .idle
  | .running _ _ | .closing _ _ _ =>
    RotationAgrees cr stored (clientKey cr clientId log) c.rotation
  | .finished _ => True

section Agreement

variable {sv : Services} {cr : Crypto} {peer : Peer}

/-- A step whose calls are quiet and that keeps the phase and the rotation task
keeps the agreement. -/
theorem agrees_of_quiet {st : Store} {c c' : Conn} {log calls : List Call}
    (hq : ∀ x ∈ calls, x.quiet = true) (hph : c'.phase = c.phase) (hrot : c'.rotation = c.rotation)
    (hag : Agrees cr peer.clientId (st.keys peer.clientId) c log) :
    Agrees cr peer.clientId ((st.applyAll calls).keys peer.clientId) c' (log ++ calls) := by
  unfold Agrees at hag ⊢
  rw [Store.keys_applyAll_of_quiet st hq, clientKey_append_of_quiet cr _ log hq, hph, hrot]
  exact hag

/-- **One step keeps a connection in agreement with its client.** -/
theorem agrees_step (hcr : cr.Opens) {st : Store} {c : Conn} {l : Label}
    {r : List Call × Conn} {log : List Call} (h : connStep sv cr peer st c l = some r)
    (hag : Agrees cr peer.clientId (st.keys peer.clientId) c log) :
    Agrees cr peer.clientId ((st.applyAll r.1).keys peer.clientId) r.2 (log ++ r.1) := by
  cases connStep_spec sv cr peer h with
  | allocate ip randomId key sendOk hph =>
    rcases allocateStep_spec sv peer c ip randomId key sendOk with ⟨res, hc'⟩ | ⟨ip', heq⟩
    · simp [Agrees, hc']
    · simp only [Agrees, hph] at hag
      simp [heq, Agrees, Store.apply, hag]
  | establish ip sessionId key o hph =>
    rcases establishStep_spec sv cr peer c ip sessionId key o with
      ⟨res, hc'⟩ | ⟨secret, nonce, hsecret, heq⟩
    · simp [Agrees, hc']
    · simp only [Agrees, hph] at hag
      simp [heq, Agrees, RotationAgrees, Store.apply, hag, clientKey_append, Call.delivered,
        ipAssignPacket, clientView, hsecret]
      exact hcr _ _ _
  | inbound sessionId ip ev hph =>
    have hq : ∀ x ∈ (inboundConnStep peer st c sessionId ip ev).1, x.quiet = true := by
      rw [inboundConnStep_fst]
      exact fun x hx => Call.quiet_of_isLoopCall (inboundStep_calls _ _ _ x hx)
    rcases inboundConnStep_snd peer st c sessionId ip ev with ⟨last, hc'⟩ | ⟨res, hc'⟩
    · exact agrees_of_quiet hq (by rw [hc']) (by rw [hc']) hag
    · unfold Agrees at hag ⊢
      rw [Store.keys_applyAll_of_quiet st hq, clientKey_append_of_quiet cr _ log hq, hc']
      simpa [hph] using hag
  | heartbeat now sendOk =>
    cases sendOk <;> exact agrees_of_quiet (by simp [heartbeatStep, Call.quiet, Call.writesKey,
      Call.delivered, PacketType.carriesKey]) rfl rfl hag
  | rotate o hl hidle =>
    have hq : ∀ x ∈ (rotateStep cr peer st c o).1, x.quiet = true := fun x hx => by
      rcases (rotateStep_spec cr peer st c o).1 x hx with rfl | rfl <;> rfl
    rcases (rotateStep_spec cr peer st c o).2 with hc' | ⟨current, nonce, hcur, hc'⟩
    · exact agrees_of_quiet hq (by rw [hc']) (by rw [hc']) hag
    · unfold Agrees at hag ⊢
      rw [Store.keys_applyAll_of_quiet st hq, clientKey_append_of_quiet cr _ log hq, hc']
      -- the tasks tick in a running session, or after the loop's exit
      cases hph : c.phase with
      | running | closing =>
        simp only [hph, hidle, RotationAgrees] at hag ⊢
        rw [hcur]
        exact ⟨hag.trans hcur, hcr _ _ _⟩
      | finished => simp only [hph]
      | establishing | keyStored => simp [Conn.tasksLive, hph] at hl
  | rotationSend k encryptedNewKey nonce keyId signature ok hrot =>
    -- a rotation in flight belongs to a live or returned connection; a delivered
    -- frame hands the client the new key, a failed one changes nothing
    unfold Agrees at hag ⊢
    split at hag <;> simp_all [RotationAgrees, Store.apply]
    all_goals cases ok <;> simp_all [clientKey_append, Call.delivered, clientView]
  | rotationStore k hrot =>
    -- the stored key becomes the one the client already holds
    unfold Agrees at hag ⊢
    split at hag <;> simp_all [RotationAgrees, Store.apply, clientKey_append, Call.delivered]
  | teardown sessionId ip res hph => simp [Agrees]

/-- Outside the rotation window, a running session's stored key is its client's. -/
theorem Agrees.stored_eq_clientKey {clientId : String} {stored : Option Bytes} {c : Conn}
    {log : List Call} (hag : Agrees cr clientId stored c log) {sessionId ip : String}
    (hrun : c.phase = .running sessionId ip) (hwin : ∀ k, c.rotation ≠ .sent k) :
    stored = clientKey cr clientId log := by
  simp only [Agrees, hrun] at hag
  cases hrot : c.rotation with
  | sent k => exact absurd hrot (hwin k)
  | _ => simp_all [RotationAgrees]

end Agreement

/-! ## The engine -/

/-- Connections running at once over one store: connection `i` serves
`peers i`, and `logs i` is every call it has made. -/
structure Engine (n : Nat) where
  store : Store
  conns : Fin n → Conn
  logs : Fin n → List Call

section Engine

variable (sv : Services) (cr : Crypto) {n : Nat} (peers : Fin n → Peer)

/-- One step of connection `i`, or `none` when the label does not apply to it. -/
def Engine.step (e : Engine n) (i : Fin n) (l : Label) : Option (Engine n) :=
  (connStep sv cr (peers i) e.store (e.conns i) l).map fun r =>
    ⟨e.store.applyAll r.1, Function.update e.conns i r.2, Function.update e.logs i (e.logs i ++ r.1)⟩

/-- Every connection just authenticated, over the store `st`. -/
def Engine.start (st : Store) : Engine n :=
  ⟨st, fun _ => Conn.init, fun _ => []⟩

/-- The engines an interleaving of steps reaches from `Engine.start st`. -/
inductive Reachable (st : Store) : Engine n → Prop
  | start : Reachable st (Engine.start st)
  | step {e e' : Engine n} (i : Fin n) (l : Label) :
    Reachable st e → e.step sv cr peers i l = some e' → Reachable st e'

/-- A given interleaving, as a list of (connection, label) pairs. -/
def Engine.run : Engine n → List (Fin n × Label) → Option (Engine n)
  | e, [] => some e
  | e, (i, l) :: ls => (e.step sv cr peers i l).bind fun e' => Engine.run e' ls

variable {sv cr peers}

/-- A given interleaving reaches only reachable engines. -/
theorem Reachable.run {st : Store} :
    ∀ {e e' : Engine n} (ls : List (Fin n × Label)),
      Reachable sv cr peers st e → e.run sv cr peers ls = some e' → Reachable sv cr peers st e'
  | _, _, [], hr, h => by cases h; exact hr
  | e, _, (i, l) :: ls, hr, h => by
    simp only [Engine.run, Option.bind_eq_some] at h
    obtain ⟨e₁, h₁, h₂⟩ := h
    exact Reachable.run ls (.step i l hr h₁) h₂

/-- An engine step is a step of one connection, with the store, that
connection's state and its log updated. -/
theorem Engine.step_eq {e e' : Engine n} {i : Fin n} {l : Label}
    (h : e.step sv cr peers i l = some e') :
    ∃ r, connStep sv cr (peers i) e.store (e.conns i) l = some r ∧
      e' = ⟨e.store.applyAll r.1, Function.update e.conns i r.2,
        Function.update e.logs i (e.logs i ++ r.1)⟩ := by
  obtain ⟨r, hr, rfl⟩ := Option.map_eq_some'.1 h
  exact ⟨r, hr, rfl⟩

/-- A step of one connection leaves the slot of every other client alone. -/
theorem Engine.step_keys_other {e e' : Engine n} {i j : Fin n} {l : Label}
    (hne : (peers j).clientId ≠ (peers i).clientId) (h : e.step sv cr peers j l = some e') :
    e'.store.keys (peers i).clientId = e.store.keys (peers i).clientId := by
  obtain ⟨r, hr, rfl⟩ := Engine.step_eq h
  exact Store.keys_applyAll_of_boundTo hne _ (connStep_boundTo sv cr (peers j) hr)

section Unique

-- connection `i`'s client key is used by no other connection
variable {i : Fin n} (hu : ∀ j, j ≠ i → (peers j).clientId ≠ (peers i).clientId)
include hu

/-- **Connection `i`'s slot holds what its own calls made of it**, over the
store `st` the engine started from: its own steps write it through their calls,
and every other connection's leave it alone. -/
theorem Reachable.owned {st : Store} {e : Engine n} (hr : Reachable sv cr peers st e) :
    e.store.keys (peers i).clientId = (st.applyAll (e.logs i)).keys (peers i).clientId := by
  induction hr with
  | start => rfl
  | step j l _ h ih =>
    by_cases hji : j = i
    · subst hji
      obtain ⟨r, _, rfl⟩ := Engine.step_eq h
      simpa using Store.keys_applyAll_congr ih r.1
    · rw [Engine.step_keys_other (hu j hji) h]
      obtain ⟨r, _, rfl⟩ := Engine.step_eq h
      dsimp only
      rw [Function.update_noteq (Ne.symm hji)]
      exact ih

/-- **Connection `i` agrees with its client in every reachable engine**: its own
steps keep the agreement by `agrees_step`, and every other connection's leave
`i`'s slot, state and log alone. -/
theorem Reachable.agrees (hcr : cr.Opens) {st : Store} {e : Engine n}
    (hr : Reachable sv cr peers st e) :
    Agrees cr (peers i).clientId (e.store.keys (peers i).clientId) (e.conns i) (e.logs i) := by
  induction hr with
  | start => rfl
  | step j l _ h ih =>
    by_cases hji : j = i
    · subst hji
      obtain ⟨r, hr, rfl⟩ := Engine.step_eq h
      simpa using agrees_step hcr hr ih
    · have hkeys := Engine.step_keys_other (hu j hji) h
      obtain ⟨r, _, rfl⟩ := Engine.step_eq h
      dsimp only
      rw [Function.update_noteq (Ne.symm hji), Function.update_noteq (Ne.symm hji), hkeys]
      exact ih

end Unique

/-- While a connection runs, only the `store_key` of its rotation task, which
stores the key its client already holds, writes its slot. -/
theorem connStep_keys_running {st : Store} {c : Conn} {l : Label} {r : List Call × Conn}
    {peer : Peer} {sessionId ip : String} (hrun : c.phase = .running sessionId ip)
    (h : connStep sv cr peer st c l = some r) :
    (st.applyAll r.1).keys peer.clientId = st.keys peer.clientId ∨
      ∃ k, c.rotation = .sent k ∧ (st.applyAll r.1).keys peer.clientId = some k := by
  cases connStep_spec sv cr peer h with
  | inbound =>
    left
    rw [inboundConnStep_fst]
    exact congrFun (Store.keys_applyAll_of_not_writesKey st fun x hx =>
      Call.writesKey_of_isLoopCall (inboundStep_calls _ _ _ x hx)) _
  | heartbeat => simp [heartbeatStep, Store.apply]
  | rotate =>
    left
    exact congrFun (Store.keys_applyAll_of_not_writesKey st fun x hx => by
      rcases (rotateStep_spec cr peer st c _).1 x hx with rfl | rfl <;> rfl) _
  | rotationSend => simp [Store.apply]
  | rotationStore k hrot => exact .inr ⟨k, hrot, by simp [Store.apply]⟩
  | _ => simp_all

end Engine

/-! ## Concrete engines -/

theorem concatCrypto_opens : concatCrypto.Opens :=
  Crypto.concat_decrypt_encrypt _ _

/-- One connection, for the client `Abc`. -/
def soloPeers : Fin 1 → Peer :=
  fun _ => ⟨"Abc", "10.0.0.9:4000"⟩


/-- Connection `0` establishes its session with key `[5]`, rotates it to `[8]`
(generation, send, `store_key`), and answers a ping. -/
def rotationSteps : List (Fin 1 × Label) :=
  [(0, .allocate (.ok "10.7.0.2") "a1" [5] true), (0, .establish ⟨.ok [9], 3600, true, none⟩),
    (0, .rotate ⟨true, [8], .ok [3], "k1"⟩), (0, .rotationSend true), (0, .rotationStore),
    (0, .inbound ⟨.running, .packet (.ping 7 1), 9, none, .error "", true⟩)]

def rotatedEngine : Engine 1 :=
  ((Engine.start Store.empty).run Services.lenient concatCrypto soloPeers rotationSteps).getD
    (Engine.start Store.empty)

theorem rotatedEngine_reachable :
    Reachable Services.lenient concatCrypto soloPeers Store.empty rotatedEngine :=
  Reachable.run rotationSteps .start rfl

example : rotatedEngine.store.keys "Abc" = some [8] ∧
    clientKey concatCrypto "Abc" (rotatedEngine.logs 0) = some [8] := ⟨rfl, rfl⟩

/-- Two connections, for the distinct client keys `Abc` and `Xyz`. -/
def pairPeers : Fin 2 → Peer :=
  fun i => if i = 0 then ⟨"Abc", "10.0.0.9:4000"⟩ else ⟨"Xyz", "10.0.0.7:5000"⟩

/-- Both connections establish their sessions, with keys `[5]` and `[6]`. -/
def pairSteps : List (Fin 2 × Label) :=
  [(0, .allocate (.ok "10.7.0.2") "a1" [5] true), (1, .allocate (.ok "10.7.0.3") "b2" [6] true),
    (1, .establish ⟨.ok [4], 3600, true, none⟩), (0, .establish ⟨.ok [9], 3600, true, none⟩)]

def pairEngine : Engine 2 :=
  ((Engine.start Store.empty).run Services.lenient concatCrypto pairPeers pairSteps).getD
    (Engine.start Store.empty)

/-- Two connections from the same client key `Abc`, as after a reconnection
while the first connection is still alive. -/
def twinPeers : Fin 2 → Peer :=
  fun i => ⟨"Abc", if i = 0 then "10.0.0.9:4000" else "10.0.0.9:4001"⟩

/-- Connection `0` establishes its session with key `[5]`; then connection `1`,
from the same client key, stores its key `[6]`. -/
def twinSteps : List (Fin 2 × Label) :=
  [(0, .allocate (.ok "10.7.0.2") "a1" [5] true), (0, .establish ⟨.ok [9], 3600, true, none⟩),
    (1, .allocate (.ok "10.7.0.3") "b2" [6] true)]

def twinEngine : Engine 2 :=
  ((Engine.start Store.empty).run Services.lenient concatCrypto twinPeers twinSteps).getD
    (Engine.start Store.empty)

/-- Connection `0` establishes its session with key `[5]` and delivers a
`KeyRotation` to `[8]`; its `store_key` is still to come. -/
def windowSteps : List (Fin 1 × Label) :=
  [(0, .allocate (.ok "10.7.0.2") "a1" [5] true), (0, .establish ⟨.ok [9], 3600, true, none⟩),
    (0, .rotate ⟨true, [8], .ok [3], "k1"⟩), (0, .rotationSend true)]

def windowEngine : Engine 1 :=
  ((Engine.start Store.empty).run Services.lenient concatCrypto soloPeers windowSteps).getD
    (Engine.start Store.empty)

/-- A `Data` frame with counter `1`. -/
def dataEvent : LoopEvent :=
  ⟨.running, .packet (.data [1] [] 1 none), 0, none, .error "", true⟩

/-! ## Key agreement and isolation -/

/-- **Key agreement across rotations.** In any interleaving of connections,
for a session whose client key no other connection uses, with an AEAD that opens
what it seals: while the session runs and its rotation task is not between a
delivered `KeyRotation` and the `store_key` after it, the key stored for its
client is the key the client holds, the one it decrypted from its `IpAssign` and
then from each delivered `KeyRotation` in turn. And no step of any connection
changes that stored key, except the rotation task's `store_key`, which the task
reaches only after a successful send and which stores the new key that send
delivered. -/
theorem storedKey_agrees {sv : Services} {cr : Crypto} {n : Nat} {peers : Fin n → Peer}
    {st : Store} {e : Engine n} {i : Fin n} (hcr : cr.Opens)
    (hu : ∀ j, j ≠ i → (peers j).clientId ≠ (peers i).clientId) (hr : Reachable sv cr peers st e)
    {sessionId ip : String} (hrun : (e.conns i).phase = .running sessionId ip) :
    ((∀ k, (e.conns i).rotation ≠ .sent k) →
      e.store.keys (peers i).clientId = clientKey cr (peers i).clientId (e.logs i)) ∧
    ∀ j l e', e.step sv cr peers j l = some e' →
      e'.store.keys (peers i).clientId = e.store.keys (peers i).clientId ∨
        ∃ k, j = i ∧ (e.conns i).rotation = .sent k ∧
          clientKey cr (peers i).clientId (e.logs i) = some k ∧
          e'.store.keys (peers i).clientId = some k := by
  have hag := hr.agrees hu hcr
  refine ⟨hag.stored_eq_clientKey hrun, fun j l e' h => ?_⟩
  by_cases hji : j = i
  · subst hji
    obtain ⟨r, hr', rfl⟩ := Engine.step_eq h
    rcases connStep_keys_running hrun hr' with hkeep | ⟨k, hrot, hk⟩
    · exact .inl hkeep
    · simp only [Agrees, hrun, hrot, RotationAgrees] at hag
      exact .inr ⟨k, rfl, hrot, hag, hk⟩
  · exact .inl (Engine.step_keys_other (hu j hji) h)

/-- The hypotheses hold of the engine after a completed rotation, where the
stored key and the client's are both `[8]`. -/
theorem storedKey_agrees_rotated :
    concatCrypto.Opens ∧ (∀ j, j ≠ 0 → (soloPeers j).clientId ≠ (soloPeers 0).clientId) ∧
    Reachable Services.lenient concatCrypto soloPeers Store.empty rotatedEngine ∧
    (rotatedEngine.conns 0).phase = .running "session_a1" "10.7.0.2" ∧
    ((∀ k, (rotatedEngine.conns 0).rotation ≠ .sent k) →
      rotatedEngine.store.keys "Abc" = clientKey concatCrypto "Abc" (rotatedEngine.logs 0)) ∧
    ∀ j l e', rotatedEngine.step Services.lenient concatCrypto soloPeers j l = some e' →
      e'.store.keys "Abc" = rotatedEngine.store.keys "Abc" ∨
        ∃ k, j = 0 ∧ (rotatedEngine.conns 0).rotation = .sent k ∧
          clientKey concatCrypto "Abc" (rotatedEngine.logs 0) = some k ∧
          e'.store.keys "Abc" = some k :=
  ⟨concatCrypto_opens, fun j hj => absurd (Subsingleton.elim j 0) hj, rotatedEngine_reachable, rfl,
    storedKey_agrees concatCrypto_opens (fun j hj => absurd (Subsingleton.elim j 0) hj)
      rotatedEngine_reachable rfl⟩

/-- **Session-key isolation.** In any interleaving of connections, for a
session whose client key no other connection uses: no step of another connection
changes the key stored for its client, and whenever its inbound loop hands a
frame to the router, the key it hands over is the one its own run last left in
its client's slot. With an AEAD that opens what it seals, that key is the one
the session's client holds, unless the rotation task is between a delivered
`KeyRotation` and its `store_key`. -/
theorem sessionKeys_isolated {sv : Services} {cr : Crypto} {n : Nat} {peers : Fin n → Peer}
    {st : Store} {e : Engine n} {i : Fin n}
    (hu : ∀ j, j ≠ i → (peers j).clientId ≠ (peers i).clientId) (hr : Reachable sv cr peers st e) :
    (∀ j l e', j ≠ i → e.step sv cr peers j l = some e' →
      e'.store.keys (peers i).clientId = e.store.keys (peers i).clientId) ∧
    ∀ ev r encrypted nonce key,
      connStep sv cr (peers i) e.store (e.conns i) (.inbound ev) = some r →
      Call.route encrypted nonce key ∈ r.1 →
      some key = (st.applyAll (e.logs i)).keys (peers i).clientId ∧
        (cr.Opens → (∀ k, (e.conns i).rotation ≠ .sent k) →
          some key = clientKey cr (peers i).clientId (e.logs i)) := by
  refine ⟨fun j l e' hji h => Engine.step_keys_other (hu j hji) h, ?_⟩
  intro ev r encrypted nonce key h hroute
  simp only [connStep] at h
  split at h
  · rename_i sessionId ip hrun
    cases h
    rw [inboundConnStep_fst] at hroute
    have hkey : e.store.keys (peers i).clientId = some key := inboundStep_route hroute
    exact ⟨hkey ▸ hr.owned hu,
      fun hcr hwin => hkey ▸ (hr.agrees hu hcr).stored_eq_clientKey hrun hwin⟩
  · cases h

/-- The hypotheses hold of the first of two established sessions with distinct
client keys, whose loop routes a `Data` frame with its key `[5]`; that key is its
client's. -/
theorem sessionKeys_isolated_pair :
    (∀ j, j ≠ 0 → (pairPeers j).clientId ≠ (pairPeers 0).clientId) ∧
    Reachable Services.lenient concatCrypto pairPeers Store.empty pairEngine ∧
    connStep Services.lenient concatCrypto (pairPeers 0) pairEngine.store (pairEngine.conns 0)
        (.inbound dataEvent) =
      some ([.recv, .acceptCounter 1, .getKey "Abc", .route [1] [] [5]],
        { pairEngine.conns 0 with lastCounter := some 1 }) ∧
    Call.route [1] [] [5] ∈ [Call.recv, .acceptCounter 1, .getKey "Abc", .route [1] [] [5]] ∧
    concatCrypto.Opens ∧ (∀ k, (pairEngine.conns 0).rotation ≠ .sent k) ∧
    (∀ j l e', j ≠ 0 → pairEngine.step Services.lenient concatCrypto pairPeers j l = some e' →
      e'.store.keys "Abc" = pairEngine.store.keys "Abc") ∧
    some [5] = (Store.empty.applyAll (pairEngine.logs 0)).keys "Abc" ∧
    some [5] = clientKey concatCrypto "Abc" (pairEngine.logs 0) :=
  have hu : ∀ j, j ≠ 0 → (pairPeers j).clientId ≠ (pairPeers 0).clientId := by decide
  have hr : Reachable Services.lenient concatCrypto pairPeers Store.empty pairEngine :=
    Reachable.run pairSteps .start rfl
  have hstep : connStep Services.lenient concatCrypto (pairPeers 0) pairEngine.store
      (pairEngine.conns 0) (.inbound dataEvent) =
      some ([.recv, .acceptCounter 1, .getKey "Abc", .route [1] [] [5]],
        { pairEngine.conns 0 with lastCounter := some 1 }) := rfl
  have hroute : Call.route [1] [] [5] ∈
      [Call.recv, .acceptCounter 1, .getKey "Abc", .route [1] [] [5]] := by simp
  have hwin : ∀ k, (pairEngine.conns 0).rotation ≠ .sent k := fun _ h => nomatch h
  have hiso := sessionKeys_isolated hu hr
  have hkey := hiso.2 dataEvent _ [1] [] [5] hstep hroute
  ⟨hu, hr, hstep, hroute, concatCrypto_opens, hwin, hiso.1, hkey.1,
    hkey.2 concatCrypto_opens hwin⟩

/-- Two ways the key a running session's loop hands to the router is not the
key delivered to its client. A second connection from the same client key
stores its own key `[6]` over the first session's `[5]`, and the first session's
loop then routes its client's `Data` frame with `[6]`. And within one session,
once a `KeyRotation` to `[8]` is delivered and before its `store_key`, the loop
still routes with `[5]`. -/
theorem routed_key_not_delivered :
    (Reachable Services.lenient concatCrypto twinPeers Store.empty twinEngine ∧
      (twinEngine.conns 0).phase = .running "session_a1" "10.7.0.2" ∧
      clientKey concatCrypto "Abc" (twinEngine.logs 0) = some [5] ∧
      (connStep Services.lenient concatCrypto (twinPeers 0) twinEngine.store (twinEngine.conns 0)
          (.inbound dataEvent)).map Prod.fst =
        some [.recv, .acceptCounter 1, .getKey "Abc", .route [1] [] [6]]) ∧
    (Reachable Services.lenient concatCrypto soloPeers Store.empty windowEngine ∧
      (windowEngine.conns 0).phase = .running "session_a1" "10.7.0.2" ∧
      clientKey concatCrypto "Abc" (windowEngine.logs 0) = some [8] ∧
      (connStep Services.lenient concatCrypto (soloPeers 0) windowEngine.store
          (windowEngine.conns 0) (.inbound dataEvent)).map Prod.fst =
        some [.recv, .acceptCounter 1, .getKey "Abc", .route [1] [] [5]]) :=
  ⟨⟨Reachable.run twinSteps .start rfl, rfl, rfl, rfl⟩,
    ⟨Reachable.run windowSteps .start rfl, rfl, rfl, rfl⟩⟩


end AeroNyx
