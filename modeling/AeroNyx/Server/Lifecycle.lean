import Mathlib.Data.List.Iterate
import AeroNyx.Server.Connection

/-!
# What `handle_client` does with the resources it takes

Facts about one connection run alone, from the handshake to its return:

- `handleClient_authenticates` — `allocate_ip` (and with it `store_key` and
  `add_session`) is reached only after the whole authentication chain, and every
  call that names a client names the authenticated key;
- `conn_run_releases_once` — the IP is released at most once, the session is in
  the registry from `add_session` to the teardown, and a connection that has
  returned has no session left there (the invariant `Tidy`);
- `conn_run_heartbeat` — the heartbeat writes `Ping` frames with the sequences
  `0, 1, 2, …`, wrapping, and stops for good after a failed write (`Beats`);
- `conn_after_return` — once `handle_client` has returned, only its aborted
  tasks still act, up to their next yield: they write `Ping` and `KeyRotation`
  frames and rotate the client's own key, and leave the registry and every other
  client's key alone;
- `establishment_leaks` — three runs in which `handle_client` returns without
  undoing what it took: a failed shared secret leaves the session key stored, a
  failed `ClientSession::new` leaves the IP leased and the key stored, and a
  rotation that completes after the teardown stores a key again.
-/

namespace AeroNyx

section Run

variable {sv : Services} {cr : Crypto} {peer : Peer}

theorem Conn.run_cons {st : Store} {c : Conn} {l : Label} {ls : List Label}
    {r : Store × Conn × List Call} (h : Conn.run sv cr peer st c (l :: ls) = some r) :
    ∃ calls c' r', connStep sv cr peer st c l = some (calls, c') ∧
      Conn.run sv cr peer (st.applyAll calls) c' ls = some r' ∧
      r = (r'.1, r'.2.1, calls ++ r'.2.2) := by
  simp only [Conn.run] at h
  split at h
  · cases h
  · rename_i calls c' hstep
    cases hr : Conn.run sv cr peer (st.applyAll calls) c' ls with
    | none => simp [hr] at h
    | some r' => exact ⟨calls, c', r', hstep, hr, by simp [hr] at h; exact h.symm⟩

/-- A run names no client but the connection's. -/
theorem Conn.run_boundTo :
    ∀ {st : Store} {c : Conn} {ls : List Label} {r : Store × Conn × List Call},
      Conn.run sv cr peer st c ls = some r → BoundTo peer.clientId r.2.2
  | _, _, [], r, h => by simp [Conn.run] at h; subst h; simp
  | _, _, _ :: _, _, h => by
    obtain ⟨calls, c', r', hstep, hrun, rfl⟩ := Conn.run_cons h
    exact boundTo_append.2 ⟨connStep_boundTo sv cr peer hstep, Conn.run_boundTo hrun⟩

/-- The store a run leaves is the one its calls make of the store it started from. -/
theorem Conn.run_store :
    ∀ {st : Store} {c : Conn} {ls : List Label} {r : Store × Conn × List Call},
      Conn.run sv cr peer st c ls = some r → r.1 = st.applyAll r.2.2
  | _, _, [], r, h => by simp only [Conn.run, Option.some.injEq] at h; subst h; rfl
  | _, _, _ :: _, _, h => by
    obtain ⟨calls, c', r', _, hrun, rfl⟩ := Conn.run_cons h
    simpa using Conn.run_store hrun

end Run

/-! ## Concrete services -/

/-- The empty store: no key, no session. -/
def Store.empty : Store := ⟨fun _ => none, fun _ => false⟩

/-- Services that accept every key format and serialize every frame. -/
def Services.lenient : Services := ⟨fun _ => true, fun _ => none⟩

/-- A stand-in AEAD for concrete runs: a ciphertext is the key, the nonce and
the plaintext in a row, and opening checks the first two. -/
def Crypto.concat (pubkeyError : String → Option String)
    (sharedSecret : String → Except String Bytes) : Crypto where
  pubkeyError := pubkeyError
  sharedSecret := sharedSecret
  encrypt key nonce m := key ++ nonce ++ m
  decrypt key nonce ct :=
    if (key ++ nonce).isPrefixOf ct then some (ct.drop (key ++ nonce).length) else none
  sign _ := "sig"

/-- The stand-in AEAD with every shared secret `[7]`. -/
def concatCrypto : Crypto :=
  Crypto.concat (fun _ => none) fun _ => .ok [7]

theorem Crypto.concat_decrypt_encrypt (pubkeyError : String → Option String)
    (sharedSecret : String → Except String Bytes) (key nonce m : Bytes) :
    (Crypto.concat pubkeyError sharedSecret).decrypt key nonce
      ((Crypto.concat pubkeyError sharedSecret).encrypt key nonce m) = some m := by
  simp [Crypto.concat, List.drop_left]

/-- A handshake in which every check passes for the key `Abc`. -/
def acceptingEnv : HandshakeEnv where
  first := some (.packet (.auth "Abc" "1.0" ["aead"] "n1"))
  second := some (.packet (.challengeResponse "sig1" "Abc" "c1"))
  drain := none
  challenge := .ok ("c1", [1])
  serverKey := "srv"
  now := 1000
  verify _ _ _ _ := .ok ()
  allowed _ := true
  sendOk _ := true

/-- The calls of `handle_client` on `acceptingEnv` up to `store_key`. -/
def acceptedCalls : List Call :=
  [.recv, .generateChallenge "10.0.0.9:4000", .send (.challenge [1] "srv" 31000 "c1") true, .recv,
    .verifyChallenge "c1" "sig1" "Abc" "10.0.0.9:4000", .isClientAllowed "Abc",
    .allocateIp "Abc", .storeKey "Abc" [5]]

/-- The client leaves while the rotation task is between its send and its
`store_key`. -/
def raceLabels : List Label :=
  [.allocate (.ok "10.7.0.2") "a1" [5] true, .establish ⟨.ok [9], 3600, true, none⟩,
    .rotate ⟨true, [8], .ok [3], "k1"⟩, .rotationSend true,
    .inbound ⟨.running, .closed, 0, none, .error "", true⟩, .teardown, .rotationStore]

/-- The calls of that run. -/
def raceCalls : List Call :=
  [.allocateIp "Abc", .storeKey "Abc" [5],
    .send (.ipAssign "10.7.0.2" 3600 "session_a1" [7, 9, 5] [9]) true,
    .addSession "session_a1" "Abc" "10.7.0.2", .needsRotation "Abc", .getKey "Abc",
    .send (.keyRotation [5, 3, 8] [3] "k1" "sig") true, .recv,
    .removeSession "session_a1", .releaseIp "10.7.0.2", .removeKey "Abc", .storeKey "Abc" [8]]

/-! ## Authentication -/

/-- **Authentication safety of the handshake.** Whatever the frames, the
authenticator, the ACL and every later outcome, a run of `handle_client` that
calls `allocate_ip` for a key has passed the whole authentication chain with
that key (`Authenticated`), and every call of the run that names a client — the
lease, the stored and removed session keys, the registered session — names it. -/
theorem handleClient_authenticates {sv : Services} {cr : Crypto} {env : HandshakeEnv}
    {addr : String} {st st' : Store} {ls : List Label} {calls : List Call} {pk : String}
    (h : handleClient sv cr env addr st ls = some (st', calls))
    (halloc : Call.allocateIp pk ∈ calls) :
    Authenticated sv env addr pk (handshake sv env addr).1 ∧ BoundTo pk calls := by
  unfold handleClient at h
  split at h
  · rename_i hsCalls publicKey hhs
    obtain ⟨r, hrun, hr⟩ := Option.map_eq_some'.1 h
    cases hr
    have hauth := handshake_ok hhs
    obtain ⟨id, data, signature, challengeId, -, -, -, hcalls⟩ := hauth.challenge
    have hbound : BoundTo publicKey (hsCalls ++ r.2.2) :=
      boundTo_append.2 ⟨by simp [hcalls, Call.clientOf], Conn.run_boundTo hrun⟩
    obtain rfl := hbound _ halloc pk rfl
    exact ⟨by rw [hhs]; exact hauth, hbound⟩
  · rename_i hsCalls e hhs
    cases h
    have := @handshake_no_allocate sv env pk addr
    rw [hhs] at this
    exact absurd halloc this

/-- An accepted handshake followed by `allocate_ip` meets the hypotheses. -/
theorem handleClient_authenticates_accepted :
    (handleClient Services.lenient concatCrypto acceptingEnv "10.0.0.9:4000" Store.empty
        [.allocate (.ok "10.7.0.2") "a1" [5] true] =
      some (Store.empty.applyAll [.allocateIp "Abc", .storeKey "Abc" [5]], acceptedCalls) ∧
      Call.allocateIp "Abc" ∈ acceptedCalls) ∧
    Authenticated Services.lenient acceptingEnv "10.0.0.9:4000" "Abc"
      (handshake Services.lenient acceptingEnv "10.0.0.9:4000").1 ∧ BoundTo "Abc" acceptedCalls :=
  have h : handleClient Services.lenient concatCrypto acceptingEnv "10.0.0.9:4000" Store.empty
      [.allocate (.ok "10.7.0.2") "a1" [5] true] =
      some (Store.empty.applyAll [.allocateIp "Abc", .storeKey "Abc" [5]], acceptedCalls) := rfl
  ⟨⟨h, by decide⟩, handleClient_authenticates h (by decide)⟩

/-! ## The lease and the registry over a run -/

/-- The session a phase has registered and not yet removed. -/
def Phase.registered : Phase → Option String
  | .running sessionId _ | .closing sessionId _ _ => some sessionId
  | _ => none

/-- How many `release_ip` calls a connection may have made in a phase: one once
`handle_client` has returned, none before. -/
def Phase.releaseBound : Phase → Nat
  | .finished _ => 1
  | _ => 0

theorem Phase.releaseBound_le_one (p : Phase) : p.releaseBound ≤ 1 := by
  cases p <;> simp [Phase.releaseBound]

/-- Whether a call changes the registry of live sessions. -/
def Call.touchesRegistry : Call → Bool
  | .addSession _ _ _ | .removeSession _ => true
  | _ => false

theorem Store.sessions_applyAll_of_untouched (st : Store) :
    ∀ {calls : List Call}, (∀ x ∈ calls, x.touchesRegistry = false) →
      (st.applyAll calls).sessions = st.sessions
  | [], _ => rfl
  | c :: cs, h => by
    rw [List.forall_mem_cons] at h
    rw [Store.applyAll_cons, Store.sessions_applyAll_of_untouched _ h.2]
    cases c <;> simp_all [Store.apply, Call.touchesRegistry]

/-- What a run of one connection keeps: its `release_ip` calls stay within its
phase's bound, every session it registered is out of the registry or is the one
its phase holds, and the one its phase holds is in the registry. -/
structure Tidy (st : Store) (c : Conn) (calls : List Call) : Prop where
  releases : calls.countP Call.isRelease ≤ c.phase.releaseBound
  registry : ∀ sessionId clientId ip, Call.addSession sessionId clientId ip ∈ calls →
    st.sessions sessionId = false ∨ c.phase.registered = some sessionId
  live : ∀ sessionId, c.phase.registered = some sessionId → st.sessions sessionId = true

/-- A connection whose handshake has just returned is tidy over any store. -/
theorem Tidy.init (st : Store) : Tidy st Conn.init [] :=
  ⟨Nat.zero_le _, fun _ _ _ h => absurd h (List.not_mem_nil _), fun _ h => nomatch h⟩

/-- A step that leaves the registry alone, keeps the registered session and
releases within the bound of its new phase keeps `Tidy`. -/
theorem Tidy.of_untouched {st : Store} {c c' : Conn} {calls new : List Call}
    (hq : ∀ x ∈ new, x.touchesRegistry = false)
    (hreg : c'.phase.registered = c.phase.registered)
    (hb : c.phase.releaseBound + new.countP Call.isRelease ≤ c'.phase.releaseBound)
    (ht : Tidy st c calls) : Tidy (st.applyAll new) c' (calls ++ new) := by
  refine ⟨by rw [List.countP_append]; exact (Nat.add_le_add_right ht.releases _).trans hb,
    fun sid q ip hmem => ?_, fun sid h => ?_⟩
  · rw [Store.sessions_applyAll_of_untouched st hq, hreg]
    rcases List.mem_append.1 hmem with hold | hnew
    · exact ht.registry sid q ip hold
    · exact absurd (hq _ hnew) (by simp [Call.touchesRegistry])
  · rw [Store.sessions_applyAll_of_untouched st hq]
    exact ht.live sid (hreg ▸ h)

section Run

variable {sv : Services} {cr : Crypto} {peer : Peer}

/-- **One step keeps `Tidy`.** -/
theorem Tidy.step {st : Store} {c : Conn} {l : Label} {r : List Call × Conn} {calls : List Call}
    (h : connStep sv cr peer st c l = some r) (ht : Tidy st c calls) :
    Tidy (st.applyAll r.1) r.2 (calls ++ r.1) := by
  cases connStep_spec sv cr peer h with
  | allocate ip randomId key sendOk hph =>
    unfold allocateStep
    dsimp only
    repeat' split
    all_goals refine ht.of_untouched ?_ ?_ ?_ <;>
      simp [hph, Call.touchesRegistry, Phase.registered, Phase.releaseBound, Call.isRelease]
  | establish ip sessionId key o hph =>
    unfold establishStep compensate assignStep
    -- every failure returns with at most one `release_ip` and no registry change
    repeat' split
    all_goals try (refine ht.of_untouched ?_ ?_ ?_ <;>
      simp [hph, Call.touchesRegistry, Phase.registered, Phase.releaseBound, Call.isRelease] <;> done)
    -- `add_session` registers the session the connection now runs
    refine ⟨by simpa [hph, Phase.releaseBound, Call.isRelease] using ht.releases,
      fun sid q ip' hmem => ?_, fun sid h => by simp_all [Phase.registered, Store.apply]⟩
    by_cases hs : sid = sessionId
    · exact .inr (by simp [hs, Phase.registered])
    · left
      rcases List.mem_append.1 hmem with hold | hnew
      · simpa [Store.apply, hs, hph, Phase.registered] using ht.registry sid q ip' hold
      · simp_all
  | inbound sessionId ip ev hph =>
    have hq : ∀ x ∈ (inboundConnStep peer st c sessionId ip ev).1,
        x.isLoopCall peer.clientId (st.keys peer.clientId) := by
      rw [inboundConnStep_fst]
      exact inboundStep_calls _ _ _
    have hnone : ∀ x ∈ (inboundConnStep peer st c sessionId ip ev).1,
        x.touchesRegistry = false ∧ x.isRelease = false := fun x hx => by
      have := hq x hx
      cases x <;> simp_all [Call.isLoopCall, Call.touchesRegistry, Call.isRelease]
    have hcount : (inboundConnStep peer st c sessionId ip ev).1.countP Call.isRelease = 0 :=
      List.countP_eq_zero.2 fun x hx => by simp [(hnone x hx).2]
    rcases inboundConnStep_snd peer st c sessionId ip ev with ⟨last, hc'⟩ | ⟨res, hc'⟩ <;>
      exact ht.of_untouched (fun x hx => (hnone x hx).1) (by simp [hc', hph, Phase.registered])
        (by simp [hc', hph, Phase.releaseBound, hcount])
  | heartbeat now sendOk =>
    cases sendOk <;> exact ht.of_untouched (by simp [heartbeatStep, Call.touchesRegistry]) (by rfl)
      (by simp [heartbeatStep, Call.isRelease])
  | rotate o =>
    have hcalls := (rotateStep_spec cr peer st c o).1
    have hph : (rotateStep cr peer st c o).2.phase = c.phase := by
      rcases (rotateStep_spec cr peer st c o).2 with hc' | ⟨_, _, _, hc'⟩ <;> simp [hc']
    refine ht.of_untouched (fun x hx => ?_) (by rw [hph]) ?_
    · rcases hcalls x hx with rfl | rfl <;> rfl
    · rw [hph, List.countP_eq_zero.2 fun x hx => by
        rcases hcalls x hx with rfl | rfl <;> simp [Call.isRelease]]
      omega
  | teardown sessionId ip res hph =>
    refine ⟨by simpa [hph, Phase.releaseBound, Call.isRelease] using ht.releases,
      fun sid q ip' hmem => .inl ?_, fun sid h => nomatch h⟩
    have hold : Call.addSession sid q ip' ∈ calls := by simpa using hmem
    by_cases hs : sid = sessionId
    · simp [Store.apply, hs]
    · have hreg := ht.registry sid q ip' hold
      simp only [hph, Phase.registered, Option.some.injEq] at hreg
      simpa [Store.apply, Function.update_noteq hs, Ne.symm hs] using hreg
  | _ => exact ht.of_untouched (by simp [Call.touchesRegistry]) (by rfl) (by simp [Call.isRelease])

/-- Every run from a tidy state ends tidy. -/
theorem Tidy.run :
    ∀ {st : Store} {c : Conn} {calls : List Call} {ls : List Label} {r : Store × Conn × List Call},
      Tidy st c calls → Conn.run sv cr peer st c ls = some r → Tidy r.1 r.2.1 (calls ++ r.2.2)
  | _, _, _, [], r, ht, h => by simp [Conn.run] at h; subst h; simpa using ht
  | _, _, _, _ :: _, _, ht, h => by
    obtain ⟨new, c', r', hstep, hrun, rfl⟩ := Conn.run_cons h
    simpa using Tidy.run (ht.step hstep) hrun

end Run

/-- **The lease and the registry.** Whatever the outcome of each step, a run of a
connection from its handshake on calls `release_ip` at most once; between the
establishment and the teardown its session is in the registry; and once
`handle_client` has returned no session the run registered is left there. -/
theorem conn_run_releases_once {sv : Services} {cr : Crypto} {peer : Peer} {st st' : Store}
    {ls : List Label} {c' : Conn} {calls : List Call}
    (h : Conn.run sv cr peer st Conn.init ls = some (st', c', calls)) :
    calls.countP Call.isRelease ≤ 1 ∧
    (∀ sessionId, c'.phase.registered = some sessionId → st'.sessions sessionId = true) ∧
    ∀ res, c'.phase = .finished res → ∀ sessionId clientId ip,
      Call.addSession sessionId clientId ip ∈ calls → st'.sessions sessionId = false := by
  have ht : Tidy st' c' calls := by simpa using Tidy.run (Tidy.init st) h
  refine ⟨ht.releases.trans c'.phase.releaseBound_le_one, ht.live,
    fun res hfin sid q ip hmem => ?_⟩
  simpa [hfin, Phase.registered] using ht.registry sid q ip hmem

/-- The run of `establishment_leaks` in which the client leaves during a
rotation releases its IP once and leaves the registry empty. -/
theorem conn_run_releases_once_race :
    Conn.run Services.lenient concatCrypto ⟨"Abc", "10.0.0.9:4000"⟩ Store.empty Conn.init
        raceLabels = some (Store.empty.applyAll raceCalls, ⟨.finished (.ok ()), none, 0, false, .idle, true⟩,
          raceCalls) ∧
    raceCalls.countP Call.isRelease ≤ 1 ∧
    (∀ sessionId, (Phase.finished (.ok ())).registered = some sessionId →
      (Store.empty.applyAll raceCalls).sessions sessionId = true) ∧
    ∀ res, Phase.finished (.ok ()) = .finished res → ∀ sessionId clientId ip,
      Call.addSession sessionId clientId ip ∈ raceCalls →
        (Store.empty.applyAll raceCalls).sessions sessionId = false :=
  have h : Conn.run Services.lenient concatCrypto ⟨"Abc", "10.0.0.9:4000"⟩ Store.empty Conn.init
      raceLabels = some (Store.empty.applyAll raceCalls, ⟨.finished (.ok ()), none, 0, false, .idle, true⟩,
        raceCalls) := rfl
  ⟨h, conn_run_releases_once h⟩

/-! ## The heartbeat over a run -/

/-- A `Ping` write: its sequence and whether it succeeded. -/
def Call.pingSent : Call → Option (UInt64 × Bool)
  | .send (.ping _ sequence) ok => some (sequence, ok)
  | _ => none

/-- The `Ping` writes of a heartbeat task that has ticked `k` times with every
write successful, with the sequences `0, 1, 2, …` wrapping at `2^64`; and, once
the task has stopped, the failed write after them. -/
def heartbeatPings (k : Nat) (stopped : Bool) : List (UInt64 × Bool) :=
  (List.iterate (· + 1) 0 k).map (·, true) ++ if stopped then [((· + 1)^[k] 0, false)] else []

/-- The `Ping` writes of a run are those of a heartbeat that has ticked some
number of times, and the task's `sequence` is the next one. -/
def Beats (c : Conn) (calls : List Call) : Prop :=
  ∃ k, calls.filterMap Call.pingSent = heartbeatPings k c.heartbeatStopped ∧
    c.sequence = (· + 1)^[k] 0

/-- A connection whose handshake has just returned has written no `Ping`. -/
theorem Beats.init : Beats Conn.init [] :=
  ⟨0, rfl, rfl⟩

/-- A step that writes no `Ping` and leaves the heartbeat task alone keeps
`Beats`. -/
theorem Beats.of_quiet {c c' : Conn} {calls new : List Call} (hb : Beats c calls)
    (hp : new.filterMap Call.pingSent = []) (hseq : c'.sequence = c.sequence)
    (hstop : c'.heartbeatStopped = c.heartbeatStopped) : Beats c' (calls ++ new) := by
  obtain ⟨k, hk, hs⟩ := hb
  exact ⟨k, by rw [List.filterMap_append, hp, List.append_nil, hk, hstop], hseq.trans hs⟩

section Run

variable {sv : Services} {cr : Crypto} {peer : Peer}

/-- **One step keeps `Beats`.** Only a tick of the heartbeat task writes a
`Ping`: the next sequence, after which the task moves on or, on a failed write,
stops. -/
theorem Beats.step {st : Store} {c : Conn} {l : Label} {r : List Call × Conn} {calls : List Call}
    (h : connStep sv cr peer st c l = some r) (hb : Beats c calls) : Beats r.2 (calls ++ r.1) := by
  cases connStep_spec sv cr peer h with
  | allocate =>
    unfold allocateStep
    dsimp only
    repeat' split
    all_goals exact hb.of_quiet (by simp [Call.pingSent, createErrorPacket]) rfl rfl
  | establish =>
    unfold establishStep compensate assignStep
    repeat' split
    all_goals exact hb.of_quiet (by simp [Call.pingSent, createErrorPacket, ipAssignPacket]) rfl rfl
  | inbound sessionId ip ev =>
    have hp : (inboundConnStep peer st c sessionId ip ev).1.filterMap Call.pingSent = [] := by
      rw [inboundConnStep_fst, List.filterMap_eq_nil_iff]
      intro x hx
      have := inboundStep_calls _ _ _ x hx
      cases x with
      | send p ok => cases p <;> simp_all [Call.isLoopCall, Call.pingSent]
      | _ => rfl
    rcases inboundConnStep_snd peer st c sessionId ip ev with ⟨last, hc'⟩ | ⟨res, hc'⟩ <;>
      exact hb.of_quiet hp (by rw [hc']) (by rw [hc'])
  | heartbeat now sendOk _ hstop =>
    obtain ⟨k, hk, hs⟩ := hb
    rw [hstop] at hk
    cases sendOk
    · exact ⟨k, by simp [heartbeatStep, hk, heartbeatPings, Call.pingSent, hs], hs⟩
    · refine ⟨k + 1, ?_, by simp [heartbeatStep, hs, Function.iterate_succ_apply']⟩
      rw [List.filterMap_append, hk]
      simp only [heartbeatPings, List.iterate_add]
      simp [heartbeatStep, hstop, Call.pingSent, List.iterate, hs]
  | rotate o =>
    have hp : (rotateStep cr peer st c o).1.filterMap Call.pingSent = [] :=
      List.filterMap_eq_nil_iff.2 fun x hx => by
        rcases (rotateStep_spec cr peer st c o).1 x hx with rfl | rfl <;> rfl
    rcases (rotateStep_spec cr peer st c o).2 with hc' | ⟨_, _, _, hc'⟩ <;>
      exact hb.of_quiet hp (by rw [hc']) (by rw [hc'])
  | _ => exact hb.of_quiet (by simp [Call.pingSent]) rfl rfl

/-- Every run from a state that keeps `Beats` ends in one. -/
theorem Beats.run :
    ∀ {st : Store} {c : Conn} {calls : List Call} {ls : List Label} {r : Store × Conn × List Call},
      Beats c calls → Conn.run sv cr peer st c ls = some r → Beats r.2.1 (calls ++ r.2.2)
  | _, _, _, [], r, hb, h => by simp [Conn.run] at h; subst h; simpa using hb
  | _, _, _, _ :: _, _, hb, h => by
    obtain ⟨new, c', r', hstep, hrun, rfl⟩ := Conn.run_cons h
    simpa using Beats.run (hb.step hstep) hrun

end Run

/-- **The heartbeat.** In every run of a connection from its handshake on, the
`Ping` frames written are those of the heartbeat task, one per tick, with the
sequences `0, 1, 2, …` wrapping at `2^64`; every write succeeded but the last
one of a task that has stopped, and a stopped task writes no more. -/
theorem conn_run_heartbeat {sv : Services} {cr : Crypto} {peer : Peer} {st st' : Store}
    {ls : List Label} {c' : Conn} {calls : List Call}
    (h : Conn.run sv cr peer st Conn.init ls = some (st', c', calls)) :
    ∃ k, calls.filterMap Call.pingSent = heartbeatPings k c'.heartbeatStopped ∧
      c'.sequence = (· + 1)^[k] 0 := by
  obtain ⟨k, hk, hs⟩ := Beats.run Beats.init h
  exact ⟨k, by rwa [List.nil_append] at hk, hs⟩

/-- A session whose heartbeat writes one `Ping` and then fails on the second. -/
def heartbeatLabels : List Label :=
  [.allocate (.ok "10.7.0.2") "a1" [5] true, .establish ⟨.ok [9], 3600, true, none⟩,
    .heartbeat 30000 true, .heartbeat 60000 false]

/-- The calls of that run. -/
def heartbeatCalls : List Call :=
  [.allocateIp "Abc", .storeKey "Abc" [5],
    .send (.ipAssign "10.7.0.2" 3600 "session_a1" [7, 9, 5] [9]) true,
    .addSession "session_a1" "Abc" "10.7.0.2", .send (.ping 30000 0) true,
    .send (.ping 60000 1) false]

/-- That run meets the hypothesis: its pings carry `0` and `1`, and the second
write, which failed, stopped the task. -/
theorem conn_run_heartbeat_stops :
    Conn.run Services.lenient concatCrypto ⟨"Abc", "10.0.0.9:4000"⟩ Store.empty Conn.init
        heartbeatLabels =
      some (Store.empty.applyAll heartbeatCalls,
        ⟨.running "session_a1" "10.7.0.2", none, 1, true, .idle, false⟩, heartbeatCalls) ∧
    ∃ k, heartbeatCalls.filterMap Call.pingSent = heartbeatPings k true ∧ (1 : UInt64) = (· + 1)^[k] 0 :=
  have h : Conn.run Services.lenient concatCrypto ⟨"Abc", "10.0.0.9:4000"⟩ Store.empty Conn.init
      heartbeatLabels = some (Store.empty.applyAll heartbeatCalls,
        ⟨.running "session_a1" "10.7.0.2", none, 1, true, .idle, false⟩, heartbeatCalls) := rfl
  ⟨h, conn_run_heartbeat h⟩

/-! ## After `handle_client` has returned -/

/-- Whether a call is one the heartbeat or the rotation task makes: a `Ping` or
`KeyRotation` write, or `needs_rotation`, `get_key` or `store_key` for the
connection's own client. -/
def Call.isTaskCall (clientId : String) : Call → Bool
  | .send (.ping ..) _ | .send (.keyRotation ..) _ => true
  | .needsRotation q | .getKey q | .storeKey q _ => q == clientId
  | _ => false

/-- The tasks' calls leave the registry alone. -/
theorem Call.touchesRegistry_of_isTaskCall {clientId : String} {x : Call}
    (h : x.isTaskCall clientId = true) : x.touchesRegistry = false := by
  cases x <;> first | rfl | cases h

section Run

variable {sv : Services} {cr : Crypto} {peer : Peer}

/-- Once `handle_client` has returned, a step is one of its aborted tasks', and
the connection stays returned. -/
theorem connStep_finished {st : Store} {c : Conn} {l : Label} {r : List Call × Conn}
    {res : Except ServerError Unit} (hfin : c.phase = .finished res)
    (h : connStep sv cr peer st c l = some r) :
    r.2.phase = .finished res ∧ ∀ x ∈ r.1, x.isTaskCall peer.clientId = true := by
  cases connStep_spec sv cr peer h with
  | heartbeat now sendOk => cases sendOk <;> simp [heartbeatStep, hfin, Call.isTaskCall]
  | rotate o =>
    refine ⟨?_, fun x hx => ?_⟩
    · rcases (rotateStep_spec cr peer st c o).2 with hc' | ⟨_, _, _, hc'⟩ <;> rw [hc', hfin]
    · rcases (rotateStep_spec cr peer st c o).1 x hx with rfl | rfl <;> simp [Call.isTaskCall]
  | rotationSend => simp [hfin, Call.isTaskCall]
  | rotationStore => simp [hfin, Call.isTaskCall]
  | allocate _ _ _ _ hph | establish _ _ _ _ hph | inbound _ _ _ hph | teardown _ _ _ hph =>
    rw [hfin] at hph; cases hph

theorem Conn.run_finished {res : Except ServerError Unit} :
    ∀ {st : Store} {c : Conn} {ls : List Label} {r : Store × Conn × List Call},
      c.phase = .finished res → Conn.run sv cr peer st c ls = some r →
      r.2.1.phase = .finished res ∧ ∀ x ∈ r.2.2, x.isTaskCall peer.clientId = true
  | _, _, [], r, hfin, h => by
    simp only [Conn.run, Option.some.injEq] at h
    subst h
    simp [hfin]
  | _, _, _ :: _, _, hfin, h => by
    obtain ⟨calls, c', r', hstep, hrun, rfl⟩ := Conn.run_cons h
    obtain ⟨hph, hcalls⟩ := connStep_finished hfin hstep
    obtain ⟨hph', hcalls'⟩ := Conn.run_finished hph hrun
    refine ⟨hph', fun x hx => ?_⟩
    rcases List.mem_append.1 hx with hx | hx
    exacts [hcalls x hx, hcalls' x hx]

/-- While the tasks cannot step, the rotation task is idle: it leaves `idle`
only by a tick, and the tasks stay live until `store_key` brings it back. -/
theorem connStep_live_or_idle {st : Store} {c : Conn} {l : Label} {r : List Call × Conn}
    (h : connStep sv cr peer st c l = some r) (hc : c.tasksLive = true ∨ c.rotation = .idle) :
    r.2.tasksLive = true ∨ r.2.rotation = .idle := by
  cases connStep_spec sv cr peer h with
  | allocate ip randomId key sendOk hph =>
    have hidle : c.rotation = .idle := hc.resolve_left (by simp [Conn.tasksLive, hph])
    rcases allocateStep_spec sv peer c ip randomId key sendOk with ⟨_, hc'⟩ | ⟨_, hc'⟩ <;>
      exact .inr (by rw [hc']; exact hidle)
  | establish ip sessionId key o hph =>
    have hidle : c.rotation = .idle := hc.resolve_left (by simp [Conn.tasksLive, hph])
    rcases establishStep_spec sv cr peer c ip sessionId key o with ⟨_, hc'⟩ | ⟨_, _, _, hc'⟩ <;>
      exact .inr (by rw [hc']; exact hidle)
  | inbound sessionId ip ev hph =>
    rcases inboundConnStep_snd peer st c sessionId ip ev with ⟨_, hc'⟩ | ⟨_, hc'⟩ <;>
      simp [hc', Conn.tasksLive, hph]
  | heartbeat now sendOk hl =>
    cases sendOk <;> exact .inl ((Conn.tasksLive_of_eq rfl rfl).trans hl)
  | rotate o hl =>
    rcases (rotateStep_spec cr peer st c o).2 with hc' | ⟨_, _, _, hc'⟩ <;>
      exact .inl ((Conn.tasksLive_of_eq (by rw [hc']) (by rw [hc'])).trans hl)
  | rotationSend _ _ _ _ _ _ hrot =>
    exact .inl ((Conn.tasksLive_of_eq rfl rfl).trans (hc.resolve_right (by simp [hrot])))
  | rotationStore => simp
  | teardown _ _ _ hph =>
    simpa [Conn.tasksLive, hph] using hc

theorem Conn.run_live_or_idle :
    ∀ {st : Store} {c : Conn} {ls : List Label} {r : Store × Conn × List Call},
      (c.tasksLive = true ∨ c.rotation = .idle) → Conn.run sv cr peer st c ls = some r →
      r.2.1.tasksLive = true ∨ r.2.1.rotation = .idle
  | _, _, [], r, hc, h => by
    simp only [Conn.run, Option.some.injEq] at h
    subst h
    exact hc
  | _, _, _ :: _, _, hc, h => by
    obtain ⟨calls, c', r', hstep, hrun, rfl⟩ := Conn.run_cons h
    exact (Conn.run_live_or_idle (connStep_live_or_idle hstep hc) hrun :)

/-- A returned connection whose tasks were never spawned, or have both stopped,
has no step left. -/
theorem connStep_finished_quiet {st : Store} {c : Conn} {l : Label} {res : Except ServerError Unit}
    (hfin : c.phase = .finished res)
    (hq : (c.aborted = false ∧ c.rotation = .idle) ∨
      (c.heartbeatStopped = true ∧ c.rotation = .stopped)) :
    connStep sv cr peer st c l = none := by
  have hlive : c.tasksLive = c.aborted := by simp [Conn.tasksLive, hfin]
  cases l <;> simp only [connStep, hfin, hlive] <;> rcases hq with ⟨h₁, h₂⟩ | ⟨h₁, h₂⟩ <;>
    simp [h₁, h₂]

end Run

/-- **What a returned connection still does.** The loop's `abort` cancels the
heartbeat and the rotation task only at their next yield, so after
`handle_client` has returned its aborted tasks may still write `Ping` and
`KeyRotation` frames, ask `needs_rotation`, and call `get_key` and `store_key`.
In every run of a connection that returns, whatever its tasks do afterwards:
the connection stays returned; every later call is one of its tasks', for its
own client; the registry and every other client's key are left as they were;
and nothing at all happens when `handle_client` returned before its session
ran (no task was spawned), or when both tasks had stopped. -/
theorem conn_after_return {sv : Services} {cr : Crypto} {peer : Peer} {st st₁ st₂ : Store}
    {c₁ c₂ : Conn} {ls ls' : List Label} {calls₁ calls₂ : List Call} {res : Except ServerError Unit}
    (h : Conn.run sv cr peer st Conn.init ls = some (st₁, c₁, calls₁))
    (hfin : c₁.phase = .finished res) (h' : Conn.run sv cr peer st₁ c₁ ls' = some (st₂, c₂, calls₂)) :
    c₂.phase = .finished res ∧ (∀ x ∈ calls₂, x.isTaskCall peer.clientId = true) ∧
      st₂.sessions = st₁.sessions ∧ (∀ q, q ≠ peer.clientId → st₂.keys q = st₁.keys q) ∧
      (c₁.aborted = false ∨ (c₁.heartbeatStopped = true ∧ c₁.rotation = .stopped) → calls₂ = []) := by
  obtain ⟨hph, hcalls⟩ := Conn.run_finished hfin h'
  have hst : st₂ = st₁.applyAll calls₂ := Conn.run_store h'
  refine ⟨hph, hcalls, ?_, fun q hq => ?_, fun hq => ?_⟩
  · rw [hst]
    exact Store.sessions_applyAll_of_untouched st₁ fun x hx =>
      Call.touchesRegistry_of_isTaskCall (hcalls x hx)
  · rw [hst]
    exact Store.keys_applyAll_of_boundTo (Ne.symm hq) st₁ (Conn.run_boundTo h')
  · -- the run must be empty: no step applies to a quiet returned connection
    have hidle : c₁.tasksLive = true ∨ c₁.rotation = .idle :=
      Conn.run_live_or_idle (.inr rfl) h
    have hquiet : (c₁.aborted = false ∧ c₁.rotation = .idle) ∨
        (c₁.heartbeatStopped = true ∧ c₁.rotation = .stopped) := by
      rcases hq with hq | hq
      · exact .inl ⟨hq, hidle.resolve_left (by simp [Conn.tasksLive, hfin, hq])⟩
      · exact .inr hq
    cases ls' with
    | nil => simp only [Conn.run, Option.some.injEq, Prod.mk.injEq] at h'; exact h'.2.2.symm
    | cons l _ => simp [Conn.run, connStep_finished_quiet hfin hquiet] at h'

/-- The connection of the race run just after its teardown, with its rotation
task between the send and the `store_key`. -/
def raceReturned : Store × Conn × List Call :=
  (Conn.run Services.lenient concatCrypto ⟨"Abc", "10.0.0.9:4000"⟩ Store.empty Conn.init
    raceLabels.dropLast).getD (Store.empty, Conn.init, [])

/-- What its aborted tasks still do: a heartbeat `Ping`, then the `store_key`
of the rotated key. -/
def afterReturnCalls : List Call :=
  [.send (.ping 90000 0) true, .storeKey "Abc" [8]]

/-- The hypotheses hold of the race run after its teardown, whose aborted tasks
then write a `Ping` and store the rotated key. -/
theorem conn_after_return_race :
    Conn.run Services.lenient concatCrypto ⟨"Abc", "10.0.0.9:4000"⟩ Store.empty Conn.init
      raceLabels.dropLast = some raceReturned ∧
    raceReturned.2.1.phase = .finished (.ok ()) ∧
    Conn.run Services.lenient concatCrypto ⟨"Abc", "10.0.0.9:4000"⟩ raceReturned.1
      raceReturned.2.1 [.heartbeat 90000 true, .rotationStore] =
      some (raceReturned.1.applyAll afterReturnCalls,
        { raceReturned.2.1 with sequence := 1, rotation := .idle }, afterReturnCalls) ∧
    ((({ raceReturned.2.1 with sequence := 1, rotation := .idle } : Conn).phase =
        .finished (.ok ()) ∧
      (∀ x ∈ afterReturnCalls, x.isTaskCall "Abc" = true) ∧
      (raceReturned.1.applyAll afterReturnCalls).sessions = raceReturned.1.sessions ∧
      (∀ q, q ≠ "Abc" → (raceReturned.1.applyAll afterReturnCalls).keys q = raceReturned.1.keys q) ∧
      (raceReturned.2.1.aborted = false ∨
          (raceReturned.2.1.heartbeatStopped = true ∧ raceReturned.2.1.rotation = .stopped) →
        afterReturnCalls = []))) :=
  have h : Conn.run Services.lenient concatCrypto ⟨"Abc", "10.0.0.9:4000"⟩ Store.empty Conn.init
      raceLabels.dropLast = some raceReturned := rfl
  have h' : Conn.run Services.lenient concatCrypto ⟨"Abc", "10.0.0.9:4000"⟩ raceReturned.1
      raceReturned.2.1 [.heartbeat 90000 true, .rotationStore] =
      some (raceReturned.1.applyAll afterReturnCalls,
        { raceReturned.2.1 with sequence := 1, rotation := .idle }, afterReturnCalls) := rfl
  ⟨h, rfl, h', conn_after_return h (by rfl) h'⟩

/-! ## Leaks -/

/-- The frames and resources of three runs in which `handle_client` returns
without undoing what it took. When the shared secret cannot be derived, the IP
is released but the session key stored two steps before stays. When
`ClientSession::new` fails, its `?` returns with the IP still leased and the key
still stored. And when the client leaves while the rotation task is between its
send and its `store_key`, the teardown removes the key, and the rotation task,
which the loop's `abort` does not stop mid-poll, stores its new key again after
`handle_client` has returned. -/
theorem establishment_leaks :
    (Conn.run Services.lenient (Crypto.concat (fun _ => none) fun _ => .error "bad point")
        ⟨"Abc", "10.0.0.9:4000"⟩ Store.empty Conn.init
        [.allocate (.ok "10.7.0.2") "a1" [5] true, .establish ⟨.ok [9], 3600, true, none⟩]).map
      (fun r => (r.1.keys "Abc", r.2.1.phase, r.2.2)) =
      some (some [5], .finished (.error (.keyError "Failed to derive shared secret: bad point")),
        [.allocateIp "Abc", .storeKey "Abc" [5],
          .send (.error 1006 "Failed to derive shared secret: bad point") true,
          .releaseIp "10.7.0.2"]) ∧
    (Conn.run Services.lenient concatCrypto ⟨"Abc", "10.0.0.9:4000"⟩ Store.empty Conn.init
        [.allocate (.ok "10.7.0.2") "a1" [5] true,
          .establish ⟨.ok [9], 3600, true, some "closed channel"⟩]).map
      (fun r => (r.1.keys "Abc", r.2.1.phase, r.2.2)) =
      some (some [5], .finished (.error (.session "closed channel")),
        [.allocateIp "Abc", .storeKey "Abc" [5],
          .send (.ipAssign "10.7.0.2" 3600 "session_a1" [7, 9, 5] [9]) true]) ∧
    (Conn.run Services.lenient concatCrypto ⟨"Abc", "10.0.0.9:4000"⟩ Store.empty Conn.init
        raceLabels).map
      (fun r => (r.1.keys "Abc", r.2.1.phase)) =
      some (some [8], .finished (.ok ())) :=
  ⟨rfl, rfl, rfl⟩

end AeroNyx
