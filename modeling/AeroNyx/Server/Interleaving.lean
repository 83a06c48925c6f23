import Mathlib.Tactic.FinCases
import AeroNyx.Server.Engine

/-!
# What the interleaving of connections can and cannot change

The engine interleaves the steps of its connections over one store. A step of a
connection reads the store only through its own client's slot (`connStep_congr`)
and writes only that slot and the registry entry of the session it holds
(`RegistryStep`). From these two facts, for every interleaving:

- `conn_runs_alone` — when no other connection uses its client key, what a
  connection does in the engine is exactly what it could do alone: its states and
  calls are those of a run of `Conn.run` from the store the engine started with,
  and each such run is one it can make in the engine. Every fact about one
  connection run alone (`conn_run_releases_once`, `conn_run_heartbeat`, …) so
  holds of each connection of the engine;
- `registry_tracks_sessions` — when no two connections register the same session
  id, the registry (`SessionManager`, `add_session` at client.rs:297 and
  `remove_session` at client.rs:314) holds exactly the sessions of the
  connections between their `add_session` and their teardown;
- `store_determined` — with both, the shared store is a function of what each
  connection did: two interleavings that leave every connection in the same
  state with the same calls leave the same store.
-/

namespace AeroNyx

/-! ## What a step reads and writes of the store -/

section Step

variable {sv : Services} {cr : Crypto} {peer : Peer}

/-- A step reads the store only through its client's slot: the `get_key` of the
inbound loop and of the rotation task. -/
theorem connStep_congr {st st' : Store} (h : st.keys peer.clientId = st'.keys peer.clientId)
    (c : Conn) (l : Label) : connStep sv cr peer st c l = connStep sv cr peer st' c l := by
  cases l <;> simp only [connStep, inboundConnStep, rotateStep, h]

/-- A run extended by one more step. -/
theorem Conn.run_snoc {l : Label} {s : List Call × Conn} :
    ∀ {st : Store} {c : Conn} {ls : List Label} {r : Store × Conn × List Call},
      Conn.run sv cr peer st c ls = some r → connStep sv cr peer r.1 r.2.1 l = some s →
      Conn.run sv cr peer st c (ls ++ [l]) = some (r.1.applyAll s.1, s.2, r.2.2 ++ s.1)
  | _, _, [], r, h, hl => by
    simp only [Conn.run, Option.some.injEq] at h
    subst h
    simp [Conn.run, hl]
  | _, _, _ :: _, _, h, hl => by
    obtain ⟨calls, c', r', hstep, hrun, rfl⟩ := Conn.run_cons h
    simp [Conn.run, hstep, Conn.run_snoc hrun hl]

/-- What a step can do to the registry (`SessionManager`). -/
inductive RegistryStep (st : Store) (c : Conn) : List Call × Conn → Prop
  /-- It leaves the registry, and the session the connection holds, alone. -/
  | keep {r : List Call × Conn} : (st.applyAll r.1).sessions = st.sessions →
    r.2.phase.registered = c.phase.registered → RegistryStep st c r
  /-- The `add_session` of the establishment registers the session the
  connection now runs. -/
  | register {r : List Call × Conn} (sessionId clientId ip : String) :
    c.phase.registered = none → r.2.phase.registered = some sessionId →
    Call.addSession sessionId clientId ip ∈ r.1 →
    (st.applyAll r.1).sessions = Function.update st.sessions sessionId true → RegistryStep st c r
  /-- The `remove_session` of the teardown removes the session it held. -/
  | deregister {r : List Call × Conn} (sessionId : String) :
    c.phase.registered = some sessionId → r.2.phase.registered = none →
    (st.applyAll r.1).sessions = Function.update st.sessions sessionId false → RegistryStep st c r

theorem RegistryStep.of_untouched {st : Store} {c : Conn} {r : List Call × Conn}
    (hq : ∀ x ∈ r.1, x.touchesRegistry = false) (hreg : r.2.phase.registered = c.phase.registered) :
    RegistryStep st c r :=
  .keep (Store.sessions_applyAll_of_untouched st hq) hreg

/-- **Every step is one of the three.** -/
theorem connStep_registry {st : Store} {c : Conn} {l : Label} {r : List Call × Conn}
    (h : connStep sv cr peer st c l = some r) : RegistryStep st c r := by
  cases connStep_spec sv cr peer h with
  | allocate ip randomId key sendOk hph =>
    unfold allocateStep
    dsimp only
    repeat' split
    all_goals refine .of_untouched ?_ ?_ <;> simp [hph, Call.touchesRegistry, Phase.registered]
  | establish ip sessionId key o hph =>
    unfold establishStep compensate assignStep
    repeat' split
    all_goals try (refine .of_untouched ?_ ?_ <;>
      simp [hph, Call.touchesRegistry, Phase.registered] <;> done)
    exact .register sessionId peer.clientId ip (by simp [hph, Phase.registered]) rfl (by simp)
      (by simp [Store.apply])
  | inbound sessionId ip ev hph =>
    refine .of_untouched (fun x hx => ?_) ?_
    · rw [inboundConnStep_fst] at hx
      have := inboundStep_calls _ _ _ x hx
      cases x <;> simp_all [Call.isLoopCall, Call.touchesRegistry]
    · rcases inboundConnStep_snd peer st c sessionId ip ev with ⟨last, hc'⟩ | ⟨res, hc'⟩ <;>
        simp [hc', hph, Phase.registered]
  | heartbeat => exact .of_untouched (by simp [heartbeatStep, Call.touchesRegistry]) (by
      unfold heartbeatStep; split <;> rfl)
  | rotate o =>
    refine .of_untouched (fun x hx => ?_) ?_
    · rcases (rotateStep_spec cr peer st c o).1 x hx with rfl | rfl <;> rfl
    · rcases (rotateStep_spec cr peer st c o).2 with hc' | ⟨_, _, _, hc'⟩ <;> simp [hc']
  | rotationSend => exact .of_untouched (by simp [Call.touchesRegistry]) rfl
  | rotationStore => exact .of_untouched (by simp [Call.touchesRegistry]) rfl
  | teardown sessionId ip res hph =>
    exact .deregister sessionId (by simp [hph, Phase.registered]) rfl (by simp [Store.apply])

end Step

/-! ## Each connection runs as if alone -/

section Engine

variable {sv : Services} {cr : Crypto} {n : Nat} {peers : Fin n → Peer}

/-- A step of the engine only extends each connection's log. -/
theorem Engine.step_logs {e e' : Engine n} {j : Fin n} {l : Label}
    (h : e.step sv cr peers j l = some e') (i : Fin n) : e.logs i <+: e'.logs i := by
  obtain ⟨r, _, rfl⟩ := Engine.step_eq h
  by_cases hij : i = j
  · subst hij; simp
  · simp [Function.update_noteq hij]

/-- Connection `i`'s part of a reachable engine is a run of it alone from the
store the engine started with, and that run leaves its client's slot as the
engine has it. -/
theorem Reachable.project {st : Store} {e : Engine n} {i : Fin n}
    (hu : ∀ j, j ≠ i → (peers j).clientId ≠ (peers i).clientId) (hr : Reachable sv cr peers st e) :
    ∃ ls st', Conn.run sv cr (peers i) st Conn.init ls = some (st', e.conns i, e.logs i) ∧
      st'.keys (peers i).clientId = e.store.keys (peers i).clientId := by
  induction hr with
  | start => exact ⟨[], st, rfl, rfl⟩
  | step j l _ h ih =>
    obtain ⟨ls, st', hrun, hkey⟩ := ih
    by_cases hji : j = i
    · subst hji
      obtain ⟨r, hstep, rfl⟩ := Engine.step_eq h
      refine ⟨ls ++ [l], st'.applyAll r.1, ?_, Store.keys_applyAll_congr hkey r.1⟩
      simpa using Conn.run_snoc hrun ((connStep_congr hkey _ _).trans hstep)
    · have hkeys := Engine.step_keys_other (hu j hji) h
      obtain ⟨r, _, rfl⟩ := Engine.step_eq h
      refine ⟨ls, st', ?_, hkey.trans hkeys.symm⟩
      simpa [Function.update_noteq (Ne.symm hji)] using hrun

/-- A run of connection `i` alone, from the state and store it has in a
reachable engine, is a run it makes in the engine while the others wait. -/
theorem Reachable.lift {st : Store} {i : Fin n} :
    ∀ {ls : List Label} {e : Engine n} {c : Conn} {r : Store × Conn × List Call},
      Reachable sv cr peers st e → e.conns i = c →
      Conn.run sv cr (peers i) e.store c ls = some r →
      ∃ e', Reachable sv cr peers st e' ∧ e'.conns i = r.2.1 ∧ e'.logs i = e.logs i ++ r.2.2
  | [], e, _, r, hr, hc, h => by
    simp only [Conn.run, Option.some.injEq] at h
    subst h
    exact ⟨e, hr, hc, by simp⟩
  | l :: _, e, _, _, hr, rfl, h => by
    obtain ⟨calls, c', r', hstep, hrun, rfl⟩ := Conn.run_cons h
    have he : e.step sv cr peers i l = some ⟨e.store.applyAll calls,
        Function.update e.conns i c', Function.update e.logs i (e.logs i ++ calls)⟩ := by
      simp [Engine.step, hstep]
    obtain ⟨e', hr', hc, hl⟩ := Reachable.lift (.step i l hr he) (Function.update_same _ _ _) hrun
    exact ⟨e', hr', hc, by simpa using hl⟩

/-- The slot of a client no connection serves keeps what it held. -/
theorem Reachable.keys_unserved {st : Store} {e : Engine n} {clientId : String}
    (hc : ∀ j, (peers j).clientId ≠ clientId) (hr : Reachable sv cr peers st e) :
    e.store.keys clientId = st.keys clientId := by
  induction hr with
  | start => rfl
  | step j l _ h ih =>
    obtain ⟨r, hstep, rfl⟩ := Engine.step_eq h
    exact (Store.keys_applyAll_of_boundTo (hc j) _ (connStep_boundTo sv cr (peers j) hstep)).trans ih

end Engine

/-! ## The registry across connections -/

section Registry

variable {sv : Services} {cr : Crypto} {n : Nat} {peers : Fin n → Peer}

/-- No two connections have called `add_session` with the same session id. -/
def DistinctSessions (e : Engine n) : Prop :=
  ∀ i j sessionId clientId clientId' ip ip', Call.addSession sessionId clientId ip ∈ e.logs i →
    Call.addSession sessionId clientId' ip' ∈ e.logs j → i = j

theorem DistinctSessions.of_step {e e' : Engine n} {j : Fin n} {l : Label}
    (h : e.step sv cr peers j l = some e') (hd : DistinctSessions e') : DistinctSessions e :=
  fun i k _ _ _ _ _ hi hk =>
    hd i k _ _ _ _ _ ((Engine.step_logs h i).subset hi) ((Engine.step_logs h k).subset hk)

/-- The registry holds exactly the sessions the connections hold, and each
connection has registered the session it holds. -/
structure RegistryInv (e : Engine n) : Prop where
  added : ∀ i sessionId, (e.conns i).phase.registered = some sessionId →
    ∃ clientId ip, Call.addSession sessionId clientId ip ∈ e.logs i
  exact : ∀ sessionId, e.store.sessions sessionId = true ↔
    ∃ i, (e.conns i).phase.registered = some sessionId

/-- **One step keeps the registry exact**, as long as the connections'
session ids, the step's own included, are pairwise distinct: only the teardown
of a session another connection also registered could remove a live entry. -/
theorem RegistryInv.step {e e' : Engine n} {j : Fin n} {l : Label}
    (h : e.step sv cr peers j l = some e') (hd : DistinctSessions e') (hi : RegistryInv e) :
    RegistryInv e' := by
  obtain ⟨r, hstep, rfl⟩ := Engine.step_eq h
  have other : ∀ i, i ≠ j → Function.update e.conns j r.2 i = e.conns i :=
    fun i hij => Function.update_noteq hij _ _
  have grow : ∀ i x, x ∈ e.logs i → x ∈ Function.update e.logs j (e.logs j ++ r.1) i :=
    fun i _ hx => (Engine.step_logs h i).subset hx
  -- a session `j` holds neither before nor after the step is held as it was
  have same : ∀ s, (e.conns j).phase.registered ≠ some s → r.2.phase.registered ≠ some s →
      ((∃ i, (Function.update e.conns j r.2 i).phase.registered = some s) ↔
        ∃ i, (e.conns i).phase.registered = some s) := fun s hold hnew => by
    constructor <;> rintro ⟨i, hi'⟩ <;> by_cases hij : i = j
    · subst hij; rw [Function.update_same] at hi'; exact absurd hi' hnew
    · exact ⟨i, by rwa [other i hij] at hi'⟩
    · subst hij; exact absurd hi' hold
    · exact ⟨i, by rwa [other i hij]⟩
  cases connStep_registry hstep with
  | keep hs hreg =>
    have hall : ∀ i, (Function.update e.conns j r.2 i).phase.registered =
        (e.conns i).phase.registered := fun i => by
      by_cases hij : i = j
      · subst hij; simpa using hreg
      · rw [other i hij]
    refine ⟨fun i sid hsid => ?_, fun sid => ?_⟩
    · obtain ⟨q, ip, hmem⟩ := hi.added i sid ((hall i).symm.trans hsid)
      exact ⟨q, ip, grow i _ hmem⟩
    · simp only [hs, hall]
      exact hi.exact sid
  | register sid q ip hnone hsome hmem hs =>
    refine ⟨fun i s hs' => ?_, fun s => ?_⟩
    · dsimp only at hs' ⊢
      by_cases hij : i = j
      · subst hij
        simp only [Function.update_same, hsome, Option.some.injEq] at hs' ⊢
        exact ⟨q, ip, hs' ▸ List.mem_append_right _ hmem⟩
      · obtain ⟨q', ip', hmem'⟩ := hi.added i s (by rwa [other i hij] at hs')
        exact ⟨q', ip', grow i _ hmem'⟩
    · dsimp only
      rw [hs]
      by_cases hsd : s = sid
      · subst hsd
        simp only [Function.update_same, true_iff]
        exact ⟨j, by simpa using hsome⟩
      · rw [Function.update_noteq hsd, hi.exact s,
          same s (by simp [hnone]) (by simp [hsome, Ne.symm hsd])]
  | deregister sid hsome hnone hs =>
    refine ⟨fun i s hs' => ?_, fun s => ?_⟩
    · dsimp only at hs'
      have hij : i ≠ j := by rintro rfl; simp [hnone] at hs'
      obtain ⟨q', ip', hmem'⟩ := hi.added i s (by rwa [other i hij] at hs')
      exact ⟨q', ip', grow i _ hmem'⟩
    · dsimp only
      rw [hs]
      by_cases hsd : s = sid
      · -- another connection holding `j`'s session would have registered its id too
        subst hsd
        simp only [Function.update_same, Bool.false_eq_true, false_iff, not_exists]
        intro i hi'
        have hij : i ≠ j := by rintro rfl; simp [hnone] at hi'
        obtain ⟨q, ip, hq⟩ := hi.added i s (by rwa [other i hij] at hi')
        obtain ⟨q', ip', hq'⟩ := hi.added j s hsome
        exact hij (hd i j s q q' ip ip' (grow i _ hq) (grow j _ hq'))
      · rw [Function.update_noteq hsd, hi.exact s,
          same s (by simp [hsome, Ne.symm hsd]) (by simp [hnone])]

/-- Over a store with an empty registry, every reachable engine whose
connections registered pairwise distinct session ids keeps the registry exact. -/
theorem Reachable.registry {st : Store} (hempty : ∀ sessionId, st.sessions sessionId = false)
    {e : Engine n} (hr : Reachable sv cr peers st e) (hd : DistinctSessions e) : RegistryInv e := by
  induction hr with
  | start =>
    exact ⟨fun _ _ h => (nomatch h), fun sid => by simp [Engine.start, hempty, Conn.init,
      Phase.registered]⟩
  | step _ _ _ h ih => exact (ih (hd.of_step h)).step h hd

end Registry

/-! ## Two connections, interleaved and in turn -/

/-- A `Disconnect` frame from the client. -/
def disconnectEvent : LoopEvent :=
  ⟨.running, .packet (.disconnect 0 "bye"), 0, none, .error "", true⟩

/-- Both connections establish their sessions; then the first one's client
disconnects and its teardown runs. -/
def pairCloseSteps : List (Fin 2 × Label) :=
  pairSteps ++ [(0, .inbound disconnectEvent), (0, .teardown)]

def pairClosedEngine : Engine 2 :=
  ((Engine.start Store.empty).run Services.lenient concatCrypto pairPeers pairCloseSteps).getD
    (Engine.start Store.empty)

theorem pairClosedEngine_reachable :
    Reachable Services.lenient concatCrypto pairPeers Store.empty pairClosedEngine :=
  Reachable.run pairCloseSteps .start rfl

theorem pairClosedEngine_distinct : DistinctSessions pairClosedEngine := by
  have h0 : pairClosedEngine.logs 0 = [.allocateIp "Abc", .storeKey "Abc" [5],
      .send (.ipAssign "10.7.0.2" 3600 "session_a1" [7, 9, 5] [9]) true,
      .addSession "session_a1" "Abc" "10.7.0.2", .recv, .removeSession "session_a1",
      .releaseIp "10.7.0.2", .removeKey "Abc"] := rfl
  have h1 : pairClosedEngine.logs 1 = [.allocateIp "Xyz", .storeKey "Xyz" [6],
      .send (.ipAssign "10.7.0.3" 3600 "session_b2" [7, 4, 6] [4]) true,
      .addSession "session_b2" "Xyz" "10.7.0.3"] := rfl
  intro i j sid q q' ip ip' hi hj
  fin_cases i <;> fin_cases j <;> simp_all

/-- The same steps of each connection as in `pairCloseSteps`, with the first
connection's run completed before the second's starts. -/
def pairSerialSteps : List (Fin 2 × Label) :=
  [(0, .allocate (.ok "10.7.0.2") "a1" [5] true), (0, .establish ⟨.ok [9], 3600, true, none⟩),
    (0, .inbound disconnectEvent), (0, .teardown),
    (1, .allocate (.ok "10.7.0.3") "b2" [6] true), (1, .establish ⟨.ok [4], 3600, true, none⟩)]

def pairSerialEngine : Engine 2 :=
  ((Engine.start Store.empty).run Services.lenient concatCrypto pairPeers pairSerialSteps).getD
    (Engine.start Store.empty)


/-! ## Main results -/

/-- **Each connection runs as if alone.** For a connection whose client key no
other connection uses, the states and call logs it has in the reachable engines
are exactly those of its runs alone from the store the engine started with: the
other connections, in any interleaving, neither enable nor change anything it
does. -/
theorem conn_runs_alone {sv : Services} {cr : Crypto} {n : Nat} {peers : Fin n → Peer}
    {st : Store} {i : Fin n} (hu : ∀ j, j ≠ i → (peers j).clientId ≠ (peers i).clientId)
    (c : Conn) (calls : List Call) :
    (∃ e, Reachable sv cr peers st e ∧ e.conns i = c ∧ e.logs i = calls) ↔
      ∃ ls st', Conn.run sv cr (peers i) st Conn.init ls = some (st', c, calls) := by
  constructor
  · rintro ⟨e, hr, rfl, rfl⟩
    obtain ⟨ls, st', hrun, -⟩ := hr.project hu
    exact ⟨ls, st', hrun⟩
  · rintro ⟨ls, st', hrun⟩
    obtain ⟨e, hr, hc, hl⟩ := Reachable.lift Reachable.start rfl hrun
    exact ⟨e, hr, hc, by simpa using hl⟩

/-- The hypothesis holds of a connection of the two-connection engine, whose
state and calls there are those of a run alone. -/
theorem conn_runs_alone_pair :
    (∀ j, j ≠ 0 → (pairPeers j).clientId ≠ (pairPeers 0).clientId) ∧
    ((∃ e, Reachable Services.lenient concatCrypto pairPeers Store.empty e ∧
        e.conns 0 = pairEngine.conns 0 ∧ e.logs 0 = pairEngine.logs 0) ↔
      ∃ ls st', Conn.run Services.lenient concatCrypto (pairPeers 0) Store.empty Conn.init ls =
        some (st', pairEngine.conns 0, pairEngine.logs 0)) :=
  have hu : ∀ j, j ≠ 0 → (pairPeers j).clientId ≠ (pairPeers 0).clientId := by decide
  ⟨hu, conn_runs_alone hu _ _⟩

/-- **The registry tracks the live sessions of all connections.** In any
interleaving of connections started over an empty registry, as long as no two
connections have registered the same session id, a session id is in the
registry exactly when some connection holds it: from its `add_session` until
its teardown's `remove_session`, while its loop runs and while it closes. -/
theorem registry_tracks_sessions {sv : Services} {cr : Crypto} {n : Nat} {peers : Fin n → Peer}
    {st : Store} {e : Engine n} (hempty : ∀ sessionId, st.sessions sessionId = false)
    (hr : Reachable sv cr peers st e) (hd : DistinctSessions e) (sessionId : String) :
    e.store.sessions sessionId = true ↔ ∃ i, (e.conns i).phase.registered = some sessionId :=
  (hr.registry hempty hd).exact sessionId

/-- The hypotheses hold once the first of two sessions has closed while the
second runs: only the second's session id is in the registry. -/
theorem registry_tracks_sessions_closed :
    (∀ sessionId, Store.empty.sessions sessionId = false) ∧
    Reachable Services.lenient concatCrypto pairPeers Store.empty pairClosedEngine ∧
    DistinctSessions pairClosedEngine ∧
    (pairClosedEngine.store.sessions "session_b2" = true ↔
      ∃ i, (pairClosedEngine.conns i).phase.registered = some "session_b2") :=
  ⟨fun _ => rfl, pairClosedEngine_reachable, pairClosedEngine_distinct,
    registry_tracks_sessions (fun _ => rfl) pairClosedEngine_reachable pairClosedEngine_distinct _⟩

/-- Two stores with the same slots and the same registry are equal. -/
theorem Store.ext {s t : Store} (hk : s.keys = t.keys) (hs : s.sessions = t.sessions) : s = t := by
  cases s; cases t; cases hk; cases hs; rfl

/-- **The interleaving is unobservable in the store.** For connections with
pairwise distinct client keys, started over an empty registry, that registered
pairwise distinct session ids: two reachable engines in which every connection
has the same state and has made the same calls have the same store, whatever
the order in which the connections' steps were taken. -/
theorem store_determined {sv : Services} {cr : Crypto} {n : Nat} {peers : Fin n → Peer}
    {st : Store} {e₁ e₂ : Engine n} (hu : Function.Injective fun i => (peers i).clientId)
    (hempty : ∀ sessionId, st.sessions sessionId = false)
    (hr₁ : Reachable sv cr peers st e₁) (hr₂ : Reachable sv cr peers st e₂)
    (hd : DistinctSessions e₁) (hc : e₁.conns = e₂.conns) (hl : e₁.logs = e₂.logs) :
    e₁.store = e₂.store := by
  have hd₂ : DistinctSessions e₂ := by
    unfold DistinctSessions
    rw [← hl]
    exact hd
  refine Store.ext (funext fun clientId => ?_) (funext fun sessionId => ?_)
  · -- a served client's slot is what its connection's calls made of it
    by_cases hserved : ∃ i, (peers i).clientId = clientId
    · obtain ⟨i, rfl⟩ := hserved
      have hui : ∀ j, j ≠ i → (peers j).clientId ≠ (peers i).clientId :=
        fun j hj heq => hj (hu heq)
      rw [hr₁.owned hui, hr₂.owned hui, hl]
    · push_neg at hserved
      rw [hr₁.keys_unserved hserved, hr₂.keys_unserved hserved]
  · -- a registry entry is there exactly when some connection holds the session
    rw [Bool.eq_iff_iff, (hr₁.registry hempty hd).exact, (hr₂.registry hempty hd₂).exact, hc]

/-- The hypotheses hold of the two-connection runs in which the first
connection closes its session, interleaved with the second and before it. -/
theorem store_determined_serial :
    Function.Injective (fun i => (pairPeers i).clientId) ∧
    (∀ sessionId, Store.empty.sessions sessionId = false) ∧
    Reachable Services.lenient concatCrypto pairPeers Store.empty pairClosedEngine ∧
    Reachable Services.lenient concatCrypto pairPeers Store.empty pairSerialEngine ∧
    DistinctSessions pairClosedEngine ∧ pairClosedEngine.conns = pairSerialEngine.conns ∧
    pairClosedEngine.logs = pairSerialEngine.logs ∧ pairClosedEngine.store = pairSerialEngine.store :=
  have hu : Function.Injective (fun i => (pairPeers i).clientId) := by decide
  have hr : Reachable Services.lenient concatCrypto pairPeers Store.empty pairSerialEngine :=
    Reachable.run pairSerialSteps .start rfl
  have hc : pairClosedEngine.conns = pairSerialEngine.conns := funext fun i => by fin_cases i <;> rfl
  have hl : pairClosedEngine.logs = pairSerialEngine.logs := funext fun i => by fin_cases i <;> rfl
  ⟨hu, fun _ => rfl, pairClosedEngine_reachable, hr, pairClosedEngine_distinct, hc, hl,
    store_determined hu (fun _ => rfl) pairClosedEngine_reachable hr pairClosedEngine_distinct hc hl⟩

end AeroNyx
