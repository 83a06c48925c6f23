import AeroNyx.Server.Engine

/-!
# IP leases across connections

Each connection leases its address from the `IpPool` with `allocate_ip`
(client.rs:216) and gives it back with `release_ip`: in the compensations of a
failed establishment (client.rs:245, 261, 279) and in the teardown
(client.rs:315). The pool's code is not in the repository; following the spec
(§6, `IpPool`), it is the set of leased addresses: `allocate` hands out an
address that is not leased and leases it, `release` returns it.

`Phase.lease` is the address a connection holds, from its `allocate_ip` until it
releases it or `handle_client` returns. A step takes a lease only through
`allocate_ip`, and releases no address but the one it held, as it stops holding
it (`LeaseStep`). So, in any interleaving:

- `leases_exclusive` — an address a connection holds is leased in the pool and
  held by no other connection (property 8.2 of the spec): no connection's
  `release_ip` returns an address another connection holds.
-/

namespace AeroNyx

/-- The address a phase holds a lease on. -/
def Phase.lease : Phase → Option String
  | .keyStored ip _ _ | .running _ ip | .closing _ ip _ => some ip
  | _ => none

/-- The address `allocate_ip` returned in an `allocate` step. -/
def Label.allocated : Label → Option String
  | .allocate (.ok ip) _ _ _ => some ip
  | _ => none

/-- Modelled from the spec: what the `release_ip` calls of a step do to the set
of addresses leased from the pool. -/
def releaseAll (leased : String → Bool) : List Call → String → Bool
  | [] => leased
  | .releaseIp ip :: calls => releaseAll (Function.update leased ip false) calls
  | _ :: calls => releaseAll leased calls

/-- Modelled from the spec: the leased set after a step of a connection. The
address `allocate_ip` returned is leased; each `release_ip` returns one. -/
def leasedAfter (leased : String → Bool) (l : Label) (calls : List Call) : String → Bool :=
  releaseAll (match l.allocated with
    | some ip => Function.update leased ip true
    | none => leased) calls

theorem releaseAll_of_none {leased : String → Bool} :
    ∀ {calls : List Call}, (∀ ip, Call.releaseIp ip ∉ calls) → releaseAll leased calls = leased
  | [], _ => rfl
  | c :: calls, h => by
    have ht : ∀ ip, Call.releaseIp ip ∉ calls := fun ip hm => h ip (List.mem_cons_of_mem _ hm)
    cases c with
    | releaseIp ip => exact absurd (List.mem_cons_self _ _) (h ip)
    | _ => show releaseAll leased calls = leased; exact releaseAll_of_none ht

/-- A step that releases at most `ip` leaves the other addresses as they were. -/
theorem releaseAll_other {ip a : String} (ha : a ≠ ip) :
    ∀ {leased : String → Bool} {calls : List Call}, (∀ ip', Call.releaseIp ip' ∈ calls → ip' = ip) →
      releaseAll leased calls a = leased a
  | _, [], _ => rfl
  | _, c :: calls, h => by
    have ht : ∀ ip', Call.releaseIp ip' ∈ calls → ip' = ip :=
      fun ip' hm => h ip' (List.mem_cons_of_mem _ hm)
    cases c with
    | releaseIp ip' =>
      have hip : ip' = ip := h ip' (List.mem_cons_self _ _)
      subst hip
      rw [releaseAll, releaseAll_other ha ht, Function.update_noteq ha]
    | _ => show releaseAll _ calls a = _; exact releaseAll_other ha ht

/-! ## What a step does to the lease -/

section Step

variable {sv : Services} {cr : Crypto} {peer : Peer}

/-- What a step can do to the connection's lease. -/
inductive LeaseStep (c : Conn) (l : Label) : List Call × Conn → Prop
  /-- It keeps the lease it holds, or holds none, and releases nothing. -/
  | keep {r : List Call × Conn} : l.allocated = none → r.2.phase.lease = c.phase.lease →
    (∀ ip, Call.releaseIp ip ∉ r.1) → LeaseStep c l r
  /-- `allocate_ip` returned `ip`, which the connection now holds. -/
  | acquire {r : List Call × Conn} (ip : String) : l.allocated = some ip → c.phase.lease = none →
    r.2.phase.lease = some ip → (∀ ip', Call.releaseIp ip' ∉ r.1) → LeaseStep c l r
  /-- It stops holding `ip`, and releases no other address. -/
  | drop {r : List Call × Conn} (ip : String) : l.allocated = none → c.phase.lease = some ip →
    r.2.phase.lease = none → (∀ ip', Call.releaseIp ip' ∈ r.1 → ip' = ip) → LeaseStep c l r

/-- **Every step is one of the three.** -/
theorem connStep_lease {st : Store} {c : Conn} {l : Label} {r : List Call × Conn}
    (h : connStep sv cr peer st c l = some r) : LeaseStep c l r := by
  cases l with
  | allocate ip randomId key sendOk =>
    simp only [connStep] at h
    split at h <;> cases h
    rename_i hph
    unfold allocateStep
    cases ip with
    | error e =>
      dsimp only
      split <;> exact .keep rfl (by simp [hph, Phase.lease]) (by simp)
    | ok ip => exact .acquire ip rfl (by simp [hph, Phase.lease]) rfl (by simp)
  | establish o =>
    simp only [connStep] at h
    split at h <;> cases h
    rename_i ip sessionId key hph
    unfold establishStep compensate assignStep
    repeat' split
    -- the one success keeps the lease; every failure gives it up
    all_goals try (refine .keep rfl ?_ ?_ <;> simp [hph, Phase.lease] <;> done)
    all_goals refine .drop ip rfl ?_ rfl ?_ <;> simp [hph, Phase.lease]
  | inbound ev =>
    simp only [connStep] at h
    split at h <;> cases h
    rename_i sessionId ip hph
    refine .keep rfl ?_ fun ip' hmem => ?_
    · rcases inboundConnStep_snd peer st c sessionId ip ev with ⟨last, hc'⟩ | ⟨res, hc'⟩ <;>
        simp [hc', hph, Phase.lease]
    · rw [inboundConnStep_fst] at hmem
      simpa [Call.isLoopCall] using inboundStep_calls _ _ _ _ hmem
  | heartbeat now sendOk =>
    simp only [connStep] at h
    split at h <;> cases h
    exact .keep rfl (by unfold heartbeatStep; split <;> rfl) (by simp [heartbeatStep])
  | rotate o =>
    simp only [connStep] at h
    split at h <;> cases h
    refine .keep rfl ?_ fun ip' hmem => ?_
    · rcases (rotateStep_spec cr peer st c o).2 with hc' | ⟨_, _, _, hc'⟩ <;> simp [hc']
    · rcases (rotateStep_spec cr peer st c o).1 _ hmem with h | h <;> cases h
  | rotationSend ok =>
    simp only [connStep] at h
    split at h <;> cases h
    exact .keep rfl rfl (by simp)
  | rotationStore =>
    simp only [connStep] at h
    split at h <;> cases h
    exact .keep rfl rfl (by simp)
  | teardown =>
    simp only [connStep] at h
    split at h <;> cases h
    rename_i sessionId ip res hph
    exact .drop ip rfl (by simp [hph, Phase.lease]) rfl (by simp)

end Step

/-! ## Connections leasing from one pool -/

/-- An engine together with the addresses leased from the pool. -/
structure Leasing (n : Nat) where
  engine : Engine n
  leased : String → Bool

section Engine

variable (sv : Services) (cr : Crypto) {n : Nat} (peers : Fin n → Peer)

/-- One step of connection `i` with the pool: `none` when the label does not
apply, or when it is an `allocate_ip` returning an address that is leased. -/
def Leasing.step (s : Leasing n) (i : Fin n) (l : Label) : Option (Leasing n) :=
  if l.allocated.any s.leased then none
  else (connStep sv cr (peers i) s.engine.store (s.engine.conns i) l).map fun r =>
    ⟨⟨s.engine.store.applyAll r.1, Function.update s.engine.conns i r.2,
      Function.update s.engine.logs i (s.engine.logs i ++ r.1)⟩, leasedAfter s.leased l r.1⟩

/-- The engines and leased sets an interleaving reaches from `Engine.start st`
and the leased set `pool`. -/
inductive LeaseReachable (st : Store) (pool : String → Bool) : Leasing n → Prop
  | start : LeaseReachable st pool ⟨Engine.start st, pool⟩
  | step {s s' : Leasing n} (i : Fin n) (l : Label) :
    LeaseReachable st pool s → s.step sv cr peers i l = some s' → LeaseReachable st pool s'

/-- A given interleaving, as a list of (connection, label) pairs. -/
def Leasing.run : Leasing n → List (Fin n × Label) → Option (Leasing n)
  | s, [] => some s
  | s, (i, l) :: ls => (s.step sv cr peers i l).bind fun s' => Leasing.run s' ls

/-- The leases the connections hold are leased in the pool, and no two
connections hold the same address. -/
structure LeaseInv (s : Leasing n) : Prop where
  leased : ∀ i ip, (s.engine.conns i).phase.lease = some ip → s.leased ip = true
  exclusive : ∀ i j ip, (s.engine.conns i).phase.lease = some ip →
    (s.engine.conns j).phase.lease = some ip → i = j

variable {sv cr peers}

theorem LeaseReachable.run {st : Store} {pool : String → Bool} :
    ∀ {s s' : Leasing n} (ls : List (Fin n × Label)),
      LeaseReachable sv cr peers st pool s → s.run sv cr peers ls = some s' →
        LeaseReachable sv cr peers st pool s'
  | _, _, [], hr, h => by cases h; exact hr
  | s, _, (i, l) :: ls, hr, h => by
    simp only [Leasing.run, Option.bind_eq_some] at h
    obtain ⟨s₁, h₁, h₂⟩ := h
    exact LeaseReachable.run ls (.step i l hr h₁) h₂

/-- A step with the pool is a step of one connection whose `allocate_ip`, if it
is one, returned an address that was not leased. -/
theorem Leasing.step_eq {s s' : Leasing n} {i : Fin n} {l : Label}
    (h : s.step sv cr peers i l = some s') :
    (∀ ip, l.allocated = some ip → s.leased ip = false) ∧
    ∃ r, connStep sv cr (peers i) s.engine.store (s.engine.conns i) l = some r ∧
      s' = ⟨⟨s.engine.store.applyAll r.1, Function.update s.engine.conns i r.2,
        Function.update s.engine.logs i (s.engine.logs i ++ r.1)⟩, leasedAfter s.leased l r.1⟩ := by
  unfold Leasing.step at h
  split at h
  · cases h
  · rename_i hfree
    obtain ⟨r, hr, rfl⟩ := Option.map_eq_some'.1 h
    refine ⟨fun ip hip => ?_, r, hr, rfl⟩
    simpa [hip] using hfree

/-- **One step keeps the leases exclusive.** -/
theorem LeaseInv.step {s s' : Leasing n} {j : Fin n} {l : Label}
    (h : s.step sv cr peers j l = some s') (hi : LeaseInv s) : LeaseInv s' := by
  obtain ⟨hfree, r, hstep, rfl⟩ := Leasing.step_eq h
  have other : ∀ i, i ≠ j → Function.update s.engine.conns j r.2 i = s.engine.conns i :=
    fun i hij => Function.update_noteq hij _ _
  cases connStep_lease hstep with
  | keep hnone hlease hrel =>
    have hall : ∀ i, (Function.update s.engine.conns j r.2 i).phase.lease =
        (s.engine.conns i).phase.lease := fun i => by
      by_cases hij : i = j
      · subst hij; simpa using hlease
      · rw [other i hij]
    have hpool : leasedAfter s.leased l r.1 = s.leased := by
      rw [leasedAfter, hnone, releaseAll_of_none hrel]
    refine ⟨fun i ip hip => ?_, fun i k ip hip hkp => ?_⟩
    · dsimp only at hip ⊢
      rw [hpool]
      exact hi.leased i ip ((hall i).symm.trans hip)
    · dsimp only at hip hkp
      exact hi.exclusive i k ip ((hall i).symm.trans hip) ((hall k).symm.trans hkp)
  | acquire ip hsome _ hlease hrel =>
    -- the pool handed out `ip` free, so no connection held it
    have hfree' : s.leased ip = false := hfree ip hsome
    have hunheld : ∀ i, (s.engine.conns i).phase.lease ≠ some ip := fun i hip => by
      simp [hi.leased i ip hip] at hfree'
    have hpool : leasedAfter s.leased l r.1 = Function.update s.leased ip true := by
      rw [leasedAfter, hsome, releaseAll_of_none hrel]
    have hnew : ∀ i a, (Function.update s.engine.conns j r.2 i).phase.lease = some a →
        (i = j ∧ a = ip) ∨ (i ≠ j ∧ (s.engine.conns i).phase.lease = some a) := fun i a hia => by
      by_cases hij : i = j
      · subst hij
        simp only [Function.update_same, hlease, Option.some.injEq] at hia
        exact .inl ⟨rfl, hia.symm⟩
      · exact .inr ⟨hij, by rwa [other i hij] at hia⟩
    refine ⟨fun i a hia => ?_, fun i k a hia hka => ?_⟩
    · dsimp only at hia ⊢
      rw [hpool]
      rcases hnew i a hia with ⟨-, rfl⟩ | ⟨-, hia⟩
      · exact Function.update_same _ _ _
      · by_cases ha : a = ip
        · subst ha
          exact Function.update_same _ _ _
        · rw [Function.update_noteq ha]
          exact hi.leased i a hia
    · dsimp only at hia hka
      rcases hnew i a hia with ⟨hij, hai⟩ | ⟨-, hia⟩ <;>
        rcases hnew k a hka with ⟨hkj, hak⟩ | ⟨-, hka⟩
      · exact hij.trans hkj.symm
      · exact absurd (hai ▸ hka) (hunheld k)
      · exact absurd (hak ▸ hia) (hunheld i)
      · exact hi.exclusive i k a hia hka
  | drop ip hnone hheld hlease hrel =>
    -- `j` held `ip`, so no other connection did, and `j` releases nothing else
    have hnew : ∀ i a, (Function.update s.engine.conns j r.2 i).phase.lease = some a →
        i ≠ j ∧ (s.engine.conns i).phase.lease = some a := fun i a hia => by
      by_cases hij : i = j
      · subst hij; simp [hlease] at hia
      · exact ⟨hij, by rwa [other i hij] at hia⟩
    refine ⟨fun i a hia => ?_, fun i k a hia hka => ?_⟩
    · dsimp only at hia ⊢
      obtain ⟨hij, hia⟩ := hnew i a hia
      have ha : a ≠ ip := fun ha => hij (hi.exclusive i j a hia (ha ▸ hheld))
      rw [leasedAfter, hnone, releaseAll_other ha hrel]
      exact hi.leased i a hia
    · dsimp only at hia hka
      exact hi.exclusive i k a (hnew i a hia).2 (hnew k a hka).2

/-- Every engine reached with the pool keeps the leases exclusive. -/
theorem LeaseReachable.inv {st : Store} {pool : String → Bool} {s : Leasing n}
    (hr : LeaseReachable sv cr peers st pool s) : LeaseInv s := by
  induction hr with
  | start => exact ⟨fun _ _ h => (nomatch h), fun _ _ _ h => (nomatch h)⟩
  | step _ _ _ h ih => exact ih.step h

end Engine

/-- **No two connections hold the same address.** In any interleaving of
connections over a pool from which `allocate_ip` hands out only addresses that
are not leased: an address a connection holds, from its `allocate_ip` until it
releases it or returns, is leased in the pool, and no other connection holds
it at the same time. In particular no connection's `release_ip` returns to the
pool an address another connection holds. -/
theorem leases_exclusive {sv : Services} {cr : Crypto} {n : Nat} {peers : Fin n → Peer}
    {st : Store} {pool : String → Bool} {s : Leasing n}
    (hr : LeaseReachable sv cr peers st pool s) {i j : Fin n} {ip : String} (hij : i ≠ j)
    (hip : (s.engine.conns i).phase.lease = some ip) :
    s.leased ip = true ∧ (s.engine.conns j).phase.lease ≠ some ip :=
  ⟨hr.inv.leased i ip hip, fun hjp => hij (hr.inv.exclusive i j ip hip hjp)⟩

/-- Both connections of the two-connection engine establish their sessions,
from a pool where nothing is leased. -/
def pairLeasing : Leasing 2 :=
  ((⟨Engine.start Store.empty, fun _ => false⟩ : Leasing 2).run Services.lenient concatCrypto
    pairPeers pairSteps).getD ⟨Engine.start Store.empty, fun _ => false⟩

/-- The hypotheses hold of the first connection of the two-connection engine,
which holds `10.7.0.2`. -/
theorem leases_exclusive_pair :
    LeaseReachable Services.lenient concatCrypto pairPeers Store.empty (fun _ => false)
      pairLeasing ∧ (0 : Fin 2) ≠ 1 ∧ (pairLeasing.engine.conns 0).phase.lease = some "10.7.0.2" ∧
    pairLeasing.leased "10.7.0.2" = true ∧ (pairLeasing.engine.conns 1).phase.lease ≠ some "10.7.0.2" :=
  have hr : LeaseReachable Services.lenient concatCrypto pairPeers Store.empty (fun _ => false)
      pairLeasing := LeaseReachable.run pairSteps .start rfl
  have hij : (0 : Fin 2) ≠ 1 := by decide
  ⟨hr, hij, rfl, leases_exclusive hr hij (by rfl)⟩

end AeroNyx
