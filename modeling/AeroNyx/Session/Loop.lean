import Mathlib.Data.List.Chain
import AeroNyx.Protocol.Types

/-!
# The inbound loop of `process_client_session`

The main message processing loop of `process_client_session`
(client.rs:418–565), one iteration at a time. An iteration reads the global
`ServerState`, and if it is not `Running` sends the shutdown `Disconnect` and
leaves; otherwise it awaits one frame and dispatches it: `Data` through the
replay check to the router, `Ping` to a `Pong`, a matching `IpRenewal` to
`renew_ip` and an `IpRenewalResponse`, `Disconnect` out of the loop, anything
else dropped.

Everything the environment decides in an iteration (the state read, the frame,
the clock, the key the store returns, the lease renewal, the outcome of the one
send) is a `LoopEvent`; a run is a list of them. `inboundStep` is the iteration,
`inboundLoop` the run. Over them:

- `inboundLoop_exit` — the loop stops exactly at the first event the
  specification lists as an exit, with `Ok` or `Err` as it says, and ignores
  everything after it;
- `inboundLoop_io` — under `Running`, what the loop reads and sends is exactly
  one read per processed frame followed by that frame's own response;
- `inboundLoop_counters` — the counters the replay check lets through increase,
  except that `0` is let through after any counter.

The network-monitor calls (`record_client_traffic`, `record_sent`,
`record_latency`) and `update_activity` do not influence control flow or what is
sent, and are left out.
-/

namespace AeroNyx

/-- The fields of a `ClientSession` (`server/session.rs`, absent) the engine
reads: `id`, `client_id`, `ip_address`, and the peer `address`. The send and
receive halves are the transport, whose traffic is the call log. -/
structure ClientSession where
  id : String
  clientId : String
  ipAddress : String
  address : String
deriving DecidableEq, Repr

/-! ## The replay check -/

/-- The replay check of the `Data` arm (client.rs:445–450): with a previous
counter `last`, a frame is dropped when `counter <= last && counter != 0`. -/
def replayed : Option UInt64 → UInt64 → Bool
  | some last, counter => counter ≤ last && counter != 0
  | none, _ => false

/-- What the check lets through after a previous counter `l`: a larger counter,
or `0` (the carve-out the source comments as the `u64` wrap-around). -/
theorem replayed_eq_false {l c : UInt64} (h : replayed (some l) c = false) :
    l < c ∨ c = 0 := by
  by_cases hc : c = 0
  · exact .inr hc
  · simpa [replayed, hc] using h

/-! ## One iteration -/

/-- What the environment decides in one iteration of the loop. -/
structure LoopEvent where
  /-- `*server_state.read().await` at the top of the iteration. -/
  state : ServerState
  /-- `session.next_message().await`, decoded. -/
  frame : Inbound
  /-- `current_timestamp_millis()`. -/
  now : UInt64
  /-- `session_key_manager.get_key(&client_id).await`. -/
  key : Option Bytes
  /-- `ip_pool.renew_ip(&ip_address).await`. -/
  renew : Except String UInt64
  /-- Whether the iteration's one `send_packet` succeeds. -/
  sendOk : Bool

/-- How an iteration ends: on to the next one with the new `last_counter`, or
out of the loop with `process_result`. -/
inductive Flow where
  | next (last : Option UInt64)
  | exit (r : Except ServerError Unit)

/-- The loop's result, if the iteration left it. -/
def Flow.result : Flow → Option (Except ServerError Unit)
  | next _ => none
  | exit r => some r

/-- A required response: `send_packet(&p)`, and on failure
`process_result = Err(ServerError::Network(msg)); break;` (client.rs:478, 511,
525). -/
def respond (last : Option UInt64) (p : PacketType) (ok : Bool) (msg : String) :
    List Call × Flow :=
  ([.send p ok], if ok then .next last else .exit (.error (.network msg)))

/-- The `IpRenewal` arm (client.rs:493–532): both fields must be the session's,
then `renew_ip` and a response carrying its outcome. -/
def renewal (s : ClientSession) (last : Option UInt64) (ev : LoopEvent)
    (renewalId renewalIp : String) : List Call × Flow :=
  if renewalId ≠ s.id then ([], .next last)
  else if renewalIp ≠ s.ipAddress then ([], .next last)
  else
    let r := match ev.renew with
      | .ok expiresAt => respond last (.ipRenewalResponse s.id expiresAt true) ev.sendOk
          "IP renewal response send failed"
      | .error _ => respond last (.ipRenewalResponse s.id 0 false) ev.sendOk
          "Failed IP renewal response send failed"
    (.renewIp s.ipAddress :: r.1, r.2)

/-- The dispatch of a decoded packet (client.rs:442–542). -/
def dispatch (s : ClientSession) (last : Option UInt64) (ev : LoopEvent) :
    PacketType → List Call × Flow
  | .data encrypted nonce counter _ =>
    if replayed last counter then ([], .next last)
    else
      let calls := [.acceptCounter counter, .getKey s.clientId]
      match ev.key with
      | some key => (calls ++ [.route encrypted nonce key], .next (some counter))
      | none => (calls, .next (some counter))
  | .ping timestamp sequence =>
    respond last (.pong timestamp ev.now sequence) ev.sendOk "Pong send failed"
  | .ipRenewal renewalId renewalIp => renewal s last ev renewalId renewalIp
  | .disconnect _ _ => ([], .exit (.ok ()))
  | _ => ([], .next last)

/-- One iteration of the main loop (client.rs:422–564). -/
def inboundStep (s : ClientSession) (last : Option UInt64) (ev : LoopEvent) :
    List Call × Flow :=
  if ev.state ≠ .running then
    ([.send (createDisconnectPacket 2 "Server shutting down") ev.sendOk],
      .exit (.error (.internal "Server shutting down")))
  else
    match ev.frame with
    | .packet p =>
      let r := dispatch s last ev p
      (.recv :: r.1, r.2)
    | .undecodable _ => ([.recv], .next last)
    | .transportError e => ([.recv], .exit (.error (.webSocket e)))
    | .closed => ([.recv], .exit (.ok ()))

/-- The loop over a list of events: the calls made, and `process_result` once
the loop has left (`none` while it is still running). -/
def inboundLoop (s : ClientSession) :
    Option UInt64 → List LoopEvent → List Call × Option (Except ServerError Unit)
  | _, [] => ([], none)
  | last, ev :: evs =>
    match (inboundStep s last ev).2 with
    | .exit r => ((inboundStep s last ev).1, some r)
    | .next last' => ((inboundStep s last ev).1 ++ (inboundLoop s last' evs).1,
        (inboundLoop s last' evs).2)

/-! ## Exits -/

/-- The events at which the specification says the loop stops (§4.F, §7):
(a) a non-`Running` state, (b) a transport error, (c) end of stream, (d) a
`Disconnect` frame, (e) a failed send of a `Pong` or an `IpRenewalResponse`. -/
inductive LoopExit where
  | shutdown
  | transportError
  | endOfStream
  | disconnect
  | sendFailed
deriving DecidableEq, Repr

/-- The exits after which the loop returns `Ok`: (c) and (d). -/
def LoopExit.isOk : LoopExit → Bool
  | endOfStream | disconnect => true
  | _ => false

/-- The exit, if any, a decoded packet causes under `Running`, in the
specification's words. -/
def packetExit (s : ClientSession) (ev : LoopEvent) : PacketType → Option LoopExit
  | .disconnect _ _ => some .disconnect
  | .ping _ _ => if ev.sendOk then none else some .sendFailed
  | .ipRenewal sid ip =>
    if sid = s.id ∧ ip = s.ipAddress ∧ ev.sendOk = false then some .sendFailed else none
  | _ => none

/-- The exit, if any, an event causes, in the specification's words. -/
def loopExit (s : ClientSession) (ev : LoopEvent) : Option LoopExit :=
  if ev.state ≠ .running then some .shutdown
  else match ev.frame with
    | .closed => some .endOfStream
    | .transportError _ => some .transportError
    | .undecodable _ => none
    | .packet p => packetExit s ev p

theorem respond_result (last : Option UInt64) (p : PacketType) (ok : Bool) (msg : String) :
    (respond last p ok msg).2.result.map Except.toBool = if ok then none else some false := by
  cases ok <;> rfl

theorem renewal_result (s : ClientSession) (last : Option UInt64) (ev : LoopEvent)
    (sid ip : String) :
    (renewal s last ev sid ip).2.result.map Except.toBool =
      if sid = s.id ∧ ip = s.ipAddress ∧ ev.sendOk = false then some false else none := by
  unfold renewal
  by_cases h1 : sid = s.id
  · by_cases h2 : ip = s.ipAddress
    · subst h1 h2
      cases ev.renew <;> cases ev.sendOk <;> simp [respond, Flow.result, Except.toBool]
    · simp [h1, h2, Flow.result]
  · simp [h1, Flow.result]

theorem dispatch_data_result (s : ClientSession) (last : Option UInt64) (ev : LoopEvent)
    (e n : Bytes) (c : UInt64) (p : Option Bytes) :
    (dispatch s last ev (.data e n c p)).2.result = none := by
  simp only [dispatch]
  split
  · rfl
  · cases ev.key <;> rfl

theorem dispatch_result (s : ClientSession) (last : Option UInt64) (ev : LoopEvent)
    (p : PacketType) :
    (dispatch s last ev p).2.result.map Except.toBool = (packetExit s ev p).map LoopExit.isOk := by
  cases p with
  | data => simp [dispatch_data_result, packetExit]
  | ping => simp only [dispatch, respond_result, packetExit]; cases ev.sendOk <;> rfl
  | ipRenewal => simp only [dispatch, renewal_result, packetExit]; split <;> rfl
  | _ => rfl

/-- **The step's exit is the specification's**: an iteration leaves the loop
exactly on the events `loopExit` lists, with `Ok` exactly on (c) and (d). -/
theorem inboundStep_result (s : ClientSession) (last : Option UInt64) (ev : LoopEvent) :
    (inboundStep s last ev).2.result.map Except.toBool = (loopExit s ev).map LoopExit.isOk := by
  unfold inboundStep loopExit
  split
  · rfl
  · cases ev.frame with
    | packet p => exact dispatch_result s last ev p
    | _ => rfl

theorem inboundStep_exit_isSome (s : ClientSession) (last : Option UInt64) (ev : LoopEvent) :
    (inboundStep s last ev).2.result.isSome = (loopExit s ev).isSome := by
  simpa using congrArg Option.isSome (inboundStep_result s last ev)

/-- The calls an iteration of the loop can make: reads, the three kinds of
frames it sends, lease renewals, the key lookup for its own client, hand-offs to
the router with the key that lookup returned, and the replay bookkeeping. -/
def Call.isLoopCall (clientId : String) (key : Option Bytes) : Call → Bool
  | .recv | .renewIp _ | .acceptCounter _ => true
  | .send (.pong _ _ _) _ | .send (.ipRenewalResponse _ _ _) _ | .send (.disconnect _ _) _ => true
  | .getKey q => q == clientId
  | .route _ _ k => key == some k
  | _ => false

/-- Every call an iteration makes is a loop call of its session's client, with
the key `get_key` returns. -/
theorem inboundStep_calls (s : ClientSession) (last : Option UInt64) (ev : LoopEvent) :
    ∀ c ∈ (inboundStep s last ev).1, c.isLoopCall s.clientId ev.key = true := by
  unfold inboundStep
  split
  · simp [Call.isLoopCall, createDisconnectPacket]
  · cases ev.frame with
    | packet p =>
      cases p with
      | data =>
        simp only [dispatch]
        split
        · simp [Call.isLoopCall]
        · cases ev.key <;> simp [Call.isLoopCall]
      | ping => simp [dispatch, respond, Call.isLoopCall]
      | ipRenewal sid ip =>
        simp only [dispatch, renewal]
        split_ifs
        · simp [Call.isLoopCall]
        · simp [Call.isLoopCall]
        · cases ev.renew <;> simp [respond, Call.isLoopCall]
      | _ => simp [dispatch, Call.isLoopCall]
    | _ => simp [Call.isLoopCall]

/-- The key an iteration hands to the router is the one `get_key` returned. -/
theorem inboundStep_route {s : ClientSession} {last : Option UInt64} {ev : LoopEvent}
    {e n k : Bytes} (h : Call.route e n k ∈ (inboundStep s last ev).1) : ev.key = some k := by
  simpa [Call.isLoopCall] using inboundStep_calls s last ev _ h

theorem isLoopCall_clientOf {clientId : String} {key : Option Bytes} {c : Call}
    (h : c.isLoopCall clientId key = true)
    {q : String} (hq : c.clientOf = some q) : q = clientId := by
  cases c <;> simp_all [Call.isLoopCall, Call.clientOf]

/-- The only client an iteration names is its session's (`get_key`). -/
theorem inboundStep_boundTo (s : ClientSession) (last : Option UInt64) (ev : LoopEvent) :
    BoundTo s.clientId (inboundStep s last ev).1 :=
  fun c hc _ hq => isLoopCall_clientOf (inboundStep_calls s last ev c hc) hq

/-! ## Runs -/

section Run

variable {s : ClientSession} {last : Option UInt64} {ev : LoopEvent}

theorem inboundLoop_cons_exit {r : Except ServerError Unit} (evs : List LoopEvent)
    (h : (inboundStep s last ev).2 = .exit r) :
    inboundLoop s last (ev :: evs) = ((inboundStep s last ev).1, some r) := by
  simp [inboundLoop, h]

theorem inboundLoop_cons_next {last' : Option UInt64} (evs : List LoopEvent)
    (h : (inboundStep s last ev).2 = .next last') :
    inboundLoop s last (ev :: evs) =
      ((inboundStep s last ev).1 ++ (inboundLoop s last' evs).1, (inboundLoop s last' evs).2) := by
  simp [inboundLoop, h]

/-- An iteration the specification does not list as an exit goes on. -/
theorem inboundStep_next_of_loopExit (last : Option UInt64) (h : loopExit s ev = none) :
    ∃ last', (inboundStep s last ev).2 = .next last' := by
  have := inboundStep_exit_isSome s last ev
  cases hf : (inboundStep s last ev).2 with
  | next last' => exact ⟨last', rfl⟩
  | exit r => simp [hf, h, Flow.result] at this

/-- An iteration the specification lists as an exit leaves the loop. -/
theorem inboundStep_exit_of_loopExit (last : Option UInt64) (h : (loopExit s ev).isSome) :
    ∃ r, (inboundStep s last ev).2 = .exit r := by
  have := inboundStep_exit_isSome s last ev
  cases hf : (inboundStep s last ev).2 with
  | next last' => simp [hf, h, Flow.result] at this
  | exit r => exact ⟨r, rfl⟩

theorem inboundLoop_result (s : ClientSession) :
    ∀ (last : Option UInt64) (evs : List LoopEvent),
      (inboundLoop s last evs).2.map Except.toBool =
        (evs.findSome? (loopExit s)).map LoopExit.isOk
  | _, [] => rfl
  | last, ev :: evs => by
    have h := inboundStep_result s last ev
    cases hf : (inboundStep s last ev).2 with
    | exit r =>
      rw [inboundLoop_cons_exit evs hf]
      cases hk : loopExit s ev with
      | none => simp [hf, hk, Flow.result] at h
      | some k => simpa [List.findSome?_cons, hk, hf, Flow.result] using h
    | next last' =>
      rw [inboundLoop_cons_next evs hf]
      cases hk : loopExit s ev with
      | none => simpa [List.findSome?_cons, hk] using inboundLoop_result s last' evs
      | some k => simp [hf, hk, Flow.result] at h

theorem inboundLoop_stops (s : ClientSession) :
    ∀ (last : Option UInt64) (pre : List LoopEvent) (ev : LoopEvent) (post : List LoopEvent),
      (∀ e ∈ pre, loopExit s e = none) → (loopExit s ev).isSome →
        inboundLoop s last (pre ++ ev :: post) = inboundLoop s last (pre ++ [ev])
  | last, [], ev, post, _, hx => by
    obtain ⟨r, hr⟩ := inboundStep_exit_of_loopExit last hx
    simp [inboundLoop_cons_exit _ hr]
  | last, e :: pre, ev, post, hpre, hx => by
    obtain ⟨last', hn⟩ :=
      inboundStep_next_of_loopExit last (hpre e (List.mem_cons_self e pre))
    simp only [List.cons_append, inboundLoop_cons_next _ hn,
      inboundLoop_stops s last' pre ev post (fun e' he' => hpre e' (List.mem_cons_of_mem e he')) hx]

/-- **Exit discipline of the inbound loop.** Over every run: the loop's result
is `Ok` or `Err` exactly as the first event `loopExit` lists says, and `none`
(still running) when there is none; nothing after that event is read or done;
and an iteration that sees a non-`Running` state only sends
`Disconnect{reason = 2}` and returns `Err`, dispatching no frame. -/
theorem inboundLoop_exit (s : ClientSession) (last : Option UInt64) :
    (∀ evs : List LoopEvent, (inboundLoop s last evs).2.map Except.toBool =
        (evs.findSome? (loopExit s)).map LoopExit.isOk) ∧
    (∀ (pre : List LoopEvent) (ev : LoopEvent) (post : List LoopEvent),
        (∀ e ∈ pre, loopExit s e = none) → (loopExit s ev).isSome →
          inboundLoop s last (pre ++ ev :: post) = inboundLoop s last (pre ++ [ev])) ∧
    (∀ (last' : Option UInt64) (ev : LoopEvent), ev.state ≠ .running →
        inboundStep s last' ev =
          ([.send (createDisconnectPacket 2 "Server shutting down") ev.sendOk],
            .exit (.error (.internal "Server shutting down")))) :=
  ⟨inboundLoop_result s last, inboundLoop_stops s last,
    fun _ _ h => by simp [inboundStep, h]⟩

/-! ## What the loop reads and sends -/

/-- The calls a reader of the transport and of the IP pool sees: reads, sends
and lease renewals. -/
def Call.isIo : Call → Bool
  | .recv | .send _ _ | .renewIp _ => true
  | _ => false

/-- The specification's reading of what one processed frame makes the loop do
on the wire and at the IP pool: read it, then answer a `Ping` with its `Pong`
and a matching `IpRenewal` with `renew_ip` and a response carrying its outcome
(`expires_at = 0, success = false` on failure). -/
def expectedIo (s : ClientSession) (ev : LoopEvent) : List Call :=
  .recv :: match ev.frame with
    | .packet (.ping t seq) => [.send (.pong t ev.now seq) ev.sendOk]
    | .packet (.ipRenewal sid ip) =>
      if sid = s.id ∧ ip = s.ipAddress then
        [.renewIp s.ipAddress,
          .send (.ipRenewalResponse s.id (ev.renew.toOption.getD 0) ev.renew.toBool) ev.sendOk]
      else []
    | _ => []

/-- `expectedIo` over the frames a run processes: up to and including the first
exit. -/
def expectedRun (s : ClientSession) : List LoopEvent → List Call
  | [] => []
  | ev :: evs => expectedIo s ev ++ if (loopExit s ev).isSome then [] else expectedRun s evs

theorem renewal_io (last : Option UInt64) (sid ip : String) :
    (renewal s last ev sid ip).1.filter Call.isIo =
      if sid = s.id ∧ ip = s.ipAddress then
        [.renewIp s.ipAddress,
          .send (.ipRenewalResponse s.id (ev.renew.toOption.getD 0) ev.renew.toBool) ev.sendOk]
      else [] := by
  unfold renewal
  by_cases h1 : sid = s.id
  · by_cases h2 : ip = s.ipAddress
    · subst h1 h2
      cases ev.renew <;> simp [respond, Call.isIo, Except.toOption, Except.toBool]
    · simp [h1, h2]
  · simp [h1]

/-- Under `Running`, one iteration reads its frame and sends that frame's own
response, and nothing else. -/
theorem inboundStep_io (s : ClientSession) (last : Option UInt64) (h : ev.state = .running) :
    (inboundStep s last ev).1.filter Call.isIo = expectedIo s ev := by
  simp only [inboundStep, h, ne_eq, not_true_eq_false, if_false, expectedIo]
  cases ev.frame with
  | packet p =>
    cases p with
    | data =>
      simp only [dispatch]
      split
      · rfl
      · cases ev.key <;> rfl
    | ping => simp [dispatch, respond, Call.isIo]
    | ipRenewal sid ip => simpa [dispatch, Call.isIo] using renewal_io last sid ip
    | _ => rfl
  | _ => rfl

theorem inboundLoop_io (s : ClientSession) :
    ∀ (last : Option UInt64) (evs : List LoopEvent), (∀ ev ∈ evs, ev.state = .running) →
      (inboundLoop s last evs).1.filter Call.isIo = expectedRun s evs
  | _, [], _ => rfl
  | last, ev :: evs, h => by
    have hio := inboundStep_io s last (h ev (List.mem_cons_self ev evs))
    cases hx : loopExit s ev with
    | some k =>
      have hs : (loopExit s ev).isSome := by rw [hx]; rfl
      obtain ⟨r, hr⟩ := inboundStep_exit_of_loopExit last hs
      simp [inboundLoop_cons_exit _ hr, hio, expectedRun, hx]
    | none =>
      obtain ⟨last', hn⟩ := inboundStep_next_of_loopExit last hx
      simp [inboundLoop_cons_next _ hn, hio, expectedRun, hx,
        inboundLoop_io s last' evs (fun e he => h e (List.mem_cons_of_mem ev he))]

theorem inboundLoop_io_ping :
    (∀ ev ∈ [(⟨.running, .packet (.ping 7 1), 9, none, .error "lease", true⟩ : LoopEvent)],
        ev.state = .running) ∧
    (inboundLoop ⟨"session_a1", "Abc", "10.7.0.2", "10.0.0.9:4000"⟩ none
        [⟨.running, .packet (.ping 7 1), 9, none, .error "lease", true⟩]).1.filter Call.isIo =
      expectedRun ⟨"session_a1", "Abc", "10.7.0.2", "10.0.0.9:4000"⟩
        [⟨.running, .packet (.ping 7 1), 9, none, .error "lease", true⟩] :=
  ⟨by decide, inboundLoop_io _ _ _ (by decide)⟩

/-! ## Accepted counters -/

/-- The counter a call records as let through by the replay check. -/
@[simp] def Call.accepted : Call → Option UInt64
  | .acceptCounter c => some c
  | _ => none

/-- The `Data` counters the replay check let through, in order. -/
def acceptedCounters (calls : List Call) : List UInt64 :=
  calls.filterMap Call.accepted

@[simp] theorem acceptedCounters_nil : acceptedCounters [] = [] := rfl

@[simp] theorem acceptedCounters_cons (c : Call) (l : List Call) :
    acceptedCounters (c :: l) = c.accepted.toList ++ acceptedCounters l := by
  rw [acceptedCounters, List.filterMap_cons]
  cases c.accepted <;> rfl

@[simp] theorem acceptedCounters_append (l₁ l₂ : List Call) :
    acceptedCounters (l₁ ++ l₂) = acceptedCounters l₁ ++ acceptedCounters l₂ :=
  List.filterMap_append _ _ _

/-- The order the check enforces between two consecutive accepted counters. -/
def Advances (c c' : UInt64) : Prop := c < c' ∨ c' = 0

theorem respond_accepts (p : PacketType) (ok : Bool) (msg : String) :
    acceptedCounters (respond last p ok msg).1 = [] ∧
      ∀ l, (respond last p ok msg).2 = .next l → l = last := by
  cases ok <;> simp [respond]

theorem renewal_accepts (sid ip : String) :
    acceptedCounters (renewal s last ev sid ip).1 = [] ∧
      ∀ l, (renewal s last ev sid ip).2 = .next l → l = last := by
  unfold renewal
  split_ifs
  · simp
  · simp
  · cases ev.renew <;> simpa using respond_accepts _ _ _

/-- One iteration lets at most one counter through, one the check accepts, and
it becomes the new `last_counter`; otherwise `last_counter` is unchanged. -/
theorem inboundStep_accepts (s : ClientSession) (last : Option UInt64) (ev : LoopEvent) :
    (acceptedCounters (inboundStep s last ev).1 = [] ∧
        ∀ l, (inboundStep s last ev).2 = .next l → l = last) ∨
      ∃ c, replayed last c = false ∧ acceptedCounters (inboundStep s last ev).1 = [c] ∧
        (inboundStep s last ev).2 = .next (some c) := by
  unfold inboundStep
  split
  · simp
  · cases ev.frame with
    | packet p =>
      cases p with
      | data e n c pad =>
        simp only [dispatch]
        split
        · simp
        · rename_i h
          cases ev.key <;> simp [h]
      | ping => simpa [dispatch] using .inl (respond_accepts _ _ _)
      | ipRenewal sid ip => simpa [dispatch] using .inl (renewal_accepts sid ip)
      | _ => simp [dispatch]
    | _ => simp

theorem inboundLoop_counters_from (s : ClientSession) :
    ∀ (last : Option UInt64) (evs : List LoopEvent),
      (last.toList ++ acceptedCounters (inboundLoop s last evs).1).Chain' Advances
  | none, [] => List.chain'_nil
  | some l, [] => List.chain'_singleton l
  | last, ev :: evs => by
    rcases inboundStep_accepts s last ev with ⟨h0, hl⟩ | ⟨c, hc, h1, hn⟩
    · cases hf : (inboundStep s last ev).2 with
      | exit r =>
        rw [inboundLoop_cons_exit _ hf, h0, List.append_nil]
        cases last
        · exact List.chain'_nil
        · exact List.chain'_singleton _
      | next l' =>
        obtain rfl := hl l' hf
        simpa [inboundLoop_cons_next _ hf, h0] using inboundLoop_counters_from s l' evs
    · have ih := inboundLoop_counters_from s (some c) evs
      rw [inboundLoop_cons_next _ hn, acceptedCounters_append, h1]
      cases last with
      | none => simpa using ih
      | some l => exact List.Chain'.cons (replayed_eq_false hc) ih

/-- **What the replay check guarantees over a run**: of two consecutive counters
it lets through, the second is larger or is `0`. -/
theorem inboundLoop_counters (s : ClientSession) (evs : List LoopEvent) :
    (acceptedCounters (inboundLoop s none evs).1).Chain' Advances := by
  simpa using inboundLoop_counters_from s none evs

/-- The `0` carve-out at work: after counter `1`, a frame with counter `0` is let
through and resets `last_counter`, after which a replay of the first frame is
let through again and handed to the router a second time. -/
theorem inboundLoop_routes_replayed_frame :
    acceptedCounters (inboundLoop ⟨"session_a1", "Abc", "10.7.0.2", "10.0.0.9:4000"⟩ none
        [⟨.running, .packet (.data [1] [] 1 none), 0, some [7], .error "", true⟩,
         ⟨.running, .packet (.data [2] [] 0 none), 0, some [7], .error "", true⟩,
         ⟨.running, .packet (.data [1] [] 1 none), 0, some [7], .error "", true⟩]).1 = [1, 0, 1] ∧
    (inboundLoop ⟨"session_a1", "Abc", "10.7.0.2", "10.0.0.9:4000"⟩ none
        [⟨.running, .packet (.data [1] [] 1 none), 0, some [7], .error "", true⟩,
         ⟨.running, .packet (.data [2] [] 0 none), 0, some [7], .error "", true⟩,
         ⟨.running, .packet (.data [1] [] 1 none), 0, some [7], .error "", true⟩]).1.count
      (.route [1] [] [7]) = 2 := by
  decide

end Run

end AeroNyx
