import DgProto.Server.Hooks

/-!
# A server can be shut down

`Close` waits for the workers, a worker waits for its connection and for the callbacks, and a
connection waits for its own goroutines and its handler.  If the callbacks return without waiting
for the shutdown and every `Serve` is on the listener that the shutdown closes, none of these
waits is for ever: whatever a server and its connections are doing when `Close` or `Abort` is
called, all goroutines can run to their end without any further call.  Between two instructions
of the server a whole connection may come to its end (`Stopping.ends`).

What a `Close` that has returned leaves behind is a matter of safety and comes first.
-/

namespace DgProto

open Library Crypto

/-! ## What a returned `Close` leaves behind -/

section Returned

variable {N : HandshakePrimitives} {P : Primitives} {config : ServerSetup} {s : Server}
  {i : ServerInstr} {effect : Effect Server ServerInstr} {n : Nat}
  {before after pool : Pool Server ServerInstr}

/-- Without workers nothing is left to do for a socket. -/
theorem not_works_of_wg (h : (serverMachine N P).Reaches (serverStart (.new config)) pool)
    (hwg : pool.state.wg = 0) {t : List ServerInstr} (ht : t ∈ pool.threads) (hi : i ∈ t) :
    i.works n = false := by
  have hload : load (ServerAccount.worker.weight fun _ => true) pool.threads = 0 := by
    rw [← wg_eq_load h, hwg]
  by_contra hworks
  rw [Bool.not_eq_false] at hworks
  obtain ⟨j, hj, rfl⟩ := ((defersInOrder_of_reaches h).attended n t ht).exists_mem hi (.inl hworks)
  exact absurd (weight_eq_zero_of_load hload ht hj) (by simp)

end Returned

/-- Nothing is left of the workers of a server. -/
structure Server.Cleared (s : Server) : Prop where
  workers : s.wg = 0 ∧ ∀ n ∈ s.registered, n ∈ s.returned
  maps : s.handshakeConns = ∅ ∧ s.conns = ∅
  slots : s.connSlots = 0
  sockets : ∀ n ∈ s.registered, s.SocketClosed n
  connections : ∀ n runtime, s.runtimes n = some runtime → runtime.state.Terminated

section Cleared

variable {N : HandshakePrimitives} {P : Primitives} {setup config : ServerSetup}
  {pool : Pool Server ServerInstr}

/-- A worker that was registered and is counted no more has returned. -/
theorem returned_of_wg (h : (serverMachine N P).Reaches (serverStart (.new config)) pool)
    (hwg : pool.state.wg = 0) : ∀ n ∈ pool.state.registered, n ∈ pool.state.returned := by
  intro n hn
  have hbalance := serverAccount_balanced (· == n) .worker h
  have hload : load (ServerAccount.worker.weight (· == n)) pool.threads ≤
      load (ServerAccount.worker.weight fun _ => true) pool.threads := by
    refine load_le_load (fun i => ?_) _
    cases i <;> simp only [ServerAccount.weight, le_refl, if_true]
    all_goals split <;> omega
  rw [← wg_eq_load h, hwg] at hload
  have hcount : 0 < pool.state.registered.countP (· == n) := by
    rw [List.countP_pos_iff]
    exact ⟨n, hn, beq_self_eq_true n⟩
  simp only [ServerAccount.balance] at hbalance
  have hreturned : 0 < pool.state.returned.countP (· == n) := by omega
  obtain ⟨m, hm, heq⟩ := List.countP_pos_iff.mp hreturned
  exact beq_iff_eq.mp heq ▸ hm

theorem cleared_of_wg (hconfig : newServerConfig N setup = .ok config)
    (h : (serverMachine N P).Reaches (serverStart (.new config)) pool)
    (hwg : pool.state.wg = 0) : pool.state.Cleared := by
  have hattended := attended_of_reaches h
  have howned := owned_of_reaches h
  have hreturned := returned_of_wg h hwg
  have hload : load (ServerAccount.worker.weight fun _ => true) pool.threads = 0 := by
    rw [← wg_eq_load h, hwg]
  have hhandshakes : pool.state.handshakeConns = ∅ := by
    rw [Finset.eq_empty_iff_forall_notMem]
    intro n hn
    obtain ⟨t, ht, i, hi, hclears⟩ := hattended.handshaking n hn
    cases i with
    | launchWorker listener m =>
        exact absurd (weight_eq_zero_of_load hload ht hi) (by simp)
    | unregisterHandshake m =>
        have hworks := not_works_of_wg h hwg ht hi (n := n)
        exact absurd (hworks.symm.trans hclears) (by decide)
    | _ => cases hclears
  have hconns : pool.state.conns = ∅ := by
    rw [Finset.eq_empty_iff_forall_notMem]
    intro n hn
    obtain ⟨t, ht, i, hi, rfl⟩ := hattended.running n hn
    have hworks := not_works_of_wg h hwg ht hi (n := n)
    exact absurd hworks (by simp)
  have htallied := tallied_of_reaches hconfig h
  have hslots : ∀ n ∈ pool.state.slotsAcquired, n ∈ pool.state.slotsReleased := by
    intro n hn
    have hcount := acquired_count_eq .conns n h
    have hzero : load ((SlotChannel.account .conns).weight (· == n)) pool.threads = 0 := by
      refine load_eq_zero fun t ht i hi => ?_
      cases i with
      | releaseConn m =>
          have hworks := not_works_of_wg h hwg ht hi (n := n)
          simpa [SlotChannel.account] using hworks
      | _ => rfl
    have hpos : 0 < pool.state.slotsAcquired.count n := List.count_pos_iff.mpr hn
    have hsum : pool.state.slotsAcquired.count n = pool.state.slotsReleased.count n + _ := hcount
    rw [hzero] at hsum
    exact List.count_pos_iff.mp (by omega)
  refine ⟨⟨hwg, hreturned⟩, ⟨hhandshakes, hconns⟩, ?_, fun n hn => ?_, fun n runtime hruntime => ?_⟩
  · exact tokens_eq_zero (c := .conns) htallied h hreturned
      fun n hn => .inl (registered_of_slotted h hn)
  · rcases howned.owns.owned n hn with hclosed | hmap | hmap
    · exact hclosed
    · have hmap : n ∈ pool.state.handshakeConns := hmap
      rw [hhandshakes] at hmap
      exact absurd hmap (Finset.notMem_empty n)
    · have hmap : n ∈ pool.state.conns := hmap
      rw [hconns] at hmap
      exact absurd hmap (Finset.notMem_empty n)
  · obtain ⟨runtime', hruntime', hterminated⟩ :=
      hattended.released n (hslots n (howned.runs n runtime hruntime).1)
    obtain rfl : runtime = runtime' := Option.some.inj (hruntime.symm.trans hruntime')
    exact hterminated

end Cleared

/-! ## Connections come to their end -/

section Alone

variable {hooks : Hooks} {N : HandshakePrimitives} {P : Primitives} {s : Server}

/-- A connection that is being stopped can come to its end while the server waits. -/
theorem exists_ended_runtime (hreturn : hooks.Return) (hclosed : s.closed = true)
    (threads : List (List ServerInstr)) {n : Nat} {runtime : Pool Connection Instr}
    {session : Session} {config : ConnectionConfig} (h : s.runtimes n = some runtime)
    (hreach : (connectionMachine P).Reaches (connectionStart session config) runtime)
    (hstopped : Stopped runtime) :
    ∃ last, (serverAlone hooks N P).Reaches ⟨s, threads⟩
        ⟨{ s with runtimes := Function.update s.runtimes n (some last) }, threads⟩ ∧
      (∀ t ∈ last.threads, t = []) ∧ runtime.threads.length ≤ last.threads.length ∧
      (Pursued runtime → 0 < last.state.doneCloses) := by
  have hstopping : Stopping (Pursued runtime) runtime :=
    ⟨orderly_of_reaches hreach, hstopped, id⟩
  obtain ⟨last, hlast, hend, hdone⟩ := hstopping.ends (P := P)
  refine ⟨last, runtime_reaches_alone hreturn hclosed h hlast, hdone, ?_, fun hpursued => ?_⟩
  · refine Machine.invariant_of_step
      (I := fun later => runtime.threads.length ≤ later.threads.length) ?_ le_rfl hlast
    intro before after hbefore hstep
    exact hbefore.trans (threads_length_step (Machine.step_of_alone hstep))
  · have honce := (hend.tornDown hdone).done (hend.begun hdone hpursued)
    omega

end Alone

/-! ## What is left to do -/

/-- How many frames a handshake still asks for when the transport fails. -/
def Exchange.patience {α : Type} : Exchange α → Nat
  | .done _ => 0
  | .writeFrame _ next => (next (.error Sentinel.connectionClosed.bare)).patience + 1
  | .readFrame next => (next (.error Sentinel.connectionClosed.bare)).patience + 1

/-- What an instruction can still give to do once a shutdown has begun, with at most `size`
sockets and connections in the maps. -/
@[simp] def ServerInstr.work (size : Nat) : ServerInstr → Nat
  | .accept _ _ => 2
  | .acquireHandshake _ _ => 6
  | .registerHandshake _ _ => 5
  | .launchWorker _ _ => 18
  | .performHandshake _ => 12
  | .exchange _ driver => 10 + driver.patience
  | .acquireConn _ _ _ => 8
  | .callAdmission _ _ => 6
  | .registerConn _ | .watchClosed _ | .stats => 3
  | .launchWatcher _ => 4
  | .callConn _ _ | .countHandshakes _ => 2
  | .beginShutdown _ => 2 * size + 4
  | .closeListener _ snapshot => snapshot.handshakeConns.length + 2 * snapshot.conns.length + 3
  | _ => 1

/-- The order of the waits of a server: only `Close` waits for other goroutines of the server. -/
def serverOrder : LockOrder ServerInstr Unit where
  rank _ := 1
  waits
    | .awaitWorkers => some ()
    | _ => none
  carries
    | .launchWorker _ _ | .workerDone _ => [()]
    | _ => []
  level
    | .beginShutdown _ | .closeListener _ _ | .awaitWorkers => 1
    | _ => 0
  waits_le {i r} h := by cases i <;> first | exact le_rfl | cases h
  own {i r r'} h hcarries := by
    cases i with
    | awaitWorkers => cases hcarries
    | _ => cases h

section Order

variable {N : HandshakePrimitives} {P : Primitives} {config : ServerSetup} {s : Server}
  {i : ServerInstr} {effect : Effect Server ServerInstr} {pool : Pool Server ServerInstr}

theorem fits_shutdownProgram (kind : ShutdownKind) (snapshot : Snapshot) (err : Option Error) :
    serverOrder.fits 1 (shutdownProgram kind snapshot err) = true := by
  rw [LockOrder.fits, Bool.and_eq_true, List.all_eq_true]
  constructor
  · refine LockOrder.nested_of_free fun j hj => ?_
    rcases mem_shutdownProgram hj with ⟨n, rfl⟩ | ⟨n, rfl⟩ | rfl | rfl <;> rfl
  · intro j hj
    rcases mem_shutdownProgram hj with ⟨n, rfl⟩ | ⟨n, rfl⟩ | rfl | rfl <;> rfl

theorem ServerExec.fits (h : ServerExec N P s i effect) :
    serverOrder.fits (serverOrder.level i) effect.pushed = true := by
  cases h with
  | serve h => cases h <;> rfl
  | worker h =>
      cases h with
      | connAcquired | admissionAccepted =>
          cases hadmission : s.config.admission <;> cases hhook : s.config.onDisconnect <;>
            simp only [afterSlot, handoff, hadmission, hhook] <;> rfl
      | _ => rfl
  | runtime h => cases h <;> rfl
  | shutdown h =>
      cases h with
      | closeListener => exact fits_shutdownProgram _ _ _
      | _ => rfl

theorem server_nested (h : (serverMachine N P).Reaches (serverStart (.new config)) pool) :
    ∀ t ∈ pool.threads, serverOrder.nested t = true := by
  refine Machine.invariant_of_step
    (I := fun pool => ∀ t ∈ pool.threads, serverOrder.nested t = true) ?_ (by simp [serverStart]) h
  intro before after hbefore hstep
  cases hstep with
  | @thread s threads k i rest effect hk hexec =>
      have hexec : ServerExec N P s i effect := hexec
      refine LockOrder.nested_step hbefore hk hexec.fits fun t ht => ?_
      rcases hexec.spawned_cases t ht with ⟨m, rfl⟩ | ⟨m, rfl⟩ <;> rfl
  | @ambient s s' threads new hambient =>
      have hambient : ServerAmbient P s s' new := hambient
      intro t ht
      rcases List.mem_append.mp ht with hold | hnew
      · exact hbefore t hold
      · cases hambient with
        | runtime => exact absurd hnew List.not_mem_nil
        | _ =>
            obtain rfl := List.mem_singleton.mp hnew
            rfl

/-- A worker that is counted is on its way to its end. -/
theorem worker_carried (h : (serverMachine N P).Reaches (serverStart (.new config)) pool) (r : Unit)
    (hheld : 0 < pool.state.wg) :
    ∃ t ∈ pool.threads, ∃ j ∈ t, r ∈ serverOrder.carries j := by
  rw [wg_eq_load h] at hheld
  obtain ⟨t, ht, j, hj, hweight⟩ := exists_of_load_pos hheld
  refine ⟨t, ht, j, hj, ?_⟩
  cases j with
  | launchWorker | workerDone => exact List.mem_singleton.mpr rfl
  | _ => exact absurd rfl hweight

end Order

/-! ## Some goroutine can always go on -/

/-- What is known about the instruction that a goroutine of a server is about to execute, once a
shutdown has begun. -/
structure ServerReady (size : Nat) (pool : Pool Server ServerInstr) (i : ServerInstr) : Prop where
  shutting : pool.state.inShutdown = true ∧ pool.state.closed = true
  size_le : pool.state.conns.card + pool.state.handshakeConns.card ≤ size
  relies : ∀ f ∈ i.relies, f.Seen pool
  free : i = .awaitWorkers → pool.state.wg = 0
  listens : ∀ listener delay, i = .accept listener delay → listener ∈ pool.state.closedListeners
  counted : ServerAccount.worker.weight (fun _ => true) i ≤ pool.state.wg
  releases : ∀ (c : SlotChannel) n, i = c.release n → 0 < pool.state.tokens c

/-- The instruction waits for a connection. -/
def ServerInstr.awaits : ServerInstr → Bool
  | .awaitCall _ _ _ | .awaitDone _ => true
  | _ => false

/-- The instruction can go in a way that leaves less to do. -/
def ServerAdvances (hooks : Hooks) (N : HandshakePrimitives) (P : Primitives) (size : Nat)
    (s : Server) (i : ServerInstr) : Prop :=
  ∃ effect, (serverAlone hooks N P).exec s i effect ∧
    effect.leaves (ServerInstr.work size) < i.work size

section Advance

variable {hooks : Hooks} {N : HandshakePrimitives} {P : Primitives} {size : Nat} {s : Server}
  {i : ServerInstr} {effect : Effect Server ServerInstr} {pool : Pool Server ServerInstr}

theorem ServerExec.advances (h : ServerExec N P s i effect) (hreturn : hooks.Return)
    (hclosed : s.closed = true) (hplain : i.plain = true)
    (hless : (effect.leaves (ServerInstr.work size)).blt (i.work size) = true) :
    ServerAdvances hooks N P size s i := by
  rw [Nat.blt_eq] at hless
  exact ⟨effect, h.alone hreturn hclosed hplain, hless⟩

/-- A worker whose peer does not answer gives up. -/
theorem advances_exchange (hreturn : hooks.Return) (hclosed : s.closed = true) (n : Nat)
    (driver : Exchange HandshakeOutcome) :
    ServerAdvances hooks N P size s (.exchange n driver) := by
  cases driver with
  | writeFrame frame next =>
      have hexec : ServerExec N P s (.exchange n (.writeFrame frame next)) _ :=
        .worker (.frameWritten (.error Sentinel.connectionClosed.bare))
      refine ⟨_, hexec.alone hreturn hclosed rfl, ?_⟩
      simp [Effect.leaves, Exchange.patience]
  | readFrame next =>
      have hexec : ServerExec N P s (.exchange n (.readFrame next)) _ :=
        .worker (.readFailed Sentinel.connectionClosed.bare)
      refine ⟨_, hexec.alone hreturn hclosed rfl, ?_⟩
      simp [Effect.leaves, Exchange.patience]
  | done outcome =>
      obtain ⟨result, info⟩ := outcome
      cases result with
      | error err => exact (ServerExec.worker .handshakeFailed).advances hreturn hclosed rfl rfl
      | ok session => exact (ServerExec.worker .handshakeDone).advances hreturn hclosed rfl rfl

/-- A handshake begins with the wait for a frame, or it has failed before. -/
theorem patience_performHandshake (config : ServerConfig) (random : Reader) (now : Time) :
    (performHandshake N P config random now).patience ≤ 1 := by
  unfold performHandshake
  split
  · exact Nat.zero_le 1
  · exact Nat.le_refl 1

theorem advances_performHandshake (hreturn : hooks.Return) (hclosed : s.closed = true) (n : Nat) :
    ServerAdvances hooks N P size s (.performHandshake n) := by
  have hexec : ServerExec N P s (.performHandshake n) _ :=
    .worker (.performHandshake ⟨[], none⟩ 0)
  refine ⟨_, hexec.alone hreturn hclosed rfl, ?_⟩
  have hpatience : (performHandshake N P s.config.toServerConfig ⟨[], none⟩ 0).patience ≤ 1 :=
    patience_performHandshake _ _ _
  simp only [Effect.leaves, ServerInstr.work, weigh_cons, weigh_nil, load_nil]
  omega

theorem advances_acquireConn (hreturn : hooks.Return) (hclosed : s.closed = true) (n : Nat)
    (session : Session) (info : AdmissionInfo) :
    ServerAdvances hooks N P size s (.acquireConn n session info) := by
  by_cases hroom : s.connSlots < s.connCapacity
  · refine (ServerExec.worker (.connAcquired hroom)).advances hreturn hclosed rfl ?_
    cases hadmission : s.config.admission <;> cases hhook : s.config.onDisconnect <;>
      simp only [afterSlot, handoff, hadmission, hhook] <;> rfl
  · exact (ServerExec.worker (.connsFull (Nat.le_of_not_lt hroom))).advances hreturn hclosed rfl rfl

/-- `Admission` returns, and its verdict decides how the worker goes on. -/
theorem advances_callAdmission (hreturn : hooks.Return) (hclosed : s.closed = true) (n : Nat)
    (info : AdmissionInfo) : ServerAdvances hooks N P size s (.callAdmission n info) := by
  obtain ⟨result, hresult⟩ := hreturn.admission n info hclosed
  have hlistens : ∀ effect, ListensUntilClosed s (.callAdmission n info) effect := by
    intro effect listener delay err retryable hi
    cases hi
  cases result with
  | none =>
      refine ⟨_, ⟨.worker .admissionAccepted,
        hreturn.permits_admission hclosed hresult rfl rfl, hlistens _⟩, ?_⟩
      cases hhook : s.config.onDisconnect <;>
        simp [Effect.leaves, handoff, hhook]
  | some err =>
      refine ⟨_, ⟨.worker (.admissionRejected err),
        hreturn.permits_admission hclosed hresult rfl rfl, hlistens _⟩, ?_⟩
      simp [Effect.leaves]

theorem advances_callDisconnect (hreturn : hooks.Return) (hclosed : s.closed = true) {n : Nat}
    {info : AdmissionInfo} {runtime : Pool Connection Instr} (h : s.runtimes n = some runtime) :
    ServerAdvances hooks N P size s (.callDisconnect n info) := by
  refine ⟨_, ⟨.runtime (.callDisconnect h), hreturn.permits_disconnect hclosed rfl rfl, ?_⟩, ?_⟩
  · intro listener delay err retryable hi
    cases hi
  · simp [Effect.leaves]

/-- An `Accept` fails once the listener is closed. -/
theorem advances_accept (hreturn : hooks.Return) (hclosed : s.closed = true) {listener : Nat}
    {delay : Duration} (h : listener ∈ s.closedListeners) :
    ServerAdvances hooks N P size s (.accept listener delay) := by
  refine ⟨_, ⟨.serve (.acceptFailed Sentinel.serverClosed.bare false),
    hreturn.permits hclosed rfl rfl, ?_⟩, ?_⟩
  · intro listener' delay' err retryable hi _
    cases hi
    exact h
  · simp [Effect.leaves]

theorem weigh_shutdownProgram (size : Nat) (kind : ShutdownKind) (snapshot : Snapshot)
    (err : Option Error) :
    weigh (ServerInstr.work size) (shutdownProgram kind snapshot err) ≤
      snapshot.handshakeConns.length + 2 * snapshot.conns.length + 2 := by
  have hsockets : ∀ l : List Nat,
      weigh (ServerInstr.work size) (l.map .closeSocket) = l.length := by
    intro l
    induction l with
    | nil => rfl
    | cons n l ih =>
        simp only [List.map_cons, weigh_cons, ih, List.length_cons, ServerInstr.work]
        omega
  have hcalls : ∀ l : List Nat,
      weigh (ServerInstr.work size) (l.map fun n => .callConn n kind.api) = 2 * l.length := by
    intro l
    induction l with
    | nil => rfl
    | cons n l ih =>
        simp only [List.map_cons, weigh_cons, ih, List.length_cons, ServerInstr.work]
        omega
  unfold shutdownProgram
  simp only [weigh_append, hsockets, hcalls]
  cases kind <;> simp

/-- The beginning of a shutdown, with some order of the maps. -/
theorem exec_beginShutdown (N : HandshakePrimitives) (P : Primitives) (s : Server)
    (kind : ShutdownKind) :
    ServerExec N P s (.beginShutdown kind)
      ⟨{ s with
          inShutdown := true
          closed := true
          snapshots := s.snapshots ++ [⟨s.listener, s.conns.toList, s.handshakeConns.toList⟩] },
        [.closeListener kind ⟨s.listener, s.conns.toList, s.handshakeConns.toList⟩], []⟩ :=
  .shutdown (.beginShutdown ⟨s.listener, s.conns.toList, s.handshakeConns.toList⟩ rfl
    ⟨Finset.nodup_toList _, Finset.toList_toFinset _⟩
    ⟨Finset.nodup_toList _, Finset.toList_toFinset _⟩)

theorem advances_beginShutdown (hreturn : hooks.Return) (hclosed : s.closed = true)
    (kind : ShutdownKind) (hsize : s.conns.card + s.handshakeConns.card ≤ size) :
    ServerAdvances hooks N P size s (.beginShutdown kind) := by
  refine ⟨_, (exec_beginShutdown N P s kind).alone hreturn hclosed rfl, ?_⟩
  simp only [Effect.leaves, ServerInstr.work, weigh_cons, weigh_nil, load_nil,
    Finset.length_toList]
  omega

/-- Once a shutdown has begun everything can go on but the waits for connections: an `Accept` on
a closed listener and handshakes fail, callbacks return and handoffs are refused. -/
theorem ServerReady.advances (h : ServerReady size pool i) (hreturn : hooks.Return)
    (hawaits : i.awaits = false) : ServerAdvances hooks N P size pool.state i := by
  obtain ⟨hshutdown, hclosed⟩ := h.shutting
  -- the rules that neither call a hook nor accept
  have hgo : ∀ {effect}, ServerExec N P pool.state i effect → i.plain = true →
      (effect.leaves (ServerInstr.work size)).blt (i.work size) = true →
      ServerAdvances hooks N P size pool.state i :=
    fun hexec hplain hless => hexec.advances hreturn hclosed hplain hless
  cases i with
  -- Serve
  | serve listener =>
      cases listener with
      | none => exact hgo (.serve .nilListener) rfl rfl
      | some listener => exact hgo (.serve (.serveClosed hshutdown)) rfl rfl
  | accept listener delay => exact advances_accept hreturn hclosed (h.listens listener delay rfl)
  | acceptFailed listener delay err retryable =>
      exact hgo (.serve (.acceptClosed hshutdown)) rfl rfl
  | backoff listener delay => exact hgo (.serve (.backoffClosed hclosed)) rfl rfl
  | acquireHandshake listener n =>
      by_cases hroom : pool.state.handshakes < pool.state.handshakeCapacity
      · exact hgo (.serve (.handshakeAcquired hroom)) rfl rfl
      · exact hgo (.serve (.handshakesFull (Nat.le_of_not_lt hroom))) rfl rfl
  | registerHandshake listener n => exact hgo (.serve (.registrationRefused hshutdown)) rfl rfl
  | launchWorker listener n => exact hgo (.serve .launchWorker) rfl rfl
  -- handleConn
  | performHandshake n => exact advances_performHandshake hreturn hclosed n
  | exchange n driver => exact advances_exchange hreturn hclosed n driver
  | releaseHandshake n =>
      obtain ⟨tokens, htokens⟩ := Nat.exists_eq_add_of_le' (h.releases .handshakes n rfl)
      exact hgo (.worker (.releaseHandshake htokens)) rfl rfl
  | acquireConn n session info => exact advances_acquireConn hreturn hclosed n session info
  | callAdmission n info => exact advances_callAdmission hreturn hclosed n info
  | registerConn n => exact hgo (.worker (.handoffRefused hshutdown)) rfl rfl
  | launchWatcher n => exact hgo (.runtime .launchWatcher) rfl rfl
  | watchClosed n => exact hgo (.runtime (.watchShutdown hclosed)) rfl rfl
  | callConn n api =>
      obtain ⟨runtime, hruntime⟩ := h.relies (.made n) List.mem_cons_self
      exact hgo (.runtime (.callConn hruntime)) rfl rfl
  | cancelConn n =>
      obtain ⟨runtime, hruntime, -⟩ := h.relies (.ended n) List.mem_cons_self
      exact hgo (.runtime (.cancelConn hruntime)) rfl rfl
  | unregisterConn n => exact hgo (.worker .unregisterConn) rfl rfl
  | callDisconnect n info =>
      obtain ⟨runtime, hruntime⟩ := h.relies (.made n) List.mem_cons_self
      exact advances_callDisconnect hreturn hclosed hruntime
  | releaseConn n =>
      obtain ⟨tokens, htokens⟩ := Nat.exists_eq_add_of_le' (h.releases .conns n rfl)
      exact hgo (.worker (.releaseConn htokens)) rfl rfl
  | closeSocket n => exact hgo (.worker .closeSocket) rfl rfl
  | unregisterHandshake n => exact hgo (.worker .unregisterHandshake) rfl rfl
  | workerDone n =>
      obtain ⟨workers, hworkers⟩ := Nat.exists_eq_add_of_le' (show 1 ≤ pool.state.wg from h.counted)
      exact hgo (.worker (.workerDone hworkers)) rfl rfl
  -- Close, Abort and Stats
  | beginShutdown kind => exact advances_beginShutdown hreturn hclosed kind h.size_le
  | closeListener kind snapshot =>
      have hexec : ServerExec N P pool.state (.closeListener kind snapshot) _ :=
        .shutdown (.closeListener none fun _ => rfl)
      refine ⟨_, hexec.alone hreturn hclosed rfl, ?_⟩
      have hweigh := weigh_shutdownProgram size kind snapshot none
      simp only [Effect.leaves, ServerInstr.work, load_nil]
      omega
  | awaitWorkers => exact hgo (.shutdown (.awaitWorkers (h.free rfl))) rfl rfl
  | returnShutdown kind err => exact hgo (.shutdown .returnShutdown) rfl rfl
  | stats => exact hgo (.shutdown .stats) rfl rfl
  | countHandshakes sample => exact hgo (.shutdown .countHandshakes) rfl rfl
  | countConns sample => exact hgo (.shutdown .countConns) rfl rfl
  | awaitCall | awaitDone => cases hawaits

theorem ServerAdvances.progress {threads : List (List ServerInstr)} {rest : List ServerInstr}
    (h : ServerAdvances hooks N P size s i) (hmem : i :: rest ∈ threads) :
    ∃ next, (serverAlone hooks N P).Reaches ⟨s, threads⟩ next ∧
      load (ServerInstr.work size) next.threads < load (ServerInstr.work size) threads := by
  obtain ⟨effect, hexec, hless⟩ := h
  obtain ⟨k, hk⟩ := List.mem_iff_getElem?.mp hmem
  have hload : load (ServerInstr.work size)
      (threads.set k (effect.pushed ++ rest) ++ effect.spawned) + i.work size =
      load (ServerInstr.work size) threads + effect.leaves (ServerInstr.work size) := load_step hk
  refine ⟨_, .single (.thread k hk hexec), ?_⟩
  show load (ServerInstr.work size) (threads.set k (effect.pushed ++ rest) ++ effect.spawned) < _
  omega

end Advance

/-! ## Shutting down -/

/-- A server with at most `size` sockets and connections in its maps is shutting down. -/
structure ShuttingDown (N : HandshakePrimitives) (P : Primitives) (config : ServerSetup)
    (size : Nat) (pool : Pool Server ServerInstr) : Prop where
  reached : (serverMachine N P).Reaches (serverStart (.new config)) pool
  shutting : pool.state.inShutdown = true ∧ pool.state.closed = true
  size_le : pool.state.conns.card + pool.state.handshakeConns.card ≤ size
  listener : OneListener pool

section Shutdown

variable {hooks : Hooks} {N : HandshakePrimitives} {P : Primitives} {setup config : ServerSetup}
  {size : Nat} {pool later : Pool Server ServerInstr} {i : ServerInstr} {rest : List ServerInstr}

/-- The channel `closed` of a server is never made anew. -/
theorem closed_step {before after : Pool Server ServerInstr}
    (hstep : (serverMachine N P).Step before after) (h : before.state.closed = true) :
    after.state.closed = true := by
  cases hstep with
  | @thread s threads k i rest effect hk hexec =>
      have hexec : ServerExec N P s i effect := hexec
      cases hexec with
      | serve h' | worker h' | runtime h' => cases h' <;> exact h
      | shutdown h' =>
          cases h' with
          | beginShutdown => rfl
          | _ => exact h
  | ambient hambient => cases hambient <;> exact h

theorem ShuttingDown.mono (h : ShuttingDown N P config size pool)
    (hreach : (serverAlone hooks N P).Reaches pool later) :
    ShuttingDown N P config size later := by
  have hreach := serverAlone_within.reaches hreach
  have hshrinks := shrinks_of_reaches h.shutting.1 hreach
  have hlistener : later.state.inShutdown = true ∧ OneListener later := by
    refine Machine.invariant_of_step
      (I := fun later => later.state.inShutdown = true ∧ OneListener later)
      (fun hbefore hstep => ?_) ⟨h.shutting.1, h.listener⟩ hreach
    exact ⟨(shrinks_of_reaches hbefore.1 (.single hstep)).inShutdown,
      hbefore.2.step hbefore.1 hstep⟩
  refine ⟨h.reached.trans hreach, ⟨hshrinks.inShutdown, ?_⟩, ?_, hlistener.2⟩
  · exact Machine.invariant_of_step (I := fun later => later.state.closed = true)
      (fun hbefore hstep => closed_step hstep hbefore) h.shutting.2 hreach
  · have hconns := Finset.card_le_card hshrinks.conns
    have hhandshakes := Finset.card_le_card hshrinks.handshakeConns
    exact (Nat.add_le_add hconns hhandshakes).trans h.size_le

theorem ShuttingDown.ready (hconfig : newServerConfig N setup = .ok config)
    (h : ShuttingDown N P config size pool) (hmem : i :: rest ∈ pool.threads)
    (hfree : i = .awaitWorkers → pool.state.wg = 0)
    (hlistens : ∀ listener delay, i = .accept listener delay →
      listener ∈ pool.state.closedListeners) : ServerReady size pool i where
  shutting := h.shutting
  size_le := h.size_le
  relies := ((attended_of_reaches h.reached).relying _ hmem).1
  free := hfree
  listens := hlistens
  counted := by
    rw [wg_eq_load h.reached]
    exact weight_le_load hmem List.mem_cons_self
  releases c n hi := by
    subst hi
    obtain ⟨k, hk⟩ := List.mem_iff_getElem?.mp hmem
    rw [tokens_eq_card (tallied_of_reaches hconfig h.reached) h.reached]
    exact Finset.card_pos.mpr ⟨n, mem_holders_of_release h.reached hk⟩

/-- Some goroutine takes a step that leaves less to do, perhaps after a connection has gone on. -/
def Progresses (hooks : Hooks) (N : HandshakePrimitives) (P : Primitives) (size : Nat)
    (pool : Pool Server ServerInstr) : Prop :=
  ∃ next, (serverAlone hooks N P).Reaches pool next ∧
    load (ServerInstr.work size) next.threads < load (ServerInstr.work size) pool.threads

theorem Progresses.after (hreach : (serverAlone hooks N P).Reaches pool later)
    (hthreads : later.threads = pool.threads) (h : Progresses hooks N P size later) :
    Progresses hooks N P size pool := by
  obtain ⟨next, hnext, hless⟩ := h
  exact ⟨next, hreach.trans hnext, hthreads ▸ hless⟩

/-- Whoever neither accepts nor waits can go on. -/
theorem ShuttingDown.goes_on (hconfig : newServerConfig N setup = .ok config)
    (h : ShuttingDown N P config size pool) (hreturn : hooks.Return)
    (hmem : i :: rest ∈ pool.threads) (hawaits : i.awaits = false)
    (hfree : i = .awaitWorkers → pool.state.wg = 0)
    (hlistens : ∀ listener delay, i = .accept listener delay →
      listener ∈ pool.state.closedListeners) : Progresses hooks N P size pool :=
  ((h.ready hconfig hmem hfree hlistens).advances hreturn hawaits).progress hmem

/-- A connection that is chased is being stopped, or its watcher can go on. -/
theorem ShuttingDown.chased (hconfig : newServerConfig N setup = .ok config)
    (h : ShuttingDown N P config size pool) (hreturn : hooks.Return) {n : Nat}
    (hchased : Chased pool n) :
    Progresses hooks N P size pool ∨ ∃ runtime, pool.state.runtimes n = some runtime ∧
      Stopped runtime ∧ (Pursued runtime ∨ 0 < runtime.state.doneCloses) := by
  rcases hchased with hwatch | hcall | ⟨runtime, hruntime, hover⟩
  · exact .inl (h.goes_on hconfig hreturn hwatch rfl (by simp) (by simp))
  · exact .inl (h.goes_on hconfig hreturn hcall rfl (by simp) (by simp))
  · refine .inr ⟨runtime, hruntime, ?_, hover⟩
    obtain ⟨-, session, settings, hreach⟩ := runs_of_reaches h.reached n runtime hruntime
    rcases hover with hpursued | hdone
    · exact (orderly_of_reaches hreach).stops_of_pursued hpursued
    · have hsound := sound_of_reaches hreach
      exact .inl (hsound.canceled (hsound.finished_of_done hdone))

/-- A method of a connection that is being stopped returns. -/
theorem ShuttingDown.call_returns (h : ShuttingDown N P config size pool)
    (hreturn : hooks.Return) {n k : Nat} {api : ApiCall}
    (hmem : .awaitCall n api k :: rest ∈ pool.threads)
    {runtime : Pool Connection Instr} (hruntime : pool.state.runtimes n = some runtime)
    (hk : k < runtime.threads.length) (hstopped : Stopped runtime) :
    Progresses hooks N P size pool := by
  obtain ⟨-, session, settings, hreach⟩ := runs_of_reaches h.reached n runtime hruntime
  obtain ⟨last, hlast, hdone, hlength, -⟩ :=
    exists_ended_runtime (N := N) hreturn h.shutting.2 pool.threads hruntime hreach hstopped
  refine Progresses.after hlast rfl ?_
  have hreturned : last.threads[k]? = some [] := by
    have hbound : k < last.threads.length := hk.trans_le hlength
    rw [List.getElem?_eq_getElem hbound, hdone _ (List.getElem_mem hbound)]
  have hexec : ServerExec N P
      { pool.state with runtimes := Function.update pool.state.runtimes n (some last) }
      (.awaitCall n api k) _ :=
    .runtime (.callReturned (Function.update_self ..) hreturned)
  exact (hexec.advances hreturn h.shutting.2 rfl rfl).progress hmem

/-- A wait for a connection comes to an end. -/
theorem ShuttingDown.wait_ends (hconfig : newServerConfig N setup = .ok config)
    (h : ShuttingDown N P config size pool) (hreturn : hooks.Return)
    (hmem : i :: rest ∈ pool.threads) (hawaits : i.awaits = true) :
    Progresses hooks N P size pool := by
  have hrelies : ∀ f ∈ i.relies, f.Seen pool :=
    ((attended_of_reaches h.reached).relying _ hmem).1
  have hclosed := h.shutting.2
  cases i with
  | awaitCall n api k =>
      obtain ⟨runtime, hruntime, hk⟩ := hrelies (.called n k) List.mem_cons_self
      have hstopped : Progresses hooks N P size pool ∨ Stopped runtime := by
        by_cases hstops : api.stops = true
        · obtain ⟨runtime', hruntime', hstopped⟩ :=
            hrelies (.stopped n) (by simp [hstops])
          obtain rfl : runtime = runtime' := Option.some.inj (hruntime.symm.trans hruntime')
          exact .inr hstopped
        · have hchased : Chased pool n :=
            hrelies (.chased n) (by simp [hstops])
          rcases h.chased hconfig hreturn hchased with hprogress |
            ⟨runtime', hruntime', hstopped, -⟩
          · exact .inl hprogress
          · obtain rfl : runtime = runtime' := Option.some.inj (hruntime.symm.trans hruntime')
            exact .inr hstopped
      rcases hstopped with hprogress | hstopped
      · exact hprogress
      · exact h.call_returns hreturn hmem hruntime hk hstopped
  | awaitDone n =>
      have hchased : Chased pool n := hrelies (.chased n) (by simp)
      rcases h.chased hconfig hreturn hchased with hprogress | ⟨runtime, hruntime, hstopped, hover⟩
      · exact hprogress
      · rcases hover with hpursued | hdone
        · obtain ⟨-, session, settings, hreach⟩ := runs_of_reaches h.reached n runtime hruntime
          obtain ⟨last, hlast, -, -, hended⟩ :=
            exists_ended_runtime (N := N) hreturn hclosed pool.threads hruntime hreach hstopped
          refine Progresses.after hlast rfl ?_
          have hexec : ServerExec N P
              { pool.state with runtimes := Function.update pool.state.runtimes n (some last) }
              (.awaitDone n) _ :=
            .runtime (.done (Function.update_self ..) (hended hpursued))
          exact (hexec.advances hreturn hclosed rfl rfl).progress hmem
        · exact ((ServerExec.runtime (.done hruntime hdone)).advances hreturn hclosed rfl
            rfl).progress hmem
  | _ => cases hawaits

/-- A `Serve` that accepts finds its listener closed, or a shutdown goes on to close it. -/
theorem ShuttingDown.accept_ends (hconfig : newServerConfig N setup = .ok config)
    (h : ShuttingDown N P config size pool) (hreturn : hooks.Return) {listener : Nat}
    {delay : Duration} (hmem : .accept listener delay :: rest ∈ pool.threads) :
    Progresses hooks N P size pool := by
  have hlistener := h.listener _ hmem _ List.mem_cons_self listener rfl
  rcases closesListener_of_reaches h.reached h.shutting.1 listener hlistener with
    hclosed | ⟨kind, snapshot, hcloser, -⟩
  · refine h.goes_on hconfig hreturn hmem rfl (by simp) fun listener' delay' hi => ?_
    cases hi
    exact hclosed
  · exact h.goes_on hconfig hreturn hcloser rfl (by simp) (by simp)

/-- Unless all goroutines have returned, one of them can go on. -/
theorem ShuttingDown.progresses (hconfig : newServerConfig N setup = .ok config)
    (h : ShuttingDown N P config size pool) (hreturn : hooks.Return)
    (hne : ∃ t ∈ pool.threads, t ≠ []) : Progresses hooks N P size pool := by
  -- somebody does not wait for the workers; a wait for a connection is resolved by the connection,
  -- and an `Accept` by the shutdown that closes the listener
  obtain ⟨i, rest, hmem, hfree⟩ := LockOrder.exists_free (server_nested h.reached)
    (worker_carried h.reached) hne
  by_cases hawaits : i.awaits = true
  · exact h.wait_ends hconfig hreturn hmem hawaits
  by_cases haccept : ∃ listener delay, i = .accept listener delay
  · obtain ⟨listener, delay, rfl⟩ := haccept
    exact h.accept_ends hconfig hreturn hmem
  · refine h.goes_on hconfig hreturn hmem (Bool.not_eq_true _ ▸ hawaits) (fun hi => ?_)
      fun listener delay hi => absurd ⟨listener, delay, hi⟩ haccept
    have hzero : ¬ 0 < pool.state.wg := hfree () (by rw [hi]; rfl)
    omega

theorem ShuttingDown.ends (hconfig : newServerConfig N setup = .ok config)
    (hreturn : hooks.Return) (h : ShuttingDown N P config size pool) :
    (serverAlone hooks N P).Leads (fun last => ShuttingDown N P config size last ∧
      ∀ t ∈ last.threads, t = []) pool := by
  refine Machine.leads_of_progress (fun pool => load (ServerInstr.work size) pool.threads)
    (fun pool h => ?_) h
  by_cases hdone : ∀ t ∈ pool.threads, t = []
  · exact .inl hdone
  · push Not at hdone
    obtain ⟨next, hnext, hless⟩ := h.progresses hconfig hreturn hdone
    exact .inr ⟨next, hnext, h.mono hnext, hless⟩

end Shutdown

/-! ## The calls of `Close` and `Abort` return -/

/-- A shutdown has begun, or somebody is about to begin one. -/
def Summoned (pool : Pool Server ServerInstr) : Prop :=
  pool.state.inShutdown = true ∧ pool.state.closed = true ∨
    ∃ kind, [.beginShutdown kind] ∈ pool.threads

/-- The goroutine is going to return from a call of `Close` or of `Abort`. -/
def ServerInstr.answers (kind : ShutdownKind) : ServerInstr → Prop
  | .beginShutdown k | .closeListener k _ | .returnShutdown k _ => k = kind
  | _ => False

/-- A call has returned, or a goroutine is going to return from it. -/
def Answered (kind : ShutdownKind) (pool : Pool Server ServerInstr) : Prop :=
  (∃ err, (kind, err) ∈ pool.state.shutdownReturns) ∨
    ∃ t ∈ pool.threads, ∃ i ∈ t, i.answers kind

section Answer

variable {hooks : Hooks} {N : HandshakePrimitives} {P : Primitives} {setup config : ServerSetup}
  {kind : ShutdownKind} {before after pool : Pool Server ServerInstr}

theorem Summoned.step (h : Summoned before) (hstep : (serverMachine N P).Step before after) :
    Summoned after := by
  rcases h with ⟨hshutdown, hclosed⟩ | ⟨kind, hmem⟩
  · exact .inl ⟨(shrinks_of_reaches hshutdown (.single hstep)).inShutdown,
      closed_step hstep hclosed⟩
  · cases hstep with
    | @thread s threads k i rest effect hk hexec =>
        have hexec : ServerExec N P s i effect := hexec
        by_cases hi : [ServerInstr.beginShutdown kind] = i :: rest
        · obtain ⟨rfl, rfl⟩ := List.cons.inj hi
          cases hexec with
          | shutdown h => cases h with | beginShutdown => exact .inl ⟨rfl, rfl⟩
          | serve h | worker h | runtime h => cases h
        · exact .inr ⟨kind, mem_set_append_of_ne hmem hk hi⟩
    | ambient hambient => exact .inr ⟨kind, List.mem_append_left _ hmem⟩

theorem Answered.step (h : Answered kind before) (hstep : (serverMachine N P).Step before after) :
    Answered kind after := by
  cases hstep with
  | @thread s threads k i rest effect hk hexec =>
      have hexec : ServerExec N P s i effect := hexec
      have hduty : (i.answers kind → ∃ t ∈ effect.pushed :: effect.spawned, ∃ j ∈ t,
            j.answers kind) → effect.state.shutdownReturns = s.shutdownReturns →
          Answered kind
            ⟨effect.state, threads.set k (effect.pushed ++ rest) ++ effect.spawned⟩ := by
        intro hown hreturns
        rcases h with ⟨err, herr⟩ | hduty
        · exact .inl ⟨err, hreturns ▸ herr⟩
        · exact .inr (exists_duty_step hduty hk hown)
      cases hexec with
      | serve h' | worker h' | runtime h' => cases h' <;> exact hduty False.elim rfl
      | shutdown h' =>
          cases h' with
          | beginShutdown snapshot =>
              exact hduty (fun hkind => ⟨_, List.mem_cons_self, _, List.mem_cons_self, hkind⟩) rfl
          | @closeListener k' snapshot err =>
              refine hduty (fun hkind => ⟨_, List.mem_cons_self, .returnShutdown k' err, ?_, hkind⟩)
                rfl
              cases k' <;> simp [shutdownProgram]
          | @returnShutdown k' err =>
              by_cases hkind : k' = kind
              · exact .inl ⟨err, hkind ▸ List.mem_append_right _ List.mem_cons_self⟩
              · rcases h with ⟨err', herr'⟩ | hduties
                · exact .inl ⟨err', List.mem_append_left _ herr'⟩
                · exact .inr (exists_duty_step hduties hk fun hown => absurd hown hkind)
          | _ => exact hduty False.elim rfl
  | @ambient s s' threads new hambient =>
      have hambient : ServerAmbient P s s' new := hambient
      have hreturns : s'.shutdownReturns = s.shutdownReturns := by cases hambient <;> rfl
      rcases h with ⟨err, herr⟩ | ⟨t, ht, i, hi, hduty⟩
      · exact .inl ⟨err, hreturns ▸ herr⟩
      · exact .inr ⟨t, List.mem_append_left _ ht, i, hi, hduty⟩

/-- Whoever has been called can begin the shutdown. -/
theorem Summoned.begins (hooks : Hooks) (h : Summoned pool) (hone : OneListener pool) :
    ∃ begun, (serverAlone hooks N P).Reaches pool begun ∧
      (begun.state.inShutdown = true ∧ begun.state.closed = true) ∧
      begun.state.registered = pool.state.registered ∧ OneListener begun := by
  rcases h with hshutting | ⟨kind, hmem⟩
  · exact ⟨pool, .refl, hshutting, rfl, hone⟩
  · obtain ⟨k, hk⟩ := List.mem_iff_getElem?.mp hmem
    have hbegin := exec_beginShutdown N P pool.state kind
    have hpermits : hooks.Permits pool.state { pool.state with
        inShutdown := true
        closed := true
        snapshots := pool.state.snapshots ++
          [⟨pool.state.listener, pool.state.conns.toList, pool.state.handshakeConns.toList⟩] } :=
      .of_same rfl rfl fun n => .inr rfl
    refine ⟨_, .single (.thread k hk ⟨hbegin, hpermits, listens_of_plain rfl⟩), ⟨rfl, rfl⟩, rfl, ?_⟩
    intro t ht j hj listener haccepts
    rcases mem_set_append ht with rfl | hother | hspawned
    · obtain rfl := List.mem_singleton.mp hj
      cases haccepts
    · exact hone t hother j hj listener haccepts
    · exact absurd hspawned List.not_mem_nil

/-- Once a shutdown has been asked for all goroutines of the server can return. -/
theorem shutdown_leads (hconfig : newServerConfig N setup = .ok config) (hreturn : hooks.Return)
    (h : (serverMachine N P).Reaches (serverStart (.new config)) pool) (hone : OneListener pool)
    (hsummoned : Summoned pool) (hanswered : Answered kind pool) :
    (serverAlone hooks N P).Leads
      (fun last => (serverMachine N P).Reaches pool last ∧
        last.state.registered = pool.state.registered ∧ (∀ t ∈ last.threads, t = []) ∧
        ∃ err, (kind, err) ∈ last.state.shutdownReturns) pool := by
  obtain ⟨begun, hbegun, hshutting, hregistered, hstill⟩ :=
    hsummoned.begins hooks (N := N) (P := P) hone
  have hshutdown : ShuttingDown N P config
      (begun.state.conns.card + begun.state.handshakeConns.card) begun :=
    ⟨h.trans (serverAlone_within.reaches hbegun), hshutting, le_rfl, hstill⟩
  obtain ⟨last, hlast, -, hdone⟩ := hshutdown.ends hconfig hreturn
  have hreach := serverAlone_within.reaches (hbegun.trans hlast)
  have hshrinks := shrinks_of_reaches hshutting.1 (serverAlone_within.reaches hlast)
  have hend : Answered kind last :=
    Machine.invariant_of_step (I := Answered kind) (fun hbefore hstep => hbefore.step hstep)
      hanswered hreach
  refine ⟨last, hbegun.trans hlast, hreach, hshrinks.registered.trans hregistered, hdone, ?_⟩
  rcases hend with hreturned | ⟨t, ht, i, hi, -⟩
  · exact hreturned
  · rw [hdone t ht] at hi
    exact absurd hi List.not_mem_nil

/-- Let `Admission`, `OnDisconnect` and the handlers return, at the latest once the server is being
shut down; in particular they do not wait for a call of `Close`.  Whatever a server and its
connections are doing when `Server.Close` or `Server.Abort` is called, and whatever else is called
and happens from then on: as long as no `Serve` that runs has had its listener replaced by a later
one, all goroutines of the server can still return, this call too, with nobody calling anything any
more and no `Accept` failing before the server has closed its listener.  No worker, map entry,
slot, open socket or live connection is left then. -/
theorem server_shutdown_completes {server : Server} (hnew : newServer N setup = .ok server)
    (hreturn : hooks.Return) (h : (serverMachine N P).Reaches (serverStart server) pool)
    (kind : ShutdownKind) :
    ∀ later, (serverMachine N P).Reaches
        ⟨pool.state, pool.threads ++ [[.beginShutdown kind]]⟩ later → OneListener later →
      (serverAlone hooks N P).Leads
        (fun last => (∀ t ∈ last.threads, t = []) ∧
          (∃ err, (kind, err) ∈ last.state.shutdownReturns) ∧
          last.state.Cleared ∧ last.state.handshakes = 0) later := by
  obtain ⟨config, hconfig, rfl⟩ := newServer_eq_new hnew
  intro later hlater hone
  have hmem : [ServerInstr.beginShutdown kind] ∈ pool.threads ++ [[.beginShutdown kind]] := by simp
  have hcall : (serverMachine N P).Step pool
      ⟨pool.state, pool.threads ++ [[.beginShutdown kind]]⟩ := .ambient (.shutdown kind)
  have hsummoned : Summoned later :=
    Machine.invariant_of_step (fun hbefore hstep => Summoned.step hbefore hstep)
      (.inr ⟨kind, hmem⟩) hlater
  have hanswered : Answered kind later :=
    Machine.invariant_of_step (fun hbefore hstep => Answered.step hbefore hstep)
      (.inr ⟨_, hmem, .beginShutdown kind, List.mem_cons_self, rfl⟩) hlater
  have hreached := (h.tail hcall).trans hlater
  obtain ⟨last, hlast, hreach, -, hdone, hreturned⟩ :=
    shutdown_leads hconfig hreturn hreached hone hsummoned hanswered
  have hend := hreached.trans hreach
  refine ⟨last, hlast, hdone, hreturned, cleared_of_wg hconfig hend ?_, ?_⟩
  · rw [wg_eq_load hend]
    refine load_eq_zero fun t ht i hi => ?_
    rw [hdone t ht] at hi
    exact absurd hi List.not_mem_nil
  · have htokens := tokens_eq_card (c := .handshakes) (tallied_of_reaches hconfig hend) hend
    refine htokens.trans (Finset.card_eq_zero.mpr ?_)
    rw [Finset.eq_empty_iff_forall_notMem]
    intro n hn
    obtain ⟨t, ht, i, hi, -⟩ := (mem_holders_iff hend).mp hn
    rw [hdone t ht] at hi
    exact absurd hi List.not_mem_nil

/-- One `Serve` runs, beside a goroutine that does not accept. -/
theorem oneListener_serving {s : Server} {listener : Nat} {t : List ServerInstr}
    (hlistener : s.listener = some listener)
    (ht : t.all (fun i => i.accepts.isNone) = true) :
    OneListener ⟨s, [[.accept listener 0], t] ++ [[.beginShutdown .close]]⟩ := by
  intro t' ht' i hi found haccepts
  simp only [List.cons_append, List.nil_append, List.mem_cons, List.not_mem_nil, or_false] at ht'
  rcases ht' with rfl | rfl | rfl
  · obtain rfl := List.mem_singleton.mp hi
    exact hlistener.trans haccepts
  · have hnone := List.all_eq_true.mp ht i hi
    rw [haccepts] at hnone
    cases hnone
  · obtain rfl := List.mem_singleton.mp hi
    cases haccepts

/-- The server has handed a connection off to its worker, which has not started it yet. -/
theorem serving_run :
    (serverMachine plainExchange transparent).Leads
      (fun pool => pool.state.registered = [0] ∧ pool.state.conns = {0} ∧
        pool.state.inShutdown = false ∧
        OneListener ⟨pool.state, pool.threads ++ [[.beginShutdown .close]]⟩)
      (serverStart (.new hookSetup.normalized)) := by
  refine .step (.ambient (.serve (some 7))) (.first (.serve (.serve rfl)) ?_)
  refine .first (.serve .accepted) (.first (.serve (.handshakeAcquired (by decide))) ?_)
  refine .first (.serve (.handshakeRegistered rfl)) (.first (.serve .launchWorker) ?_)
  refine honest_handshake rfl fun session info reads => ?_
  refine .second (.worker (.releaseHandshake rfl)) ?_
  refine .second (.worker (.connAcquired (Nat.zero_lt_succ _))) ?_
  exact .second (.worker (.handedOff rfl)) (.here ⟨rfl, rfl, rfl, oneListener_serving rfl rfl⟩)

theorem server_shutdown_completes_serving :
    ∃ pool, (serverMachine plainExchange transparent).Reaches
        (serverStart (.new hookSetup.normalized)) pool ∧ pool.state.conns = {0} ∧
      (serverAlone .prompt plainExchange transparent).Leads
        (fun last => (∀ t ∈ last.threads, t = []) ∧
          (∃ err, (ShutdownKind.close, err) ∈ last.state.shutdownReturns) ∧
          last.state.Cleared ∧ last.state.handshakes = 0)
        ⟨pool.state, pool.threads ++ [[.beginShutdown .close]]⟩ := by
  have hnew : newServer plainExchange hookSetup = .ok (.new hookSetup.normalized) := rfl
  obtain ⟨pool, hreach, -, hconns, -, hone⟩ := serving_run
  exact ⟨pool, hreach, hconns,
    server_shutdown_completes hnew Hooks.prompt_return hreach .close _ .refl hone⟩

/-- When a call of `Server.Close` has returned, in this and in every later state: every worker
has returned, both maps are empty, no connection slot is taken, the socket of every worker is
closed, and every connection that the server ever made has ended with a cause. -/
theorem close_leaves_nothing {server : Server} (hnew : newServer N setup = .ok server)
    (h : (serverMachine N P).Reaches (serverStart server) pool) {err : Option Error}
    (hreturned : (ShutdownKind.close, err) ∈ pool.state.shutdownReturns) :
    ∀ later, (serverMachine N P).Reaches pool later →
      later.state.Cleared ∧ later.state.registered = pool.state.registered := by
  obtain ⟨config, hconfig, rfl⟩ := newServer_eq_new hnew
  have hquiet := (attended_of_reaches h).returned err hreturned
  intro later hlater
  have hshrinks := shrinks_of_reaches hquiet.1 hlater
  have hwg : later.state.wg ≤ pool.state.wg := hshrinks.wg
  have hzero : pool.state.wg = 0 := hquiet.2
  exact ⟨cleared_of_wg hconfig (h.trans hlater) (by omega), hshrinks.registered⟩

theorem close_leaves_nothing_serving :
    ∃ pool, (serverMachine plainExchange transparent).Reaches
        (serverStart (.new hookSetup.normalized)) pool ∧
      (∃ err, (ShutdownKind.close, err) ∈ pool.state.shutdownReturns) ∧
      pool.state.registered = [0] ∧ pool.state.Cleared := by
  have hnew : newServer plainExchange hookSetup = .ok (.new hookSetup.normalized) := rfl
  obtain ⟨config, hconfig, heq⟩ := newServer_eq_new hnew
  obtain ⟨serving, hserving, hregistered, -, -, hone⟩ := serving_run
  rw [heq] at hserving ⊢
  have hcall : (serverMachine plainExchange transparent).Step serving
      ⟨serving.state, serving.threads ++ [[.beginShutdown .close]]⟩ := .ambient (.shutdown .close)
  have hmem : [ServerInstr.beginShutdown .close] ∈
      serving.threads ++ [[.beginShutdown .close]] := by simp
  obtain ⟨pool, -, hreach, hsame, -, err, herr⟩ :=
    shutdown_leads hconfig Hooks.prompt_return (hserving.tail hcall) hone (.inr ⟨_, hmem⟩)
      (.inr ⟨_, hmem, .beginShutdown .close, List.mem_cons_self, rfl⟩)
  have hreached := (hserving.tail hcall).trans hreach
  rw [← heq] at hreached ⊢
  obtain ⟨hcleared, -⟩ := close_leaves_nothing hnew hreached herr pool .refl
  exact ⟨pool, hreached, ⟨err, herr⟩, hsame.trans hregistered, hcleared⟩

end Answer

end DgProto
