import DgProto.Server.Runtimes

/-!
# Who owns a socket

A registered socket stands in one of the two maps until it is closed.  `registerHandshake`
puts it into `handshakeConns`, `registerConn` moves it to `conns` under the same lock, and
the deferred calls of a worker take it out only behind a call that closes it.  Both
registrations are refused once a shutdown has begun, so what the first shutdown found in
the maps is all that is still open later.

The order of the deferred calls is a matter of facts that stay true, as for a connection:
`unregisterConn` and `unregisterHandshake` need a closed socket, and the instruction in
front of them gives it.
-/

namespace DgProto

open Library Crypto

/-! ## The maps -/

/-- What `mu` guards, with what was read under it. -/
structure Server.MapSide where
  conns : Finset Nat
  handshakeConns : Finset Nat
  inShutdown : Bool
  wg : Nat
  registered : List Nat
  snapshots : List Snapshot
  samples : List Sample

def Server.mapSide (s : Server) : MapSide :=
  ⟨s.conns, s.handshakeConns, s.inShutdown, s.wg, s.registered, s.snapshots, s.samples⟩

/-- What an instruction does to the maps. -/
inductive MapStep (m : Server.MapSide) : ServerInstr → Server.MapSide → Prop where
  | same {i : ServerInstr} : MapStep m i m
  | registered {listener n : Nat} (h : m.inShutdown = false) :
      MapStep m (.registerHandshake listener n)
        { m with handshakeConns := insert n m.handshakeConns, wg := m.wg + 1
                 registered := m.registered ++ [n] }
  | handedOff {n : Nat} (h : m.inShutdown = false) :
      MapStep m (.registerConn n)
        { m with conns := insert n m.conns, handshakeConns := m.handshakeConns.erase n }
  | unregisteredConn {n : Nat} :
      MapStep m (.unregisterConn n) { m with conns := m.conns.erase n }
  | unregisteredHandshake {n : Nat} :
      MapStep m (.unregisterHandshake n) { m with handshakeConns := m.handshakeConns.erase n }
  | workerDone {n workers : Nat} (h : m.wg = workers + 1) :
      MapStep m (.workerDone n) { m with wg := workers }
  | shutdown {kind : ShutdownKind} {snapshot : Snapshot}
      (hconns : snapshot.conns.toFinset = m.conns)
      (hhandshakes : snapshot.handshakeConns.toFinset = m.handshakeConns) :
      MapStep m (.beginShutdown kind)
        { m with inShutdown := true, snapshots := m.snapshots ++ [snapshot] }
  | counted {sample : Sample} (used capacity : Nat) :
      MapStep m (.countConns sample)
        { m with samples := m.samples ++ [{ sample with
          stats := { sample.stats with
            connectionSlotsUsed := used, connectionSlotsCapacity := capacity } }] }

section MapSteps

variable {N : HandshakePrimitives} {P : Primitives} {s : Server} {i : ServerInstr}
  {effect : Effect Server ServerInstr} {m m' : Server.MapSide}

theorem ServerExec.mapStep (h : ServerExec N P s i effect) :
    MapStep s.mapSide i effect.state.mapSide := by
  cases h with
  | serve h =>
      cases h with
      | handshakeRegistered h => exact .registered h
      | _ => exact .same
  | worker h =>
      cases h with
      | handedOff h => exact .handedOff h
      | unregisterConn => exact .unregisteredConn
      | unregisterHandshake => exact .unregisteredHandshake
      | workerDone h => exact .workerDone h
      | _ => exact .same
  | runtime h => cases h <;> exact .same
  | shutdown h =>
      cases h with
      | beginShutdown snapshot _ hconns hhandshakes => exact .shutdown hconns.2 hhandshakes.2
      | countConns => exact .counted _ _
      | _ => exact .same

theorem ServerAmbient.mapSide_eq {s' : Server} {new : List (List ServerInstr)}
    (h : ServerAmbient P s s' new) : s'.mapSide = s.mapSide := by
  cases h <;> rfl

theorem MapStep.registered_subset (h : MapStep m i m') {n : Nat} (hn : n ∈ m.registered) :
    n ∈ m'.registered := by
  cases h with
  | registered => exact List.mem_append_left _ hn
  | _ => exact hn

/-- Nothing is added to the maps and no worker is started once a shutdown has begun. -/
structure Server.MapSide.Shrinks (m m' : Server.MapSide) : Prop where
  inShutdown : m'.inShutdown = true
  conns : m'.conns ⊆ m.conns
  handshakeConns : m'.handshakeConns ⊆ m.handshakeConns
  wg : m'.wg ≤ m.wg
  registered : m'.registered = m.registered

theorem MapStep.shrinks (h : MapStep m i m') (hshutdown : m.inShutdown = true) :
    m.Shrinks m' := by
  cases h with
  | registered hopen | handedOff hopen => exact absurd (hopen.symm.trans hshutdown) (by decide)
  | unregisteredConn => exact ⟨hshutdown, Finset.erase_subset _ _, subset_rfl, le_rfl, rfl⟩
  | unregisteredHandshake => exact ⟨hshutdown, subset_rfl, Finset.erase_subset _ _, le_rfl, rfl⟩
  | @workerDone n workers hwg =>
      refine ⟨hshutdown, subset_rfl, subset_rfl, ?_, rfl⟩
      show workers ≤ m.wg
      omega
  | shutdown => exact ⟨rfl, subset_rfl, subset_rfl, le_rfl, rfl⟩
  | _ => exact ⟨hshutdown, subset_rfl, subset_rfl, le_rfl, rfl⟩

theorem Server.MapSide.Shrinks.trans {m'' : Server.MapSide} (h : m.Shrinks m')
    (h' : m'.Shrinks m'') : m.Shrinks m'' :=
  ⟨h'.inShutdown, h'.conns.trans h.conns, h'.handshakeConns.trans h.handshakeConns,
    h'.wg.trans h.wg, h'.registered.trans h.registered⟩

end MapSteps

/-! ## Facts -/

/-- The counts are those of two maps without a common socket. -/
structure Sample.Exact (sample : Sample) : Prop where
  pending : sample.stats.pendingConnections = sample.handshakeConns.card
  active : sample.stats.activeConnections = sample.conns.card
  disjoint : Disjoint sample.handshakeConns sample.conns

/-- A fact that stays true. -/
inductive ServerFact where
  | registered (n : Nat)
  | socketClosed (n : Nat)
  | terminated (n : Nat)
  /-- The goroutine of the connection is that of a call of `Close`. -/
  | closing (n k : Nat)
  | counted (sample : Sample)
  deriving DecidableEq

/-- What a fact says. -/
def Server.Knows (s : Server) : ServerFact → Prop
  | .registered n => n ∈ s.registered
  | .socketClosed n => s.SocketClosed n
  | .terminated n => ∃ runtime, s.runtimes n = some runtime ∧ runtime.state.Terminated
  | .closing n k => ∃ runtime, s.runtimes n = some runtime ∧ CloseCalled k runtime
  | .counted sample => sample.Exact

namespace ServerInstr

/-- What must hold when an instruction is reached. -/
@[simp] def needs : ServerInstr → List ServerFact
  | .launchWorker _ n | .performHandshake n | .exchange n _ | .acquireConn n _ _
  | .callAdmission n _ | .registerConn n => [.registered n]
  | .unregisterConn n | .unregisterHandshake n => [.socketClosed n]
  | .awaitCall n .close k => [.closing n k]
  | .callDisconnect n _ | .releaseConn n => [.terminated n]
  | .countHandshakes sample | .countConns sample => [.counted sample]
  | _ => []

/-- What holds once an instruction and everything it pushed has been executed. -/
@[simp] def gives : ServerInstr → List ServerFact
  | .closeSocket n => [.socketClosed n]
  | .awaitDone n => [.socketClosed n, .terminated n]
  | .callConn n .close | .awaitCall n .close _ | .callAdmission n _ | .registerConn n =>
      [.terminated n]
  | _ => []

end ServerInstr

/-- The thread finds the facts that it needs. -/
abbrev ServerInformed (s : Server) : List ServerInstr → Prop :=
  Backed ServerInstr.needs ServerInstr.gives s.Knows

theorem Server.Knows.step {P : Primitives} {s s' : Server} {f : ServerFact} (h : s.Knows f)
    (hruns : s.Runs P) (hstep : RuntimesStep P s s')
    (hregistered : ∀ {n}, n ∈ s.registered → n ∈ s'.registered) : s'.Knows f := by
  cases f with
  | registered n => exact hregistered h
  | socketClosed n => exact hstep.socketClosed hruns h
  | terminated n => exact hstep.terminated hruns h
  | closing n k => exact hstep.closing hruns h
  | counted sample => exact h

/-- What the effect leaves to do finds the facts it needs. -/
abbrev Informs (i : ServerInstr) (effect : Effect Server ServerInstr) : Prop :=
  effect.Backs ServerInstr.needs ServerInstr.gives effect.state.Knows i

section Facts

variable {N : HandshakePrimitives} {P : Primitives} {s : Server} {i : ServerInstr}
  {effect : Effect Server ServerInstr}

theorem ServeExec.informs (h : ServeExec s i effect) (hneeds : ∀ f ∈ i.needs, s.Knows f) :
    Informs i effect := by
  cases h with
  | @handshakeRegistered listener n =>
      refine .of_known [.registered n] (by simp [backs])
        (List.forall_mem_singleton.mpr ?_) (by simp)
      exact List.mem_append_right _ List.mem_cons_self
  | @launchWorker listener n =>
      refine .of_known [.registered n] ?_ hneeds (by simp)
      simp [backs, workerProgram]
  | _ => exact .of_free rfl rfl

theorem WorkerExec.informs (h : WorkerExec N P s i effect)
    (hneeds : ∀ f ∈ i.needs, s.Knows f) : Informs i effect := by
  cases h with
  | @performHandshake n | @frameWritten n | @frameRead n | @readFailed n | @handshakeDone n =>
      exact .of_known [.registered n] (by simp [backs]) hneeds
        (by simp)
  | @connAcquired n session info =>
      have hregistered : n ∈ s.registered := hneeds (.registered n) (by simp)
      refine .of_known [.registered n] ?_ (List.forall_mem_singleton.mpr hregistered)
        (by simp)
      cases hadmission : s.config.admission <;> cases hhook : s.config.onDisconnect <;>
        simp [backs, afterSlot, handoff, hadmission, hhook]
  | @admissionAccepted n info =>
      refine .of_known [.registered n] ?_ hneeds (List.forall_mem_singleton.mpr (.inr ?_))
      · cases hhook : s.config.onDisconnect <;>
          simp [backs, handoff, hhook]
      · exact ⟨.registerConn n, by simp [handoff], by simp⟩
  | @handedOff n =>
      -- the hook runs behind the end of the connection
      refine .of_known [] ?_ (by simp) (List.forall_mem_singleton.mpr (.inr ?_))
      · simp [backs, runConn, connContext]
      · exact ⟨.awaitDone n, by simp [runConn], by simp⟩
  | @admissionRejected n | @admissionPanicked n | @handoffRefused n =>
      refine .of_known [] rfl (by simp) (List.forall_mem_singleton.mpr (.inr ?_))
      exact ⟨.callConn n .close, by simp, by simp⟩
  | @closeSocket n =>
      refine .of_known [] rfl (by simp) (List.forall_mem_singleton.mpr (.inl ?_))
      exact .inl (Function.update_self ..)
  | _ => exact .of_free rfl rfl

theorem RuntimeExec.informs (h : RuntimeExec s i effect) (hneeds : ∀ f ∈ i.needs, s.Knows f)
    (hruns : s.Runs P) : Informs i effect := by
  cases h with
  | @callConn n api runtime hruntime =>
      cases api with
      | close =>
          refine .of_known [.closing n runtime.threads.length]
            (by simp [backs]) (List.forall_mem_singleton.mpr ?_)
            (List.forall_mem_singleton.mpr (.inr ?_))
          · exact ⟨_, Function.update_self .., CloseCalled.start _ _ _⟩
          · exact ⟨.awaitCall n .close _, List.mem_cons_self, by simp⟩
      | _ => exact .of_free rfl rfl
  | @callReturned n k api runtime hruntime hreturned =>
      cases api with
      | close =>
          obtain ⟨runtime', hruntime', hcalled⟩ :=
            hneeds (.closing n k) (by simp)
          obtain rfl : runtime = runtime' := Option.some.inj (hruntime.symm.trans hruntime')
          refine .of_known [] rfl (by simp) (List.forall_mem_singleton.mpr (.inl ?_))
          exact ⟨runtime, hruntime, hruns.closed hruntime hcalled hreturned⟩
      | _ => exact .of_free rfl rfl
  | @done n runtime hruntime hdone =>
      obtain ⟨hclosed, hterminated⟩ := hruns.done hruntime hdone
      refine .of_known [] rfl (by simp) fun f hf => .inl ?_
      have hcases : f = .socketClosed n ∨ f = .terminated n := by
        simpa using hf
      rcases hcases with rfl | rfl
      · exact hclosed
      · exact ⟨runtime, hruntime, hterminated⟩
  | _ => exact .of_free rfl rfl

/-- Nothing that a shutdown has left to do needs a fact. -/
theorem informed_shutdownProgram (kind : ShutdownKind) (snapshot : Snapshot) (err : Option Error) :
    ServerInformed s (shutdownProgram kind snapshot err) := by
  refine Backed.of_needless fun i hi => ?_
  rcases mem_shutdownProgram hi with ⟨n, rfl⟩ | ⟨n, rfl⟩ | rfl | rfl <;> rfl

theorem ShutdownExec.informs (h : ShutdownExec s i effect)
    (hneeds : ∀ f ∈ i.needs, s.Knows f) (hdisjoint : Disjoint s.handshakeConns s.conns) :
    Informs i effect := by
  cases h with
  | closeListener =>
      refine ⟨List.forall_mem_singleton.mpr (informed_shutdownProgram _ _ _), ?_⟩
      simp
  | stats =>
      have hexact : Sample.Exact ⟨s.handshakeConns, s.conns,
          ⟨0, 0, 0, 0, s.handshakeConns.card, s.conns.card, s.inShutdown⟩⟩ :=
        ⟨rfl, rfl, hdisjoint⟩
      refine ⟨List.forall_mem_singleton.mpr ⟨List.forall_mem_singleton.mpr hexact, trivial⟩, ?_⟩
      simp
  | @countHandshakes sample =>
      have hexact : sample.Exact := hneeds (.counted sample) (by simp)
      refine ⟨List.forall_mem_singleton.mpr ⟨List.forall_mem_singleton.mpr ?_, trivial⟩, ?_⟩
      · exact ⟨hexact.pending, hexact.active, hexact.disjoint⟩
      · simp
  | _ => exact .of_free rfl rfl

theorem ServerExec.informs (h : ServerExec N P s i effect) (hneeds : ∀ f ∈ i.needs, s.Knows f)
    (hruns : s.Runs P) (hdisjoint : Disjoint s.handshakeConns s.conns) :
    Informs i effect := by
  cases h with
  | serve h | worker h => exact h.informs hneeds
  | runtime h => exact h.informs hneeds hruns
  | shutdown h => exact h.informs hneeds hdisjoint

end Facts

/-! ## Owners -/

/-- Who owns the sockets, given those that are closed. -/
structure Server.MapSide.Owns (m : Server.MapSide) (closed : Nat → Prop) : Prop where
  owned : ∀ n ∈ m.registered, closed n ∨ n ∈ m.handshakeConns ∨ n ∈ m.conns
  handshaking : ∀ n ∈ m.handshakeConns, n ∈ m.registered
  running : ∀ n ∈ m.conns, n ∈ m.registered
  disjoint : Disjoint m.handshakeConns m.conns
  counted : ∀ sample ∈ m.samples, sample.Exact
  begun : m.snapshots ≠ [] → m.inShutdown = true
  /-- What is still owned is in the first snapshot. -/
  first : ∀ snapshot, m.snapshots.head? = some snapshot →
    m.handshakeConns ⊆ snapshot.handshakeConns.toFinset ∧ m.conns ⊆ snapshot.conns.toFinset

section Owners

variable {N : HandshakePrimitives} {P : Primitives} {config : ServerSetup} {s : Server}
  {i : ServerInstr} {m' : Server.MapSide} {before after pool : Pool Server ServerInstr}

/-- A server that is not being shut down has taken no snapshot. -/
theorem Server.MapSide.Owns.head?_ne {m : Server.MapSide} {closed : Nat → Prop}
    (h : m.Owns closed) (hopen : m.inShutdown = false) (snapshot : Snapshot) :
    m.snapshots.head? ≠ some snapshot := by
  intro hhead
  have hne : m.snapshots ≠ [] := by
    rintro hnil
    rw [hnil] at hhead
    cases hhead
  exact absurd (hopen.symm.trans (h.begun hne)) (by decide)

theorem MapStep.owns (h : MapStep s.mapSide i m') (howns : s.mapSide.Owns s.SocketClosed)
    (hneeds : ∀ f ∈ i.needs, s.Knows f)
    (hfresh : ∀ listener n, i = .registerHandshake listener n → n ∉ s.registered) :
    m'.Owns s.SocketClosed := by
  have hnone := howns.head?_ne
  obtain ⟨howned, hhandshaking, hrunning, hdisjoint, hcounted, hbegun, hfirst⟩ := howns
  cases h with
  | same | workerDone => exact ⟨howned, hhandshaking, hrunning, hdisjoint, hcounted, hbegun, hfirst⟩
  | @registered listener n hopen =>
      have hnew : n ∉ s.conns := fun hn => hfresh listener n rfl (hrunning n hn)
      refine ⟨fun k hk => ?_, fun k hk => ?_, fun k hk => ?_, ?_, hcounted, hbegun,
        fun snapshot hhead => absurd hhead (hnone hopen snapshot)⟩
      · rcases List.mem_append.mp hk with hold | hk
        · exact (howned k hold).imp_right (Or.imp_left Finset.mem_insert_of_mem)
        · obtain rfl := List.mem_singleton.mp hk
          exact .inr (.inl (Finset.mem_insert_self ..))
      · rcases Finset.mem_insert.mp hk with rfl | hold
        · exact List.mem_append_right _ List.mem_cons_self
        · exact List.mem_append_left _ (hhandshaking k hold)
      · exact List.mem_append_left _ (hrunning k hk)
      · exact Finset.disjoint_insert_left.mpr ⟨hnew, hdisjoint⟩
  | @handedOff n hopen =>
      have hregistered : n ∈ s.registered := hneeds (.registered n) (by simp)
      refine ⟨fun k hk => ?_, fun k hk => hhandshaking k (Finset.mem_of_mem_erase hk),
        fun k hk => ?_, ?_, hcounted, hbegun,
        fun snapshot hhead => absurd hhead (hnone hopen snapshot)⟩
      · by_cases hkn : k = n
        · exact .inr (.inr (Finset.mem_insert.mpr (.inl hkn)))
        · rcases howned k hk with hclosed | hold | hold
          · exact .inl hclosed
          · exact .inr (.inl (Finset.mem_erase.mpr ⟨hkn, hold⟩))
          · exact .inr (.inr (Finset.mem_insert_of_mem hold))
      · rcases Finset.mem_insert.mp hk with rfl | hold
        · exact hregistered
        · exact hrunning k hold
      · refine Finset.disjoint_insert_right.mpr ⟨Finset.notMem_erase n _, ?_⟩
        exact hdisjoint.mono_left (Finset.erase_subset n _)
  | @unregisteredConn n =>
      have hclosed : s.SocketClosed n := hneeds (.socketClosed n) (by simp)
      refine ⟨fun k hk => ?_, hhandshaking, fun k hk => hrunning k (Finset.mem_of_mem_erase hk),
        hdisjoint.mono_right (Finset.erase_subset n _), hcounted, hbegun,
        fun snapshot hhead => ?_⟩
      · by_cases hkn : k = n
        · exact .inl (hkn ▸ hclosed)
        · exact (howned k hk).imp_right (Or.imp_right fun hold => Finset.mem_erase.mpr ⟨hkn, hold⟩)
      · obtain ⟨hhandshakes, hconns⟩ := hfirst snapshot hhead
        exact ⟨hhandshakes, (Finset.erase_subset n _).trans hconns⟩
  | @unregisteredHandshake n =>
      have hclosed : s.SocketClosed n := hneeds (.socketClosed n) (by simp)
      refine ⟨fun k hk => ?_, fun k hk => hhandshaking k (Finset.mem_of_mem_erase hk), hrunning,
        hdisjoint.mono_left (Finset.erase_subset n _), hcounted, hbegun,
        fun snapshot hhead => ?_⟩
      · by_cases hkn : k = n
        · exact .inl (hkn ▸ hclosed)
        · exact (howned k hk).imp_right (Or.imp_left fun hold => Finset.mem_erase.mpr ⟨hkn, hold⟩)
      · obtain ⟨hhandshakes, hconns⟩ := hfirst snapshot hhead
        exact ⟨(Finset.erase_subset n _).trans hhandshakes, hconns⟩
  | @shutdown kind snapshot hconns hhandshakes =>
      refine ⟨howned, hhandshaking, hrunning, hdisjoint, hcounted, fun _ => rfl,
        fun found hhead => ?_⟩
      -- the first snapshot is an older one, or the one taken now
      rw [List.head?_append] at hhead
      cases hold : s.mapSide.snapshots.head? with
      | some old =>
          rw [hold] at hhead
          exact hfirst found (hold.trans hhead)
      | none =>
          rw [hold] at hhead
          obtain rfl : snapshot = found := Option.some.inj hhead
          exact ⟨hhandshakes.symm.subset, hconns.symm.subset⟩
  | @counted sample used capacity =>
      have hexact : sample.Exact := hneeds (.counted sample) (by simp)
      refine ⟨howned, hhandshaking, hrunning, hdisjoint, fun found hfound => ?_, hbegun, hfirst⟩
      rcases List.mem_append.mp hfound with hold | hnew
      · exact hcounted found hold
      · obtain rfl := List.mem_singleton.mp hnew
        exact ⟨hexact.pending, hexact.active, hexact.disjoint⟩

theorem Server.MapSide.Owns.mono {m : Server.MapSide} {closed closed' : Nat → Prop}
    (h : m.Owns closed) (hle : ∀ n, closed n → closed' n) : m.Owns closed' :=
  ⟨fun n hn => (h.owned n hn).imp_left (hle n), h.handshaking, h.running, h.disjoint, h.counted,
    h.begun, h.first⟩

/-- What holds in every pool of goroutines that a new server reaches. -/
structure Owned (P : Primitives) (pool : Pool Server ServerInstr) : Prop where
  runs : pool.state.Runs P
  informed : ∀ t ∈ pool.threads, ServerInformed pool.state t
  owns : pool.state.mapSide.Owns pool.state.SocketClosed

/-- A socket is registered once. -/
theorem unregistered_of_reaches (h : (serverMachine N P).Reaches (serverStart (.new config)) pool)
    {k : Nat} {i : ServerInstr} {rest : List ServerInstr}
    (hk : pool.threads[k]? = some (i :: rest)) (listener n : Nat)
    (hi : i = .registerHandshake listener n) : n ∉ pool.state.registered := by
  subst hi
  have hstage := registered_count_le n h
  have honce := acquired_count_le n h
  have hload : (ServerToken.registered n).weight (.registerHandshake listener n) ≤
      load (ServerToken.registered n).weight pool.threads :=
    weight_le_load (List.mem_of_getElem? hk) List.mem_cons_self
  have hweight : (ServerToken.registered n).weight (.registerHandshake listener n) = 1 := if_pos rfl
  rw [← List.count_eq_zero]
  omega

theorem Owned.step (h : Owned P before)
    (hreach : (serverMachine N P).Reaches (serverStart (.new config)) before)
    (hstep : (serverMachine N P).Step before after) : Owned P after := by
  have hruntimes := runtimesStep_of_step h.runs hreach hstep
  refine ⟨h.runs.step hruntimes, ?_, ?_⟩
  · cases hstep with
    | @thread s threads k i rest effect hk hexec =>
        have hneeds := (h.informed _ (List.mem_of_getElem? hk)).1
        have hinforms := ServerExec.informs hexec hneeds h.runs h.owns.disjoint
        have hmap := ServerExec.mapStep hexec
        refine hinforms.step h.informed hk fun f hf => ?_
        exact hf.step h.runs hruntimes hmap.registered_subset
    | @ambient s s' threads new hambient =>
        have hside : s'.registered = s.registered :=
          congrArg Server.MapSide.registered (ServerAmbient.mapSide_eq hambient)
        intro t ht
        rcases List.mem_append.mp ht with hold | hnew
        · refine (h.informed t hold).mono fun f hf => hf.step h.runs hruntimes fun hn => ?_
          show _ ∈ s'.registered
          rwa [hside]
        · cases hambient with
          | runtime => exact absurd hnew List.not_mem_nil
          | _ =>
              obtain rfl := List.mem_singleton.mp hnew
              exact ⟨fun f hf => absurd hf List.not_mem_nil, trivial⟩
  · refine Server.MapSide.Owns.mono ?_ fun n hn => hruntimes.socketClosed h.runs hn
    cases hstep with
    | thread k hk hexec =>
        have hneeds := (h.informed _ (List.mem_of_getElem? hk)).1
        exact (ServerExec.mapStep hexec).owns h.owns hneeds (unregistered_of_reaches hreach hk)
    | ambient hambient =>
        rw [ServerAmbient.mapSide_eq hambient]
        exact h.owns

theorem owned_of_reaches (h : (serverMachine N P).Reaches (serverStart (.new config)) pool) :
    Owned P pool := by
  induction h with
  | refl =>
      refine ⟨runs_of_reaches (N := N) .refl, by simp [serverStart], ?_⟩
      constructor <;> simp [serverStart, Server.mapSide, Server.new]
  | tail hreach hstep ih => exact ih.step hreach hstep

/-! ## Leaving the maps -/

/-- A socket leaves the maps behind a call that has closed it. -/
theorem MapStep.closed_of_removed (h : MapStep s.mapSide i m') (hneeds : ∀ f ∈ i.needs, s.Knows f)
    {n : Nat} (hn : n ∈ s.handshakeConns ∨ n ∈ s.conns) (hhandshakes : n ∉ m'.handshakeConns)
    (hconns : n ∉ m'.conns) : s.SocketClosed n := by
  cases h with
  | registered =>
      exact absurd hn (not_or.mpr ⟨fun hold => hhandshakes (Finset.mem_insert_of_mem hold), hconns⟩)
  | @handedOff k =>
      -- it has moved to the other map
      have hk : n ≠ k := fun hnk => hconns (Finset.mem_insert.mpr (.inl hnk))
      rcases hn with hold | hold
      · exact absurd (Finset.mem_erase.mpr ⟨hk, hold⟩) hhandshakes
      · exact absurd (Finset.mem_insert_of_mem hold) hconns
  | @unregisteredConn k =>
      have hold : n ∈ s.conns := hn.resolve_left hhandshakes
      obtain rfl : n = k := by
        by_contra hk
        exact hconns (Finset.mem_erase.mpr ⟨hk, hold⟩)
      exact hneeds (.socketClosed n) (by simp)
  | @unregisteredHandshake k =>
      have hold : n ∈ s.handshakeConns := hn.resolve_right hconns
      obtain rfl : n = k := by
        by_contra hk
        exact hhandshakes (Finset.mem_erase.mpr ⟨hk, hold⟩)
      exact hneeds (.socketClosed n) (by simp)
  | _ => exact absurd hn (not_or.mpr ⟨hhandshakes, hconns⟩)

theorem Owned.closed_of_removed (h : Owned P before)
    (hstep : (serverMachine N P).Step before after) {n : Nat}
    (hn : n ∈ before.state.handshakeConns ∨ n ∈ before.state.conns)
    (hhandshakes : n ∉ after.state.handshakeConns) (hconns : n ∉ after.state.conns) :
    before.state.SocketClosed n := by
  cases hstep with
  | thread k hk hexec =>
      have hneeds := (h.informed _ (List.mem_of_getElem? hk)).1
      exact (ServerExec.mapStep hexec).closed_of_removed hneeds hn hhandshakes hconns
  | @ambient s s' threads new hambient =>
      have hside := ServerAmbient.mapSide_eq hambient
      have hsame : s'.handshakeConns = s.handshakeConns ∧ s'.conns = s.conns :=
        ⟨congrArg Server.MapSide.handshakeConns hside, congrArg Server.MapSide.conns hside⟩
      rcases hn with hold | hold
      · exact absurd (hsame.1.symm ▸ hold) hhandshakes
      · exact absurd (hsame.2.symm ▸ hold) hconns

/-- From the beginning of a shutdown on the maps shrink. -/
theorem shrinks_of_reaches {later : Pool Server ServerInstr}
    (hshutdown : pool.state.inShutdown = true) (h : (serverMachine N P).Reaches pool later) :
    pool.state.mapSide.Shrinks later.state.mapSide := by
  refine Machine.invariant_of_step
    (I := fun later => pool.state.mapSide.Shrinks later.state.mapSide) ?_
    ⟨hshutdown, subset_rfl, subset_rfl, le_rfl, rfl⟩ h
  intro before after hbefore hstep
  cases hstep with
  | thread k hk hexec =>
      exact hbefore.trans ((ServerExec.mapStep hexec).shrinks hbefore.inShutdown)
  | ambient hambient =>
      rw [ServerAmbient.mapSide_eq hambient]
      exact hbefore

theorem newServer_eq_new {setup : ServerSetup} {server : Server}
    (h : newServer N setup = .ok server) :
    ∃ config, newServerConfig N setup = .ok config ∧ server = .new config := by
  unfold newServer at h
  cases hconfig : newServerConfig N setup with
  | error err =>
      rw [hconfig] at h
      cases h
  | ok config =>
      rw [hconfig] at h
      exact ⟨config, rfl, (Except.ok.inj h).symm⟩

/-- Shutdown owns every socket.  In every state of every interleaving a registered socket
that is not closed is in exactly one of the two maps, and it leaves them only when it has
been closed.  Once a shutdown has begun nothing is added to the maps and no worker to the
wait group; so all that is still open was in the first snapshot.  And the two counts of a
`Stats` call count different sockets. -/
theorem shutdown_owns_every_socket {setup : ServerSetup} {server : Server}
    (hnew : newServer N setup = .ok server)
    (h : (serverMachine N P).Reaches (serverStart server) pool) :
    (∀ n ∈ pool.state.registered, ¬ pool.state.SocketClosed n →
      Xor (n ∈ pool.state.handshakeConns) (n ∈ pool.state.conns)) ∧
    (∀ after, (serverMachine N P).Step pool after → ∀ n,
      n ∈ pool.state.handshakeConns ∨ n ∈ pool.state.conns →
      n ∉ after.state.handshakeConns → n ∉ after.state.conns → pool.state.SocketClosed n) ∧
    (pool.state.snapshots ≠ [] → ∀ later, (serverMachine N P).Reaches pool later →
      later.state.handshakeConns ⊆ pool.state.handshakeConns ∧
      later.state.conns ⊆ pool.state.conns ∧
      later.state.wg ≤ pool.state.wg ∧ later.state.registered = pool.state.registered) ∧
    (∀ first, pool.state.snapshots.head? = some first → ∀ n ∈ pool.state.registered,
      ¬ pool.state.SocketClosed n → n ∈ first.handshakeConns ∨ n ∈ first.conns) ∧
    (∀ sample ∈ pool.state.samples,
      sample.stats.pendingConnections = sample.handshakeConns.card ∧
      sample.stats.activeConnections = sample.conns.card ∧
      sample.stats.pendingConnections + sample.stats.activeConnections =
        (sample.handshakeConns ∪ sample.conns).card) := by
  obtain ⟨config, -, rfl⟩ := newServer_eq_new hnew
  have howned := owned_of_reaches h
  have howns := howned.owns
  have hopen : ∀ n ∈ pool.state.registered, ¬ pool.state.SocketClosed n →
      n ∈ pool.state.handshakeConns ∨ n ∈ pool.state.conns :=
    fun n hn hclosed => (howns.owned n hn).resolve_left hclosed
  refine ⟨fun n hn hclosed => ?_, fun after hstep n hn => howned.closed_of_removed hstep hn, ?_, ?_,
    fun sample hsample => ?_⟩
  · have hone : ¬ (n ∈ pool.state.handshakeConns ∧ n ∈ pool.state.conns) := by
      rintro ⟨hhandshakes, hconns⟩
      exact Finset.disjoint_left.mp howns.disjoint hhandshakes hconns
    rcases hopen n hn hclosed with hhandshakes | hconns
    · exact .inl ⟨hhandshakes, fun hconns => hone ⟨hhandshakes, hconns⟩⟩
    · exact .inr ⟨hconns, fun hhandshakes => hone ⟨hhandshakes, hconns⟩⟩
  · intro hbegun later hlater
    have hshrinks := shrinks_of_reaches (howns.begun hbegun) hlater
    exact ⟨hshrinks.handshakeConns, hshrinks.conns, hshrinks.wg, hshrinks.registered⟩
  · intro first hfirst n hn hclosed
    obtain ⟨hhandshakes, hconns⟩ := howns.first first hfirst
    refine (hopen n hn hclosed).imp (fun hold => ?_) (fun hold => ?_)
    · exact List.mem_toFinset.mp (hhandshakes hold)
    · exact List.mem_toFinset.mp (hconns hold)
  · obtain ⟨hpending, hactive, hdisjoint⟩ := howns.counted sample hsample
    refine ⟨hpending, hactive, ?_⟩
    rw [Finset.card_union_of_disjoint hdisjoint, hpending, hactive]

/-- A socket is registered, counted and found by `Close` while its handshake runs. -/
theorem shutdown_owns_every_socket_sample :
    newServer plainExchange sampleServerSetup = .ok (.new sampleServerSetup.normalized) ∧
    ∃ pool, (serverMachine plainExchange transparent).Reaches
        (serverStart (.new sampleServerSetup.normalized)) pool ∧
      pool.state.registered = [0] ∧ pool.state.snapshots = [⟨some 7, [], [0]⟩] ∧
      Xor (0 ∈ pool.state.handshakeConns) (0 ∈ pool.state.conns) ∧
      ∀ sample ∈ pool.state.samples,
        sample.stats.pendingConnections + sample.stats.activeConnections = 1 := by
  have hnew : newServer plainExchange sampleServerSetup =
      .ok (.new sampleServerSetup.normalized) := rfl
  have hleads : (serverMachine plainExchange transparent).Leads
      (fun pool => pool.state.registered = [0] ∧ ¬ pool.state.SocketClosed 0 ∧
        pool.state.snapshots = [⟨some 7, [], [0]⟩] ∧
        pool.state.samples.map (fun sample => (sample.handshakeConns, sample.conns)) = [({0}, ∅)])
      (serverStart (.new sampleServerSetup.normalized)) := by
    refine .step (.ambient (.serve (some 7))) (.first (.serve (.serve rfl)) ?_)
    refine .first (.serve .accepted) (.first (.serve (.handshakeAcquired (by decide))) ?_)
    refine .first (.serve (.handshakeRegistered rfl)) (.first (.serve .launchWorker) ?_)
    refine .step (.ambient .stats) (.after [_, _] (.shutdown .stats) ?_)
    refine .after [_, _] (.shutdown .countHandshakes) (.after [_, _] (.shutdown .countConns) ?_)
    refine .step (.ambient (.shutdown .close)) ?_
    refine .after [_, _, _] (.shutdown (.beginShutdown ⟨some 7, [], [0]⟩ rfl ?_ ?_)) ?_
    · exact ⟨List.nodup_nil, rfl⟩
    · exact ⟨List.nodup_singleton 0, rfl⟩
    refine .here ⟨rfl, ?_, rfl, rfl⟩
    rintro (hserver | ⟨runtime, hruntime, -⟩)
    · cases hserver
    · cases hruntime
  obtain ⟨pool, hreach, hregistered, hopen, hsnapshots, hsamples⟩ := hleads
  have hfacts := shutdown_owns_every_socket hnew hreach
  refine ⟨hnew, pool, hreach, hregistered, hsnapshots, hfacts.1 0 ?_ hopen,
    fun sample hsample => ?_⟩
  · rw [hregistered]
    exact List.mem_cons_self
  · have hmaps : (sample.handshakeConns, sample.conns) ∈ [(({0} : Finset Nat), (∅ : Finset Nat))] :=
      hsamples ▸ List.mem_map_of_mem hsample
    obtain ⟨hhandshakes, hconns⟩ := Prod.ext_iff.mp (List.mem_singleton.mp hmaps)
    rw [(hfacts.2.2.2.2 sample hsample).2.2]
    simp only at hhandshakes hconns
    rw [hhandshakes, hconns]
    rfl

end Owners

end DgProto
