import DgProto.Connection.Teardown
import DgProto.Server.Disconnect

/-!
# What the goroutines of a server can rely on

A worker that waits for its connection is never alone with it: a watcher has been started that
closes the connection when the server shuts down, has done so, or the connection is over
(`Chased`).  A call of a method of a connection finds the connection, and a call that stops it
leaves a connection that is going to be stopped (`Stopped`).

`ServerSign` collects these facts.  An instruction relies on some and assures others, in the way
of `ServerFact`; but unlike those they are about who is going to end a wait, so they may speak about
the other goroutines of the server.  `Attended` is the invariant.  Beside the facts it says that
whatever is in one of the two maps is still to be taken out by a goroutine, and that a `Close` which
has returned leaves no worker.
-/

namespace DgProto

open Library Crypto

/-! ## Signs -/

/-- The context of the connection has been canceled, or somebody is going to. -/
def Stopped (runtime : Pool Connection Instr) : Prop :=
  runtime.state.cancelCause ≠ none ∨ Pledged runtime

/-- A watcher is going to call `Close` of the connection, `Close` has been called, or the
connection is done. -/
def Chased (pool : Pool Server ServerInstr) (n : Nat) : Prop :=
  [.watchClosed n] ∈ pool.threads ∨ [.callConn n .close] ∈ pool.threads ∨
    ∃ runtime, pool.state.runtimes n = some runtime ∧
      (Pursued runtime ∨ 0 < runtime.state.doneCloses)

/-- A fact that stays true in the runs of a server. -/
inductive ServerSign where
  /-- The worker has made its connection. -/
  | made (n : Nat)
  /-- The connection has had a goroutine of this number. -/
  | called (n k : Nat)
  | stopped (n : Nat)
  | chased (n : Nat)
  /-- The connection is done. -/
  | ended (n : Nat)
  | shutting
  /-- A shutdown has begun and all workers have returned. -/
  | quiet
  deriving DecidableEq

/-- What a sign says. -/
def ServerSign.Seen (pool : Pool Server ServerInstr) : ServerSign → Prop
  | .made n => ∃ runtime, pool.state.runtimes n = some runtime
  | .called n k => ∃ runtime, pool.state.runtimes n = some runtime ∧ k < runtime.threads.length
  | .stopped n => ∃ runtime, pool.state.runtimes n = some runtime ∧ Stopped runtime
  | .chased n => Chased pool n
  | .ended n => ∃ runtime, pool.state.runtimes n = some runtime ∧ 0 < runtime.state.doneCloses
  | .shutting => pool.state.inShutdown = true
  | .quiet => pool.state.inShutdown = true ∧ pool.state.wg = 0

namespace ServerInstr

/-- What an instruction relies on. -/
@[simp] def relies : ServerInstr → List ServerSign
  | .callAdmission n _ | .registerConn n | .launchWatcher n | .watchClosed n
  | .callDisconnect n _ => [.made n]
  | .callConn n api => .made n :: if api.stops then [] else [.chased n]
  | .awaitCall n api k => .called n k :: if api.stops then [.stopped n] else [.chased n]
  | .awaitDone n => [.made n, .chased n]
  | .cancelConn n => [.ended n]
  | .closeListener _ snapshot => .shutting :: snapshot.conns.map .made
  | .awaitWorkers => [.shutting]
  | .returnShutdown .close _ => [.quiet]
  | _ => []

/-- What is true once an instruction and everything it pushed has been executed. -/
@[simp] def assures : ServerInstr → List ServerSign
  | .launchWatcher n => [.chased n]
  | .awaitDone n => [.ended n]
  | .awaitWorkers => [.quiet]
  | _ => []

end ServerInstr

/-- The thread can rely on what it needs. -/
abbrev Relying (pool : Pool Server ServerInstr) : List ServerInstr → Prop :=
  Backed ServerInstr.relies ServerInstr.assures (ServerSign.Seen pool)

section Signs

variable {N : HandshakePrimitives} {P : Primitives} {config : ServerSetup}
  {before after : Pool Server ServerInstr}

/-- Only a worker whose connection is done ends the watch. -/
def ContextKept (s : Server) : Prop :=
  ∀ n runtime, s.runtimes n = some runtime → runtime.state.callers 0 ≠ none →
    0 < runtime.state.doneCloses

theorem doneCloses_pos_step {runtime later : Pool Connection Instr}
    (hstep : (connectionMachine P).Step runtime later) (h : 0 < runtime.state.doneCloses) :
    0 < later.state.doneCloses := by
  cases hstep with
  | @thread s threads k i rest effect hk hexec =>
      have hexec : Exec P s i effect := hexec
      cases hexec with
      | lifecycle h' =>
          cases h' with
          | closeDone => exact Nat.succ_pos _
          | _ => exact h
      | queue h' | write h' | receive h' | keepalive h' => exact h'.frame ▸ h
  | ambient hambient => cases hambient <;> exact h

theorem threads_length_step {runtime later : Pool Connection Instr}
    (hstep : (connectionMachine P).Step runtime later) :
    runtime.threads.length ≤ later.threads.length := by
  cases hstep with
  | thread k hk hexec | ambient hambient => simp

/-- The watch of a connection goes on until its worker ends it. -/
theorem Chased.step {n : Nat} (h : Chased before n) (hruns : before.state.Runs P)
    (hruntimes : RuntimesStep P before.state after.state) (hcontext : ContextKept before.state)
    (hstep : (serverMachine N P).Step before after) : Chased after n := by
  have hover : (∃ runtime, before.state.runtimes n = some runtime ∧
      (Pursued runtime ∨ 0 < runtime.state.doneCloses)) → Chased after n := by
    intro hold
    refine .inr (.inr (hruntimes.keeps hruns (fun _ hstep hQ => ?_) hold))
    exact hQ.imp (fun hpursued => hpursued.step hstep) (doneCloses_pos_step hstep)
  cases hstep with
  | @thread s threads k i rest effect hk hexec =>
      have hexec : ServerExec N P s i effect := hexec
      have hkeep : ∀ t ∈ threads, t ≠ i :: rest →
          t ∈ threads.set k (effect.pushed ++ rest) ++ effect.spawned :=
        fun t ht hne => mem_set_append_of_ne ht hk hne
      rcases h with hwatch | hcall | hold
      · by_cases hi : [ServerInstr.watchClosed n] = i :: rest
        · obtain ⟨rfl, rfl⟩ := List.cons.inj hi
          cases hexec with
          | runtime hexec =>
              cases hexec with
              | watchShutdown => exact .inr (.inl (mem_set_append_self hk))
              | @watchEnded _ runtime hruntime hended =>
                  exact hover ⟨runtime, hruntime, .inr (hcontext n runtime hruntime hended)⟩
          | serve h | worker h | shutdown h => cases h
        · exact .inl (hkeep _ hwatch hi)
      · by_cases hi : [ServerInstr.callConn n .close] = i :: rest
        · obtain ⟨rfl, rfl⟩ := List.cons.inj hi
          cases hexec with
          | runtime hexec =>
              cases hexec with
              | @callConn _ _ runtime hruntime =>
                  refine .inr (.inr ⟨_, Function.update_self .., .inl (.inr ?_)⟩)
                  refine ⟨_, List.mem_append_right _ List.mem_cons_self, _, _, List.mem_cons_self⟩
          | serve h | worker h | shutdown h => cases h
        · exact .inr (.inl (hkeep _ hcall hi))
      · exact hover hold
  | ambient hambient =>
      rcases h with hwatch | hcall | hold
      · exact .inl (List.mem_append_left _ hwatch)
      · exact .inr (.inl (List.mem_append_left _ hcall))
      · exact hover hold

/-- A sign that has been seen stays. -/
theorem ServerSign.Seen.step {f : ServerSign} (h : f.Seen before) (hruns : before.state.Runs P)
    (hruntimes : RuntimesStep P before.state after.state) (hcontext : ContextKept before.state)
    (hstep : (serverMachine N P).Step before after) : f.Seen after := by
  cases f with
  | made n =>
      obtain ⟨runtime, hruntime⟩ := h
      obtain ⟨runtime', hruntime', -⟩ := hruntimes.advances hruntime
      exact ⟨runtime', hruntime'⟩
  | called n k =>
      exact hruntimes.keeps hruns (fun _ hstep hk => hk.trans_le (threads_length_step hstep)) h
  | stopped n =>
      refine hruntimes.keeps hruns (fun hreach hstep hstopped => ?_) h
      exact (orderly_of_reaches hreach).stops_step hstep hstopped
  | chased n => exact Chased.step h hruns hruntimes hcontext hstep
  | ended n => exact hruntimes.keeps hruns (fun _ hstep => doneCloses_pos_step hstep) h
  | shutting => exact (shrinks_of_reaches h (.single hstep)).inShutdown
  | quiet =>
      have hshrinks := shrinks_of_reaches h.1 (.single hstep)
      refine ⟨hshrinks.inShutdown, ?_⟩
      have hwg : after.state.wg ≤ before.state.wg := hshrinks.wg
      have hzero : before.state.wg = 0 := h.2
      show after.state.wg = 0
      omega

end Signs

/-! ## Rules -/

/-- What the effect leaves to do can rely on what it needs. -/
abbrev Attends (after : Pool Server ServerInstr) (i : ServerInstr)
    (effect : Effect Server ServerInstr) : Prop :=
  effect.Backs ServerInstr.relies ServerInstr.assures (ServerSign.Seen after) i

section Rules

variable {N : HandshakePrimitives} {P : Primitives} {s : Server} {i : ServerInstr}
  {effect : Effect Server ServerInstr} {before after : Pool Server ServerInstr}

theorem WorkerExec.attends (h : WorkerExec N P s i effect) (hstate : after.state = effect.state)
    (hrelies : ∀ f ∈ i.relies, f.Seen after) : Attends after i effect := by
  cases h with
  | @connAcquired n session info =>
      have hmade : ServerSign.Seen after (.made n) := by
        refine ⟨connectionStart session s.config.connConfig, ?_⟩
        rw [hstate]
        exact Function.update_self ..
      refine .of_known [.made n] ?_ (List.forall_mem_singleton.mpr hmade)
        (by simp)
      cases hadmission : s.config.admission <;> cases hhook : s.config.onDisconnect <;>
        simp [backs, afterSlot, handoff, hadmission, hhook]
  | @admissionAccepted n info =>
      refine .of_known [.made n] ?_ hrelies (by simp)
      cases hhook : s.config.onDisconnect <;> simp [backs, handoff, hhook]
  | @admissionRejected n info | @admissionPanicked n info | @handoffRefused n =>
      exact .of_known [.made n] (by simp [backs, ApiCall.stops]) hrelies
        (by simp)
  | @handedOff n =>
      refine .of_known [.made n] ?_ hrelies (by simp)
      simp [backs, runConn, connContext, ApiCall.stops]
  | _ => exact .of_free rfl rfl

theorem RuntimeExec.attends (h : RuntimeExec s i effect) (hstate : after.state = effect.state)
    (hspawned : ∀ t ∈ effect.spawned, t ∈ after.threads)
    (hrelies : ∀ f ∈ i.relies, f.Seen after) : Attends after i effect := by
  cases h with
  | @launchWatcher n =>
      refine .of_known [.made n] (by simp [backs]) hrelies
        (List.forall_mem_singleton.mpr (.inl ?_))
      exact .inl (hspawned _ List.mem_cons_self)
  | @watchShutdown n =>
      exact .of_known [.made n] (by simp [backs, ApiCall.stops])
        hrelies (by simp)
  | @callConn n api runtime hruntime =>
      have hplaced : after.state.runtimes n = some (callRuntime runtime api) := by
        rw [hstate]
        exact Function.update_self ..
      have hcalled : ServerSign.Seen after (.called n runtime.threads.length) :=
        ⟨_, hplaced, by simp [callRuntime]⟩
      by_cases hstops : api.stops = true
      · have hstopped : ServerSign.Seen after (.stopped n) := by
          refine ⟨_, hplaced, .inr ⟨_, List.mem_append_right _ List.mem_cons_self, ?_⟩⟩
          cases api with
          | close => exact ⟨_, List.mem_cons_self, List.mem_cons_self⟩
          | abort cause =>
              exact ⟨.shutdownOnce cause, by simp [ApiCall.program, DgProto.shutdown],
                List.mem_cons_self⟩
          | _ => cases hstops
        exact .of_known [.called n runtime.threads.length, .stopped n]
          (by simp [backs, hstops]) (by simp [hcalled, hstopped])
          (by simp)
      · have hchased : ServerSign.Seen after (.chased n) := by
          refine hrelies _ ?_
          simp [hstops]
        exact .of_known [.called n runtime.threads.length, .chased n]
          (by simp [backs, hstops]) (by simp [hcalled, hchased])
          (by simp)
  | @done n runtime hruntime hdone =>
      have hplaced : after.state.runtimes n = some runtime := by rw [hstate, hruntime]
      exact .of_given (List.forall_mem_singleton.mpr ⟨runtime, hplaced, hdone⟩) rfl rfl
  | _ => exact .of_free rfl rfl

/-- What a shutdown has left to do relies on the connections of its snapshot only. -/
theorem relying_shutdownProgram {kind : ShutdownKind} {snapshot : Snapshot} {err : Option Error}
    (hshutting : ServerSign.Seen after .shutting)
    (hmade : ∀ n ∈ snapshot.conns, ServerSign.Seen after (.made n)) :
    Relying after (shutdownProgram kind snapshot err) := by
  unfold shutdownProgram
  rw [List.append_assoc]
  refine Backed.append ?_ ?_
  · -- neither the sockets nor the calls wait for anything but their connection
    have hsockets : Relying after (snapshot.handshakeConns.map .closeSocket) := by
      refine Backed.of_needless fun i hi => ?_
      obtain ⟨n, -, rfl⟩ := List.mem_map.mp hi
      rfl
    refine hsockets.append (Backed.mono ?_ fun f hf => .inl hf)
    generalize snapshot.conns = conns at hmade
    induction conns with
    | nil => exact trivial
    | cons n conns ih =>
        refine ⟨fun f hf => ?_, Backed.mono (ih ?_) fun f hf => .inl hf⟩
        · have hf : f = .made n := by
            cases kind <;> simpa [ShutdownKind.api, ApiCall.stops] using hf
          exact hf ▸ hmade n List.mem_cons_self
        · exact fun m hm => hmade m (List.mem_cons_of_mem _ hm)
  · cases kind with
    | abort => exact ⟨fun f hf => absurd hf List.not_mem_nil, trivial⟩
    | close =>
        refine ⟨fun f hf => ?_, fun f hf => ?_, trivial⟩
        · obtain rfl := List.mem_singleton.mp hf
          exact .inl hshutting
        · exact .inr hf

theorem ShutdownExec.attends (h : ShutdownExec s i effect) (hstate : after.state = effect.state)
    (hrelies : ∀ f ∈ i.relies, f.Seen after)
    (hconns : ∀ n ∈ s.conns, ServerSign.Seen after (.made n)) : Attends after i effect := by
  cases h with
  | beginShutdown snapshot _ hwalked =>
      refine ⟨List.forall_mem_singleton.mpr ⟨fun f hf => ?_, trivial⟩,
        by simp⟩
      rcases List.mem_cons.mp hf with rfl | hmade
      · show after.state.inShutdown = true
        rw [hstate]
      · obtain ⟨n, hn, rfl⟩ := List.mem_map.mp hmade
        refine hconns n ?_
        rw [← hwalked.2]
        exact List.mem_toFinset.mpr hn
  | closeListener =>
      refine ⟨List.forall_mem_singleton.mpr (relying_shutdownProgram ?_ fun n hn => ?_),
        by simp⟩
      · exact hrelies _ List.mem_cons_self
      · exact hrelies _ (List.mem_cons_of_mem _ (List.mem_map_of_mem hn))
  | awaitWorkers hwg =>
      refine .of_known [] rfl (by simp) (List.forall_mem_singleton.mpr (.inl ⟨?_, ?_⟩))
      · exact hrelies _ List.mem_cons_self
      · rw [hstate, hwg]
  | _ => exact .of_free rfl rfl

theorem ServerExec.attends (h : ServerExec N P s i effect) (hstate : after.state = effect.state)
    (hspawned : ∀ t ∈ effect.spawned, t ∈ after.threads)
    (hrelies : ∀ f ∈ i.relies, f.Seen after)
    (hconns : ∀ n ∈ s.conns, ServerSign.Seen after (.made n)) : Attends after i effect := by
  cases h with
  | serve h => cases h <;> exact .of_free rfl rfl
  | worker h => exact h.attends hstate hrelies
  | runtime h => exact h.attends hstate hspawned hrelies
  | shutdown h => exact h.attends hstate hrelies hconns

end Rules

/-! ## The invariant -/

/-- The goroutine takes the socket out of the handshakes in the end. -/
def ServerInstr.clears (n : Nat) : ServerInstr → Bool
  | .launchWorker _ m | .unregisterHandshake m => m == n
  | _ => false

/-- What holds in every pool of goroutines that a new server reaches, as to who waits for whom. -/
structure Attended (pool : Pool Server ServerInstr) : Prop where
  relying : ∀ t ∈ pool.threads, Relying pool t
  made : ∀ n ∈ pool.state.conns, ServerSign.Seen pool (.made n)
  context : ContextKept pool.state
  released : ∀ n ∈ pool.state.slotsReleased, pool.state.Knows (.terminated n)
  returned : ∀ err, (ShutdownKind.close, err) ∈ pool.state.shutdownReturns →
    ServerSign.Seen pool .quiet
  handshaking : ∀ n ∈ pool.state.handshakeConns,
    ∃ t ∈ pool.threads, ∃ i ∈ t, i.clears n = true
  running : ∀ n ∈ pool.state.conns, ∃ t ∈ pool.threads, ∃ i ∈ t, i = .unregisterConn n

section Invariant

variable {N : HandshakePrimitives} {P : Primitives} {config : ServerSetup} {s : Server}
  {i : ServerInstr} {effect : Effect Server ServerInstr} {threads : List (List ServerInstr)}
  {k : Nat} {rest : List ServerInstr} {before after pool : Pool Server ServerInstr}

/-- One connection goes on, and the context that it was started with is as before or it is done. -/
theorem ContextKept.update (h : ContextKept s) {n : Nat} {runtime : Pool Connection Instr}
    {s' : Server} (hruntimes : s'.runtimes = Function.update s.runtimes n (some runtime))
    (hkept : runtime.state.callers 0 ≠ none → 0 < runtime.state.doneCloses) : ContextKept s' := by
  intro m runtime' hruntime' hended
  rw [hruntimes] at hruntime'
  rcases update_some_cases hruntime' with ⟨rfl, rfl⟩ | hold
  · exact hkept hended
  · exact h m runtime' hold hended

theorem ServerExec.contextKept (h : ServerExec N P s i effect) (hold : ContextKept s)
    (hrelies : ∀ f ∈ i.relies, f.Seen ⟨s, threads⟩) : ContextKept effect.state := by
  cases h with
  | serve h => cases h <;> exact hold
  | worker h =>
      cases h with
      | connAcquired => exact hold.update rfl fun hended => absurd rfl hended
      | _ => exact hold
  | runtime h =>
      cases h with
      | @callConn n api runtime hruntime =>
          exact hold.update rfl fun hended => hold n runtime hruntime hended
      | @cancelConn n runtime hruntime =>
          obtain ⟨runtime', hruntime', hdone⟩ := hrelies _ List.mem_cons_self
          obtain rfl : runtime = runtime' := Option.some.inj (hruntime.symm.trans hruntime')
          exact hold.update rfl fun _ => hdone
      | _ => exact hold
  | shutdown h => cases h <;> exact hold

/-- A socket is taken out of the handshakes by a goroutine that was going to. -/
theorem ServerExec.handshaking (h : ServerExec N P s i effect)
    (hold : ∀ n ∈ s.handshakeConns, ∃ t ∈ threads, ∃ i ∈ t, i.clears n = true)
    (hk : threads[k]? = some (i :: rest)) :
    ∀ n ∈ effect.state.handshakeConns,
      ∃ t ∈ threads.set k (effect.pushed ++ rest) ++ effect.spawned,
        ∃ i ∈ t, i.clears n = true := by
  have hkeep : ∀ n ∈ s.handshakeConns,
      (i.clears n = true → ∃ t ∈ effect.pushed :: effect.spawned, ∃ j ∈ t, j.clears n = true) →
      ∃ t ∈ threads.set k (effect.pushed ++ rest) ++ effect.spawned, ∃ i ∈ t, i.clears n = true :=
    fun n hn => exists_duty_step (hold n hn) hk
  intro n hn
  cases h with
  | serve h =>
      cases h with
      | @handshakeRegistered listener m =>
          rcases Finset.mem_insert.mp hn with rfl | hn
          · refine ⟨_, mem_set_append_self hk, .launchWorker listener n, ?_, ?_⟩
            · exact List.mem_append_left _ List.mem_cons_self
            · exact beq_self_eq_true n
          · exact hkeep n hn fun hi => absurd hi (by simp [ServerInstr.clears])
      | @launchWorker listener m =>
          refine hkeep n hn fun hi => ⟨workerProgram m, by simp, .unregisterHandshake m, ?_, hi⟩
          simp [workerProgram]
      | _ => exact hkeep n hn fun hi => absurd hi (by simp [ServerInstr.clears])
  | worker h =>
      cases h with
      | @unregisterHandshake m =>
          obtain ⟨hne, hn⟩ := Finset.mem_erase.mp hn
          exact hkeep n hn fun hi => absurd (beq_iff_eq.mp hi).symm hne
      | handedOff =>
          refine hkeep n (Finset.mem_of_mem_erase hn) fun hi => ?_
          exact absurd hi (by simp [ServerInstr.clears])
      | _ => exact hkeep n hn fun hi => absurd hi (by simp [ServerInstr.clears])
  | runtime h => cases h <;> exact hkeep n hn fun hi => absurd hi (by simp [ServerInstr.clears])
  | shutdown h => cases h <;> exact hkeep n hn fun hi => absurd hi (by simp [ServerInstr.clears])

theorem ServerExec.running (h : ServerExec N P s i effect)
    (hold : ∀ n ∈ s.conns, ∃ t ∈ threads, ∃ i ∈ t, i = .unregisterConn n)
    (hk : threads[k]? = some (i :: rest)) :
    ∀ n ∈ effect.state.conns,
      ∃ t ∈ threads.set k (effect.pushed ++ rest) ++ effect.spawned, ∃ i ∈ t,
        i = .unregisterConn n := by
  have hkeep : ∀ n ∈ s.conns,
      (i = .unregisterConn n → ∃ t ∈ effect.pushed :: effect.spawned, ∃ j ∈ t,
        j = .unregisterConn n) →
      ∃ t ∈ threads.set k (effect.pushed ++ rest) ++ effect.spawned, ∃ i ∈ t,
        i = .unregisterConn n :=
    fun n hn => exists_duty_step (hold n hn) hk
  intro n hn
  cases h with
  | serve h => cases h <;> exact hkeep n hn fun hi => absurd hi (by simp)
  | worker h =>
      cases h with
      | @handedOff m =>
          rcases Finset.mem_insert.mp hn with rfl | hn
          · refine ⟨_, mem_set_append_self hk, .unregisterConn n, ?_, rfl⟩
            simp [runConn]
          · exact hkeep n hn fun hi => absurd hi (by simp)
      | @unregisterConn m =>
          obtain ⟨hne, hn⟩ := Finset.mem_erase.mp hn
          exact hkeep n hn fun hi => absurd (ServerInstr.unregisterConn.inj hi).symm hne
      | _ => exact hkeep n hn fun hi => absurd hi (by simp)
  | runtime h | shutdown h => cases h <;> exact hkeep n hn fun hi => absurd hi (by simp)

/-- A connection is handed over by the worker that has made it. -/
theorem ServerExec.conns_cases (h : ServerExec N P s i effect) :
    ∀ n ∈ effect.state.conns, n ∈ s.conns ∨ i = .registerConn n := by
  intro n hn
  cases h with
  | serve h => cases h <;> exact .inl hn
  | worker h =>
      cases h with
      | handedOff =>
          rcases Finset.mem_insert.mp hn with rfl | hn
          · exact .inr rfl
          · exact .inl hn
      | unregisterConn => exact .inl (Finset.mem_of_mem_erase hn)
      | _ => exact .inl hn
  | runtime h | shutdown h => cases h <;> exact .inl hn

theorem ServerExec.slotsReleased_cases (h : ServerExec N P s i effect) :
    ∀ n ∈ effect.state.slotsReleased, n ∈ s.slotsReleased ∨ i = .releaseConn n := by
  intro n hn
  cases h with
  | serve h => cases h <;> exact .inl hn
  | worker h =>
      cases h with
      | releaseConn =>
          rcases List.mem_append.mp hn with hold | hnew
          · exact .inl hold
          · exact .inr (List.mem_singleton.mp hnew ▸ rfl)
      | _ => exact .inl hn
  | runtime h | shutdown h => cases h <;> exact .inl hn

theorem ServerExec.shutdownReturns_cases (h : ServerExec N P s i effect) {kind : ShutdownKind}
    {err : Option Error} (hmem : (kind, err) ∈ effect.state.shutdownReturns) :
    (kind, err) ∈ s.shutdownReturns ∨ i = .returnShutdown kind err := by
  cases h with
  | serve h | worker h | runtime h => cases h <;> exact .inl hmem
  | shutdown h =>
      cases h with
      | returnShutdown =>
          rcases List.mem_append.mp hmem with hold | hnew
          · exact .inl hold
          · obtain ⟨rfl, rfl⟩ := Prod.ext_iff.mp (List.mem_singleton.mp hnew)
            exact .inr rfl
      | _ => exact .inl hmem

/-- A call from outside relies on nothing. -/
theorem ServerAmbient.relying {s' : Server} {new : List (List ServerInstr)}
    (h : ServerAmbient P s s' new) : ∀ t ∈ new, Relying after t := by
  intro t ht
  cases h with
  | runtime => exact absurd ht List.not_mem_nil
  | _ =>
      obtain rfl := List.mem_singleton.mp ht
      exact ⟨fun f hf => absurd hf List.not_mem_nil, trivial⟩

theorem Attended.step (h : Attended before)
    (hreach : (serverMachine N P).Reaches (serverStart (.new config)) before)
    (hstep : (serverMachine N P).Step before after) : Attended after := by
  have howned := owned_of_reaches hreach
  have hruntimes := runtimesStep_of_step howned.runs hreach hstep
  have hseen : ∀ f : ServerSign, f.Seen before → f.Seen after :=
    fun f hf => hf.step howned.runs hruntimes h.context hstep
  cases hstep with
  | @thread s threads k i rest effect hk hexec =>
      have hexec : ServerExec N P s i effect := hexec
      have hmem := List.mem_of_getElem? hk
      have hrelies := (h.relying _ hmem).1
      have hattends := hexec.attends rfl (fun t ht => List.mem_append_right _ ht)
        (fun f hf => hseen f (hrelies f hf)) (fun n hn => hseen _ (h.made n hn))
      refine ⟨hattends.step h.relying hk hseen, fun n hn => ?_,
        hexec.contextKept h.context hrelies, fun n hn => ?_, fun err herr => ?_,
        hexec.handshaking h.handshaking hk, hexec.running h.running hk⟩
      · rcases hexec.conns_cases n hn with hold | rfl
        · exact hseen _ (h.made n hold)
        · exact hseen _ (hrelies _ List.mem_cons_self)
      · rcases hexec.slotsReleased_cases n hn with hold | rfl
        · exact hruntimes.terminated howned.runs (h.released n hold)
        · exact hruntimes.terminated howned.runs
            ((howned.informed _ hmem).1 (.terminated n) (by simp))
      · rcases hexec.shutdownReturns_cases herr with hold | rfl
        · exact hseen _ (h.returned err hold)
        · exact hseen _ (hrelies _ List.mem_cons_self)
  | @ambient s s' threads new hambient =>
      have hambient : ServerAmbient P s s' new := hambient
      have hmaps : s'.mapSide = s.mapSide := hambient.mapSide_eq
      have hconns : s'.conns = s.conns := congrArg Server.MapSide.conns hmaps
      have hhandshakes : s'.handshakeConns = s.handshakeConns :=
        congrArg Server.MapSide.handshakeConns hmaps
      have hduty : ∀ {q : ServerInstr → Prop}, (∃ t ∈ threads, ∃ i ∈ t, q i) →
          ∃ t ∈ threads ++ new, ∃ i ∈ t, q i := by
        rintro q ⟨t, ht, hq⟩
        exact ⟨t, List.mem_append_left _ ht, hq⟩
      refine ⟨fun t ht => ?_, fun n hn => ?_, ?_, fun n hn => ?_, fun err herr => ?_,
        fun n hn => ?_, fun n hn => ?_⟩
      · rcases List.mem_append.mp ht with hold | hnew
        · exact (h.relying t hold).mono hseen
        · exact hambient.relying t hnew
      · exact hseen _ (h.made n (hconns ▸ hn))
      · cases hambient with
        | runtime hbefore hstep hsame =>
            refine h.context.update rfl fun hended => ?_
            exact doneCloses_pos_step hstep (h.context _ _ hbefore (hsame ▸ hended))
        | _ => exact h.context
      · refine hruntimes.terminated howned.runs (h.released n ?_)
        cases hambient <;> exact hn
      · refine hseen _ (h.returned err ?_)
        cases hambient <;> exact herr
      · exact hduty (h.handshaking n (hhandshakes ▸ hn))
      · exact hduty (h.running n (hconns ▸ hn))

theorem attended_of_reaches (h : (serverMachine N P).Reaches (serverStart (.new config)) pool) :
    Attended pool := by
  induction h with
  | refl =>
      refine ⟨?_, ?_, fun n runtime hruntime => ?_, ?_, ?_, ?_, ?_⟩
      case refine_3 => cases hruntime
      all_goals simp [serverStart, Server.new]
  | tail hreach hstep ih => exact ih.step hreach hstep

/-- The wait group counts the workers that have not returned. -/
theorem workers_counted (N : HandshakePrimitives) (P : Primitives) :
    (serverMachine N P).Conserves (ServerAccount.worker.weight fun _ => true)
      (fun s => -(s.wg : Int)) where
  exec {s i effect} h := by
    cases h with
    | serve h =>
        cases h <;> simp [Effect.leaves, workerProgram]
    | worker h =>
        cases h with
        | connAcquired | admissionAccepted =>
            cases hadmission : s.config.admission <;> cases hhook : s.config.onDisconnect <;>
              simp [Effect.leaves, afterSlot, handoff, hadmission, hhook]
        | workerDone h =>
            simp [Effect.leaves, h]
        | _ => simp [Effect.leaves, runConn]
    | runtime h => cases h <;> simp [Effect.leaves]
    | shutdown h =>
        cases h with
        | closeListener =>
            simp [Effect.leaves, ServerAccount.weigh_shutdownProgram]
        | _ => simp [Effect.leaves]
  ambient h := by
    cases h <;> simp

theorem wg_eq_load (h : (serverMachine N P).Reaches (serverStart (.new config)) pool) :
    pool.state.wg = load (ServerAccount.worker.weight fun _ => true) pool.threads := by
  have htotal : pool.total _ _ = _ := (workers_counted N P).reaches h
  simp only [Pool.total, serverStart, Server.new, load_nil] at htotal
  omega

end Invariant

end DgProto
