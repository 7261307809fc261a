import DgProto.Server.Attendance

/-!
# Callbacks and listeners

The functions that a server was configured with are not its own doing, and neither is what a
listener answers.  `serverMachine` lets them answer anything at any time, which is right for what
must never happen.  Whether a shutdown comes to its end depends on them, so here they are given.

* `Hooks` says when a running callback may return, in view of the server.  A callback that calls
  `Close` and waits for it is one that may return once that call has.
* A listener fails when the server has closed it (`ListensUntilClosed`).  A shutdown closes the
  listener that `s.listener` names at that time, so every `Serve` that goes on has to be on that
  one (`OneListener`).

`serverAlone` is the server with given callbacks and such listeners when nobody calls any method of
the server or of its connections any more.  Timers, transports and the peers of handshakes stay
free: a handshake may fail at any time, as it does at its deadline or when the shutdown closes its
socket.
-/

namespace DgProto

open Library Crypto

/-! ## Callbacks -/

/-- What the callbacks of a server may do. -/
structure Hooks where
  /-- A running call of `Admission` may return this result. -/
  admission : Server → Nat → AdmissionInfo → Option Error → Prop
  /-- A running call of `OnDisconnect` may return. -/
  disconnect : Server → Nat → AdmissionInfo → Prop
  /-- A handler that the connection on this socket runs may return. -/
  handler : Server → Nat → Prop

/-- The callbacks return at the latest when the server is being shut down, and do not wait for
the shutdown. -/
structure Hooks.Return (hooks : Hooks) : Prop where
  admission : ∀ {s : Server} (n : Nat) (info : AdmissionInfo), s.closed = true →
    ∃ result, hooks.admission s n info result
  disconnect : ∀ {s : Server} (n : Nat) (info : AdmissionInfo), s.closed = true →
    hooks.disconnect s n info
  handler : ∀ {s : Server} (n : Nat), s.closed = true → hooks.handler s n

/-- Callbacks that admit everybody and return at once. -/
def Hooks.prompt : Hooks where
  admission _ _ _ result := result = none
  disconnect _ _ _ := True
  handler _ _ := True

theorem Hooks.prompt_return : Hooks.prompt.Return where
  admission _ _ _ := ⟨none, rfl⟩
  disconnect _ _ _ := trivial
  handler _ _ := trivial

/-- The callbacks that return between two states may do so. -/
structure Hooks.Permits (hooks : Hooks) (s s' : Server) : Prop where
  admission : ∀ {n info result}, s'.admissions = s.admissions ++ [(n, info, result)] →
    hooks.admission s n info result
  disconnect : ∀ {n info cause}, s'.disconnects = s.disconnects ++ [(n, info, cause)] →
    hooks.disconnect s n info
  handler : ∀ {n before after}, s.runtimes n = some before → s'.runtimes n = some after →
    after.state.handlersRunning < before.state.handlersRunning → hooks.handler s n

section Permits

variable {hooks : Hooks} {s s' : Server}

/-- A step in which no hook of the server returns. -/
theorem Hooks.Permits.of_same (hadmissions : s'.admissions = s.admissions)
    (hdisconnects : s'.disconnects = s.disconnects)
    (hhandler : ∀ n, hooks.handler s n ∨ s'.runtimes n = s.runtimes n) :
    hooks.Permits s s' := by
  refine ⟨fun h => ?_, fun h => ?_, fun {n before after} hbefore hafter hless => ?_⟩
  · rw [hadmissions] at h
    exact absurd h.symm (by simp)
  · rw [hdisconnects] at h
    exact absurd h.symm (by simp)
  · rcases hhandler n with hreturns | hsame
    · exact hreturns
    · obtain rfl : before = after := Option.some.inj (hbefore.symm.trans (hsame ▸ hafter))
      exact absurd hless (Nat.lt_irrefl _)

theorem Hooks.Return.permits (h : hooks.Return) (hclosed : s.closed = true)
    (hadmissions : s'.admissions = s.admissions) (hdisconnects : s'.disconnects = s.disconnects) :
    hooks.Permits s s' :=
  .of_same hadmissions hdisconnects fun n => .inl (h.handler n hclosed)

theorem Hooks.Return.permits_admission (h : hooks.Return) (hclosed : s.closed = true) {n : Nat}
    {info : AdmissionInfo} {result : Option Error} (hresult : hooks.admission s n info result)
    (hadmissions : s'.admissions = s.admissions ++ [(n, info, result)])
    (hdisconnects : s'.disconnects = s.disconnects) : hooks.Permits s s' := by
  have hrest : hooks.Permits s { s' with admissions := s.admissions } :=
    h.permits hclosed rfl hdisconnects
  refine ⟨fun hnew => ?_, hrest.disconnect, hrest.handler⟩
  rw [hadmissions] at hnew
  cases List.append_cancel_left hnew
  exact hresult

theorem Hooks.Return.permits_disconnect (h : hooks.Return) (hclosed : s.closed = true) {n : Nat}
    {info : AdmissionInfo} {cause : Option Error} (hadmissions : s'.admissions = s.admissions)
    (hdisconnects : s'.disconnects = s.disconnects ++ [(n, info, cause)]) :
    hooks.Permits s s' := by
  have hrest : hooks.Permits s { s' with disconnects := s.disconnects } :=
    h.permits hclosed hadmissions rfl
  refine ⟨hrest.admission, fun hnew => ?_, hrest.handler⟩
  rw [hdisconnects] at hnew
  cases List.append_cancel_left hnew
  exact h.disconnect n info hclosed

end Permits

/-! ## Machines -/

/-- An `Accept` does not fail before the server has closed the listener. -/
def ListensUntilClosed (s : Server) (i : ServerInstr) (effect : Effect Server ServerInstr) :
    Prop :=
  ∀ listener delay err retryable, i = .accept listener delay →
    .acceptFailed listener delay err retryable ∈ effect.pushed → listener ∈ s.closedListeners

/-- Nothing happens outside of the goroutines of the server but what those of its connections
do. -/
inductive Settles (P : Primitives) (s : Server) : Server → List (List ServerInstr) → Prop where
  | runtime {n : Nat} {before after : Pool Connection Instr} (h : s.runtimes n = some before)
      (hstep : (connectionMachine P).alone.Step before after) :
      Settles P s { s with runtimes := Function.update s.runtimes n (some after) } []

/-- The server with these callbacks when its methods are not called any more. -/
def serverAlone (hooks : Hooks) (N : HandshakePrimitives) (P : Primitives) :
    Machine Server ServerInstr where
  exec s i effect :=
    ServerExec N P s i effect ∧ hooks.Permits s effect.state ∧ ListensUntilClosed s i effect
  ambient s s' new := Settles P s s' new ∧ hooks.Permits s s'

section Machines

variable {hooks : Hooks} {N : HandshakePrimitives} {P : Primitives} {s : Server}
  {i : ServerInstr} {effect : Effect Server ServerInstr}

theorem serverAlone_within : (serverAlone hooks N P).Within (serverMachine N P) where
  exec h := h.1
  ambient h := by
    cases h.1 with
    | runtime hbefore hstep =>
        exact .runtime hbefore (Machine.step_of_alone hstep)
          (congrFun (callers_eq_of_alone hstep) 0)

/-- The instruction is no call of a hook and no `Accept`. -/
@[simp] def ServerInstr.plain : ServerInstr → Bool
  | .accept _ _ | .callAdmission _ _ | .callDisconnect _ _ => false
  | _ => true

theorem ServerExec.hooks_eq (h : ServerExec N P s i effect) (hplain : i.plain = true) :
    effect.state.admissions = s.admissions ∧ effect.state.disconnects = s.disconnects := by
  cases h with
  | serve h => cases h <;> exact ⟨rfl, rfl⟩
  | worker h =>
      cases h with
      | admissionAccepted | admissionRejected | admissionPanicked => cases hplain
      | _ => exact ⟨rfl, rfl⟩
  | runtime h =>
      cases h with
      | callDisconnect => cases hplain
      | _ => exact ⟨rfl, rfl⟩
  | shutdown h => cases h <;> exact ⟨rfl, rfl⟩

theorem listens_of_plain (hplain : i.plain = true) : ListensUntilClosed s i effect := by
  rintro listener delay err retryable rfl
  cases hplain

/-- Once the server is closed, an instruction that is no call of a hook is not held up. -/
theorem ServerExec.alone (h : ServerExec N P s i effect) (hreturn : hooks.Return)
    (hclosed : s.closed = true) (hplain : i.plain = true) :
    (serverAlone hooks N P).exec s i effect := by
  obtain ⟨hadmissions, hdisconnects⟩ := h.hooks_eq hplain
  exact ⟨h, hreturn.permits hclosed hadmissions hdisconnects, listens_of_plain hplain⟩

/-- Once the server is closed, a connection may run on its own for a while. -/
theorem runtime_reaches_alone (hreturn : hooks.Return) (hclosed : s.closed = true)
    {threads : List (List ServerInstr)} {n : Nat} {before after : Pool Connection Instr}
    (h : s.runtimes n = some before) (hreach : (connectionMachine P).alone.Reaches before after) :
    (serverAlone hooks N P).Reaches ⟨s, threads⟩
      ⟨{ s with runtimes := Function.update s.runtimes n (some after) }, threads⟩ := by
  refine reaches_of_runtime (fun hbefore hstep => ?_) h hreach
  exact ⟨Settles.runtime hbefore hstep, hreturn.permits hclosed rfl rfl⟩

end Machines

/-! ## Listeners -/

namespace ServerInstr

/-- The listener that a `Serve` goes on with. -/
@[simp] def accepts : ServerInstr → Option Nat
  | .accept listener _ | .acceptFailed listener _ _ _ | .backoff listener _
  | .acquireHandshake listener _ | .registerHandshake listener _ | .launchWorker listener _ =>
      some listener
  | _ => none

/-- The part of a shutdown up to the listener. -/
@[simp] def heads : ServerInstr → Bool
  | .beginShutdown _ | .closeListener _ _ => true
  | _ => false

end ServerInstr

/-- No `Serve` that goes on has had its listener replaced by a later one. -/
def OneListener (pool : Pool Server ServerInstr) : Prop :=
  ∀ t ∈ pool.threads, ∀ i ∈ t, ∀ listener, i.accepts = some listener →
    pool.state.listener = some listener

/-- The listener is closed, or a shutdown is just going to close it. -/
def ClosesListener (pool : Pool Server ServerInstr) (listener : Nat) : Prop :=
  listener ∈ pool.state.closedListeners ∨
    ∃ kind snapshot, [.closeListener kind snapshot] ∈ pool.threads ∧
      snapshot.listener = some listener

/-- What an instruction does to the listeners. -/
inductive ListenerStep (s : Server) (i : ServerInstr) (effect : Effect Server ServerInstr) :
    Prop where
  | same (hi : i.heads = false) (hshutdown : effect.state.inShutdown = s.inShutdown)
      (hlistener : effect.state.listener = s.listener)
      (hclosed : effect.state.closedListeners = s.closedListeners)
  | bound (hi : i.heads = false) (hopen : s.inShutdown = false)
      (hshutdown : effect.state.inShutdown = false)
      (hclosed : effect.state.closedListeners = s.closedListeners)
  | begun (kind : ShutdownKind) (snapshot : Snapshot) (hi : i = .beginShutdown kind)
      (hsnapshot : snapshot.listener = s.listener)
      (hpushed : effect.pushed = [.closeListener kind snapshot])
      (hshutdown : effect.state.inShutdown = true)
      (hlistener : effect.state.listener = s.listener)
      (hclosed : effect.state.closedListeners = s.closedListeners)
  | closed (kind : ShutdownKind) (snapshot : Snapshot) (hi : i = .closeListener kind snapshot)
      (hshutdown : effect.state.inShutdown = s.inShutdown)
      (hlistener : effect.state.listener = s.listener)
      (hclosed : effect.state.closedListeners = s.closedListeners ++ snapshot.listener.toList)

section Listeners

variable {N : HandshakePrimitives} {P : Primitives} {config : ServerSetup} {s : Server}
  {i : ServerInstr} {effect : Effect Server ServerInstr}
  {before after pool later : Pool Server ServerInstr} {listener : Nat}

theorem ServerExec.listenerStep (h : ServerExec N P s i effect) : ListenerStep s i effect := by
  cases h with
  | serve h =>
      cases h with
      | serve hopen => exact .bound rfl hopen hopen rfl
      | _ => exact .same rfl rfl rfl rfl
  | worker h | runtime h => cases h <;> exact .same rfl rfl rfl rfl
  | shutdown h =>
      cases h with
      | beginShutdown snapshot hlistener => exact .begun _ snapshot rfl hlistener rfl rfl rfl rfl
      | closeListener => exact .closed _ _ rfl rfl rfl rfl
      | _ => exact .same rfl rfl rfl rfl

theorem ServerAmbient.listener_eq {s' : Server} {new : List (List ServerInstr)}
    (h : ServerAmbient P s s' new) :
    s'.inShutdown = s.inShutdown ∧ s'.listener = s.listener ∧
      s'.closedListeners = s.closedListeners := by
  cases h <;> exact ⟨rfl, rfl, rfl⟩

/-- A method that is called is at its beginning. -/
theorem ServerAmbient.new_cases {s' : Server} {new : List (List ServerInstr)}
    (h : ServerAmbient P s s' new) {t : List ServerInstr} (ht : t ∈ new) :
    ∃ i, t = [i] ∧ i.accepts = none ∧ ∀ kind snapshot, i ≠ .closeListener kind snapshot := by
  cases h with
  | runtime => exact absurd ht List.not_mem_nil
  | serve | shutdown | stats => exact ⟨_, List.mem_singleton.mp ht, rfl, by simp⟩

/-- Once a shutdown has begun, only a `Serve` that runs leaves more to do for its listener. -/
theorem ServerExec.accepts_left (h : ServerExec N P s i effect) (hshutdown : s.inShutdown = true) :
    ∀ t ∈ effect.pushed :: effect.spawned, ∀ j ∈ t, j.accepts = none ∨ j.accepts = i.accepts := by
  cases h with
  | serve h => cases h <;> simp_all [workerProgram]
  | worker h =>
      cases h with
      | connAcquired | admissionAccepted =>
          cases hadmission : s.config.admission <;> cases hhook : s.config.onDisconnect <;>
            simp [afterSlot, handoff, hadmission, hhook]
      | _ => simp [runConn]
  | runtime h => cases h <;> simp
  | shutdown h =>
      cases h with
      | closeListener =>
          refine List.forall_mem_singleton.mpr fun j hj => .inl ?_
          rcases mem_shutdownProgram hj with ⟨n, rfl⟩ | ⟨n, rfl⟩ | rfl | rfl <;> rfl
      | _ => simp

theorem ServerExec.heads_left (h : ServerExec N P s i effect) :
    ∀ t ∈ effect.pushed :: effect.spawned, ∀ j ∈ t, j.heads = true →
      i.heads = true ∧ t = [j] := by
  cases h with
  | serve h => cases h <;> simp [workerProgram]
  | worker h =>
      cases h with
      | connAcquired | admissionAccepted =>
          cases hadmission : s.config.admission <;> cases hhook : s.config.onDisconnect <;>
            simp [afterSlot, handoff, hadmission, hhook]
      | _ => simp [runConn]
  | runtime h => cases h <;> simp
  | shutdown h =>
      cases h with
      | closeListener =>
          refine List.forall_mem_singleton.mpr fun j hj hheads => ?_
          rcases mem_shutdownProgram hj with ⟨n, rfl⟩ | ⟨n, rfl⟩ | rfl | rfl <;> cases hheads
      | _ => simp

/-- A goroutine that shuts the server down does nothing else before it has closed the listener. -/
theorem heads_alone (h : (serverMachine N P).Reaches (serverStart (.new config)) pool) :
    ∀ t ∈ pool.threads, ∀ j ∈ t, j.heads = true → t = [j] := by
  refine Machine.invariant_of_step (I := fun pool => ∀ t ∈ pool.threads, ∀ j ∈ t,
    j.heads = true → t = [j]) ?_ (by simp [serverStart]) h
  intro before after hbefore hstep
  cases hstep with
  | @thread s threads k i rest effect hk hexec =>
      have hleft := ServerExec.heads_left hexec
      have hold := hbefore (i :: rest) (List.mem_of_getElem? hk)
      intro t ht j hj hheads
      rcases mem_set_append ht with rfl | hother | hspawned
      · rcases List.mem_append.mp hj with hpushed | hrest
        · obtain ⟨hi, hsingle⟩ := hleft _ List.mem_cons_self j hpushed hheads
          have hlast : rest = [] := (List.cons.inj (hold i List.mem_cons_self hi)).2
          rw [hsingle, hlast, List.append_nil]
        · have hlast : rest = [] :=
            (List.cons.inj (hold j (List.mem_cons_of_mem _ hrest) hheads)).2
          rw [hlast] at hrest
          exact absurd hrest List.not_mem_nil
      · exact hbefore t hother j hj hheads
      · exact (hleft t (List.mem_cons_of_mem _ hspawned) j hj hheads).2
  | @ambient s s' threads new hambient =>
      intro t ht j hj hheads
      rcases List.mem_append.mp ht with hold | hnew
      · exact hbefore t hold j hj hheads
      · obtain ⟨i, rfl, -, -⟩ := ServerAmbient.new_cases hambient hnew
        rw [List.mem_singleton.mp hj]

theorem ClosesListener.step (h : ClosesListener before listener)
    (hstep : (serverMachine N P).Step before after) : ClosesListener after listener := by
  cases hstep with
  | @thread s threads k i rest effect hk hexec =>
      have hkeeps : ∀ {l}, l ∈ s.closedListeners → l ∈ effect.state.closedListeners := by
        intro l hl
        cases ServerExec.listenerStep hexec with
        | same _ _ _ hclosed | bound _ _ _ hclosed | begun _ _ _ _ _ _ _ hclosed =>
            exact hclosed ▸ hl
        | closed _ _ _ _ _ hclosed => exact hclosed ▸ List.mem_append_left _ hl
      rcases h with hclosed | ⟨kind, snapshot, hmem, hsnapshot⟩
      · exact .inl (hkeeps hclosed)
      · by_cases hi : [ServerInstr.closeListener kind snapshot] = i :: rest
        · obtain ⟨rfl, rfl⟩ := List.cons.inj hi
          left
          cases ServerExec.listenerStep hexec with
          | same hheads | bound hheads => cases hheads
          | begun _ _ hi => cases hi
          | closed _ _ hi _ _ hclosed =>
              cases hi
              show listener ∈ effect.state.closedListeners
              rw [hclosed, hsnapshot]
              exact List.mem_append_right _ List.mem_cons_self
        · exact .inr ⟨kind, snapshot, mem_set_append_of_ne hmem hk hi, hsnapshot⟩
  | ambient hambient =>
      rcases h with hclosed | ⟨kind, snapshot, hmem, hsnapshot⟩
      · exact .inl ((ServerAmbient.listener_eq hambient).2.2 ▸ hclosed)
      · exact .inr ⟨kind, snapshot, List.mem_append_left _ hmem, hsnapshot⟩

/-- A shutdown closes the listener of the server. -/
theorem closesListener_of_reaches
    (h : (serverMachine N P).Reaches (serverStart (.new config)) pool) :
    pool.state.inShutdown = true → ∀ listener, pool.state.listener = some listener →
      ClosesListener pool listener := by
  induction h with
  | refl => exact fun hshutdown => absurd hshutdown (by simp [serverStart, Server.new])
  | @tail before after hreach hstep ih =>
      intro hshutdown listener hlistener
      have hold : before.state.inShutdown = true → before.state.listener = after.state.listener →
          ClosesListener after listener :=
        fun hbegun hsame => (ih hbegun listener (hsame.trans hlistener)).step hstep
      cases hstep with
      | @thread s threads k i rest effect hk hexec =>
          cases ServerExec.listenerStep hexec with
          | same _ hsame hkept => exact hold (hsame ▸ hshutdown) hkept.symm
          | bound _ _ hopen => exact absurd (hopen.symm.trans hshutdown) (by decide)
          | closed _ _ _ hsame hkept => exact hold (hsame ▸ hshutdown) hkept.symm
          | begun kind snapshot hi hsnapshot hpushed _ hkept =>
              subst hi
              have hsingle :=
                heads_alone hreach _ (List.mem_of_getElem? hk) _ List.mem_cons_self rfl
              have hrest : rest = [] := (List.cons.inj hsingle).2
              refine .inr ⟨kind, snapshot, ?_, hsnapshot.trans (hkept.symm.trans hlistener)⟩
              show [ServerInstr.closeListener kind snapshot] ∈
                threads.set k (effect.pushed ++ rest) ++ effect.spawned
              rw [hpushed, hrest]
              exact mem_set_append_self hk
      | ambient hambient =>
          obtain ⟨hsame, hkept, -⟩ := ServerAmbient.listener_eq hambient
          exact hold (hsame ▸ hshutdown) hkept.symm

/-- Once a shutdown has begun, `s.listener` and the listeners that are served stay. -/
theorem OneListener.step (h : OneListener before) (hshutdown : before.state.inShutdown = true)
    (hstep : (serverMachine N P).Step before after) : OneListener after := by
  cases hstep with
  | @thread s threads k i rest effect hk hexec =>
      have hkept : effect.state.listener = s.listener := by
        cases ServerExec.listenerStep hexec with
        | same _ _ hkept | begun _ _ _ _ _ _ hkept | closed _ _ _ _ hkept => exact hkept
        | bound _ hopen => exact absurd (hopen.symm.trans hshutdown) (by decide)
      have hleft := ServerExec.accepts_left hexec hshutdown
      have hi := h (i :: rest) (List.mem_of_getElem? hk) i List.mem_cons_self
      have hnew : ∀ t ∈ effect.pushed :: effect.spawned, ∀ j ∈ t, ∀ listener,
          j.accepts = some listener → s.listener = some listener := by
        intro t ht j hj listener haccepts
        rcases hleft t ht j hj with hnone | hsame
        · exact absurd (hnone.symm.trans haccepts) (by simp)
        · exact hi listener (hsame ▸ haccepts)
      intro t ht j hj listener haccepts
      refine hkept.trans ?_
      rcases mem_set_append ht with rfl | hother | hspawned
      · rcases List.mem_append.mp hj with hpushed | hrest
        · exact hnew _ List.mem_cons_self j hpushed listener haccepts
        · exact h (i :: rest) (List.mem_of_getElem? hk) j (List.mem_cons_of_mem _ hrest) listener
            haccepts
      · exact h t hother j hj listener haccepts
      · exact hnew t (List.mem_cons_of_mem _ hspawned) j hj listener haccepts
  | ambient hambient =>
      intro t ht j hj listener haccepts
      rw [(ServerAmbient.listener_eq hambient).2.1]
      rcases List.mem_append.mp ht with hold | hnew
      · exact h t hold j hj listener haccepts
      · obtain ⟨i, rfl, hnone, -⟩ := ServerAmbient.new_cases hambient hnew
        obtain rfl := List.mem_singleton.mp hj
        exact absurd (hnone.symm.trans haccepts) (by simp)

end Listeners

end DgProto
