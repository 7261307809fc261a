import DgProto.Connection.Closing
import DgProto.Server.Accounts

/-!
# The connections of a server

A worker makes its connection once, when it has a slot.  From then on the connection only
takes steps of its own machine, whoever calls it: so everything that is known about the
runs of a connection is known about the connections of a server (`Server.Runs`), and what
stays true in such a run stays true of the server (`RuntimesStep`).
-/

namespace DgProto

open Library Crypto

/-! ## Steps -/

/-- What a step of the server does to the connections and the sockets. -/
structure RuntimesStep (P : Primitives) (s s' : Server) : Prop where
  advances : ∀ {n runtime}, s.runtimes n = some runtime →
    ∃ runtime', s'.runtimes n = some runtime' ∧ (connectionMachine P).Reaches runtime runtime'
  /-- A connection is an old one, or one that a worker with a slot has just made. -/
  origin : ∀ {n runtime'}, s'.runtimes n = some runtime' →
    (∃ runtime, s.runtimes n = some runtime ∧ (connectionMachine P).Reaches runtime runtime') ∨
      (∃ session config, runtime' = connectionStart session config) ∧ n ∈ s'.slotsAcquired
  closed : ∀ {n}, s.closedSockets n = true → s'.closedSockets n = true
  slots : ∀ {n}, n ∈ s.slotsAcquired → n ∈ s'.slotsAcquired

section Steps

variable {N : HandshakePrimitives} {P : Primitives} {s s' : Server} {i : ServerInstr}
  {effect : Effect Server ServerInstr} {n : Nat}

/-- Most rules leave the connections alone. -/
theorem RuntimesStep.of_eq (hruntimes : s'.runtimes = s.runtimes)
    (hclosed : s'.closedSockets = s.closedSockets) (hslots : s'.slotsAcquired = s.slotsAcquired) :
    RuntimesStep P s s' := by
  refine ⟨fun h => ?_, fun h => ?_, fun h => ?_, fun h => ?_⟩
  · exact ⟨_, by rw [hruntimes, h], .refl⟩
  · exact .inl ⟨_, by rw [← hruntimes, h], .refl⟩
  · rw [hclosed, h]
  · rwa [hslots]

/-- The connection that is found after one was put in its place. -/
theorem update_some_cases {f : Nat → Option (Pool Connection Instr)} {m : Nat}
    {placed runtime : Pool Connection Instr}
    (h : Function.update f n (some placed) m = some runtime) :
    (m = n ∧ placed = runtime) ∨ f m = some runtime := by
  rw [Function.update_apply] at h
  split_ifs at h with hm
  · exact .inl ⟨hm, Option.some.inj h⟩
  · exact .inr h

/-- One connection takes steps of its own. -/
theorem RuntimesStep.of_advance {before after : Pool Connection Instr}
    (hbefore : s.runtimes n = some before) (hreach : (connectionMachine P).Reaches before after)
    (hruntimes : s'.runtimes = Function.update s.runtimes n (some after))
    (hclosed : s'.closedSockets = s.closedSockets) (hslots : s'.slotsAcquired = s.slotsAcquired) :
    RuntimesStep P s s' := by
  refine ⟨fun {m runtime} h => ?_, fun {m runtime'} h => ?_, fun h => ?_, fun h => ?_⟩
  · rw [hruntimes]
    by_cases hm : m = n
    · subst hm
      obtain rfl : before = runtime := Option.some.inj (hbefore.symm.trans h)
      exact ⟨after, Function.update_self .., hreach⟩
    · exact ⟨runtime, by rw [Function.update_of_ne hm, h], .refl⟩
  · rw [hruntimes] at h
    rcases update_some_cases h with ⟨rfl, rfl⟩ | hold
    · exact .inl ⟨before, hbefore, hreach⟩
    · exact .inl ⟨runtime', hold, .refl⟩
  · rw [hclosed, h]
  · rwa [hslots]

/-- A worker makes its connection. -/
theorem RuntimesStep.of_start {session : Session} {config : ConnectionConfig}
    (hnone : s.runtimes n = none)
    (hruntimes : s'.runtimes = Function.update s.runtimes n (some (connectionStart session config)))
    (hclosed : s'.closedSockets = s.closedSockets)
    (hslots : s'.slotsAcquired = s.slotsAcquired ++ [n]) : RuntimesStep P s s' := by
  refine ⟨fun {m runtime} h => ?_, fun h => ?_, fun h => ?_, fun h => ?_⟩
  · have hm : m ≠ n := by
      rintro rfl
      rw [hnone] at h
      cases h
    exact ⟨runtime, by rw [hruntimes, Function.update_of_ne hm, h], .refl⟩
  · rw [hruntimes] at h
    rcases update_some_cases h with ⟨rfl, rfl⟩ | hold
    · refine .inr ⟨⟨session, config, rfl⟩, ?_⟩
      rw [hslots]
      exact List.mem_append_right _ List.mem_cons_self
    · exact .inl ⟨_, hold, .refl⟩
  · rw [hclosed, h]
  · rw [hslots]
    exact List.mem_append_left _ h

theorem ServeExec.runtimesStep (h : ServeExec s i effect) : RuntimesStep P s effect.state := by
  cases h <;> exact .of_eq rfl rfl rfl

theorem WorkerExec.runtimesStep (h : WorkerExec N P s i effect)
    (hfresh : ∀ n session info, i = .acquireConn n session info → s.runtimes n = none) :
    RuntimesStep P s effect.state := by
  cases h with
  | @connAcquired n session info =>
      have hnone : s.runtimes n = none := hfresh n session info rfl
      exact .of_start hnone rfl rfl rfl
  | @closeSocket n =>
      refine ⟨fun h => ⟨_, h, .refl⟩, fun h => .inl ⟨_, h, .refl⟩, fun {m} h => ?_, id⟩
      show Function.update s.closedSockets n true m = true
      by_cases hm : m = n
      · rw [hm, Function.update_self]
      · rw [Function.update_of_ne hm, h]
  | _ => exact .of_eq rfl rfl rfl

theorem RuntimeExec.runtimesStep (h : RuntimeExec s i effect) : RuntimesStep P s effect.state := by
  cases h with
  | callConn h => exact .of_advance h (.single (callRuntime_step _ _)) rfl rfl rfl
  | cancelConn h => exact .of_advance h (cancelRuntime_reaches _) rfl rfl rfl
  | _ => exact .of_eq rfl rfl rfl

theorem ServerExec.runtimesStep (h : ServerExec N P s i effect)
    (hfresh : ∀ n session info, i = .acquireConn n session info → s.runtimes n = none) :
    RuntimesStep P s effect.state := by
  cases h with
  | serve h => exact h.runtimesStep
  | worker h => exact h.runtimesStep hfresh
  | runtime h => exact h.runtimesStep
  | shutdown h => cases h <;> exact .of_eq rfl rfl rfl

theorem ServerAmbient.runtimesStep {new : List (List ServerInstr)}
    (h : ServerAmbient P s s' new) : RuntimesStep P s s' := by
  cases h with
  | runtime h hstep => exact .of_advance h (.single hstep) rfl rfl rfl
  | _ => exact .of_eq rfl rfl rfl

end Steps

/-! ## Whole runs -/

/-- Every connection belongs to a worker with a slot and is in a state that it can reach. -/
def Server.Runs (P : Primitives) (s : Server) : Prop :=
  ∀ n runtime, s.runtimes n = some runtime → n ∈ s.slotsAcquired ∧
    ∃ session config, (connectionMachine P).Reaches (connectionStart session config) runtime

section Runs

variable {N : HandshakePrimitives} {P : Primitives} {config : ServerSetup} {s s' : Server}
  {before after pool : Pool Server ServerInstr} {n : Nat}

theorem Server.Runs.step (h : s.Runs P) (hstep : RuntimesStep P s s') : s'.Runs P := by
  intro n runtime' hruntime'
  rcases hstep.origin hruntime' with ⟨runtime, hruntime, hreach⟩ | ⟨⟨session, config, rfl⟩, hslot⟩
  · obtain ⟨hslot, session, config, hstart⟩ := h n runtime hruntime
    exact ⟨hstep.slots hslot, session, config, hstart.trans hreach⟩
  · exact ⟨hslot, session, config, .refl⟩

/-- A worker that asks for a slot has no connection yet. -/
theorem fresh_of_reaches (hruns : pool.state.Runs P)
    (h : (serverMachine N P).Reaches (serverStart (.new config)) pool) {k : Nat} {i : ServerInstr}
    {rest : List ServerInstr} (hk : pool.threads[k]? = some (i :: rest)) (n : Nat)
    (session : Session) (info : AdmissionInfo) (hi : i = .acquireConn n session info) :
    pool.state.runtimes n = none := by
  subst hi
  -- it is on the way to its only slot
  have hstage := slotsAcquired_count_le n h
  have honce := registered_count_le n h
  have hacquired := acquired_count_le n h
  have hload : (ServerToken.slotted n).weight (.acquireConn n session info) ≤
      load (ServerToken.slotted n).weight pool.threads :=
    weight_le_load (List.mem_of_getElem? hk) List.mem_cons_self
  have hweight : (ServerToken.slotted n).weight (.acquireConn n session info) = 1 := if_pos rfl
  have hnot : n ∉ pool.state.slotsAcquired := by
    rw [← List.count_eq_zero]
    omega
  cases hruntime : pool.state.runtimes n with
  | none => rfl
  | some runtime => exact absurd (hruns _ _ hruntime).1 hnot

theorem runtimesStep_of_step (hruns : before.state.Runs P)
    (h : (serverMachine N P).Reaches (serverStart (.new config)) before)
    (hstep : (serverMachine N P).Step before after) : RuntimesStep P before.state after.state := by
  cases hstep with
  | thread k hk hexec => exact ServerExec.runtimesStep hexec (fresh_of_reaches hruns h hk)
  | ambient hambient => exact ServerAmbient.runtimesStep hambient

theorem runs_of_reaches (h : (serverMachine N P).Reaches (serverStart (.new config)) pool) :
    pool.state.Runs P := by
  induction h with
  | refl =>
      intro n runtime hruntime
      exact absurd hruntime.symm (Option.some_ne_none runtime)
  | tail hreach hstep ih => exact ih.step (runtimesStep_of_step ih hreach hstep)

/-! ## What stays true of a connection -/

/-- The connection has ended, with a cause. -/
def Connection.Terminated (c : Connection) : Prop := c.terminal ≠ none ∧ c.cancelCause ≠ none

/-- A fact about a connection that its own steps keep is kept by the server. -/
theorem RuntimesStep.keeps (hstep : RuntimesStep P s s') (hruns : s.Runs P)
    {Q : Pool Connection Instr → Prop}
    (hQ : ∀ {before after session config},
      (connectionMachine P).Reaches (connectionStart session config) before →
      (connectionMachine P).Step before after → Q before → Q after)
    (h : ∃ runtime, s.runtimes n = some runtime ∧ Q runtime) :
    ∃ runtime, s'.runtimes n = some runtime ∧ Q runtime := by
  obtain ⟨runtime, hruntime, hholds⟩ := h
  obtain ⟨-, session, config, hstart⟩ := hruns _ _ hruntime
  obtain ⟨runtime', hruntime', hreach⟩ := hstep.advances hruntime
  refine ⟨runtime', hruntime', ?_⟩
  clear hruntime'
  induction hreach with
  | refl => exact hholds
  | tail hmiddle hlast ih => exact hQ (hstart.trans hmiddle) hlast ih

theorem RuntimesStep.socketClosed (hstep : RuntimesStep P s s') (hruns : s.Runs P)
    (h : s.SocketClosed n) : s'.SocketClosed n := by
  rcases h with hserver | hruntime
  · exact .inl (hstep.closed hserver)
  · refine .inr (hstep.keeps hruns (fun hreach hstep hclosed => ?_) hruntime)
    exact holds_of_reaches (f := .transportClosed) (sound_of_reaches hreach) hclosed (.single hstep)

theorem RuntimesStep.terminated (hstep : RuntimesStep P s s') (hruns : s.Runs P)
    (h : ∃ runtime, s.runtimes n = some runtime ∧ runtime.state.Terminated) :
    ∃ runtime, s'.runtimes n = some runtime ∧ runtime.state.Terminated := by
  refine hstep.keeps hruns (fun hreach hstep hterminated => ?_) h
  have hsound := sound_of_reaches hreach
  constructor
  · exact holds_of_reaches (f := .terminal) hsound hterminated.1 (.single hstep)
  · exact holds_of_reaches (f := .canceled) hsound hterminated.2 (.single hstep)

theorem RuntimesStep.closing (hstep : RuntimesStep P s s') (hruns : s.Runs P) {k : Nat}
    (h : ∃ runtime, s.runtimes n = some runtime ∧ CloseCalled k runtime) :
    ∃ runtime, s'.runtimes n = some runtime ∧ CloseCalled k runtime :=
  hstep.keeps hruns (fun _ hstep hcalled => hcalled.step hstep) h

/-- A connection that is done has ended, and its socket is closed. -/
theorem Server.Runs.done (hruns : s.Runs P) {runtime : Pool Connection Instr}
    (hruntime : s.runtimes n = some runtime) (hdone : 0 < runtime.state.doneCloses) :
    s.SocketClosed n ∧ runtime.state.Terminated := by
  obtain ⟨-, session, config, hreach⟩ := hruns _ _ hruntime
  have hsound := sound_of_reaches hreach
  have hfinished := hsound.finished_of_done hdone
  refine ⟨.inr ⟨runtime, hruntime, ?_⟩, ?_, hsound.canceled hfinished⟩
  · exact hsound.finished hfinished .transportClosed (by simp)
  · exact hsound.done hdone .terminal (by simp)

/-- A call of `Close` that has returned leaves a connection that has ended. -/
theorem Server.Runs.closed (hruns : s.Runs P) {runtime : Pool Connection Instr}
    (hruntime : s.runtimes n = some runtime) {k : Nat} (hcalled : CloseCalled k runtime)
    (hreturned : runtime.threads[k]? = some []) : runtime.state.Terminated := by
  obtain ⟨-, session, config, hreach⟩ := hruns _ _ hruntime
  exact hcalled.returned hreach hreturned

end Runs

/-! ## A connection runs by itself -/

/-- Where the steps of a connection are steps of a machine of the server, so are its runs. -/
theorem reaches_of_runtime {M : Machine Server ServerInstr}
    {R : Pool Connection Instr → Pool Connection Instr → Prop} {s : Server}
    {threads : List (List ServerInstr)} {n : Nat}
    (hambient : ∀ {runtimes before after}, runtimes n = some before → R before after →
      M.ambient { s with runtimes := runtimes }
        { s with runtimes := Function.update runtimes n (some after) } [])
    {before after : Pool Connection Instr} (h : s.runtimes n = some before)
    (hsteps : Relation.ReflTransGen R before after) :
    M.Reaches ⟨s, threads⟩
      ⟨{ s with runtimes := Function.update s.runtimes n (some after) }, threads⟩ := by
  induction hsteps with
  | refl =>
      have hsame : Function.update s.runtimes n (some before) = s.runtimes :=
        Function.update_eq_self_iff.mpr h.symm
      rw [hsame]
      exact .refl
  | @tail middle after _ hlast ih =>
      have hstep : M.Step
          ⟨{ s with runtimes := Function.update s.runtimes n (some middle) }, threads⟩
          ⟨_, threads ++ []⟩ :=
        .ambient (hambient (Function.update_self ..) hlast)
      rw [List.append_nil] at hstep
      simp only [Function.update_idem] at hstep
      exact ih.tail hstep

end DgProto
