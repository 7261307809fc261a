import DgProto.Server.Exec

/-!
# What the workers of a server owe

A worker that has taken a token of the channel `handshakes` gives it back, one that was
registered returns, one that has a connection slot releases it, and one that was admitted
is reported: each debt is an instruction that a goroutine has left, and each payment an
entry of the history.  `ServerAccount` balances the two, for the sockets of any set `p`:
all of them, or a single one.

A socket passes each stage at most once, because it is accepted once.  `ServerToken` says
so: at every stage there are as many entries, and goroutines on the way to one, as entries
of the stage before at most.
-/

namespace DgProto

open Library Crypto

/-! ## Accounts -/

/-- The balanced debts. -/
inductive ServerAccount where
  /-- Tokens of `handshakes`: acquired and released. -/
  | handshake
  /-- Workers: registered and returned. -/
  | worker
  /-- Connection slots: acquired and released. -/
  | slot
  /-- Workers with a slot that ask for admission. -/
  | admission
  /-- Admitted workers and the calls of the hook. -/
  | disconnect
  deriving DecidableEq

namespace ServerAccount

/-- The instruction that owes, for the sockets of the set. -/
@[simp] def weight (p : Nat → Bool) : ServerAccount → ServerInstr → Nat
  | .handshake, .registerHandshake _ n | .handshake, .launchWorker _ n
  | .handshake, .performHandshake n | .handshake, .exchange n _
  | .handshake, .releaseHandshake n => if p n then 1 else 0
  | .worker, .launchWorker _ n | .worker, .workerDone n => if p n then 1 else 0
  | .slot, .releaseConn n => if p n then 1 else 0
  | .admission, .callAdmission n _ => if p n then 1 else 0
  | .disconnect, .callDisconnect n _ => if p n then 1 else 0
  | _, _ => 0

/-- What has been paid, less what was owed. -/
@[simp] def balance (p : Nat → Bool) : ServerAccount → Server → Int
  | .handshake, s => s.handshakesReleased.countP p - s.handshakesAcquired.countP p
  | .worker, s => s.returned.countP p - s.registered.countP p
  | .slot, s => s.slotsReleased.countP p - s.slotsAcquired.countP p
  | .admission, s => (s.admissions.map (·.1)).countP p -
      if s.config.admission then s.slotsAcquired.countP p else 0
  | .disconnect, s => (s.disconnects.map (·.1)).countP p -
      if s.config.onDisconnect then
        ((s.admissions.filter (·.2.2.isNone)).map (·.1)).countP p +
          if s.config.admission then 0 else s.slotsAcquired.countP p
      else 0

end ServerAccount

section Accounts

variable {N : HandshakePrimitives} {P : Primitives} {s : Server} {i : ServerInstr}
  {effect : Effect Server ServerInstr} {p : Nat → Bool} {a : ServerAccount}

theorem ServeExec.keeps (h : ServeExec s i effect) :
    a.balance p effect.state + effect.leaves (a.weight p) = a.balance p s + a.weight p i := by
  cases h <;> cases a <;>
    simp [Effect.leaves, workerProgram, List.countP_append, List.countP_cons] <;>
    omega

theorem WorkerExec.keeps (h : WorkerExec N P s i effect) :
    a.balance p effect.state + effect.leaves (a.weight p) = a.balance p s + a.weight p i := by
  cases h with
  | connAcquired | admissionAccepted =>
      -- what is left to do depends on the hooks that are configured
      cases hadmission : s.config.admission <;> cases hhook : s.config.onDisconnect <;> cases a <;>
        simp [Effect.leaves, afterSlot, handoff, hadmission, hhook, List.countP_append,
          List.countP_cons] <;>
        omega
  | _ =>
      cases a <;>
        simp [Effect.leaves, runConn, List.countP_append, List.countP_cons] <;>
        omega

theorem RuntimeExec.keeps (h : RuntimeExec s i effect) :
    a.balance p effect.state + effect.leaves (a.weight p) = a.balance p s + a.weight p i := by
  cases h <;> cases a <;>
    simp [Effect.leaves, List.countP_append, List.countP_cons]
  omega

/-- Nothing that a shutdown has left to do is owed. -/
theorem ServerAccount.weigh_shutdownProgram (a : ServerAccount) (p : Nat → Bool)
    (kind : ShutdownKind) (snapshot : Snapshot) (err : Option Error) :
    weigh (a.weight p) (shutdownProgram kind snapshot err) = 0 := by
  refine weigh_eq_zero fun i hi => ?_
  rcases mem_shutdownProgram hi with ⟨n, rfl⟩ | ⟨n, rfl⟩ | rfl | rfl <;> cases a <;> rfl

theorem ShutdownExec.keeps (h : ShutdownExec s i effect) :
    a.balance p effect.state + effect.leaves (a.weight p) = a.balance p s + a.weight p i := by
  cases h with
  | closeListener =>
      cases a <;>
        simp [Effect.leaves, ServerAccount.weigh_shutdownProgram]
  | _ => cases a <;> simp [Effect.leaves]

theorem serverAccount_conserved (N : HandshakePrimitives) (P : Primitives) (p : Nat → Bool)
    (a : ServerAccount) : (serverMachine N P).Conserves (a.weight p) (a.balance p) where
  exec h := by
    cases h with
    | serve h | worker h | runtime h | shutdown h => exact h.keeps
  ambient h := by
    cases h <;> cases a <;> simp

end Accounts

/-! ## Tokens -/

/-- The stages that a socket passes once. -/
inductive ServerToken where
  /-- Up to the token of `handshakes`. -/
  | accepted (n : Nat)
  /-- From there up to the registration. -/
  | registered (n : Nat)
  /-- From there up to the connection slot. -/
  | slotted (n : Nat)

namespace ServerToken

/-- The goroutine is on the way to the end of the stage. -/
@[simp] def weight : ServerToken → ServerInstr → Nat
  | .accepted n, .acquireHandshake _ m => if m = n then 1 else 0
  | .registered n, .registerHandshake _ m => if m = n then 1 else 0
  | .slotted n, .launchWorker _ m | .slotted n, .performHandshake m | .slotted n, .exchange m _
  | .slotted n, .acquireConn m _ _ => if m = n then 1 else 0
  | _, _ => 0

/-- What has passed the stage, less what has passed the one before. -/
@[simp] def balance : ServerToken → Server → Int
  | .accepted n, s => (if s.nextSocket ≤ n then 1 else 0) + s.handshakesAcquired.count n
  | .registered n, s => s.registered.count n - s.handshakesAcquired.count n
  | .slotted n, s => s.slotsAcquired.count n - s.registered.count n

end ServerToken

section Tokens

variable {N : HandshakePrimitives} {P : Primitives} {s : Server} {i : ServerInstr}
  {effect : Effect Server ServerInstr} {t : ServerToken}

theorem ServeExec.pays (h : ServeExec s i effect) :
    t.balance effect.state + effect.leaves t.weight ≤ t.balance s + t.weight i := by
  cases h with
  | accepted =>
      cases t with
      | accepted n =>
          simp only [Effect.leaves, ServerToken.weight, ServerToken.balance, weigh_cons, weigh_nil,
            load_nil]
          split_ifs <;> omega
      | _ => simp [Effect.leaves]
  | _ =>
      cases t <;>
        simp [Effect.leaves, workerProgram, List.count_append, List.count_singleton] <;>
        omega

theorem WorkerExec.pays (h : WorkerExec N P s i effect) :
    t.balance effect.state + effect.leaves t.weight ≤ t.balance s + t.weight i := by
  cases h with
  | connAcquired | admissionAccepted =>
      cases hadmission : s.config.admission <;> cases hhook : s.config.onDisconnect <;> cases t <;>
        simp [Effect.leaves, afterSlot, handoff, hadmission, hhook, List.count_append,
          List.count_singleton] <;>
        omega
  | _ =>
      cases t <;>
        simp [Effect.leaves, runConn] <;>
        omega

theorem ServerToken.weigh_shutdownProgram (t : ServerToken) (kind : ShutdownKind)
    (snapshot : Snapshot) (err : Option Error) :
    weigh t.weight (shutdownProgram kind snapshot err) = 0 := by
  refine weigh_eq_zero fun i hi => ?_
  rcases mem_shutdownProgram hi with ⟨n, rfl⟩ | ⟨n, rfl⟩ | rfl | rfl <;> cases t <;> rfl

theorem serverToken_spends (N : HandshakePrimitives) (P : Primitives) (t : ServerToken) :
    (serverMachine N P).Spends t.weight t.balance where
  exec h := by
    cases h with
    | serve h | worker h => exact h.pays
    | runtime h =>
        cases h <;> cases t <;> simp [Effect.leaves]
    | shutdown h =>
        cases h with
        | closeListener =>
            cases t <;>
              simp [Effect.leaves, ServerToken.weigh_shutdownProgram]
        | _ => cases t <;> simp [Effect.leaves]
  ambient h := by
    cases h <;> cases t <;> simp

end Tokens

/-! ## Whole runs -/

section Runs

variable {N : HandshakePrimitives} {P : Primitives} {config : ServerSetup}
  {pool : Pool Server ServerInstr}

theorem ServerAccount.balance_new (p : Nat → Bool) (a : ServerAccount) (config : ServerSetup) :
    a.balance p (.new config) = 0 := by
  cases hadmission : config.admission <;> cases hhook : config.onDisconnect <;> cases a <;>
    simp [Server.new, hadmission, hhook]

/-- What has been paid and what is still owed make up the debt. -/
theorem serverAccount_balanced (p : Nat → Bool) (a : ServerAccount)
    (h : (serverMachine N P).Reaches (serverStart (.new config)) pool) :
    a.balance p pool.state + load (a.weight p) pool.threads = 0 := by
  have htotal : pool.total _ _ = _ := (serverAccount_conserved N P p a).reaches h
  rwa [Pool.total, Pool.total, serverStart, ServerAccount.balance_new, load_nil] at htotal

theorem acquired_count_le (n : Nat)
    (h : (serverMachine N P).Reaches (serverStart (.new config)) pool) :
    pool.state.handshakesAcquired.count n ≤ 1 := by
  have htotal := (serverToken_spends N P (.accepted n)).reaches h
  simp only [Pool.total, serverStart, Server.new, ServerToken.balance, List.count_nil, load_nil,
    Nat.zero_le, if_true] at htotal
  split_ifs at htotal <;> omega

theorem registered_count_le (n : Nat)
    (h : (serverMachine N P).Reaches (serverStart (.new config)) pool) :
    pool.state.registered.count n + load (ServerToken.registered n).weight pool.threads ≤
      pool.state.handshakesAcquired.count n := by
  have htotal := (serverToken_spends N P (.registered n)).reaches h
  simp only [Pool.total, serverStart, Server.new, ServerToken.balance, List.count_nil,
    load_nil] at htotal
  omega

theorem slotsAcquired_count_le (n : Nat)
    (h : (serverMachine N P).Reaches (serverStart (.new config)) pool) :
    pool.state.slotsAcquired.count n + load (ServerToken.slotted n).weight pool.threads ≤
      pool.state.registered.count n := by
  have htotal := (serverToken_spends N P (.slotted n)).reaches h
  simp only [Pool.total, serverStart, Server.new, ServerToken.balance, List.count_nil,
    load_nil] at htotal
  omega

end Runs

end DgProto
