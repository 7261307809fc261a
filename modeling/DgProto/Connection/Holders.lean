import DgProto.Connection.Lifecycle
import DgProto.Library.LockOrder

/-!
# Who holds what

A goroutine of a connection can wait for another one at six places: a lease of `queueMu`, the
three `sync.Once`, and the wait group.  This module says who can end each wait.

* What is held is carried by a goroutine (`Stake`, `Held.carried`): the counts and phases of the
  state are exactly what the goroutines have still to give back.
* The places have an order, and every goroutine waits only for what comes before all it carries
  (`connectionOrder`, `nested_of_reaches`).
* `Orderly` adds this to `Sound`, which says what holds when a goroutine reaches an instruction.

Whether a read, a write, a handler or a timer ever returns is not said here: those are not waits
for another goroutine of the connection.
-/

namespace DgProto

open Library Wire Crypto Connection

/-! ## What is carried -/

/-- What a goroutine can wait for or has to do for others. -/
inductive Hold where
  /-- A read lease of `queueMu`. -/
  | lease
  /-- The exclusive lease of `queueMu`. -/
  | lock
  /-- The function under `shutdownOnce`. -/
  | shutdown
  /-- The function under `startOnce`. -/
  | start
  /-- The function under `closeOnce`. -/
  | close
  /-- The cancellation of the context that is still to come. -/
  | stop
  /-- A place in the wait group. -/
  | join
  deriving DecidableEq

/-- The order in which they are taken, the last one first. -/
def Hold.rank : Hold → Nat
  | .lease => 1
  | .lock => 2
  | .shutdown => 3
  | .start => 4
  | .close => 5
  | .stop => 6
  | .join => 7

namespace Instr

/-- What is given back by an instruction or by what it pushes. -/
@[simp] def carries : Instr → List Hold
  | .checkContext _ | .checkClosing _ | .offer _ | .releaseLease | .checkHandler _
  | .offerHandler _ => [.lease]
  | .checkClose _ | .requestClose _ => [.lease, .close, .stop]
  | .unlockQueues => [.lock]
  | .endShutdown => [.shutdown]
  | .checkStart _ | .launch _ _ | .endStart => [.start]
  | .loadStarted _ _ | .leaseClose _ | .awaitClose _ | .preferResult _ => [.close, .stop]
  | .endClose _ => [.close]
  | .closeOnce _ _ | .shutdownOnce _ | .cancel _ => [.stop]
  | .exit _ => [.join]
  | _ => []

/-- What an instruction waits for. -/
@[simp] def waits : Instr → Option Hold
  | .startOnce _ | .claimStart _ => some .start
  | .closeOnce _ _ => some .close
  | .shutdownOnce _ => some .shutdown
  | .leaseClose _ | .enqueue _ | .leaseHandler _ => some .lock
  | .lockQueues => some .lease
  | .awaitLoops => some .join
  | _ => none

/-- The highest rank of what an instruction and what it pushes wait for.  What may take as long
as the peer or the user likes comes after everything but the wait group. -/
@[simp] def level : Instr → Nat
  | .storeStarted | .launch _ _ | .endStart | .closeDone | .exit _ | .endClose _
  | .recordTerminal _ | .storeClosing | .cancel _ | .cancelOperations | .clearPing
  | .failPending _ | .drain _ _ | .complete _ _ _ | .answer _ _ _ | .dropHandlers | .dropHandler
  | .unlockQueues | .closeSession | .closeTransport | .endShutdown | .returnShutdown
  | .releaseLease => 0
  | .lockQueues => 1
  | .checkStart _ | .finishJoin | .loadStarted _ _ | .leaseClose _ | .checkClose _
  | .requestClose _ | .awaitClose _ | .preferResult _ | .shutdownOnce _ => 3
  | .startOnce _ | .claimStart _ => 4
  | .closeOnce _ _ => 5
  | .awaitLoops => 7
  | _ => 6

end Instr

/-- The order of the waits of a connection. -/
def connectionOrder : LockOrder Instr Hold where
  rank := Hold.rank
  waits := Instr.waits
  carries := Instr.carries
  level := Instr.level
  waits_le {i r} h := by
    cases i <;> simp only [Instr.waits, Option.some.injEq, reduceCtorEq] at h <;> subst h <;>
      simp [Hold.rank]
  own {i r r'} h hcarries := by
    cases i <;> simp only [Instr.waits, Option.some.injEq, reduceCtorEq] at h <;> subst h <;>
      simp only [Instr.carries, List.mem_cons, List.not_mem_nil, or_false] at hcarries <;>
      rcases hcarries with rfl | rfl <;> simp [Hold.rank]

/-- The state says that it is held. -/
def Connection.Held (s : Connection) : Hold → Prop
  | .lease => 0 < s.readers
  | .lock => s.locked = true
  | .shutdown => s.shutdownOnce = .running
  | .start => s.startOnce = .running
  | .close => s.closeOnce = .running
  | .stop => False
  | .join => 0 < s.wg

section Order

variable {P : Primitives} {s : Connection} {i : Instr} {effect : Effect Connection Instr}

/-- What is pushed takes the place of the instruction, and what is started is in order. -/
structure InOrder (i : Instr) (effect : Effect Connection Instr) : Prop where
  pushed : connectionOrder.fits i.level effect.pushed = true
  spawned : ∀ t ∈ effect.spawned, connectionOrder.nested t = true

theorem inOrder_of_pushed (hpushed : connectionOrder.fits i.level effect.pushed = true)
    (hspawned : effect.spawned = []) : InOrder i effect := by
  refine ⟨hpushed, ?_⟩
  rw [hspawned]
  exact fun _ ht => absurd ht List.not_mem_nil

theorem LifecycleExec.inOrder (h : LifecycleExec s i effect) : InOrder i effect := by
  cases h with
  | @launchLoop loop =>
      refine ⟨rfl, fun t ht => ?_⟩
      obtain rfl := List.mem_singleton.mp ht
      cases loop <;> rfl
  | launchHelpers =>
      refine ⟨rfl, fun t ht => ?_⟩
      simp only [List.mem_cons, List.not_mem_nil, or_false] at ht
      rcases ht with rfl | rfl <;> rfl
  | _ => exact inOrder_of_pushed rfl rfl

theorem QueueExec.inOrder (h : QueueExec s i effect) : InOrder i effect := by
  cases h with
  | @returnEnqueue call result =>
      obtain ⟨_, _, ⟨_, _, completion⟩, _, after⟩ := call
      cases after <;> cases result <;> cases completion <;> exact inOrder_of_pushed rfl rfl
  | _ => exact inOrder_of_pushed rfl rfl

theorem WriteExec.inOrder (h : WriteExec P s i effect) : InOrder i effect := by
  cases h with
  | @finishWrite job err => cases job <;> cases err <;> exact inOrder_of_pushed rfl rfl
  | _ => exact inOrder_of_pushed rfl rfl

theorem ReceiveExec.inOrder (h : ReceiveExec P s i effect) : InOrder i effect := by
  cases h with
  | inlineReturned _ result | @handlerReturned _ result | @handlerLate _ result =>
      cases result <;> exact inOrder_of_pushed rfl rfl
  | callBounded =>
      refine ⟨rfl, fun t ht => ?_⟩
      obtain rfl := List.mem_singleton.mp ht
      rfl
  | _ => exact inOrder_of_pushed rfl rfl

theorem KeepaliveExec.inOrder (h : KeepaliveExec s i effect) : InOrder i effect := by
  cases h <;> exact inOrder_of_pushed rfl rfl

theorem Exec.inOrder (h : Exec P s i effect) : InOrder i effect := by
  cases h with
  | lifecycle h | queue h | write h | receive h | keepalive h => exact h.inOrder

theorem ApiCall.nested (api : ApiCall) (channel : Nat) :
    connectionOrder.nested (api.program channel) = true := by
  cases api <;> rfl

end Order

/-! ## What the state says is carried -/

/-- What adds up exactly. -/
inductive Stake where
  | lease
  | shutdown
  | start
  | close
  | join
  /-- The handlers that run. -/
  | handlers
  /-- The right to close `done`. -/
  | done
  /-- The exclusive lease that is still to be taken. -/
  | exclusive
  /-- The close of the transport. -/
  | transport

namespace Stake

/-- The part of an instruction. -/
@[simp] def weight : Stake → Instr → Nat
  | .lease => fun i => i.carries.count .lease
  | .shutdown => fun i => i.carries.count .shutdown
  | .start => fun i => i.carries.count .start
  | .close => fun i => i.carries.count .close
  | .join => fun i => i.carries.count .join
  | .handlers => fun
      | .handlerInline | .handlerDetached _ => 1
      | _ => 0
  | .done => Token.done.weight
  | .exclusive => fun
      | .lockQueues => 1
      | _ => 0
  | .transport => fun
      | .closeTransport => 1
      | _ => 0

/-- The part of the state. -/
def balance : Stake → Connection → Int
  | .lease, s => -s.readers
  | .shutdown, s => s.shutdownOnce.unclaimed + s.shutdownOnce.ended
  | .start, s => s.startOnce.unclaimed + s.startOnce.ended
  | .close, s => s.closeOnce.unclaimed + s.closeOnce.ended
  | .join, s => -s.wg
  | .handlers, s => -s.handlersRunning
  | .done, s => Token.done.balance s
  | .exclusive, s => s.shutdownOnce.unclaimed + if s.leased then 1 else 0
  | .transport, s => s.shutdownOnce.unclaimed + s.transportCloses

def limit : Stake → Int
  | .lease | .join | .handlers => 0
  | _ => 1

/-- Where the limits leave room for the instruction, its effect keeps the sum. -/
def Keeps (k : Stake) (s : Connection) (i : Instr) (effect : Effect Connection Instr) : Prop :=
  k.balance effect.state + effect.leaves k.weight = k.balance s + k.weight i

end Stake

section Stakes

attribute [local simp] Stake.Keeps Stake.balance Stake.weight Instr.carries Effect.leaves
  Once.unclaimed Once.ended

variable {P : Primitives} {s : Connection} {i : Instr} {effect : Effect Connection Instr}

/-- A function under a `sync.Once` that ends has been running. -/
theorem Once.running_of_limit {once : Once} (h : (once.unclaimed + once.ended + 1 : Int) ≤ 1) :
    once = .running := by
  cases once with
  | running => rfl
  | idle | finished => exact absurd h (by decide)

theorem LifecycleExec.stakes (h : LifecycleExec s i effect)
    (hroom : ∀ k : Stake, k.balance s + k.weight i ≤ k.limit) (k : Stake) :
    k.Keeps s i effect := by
  cases h with
  | startFirst h | claimFirst h | closeFirst h | shutdownFirst h =>
      cases k with
      | shutdown | start | close | done | exclusive | transport =>
          simp [h, stopUnstarted, shutdown, closeBody, shutdownBody] <;> omega
      | _ => exact rfl
  | @launchLoop loop =>
      cases k with
      | join => cases loop <;> simp [Loop.entry]
      | _ => cases loop <;> exact rfl
  | exitLoop h =>
      cases k with
      | join => simp [h]
      | _ => exact rfl
  | endStart =>
      have hrunning := Once.running_of_limit (hroom .start)
      cases k with
      | start | done => simp [hrunning]
      | _ => exact rfl
  | endShutdown =>
      have hrunning := Once.running_of_limit (hroom .shutdown)
      cases k with
      | shutdown | exclusive | transport => simp [hrunning]
      | _ => exact rfl
  | endClose =>
      have hrunning := Once.running_of_limit (hroom .close)
      cases k with
      | close => simp [hrunning]
      | _ => exact rfl
  | closeDone =>
      cases k with
      | done =>
          simp
          omega
      | _ => exact rfl
  | leaseClose =>
      cases k with
      | lease => simp
      | _ => exact rfl
  | closeTransport =>
      cases k with
      | transport =>
          simp
          omega
      | _ => exact rfl
  | lockQueues =>
      have hleased : s.leased = false := by
        have hlimit : (s.shutdownOnce.unclaimed + (if s.leased then 1 else 0) + 1 : Int) ≤ 1 :=
          hroom .exclusive
        cases hleased : s.leased with
        | false => rfl
        | true =>
            rw [hleased, if_pos rfl] at hlimit
            omega
      cases k with
      | exclusive => simp [hleased]
      | _ => exact rfl
  | _ => cases k <;> exact rfl

theorem QueueExec.stakes (h : QueueExec s i effect) (k : Stake) : k.Keeps s i effect := by
  cases h with
  | lease =>
      cases k with
      | lease => simp
      | _ => exact rfl
  | releaseLease h =>
      cases k with
      | lease => simp [h]
      | _ => exact rfl
  | @returnEnqueue call result =>
      obtain ⟨_, _, ⟨_, _, completion⟩, _, after⟩ := call
      cases after <;> cases result <;> cases completion <;> cases k <;> exact rfl
  | _ => cases k <;> exact rfl

theorem WriteExec.stakes (h : WriteExec P s i effect) (k : Stake) : k.Keeps s i effect := by
  cases h with
  | @finishWrite job err => cases job <;> cases err <;> cases k <;> exact rfl
  | _ => cases k <;> exact rfl

theorem ReceiveExec.stakes (h : ReceiveExec P s i effect) (k : Stake) : k.Keeps s i effect := by
  cases h with
  | leaseHandler =>
      cases k with
      | lease => simp
      | _ => exact rfl
  | callInline | invokeHandler =>
      cases k with
      | handlers => simp
      | _ => exact rfl
  | inlineReturned h result =>
      cases k with
      | handlers => cases result <;> simp [finishHandler, shutdown, h]
      | _ => cases result <;> exact rfl
  | inlinePanicked h | detachedReturned h | detachedPanicked h =>
      cases k with
      | handlers => simp [finishHandler, shutdown, h]
      | _ => exact rfl
  | @handlerReturned _ result | @handlerLate _ result => cases result <;> cases k <;> exact rfl
  | _ => cases k <;> exact rfl

theorem KeepaliveExec.stakes (h : KeepaliveExec s i effect) (k : Stake) : k.Keeps s i effect := by
  cases h <;> cases k <;> exact rfl

/-- Every rule keeps what adds up exactly. -/
theorem stakes_kept (P : Primitives) :
    (connectionMachine P).Rations Stake.weight Stake.balance Stake.limit where
  exec h hroom k := by
    cases h with
    | lifecycle h => exact h.stakes hroom k
    | queue h | write h | receive h | keepalive h => exact h.stakes k
  ambient h k := by
    cases h with
    | call api => cases k <;> cases api <;> exact Int.add_zero _
    | cancelCaller => cases k <;> exact Int.add_zero _

end Stakes

/-! ## The exclusive lease -/

/-- The thread gives the exclusive lease back that it takes. -/
abbrev Unlocks : List Instr → Prop :=
  Followed (· = .lockQueues) (· = .unlockQueues)

section Lock

variable {P : Primitives} {s : Connection} {i : Instr} {effect : Effect Connection Instr}

/-- What a rule does to the exclusive lease. -/
structure Locks (s : Connection) (i : Instr) (effect : Effect Connection Instr) : Prop where
  pushed : Unlocks effect.pushed
  spawned : ∀ t ∈ effect.spawned, Unlocks t
  locked : effect.state.locked = true → i = .lockQueues ∨ s.locked = true ∧ i ≠ .unlockQueues
  leased : effect.state.leased = true ∨ effect.state.leased = s.leased ∧ i ≠ .lockQueues

/-- Only the body of `shutdown` takes the exclusive lease. -/
theorem unlocks_of_free {t : List Instr} (h : Instr.lockQueues ∉ t) : Unlocks t := by
  refine Followed.of_free fun i hi hlock => ?_
  subst hlock
  exact h hi

theorem locks_of_same (hpushed : Instr.lockQueues ∉ effect.pushed)
    (hspawned : ∀ t ∈ effect.spawned, Instr.lockQueues ∉ t)
    (hlocked : effect.state.locked = s.locked) (hleased : effect.state.leased = s.leased)
    (hlock : i ≠ .lockQueues) (hunlock : i ≠ .unlockQueues) : Locks s i effect where
  pushed := unlocks_of_free hpushed
  spawned t ht := unlocks_of_free (hspawned t ht)
  locked h := .inr ⟨hlocked.symm.trans h, hunlock⟩
  leased := .inr ⟨hleased, hlock⟩

theorem LifecycleExec.locks (h : LifecycleExec s i effect) : Locks s i effect := by
  cases h with
  | shutdownFirst =>
      refine ⟨?_, fun _ ht => absurd ht List.not_mem_nil, fun hlocked => .inr ⟨hlocked, ?_⟩,
        .inr ⟨rfl, ?_⟩⟩
      · simp [shutdownBody, Followed]
      · simp
      · simp
  | lockQueues =>
      exact ⟨trivial, fun _ ht => absurd ht List.not_mem_nil, fun _ => .inl rfl, .inl rfl⟩
  | unlockQueues =>
      refine ⟨trivial, fun _ ht => absurd ht List.not_mem_nil, fun hlocked => ?_, .inr ⟨rfl, ?_⟩⟩
      · cases hlocked
      · simp
  | @launchLoop loop =>
      refine locks_of_same (by simp) ?_ rfl rfl (by simp) (by simp)
      cases loop <;> simp [Loop.entry]
  | _ =>
      exact locks_of_same (by simp [stopUnstarted, shutdown, closeBody]) (by simp) rfl rfl
        (by simp) (by simp)

theorem QueueExec.locks (h : QueueExec s i effect) : Locks s i effect := by
  cases h with
  | @returnEnqueue call result =>
      obtain ⟨_, _, ⟨_, _, completion⟩, _, after⟩ := call
      refine locks_of_same ?_ (by simp) rfl rfl (by simp) (by simp)
      cases after <;> cases result <;> cases completion <;> simp [EnqueueCall.resume, shutdown]
  | _ => exact locks_of_same (by simp) (by simp) rfl rfl (by simp) (by simp)

theorem WriteExec.locks (h : WriteExec P s i effect) : Locks s i effect := by
  cases h with
  | @finishWrite job err =>
      refine locks_of_same ?_ (by simp) rfl rfl (by simp) (by simp)
      cases job <;> cases err <;> simp [WriteJob.finish, shutdown]
  | _ => exact locks_of_same (by simp) (by simp) rfl rfl (by simp) (by simp)

theorem ReceiveExec.locks (h : ReceiveExec P s i effect) : Locks s i effect := by
  cases h with
  | inlineReturned _ result | @handlerReturned _ result | @handlerLate _ result =>
      refine locks_of_same ?_ (by simp) rfl rfl (by simp) (by simp)
      cases result <;> simp [finishHandler, shutdown]
  | _ =>
      exact locks_of_same (by simp [finishHandler, shutdown]) (by simp) rfl rfl (by simp) (by simp)

theorem KeepaliveExec.locks (h : KeepaliveExec s i effect) : Locks s i effect := by
  cases h <;> exact locks_of_same (by simp [shutdown]) (by simp) rfl rfl (by simp) (by simp)

theorem Exec.locks (h : Exec P s i effect) : Locks s i effect := by
  cases h with
  | lifecycle h | queue h | write h | receive h | keepalive h => exact h.locks

theorem ApiCall.unlocks (api : ApiCall) (channel : Nat) : Unlocks (api.program channel) := by
  refine unlocks_of_free ?_
  cases api <;> simp [ApiCall.program, shutdown]

end Lock

/-! ## The invariant -/

/-- What holds in every pool of goroutines that a new connection reaches, as to who waits for
whom. -/
structure Orderly (pool : Pool Connection Instr) : Prop extends Sound pool where
  stakes : ∀ k : Stake, pool.total k.weight k.balance = k.limit
  nested : ∀ t ∈ pool.threads, connectionOrder.nested t = true
  unlocks : ∀ t ∈ pool.threads, Unlocks t
  locked : pool.state.locked = true → ∃ t ∈ pool.threads, Instr.unlockQueues ∈ t
  exclusive : pool.state.locked = true → pool.state.leased = true

section Invariant

variable {P : Primitives} {s : Connection} {threads : List (List Instr)} {k : Nat} {i : Instr}
  {rest : List Instr}

theorem orderly_start (session : Session) (config : ConnectionConfig) :
    Orderly (connectionStart session config) where
  toSound := sound_start session config
  stakes k := by cases k <;> rfl
  nested _ ht := absurd ht List.not_mem_nil
  unlocks _ ht := absurd ht List.not_mem_nil
  locked h := absurd h Bool.false_ne_true
  exclusive h := absurd h Bool.false_ne_true

/-- A step of a goroutine keeps the exclusive lease in the hands of one that gives it back. -/
theorem Orderly.locked_exec {effect : Effect Connection Instr} (h : Orderly ⟨s, threads⟩)
    (hk : threads[k]? = some (i :: rest)) (hlocks : Locks s i effect)
    (hlocked : effect.state.locked = true) :
    ∃ t ∈ threads.set k (effect.pushed ++ rest) ++ effect.spawned, Instr.unlockQueues ∈ t := by
  rcases hlocks.locked hlocked with rfl | ⟨hold, hne⟩
  · obtain ⟨j, hj, rfl⟩ := (h.unlocks _ (List.mem_of_getElem? hk)).1 rfl
    exact ⟨_, mem_set_append_self hk, List.mem_append_right _ hj⟩
  · obtain ⟨t, ht, hunlock⟩ := h.locked hold
    exact exists_mem_step hk ht hunlock hne.symm

theorem Orderly.step {before after : Pool Connection Instr} (h : Orderly before)
    (hstep : (connectionMachine P).Step before after) : Orderly after := by
  have hsound := h.toSound.step hstep
  have hstakes := (stakes_kept P).step hstep h.stakes
  cases hstep with
  | @thread s threads k i rest effect hk hexec =>
      have hexec : Exec P s i effect := hexec
      have horder := hexec.inOrder
      have hlocks := hexec.locks
      refine ⟨hsound, hstakes, ?_, ?_, h.locked_exec hk hlocks, fun hlocked => ?_⟩
      · exact LockOrder.nested_step h.nested hk horder.pushed horder.spawned
      · exact followed_step h.unlocks hk (.inr hlocks.pushed) hlocks.spawned
      · rcases hlocks.leased with hleased | ⟨hsame, hne⟩
        · exact hleased
        · rcases hlocks.locked hlocked with rfl | ⟨hold, -⟩
          · exact absurd rfl hne
          · exact hsame.trans (h.exclusive hold)
  | @ambient s s' threads new hambient =>
      have hambient : Ambient s s' new := hambient
      cases hambient with
      | call api =>
          refine ⟨hsound, hstakes, fun t ht => ?_, fun t ht => ?_, fun hlocked => ?_, h.exclusive⟩
          · rcases List.mem_append.mp ht with hold | hnew
            · exact h.nested t hold
            · obtain rfl := List.mem_singleton.mp hnew
              exact api.nested _
          · rcases List.mem_append.mp ht with hold | hnew
            · exact h.unlocks t hold
            · obtain rfl := List.mem_singleton.mp hnew
              exact api.unlocks _
          · obtain ⟨t, ht, hunlock⟩ := h.locked hlocked
            exact ⟨t, List.mem_append_left _ ht, hunlock⟩
      | cancelCaller =>
          rw [List.append_nil] at *
          exact ⟨hsound, hstakes, h.nested, h.unlocks, h.locked, h.exclusive⟩

theorem orderly_of_reaches {session : Session} {config : ConnectionConfig}
    {pool : Pool Connection Instr}
    (h : (connectionMachine P).Reaches (connectionStart session config) pool) : Orderly pool :=
  Machine.invariant_of_step Orderly.step (orderly_start session config) h

/-- What a stake still lacks in the state is carried by an instruction. -/
theorem Orderly.exists_weight {pool : Pool Connection Instr} (h : Orderly pool) (k : Stake)
    (hlt : k.balance pool.state < k.limit) : ∃ t ∈ pool.threads, ∃ i ∈ t, k.weight i ≠ 0 := by
  have htotal : k.balance pool.state + load k.weight pool.threads = k.limit := h.stakes k
  exact exists_of_load_pos (by omega)

/-- Whatever is held is carried by a goroutine. -/
theorem Orderly.carried {pool : Pool Connection Instr} (h : Orderly pool) (r : Hold)
    (hheld : pool.state.Held r) : ∃ t ∈ pool.threads, ∃ i ∈ t, r ∈ i.carries := by
  have hcount : ∀ (k : Stake), k.weight = (fun i => i.carries.count r) →
      k.balance pool.state < k.limit → ∃ t ∈ pool.threads, ∃ i ∈ t, r ∈ i.carries := by
    intro k hweight hlt
    obtain ⟨t, ht, i, hi, hpos⟩ := h.exists_weight k hlt
    rw [hweight] at hpos
    exact ⟨t, ht, i, hi, List.count_pos_iff.mp (Nat.pos_of_ne_zero hpos)⟩
  cases r with
  | lease =>
      have hreaders : 0 < pool.state.readers := hheld
      exact hcount .lease rfl (by simp only [Stake.balance, Stake.limit]; omega)
  | join =>
      have hwg : 0 < pool.state.wg := hheld
      exact hcount .join rfl (by simp only [Stake.balance, Stake.limit]; omega)
  | lock =>
      obtain ⟨t, ht, hunlock⟩ := h.locked hheld
      exact ⟨t, ht, _, hunlock, List.mem_singleton.mpr rfl⟩
  | shutdown =>
      have hrunning : pool.state.shutdownOnce = .running := hheld
      exact hcount .shutdown rfl (by simp [Stake.balance, Stake.limit, hrunning, Once.unclaimed,
        Once.ended])
  | start =>
      have hrunning : pool.state.startOnce = .running := hheld
      exact hcount .start rfl (by simp [Stake.balance, Stake.limit, hrunning, Once.unclaimed,
        Once.ended])
  | close =>
      have hrunning : pool.state.closeOnce = .running := hheld
      exact hcount .close rfl (by simp [Stake.balance, Stake.limit, hrunning, Once.unclaimed,
        Once.ended])
  | stop => exact hheld.elim

/-- Whoever comes to take the exclusive lease finds it free: it is taken once. -/
theorem Orderly.unlocked (h : Orderly ⟨s, threads⟩) {t : List Instr} (ht : t ∈ threads)
    (hlock : Instr.lockQueues ∈ t) : s.locked = false := by
  have htotal : Stake.exclusive.balance s + load Stake.exclusive.weight threads = 1 :=
    h.stakes .exclusive
  have hone : Stake.exclusive.weight .lockQueues ≤ load Stake.exclusive.weight threads :=
    weight_le_load ht hlock
  have hweight : Stake.exclusive.weight .lockQueues = 1 := rfl
  cases hlocked : s.locked with
  | false => rfl
  | true =>
      have hleased : s.leased = true := h.exclusive hlocked
      simp only [Stake.balance, hleased, if_true] at htotal
      omega

end Invariant

end DgProto
