import DgProto.Connection.Exec

/-!
# What is handed out once

Ownership in a connection is passed from instruction to instruction: the right to close
`done`, to launch a loop, a read lease, the right to write.  A token gives
every instruction the amount it holds and every state the amount that is still to be
taken or already used up.  No rule ever raises the sum (`token_spends`), so the bounds
at the start hold in every interleaving.

Two sums are even kept exactly (`account_conserved`): a launched loop has exited or is
still to exit, and an accepted item with a completion channel is in a queue, in the
hands of one goroutine or completed.
-/

namespace DgProto

open Library Wire Crypto Connection

/-- One while a `sync.Once` has no owner. -/
def Once.unclaimed : Once → Nat
  | .idle => 1
  | _ => 0

/-- One when the function of a `sync.Once` has returned. -/
def Once.ended : Once → Nat
  | .finished => 1
  | _ => 0

/-- One when the owner of `startOnce` launches no more loops. -/
def StartOwner.settled : Option StartOwner → Nat
  | some .launched | some .preCanceled | some .close => 1
  | _ => 0

/-- The item has this completion channel. -/
def QueuedMessage.tells (channel : Nat) (item : QueuedMessage) : Bool :=
  item.completion == some channel

/-- What the instructions of a connection hold. -/
inductive Token where
  /-- The right to close `done`. -/
  | done
  /-- The right to launch loops. -/
  | launcher
  /-- The right to launch this loop. -/
  | launch (loop : Loop)
  /-- A place in the wait group. -/
  | running
  /-- A read lease of `queueMu`. -/
  | lease
  /-- The end of the function under `shutdownOnce`. -/
  | ending
  /-- The right to write to the transport and to fail what is queued for it. -/
  | writer
  /-- A call of `enqueueChannel` with this completion channel that has not been accepted. -/
  | pending (channel : Nat)
  /-- An accepted call with this completion channel that has not returned. -/
  | admitted (channel : Nat)

namespace Token

/-- What an instruction holds. -/
@[simp] def weight : Token → Instr → Nat
  | .done => fun
      | .checkStart _ | .launch _ _ | .awaitLoops | .finishJoin | .closeDone => 1
      | _ => 0
  | .launcher => fun
      | .checkStart _ | .launch _ _ => 1
      | _ => 0
  | .launch loop => fun
      | .checkStart _ => 1
      | .launch loops _ => loops.count loop
      | _ => 0
  | .running => fun
      | .exit _ => 1
      | _ => 0
  | .lease => fun
      | .checkContext _ | .checkClosing _ | .offer _ | .releaseLease | .checkClose _
      | .requestClose _ | .checkHandler _ | .offerHandler _ => 1
      | _ => 0
  | .ending => fun
      | .endShutdown => 1
      | _ => 0
  | .writer => fun
      | .checkStart _ => 1
      | .launch loops _ => loops.count .write
      | .writeLoop | .selectWork | .sendFrame _ | .marshalFrame _ _ | .checkLane _ _ _
      | .takeLane _ _ _ | .watchContext _ _ _ | .writeWire _ _ _ | .frameWritten _ _
      | .markRekey _ _ | .finishWrite _ _ | .failPending .writer | .drain .writer _ => 1
      | _ => 0
  | .pending channel => fun
      | .enqueue call | .checkContext call | .checkClosing call | .offer call
      | .returnEnqueue call (some _) => if call.item.tells channel then 1 else 0
      | _ => 0
  | .admitted channel => fun
      | .returnEnqueue call none => if call.item.tells channel then 1 else 0
      | _ => 0

/-- What a state has still to give or has seen used up. -/
@[simp] def balance : Token → Connection → Int
  | .done, s => s.doneCloses + s.startOnce.unclaimed
  | .launcher, s => s.startOnce.unclaimed + StartOwner.settled s.startOwner
  | .launch loop, s => s.startOnce.unclaimed + s.launched.count loop
  | .running, s => -s.wg
  | .lease, s => -s.readers
  | .ending, s => s.shutdownOnce.unclaimed + s.shutdownOnce.ended
  | .writer, s => s.startOnce.unclaimed
  | .pending channel, s =>
      (if s.nextChannel ≤ channel then 1 else 0) + s.accepted.countP (·.2.tells channel) +
        s.returned.countP fun r => r.1.tells channel && r.2.isSome
  | .admitted channel, s =>
      (s.returned.countP fun r => r.1.tells channel && r.2.isNone) -
        s.accepted.countP (·.2.tells channel)

/-- The instruction spends what it pays for the effect. -/
def Pays (t : Token) (s : Connection) (i : Instr) (effect : Effect Connection Instr) : Prop :=
  t.balance effect.state + effect.leaves t.weight ≤ t.balance s + t.weight i

end Token

namespace Token

variable {t : Token} {s : Connection} {i : Instr} {effect : Effect Connection Instr}

/-- An instruction may always drop what it holds. -/
theorem pays_of_leaves (hbalance : t.balance effect.state ≤ t.balance s)
    (hleaves : effect.leaves t.weight = 0) : t.Pays s i effect := by
  unfold Pays
  omega

/-- Making another channel leaves the calls with an older one alone. -/
theorem balance_allocate (t : Token) (s : Connection) :
    t.balance { s with nextChannel := s.nextChannel + 1 } ≤ t.balance s := by
  cases t with
  | pending channel =>
      simp only [balance]
      split_ifs <;> omega
  | _ => exact Int.le_refl _

end Token

section Rules

attribute [local simp] Token.Pays Token.balance Token.weight Effect.leaves

variable {P : Primitives} {s : Connection} {i : Instr} {effect : Effect Connection Instr}

theorem loops_count_le (config : ConnectionConfig) (loop : Loop) :
    config.loops.count loop ≤ 1 := by
  unfold ConnectionConfig.loops
  cases config.handler <;> cases loop <;> decide

theorem LifecycleExec.pays (t : Token) (h : LifecycleExec s i effect) : t.Pays s i effect := by
  cases h with
  | startFirst h | claimFirst h =>
      cases t with
      | done | launcher | launch | writer =>
          simp [Once.unclaimed, StartOwner.settled, stopUnstarted, shutdown, h]
          try omega
      | _ => exact Int.le_refl _
  | startCanceled =>
      cases t with
      | launcher | launch | writer =>
          simp [StartOwner.settled, stopUnstarted, shutdown]
      | _ => exact Int.le_refl _
  | startLive =>
      have hcount := loops_count_le s.config
      cases t with
      | launch loop =>
          have hloop := hcount loop
          simp
          omega
      | writer =>
          have hwrite := hcount .write
          simp
          omega
      | _ => exact Int.le_refl _
  | @launchLoop loop loops ctx =>
      cases t with
      | launch target =>
          cases loop <;> cases target <;> simp [Loop.entry] <;> omega
      | running | writer =>
          cases loop <;> simp [Loop.entry]
      | _ => cases loop <;> exact Int.le_refl _
  | launchHelpers =>
      cases t with
      | launcher => simp [StartOwner.settled]
      | _ => exact Int.le_refl _
  | closeDone =>
      cases t with
      | done =>
          simp
          omega
      | _ => exact Int.le_refl _
  | endStart =>
      cases t with
      | done | launcher | launch | writer =>
          simp [Once.unclaimed]
      | _ => exact Int.le_refl _
  | exitLoop h =>
      cases t with
      | running => simp [h]
      | _ => exact Int.le_refl _
  | shutdownFirst h =>
      cases t with
      | ending =>
          simp [Once.unclaimed, Once.ended, shutdownBody, h]
      | _ => simp [shutdownBody]
  | endShutdown =>
      cases t with
      | ending =>
          simp [Once.unclaimed, Once.ended]
          omega
      | _ => exact Int.le_refl _
  | leaseClose =>
      cases t with
      | lease => simp
      | _ => exact Int.le_refl _
  | wasStarted =>
      exact Token.pays_of_leaves (t.balance_allocate s) (by cases t <;> rfl)
  | _ => cases t <;> exact Int.le_refl _

/-- What follows a call of `enqueueChannel` holds no token. -/
theorem weigh_resume (t : Token) (call : EnqueueCall) (result : Option Error) :
    weigh t.weight (call.resume result) = 0 := by
  obtain ⟨_, _, ⟨_, _, completion⟩, _, after⟩ := call
  cases after <;> cases result <;> cases completion <;> cases t <;> rfl

theorem QueueExec.pays (t : Token) (h : QueueExec s i effect) : t.Pays s i effect := by
  cases h with
  | lease =>
      cases t with
      | lease | pending => simp
      | _ => exact Int.le_refl _
  | contextEnded | contextLive | refused | admitted | full | waitEnded | waitClosed =>
      cases t with
      | pending => simp
      | _ => exact Int.le_refl _
  | accepted =>
      cases t with
      | pending | admitted =>
          simp [Connection.push, List.countP_cons]
          try omega
      | _ => exact Int.le_refl _
  | releaseLease h =>
      cases t with
      | lease => simp [h]
      | _ => exact Int.le_refl _
  | @returnEnqueue call result =>
      cases t with
      | pending | admitted =>
          simp only [Token.Pays, Effect.leaves, weigh_resume]
          cases result <;> simp [List.countP_cons]
          try omega
      | _ =>
          simp only [Token.Pays, Effect.leaves, weigh_resume]
          exact Int.le_refl _
  | @failPending who | @drainControl who | @drainOutbound who | @drainRequest who =>
      cases who <;> cases t <;> exact Int.le_refl _
  | drained => exact Token.pays_of_leaves (by cases t <;> exact Int.le_refl _) rfl
  | _ => cases t <;> exact Int.le_refl _

theorem WriteExec.pays (t : Token) (h : WriteExec P s i effect) : t.Pays s i effect := by
  cases h with
  | @finishWrite job err => cases job <;> cases err <;> cases t <;> exact Int.le_refl _
  | _ => cases t <;> exact Int.le_refl _

/-- What follows a handler call holds no token. -/
theorem weigh_finishHandler (t : Token) (result : Option Error) :
    weigh t.weight (finishHandler result) = 0 := by
  cases result <;> cases t <;> rfl

theorem ReceiveExec.pays (t : Token) (h : ReceiveExec P s i effect) : t.Pays s i effect := by
  cases h with
  | leaseHandler =>
      cases t with
      | lease => simp
      | _ => exact Int.le_refl _
  | callBounded =>
      exact Token.pays_of_leaves (t.balance_allocate s) (by cases t <;> rfl)
  | inlineReturned | inlinePanicked | handlerReturned | handlerLate | handlerAbandoned =>
      exact Token.pays_of_leaves (by cases t <;> exact Int.le_refl _)
        (by simp [weigh_finishHandler, -Token.weight])
  | _ => cases t <;> exact Int.le_refl _

theorem KeepaliveExec.pays (t : Token) (h : KeepaliveExec s i effect) : t.Pays s i effect := by
  cases h <;> cases t <;> exact Int.le_refl _

/-- A new call takes its tokens from the state: a channel of its own. -/
theorem Ambient.pays (t : Token) {s' : Connection} {new : List (List Instr)}
    (h : Ambient s s' new) : t.balance s' + load t.weight new ≤ t.balance s := by
  cases h with
  | call api =>
      cases t with
      | pending channel =>
          cases api <;> simp [ApiCall.program, shutdown, QueuedMessage.tells] <;> split_ifs <;>
            omega
      | _ => cases api <;> simp [ApiCall.program, shutdown]
  | cancelCaller => cases t <;> simp

/-- No rule raises what a token adds up to. -/
theorem token_spends (P : Primitives) (t : Token) :
    (connectionMachine P).Spends t.weight t.balance where
  exec h := by
    cases h with
    | lifecycle h | queue h | write h | receive h | keepalive h => exact h.pays t
  ambient h := h.pays t

end Rules

/-! ## Accounts -/

/-- One for a job whose item has this completion channel. -/
def WriteJob.holds (channel : Nat) : WriteJob → Nat
  | .close _ => 0
  | .queued _ item => if item.tells channel then 1 else 0

inductive Account where
  /-- The runs of a loop. -/
  | loop (loop : Loop)
  /-- The items with this completion channel. -/
  | item (channel : Nat)

namespace Account

/-- What is left to an instruction. -/
@[simp] def weight : Account → Instr → Nat
  | .loop target => fun
      | .exit exited => if exited = target then 1 else 0
      | _ => 0
  | .item channel => fun
      | .sendFrame job | .marshalFrame job _ | .checkLane job _ _ | .takeLane job _ _
      | .watchContext job _ _ | .writeWire job _ _ | .frameWritten job _ | .markRekey job _
      | .finishWrite job _ => job.holds channel
      | .complete _ queued _ => if queued.tells channel then 1 else 0
      | _ => 0

@[simp] def balance : Account → Connection → Int
  | .loop target, s => s.exited.count target - s.launched.count target
  | .item channel, s =>
      s.completions.countP (·.1 == channel) + s.outbound.countP (·.tells channel) +
        s.control.countP (·.tells channel) - s.accepted.countP (·.2.tells channel)

/-- The effect accounts for what the instruction held. -/
def Keeps (a : Account) (s : Connection) (i : Instr) (effect : Effect Connection Instr) : Prop :=
  a.balance effect.state + effect.leaves a.weight = a.balance s + a.weight i

end Account

section AccountRules

attribute [local simp] Account.Keeps Account.balance Account.weight Effect.leaves

variable {P : Primitives} {s : Connection} {i : Instr} {effect : Effect Connection Instr}

theorem LifecycleExec.keeps (a : Account) (h : LifecycleExec s i effect) :
    a.Keeps s i effect := by
  cases h with
  | @launchLoop loop loops ctx =>
      cases a with
      | loop target =>
          cases loop <;> cases target <;> simp [Loop.entry] <;> omega
      | item => cases loop <;> exact rfl
  | @exitLoop loop =>
      cases a with
      | loop target =>
          cases loop <;> cases target <;> simp <;> omega
      | item => exact rfl
  | _ => cases a <;> exact rfl

theorem QueueExec.keeps (a : Account) (h : QueueExec s i effect) : a.Keeps s i effect := by
  cases h with
  | @accepted call =>
      cases a with
      | loop => exact rfl
      | item channel =>
          cases call.queue <;> simp [Connection.push, List.countP_cons] <;> omega
  | @returnEnqueue call result =>
      obtain ⟨_, _, ⟨_, _, completion⟩, _, after⟩ := call
      cases after <;> cases result <;> cases completion <;> cases a <;> exact rfl
  | drainControl h | drainOutbound h =>
      cases a with
      | loop => exact rfl
      | item channel =>
          simp [h, List.countP_cons]
          omega
  | @complete who item err =>
      cases a with
      | loop => exact rfl
      | item channel =>
          cases hcompletion : item.completion <;>
            simp [Connection.complete, QueuedMessage.tells, List.countP_cons, hcompletion]
          omega
  | _ => cases a <;> exact rfl

theorem WriteExec.keeps (a : Account) (h : WriteExec P s i effect) : a.Keeps s i effect := by
  cases h with
  | selectControl h | selectOutbound h =>
      cases a with
      | loop => exact rfl
      | item channel =>
          simp [WriteJob.holds, h, List.countP_cons]
          omega
  | @finishWrite job err =>
      cases job <;> cases err <;> cases a <;> exact rfl
  | watchEnded | wireDone | wireStalled | wireFailed =>
      cases a with
      | loop => exact rfl
      | item channel => simp
  | _ => cases a <;> exact rfl

theorem ReceiveExec.keeps (a : Account) (h : ReceiveExec P s i effect) :
    a.Keeps s i effect := by
  cases h with
  | inlineReturned _ result | @handlerReturned _ result | @handlerLate _ result =>
      cases result <;> cases a <;> exact rfl
  | _ => cases a <;> exact rfl

theorem KeepaliveExec.keeps (a : Account) (h : KeepaliveExec s i effect) :
    a.Keeps s i effect := by
  cases h <;> cases a <;> exact rfl

/-- Every rule accounts for loops and items. -/
theorem account_conserved (P : Primitives) (a : Account) :
    (connectionMachine P).Conserves a.weight a.balance where
  exec h := by
    cases h with
    | lifecycle h | queue h | write h | receive h | keepalive h => exact h.keeps a
  ambient h := by
    cases h with
    | call api => cases a <;> cases api <;> simp [ApiCall.program, shutdown]
    | cancelCaller => cases a <;> simp

end AccountRules

end DgProto
