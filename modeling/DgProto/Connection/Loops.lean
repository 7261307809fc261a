import DgProto.Connection.Lifecycle
import DgProto.Library.Roster

/-!
# The goroutine of each loop

Each loop of a connection runs in one goroutine.  What is left of it in a pool is a single
instruction: first the one of `Start` that is going to launch it, then the instructions of
its own body, one after the other.  No rule turns an instruction of one loop into that of
another, so each loop can be followed on its own (`Exec.roster_free`).

`LifecycleExec.launches` carries an assumption of a loop through its launch; the rules of
the loop's own body carry it on from there.
-/

namespace DgProto

open Library Wire Crypto Connection

/-- The loop that waits for the result of `enqueueChannel`. -/
def EnqueueReturn.loop : EnqueueReturn → Option Loop
  | .pong => some .read
  | .ping _ => some .maintenance
  | .caller | .awaitCompletion => none

/-- The loop to which an instruction belongs, up to the loop's return.  The goroutines of
bounded handler calls belong to the handler loop. -/
def Instr.loop : Instr → Option Loop
  | .readFrame | .receive _ | .dispatch _ | .leaseHandler _ | .checkHandler _
  | .offerHandler _ => some .read
  | .writeLoop | .selectWork | .sendFrame _ | .marshalFrame _ _ | .checkLane _ _ _
  | .takeLane _ _ _ | .watchContext _ _ _ | .writeWire _ _ _ | .frameWritten _ _
  | .markRekey _ _ | .finishWrite _ _ => some .write
  | .maintenance _ | .consumePong _ | .beginPing _ | .pongExpired _ => some .maintenance
  | .handlerLoop | .selectHandler | .recheckHandler _ | .callHandler _ | .handlerInline
  | .invokeHandler _ _ | .handlerDetached _ | .awaitHandler _ | .awaitDetached _ => some .handler
  | .enqueue call | .checkContext call | .checkClosing call | .offer call
  | .returnEnqueue call _ => call.after.loop
  | _ => none

/-- The instruction is going to launch loops. -/
def Instr.launches : Instr → Bool
  | .checkStart _ | .launch _ _ => true
  | _ => false

namespace Loop

/-- The instruction is going to launch the loop. -/
def starts (loop : Loop) : Instr → Bool
  | .checkStart _ => true
  | .launch loops _ => decide (loop ∈ loops)
  | _ => false

/-- The instruction is what is left of the loop. -/
def side (loop : Loop) (i : Instr) : Bool :=
  loop.starts i || i.loop == some loop

end Loop

section Rules

variable {P : Primitives} {s : Connection} {i : Instr} {effect : Effect Connection Instr}

/-- The effect leaves instructions of the given loop or of none, and launches nothing. -/
def KeepsTo (loop : Option Loop) (effect : Effect Connection Instr) : Prop :=
  ∀ t ∈ effect.pushed :: effect.spawned, ∀ j ∈ t,
    j.launches = false ∧ (j.loop = none ∨ j.loop = loop)

/-- The instructions that are left can be checked one by one. -/
theorem keepsTo_of_all {loop : Option Loop}
    (h : (effect.pushed :: effect.spawned).all (·.all fun j =>
      !j.launches && (j.loop == none || j.loop == loop)) = true) : KeepsTo loop effect := by
  intro t ht j hj
  have hcheck := List.all_eq_true.mp (List.all_eq_true.mp h t ht) j hj
  simpa using hcheck

theorem QueueExec.keepsTo (h : QueueExec s i effect) : KeepsTo i.loop effect := by
  cases h with
  | lease | contextEnded | contextLive | refused | admitted | accepted | full | waitEnded
  | waitClosed => exact keepsTo_of_all (by simp [Instr.launches, Instr.loop])
  | @returnEnqueue call result =>
      obtain ⟨_, _, ⟨_, _, completion⟩, _, after⟩ := call
      cases after <;> cases result <;> cases completion <;> exact keepsTo_of_all rfl
  | _ => exact keepsTo_of_all rfl

theorem WriteExec.keepsTo (h : WriteExec P s i effect) : KeepsTo i.loop effect := by
  cases h with
  | @finishWrite job err => cases job <;> cases err <;> exact keepsTo_of_all rfl
  | _ => exact keepsTo_of_all rfl

theorem ReceiveExec.keepsTo (h : ReceiveExec P s i effect) : KeepsTo i.loop effect := by
  cases h with
  | inlineReturned _ result | @handlerReturned _ result | @handlerLate _ result =>
      cases result <;> exact keepsTo_of_all rfl
  | _ => exact keepsTo_of_all rfl

theorem KeepaliveExec.keepsTo (h : KeepaliveExec s i effect) : KeepsTo i.loop effect := by
  cases h <;> exact keepsTo_of_all rfl

theorem Loop.starts_eq_false {j : Instr} (h : j.launches = false) (l : Loop) :
    l.starts j = false := by
  cases j <;> first | rfl | cases h

/-- What keeps to another loop, or to none, leaves nothing of this one. -/
theorem KeepsTo.roster_eq_zero {loop : Option Loop} (h : KeepsTo loop effect) {l : Loop}
    (hne : loop ≠ some l) : roster l.side (effect.pushed :: effect.spawned) = 0 := by
  apply Library.roster_eq_zero
  intro t ht j hj
  obtain ⟨hlaunches, hloop⟩ := h t ht j hj
  have hother : j.loop ≠ some l := by
    rcases hloop with hnone | hsame
    · rw [hnone]
      exact Option.some_ne_none l |>.symm
    · rwa [hsame]
  simp [Loop.side, Loop.starts_eq_false hlaunches, hother]

theorem Loop.roster_single {l : Loop} {j : Instr} (h : l.side j = true) :
    roster l.side [[j]] = {j} := by
  simp [h]

theorem Loop.roster_entry (l loop : Loop) (config : ConnectionConfig) :
    roster l.side [[loop.entry config, .exit loop]] =
      if loop = l then {l.entry config} else 0 := by
  cases l <;> cases loop <;> rfl

theorem Loop.side_launch (l : Loop) (loops : List Loop) (ctx : Context) :
    l.side (.launch loops ctx) = decide (l ∈ loops) :=
  Bool.or_false _

theorem Loop.roster_launch (l : Loop) (loops : List Loop) (ctx : Context) :
    roster l.side [[.launch loops ctx]] = if l ∈ loops then {.launch loops ctx} else 0 := by
  by_cases hmem : l ∈ loops <;> simp [Loop.side_launch, hmem]

/-- A lifecycle instruction of no loop leaves nothing of a loop, unless it is the first
`Start`. -/
theorem LifecycleExec.roster_other (h : LifecycleExec s i effect) {l : Loop}
    (hi : l.side i = false) :
    (∃ ctx, s.startOnce = .idle ∧ effect.state.startOnce ≠ .idle ∧
        roster l.side (effect.pushed :: effect.spawned) = {Instr.checkStart ctx}) ∨
      roster l.side (effect.pushed :: effect.spawned) = 0 := by
  cases h with
  | @startFirst ctx hidle => exact .inl ⟨ctx, hidle, by simp, rfl⟩
  | startLive | startCanceled => cases hi
  | @launchLoop loop loops ctx =>
      have hnot : l ≠ loop ∧ l ∉ loops := by simpa [Loop.side_launch] using hi
      have hlaunch := l.roster_launch loops ctx
      have hentry := l.roster_entry loop s.config
      rw [if_neg hnot.2] at hlaunch
      rw [if_neg fun heq => hnot.1 heq.symm] at hentry
      right
      show roster l.side ([[.launch loops ctx]] ++ [[loop.entry s.config, .exit loop]]) = 0
      rw [roster_append, hlaunch, hentry, add_zero]
  | _ => exact .inr rfl

theorem LifecycleExec.loop_eq (h : LifecycleExec s i effect) : i.loop = none := by
  cases h <;> rfl

theorem WriteExec.side_other (h : WriteExec P s i effect) :
    Loop.maintenance.side i = false ∧ Loop.handler.side i = false := by
  cases h <;> exact ⟨rfl, rfl⟩

theorem ReceiveExec.side_other (h : ReceiveExec P s i effect) :
    Loop.maintenance.side i = false ∧ Loop.write.side i = false := by
  cases h <;> exact ⟨rfl, rfl⟩

theorem KeepaliveExec.side_other (h : KeepaliveExec s i effect) :
    Loop.handler.side i = false ∧ Loop.write.side i = false := by
  cases h <;> exact ⟨rfl, rfl⟩

theorem Loop.loop_ne_of_side {l : Loop} (hi : l.side i = false) : i.loop ≠ some l := by
  intro heq
  simp [Loop.side, heq] at hi

/-- No other instruction leaves anything of a loop, unless it is the first `Start`. -/
theorem Exec.roster_other (h : Exec P s i effect) {l : Loop} (hi : l.side i = false) :
    (∃ ctx, s.startOnce = .idle ∧ effect.state.startOnce ≠ .idle ∧
        roster l.side (effect.pushed :: effect.spawned) = {Instr.checkStart ctx}) ∨
      roster l.side (effect.pushed :: effect.spawned) = 0 := by
  have hne := Loop.loop_ne_of_side hi
  cases h with
  | lifecycle h => exact h.roster_other hi
  | queue h | write h | receive h | keepalive h => exact .inr (h.keepsTo.roster_eq_zero hne)

/-- Where no loop has been launched, no step leaves anything of one. -/
theorem Exec.roster_idle (h : Exec P s i effect) {l : Loop} {threads : List (List Instr)}
    {k : Nat} {rest : List Instr} (hk : threads[k]? = some (i :: rest))
    (hnone : roster l.side threads = 0) (hidle : effect.state.startOnce = .idle) :
    l.side i = false ∧
      roster l.side (threads.set k (effect.pushed ++ rest) ++ effect.spawned) = 0 := by
  have hi : l.side i = false := by
    by_contra hside
    rw [Bool.not_eq_false] at hside
    exact notMem_of_roster hnone hside (List.mem_of_getElem? hk) List.mem_cons_self
  refine ⟨hi, ?_⟩
  rw [roster_step_other _ _ hk hi, hnone, zero_add]
  exact (h.roster_other hi).resolve_left fun ⟨_, _, hclaimed, _⟩ => hclaimed hidle

/-- The call of `enqueueChannel` that an instruction belongs to. -/
def Instr.enqueueCall : Instr → Option EnqueueCall
  | .enqueue call | .checkContext call | .checkClosing call | .offer call
  | .returnEnqueue call _ => some call
  | _ => none

/-- A loop that calls `enqueueChannel` stays in its call until it returns. -/
theorem QueueExec.roster_own (h : QueueExec s i effect) {l : Loop} (hi : l.side i = true) :
    ∃ call, i.enqueueCall = some call ∧ call.after.loop = some l ∧
      ((∃ j, roster l.side (effect.pushed :: effect.spawned) = {j} ∧
          j.enqueueCall = some call) ∨
        ∃ result, i = .returnEnqueue call result ∧
          effect.pushed :: effect.spawned = [call.resume result]) := by
  have hcall (call : EnqueueCall) (hloop : (call.after.loop == some l) = true) :
      call.after.loop = some l := beq_iff_eq.mp hloop
  cases h with
  | lease => exact ⟨_, rfl, hcall _ hi, .inl ⟨.checkContext _, Loop.roster_single hi, rfl⟩⟩
  | contextLive => exact ⟨_, rfl, hcall _ hi, .inl ⟨.checkClosing _, Loop.roster_single hi, rfl⟩⟩
  | admitted => exact ⟨_, rfl, hcall _ hi, .inl ⟨.offer _, Loop.roster_single hi, rfl⟩⟩
  | contextEnded | refused | accepted | full | waitEnded | waitClosed =>
      exact ⟨_, rfl, hcall _ hi, .inl ⟨.returnEnqueue _ _, Loop.roster_single hi, rfl⟩⟩
  | returnEnqueue => exact ⟨_, rfl, hcall _ hi, .inr ⟨_, rfl, rfl⟩⟩
  | _ => cases hi

/-- `Start` passes the loop on until it is launched, once. -/
theorem LifecycleExec.launches {l : Loop} {A : Instr → Prop} (h : LifecycleExec s i effect)
    (hi : l.side i = true) (hcheck : ∀ ctx, i = .checkStart ctx → A (.launch s.config.loops ctx))
    (hnodup : ∀ loops ctx, i = .launch loops ctx → loops.Nodup)
    (hlaunch : ∀ loop loops ctx, i = .launch (loop :: loops) ctx →
      A (.launch loops ctx) ∧ A (l.entry s.config)) :
    Sole l.side A (effect.pushed :: effect.spawned) := by
  cases h with
  | startCanceled => exact .none rfl
  | @startLive ctx =>
      have hroster := l.roster_launch s.config.loops ctx
      by_cases hloop : l ∈ s.config.loops
      · rw [if_pos hloop] at hroster
        exact .one hroster (hcheck ctx rfl)
      · rw [if_neg hloop] at hroster
        exact .none hroster
  | @launchLoop loop loops ctx =>
      obtain ⟨hrest, hentry⟩ := hlaunch loop loops ctx rfl
      have hsplit : roster l.side ([Instr.launch loops ctx] ::
          [[loop.entry s.config, .exit loop]]) =
            (if l ∈ loops then {.launch loops ctx} else 0) +
              if loop = l then {l.entry s.config} else 0 := by
        rw [← l.roster_launch loops ctx, ← l.roster_entry loop s.config, ← roster_append]
        rfl
      by_cases hsame : loop = l
      · -- the list has no other entry for the loop
        have hnot : l ∉ loops := by
          rw [← hsame]
          exact (List.nodup_cons.mp (hnodup _ _ rfl)).1
        rw [if_neg hnot, if_pos hsame, zero_add] at hsplit
        exact .one hsplit hentry
      · have hloop : l ∈ loops := by simpa [Loop.side_launch, Ne.symm hsame] using hi
        rw [if_pos hloop, if_neg hsame, add_zero] at hsplit
        exact .one hsplit hrest
  | _ => cases hi

theorem loops_nodup (config : ConnectionConfig) : config.loops.Nodup := by
  unfold ConnectionConfig.loops
  cases config.handler <;> decide

/-- No call of a user begins inside a loop. -/
theorem ApiCall.roster_program (api : ApiCall) (channel : Nat) (l : Loop) :
    roster l.side [api.program channel] = 0 := by
  cases api <;> rfl

/-! ## Instructions that come in pairs -/

/-- Rules push a `clearPing` only together with the next instruction. -/
def Instr.paired : Instr → Bool
  | .clearPing => true
  | _ => false

/-- What stands right behind it: it is that of a shutdown, or the maintenance loop takes a
ping back. -/
def Instr.partner : Instr → Instr → Bool
  | .clearPing, .lockQueues => true
  | .clearPing, .maintenance st => st.outstanding == 0
  | _, _ => false

theorem Exec.paired (h : Exec P s i effect) :
    ∀ t ∈ effect.pushed :: effect.spawned, adjacent Instr.paired Instr.partner t = true := by
  apply List.all_eq_true.mp
  cases h with
  | lifecycle h =>
      cases h with
      | @launchLoop loop => cases loop <;> rfl
      | _ => rfl
  | queue h =>
      cases h with
      | @returnEnqueue call result =>
          obtain ⟨_, _, ⟨_, _, completion⟩, _, after⟩ := call
          cases after <;> cases result <;> cases completion <;> rfl
      | _ => rfl
  | write h =>
      cases h with
      | @finishWrite job err => cases job <;> cases err <;> rfl
      | _ => rfl
  | receive h =>
      cases h with
      | inlineReturned _ result | @handlerReturned _ result | @handlerLate _ result =>
          cases result <;> rfl
      | _ => rfl
  | keepalive h => cases h <;> rfl

theorem paired_of_reaches {session : Session} {config : ConnectionConfig}
    {pool : Pool Connection Instr}
    (h : (connectionMachine P).Reaches (connectionStart session config) pool) :
    ∀ t ∈ pool.threads, adjacent Instr.paired Instr.partner t = true := by
  refine Machine.invariant_of_step
    (I := fun pool => ∀ t ∈ pool.threads, adjacent Instr.paired Instr.partner t = true)
    (fun hbefore hstep => ?_) (List.forall_mem_nil _) h
  cases hstep with
  | thread k hk hexec => exact adjacent_step hbefore hk (Exec.paired hexec)
  | ambient hambient =>
      refine List.forall_mem_append.mpr ⟨hbefore, ?_⟩
      cases hambient with
      | call api => cases api <;> exact List.forall_mem_singleton.mpr rfl
      | cancelCaller => exact List.forall_mem_nil _

end Rules

end DgProto
