import DgProto.Connection.Tokens
import DgProto.Session.AtomicRejection

/-!
# What stays true

Facts about a connection that no instruction makes false again: the context has been
canceled, the queues have been disposed of, every launched loop has exited.  An
instruction needs some of them and gives others, so the order of the instructions in a
program says which facts hold when an instruction is reached, however the goroutines
interleave.

Two of the facts rest on the tokens: after the exclusive lease no goroutine can still
send to a queue, and after the last `go` statement of `Start` no loop is launched.  Those
about the functions under a `sync.Once` rest on what such a function has left when it
ended (`Ends`): whoever comes later finds it without running anything.
-/

namespace DgProto

open Library Wire Crypto Connection

/-- A fact that stays true. -/
inductive Fact where
  | closing
  | canceled
  | operationsCanceled
  | terminal
  | leased
  /-- The three queues of the writer are empty for good. -/
  | drained
  | handlersDrained
  | sessionClosed
  | transportClosed
  | finished
  /-- No more loops are launched. -/
  | settled
  /-- No more loops are launched, and all of them have exited. -/
  | joined
  /-- Someone has come to own `startOnce`. -/
  | begun
  /-- The loops were started, or `done` is closed. -/
  | startEnded
  /-- Someone has come to run the body of `shutdown`. -/
  | claimed
  /-- The frame of this item has been written. -/
  | wrote (item : QueuedMessage)
  deriving DecidableEq

/-- What a fact says. -/
@[simp] def Holds (s : Connection) : Fact → Prop
  | .closing => s.closing = true
  | .canceled => s.cancelCause ≠ none
  | .operationsCanceled => s.operationsCanceled = true
  | .terminal => s.terminal ≠ none
  | .leased => s.leased = true
  | .drained => s.leased = true ∧ s.outbound = [] ∧ s.control = [] ∧ s.closeRequest = []
  | .handlersDrained => s.leased = true ∧ s.handlerQueue = []
  | .sessionClosed => s.session.closed = true
  | .transportClosed => s.transportClosed = true
  | .finished => s.shutdownOnce = .finished
  | .settled => StartOwner.settled s.startOwner = 1
  | .joined => StartOwner.settled s.startOwner = 1 ∧
      ∀ loop, s.launched.count loop ≤ s.exited.count loop
  | .begun => s.startOnce ≠ .idle
  | .startEnded => s.started = true ∨ 0 < s.doneCloses
  | .claimed => s.shutdownOnce ≠ .idle
  | .wrote item => ∃ frame ∈ s.written, (∃ queue, frame.job = .queued queue item) ∧
      frame.emission.isRekey = false

/-- What must hold when `writeMessage` returns nil. -/
def WriteJob.needs : WriteJob → List Fact
  | .close _ => []
  | .queued _ item => [.wrote item]

namespace Instr

/-- What must hold when an instruction is reached. -/
@[simp] def needs : Instr → List Fact
  | .launch _ _ | .endStart => [.startEnded]
  | .awaitLoops => [.settled]
  | .finishJoin => [.joined]
  | .closeDone => [.joined, .finished, .terminal]
  | .loadStarted _ _ => [.terminal, .begun, .startEnded]
  | .leaseClose _ | .checkClose _ | .requestClose _ | .awaitClose _ => [.terminal, .begun]
  | .preferResult _ | .endClose _ => [.terminal, .begun, .canceled]
  | .cancel _ => [.claimed]
  | .cancelOperations => [.canceled]
  | .lockQueues => [.closing, .canceled, .operationsCanceled]
  | .failPending .shutdown | .drain .shutdown _ | .dropHandlers => [.leased]
  | .endShutdown => [.drained, .handlersDrained, .sessionClosed, .transportClosed]
  | .returnShutdown => [.finished]
  | .finishWrite job none => job.needs
  | .complete _ item none => [.wrote item]
  | _ => []

/-- What holds once an instruction and everything it pushed has been executed. -/
@[simp] def gives : Instr → List Fact
  | .storeStarted | .closeDone => [.startEnded]
  | .claimStart _ => [.begun, .startEnded]
  | .closeOnce _ _ | .loadStarted _ _ | .leaseClose _ | .checkClose _ | .requestClose _
  | .awaitClose _ | .preferResult _ | .cancel _ => [.canceled]
  | .recordTerminal _ => [.terminal]
  | .shutdownOnce _ => [.canceled, .finished]
  | .endShutdown => [.finished]
  | .storeClosing => [.closing]
  | .cancelOperations => [.operationsCanceled]
  | .lockQueues => [.leased]
  | .failPending .shutdown | .drain .shutdown _ => [.drained]
  | .dropHandlers => [.handlersDrained]
  | .closeSession => [.sessionClosed]
  | .closeTransport => [.transportClosed]
  | _ => []

/-- The instruction may send to a queue. -/
def offers : Instr → Bool
  | .offer _ | .requestClose _ | .offerHandler _ => true
  | _ => false

end Instr

/-- The thread finds the facts it needs. -/
abbrev Supported (s : Connection) : List Instr → Prop :=
  Backed Instr.needs Instr.gives (Holds s)

/-- What the tokens say about the instruction that is executed. -/
structure Timely (s : Connection) (i : Instr) : Prop where
  unclaimed : s.startOnce = .idle →
    StartOwner.settled s.startOwner = 0 ∧ ∀ loop, s.launched.count loop = 0
  starting : ∀ ctx, i = .checkStart ctx → ∀ loop, s.launched.count loop = 0
  launching : Token.launcher.weight i ≠ 0 → StartOwner.settled s.startOwner = 0
  waited : s.wg = 0 → ∀ loop, s.launched.count loop ≤ s.exited.count loop
  offers : i.offers = true → s.leased = false

/-- What the functions that have ended have left. -/
structure Ends (s : Connection) : Prop where
  started : s.startOnce = .finished → Holds s .startEnded
  closed : s.closeOnce = .finished → Holds s .canceled
  shut : s.shutdownOnce = .finished → Holds s .canceled
  done : 0 < s.doneCloses → Holds s .canceled

/-! ## Facts are kept -/

section Kept

variable {P : Primitives} {s : Connection} {i : Instr} {effect : Effect Connection Instr}

/-- A closed session stays closed. -/
theorem Session.step_closed {session : Session} (call : SessionCall)
    (h : session.closed = true) : (session.step P call).after.closed = true := by
  have hcase := Session.step_cases P session call
  generalize session.step P call = event at hcase ⊢
  cases hcase with
  | received _ _ _ _ _ _ hside => exact (congrArg Session.SendSide.closed hside).trans h
  | closed => rfl
  | rejected | data | rekey | rekeyLost | marked => exact h

theorem Session.receiveMessage_closed {session : Session} (clock : ReceiveClock) (frame : Frame)
    (h : session.closed = true) : (session.receiveMessage P clock frame).1.closed = true := by
  rw [Session.receiveMessage_state]
  exact Session.step_closed (.receivePayload frame clock) h

theorem LifecycleExec.holds (h : LifecycleExec s i effect) (ht : Timely s i) (f : Fact)
    (hf : Holds s f) : Holds effect.state f := by
  cases h with
  | startFirst h =>
      have hsettled := (ht.unclaimed h).1
      cases f with
      | settled | joined => simp [hsettled] at hf
      | begun => simp
      | _ => exact hf
  | startCanceled | claimFirst | launchHelpers =>
      cases f with
      | settled => exact rfl
      | joined => exact ⟨rfl, hf.2⟩
      | begun => first | exact hf | simp
      | _ => exact hf
  | storeStarted =>
      cases f with
      | startEnded => exact .inl rfl
      | _ => exact hf
  | endStart =>
      cases f with
      | begun => simp
      | _ => exact hf
  | closeDone =>
      cases f with
      | startEnded => exact .inr (Nat.succ_pos _)
      | _ => exact hf
  | launchLoop =>
      have hsettled := ht.launching (by simp)
      cases f with
      | joined => simp [hsettled] at hf
      | _ => exact hf
  | exitLoop =>
      cases f with
      | joined =>
          refine ⟨hf.1, fun loop => (hf.2 loop).trans ?_⟩
          exact (List.sublist_append_left _ _).count_le loop
      | _ => exact hf
  | requestAccepted =>
      have hleased := ht.offers rfl
      cases f with
      | drained => simp [hleased] at hf
      | _ => exact hf
  | recordTerminal =>
      cases f with
      | terminal => exact Option.some_ne_none _
      | _ => exact hf
  | shutdownFirst h =>
      cases f with
      | finished => exact absurd (h.symm.trans hf) (by decide)
      | claimed => simp
      | _ => exact hf
  | endShutdown =>
      cases f with
      | finished => exact rfl
      | claimed => simp
      | _ => exact hf
  | storeClosing | cancelOperations | closeTransport =>
      cases f with
      | closing | operationsCanceled | transportClosed => first | exact rfl | exact hf
      | _ => exact hf
  | cancel =>
      cases f with
      | canceled => exact Option.some_ne_none _
      | _ => exact hf
  | lockQueues =>
      cases f with
      | leased => exact rfl
      | drained | handlersDrained => exact ⟨rfl, hf.2⟩
      | _ => exact hf
  | dropHandler =>
      cases f with
      | handlersDrained =>
          refine ⟨hf.1, ?_⟩
          show s.handlerQueue.tail = []
          rw [hf.2]
          rfl
      | _ => exact hf
  | closeSession =>
      cases f with
      | sessionClosed => exact rfl
      | _ => exact hf
  | _ => cases f <;> exact hf

theorem QueueExec.holds (h : QueueExec s i effect) (ht : Timely s i) (f : Fact)
    (hf : Holds s f) : Holds effect.state f := by
  cases h with
  | accepted =>
      have hleased := ht.offers rfl
      cases f with
      | drained => simp [hleased] at hf
      | _ => exact hf
  | drainControl h | drainOutbound h | drainRequest h =>
      cases f with
      | drained => simp [h] at hf
      | _ => exact hf
  | _ => cases f <;> exact hf

theorem WriteExec.holds (h : WriteExec P s i effect) (f : Fact) (hf : Holds s f) :
    Holds effect.state f := by
  cases h with
  | closeFirst h | selectClose h | selectControl h | selectOutbound h =>
      cases f with
      | drained => simp [h] at hf
      | _ => exact hf
  | sendOk | sendFailed | marked | markFailed =>
      cases f with
      | sessionClosed => exact Session.step_closed _ hf
      | _ => exact hf
  | messageWritten | rekeyWritten =>
      cases f with
      | wrote item =>
          obtain ⟨frame, hmem, hwrote⟩ := hf
          exact ⟨frame, List.mem_append_left _ hmem, hwrote⟩
      | _ => exact hf
  | _ => cases f <;> exact hf

theorem ReceiveExec.holds (h : ReceiveExec P s i effect) (ht : Timely s i) (f : Fact)
    (hf : Holds s f) : Holds effect.state f := by
  cases h with
  | rejected clock | accepted clock =>
      cases f with
      | sessionClosed => exact Session.receiveMessage_closed clock _ hf
      | _ => exact hf
  | handlerQueued =>
      have hleased := ht.offers rfl
      cases f with
      | handlersDrained => simp [hleased] at hf
      | _ => exact hf
  | selectMessage h =>
      cases f with
      | handlersDrained => simp [h] at hf
      | _ => exact hf
  | _ => cases f <;> exact hf

theorem KeepaliveExec.holds (h : KeepaliveExec s i effect) (f : Fact) (hf : Holds s f) :
    Holds effect.state f := by
  cases h <;> cases f <;> exact hf

/-- No rule makes a fact false. -/
theorem Exec.holds (h : Exec P s i effect) (ht : Timely s i) (f : Fact) (hf : Holds s f) :
    Holds effect.state f := by
  cases h with
  | lifecycle h | queue h => exact h.holds ht f hf
  | write h => exact h.holds f hf
  | receive h => exact h.holds ht f hf
  | keepalive h => exact h.holds f hf

/-- The goroutines of a connection do not touch the contexts of callers. -/
theorem Exec.callers_eq (h : Exec P s i effect) : effect.state.callers = s.callers := by
  cases h with
  | lifecycle h | queue h | write h | receive h | keepalive h => rw [h.frame]

theorem Ambient.holds {s' : Connection} {new : List (List Instr)} (h : Ambient s s' new)
    (f : Fact) (hf : Holds s f) : Holds s' f := by
  cases h <;> cases f <;> exact hf

end Kept

/-! ## Programs find what they need -/

/-- What the effect leaves to do finds the facts it needs. -/
abbrev Supports (i : Instr) (effect : Effect Connection Instr) : Prop :=
  effect.Backs Instr.needs Instr.gives (Holds effect.state) i

section Programs

variable {P : Primitives} {s : Connection} {i : Instr} {effect : Effect Connection Instr}

theorem LifecycleExec.supports (h : LifecycleExec s i effect) (ht : Timely s i) (hends : Ends s)
    (hneeds : ∀ f ∈ i.needs, Holds s f) : Supports i effect := by
  have hkept : ∀ f ∈ i.needs, Holds effect.state f := fun f hf => h.holds ht f (hneeds f hf)
  cases h with
  | @startCanceled ctx err =>
      -- nothing has been launched before the context is checked
      have hjoined : Holds { s with startOwner := some .preCanceled } .joined :=
        ⟨rfl, fun loop => by simp [ht.starting ctx rfl loop]⟩
      exact .of_known [.joined] rfl (List.forall_mem_singleton.mpr hjoined) (by simp)
  | @launchLoop loop =>
      refine .of_known [.startEnded] ?_ hkept (by simp)
      cases loop <;> rfl
  | launchHelpers =>
      refine .of_known [.settled, .startEnded] rfl (List.forall_mem_cons.mpr ⟨rfl, hkept⟩) ?_
      simp
  | loopsJoined h =>
      have hjoined : Holds s .joined := ⟨hneeds .settled (by simp), ht.waited h⟩
      exact .of_known [.joined] rfl (List.forall_mem_singleton.mpr hjoined) (by simp)
  | finishJoin => exact .of_known [.joined] rfl hneeds (by simp)
  | storeStarted => exact .of_given (List.forall_mem_singleton.mpr (.inl rfl)) rfl rfl
  | closeDone => exact .of_given (List.forall_mem_singleton.mpr (.inr (Nat.succ_pos _))) rfl rfl
  | closeFirst =>
      refine .of_known [] rfl (by simp) (List.forall_mem_singleton.mpr (.inr ?_))
      simp [closeBody]
  | closeAgain h => exact .of_given (List.forall_mem_singleton.mpr (hends.closed h)) rfl rfl
  | @claimFirst cause h =>
      have hjoined : Holds { s with startOnce := .running, startOwner := some .close } .joined :=
        ⟨rfl, fun loop => by simp [(ht.unclaimed h).2 loop]⟩
      refine .of_known [.joined] rfl (List.forall_mem_singleton.mpr hjoined)
        (List.forall_mem_cons.mpr ⟨.inl ?_, List.forall_mem_singleton.mpr (.inr ?_)⟩)
      · simp
      · exact ⟨.closeDone, by simp [stopUnstarted], List.mem_singleton.mpr rfl⟩
  | claimAgain h =>
      refine .of_given (List.forall_mem_cons.mpr ⟨?_, ?_⟩) rfl rfl
      · simp [h]
      · exact List.forall_mem_singleton.mpr (hends.started h)
  | neverStarted h =>
      -- nobody started the loops, so `done` is closed and the shutdown behind it
      have hended : s.started = true ∨ 0 < s.doneCloses :=
        hneeds .startEnded (by simp)
      have hcanceled := hends.done (hended.resolve_left (by simp [h]))
      refine .of_known [.terminal, .begun, .canceled] rfl ?_
        (List.forall_mem_singleton.mpr (.inl hcanceled))
      simpa using ⟨hneeds .terminal (by simp),
        hneeds .begun (by simp), hcanceled⟩
  | wasStarted =>
      refine .of_known [.terminal, .begun, .startEnded] rfl hkept ?_
      simp
  | leaseClose | checkCloseLive | requestAccepted =>
      refine .of_known [.terminal, .begun] rfl hkept ?_
      simp
  | checkCloseCanceled h =>
      have hcanceled : Holds s .canceled := by simp [h]
      refine .of_known [.canceled, .terminal, .begun] rfl
        (List.forall_mem_cons.mpr ⟨hcanceled, hneeds⟩) ?_
      exact List.forall_mem_singleton.mpr (.inl hcanceled)
  | closeCanceled h =>
      refine .of_known [.canceled, .terminal, .begun] rfl
        (List.forall_mem_cons.mpr ⟨h, hneeds⟩) ?_
      exact List.forall_mem_singleton.mpr (.inl h)
  | requestCanceled | requestExpired | closeAnswered | closeExpired | preferAnswered
  | preferCanceled =>
      -- the shutdown cancels the context
      have hbegun : Holds s .begun := hneeds .begun (by simp)
      refine .of_known [.begun] rfl (List.forall_mem_singleton.mpr hbegun)
        (List.forall_mem_singleton.mpr (.inr ?_))
      simp [shutdown]
  | recordTerminal =>
      exact .of_given (List.forall_mem_singleton.mpr (Option.some_ne_none _)) rfl rfl
  | @shutdownFirst cause =>
      have hclaimed : Holds { s with shutdownOnce := .running } .claimed := by simp
      refine .of_known [.claimed] rfl (List.forall_mem_singleton.mpr hclaimed)
        (List.forall_mem_cons.mpr ⟨.inr ?_, List.forall_mem_singleton.mpr (.inr ?_)⟩)
      · exact ⟨.cancel cause, by simp [shutdownBody], List.mem_singleton.mpr rfl⟩
      · exact ⟨.endShutdown, by simp [shutdownBody], List.mem_singleton.mpr rfl⟩
  | shutdownAgain h =>
      refine .of_given (List.forall_mem_cons.mpr ⟨hends.shut h, ?_⟩) rfl rfl
      exact List.forall_mem_singleton.mpr h
  | cancel => exact .of_given (List.forall_mem_singleton.mpr (Option.some_ne_none _)) rfl rfl
  | storeClosing | cancelOperations | lockQueues | closeSession | closeTransport | endShutdown =>
      exact .of_given (List.forall_mem_singleton.mpr rfl) rfl rfl
  | dropMore =>
      refine .of_known [.leased] rfl hneeds (List.forall_mem_singleton.mpr (.inr ?_))
      exact ⟨.dropHandlers, by simp, List.mem_singleton.mpr rfl⟩
  | dropNone h =>
      have hleased : Holds s .leased := hneeds .leased (by simp)
      exact .of_given (List.forall_mem_singleton.mpr ⟨hleased, h⟩) rfl rfl
  | _ => exact .of_free rfl rfl

theorem QueueExec.supports (h : QueueExec s i effect) (hneeds : ∀ f ∈ i.needs, Holds s f) :
    Supports i effect := by
  cases h with
  | @returnEnqueue call result =>
      obtain ⟨_, _, ⟨_, _, completion⟩, _, after⟩ := call
      cases after <;> cases result <;> cases completion <;> exact .of_free rfl rfl
  | @failPending who =>
      cases who with
      | writer => exact .of_free rfl rfl
      | shutdown =>
          refine .of_known [.leased] rfl hneeds (List.forall_mem_singleton.mpr (.inr ?_))
          exact ⟨_, List.mem_cons_self, List.mem_singleton.mpr rfl⟩
  | @drainControl who err | @drainOutbound who err | @drainRequest who err =>
      cases who with
      | writer => exact .of_free rfl rfl
      | shutdown =>
          have hleased : Holds s .leased := hneeds .leased (by simp)
          refine .of_known [.leased] rfl (List.forall_mem_singleton.mpr hleased)
            (List.forall_mem_singleton.mpr (.inr ?_))
          exact ⟨.drain .shutdown err, by simp, List.mem_singleton.mpr rfl⟩
  | @drained who err hcontrol houtbound hrequest =>
      cases who with
      | writer => exact .of_free rfl rfl
      | shutdown =>
          have hleased : Holds s .leased := hneeds .leased (by simp)
          refine .of_given (List.forall_mem_singleton.mpr ?_) rfl rfl
          exact ⟨hleased, houtbound, hcontrol, hrequest⟩
  | @complete who item err => cases err <;> exact .of_free rfl rfl
  | _ => exact .of_free rfl rfl

theorem WriteExec.supports (h : WriteExec P s i effect) (hneeds : ∀ f ∈ i.needs, Holds s f) :
    Supports i effect := by
  cases h with
  | @messageWritten job emission h =>
      cases job with
      | close => exact .of_free rfl rfl
      | queued queue item =>
          have hwrote : Holds { s with written := s.written ++ [⟨.queued queue item, emission⟩] }
              (.wrote item) :=
            ⟨⟨.queued queue item, emission⟩, by simp, ⟨queue, rfl⟩, h⟩
          refine .of_known [.wrote item] ?_ (List.forall_mem_singleton.mpr hwrote)
            (by simp)
          simp [backs, WriteJob.needs]
  | @finishWrite job err =>
      cases job with
      | close => cases err <;> exact .of_free rfl rfl
      | queued queue item =>
          cases err with
          | some => exact .of_free rfl rfl
          | none =>
              refine .of_known [.wrote item] ?_ hneeds (by simp)
              simp [backs, WriteJob.finish]
  | _ => exact .of_free rfl rfl

theorem ReceiveExec.supports (h : ReceiveExec P s i effect) : Supports i effect := by
  cases h with
  | inlineReturned _ result | @handlerReturned _ result | @handlerLate _ result =>
      cases result <;> exact .of_free rfl rfl
  | _ => exact .of_free rfl rfl

theorem KeepaliveExec.supports (h : KeepaliveExec s i effect) : Supports i effect := by
  cases h <;> exact .of_free rfl rfl

theorem Exec.supports (h : Exec P s i effect) (ht : Timely s i) (hends : Ends s)
    (hneeds : ∀ f ∈ i.needs, Holds s f) : Supports i effect := by
  cases h with
  | lifecycle h => exact h.supports ht hends hneeds
  | queue h | write h => exact h.supports hneeds
  | receive h | keepalive h => exact h.supports

end Programs

/-! ## What sets a fact -/

/-- The part of a connection that says what has been done. -/
structure Connection.LifeSide where
  leased : Bool
  startOnce : Once
  closeOnce : Once
  shutdownOnce : Once
  cancelCause : Option Error
  operationsCanceled : Bool
  doneCloses : Nat
  shutdownReturns : Nat
  completions : List (Nat × Option Error)

def Connection.lifeSide (s : Connection) : LifeSide :=
  ⟨s.leased, s.startOnce, s.closeOnce, s.shutdownOnce, s.cancelCause, s.operationsCanceled,
    s.doneCloses, s.shutdownReturns, s.completions⟩

/-- The rules that take the lease, end a function, cancel a context, close `done`, return from
`shutdown`, complete an item or come to send to a queue. -/
structure Marks (s : Connection) (i : Instr) (effect : Effect Connection Instr) : Prop where
  leased : effect.state.leased = true → s.leased = true ∨ i = .lockQueues ∧ s.readers = 0
  started : effect.state.startOnce = .finished → s.startOnce = .finished ∨ i = .endStart
  closed : effect.state.closeOnce = .finished →
    s.closeOnce = .finished ∨ ∃ result, i = .endClose result
  finished : effect.state.shutdownOnce = .finished → s.shutdownOnce = .finished ∨
    i = .endShutdown
  canceled : effect.state.cancelCause ≠ none → s.cancelCause ≠ none ∨ ∃ cause, i = .cancel cause
  operations : effect.state.operationsCanceled = true →
    s.operationsCanceled = true ∨ i = .cancelOperations
  done : s.doneCloses < effect.state.doneCloses → i = .closeDone
  returned : s.shutdownReturns < effect.state.shutdownReturns → i = .returnShutdown
  told : ∀ c ∈ effect.state.completions, c ∈ s.completions ∨
    ∃ who item, i = .complete who item c.2 ∧ item.completion = some c.1
  pushed : ∀ j ∈ effect.pushed, j.offers = true → s.closing = false ∨ s.cancelCause = none
  spawned : ∀ t ∈ effect.spawned, ∀ j ∈ t, j.offers = false

section Marking

variable {P : Primitives} {s : Connection} {i : Instr} {effect : Effect Connection Instr}

/-- Rules that do nothing of the kind, but may come to send to a queue. -/
theorem marks_of_side (hside : effect.state.lifeSide = s.lifeSide)
    (hpushed : ∀ j ∈ effect.pushed, j.offers = true → s.closing = false ∨ s.cancelCause = none)
    (hspawned : effect.spawned.all (·.all (!·.offers)) = true) : Marks s i effect := by
  simp only [Connection.lifeSide, LifeSide.mk.injEq] at hside
  obtain ⟨hleased, hstart, hclose, hshut, hcanceled, hoperations, hdone, hreturned, htold⟩ := hside
  simp only [List.all_eq_true, Bool.not_eq_true'] at hspawned
  refine ⟨fun h => .inl (hleased ▸ h), fun h => .inl (hstart ▸ h), fun h => .inl (hclose ▸ h),
    fun h => .inl (hshut ▸ h), fun h => .inl (hcanceled ▸ h), fun h => .inl (hoperations ▸ h),
    fun h => ?_, fun h => ?_, fun c hc => .inl (htold ▸ hc), hpushed, hspawned⟩
  · omega
  · omega

/-- Most rules do nothing of the kind. -/
theorem marks_of_eq (hside : effect.state.lifeSide = s.lifeSide)
    (hpushed : effect.pushed.all (!·.offers) = true)
    (hspawned : effect.spawned.all (·.all (!·.offers)) = true) : Marks s i effect := by
  refine marks_of_side hside (fun j hj hoffers => ?_) hspawned
  simp only [List.all_eq_true, Bool.not_eq_true'] at hpushed
  exact absurd hoffers (by simp [hpushed j hj])

theorem LifecycleExec.marks (h : LifecycleExec s i effect) : Marks s i effect := by
  cases h with
  | @launchLoop loop => cases loop <;> exact marks_of_eq rfl rfl rfl
  | checkCloseLive h => exact marks_of_side rfl (fun _ _ _ => .inr h) rfl
  | lockQueues hreaders => constructor <;> simp [hreaders]
  | startFirst | claimFirst | endStart | closeFirst | endClose | shutdownFirst | endShutdown
  | cancel | cancelOperations | closeDone | returnShutdown =>
      constructor <;>
        simp [closeBody, stopUnstarted, shutdown, shutdownBody, Instr.offers]
  | _ => exact marks_of_eq rfl rfl rfl

theorem QueueExec.marks (h : QueueExec s i effect) : Marks s i effect := by
  cases h with
  | admitted h => exact marks_of_side rfl (fun _ _ _ => .inl h) rfl
  | @returnEnqueue call result =>
      obtain ⟨_, _, ⟨_, _, completion⟩, _, after⟩ := call
      cases after <;> cases result <;> cases completion <;> exact marks_of_eq rfl rfl rfl
  | @complete who item err =>
      refine ⟨.inl, .inl, .inl, .inl, .inl, .inl, by simp [Connection.complete],
        by simp [Connection.complete], fun c hc => ?_, by simp, by simp⟩
      rcases List.mem_append.mp hc with hold | hnew
      · exact .inl hold
      · obtain ⟨channel, hchannel, rfl⟩ : ∃ channel, item.completion = some channel ∧
            (channel, err) = c := by simpa using hnew
        exact .inr ⟨who, item, rfl, hchannel⟩
  | _ => exact marks_of_eq rfl rfl rfl

theorem WriteExec.marks (h : WriteExec P s i effect) : Marks s i effect := by
  cases h with
  | @finishWrite job err =>
      cases job <;> cases err <;> exact marks_of_eq rfl rfl rfl
  | _ => exact marks_of_eq rfl rfl rfl

theorem ReceiveExec.marks (h : ReceiveExec P s i effect) : Marks s i effect := by
  cases h with
  | handlerLive h => exact marks_of_side rfl (fun _ _ _ => .inr h) rfl
  | inlineReturned _ result | @handlerReturned _ result | @handlerLate _ result =>
      cases result <;> exact marks_of_eq rfl rfl rfl
  | _ => exact marks_of_eq rfl rfl rfl

theorem Exec.marks (h : Exec P s i effect) : Marks s i effect := by
  cases h with
  | lifecycle h | queue h | write h | receive h => exact h.marks
  | keepalive h => cases h <;> exact marks_of_eq rfl rfl rfl

end Marking

end DgProto
