import DgProto.Connection.Holders
import DgProto.Session.RekeyCycle

/-!
# A connection can always be brought to an end

Whatever a connection is doing when `Close` or an abort is called, its goroutines can run to
their end without any further call: nobody waits for ever for a lease, a `sync.Once` or the wait
group, and no call stays behind.  The handlers are the user's: here each of them can return at any
moment, and one that never returns is not covered.

The argument has two parts.  Some goroutine is always free: the waits have an order, and what is
waited for is carried by a goroutine (`Orderly`).  And every instruction can go in a way that
leaves less to do: `work` weighs the instructions and `cost` what is in the queues.  Before the
context is canceled this is true of those instructions only that do not wait for the peer, the
user or a timer (`Instr.level`); they are enough to bring the cancellation about.
-/

namespace DgProto

open Library Wire Crypto Connection

/-! ## What is left to do -/

/-- What the items in the queues can still give to do. -/
def Connection.cost (s : Connection) : Nat :=
  2 * (s.outbound.length + s.control.length) + 19 * s.closeRequest.length + s.handlerQueue.length

/-- What an instruction can still give to do once the context has been canceled. -/
@[simp] def Instr.work : Instr → Nat
  | .startOnce _ => 96
  | .checkStart _ => 95
  | .launch loops _ => 21 + 18 * loops.length
  | .awaitLoops => 18
  | .finishJoin => 17
  | .closeOnce _ _ => 42
  | .claimStart _ => 18
  | .loadStarted _ _ => 21
  | .leaseClose _ => 20
  | .checkClose _ => 19
  | .requestClose _ => 18
  | .awaitClose _ => 18
  | .preferResult _ => 17
  | .shutdownOnce _ => 13
  | .failPending _ => 2
  | .enqueue _ => 24
  | .checkContext _ => 23
  | .checkClosing _ => 22
  | .offer _ => 21
  | .returnEnqueue _ _ => 17
  | .awaitCompletion _ _ => 2
  | .writeLoop => 4
  | .selectWork => 3
  | .writeWire _ _ _ => 26
  | .frameWritten _ _ => 24
  | .markRekey _ _ => 23
  | .sendFrame _ => 22
  | .marshalFrame _ _ | .watchContext _ _ _ => 21
  | .checkLane _ _ _ | .takeLane _ _ _ => 20
  | .finishWrite _ _ => 19
  | .receive _ => 27
  | .dispatch _ => 25
  | .offerHandler _ => 19
  | .readFrame | .pongExpired _ => 16
  | .leaseHandler _ => 3
  | .checkHandler _ => 2
  | .callHandler _ => 6
  | .awaitHandler _ => 3
  | .awaitDetached _ | .handlerInline | .invokeHandler _ _ | .consumePong _ => 2
  | _ => 1

/-- What is left to do. -/
def remaining (pool : Pool Connection Instr) : Nat :=
  pool.state.cost + load Instr.work pool.threads

/-- What the invariant says about the instruction that a goroutine is about to execute. -/
structure Ready (s : Connection) (i : Instr) : Prop where
  free : ∀ r, i.waits = some r → ¬ s.Held r
  needs : ∀ f ∈ i.needs, Holds s f
  leased : Stake.lease.weight i ≤ s.readers
  joining : Stake.join.weight i ≤ s.wg
  handling : Stake.handlers.weight i ≤ s.handlersRunning
  unlocked : i = .lockQueues → s.locked = false

/-- The instruction can go in a way that leaves less to do. -/
def Advances (P : Primitives) (s : Connection) (i : Instr) : Prop :=
  ∃ effect, Exec P s i effect ∧
    effect.state.cost + effect.leaves Instr.work < s.cost + i.work

section Advance

variable {P : Primitives} {s : Connection} {i : Instr} {effect : Effect Connection Instr}

/-- An effect that leaves the queues alone. -/
theorem Advances.of (h : Exec P s i effect) (hcost : effect.state.cost = s.cost)
    (hless : (effect.leaves Instr.work).blt i.work = true) : Advances P s i := by
  refine ⟨effect, h, ?_⟩
  rw [Nat.blt_eq] at hless
  omega

/-- A `sync.Once` whose function does not run has not been used, or it has returned. -/
theorem Once.idle_or_finished {once : Once} (h : once ≠ .running) :
    once = .idle ∨ once = .finished := by
  cases once with
  | idle => exact .inl rfl
  | running => exact absurd rfl h
  | finished => exact .inr rfl

theorem advances_launch (loops : List Loop) (ctx : Context) : Advances P s (.launch loops ctx) := by
  cases loops with
  | nil => exact .of (.lifecycle .launchHelpers) rfl rfl
  | cons loop loops =>
      refine ⟨_, .lifecycle .launchLoop, ?_⟩
      cases loop <;> simp [Connection.cost, Effect.leaves, Loop.entry] <;> omega

/-- Every round of `failPending` empties the queues a bit more. -/
theorem advances_drain (who : Disposer) (err : Error) : Advances P s (.drain who err) := by
  cases hcontrol : s.control with
  | cons item rest =>
      refine ⟨_, .queue (.drainControl hcontrol), ?_⟩
      simp [Connection.cost, Effect.leaves, hcontrol]
      omega
  | nil =>
      cases houtbound : s.outbound with
      | cons item rest =>
          refine ⟨_, .queue (.drainOutbound houtbound), ?_⟩
          simp [Connection.cost, Effect.leaves, houtbound]
          omega
      | nil =>
          cases hrequest : s.closeRequest with
          | cons request rest =>
              refine ⟨_, .queue (.drainRequest hrequest), ?_⟩
              simp [Connection.cost, Effect.leaves, hrequest]
              omega
          | nil => exact .of (.queue (.drained hcontrol houtbound hrequest)) rfl rfl

/-- Once the request has no answer yet, the canceled context decides. -/
theorem advances_preferResult {request : CloseRequest} (hcanceled : s.cancelCause ≠ none) :
    Advances P s (.preferResult request) := by
  by_cases hanswered : ∃ result, (request.result, result) ∈ s.results
  · obtain ⟨result, hmem⟩ := hanswered
    exact .of (.lifecycle (.preferAnswered hmem)) rfl rfl
  · push Not at hanswered
    obtain ⟨cause, hcause⟩ := Option.ne_none_iff_exists'.mp hcanceled
    exact .of (.lifecycle (.preferCanceled hanswered hcause)) rfl rfl

/-- What waits neither for the peer nor for the user can go on, canceled or not. -/
theorem Ready.advances_prompt (h : Ready s i) (hlevel : i.level ≤ 5)
    (hdrop : i = .dropHandlers → s.handlerQueue = []) : Advances P s i := by
  cases i with
  | startOnce ctx =>
      rcases Once.idle_or_finished (h.free .start rfl) with hidle | hfinished
      · exact .of (.lifecycle (.startFirst hidle)) rfl rfl
      · exact .of (.lifecycle (.startAgain hfinished)) rfl rfl
  | checkStart ctx =>
      cases herr : s.err ctx with
      | none =>
          refine .of (.lifecycle (.startLive herr)) rfl ?_
          unfold ConnectionConfig.loops
          cases s.config.handler <;> rfl
      | some err => exact .of (.lifecycle (.startCanceled herr)) rfl rfl
  | storeStarted => exact .of (.lifecycle .storeStarted) rfl rfl
  | launch loops ctx => exact advances_launch loops ctx
  | endStart => exact .of (.lifecycle .endStart) rfl rfl
  | finishJoin => exact .of (.lifecycle .finishJoin) rfl rfl
  | closeDone => exact .of (.lifecycle .closeDone) rfl rfl
  | exit loop =>
      obtain ⟨n, hn⟩ := Nat.exists_eq_add_of_le' (show 1 ≤ s.wg from h.joining)
      exact .of (.lifecycle (.exitLoop hn)) rfl rfl
  -- closeGracefully
  | closeOnce message cause =>
      rcases Once.idle_or_finished (h.free .close rfl) with hidle | hfinished
      · exact .of (.lifecycle (.closeFirst hidle)) rfl rfl
      · exact .of (.lifecycle (.closeAgain hfinished)) rfl rfl
  | claimStart cause =>
      rcases Once.idle_or_finished (h.free .start rfl) with hidle | hfinished
      · exact .of (.lifecycle (.claimFirst hidle)) rfl rfl
      · exact .of (.lifecycle (.claimAgain hfinished)) rfl rfl
  | loadStarted message cause =>
      cases hstarted : s.started with
      | false => exact .of (.lifecycle (.neverStarted hstarted)) rfl rfl
      | true => exact .of (.lifecycle (.wasStarted hstarted)) rfl rfl
  | leaseClose request =>
      have hunlocked : s.locked = false := Bool.eq_false_iff.mpr (h.free .lock rfl)
      exact .of (.lifecycle (.leaseClose hunlocked)) rfl rfl
  | checkClose request =>
      cases hcause : s.cancelCause with
      | none => exact .of (.lifecycle (.checkCloseLive hcause)) rfl rfl
      | some cause => exact .of (.lifecycle (.checkCloseCanceled hcause)) rfl rfl
  | requestClose request => exact .of (.lifecycle .requestExpired) rfl rfl
  | awaitClose request => exact .of (.lifecycle .closeExpired) rfl rfl
  | preferResult request =>
      exact advances_preferResult (h.needs .canceled (by simp))
  | endClose result => exact .of (.lifecycle .endClose) rfl rfl
  -- shutdown
  | recordTerminal cause => exact .of (.lifecycle .recordTerminal) rfl rfl
  | shutdownOnce cause =>
      rcases Once.idle_or_finished (h.free .shutdown rfl) with hidle | hfinished
      · exact .of (.lifecycle (.shutdownFirst hidle)) rfl rfl
      · exact .of (.lifecycle (.shutdownAgain hfinished)) rfl rfl
  | storeClosing => exact .of (.lifecycle .storeClosing) rfl rfl
  | cancel cause => exact .of (.lifecycle .cancel) rfl rfl
  | cancelOperations => exact .of (.lifecycle .cancelOperations) rfl rfl
  | clearPing => exact .of (.lifecycle .clearPing) rfl rfl
  | lockQueues =>
      have hreaders : s.readers = 0 := Nat.eq_zero_of_not_pos (h.free .lease rfl)
      exact .of (.lifecycle (.lockQueues hreaders (h.unlocked rfl))) rfl rfl
  | failPending who => exact .of (.queue .failPending) rfl rfl
  | drain who err => exact advances_drain who err
  | complete who item err => exact .of (.queue .complete) rfl rfl
  | answer who request err => exact .of (.queue .answer) rfl rfl
  | dropHandlers => exact .of (.lifecycle (.dropNone (hdrop rfl))) rfl rfl
  | dropHandler =>
      refine ⟨_, .lifecycle .dropHandler, ?_⟩
      simp only [Connection.cost, Effect.leaves, Instr.work, weigh_nil, load_nil, List.length_tail]
      omega
  | unlockQueues => exact .of (.lifecycle .unlockQueues) rfl rfl
  | closeSession => exact .of (.lifecycle .closeSession) rfl rfl
  | closeTransport => exact .of (.lifecycle .closeTransport) rfl rfl
  | endShutdown => exact .of (.lifecycle .endShutdown) rfl rfl
  | returnShutdown => exact .of (.lifecycle .returnShutdown) rfl rfl
  | releaseLease =>
      obtain ⟨n, hn⟩ := Nat.exists_eq_add_of_le' (show 1 ≤ s.readers from h.leased)
      exact .of (.queue (.releaseLease hn)) rfl rfl
  | _ => simp at hlevel

theorem advances_offer (call : EnqueueCall) (hcanceled : s.cancelCause ≠ none) :
    Advances P s (.offer call) := by
  cases hwait : call.wait with
  | true => exact .of (.queue (.waitClosed hwait hcanceled)) rfl rfl
  | false =>
      by_cases hroom : (s.queue call.queue).length < s.capacity call.queue
      · refine ⟨_, .queue (.accepted hroom), ?_⟩
        cases call.queue <;>
          simp [Connection.cost, Connection.push, Effect.leaves] <;> omega
      · exact .of (.queue (.full hwait (Nat.le_of_not_lt hroom))) rfl rfl

theorem advances_returnEnqueue (call : EnqueueCall) (result : Option Error) :
    Advances P s (.returnEnqueue call result) := by
  refine .of (.queue .returnEnqueue) rfl ?_
  obtain ⟨_, _, ⟨_, _, completion⟩, _, after⟩ := call
  cases after <;> cases result <;> cases completion <;> rfl

/-- Once the item has not been told yet, the canceled context decides. -/
theorem advances_preferCompletion {channel : Nat} (hcanceled : s.cancelCause ≠ none) :
    Advances P s (.preferCompletion channel) := by
  by_cases htold : ∃ result, (channel, result) ∈ s.completions
  · obtain ⟨result, hmem⟩ := htold
    exact .of (.queue (.preferCompleted hmem)) rfl rfl
  · push Not at htold
    obtain ⟨cause, hcause⟩ := Option.ne_none_iff_exists'.mp hcanceled
    exact .of (.queue (.preferCause htold hcause)) rfl rfl

theorem advances_writeLoop : Advances P s .writeLoop := by
  cases hrequest : s.closeRequest with
  | nil => exact .of (.write (.noClose hrequest)) rfl rfl
  | cons request rest =>
      refine ⟨_, .write (.closeFirst hrequest), ?_⟩
      simp [Connection.cost, Effect.leaves, hrequest]
      omega

/-- `Send` and `MarkRekeySent` always return. -/
theorem advances_sendFrame (job : WriteJob) : Advances P s (.sendFrame job) := by
  rcases Session.send_total s.session job.message job.padLength ⟨0, ⟨[], none⟩⟩ with
    ⟨emission, hemission⟩ | ⟨err, herr⟩
  · exact .of (.write (.sendOk _ hemission)) rfl rfl
  · exact .of (.write (.sendFailed _ herr)) rfl rfl

theorem advances_markRekey (job : WriteJob) (emission : Emission) :
    Advances P s (.markRekey job emission) := by
  cases hresult : (s.session.step P (.markRekeySent emission.frame 0)).result with
  | ok reply => exact .of (.write (.marked 0 hresult)) rfl rfl
  | error err => exact .of (.write (.markFailed 0 hresult)) rfl rfl

theorem advances_marshalFrame (job : WriteJob) (emission : Emission) :
    Advances P s (.marshalFrame job emission) := by
  cases hmarshal : emission.frame.marshalBinary with
  | error err => exact .of (.write (.marshalFailed hmarshal)) rfl rfl
  | ok wire =>
      by_cases hmin : headerSize ≤ wire.length
      · by_cases hmax : wire.length ≤ maxFrameSize
        · exact .of (.write (.marshalOk hmarshal hmin hmax)) rfl rfl
        · exact .of (.write (.frameTooLarge hmarshal (Nat.lt_of_not_le hmax))) rfl rfl
      · exact .of (.write (.frameTooShort hmarshal (Nat.lt_of_not_le hmin))) rfl rfl

theorem advances_receive (frame : Frame) : Advances P s (.receive frame) := by
  cases hresult : (s.session.receiveMessage P ⟨0, 0, 0⟩ frame).2 with
  | error err => exact .of (.receive (.rejected _ hresult)) rfl rfl
  | ok message => exact .of (.receive (.accepted _ hresult)) rfl rfl

/-- `readLoop` knows what to do with every message. -/
theorem advances_dispatch (message : Message) : Advances P s (.dispatch message) := by
  have huser : message.kind = .encryptedData ∨ message.kind = .ack ∨ message.kind = .error →
      Advances P s (.dispatch message) := by
    intro hkind
    cases hhandler : s.config.handler with
    | false => exact .of (.receive (.unhandled hhandler hkind)) rfl rfl
    | true => exact .of (.receive (.handled hhandler hkind)) rfl rfl
  cases message with
  | encryptedData m => exact huser (.inl rfl)
  | ack m => exact huser (.inr (.inl rfl))
  | error m => exact huser (.inr (.inr rfl))
  | rekeyInit m => exact .of (.receive .rekeyInit) rfl rfl
  | sessionClose m => exact .of (.receive .sessionClose) rfl rfl
  | pingPong m =>
      obtain ⟨reply, nonce⟩ := m
      cases reply with
      | true => exact .of (.receive .pong) rfl rfl
      | false => exact .of (.receive .ping) rfl rfl

theorem advances_offerHandler (message : Message) : Advances P s (.offerHandler message) := by
  by_cases hroom : s.handlerQueue.length < s.config.handlerQueue.toNat
  · refine ⟨_, .receive (.handlerQueued hroom), ?_⟩
    simp [Connection.cost, Effect.leaves]
    omega
  · exact .of (.receive (.handlerQueueFull (Nat.le_of_not_lt hroom))) rfl rfl

theorem advances_consumePong (st : Keepalive) : Advances P s (.consumePong st) := by
  by_cases houtstanding : st.outstanding = 0
  · exact .of (.keepalive (.pongStale houtstanding)) rfl rfl
  · cases hack : s.pingAcknowledged with
    | true => exact .of (.keepalive (.pongConsumed houtstanding hack)) rfl rfl
    | false => exact .of (.keepalive (.pongMissing houtstanding hack)) rfl rfl

/-- Once the context is canceled everything can go on: selects see it, a read or a write fails,
timers fire and handlers return. -/
theorem Ready.advances_canceled (h : Ready s i) (hcanceled : s.cancelCause ≠ none)
    (hlevel : 5 < i.level) : Advances P s i := by
  cases i with
  | watch ctx => exact .of (.lifecycle (.watchEnded hcanceled)) rfl rfl
  | awaitLoops =>
      have hwg : s.wg = 0 := Nat.eq_zero_of_not_pos (h.free .join rfl)
      exact .of (.lifecycle (.loopsJoined hwg)) rfl rfl
  -- enqueueChannel
  | enqueue call =>
      have hunlocked : s.locked = false := Bool.eq_false_iff.mpr (h.free .lock rfl)
      exact .of (.queue (.lease hunlocked)) rfl rfl
  | checkContext call =>
      cases herr : s.err call.ctx with
      | none => exact .of (.queue (.contextLive herr)) rfl rfl
      | some err => exact .of (.queue (.contextEnded herr)) rfl rfl
  | checkClosing call =>
      cases hclosing : s.closing with
      | false => exact .of (.queue (.admitted hclosing)) rfl rfl
      | true => exact .of (.queue (.refused hclosing)) rfl rfl
  | offer call => exact advances_offer call hcanceled
  | returnEnqueue call result => exact advances_returnEnqueue call result
  | awaitCompletion ctx channel => exact .of (.queue (.completionCanceled hcanceled)) rfl rfl
  | preferCompletion channel => exact advances_preferCompletion hcanceled
  -- writeLoop
  | writeLoop => exact advances_writeLoop
  | selectWork => exact .of (.write (.selectDone hcanceled)) rfl rfl
  | sendFrame job => exact advances_sendFrame job
  | marshalFrame job emission => exact advances_marshalFrame job emission
  | checkLane job emission wire => exact .of (.write (.laneEnded (.canceled hcanceled))) rfl rfl
  | takeLane job emission wire => exact .of (.write (.laneCanceled (.canceled hcanceled))) rfl rfl
  | watchContext job emission wire => exact .of (.write (.watchEnded (.canceled hcanceled))) rfl rfl
  | writeWire job emission wire =>
      cases wire with
      | nil => exact .of (.write .wireDone) rfl rfl
      | cons octet wire => exact .of (.write (.wireStalled (List.cons_ne_nil _ _))) rfl rfl
  | releaseLane => exact .of (.write .releaseLane) rfl rfl
  | frameWritten job emission =>
      cases hrekey : emission.isRekey with
      | false => exact .of (.write (.messageWritten hrekey)) rfl rfl
      | true => exact .of (.write (.rekeyWritten hrekey)) rfl rfl
  | markRekey job emission => exact advances_markRekey job emission
  | finishWrite job err =>
      refine .of (.write .finishWrite) rfl ?_
      cases job <;> cases err <;> rfl
  -- readLoop
  | readFrame => exact .of (.receive (.readFailed Sentinel.connectionClosed.bare)) rfl rfl
  | receive frame => exact advances_receive frame
  | noteActivity => exact .of (.receive .noteActivity) rfl rfl
  | dispatch message => exact advances_dispatch message
  | acknowledgePing nonce => exact .of (.receive (.pongIgnored (.inr (.inr hcanceled)))) rfl rfl
  | leaseHandler message =>
      have hunlocked : s.locked = false := Bool.eq_false_iff.mpr (h.free .lock rfl)
      exact .of (.receive (.leaseHandler hunlocked)) rfl rfl
  | checkHandler message => exact .of (.receive (.handlerCanceled hcanceled)) rfl rfl
  | offerHandler message => exact advances_offerHandler message
  -- handlerLoop
  | handlerLoop => exact .of (.receive (.loopCanceled hcanceled)) rfl rfl
  | selectHandler => exact .of (.receive (.selectCanceled hcanceled)) rfl rfl
  | recheckHandler message => exact .of (.receive (.recheckCanceled hcanceled)) rfl rfl
  | callHandler message =>
      by_cases hbounded : 0 < s.config.handlerShutdownTimeout
      · exact .of (.receive (.callBounded hbounded)) rfl rfl
      · exact .of (.receive (.callInline (Int.not_lt.mp hbounded))) rfl rfl
  | handlerInline =>
      obtain ⟨n, hn⟩ := Nat.exists_eq_add_of_le' (show 1 ≤ s.handlersRunning from h.handling)
      exact .of (.receive (.inlineReturned hn none)) rfl rfl
  | invokeHandler message channel => exact .of (.receive .invokeHandler) rfl rfl
  | handlerDetached channel =>
      obtain ⟨n, hn⟩ := Nat.exists_eq_add_of_le' (show 1 ≤ s.handlersRunning from h.handling)
      exact .of (.receive (.detachedReturned hn none)) rfl rfl
  | awaitHandler channel => exact .of (.receive (.handlerOverdue hcanceled)) rfl rfl
  | awaitDetached channel => exact .of (.receive .handlerAbandoned) rfl rfl
  -- maintenanceLoop
  | maintenance st => exact .of (.keepalive (.ended hcanceled)) rfl rfl
  | consumePong st => exact advances_consumePong st
  | beginPing st => exact .of (.keepalive (.pingCanceled hcanceled)) rfl rfl
  | pongExpired st =>
      cases hack : s.pingAcknowledged with
      | true => exact .of (.keepalive (.deadlineAnswered hack)) rfl rfl
      | false => exact .of (.keepalive (.deadlineMissed hack)) rfl rfl
  | _ => simp at hlevel

end Advance

/-! ## Some goroutine can always go on -/

section Progress

variable {P : Primitives} {s : Connection} {threads : List (List Instr)} {i : Instr}
  {rest : List Instr}

theorem Orderly.ready (h : Orderly ⟨s, threads⟩) (hmem : i :: rest ∈ threads)
    (hfree : ∀ r, i.waits = some r → ¬ s.Held r) : Ready s i := by
  have hheld : ∀ k : Stake, k.weight i ≤ load k.weight threads :=
    fun k => weight_le_load hmem List.mem_cons_self
  have htotal : ∀ k : Stake, k.balance s + load k.weight threads = k.limit := h.stakes
  constructor
  case free => exact hfree
  case needs => exact (h.supported _ hmem).1
  case leased =>
    have hlease : (-s.readers + load Stake.lease.weight threads : Int) = 0 := htotal .lease
    have hweight := hheld .lease
    omega
  case joining =>
    have hjoin : (-s.wg + load Stake.join.weight threads : Int) = 0 := htotal .join
    have hweight := hheld .join
    omega
  case handling =>
    have hhandlers : (-s.handlersRunning + load Stake.handlers.weight threads : Int) = 0 :=
      htotal .handlers
    have hweight := hheld .handlers
    omega
  case unlocked =>
    rintro rfl
    exact h.unlocked hmem List.mem_cons_self

theorem Advances.progress (h : Advances P s i) (hmem : i :: rest ∈ threads) :
    ∃ next, (connectionMachine P).alone.Reaches ⟨s, threads⟩ next ∧
      remaining next < remaining ⟨s, threads⟩ := by
  obtain ⟨effect, hexec, hless⟩ := h
  obtain ⟨k, hk⟩ := List.mem_iff_getElem?.mp hmem
  have hload : load Instr.work (threads.set k (effect.pushed ++ rest) ++ effect.spawned) +
      i.work = load Instr.work threads + effect.leaves Instr.work := load_step hk
  refine ⟨_, .single (.thread k hk hexec), ?_⟩
  show effect.state.cost +
    load Instr.work (threads.set k (effect.pushed ++ rest) ++ effect.spawned) <
      s.cost + load Instr.work threads
  omega

/-- The loop of `shutdown` over the handler queue takes two instructions for a message. -/
theorem progress_dropHandlers (hmem : Instr.dropHandlers :: rest ∈ threads)
    (hqueue : s.handlerQueue ≠ []) :
    ∃ next, (connectionMachine P).alone.Reaches ⟨s, threads⟩ next ∧
      remaining next < remaining ⟨s, threads⟩ := by
  obtain ⟨k, hk⟩ := List.mem_iff_getElem?.mp hmem
  obtain ⟨hlt, -⟩ := List.getElem?_eq_some_iff.mp hk
  have hexec : Exec P s .dropHandlers ⟨s, [.dropHandler, .dropHandlers], []⟩ :=
    .lifecycle (.dropMore hqueue)
  have hmore := Machine.Step.thread (M := (connectionMachine P).alone) k hk hexec
  simp only [List.cons_append, List.nil_append, List.append_nil] at hmore
  have hnext : (threads.set k (.dropHandler :: .dropHandlers :: rest))[k]? =
      some (.dropHandler :: .dropHandlers :: rest) := by
    rw [List.getElem?_set_self hlt]
  have hexec' : Exec P s .dropHandler
      ⟨{ s with handlerQueue := s.handlerQueue.tail }, [], []⟩ := .lifecycle .dropHandler
  have hdrop := Machine.Step.thread (M := (connectionMachine P).alone) k hnext hexec'
  refine ⟨_, (Relation.ReflTransGen.single hmore).tail hdrop, ?_⟩
  have hload : load Instr.work (threads.set k (.dropHandlers :: rest)) +
      weigh Instr.work (.dropHandlers :: rest) = load Instr.work threads +
        weigh Instr.work (.dropHandlers :: rest) := load_set hk
  have htail : s.handlerQueue.tail.length + 1 = s.handlerQueue.length := by
    rw [List.length_tail]
    have hpos := List.length_pos_iff.mpr hqueue
    omega
  simp only [remaining, Connection.cost, List.set_set, List.append_nil, List.nil_append]
  omega

/-- Where nothing stands in the way of an instruction, there is less to do afterwards. -/
theorem Orderly.progress (h : Orderly ⟨s, threads⟩) (hmem : i :: rest ∈ threads)
    (hfree : ∀ r, i.waits = some r → ¬ s.Held r) (hgo : s.cancelCause ≠ none ∨ i.level ≤ 5) :
    ∃ next, (connectionMachine P).alone.Reaches ⟨s, threads⟩ next ∧
      remaining next < remaining ⟨s, threads⟩ := by
  have hready := h.ready hmem hfree
  by_cases hlevel : i.level ≤ 5
  · by_cases hdrop : i = .dropHandlers ∧ s.handlerQueue ≠ []
    · obtain ⟨rfl, hqueue⟩ := hdrop
      exact progress_dropHandlers hmem hqueue
    · refine (hready.advances_prompt hlevel fun hi => ?_).progress hmem
      exact not_not.mp fun hqueue => hdrop ⟨hi, hqueue⟩
  · exact (hready.advances_canceled (hgo.resolve_right hlevel) (by omega)).progress hmem

/-- After the cancellation some goroutine can go on until all have ended. -/
theorem Orderly.progress_canceled (h : Orderly ⟨s, threads⟩) (hcanceled : s.cancelCause ≠ none)
    (hleft : ∃ t ∈ threads, t ≠ []) :
    ∃ next, (connectionMachine P).alone.Reaches ⟨s, threads⟩ next ∧
      remaining next < remaining ⟨s, threads⟩ := by
  obtain ⟨i, rest, hmem, hfree⟩ := LockOrder.exists_free h.nested h.carried hleft
  exact h.progress hmem hfree (.inl hcanceled)

/-- An instruction that carries the stop, or a function under a `sync.Once`, waits neither for
the peer nor for the user. -/
theorem Instr.level_of_carries {r : Hold} (hr : 3 ≤ r.rank) (hjoin : r ≠ .join)
    (h : r ∈ i.carries) : i.level ≤ 5 := by
  cases i <;> simp only [Instr.carries, List.mem_cons, List.not_mem_nil, or_false] at h <;>
    simp only [Instr.level, Nat.reduceLeDiff, Nat.le_refl]
  all_goals
    subst h
    first
      | exact absurd rfl hjoin
      | exact absurd hr (by decide)

/-- A goroutine that carries it is not held up by the peer or the user. -/
theorem Orderly.level_le (h : Orderly ⟨s, threads⟩) (hmem : i :: rest ∈ threads) {r : Hold}
    (hr : 3 ≤ r.rank) (hjoin : r ≠ .join) {j : Instr} (hj : j ∈ i :: rest)
    (hcarries : r ∈ j.carries) : i.level ≤ 5 := by
  rcases List.mem_cons.mp hj with rfl | hrest
  · exact Instr.level_of_carries hr hjoin hcarries
  · have hlt : i.level < r.rank := (LockOrder.nested_cons.mp (h.nested _ hmem)).1 j hrest r hcarries
    have hrank : r.rank ≤ 6 := by
      cases r with
      | join => exact absurd rfl hjoin
      | _ => decide
    omega

/-- Before the cancellation, if it is still to come, whoever brings it about or stands in the way
can go on. -/
theorem Orderly.progress_live (h : Orderly ⟨s, threads⟩) (hlive : s.cancelCause = none)
    {t : List Instr} (ht : t ∈ threads) {j : Instr} (hj : j ∈ t) (hstop : Hold.stop ∈ j.carries) :
    ∃ next, (connectionMachine P).alone.Reaches ⟨s, threads⟩ next ∧
      remaining next < remaining ⟨s, threads⟩ := by
  obtain ⟨i, rest, hmem, hfree, r, hr, j', hj', hcarries⟩ :=
    LockOrder.exists_free_of_carries (O := connectionOrder)
      (fun r => s.Held r ∧ 3 ≤ r.rank ∧ r ≠ .join) h.nested
      (fun r hheld => h.carried r hheld.1) ht hj hstop
  have hlevel : i.level ≤ 5 := by
    rcases hr with rfl | ⟨-, hrank, hjoin⟩
    · exact h.level_le hmem (by decide) (by decide) hj' hcarries
    · exact h.level_le hmem hrank hjoin hj' hcarries
  refine h.progress hmem (fun r hwaits hheld => ?_) (.inr hlevel)
  cases r with
  | shutdown | start | close => exact hfree _ hwaits ⟨hheld, by decide, by decide⟩
  | stop => exact hheld
  | lock =>
      -- the exclusive lease is taken after the cancellation
      have hcanceled := h.leased (h.exclusive hheld) .canceled (by simp)
      exact hcanceled hlive
  | lease =>
      have hlock : i = .lockQueues := by
        cases i <;> first | rfl | cases hwaits
      subst hlock
      have hcanceled := (h.supported _ hmem).1 .canceled (by simp)
      exact hcanceled hlive
  | join =>
      have hwait : i = .awaitLoops := by
        cases i <;> first | rfl | cases hwaits
      subst hwait
      exact absurd hlevel (by decide)

end Progress

/-! ## To the end -/

/-- Someone is still to cancel the context. -/
def Pledged (pool : Pool Connection Instr) : Prop :=
  ∃ t ∈ pool.threads, ∃ i ∈ t, Hold.stop ∈ i.carries

/-- Someone has come to own `closeOnce`, or is still to ask for it. -/
def Pursued (pool : Pool Connection Instr) : Prop :=
  pool.state.closeOnce ≠ .idle ∨
    ∃ t ∈ pool.threads, ∃ message cause, Instr.closeOnce message cause ∈ t

/-- A connection that is being stopped; by a call of `Close`, if `closes` says so. -/
structure Stopping (closes : Prop) (pool : Pool Connection Instr) : Prop where
  orderly : Orderly pool
  stops : pool.state.cancelCause ≠ none ∨ Pledged pool
  pursued : closes → Pursued pool

section Run

variable {P : Primitives} {s : Connection} {i : Instr} {effect : Effect Connection Instr}
  {closes : Prop}

/-- To carry the stop is to bring the cancellation about. -/
theorem Instr.stop_iff_gives : Hold.stop ∈ i.carries ↔ Fact.canceled ∈ i.gives := by
  cases i with
  | failPending who | drain who => cases who <;> simp
  | _ => simp

/-- `closeOnce` never becomes idle again, and whoever asks for it leaves it used. -/
theorem Exec.closeOnce_ne_idle (h : Exec P s i effect)
    (hold : s.closeOnce ≠ .idle ∨ ∃ message cause, i = .closeOnce message cause) :
    effect.state.closeOnce ≠ .idle := by
  cases h with
  | lifecycle h =>
      cases h with
      | closeFirst | endClose => simp
      | closeAgain h => simp [h]
      | _ => exact hold.resolve_right (by simp)
  | queue h | write h | receive h | keepalive h =>
      rw [h.frame]
      exact hold.resolve_right (by rintro ⟨_, _, rfl⟩; cases h)

/-- A cancellation that has come stays, and one that is to come stays so until it comes. -/
theorem Orderly.stops_step {before after : Pool Connection Instr} (h : Orderly before)
    (hstep : (connectionMachine P).Step before after)
    (hstops : before.state.cancelCause ≠ none ∨ Pledged before) :
    after.state.cancelCause ≠ none ∨ Pledged after := by
  cases hstep with
  | @thread s threads k i rest effect hk hexec =>
      have hexec : Exec P s i effect := hexec
      have htimely := h.timely hk
      have hsupports := hexec.supports htimely h.ends (h.supported _ (List.mem_of_getElem? hk)).1
      rcases hstops with hcanceled | ⟨t, ht, j, hj, hstop⟩
      · exact .inl (hexec.holds htimely .canceled hcanceled)
      by_cases hi : Hold.stop ∈ i.carries
      · rcases hsupports.gives _ (Instr.stop_iff_gives.mp hi) with hcanceled | ⟨j, hj, hgives⟩
        · exact .inl hcanceled
        · exact .inr ⟨_, mem_set_append_self hk, j, List.mem_append_left _ hj,
            Instr.stop_iff_gives.mpr hgives⟩
      · have hne : j ≠ i := by
          rintro rfl
          exact hi hstop
        obtain ⟨t', ht', hj'⟩ := exists_mem_step hk ht hj hne
        exact .inr ⟨t', ht', j, hj', hstop⟩
  | @ambient s s' threads new hambient =>
      refine hstops.imp (fun hcanceled => ?_) ?_
      · cases hambient <;> exact hcanceled
      · rintro ⟨t, ht, hpledge⟩
        exact ⟨t, List.mem_append_left _ ht, hpledge⟩

theorem Pursued.step {before after : Pool Connection Instr} (h : Pursued before)
    (hstep : (connectionMachine P).Step before after) : Pursued after := by
  cases hstep with
  | @thread s threads k i rest effect hk hexec =>
      have hexec : Exec P s i effect := hexec
      rcases h with hused | ⟨t, ht, message, cause, hj⟩
      · exact .inl (hexec.closeOnce_ne_idle (.inl hused))
      by_cases hi : i = .closeOnce message cause
      · exact .inl (hexec.closeOnce_ne_idle (.inr ⟨message, cause, hi⟩))
      · obtain ⟨t', ht', hj'⟩ := exists_mem_step hk ht hj (Ne.symm hi)
        exact .inr ⟨t', ht', message, cause, hj'⟩
  | @ambient s s' threads new hambient =>
      refine Or.imp (fun hused => ?_) ?_ h
      · cases hambient <;> exact hused
      · rintro ⟨t, ht, hclose⟩
        exact ⟨t, List.mem_append_left _ ht, hclose⟩

/-- Whoever is closing a connection is going to cancel its context, unless it is canceled. -/
theorem Orderly.stops_of_pursued {pool : Pool Connection Instr} (h : Orderly pool)
    (hpursued : Pursued pool) : pool.state.cancelCause ≠ none ∨ Pledged pool := by
  rcases hpursued with hused | ⟨t, ht, message, cause, hi⟩
  · cases hphase : pool.state.closeOnce with
    | idle => exact absurd hphase hused
    | finished => exact .inl (h.ends.closed hphase)
    | running =>
        obtain ⟨t, ht, i, hi, hcarries⟩ := h.carried .close hphase
        by_cases hstop : Hold.stop ∈ i.carries
        · exact .inr ⟨t, ht, i, hi, hstop⟩
        · -- only the end of the function is left, which needs the cancellation
          have hneeds : Fact.canceled ∈ i.needs := by
            cases i <;> simp at hcarries hstop ⊢
          rcases (h.supported t ht).known_or_given hi hneeds with hcanceled | ⟨j, hj, hgives⟩
          · exact .inl hcanceled
          · exact .inr ⟨t, ht, j, hj, Instr.stop_iff_gives.mpr hgives⟩
  · exact .inr ⟨t, ht, _, hi, List.mem_cons_self⟩

theorem Stopping.step {before after : Pool Connection Instr} (h : Stopping closes before)
    (hstep : (connectionMachine P).Step before after) : Stopping closes after :=
  ⟨h.orderly.step hstep, h.orderly.stops_step hstep h.stops,
    fun hcloses => (h.pursued hcloses).step hstep⟩

theorem Stopping.progress {pool : Pool Connection Instr} (h : Stopping closes pool) :
    (∀ t ∈ pool.threads, t = []) ∨ ∃ next, (connectionMachine P).alone.Reaches pool next ∧
      Stopping closes next ∧ remaining next < remaining pool := by
  have hkeep : (∃ next, (connectionMachine P).alone.Reaches pool next ∧
      remaining next < remaining pool) → ∃ next, (connectionMachine P).alone.Reaches pool next ∧
        Stopping closes next ∧ remaining next < remaining pool := by
    rintro ⟨next, hreach, hless⟩
    have hnext := Machine.invariant_of_step Stopping.step h (Machine.reaches_of_alone hreach)
    exact ⟨next, hreach, hnext, hless⟩
  by_cases hleft : ∃ t ∈ pool.threads, t ≠ []
  · refine .inr (hkeep ?_)
    by_cases hcanceled : pool.state.cancelCause = none
    · obtain ⟨t, ht, j, hj, hstop⟩ := h.stops.resolve_left (not_not.mpr hcanceled)
      exact h.orderly.progress_live hcanceled ht hj hstop
    · exact h.orderly.progress_canceled hcanceled hleft
  · push Not at hleft
    exact .inl hleft

/-- The goroutines of a connection that is being stopped can all come to their end. -/
theorem Stopping.ends {pool : Pool Connection Instr} (h : Stopping closes pool) :
    (connectionMachine P).alone.Leads
      (fun last => Stopping closes last ∧ ∀ t ∈ last.threads, t = []) pool :=
  Machine.leads_of_progress remaining (fun _ hpool => hpool.progress) h

end Run

/-- Everything that a connection held has been given back. -/
structure Connection.TornDown (s : Connection) : Prop where
  shut : s.shutdownOnce = .finished
  queues : s.outbound = [] ∧ s.control = [] ∧ s.closeRequest = [] ∧ s.handlerQueue = []
  session : s.session.closed = true
  transport : s.transportClosed = true
  /-- It was closed once. -/
  transportOnce : s.transportCloses = 1
  /-- Nobody holds a lease. -/
  leases : s.readers = 0 ∧ s.locked = false
  /-- No loop and no handler runs. -/
  idle : s.wg = 0 ∧ s.handlersRunning = 0
  exited : s.exited.Perm s.launched
  /-- `done` has been closed, if anybody ever called `Start` or `Close`. -/
  done : s.startOnce ≠ .idle → s.doneCloses = 1

section End

variable {closes : Prop} {pool : Pool Connection Instr}

/-- Where no goroutine is left, the state says it all. -/
theorem Stopping.balance_eq (h : Stopping closes pool) (hdone : ∀ t ∈ pool.threads, t = [])
    (k : Stake) : k.balance pool.state = k.limit := by
  have htotal : k.balance pool.state + load k.weight pool.threads = k.limit := h.orderly.stakes k
  have hload : load k.weight pool.threads = 0 := by
    refine load_eq_zero fun t ht i hi => ?_
    rw [hdone t ht] at hi
    cases hi
  omega

theorem Stopping.canceled (h : Stopping closes pool) (hdone : ∀ t ∈ pool.threads, t = []) :
    pool.state.cancelCause ≠ none := by
  rcases h.stops with hcanceled | ⟨t, ht, i, hi, -⟩
  · exact hcanceled
  · rw [hdone t ht] at hi
    cases hi

theorem Stopping.tornDown (h : Stopping closes pool) (hdone : ∀ t ∈ pool.threads, t = []) :
    pool.state.TornDown := by
  have hbalance := h.balance_eq hdone
  have hshut : pool.state.shutdownOnce = .finished := by
    have hclaimed := h.orderly.claimed (h.canceled hdone)
    have hsum := hbalance .shutdown
    simp only [Stake.balance, Stake.limit] at hsum
    cases hphase : pool.state.shutdownOnce with
    | idle => exact absurd hphase hclaimed
    | running =>
        rw [hphase] at hsum
        exact absurd hsum (by decide)
    | finished => rfl
  have hfacts := h.orderly.finished hshut
  have hdrained : Holds pool.state .drained := hfacts _ (by simp)
  have hhandlers : Holds pool.state .handlersDrained := hfacts _ (by simp)
  have hlease := hbalance .lease
  have hjoin := hbalance .join
  have hrunning := hbalance .handlers
  have htransport := hbalance .transport
  simp only [Stake.balance, Stake.limit] at hlease hjoin hrunning htransport
  have honce : pool.state.transportCloses = 1 := by
    rw [hshut] at htransport
    simp only [Once.unclaimed] at htransport
    omega
  refine ⟨hshut, ⟨hdrained.2.1, hdrained.2.2.1, hdrained.2.2.2, hhandlers.2⟩,
    hfacts .sessionClosed (by simp), hfacts .transportClosed (by simp),
    honce, ⟨by omega, ?_⟩, ⟨by omega, by omega⟩, ?_, fun hused => ?_⟩
  · by_contra hlocked
    obtain ⟨t, ht, hunlock⟩ := h.orderly.locked (Bool.eq_true_of_not_eq_false hlocked)
    rw [hdone t ht] at hunlock
    cases hunlock
  · -- an exit that a loop still had to make would be in some thread
    rw [List.perm_iff_count]
    intro loop
    have haccount := h.orderly.accounts (.loop loop)
    have hload : load (Account.loop loop).weight pool.threads = 0 := by
      refine load_eq_zero fun t ht i hi => ?_
      rw [hdone t ht] at hi
      cases hi
    simp only [Pool.total, Account.balance, hload] at haccount
    omega
  · have hsum := hbalance .done
    simp only [Stake.balance, Stake.limit, Token.balance] at hsum
    cases hphase : pool.state.startOnce with
    | idle => exact absurd hphase hused
    | running | finished =>
        rw [hphase] at hsum
        simp only [Once.unclaimed] at hsum
        omega

/-- Whoever closes a connection has come to own `startOnce`, or found it owned. -/
theorem Stopping.begun (h : Stopping closes pool) (hdone : ∀ t ∈ pool.threads, t = [])
    (hcloses : closes) : pool.state.startOnce ≠ .idle := by
  have hused : pool.state.closeOnce ≠ .idle := by
    rcases h.pursued hcloses with hused | ⟨t, ht, message, cause, hi⟩
    · exact hused
    · rw [hdone t ht] at hi
      cases hi
  have hsum := h.balance_eq hdone .close
  simp only [Stake.balance, Stake.limit] at hsum
  cases hphase : pool.state.closeOnce with
  | idle => exact absurd hphase hused
  | running =>
      rw [hphase] at hsum
      exact absurd hsum (by decide)
  | finished => exact h.orderly.closed hphase .begun (by simp)

end End

/-- The calls that stop a connection. -/
def ApiCall.stops : ApiCall → Bool
  | .close | .abort _ => true
  | _ => false

theorem callers_eq_of_alone {P : Primitives} {before after : Pool Connection Instr}
    (hstep : (connectionMachine P).alone.Step before after) :
    after.state.callers = before.state.callers := by
  cases hstep with
  | thread k hk hexec => exact Exec.callers_eq hexec
  | ambient hfalse => exact hfalse.elim

/-- A call of `Close` or an abort stops the connection. -/
theorem Stopping.of_call {P : Primitives} {session : Session} {config : ConnectionConfig}
    {pool : Pool Connection Instr}
    (h : (connectionMachine P).Reaches (connectionStart session config) pool) {api : ApiCall}
    (hstops : api.stops = true) :
    Stopping (api = .close) ⟨{ pool.state with nextChannel := pool.state.nextChannel + 1 },
      pool.threads ++ [api.program pool.state.nextChannel]⟩ := by
  have hcall : (connectionMachine P).Step pool
      ⟨{ pool.state with nextChannel := pool.state.nextChannel + 1 },
        pool.threads ++ [api.program pool.state.nextChannel]⟩ := .ambient (.call api)
  have hmem : api.program pool.state.nextChannel ∈
      pool.threads ++ [api.program pool.state.nextChannel] := by simp
  refine ⟨(orderly_of_reaches h).step hcall, .inr ?_, ?_⟩
  · refine ⟨_, hmem, ?_⟩
    cases api with
    | close => exact ⟨_, List.mem_cons_self, List.mem_cons_self⟩
    | abort cause =>
        exact ⟨.shutdownOnce cause, by simp [ApiCall.program, shutdown], List.mem_cons_self⟩
    | _ => cases hstops
  · rintro rfl
    exact .inr ⟨_, hmem, _, _, List.mem_cons_self⟩

/-- Whatever a connection is doing when `Close` or an abort is called, and whatever else is called
from then on: its goroutines and all pending calls can still run to their end without any further
call, if the handlers that are running return.  Nobody waits for ever for a lease of `queueMu`, for
a `sync.Once` or for the wait group.
Everything has been given back then, every loop has exited, and `done` has been closed if `Start`
or `Close` was ever called. -/
theorem stop_completes (P : Primitives) (session : Session) (config : ConnectionConfig)
    (pool : Pool Connection Instr)
    (h : (connectionMachine P).Reaches (connectionStart session config) pool) (api : ApiCall)
    (hstops : api.stops = true) :
    ∀ later, (connectionMachine P).Reaches
        ⟨{ pool.state with nextChannel := pool.state.nextChannel + 1 },
          pool.threads ++ [api.program pool.state.nextChannel]⟩ later →
      (connectionMachine P).alone.Leads
        (fun last => (∀ t ∈ last.threads, t = []) ∧ last.state.TornDown ∧
          (api = .close → last.state.doneCloses = 1)) later := by
  intro later hlater
  have hstopping := Machine.invariant_of_step Stopping.step (.of_call h hstops) hlater
  obtain ⟨last, hreach, hlast, hdone⟩ := hstopping.ends (P := P)
  refine ⟨last, hreach, hdone, hlast.tornDown hdone, fun hclose => ?_⟩
  exact (hlast.tornDown hdone).done (hlast.begun hdone hclose)

/-- `Start` has launched one loop, and a call of `SendAndWait` still has its lease. -/
theorem start_midway :
    (connectionMachine transparent).Leads
      (fun pool => pool.state.startOnce = .running ∧ pool.state.readers = 1 ∧ pool.state.wg = 1)
      (connectionStart sampleSession plainConfig) := by
  refine .step (.ambient (.call (.sendAndWait .background sampleItem.message))) ?_
  refine .first (.queue (.lease rfl)) ?_
  refine .first (.queue (.contextLive rfl)) ?_
  refine .first (.queue (.admitted rfl)) ?_
  refine .first (.queue (.accepted (show 0 < 16 by decide))) ?_
  refine .step (.ambient (.call (.start .background))) ?_
  refine .second (.lifecycle (.startFirst rfl)) ?_
  refine .second (.lifecycle (.startLive rfl)) ?_
  refine .second (.lifecycle .storeStarted) ?_
  refine .second (.lifecycle .launchLoop) ?_
  exact .here ⟨rfl, rfl, rfl⟩

theorem stop_completes_midway :
    ∃ pool, (connectionMachine transparent).Reaches (connectionStart sampleSession plainConfig)
        pool ∧
      pool.state.startOnce = .running ∧ pool.state.readers = 1 ∧
      (connectionMachine transparent).alone.Leads
        (fun last => (∀ t ∈ last.threads, t = []) ∧ last.state.readers = 0 ∧
          last.state.exited.Perm last.state.launched ∧ last.state.doneCloses = 1)
        ⟨{ pool.state with nextChannel := pool.state.nextChannel + 1 },
          pool.threads ++ [ApiCall.close.program pool.state.nextChannel]⟩ := by
  obtain ⟨pool, hreach, hstart, hreaders, -⟩ := start_midway
  obtain ⟨last, hlast, hdone, htorn, hclosed⟩ :=
    stop_completes transparent sampleSession plainConfig pool hreach .close rfl _ .refl
  exact ⟨pool, hreach, hstart, hreaders, last, hlast, hdone, htorn.leases.1, htorn.exited,
    hclosed rfl⟩

end DgProto
