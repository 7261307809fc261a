import DgProto.Library.ThreadPool
import DgProto.Session.Run

/-!
# Connection state and the programs of its goroutines

A `Connection` runs a session over a transport with four loops, two helper goroutines
and any number of calling goroutines.  All of them share one state.  A goroutine is
the stack of the instructions it has left; every instruction touches the shared state
once, so that any two of them may interleave between two accesses.

Channels with a buffer are lists, `sync.Once` has three phases, the read lease of
`queueMu` is a count.  Sections under `causeMu` and `pingMu` contain nothing that
another goroutine can see half done, so each is one instruction.  Timers and the
context of one operation may fire at any moment.

The fields under "history" are written and never read by an instruction: they record
what happened for the statements about runs.
-/

namespace DgProto

open Library Wire Crypto

/-! ## Configuration -/

/-- `ConnectionConfig`.  Of the handler only its presence matters here: what it does
through the connection is done by calls of the environment. -/
structure ConnectionConfig where
  outboundQueue : Int
  handlerQueue : Int
  readTimeout : Duration
  writeTimeout : Duration
  idleTimeout : Duration
  keepaliveInterval : Duration
  keepaliveTimeout : Duration
  handler : Bool
  handlerShutdownTimeout : Duration
  deriving DecidableEq

/-- `math.MaxInt64`. -/
def maxInt64 : Int := 9223372036854775807

/-- `defaultKeepaliveTimeout`. -/
def defaultKeepaliveTimeout (interval : Duration) : Duration × Bool :=
  if maxInt64 / 2 < interval then (maxInt64, false) else (2 * interval, true)

/-- The defaults that `NewConnection` fills in. -/
def ConnectionConfig.withDefaults (config : ConnectionConfig) : ConnectionConfig :=
  { config with
    outboundQueue := if config.outboundQueue ≤ 0 then 16 else config.outboundQueue
    handlerQueue := if config.handlerQueue ≤ 0 then 16 else config.handlerQueue
    keepaliveTimeout :=
      if 0 < config.keepaliveInterval ∧ config.keepaliveTimeout ≤ 0 then
        (defaultKeepaliveTimeout config.keepaliveInterval).1
      else config.keepaliveTimeout }

/-! ## Shared values -/

/-- A `context.Context` as the connection sees it: one that never ends, one that a
caller controls, or the context of the connection itself. -/
inductive Context where
  | background
  | caller (id : Nat)
  | connection
  deriving DecidableEq

/-- The phases of a `sync.Once`. -/
inductive Once where
  | idle
  | running
  | finished
  deriving DecidableEq

/-- The goroutines counted by the wait group. -/
inductive Loop where
  | read
  | write
  | maintenance
  | handler
  deriving DecidableEq

inductive QueueName where
  | outbound
  | control
  deriving DecidableEq

/-- `queuedMessage`.  A completion channel is named by the number it was made with. -/
structure QueuedMessage where
  message : AnyValue
  padLength : UInt8
  completion : Option Nat
  deriving DecidableEq

/-- `closeRequest`, with the name of its result channel. -/
structure CloseRequest where
  message : SessionClose
  cause : Error
  result : Nat
  deriving DecidableEq

/-- What the writer is writing. -/
inductive WriteJob where
  | close (request : CloseRequest)
  | queued (queue : QueueName) (item : QueuedMessage)
  deriving DecidableEq

/-- The message that `writeMessage` is given. -/
def WriteJob.message : WriteJob → AnyValue
  | .close request => .value (.sessionClose request.message)
  | .queued _ item => item.message

def WriteJob.padLength : WriteJob → UInt8
  | .close _ => 0
  | .queued _ item => item.padLength

/-- A frame handed to the network, with the job it was made for. -/
structure SentFrame where
  job : WriteJob
  emission : Emission

/-- Who fails the items of the queues: the deferred call of `writeLoop` or `shutdown`. -/
inductive Disposer where
  | writer
  | shutdown
  deriving DecidableEq

/-- Who owns `startOnce`. -/
inductive StartOwner where
  /-- `Start`, before its last `go` statement. -/
  | starting
  | launched
  /-- `Start` with a context that had already ended. -/
  | preCanceled
  | close
  deriving DecidableEq

/-- The variables of `maintenanceLoop`: the outstanding ping, and which of the channels
`keepalive` and `pongDeadline` are not nil. -/
structure Keepalive where
  outstanding : UInt64
  keepalive : Bool
  pongDeadline : Bool
  deriving DecidableEq

/-- `Connection`, with its transport and its session. -/
structure Connection where
  config : ConnectionConfig
  session : Session
  /-- The cause with which the context of the connection was canceled. -/
  cancelCause : Option Error
  /-- The contexts derived from it by `operationContext` have been canceled, too. -/
  operationsCanceled : Bool
  /-- The `Err` of the contexts that callers control. -/
  callers : Nat → Option Error
  outbound : List QueuedMessage
  control : List QueuedMessage
  closeRequest : List CloseRequest
  activity : Bool
  pong : Option UInt64
  handlerQueue : List Message
  startOnce : Once
  shutdownOnce : Once
  closeOnce : Once
  /-- Read leases of `queueMu`. -/
  readers : Nat
  /-- The exclusive lease of `queueMu`. -/
  locked : Bool
  terminal : Option Error
  started : Bool
  closing : Bool
  pingNonce : UInt64
  pingExpected : UInt64
  pingAcknowledged : Bool
  wg : Nat
  /-- The write lane of the transport is taken. -/
  writeLane : Bool
  transportClosed : Bool
  /-- The octets written to the network. -/
  wire : List UInt8
  /-- The name of the next channel. -/
  nextChannel : Nat
  /-- The values sent to completion channels. -/
  completions : List (Nat × Option Error)
  /-- The values sent to the result channels of close requests. -/
  results : List (Nat × Option Error)
  /-- The values sent to the result channels of bounded handler calls. -/
  handlerResults : List (Nat × Option Error)
  -- history
  doneCloses : Nat
  /-- The calls of the transport's `Close`. -/
  transportCloses : Nat
  startOwner : Option StartOwner
  launched : List Loop
  exited : List Loop
  /-- The exclusive lease has been taken. -/
  leased : Bool
  shutdownReturns : Nat
  closeReturns : List (Option Error)
  /-- The items sent to the queues, in the order of the channel. -/
  accepted : List (QueueName × QueuedMessage)
  /-- The results of `enqueueChannel`. -/
  returned : List (QueuedMessage × Option Error)
  /-- The results of `SendPaddedAndWait` after its item was accepted. -/
  waited : List (Nat × Option Error)
  /-- The frames whose octets the transport began to write. -/
  sent : List SentFrame
  /-- The frames for which `WriteFrame` returned nil. -/
  written : List SentFrame
  /-- The messages that `Session.Receive` returned to `readLoop`. -/
  received : List Message
  /-- The messages for which the handler was called. -/
  invoked : List Message
  handlersRunning : Nat

/-- `NewConnection`. -/
def newConnection (session : Session) (config : ConnectionConfig) : Connection where
  config := config.withDefaults
  session := session
  cancelCause := none
  operationsCanceled := false
  callers := fun _ => none
  outbound := []
  control := []
  closeRequest := []
  activity := false
  pong := none
  handlerQueue := []
  startOnce := .idle
  shutdownOnce := .idle
  closeOnce := .idle
  readers := 0
  locked := false
  terminal := none
  started := false
  closing := false
  pingNonce := 0
  pingExpected := 0
  pingAcknowledged := false
  wg := 0
  writeLane := false
  transportClosed := false
  wire := []
  nextChannel := 0
  completions := []
  results := []
  handlerResults := []
  doneCloses := 0
  transportCloses := 0
  startOwner := none
  launched := []
  exited := []
  leased := false
  shutdownReturns := 0
  closeReturns := []
  accepted := []
  returned := []
  waited := []
  sent := []
  written := []
  received := []
  invoked := []
  handlersRunning := 0

namespace Connection

/-- `Err` of a context. -/
def err (s : Connection) : Context → Option Error
  | .background => none
  | .caller id => s.callers id
  | .connection => s.cancelCause.map fun _ => Sentinel.contextCanceled.bare

/-- What `Err` of an operation context may return: cancellation reaches it from the
connection, and its own timeout may pass at any moment. -/
inductive OperationErr (s : Connection) (timeout : Duration) : Option Error → Prop where
  | live (h : s.operationsCanceled = false) : OperationErr s timeout none
  | canceled (h : s.cancelCause ≠ none) :
      OperationErr s timeout (some Sentinel.contextCanceled.bare)
  | expired (h : 0 < timeout) :
      OperationErr s timeout (some Sentinel.contextDeadlineExceeded.bare)

/-- The buffer of a queue. -/
def queue (s : Connection) : QueueName → List QueuedMessage
  | .outbound => s.outbound
  | .control => s.control

/-- The capacity of a queue. -/
def capacity (s : Connection) : QueueName → Nat
  | .outbound => s.config.outboundQueue.toNat
  | .control => 16

/-- A send to a queue. -/
def push (s : Connection) (name : QueueName) (item : QueuedMessage) : Connection :=
  { s with
    outbound := if name = .outbound then s.outbound ++ [item] else s.outbound
    control := if name = .control then s.control ++ [item] else s.control
    accepted := s.accepted ++ [(name, item)] }

/-- The nonce of the next ping; zero is skipped. -/
def nextPing (s : Connection) : UInt64 :=
  if s.pingNonce + 1 = 0 then 1 else s.pingNonce + 1

/-- `complete`: only an item with a completion channel is told. -/
def complete (s : Connection) (item : QueuedMessage) (err : Option Error) : Connection :=
  { s with
    completions := s.completions ++ (item.completion.map fun channel => (channel, err)).toList }

end Connection

/-! ## Instructions -/

/-- What the caller of `enqueueChannel` does with its result. -/
inductive EnqueueReturn where
  /-- Hand it to the user. -/
  | caller
  /-- `SendPaddedAndWait`. -/
  | awaitCompletion
  /-- The reply to a ping in `readLoop`. -/
  | pong
  /-- The ping of `maintenanceLoop`. -/
  | ping (st : Keepalive)
  deriving DecidableEq

/-- The arguments of one call of `enqueueChannel`. -/
structure EnqueueCall where
  ctx : Context
  queue : QueueName
  item : QueuedMessage
  wait : Bool
  after : EnqueueReturn
  deriving DecidableEq

/-- One access to the shared state, with the values the goroutine has at hand. -/
inductive Instr where
  -- Start
  | startOnce (ctx : Context)
  | checkStart (ctx : Context)
  | storeStarted
  | launch (loops : List Loop) (ctx : Context)
  | endStart
  | watch (ctx : Context)
  | awaitLoops
  | finishJoin
  | closeDone
  | exit (loop : Loop)
  -- closeGracefully
  | closeOnce (message : SessionClose) (cause : Error)
  | claimStart (cause : Error)
  | loadStarted (message : SessionClose) (cause : Error)
  | leaseClose (request : CloseRequest)
  | checkClose (request : CloseRequest)
  | requestClose (request : CloseRequest)
  | awaitClose (request : CloseRequest)
  | preferResult (request : CloseRequest)
  | endClose (result : Option Error)
  -- shutdown
  | recordTerminal (cause : Error)
  | shutdownOnce (cause : Error)
  | storeClosing
  | cancel (cause : Error)
  | cancelOperations
  | clearPing
  | lockQueues
  | failPending (who : Disposer)
  | drain (who : Disposer) (err : Error)
  | complete (who : Disposer) (item : QueuedMessage) (err : Option Error)
  | answer (who : Disposer) (request : CloseRequest) (err : Option Error)
  | dropHandlers
  | dropHandler
  | unlockQueues
  | closeSession
  | closeTransport
  | endShutdown
  | returnShutdown
  -- enqueueChannel and SendPaddedAndWait
  | enqueue (call : EnqueueCall)
  | checkContext (call : EnqueueCall)
  | checkClosing (call : EnqueueCall)
  | offer (call : EnqueueCall)
  | releaseLease
  | returnEnqueue (call : EnqueueCall) (result : Option Error)
  | awaitCompletion (ctx : Context) (channel : Nat)
  | preferCompletion (channel : Nat)
  -- writeLoop, writeMessage and WriteFrame
  | writeLoop
  | selectWork
  | sendFrame (job : WriteJob)
  | marshalFrame (job : WriteJob) (emission : Emission)
  | checkLane (job : WriteJob) (emission : Emission) (wire : List UInt8)
  | takeLane (job : WriteJob) (emission : Emission) (wire : List UInt8)
  | watchContext (job : WriteJob) (emission : Emission) (wire : List UInt8)
  | writeWire (job : WriteJob) (emission : Emission) (wire : List UInt8)
  | releaseLane
  | frameWritten (job : WriteJob) (emission : Emission)
  | markRekey (job : WriteJob) (emission : Emission)
  | finishWrite (job : WriteJob) (err : Option Error)
  -- readLoop
  | readFrame
  | receive (frame : Frame)
  | noteActivity
  | dispatch (message : Message)
  | acknowledgePing (nonce : UInt64)
  | leaseHandler (message : Message)
  | checkHandler (message : Message)
  | offerHandler (message : Message)
  -- handlerLoop
  | handlerLoop
  | selectHandler
  | recheckHandler (message : Message)
  | callHandler (message : Message)
  | handlerInline
  | invokeHandler (message : Message) (channel : Nat)
  | handlerDetached (channel : Nat)
  | awaitHandler (channel : Nat)
  | awaitDetached (channel : Nat)
  -- maintenanceLoop
  | maintenance (st : Keepalive)
  | consumePong (st : Keepalive)
  | beginPing (st : Keepalive)
  | pongExpired (st : Keepalive)

/-! ## Programs -/

/-- `shutdown`. -/
def shutdown (cause : Error) : List Instr :=
  [.recordTerminal cause, .shutdownOnce cause, .returnShutdown]

/-- The function under `shutdownOnce`. -/
def shutdownBody (cause : Error) : List Instr :=
  [.storeClosing, .cancel cause, .cancelOperations, .clearPing, .lockQueues,
    .failPending .shutdown, .dropHandlers, .unlockQueues, .closeSession, .closeTransport,
    .endShutdown]

/-- The function under `closeOnce`, up to the load of `started`. -/
def closeBody (message : SessionClose) (cause : Error) : List Instr :=
  [.recordTerminal cause, .storeClosing, .claimStart cause, .loadStarted message cause]

/-- The function under `startOnce` of `closeGracefully`, and what follows the shutdown in
a `Start` whose context has ended. -/
def stopUnstarted (cause : Error) : List Instr :=
  shutdown cause ++ [.closeDone, .endStart]

/-- The loops that `Start` runs. -/
def ConnectionConfig.loops (config : ConnectionConfig) : List Loop :=
  [.read, .write, .maintenance] ++ if config.handler then [.handler] else []

/-- The first instruction of a loop. -/
def Loop.entry (config : ConnectionConfig) : Loop → Instr
  | .read => .readFrame
  | .write => .writeLoop
  | .maintenance => .maintenance ⟨0, 0 < config.keepaliveInterval, false⟩
  | .handler => .handlerLoop

/-- The control message of `enqueueControl`. -/
def enqueueControl (message : Message) (wait : Bool) (after : EnqueueReturn) : EnqueueCall :=
  ⟨.connection, .control, ⟨.value message, 0, none⟩, wait, after⟩

/-- What follows a call of `enqueueChannel`. -/
def EnqueueCall.resume (call : EnqueueCall) (result : Option Error) : List Instr :=
  match call.after, result with
  | .caller, _ => []
  | .awaitCompletion, none => (call.item.completion.map (.awaitCompletion call.ctx)).toList
  | .awaitCompletion, some _ => []
  | .pong, none => [.readFrame]
  | .pong, some err => shutdown err
  | .ping st, none => [.maintenance { st with keepalive := false, pongDeadline := true }]
  | .ping st, some _ => [.clearPing, .maintenance { st with outstanding := 0 }]

/-- What `writeLoop` does once `writeMessage` has returned. -/
def WriteJob.finish (job : WriteJob) (err : Option Error) : List Instr :=
  match job, err with
  | .close request, err =>
      .answer .writer request err :: shutdown request.cause ++ [.failPending .writer]
  | .queued _ item, none => [.complete .writer item none, .writeLoop]
  | .queued _ item, some err =>
      .complete .writer item (some err) :: shutdown err ++ [.failPending .writer]

/-- What `handlerLoop` does with the result of a handler call. -/
def finishHandler : Option Error → List Instr
  | none => [.handlerLoop]
  | some err => shutdown err

/-- `SessionClose{Code: 0, Reason: "local shutdown"}`. -/
def localShutdown : SessionClose := ⟨0, label "local shutdown"⟩
/-- `SessionClose{Code: 0, Reason: "context canceled"}`. -/
def contextClose : SessionClose := ⟨0, label "context canceled"⟩
/-- `SessionClose{Code: 3, Reason: "idle timeout"}`. -/
def idleClose : SessionClose := ⟨3, label "idle timeout"⟩

end DgProto
