import DgProto.Connection.Teardown
import DgProto.Server.Exec

/-!
# Dialing

`DialContext` dials a socket, completes a handshake on it and makes a `Connection` that is not
started.  `DialAndStartContext` also starts it, under a context of its own.  Both are one call of
one goroutine, but their contexts may end at any moment, and a connection that has been started
goes on beside the call.

As in `Server`, an instruction is one access to something that others can change, with the
computations that follow it.  `establishClient` is an `Exchange`; its `fail` looks at the context
at the moment of the failure.  Deferred calls are the instructions further down the stack.
-/

namespace DgProto

open Library Wire Crypto

/-! ## State -/

/-- A call of one of the two functions, and which of its contexts are not nil. -/
inductive DialCall where
  | dialContext (ctx : Bool)
  | dialAndStartContext (establishmentCtx runtimeCtx : Bool)

/-- What the dialer returns: a socket or none, and its error. -/
structure DialAnswer where
  socket : Bool
  err : Option Error

/-- What a call shares with its contexts, its socket and its connection. -/
structure Dialer where
  config : ClientSetup
  /-- `Err` of the context that bounds the establishment. -/
  ctxErr : Option Error
  /-- `Err` of the context of the runtime. -/
  runtimeErr : Option Error
  /-- `Err` of the context that `WithTimeout` derived, once there is one. -/
  establishment : Option (Option Error)
  /-- The variable `owned`. -/
  owned : Bool
  /-- A session that no connection owns. -/
  session : Option Session
  conn : Option (Pool Connection Instr)
  /-- The connection is known to others: its handler, or the caller. -/
  shared : Bool
  /-- The operands of the last return statement. -/
  result : Option (Except Error AdmissionInfo)
  -- history
  dials : Nat
  /-- What the dialer has returned. -/
  answer : Option DialAnswer
  /-- What `establishClient` has come to, before its `fail` looks at the context. -/
  exchanged : Option (Except Error HandshakeResult)
  /-- How often the call itself has closed the socket. -/
  socketCloses : Nat

/-- Before the call. -/
def Dialer.new (config : ClientSetup) : Dialer where
  config := config
  ctxErr := none
  runtimeErr := none
  establishment := none
  owned := false
  session := none
  conn := none
  shared := false
  result := none
  dials := 0
  answer := none
  exchanged := none
  socketCloses := 0

namespace Dialer

/-- The dialer has returned a socket. -/
def acquired (s : Dialer) : Bool :=
  s.answer.any DialAnswer.socket

/-- How often the socket has been closed, by the call or by the connection. -/
def closes (s : Dialer) : Nat :=
  s.socketCloses + s.conn.elim 0 fun conn => conn.state.transportCloses

/-- A return statement with an error. -/
def fails (s : Dialer) (err : Error) : Dialer :=
  { s with result := some (.error err) }

/-- The dialer returns. -/
def answered (s : Dialer) (answer : DialAnswer) : Dialer :=
  { s with dials := s.dials + 1, answer := some answer }

end Dialer

/-- `fmt.Errorf("dgproto: dial: %w", err)`. -/
def dialError (err : Error) : Error :=
  ⟨err.kinds, "dgproto: dial: " ++ err.text⟩

/-- `Err` of a context after it was canceled. -/
def canceledErr (err : Option Error) : Option Error :=
  some (err.getD Sentinel.contextCanceled.bare)

/-! ## Instructions -/

/-- One access of a call. -/
inductive DialInstr where
  -- DialAndStartContext
  | dialAndStartContext (establishmentCtx runtimeCtx : Bool)
  | checkRuntime
  | startDialed
  | callConn (api : ApiCall)
  | awaitCall (api : ApiCall) (k : Nat)
  | fail (err : Error)
  -- DialContext
  | dialContext (ctx : Bool)
  | checkContext (config : ClientSetup)
  | withTimeout (config : ClientSetup)
  | dial (config : ClientSetup)
  | closeRaw
  | dialFailed (closed : Bool) (err : Error)
  | establishClient (config : ClientSetup)
  | exchange (config : ClientSetup) (driver : Exchange (Except Error HandshakeResult))
  | checkEstablishment (config : ClientSetup) (session : Session) (result : HandshakeResult)
  | closeOwned
  | cancelEstablishment
  | handOver

/-- The goroutine of a call. -/
def DialCall.program : DialCall → List DialInstr
  | .dialContext ctx => [.dialContext ctx, .handOver]
  | .dialAndStartContext establishmentCtx runtimeCtx =>
      [.dialAndStartContext establishmentCtx runtimeCtx]

/-- The context of `Start`. -/
def runtimeContext : Context := .caller 0

/-- `NewConnection`, in which the context of the runtime may have ended already. -/
def dialedConn (session : Session) (config : ConnectionConfig) (runtimeErr : Option Error) :
    Pool Connection Instr :=
  ⟨{ newConnection session config with
      callers := Function.update (fun _ => none) 0 runtimeErr }, []⟩

/-- The context of the runtime ends. -/
def endRuntime (conn : Pool Connection Instr) (err : Error) : Pool Connection Instr :=
  ⟨{ conn.state with callers := Function.update conn.state.callers 0 (some err) }, conn.threads⟩

/-! ## Rules -/

/-- `dialContext`, with `establishClient`. -/
inductive DialExec (N : HandshakePrimitives) (P : Primitives) (s : Dialer) :
    DialInstr → Effect Dialer DialInstr → Prop where
  | nilContext :
      DialExec N P s (.dialContext false)
        ⟨s.fails (Sentinel.invalidClientConfig.wrap "nil context"), [], []⟩
  | configRejected {err : Error} (h : normalizeClientConfig N s.config = .error err) :
      DialExec N P s (.dialContext true) ⟨s.fails err, [], []⟩
  | configAccepted {config : ClientSetup} (h : normalizeClientConfig N s.config = .ok config) :
      DialExec N P s (.dialContext true) ⟨s, [.checkContext config], []⟩
  | contextEnded {config : ClientSetup} {err : Error} (h : s.ctxErr = some err) :
      DialExec N P s (.checkContext config) ⟨s.fails err, [], []⟩
  | contextLive {config : ClientSetup} (h : s.ctxErr = none) :
      DialExec N P s (.checkContext config) ⟨s, [.withTimeout config], []⟩
  | withTimeout {config : ClientSetup} :
      DialExec N P s (.withTimeout config)
        ⟨{ s with establishment := some s.ctxErr }, [.dial config, .cancelEstablishment], []⟩
  | dialed {config : ClientSetup} :
      DialExec N P s (.dial config)
        ⟨{ s.answered ⟨true, none⟩ with owned := true },
          [.establishClient config, .closeOwned], []⟩
  /-- Neither a socket nor an error. -/
  | dialedNothing {config : ClientSetup} :
      DialExec N P s (.dial config)
        ⟨(s.answered ⟨false, none⟩).fails (dialError Sentinel.transportClosed.bare), [], []⟩
  | dialRefused {config : ClientSetup} (closed : Bool) (err : Error) :
      DialExec N P s (.dial config)
        ⟨s.answered ⟨false, some err⟩, [.dialFailed closed err], []⟩
  /-- A socket and an error. -/
  | dialBroken {config : ClientSetup} (closed : Bool) (err : Error) :
      DialExec N P s (.dial config)
        ⟨s.answered ⟨true, some err⟩, [.closeRaw, .dialFailed closed err], []⟩
  | closeRaw :
      DialExec N P s .closeRaw ⟨{ s with socketCloses := s.socketCloses + 1 }, [], []⟩
  | dialFailed {closed : Bool} {err : Error} :
      DialExec N P s (.dialFailed closed err)
        ⟨s.fails (dialError (transportError s.establishment.join closed err)), [], []⟩
  | establishClient {config : ClientSetup} (random : Reader) :
      DialExec N P s (.establishClient config)
        ⟨s, [.exchange config (DgProto.establishClient N config.toClientConfig random)], []⟩
  | frameWritten {config : ClientSetup} {frame : Frame}
      {next : Except Error Unit → Exchange (Except Error HandshakeResult)}
      (answer : Except Error Unit) :
      DialExec N P s (.exchange config (.writeFrame frame next))
        ⟨s, [.exchange config (next answer)], []⟩
  | frameRead {config : ClientSetup}
      {next : Except Error Frame → Exchange (Except Error HandshakeResult)}
      (answer : Except Error Frame) :
      DialExec N P s (.exchange config (.readFrame next)) ⟨s, [.exchange config (next answer)], []⟩
  /-- `fail` prefers the error of the context. -/
  | establishFailed {config : ClientSetup} {err : Error} :
      DialExec N P s (.exchange config (.done (.error err)))
        ⟨({ s with exchanged := some (.error err) }).fails (s.establishment.join.getD err), [], []⟩
  | sessionRejected {config : ClientSetup} {result : HandshakeResult} (now : Time) {err : Error}
      (h : newSessionFromHandshake P cipherChaCha20Poly1305 result now = .error err) :
      DialExec N P s (.exchange config (.done (.ok result)))
        ⟨({ s with exchanged := some (.ok result) }).fails err, [], []⟩
  | sessionMade {config : ClientSetup} {result : HandshakeResult} (now : Time) {session : Session}
      (h : newSessionFromHandshake P cipherChaCha20Poly1305 result now = .ok session) :
      DialExec N P s (.exchange config (.done (.ok result)))
        ⟨{ s with exchanged := some (.ok result), session := some session },
          [.checkEstablishment config session result], []⟩
  | establishmentEnded {config : ClientSetup} {session : Session} {result : HandshakeResult}
      {err : Error} (h : s.establishment.join = some err) :
      DialExec N P s (.checkEstablishment config session result)
        ⟨({ s with session := some session.close }).fails err, [], []⟩
  /-- The connection owns the socket and the session from here on. -/
  | established {config : ClientSetup} {session : Session} {result : HandshakeResult}
      (h : s.establishment.join = none) :
      DialExec N P s (.checkEstablishment config session result)
        ⟨{ s with
            session := none
            conn := some (dialedConn session config.connConfig s.runtimeErr)
            owned := false
            result := some (.ok ⟨result.peerStatic, result.sessionID⟩) }, [], []⟩
  | closeOwned :
      DialExec N P s .closeOwned
        ⟨{ s with socketCloses := if s.owned then s.socketCloses + 1 else s.socketCloses }, [], []⟩
  | cancelEstablishment :
      DialExec N P s .cancelEstablishment
        ⟨{ s with establishment := s.establishment.map canceledErr }, [], []⟩
  | handOver : DialExec N P s .handOver ⟨{ s with shared := true }, [], []⟩

/-- `DialAndStartContext`. -/
inductive DialStartExec (s : Dialer) : DialInstr → Effect Dialer DialInstr → Prop where
  | nilContexts {establishmentCtx runtimeCtx : Bool}
      (h : (establishmentCtx && runtimeCtx) = false) :
      DialStartExec s (.dialAndStartContext establishmentCtx runtimeCtx)
        ⟨s.fails (Sentinel.invalidClientConfig.wrap "nil context"), [], []⟩
  | contexts : DialStartExec s (.dialAndStartContext true true) ⟨s, [.checkRuntime], []⟩
  | runtimeEnded {err : Error} (h : s.runtimeErr = some err) :
      DialStartExec s .checkRuntime ⟨s.fails err, [], []⟩
  | runtimeLive (h : s.runtimeErr = none) :
      DialStartExec s .checkRuntime ⟨s, [.dialContext true, .startDialed], []⟩
  | dialFailed {err : Error} (h : s.result = some (.error err)) :
      DialStartExec s .startDialed ⟨s, [], []⟩
  | dialedEnded {info : AdmissionInfo} {err : Error} (h : s.result = some (.ok info))
      (hended : s.runtimeErr = some err) :
      DialStartExec s .startDialed ⟨s, [.callConn .close, .fail err], []⟩
  | dialedLive {info : AdmissionInfo} (h : s.result = some (.ok info))
      (hlive : s.runtimeErr = none) :
      DialStartExec s .startDialed ⟨s, [.callConn (.start runtimeContext)], []⟩
  /-- A connection that is started calls its handler. -/
  | callConn {api : ApiCall} {conn : Pool Connection Instr} (h : s.conn = some conn) :
      DialStartExec s (.callConn api)
        ⟨{ s with conn := some (callRuntime conn api), shared := s.shared || !api.stops },
          [.awaitCall api conn.threads.length], []⟩
  | callReturned {api : ApiCall} {k : Nat} {conn : Pool Connection Instr} (h : s.conn = some conn)
      (hreturned : conn.threads[k]? = some []) :
      DialStartExec s (.awaitCall api k) ⟨s, [], []⟩
  | fail {err : Error} : DialStartExec s (.fail err) ⟨s.fails err, [], []⟩

/-- What happens beside the call: contexts end, and the connection goes on.  Only those who know
the connection call its methods. -/
inductive DialAmbient (P : Primitives) (s : Dialer) : Dialer → List (List DialInstr) → Prop where
  | endContext (err : Error) (h : s.ctxErr = none) :
      DialAmbient P s { s with ctxErr := some err } []
  /-- The end of a context reaches the one derived from it. -/
  | propagate {err : Error} (h : s.ctxErr = some err) (hlive : s.establishment = some none) :
      DialAmbient P s { s with establishment := some (some err) } []
  | timeout (hlive : s.establishment = some none) :
      DialAmbient P s
        { s with establishment := some (some Sentinel.contextDeadlineExceeded.bare) } []
  | endRuntime (err : Error) (h : s.runtimeErr = none) :
      DialAmbient P s
        { s with
          runtimeErr := some err
          conn := s.conn.map fun conn => DgProto.endRuntime conn err }
        []
  | settle {before after : Pool Connection Instr} (h : s.conn = some before)
      (hstep : (connectionMachine P).alone.Step before after) :
      DialAmbient P s { s with conn := some after } []
  | use {before after : Pool Connection Instr} (h : s.conn = some before)
      (hshared : s.shared = true) (hstep : (connectionMachine P).Step before after)
      (hcontext : after.state.callers 0 = before.state.callers 0) :
      DialAmbient P s { s with conn := some after } []

/-- A call, its contexts and its connection. -/
def dialMachine (N : HandshakePrimitives) (P : Primitives) : Machine Dialer DialInstr where
  exec s i effect := DialExec N P s i effect ∨ DialStartExec s i effect
  ambient := DialAmbient P

/-- The call begins. -/
def dialStart (config : ClientSetup) (call : DialCall) : Pool Dialer DialInstr :=
  ⟨.new config, [call.program]⟩

end DgProto
