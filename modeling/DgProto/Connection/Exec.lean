import DgProto.Connection.State
import DgProto.Transport.Lanes

/-!
# What the instructions of a connection do

One relation for each part of the source: the life cycle, the enqueue path, the write
path with `TCPTransport.WriteFrame`, the read path with the handler, and the keepalive.
A rule is one way an instruction can go; an instruction none of whose rules applies is
blocked.  Values that come from outside, such as clocks, randomness, the frames of the
peer, the results of handlers and of writes, are arguments of the rules, so a rule
stands for all of them.
-/

namespace DgProto

open Library Wire Crypto Connection

/-- `Start`, `closeGracefully` and `shutdown`. -/
inductive LifecycleExec (s : Connection) : Instr → Effect Connection Instr → Prop where
  -- Start
  | startFirst {ctx : Context} (h : s.startOnce = .idle) :
      LifecycleExec s (.startOnce ctx)
        ⟨{ s with startOnce := .running, startOwner := some .starting }, [.checkStart ctx], []⟩
  | startAgain {ctx : Context} (h : s.startOnce = .finished) :
      LifecycleExec s (.startOnce ctx) ⟨s, [], []⟩
  | startCanceled {ctx : Context} {err : Error} (h : s.err ctx = some err) :
      LifecycleExec s (.checkStart ctx)
        ⟨{ s with startOwner := some .preCanceled }, stopUnstarted err, []⟩
  | startLive {ctx : Context} (h : s.err ctx = none) :
      LifecycleExec s (.checkStart ctx) ⟨s, [.storeStarted, .launch s.config.loops ctx], []⟩
  | storeStarted : LifecycleExec s .storeStarted ⟨{ s with started := true }, [], []⟩
  | launchLoop {loop : Loop} {loops : List Loop} {ctx : Context} :
      LifecycleExec s (.launch (loop :: loops) ctx)
        ⟨{ s with wg := s.wg + 1, launched := s.launched ++ [loop] }, [.launch loops ctx],
          [[loop.entry s.config, .exit loop]]⟩
  | launchHelpers {ctx : Context} :
      LifecycleExec s (.launch [] ctx)
        ⟨{ s with startOwner := some .launched }, [.endStart], [[.watch ctx], [.awaitLoops]]⟩
  | endStart : LifecycleExec s .endStart ⟨{ s with startOnce := .finished }, [], []⟩
  | watchCanceled {ctx : Context} {err : Error} (h : s.err ctx = some err) :
      LifecycleExec s (.watch ctx) ⟨s, [.recordTerminal err, .closeOnce contextClose err], []⟩
  | watchEnded {ctx : Context} (h : s.cancelCause ≠ none) :
      LifecycleExec s (.watch ctx) ⟨s, [], []⟩
  | loopsJoined (h : s.wg = 0) : LifecycleExec s .awaitLoops ⟨s, [.finishJoin], []⟩
  | finishJoin :
      LifecycleExec s .finishJoin
        ⟨s, shutdown (s.cancelCause.getD Sentinel.connectionClosed.bare) ++ [.closeDone], []⟩
  | closeDone : LifecycleExec s .closeDone ⟨{ s with doneCloses := s.doneCloses + 1 }, [], []⟩
  | exitLoop {loop : Loop} {n : Nat} (h : s.wg = n + 1) :
      LifecycleExec s (.exit loop) ⟨{ s with wg := n, exited := s.exited ++ [loop] }, [], []⟩
  -- closeGracefully
  | closeFirst {message : SessionClose} {cause : Error} (h : s.closeOnce = .idle) :
      LifecycleExec s (.closeOnce message cause)
        ⟨{ s with closeOnce := .running }, closeBody message cause, []⟩
  | closeAgain {message : SessionClose} {cause : Error} (h : s.closeOnce = .finished) :
      LifecycleExec s (.closeOnce message cause)
        ⟨{ s with closeReturns := s.closeReturns ++ [none] }, [], []⟩
  | claimFirst {cause : Error} (h : s.startOnce = .idle) :
      LifecycleExec s (.claimStart cause)
        ⟨{ s with startOnce := .running, startOwner := some .close }, stopUnstarted cause, []⟩
  | claimAgain {cause : Error} (h : s.startOnce = .finished) :
      LifecycleExec s (.claimStart cause) ⟨s, [], []⟩
  | neverStarted {message : SessionClose} {cause : Error} (h : s.started = false) :
      LifecycleExec s (.loadStarted message cause) ⟨s, [.endClose none], []⟩
  | wasStarted {message : SessionClose} {cause : Error} (h : s.started = true) :
      LifecycleExec s (.loadStarted message cause)
        ⟨{ s with nextChannel := s.nextChannel + 1 },
          [.leaseClose ⟨message, cause, s.nextChannel⟩], []⟩
  | leaseClose {request : CloseRequest} (h : s.locked = false) :
      LifecycleExec s (.leaseClose request)
        ⟨{ s with readers := s.readers + 1 }, [.checkClose request], []⟩
  | checkCloseCanceled {request : CloseRequest} {cause : Error}
      (h : s.cancelCause = some cause) :
      LifecycleExec s (.checkClose request) ⟨s, [.releaseLease, .endClose (some cause)], []⟩
  | checkCloseLive {request : CloseRequest} (h : s.cancelCause = none) :
      LifecycleExec s (.checkClose request) ⟨s, [.requestClose request], []⟩
  | requestAccepted {request : CloseRequest} (h : s.closeRequest.length < 1) :
      LifecycleExec s (.requestClose request)
        ⟨{ s with closeRequest := s.closeRequest ++ [request] },
          [.releaseLease, .awaitClose request], []⟩
  | requestCanceled {request : CloseRequest} {cause : Error} (h : s.cancelCause = some cause) :
      LifecycleExec s (.requestClose request)
        ⟨s, .releaseLease :: shutdown request.cause ++ [.endClose (some cause)], []⟩
  | requestExpired {request : CloseRequest} :
      LifecycleExec s (.requestClose request)
        ⟨s, .releaseLease :: shutdown request.cause ++
          [.endClose (some Sentinel.contextDeadlineExceeded.bare)], []⟩
  | closeAnswered {request : CloseRequest} {result : Option Error}
      (h : (request.result, result) ∈ s.results) :
      LifecycleExec s (.awaitClose request)
        ⟨s, shutdown request.cause ++ [.endClose result], []⟩
  | closeCanceled {request : CloseRequest} (h : s.cancelCause ≠ none) :
      LifecycleExec s (.awaitClose request) ⟨s, [.preferResult request], []⟩
  | closeExpired {request : CloseRequest} :
      LifecycleExec s (.awaitClose request)
        ⟨s, shutdown request.cause ++
          [.endClose (some Sentinel.contextDeadlineExceeded.bare)], []⟩
  | preferAnswered {request : CloseRequest} {result : Option Error}
      (h : (request.result, result) ∈ s.results) :
      LifecycleExec s (.preferResult request)
        ⟨s, shutdown request.cause ++ [.endClose result], []⟩
  | preferCanceled {request : CloseRequest} {cause : Error}
      (hnone : ∀ result, (request.result, result) ∉ s.results)
      (h : s.cancelCause = some cause) :
      LifecycleExec s (.preferResult request)
        ⟨s, shutdown request.cause ++ [.endClose (some cause)], []⟩
  | endClose {result : Option Error} :
      LifecycleExec s (.endClose result)
        ⟨{ s with closeOnce := .finished, closeReturns := s.closeReturns ++ [result] }, [], []⟩
  -- shutdown
  | recordTerminal {cause : Error} :
      LifecycleExec s (.recordTerminal cause)
        ⟨{ s with terminal := some (s.terminal.getD cause) }, [], []⟩
  | shutdownFirst {cause : Error} (h : s.shutdownOnce = .idle) :
      LifecycleExec s (.shutdownOnce cause)
        ⟨{ s with shutdownOnce := .running }, shutdownBody cause, []⟩
  | shutdownAgain {cause : Error} (h : s.shutdownOnce = .finished) :
      LifecycleExec s (.shutdownOnce cause) ⟨s, [], []⟩
  | storeClosing : LifecycleExec s .storeClosing ⟨{ s with closing := true }, [], []⟩
  | cancel {cause : Error} :
      LifecycleExec s (.cancel cause)
        ⟨{ s with cancelCause := some (s.cancelCause.getD cause) }, [], []⟩
  | cancelOperations :
      LifecycleExec s .cancelOperations ⟨{ s with operationsCanceled := true }, [], []⟩
  | clearPing :
      LifecycleExec s .clearPing
        ⟨{ s with pingExpected := 0, pingAcknowledged := false }, [], []⟩
  | lockQueues (hreaders : s.readers = 0) (hlocked : s.locked = false) :
      LifecycleExec s .lockQueues ⟨{ s with locked := true, leased := true }, [], []⟩
  | dropMore (h : s.handlerQueue ≠ []) :
      LifecycleExec s .dropHandlers ⟨s, [.dropHandler, .dropHandlers], []⟩
  | dropNone (h : s.handlerQueue = []) : LifecycleExec s .dropHandlers ⟨s, [], []⟩
  | dropHandler :
      LifecycleExec s .dropHandler ⟨{ s with handlerQueue := s.handlerQueue.tail }, [], []⟩
  | unlockQueues : LifecycleExec s .unlockQueues ⟨{ s with locked := false }, [], []⟩
  | closeSession : LifecycleExec s .closeSession ⟨{ s with session := s.session.close }, [], []⟩
  | closeTransport :
      LifecycleExec s .closeTransport
        ⟨{ s with transportClosed := true, transportCloses := s.transportCloses + 1 }, [], []⟩
  | endShutdown : LifecycleExec s .endShutdown ⟨{ s with shutdownOnce := .finished }, [], []⟩
  | returnShutdown :
      LifecycleExec s .returnShutdown
        ⟨{ s with shutdownReturns := s.shutdownReturns + 1 }, [], []⟩

/-- `enqueueChannel`, the wait of `SendPaddedAndWait`, and `failPending`. -/
inductive QueueExec (s : Connection) : Instr → Effect Connection Instr → Prop where
  | lease {call : EnqueueCall} (h : s.locked = false) :
      QueueExec s (.enqueue call)
        ⟨{ s with readers := s.readers + 1 }, [.checkContext call], []⟩
  | contextEnded {call : EnqueueCall} {err : Error} (h : s.err call.ctx = some err) :
      QueueExec s (.checkContext call)
        ⟨s, [.releaseLease, .returnEnqueue call (some err)], []⟩
  | contextLive {call : EnqueueCall} (h : s.err call.ctx = none) :
      QueueExec s (.checkContext call) ⟨s, [.checkClosing call], []⟩
  | refused {call : EnqueueCall} (h : s.closing = true) :
      QueueExec s (.checkClosing call)
        ⟨s, [.releaseLease, .returnEnqueue call (some Sentinel.connectionClosed.bare)], []⟩
  | admitted {call : EnqueueCall} (h : s.closing = false) :
      QueueExec s (.checkClosing call) ⟨s, [.offer call], []⟩
  | accepted {call : EnqueueCall}
      (h : (s.queue call.queue).length < s.capacity call.queue) :
      QueueExec s (.offer call)
        ⟨s.push call.queue call.item, [.releaseLease, .returnEnqueue call none], []⟩
  | full {call : EnqueueCall} (hwait : call.wait = false)
      (h : s.capacity call.queue ≤ (s.queue call.queue).length) :
      QueueExec s (.offer call)
        ⟨s, [.releaseLease, .returnEnqueue call (some Sentinel.outboundQueueFull.bare)], []⟩
  | waitEnded {call : EnqueueCall} {err : Error} (hwait : call.wait = true)
      (h : s.err call.ctx = some err) :
      QueueExec s (.offer call) ⟨s, [.releaseLease, .returnEnqueue call (some err)], []⟩
  | waitClosed {call : EnqueueCall} (hwait : call.wait = true) (h : s.cancelCause ≠ none) :
      QueueExec s (.offer call)
        ⟨s, [.releaseLease, .returnEnqueue call (some Sentinel.connectionClosed.bare)], []⟩
  | releaseLease {n : Nat} (h : s.readers = n + 1) :
      QueueExec s .releaseLease ⟨{ s with readers := n }, [], []⟩
  | returnEnqueue {call : EnqueueCall} {result : Option Error} :
      QueueExec s (.returnEnqueue call result)
        ⟨{ s with returned := s.returned ++ [(call.item, result)] }, call.resume result, []⟩
  | completed {ctx : Context} {channel : Nat} {result : Option Error}
      (h : (channel, result) ∈ s.completions) :
      QueueExec s (.awaitCompletion ctx channel)
        ⟨{ s with waited := s.waited ++ [(channel, result)] }, [], []⟩
  | completionEnded {ctx : Context} {channel : Nat} {err : Error} (h : s.err ctx = some err) :
      QueueExec s (.awaitCompletion ctx channel)
        ⟨{ s with waited := s.waited ++ [(channel, some err)] }, [], []⟩
  | completionCanceled {ctx : Context} {channel : Nat} (h : s.cancelCause ≠ none) :
      QueueExec s (.awaitCompletion ctx channel) ⟨s, [.preferCompletion channel], []⟩
  | preferCompleted {channel : Nat} {result : Option Error}
      (h : (channel, result) ∈ s.completions) :
      QueueExec s (.preferCompletion channel)
        ⟨{ s with waited := s.waited ++ [(channel, result)] }, [], []⟩
  | preferCause {channel : Nat} {cause : Error}
      (hnone : ∀ result, (channel, result) ∉ s.completions) (h : s.cancelCause = some cause) :
      QueueExec s (.preferCompletion channel)
        ⟨{ s with waited := s.waited ++ [(channel, some cause)] }, [], []⟩
  -- failPending
  | failPending {who : Disposer} :
      QueueExec s (.failPending who)
        ⟨s, [.drain who (s.cancelCause.getD Sentinel.connectionClosed.bare)], []⟩
  | drainControl {who : Disposer} {err : Error} {item : QueuedMessage}
      {rest : List QueuedMessage} (h : s.control = item :: rest) :
      QueueExec s (.drain who err)
        ⟨{ s with control := rest }, [.complete who item (some err), .drain who err], []⟩
  | drainOutbound {who : Disposer} {err : Error} {item : QueuedMessage}
      {rest : List QueuedMessage} (h : s.outbound = item :: rest) :
      QueueExec s (.drain who err)
        ⟨{ s with outbound := rest }, [.complete who item (some err), .drain who err], []⟩
  | drainRequest {who : Disposer} {err : Error} {request : CloseRequest}
      {rest : List CloseRequest} (h : s.closeRequest = request :: rest) :
      QueueExec s (.drain who err)
        ⟨{ s with closeRequest := rest }, [.answer who request (some err), .drain who err], []⟩
  | drained {who : Disposer} {err : Error} (hcontrol : s.control = [])
      (houtbound : s.outbound = []) (hrequest : s.closeRequest = []) :
      QueueExec s (.drain who err) ⟨s, [], []⟩
  | complete {who : Disposer} {item : QueuedMessage} {err : Option Error} :
      QueueExec s (.complete who item err) ⟨s.complete item err, [], []⟩
  | answer {who : Disposer} {request : CloseRequest} {err : Option Error} :
      QueueExec s (.answer who request err)
        ⟨{ s with results := s.results ++ [(request.result, err)] }, [], []⟩

/-- `writeLoop`, `writeMessage` and `WriteFrame`. -/
inductive WriteExec (P : Primitives) (s : Connection) :
    Instr → Effect Connection Instr → Prop where
  -- writeLoop
  | closeFirst {request : CloseRequest} {rest : List CloseRequest}
      (h : s.closeRequest = request :: rest) :
      WriteExec P s .writeLoop
        ⟨{ s with closeRequest := rest }, [.sendFrame (.close request)], []⟩
  | noClose (h : s.closeRequest = []) : WriteExec P s .writeLoop ⟨s, [.selectWork], []⟩
  | selectDone (h : s.cancelCause ≠ none) :
      WriteExec P s .selectWork ⟨s, [.failPending .writer], []⟩
  | selectClose {request : CloseRequest} {rest : List CloseRequest}
      (h : s.closeRequest = request :: rest) :
      WriteExec P s .selectWork
        ⟨{ s with closeRequest := rest }, [.sendFrame (.close request)], []⟩
  | selectControl {item : QueuedMessage} {rest : List QueuedMessage}
      (h : s.control = item :: rest) :
      WriteExec P s .selectWork
        ⟨{ s with control := rest }, [.sendFrame (.queued .control item)], []⟩
  | selectOutbound {item : QueuedMessage} {rest : List QueuedMessage}
      (h : s.outbound = item :: rest) :
      WriteExec P s .selectWork
        ⟨{ s with outbound := rest }, [.sendFrame (.queued .outbound item)], []⟩
  -- writeMessage
  | sendOk {job : WriteJob} {emission : Emission} (env : SendEnv)
      (h : (s.session.step P (.send job.message job.padLength env)).emission = some emission) :
      WriteExec P s (.sendFrame job)
        ⟨{ s with session := (s.session.step P (.send job.message job.padLength env)).after },
          [.marshalFrame job emission], []⟩
  | sendFailed {job : WriteJob} {err : Error} (env : SendEnv)
      (h : (s.session.step P (.send job.message job.padLength env)).result = .error err) :
      WriteExec P s (.sendFrame job)
        ⟨{ s with session := (s.session.step P (.send job.message job.padLength env)).after },
          [.finishWrite job (some err)], []⟩
  -- WriteFrame
  | marshalOk {job : WriteJob} {emission : Emission} {wire : List UInt8}
      (h : emission.frame.marshalBinary = .ok wire) (hmin : headerSize ≤ wire.length)
      (hmax : wire.length ≤ maxFrameSize) :
      WriteExec P s (.marshalFrame job emission) ⟨s, [.checkLane job emission wire], []⟩
  | marshalFailed {job : WriteJob} {emission : Emission} {err : Error}
      (h : emission.frame.marshalBinary = .error err) :
      WriteExec P s (.marshalFrame job emission) ⟨s, [.finishWrite job (some err)], []⟩
  | frameTooShort {job : WriteJob} {emission : Emission} {wire : List UInt8}
      (h : emission.frame.marshalBinary = .ok wire) (hmin : wire.length < headerSize) :
      WriteExec P s (.marshalFrame job emission)
        ⟨s, [.finishWrite job (some (Sentinel.transportFrameTooShort.wrap
          s!"got {wire.length}, want at least {headerSize}"))], []⟩
  | frameTooLarge {job : WriteJob} {emission : Emission} {wire : List UInt8}
      (h : emission.frame.marshalBinary = .ok wire) (hmax : maxFrameSize < wire.length) :
      WriteExec P s (.marshalFrame job emission)
        ⟨s, [.finishWrite job (some (Sentinel.transportFrameTooLarge.wrap
          s!"got {wire.length}, maximum {maxFrameSize}"))], []⟩
  | laneLive {job : WriteJob} {emission : Emission} {wire : List UInt8}
      (h : s.OperationErr s.config.writeTimeout none) :
      WriteExec P s (.checkLane job emission wire) ⟨s, [.takeLane job emission wire], []⟩
  | laneEnded {job : WriteJob} {emission : Emission} {wire : List UInt8} {err : Error}
      (h : s.OperationErr s.config.writeTimeout (some err)) :
      WriteExec P s (.checkLane job emission wire) ⟨s, [.finishWrite job (some err)], []⟩
  | laneFree {job : WriteJob} {emission : Emission} {wire : List UInt8}
      (h : s.writeLane = false) :
      WriteExec P s (.takeLane job emission wire)
        ⟨{ s with writeLane := true }, [.watchContext job emission wire], []⟩
  | laneCanceled {job : WriteJob} {emission : Emission} {wire : List UInt8} {err : Error}
      (h : s.OperationErr s.config.writeTimeout (some err)) :
      WriteExec P s (.takeLane job emission wire) ⟨s, [.finishWrite job (some err)], []⟩
  | watchLive {job : WriteJob} {emission : Emission} {wire : List UInt8}
      (h : s.OperationErr s.config.writeTimeout none) :
      WriteExec P s (.watchContext job emission wire)
        ⟨{ s with sent := s.sent ++ [⟨job, emission⟩] }, [.writeWire job emission wire], []⟩
  | watchEnded {job : WriteJob} {emission : Emission} {wire : List UInt8} {err : Error}
      (h : s.OperationErr s.config.writeTimeout (some err)) :
      WriteExec P s (.watchContext job emission wire)
        ⟨s, [.releaseLane, .finishWrite job (some err)], []⟩
  | wireDone {job : WriteJob} {emission : Emission} :
      WriteExec P s (.writeWire job emission [])
        ⟨s, [.releaseLane, .frameWritten job emission], []⟩
  | wireWrote {job : WriteJob} {emission : Emission} {wire : List UInt8} (n : Nat)
      (hpos : 0 < n) (hle : n ≤ wire.length) (hopen : s.transportClosed = false) :
      WriteExec P s (.writeWire job emission wire)
        ⟨{ s with wire := s.wire ++ wire.take n },
          [.writeWire job emission (wire.drop n)], []⟩
  | wireStalled {job : WriteJob} {emission : Emission} {wire : List UInt8} (hne : wire ≠ []) :
      WriteExec P s (.writeWire job emission wire)
        ⟨s, [.releaseLane, .finishWrite job (some Sentinel.ioShortWrite.bare)], []⟩
  | wireFailed {job : WriteJob} {emission : Emission} {wire : List UInt8} (n : Nat)
      {ctxErr : Option Error} (closed : Bool) (err : Error) (hne : wire ≠ [])
      (hctx : s.OperationErr s.config.writeTimeout ctxErr) :
      WriteExec P s (.writeWire job emission wire)
        ⟨{ s with wire := s.wire ++ wire.take n },
          [.releaseLane, .finishWrite job (some (transportError ctxErr closed err))], []⟩
  | releaseLane : WriteExec P s .releaseLane ⟨{ s with writeLane := false }, [], []⟩
  -- the rest of writeMessage
  | messageWritten {job : WriteJob} {emission : Emission} (h : emission.isRekey = false) :
      WriteExec P s (.frameWritten job emission)
        ⟨{ s with written := s.written ++ [⟨job, emission⟩] }, [.finishWrite job none], []⟩
  | rekeyWritten {job : WriteJob} {emission : Emission} (h : emission.isRekey = true) :
      WriteExec P s (.frameWritten job emission)
        ⟨{ s with written := s.written ++ [⟨job, emission⟩] }, [.markRekey job emission], []⟩
  | marked {job : WriteJob} {emission : Emission} (now : Time) {reply : Reply}
      (h : (s.session.step P (.markRekeySent emission.frame now)).result = .ok reply) :
      WriteExec P s (.markRekey job emission)
        ⟨{ s with session := (s.session.step P (.markRekeySent emission.frame now)).after },
          [.sendFrame job], []⟩
  | markFailed {job : WriteJob} {emission : Emission} (now : Time) {err : Error}
      (h : (s.session.step P (.markRekeySent emission.frame now)).result = .error err) :
      WriteExec P s (.markRekey job emission)
        ⟨{ s with session := (s.session.step P (.markRekeySent emission.frame now)).after },
          [.finishWrite job (some err)], []⟩
  | finishWrite {job : WriteJob} {err : Option Error} :
      WriteExec P s (.finishWrite job err) ⟨s, job.finish err, []⟩

/-- `readLoop` and `handlerLoop`. -/
inductive ReceiveExec (P : Primitives) (s : Connection) :
    Instr → Effect Connection Instr → Prop where
  | readFailed (err : Error) : ReceiveExec P s .readFrame ⟨s, shutdown err, []⟩
  | frameRead (frame : Frame) : ReceiveExec P s .readFrame ⟨s, [.receive frame], []⟩
  | rejected {frame : Frame} (clock : ReceiveClock) {err : Error}
      (h : (s.session.receiveMessage P clock frame).2 = .error err) :
      ReceiveExec P s (.receive frame)
        ⟨{ s with session := (s.session.receiveMessage P clock frame).1 }, shutdown err, []⟩
  | accepted {frame : Frame} (clock : ReceiveClock) {message : Message}
      (h : (s.session.receiveMessage P clock frame).2 = .ok message) :
      ReceiveExec P s (.receive frame)
        ⟨{ s with
            session := (s.session.receiveMessage P clock frame).1
            received := s.received ++ [message] },
          [.noteActivity, .dispatch message], []⟩
  | noteActivity : ReceiveExec P s .noteActivity ⟨{ s with activity := true }, [], []⟩
  | pong {nonce : UInt64} :
      ReceiveExec P s (.dispatch (.pingPong ⟨true, nonce⟩))
        ⟨s, [.acknowledgePing nonce, .readFrame], []⟩
  | ping {nonce : UInt64} :
      ReceiveExec P s (.dispatch (.pingPong ⟨false, nonce⟩))
        ⟨s, [.enqueue (enqueueControl (.pingPong ⟨true, nonce⟩) true .pong)], []⟩
  | rekeyInit {init : RekeyInit} :
      ReceiveExec P s (.dispatch (.rekeyInit init)) ⟨s, [.readFrame], []⟩
  | sessionClose {close : SessionClose} :
      ReceiveExec P s (.dispatch (.sessionClose close))
        ⟨s, shutdown Sentinel.connectionClosed.bare, []⟩
  | unhandled {message : Message} (hhandler : s.config.handler = false)
      (h : message.kind = .encryptedData ∨ message.kind = .ack ∨ message.kind = .error) :
      ReceiveExec P s (.dispatch message) ⟨s, [.readFrame], []⟩
  | handled {message : Message} (hhandler : s.config.handler = true)
      (h : message.kind = .encryptedData ∨ message.kind = .ack ∨ message.kind = .error) :
      ReceiveExec P s (.dispatch message) ⟨s, [.leaseHandler message], []⟩
  | pongExpected {nonce : UInt64} (hexpected : s.pingExpected ≠ 0)
      (hnonce : nonce = s.pingExpected) (hlive : s.cancelCause = none) :
      ReceiveExec P s (.acknowledgePing nonce)
        ⟨{ s with
            pingExpected := 0
            pingAcknowledged := true
            pong := some (s.pong.getD nonce) }, [], []⟩
  | pongIgnored {nonce : UInt64}
      (h : s.pingExpected = 0 ∨ nonce ≠ s.pingExpected ∨ s.cancelCause ≠ none) :
      ReceiveExec P s (.acknowledgePing nonce) ⟨s, [], []⟩
  | leaseHandler {message : Message} (h : s.locked = false) :
      ReceiveExec P s (.leaseHandler message)
        ⟨{ s with readers := s.readers + 1 }, [.checkHandler message], []⟩
  | handlerCanceled {message : Message} (h : s.cancelCause ≠ none) :
      ReceiveExec P s (.checkHandler message) ⟨s, [.releaseLease], []⟩
  | handlerLive {message : Message} (h : s.cancelCause = none) :
      ReceiveExec P s (.checkHandler message) ⟨s, [.offerHandler message], []⟩
  | handlerQueued {message : Message}
      (h : s.handlerQueue.length < s.config.handlerQueue.toNat) :
      ReceiveExec P s (.offerHandler message)
        ⟨{ s with handlerQueue := s.handlerQueue ++ [message] },
          [.releaseLease, .readFrame], []⟩
  | handlerQueueFull {message : Message}
      (h : s.config.handlerQueue.toNat ≤ s.handlerQueue.length) :
      ReceiveExec P s (.offerHandler message)
        ⟨s, .releaseLease :: shutdown Sentinel.handlerQueueFull.bare, []⟩
  -- handlerLoop
  | loopCanceled (h : s.cancelCause ≠ none) : ReceiveExec P s .handlerLoop ⟨s, [], []⟩
  | loopLive (h : s.cancelCause = none) :
      ReceiveExec P s .handlerLoop ⟨s, [.selectHandler], []⟩
  | selectCanceled (h : s.cancelCause ≠ none) : ReceiveExec P s .selectHandler ⟨s, [], []⟩
  | selectMessage {message : Message} {rest : List Message}
      (h : s.handlerQueue = message :: rest) :
      ReceiveExec P s .selectHandler
        ⟨{ s with handlerQueue := rest }, [.recheckHandler message], []⟩
  | recheckCanceled {message : Message} (h : s.cancelCause ≠ none) :
      ReceiveExec P s (.recheckHandler message) ⟨s, [], []⟩
  | recheckLive {message : Message} (h : s.cancelCause = none) :
      ReceiveExec P s (.recheckHandler message) ⟨s, [.callHandler message], []⟩
  | callInline {message : Message} (h : s.config.handlerShutdownTimeout ≤ 0) :
      ReceiveExec P s (.callHandler message)
        ⟨{ s with
            invoked := s.invoked ++ [message]
            handlersRunning := s.handlersRunning + 1 },
          [.handlerInline], []⟩
  | callBounded {message : Message} (h : 0 < s.config.handlerShutdownTimeout) :
      ReceiveExec P s (.callHandler message)
        ⟨{ s with nextChannel := s.nextChannel + 1 }, [.awaitHandler s.nextChannel],
          [[.invokeHandler message s.nextChannel]]⟩
  | inlineReturned {n : Nat} (h : s.handlersRunning = n + 1) (result : Option Error) :
      ReceiveExec P s .handlerInline
        ⟨{ s with handlersRunning := n }, finishHandler result, []⟩
  | inlinePanicked {n : Nat} (h : s.handlersRunning = n + 1) (recovered : String) :
      ReceiveExec P s .handlerInline
        ⟨{ s with handlersRunning := n },
          finishHandler (some (Sentinel.handlerPanic.wrap recovered)), []⟩
  | invokeHandler {message : Message} {channel : Nat} :
      ReceiveExec P s (.invokeHandler message channel)
        ⟨{ s with
            invoked := s.invoked ++ [message]
            handlersRunning := s.handlersRunning + 1 },
          [.handlerDetached channel], []⟩
  | detachedReturned {channel n : Nat} (h : s.handlersRunning = n + 1)
      (result : Option Error) :
      ReceiveExec P s (.handlerDetached channel)
        ⟨{ s with
            handlersRunning := n
            handlerResults := s.handlerResults ++ [(channel, result)] }, [], []⟩
  | detachedPanicked {channel n : Nat} (h : s.handlersRunning = n + 1)
      (recovered : String) :
      ReceiveExec P s (.handlerDetached channel)
        ⟨{ s with
            handlersRunning := n
            handlerResults := s.handlerResults ++
              [(channel, some (Sentinel.handlerPanic.wrap recovered))] }, [], []⟩
  | handlerReturned {channel : Nat} {result : Option Error}
      (h : (channel, result) ∈ s.handlerResults) :
      ReceiveExec P s (.awaitHandler channel) ⟨s, finishHandler result, []⟩
  | handlerOverdue {channel : Nat} (h : s.cancelCause ≠ none) :
      ReceiveExec P s (.awaitHandler channel) ⟨s, [.awaitDetached channel], []⟩
  | handlerLate {channel : Nat} {result : Option Error}
      (h : (channel, result) ∈ s.handlerResults) :
      ReceiveExec P s (.awaitDetached channel) ⟨s, finishHandler result, []⟩
  | handlerAbandoned {channel : Nat} :
      ReceiveExec P s (.awaitDetached channel) ⟨s, finishHandler none, []⟩

/-- `maintenanceLoop`. -/
inductive KeepaliveExec (s : Connection) : Instr → Effect Connection Instr → Prop where
  | ended {st : Keepalive} (h : s.cancelCause ≠ none) :
      KeepaliveExec s (.maintenance st) ⟨s, [], []⟩
  | active {st : Keepalive} (h : s.activity = true) :
      KeepaliveExec s (.maintenance st) ⟨{ s with activity := false }, [.maintenance st], []⟩
  | pongWakeup {st : Keepalive} {nonce : UInt64} (h : s.pong = some nonce) :
      KeepaliveExec s (.maintenance st) ⟨{ s with pong := none }, [.consumePong st], []⟩
  | keepaliveBusy {st : Keepalive} (harmed : st.keepalive = true) (h : st.outstanding ≠ 0) :
      KeepaliveExec s (.maintenance st) ⟨s, [.maintenance st], []⟩
  | keepaliveTick {st : Keepalive} (harmed : st.keepalive = true) (h : st.outstanding = 0) :
      KeepaliveExec s (.maintenance st) ⟨s, [.beginPing st], []⟩
  | pongDeadline {st : Keepalive} (harmed : st.pongDeadline = true) :
      KeepaliveExec s (.maintenance st) ⟨s, [.pongExpired st], []⟩
  | idle {st : Keepalive} (h : 0 < s.config.idleTimeout) :
      KeepaliveExec s (.maintenance st)
        ⟨s, [.closeOnce idleClose Sentinel.idleTimeout.bare], []⟩
  | pongStale {st : Keepalive} (h : st.outstanding = 0) :
      KeepaliveExec s (.consumePong st) ⟨s, [.maintenance st], []⟩
  | pongConsumed {st : Keepalive} (h : st.outstanding ≠ 0) (hack : s.pingAcknowledged = true) :
      KeepaliveExec s (.consumePong st)
        ⟨{ s with pingAcknowledged := false }, [.maintenance ⟨0, true, false⟩], []⟩
  | pongMissing {st : Keepalive} (h : st.outstanding ≠ 0) (hack : s.pingAcknowledged = false) :
      KeepaliveExec s (.consumePong st) ⟨s, [.maintenance st], []⟩
  | pingCanceled {st : Keepalive} (h : s.cancelCause ≠ none) :
      KeepaliveExec s (.beginPing st) ⟨s, [], []⟩
  | pingBegun {st : Keepalive} (h : s.cancelCause = none) :
      KeepaliveExec s (.beginPing st)
        ⟨{ s with
            pingExpected := s.nextPing
            pingAcknowledged := false
            pingNonce := s.nextPing },
          [.enqueue (enqueueControl (.pingPong ⟨false, s.nextPing⟩) false
            (.ping { st with outstanding := s.nextPing }))], []⟩
  | deadlineAnswered {st : Keepalive} (hack : s.pingAcknowledged = true) :
      KeepaliveExec s (.pongExpired st)
        ⟨{ s with pingAcknowledged := false }, [.maintenance ⟨0, true, false⟩], []⟩
  | deadlineMissed {st : Keepalive} (hack : s.pingAcknowledged = false) :
      KeepaliveExec s (.pongExpired st) ⟨s, shutdown Sentinel.keepaliveTimeout.bare, []⟩

/-- One instruction of any goroutine. -/
inductive Exec (P : Primitives) (s : Connection) (i : Instr)
    (effect : Effect Connection Instr) : Prop where
  | lifecycle (h : LifecycleExec s i effect)
  | queue (h : QueueExec s i effect)
  | write (h : WriteExec P s i effect)
  | receive (h : ReceiveExec P s i effect)
  | keepalive (h : KeepaliveExec s i effect)

/-! ## What the rules leave alone -/

section Frames

variable {P : Primitives} {s : Connection} {i : Instr} {effect : Effect Connection Instr}

/-- The state `s'` with what the rules of `Start`, `Close` and `shutdown` leave alone. -/
abbrev Connection.lifecyclePart (s s' : Connection) : Connection :=
  { s' with
    config := s.config, callers := s.callers, outbound := s.outbound, control := s.control,
    activity := s.activity, pong := s.pong, pingNonce := s.pingNonce, writeLane := s.writeLane,
    wire := s.wire, completions := s.completions, results := s.results,
    handlerResults := s.handlerResults, accepted := s.accepted, returned := s.returned,
    waited := s.waited, sent := s.sent, written := s.written, received := s.received,
    invoked := s.invoked, handlersRunning := s.handlersRunning }

theorem LifecycleExec.frame (h : LifecycleExec s i effect) :
    effect.state = s.lifecyclePart effect.state := by
  cases h <;> rfl

/-- The state `s` with what the rules of the queues may change. -/
abbrev Connection.queuePart (s s' : Connection) : Connection :=
  { s with
    outbound := s'.outbound, control := s'.control, closeRequest := s'.closeRequest,
    readers := s'.readers, completions := s'.completions, results := s'.results,
    accepted := s'.accepted, returned := s'.returned, waited := s'.waited }

theorem QueueExec.frame (h : QueueExec s i effect) :
    effect.state = s.queuePart effect.state := by
  cases h <;> rfl

/-- The state `s` with what the rules of `writeLoop` may change. -/
abbrev Connection.writePart (s s' : Connection) : Connection :=
  { s with
    session := s'.session, outbound := s'.outbound, control := s'.control,
    closeRequest := s'.closeRequest, writeLane := s'.writeLane, wire := s'.wire, sent := s'.sent,
    written := s'.written }

theorem WriteExec.frame (h : WriteExec P s i effect) :
    effect.state = s.writePart effect.state := by
  cases h <;> rfl

/-- The state `s` with what the rules of `readLoop` and of the handlers may change. -/
abbrev Connection.receivePart (s s' : Connection) : Connection :=
  { s with
    session := s'.session, activity := s'.activity, pong := s'.pong,
    handlerQueue := s'.handlerQueue, readers := s'.readers, pingExpected := s'.pingExpected,
    pingAcknowledged := s'.pingAcknowledged, nextChannel := s'.nextChannel,
    handlerResults := s'.handlerResults, received := s'.received, invoked := s'.invoked,
    handlersRunning := s'.handlersRunning }

theorem ReceiveExec.frame (h : ReceiveExec P s i effect) :
    effect.state = s.receivePart effect.state := by
  cases h <;> rfl

/-- The state `s` with what the rules of `maintenanceLoop` may change. -/
abbrev Connection.keepalivePart (s s' : Connection) : Connection :=
  { s with
    activity := s'.activity, pong := s'.pong, pingNonce := s'.pingNonce,
    pingExpected := s'.pingExpected, pingAcknowledged := s'.pingAcknowledged }

theorem KeepaliveExec.frame (h : KeepaliveExec s i effect) :
    effect.state = s.keepalivePart effect.state := by
  cases h <;> rfl

end Frames

/-! ## The callers -/

/-- A call of a user, a server or a handler. -/
inductive ApiCall where
  | start (ctx : Context)
  | close
  | abort (cause : Error)
  | enqueueChannel (ctx : Context) (queue : QueueName) (message : AnyValue) (padLength : UInt8)
      (wait completion : Bool)
  | sendPaddedAndWait (ctx : Context) (message : AnyValue) (padLength : UInt8)

namespace ApiCall

/-- `SendPadded`. -/
def sendPadded (message : AnyValue) (padLength : UInt8) : ApiCall :=
  .enqueueChannel .background .outbound message padLength false false

/-- `Send` and `TrySend`. -/
def send (message : AnyValue) : ApiCall := sendPadded message 0

/-- `SendPaddedContext`. -/
def sendPaddedContext (ctx : Context) (message : AnyValue) (padLength : UInt8) : ApiCall :=
  .enqueueChannel ctx .outbound message padLength true false

/-- `SendContext`. -/
def sendContext (ctx : Context) (message : AnyValue) : ApiCall :=
  sendPaddedContext ctx message 0

/-- `SendAndWait`. -/
def sendAndWait (ctx : Context) (message : AnyValue) : ApiCall :=
  .sendPaddedAndWait ctx message 0

/-- The instructions of a call whose completion channel, if it makes one, is `channel`. -/
def program (channel : Nat) : ApiCall → List Instr
  | .start ctx => [.startOnce ctx]
  | .close => [.closeOnce localShutdown Sentinel.connectionClosed.bare]
  | .abort cause => shutdown cause
  | .enqueueChannel ctx queue message padLength wait completion =>
      [.enqueue ⟨ctx, queue, ⟨message, padLength, if completion then some channel else none⟩,
        wait, .caller⟩]
  | .sendPaddedAndWait ctx message padLength =>
      [.enqueue ⟨ctx, .outbound, ⟨message, padLength, some channel⟩, true, .awaitCompletion⟩]

end ApiCall

/-- What happens outside of the goroutines: a call begins, or the context of a caller
ends. -/
inductive Ambient (s : Connection) : Connection → List (List Instr) → Prop where
  | call (api : ApiCall) :
      Ambient s { s with nextChannel := s.nextChannel + 1 } [api.program s.nextChannel]
  | cancelCaller (id : Nat) (err : Error) (h : s.callers id = none) :
      Ambient s { s with callers := Function.update s.callers id (some err) } []

/-- The connection as a pool of goroutines. -/
def connectionMachine (P : Primitives) : Machine Connection Instr :=
  ⟨Exec P, Ambient⟩

/-- A new connection, before any call. -/
def connectionStart (session : Session) (config : ConnectionConfig) : Pool Connection Instr :=
  ⟨newConnection session config, []⟩

end DgProto
