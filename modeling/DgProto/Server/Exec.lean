import DgProto.Server.State

/-!
# What the instructions of a server do

One relation for each part of the source: `Serve`, the worker of `handleConn`, the runtime
of a connection that was handed off, and the shutdown with `Stats`.  What comes from
outside is an argument of a rule: the results of `Accept`, the frames of the peer during
the handshake, what `Admission` decides and the order in which a map is walked.

The goroutines of a connection take their own steps, beside those of the server.
-/

namespace DgProto

open Library Crypto

/-! ## Connections -/

/-- A call of a method of the connection begins. -/
def callRuntime (runtime : Pool Connection Instr) (api : ApiCall) : Pool Connection Instr :=
  ⟨{ runtime.state with nextChannel := runtime.state.nextChannel + 1 },
    runtime.threads ++ [api.program runtime.state.nextChannel]⟩

/-- `connCancel`. -/
def cancelRuntime (runtime : Pool Connection Instr) : Pool Connection Instr :=
  { runtime with
    state := { runtime.state with
      callers := Function.update runtime.state.callers 0
        (some ((runtime.state.callers 0).getD Sentinel.contextCanceled.bare)) } }

section Runtimes

variable {P : Primitives} (runtime : Pool Connection Instr)

theorem callRuntime_step (api : ApiCall) :
    (connectionMachine P).Step runtime (callRuntime runtime api) :=
  .ambient (.call api)

theorem cancelRuntime_reaches : (connectionMachine P).Reaches runtime (cancelRuntime runtime) := by
  cases hcaller : runtime.state.callers 0 with
  | none =>
      have hstep : (connectionMachine P).Step runtime ⟨_, runtime.threads ++ []⟩ :=
        .ambient (.cancelCaller 0 Sentinel.contextCanceled.bare hcaller)
      rw [List.append_nil] at hstep
      unfold cancelRuntime
      rw [hcaller]
      exact .single hstep
  | some err =>
      -- the context has been canceled before
      have hsame : cancelRuntime runtime = runtime := by
        unfold cancelRuntime
        rw [hcaller, Option.getD_some, Function.update_eq_self_iff.mpr hcaller.symm]
      rw [hsame]
      exact .refl

end Runtimes

/-! ## Rules -/

/-- `Serve`, with `registerHandshake`. -/
inductive ServeExec (s : Server) : ServerInstr → Effect Server ServerInstr → Prop where
  | nilListener :
      ServeExec s (.serve none)
        ⟨{ s with serveReturns := s.serveReturns ++ [settingsError "nil listener"] }, [], []⟩
  | serveClosed {listener : Nat} (h : s.inShutdown = true) :
      ServeExec s (.serve (some listener))
        ⟨{ s with serveReturns := s.serveReturns ++ [Sentinel.serverClosed.bare] }, [], []⟩
  | serve {listener : Nat} (h : s.inShutdown = false) :
      ServeExec s (.serve (some listener))
        ⟨{ s with listener := some listener }, [.accept listener 0], []⟩
  | accepted {listener : Nat} {delay : Duration} :
      ServeExec s (.accept listener delay)
        ⟨{ s with nextSocket := s.nextSocket + 1 },
          [.acquireHandshake listener s.nextSocket], []⟩
  | acceptFailed {listener : Nat} {delay : Duration} (err : Error) (retryable : Bool) :
      ServeExec s (.accept listener delay) ⟨s, [.acceptFailed listener delay err retryable], []⟩
  | acceptClosed {listener : Nat} {delay : Duration} {err : Error} {retryable : Bool}
      (h : s.inShutdown = true) :
      ServeExec s (.acceptFailed listener delay err retryable)
        ⟨{ s with serveReturns := s.serveReturns ++ [Sentinel.serverClosed.bare] }, [], []⟩
  | acceptRetried {listener : Nat} {delay : Duration} {err : Error} (h : s.inShutdown = false) :
      ServeExec s (.acceptFailed listener delay err true)
        ⟨s, [.backoff listener (nextAcceptDelay delay)], []⟩
  | acceptGivenUp {listener : Nat} {delay : Duration} {err : Error} (h : s.inShutdown = false) :
      ServeExec s (.acceptFailed listener delay err false)
        ⟨{ s with serveReturns := s.serveReturns ++ [err] }, [], []⟩
  | backoffElapsed {listener : Nat} {delay : Duration} :
      ServeExec s (.backoff listener delay) ⟨s, [.accept listener delay], []⟩
  | backoffClosed {listener : Nat} {delay : Duration} (h : s.closed = true) :
      ServeExec s (.backoff listener delay)
        ⟨{ s with serveReturns := s.serveReturns ++ [Sentinel.serverClosed.bare] }, [], []⟩
  | handshakeAcquired {listener n : Nat} (h : s.handshakes < s.handshakeCapacity) :
      ServeExec s (.acquireHandshake listener n)
        ⟨{ s with handshakes := s.handshakes + 1
                  handshakesAcquired := s.handshakesAcquired ++ [n] },
          [.registerHandshake listener n], []⟩
  | handshakesFull {listener n : Nat} (h : s.handshakeCapacity ≤ s.handshakes) :
      ServeExec s (.acquireHandshake listener n) ⟨s, [.closeSocket n, .accept listener 0], []⟩
  | handshakeRegistered {listener n : Nat} (h : s.inShutdown = false) :
      ServeExec s (.registerHandshake listener n)
        ⟨{ s with handshakeConns := insert n s.handshakeConns, wg := s.wg + 1
                  registered := s.registered ++ [n] },
          [.launchWorker listener n], []⟩
  | registrationRefused {listener n : Nat} (h : s.inShutdown = true) :
      ServeExec s (.registerHandshake listener n)
        ⟨s, [.releaseHandshake n, .closeSocket n, .accept listener 0], []⟩
  | launchWorker {listener n : Nat} :
      ServeExec s (.launchWorker listener n) ⟨s, [.accept listener 0], [workerProgram n]⟩

/-- `handleConn` up to the handoff, its deferred calls and the end of the worker. -/
inductive WorkerExec (N : HandshakePrimitives) (P : Primitives) (s : Server) :
    ServerInstr → Effect Server ServerInstr → Prop where
  | performHandshake {n : Nat} (random : Reader) (now : Time) :
      WorkerExec N P s (.performHandshake n)
        ⟨s, [.exchange n (performHandshake N P s.config.toServerConfig random now)], []⟩
  | frameWritten {n : Nat} {frame : Wire.Frame}
      {next : Except Error Unit → Exchange HandshakeOutcome} (answer : Except Error Unit) :
      WorkerExec N P s (.exchange n (.writeFrame frame next))
        ⟨s, [.exchange n (next answer)], []⟩
  | frameRead {n : Nat} {next : Except Error Wire.Frame → Exchange HandshakeOutcome}
      (frame : Wire.Frame) :
      WorkerExec N P s (.exchange n (.readFrame next))
        ⟨{ s with handshakeReads := s.handshakeReads ++ [(n, frame)] },
          [.exchange n (next (.ok frame))], []⟩
  | readFailed {n : Nat} {next : Except Error Wire.Frame → Exchange HandshakeOutcome}
      (err : Error) :
      WorkerExec N P s (.exchange n (.readFrame next)) ⟨s, [.exchange n (next (.error err))], []⟩
  | handshakeFailed {n : Nat} {err : Error} {result : HandshakeResult} :
      WorkerExec N P s (.exchange n (.done (.error err, result)))
        ⟨s, [.releaseHandshake n, .closeSocket n], []⟩
  | handshakeDone {n : Nat} {session : Session} {result : HandshakeResult} :
      WorkerExec N P s (.exchange n (.done (.ok session, result)))
        ⟨s, [.releaseHandshake n, .acquireConn n session ⟨result.peerStatic, result.sessionID⟩],
          []⟩
  | releaseHandshake {n tokens : Nat} (h : s.handshakes = tokens + 1) :
      WorkerExec N P s (.releaseHandshake n)
        ⟨{ s with handshakes := tokens, handshakesReleased := s.handshakesReleased ++ [n] },
          [], []⟩
  | connAcquired {n : Nat} {session : Session} {info : AdmissionInfo}
      (h : s.connSlots < s.connCapacity) :
      WorkerExec N P s (.acquireConn n session info)
        ⟨{ s with connSlots := s.connSlots + 1, slotsAcquired := s.slotsAcquired ++ [n]
                  runtimes := Function.update s.runtimes n
                    (some (connectionStart session s.config.connConfig)) },
          afterSlot s.config n info, []⟩
  | connsFull {n : Nat} {session : Session} {info : AdmissionInfo}
      (h : s.connCapacity ≤ s.connSlots) :
      WorkerExec N P s (.acquireConn n session info) ⟨s, [.closeSocket n], []⟩
  | admissionAccepted {n : Nat} {info : AdmissionInfo} :
      WorkerExec N P s (.callAdmission n info)
        ⟨{ s with admissions := s.admissions ++ [(n, info, none)] }, handoff s.config n info, []⟩
  | admissionRejected {n : Nat} {info : AdmissionInfo} (err : Error) :
      WorkerExec N P s (.callAdmission n info)
        ⟨{ s with admissions := s.admissions ++ [(n, info, some err)] },
          [.callConn n .close], []⟩
  | admissionPanicked {n : Nat} {info : AdmissionInfo} (recovered : String) :
      WorkerExec N P s (.callAdmission n info)
        ⟨{ s with admissions := s.admissions ++
            [(n, info, some (Sentinel.handshakeFailed.wrap s!"admission panic: {recovered}"))] },
          [.callConn n .close], []⟩
  | handedOff {n : Nat} (h : s.inShutdown = false) :
      WorkerExec N P s (.registerConn n)
        ⟨{ s with conns := insert n s.conns, handshakeConns := s.handshakeConns.erase n },
          runConn n, []⟩
  | handoffRefused {n : Nat} (h : s.inShutdown = true) :
      WorkerExec N P s (.registerConn n) ⟨s, [.callConn n .close], []⟩
  | unregisterConn {n : Nat} :
      WorkerExec N P s (.unregisterConn n) ⟨{ s with conns := s.conns.erase n }, [], []⟩
  | releaseConn {n tokens : Nat} (h : s.connSlots = tokens + 1) :
      WorkerExec N P s (.releaseConn n)
        ⟨{ s with connSlots := tokens, slotsReleased := s.slotsReleased ++ [n] }, [], []⟩
  | closeSocket {n : Nat} :
      WorkerExec N P s (.closeSocket n)
        ⟨{ s with closedSockets := Function.update s.closedSockets n true }, [], []⟩
  | unregisterHandshake {n : Nat} :
      WorkerExec N P s (.unregisterHandshake n)
        ⟨{ s with handshakeConns := s.handshakeConns.erase n }, [], []⟩
  | workerDone {n workers : Nat} (h : s.wg = workers + 1) :
      WorkerExec N P s (.workerDone n)
        ⟨{ s with wg := workers, returned := s.returned ++ [n] }, [], []⟩

/-- What the server does with a connection. -/
inductive RuntimeExec (s : Server) : ServerInstr → Effect Server ServerInstr → Prop where
  | launchWatcher {n : Nat} : RuntimeExec s (.launchWatcher n) ⟨s, [], [[.watchClosed n]]⟩
  | watchShutdown {n : Nat} (h : s.closed = true) :
      RuntimeExec s (.watchClosed n) ⟨s, [.callConn n .close], []⟩
  | watchEnded {n : Nat} {runtime : Pool Connection Instr} (h : s.runtimes n = some runtime)
      (hended : runtime.state.err connContext ≠ none) : RuntimeExec s (.watchClosed n) ⟨s, [], []⟩
  | callConn {n : Nat} {api : ApiCall} {runtime : Pool Connection Instr}
      (h : s.runtimes n = some runtime) :
      RuntimeExec s (.callConn n api)
        ⟨{ s with runtimes := Function.update s.runtimes n (some (callRuntime runtime api)) },
          [.awaitCall n api runtime.threads.length], []⟩
  | callReturned {n k : Nat} {api : ApiCall} {runtime : Pool Connection Instr}
      (h : s.runtimes n = some runtime) (hreturned : runtime.threads[k]? = some []) :
      RuntimeExec s (.awaitCall n api k) ⟨s, [], []⟩
  | done {n : Nat} {runtime : Pool Connection Instr} (h : s.runtimes n = some runtime)
      (hdone : 0 < runtime.state.doneCloses) : RuntimeExec s (.awaitDone n) ⟨s, [], []⟩
  | cancelConn {n : Nat} {runtime : Pool Connection Instr} (h : s.runtimes n = some runtime) :
      RuntimeExec s (.cancelConn n)
        ⟨{ s with runtimes := Function.update s.runtimes n (some (cancelRuntime runtime)) }, [], []⟩
  /-- `callDisconnect`, whether the hook returns or panics. -/
  | callDisconnect {n : Nat} {info : AdmissionInfo} {runtime : Pool Connection Instr}
      (h : s.runtimes n = some runtime) :
      RuntimeExec s (.callDisconnect n info)
        ⟨{ s with disconnects := s.disconnects ++ [(n, info, runtime.state.terminal)] }, [], []⟩

/-- `Close`, `Abort` and `Stats`. -/
inductive ShutdownExec (s : Server) : ServerInstr → Effect Server ServerInstr → Prop where
  | beginShutdown {kind : ShutdownKind} (snapshot : Snapshot)
      (hlistener : snapshot.listener = s.listener)
      (hconns : snapshot.conns.Nodup ∧ snapshot.conns.toFinset = s.conns)
      (hhandshakes : snapshot.handshakeConns.Nodup ∧
        snapshot.handshakeConns.toFinset = s.handshakeConns) :
      ShutdownExec s (.beginShutdown kind)
        ⟨{ s with inShutdown := true, closed := true, snapshots := s.snapshots ++ [snapshot] },
          [.closeListener kind snapshot], []⟩
  | closeListener {kind : ShutdownKind} {snapshot : Snapshot} (err : Option Error)
      (h : snapshot.listener = none → err = none) :
      ShutdownExec s (.closeListener kind snapshot)
        ⟨{ s with closedListeners := s.closedListeners ++ snapshot.listener.toList },
          shutdownProgram kind snapshot err, []⟩
  | awaitWorkers (h : s.wg = 0) : ShutdownExec s .awaitWorkers ⟨s, [], []⟩
  | returnShutdown {kind : ShutdownKind} {err : Option Error} :
      ShutdownExec s (.returnShutdown kind err)
        ⟨{ s with shutdownReturns := s.shutdownReturns ++ [(kind, err)] }, [], []⟩
  | stats :
      ShutdownExec s .stats
        ⟨s, [.countHandshakes ⟨s.handshakeConns, s.conns,
          ⟨0, 0, 0, 0, s.handshakeConns.card, s.conns.card, s.inShutdown⟩⟩], []⟩
  | countHandshakes {sample : Sample} :
      ShutdownExec s (.countHandshakes sample)
        ⟨s, [.countConns { sample with
          stats := { sample.stats with
            handshakeSlotsUsed := s.handshakes
            handshakeSlotsCapacity := s.handshakeCapacity } }], []⟩
  | countConns {sample : Sample} :
      ShutdownExec s (.countConns sample)
        ⟨{ s with samples := s.samples ++ [{ sample with
          stats := { sample.stats with
            connectionSlotsUsed := s.connSlots
            connectionSlotsCapacity := s.connCapacity } }] }, [], []⟩

/-- One instruction of any goroutine of the server. -/
inductive ServerExec (N : HandshakePrimitives) (P : Primitives) (s : Server) (i : ServerInstr)
    (effect : Effect Server ServerInstr) : Prop where
  | serve (h : ServeExec s i effect)
  | worker (h : WorkerExec N P s i effect)
  | runtime (h : RuntimeExec s i effect)
  | shutdown (h : ShutdownExec s i effect)

/-- What happens outside of the goroutines of the server: a call of one of its methods, or a
step of a connection, its goroutines and its callers.  Only the worker cancels the context
that it gave to `Start`. -/
inductive ServerAmbient (P : Primitives) (s : Server) :
    Server → List (List ServerInstr) → Prop where
  | serve (listener : Option Nat) : ServerAmbient P s s [[.serve listener]]
  | shutdown (kind : ShutdownKind) : ServerAmbient P s s [[.beginShutdown kind]]
  | stats : ServerAmbient P s s [[.stats]]
  | runtime {n : Nat} {before after : Pool Connection Instr} (h : s.runtimes n = some before)
      (hstep : (connectionMachine P).Step before after)
      (hcontext : after.state.callers 0 = before.state.callers 0) :
      ServerAmbient P s { s with runtimes := Function.update s.runtimes n (some after) } []

/-- The server as a pool of goroutines. -/
def serverMachine (N : HandshakePrimitives) (P : Primitives) : Machine Server ServerInstr :=
  ⟨ServerExec N P, ServerAmbient P⟩

/-- A new server, before any call. -/
def serverStart (server : Server) : Pool Server ServerInstr := ⟨server, []⟩

end DgProto
