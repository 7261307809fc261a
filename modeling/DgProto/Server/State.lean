import DgProto.Connection.Exec
import DgProto.Connection.Settings
import Mathlib.Data.Finset.Card

/-!
# The state of a server and its instructions

A `Server` accepts sockets, lets a worker complete the handshake of each, and hands the
socket over to a `Connection`.  A socket is named by the number with which it was
accepted, and so are its worker and its connection: a worker makes at most one.

The two maps are finite sets of names, the two capacity channels the number of tokens in
them.  The connection of a worker is a whole pool of goroutines of its own, in the state
that its calls and its peer have brought it to; the server only calls its methods and
waits for them.

As in `Connection`, an instruction is one access to the shared state, or one critical
section of `mu`, with the values that the goroutine has at hand.
-/

namespace DgProto

open Library Crypto

/-! ## State -/

/-- `AdmissionInfo`.  The address is that of the socket. -/
structure AdmissionInfo where
  peerStatic : Octets 32
  sessionID : Octets 16

/-- `ServerStats`. -/
structure ServerStats where
  handshakeSlotsUsed : Nat
  handshakeSlotsCapacity : Nat
  connectionSlotsUsed : Nat
  connectionSlotsCapacity : Nat
  pendingConnections : Nat
  activeConnections : Nat
  shuttingDown : Bool
  deriving DecidableEq

/-- What `beginShutdown` returns. -/
structure Snapshot where
  listener : Option Nat
  conns : List Nat
  handshakeConns : List Nat

/-- The maps from which a `Stats` call took its counts. -/
structure Sample where
  handshakeConns : Finset Nat
  conns : Finset Nat
  stats : ServerStats
  deriving DecidableEq

/-- The two ways to shut a server down. -/
inductive ShutdownKind where
  | close
  | abort
  deriving DecidableEq

/-- `Server`, with its sockets and the connections that its workers have made. -/
structure Server where
  config : ServerSetup
  listener : Option Nat
  /-- The map `conns`, by the sockets of the connections. -/
  conns : Finset Nat
  handshakeConns : Finset Nat
  /-- The tokens in the channel `handshakes`. -/
  handshakes : Nat
  /-- The tokens in the channel `connSlots`. -/
  connSlots : Nat
  closed : Bool
  inShutdown : Bool
  wg : Nat
  /-- The name of the next socket. -/
  nextSocket : Nat
  /-- The sockets that were closed by the server or the deferred call of a worker. -/
  closedSockets : Nat → Bool
  /-- The listeners that the server has closed. -/
  closedListeners : List Nat
  /-- The connections made so far, with their goroutines. -/
  runtimes : Nat → Option (Pool Connection Instr)
  -- history
  handshakesAcquired : List Nat
  handshakesReleased : List Nat
  slotsAcquired : List Nat
  slotsReleased : List Nat
  /-- The sockets for which `registerHandshake` returned true. -/
  registered : List Nat
  /-- The workers that have returned. -/
  returned : List Nat
  /-- The frames that the handshakes have read, each with its socket. -/
  handshakeReads : List (Nat × Wire.Frame)
  /-- The results of `Admission`. -/
  admissions : List (Nat × AdmissionInfo × Option Error)
  /-- The calls of `OnDisconnect`, each with the cause that it was given. -/
  disconnects : List (Nat × AdmissionInfo × Option Error)
  snapshots : List Snapshot
  samples : List Sample
  serveReturns : List Error
  shutdownReturns : List (ShutdownKind × Option Error)

namespace Server

/-- The server that `NewServer` makes of a checked configuration. -/
def new (config : ServerSetup) : Server where
  config := config
  listener := none
  conns := ∅
  handshakeConns := ∅
  handshakes := 0
  connSlots := 0
  closed := false
  inShutdown := false
  wg := 0
  nextSocket := 0
  closedSockets := fun _ => false
  closedListeners := []
  runtimes := fun _ => none
  handshakesAcquired := []
  handshakesReleased := []
  slotsAcquired := []
  slotsReleased := []
  registered := []
  returned := []
  admissions := []
  disconnects := []
  handshakeReads := []
  snapshots := []
  samples := []
  serveReturns := []
  shutdownReturns := []

/-- `cap(s.handshakes)`. -/
def handshakeCapacity (s : Server) : Nat := s.config.maxConcurrentHandshakes.toNat

/-- `cap(s.connSlots)`. -/
def connCapacity (s : Server) : Nat := s.config.maxActiveConnections.toNat

/-- The socket has been closed, by the server, by its worker or by its connection. -/
def SocketClosed (s : Server) (n : Nat) : Prop :=
  s.closedSockets n = true ∨ ∃ pool, s.runtimes n = some pool ∧ pool.state.transportClosed = true

end Server

/-- `NewServer`. -/
def newServer (N : HandshakePrimitives) (config : ServerSetup) : Except Error Server :=
  (newServerConfig N config).map Server.new

/-! ## Instructions -/

/-- One access of a goroutine of the server to the shared state. -/
inductive ServerInstr where
  -- Serve
  | serve (listener : Option Nat)
  | accept (listener : Nat) (delay : Duration)
  | acceptFailed (listener : Nat) (delay : Duration) (err : Error) (retryable : Bool)
  | backoff (listener : Nat) (delay : Duration)
  | acquireHandshake (listener n : Nat)
  | registerHandshake (listener n : Nat)
  | launchWorker (listener n : Nat)
  -- handleConn
  | performHandshake (n : Nat)
  | exchange (n : Nat) (driver : Exchange HandshakeOutcome)
  | releaseHandshake (n : Nat)
  | acquireConn (n : Nat) (session : Session) (info : AdmissionInfo)
  | callAdmission (n : Nat) (info : AdmissionInfo)
  | registerConn (n : Nat)
  | launchWatcher (n : Nat)
  | watchClosed (n : Nat)
  | callConn (n : Nat) (api : ApiCall)
  | awaitCall (n : Nat) (api : ApiCall) (k : Nat)
  | awaitDone (n : Nat)
  | cancelConn (n : Nat)
  | unregisterConn (n : Nat)
  | callDisconnect (n : Nat) (info : AdmissionInfo)
  | releaseConn (n : Nat)
  | closeSocket (n : Nat)
  | unregisterHandshake (n : Nat)
  | workerDone (n : Nat)
  -- Close and Abort
  | beginShutdown (kind : ShutdownKind)
  | closeListener (kind : ShutdownKind) (snapshot : Snapshot)
  | awaitWorkers
  | returnShutdown (kind : ShutdownKind) (err : Option Error)
  -- Stats
  | stats
  | countHandshakes (sample : Sample)
  | countConns (sample : Sample)

/-! ## Programs -/

/-- `acceptDelay` after another temporary error: 5 milliseconds, then twice as long, up to a
second. -/
def nextAcceptDelay (delay : Duration) : Duration :=
  min (if delay = 0 then 5000000 else delay * 2) 1000000000

/-- The context that `handleConn` makes for `Start`. -/
def connContext : Context := .caller 0

/-- The goroutine of a worker: `handleConn` up to the handshake, its first two deferred calls
and the end of the worker. -/
def workerProgram (n : Nat) : List ServerInstr :=
  [.performHandshake n, .closeSocket n, .unregisterHandshake n, .workerDone n]

/-- `handleConn` after `Admission`: the deferred call of the hook and the handoff. -/
def handoff (config : ServerSetup) (n : Nat) (info : AdmissionInfo) : List ServerInstr :=
  .registerConn n :: if config.onDisconnect then [.callDisconnect n info] else []

/-- `handleConn` once it has a connection slot, which it releases in a deferred call. -/
def afterSlot (config : ServerSetup) (n : Nat) (info : AdmissionInfo) : List ServerInstr :=
  (if config.admission then [.callAdmission n info] else handoff config n info) ++
    [.releaseConn n]

/-- `handleConn` after the handoff. -/
def runConn (n : Nat) : List ServerInstr :=
  [.launchWatcher n, .callConn n (.start connContext), .awaitDone n, .cancelConn n,
    .unregisterConn n]

/-- What a shutdown does to each connection. -/
def ShutdownKind.api : ShutdownKind → ApiCall
  | .close => .close
  | .abort => .abort Sentinel.connectionClosed.bare

/-- `Close` and `Abort` after the listener: `Close` also waits for the workers. -/
def shutdownProgram (kind : ShutdownKind) (snapshot : Snapshot) (err : Option Error) :
    List ServerInstr :=
  snapshot.handshakeConns.map .closeSocket ++
    snapshot.conns.map (fun n => .callConn n kind.api) ++
    (if kind = .close then [.awaitWorkers] else []) ++ [.returnShutdown kind err]

theorem mem_shutdownProgram {kind : ShutdownKind} {snapshot : Snapshot} {err : Option Error}
    {i : ServerInstr} (h : i ∈ shutdownProgram kind snapshot err) :
    (∃ n, i = .closeSocket n) ∨ (∃ n, i = .callConn n kind.api) ∨ i = .awaitWorkers ∨
      i = .returnShutdown kind err := by
  simp only [shutdownProgram, List.mem_append, List.mem_map, List.mem_singleton] at h
  rcases h with ((⟨n, -, rfl⟩ | ⟨n, -, rfl⟩) | hwait) | hreturn
  · exact .inl ⟨n, rfl⟩
  · exact .inr (.inl ⟨n, rfl⟩)
  · split_ifs at hwait with hclose
    · exact .inr (.inr (.inl (List.mem_singleton.mp hwait)))
    · exact absurd hwait List.not_mem_nil
  · exact .inr (.inr (.inr hreturn))

end DgProto
