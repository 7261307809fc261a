import DgProto.Client.Dial

/-!
# Where a dial stands

A call of `DialContext` or `DialAndStartContext` stands at one place of its program at a time,
whatever happens beside it.  `Stage` says what is true at each place: who owns the socket, what has
been closed and what has been returned.

* `establishClient_ensures`: the driver returns a result only for the pinned server.
* `Stilled`: a connection that nobody has started sends nothing and starts nothing, even while it
  is being closed.  `untouched_of_reaches`: one that nobody has called has its socket open.
* `Stage.exec`, `Stage.ambient`: the call goes from place to place, and nothing beside it changes
  what is true there.
-/

namespace DgProto

open Library Wire Crypto

/-! ## The pinned server -/

/-- What `establishClient` may return. -/
def Establishes (config : ClientConfig) : Except Error HandshakeResult → Prop
  | .ok result => result.peerStatic.val = config.serverStatic
  | .error err => err.is .handshakeFailed

namespace Handshake

variable {N : HandshakePrimitives} {h h' : Handshake N} {pin : List UInt8} {call : FlightCall}
  {outcome : Except Error (List UInt8)}

/-- The handshake expects a peer, and has no result of another one. -/
structure Pins (h : Handshake N) (pin : List UInt8) : Prop where
  expected : h.expectedPeer = pin
  result : ∀ result, h.result = some result → result.peerStatic.val = pin

theorem Called.pins (hcalled : Called h call h' outcome) (hset : pin ≠ []) (hpins : h.Pins pin) :
    h'.Pins pin := by
  cases hcalled with
  | refused => exact hpins
  | failed => exact ⟨hpins.expected, fun result hresult => by cases hresult⟩
  | advanced => exact ⟨hpins.expected, hpins.result⟩
  | completed hturn state out hstate hnoise hlast hpeer result hresult =>
      refine ⟨hpins.expected, fun result' hresult' => ?_⟩
      obtain rfl := Option.some.inj hresult'
      have hexpected : N.peerStatic out.state = h.expectedPeer :=
        hpeer.2 (by rw [hpins.expected]; exact hset)
      rw [hresult, hexpected, hpins.expected]

theorem Pins.writeFlight (hpins : h.Pins pin) (hset : pin ≠ []) : h.writeFlight.1.Pins pin :=
  (writeFlight_cases h).pins hset hpins

theorem Pins.readFlight (hpins : h.Pins pin) (hset : pin ≠ []) (wire : List UInt8) :
    (h.readFlight wire).1.Pins pin := by
  have hperform : (h.perform (.readFlight wire)).1 = (h.readFlight wire).1 := by
    unfold perform
    dsimp only
    split <;> simp_all
  rw [← hperform]
  exact (perform_cases h (.readFlight wire)).pins hset hpins

theorem pins_newHandshake {role : HandshakeRole} {static : StaticKey} {random : Reader}
    {prologue : List UInt8} (hnew : newHandshake N role static pin random prologue = .ok h) :
    h.Pins pin := by
  unfold newHandshake at hnew
  split at hnew
  · cases hnew
  · split at hnew
    · cases hnew
    · split at hnew
      · cases hnew
      · obtain rfl := Except.ok.inj hnew
        exact ⟨rfl, fun result hresult => by cases hresult⟩

theorem Pins.finalResult (hpins : h.Pins pin) {result : HandshakeResult}
    (hresult : h.finalResult = .ok result) : result.peerStatic.val = pin := by
  unfold Handshake.finalResult at hresult
  split at hresult
  · rename_i recorded _ hrecorded
    obtain rfl := Except.ok.inj hresult
    exact hpins.result _ hrecorded
  · cases hresult

end Handshake

theorem establishFail_ensures (config : ClientConfig) (err : Error) :
    (establishFail err).Ensures (Establishes config) :=
  (wrapBoth_is _ _ _).mpr (.inl rfl)

/-- The driver returns a result only for the pinned server, whatever it reads. -/
theorem establishClient_ensures (N : HandshakePrimitives) (config : ClientConfig) (random : Reader)
    (hset : config.serverStatic ≠ []) :
    (establishClient N config random).Ensures (Establishes config) := by
  have hfail := establishFail_ensures config
  unfold establishClient
  split
  · exact hfail _
  rename_i h hnew
  have hpins : h.Pins config.serverStatic := Handshake.pins_newHandshake hnew
  have hwrite := hpins.writeFlight hset
  split
  · exact hfail _
  rename_i h1 flight hflight
  rw [hflight] at hwrite
  intro written
  cases written with
  | error err => exact hfail err
  | ok =>
  intro answer
  cases answer with
  | error err => exact hfail err
  | ok response =>
  dsimp only
  split
  · exact hfail _
  have hread := Handshake.Pins.readFlight hwrite hset response.payload
  split
  · exact hfail _
  rename_i h2 hsecond
  rw [hsecond] at hread
  have hlast := Handshake.Pins.writeFlight hread hset
  split
  · exact hfail _
  rename_i h3 finish hthird
  rw [hthird] at hlast
  intro finished
  cases finished with
  | error err => exact hfail err
  | ok =>
  dsimp only
  split
  · exact hfail _
  · rename_i result hresult
    exact Handshake.Pins.finalResult hlast hresult

/-! ## A connection that was never started -/

/-- The instruction belongs to a `Close` of a connection that was never started. -/
@[simp] def Instr.unwinds : Instr → Bool
  | .closeOnce _ _ | .claimStart _ | .loadStarted _ _ | .endClose _ | .recordTerminal _
  | .shutdownOnce _ | .storeClosing | .cancel _ | .cancelOperations | .clearPing | .lockQueues
  | .failPending _ | .drain _ _ | .complete _ _ _ | .answer _ _ _ | .dropHandlers | .dropHandler
  | .unlockQueues | .closeSession | .closeTransport | .endShutdown | .returnShutdown | .closeDone
  | .endStart => true
  | _ => false

/-- Nobody has started the connection and nobody is going to. -/
structure Stilled (pool : Pool Connection Instr) : Prop where
  started : pool.state.started = false
  silent : pool.state.launched = [] ∧ pool.state.wire = [] ∧ pool.state.invoked = []
  threads : ∀ t ∈ pool.threads, ∀ i ∈ t, i.unwinds = true

section Stilled

variable {P : Primitives} {s : Connection} {i : Instr} {effect : Effect Connection Instr}

/-- What a closing goroutine does. -/
theorem Exec.unwinds (h : Exec P s i effect) (hi : i.unwinds = true)
    (hstarted : s.started = false) :
    effect.state.started = false ∧ effect.state.launched = s.launched ∧
      effect.state.wire = s.wire ∧ effect.state.invoked = s.invoked ∧
      (∀ j ∈ effect.pushed, j.unwinds = true) ∧ effect.spawned = [] := by
  cases h with
  | lifecycle h =>
      cases h with
      | wasStarted hwas => exact absurd (hstarted.symm.trans hwas) (by decide)
      | startFirst | startAgain | startCanceled | startLive | storeStarted | launchLoop
      | launchHelpers | watchCanceled | watchEnded | loopsJoined | finishJoin | exitLoop
      | leaseClose | checkCloseCanceled | checkCloseLive | requestAccepted | requestCanceled
      | requestExpired | closeAnswered | closeCanceled | closeExpired | preferAnswered
      | preferCanceled => cases hi
      | _ =>
          refine ⟨hstarted, rfl, rfl, rfl, ?_, rfl⟩
          simp [closeBody, stopUnstarted, shutdown, shutdownBody]
  | queue h =>
      cases h with
      | failPending | drainControl | drainOutbound | drainRequest | drained | complete | answer =>
          refine ⟨hstarted, rfl, rfl, rfl, ?_, rfl⟩
          simp
      | _ => cases hi
  | write h | receive h | keepalive h => cases h <;> cases hi

theorem Stilled.step {before after : Pool Connection Instr} (h : Stilled before)
    (hstep : (connectionMachine P).alone.Step before after) :
    Stilled after ∧ after.threads.length = before.threads.length := by
  cases hstep with
  | @thread s threads k i rest effect hk hexec =>
      have hexec : Exec P s i effect := hexec
      have hthread := h.threads _ (List.mem_of_getElem? hk)
      obtain ⟨hstarted, hlaunched, hwire, hinvoked, hpushed, hspawned⟩ :=
        hexec.unwinds (hthread i List.mem_cons_self) h.started
      obtain ⟨hl, hw, hv⟩ := h.silent
      refine ⟨⟨hstarted, ⟨hlaunched.trans hl, hwire.trans hw, hinvoked.trans hv⟩, ?_⟩, ?_⟩
      · intro t ht j hj
        rcases mem_set_append ht with rfl | hold | hnew
        · rcases List.mem_append.mp hj with hpush | hrest
          · exact hpushed j hpush
          · exact hthread j (List.mem_cons_of_mem _ hrest)
        · exact h.threads t hold j hj
        · rw [hspawned] at hnew
          exact absurd hnew List.not_mem_nil
      · simp [hspawned]
  | ambient hfalse => exact hfalse.elim

/-- A connection of which no method has been called is stopped, and its socket is open. -/
theorem untouched_of_reaches {session : Session} {config : ConnectionConfig}
    {pool : Pool Connection Instr}
    (h : (connectionMachine P).Reaches (connectionStart session config) pool)
    (huntouched : pool.threads = []) :
    pool.state.started = false ∧ pool.state.transportCloses = 0 := by
  refine (Machine.invariant_of_step (I := fun pool => pool.threads ≠ [] ∨
    pool.state.started = false ∧ pool.state.transportCloses = 0) ?_ (.inr ⟨rfl, rfl⟩)
      h).resolve_left (not_not.mpr huntouched)
  intro before after hbefore hstep
  cases hstep with
  | thread k hk hexec => exact .inl (List.ne_nil_of_mem (mem_set_append_self hk))
  | ambient hambient =>
      rcases hbefore with hcalled | hopen
      · exact .inl (List.append_ne_nil_of_left_ne_nil hcalled _)
      · cases hambient <;> exact .inr hopen

/-- A connection closes its transport once at the most. -/
theorem transportCloses_le {session : Session} {config : ConnectionConfig}
    {pool : Pool Connection Instr}
    (h : (connectionMachine P).Reaches (connectionStart session config) pool) :
    pool.state.transportCloses ≤ 1 := by
  have htotal : (pool.state.shutdownOnce.unclaimed + pool.state.transportCloses +
      load Stake.transport.weight pool.threads : Int) = 1 :=
    (orderly_of_reaches h).stakes .transport
  omega

end Stilled

/-! ## Where a call stands -/

/-- What follows a call of `DialContext`. -/
inductive AfterDial : List DialInstr → Prop where
  | handOver : AfterDial [.handOver]
  | startDialed : AfterDial [.startDialed]

namespace Dialer

/-- What the call has done to the network and to its connection. -/
structure Holds (s : Dialer) (dials : Nat) (answer : Option DialAnswer) (owned : Bool)
    (closes : Nat) : Prop where
  dials : s.dials = dials
  answer : s.answer = answer
  owned : s.owned = owned
  closes : s.socketCloses = closes
  conn : s.conn = none

/-- The call has nothing to return yet. -/
structure Pending (s : Dialer) (dials : Nat) (answer : Option DialAnswer) (owned : Bool)
    (closes : Nat) (session : Option Session) : Prop
    extends s.Holds dials answer owned closes where
  session : s.session = session
  shared : s.shared = false
  result : s.result = none

/-- The call has not made the context of the establishment. -/
structure Early (s : Dialer) : Prop extends s.Pending 0 none false 0 none where
  establishment : s.establishment = none

/-- Where an error comes from. -/
inductive Cause (N : HandshakePrimitives) (P : Primitives) (s : Dialer) : Error → Prop where
  | nilContext (h : s.dials = 0) : Cause N P s (Sentinel.invalidClientConfig.wrap "nil context")
  | config {err : Error} (h : s.dials = 0)
      (hconfig : normalizeClientConfig N s.config = .error err) : Cause N P s err
  | context {err : Error} (h : s.dials = 0) (hended : s.ctxErr = some err) : Cause N P s err
  | runtime {err : Error} (hended : s.runtimeErr = some err) : Cause N P s err
  | dialedNothing (h : s.dials = 1) (hanswer : s.answer = some ⟨false, none⟩) :
      Cause N P s (dialError Sentinel.transportClosed.bare)
  /-- The dialer has failed; the error of the context takes the place of its own. -/
  | dialFailed {socket closed : Bool} {err : Error} {ctxErr : Option Error} (h : s.dials = 1)
      (hanswer : s.answer = some ⟨socket, some err⟩)
      (hctx : ∀ e, ctxErr = some e → s.establishment = some (some e)) :
      Cause N P s (dialError (transportError ctxErr closed err))
  | establishment {err : Error} (hended : s.establishment = some (some err)) : Cause N P s err
  | handshake {err : Error} (hexchanged : s.exchanged = some (.error err))
      (h : err.is .handshakeFailed) : Cause N P s err
  | session {err : Error} {result : HandshakeResult} {now : Time}
      (hexchanged : s.exchanged = some (.ok result))
      (h : newSessionFromHandshake P cipherChaCha20Poly1305 result now = .error err) :
      Cause N P s err

/-- The call dials at most once, and only with a configuration that passed. -/
def Dials (N : HandshakePrimitives) (s : Dialer) : Prop :=
  s.dials = 0 ∨ s.dials = 1 ∧ ∃ config, normalizeClientConfig N s.config = .ok config

/-- The call is going to return an error. -/
structure Failing (N : HandshakePrimitives) (P : Primitives) (s : Dialer) (acquired owned : Bool)
    (closes : Nat) : Prop where
  dialed : s.Dials N
  acquired : s.acquired = acquired
  owned : s.owned = owned
  closes : s.socketCloses = closes
  conn : s.conn = none
  session : ∀ session, s.session = some session → session.closed = true
  result : ∃ err, s.result = some (.error err) ∧ s.Cause N P err

/-- The call has made a connection to the pinned server, of what its handshake has come to. -/
structure Dialed (N : HandshakePrimitives) (P : Primitives) (s : Dialer)
    (pool : Pool Connection Instr) (result : HandshakeResult) : Prop where
  conn : s.conn = some pool
  answer : s.answer = some ⟨true, none⟩
  exchanged : s.exchanged = some (.ok result)
  /-- The call has left the socket to the connection. -/
  socket : s.owned = false ∧ s.socketCloses = 0
  session : s.session = none
  dials : s.dials = 1
  context : pool.state.callers 0 = s.runtimeErr
  pinned : result.peerStatic.val = s.config.serverStatic
  made : ∃ config now session, normalizeClientConfig N s.config = .ok config ∧
    newSessionFromHandshake P cipherChaCha20Poly1305 result now = .ok session ∧
    (connectionMachine P).Reaches (connectionStart session config.connConfig) pool

/-- The call returns what the handshake has found out. -/
def Returns (s : Dialer) (result : HandshakeResult) : Prop :=
  s.result = some (.ok ⟨result.peerStatic, result.sessionID⟩)

/-- Nobody has touched the connection. -/
structure Fresh (N : HandshakePrimitives) (P : Primitives) (s : Dialer)
    (pool : Pool Connection Instr) (result : HandshakeResult) : Prop
    extends s.Dialed N P pool result where
  returns : s.Returns result
  stilled : Stilled pool
  threads : pool.threads = []
  shared : s.shared = false

/-- Only the call itself closes the connection, for this reason. -/
structure Closing (N : HandshakePrimitives) (P : Primitives) (s : Dialer)
    (pool : Pool Connection Instr) (result : HandshakeResult) (err : Error) : Prop
    extends s.Dialed N P pool result where
  stilled : Stilled pool
  stopping : Stopping True pool
  threads : pool.threads.length = 1
  shared : s.shared = false
  ended : s.runtimeErr = some err

end Dialer

/-- Where a call can stand, with the instructions that it has left. -/
inductive Stage (N : HandshakePrimitives) (P : Primitives) (s : Dialer) :
    List DialInstr → Prop where
  | dialAndStartContext {establishmentCtx runtimeCtx : Bool} (h : s.Early) :
      Stage N P s [.dialAndStartContext establishmentCtx runtimeCtx]
  | checkRuntime (h : s.Early) : Stage N P s [.checkRuntime]
  | dialContext {ctx : Bool} {rest : List DialInstr} (h : s.Early)
      (hrest : AfterDial rest) : Stage N P s (.dialContext ctx :: rest)
  | checkContext {config : ClientSetup} {rest : List DialInstr} (h : s.Early)
      (hrest : AfterDial rest) (hconfig : normalizeClientConfig N s.config = .ok config) :
      Stage N P s (.checkContext config :: rest)
  | withTimeout {config : ClientSetup} {rest : List DialInstr} (h : s.Early)
      (hrest : AfterDial rest) (hconfig : normalizeClientConfig N s.config = .ok config) :
      Stage N P s (.withTimeout config :: rest)
  | dial {config : ClientSetup} {rest : List DialInstr} (h : s.Pending 0 none false 0 none)
      (hrest : AfterDial rest) (hconfig : normalizeClientConfig N s.config = .ok config) :
      Stage N P s (.dial config :: .cancelEstablishment :: rest)
  | closeRaw {config : ClientSetup} {rest : List DialInstr} {closed : Bool} {err : Error}
      (h : s.Pending 1 (some ⟨true, some err⟩) false 0 none) (hrest : AfterDial rest)
      (hconfig : normalizeClientConfig N s.config = .ok config) :
      Stage N P s (.closeRaw :: .dialFailed closed err :: .cancelEstablishment :: rest)
  | dialFailed {config : ClientSetup} {rest : List DialInstr} {closed socket : Bool} {err : Error}
      (h : s.Pending 1 (some ⟨socket, some err⟩) false socket.toNat none) (hrest : AfterDial rest)
      (hconfig : normalizeClientConfig N s.config = .ok config) :
      Stage N P s (.dialFailed closed err :: .cancelEstablishment :: rest)
  | establishClient {config : ClientSetup} {rest : List DialInstr}
      (h : s.Pending 1 (some ⟨true, none⟩) true 0 none) (hrest : AfterDial rest)
      (hconfig : normalizeClientConfig N s.config = .ok config) :
      Stage N P s (.establishClient config :: .closeOwned :: .cancelEstablishment :: rest)
  | exchange {config : ClientSetup} {rest : List DialInstr}
      {driver : Exchange (Except Error HandshakeResult)}
      (h : s.Pending 1 (some ⟨true, none⟩) true 0 none) (hrest : AfterDial rest)
      (hconfig : normalizeClientConfig N s.config = .ok config)
      (hdriver : driver.Ensures (Establishes config.toClientConfig)) :
      Stage N P s (.exchange config driver :: .closeOwned :: .cancelEstablishment :: rest)
  | checkEstablishment {config : ClientSetup} {rest : List DialInstr} {session : Session}
      {result : HandshakeResult} {now : Time}
      (h : s.Pending 1 (some ⟨true, none⟩) true 0 (some session)) (hrest : AfterDial rest)
      (hconfig : normalizeClientConfig N s.config = .ok config)
      (hexchanged : s.exchanged = some (.ok result))
      (hsession : newSessionFromHandshake P cipherChaCha20Poly1305 result now = .ok session)
      (hpinned : result.peerStatic.val = config.serverStatic) :
      Stage N P s
        (.checkEstablishment config session result :: .closeOwned :: .cancelEstablishment :: rest)
  | dropping {rest : List DialInstr} (h : s.Failing N P true true 0) (hrest : AfterDial rest) :
      Stage N P s (.closeOwned :: .cancelEstablishment :: rest)
  | failing {rest t : List DialInstr} {acquired owned : Bool}
      (h : s.Failing N P acquired owned acquired.toNat) (hrest : AfterDial rest)
      (ht : t <:+ .cancelEstablishment :: rest) : Stage N P s t
  | made {rest t : List DialInstr} {pool : Pool Connection Instr}
      {result : HandshakeResult} (h : s.Fresh N P pool result)
      (hrest : AfterDial rest) (ht : t <:+ .closeOwned :: .cancelEstablishment :: rest)
      (hlast : rest <:+ t) : Stage N P s t
  | close {pool : Pool Connection Instr} {result : HandshakeResult} {err : Error}
      (h : s.Fresh N P pool result)
      (hended : s.runtimeErr = some err) : Stage N P s [.callConn .close, .fail err]
  | awaitClose {pool : Pool Connection Instr} {result : HandshakeResult} {err : Error}
      (h : s.Closing N P pool result err) (hreturns : s.Returns result) :
      Stage N P s [.awaitCall .close 0, .fail err]
  | closed {pool : Pool Connection Instr} {result : HandshakeResult} {err : Error}
      (h : s.Closing N P pool result err) (hreturns : s.Returns result)
      (hdone : ∀ t ∈ pool.threads, t = []) : Stage N P s [.fail err]
  | shut {pool : Pool Connection Instr} {result : HandshakeResult} {err : Error}
      (h : s.Closing N P pool result err)
      (hdone : ∀ t ∈ pool.threads, t = []) (hresult : s.result = some (.error err)) : Stage N P s []
  | start {pool : Pool Connection Instr} {result : HandshakeResult} (h : s.Fresh N P pool result) :
      Stage N P s [.callConn (.start runtimeContext)]
  | awaitStart {pool : Pool Connection Instr} {result : HandshakeResult} {k : Nat}
      (h : s.Dialed N P pool result) (hreturns : s.Returns result) (hshared : s.shared = true) :
      Stage N P s [.awaitCall (.start runtimeContext) k]
  | returned {pool : Pool Connection Instr} {result : HandshakeResult}
      (h : s.Dialed N P pool result) (hreturns : s.Returns result) (hshared : s.shared = true) :
      Stage N P s []

section Stages

variable {N : HandshakePrimitives} {P : Primitives} {s s' : Dialer}
  {pool : Pool Connection Instr} {result : HandshakeResult}

/-! ## Beside the call -/

/-- What the call has got and done stays as it is, and so do the errors of contexts that have
ended. -/
structure Dialer.Keeps (s s' : Dialer) : Prop where
  config : s'.config = s.config
  owned : s'.owned = s.owned
  session : s'.session = s.session
  dials : s'.dials = s.dials
  answer : s'.answer = s.answer
  exchanged : s'.exchanged = s.exchanged
  ctxErr : ∀ err, s.ctxErr = some err → s'.ctxErr = some err
  runtimeErr : ∀ err, s.runtimeErr = some err → s'.runtimeErr = some err
  establishment : ∀ err, s.establishment = some (some err) → s'.establishment = some (some err)

/-- What happens beside a call. -/
structure Dialer.Beside (s s' : Dialer) : Prop extends s.Keeps s' where
  closes : s'.socketCloses = s.socketCloses
  result : s'.result = s.result
  shared : s'.shared = s.shared

/-- A step that touches neither the history nor a context. -/
theorem Dialer.Keeps.of_same (hconfig : s'.config = s.config) (howned : s'.owned = s.owned)
    (hsession : s'.session = s.session) (hdials : s'.dials = s.dials)
    (hanswer : s'.answer = s.answer) (hexchanged : s'.exchanged = s.exchanged)
    (hctx : s'.ctxErr = s.ctxErr) (hruntime : s'.runtimeErr = s.runtimeErr)
    (hestablishment : s'.establishment = s.establishment) : s.Keeps s' :=
  ⟨hconfig, howned, hsession, hdials, hanswer, hexchanged, fun _ h => hctx.trans h,
    fun _ h => hruntime.trans h, fun _ h => hestablishment.trans h⟩

theorem DialAmbient.beside {new : List (List DialInstr)} (h : DialAmbient P s s' new) :
    s.Beside s' ∧ new = [] := by
  cases h with
  | endContext err hnone =>
      refine ⟨⟨⟨rfl, rfl, rfl, rfl, rfl, rfl, fun e he => ?_, fun _ he => he, fun _ he => he⟩,
        rfl, rfl, rfl⟩, rfl⟩
      exact absurd (hnone.symm.trans he) (by simp)
  | propagate herr hlive | timeout hlive =>
      refine ⟨⟨⟨rfl, rfl, rfl, rfl, rfl, rfl, fun _ he => he, fun _ he => he, fun e he => ?_⟩,
        rfl, rfl, rfl⟩, rfl⟩
      exact absurd (hlive.symm.trans he) (by simp)
  | endRuntime err hnone =>
      refine ⟨⟨⟨rfl, rfl, rfl, rfl, rfl, rfl, fun _ he => he, fun e he => ?_, fun _ he => he⟩,
        rfl, rfl, rfl⟩, rfl⟩
      exact absurd (hnone.symm.trans he) (by simp)
  | settle | use =>
      exact ⟨⟨.of_same rfl rfl rfl rfl rfl rfl rfl rfl rfl, rfl, rfl, rfl⟩, rfl⟩

/-- Without a connection none comes from outside. -/
theorem DialAmbient.conn_none {new : List (List DialInstr)} (h : DialAmbient P s s' new)
    (hnone : s.conn = none) : s'.conn = none := by
  cases h with
  | endContext | propagate | timeout => exact hnone
  | endRuntime => simp [hnone]
  | settle hconn | use hconn => exact absurd (hnone.symm.trans hconn) (by simp)

namespace Dialer

theorem Keeps.acquired (h : s.Keeps s') : s'.acquired = s.acquired :=
  congrArg (Option.any DialAnswer.socket) h.answer

/-- A cause stays the cause. -/
theorem Cause.keeps {err : Error} (hcause : s.Cause N P err) (h : s.Keeps s') :
    s'.Cause N P err := by
  cases hcause with
  | nilContext hnone => exact .nilContext (h.dials.trans hnone)
  | config hnone hrejected => exact .config (h.dials.trans hnone) (h.config ▸ hrejected)
  | context hnone hended => exact .context (h.dials.trans hnone) (h.ctxErr _ hended)
  | runtime hended => exact .runtime (h.runtimeErr _ hended)
  | dialedNothing hone hanswer =>
      exact .dialedNothing (h.dials.trans hone) (h.answer.trans hanswer)
  | dialFailed hone hanswer hctx =>
      exact .dialFailed (h.dials.trans hone) (h.answer.trans hanswer) fun e he =>
        h.establishment e (hctx e he)
  | establishment hended => exact .establishment (h.establishment _ hended)
  | handshake hexchanged his => exact .handshake (h.exchanged.trans hexchanged) his
  | session hexchanged hsession => exact .session (h.exchanged.trans hexchanged) hsession

theorem Beside.returns (h : s.Beside s') (hreturns : s.Returns result) : s'.Returns result :=
  h.result.trans hreturns

variable {dials closes closes' : Nat} {answer : Option DialAnswer} {acquired owned : Bool}
  {session : Option Session}

theorem Pending.ambient {new : List (List DialInstr)}
    (h : s.Pending dials answer owned closes session) (hambient : DialAmbient P s s' new) :
    s'.Pending dials answer owned closes session where
  dials := hambient.beside.1.dials.trans h.dials
  answer := hambient.beside.1.answer.trans h.answer
  owned := hambient.beside.1.owned.trans h.owned
  closes := hambient.beside.1.closes.trans h.closes
  conn := hambient.conn_none h.conn
  session := hambient.beside.1.session.trans h.session
  shared := hambient.beside.1.shared.trans h.shared
  result := hambient.beside.1.result.trans h.result

theorem Early.ambient {new : List (List DialInstr)} (h : s.Early)
    (hambient : DialAmbient P s s' new) : s'.Early where
  toPending := h.toPending.ambient hambient
  establishment := by
    have hnone := h.establishment
    cases hambient with
    | propagate _ hlive | timeout hlive => exact absurd (hnone.symm.trans hlive) (by simp)
    | _ => exact hnone

/-- A call that fails goes on failing for the same reason. -/
theorem Failing.keeps (h : s.Failing N P acquired owned closes) (hkeeps : s.Keeps s')
    (hcloses : s'.socketCloses = closes') (hconn : s'.conn = none)
    (hresult : s'.result = s.result) : s'.Failing N P acquired owned closes' where
  dialed := by
    have hdialed := h.dialed
    unfold Dials at hdialed ⊢
    rwa [hkeeps.dials, hkeeps.config]
  acquired := hkeeps.acquired.trans h.acquired
  owned := hkeeps.owned.trans h.owned
  closes := hcloses
  conn := hconn
  session := by
    rw [hkeeps.session]
    exact h.session
  result := by
    obtain ⟨err, herr, hcause⟩ := h.result
    exact ⟨err, hresult.trans herr, hcause.keeps hkeeps⟩

theorem Failing.ambient {new : List (List DialInstr)} (h : s.Failing N P acquired owned closes)
    (hambient : DialAmbient P s s' new) : s'.Failing N P acquired owned closes := by
  have hbeside := hambient.beside.1
  exact h.keeps hbeside.toKeeps (hbeside.closes.trans h.closes) (hambient.conn_none h.conn)
    hbeside.result

/-- How the connection of a call goes on beside it. -/
inductive Moves (P : Primitives) (s s' : Dialer) (pool : Pool Connection Instr) :
    Pool Connection Instr → Prop where
  | same (h : s'.runtimeErr = s.runtimeErr) : Moves P s s' pool pool
  | ended {err : Error} (h : s.runtimeErr = none) (hended : s'.runtimeErr = some err) :
      Moves P s s' pool (endRuntime pool err)
  | settled {after : Pool Connection Instr} (h : s'.runtimeErr = s.runtimeErr)
      (hstep : (connectionMachine P).alone.Step pool after) : Moves P s s' pool after
  | used {after : Pool Connection Instr} (h : s'.runtimeErr = s.runtimeErr)
      (hshared : s.shared = true) (hstep : (connectionMachine P).Step pool after)
      (hcontext : after.state.callers 0 = pool.state.callers 0) : Moves P s s' pool after

end Dialer

theorem DialAmbient.moves {new : List (List DialInstr)}
    (h : DialAmbient P s s' new) (hconn : s.conn = some pool) :
    ∃ after, s'.conn = some after ∧ Dialer.Moves P s s' pool after := by
  cases h with
  | endContext | propagate | timeout => exact ⟨pool, hconn, .same rfl⟩
  | endRuntime err hnone => exact ⟨_, by simp [hconn], .ended hnone rfl⟩
  | settle hbefore hstep =>
      obtain rfl := Option.some.inj (hconn.symm.trans hbefore)
      exact ⟨_, rfl, .settled rfl hstep⟩
  | use hbefore hshared hstep hcontext =>
      obtain rfl := Option.some.inj (hconn.symm.trans hbefore)
      exact ⟨_, rfl, .used rfl hshared hstep hcontext⟩

/-- The end of the context is a step of the connection. -/
theorem endRuntime_step (err : Error) (h : pool.state.callers 0 = none) :
    (connectionMachine P).Step pool (endRuntime pool err) := by
  have hstep : (connectionMachine P).Step pool ⟨_, pool.threads ++ []⟩ :=
    .ambient (.cancelCaller 0 err h)
  rwa [List.append_nil] at hstep

namespace Dialer

theorem Moves.reaches {after : Pool Connection Instr} (h : Moves P s s' pool after)
    (hcontext : pool.state.callers 0 = s.runtimeErr) :
    (connectionMachine P).Reaches pool after ∧ after.state.callers 0 = s'.runtimeErr := by
  cases h with
  | same hsame => exact ⟨.refl, hcontext.trans hsame.symm⟩
  | ended hnone hended =>
      refine ⟨.single (endRuntime_step _ (hcontext.trans hnone)), ?_⟩
      rw [hended]
      simp [endRuntime]
  | settled hsame hstep =>
      refine ⟨.single (Machine.step_of_alone hstep), ?_⟩
      rw [callers_eq_of_alone hstep, hcontext, hsame]
  | used hsame _ hstep hkept => exact ⟨.single hstep, by rw [hkept, hcontext, hsame]⟩

/-- The connection of a call goes on, and the call leaves the socket alone. -/
theorem Dialed.keeps {after : Pool Connection Instr} (h : s.Dialed N P pool result)
    (hkeeps : s.Keeps s') (hcloses : s'.socketCloses = s.socketCloses)
    (hconn : s'.conn = some after) (hreach : (connectionMachine P).Reaches pool after)
    (hcontext : after.state.callers 0 = s'.runtimeErr) : s'.Dialed N P after result where
  conn := hconn
  answer := hkeeps.answer.trans h.answer
  exchanged := hkeeps.exchanged.trans h.exchanged
  socket := ⟨hkeeps.owned.trans h.socket.1, hcloses.trans h.socket.2⟩
  session := hkeeps.session.trans h.session
  dials := hkeeps.dials.trans h.dials
  context := hcontext
  pinned := by rw [hkeeps.config, h.pinned]
  made := by
    obtain ⟨config, now, session, hconfig, hsession, hpool⟩ := h.made
    exact ⟨config, now, session, by rw [hkeeps.config, hconfig], hsession, hpool.trans hreach⟩

theorem Dialed.ambient {new : List (List DialInstr)} (h : s.Dialed N P pool result)
    (hambient : DialAmbient P s s' new) :
    ∃ after, Moves P s s' pool after ∧ s'.Dialed N P after result := by
  obtain ⟨hbeside, -⟩ := hambient.beside
  obtain ⟨after, hconn, hmoves⟩ := hambient.moves h.conn
  obtain ⟨hreach, hcontext⟩ := hmoves.reaches h.context
  exact ⟨after, hmoves, h.keeps hbeside.toKeeps hbeside.closes hconn hreach hcontext⟩

/-- A step of the call that leaves the connection alone. -/
theorem Dialed.same (h : s.Dialed N P pool result) (hkeeps : s.Keeps s')
    (hcloses : s'.socketCloses = s.socketCloses) (hconn : s'.conn = s.conn)
    (hruntime : s'.runtimeErr = s.runtimeErr) : s'.Dialed N P pool result :=
  h.keeps hkeeps hcloses (hconn.trans h.conn) .refl (h.context.trans hruntime.symm)

theorem Fresh.same (h : s.Fresh N P pool result) (hkeeps : s.Keeps s')
    (hcloses : s'.socketCloses = s.socketCloses) (hconn : s'.conn = s.conn)
    (hruntime : s'.runtimeErr = s.runtimeErr) (hresult : s'.result = s.result)
    (hshared : s'.shared = s.shared) : s'.Fresh N P pool result where
  toDialed := h.toDialed.same hkeeps hcloses hconn hruntime
  returns := hresult.trans h.returns
  stilled := h.stilled
  threads := h.threads
  shared := hshared.trans h.shared

theorem Fresh.ambient {new : List (List DialInstr)} (h : s.Fresh N P pool result)
    (hambient : DialAmbient P s s' new) : ∃ after, s'.Fresh N P after result := by
  obtain ⟨hbeside, -⟩ := hambient.beside
  obtain ⟨after, hmoves, hdialed⟩ := h.toDialed.ambient hambient
  refine ⟨after, hdialed, hbeside.returns h.returns, ?_, ?_, hbeside.shared.trans h.shared⟩
  · cases hmoves with
    | same => exact h.stilled
    | ended => exact ⟨h.stilled.started, h.stilled.silent, h.stilled.threads⟩
    | settled _ hstep => exact (h.stilled.step hstep).1
    | used _ hshared => exact absurd (h.shared.symm.trans hshared) (by decide)
  · cases hmoves with
    | same | ended => exact h.threads
    | settled _ hstep =>
        have hlength := (h.stilled.step hstep).2
        rw [h.threads] at hlength
        exact List.eq_nil_of_length_eq_zero hlength
    | used _ hshared => exact absurd (h.shared.symm.trans hshared) (by decide)

theorem Closing.ambient {new : List (List DialInstr)} {err : Error}
    (h : s.Closing N P pool result err) (hambient : DialAmbient P s s' new) :
    ∃ after, s'.Closing N P after result err ∧
      ((∀ t ∈ pool.threads, t = []) → ∀ t ∈ after.threads, t = []) := by
  obtain ⟨hbeside, -⟩ := hambient.beside
  obtain ⟨after, hmoves, hdialed⟩ := h.toDialed.ambient hambient
  have hended := hbeside.runtimeErr err h.ended
  have hshared := hbeside.shared.trans h.shared
  cases hmoves with
  | same => exact ⟨pool, ⟨hdialed, h.stilled, h.stopping, h.threads, hshared, hended⟩, id⟩
  | ended hnone => exact absurd (hnone.symm.trans h.ended) (by simp)
  | settled _ hstep =>
      obtain ⟨hstilled, hlength⟩ := h.stilled.step hstep
      refine ⟨after, ⟨hdialed, hstilled, h.stopping.step (Machine.step_of_alone hstep),
        hlength.trans h.threads, hshared, hended⟩, fun hdone => ?_⟩
      cases hstep with
      | thread k hk hexec =>
          exact absurd (hdone _ (List.mem_of_getElem? hk)) (List.cons_ne_nil _ _)
      | ambient hfalse => exact hfalse.elim
  | used _ hknown => exact absurd (h.shared.symm.trans hknown) (by decide)

end Dialer

/-- Nothing beside the call changes what is true where it stands. -/
theorem Stage.ambient {t : List DialInstr} {new : List (List DialInstr)} (h : Stage N P s t)
    (hambient : DialAmbient P s s' new) : Stage N P s' t := by
  have hbeside := hambient.beside.1
  have hconfig : s'.config = s.config := hbeside.config
  cases h with
  | dialAndStartContext h => exact .dialAndStartContext (h.ambient hambient)
  | checkRuntime h => exact .checkRuntime (h.ambient hambient)
  | dialContext h hrest => exact .dialContext (h.ambient hambient) hrest
  | checkContext h hrest hok => exact .checkContext (h.ambient hambient) hrest (hconfig ▸ hok)
  | withTimeout h hrest hok => exact .withTimeout (h.ambient hambient) hrest (hconfig ▸ hok)
  | dial h hrest hok => exact .dial (h.ambient hambient) hrest (hconfig ▸ hok)
  | closeRaw h hrest hok => exact .closeRaw (h.ambient hambient) hrest (hconfig ▸ hok)
  | dialFailed h hrest hok => exact .dialFailed (h.ambient hambient) hrest (hconfig ▸ hok)
  | establishClient h hrest hok =>
      exact .establishClient (h.ambient hambient) hrest (hconfig ▸ hok)
  | exchange h hrest hok hdriver =>
      exact .exchange (h.ambient hambient) hrest (hconfig ▸ hok) hdriver
  | checkEstablishment h hrest hok hexchanged hsession hpinned =>
      exact .checkEstablishment (h.ambient hambient) hrest (hconfig ▸ hok)
        (hbeside.exchanged.trans hexchanged) hsession hpinned
  | dropping h hrest => exact .dropping (h.ambient hambient) hrest
  | failing h hrest ht => exact .failing (h.ambient hambient) hrest ht
  | made h hrest ht hlast =>
      obtain ⟨after, hafter⟩ := h.ambient hambient
      exact .made hafter hrest ht hlast
  | close h hended =>
      obtain ⟨after, hafter⟩ := h.ambient hambient
      exact .close hafter (hbeside.runtimeErr _ hended)
  | awaitClose h hreturns =>
      obtain ⟨after, hafter, -⟩ := h.ambient hambient
      exact .awaitClose hafter (hbeside.returns hreturns)
  | closed h hreturns hdone =>
      obtain ⟨after, hafter, hkept⟩ := h.ambient hambient
      exact .closed hafter (hbeside.returns hreturns) (hkept hdone)
  | shut h hdone hresult =>
      obtain ⟨after, hafter, hkept⟩ := h.ambient hambient
      exact .shut hafter (hkept hdone) (hbeside.result.trans hresult)
  | start h =>
      obtain ⟨after, hafter⟩ := h.ambient hambient
      exact .start hafter
  | awaitStart h hreturns hshared =>
      obtain ⟨after, -, hafter⟩ := h.ambient hambient
      exact .awaitStart hafter (hbeside.returns hreturns) (hbeside.shared.trans hshared)
  | returned h hreturns hshared =>
      obtain ⟨after, -, hafter⟩ := h.ambient hambient
      exact .returned hafter (hbeside.returns hreturns) (hbeside.shared.trans hshared)

/-! ## The steps of the call -/

theorem dialedConn_reaches (session : Session) (config : ConnectionConfig)
    (runtimeErr : Option Error) :
    (connectionMachine P).Reaches (connectionStart session config)
      (dialedConn session config runtimeErr) := by
  cases runtimeErr with
  | none =>
      have hsame : dialedConn session config none = connectionStart session config := by
        unfold dialedConn connectionStart
        rw [Function.update_eq_self_iff.mpr rfl]
        rfl
      rw [hsame]
      exact .refl
  | some err => exact .single (endRuntime_step err rfl)

namespace Dialer

variable {dials closes : Nat} {answer : Option DialAnswer} {owned : Bool} {err : Error}

theorem keeps_fails (s : Dialer) (err : Error) : s.Keeps (s.fails err) :=
  .of_same rfl rfl rfl rfl rfl rfl rfl rfl rfl

theorem Pending.fails {session : Option Session}
    (h : s.Pending dials answer owned closes session) (hdials : s.Dials N)
    (hsession : ∀ made, session = some made → made.closed = true) (hcause : s.Cause N P err) :
    (s.fails err).Failing N P (answer.any DialAnswer.socket) owned closes where
  dialed := hdials
  acquired := congrArg (Option.any DialAnswer.socket) h.answer
  owned := h.owned
  closes := h.closes
  conn := h.conn
  session made hmade := hsession made (h.session.symm.trans hmade)
  result := ⟨err, rfl, hcause.keeps (keeps_fails s err)⟩

/-- A call that fails before it dials. -/
theorem Early.fails (h : s.Early) (hcause : s.Cause N P err) :
    (s.fails err).Failing N P false false false.toNat :=
  h.toPending.fails (.inl h.dials) (fun _ hmade => by cases hmade) hcause

/-- A call that fails after it has dialed. -/
theorem Pending.fails_late {config : ClientSetup} (h : s.Pending 1 answer owned closes none)
    (hconfig : normalizeClientConfig N s.config = .ok config) (hcause : s.Cause N P err) :
    (s.fails err).Failing N P (answer.any DialAnswer.socket) owned closes :=
  h.fails (.inr ⟨h.dials, config, hconfig⟩) (fun _ hmade => by cases hmade) hcause

/-- A connection of the session of a handshake with the pinned server. -/
theorem Pending.made {session : Session} {config : ClientSetup} {now : Time}
    (h : s.Pending 1 (some ⟨true, none⟩) true 0 (some session))
    (hconfig : normalizeClientConfig N s.config = .ok config)
    (hexchanged : s.exchanged = some (.ok result))
    (hsession : newSessionFromHandshake P cipherChaCha20Poly1305 result now = .ok session)
    (hpinned : result.peerStatic.val = s.config.serverStatic) :
    ({ s with
        session := none
        conn := some (dialedConn session config.connConfig s.runtimeErr)
        owned := false
        result := some (.ok ⟨result.peerStatic, result.sessionID⟩) }).Fresh N P
      (dialedConn session config.connConfig s.runtimeErr) result where
  conn := rfl
  answer := h.answer
  exchanged := hexchanged
  socket := ⟨rfl, h.closes⟩
  session := rfl
  dials := h.dials
  context := by simp [dialedConn]
  pinned := hpinned
  made := ⟨config, now, session, hconfig, hsession, dialedConn_reaches _ _ _⟩
  returns := rfl
  stilled := ⟨rfl, ⟨rfl, rfl, rfl⟩, fun _ ht => absurd ht List.not_mem_nil⟩
  threads := rfl
  shared := h.shared

/-- A method of the connection is called. -/
theorem Dialed.call (h : s.Dialed N P pool result) (api : ApiCall) (shared : Bool) :
    ({ s with conn := some (callRuntime pool api), shared := shared }).Dialed N P
      (callRuntime pool api) result :=
  h.keeps (.of_same rfl rfl rfl rfl rfl rfl rfl rfl rfl) rfl rfl
    (.single (callRuntime_step pool api)) h.context

/-- The call closes a connection that nobody has touched. -/
theorem Fresh.close (h : s.Fresh N P pool result) (hended : s.runtimeErr = some err) :
    ({ s with conn := some (callRuntime pool .close), shared := s.shared }).Closing N P
      (callRuntime pool .close) result err where
  toDialed := h.toDialed.call .close s.shared
  stilled := by
    refine ⟨h.stilled.started, h.stilled.silent, fun t ht i hi => ?_⟩
    have ht : t ∈ pool.threads ++ [ApiCall.close.program pool.state.nextChannel] := ht
    rw [h.threads, List.nil_append, List.mem_singleton] at ht
    subst ht
    obtain rfl := List.mem_singleton.mp hi
    rfl
  stopping := by
    obtain ⟨config, now, session, -, -, hpool⟩ := h.made
    have hstopping : Stopping (ApiCall.close = .close) _ := .of_call hpool rfl
    exact ⟨hstopping.orderly, hstopping.stops, fun _ => hstopping.pursued rfl⟩
  threads := by
    show (pool.threads ++ [_]).length = 1
    rw [h.threads]
    rfl
  shared := h.shared
  ended := hended

end Dialer

/-- The call goes from one place to the next, without any goroutine of its own. -/
def Stage.Next (N : HandshakePrimitives) (P : Primitives) (effect : Effect Dialer DialInstr)
    (rest : List DialInstr) : Prop :=
  Stage N P effect.state (effect.pushed ++ rest) ∧ effect.spawned = []

/-- The calls that `dialContext` defers, and the return to a caller of `DialContext`. -/
def DialInstr.deferred : DialInstr → Bool
  | .closeOwned | .cancelEstablishment | .handOver => true
  | _ => false

section Exec

variable {i : DialInstr} {rest : List DialInstr} {effect : Effect Dialer DialInstr}

theorem DialExec.keeps (h : DialExec N P s i effect) (hi : i.deferred = true) :
    s.Keeps effect.state := by
  cases h with
  | closeOwned | handOver => exact .of_same rfl rfl rfl rfl rfl rfl rfl rfl rfl
  | cancelEstablishment =>
      refine ⟨rfl, rfl, rfl, rfl, rfl, rfl, fun _ he => he, fun _ he => he, fun err he => ?_⟩
      show s.establishment.map canceledErr = some (some err)
      rw [he]
      rfl
  | _ => cases hi

/-- The deferred calls of a call that fails. -/
theorem Stage.exec_failing {acquired owned : Bool} {after : List DialInstr}
    (h : s.Failing N P acquired owned acquired.toNat) (hafter : AfterDial after)
    (ht : i :: rest <:+ .cancelEstablishment :: after)
    (hexec : DialExec N P s i effect ∨ DialStartExec s i effect) : Stage.Next N P effect rest := by
  rcases List.suffix_cons_iff.mp ht with heq | hlast
  · obtain ⟨rfl, rfl⟩ := List.cons.inj heq
    rcases hexec with hexec | hexec
    · have hkeeps := hexec.keeps rfl
      cases hexec with
      | cancelEstablishment =>
          exact ⟨.failing (h.keeps hkeeps h.closes h.conn rfl) hafter (List.suffix_cons _ _), rfl⟩
    · cases hexec
  · cases hafter with
    | handOver =>
        rcases List.suffix_cons_iff.mp hlast with heq | hnil
        · obtain ⟨rfl, rfl⟩ := List.cons.inj heq
          rcases hexec with hexec | hexec
          · have hkeeps := hexec.keeps rfl
            cases hexec with
            | handOver =>
                exact ⟨.failing (h.keeps hkeeps h.closes h.conn rfl) .handOver List.nil_suffix, rfl⟩
          · cases hexec
        · exact absurd (List.suffix_nil.mp hnil) (List.cons_ne_nil _ _)
    | startDialed =>
        rcases List.suffix_cons_iff.mp hlast with heq | hnil
        · obtain ⟨rfl, rfl⟩ := List.cons.inj heq
          obtain ⟨err, hresult, -⟩ := h.result
          rcases hexec with hexec | hexec
          · cases hexec
          · cases hexec with
            | dialFailed => exact ⟨.failing h .startDialed List.nil_suffix, rfl⟩
            | dialedEnded hok | dialedLive hok => exact absurd (hresult.symm.trans hok) (by simp)
        · exact absurd (List.suffix_nil.mp hnil) (List.cons_ne_nil _ _)

/-- The deferred calls after a connection has been made, and what the caller does with it. -/
theorem Stage.exec_made {after : List DialInstr} (h : s.Fresh N P pool result)
    (hafter : AfterDial after) (ht : i :: rest <:+ .closeOwned :: .cancelEstablishment :: after)
    (hlast : after <:+ i :: rest) (hexec : DialExec N P s i effect ∨ DialStartExec s i effect) :
    Stage.Next N P effect rest := by
  rcases List.suffix_cons_iff.mp ht with heq | ht
  · obtain ⟨rfl, rfl⟩ := List.cons.inj heq
    rcases hexec with hexec | hexec
    · have hkeeps := hexec.keeps rfl
      cases hexec with
      | closeOwned =>
          -- the connection owns the socket
          have hcloses : (if s.owned = true then s.socketCloses + 1 else s.socketCloses) =
              s.socketCloses := by
            rw [h.socket.1]
            rfl
          exact ⟨.made (h.same hkeeps hcloses rfl rfl rfl rfl) hafter (List.suffix_cons _ _)
            (List.suffix_cons _ _), rfl⟩
    · cases hexec
  rcases List.suffix_cons_iff.mp ht with heq | ht
  · obtain ⟨rfl, rfl⟩ := List.cons.inj heq
    rcases hexec with hexec | hexec
    · have hkeeps := hexec.keeps rfl
      cases hexec with
      | cancelEstablishment =>
          refine ⟨.made (h.same hkeeps rfl rfl rfl rfl rfl) hafter ?_ List.suffix_rfl, rfl⟩
          exact (List.suffix_cons _ _).trans (List.suffix_cons _ _)
    · cases hexec
  obtain rfl : i :: rest = after := ht.eq_of_length_le hlast.length_le
  cases hafter with
  | handOver =>
      rcases hexec with hexec | hexec
      · have hkeeps := hexec.keeps rfl
        cases hexec with
        | handOver => exact ⟨.returned (h.toDialed.same hkeeps rfl rfl rfl) h.returns rfl, rfl⟩
      · cases hexec
  | startDialed =>
      have hresult := h.returns
      rcases hexec with hexec | hexec
      · cases hexec
      · cases hexec with
        | dialFailed herror => exact absurd (hresult.symm.trans herror) (by simp)
        | dialedEnded _ hended => exact ⟨.close h hended, rfl⟩
        | dialedLive => exact ⟨.start h, rfl⟩

/-- Nothing that `dialContext` executes is unexpected where it stands. -/
theorem Stage.exec_dial (h : Stage N P s (i :: rest)) (hexec : DialExec N P s i effect) :
    Stage.Next N P effect rest := by
  cases h with
  | failing h hafter ht => exact Stage.exec_failing h hafter ht (.inl hexec)
  | made h hafter ht hlast => exact Stage.exec_made h hafter ht hlast (.inl hexec)
  | dialContext h hafter =>
      cases hexec with
      | nilContext =>
          exact ⟨.failing (h.fails (.nilContext h.dials)) hafter (List.suffix_cons _ _), rfl⟩
      | configRejected hrejected =>
          exact ⟨.failing (h.fails (.config h.dials hrejected)) hafter
            (List.suffix_cons _ _), rfl⟩
      | configAccepted haccepted => exact ⟨.checkContext h hafter haccepted, rfl⟩
  | checkContext h hafter hconfig =>
      cases hexec with
      | contextEnded hended =>
          exact ⟨.failing (h.fails (.context h.dials hended)) hafter
            (List.suffix_cons _ _), rfl⟩
      | contextLive => exact ⟨.withTimeout h hafter hconfig, rfl⟩
  | withTimeout h hafter hconfig =>
      cases hexec with
      | withTimeout =>
          exact ⟨.dial ⟨⟨h.dials, h.answer, h.owned, h.closes, h.conn⟩, h.session, h.shared,
            h.result⟩ hafter hconfig, rfl⟩
  | dial h hafter hconfig =>
      have hdials : s.dials + 1 = 1 := by rw [h.dials]
      cases hexec with
      | dialed =>
          exact ⟨.establishClient ⟨⟨hdials, rfl, rfl, h.closes, h.conn⟩, h.session, h.shared,
            h.result⟩ hafter hconfig, rfl⟩
      | dialedNothing =>
          have hpending :
              (s.answered ⟨false, none⟩).Pending 1 (some ⟨false, none⟩) false 0 none :=
            ⟨⟨hdials, rfl, h.owned, h.closes, h.conn⟩, h.session, h.shared, h.result⟩
          exact ⟨.failing (hpending.fails_late hconfig (.dialedNothing hdials rfl)) hafter
            List.suffix_rfl, rfl⟩
      | dialRefused =>
          exact ⟨.dialFailed ⟨⟨hdials, rfl, h.owned, h.closes, h.conn⟩, h.session, h.shared,
            h.result⟩ hafter hconfig, rfl⟩
      | dialBroken =>
          exact ⟨.closeRaw ⟨⟨hdials, rfl, h.owned, h.closes, h.conn⟩, h.session, h.shared,
            h.result⟩ hafter hconfig, rfl⟩
  | closeRaw h hafter hconfig =>
      cases hexec with
      | closeRaw =>
          have hcloses : s.socketCloses + 1 = 1 := by rw [h.closes]
          exact ⟨.dialFailed ⟨⟨h.dials, h.answer, h.owned, hcloses, h.conn⟩, h.session, h.shared,
            h.result⟩ hafter hconfig, rfl⟩
  | dialFailed h hafter hconfig =>
      cases hexec with
      | dialFailed =>
          refine ⟨.failing (h.fails_late hconfig ?_) hafter List.suffix_rfl, rfl⟩
          exact .dialFailed h.dials h.answer fun e he => Option.join_eq_some_iff.mp he
  | establishClient h hafter hconfig =>
      obtain ⟨hpin, hset⟩ := normalizeClientConfig_pin hconfig
      cases hexec with
      | establishClient random =>
          exact ⟨.exchange h hafter hconfig (establishClient_ensures N _ random (hpin ▸ hset)),
            rfl⟩
  | exchange h hafter hconfig hdriver =>
      cases hexec with
      | frameWritten answer | frameRead answer =>
          exact ⟨.exchange h hafter hconfig (hdriver answer), rfl⟩
      | @establishFailed _ err =>
          have hpending : ({ s with exchanged := some (.error err) }).Pending 1
              (some ⟨true, none⟩) true 0 none :=
            ⟨⟨h.dials, h.answer, h.owned, h.closes, h.conn⟩, h.session, h.shared, h.result⟩
          refine ⟨.dropping (hpending.fails_late hconfig ?_) hafter, rfl⟩
          cases hended : s.establishment.join with
          | none => exact .handshake rfl hdriver
          | some ctxErr => exact .establishment (Option.join_eq_some_iff.mp hended)
      | @sessionRejected _ result now err hrejected =>
          have hpending : ({ s with exchanged := some (.ok result) }).Pending 1
              (some ⟨true, none⟩) true 0 none :=
            ⟨⟨h.dials, h.answer, h.owned, h.closes, h.conn⟩, h.session, h.shared, h.result⟩
          exact ⟨.dropping (hpending.fails_late hconfig (.session rfl hrejected)) hafter, rfl⟩
      | sessionMade now hsession =>
          exact ⟨.checkEstablishment ⟨⟨h.dials, h.answer, h.owned, h.closes, h.conn⟩, rfl,
            h.shared, h.result⟩ hafter hconfig rfl hsession hdriver, rfl⟩
  | @checkEstablishment config _ session result now h hafter hconfig hexchanged hsession hpinned =>
      cases hexec with
      | establishmentEnded hended =>
          have hpending : ({ s with session := some session.close }).Pending 1
              (some ⟨true, none⟩) true 0 (some session.close) :=
            ⟨⟨h.dials, h.answer, h.owned, h.closes, h.conn⟩, rfl, h.shared, h.result⟩
          refine ⟨.dropping (hpending.fails (.inr ⟨h.dials, config, hconfig⟩) ?_
            (.establishment (Option.join_eq_some_iff.mp hended))) hafter, rfl⟩
          rintro made hmade
          obtain rfl := Option.some.inj hmade
          rfl
      | established =>
          have hpin : result.peerStatic.val = s.config.serverStatic :=
            hpinned.trans (normalizeClientConfig_pin hconfig).1
          refine ⟨.made (h.made hconfig hexchanged hsession hpin) hafter List.suffix_rfl ?_, rfl⟩
          exact (List.suffix_cons _ _).trans (List.suffix_cons _ _)
  | dropping h hafter =>
      have hkeeps := hexec.keeps rfl
      cases hexec with
      | closeOwned =>
          have hcloses : (if s.owned = true then s.socketCloses + 1 else s.socketCloses) = 1 := by
            rw [h.owned, h.closes]
            rfl
          exact ⟨.failing (h.keeps hkeeps hcloses h.conn rfl) hafter List.suffix_rfl, rfl⟩
  | _ => cases hexec

/-- Nor is what `DialAndStartContext` does before and after it. -/
theorem Stage.exec_start (h : Stage N P s (i :: rest)) (hexec : DialStartExec s i effect) :
    Stage.Next N P effect rest := by
  cases h with
  | failing h hafter ht => exact Stage.exec_failing h hafter ht (.inr hexec)
  | made h hafter ht hlast => exact Stage.exec_made h hafter ht hlast (.inr hexec)
  | dialAndStartContext h =>
      cases hexec with
      | nilContexts =>
          exact ⟨.failing (h.fails (.nilContext h.dials)) .startDialed List.nil_suffix, rfl⟩
      | contexts => exact ⟨.checkRuntime h, rfl⟩
  | checkRuntime h =>
      cases hexec with
      | runtimeEnded hended =>
          exact ⟨.failing (h.fails (.runtime hended)) .startDialed List.nil_suffix, rfl⟩
      | runtimeLive => exact ⟨.dialContext h .startDialed, rfl⟩
  | close h hended =>
      cases hexec with
      | @callConn _ conn hconn =>
          obtain rfl := Option.some.inj (h.conn.symm.trans hconn)
          have hclosing := h.close hended
          have hshared : (s.shared || !ApiCall.close.stops) = s.shared := Bool.or_false _
          refine ⟨?_, rfl⟩
          simp only [hshared, h.threads, List.length_nil]
          exact .awaitClose hclosing h.returns
  | awaitClose h hreturns =>
      cases hexec with
      | @callReturned _ _ conn hconn hreturned =>
          obtain rfl := Option.some.inj (h.conn.symm.trans hconn)
          refine ⟨.closed h hreturns fun t ht => ?_, rfl⟩
          obtain ⟨only, honly⟩ := List.length_eq_one_iff.mp h.threads
          rw [honly] at ht hreturned
          obtain rfl := List.mem_singleton.mp ht
          exact Option.some.inj hreturned
  | closed h _ hdone =>
      cases hexec with
      | fail =>
          exact ⟨.shut ⟨h.toDialed.same (Dialer.keeps_fails s _) rfl rfl rfl, h.stilled,
            h.stopping, h.threads, h.shared, h.ended⟩ hdone rfl, rfl⟩
  | start h =>
      cases hexec with
      | @callConn _ conn hconn =>
          obtain rfl := Option.some.inj (h.conn.symm.trans hconn)
          exact ⟨.awaitStart (h.toDialed.call _ _) h.returns (Bool.or_true _), rfl⟩
  | awaitStart h hreturns hshared =>
      cases hexec with
      | callReturned => exact ⟨.returned h hreturns hshared, rfl⟩
  | _ => cases hexec

theorem Stage.exec (h : Stage N P s (i :: rest))
    (hexec : DialExec N P s i effect ∨ DialStartExec s i effect) : Stage.Next N P effect rest :=
  hexec.elim h.exec_dial h.exec_start

end Exec

/-! ## Whole runs -/

section Runs

variable {setup : ClientSetup} {call : DialCall} {before after : Pool Dialer DialInstr}
  {i : DialInstr} {effect : Effect Dialer DialInstr}

theorem stage_start (setup : ClientSetup) (call : DialCall) :
    Stage N P (Dialer.new setup) call.program := by
  have hearly : (Dialer.new setup).Early := ⟨⟨⟨rfl, rfl, rfl, rfl, rfl⟩, rfl, rfl, rfl⟩, rfl⟩
  cases call with
  | dialContext => exact .dialContext hearly .handOver
  | dialAndStartContext => exact .dialAndStartContext hearly

theorem config_of_exec (h : DialExec N P s i effect ∨ DialStartExec s i effect) :
    effect.state.config = s.config := by
  rcases h with h | h <;> cases h <;> rfl

/-- The one goroutine of the call stands at a place of its program. -/
structure Standing (N : HandshakePrimitives) (P : Primitives) (setup : ClientSetup)
    (pool : Pool Dialer DialInstr) : Prop where
  config : pool.state.config = setup
  stage : ∃ t, pool.threads = [t] ∧ Stage N P pool.state t

/-- A step is one of the call, or happens beside it. -/
theorem dialMachine_step_cases {t : List DialInstr} (hone : before.threads = [t])
    (hstep : (dialMachine N P).Step before after) :
    (∃ i rest effect, t = i :: rest ∧
      (DialExec N P before.state i effect ∨ DialStartExec before.state i effect) ∧
      after.state = effect.state ∧ after.threads = [effect.pushed ++ rest] ++ effect.spawned) ∨
    ∃ new, DialAmbient P before.state after.state new ∧ after.threads = [t] ++ new := by
  cases hstep with
  | @thread s threads k i rest effect hk hexec =>
      have hone : threads = [t] := hone
      rw [hone] at hk
      cases k with
      | zero =>
          obtain rfl : t = i :: rest := Option.some.inj hk
          refine .inl ⟨i, rest, effect, rfl, hexec, rfl, ?_⟩
          rw [hone]
          rfl
      | succ k => cases hk
  | @ambient s s' threads new hambient =>
      have hone : threads = [t] := hone
      exact .inr ⟨new, hambient, by rw [hone]⟩

theorem Standing.step (h : Standing N P setup before)
    (hstep : (dialMachine N P).Step before after) : Standing N P setup after := by
  obtain ⟨t, hone, hstage⟩ := h.stage
  rcases dialMachine_step_cases hone hstep with
    ⟨i, rest, effect, rfl, hexec, hstate, hthreads⟩ | ⟨new, hambient, hthreads⟩
  · obtain ⟨hnext, hspawned⟩ := hstage.exec hexec
    refine ⟨?_, _, ?_, hstate ▸ hnext⟩
    · rw [hstate, config_of_exec hexec, h.config]
    · rw [hthreads, hspawned, List.append_nil]
  · obtain ⟨hbeside, rfl⟩ := hambient.beside
    refine ⟨hbeside.config.trans h.config, t, ?_, hstage.ambient hambient⟩
    rw [hthreads, List.append_nil]

theorem standing_of_reaches {pool : Pool Dialer DialInstr}
    (h : (dialMachine N P).Reaches (dialStart setup call) pool) : Standing N P setup pool :=
  Machine.invariant_of_step (fun hbefore hstep => Standing.step hbefore hstep)
    ⟨rfl, _, rfl, stage_start setup call⟩ h

end Runs

end Stages

end DgProto
