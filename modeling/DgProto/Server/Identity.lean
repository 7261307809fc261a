import DgProto.Handshake.Agreement
import DgProto.Server.Teardown

/-!
# Whom a server serves

A worker hands a connection over to the application only if its handshake succeeded, and tells the
hooks who the peer is.  Between the handshake and the hooks lie the handshake slot, the connection
slot and the two maps, and other workers run beside it.

* `performHandshake_ensures`: whatever a peer sends, the driver returns a session only for a
  completed responder whose peer the allowlist lets in.
* `Accounted`: a ledger of the handshake results behind the connections.  Each was made of frames
  read on the connection's own socket, nothing that a hook is told differs from it, and with
  `Admission` no connection is in the map that the hook did not accept.
* `ServerExec.recorded`: each instruction keeps the ledger, or a worker adds its own line.
-/

namespace DgProto

open Library Crypto
open scoped List

/-! ## The handshake of a worker -/

/-- What the hooks are told of a handshake. -/
def HandshakeResult.info (result : HandshakeResult) : AdmissionInfo :=
  ⟨result.peerStatic, result.sessionID⟩

/-- The result of a responder with the key of the server, which has taken two frames for the
flights of a peer that the allowlist lets in. -/
structure Vouched (N : HandshakePrimitives) (config : ServerConfig) (init finish : Wire.Frame)
    (result : HandshakeResult) : Prop where
  flights : ∃ (random : Reader) (responder heard answered final : Handshake N)
    (reply : List UInt8),
    newResponderHandshake N config.staticKey [] random = .ok responder ∧
    responder.readFlight init.payload = (heard, .ok ()) ∧
    heard.writeFlight = (answered, .ok reply) ∧
    answered.readFlight finish.payload = (final, .ok ()) ∧
    final.finalResult = .ok result
  allowed : config.allowedClients = [] ∨ result.peerStatic.val ∈ config.allowedClients

/-- The session was made of the result. -/
def SessionOf (P : Primitives) (config : ServerConfig) (result : HandshakeResult)
    (session : Session) : Prop :=
  ∃ now, newSessionFromHandshake P config.cipherSuite result now = .ok session

/-- What `performHandshake` may return when it has read the frames. -/
def Welcomes (N : HandshakePrimitives) (P : Primitives) (config : ServerConfig)
    (reads : List Wire.Frame) (outcome : HandshakeOutcome) : Prop :=
  ∀ session, outcome.1 = .ok session → ∃ init finish, reads = [init, finish] ∧
    Vouched N config init finish outcome.2 ∧ SessionOf P config outcome.2 session

section Handshake

variable {N : HandshakePrimitives} {P : Primitives} {config : ServerConfig}

theorem performFail_ensures (reads : List Wire.Frame) (err : Error) :
    (performFail err).EnsuresReading (Welcomes N P config) reads := by
  intro session hsession
  cases hsession

theorem finish_ensures {random : Reader} {responder heard answered : Handshake N}
    {init : Wire.Frame} {reply : List UInt8}
    (hnew : newResponderHandshake N config.staticKey [] random = .ok responder)
    (hinit : responder.readFlight init.payload = (heard, .ok ()))
    (hreply : heard.writeFlight = (answered, .ok reply)) (now : Time) (frame : Wire.Frame) :
    (performHandshake.finish N P config now answered (.ok frame)).EnsuresReading
      (Welcomes N P config) [init, frame] := by
  unfold performHandshake.finish
  dsimp only
  split
  · exact performFail_ensures _ _
  split
  · exact performFail_ensures _ _
  rename_i final hfinish
  split
  · exact performFail_ensures _ _
  split
  · exact performFail_ensures _ _
  rename_i result hresult
  split
  · exact performFail_ensures _ _
  rename_i hlist
  intro session hsession
  refine ⟨init, frame, rfl, ⟨⟨random, responder, heard, answered, final, reply, hnew, hinit,
    hreply, hfinish, hresult⟩, ?_⟩, now, hsession⟩
  by_cases hempty : config.allowedClients = []
  · exact .inl hempty
  · refine .inr ((isClientAllowed_iff _ _).mp ?_)
    by_contra hdenied
    exact hlist ⟨List.length_pos_iff.mpr hempty, by rwa [Bool.not_eq_true] at hdenied⟩

/-- The driver returns a session only for a completed handshake with an allowed peer, whatever it
reads. -/
theorem performHandshake_ensures (N : HandshakePrimitives) (P : Primitives) (config : ServerConfig)
    (random : Reader) (now : Time) :
    (performHandshake N P config random now).EnsuresReading (Welcomes N P config) [] := by
  unfold performHandshake
  split
  · exact performFail_ensures _ _
  rename_i responder hnew
  refine ⟨fun frame => ?_, performFail_ensures _⟩
  dsimp only
  split
  · exact performFail_ensures _ _
  split
  · exact performFail_ensures _ _
  rename_i heard hinit
  split
  · exact performFail_ensures _ _
  rename_i answered reply hreply
  split
  · exact performFail_ensures _ _
  intro written
  cases written with
  | error err => exact performFail_ensures _ err
  | ok => exact ⟨finish_ensures hnew hinit hreply now, performFail_ensures _⟩

end Handshake

/-! ## The ledger -/

/-- The handshake results behind the connections, by their sockets. -/
abbrev Ledger := Nat → Option HandshakeResult

/-- The hooks are told this of the socket. -/
def Ledger.Tells (ledger : Ledger) (n : Nat) (info : AdmissionInfo) : Prop :=
  ∃ result, ledger n = some result ∧ info = result.info

/-- The connection of the socket has a line, and `Admission` has accepted it if there is one. -/
def Ledger.Passed (ledger : Ledger) (s : Server) (n : Nat) : Prop :=
  ∃ result, ledger n = some result ∧
    (s.config.admission = true → (n, result.info, none) ∈ s.admissions)

/-- The result is vouched for by frames that were read on the socket, in their order. -/
def Server.Attests (N : HandshakePrimitives) (s : Server) (n : Nat) (result : HandshakeResult) :
    Prop :=
  ∃ init finish, [(n, init), (n, finish)] <+ s.handshakeReads ∧
    Vouched N s.config.toServerConfig init finish result

/-- The ledger accounts for the connections of a server and for what it has told the hooks. -/
structure Accounted (N : HandshakePrimitives) (P : Primitives) (ledger : Ledger) (s : Server) :
    Prop where
  vouched : ∀ {n result}, ledger n = some result → s.Attests N n result
  /-- A worker without a connection has no line yet. -/
  fresh : ∀ {n}, s.runtimes n = none → ledger n = none
  runtimes : ∀ {n runtime}, s.runtimes n = some runtime → ∃ result session,
    ledger n = some result ∧ SessionOf P s.config.toServerConfig result session ∧
      (connectionMachine P).Reaches (connectionStart session s.config.connConfig) runtime
  admissions : ∀ {n info verdict}, (n, info, verdict) ∈ s.admissions → ledger.Tells n info
  disconnects : ∀ {n info cause}, (n, info, cause) ∈ s.disconnects → ledger.Tells n info
  conns : ∀ {n}, n ∈ s.conns → ledger.Passed s n

/-- What a goroutine has at hand agrees with the ledger. -/
def ServerInstr.Vouches (N : HandshakePrimitives) (P : Primitives) (ledger : Ledger) (s : Server) :
    ServerInstr → Prop
  | .exchange n driver => ∃ reads, reads.map (Prod.mk n) <+ s.handshakeReads ∧
      driver.EnsuresReading (Welcomes N P s.config.toServerConfig) reads
  | .acquireConn n session info => ∃ result, s.Attests N n result ∧
      SessionOf P s.config.toServerConfig result session ∧ info = result.info
  | .callAdmission n info => ledger.Tells n info
  | .callDisconnect n info => ledger.Tells n info
  | .registerConn n => ledger.Passed s n
  | _ => True

/-- A later ledger of a later state: lines are only added, and frames and verdicts only
recorded. -/
structure Ledger.Grows (ledger : Ledger) (s : Server) (ledger' : Ledger) (s' : Server) : Prop where
  config : s'.config = s.config
  lines : ∀ {n result}, ledger n = some result → ledger' n = some result
  reads : s.handshakeReads <+ s'.handshakeReads
  admissions : ∀ {entry}, entry ∈ s.admissions → entry ∈ s'.admissions

/-- What an instruction leaves behind. -/
def Recorded (N : HandshakePrimitives) (P : Primitives) (ledger : Ledger) (s : Server)
    (effect : Effect Server ServerInstr) : Prop :=
  ∃ ledger' : Ledger, ledger.Grows s ledger' effect.state ∧ Accounted N P ledger' effect.state ∧
    (∀ i ∈ effect.pushed, i.Vouches N P ledger' effect.state) ∧
    ∀ t ∈ effect.spawned, ∀ i ∈ t, i.Vouches N P ledger' effect.state

section Ledger

variable {N : HandshakePrimitives} {P : Primitives} {ledger ledger' : Ledger} {s s' : Server}
  {i : ServerInstr} {effect : Effect Server ServerInstr} {n : Nat} {info : AdmissionInfo}

theorem Ledger.Grows.tells (h : ledger.Grows s ledger' s') (htells : ledger.Tells n info) :
    ledger'.Tells n info := by
  obtain ⟨result, hline, hinfo⟩ := htells
  exact ⟨result, h.lines hline, hinfo⟩

theorem Ledger.Grows.passed (h : ledger.Grows s ledger' s') (hpassed : ledger.Passed s n) :
    ledger'.Passed s' n := by
  obtain ⟨result, hline, hverdict⟩ := hpassed
  refine ⟨result, h.lines hline, fun hhook => h.admissions (hverdict ?_)⟩
  rwa [h.config] at hhook

theorem Ledger.Grows.attests (h : ledger.Grows s ledger' s') {result : HandshakeResult}
    (hattests : s.Attests N n result) : s'.Attests N n result := by
  obtain ⟨init, finish, hreads, hvouched⟩ := hattests
  refine ⟨init, finish, hreads.trans h.reads, ?_⟩
  rwa [h.config]

theorem Ledger.Grows.vouches (h : ledger.Grows s ledger' s') (hi : i.Vouches N P ledger s) :
    i.Vouches N P ledger' s' := by
  cases i with
  | exchange n driver =>
      obtain ⟨reads, hreads, hdriver⟩ := hi
      refine ⟨reads, hreads.trans h.reads, ?_⟩
      rwa [h.config]
  | acquireConn n session info =>
      obtain ⟨result, hattests, hsession, hinfo⟩ := hi
      refine ⟨result, h.attests hattests, ?_, hinfo⟩
      rwa [h.config]
  | callAdmission n info | callDisconnect n info => exact h.tells hi
  | registerConn n => exact h.passed hi
  | _ => trivial

/-- The ledger stays, and the connections take steps of their own. -/
theorem Accounted.keep (h : Accounted N P ledger s) (hgrows : ledger.Grows s ledger s')
    (horigin : ∀ n runtime', s'.runtimes n = some runtime' → ∃ runtime,
      s.runtimes n = some runtime ∧ (connectionMachine P).Reaches runtime runtime')
    (hfresh : ∀ n, s'.runtimes n = none → s.runtimes n = none)
    (hadmissions : ∀ n info verdict, (n, info, verdict) ∈ s'.admissions →
      (n, info, verdict) ∈ s.admissions ∨ ledger.Tells n info)
    (hdisconnects : ∀ n info cause, (n, info, cause) ∈ s'.disconnects →
      (n, info, cause) ∈ s.disconnects ∨ ledger.Tells n info)
    (hconns : ∀ n ∈ s'.conns, n ∈ s.conns ∨ ledger.Passed s n) : Accounted N P ledger s' where
  vouched := by
    intro n result hline
    exact hgrows.attests (h.vouched hline)
  fresh := by
    intro n hnone
    exact h.fresh (hfresh n hnone)
  runtimes := by
    intro n runtime' hruntime'
    obtain ⟨runtime, hruntime, hreach⟩ := horigin n runtime' hruntime'
    obtain ⟨result, session, hline, hsession, hstart⟩ := h.runtimes hruntime
    rw [hgrows.config]
    exact ⟨result, session, hline, hsession, hstart.trans hreach⟩
  admissions := by
    intro n info verdict hentry
    rcases hadmissions n info verdict hentry with hold | htells
    · exact h.admissions hold
    · exact htells
  disconnects := by
    intro n info cause hentry
    rcases hdisconnects n info cause hentry with hold | htells
    · exact h.disconnects hold
    · exact htells
  conns := by
    intro n hn
    rcases hconns n hn with hold | hpassed
    · exact hgrows.passed (h.conns hold)
    · exact hgrows.passed hpassed

/-- One connection takes steps of its own. -/
theorem Accounted.advance (h : Accounted N P ledger s) {before after : Pool Connection Instr}
    (hbefore : s.runtimes n = some before) (hreach : (connectionMachine P).Reaches before after)
    (hruntimes : s'.runtimes = Function.update s.runtimes n (some after))
    (hgrows : ledger.Grows s ledger s') (hadmissions : s'.admissions = s.admissions)
    (hdisconnects : s'.disconnects = s.disconnects) (hconns : s'.conns = s.conns) :
    Accounted N P ledger s' := by
  apply h.keep hgrows
  · intro m runtime' hruntime'
    rw [hruntimes] at hruntime'
    rcases update_some_cases hruntime' with ⟨rfl, rfl⟩ | hold
    · exact ⟨before, hbefore, hreach⟩
    · exact ⟨runtime', hold, .refl⟩
  · intro m hnone
    rw [hruntimes, Function.update_apply] at hnone
    split_ifs at hnone
    exact hnone
  · intro m info verdict hentry
    exact .inl (by rwa [← hadmissions])
  · intro m info cause hentry
    exact .inl (by rwa [← hdisconnects])
  · intro m hm
    exact .inl (by rwa [← hconns])

/-- The ledger stays as it is. -/
theorem Recorded.keep (hgrows : ledger.Grows s ledger effect.state)
    (hrecords : Accounted N P ledger effect.state)
    (hpushed : ∀ i ∈ effect.pushed, i.Vouches N P ledger effect.state)
    (hspawned : ∀ t ∈ effect.spawned, ∀ i ∈ t, i.Vouches N P ledger effect.state) :
    Recorded N P ledger s effect :=
  ⟨ledger, hgrows, hrecords, hpushed, hspawned⟩

/-- Most rules touch neither the connections nor what the hooks were told. -/
theorem Accounted.recorded (h : Accounted N P ledger s) (hconfig : effect.state.config = s.config)
    (hruntimes : effect.state.runtimes = s.runtimes)
    (hreads : s.handshakeReads <+ effect.state.handshakeReads)
    (hadmissions : effect.state.admissions = s.admissions)
    (hdisconnects : effect.state.disconnects = s.disconnects)
    (hconns : effect.state.conns ⊆ s.conns)
    (hpushed : ∀ i ∈ effect.pushed, i.Vouches N P ledger effect.state)
    (hspawned : ∀ t ∈ effect.spawned, ∀ i ∈ t, i.Vouches N P ledger effect.state) :
    Recorded N P ledger s effect := by
  have hgrows : ledger.Grows s ledger effect.state :=
    ⟨hconfig, id, hreads, fun hentry => by rwa [hadmissions]⟩
  refine .keep hgrows (h.keep hgrows ?_ ?_ ?_ ?_ ?_) hpushed hspawned
  · intro n runtime' hruntime'
    exact ⟨runtime', by rwa [← hruntimes], .refl⟩
  · intro n hnone
    rwa [← hruntimes]
  · intro n info verdict hentry
    exact .inl (by rwa [← hadmissions])
  · intro n info cause hentry
    exact .inl (by rwa [← hdisconnects])
  · intro n hn
    exact .inl (hconns hn)

/-! ## One instruction -/

theorem ServeExec.recorded (h : ServeExec s i effect) (hrecords : Accounted N P ledger s) :
    Recorded N P ledger s effect := by
  cases h with
  | _ =>
      refine hrecords.recorded rfl rfl (.refl _) rfl rfl subset_rfl ?_ ?_
      · simp [ServerInstr.Vouches]
      · simp [ServerInstr.Vouches, workerProgram]

/-- A line is added where there was none. -/
theorem Ledger.grows_update (hnone : ledger n = none) (result : HandshakeResult)
    (hconfig : s'.config = s.config) (hreads : s.handshakeReads <+ s'.handshakeReads)
    (hadmissions : s'.admissions = s.admissions) :
    ledger.Grows s (Function.update ledger n (some result)) s' := by
  refine ⟨hconfig, fun {m line} hline => ?_, hreads, fun hentry => by rwa [hadmissions]⟩
  have hm : m ≠ n := by
    rintro rfl
    rw [hnone] at hline
    cases hline
  rwa [Function.update_of_ne hm]

/-- A worker with a slot writes its own line. -/
theorem Accounted.acquire (h : Accounted N P ledger s) {session : Session}
    {result : HandshakeResult} (hattests : s.Attests N n result)
    (hsession : SessionOf P s.config.toServerConfig result session)
    (hruntimes : s'.runtimes = Function.update s.runtimes n
      (some (connectionStart session s.config.connConfig)))
    (hgrows : ledger.Grows s (Function.update ledger n (some result)) s')
    (hadmissions : s'.admissions = s.admissions) (hdisconnects : s'.disconnects = s.disconnects)
    (hconns : s'.conns = s.conns) : Accounted N P (Function.update ledger n (some result)) s' where
  vouched := by
    intro m line hline
    apply hgrows.attests
    by_cases hm : m = n
    · rw [hm, Function.update_self] at hline
      obtain rfl := Option.some.inj hline
      exact hm ▸ hattests
    · rw [Function.update_of_ne hm] at hline
      exact h.vouched hline
  fresh := by
    intro m hnone
    rw [hruntimes, Function.update_apply] at hnone
    split_ifs at hnone with hm
    rw [Function.update_of_ne hm]
    exact h.fresh hnone
  runtimes := by
    intro m runtime hruntime
    rw [hruntimes] at hruntime
    rw [hgrows.config]
    by_cases hm : m = n
    · subst hm
      rw [Function.update_self] at hruntime
      obtain rfl := Option.some.inj hruntime
      exact ⟨result, session, Function.update_self .., hsession, .refl⟩
    · rw [Function.update_of_ne hm] at hruntime ⊢
      exact h.runtimes hruntime
  admissions := by
    intro m info verdict hentry
    rw [hadmissions] at hentry
    exact hgrows.tells (h.admissions hentry)
  disconnects := by
    intro m info cause hentry
    rw [hdisconnects] at hentry
    exact hgrows.tells (h.disconnects hentry)
  conns := by
    intro m hm
    rw [hconns] at hm
    exact hgrows.passed (h.conns hm)

/-- What a worker does after `Admission` agrees with the ledger. -/
theorem vouches_handoff {config : ServerSetup} (hpassed : ledger.Passed s n)
    (htells : ledger.Tells n info) :
    ∀ i ∈ handoff config n info, i.Vouches N P ledger s := by
  intro i hi
  rcases List.mem_cons.mp hi with rfl | hi
  · exact hpassed
  · split_ifs at hi
    · obtain rfl := List.mem_singleton.mp hi
      exact htells
    · exact absurd hi List.not_mem_nil

theorem vouches_afterSlot (htells : ledger.Tells n info) :
    ∀ i ∈ afterSlot s.config n info, i.Vouches N P ledger s := by
  intro i hi
  unfold afterSlot at hi
  rcases List.mem_append.mp hi with hi | hi
  · split_ifs at hi with hhook
    · obtain rfl := List.mem_singleton.mp hi
      exact htells
    · -- without `Admission` there is nothing to wait for
      obtain ⟨result, hline, -⟩ := id htells
      exact vouches_handoff ⟨result, hline, fun h => absurd h hhook⟩ htells i hi
  · obtain rfl := List.mem_singleton.mp hi
    trivial

/-- `Admission` has decided. -/
theorem Accounted.decide (h : Accounted N P ledger s) (htells : ledger.Tells n info)
    (verdict : Option Error) :
    ledger.Grows s ledger { s with admissions := s.admissions ++ [(n, info, verdict)] } ∧
    Accounted N P ledger { s with admissions := s.admissions ++ [(n, info, verdict)] } := by
  have hgrows : ledger.Grows s ledger
      { s with admissions := s.admissions ++ [(n, info, verdict)] } :=
    ⟨rfl, id, .refl _, fun hentry => List.mem_append_left _ hentry⟩
  refine ⟨hgrows, h.keep hgrows ?_ ?_ ?_ ?_ ?_⟩
  · exact fun m runtime hruntime => ⟨runtime, hruntime, .refl⟩
  · exact fun m hnone => hnone
  · intro m info' verdict' hentry
    rcases List.mem_append.mp hentry with hold | hnew
    · exact .inl hold
    · obtain ⟨rfl, rfl, rfl⟩ : m = n ∧ info' = info ∧ verdict' = verdict := by
        simpa using hnew
      exact .inr htells
  · exact fun m info' cause hentry => .inl hentry
  · exact fun m hm => .inl hm

theorem WorkerExec.recorded (h : WorkerExec N P s i effect) (hrecords : Accounted N P ledger s)
    (hi : i.Vouches N P ledger s)
    (hfresh : ∀ n session info, i = .acquireConn n session info → s.runtimes n = none) :
    Recorded N P ledger s effect := by
  cases h with
  | @performHandshake n random now =>
      refine hrecords.recorded rfl rfl (.refl _) rfl rfl subset_rfl ?_ (by simp)
      intro j hj
      obtain rfl := List.mem_singleton.mp hj
      exact ⟨[], List.nil_sublist _, performHandshake_ensures N P _ random now⟩
  | @frameWritten n frame next answer =>
      refine hrecords.recorded rfl rfl (.refl _) rfl rfl subset_rfl ?_ (by simp)
      intro j hj
      obtain rfl := List.mem_singleton.mp hj
      obtain ⟨reads, hreads, hdriver⟩ := hi
      exact ⟨reads, hreads, hdriver answer⟩
  | @frameRead n next frame =>
      have hgrows : s.handshakeReads <+ s.handshakeReads ++ [(n, frame)] :=
        List.sublist_append_left _ _
      refine hrecords.recorded rfl rfl hgrows rfl rfl subset_rfl ?_ (by simp)
      intro j hj
      obtain rfl := List.mem_singleton.mp hj
      obtain ⟨reads, hreads, hdriver⟩ := hi
      refine ⟨reads ++ [frame], ?_, hdriver.1 frame⟩
      rw [List.map_append]
      exact hreads.append (.refl _)
  | @readFailed n next err =>
      refine hrecords.recorded rfl rfl (.refl _) rfl rfl subset_rfl ?_ (by simp)
      intro j hj
      obtain rfl := List.mem_singleton.mp hj
      obtain ⟨reads, hreads, hdriver⟩ := hi
      exact ⟨reads, hreads, hdriver.2 err⟩
  | @handshakeDone n session result =>
      refine hrecords.recorded rfl rfl (.refl _) rfl rfl subset_rfl ?_ (by simp)
      intro j hj
      obtain ⟨reads, hreads, hdriver⟩ := hi
      obtain ⟨init, finish, rfl, hvouched, hsession⟩ := hdriver session rfl
      rcases List.mem_cons.mp hj with rfl | hj
      · trivial
      · obtain rfl := List.mem_singleton.mp hj
        exact ⟨result, ⟨init, finish, hreads, hvouched⟩, hsession, rfl⟩
  | @connAcquired n session info hslots =>
      obtain ⟨result, hattests, hsession, rfl⟩ := hi
      have hline : ledger n = none := hrecords.fresh (hfresh n session _ rfl)
      refine ⟨Function.update ledger n (some result),
        Ledger.grows_update hline result rfl (.refl _) rfl, ?_, ?_, by simp⟩
      · exact hrecords.acquire hattests hsession rfl
          (Ledger.grows_update hline result rfl (.refl _) rfl) rfl rfl rfl
      · exact vouches_afterSlot ⟨result, Function.update_self .., rfl⟩
  | @admissionAccepted n info =>
      obtain ⟨hgrows, hrecords'⟩ := hrecords.decide hi none
      refine .keep hgrows hrecords' ?_ (by simp)
      obtain ⟨result, hline, rfl⟩ := id hi
      exact vouches_handoff ⟨result, hline, fun _ => by simp⟩ hi
  | @admissionRejected n info err =>
      obtain ⟨hgrows, hrecords'⟩ := hrecords.decide hi (some err)
      exact .keep hgrows hrecords' (by simp [ServerInstr.Vouches]) (by simp)
  | @admissionPanicked n info recovered =>
      obtain ⟨hgrows, hrecords'⟩ := hrecords.decide hi
        (some (Sentinel.handshakeFailed.wrap s!"admission panic: {recovered}"))
      exact .keep hgrows hrecords' (by simp [ServerInstr.Vouches]) (by simp)
  | @handedOff n hopen =>
      refine .keep ⟨rfl, id, .refl _, id⟩ ?_ (by simp [ServerInstr.Vouches, runConn]) (by simp)
      apply hrecords.keep
      · exact ⟨rfl, id, .refl _, id⟩
      · exact fun m runtime hruntime => ⟨runtime, hruntime, .refl⟩
      · exact fun m hnone => hnone
      · exact fun m info verdict hentry => .inl hentry
      · exact fun m info cause hentry => .inl hentry
      · intro m hm
        rcases Finset.mem_insert.mp hm with rfl | hold
        · exact .inr hi
        · exact .inl hold
  | @unregisterConn n =>
      have hconns := Finset.erase_subset n s.conns
      exact hrecords.recorded rfl rfl (.refl _) rfl rfl hconns (by simp) (by simp)
  | _ =>
      refine hrecords.recorded rfl rfl (.refl _) rfl rfl subset_rfl ?_ ?_
      · simp [ServerInstr.Vouches]
      · simp

theorem RuntimeExec.recorded (h : RuntimeExec s i effect) (hrecords : Accounted N P ledger s)
    (hi : i.Vouches N P ledger s) : Recorded N P ledger s effect := by
  cases h with
  | callConn hruntime =>
      refine .keep ⟨rfl, id, .refl _, id⟩ ?_ (by simp [ServerInstr.Vouches]) (by simp)
      exact hrecords.advance hruntime (.single (callRuntime_step _ _)) rfl
        ⟨rfl, id, .refl _, id⟩ rfl rfl rfl
  | cancelConn hruntime =>
      refine .keep ⟨rfl, id, .refl _, id⟩ ?_ (by simp) (by simp)
      exact hrecords.advance hruntime (cancelRuntime_reaches _) rfl
        ⟨rfl, id, .refl _, id⟩ rfl rfl rfl
  | @callDisconnect n info runtime hruntime =>
      refine .keep ⟨rfl, id, .refl _, id⟩ ?_ (by simp) (by simp)
      apply hrecords.keep
      · exact ⟨rfl, id, .refl _, id⟩
      · exact fun m runtime hruntime => ⟨runtime, hruntime, .refl⟩
      · exact fun m hnone => hnone
      · exact fun m info verdict hentry => .inl hentry
      · intro m info' cause hentry
        rcases List.mem_append.mp hentry with hold | hnew
        · exact .inl hold
        · obtain ⟨rfl, rfl, rfl⟩ : m = n ∧ info' = info ∧ cause = runtime.state.terminal := by
            simpa using hnew
          exact .inr hi
      · exact fun m hm => .inl hm
  | _ =>
      refine hrecords.recorded rfl rfl (.refl _) rfl rfl subset_rfl ?_ ?_
      · simp [ServerInstr.Vouches]
      · simp [ServerInstr.Vouches]

theorem ShutdownExec.recorded (h : ShutdownExec s i effect) (hrecords : Accounted N P ledger s) :
    Recorded N P ledger s effect := by
  cases h with
  | closeListener err hlistener =>
      refine hrecords.recorded rfl rfl (.refl _) rfl rfl subset_rfl ?_ (by simp)
      intro j hj
      rcases mem_shutdownProgram hj with ⟨n, rfl⟩ | ⟨n, rfl⟩ | rfl | rfl
      · trivial
      · trivial
      · trivial
      · trivial
  | _ =>
      refine hrecords.recorded rfl rfl (.refl _) rfl rfl subset_rfl ?_ ?_
      · simp [ServerInstr.Vouches]
      · simp

theorem ServerExec.recorded (h : ServerExec N P s i effect) (hrecords : Accounted N P ledger s)
    (hi : i.Vouches N P ledger s)
    (hfresh : ∀ n session info, i = .acquireConn n session info → s.runtimes n = none) :
    Recorded N P ledger s effect := by
  cases h with
  | serve h => exact h.recorded hrecords
  | worker h => exact h.recorded hrecords hi hfresh
  | runtime h => exact h.recorded hrecords hi
  | shutdown h => exact h.recorded hrecords

end Ledger

/-! ## Whole runs -/

section Runs

variable {N : HandshakePrimitives} {P : Primitives} {config : ServerSetup}
  {before after pool : Pool Server ServerInstr}

/-- The ledger accounts for the server and for what its goroutines have at hand. -/
structure Kept (N : HandshakePrimitives) (P : Primitives) (ledger : Ledger)
    (pool : Pool Server ServerInstr) : Prop where
  records : Accounted N P ledger pool.state
  vouches : ∀ t ∈ pool.threads, ∀ i ∈ t, i.Vouches N P ledger pool.state

theorem Kept.step {ledger : Ledger} (h : Kept N P ledger before)
    (hreach : (serverMachine N P).Reaches (serverStart (.new config)) before)
    (hstep : (serverMachine N P).Step before after) :
    ∃ ledger', Kept N P ledger' after ∧ after.state.config = before.state.config := by
  cases hstep with
  | @thread state threads k i rest effect hk hexec =>
      have hmem : (i :: rest) ∈ threads := List.mem_of_getElem? hk
      have hi : i.Vouches N P ledger state := h.vouches _ hmem i List.mem_cons_self
      have hfresh := fresh_of_reaches (runs_of_reaches hreach) hreach hk
      obtain ⟨ledger', hgrows, hrecords, hpushed, hspawned⟩ :=
        ServerExec.recorded hexec h.records hi hfresh
      refine ⟨ledger', ⟨hrecords, ?_⟩, hgrows.config⟩
      intro t ht j hj
      rcases mem_set_append ht with rfl | hold | hnew
      · rcases List.mem_append.mp hj with hj | hj
        · exact hpushed j hj
        · exact hgrows.vouches (h.vouches _ hmem j (List.mem_cons_of_mem _ hj))
      · exact hgrows.vouches (h.vouches t hold j hj)
      · exact hspawned t hnew j hj
  | @ambient state state' threads new hambient =>
      cases hambient with
      | runtime hruntime hstep hcontext =>
          refine ⟨ledger, ⟨h.records.advance hruntime (.single hstep) rfl
            ⟨rfl, id, .refl _, id⟩ rfl rfl rfl, ?_⟩, rfl⟩
          intro t ht j hj
          rw [List.append_nil] at ht
          exact Ledger.Grows.vouches ⟨rfl, id, .refl _, id⟩ (h.vouches t ht j hj)
      | _ =>
          refine ⟨ledger, ⟨h.records, ?_⟩, rfl⟩
          intro t ht j hj
          rcases List.mem_append.mp ht with hold | hnew
          · exact h.vouches t hold j hj
          · obtain rfl := List.mem_singleton.mp hnew
            obtain rfl := List.mem_singleton.mp hj
            trivial

theorem kept_of_reaches (h : (serverMachine N P).Reaches (serverStart (.new config)) pool) :
    (∃ ledger, Kept N P ledger pool) ∧ pool.state.config = config := by
  induction h with
  | refl =>
      refine ⟨⟨fun _ => none, ⟨?_, ?_, ?_, ?_, ?_, ?_⟩, ?_⟩, rfl⟩
      · intro n result hline
        cases hline
      · exact fun _ => rfl
      · intro n runtime hruntime
        cases hruntime
      · exact fun hentry => absurd hentry List.not_mem_nil
      · exact fun hentry => absurd hentry List.not_mem_nil
      · exact fun hn => absurd hn (Finset.notMem_empty _)
      · exact fun t ht => absurd ht List.not_mem_nil
  | tail hreach hstep ih =>
      obtain ⟨⟨ledger, hkept⟩, hconfig⟩ := ih
      obtain ⟨ledger', hkept', hsame⟩ := hkept.step hreach hstep
      exact ⟨⟨ledger', hkept'⟩, hsame.trans hconfig⟩

/-- **Whom a server serves.** In every run of a server, behind every connection that a worker has
made there is one result of a handshake: of a responder with the key of the server that took two
frames read on the worker's own socket for the flights of its peer, and of a peer that the
allowlist lets in.  The session of the connection was made of this result, `Admission` and
`OnDisconnect` were told its identity and no other, and with `Admission` every connection in the
map was accepted under that identity. -/
theorem served_identities {setup : ServerSetup} {server : Server}
    (hnew : newServer N setup = .ok server)
    (h : (serverMachine N P).Reaches (serverStart server) pool) :
    ∃ ledger : Nat → Option HandshakeResult,
      (∀ n result, ledger n = some result → ∃ init finish,
        [(n, init), (n, finish)] <+ pool.state.handshakeReads ∧
        Vouched N setup.toServerConfig init finish result) ∧
      (∀ n runtime, pool.state.runtimes n = some runtime → ∃ result now session,
        ledger n = some result ∧
        newSessionFromHandshake P cipherChaCha20Poly1305 result now = .ok session ∧
        (connectionMachine P).Reaches (connectionStart session server.config.connConfig) runtime) ∧
      (∀ n info outcome,
        (n, info, outcome) ∈ pool.state.admissions ∨ (n, info, outcome) ∈ pool.state.disconnects →
        ∃ result, ledger n = some result ∧ info = ⟨result.peerStatic, result.sessionID⟩) ∧
      ∀ n ∈ pool.state.conns, ∃ result, ledger n = some result ∧
        (server.config.admission = true →
          (n, ⟨result.peerStatic, result.sessionID⟩, none) ∈ pool.state.admissions) := by
  obtain ⟨config, hconfig, rfl⟩ := newServer_eq_new hnew
  obtain ⟨-, hkeys⟩ := newServerConfig_keeps hconfig
  obtain ⟨⟨ledger, hkept, -⟩, hsame⟩ := kept_of_reaches h
  refine ⟨ledger, ?_, ?_, ?_, ?_⟩
  · intro n result hline
    obtain ⟨init, finish, hreads, hvouched⟩ := hkept.vouched hline
    rw [hsame, hkeys] at hvouched
    exact ⟨init, finish, hreads, hvouched.flights, hvouched.allowed⟩
  · intro n runtime hruntime
    obtain ⟨result, session, hline, ⟨now, hsession⟩, hreach⟩ := hkept.runtimes hruntime
    rw [hsame] at hsession hreach
    rw [hkeys] at hsession
    exact ⟨result, now, session, hline, hsession, hreach⟩
  · intro n info outcome hentry
    rcases hentry with hadmission | hdisconnect
    · exact hkept.admissions hadmission
    · exact hkept.disconnects hdisconnect
  · intro n hn
    obtain ⟨result, hline, hverdict⟩ := hkept.conns hn
    rw [hsame] at hverdict
    exact ⟨result, hline, hverdict⟩

theorem served_identities_serving :
    ∃ pool, (serverMachine plainExchange transparent).Reaches
        (serverStart (.new hookSetup.normalized)) pool ∧ pool.state.conns = {0} ∧
      ∃ init finish result, [(0, init), (0, finish)] <+ pool.state.handshakeReads ∧
        Vouched plainExchange hookSetup.toServerConfig init finish result := by
  have hnew : newServer plainExchange hookSetup = .ok (.new hookSetup.normalized) := rfl
  obtain ⟨pool, hreach, -, hconns, -⟩ := serving_run
  obtain ⟨ledger, hvouched, -, -, hserved⟩ := served_identities hnew hreach
  have hmem : 0 ∈ pool.state.conns := by
    rw [hconns]
    exact Finset.mem_singleton_self 0
  obtain ⟨result, hline, -⟩ := hserved 0 hmem
  obtain ⟨init, finish, hreads, hresult⟩ := hvouched 0 result hline
  exact ⟨pool, hreach, hconns, init, finish, result, hreads, hresult⟩

end Runs

end DgProto
