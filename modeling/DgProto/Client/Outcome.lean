import DgProto.Client.Stages
import DgProto.Handshake.Agreement

/-!
# What a dial returns

The first part reads off at the end of a call what the call has made or left, the second says what
becomes of it when its context ends on the way.  After a success the connection is one
that `NewConnection` made, so whatever is known about connections holds for it.

The socket has two owners in turn, the call and the connection.  `Dialer.closes` counts what either
of them does to it.
-/

namespace DgProto

open Library Wire Crypto

/-! ## The outcome -/

/-- What a call that failed has done with its socket and its connection. -/
structure Dialer.Released (s : Dialer) : Prop where
  /-- A socket was closed once, by the call or by its connection. -/
  closes : s.closes = s.acquired.toNat
  /-- A connection was closed before it was started. -/
  conn : ∀ pool, s.conn = some pool → (∀ t ∈ pool.threads, t = []) ∧ pool.state.TornDown ∧
    pool.state.launched = [] ∧ pool.state.wire = [] ∧ pool.state.invoked = []

section Outcome

variable {N : HandshakePrimitives} {P : Primitives} {setup : ClientSetup} {call : DialCall}
  {pool : Pool Dialer DialInstr}

theorem Dialer.Failing.released {s : Dialer} {acquired owned : Bool}
    (h : s.Failing N P acquired owned acquired.toNat) : s.Released where
  closes := by
    unfold Dialer.closes
    rw [h.conn, h.closes, h.acquired]
    rfl
  conn pool hconn := absurd (h.conn.symm.trans hconn) (by simp)

/-- The connection has closed the socket in the place of the call. -/
theorem Dialer.Closing.released {s : Dialer} {conn : Pool Connection Instr}
    {result : HandshakeResult} {err : Error} (h : s.Closing N P conn result err)
    (hdone : ∀ t ∈ conn.threads, t = []) : s.Released where
  closes := by
    unfold Dialer.closes Dialer.acquired
    rw [h.conn, h.socket.2, h.answer]
    show 0 + conn.state.transportCloses = 1
    rw [(h.stopping.tornDown hdone).transportOnce]
  conn pool hconn := by
    obtain rfl := Option.some.inj (h.conn.symm.trans hconn)
    exact ⟨hdone, h.stopping.tornDown hdone, h.stilled.silent⟩

/-- The connection closes the socket, and not before one of its methods is called. -/
structure Dialer.Entrusted (s : Dialer) (conn : Pool Connection Instr) : Prop where
  closes : s.closes ≤ 1
  untouched : conn.threads = [] → conn.state.started = false ∧ s.closes = 0

theorem Dialer.Dialed.entrusted {s : Dialer} {conn : Pool Connection Instr}
    {result : HandshakeResult} (h : s.Dialed N P conn result) : s.Entrusted conn := by
  obtain ⟨config, now, session, -, -, hreach⟩ := h.made
  have hcloses : s.closes = conn.state.transportCloses := by
    unfold Dialer.closes
    rw [h.conn, h.socket.2]
    exact Nat.zero_add _
  refine ⟨hcloses ▸ transportCloses_le hreach, fun huntouched => ?_⟩
  rw [hcloses]
  exact untouched_of_reaches hreach huntouched

/-- What is true once the call has returned. -/
theorem Stage.outcome {s : Dialer} (h : Stage N P s []) :
    (∃ err, s.result = some (.error err) ∧ s.Cause N P err ∧ s.Dials N ∧ s.Released ∧
        ∀ session, s.session = some session → session.closed = true) ∨
      ∃ conn result, s.Returns result ∧ s.Dialed N P conn result ∧ s.Entrusted conn := by
  cases h with
  | failing h =>
      obtain ⟨err, hresult, hcause⟩ := h.result
      exact .inl ⟨err, hresult, hcause, h.dialed, h.released, h.session⟩
  | made h hafter ht hlast =>
      cases hafter <;> exact absurd (List.suffix_nil.mp hlast) (List.cons_ne_nil _ _)
  | @shut conn result err h hdone hresult =>
      obtain ⟨config, -, -, haccepted, -⟩ := h.made
      refine .inl ⟨err, hresult, .runtime h.ended, .inr ⟨h.dials, config, haccepted⟩,
        h.released hdone, fun session hsession => ?_⟩
      exact absurd (h.session.symm.trans hsession) (by simp)
  | @returned conn result h hreturns => exact .inr ⟨conn, result, hreturns, h, h.entrusted⟩

theorem stage_of_returned (h : (dialMachine N P).Reaches (dialStart setup call) pool)
    (hreturned : pool.threads = [[]]) : Stage N P pool.state [] := by
  obtain ⟨-, t, hone, hstage⟩ := standing_of_reaches h
  rw [hone] at hreturned
  obtain rfl : t = [] := List.head_eq_of_cons_eq hreturned
  exact hstage

/-- **The outcome of a dial.** Whatever the network does and whenever the contexts of a call of
`DialContext` or `DialAndStartContext` end, one of two things holds from the moment it has returned.

It has returned an error with a known cause: its arguments, a context, or what its own dialer or its
own handshake came to.  Then it has dialed at most once, and only with a configuration that passed;
a session that it made is closed, and the socket was closed exactly once, by the call or by the
connection, which never launched a loop nor wrote an octet.

Or it has returned a connection.  Then its dialer returned a socket, its handshake was with the
server that the configuration pins, the results of that handshake are those returned, and the
connection was made of them.  The call has left the socket to the connection, which closes it once
at the most, and not before one of its methods is called.  A connection that `DialAndStartContext`
returns has been started, so it may have come to its end already. -/
theorem dial_outcome (h : (dialMachine N P).Reaches (dialStart setup call) pool)
    (hreturned : pool.threads = [[]]) :
    pool.state.config = setup ∧
    ((∃ err, pool.state.result = some (.error err) ∧ pool.state.Cause N P err ∧
        pool.state.Dials N ∧ pool.state.Released ∧
        ∀ session, pool.state.session = some session → session.closed = true) ∨
      ∃ conn result, pool.state.Returns result ∧ pool.state.Dialed N P conn result ∧
        pool.state.Entrusted conn) :=
  ⟨(standing_of_reaches h).config, (stage_of_returned h hreturned).outcome⟩

/-- A client that dials an honest server gets a connection. -/
theorem dial_run :
    (dialMachine plainExchange transparent).Leads
      (fun pool => pool.threads = [[]] ∧ (∃ result, pool.state.Returns result) ∧
        ∃ conn, pool.state.conn = some conn ∧ conn.threads = [])
      (dialStart sampleClientSetup (.dialContext true)) := by
  obtain ⟨run⟩ : Nonempty (HonestRun plainExchange
      sampleClientSetup.normalized.toClientConfig.staticKey plainServer.staticKey
      ⟨List.replicate 32 7, none⟩ ⟨List.replicate 32 8, none⟩ handshakePrologue) :=
    plainExchange_honestRuns _ _ _ _ _ rfl rfl (by decide) (by decide)
  have hid : run.initiatorResult.sessionID ≠ Octets.zero 16 := by
    show transcriptSessionID plainExchange (List.replicate 32 0) ≠ Octets.zero 16
    decide
  have hsession : newSessionFromHandshake transparent cipherChaCha20Poly1305
      run.initiatorResult 0 = .ok _ := newSession_of_new transparent_newSucceeds hid 0
  obtain ⟨afterWrite, afterRead, hwrite1, hread2, hpinned, -⟩ :=
    establishClient_honest run rfl (.inr rfl)
  obtain ⟨afterFinish, hwrite3, hdone⟩ := hpinned fun _ => rfl
  have hconfig : normalizeClientConfig plainExchange sampleClientSetup =
      .ok sampleClientSetup.normalized := rfl
  refine .first (.inl (.configAccepted hconfig)) (.first (.inl (.contextLive rfl)) ?_)
  refine .first (.inl .withTimeout) (.first (.inl .dialed) ?_)
  refine .first (.inl (.establishClient ⟨List.replicate 32 7, none⟩)) ?_
  rw [hwrite1]
  refine .first (.inl (.frameWritten (.ok ()))) ?_
  rw [hread2]
  refine .first (.inl (.frameRead (.ok run.frame2))) ?_
  rw [hwrite3]
  refine .first (.inl (.frameWritten (.ok ()))) ?_
  rw [hdone]
  refine .first (.inl (.sessionMade 0 hsession)) (.first (.inl (.established rfl)) ?_)
  refine .first (.inl .closeOwned) (.first (.inl .cancelEstablishment) ?_)
  exact .first (.inl .handOver) (.here ⟨rfl, ⟨_, rfl⟩, _, rfl, rfl⟩)

theorem dial_outcome_pinned :
    ∃ pool, (dialMachine plainExchange transparent).Reaches
        (dialStart sampleClientSetup (.dialContext true)) pool ∧ pool.state.closes = 0 ∧
      ∃ conn result, pool.state.Returns result ∧
        pool.state.Dialed plainExchange transparent conn result ∧
        result.peerStatic.val = (plainKey 2).publicKey.val := by
  obtain ⟨pool, hreach, hreturned, ⟨result, hresult⟩, conn, hconn, huntouched⟩ := dial_run
  obtain ⟨hconfig, ⟨err, herror, -⟩ | ⟨conn', result', hreturns, hdialed, hentrusted⟩⟩ :=
    dial_outcome hreach hreturned
  · exact absurd (hresult.symm.trans herror) (by simp)
  · obtain rfl : conn = conn' := Option.some.inj (hconn.symm.trans hdialed.conn)
    exact ⟨pool, hreach, (hentrusted.untouched huntouched).2, conn, result', hreturns, hdialed,
      by rw [hdialed.pinned, hconfig]; rfl⟩

end Outcome

/-! ## Cancellation -/

/-- What the call knows when it comes to an instruction. -/
def DialInstr.Knows (s : Dialer) : DialInstr → Prop
  | .dialAndStartContext _ _ | .checkRuntime | .dialContext _ | .checkContext _
  | .withTimeout _ => s.Early
  | .dial _ => s.result = none
  | .dialFailed _ err => ∃ socket, s.answer = some ⟨socket, some err⟩
  | .exchange _ _ | .checkEstablishment _ _ _ => s.answer = some ⟨true, none⟩ ∧ s.result = none
  | .fail _ => ∃ result, s.Returns result
  | _ => True

/-- The errors of a call whose establishment ended with `err`, by what its own dialer and its own
handshake came to. -/
inductive Dialer.EndedBy (P : Primitives) (s : Dialer) (err : Error) : Error → Prop where
  /-- The handshake failed, or the context was found ended after it. -/
  | context (hanswer : s.answer = some ⟨true, none⟩) : EndedBy P s err err
  | dialFailed {socket : Bool} {failure : Error}
      (hanswer : s.answer = some ⟨socket, some failure⟩) : EndedBy P s err (dialError err)
  /-- The dialer returned neither a socket nor an error. -/
  | dialedNothing (hanswer : s.answer = some ⟨false, none⟩) :
      EndedBy P s err (dialError Sentinel.transportClosed.bare)
  /-- The handshake succeeded and its session could not be made. -/
  | session {result : HandshakeResult} {now : Time} {failure : Error}
      (hexchanged : s.exchanged = some (.ok result))
      (h : newSessionFromHandshake P cipherChaCha20Poly1305 result now = .error failure) :
      EndedBy P s err failure

/-- The establishment has ended and the call has not succeeded. -/
structure Dialer.Doomed (P : Primitives) (s : Dialer) (err : Error) : Prop where
  ended : s.establishment = some (some err)
  result : s.result = none ∨
    ∃ failure, s.result = some (.error failure) ∧ s.EndedBy P err failure

section Cancellation

variable {N : HandshakePrimitives} {P : Primitives} {setup : ClientSetup} {call : DialCall}
  {s s' : Dialer} {i : DialInstr} {rest : List DialInstr} {effect : Effect Dialer DialInstr}
  {err : Error} {pool : Pool Dialer DialInstr}

theorem AfterDial.knows {after : List DialInstr} (h : AfterDial after)
    (hi : i ∈ DialInstr.closeOwned :: .cancelEstablishment :: after) : i.Knows s := by
  cases h <;> simp only [List.mem_cons, List.not_mem_nil, or_false] at hi <;>
    rcases hi with rfl | rfl | rfl <;> exact trivial

theorem Stage.knows (h : Stage N P s (i :: rest)) : i.Knows s := by
  generalize hstack : i :: rest = stack at h
  have hi : i ∈ stack := hstack ▸ List.mem_cons_self
  cases h with
  | failing h hafter ht => exact hafter.knows (List.mem_cons_of_mem _ (ht.subset hi))
  | made h hafter ht => exact hafter.knows (ht.subset hi)
  | shut | returned => cases hstack
  | dialAndStartContext h | checkRuntime h | dialContext h | checkContext h | withTimeout h =>
      obtain ⟨rfl, -⟩ := List.cons.inj hstack
      exact h
  | dial h =>
      obtain ⟨rfl, -⟩ := List.cons.inj hstack
      exact h.result
  | dialFailed h =>
      obtain ⟨rfl, -⟩ := List.cons.inj hstack
      exact ⟨_, h.answer⟩
  | exchange h | checkEstablishment h =>
      obtain ⟨rfl, -⟩ := List.cons.inj hstack
      exact ⟨h.answer, h.result⟩
  | closed h hreturns =>
      obtain ⟨rfl, -⟩ := List.cons.inj hstack
      exact ⟨_, hreturns⟩
  | _ =>
      obtain ⟨rfl, -⟩ := List.cons.inj hstack
      exact trivial

theorem Dialer.EndedBy.keeps {failure : Error} (h : s.EndedBy P err failure) (hkeeps : s.Keeps s') :
    s'.EndedBy P err failure := by
  cases h with
  | context hanswer => exact .context (hkeeps.answer.trans hanswer)
  | dialFailed hanswer => exact .dialFailed (hkeeps.answer.trans hanswer)
  | dialedNothing hanswer => exact .dialedNothing (hkeeps.answer.trans hanswer)
  | session hexchanged hrejected => exact .session (hkeeps.exchanged.trans hexchanged) hrejected

theorem Dialer.Doomed.keeps (h : s.Doomed P err) (hkeeps : s.Keeps s')
    (hresult : s'.result = s.result) : s'.Doomed P err where
  ended := hkeeps.establishment err h.ended
  result := by
    rcases h.result with hnone | ⟨failure, hfailure, hby⟩
    · exact .inl (hresult.trans hnone)
    · exact .inr ⟨failure, hresult.trans hfailure, hby.keeps hkeeps⟩

/-- A doomed call does not return a connection. -/
theorem Dialer.Doomed.not_returns (h : s.Doomed P err) (result : HandshakeResult) :
    ¬ s.Returns result := by
  intro hreturns
  rcases h.result with hnone | ⟨failure, hfailure, -⟩
  · exact absurd (hnone.symm.trans hreturns) (by simp)
  · exact absurd (hfailure.symm.trans hreturns) (by simp)

theorem Dialer.Doomed.ambient {new : List (List DialInstr)} (h : s.Doomed P err)
    (hambient : DialAmbient P s s' new) : s'.Doomed P err :=
  h.keeps hambient.beside.1.toKeeps hambient.beside.1.result

/-- A call whose establishment has ended does not succeed any more. -/
theorem Dialer.Doomed.exec (h : s.Doomed P err) (hstage : Stage N P s (i :: rest))
    (hexec : DialExec N P s i effect ∨ DialStartExec s i effect) :
    effect.state.Doomed P err := by
  have hended := h.ended
  have hknows := hstage.knows
  have hjoin : s.establishment.join = some err := by rw [hended]; rfl
  have hlate : ¬ s.Early := fun hearly => absurd (hearly.establishment.symm.trans hended) (by simp)
  rcases hexec with hexec | hexec
  · cases hexec with
    | nilContext | configRejected | configAccepted | contextEnded | contextLive
    | withTimeout => exact absurd hknows hlate
    | dialed | dialRefused | dialBroken => exact ⟨hended, .inl hknows⟩
    | dialedNothing => exact ⟨hended, .inr ⟨_, rfl, .dialedNothing rfl⟩⟩
    | @dialFailed closed failure =>
        obtain ⟨socket, hanswer⟩ := hknows
        refine ⟨hended, .inr ⟨_, rfl, ?_⟩⟩
        rw [hjoin]
        exact .dialFailed hanswer
    | establishFailed =>
        refine ⟨hended, .inr ⟨_, rfl, ?_⟩⟩
        rw [hjoin]
        exact .context hknows.1
    | sessionRejected now hrejected => exact ⟨hended, .inr ⟨_, rfl, .session rfl hrejected⟩⟩
    | sessionMade => exact ⟨hended, .inl hknows.2⟩
    | establishmentEnded hseen =>
        obtain rfl := Option.some.inj (hseen.symm.trans hjoin)
        exact ⟨hended, .inr ⟨_, rfl, .context hknows.1⟩⟩
    | established hlive => exact absurd (hlive.symm.trans hjoin) (by simp)
    | cancelEstablishment =>
        exact h.keeps (DialExec.keeps (N := N) (P := P) .cancelEstablishment rfl) rfl
    | _ => exact h.keeps (.of_same rfl rfl rfl rfl rfl rfl rfl rfl rfl) rfl
  · cases hexec with
    | nilContexts | contexts | runtimeEnded | runtimeLive => exact absurd hknows hlate
    | fail =>
        obtain ⟨result, hreturns⟩ := hknows
        exact absurd hreturns (h.not_returns result)
    | _ => exact h.keeps (.of_same rfl rfl rfl rfl rfl rfl rfl rfl rfl) rfl

theorem Dialer.Doomed.of_reaches (h : (dialMachine N P).Reaches (dialStart setup call) pool)
    (hdoomed : pool.state.Doomed P err) {later : Pool Dialer DialInstr}
    (hlater : (dialMachine N P).Reaches pool later) : later.state.Doomed P err := by
  refine (Machine.invariant_of_step
    (I := fun later => Standing N P setup later ∧ later.state.Doomed P err) ?_
    ⟨standing_of_reaches h, hdoomed⟩ hlater).2
  rintro before after ⟨hstanding, hbefore⟩ hstep
  refine ⟨hstanding.step hstep, ?_⟩
  obtain ⟨t, hone, hstage⟩ := hstanding.stage
  rcases dialMachine_step_cases hone hstep with
    ⟨i, rest, effect, rfl, hexec, hstate, -⟩ | ⟨new, hambient, -⟩
  · exact hstate ▸ hbefore.exec hstage hexec
  · exact hbefore.ambient hambient

/-! ### The call returns

From the end of the function to its beginning: whatever the dialer and the transport answer, a call
whose establishment has ended has finitely many instructions left. -/

/-- The call has returned. -/
abbrev Returned (pool : Pool Dialer DialInstr) : Prop :=
  pool.threads = [[]]

section Returning

variable {after : List DialInstr} {config : ClientSetup}

theorem returned_after (hafter : AfterDial after) (hfailed : s.result = some (.error err)) :
    (dialMachine N P).alone.Inevitably Returned ⟨s, [after]⟩ := by
  cases hafter with
  | handOver =>
      refine .only ⟨_, .inl .handOver⟩ fun effect hexec => ?_
      rcases hexec with hexec | hexec <;> cases hexec
      exact ⟨rfl, .here rfl⟩
  | startDialed =>
      refine .only ⟨_, .inr (.dialFailed hfailed)⟩ fun effect hexec => ?_
      rcases hexec with hexec | hexec
      · cases hexec
      · cases hexec with
        | dialFailed => exact ⟨rfl, .here rfl⟩
        | dialedEnded hok | dialedLive hok => exact absurd (hfailed.symm.trans hok) (by simp)

theorem returned_canceling (hafter : AfterDial after) (hfailed : s.result = some (.error err)) :
    (dialMachine N P).alone.Inevitably Returned ⟨s, [.cancelEstablishment :: after]⟩ := by
  refine .only ⟨_, .inl .cancelEstablishment⟩ fun effect hexec => ?_
  rcases hexec with hexec | hexec <;> cases hexec
  exact ⟨rfl, returned_after hafter hfailed⟩

theorem returned_dropping (hafter : AfterDial after) (hfailed : s.result = some (.error err)) :
    (dialMachine N P).alone.Inevitably Returned
      ⟨s, [.closeOwned :: .cancelEstablishment :: after]⟩ := by
  refine .only ⟨_, .inl .closeOwned⟩ fun effect hexec => ?_
  rcases hexec with hexec | hexec <;> cases hexec
  exact ⟨rfl, returned_canceling hafter hfailed⟩

theorem returned_checking (hafter : AfterDial after) (hended : s.establishment.join ≠ none)
    {session : Session} {result : HandshakeResult} :
    (dialMachine N P).alone.Inevitably Returned
      ⟨s, [.checkEstablishment config session result :: .closeOwned :: .cancelEstablishment ::
        after]⟩ := by
  obtain ⟨err, herr⟩ := Option.ne_none_iff_exists'.mp hended
  refine .only ⟨_, .inl (.establishmentEnded herr)⟩ fun effect hexec => ?_
  rcases hexec with hexec | hexec
  · cases hexec with
    | establishmentEnded => exact ⟨rfl, returned_dropping hafter rfl⟩
    | established hlive => exact absurd hlive hended
  · cases hexec

/-- By induction on what the driver has still to write and to read. -/
theorem returned_exchanging (hafter : AfterDial after) (hended : s.establishment.join ≠ none)
    (driver : Exchange (Except Error HandshakeResult)) :
    (dialMachine N P).alone.Inevitably Returned
      ⟨s, [.exchange config driver :: .closeOwned :: .cancelEstablishment :: after]⟩ := by
  induction driver with
  | writeFrame frame next ih =>
      refine .only ⟨_, .inl (.frameWritten (.ok ()))⟩ fun effect hexec => ?_
      rcases hexec with hexec | hexec
      · cases hexec with
        | frameWritten answer => exact ⟨rfl, ih answer⟩
      · cases hexec
  | readFrame next ih =>
      refine .only ⟨_, .inl (.frameRead (.error Sentinel.transportClosed.bare))⟩
        fun effect hexec => ?_
      rcases hexec with hexec | hexec
      · cases hexec with
        | frameRead answer => exact ⟨rfl, ih answer⟩
      · cases hexec
  | done outcome =>
      refine .only ?_ fun effect hexec => ?_
      · cases outcome with
        | error failure => exact ⟨_, .inl .establishFailed⟩
        | ok result =>
            cases hsession : newSessionFromHandshake P cipherChaCha20Poly1305 result 0 with
            | error failure => exact ⟨_, .inl (.sessionRejected 0 hsession)⟩
            | ok session => exact ⟨_, .inl (.sessionMade 0 hsession)⟩
      · rcases hexec with hexec | hexec
        · cases hexec with
          | establishFailed | sessionRejected => exact ⟨rfl, returned_dropping hafter rfl⟩
          | sessionMade =>
              refine ⟨rfl, returned_checking hafter ?_⟩
              exact hended
        · cases hexec

theorem returned_establishing (hafter : AfterDial after)
    (hended : s.establishment.join ≠ none) :
    (dialMachine N P).alone.Inevitably Returned
      ⟨s, [.establishClient config :: .closeOwned :: .cancelEstablishment :: after]⟩ := by
  refine .only ⟨_, .inl (.establishClient ⟨[], none⟩)⟩ fun effect hexec => ?_
  rcases hexec with hexec | hexec
  · cases hexec with
    | establishClient random => exact ⟨rfl, returned_exchanging hafter hended _⟩
  · cases hexec

theorem returned_dialFailed (hafter : AfterDial after) {closed : Bool} {failure : Error} :
    (dialMachine N P).alone.Inevitably Returned
      ⟨s, [.dialFailed closed failure :: .cancelEstablishment :: after]⟩ := by
  refine .only ⟨_, .inl .dialFailed⟩ fun effect hexec => ?_
  rcases hexec with hexec | hexec <;> cases hexec
  exact ⟨rfl, returned_canceling hafter rfl⟩

theorem returned_closeRaw (hafter : AfterDial after) {closed : Bool} {failure : Error} :
    (dialMachine N P).alone.Inevitably Returned
      ⟨s, [.closeRaw :: .dialFailed closed failure :: .cancelEstablishment :: after]⟩ := by
  refine .only ⟨_, .inl .closeRaw⟩ fun effect hexec => ?_
  rcases hexec with hexec | hexec <;> cases hexec
  exact ⟨rfl, returned_dialFailed hafter⟩

theorem returned_dialing (hafter : AfterDial after) (hended : s.establishment.join ≠ none) :
    (dialMachine N P).alone.Inevitably Returned
      ⟨s, [.dial config :: .cancelEstablishment :: after]⟩ := by
  refine .only ⟨_, .inl .dialed⟩ fun effect hexec => ?_
  rcases hexec with hexec | hexec
  · cases hexec with
    | dialed =>
        refine ⟨rfl, returned_establishing hafter ?_⟩
        exact hended
    | dialedNothing => exact ⟨rfl, returned_canceling hafter rfl⟩
    | dialRefused => exact ⟨rfl, returned_dialFailed hafter⟩
    | dialBroken => exact ⟨rfl, returned_closeRaw hafter⟩
  · cases hexec

theorem Dialer.Failing.returned {acquired owned : Bool} {closes : Nat} {t : List DialInstr}
    (h : s.Failing N P acquired owned closes) (hafter : AfterDial after)
    (ht : t <:+ .cancelEstablishment :: after) :
    (dialMachine N P).alone.Inevitably Returned ⟨s, [t]⟩ := by
  obtain ⟨failure, hfailed, -⟩ := h.result
  rcases List.suffix_cons_iff.mp ht with rfl | ht
  · exact returned_canceling hafter hfailed
  have hcases : t = after ∨ t = [] := by
    cases hafter <;> exact (List.suffix_cons_iff.mp ht).imp_right List.suffix_nil.mp
  rcases hcases with rfl | rfl
  · exact returned_after hafter hfailed
  · exact .here rfl

/-- A doomed call returns, wherever it stands. -/
theorem Dialer.Doomed.returned {t : List DialInstr} (h : s.Doomed P err) (hstage : Stage N P s t) :
    (dialMachine N P).alone.Inevitably Returned ⟨s, [t]⟩ := by
  have hjoin : s.establishment.join ≠ none := by simp [h.ended]
  have hlate : ¬ s.Early := fun hearly => absurd (hearly.establishment.symm.trans h.ended) (by simp)
  cases hstage with
  | dialAndStartContext hearly | checkRuntime hearly | dialContext hearly | checkContext hearly
  | withTimeout hearly => exact absurd hearly hlate
  | dial _ hafter => exact returned_dialing hafter hjoin
  | closeRaw _ hafter => exact returned_closeRaw hafter
  | dialFailed _ hafter => exact returned_dialFailed hafter
  | establishClient _ hafter => exact returned_establishing hafter hjoin
  | exchange _ hafter => exact returned_exchanging hafter hjoin _
  | checkEstablishment _ hafter => exact returned_checking hafter hjoin
  | dropping hfailing hafter =>
      obtain ⟨failure, hfailed, -⟩ := hfailing.result
      exact returned_dropping hafter hfailed
  | failing hfailing hafter ht => exact hfailing.returned hafter ht
  | made hfresh | close hfresh | start hfresh => exact absurd hfresh.returns (h.not_returns _)
  | awaitClose _ hreturns | closed _ hreturns | awaitStart _ hreturns | returned _ hreturns =>
      exact absurd hreturns (h.not_returns _)
  | shut => exact .here rfl

end Returning

/-- **Cancellation fails closed.** Suppose that the context of the establishment ends, by its
timeout or because the context of the caller has ended, before the call has anything to return.
From then on the call comes to its return in finitely many instructions of its own, whatever its
dialer and its transport answer to it, as long as they answer.  It returns an error: that of the
context, by itself or behind that of the dialer, unless its own dialer returned neither a socket nor
an error or no session could be made of its own handshake.  A socket has been closed exactly once
then, and nothing of a connection is left. -/
theorem dial_canceled (h : (dialMachine N P).Reaches (dialStart setup call) pool)
    (hended : pool.state.establishment = some (some err)) (hpending : pool.state.result = none) :
    ∀ later, (dialMachine N P).Reaches pool later →
      (dialMachine N P).alone.Inevitably Returned later ∧
      (Returned later → ∃ failure, later.state.result = some (.error failure) ∧
        later.state.EndedBy P err failure ∧ later.state.Released) := by
  intro later hlater
  have hdoomed := Dialer.Doomed.of_reaches h ⟨hended, .inl hpending⟩ hlater
  obtain ⟨-, t, hone, hstage⟩ := standing_of_reaches (h.trans hlater)
  refine ⟨?_, fun hreturned => ?_⟩
  · obtain ⟨s, threads⟩ := later
    obtain rfl : threads = [t] := hone
    exact hdoomed.returned hstage
  · rcases (stage_of_returned (h.trans hlater) hreturned).outcome with
      ⟨failure, hfailure, -, -, hreleased, -⟩ | ⟨conn, result, hreturns, -⟩
    · rcases hdoomed.result with hnone | ⟨failure', hfailure', hby⟩
      · exact absurd (hnone.symm.trans hfailure) (by simp)
      · obtain rfl : failure = failure' := by simpa using hfailure.symm.trans hfailure'
        exact ⟨failure, hfailure, hby, hreleased⟩
    · exact absurd hreturns (hdoomed.not_returns result)

/-- What a dialer may return beside a socket. -/
def ioTimeout : Error := .foreign "i/o timeout"

/-- The timeout passes while the socket is being dialed. -/
theorem timeout_run :
    (dialMachine plainExchange transparent).Leads
      (fun pool => pool.state.establishment = some (some Sentinel.contextDeadlineExceeded.bare) ∧
        pool.state.result = none ∧
        (dialMachine plainExchange transparent).Leads
          (fun later => Returned later ∧ later.state.answer = some ⟨true, some ioTimeout⟩ ∧
            later.state.exchanged = none) pool)
      (dialStart sampleClientSetup (.dialContext true)) := by
  refine .first (.inl (.configAccepted rfl)) (.first (.inl (.contextLive rfl)) ?_)
  refine .first (.inl .withTimeout) (.step (.ambient (.timeout rfl)) (.here ⟨rfl, rfl, ?_⟩))
  refine .first (.inl (.dialBroken false ioTimeout)) (.first (.inl .closeRaw) ?_)
  refine .first (.inl .dialFailed) (.first (.inl .cancelEstablishment) ?_)
  exact .first (.inl .handOver) (.here ⟨rfl, rfl, rfl⟩)

theorem dial_canceled_timeout :
    ∃ pool later, (dialMachine plainExchange transparent).Reaches
        (dialStart sampleClientSetup (.dialContext true)) pool ∧
      (dialMachine plainExchange transparent).alone.Inevitably Returned pool ∧
      (dialMachine plainExchange transparent).Reaches pool later ∧
      later.state.result = some (.error (dialError Sentinel.contextDeadlineExceeded.bare)) ∧
      later.state.closes = 1 := by
  obtain ⟨pool, hreach, hended, hpending, later, hlater, hreturned, hanswer, hnone⟩ :=
    timeout_run
  have hcanceled := dial_canceled hreach hended hpending
  obtain ⟨failure, hfailure, hby, hreleased⟩ := (hcanceled later hlater).2 hreturned
  refine ⟨pool, later, hreach, (hcanceled pool .refl).1, hlater, ?_, ?_⟩
  · cases hby with
    | dialFailed => exact hfailure
    | context hother | dialedNothing hother =>
        exact absurd (hanswer.symm.trans hother) (by simp)
    | session hexchanged => exact absurd (hnone.symm.trans hexchanged) (by simp)
  · rw [hreleased.closes, Dialer.acquired, hanswer]
    rfl

end Cancellation

end DgProto
