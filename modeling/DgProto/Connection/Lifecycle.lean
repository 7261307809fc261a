import DgProto.Connection.Facts

/-!
# The life cycle of a connection

The invariant `Sound` of every interleaving: the tokens stay within what there was at
the start, the accounts are balanced, every goroutine finds the facts its instructions
need, and what has been marked as done has been done.  It holds at the start
(`sound_start`) and is kept by every step (`Sound.step`).

The life cycle follows.  `done` is closed at most once, by the owner of `startOnce`; the
loops are launched at most once, and not at all when `Close` or a `Start` whose context
has ended owns `startOnce`; when `done` is closed, every loop has exited and the shutdown
is complete; and the first terminal cause stays.
-/

namespace DgProto

open Library Wire Crypto Connection

/-- What a token adds up to at the start. -/
def Token.limit : Token → Int
  | .running | .lease | .admitted _ => 0
  | _ => 1

/-- `Close`, or a `Start` whose context had ended, owns `startOnce`. -/
def Connection.Unstarted (s : Connection) : Prop :=
  s.startOwner = some .close ∨ s.startOwner = some .preCanceled

/-- What holds in every pool of goroutines that a new connection reaches. -/
structure Sound (pool : Pool Connection Instr) : Prop where
  tokens : ∀ t : Token, pool.total t.weight t.balance ≤ t.limit
  accounts : ∀ a : Account, pool.total a.weight a.balance = 0
  supported : ∀ t ∈ pool.threads, Supported pool.state t
  leased : pool.state.leased = true → ∀ f ∈ Instr.lockQueues.needs, Holds pool.state f
  /-- After the exclusive lease nobody sends to a queue. -/
  silent : pool.state.leased = true → ∀ t ∈ pool.threads, ∀ i ∈ t, i.offers = false
  started : pool.state.startOnce = .finished → Holds pool.state .startEnded
  closed : pool.state.closeOnce = .finished →
    ∀ f ∈ (Instr.endClose none).needs, Holds pool.state f
  finished : pool.state.shutdownOnce = .finished →
    ∀ f ∈ Instr.endShutdown.needs, Holds pool.state f
  claimed : pool.state.cancelCause ≠ none → Holds pool.state .claimed
  operations : pool.state.operationsCanceled = true → Holds pool.state .canceled
  done : 0 < pool.state.doneCloses → ∀ f ∈ Instr.closeDone.needs, Holds pool.state f
  returned : 0 < pool.state.shutdownReturns → Holds pool.state .finished
  /-- A completion without an error is that of an item that was written. -/
  told : ∀ c ∈ pool.state.completions, c.2 = none →
    ∃ item : QueuedMessage, item.completion = some c.1 ∧ Holds pool.state (.wrote item)
  unstarted : pool.state.Unstarted → pool.state.launched = []

section Ends

variable {pool : Pool Connection Instr}

/-- A shutdown that has ended has canceled the context. -/
theorem Sound.canceled (h : Sound pool) (hfinished : pool.state.shutdownOnce = .finished) :
    pool.state.cancelCause ≠ none := by
  have hdrained : Holds pool.state .drained := h.finished hfinished _ (by simp)
  exact h.leased hdrained.1 .canceled (by simp)

/-- A connection that is done has been shut down. -/
theorem Sound.finished_of_done (h : Sound pool) (hdone : 0 < pool.state.doneCloses) :
    pool.state.shutdownOnce = .finished :=
  h.done hdone .finished (by simp)

theorem Sound.ends (h : Sound pool) : Ends pool.state where
  started := h.started
  closed hclosed := h.closed hclosed .canceled (by simp)
  shut := h.canceled
  done hdone := h.canceled (h.finished_of_done hdone)

end Ends

/-! ## The tokens at work -/

section Timely

variable {s : Connection} {threads : List (List Instr)} {k : Nat} {i : Instr}
  {rest : List Instr}

/-- The instruction that is executed holds what the tokens give it. -/
theorem Sound.timely (h : Sound ⟨s, threads⟩) (hk : threads[k]? = some (i :: rest)) :
    Timely s i := by
  have hmem := List.mem_of_getElem? hk
  have hheld : ∀ t : Token, t.weight i ≤ load t.weight threads :=
    fun t => weight_le_load hmem List.mem_cons_self
  constructor
  case unclaimed =>
    intro hidle
    have hlauncher := h.tokens .launcher
    refine ⟨?_, fun loop => ?_⟩
    · simp only [Pool.total, Token.balance, Token.limit, hidle, Once.unclaimed] at hlauncher
      omega
    · have hlaunch := h.tokens (.launch loop)
      simp only [Pool.total, Token.balance, Token.limit, hidle, Once.unclaimed] at hlaunch
      omega
  case starting =>
    rintro ctx rfl loop
    have hlaunch := h.tokens (.launch loop)
    have hstart : 1 ≤ load (Token.launch loop).weight threads := hheld (.launch loop)
    simp only [Pool.total, Token.balance, Token.limit] at hlaunch
    omega
  case launching =>
    intro hweight
    have hlauncher := h.tokens .launcher
    have hstart := hheld .launcher
    simp only [Pool.total, Token.balance, Token.limit] at hlauncher
    omega
  case waited =>
    -- a loop that has not exited has a place in the wait group
    intro hwg loop
    have hrunning := h.tokens .running
    have hloop := h.accounts (.loop loop)
    have hexits : load (Account.loop loop).weight threads ≤ load Token.running.weight threads := by
      apply load_le_load
      intro j
      cases j with
      | exit exited =>
          simp only [Account.weight, Token.weight]
          split <;> omega
      | _ => exact Nat.le_refl _
    simp only [Pool.total, Token.balance, Token.limit, hwg] at hrunning
    simp only [Pool.total, Account.balance] at hloop
    omega
  case offers =>
    intro hoffers
    by_contra hleased
    rw [Bool.not_eq_false] at hleased
    exact absurd (h.silent hleased _ hmem i List.mem_cons_self) (by simp [hoffers])

end Timely

/-! ## What the rules leave alone -/

section Rules

variable {P : Primitives} {s : Connection} {i : Instr} {effect : Effect Connection Instr}

/-- The first terminal cause stays. -/
theorem Exec.terminal_eq (h : Exec P s i effect) {err : Error} (hterminal : s.terminal = some err) :
    effect.state.terminal = some err := by
  cases h with
  | lifecycle h =>
      cases h with
      | @recordTerminal cause =>
          show some (s.terminal.getD cause) = some err
          rw [hterminal]
          rfl
      | _ => exact hterminal
  | queue h | write h | receive h | keepalive h => exact h.frame ▸ hterminal

/-- Once nobody launches loops any more, none is launched. -/
theorem Exec.launched_eq (h : Exec P s i effect) (ht : Timely s i) (hsettled : Holds s .settled) :
    effect.state.launched = s.launched := by
  cases h with
  | lifecycle h =>
      cases h with
      | launchLoop =>
          have hnot := ht.launching (by simp)
          have hone : StartOwner.settled s.startOwner = 1 := hsettled
          omega
      | _ => rfl
  | queue h | write h | receive h | keepalive h => rw [h.frame]

theorem Connection.Unstarted.settled {s : Connection} (h : s.Unstarted) : Holds s .settled := by
  show StartOwner.settled s.startOwner = 1
  rcases h with howner | howner <;> rw [howner] <;> rfl

theorem launched_eq_nil (h : ∀ loop, s.launched.count loop = 0) : s.launched = [] := by
  rw [List.eq_nil_iff_forall_not_mem]
  intro loop hmem
  exact absurd (h loop) (List.count_pos_iff.mpr hmem).ne'

/-- Who comes to own `startOnce` without launching loops finds none. -/
theorem Exec.unstarted (h : Exec P s i effect) (ht : Timely s i)
    (hold : s.Unstarted → s.launched = []) :
    effect.state.Unstarted → effect.state.launched = [] := by
  cases h with
  | lifecycle h =>
      cases h with
      | startFirst | launchHelpers => rintro (howner | howner) <;> cases howner
      | startCanceled => exact fun _ => launched_eq_nil (ht.starting _ rfl)
      | claimFirst hidle => exact fun _ => launched_eq_nil (ht.unclaimed hidle).2
      | launchLoop =>
          intro howner
          have hnot := ht.launching (by simp)
          have hsettled : StartOwner.settled s.startOwner = 1 :=
            Connection.Unstarted.settled (s := s) howner
          omega
      | _ => exact hold
  | queue h | write h | receive h | keepalive h => exact h.frame ▸ hold

/-- `startOnce` never becomes idle again. -/
theorem Exec.idle_of_idle (h : Exec P s i effect) (hidle : effect.state.startOnce = .idle) :
    s.startOnce = .idle := by
  cases h with
  | lifecycle h =>
      cases h with
      | startFirst h | claimFirst h => exact h
      | endStart => cases hidle
      | _ => exact hidle
  | queue h | write h | receive h | keepalive h => rwa [h.frame] at hidle

/-- An instruction that sends to a queue holds a read lease. -/
theorem Instr.lease_of_offers (h : i.offers = true) : Token.lease.weight i = 1 := by
  cases i with
  | offer | requestClose | offerHandler => rfl
  | _ => cases h

/-- A call sends to a queue only after it has checked the state. -/
theorem ApiCall.program_offers (api : ApiCall) (channel : Nat) :
    ∀ i ∈ api.program channel, i.offers = false := by
  cases api <;> simp [ApiCall.program, shutdown, Instr.offers]

end Rules

/-! ## The invariant -/

section Invariant

variable {P : Primitives}

theorem sound_start (session : Session) (config : ConnectionConfig) :
    Sound (connectionStart session config) where
  tokens t := by
    cases t <;> simp [Pool.total, connectionStart, newConnection, Token.limit,
      Once.unclaimed, Once.ended, StartOwner.settled]
  accounts a := by
    cases a <;> simp [Pool.total, connectionStart, newConnection]
  supported _ ht := absurd ht List.not_mem_nil
  leased h := absurd h Bool.false_ne_true
  silent h := absurd h Bool.false_ne_true
  started h := absurd h (show Once.idle ≠ .finished by decide)
  closed h := absurd h (show Once.idle ≠ .finished by decide)
  finished h := absurd h (show Once.idle ≠ .finished by decide)
  claimed h := absurd rfl h
  operations h := absurd h Bool.false_ne_true
  done h := absurd h (Nat.lt_irrefl 0)
  returned h := absurd h (Nat.lt_irrefl 0)
  told _ hc := absurd hc List.not_mem_nil
  unstarted _ := rfl

/-- No goroutine sends to a queue after a step of one that was or becomes leased. -/
theorem Sound.silent_exec {s : Connection} {threads : List (List Instr)} {k : Nat} {i : Instr}
    {rest : List Instr} {effect : Effect Connection Instr} (h : Sound ⟨s, threads⟩)
    (hk : threads[k]? = some (i :: rest)) (hmarks : Marks s i effect)
    (hleased : effect.state.leased = true) :
    (∀ f ∈ Instr.lockQueues.needs, Holds s f) ∧
      ∀ t ∈ threads.set k (effect.pushed ++ rest) ++ effect.spawned, ∀ j ∈ t,
        j.offers = false := by
  have hmem := List.mem_of_getElem? hk
  -- the lease was there before, or it is taken now and there is no read lease
  have hbefore : (∀ f ∈ Instr.lockQueues.needs, Holds s f) ∧
      ∀ t ∈ threads, ∀ j ∈ t, j.offers = false := by
    rcases hmarks.leased hleased with hold | ⟨rfl, hreaders⟩
    · exact ⟨h.leased hold, h.silent hold⟩
    · refine ⟨(h.supported _ hmem).1, fun t ht j hj => ?_⟩
      have hlease := h.tokens .lease
      simp only [Pool.total, Token.balance, Token.limit, hreaders] at hlease
      have hzero : Token.lease.weight j = 0 := weight_eq_zero_of_load (by omega) ht hj
      by_contra hoffers
      rw [Bool.not_eq_false] at hoffers
      have hone := Instr.lease_of_offers hoffers
      omega
  obtain ⟨hneeds, hsilent⟩ := hbefore
  refine ⟨hneeds, fun t ht j hj => ?_⟩
  rcases mem_set_append ht with rfl | hold | hnew
  · rcases List.mem_append.mp hj with hpushed | hrest
    · by_contra hoffers
      rw [Bool.not_eq_false] at hoffers
      have hclosing : s.closing = true := hneeds .closing (by simp)
      have hcanceled : s.cancelCause ≠ none := hneeds .canceled (by simp)
      rcases hmarks.pushed j hpushed hoffers with hopen | hlive
      · exact absurd hclosing (by simp [hopen])
      · exact hcanceled hlive
    · exact hsilent _ hmem j (List.mem_cons_of_mem _ hrest)
  · exact hsilent t hold j hj
  · exact hmarks.spawned t hnew j hj

/-- Every step keeps the invariant. -/
theorem Sound.step {before after : Pool Connection Instr} (h : Sound before)
    (hstep : (connectionMachine P).Step before after) : Sound after := by
  have htokens : ∀ t : Token, after.total t.weight t.balance ≤ t.limit :=
    fun t => ((token_spends P t).step hstep).trans (h.tokens t)
  have haccounts : ∀ a : Account, after.total a.weight a.balance = 0 :=
    fun a => ((account_conserved P a).step hstep).trans (h.accounts a)
  cases hstep with
  | @thread s threads k i rest effect hk hexec =>
      have hexec : Exec P s i effect := hexec
      have hmem := List.mem_of_getElem? hk
      have htimely := h.timely hk
      have hmarks := hexec.marks
      have hthread := h.supported _ hmem
      have hholds := hexec.holds htimely
      have hsupports := hexec.supports htimely h.ends hthread.1
      refine ⟨htokens, haccounts, hsupports.step h.supported hk hholds, fun hleased f hf => ?_,
        fun hleased => ?_, fun hstarted => ?_, fun hclosed f hf => ?_, fun hfinished f hf => ?_,
        fun hcanceled => ?_, fun hoperations => ?_, fun hdone f hf => ?_, fun hreturned => ?_,
        fun c hc hnone => ?_, hexec.unstarted htimely h.unstarted⟩
      · exact hholds f ((h.silent_exec hk hmarks hleased).1 f hf)
      · exact (h.silent_exec hk hmarks hleased).2
      · rcases hmarks.started hstarted with hold | rfl
        · exact hholds _ (h.started hold)
        · exact hholds _ (hthread.1 _ (by simp))
      · rcases hmarks.closed hclosed with hold | ⟨result, rfl⟩
        · exact hholds f (h.closed hold f hf)
        · exact hholds f (hthread.1 f hf)
      · rcases hmarks.finished hfinished with hold | rfl
        · exact hholds f (h.finished hold f hf)
        · exact hholds f (hthread.1 f hf)
      · rcases hmarks.canceled hcanceled with hold | ⟨cause, rfl⟩
        · exact hholds _ (h.claimed hold)
        · exact hholds _ (hthread.1 _ (by simp))
      · rcases hmarks.operations hoperations with hold | rfl
        · exact hholds _ (h.operations hold)
        · exact hholds _ (hthread.1 _ (by simp))
      · rcases Nat.eq_zero_or_pos s.doneCloses with hzero | hpos
        · obtain rfl := hmarks.done (hzero ▸ hdone)
          exact hholds f (hthread.1 f hf)
        · exact hholds f (h.done hpos f hf)
      · rcases Nat.eq_zero_or_pos s.shutdownReturns with hzero | hpos
        · obtain rfl := hmarks.returned (hzero ▸ hreturned)
          exact hholds _ (hthread.1 _ (by simp))
        · exact hholds _ (h.returned hpos)
      · rcases hmarks.told c hc with hold | ⟨who, item, rfl, hchannel⟩
        · obtain ⟨item, hchannel, hwrote⟩ := h.told c hold hnone
          exact ⟨item, hchannel, hholds _ hwrote⟩
        · refine ⟨item, hchannel, hholds _ (hthread.1 _ ?_)⟩
          simp [hnone]
  | @ambient s s' threads new hambient =>
      have hambient : Ambient s s' new := hambient
      have hholds := hambient.holds
      cases hambient with
      | call api =>
          refine ⟨htokens, haccounts, fun t ht => ?_, h.leased, fun hleased t ht => ?_,
            h.started, h.closed, h.finished, h.claimed, h.operations, h.done, h.returned, h.told,
            h.unstarted⟩
          · rcases List.mem_append.mp ht with hold | hnew
            · exact (h.supported t hold).mono hholds
            · obtain rfl := List.mem_singleton.mp hnew
              cases api <;> exact .of_backs [] rfl (by simp)
          · rcases List.mem_append.mp ht with hold | hnew
            · exact h.silent hleased t hold
            · obtain rfl := List.mem_singleton.mp hnew
              exact api.program_offers _
      | cancelCaller =>
          refine ⟨htokens, haccounts, fun t ht => ?_, h.leased, fun hleased t ht => ?_,
            h.started, h.closed, h.finished, h.claimed, h.operations, h.done, h.returned, h.told,
            h.unstarted⟩
          · exact (h.supported t (by simpa using ht)).mono hholds
          · exact h.silent hleased t (by simpa using ht)

theorem sound_of_reaches {session : Session} {config : ConnectionConfig}
    {pool : Pool Connection Instr}
    (h : (connectionMachine P).Reaches (connectionStart session config) pool) : Sound pool :=
  Machine.invariant_of_step Sound.step (sound_start session config) h

end Invariant

/-! ## Whole runs -/

section Runs

variable {P : Primitives} {pool later : Pool Connection Instr}

/-- The first terminal cause stays for good. -/
theorem terminal_of_reaches {err : Error} (hterminal : pool.state.terminal = some err)
    (h : (connectionMachine P).Reaches pool later) : later.state.terminal = some err := by
  refine Machine.invariant_of_step (I := fun pool => pool.state.terminal = some err) ?_ hterminal h
  intro before after hbefore hstep
  cases hstep with
  | thread k hk hexec => exact Exec.terminal_eq hexec hbefore
  | ambient hambient => cases hambient <;> exact hbefore

/-- A fact stays true for good. -/
theorem holds_of_reaches (hsound : Sound pool) {f : Fact} (hf : Holds pool.state f)
    (h : (connectionMachine P).Reaches pool later) : Holds later.state f := by
  suffices hall : Sound later ∧ Holds later.state f from hall.2
  refine Machine.invariant_of_step (I := fun pool => Sound pool ∧ Holds pool.state f) ?_
    ⟨hsound, hf⟩ h
  rintro before after ⟨hbefore, hf⟩ hstep
  refine ⟨hbefore.step hstep, ?_⟩
  cases hstep with
  | thread k hk hexec => exact Exec.holds hexec (hbefore.timely hk) f hf
  | ambient hambient => exact Ambient.holds hambient f hf

/-- Once nobody launches loops any more, none is launched. -/
theorem launched_of_reaches (hsound : Sound pool) (hsettled : Holds pool.state .settled)
    (h : (connectionMachine P).Reaches pool later) :
    later.state.launched = pool.state.launched := by
  suffices hall : Sound later ∧ Holds later.state .settled ∧
      later.state.launched = pool.state.launched from hall.2.2
  refine Machine.invariant_of_step (I := fun later => Sound later ∧ Holds later.state .settled ∧
    later.state.launched = pool.state.launched) ?_ ⟨hsound, hsettled, rfl⟩ h
  rintro before after ⟨hbefore, hsettled, hsame⟩ hstep
  refine ⟨hbefore.step hstep, ?_⟩
  cases hstep with
  | @thread s threads k i rest effect hk hexec =>
      have hexec : Exec P s i effect := hexec
      have htimely := hbefore.timely hk
      exact ⟨hexec.holds htimely _ hsettled, (hexec.launched_eq htimely hsettled).trans hsame⟩
  | ambient hambient => cases hambient <;> exact ⟨hsettled, hsame⟩

/-- Every launched loop has exited. -/
theorem Sound.exited_perm (h : Sound pool) (hjoined : Holds pool.state .joined) :
    pool.state.exited.Perm pool.state.launched := by
  rw [List.perm_iff_count]
  intro loop
  have hle := hjoined.2 loop
  have hbalance := h.accounts (.loop loop)
  simp only [Pool.total, Account.balance] at hbalance
  omega

/-- No loop is launched twice. -/
theorem Sound.launched_nodup (h : Sound pool) : pool.state.launched.Nodup := by
  rw [List.nodup_iff_count_le_one]
  intro loop
  have hlaunch := h.tokens (.launch loop)
  simp only [Pool.total, Token.balance, Token.limit] at hlaunch
  omega

theorem Sound.doneCloses_le (h : Sound pool) : pool.state.doneCloses ≤ 1 := by
  have hdone := h.tokens .done
  simp only [Pool.total, Token.balance, Token.limit] at hdone
  omega

end Runs

/-- The life cycle of a connection, in every interleaving of any number of calls of
`Start`, `Close`, `abort` and of its own goroutines: `done` is closed at most once; no
loop is launched twice, nor after `Close` or a `Start` with an ended context came to own
`startOnce`; when `done` is closed, every launched loop has exited, the shutdown has
disposed of all queues and closed the session, and `Err` is not nil; and `Err` does not
change once it is not nil. -/
theorem connection_lifecycle (P : Primitives) (session : Session) (config : ConnectionConfig)
    (pool : Pool Connection Instr)
    (h : (connectionMachine P).Reaches (connectionStart session config) pool) :
    pool.state.doneCloses ≤ 1 ∧
      pool.state.launched.Nodup ∧
      (pool.state.Unstarted → ∀ later, (connectionMachine P).Reaches pool later →
        later.state.launched = []) ∧
      (pool.state.doneCloses = 1 →
        pool.state.exited.Perm pool.state.launched ∧
        pool.state.shutdownOnce = .finished ∧
        pool.state.outbound = [] ∧ pool.state.control = [] ∧ pool.state.closeRequest = [] ∧
        pool.state.handlerQueue = [] ∧ pool.state.session.closed = true ∧
        pool.state.terminal ≠ none) ∧
      ∀ err, pool.state.terminal = some err → ∀ later, (connectionMachine P).Reaches pool later →
        later.state.terminal = some err := by
  have hsound := sound_of_reaches h
  refine ⟨hsound.doneCloses_le, hsound.launched_nodup, ?_, ?_, ?_⟩
  · intro hunstarted later hlater
    rw [launched_of_reaches hsound hunstarted.settled hlater]
    exact hsound.unstarted hunstarted
  · intro hdone
    have hfacts := hsound.done (by omega)
    have hfinished : Holds pool.state .finished := hfacts _ (by simp)
    have hdisposed := hsound.finished hfinished
    have hdrained : Holds pool.state .drained := hdisposed _ (by simp)
    have hhandlers : Holds pool.state .handlersDrained := hdisposed _ (by simp)
    refine ⟨hsound.exited_perm (hfacts _ (by simp)), hfinished, hdrained.2.1,
      hdrained.2.2.1, hdrained.2.2.2, hhandlers.2, ?_, ?_⟩
    · exact hdisposed .sessionClosed (by simp)
    · exact hfacts .terminal (by simp)
  · intro err hterminal later hlater
    exact terminal_of_reaches hterminal hlater

/-- A configuration without timeouts, keepalive and handler. -/
def plainConfig : ConnectionConfig := ⟨0, 0, 0, 0, 0, 0, 0, false, 0⟩

/-- The session that `newSession` makes of the sample secrets. -/
def sampleSession : Session :=
  initialSession cipherChaCha20Poly1305 sampleSecrets ⟨sampleSecrets.sendKey⟩
    ⟨sampleSecrets.receiveKey⟩ 0

/-- The item of the first call of a sample run. -/
def sampleItem : QueuedMessage := ⟨.value (.pingPong ⟨false, 7⟩), 0, some 0⟩

/-- `Close` alone closes `done` of a connection that was never started. -/
theorem close_unstarted (P : Primitives) (session : Session) (config : ConnectionConfig) :
    (connectionMachine P).Leads
      (fun pool => pool.state.doneCloses = 1 ∧ pool.state.Unstarted ∧
        pool.state.terminal = some Sentinel.connectionClosed.bare ∧
        pool.threads = [[]] ∧ pool.state.callers = fun _ => none)
      ⟨{ newConnection session config with nextChannel := 1 }, [ApiCall.close.program 0]⟩ := by
  refine .first (.lifecycle (.closeFirst rfl)) ?_
  refine .first (.lifecycle .recordTerminal) ?_
  refine .first (.lifecycle .storeClosing) ?_
  -- it claims `startOnce` and shuts the connection down
  refine .first (.lifecycle (.claimFirst rfl)) ?_
  refine .first (.lifecycle .recordTerminal) ?_
  refine .first (.lifecycle (.shutdownFirst rfl)) ?_
  -- what the goroutine has left is written out now and then, to keep the terms small
  show (connectionMachine P).Leads _ ⟨_, [shutdownBody _ ++ [.returnShutdown, .closeDone, .endStart,
    .loadStarted _ _]]⟩
  refine .first (.lifecycle .storeClosing) ?_
  refine .first (.lifecycle .cancel) ?_
  refine .first (.lifecycle .cancelOperations) ?_
  refine .first (.lifecycle .clearPing) ?_
  refine .first (.lifecycle (.lockQueues rfl rfl)) ?_
  refine .first (.queue .failPending) ?_
  refine .first (.queue (.drained rfl rfl rfl)) ?_
  refine .first (.lifecycle (.dropNone rfl)) ?_
  refine .first (.lifecycle .unlockQueues) ?_
  show (connectionMachine P).Leads _ ⟨_, [[.closeSession, .closeTransport, .endShutdown,
    .returnShutdown, .closeDone, .endStart, .loadStarted _ _]]⟩
  refine .first (.lifecycle .closeSession) ?_
  refine .first (.lifecycle .closeTransport) ?_
  refine .first (.lifecycle .endShutdown) ?_
  refine .first (.lifecycle .returnShutdown) ?_
  show (connectionMachine P).Leads _ ⟨_, [[.closeDone, .endStart, .loadStarted _ _]]⟩
  refine .first (.lifecycle .closeDone) ?_
  -- nobody has started the loops in the meantime
  refine .first (.lifecycle .endStart) ?_
  refine .first (.lifecycle (.neverStarted rfl)) ?_
  refine .first (.lifecycle .endClose) ?_
  exact .here ⟨rfl, .inl rfl, rfl, rfl, rfl⟩

theorem connection_lifecycle_close_unstarted :
    ∃ pool, (connectionMachine transparent).Reaches (connectionStart sampleSession plainConfig)
        pool ∧
      pool.state.doneCloses = 1 ∧ pool.state.exited.Perm pool.state.launched ∧
      pool.state.session.closed = true ∧
      ∀ later, (connectionMachine transparent).Reaches pool later →
        later.state.launched = [] ∧
          later.state.terminal = some Sentinel.connectionClosed.bare := by
  have hcall : (connectionMachine transparent).Step (connectionStart sampleSession plainConfig) _ :=
    .ambient (.call .close)
  obtain ⟨pool, hreach, hdone, hunstarted, hterminal, -⟩ :=
    Machine.Leads.step hcall (close_unstarted transparent sampleSession plainConfig)
  obtain ⟨_, _, hlaunched, hclosed, hstable⟩ :=
    connection_lifecycle transparent sampleSession plainConfig pool hreach
  obtain ⟨hperm, _, _, _, _, _, hsession, _⟩ := hclosed hdone
  refine ⟨pool, hreach, hdone, hperm, hsession, fun later hlater => ⟨?_, ?_⟩⟩
  · exact hlaunched hunstarted later hlater
  · exact hstable _ hterminal later hlater

end DgProto
