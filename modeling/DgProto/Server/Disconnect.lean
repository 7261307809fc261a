import DgProto.Handshake.Agreement
import DgProto.Server.Slots

/-!
# The disconnect hook and the capacity of a server

`OnDisconnect` is deferred once a worker has its slot and was admitted, in front of the
deferred release of the slot and behind the end of the connection.  The account of the
hook (`ServerAccount.disconnect`) balances its calls against the admitted workers.

The main theorem puts the channels and the hook together, for every interleaving.
-/

namespace DgProto

open Library Crypto

/-! ## The hook -/

/-- The calls of the hook that the worker of a socket has to make, if one is configured. -/
def Server.due (s : Server) (n : Nat) : Nat :=
  ((s.admissions.filter (·.2.2.isNone)).map (·.1)).count n +
    if s.config.admission then 0 else s.slotsAcquired.count n

section Hook

variable {N : HandshakePrimitives} {P : Primitives} {config : ServerSetup} {s : Server}
  {i : ServerInstr} {effect : Effect Server ServerInstr} {pool : Pool Server ServerInstr} {n : Nat}

theorem disconnected_count_eq (h : (serverMachine N P).Reaches (serverStart (.new config)) pool) :
    pool.state.disconnected.count n +
        load (ServerAccount.disconnect.weight (· == n)) pool.threads =
      if pool.state.config.onDisconnect then pool.state.due n else 0 := by
  have hbalanced := serverAccount_balanced (· == n) .disconnect h
  cases hhook : pool.state.config.onDisconnect <;>
    cases hadmission : pool.state.config.admission <;>
    simp only [ServerAccount.balance, hhook, hadmission, if_true, if_false, Bool.false_eq_true,
      Server.due, Server.disconnected, List.count] at hbalanced ⊢ <;>
    omega

/-- `Admission` is called at most once for a slot. -/
theorem admissions_count_le (h : (serverMachine N P).Reaches (serverStart (.new config)) pool) :
    (pool.state.admissions.map (·.1)).count n ≤
      if pool.state.config.admission then pool.state.slotsAcquired.count n else 0 := by
  have hbalanced := serverAccount_balanced (· == n) .admission h
  cases hadmission : pool.state.config.admission <;>
    simp only [ServerAccount.balance, hadmission, if_true, if_false, Bool.false_eq_true,
      List.count] at hbalanced ⊢ <;>
    omega

theorem accepted_count_le (s : Server) (n : Nat) :
    ((s.admissions.filter (·.2.2.isNone)).map (·.1)).count n ≤ (s.admissions.map (·.1)).count n :=
  List.Sublist.count_le n (List.filter_sublist.map _)

theorem mem_accepted_iff :
    n ∈ (s.admissions.filter (·.2.2.isNone)).map (·.1) ↔
      ∃ info, (n, info, none) ∈ s.admissions := by
  constructor
  · intro hn
    obtain ⟨⟨m, info, result⟩, hmem, rfl⟩ := List.mem_map.mp hn
    obtain ⟨hmem, hnone⟩ := List.mem_filter.mp hmem
    obtain rfl : result = none := Option.isNone_iff_eq_none.mp hnone
    exact ⟨info, hmem⟩
  · rintro ⟨info, hmem⟩
    exact List.mem_map.mpr ⟨(n, info, none), List.mem_filter.mpr ⟨hmem, rfl⟩, rfl⟩

/-- The hook is due once for an admitted worker, and not at all for another one. -/
theorem due_eq (h : (serverMachine N P).Reaches (serverStart (.new config)) pool) :
    pool.state.due n ≤ 1 ∧ (0 < pool.state.due n ↔ pool.state.Admitted n) := by
  have hslot : pool.state.slotsAcquired.count n ≤ 1 := acquired_once .conns n h
  have hadmissions := admissions_count_le (n := n) h
  have haccepted := accepted_count_le pool.state n
  unfold Server.due Server.Admitted
  cases hadmission : pool.state.config.admission with
  | false =>
      rw [hadmission, if_neg Bool.false_ne_true] at hadmissions
      rw [if_neg Bool.false_ne_true, ← List.count_pos_iff]
      refine ⟨by omega, ?_⟩
      constructor
      · exact fun hpos => ⟨by omega, .inl rfl⟩
      · intro hpos
        omega
  | true =>
      rw [hadmission, if_pos rfl] at hadmissions
      rw [if_pos rfl, ← mem_accepted_iff, ← List.count_pos_iff, ← List.count_pos_iff]
      refine ⟨by omega, ?_⟩
      constructor
      · exact fun hpos => ⟨by omega, .inr (by omega)⟩
      · rintro ⟨-, hfalse | hpos⟩
        · cases hfalse
        · omega

/-- The only instruction that calls the hook. -/
theorem ServerExec.disconnects_cases (h : ServerExec N P s i effect) :
    effect.state.disconnects = s.disconnects ∨
      ∃ n info runtime, i = .callDisconnect n info ∧ s.runtimes n = some runtime ∧
        effect.state.disconnects = s.disconnects ++ [(n, info, runtime.state.terminal)] := by
  cases h with
  | serve h | worker h => cases h <;> exact .inl rfl
  | runtime h =>
      cases h with
      | callDisconnect h => exact .inr ⟨_, _, _, rfl, h, rfl⟩
      | _ => exact .inl rfl
  | shutdown h => cases h <;> exact .inl rfl

/-- Whoever is to call the hook has its slot. -/
theorem mem_holders_of_reports
    (h : (serverMachine N P).Reaches (serverStart (.new config)) pool) {t : List ServerInstr}
    (ht : t ∈ pool.threads) (hi : i ∈ t) (hreports : i.reports n = true) :
    n ∈ pool.state.holders .conns := by
  obtain ⟨j, hj, rfl⟩ := ((defersInOrder_of_reaches h).reported n t ht).exists_mem hi hreports
  exact (mem_holders_iff h).mpr ⟨t, ht, _, hj, by simp [ServerInstr.owes]⟩

/-- Nobody is to call the hook for a worker that has no slot any more or has returned. -/
theorem disconnect_load_eq_zero
    (h : (serverMachine N P).Reaches (serverStart (.new config)) pool)
    (hn : n ∈ pool.state.returned ∨ n ∈ pool.state.slotsReleased) :
    load (ServerAccount.disconnect.weight (· == n)) pool.threads = 0 := by
  refine load_eq_zero fun t ht i hi => ?_
  cases i with
  | callDisconnect m info =>
      refine if_neg fun hm => ?_
      have hholds : n ∈ pool.state.holders .conns := mem_holders_of_reports h ht hi hm
      rcases hn with hreturned | hreleased
      · exact unreturned_of_mem_holders h hholds hreturned
      · exact (Finset.mem_sdiff.mp hholds).2 (List.mem_toFinset.mpr hreleased)
  | _ => rfl

/-- The hook is not called if there is none. -/
theorem disconnects_eq_nil (h : (serverMachine N P).Reaches (serverStart (.new config)) pool)
    (hhook : pool.state.config.onDisconnect = false) : pool.state.disconnects = [] := by
  have hnone : ∀ n, n ∉ pool.state.disconnected := by
    intro n
    have hcount := disconnected_count_eq (n := n) h
    rw [hhook, if_neg Bool.false_ne_true] at hcount
    rw [← List.count_eq_zero]
    omega
  exact List.map_eq_nil_iff.mp (List.eq_nil_iff_forall_not_mem.mpr hnone)

/-- The hook is called once for an admitted worker, before its slot is released. -/
theorem disconnected_once (h : (serverMachine N P).Reaches (serverStart (.new config)) pool)
    (hhook : pool.state.config.onDisconnect = true) (n : Nat) :
    pool.state.disconnected.count n ≤ 1 ∧
    (n ∈ pool.state.disconnected → pool.state.Admitted n) ∧
    (n ∈ pool.state.returned ∨ n ∈ pool.state.slotsReleased →
      (pool.state.disconnected.count n = 1 ↔ pool.state.Admitted n)) := by
  have hcount := disconnected_count_eq (n := n) h
  rw [hhook, if_pos rfl] at hcount
  obtain ⟨honce, hadmitted⟩ := due_eq (n := n) h
  refine ⟨by omega, fun hn => ?_, fun hn => ?_⟩
  · have hcalled : 0 < pool.state.disconnected.count n := List.count_pos_iff.mpr hn
    exact hadmitted.mp (by omega)
  · rw [disconnect_load_eq_zero h hn] at hcount
    rw [← hadmitted]
    omega

/-- The hook is called for a connection that has ended, by a worker that has its slot. -/
theorem terminated_of_disconnect
    (h : (serverMachine N P).Reaches (serverStart (.new config)) pool)
    {after : Pool Server ServerInstr} (hstep : (serverMachine N P).Step pool after)
    (hcalled : after.state.disconnects ≠ pool.state.disconnects) :
    ∃ n info runtime, pool.state.runtimes n = some runtime ∧ runtime.state.Terminated ∧
      n ∈ pool.state.holders .conns ∧
      after.state.disconnects = pool.state.disconnects ++ [(n, info, runtime.state.terminal)] := by
  cases hstep with
  | @thread s threads k i rest effect hk hexec =>
      have hthread := List.mem_of_getElem? hk
      rcases ServerExec.disconnects_cases hexec with hsame | ⟨n, info, runtime, rfl, hruntime, heq⟩
      · exact absurd hsame hcalled
      · obtain ⟨runtime', hruntime', hterminated⟩ :=
          ((owned_of_reaches h).informed _ hthread).1 (.terminated n) (by simp)
        obtain rfl : runtime = runtime' := Option.some.inj (hruntime.symm.trans hruntime')
        refine ⟨n, info, runtime, hruntime, hterminated, ?_, heq⟩
        exact mem_holders_of_reports h hthread List.mem_cons_self (by simp)
  | ambient hambient =>
      refine absurd ?_ hcalled
      cases hambient <;> rfl

end Hook

/-! ## Releases -/

section Releases

variable {N : HandshakePrimitives} {P : Primitives} {config : ServerSetup} {s : Server}
  {c : SlotChannel} {n : Nat} {effect : Effect Server ServerInstr}
  {pool : Pool Server ServerInstr}

/-- A release does not block on a channel that holds a token. -/
theorem exists_release (N : HandshakePrimitives) (P : Primitives) (n : Nat)
    (h : 0 < s.tokens c) : ∃ effect, ServerExec N P s (c.release n) effect := by
  obtain ⟨tokens, htokens⟩ : ∃ tokens, s.tokens c = tokens + 1 := ⟨s.tokens c - 1, by omega⟩
  cases c with
  | handshakes => exact ⟨_, .worker (.releaseHandshake htokens)⟩
  | conns => exact ⟨_, .worker (.releaseConn htokens)⟩

/-- A release gives back the token of its own socket. -/
theorem ServerExec.holders_of_release (h : ServerExec N P s (c.release n) effect) :
    effect.state.holders c = (s.holders c).erase n := by
  have hlists : effect.state.acquired c = s.acquired c ∧
      effect.state.released c = s.released c ++ [n] := by
    cases c <;> cases h with
    | worker h =>
        cases h
        exact ⟨rfl, rfl⟩
    | serve h | runtime h | shutdown h => cases h
  unfold Server.holders
  rw [hlists.1, hlists.2]
  ext m
  simp only [List.toFinset_append, List.toFinset_cons, List.toFinset_nil, insert_empty_eq,
    Finset.mem_sdiff, Finset.mem_union, Finset.mem_singleton, Finset.mem_erase]
  tauto

/-- A worker or a `Serve` that is to release a token has one. -/
theorem mem_holders_of_release
    (h : (serverMachine N P).Reaches (serverStart (.new config)) pool) {k : Nat}
    {rest : List ServerInstr} (hk : pool.threads[k]? = some (c.release n :: rest)) :
    n ∈ pool.state.holders c := by
  refine (mem_holders_iff h).mpr ⟨_, List.mem_of_getElem? hk, _, List.mem_cons_self, ?_⟩
  cases c <;> simp [SlotChannel.release, ServerInstr.owes]

/-- A channel is empty when all workers have returned and no `Serve` has a token of it. -/
theorem tokens_eq_zero (htallied : Tallied config pool.state)
    (h : (serverMachine N P).Reaches (serverStart (.new config)) pool)
    (hreturned : ∀ n ∈ pool.state.registered, n ∈ pool.state.returned)
    (hserve : ∀ n ∈ pool.state.acquired c,
      n ∈ pool.state.registered ∨ n ∈ pool.state.released c) : pool.state.tokens c = 0 := by
  rw [tokens_eq_card htallied h, Finset.card_eq_zero, Finset.eq_empty_iff_forall_notMem]
  intro n hn
  obtain ⟨hacquired, hreleased⟩ := Finset.mem_sdiff.mp hn
  rcases hserve n (List.mem_toFinset.mp hacquired) with hregistered | hold
  · exact unreturned_of_mem_holders h hn (hreturned n hregistered)
  · exact hreleased (List.mem_toFinset.mpr hold)

theorem registered_of_slotted
    (h : (serverMachine N P).Reaches (serverStart (.new config)) pool)
    (hn : n ∈ pool.state.slotsAcquired) : n ∈ pool.state.registered := by
  have hstage := slotsAcquired_count_le n h
  have hslot : 0 < pool.state.slotsAcquired.count n := List.count_pos_iff.mpr hn
  rw [← List.count_pos_iff]
  omega

end Releases

/-! ## Capacity -/

section Capacity

variable {N : HandshakePrimitives} {P : Primitives} {pool : Pool Server ServerInstr}

/-- Slot conservation and the disconnect hook, for every interleaving of the goroutines of a
server.

Each of the two channels holds one token for every socket between its `tryAcquire` and its
`release`, within its limit; a release does not block and takes the token of its own socket.
When all workers have returned the connection channel is empty, and the handshake channel
holds tokens of `Serve` calls only that have not registered their socket; without such a
call it is empty as well.

`OnDisconnect` is called once for a worker that obtained a slot and was admitted, and not
for another one; the connection has then ended, with the cause that is passed on, and the
slot is still taken. -/
theorem slots_conserved {setup : ServerSetup} {server : Server}
    (hnew : newServer N setup = .ok server)
    (h : (serverMachine N P).Reaches (serverStart server) pool) :
    (∀ c : SlotChannel,
      pool.state.tokens c = (pool.state.holders c).card ∧
      (pool.state.tokens c : Int) ≤ c.limit server.config ∧
      (∀ n, n ∈ pool.state.holders c ↔ ∃ t ∈ pool.threads, ∃ i ∈ t, i.owes c n = true) ∧
      ∀ (k n : Nat) (rest : List ServerInstr),
        pool.threads[k]? = some (c.release n :: rest) →
        n ∈ pool.state.holders c ∧
        (∃ effect, ServerExec N P pool.state (c.release n) effect) ∧
        ∀ effect, ServerExec N P pool.state (c.release n) effect →
          effect.state.holders c = (pool.state.holders c).erase n) ∧
    ((∀ n ∈ pool.state.registered, n ∈ pool.state.returned) →
      pool.state.connSlots = 0 ∧
      (∀ n ∈ pool.state.holders .handshakes, n ∉ pool.state.registered) ∧
      ((∀ n ∈ pool.state.handshakesAcquired,
        n ∈ pool.state.registered ∨ n ∈ pool.state.handshakesReleased) →
        pool.state.handshakes = 0)) ∧
    (server.config.onDisconnect = false → pool.state.disconnects = []) ∧
    (server.config.onDisconnect = true → ∀ n,
      pool.state.disconnected.count n ≤ 1 ∧
      (n ∈ pool.state.disconnected → pool.state.Admitted n) ∧
      (n ∈ pool.state.returned ∨ n ∈ pool.state.slotsReleased →
        (pool.state.disconnected.count n = 1 ↔ pool.state.Admitted n))) ∧
    (∀ after, (serverMachine N P).Step pool after →
      after.state.disconnects ≠ pool.state.disconnects →
      ∃ n info runtime, pool.state.runtimes n = some runtime ∧ runtime.state.Terminated ∧
        n ∈ pool.state.holders .conns ∧
        after.state.disconnects =
          pool.state.disconnects ++ [(n, info, runtime.state.terminal)]) := by
  obtain ⟨config, hconfig, rfl⟩ := newServer_eq_new hnew
  have htallied := tallied_of_reaches hconfig h
  have hsame : pool.state.config = config := htallied.config_eq
  refine ⟨fun c => ⟨tokens_eq_card htallied h, htallied.bounded c, fun n => mem_holders_iff h, ?_⟩,
    fun hreturned => ⟨?_, fun n hn hregistered => ?_,
      tokens_eq_zero (c := .handshakes) htallied h hreturned⟩,
    fun hhook => disconnects_eq_nil h (hsame.symm ▸ hhook),
    fun hhook => disconnected_once h (hsame.symm ▸ hhook),
    fun after hstep => terminated_of_disconnect h hstep⟩
  · intro k n rest hk
    have hholds := mem_holders_of_release h hk
    have hheld : 0 < pool.state.tokens c := by
      rw [tokens_eq_card htallied h]
      exact Finset.card_pos.mpr ⟨n, hholds⟩
    exact ⟨hholds, exists_release N P n hheld, fun effect hexec => hexec.holders_of_release⟩
  · exact tokens_eq_zero (c := .conns) htallied h hreturned
      fun n hn => .inl (registered_of_slotted h hn)
  · exact unreturned_of_mem_holders h hn (hreturned n hregistered)

end Capacity

/-! ## A run with the hook -/

section Sample

variable {N : HandshakePrimitives} {P : Primitives}

/-- Nothing but its owner ends the context of a connection, and nothing renews it. -/
theorem callers_eq_none_of_step {before after : Pool Connection Instr}
    (hstep : (connectionMachine P).Step before after) {id : Nat}
    (hlive : after.state.callers id = none) : before.state.callers id = none := by
  cases hstep with
  | thread k hk hexec => exact hexec.callers_eq ▸ hlive
  | @ambient s s' threads new hambient =>
      cases hambient with
      | call => exact hlive
      | cancelCaller m err hm =>
          by_cases hid : id = m
          · rwa [hid]
          · exact (Function.update_of_ne hid _ s.callers).symm.trans hlive

/-- A run of a connection whose context lives is one of a server. -/
theorem runtime_reaches {s : Server} {threads : List (List ServerInstr)} {n : Nat}
    {before after : Pool Connection Instr} (h : s.runtimes n = some before)
    (hreach : (connectionMachine P).Reaches before after)
    (hlive : after.state.callers 0 = none) :
    (serverMachine N P).Reaches ⟨s, threads⟩
      ⟨{ s with runtimes := Function.update s.runtimes n (some after) }, threads⟩ := by
  have hsteps : Relation.ReflTransGen (fun before after => (connectionMachine P).Step before after ∧
      after.state.callers 0 = before.state.callers 0) before after := by
    induction hreach with
    | refl => exact .refl
    | @tail middle after hmiddle hlast ih =>
        have hmiddlelive := callers_eq_none_of_step hlast hlive
        exact (ih hmiddlelive).tail ⟨hlast, hlive.trans hmiddlelive.symm⟩
  refine reaches_of_runtime (fun hbefore hstep => ?_) h hsteps
  exact ServerAmbient.runtime hbefore hstep.1 hstep.2

theorem leads_runtime {Q : Pool Server ServerInstr → Prop} {s : Server}
    {threads : List (List ServerInstr)} {n : Nat}
    {before after : Pool Connection Instr} (h : s.runtimes n = some before)
    (hreach : (connectionMachine P).Reaches before after)
    (hlive : after.state.callers 0 = none)
    (hleads : (serverMachine N P).Leads Q
      ⟨{ s with runtimes := Function.update s.runtimes n (some after) }, threads⟩) :
    (serverMachine N P).Leads Q ⟨s, threads⟩ := by
  obtain ⟨reached, hreached, hQ⟩ := hleads
  exact ⟨reached, (runtime_reaches h hreach hlive).trans hreached, hQ⟩

/-- A worker whose handoff is refused closes its connection and calls the hook. -/
theorem refused_hook {Q : Pool Server ServerInstr → Prop} {s : Server} {session : Session}
    {config : ConnectionConfig} {info : AdmissionInfo} {t rest : List ServerInstr}
    {threads : List (List ServerInstr)} (hshutdown : s.inShutdown = true)
    (hruntime : s.runtimes 0 = some (connectionStart session config))
    (h : ∀ runtime, (serverMachine N P).Leads Q
      ⟨{ s with runtimes := Function.update s.runtimes 0 (some runtime) },
        t :: (.callDisconnect 0 info :: rest) :: threads⟩) :
    (serverMachine N P).Leads Q
      ⟨s, t :: (.registerConn 0 :: .callDisconnect 0 info :: rest) :: threads⟩ := by
  obtain ⟨closed, hclosed, -, -, -, hthreads, hlive⟩ := close_unstarted P session config
  have hended : closed.threads[0]? = some [] := by
    rw [hthreads]
    rfl
  refine .second (.worker (.handoffRefused hshutdown)) ?_
  refine .second (.runtime (.callConn hruntime)) ?_
  refine leads_runtime (n := 0) rfl hclosed (congrFun hlive 0) ?_
  refine .second (.runtime (.callReturned rfl hended)) ?_
  simp only [Function.update_idem, List.append_nil]
  exact h closed

/-- The worker calls the hook and returns. -/
theorem refused_worker {s : Server} {slots workers : Nat} {session : Session}
    {config : ConnectionConfig} {info : AdmissionInfo} {t : List ServerInstr}
    {threads : List (List ServerInstr)} (hshutdown : s.inShutdown = true)
    (hruntime : s.runtimes 0 = some (connectionStart session config))
    (hslots : s.connSlots = slots + 1) (hwg : s.wg = workers + 1) :
    (serverMachine N P).Leads
      (fun pool => pool.state.registered = s.registered ∧
        pool.state.returned = s.returned ++ [0] ∧ pool.state.slotsAcquired = s.slotsAcquired ∧
        pool.state.handshakesAcquired = s.handshakesAcquired ∧ pool.state.config = s.config)
      ⟨s, t :: [.registerConn 0, .callDisconnect 0 info, .releaseConn 0, .closeSocket 0,
        .unregisterHandshake 0, .workerDone 0] :: threads⟩ := by
  refine refused_hook hshutdown hruntime fun runtime => ?_
  refine .second (.runtime (.callDisconnect rfl)) ?_
  refine .second (.worker (.releaseConn hslots)) (.second (.worker .closeSocket) ?_)
  refine .second (.worker .unregisterHandshake) (.second (.worker (.workerDone hwg)) ?_)
  exact .here ⟨rfl, rfl, rfl, rfl, rfl⟩

/-- A server with the hook and without `Admission`. -/
def hookSetup : ServerSetup := ⟨⟨plainKey 2, [], 0⟩, sampleSettings, 0, 0, false, true⟩

/-- The worker of an honest client ends its handshake with a session. -/
theorem honest_handshake {Q : Pool Server ServerInstr → Prop} {s : Server}
    {t rest : List ServerInstr} {threads : List (List ServerInstr)}
    (hconfig : s.config = hookSetup.normalized)
    (h : ∀ session info reads, (serverMachine plainExchange transparent).Leads Q
      ⟨{ s with handshakeReads := reads },
        t :: (.releaseHandshake 0 :: .acquireConn 0 session info :: rest) :: threads⟩) :
    (serverMachine plainExchange transparent).Leads Q
      ⟨s, t :: (.performHandshake 0 :: rest) :: threads⟩ := by
  obtain ⟨run⟩ : Nonempty (HonestRun plainExchange plainClient.staticKey
      hookSetup.normalized.toServerConfig.staticKey ⟨List.replicate 32 7, none⟩
      ⟨List.replicate 32 8, none⟩ handshakePrologue) :=
    plainExchange_honestRuns _ _ _ _ _ rfl rfl (by decide) (by decide)
  obtain ⟨afterInit, hread1, afterWrite, hwrite2, afterFinish, hread3, hdone⟩ :=
    performHandshake_honest run transparent 0 rfl
  have hid : run.responderResult.sessionID ≠ Octets.zero 16 := by
    show transcriptSessionID plainExchange (List.replicate 32 0) ≠ Octets.zero 16
    decide
  have hsession : newSessionFromHandshake transparent hookSetup.normalized.cipherSuite
      run.responderResult 0 = .ok _ := newSession_of_new transparent_newSucceeds hid 0
  rw [serverOutcome_allowed run transparent 0 (.inl rfl)] at hdone
  refine .second (.worker (.performHandshake ⟨List.replicate 32 8, none⟩ 0)) ?_
  rw [hconfig, hread1]
  refine .second (.worker (.frameRead run.frame1)) ?_
  rw [hwrite2]
  refine .second (.worker (.frameWritten (.ok ()))) ?_
  rw [hread3]
  refine .second (.worker (.frameRead run.frame3)) ?_
  rw [hdone, hsession]
  refine .second (.worker .handshakeDone) ?_
  simp only [List.append_nil]
  exact h _ _ _

/-- A handshake succeeds, and a shutdown begins before the handoff. -/
theorem refused_run {Q : Pool Server ServerInstr → Prop}
    (h : ∀ {s : Server} {session : Session} {info : AdmissionInfo} {snapshot : Snapshot},
      s.inShutdown = true →
      s.runtimes 0 = some (connectionStart session hookSetup.normalized.connConfig) →
      (s.connSlots = 1 ∧ s.wg = 1) → (s.registered = [0] ∧ s.returned = []) →
      (s.slotsAcquired = [0] ∧ s.handshakesAcquired = [0]) → s.config = hookSetup.normalized →
      (serverMachine plainExchange transparent).Leads Q
        ⟨s, [.accept 7 0] :: [.registerConn 0, .callDisconnect 0 info, .releaseConn 0,
          .closeSocket 0, .unregisterHandshake 0, .workerDone 0] ::
            [[.closeListener .close snapshot]]⟩) :
    (serverMachine plainExchange transparent).Leads Q
      (serverStart (.new hookSetup.normalized)) := by
  refine .step (.ambient (.serve (some 7))) (.first (.serve (.serve rfl)) ?_)
  refine .first (.serve .accepted) (.first (.serve (.handshakeAcquired (by decide))) ?_)
  refine .first (.serve (.handshakeRegistered rfl)) (.first (.serve .launchWorker) ?_)
  refine honest_handshake rfl fun session info reads => ?_
  refine .second (.worker (.releaseHandshake rfl)) ?_
  refine .second (.worker (.connAcquired (Nat.zero_lt_succ _))) ?_
  refine .step (.ambient (.shutdown .close)) ?_
  refine .after [_, _] (.shutdown (.beginShutdown ⟨some 7, [], [0]⟩ rfl ?_ ?_)) ?_
  · exact ⟨List.nodup_nil, rfl⟩
  · exact ⟨List.nodup_singleton 0, rfl⟩
  exact h rfl rfl ⟨rfl, rfl⟩ ⟨rfl, rfl⟩ ⟨rfl, rfl⟩ rfl

/-- The handoff is refused, and the hook is called. -/
theorem hook_run :
    (serverMachine plainExchange transparent).Leads
      (fun pool => pool.state.registered = [0] ∧ pool.state.returned = [0] ∧
        pool.state.slotsAcquired = [0] ∧ pool.state.handshakesAcquired = [0] ∧
        pool.state.config = hookSetup.normalized)
      (serverStart (.new hookSetup.normalized)) := by
  refine refused_run fun hshutdown hruntime hheld hworker hacquired hconfig => ?_
  obtain ⟨last, hlast, hregistered, hreturned, hslots, hhandshakes, hsame⟩ :=
    refused_worker hshutdown hruntime hheld.1 hheld.2
  exact ⟨last, hlast, hregistered.trans hworker.1, hreturned.trans (by rw [hworker.2]; rfl),
    hslots.trans hacquired.1, hhandshakes.trans hacquired.2, hsame.trans hconfig⟩

theorem slots_conserved_hook :
    newServer plainExchange hookSetup = .ok (.new hookSetup.normalized) ∧
    ∃ pool, (serverMachine plainExchange transparent).Reaches
        (serverStart (.new hookSetup.normalized)) pool ∧
      pool.state.returned = [0] ∧ pool.state.disconnected.count 0 = 1 ∧
      pool.state.connSlots = 0 ∧ pool.state.handshakes = 0 := by
  have hnew : newServer plainExchange hookSetup = .ok (.new hookSetup.normalized) := rfl
  obtain ⟨pool, hreach, hregistered, hreturned, hslot, hhandshake, hconfig⟩ := hook_run
  obtain ⟨-, hempty, -, hhook, -⟩ := slots_conserved hnew hreach
  have hadmitted : pool.state.Admitted 0 := by
    refine ⟨by rw [hslot]; exact List.mem_cons_self, .inl ?_⟩
    rw [hconfig]
    rfl
  have hall : ∀ n ∈ pool.state.registered, n ∈ pool.state.returned := by
    rw [hregistered, hreturned]
    exact fun n hn => hn
  obtain ⟨hconns, -, hhandshakes⟩ := hempty hall
  refine ⟨hnew, pool, hreach, hreturned, ?_, hconns, hhandshakes fun n hn => .inl ?_⟩
  · refine ((hhook rfl 0).2.2 (.inl ?_)).mpr hadmitted
    rw [hreturned]
    exact List.mem_cons_self
  · rw [hregistered]
    rwa [hhandshake] at hn

end Sample

end DgProto
