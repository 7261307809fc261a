import DgProto.Server.Ownership

/-!
# The two capacity pools of a server

`handshakes` and `connSlots` are channels that hold a token for each worker between its
`tryAcquire` and its `release`.  The accounts of `ServerAccount` say who still has to give
back a token; here they are counted against what is in the channels.

The deferred calls of a worker stand in a fixed order: the hook before the slot is
released, and both before the worker returns.  So a worker that has returned owes nothing,
and the hook is called while the worker has its slot.
-/

namespace DgProto

open Library Crypto

/-! ## Channels -/

/-- The channels of tokens. -/
inductive SlotChannel where
  | handshakes
  | conns
  deriving DecidableEq

/-- `s.release(slots)` for the token of this socket. -/
def SlotChannel.release : SlotChannel → Nat → ServerInstr
  | .handshakes, n => .releaseHandshake n
  | .conns, n => .releaseConn n

/-- The limit in the configuration. -/
def SlotChannel.limit (config : ServerSetup) : SlotChannel → Int
  | .handshakes => config.maxConcurrentHandshakes
  | .conns => config.maxActiveConnections

def SlotChannel.account : SlotChannel → ServerAccount
  | .handshakes => .handshake
  | .conns => .slot

namespace Server

/-- The tokens in a channel. -/
def tokens (s : Server) : SlotChannel → Nat
  | .handshakes => s.handshakes
  | .conns => s.connSlots

/-- The sockets for which a `tryAcquire` has succeeded. -/
def acquired (s : Server) : SlotChannel → List Nat
  | .handshakes => s.handshakesAcquired
  | .conns => s.slotsAcquired

/-- The sockets for which a `release` has returned. -/
def released (s : Server) : SlotChannel → List Nat
  | .handshakes => s.handshakesReleased
  | .conns => s.slotsReleased

/-- The sockets between their `tryAcquire` and their `release`. -/
def holders (s : Server) (c : SlotChannel) : Finset Nat :=
  (s.acquired c).toFinset \ (s.released c).toFinset

/-- The worker has obtained a connection slot, and `Admission` is absent or has accepted. -/
def Admitted (s : Server) (n : Nat) : Prop :=
  n ∈ s.slotsAcquired ∧
    (s.config.admission = false ∨ ∃ info, (n, info, none) ∈ s.admissions)

/-- The workers for which `OnDisconnect` was called. -/
def disconnected (s : Server) : List Nat := s.disconnects.map (·.1)

end Server

/-- The goroutine holds the token of this socket, or is the worker that will release it. -/
def ServerInstr.owes (c : SlotChannel) (n : Nat) : ServerInstr → Bool
  | .registerHandshake _ m | .launchWorker _ m | .performHandshake m | .exchange m _
  | .releaseHandshake m => c = .handshakes && m == n
  | .releaseConn m => c = .conns && m == n
  | _ => false

theorem SlotChannel.weight_account (c : SlotChannel) (n : Nat) (i : ServerInstr) :
    c.account.weight (· == n) i = if i.owes c n then 1 else 0 := by
  cases c <;> cases i <;> simp [SlotChannel.account, ServerInstr.owes]

/-! ## What the channels hold -/

/-- What an instruction does to the channels. -/
inductive ChannelStep (s : Server) (s' : Server) : Prop where
  | same (hconfig : s'.config = s.config) (htokens : s'.tokens = s.tokens)
      (hacquired : s'.acquired = s.acquired) (hreleased : s'.released = s.released)
  | acquired (c : SlotChannel) (n : Nat) (hfree : (s.tokens c : Int) < c.limit s.config)
      (hconfig : s'.config = s.config)
      (htokens : s'.tokens = Function.update s.tokens c (s.tokens c + 1))
      (hacquired : s'.acquired = Function.update s.acquired c (s.acquired c ++ [n]))
      (hreleased : s'.released = s.released)
  | released (c : SlotChannel) (n tokens : Nat) (hheld : s.tokens c = tokens + 1)
      (hconfig : s'.config = s.config) (htokens : s'.tokens = Function.update s.tokens c tokens)
      (hacquired : s'.acquired = s.acquired)
      (hreleased : s'.released = Function.update s.released c (s.released c ++ [n]))

section Channels

variable {N : HandshakePrimitives} {P : Primitives} {config : ServerSetup} {s s' : Server}
  {i : ServerInstr} {effect : Effect Server ServerInstr} {c : SlotChannel} {n : Nat}

theorem ServeExec.channelStep (h : ServeExec s i effect) : ChannelStep s effect.state := by
  cases h with
  | @handshakeAcquired listener n h =>
      refine .acquired .handshakes n ?_ rfl ?_ ?_ rfl
      · show (s.handshakes : Int) < s.config.maxConcurrentHandshakes
        simp only [Server.handshakeCapacity] at h
        omega
      · funext c
        cases c <;> rfl
      · funext c
        cases c <;> rfl
  | _ => exact .same rfl rfl rfl rfl

theorem WorkerExec.channelStep (h : WorkerExec N P s i effect) : ChannelStep s effect.state := by
  cases h with
  | @connAcquired n _ _ h =>
      refine .acquired .conns n ?_ rfl ?_ ?_ rfl
      · show (s.connSlots : Int) < s.config.maxActiveConnections
        simp only [Server.connCapacity] at h
        omega
      · funext c
        cases c <;> rfl
      · funext c
        cases c <;> rfl
  | @releaseHandshake n tokens h =>
      refine .released .handshakes n tokens h rfl ?_ rfl ?_ <;>
      · funext c
        cases c <;> rfl
  | @releaseConn n tokens h =>
      refine .released .conns n tokens h rfl ?_ rfl ?_ <;>
      · funext c
        cases c <;> rfl
  | _ => exact .same rfl rfl rfl rfl

theorem ServerExec.channelStep (h : ServerExec N P s i effect) : ChannelStep s effect.state := by
  cases h with
  | serve h | worker h => exact h.channelStep
  | runtime h | shutdown h => cases h <;> exact .same rfl rfl rfl rfl

/-- The channels hold what was acquired and not released, within their limits. -/
structure Tallied (config : ServerSetup) (s : Server) : Prop where
  config_eq : s.config = config
  filled : ∀ c, s.tokens c + (s.released c).length = (s.acquired c).length
  bounded : ∀ c, (s.tokens c : Int) ≤ c.limit config

/-- A step that leaves all but one channel alone has to be checked there only. -/
theorem Tallied.move (h : Tallied config s) (hconfig : s'.config = s.config) (c : SlotChannel)
    (hothers : ∀ d, d ≠ c → s'.tokens d = s.tokens d ∧ s'.acquired d = s.acquired d ∧
      s'.released d = s.released d)
    (hfilled : s'.tokens c + (s'.released c).length = (s'.acquired c).length)
    (hbounded : (s'.tokens c : Int) ≤ c.limit config) : Tallied config s' := by
  refine ⟨hconfig.trans h.config_eq, fun d => ?_, fun d => ?_⟩
  · by_cases hd : d = c
    · exact hd ▸ hfilled
    · obtain ⟨htokens, hacquired, hreleased⟩ := hothers d hd
      rw [htokens, hacquired, hreleased]
      exact h.filled d
  · by_cases hd : d = c
    · exact hd ▸ hbounded
    · rw [(hothers d hd).1]
      exact h.bounded d

theorem Tallied.step (h : Tallied config s) (hstep : ChannelStep s s') : Tallied config s' := by
  cases hstep with
  | same hconfig htokens hacquired hreleased =>
      refine ⟨hconfig.trans h.config_eq, fun c => ?_, fun c => ?_⟩
      · rw [htokens, hacquired, hreleased]
        exact h.filled c
      · rw [htokens]
        exact h.bounded c
  | acquired c n hfree hconfig htokens hacquired hreleased =>
      have hfilled := h.filled c
      rw [h.config_eq] at hfree
      refine h.move hconfig c (fun d hd => ?_) ?_ ?_
      · rw [htokens, hacquired, hreleased]
        exact ⟨Function.update_of_ne hd .., Function.update_of_ne hd .., rfl⟩
      · rw [htokens, hacquired, hreleased, Function.update_self, Function.update_self,
          List.length_append, List.length_singleton]
        omega
      · rw [htokens, Function.update_self]
        omega
  | released c n tokens hheld hconfig htokens hacquired hreleased =>
      have hfilled := h.filled c
      have hbounded := h.bounded c
      refine h.move hconfig c (fun d hd => ?_) ?_ ?_
      · rw [htokens, hacquired, hreleased]
        exact ⟨Function.update_of_ne hd .., rfl, Function.update_of_ne hd ..⟩
      · rw [htokens, hacquired, hreleased, Function.update_self, Function.update_self,
          List.length_append, List.length_singleton]
        omega
      · rw [htokens, Function.update_self]
        omega

theorem limit_nonneg {setup : ServerSetup} (hconfig : newServerConfig N setup = .ok config)
    (c : SlotChannel) : 0 ≤ c.limit config := by
  have hpos := newServerConfig_pos hconfig
  cases c with
  | handshakes => exact hpos.1.le
  | conns => exact hpos.2.le

theorem tallied_of_reaches {setup : ServerSetup} {pool : Pool Server ServerInstr}
    (hconfig : newServerConfig N setup = .ok config)
    (h : (serverMachine N P).Reaches (serverStart (.new config)) pool) :
    Tallied config pool.state := by
  refine Machine.invariant_of_step (I := fun pool => Tallied config pool.state) ?_ ?_ h
  · intro before after hbefore hstep
    cases hstep with
    | thread k hk hexec => exact hbefore.step (ServerExec.channelStep hexec)
    | ambient hambient =>
        refine hbefore.step ?_
        cases hambient <;> exact .same rfl rfl rfl rfl
  · refine ⟨rfl, fun c => ?_, fun c => ?_⟩
    · cases c <;> rfl
    · cases c
      · exact limit_nonneg hconfig .handshakes
      · exact limit_nonneg hconfig .conns

end Channels

/-! ## The order in a worker -/

/-- What a worker does for its socket before it returns. -/
@[simp] def ServerInstr.works (n : Nat) : ServerInstr → Bool
  | .performHandshake m | .exchange m _ | .acquireConn m _ _ | .callAdmission m _
  | .registerConn m | .unregisterConn m | .callDisconnect m _ | .releaseConn m
  | .unregisterHandshake m => m == n
  | _ => false

/-- The registration was refused, which can only be the end of it. -/
def Server.Refused (s : Server) (n : Nat) : Prop := s.inShutdown = true ∧ n ∉ s.registered

/-- The worker goes on with its socket; a `Serve` that was refused only gives the token back. -/
def Server.Attends (s : Server) (n : Nat) (i : ServerInstr) : Prop :=
  i.works n = true ∨ i = .releaseHandshake n ∧ ¬ s.Refused n

/-- The worker is to call the hook. -/
@[simp] def ServerInstr.reports (n : Nat) : ServerInstr → Bool
  | .callAdmission m _ | .callDisconnect m _ => m == n
  | _ => false

/-- The deferred calls stand in their order. -/
structure DefersInOrder (pool : Pool Server ServerInstr) : Prop where
  attended : ∀ n, ∀ t ∈ pool.threads,
    Followed (pool.state.Attends n) (fun i => i = .workerDone n) t
  reported : ∀ n, ∀ t ∈ pool.threads,
    Followed (fun i => i.reports n = true) (fun i => i = .releaseConn n) t

section Order

variable {N : HandshakePrimitives} {P : Primitives} {config : ServerSetup} {s : Server}
  {i : ServerInstr} {effect : Effect Server ServerInstr} {n : Nat}
  {before after pool : Pool Server ServerInstr}

/-- Only an instruction for the socket leaves more to do for it. -/
theorem ServerExec.works_of_pushed (h : ServerExec N P s i effect)
    (hany : effect.pushed.any (ServerInstr.works n) = true) : i.works n = true := by
  cases h with
  | serve h => cases h <;> simp at hany
  | worker h =>
      cases h with
      | connAcquired | admissionAccepted =>
          cases hadmission : s.config.admission <;> cases hhook : s.config.onDisconnect <;>
            simp [afterSlot, handoff, hadmission, hhook] at hany ⊢ <;>
            exact hany
      | performHandshake | frameWritten | frameRead | readFailed | handshakeDone | handedOff =>
          simpa [runConn] using hany
      | _ => simp at hany
  | runtime h => cases h <;> simp at hany
  | shutdown h =>
      cases h with
      | closeListener =>
          obtain ⟨j, hj, hworks⟩ := List.any_eq_true.mp hany
          rcases mem_shutdownProgram hj with ⟨m, rfl⟩ | ⟨m, rfl⟩ | rfl | rfl <;> cases hworks
      | _ => simp at hany

/-- The token is released by the worker, or by a `Serve` that was refused. -/
theorem ServerExec.release_of_pushed (h : ServerExec N P s i effect)
    (hj : .releaseHandshake n ∈ effect.pushed) :
    i.works n = true ∨
      ∃ listener, i = .registerHandshake listener n ∧ s.inShutdown = true := by
  cases h with
  | serve h =>
      cases h with
      | @registrationRefused listener m hshutdown =>
          obtain rfl : n = m := by simpa using hj
          exact .inr ⟨listener, rfl, hshutdown⟩
      | _ => simp at hj
  | worker h =>
      cases h with
      | connAcquired | admissionAccepted =>
          cases hadmission : s.config.admission <;> cases hhook : s.config.onDisconnect <;>
            simp [afterSlot, handoff, hadmission, hhook] at hj
      | @handshakeFailed m | @handshakeDone m =>
          obtain rfl : n = m := by simpa using hj
          exact .inl (beq_self_eq_true n)
      | _ => simp [runConn] at hj
  | runtime h => cases h <;> simp at hj
  | shutdown h =>
      cases h with
      | closeListener =>
          rcases mem_shutdownProgram hj with ⟨m, h⟩ | ⟨m, h⟩ | h | h <;> cases h
      | _ => simp at hj

/-- A worker that is to call the hook releases its slot afterwards. -/
theorem ServerExec.reports_pushed (h : ServerExec N P s i effect) (n : Nat) :
    i.reports n = true ∨
      Followed (fun i => i.reports n = true) (fun i => i = .releaseConn n) effect.pushed := by
  cases h with
  | serve h => cases h <;> simp [Followed]
  | worker h =>
      cases h with
      | connAcquired =>
          cases hadmission : s.config.admission <;> cases hhook : s.config.onDisconnect <;>
            simp [Followed, afterSlot, handoff, hadmission, hhook] <;>
            exact Eq.symm
      | @admissionAccepted m info =>
          by_cases hm : m = n
          · exact .inl (beq_iff_eq.mpr hm)
          · cases hhook : s.config.onDisconnect <;>
              simp [Followed, handoff, hhook, hm]
      | _ => simp [Followed, runConn]
  | runtime h => cases h <;> simp [Followed]
  | shutdown h =>
      cases h with
      | closeListener =>
          refine .inr (Followed.of_free fun j hj => ?_)
          rcases mem_shutdownProgram hj with ⟨m, rfl⟩ | ⟨m, rfl⟩ | rfl | rfl <;>
            simp
      | _ => simp [Followed]

/-- A worker and a watcher start in order. -/
theorem ServerExec.spawned_cases (h : ServerExec N P s i effect) :
    ∀ t ∈ effect.spawned, (∃ m, t = workerProgram m) ∨ ∃ m, t = [.watchClosed m] := by
  intro t ht
  cases h with
  | serve h =>
      cases h with
      | @launchWorker listener m => exact .inl ⟨m, List.mem_singleton.mp ht⟩
      | _ => exact absurd ht List.not_mem_nil
  | worker h => cases h <;> exact absurd ht List.not_mem_nil
  | runtime h =>
      cases h with
      | @launchWatcher m => exact .inr ⟨m, List.mem_singleton.mp ht⟩
      | _ => exact absurd ht List.not_mem_nil
  | shutdown h => cases h <;> exact absurd ht List.not_mem_nil

theorem Server.Attends.of_step {s' : Server} (h : s'.Attends n i)
    (hrefused : s.Refused n → s'.Refused n) : s.Attends n i :=
  h.imp_right fun hrelease => ⟨hrelease.1, fun hold => hrelease.2 (hrefused hold)⟩

/-- A refused socket stays so: no socket is registered any more. -/
theorem Server.Refused.step (h : before.state.Refused n)
    (hstep : (serverMachine N P).Step before after) : after.state.Refused n := by
  have hshrinks := shrinks_of_reaches h.1 (.single hstep)
  refine ⟨hshrinks.inShutdown, ?_⟩
  have hregistered : after.state.registered = before.state.registered := hshrinks.registered
  rw [hregistered]
  exact h.2

theorem followed_workerProgram (s : Server) (n m : Nat) :
    Followed (s.Attends n) (fun i => i = .workerDone n) (workerProgram m) := by
  have hdone : ∀ {i : ServerInstr}, s.Attends n i → (i.works n = true → m = n) →
      i ≠ .releaseHandshake n → ServerInstr.workerDone m = .workerDone n := by
    rintro i (hworks | ⟨hrelease, -⟩) hsame hne
    · exact congrArg ServerInstr.workerDone (hsame hworks)
    · exact absurd hrelease hne
  refine ⟨fun hattends => ⟨.workerDone m, by simp, ?_⟩, ?_,
    fun hattends => ⟨.workerDone m, by simp, ?_⟩, ?_, trivial⟩
  · exact hdone hattends beq_iff_eq.mp (by simp)
  · simp [Server.Attends]
  · exact hdone hattends beq_iff_eq.mp (by simp)
  · simp [Server.Attends]

theorem DefersInOrder.step (h : DefersInOrder before)
    (hreach : (serverMachine N P).Reaches (serverStart (.new config)) before)
    (hstep : (serverMachine N P).Step before after) : DefersInOrder after := by
  have hrefused : ∀ n, before.state.Refused n → after.state.Refused n := fun n hn => hn.step hstep
  have hattended : ∀ n, ∀ t ∈ before.threads,
      Followed (after.state.Attends n) (fun i => i = .workerDone n) t :=
    fun n t ht => (h.attended n t ht).mono fun i hi => hi.of_step (hrefused n)
  cases hstep with
  | @thread s threads k i rest effect hk hexec =>
      refine ⟨fun n => ?_, fun n => ?_⟩
      · refine followed_step (hattended n) hk ?_ fun t ht => ?_
        · by_cases hworks : i.works n = true
          · exact .inl (.inl hworks)
          · refine .inr (Followed.of_free fun j hj => ?_)
            rintro (hj' | ⟨rfl, hnot⟩)
            · exact hworks (ServerExec.works_of_pushed hexec (List.any_eq_true.mpr ⟨j, hj, hj'⟩))
            · rcases ServerExec.release_of_pushed hexec hj with hi | ⟨listener, hi, hshutdown⟩
              · exact hworks hi
              · exact hnot (hrefused n ⟨hshutdown, unregistered_of_reaches hreach hk listener n hi⟩)
        · rcases ServerExec.spawned_cases hexec t ht with ⟨m, rfl⟩ | ⟨m, rfl⟩
          · exact followed_workerProgram _ n m
          · simp [Followed, Server.Attends]
      · refine followed_step (h.reported n) hk (ServerExec.reports_pushed hexec n) fun t ht => ?_
        rcases ServerExec.spawned_cases hexec t ht with ⟨m, rfl⟩ | ⟨m, rfl⟩ <;>
          simp [Followed, workerProgram]
  | @ambient s s' threads new hambient =>
      have hnew : ∀ t ∈ new, ∀ n, Followed (s'.Attends n) (fun i => i = .workerDone n) t ∧
          Followed (fun i => i.reports n = true) (fun i => i = .releaseConn n) t := by
        cases hambient <;>
          simp [Followed, Server.Attends]
      refine ⟨fun n t ht => ?_, fun n t ht => ?_⟩
      · exact (List.mem_append.mp ht).elim (hattended n t) fun ht => (hnew t ht n).1
      · exact (List.mem_append.mp ht).elim (h.reported n t) fun ht => (hnew t ht n).2

theorem defersInOrder_of_reaches
    (h : (serverMachine N P).Reaches (serverStart (.new config)) pool) : DefersInOrder pool := by
  induction h with
  | refl => constructor <;> simp [serverStart]
  | tail hreach hstep ih => exact ih.step hreach hstep

end Order

/-! ## Single workers -/

section Workers

variable {N : HandshakePrimitives} {P : Primitives} {config : ServerSetup}
  {pool : Pool Server ServerInstr} {n : Nat} {c : SlotChannel}

/-- Of a token that was acquired, either it was released or some goroutine owes it. -/
theorem acquired_count_eq (c : SlotChannel) (n : Nat)
    (h : (serverMachine N P).Reaches (serverStart (.new config)) pool) :
    (pool.state.acquired c).count n =
      (pool.state.released c).count n + load (c.account.weight (· == n)) pool.threads := by
  have hbalanced := serverAccount_balanced (· == n) c.account h
  cases c
  · change ((pool.state.handshakesReleased.count n : Int) - pool.state.handshakesAcquired.count n) +
      _ = 0 at hbalanced
    show pool.state.handshakesAcquired.count n = pool.state.handshakesReleased.count n + _
    omega
  · change ((pool.state.slotsReleased.count n : Int) - pool.state.slotsAcquired.count n) +
      _ = 0 at hbalanced
    show pool.state.slotsAcquired.count n = pool.state.slotsReleased.count n + _
    omega

/-- A token is acquired at most once for a socket. -/
theorem acquired_once (c : SlotChannel) (n : Nat)
    (h : (serverMachine N P).Reaches (serverStart (.new config)) pool) :
    (pool.state.acquired c).count n ≤ 1 := by
  have hhandshake := acquired_count_le n h
  have hregistered := registered_count_le n h
  have hslot := slotsAcquired_count_le n h
  cases c
  · exact hhandshake
  · show pool.state.slotsAcquired.count n ≤ 1
    omega

/-- A worker that has something left to do has not returned. -/
theorem unreturned_of_pending (h : (serverMachine N P).Reaches (serverStart (.new config)) pool)
    {t : List ServerInstr} (ht : t ∈ pool.threads) (hdone : .workerDone n ∈ t) :
    n ∈ pool.state.registered ∧ n ∉ pool.state.returned := by
  have hbalanced := serverAccount_balanced (· == n) .worker h
  change ((pool.state.returned.count n : Int) - pool.state.registered.count n) + _ = 0 at hbalanced
  have honce := acquired_count_le n h
  have hstage := registered_count_le n h
  have hload : ServerAccount.worker.weight (· == n) (.workerDone n) ≤
      load (ServerAccount.worker.weight (· == n)) pool.threads := weight_le_load ht hdone
  have hweight : ServerAccount.worker.weight (· == n) (.workerDone n) = 1 := by
    simp
  rw [← List.count_pos_iff, ← List.count_eq_zero]
  omega

theorem registered_of_returned (h : (serverMachine N P).Reaches (serverStart (.new config)) pool)
    (hn : n ∈ pool.state.returned) :
    n ∈ pool.state.registered ∧
      load (ServerAccount.worker.weight (· == n)) pool.threads = 0 := by
  have hbalanced := serverAccount_balanced (· == n) .worker h
  change ((pool.state.returned.count n : Int) - pool.state.registered.count n) + _ = 0 at hbalanced
  have honce := acquired_count_le n h
  have hstage := registered_count_le n h
  have hpos : 0 < pool.state.returned.count n := List.count_pos_iff.mpr hn
  rw [← List.count_pos_iff]
  omega

/-- A worker that has returned has nothing left to do for its socket. -/
theorem not_attends_of_returned
    (h : (serverMachine N P).Reaches (serverStart (.new config)) pool)
    (hn : n ∈ pool.state.returned) {t : List ServerInstr} (ht : t ∈ pool.threads)
    {i : ServerInstr} (hi : i ∈ t) : ¬ pool.state.Attends n i := by
  refine ((defersInOrder_of_reaches h).attended n t ht).not_mem (fun j hj hdone => ?_) hi
  subst hdone
  exact (unreturned_of_pending h ht hj).2 hn

/-- The sockets with a token are those for which a goroutine owes it. -/
theorem mem_holders_iff (h : (serverMachine N P).Reaches (serverStart (.new config)) pool) :
    n ∈ pool.state.holders c ↔ ∃ t ∈ pool.threads, ∃ i ∈ t, i.owes c n = true := by
  have hcount := acquired_count_eq c n h
  have honce := acquired_once c n h
  rw [Server.holders, Finset.mem_sdiff, List.mem_toFinset, List.mem_toFinset,
    ← List.count_pos_iff, ← List.count_pos_iff]
  constructor
  · rintro ⟨hacquired, hreleased⟩
    obtain ⟨t, ht, i, hi, hweight⟩ := exists_of_load_pos
      (show 0 < load (c.account.weight (· == n)) pool.threads by omega)
    refine ⟨t, ht, i, hi, ?_⟩
    rw [SlotChannel.weight_account] at hweight
    by_contra howes
    exact hweight (if_neg howes)
  · rintro ⟨t, ht, i, hi, howes⟩
    have hload : c.account.weight (· == n) i ≤ load (c.account.weight (· == n)) pool.threads :=
      weight_le_load ht hi
    rw [SlotChannel.weight_account, if_pos howes] at hload
    omega

/-- A worker that has returned holds no token. -/
theorem unreturned_of_mem_holders
    (h : (serverMachine N P).Reaches (serverStart (.new config)) pool)
    (hn : n ∈ pool.state.holders c) : n ∉ pool.state.returned := by
  intro hreturned
  obtain ⟨t, ht, i, hi, howes⟩ := (mem_holders_iff h).mp hn
  obtain ⟨hregistered, hworker⟩ := registered_of_returned h hreturned
  have hattends : ¬ pool.state.Attends n i := not_attends_of_returned h hreturned ht hi
  cases i with
  | registerHandshake listener m =>
      -- it would be registered again
      obtain ⟨-, rfl⟩ : c = .handshakes ∧ m = n := by simpa [ServerInstr.owes] using howes
      have hstage := registered_count_le m h
      have honce := acquired_count_le m h
      have hload : (ServerToken.registered m).weight (.registerHandshake listener m) ≤
          load (ServerToken.registered m).weight pool.threads := weight_le_load ht hi
      have hweight : (ServerToken.registered m).weight (.registerHandshake listener m) = 1 :=
        if_pos rfl
      have hpos : 0 < pool.state.registered.count m := List.count_pos_iff.mpr hregistered
      omega
  | launchWorker listener m =>
      obtain ⟨-, rfl⟩ : c = .handshakes ∧ m = n := by simpa [ServerInstr.owes] using howes
      have hweight := weight_eq_zero_of_load hworker ht hi
      simp at hweight
  | releaseHandshake m =>
      obtain ⟨-, rfl⟩ : c = .handshakes ∧ m = n := by simpa [ServerInstr.owes] using howes
      exact hattends (.inr ⟨rfl, fun hrefused => hrefused.2 hregistered⟩)
  | performHandshake m | exchange m | releaseConn m =>
      refine hattends (.inl ?_)
      simp only [ServerInstr.owes, Bool.and_eq_true] at howes
      exact howes.2
  | _ => cases howes

/-- What a list of distinct names has over another one. -/
theorem card_sdiff_add_length {acquired released : List Nat} (honce : ∀ n, acquired.count n ≤ 1)
    (hle : ∀ n, released.count n ≤ acquired.count n) :
    (acquired.toFinset \ released.toFinset).card + released.length = acquired.length := by
  have hacquired : acquired.Nodup := List.nodup_iff_count_le_one.mpr honce
  have hreleased : released.Nodup :=
    List.nodup_iff_count_le_one.mpr fun n => (hle n).trans (honce n)
  have hsubset : released.toFinset ⊆ acquired.toFinset := by
    intro n hn
    rw [List.mem_toFinset, ← List.count_pos_iff] at hn ⊢
    exact hn.trans_le (hle n)
  rw [← List.toFinset_card_of_nodup hacquired, ← List.toFinset_card_of_nodup hreleased]
  exact Finset.card_sdiff_add_card_eq_card hsubset

/-- A channel holds one token for each holder. -/
theorem tokens_eq_card (htallied : Tallied config pool.state)
    (h : (serverMachine N P).Reaches (serverStart (.new config)) pool) :
    pool.state.tokens c = (pool.state.holders c).card := by
  have hcard : (pool.state.holders c).card + (pool.state.released c).length =
      (pool.state.acquired c).length := by
    refine card_sdiff_add_length (fun n => acquired_once c n h) fun n => ?_
    have hcount := acquired_count_eq c n h
    omega
  have hfilled := htallied.filled c
  omega

end Workers

end DgProto
