import DgProto.Connection.Loops
import DgProto.Library.Traces

/-!
# Pings and their acknowledgements

`maintenanceLoop` keeps the outstanding nonce in a local variable, while the expected nonce
and the recorded acknowledgement are shared with the reader, and a channel of one slot
wakes the loop up.  The three can disagree: a wakeup may be stale, a reply may come before
the ping is queued, and a ping that could not be queued is taken back.

As long as the connection is not shut down, the local variable decides what the shared
state says (`PingKnown`): without an outstanding ping nothing is expected or recorded, and
with one the record tells whether its own nonce was acknowledged since it was begun.
-/

namespace DgProto

open Library Wire Crypto Connection

/-! ## Events -/

/-- The ping that an executed instruction began. -/
def beganPing (event : Executed Connection Instr) : Option UInt64 :=
  match event.instr with
  | .beginPing _ =>
      if event.before.cancelCause.isNone then some event.effect.state.pingExpected else none
  | _ => none

/-- The executed instruction consumed an acknowledgement. -/
def consumedPong (event : Executed Connection Instr) : Bool :=
  match event.instr with
  | .consumePong st => st.outstanding != 0 && event.before.pingAcknowledged
  | .pongExpired _ => event.before.pingAcknowledged
  | _ => false

/-- The ping that the loop waits for, or is about to send. -/
def Instr.ping : Instr → Option UInt64
  | .maintenance st | .consumePong st | .beginPing st | .pongExpired st =>
      if st.outstanding = 0 then none else some st.outstanding
  | .enqueue call | .checkContext call | .checkClosing call | .offer call
  | .returnEnqueue call _ =>
      match call.after with
      | .ping st => some st.outstanding
      | _ => none
  | _ => none

/-! ## What the loop knows -/

namespace Connection

/-- Nothing is expected and nothing is recorded. -/
def PingClear (s : Connection) : Prop :=
  s.pingExpected = 0 ∧ s.pingAcknowledged = false

/-- The ping is outstanding, and the record says whether it was acknowledged. -/
structure PingAwaited (events : List (Executed Connection Instr)) (s : Connection)
    (nonce : UInt64) : Prop where
  begun : latest beganPing events = some nonce
  nonzero : nonce ≠ 0
  unconsumed : ∀ event ∈ since beganPing events, consumedPong event = false
  record :
    (s.pingExpected = nonce ∧ s.pingAcknowledged = false ∧
        ∀ event ∈ since beganPing events, event.instr ≠ .acknowledgePing nonce) ∨
      (s.pingExpected = 0 ∧ s.pingAcknowledged = true ∧
        ∃ event ∈ since beganPing events, event.instr = .acknowledgePing nonce)

end Connection

/-- What the variables of the loop say about the shared state. -/
structure KeepaliveKnown (events : List (Executed Connection Instr)) (s : Connection)
    (st : Keepalive) : Prop where
  clear : st.outstanding = 0 → st.pongDeadline = false ∧ s.PingClear
  awaited : st.outstanding ≠ 0 → s.PingAwaited events st.outstanding

/-- The loop is about to take a ping back that could not be queued. -/
def TakingBack (threads : List (List Instr)) (st : Keepalive) : Prop :=
  st.outstanding = 0 ∧ st.pongDeadline = false ∧
    ∃ rest, (.clearPing :: .maintenance st :: rest) ∈ threads

/-- What the loop knows at its next instruction. -/
def PingKnown (events : List (Executed Connection Instr)) (s : Connection)
    (threads : List (List Instr)) : Instr → Prop
  | .maintenance st => KeepaliveKnown events s st ∨ TakingBack threads st
  | .consumePong st => KeepaliveKnown events s st
  | .beginPing st => KeepaliveKnown events s st ∧ st.outstanding = 0
  | .pongExpired st => KeepaliveKnown events s st ∧ st.outstanding ≠ 0
  | .enqueue call | .checkContext call | .checkClosing call | .offer call
  | .returnEnqueue call _ =>
      ∀ st, call.after = .ping st → st.pongDeadline = false ∧
        s.PingAwaited events st.outstanding
  | .launch loops _ => loops.Nodup ∧ s.PingClear
  | _ => s.PingClear

/-! ## What the other goroutines do -/

/-- What an instruction outside of the loop does to the ping. -/
inductive PingFrame (s : Connection) (i : Instr) (s' : Connection) : Prop where
  | cleared (hi : i = .clearPing) (hclear : s'.PingClear)
  | recorded {nonce : UInt64} (hi : i = .acknowledgePing nonce)
      (hexpected : s.pingExpected = nonce) (hnonzero : nonce ≠ 0)
      (hclear : s'.pingExpected = 0) (hrecord : s'.pingAcknowledged = true)
      (hpong : s'.pong ≠ none)
  | kept (hi : ∀ nonce, i = .acknowledgePing nonce →
        s.pingExpected = 0 ∨ nonce ≠ s.pingExpected ∨ s.cancelCause ≠ none)
      (hexpected : s'.pingExpected = s.pingExpected)
      (hrecord : s'.pingAcknowledged = s.pingAcknowledged) (hpong : s'.pong = s.pong)

section Rules

variable {P : Primitives} {s : Connection} {i : Instr} {effect : Effect Connection Instr}

theorem LifecycleExec.pingFrame (h : LifecycleExec s i effect) :
    PingFrame s i effect.state := by
  cases h with
  | clearPing => exact .cleared rfl ⟨rfl, rfl⟩
  | _ => exact .kept nofun rfl rfl rfl

theorem QueueExec.pingFrame (h : QueueExec s i effect) : PingFrame s i effect.state := by
  cases h <;> exact .kept nofun rfl rfl rfl

theorem WriteExec.pingFrame (h : WriteExec P s i effect) : PingFrame s i effect.state := by
  cases h <;> exact .kept nofun rfl rfl rfl

theorem ReceiveExec.pingFrame (h : ReceiveExec P s i effect) : PingFrame s i effect.state := by
  cases h with
  | pongExpected hexpected hnonce hlive =>
      exact .recorded rfl hnonce.symm (hnonce ▸ hexpected) rfl rfl nofun
  | pongIgnored hignored =>
      refine .kept ?_ rfl rfl rfl
      rintro nonce ⟨⟩
      exact hignored
  | _ => exact .kept nofun rfl rfl rfl

theorem Exec.pingFrame (h : Exec P s i effect) (hi : Loop.maintenance.side i = false) :
    PingFrame s i effect.state := by
  cases h with
  | lifecycle h | queue h | write h | receive h => exact h.pingFrame
  | keepalive h => cases h <;> cases hi

variable {events : List (Executed Connection Instr)}

theorem beganPing_of_side (s : Connection) (effect : Effect Connection Instr)
    (hi : Loop.maintenance.side i = false) :
    beganPing ⟨s, i, effect⟩ = none ∧ consumedPong ⟨s, i, effect⟩ = false := by
  cases i <;> first | exact ⟨rfl, rfl⟩ | cases hi

theorem PingFrame.clear {s' : Connection} (h : PingFrame s i s') (hclear : s.PingClear) :
    s'.PingClear := by
  cases h with
  | cleared _ hcleared => exact hcleared
  | recorded _ hexpected hnonzero => exact absurd (hexpected.symm.trans hclear.1) hnonzero
  | kept _ hexpected hrecord _ => exact ⟨hexpected.trans hclear.1, hrecord.trans hclear.2⟩

namespace Connection.PingAwaited

variable {nonce : UInt64} {event : Executed Connection Instr} {s' : Connection}

/-- The next event neither begins a ping nor consumes an acknowledgement. -/
theorem extend (h : s.PingAwaited events nonce) (hbegun : beganPing event = none)
    (hconsumed : consumedPong event = false)
    (hrecord :
      (s'.pingExpected = nonce ∧ s'.pingAcknowledged = false ∧
          ∀ e ∈ since beganPing events ++ [event], e.instr ≠ .acknowledgePing nonce) ∨
        (s'.pingExpected = 0 ∧ s'.pingAcknowledged = true ∧
          ∃ e ∈ since beganPing events ++ [event], e.instr = .acknowledgePing nonce)) :
    s'.PingAwaited (events ++ [event]) nonce := by
  have hsince := since_concat_of_none events hbegun
  refine ⟨(latest_concat_of_none events hbegun).trans h.begun, h.nonzero, ?_, ?_⟩
  · rw [hsince]
    exact List.forall_mem_append.mpr ⟨h.unconsumed, List.forall_mem_singleton.mpr hconsumed⟩
  · rw [hsince]
    exact hrecord

/-- The next event has nothing to do with the ping. -/
theorem quiet (h : s.PingAwaited events nonce) (hbegun : beganPing event = none)
    (hconsumed : consumedPong event = false) (hack : event.instr ≠ .acknowledgePing nonce)
    (hexpected : s'.pingExpected = s.pingExpected)
    (hrecord : s'.pingAcknowledged = s.pingAcknowledged) :
    s'.PingAwaited (events ++ [event]) nonce := by
  apply h.extend hbegun hconsumed
  rw [hexpected, hrecord]
  rcases h.record with ⟨hwaits, hempty, hnone⟩ | ⟨hwaits, hfull, e, he, hinstr⟩
  · exact .inl ⟨hwaits, hempty,
      List.forall_mem_append.mpr ⟨hnone, List.forall_mem_singleton.mpr hack⟩⟩
  · exact .inr ⟨hwaits, hfull, e, List.mem_append_left _ he, hinstr⟩

/-- The other goroutines keep the record of an outstanding ping. -/
theorem frame (h : s.PingAwaited events nonce) (hframe : PingFrame s i effect.state)
    (hi : Loop.maintenance.side i = false) (hne : i ≠ .clearPing)
    (hlive : s.cancelCause = none) :
    effect.state.PingAwaited (events ++ [⟨s, i, effect⟩]) nonce := by
  obtain ⟨hbegun, hconsumed⟩ := beganPing_of_side s effect hi
  have hlast : (⟨s, i, effect⟩ : Executed Connection Instr) ∈
      since beganPing events ++ [⟨s, i, effect⟩] := List.mem_append_right _ List.mem_cons_self
  cases hframe with
  | cleared hclear => exact absurd hclear hne
  | @recorded acknowledged hi hexpected hnonzero hclear hrecord =>
      apply h.extend hbegun hconsumed
      obtain ⟨hwaits, -⟩ | ⟨hwaits, -⟩ := h.record
      · -- this is the acknowledgement of the outstanding ping
        have hnonce : acknowledged = nonce := hexpected.symm.trans hwaits
        exact .inr ⟨hclear, hrecord, _, hlast, hi.trans (congrArg _ hnonce)⟩
      · exact absurd (hexpected.symm.trans hwaits) hnonzero
  | kept hack hexpected hrecord =>
      by_cases hinstr : i = .acknowledgePing nonce
      · -- only a ping that was acknowledged before can be ignored
        apply h.extend hbegun hconsumed
        obtain ⟨hwaits, -⟩ | ⟨hwaits, hfull, -⟩ := h.record
        · rcases hack nonce hinstr with hzero | hother | hcanceled
          · exact absurd (hwaits.symm.trans hzero) h.nonzero
          · exact absurd hwaits.symm hother
          · exact absurd hlive hcanceled
        · exact .inr ⟨hexpected.trans hwaits, hrecord.trans hfull, _, hlast, hinstr⟩
      · exact h.quiet hbegun hconsumed hinstr hexpected hrecord

end Connection.PingAwaited

/-! ## The loop -/

/-- What is known at the next instruction, once the state and the threads have changed. -/
theorem PingKnown.mono {s' : Connection} {events' : List (Executed Connection Instr)}
    {threads threads' : List (List Instr)} {j : Instr} (h : PingKnown events s threads j)
    (hclear : s.PingClear → s'.PingClear)
    (hawaited : ∀ nonce, s.PingAwaited events nonce → s'.PingAwaited events' nonce)
    (htaking : ∀ st, TakingBack threads st → TakingBack threads' st) :
    PingKnown events' s' threads' j := by
  have hknown {st : Keepalive} (hst : KeepaliveKnown events s st) :
      KeepaliveKnown events' s' st :=
    ⟨fun hzero => (hst.clear hzero).imp_right hclear, fun hne => hawaited _ (hst.awaited hne)⟩
  have hcall {call : EnqueueCall}
      (hst : ∀ st, call.after = .ping st → st.pongDeadline = false ∧
        s.PingAwaited events st.outstanding) :
      ∀ st, call.after = .ping st → st.pongDeadline = false ∧
        s'.PingAwaited events' st.outstanding :=
    fun st heq => (hst st heq).imp_right (hawaited _)
  cases j with
  | maintenance st => exact h.imp hknown (htaking st)
  | consumePong st => exact hknown h
  | beginPing st | pongExpired st => exact h.imp_left hknown
  | enqueue call | checkContext call | checkClosing call | offer call | returnEnqueue call =>
      exact hcall h
  | launch => exact h.imp_right hclear
  | _ => exact hclear h

/-- A ping has a nonce, also after the last one. -/
theorem Connection.nextPing_ne_zero (s : Connection) : s.nextPing ≠ 0 := by
  unfold nextPing
  split_ifs with hzero
  · decide
  · exact hzero

theorem KeepaliveKnown.quiet {st : Keepalive} {event : Executed Connection Instr}
    {s' : Connection} (h : KeepaliveKnown events s st) (hbegun : beganPing event = none)
    (hconsumed : consumedPong event = false)
    (hack : ∀ nonce, event.instr ≠ .acknowledgePing nonce)
    (hexpected : s'.pingExpected = s.pingExpected)
    (hrecord : s'.pingAcknowledged = s.pingAcknowledged) :
    KeepaliveKnown (events ++ [event]) s' st := by
  refine ⟨fun hzero => ?_, fun hne => ?_⟩
  · obtain ⟨hdeadline, hclear⟩ := h.clear hzero
    exact ⟨hdeadline, hexpected.trans hclear.1, hrecord.trans hclear.2⟩
  · exact (h.awaited hne).quiet hbegun hconsumed (hack _) hexpected hrecord

/-- After an acknowledgement was consumed, the loop waits for its next tick. -/
theorem keepaliveKnown_consumed {event : Executed Connection Instr} {nonce : UInt64}
    {s' : Connection} (h : s.PingAwaited events nonce) (hack : s.pingAcknowledged = true)
    (hexpected : s'.pingExpected = s.pingExpected) (hrecord : s'.pingAcknowledged = false) :
    KeepaliveKnown (events ++ [event]) s' ⟨0, true, false⟩ := by
  refine ⟨fun _ => ⟨rfl, ?_, hrecord⟩, fun hne => absurd rfl hne⟩
  obtain ⟨-, hempty, -⟩ | ⟨hwaits, -⟩ := h.record
  · rw [hempty] at hack
    cases hack
  · exact hexpected.trans hwaits

theorem pingAwaited_begun {event : Executed Connection Instr} {nonce : UInt64} {s' : Connection}
    (hbegun : beganPing event = some nonce) (hnonzero : nonce ≠ 0)
    (hexpected : s'.pingExpected = nonce) (hrecord : s'.pingAcknowledged = false) :
    s'.PingAwaited (events ++ [event]) nonce := by
  have hsince := since_concat_of_some events hbegun
  refine ⟨latest_concat_of_some events hbegun, hnonzero, ?_, .inl ⟨hexpected, hrecord, ?_⟩⟩
  · rw [hsince]
    exact List.forall_mem_nil _
  · rw [hsince]
    exact List.forall_mem_nil _

/-- The loop goes one step. -/
theorem KeepaliveExec.pingKnown {threads threads' : List (List Instr)}
    (h : KeepaliveExec s i effect) (hlive : s.cancelCause = none)
    (hknown : PingKnown events s threads i)
    (hhead : ∀ st, i = .maintenance st → ¬ TakingBack threads st) :
    Sole Loop.maintenance.side (PingKnown (events ++ [⟨s, i, effect⟩]) effect.state threads')
      (effect.pushed :: effect.spawned) := by
  have hloop {st : Keepalive} (hi : i = .maintenance st) : KeepaliveKnown events s st := by
    subst hi
    exact hknown.resolve_right (hhead st rfl)
  cases h with
  | ended | idle | pingCanceled | deadlineMissed => exact .none rfl
  | active | keepaliveBusy =>
      exact .one rfl (.inl ((hloop rfl).quiet rfl rfl nofun rfl rfl))
  | pongWakeup => exact .one rfl ((hloop rfl).quiet rfl rfl nofun rfl rfl)
  | keepaliveTick _ hzero => exact .one rfl ⟨(hloop rfl).quiet rfl rfl nofun rfl rfl, hzero⟩
  | pongDeadline harmed =>
      refine .one rfl ⟨(hloop rfl).quiet rfl rfl nofun rfl rfl, fun hzero => ?_⟩
      rw [((hloop rfl).clear hzero).1] at harmed
      cases harmed
  | @pongStale st hzero =>
      have hconsumed : consumedPong ⟨s, .consumePong st, ⟨s, [.maintenance st], []⟩⟩ = false := by
        simp [consumedPong, hzero]
      exact .one rfl (.inl (hknown.quiet rfl hconsumed nofun rfl rfl))
  | pongConsumed hne hack =>
      exact .one rfl (.inl (keepaliveKnown_consumed (hknown.awaited hne) hack rfl rfl))
  | @pongMissing st hne hack =>
      have hconsumed : consumedPong ⟨s, .consumePong st, ⟨s, [.maintenance st], []⟩⟩ = false := by
        simp [consumedPong, hack]
      exact .one rfl (.inl (hknown.quiet rfl hconsumed nofun rfl rfl))
  | @pingBegun st =>
      obtain ⟨hst, hzero⟩ := hknown
      refine .one rfl ?_
      rintro st' ⟨⟩
      refine ⟨(hst.clear hzero).1, ?_⟩
      exact pingAwaited_begun (if_pos (by rw [hlive]; rfl)) s.nextPing_ne_zero rfl rfl
  | deadlineAnswered hack =>
      obtain ⟨hst, hne⟩ := hknown
      exact .one rfl (.inl (keepaliveKnown_consumed (hst.awaited hne) hack rfl rfl))

theorem pingKnown_call {threads : List (List Instr)} {call : EnqueueCall}
    (h : i.enqueueCall = some call) :
    PingKnown events s threads i ↔ ∀ st, call.after = .ping st →
      st.pongDeadline = false ∧ s.PingAwaited events st.outstanding := by
  cases i with
  | enqueue | checkContext | checkClosing | offer | returnEnqueue =>
      cases h
      exact Iff.rfl
  | _ => cases h

/-- A call of `enqueueChannel` does not touch the ping. -/
theorem QueueExec.ping_eq (h : QueueExec s i effect) :
    effect.state.pingExpected = s.pingExpected ∧
      effect.state.pingAcknowledged = s.pingAcknowledged ∧ effect.state.pong = s.pong := by
  cases h <;> exact ⟨rfl, rfl, rfl⟩

/-- The call in which the loop queues its ping goes one step. -/
theorem QueueExec.pingKnown {threads threads' : List (List Instr)} {rest : List Instr}
    (h : QueueExec s i effect) (hi : Loop.maintenance.side i = true)
    (hknown : PingKnown events s threads i) (hthread : effect.pushed ++ rest ∈ threads') :
    Sole Loop.maintenance.side (PingKnown (events ++ [⟨s, i, effect⟩]) effect.state threads')
      (effect.pushed :: effect.spawned) := by
  obtain ⟨call, hcall, hafter, hnext⟩ := h.roster_own hi
  obtain ⟨hexpected, hrecord, -⟩ := h.ping_eq
  obtain ⟨st, hst⟩ : ∃ st, call.after = .ping st := by
    cases hping : call.after with
    | ping st => exact ⟨st, rfl⟩
    | _ => rw [hping] at hafter; cases hafter
  obtain ⟨hdeadline, hawaited⟩ := (pingKnown_call hcall).mp hknown st hst
  have hawaits : effect.state.PingAwaited (events ++ [⟨s, i, effect⟩]) st.outstanding := by
    refine hawaited.quiet ?_ ?_ ?_ hexpected hrecord <;> cases i <;> first | rfl | cases hcall
    all_goals nofun
  rcases hnext with ⟨j, hj, hstays⟩ | ⟨result, rfl, heffect⟩
  · refine .one hj ((pingKnown_call hstays).mpr fun st' hst' => ?_)
    obtain rfl : st = st' := EnqueueReturn.ping.inj (hst.symm.trans hst')
    exact ⟨hdeadline, hawaits⟩
  · obtain ⟨hpushed, hspawned⟩ := List.cons.inj heffect
    rw [hpushed] at hthread
    rw [heffect]
    cases result with
    | none =>
        have hresume : call.resume none =
            [.maintenance { st with keepalive := false, pongDeadline := true }] := by
          simp only [EnqueueCall.resume, hst]
        rw [hresume]
        exact .one rfl (.inl ⟨fun hzero => absurd hzero hawaited.nonzero, fun _ => hawaits⟩)
    | some err =>
        have hresume : call.resume (some err) =
            [.clearPing, .maintenance { st with outstanding := 0 }] := by
          simp only [EnqueueCall.resume, hst]
        rw [hresume] at hthread ⊢
        exact .one rfl (.inr ⟨rfl, hdeadline, rest, hthread⟩)

/-- The launch of the loop. -/
theorem LifecycleExec.pingKnown {threads threads' : List (List Instr)}
    (h : LifecycleExec s i effect)
    (hi : Loop.maintenance.side i = true) (hknown : PingKnown events s threads i) :
    Sole Loop.maintenance.side (PingKnown (events ++ [⟨s, i, effect⟩]) effect.state threads')
      (effect.pushed :: effect.spawned) := by
  have hclear : s.PingClear → effect.state.PingClear := h.pingFrame.clear
  apply h.launches hi
  · rintro ctx rfl
    exact ⟨loops_nodup _, hclear hknown⟩
  · rintro loops ctx rfl
    exact hknown.1
  · rintro loop loops ctx rfl
    exact ⟨⟨(List.nodup_cons.mp hknown.1).2, hclear hknown.2⟩,
      .inl ⟨fun _ => ⟨rfl, hclear hknown.2⟩, fun hne => absurd rfl hne⟩⟩

end Rules

/-! ## Runs -/

theorem Exec.clearPing_clear {P : Primitives} {s : Connection} {effect : Effect Connection Instr}
    (h : Exec P s .clearPing effect) : effect.state.PingClear := by
  cases h with
  | lifecycle h =>
      cases h
      exact ⟨rfl, rfl⟩
  | queue h | write h | receive h | keepalive h => cases h

/-- The ping in a pool that is not shut down. -/
structure Pinging (events : List (Executed Connection Instr)) (pool : Pool Connection Instr) :
    Prop where
  loop : Sole Loop.maintenance.side (PingKnown events pool.state pool.threads) pool.threads
  wakeup : pool.state.pingAcknowledged = true → pool.state.pong ≠ none ∨
    ∃ st rest, st.outstanding ≠ 0 ∧ (.consumePong st :: rest) ∈ pool.threads
  idle : pool.state.startOnce = .idle →
    roster Loop.maintenance.side pool.threads = 0 ∧ pool.state.PingClear

section Runs

variable {P : Primitives} {s : Connection} {threads : List (List Instr)} {k : Nat} {i : Instr}
  {rest : List Instr} {effect : Effect Connection Instr}
  {events : List (Executed Connection Instr)}

/-- A step outside of the loop. -/
theorem Pinging.other (h : Pinging events ⟨s, threads⟩) (hlive : s.cancelCause = none)
    (hk : threads[k]? = some (i :: rest)) (hexec : Exec P s i effect)
    (hi : Loop.maintenance.side i = false)
    (hclears : i = .clearPing → ∃ st rest', st.outstanding = 0 ∧ rest = .maintenance st :: rest') :
    Pinging (events ++ [⟨s, i, effect⟩])
      ⟨effect.state, threads.set k (effect.pushed ++ rest) ++ effect.spawned⟩ := by
  have hframe := hexec.pingFrame hi
  refine ⟨?_, fun hrecord => ?_, fun hidle => ?_⟩
  · rcases hexec.roster_other hi with ⟨ctx, hidle, -, hroster⟩ | hfree
    · obtain ⟨hnone, hclear⟩ := h.idle hidle
      exact .enter hnone hk hi (.one hroster (hframe.clear hclear))
    · refine h.loop.other hk hi hfree fun j hj hknown => ?_
      by_cases hclearing : i = .clearPing
      · -- the loop takes its ping back
        obtain ⟨st, rest', hzero, rfl⟩ := hclears hclearing
        subst hclearing
        have hsole := (h.loop.of_mem (List.mem_of_getElem? hk)
          (List.mem_cons_of_mem _ List.mem_cons_self) rfl).1
        obtain rfl : j = .maintenance st := Multiset.singleton_inj.mp (hj.symm.trans hsole)
        have hdeadline : st.pongDeadline = false := by
          rcases hknown with hst | hst
          · exact (hst.clear hzero).1
          · exact hst.2.1
        exact .inl ⟨fun _ => ⟨hdeadline, hexec.clearPing_clear⟩, fun hne => absurd hzero hne⟩
      · refine hknown.mono hframe.clear (fun nonce hnonce => ?_) fun st hst => ?_
        · exact hnonce.frame hframe hi hclearing hlive
        · obtain ⟨hzero, hdeadline, rest', hmem⟩ := hst
          refine ⟨hzero, hdeadline, rest', mem_set_append_of_ne hmem hk fun heq => ?_⟩
          exact hclearing (List.cons.inj heq).1.symm
  · cases hframe with
    | cleared _ hclear => exact absurd hrecord (by rw [hclear.2]; decide)
    | recorded _ _ _ _ _ hpong => exact .inl hpong
    | kept _ _ hsame hpong =>
        rcases h.wakeup (hsame.symm.trans hrecord) with hpending | ⟨st, rest', hne, hmem⟩
        · exact .inl (hpong.trans_ne hpending)
        · refine .inr ⟨st, rest', hne, mem_set_append_of_ne hmem hk fun heq => ?_⟩
          rw [← (List.cons.inj heq).1] at hi
          cases hi
  · obtain ⟨hnone, hclear⟩ := h.idle (hexec.idle_of_idle hidle)
    exact ⟨(hexec.roster_idle hk hnone hidle).2, hframe.clear hclear⟩

theorem PingFrame.wakeup {s' : Connection} (h : PingFrame s i s')
    (hpending : s.pingAcknowledged = true → s.pong ≠ none)
    (hrecord : s'.pingAcknowledged = true) : s'.pong ≠ none := by
  cases h with
  | cleared _ hclear => exact absurd hrecord (by rw [hclear.2]; decide)
  | recorded _ _ _ _ _ hpong => exact hpong
  | kept _ _ hsame hpong => exact hpong.trans_ne (hpending (hsame.symm.trans hrecord))

/-- The pong channel wakes the loop up, or the loop is at the acknowledgement. -/
theorem Pinging.wakeup_or (h : Pinging events ⟨s, threads⟩)
    (hk : threads[k]? = some (i :: rest)) (hi : Loop.maintenance.side i = true)
    (hrecord : s.pingAcknowledged = true) : s.pong ≠ none ∨ ∃ st, i = .consumePong st := by
  have hsole := (h.loop.of_mem (List.mem_of_getElem? hk) List.mem_cons_self hi).1
  rcases h.wakeup hrecord with hpending | ⟨st, rest', -, hmem⟩
  · exact .inl hpending
  · have hconsume := (h.loop.of_mem hmem List.mem_cons_self rfl).1
    exact .inr ⟨st, Multiset.singleton_inj.mp (hsole.symm.trans hconsume)⟩

/-- A step of the loop leaves a wakeup, or takes it. -/
theorem KeepaliveExec.wakeup (h : KeepaliveExec s i effect)
    (hknown : PingKnown events s threads i)
    (hhead : ∀ st, i = .maintenance st → ¬ TakingBack threads st)
    (hpending : s.pingAcknowledged = true → s.pong ≠ none ∨ ∃ st, i = .consumePong st)
    (hrecord : effect.state.pingAcknowledged = true) :
    effect.state.pong ≠ none ∨ ∃ st, st.outstanding ≠ 0 ∧ effect.pushed = [.consumePong st] := by
  cases h with
  | @pongWakeup st =>
      refine .inr ⟨st, fun hzero => ?_, rfl⟩
      have hst : KeepaliveKnown events s st := hknown.resolve_right (hhead st rfl)
      exact absurd hrecord (by rw [(hst.clear hzero).2.2]; decide)
  | pongConsumed | deadlineAnswered | pingBegun => cases hrecord
  | pongMissing _ hack => exact absurd hrecord (by rw [hack]; decide)
  | pongStale hzero => exact absurd hrecord (by rw [(hknown.clear hzero).2.2]; decide)
  | _ => exact .inl ((hpending hrecord).resolve_right nofun)

/-- A step of the loop. -/
theorem Pinging.own (h : Pinging events ⟨s, threads⟩) (hlive : s.cancelCause = none)
    (hk : threads[k]? = some (i :: rest)) (hexec : Exec P s i effect)
    (hi : Loop.maintenance.side i = true) :
    Pinging (events ++ [⟨s, i, effect⟩])
      ⟨effect.state, threads.set k (effect.pushed ++ rest) ++ effect.spawned⟩ := by
  obtain ⟨hsole, hknown⟩ := h.loop.of_mem (List.mem_of_getElem? hk) List.mem_cons_self hi
  have hclaimed : effect.state.startOnce ≠ .idle := by
    intro hidle
    have hnone := (h.idle (hexec.idle_of_idle hidle)).1
    exact Multiset.singleton_ne_zero i (hsole.symm.trans hnone)
  have hhead : ∀ st, i = .maintenance st → ¬ TakingBack threads st := by
    rintro st rfl ⟨-, -, rest', hmem⟩
    have heq := eq_of_roster_singleton hsole hmem (List.mem_of_getElem? hk)
      (List.mem_cons_of_mem _ List.mem_cons_self) List.mem_cons_self
    cases (List.cons.inj heq).1
  have hpending := h.wakeup_or hk hi
  refine ⟨.own h.loop hk hi ?_, fun hrecord => ?_, fun hidle => absurd hidle hclaimed⟩
  · cases hexec with
    | lifecycle hrule => exact hrule.pingKnown hi hknown
    | queue hrule => exact hrule.pingKnown hi hknown (mem_set_append_self hk)
    | write hrule | receive hrule => exact absurd hi (by simp [hrule.side_other])
    | keepalive hrule => exact hrule.pingKnown hlive hknown hhead
  · cases hexec with
    | lifecycle hrule =>
        refine .inl (hrule.pingFrame.wakeup (fun hold => (hpending hold).resolve_right ?_) hrecord)
        rintro ⟨st, rfl⟩
        cases hrule
    | queue hrule =>
        refine .inl (hrule.pingFrame.wakeup (fun hold => (hpending hold).resolve_right ?_) hrecord)
        rintro ⟨st, rfl⟩
        cases hrule
    | write hrule | receive hrule => exact absurd hi (by simp [hrule.side_other])
    | keepalive hrule =>
        refine (hrule.wakeup hknown hhead hpending hrecord).imp_right ?_
        rintro ⟨st, hne, hpushed⟩
        refine ⟨st, rest, hne, ?_⟩
        rw [hpushed]
        exact mem_set_append_self hk

/-- What a call or the end of a context leaves alone. -/
theorem Pinging.ambient {s' : Connection} {spawned : List (List Instr)}
    (h : Pinging events ⟨s, threads⟩) (hambient : Ambient s s' spawned) :
    Pinging events ⟨s', threads ++ spawned⟩ := by
  have hsame : s'.pingExpected = s.pingExpected ∧ s'.pingAcknowledged = s.pingAcknowledged ∧
      s'.pong = s.pong ∧ s'.startOnce = s.startOnce := by
    cases hambient <;> exact ⟨rfl, rfl, rfl, rfl⟩
  obtain ⟨hexpected, hrecord, hpong, honce⟩ := hsame
  have hnone : roster Loop.maintenance.side spawned = 0 := by
    cases hambient with
    | call api => exact api.roster_program _ _
    | cancelCaller => rfl
  have hclear (hold : s.PingClear) : s'.PingClear :=
    ⟨hexpected.trans hold.1, hrecord.trans hold.2⟩
  refine ⟨h.loop.spawn hnone fun j _ hj => hj.mono hclear ?_ ?_, fun hnew => ?_, fun hidle => ?_⟩
  · intro nonce hnonce
    refine ⟨hnonce.begun, hnonce.nonzero, hnonce.unconsumed, ?_⟩
    rw [hexpected, hrecord]
    exact hnonce.record
  · rintro st ⟨hzero, hdeadline, rest, hmem⟩
    exact ⟨hzero, hdeadline, rest, List.mem_append_left _ hmem⟩
  · rcases h.wakeup (hrecord.symm.trans hnew) with hpending | ⟨st, rest, hne, hmem⟩
    · exact .inl (hpong.trans_ne hpending)
    · exact .inr ⟨st, rest, hne, List.mem_append_left _ hmem⟩
  · obtain ⟨hnone', hold⟩ := h.idle (honce.symm.trans hidle)
    refine ⟨?_, hclear hold⟩
    rw [roster_append, hnone, add_zero]
    exact hnone'

/-- A `clearPing` of a connection that is not shut down is the loop's own. -/
theorem clearPing_loop (hsound : Sound ⟨s, threads⟩)
    (hpaired : ∀ t ∈ threads, adjacent Instr.paired Instr.partner t = true)
    (hlive : s.cancelCause = none) (hk : threads[k]? = some (.clearPing :: rest)) :
    ∃ st rest', st.outstanding = 0 ∧ rest = .maintenance st :: rest' := by
  have hmem := List.mem_of_getElem? hk
  obtain ⟨j, rest', rfl, hj⟩ := adjacent_next (hpaired _ hmem) rfl
  cases j with
  | maintenance st => exact ⟨st, rest', beq_iff_eq.mp hj, rfl⟩
  | lockQueues =>
      -- a shutdown cancels the context first
      have hneeds := (hsound.supported _ hmem).2.1 .canceled (by simp)
      rcases hneeds with hcanceled | hgiven
      · exact absurd hlive hcanceled
      · cases hgiven
  | _ => cases hj

theorem pinging_of_traces {session : Session} {config : ConnectionConfig}
    {pool : Pool Connection Instr}
    (h : (connectionMachine P).Traces (connectionStart session config) events pool)
    (hlive : pool.state.cancelCause = none) : Pinging events pool := by
  induction h with
  | start => exact ⟨.none rfl, nofun, fun _ => ⟨rfl, rfl, rfl⟩⟩
  | @thread events s threads k i rest effect htrace hk hexec ih =>
      have hexec : Exec P s i effect := hexec
      have hsound := sound_of_reaches htrace.reaches
      have hbefore : s.cancelCause = none := by
        by_contra hcanceled
        exact hexec.holds (hsound.timely hk) .canceled hcanceled hlive
      cases hi : Loop.maintenance.side i with
      | true => exact (ih hbefore).own hbefore hk hexec hi
      | false =>
          refine (ih hbefore).other hbefore hk hexec hi ?_
          rintro rfl
          exact clearPing_loop hsound (paired_of_reaches htrace.reaches) hbefore hk
  | @ambient events s s' threads spawned htrace hambient ih =>
      have hambient : Ambient s s' spawned := hambient
      have hbefore : s.cancelCause = none := by cases hambient <;> exact hlive
      exact (ih hbefore).ambient hambient

/-! ## The outstanding ping -/

/-- The pings that wait for their acknowledgement. -/
def outstandingPings (threads : List (List Instr)) : List UInt64 :=
  threads.flatten.filterMap Instr.ping

theorem Instr.side_of_ping {j : Instr} {nonce : UInt64} (h : j.ping = some nonce) :
    Loop.maintenance.side j = true := by
  cases j with
  | maintenance | consumePong | beginPing | pongExpired => rfl
  | enqueue call | checkContext call | checkClosing call | offer call | returnEnqueue call =>
      obtain ⟨_, _, _, _, after⟩ := call
      cases after <;> first | rfl | cases h
  | _ => cases h

/-- Only the loop has an outstanding ping. -/
theorem outstandingPings_eq (threads : List (List Instr)) :
    outstandingPings threads =
      (threads.flatten.filter Loop.maintenance.side).filterMap Instr.ping := by
  rw [outstandingPings, List.filterMap_filter]
  apply List.filterMap_congr
  intro j _
  cases hside : Loop.maintenance.side j with
  | true => rfl
  | false =>
      cases hping : j.ping with
      | none => rfl
      | some nonce =>
          rw [Instr.side_of_ping hping] at hside
          cases hside

theorem outstandingPings_of_roster {j : Instr}
    (h : roster Loop.maintenance.side threads = {j}) :
    outstandingPings threads = j.ping.toList := by
  rw [roster, ← Multiset.coe_singleton, Multiset.coe_eq_coe, List.perm_singleton] at h
  rw [outstandingPings_eq, h]
  cases hping : j.ping <;> simp [hping]

theorem outstandingPings_of_roster_zero (h : roster Loop.maintenance.side threads = 0) :
    outstandingPings threads = [] := by
  rw [roster, Multiset.coe_eq_zero] at h
  rw [outstandingPings_eq, h, List.filterMap_nil]

/-- The loop knows of a ping that it waits for. -/
theorem PingKnown.awaited {j : Instr} {nonce : UInt64} (h : PingKnown events s threads j)
    (hping : j.ping = some nonce) : s.PingAwaited events nonce := by
  have hst {st : Keepalive} (hknown : KeepaliveKnown events s st)
      (hsome : (if st.outstanding = 0 then none else some st.outstanding) = some nonce) :
      s.PingAwaited events nonce := by
    by_cases hzero : st.outstanding = 0
    · rw [if_pos hzero] at hsome
      cases hsome
    · rw [if_neg hzero] at hsome
      exact Option.some.inj hsome ▸ hknown.awaited hzero
  cases j with
  | maintenance st =>
      rcases h with hknown | ⟨hzero, -⟩
      · exact hst hknown hping
      · rw [Instr.ping, if_pos hzero] at hping
        cases hping
  | consumePong st => exact hst h hping
  | beginPing st | pongExpired st => exact hst h.1 hping
  | enqueue call | checkContext call | checkClosing call | offer call | returnEnqueue call =>
      obtain ⟨_, _, _, _, after⟩ := call
      cases after with
      | ping st =>
          cases hping
          exact (h st rfl).2
      | _ => cases hping
  | _ => cases hping

/-! ## The nonces -/

theorem Connection.nextPing_ne_pingNonce (s : Connection) : s.nextPing ≠ s.pingNonce := by
  unfold nextPing
  split
  · next hwraps =>
      intro heq
      rw [← heq] at hwraps
      exact absurd hwraps (by decide)
  · intro heq
    exact absurd (UInt64.add_eq_left.mp heq) (by decide)

theorem beganPing_eq_none (hi : ∀ st, i ≠ .beginPing st) : beganPing ⟨s, i, effect⟩ = none := by
  cases i with
  | beginPing st => exact absurd rfl (hi st)
  | _ => rfl

/-- The counter moves exactly when a ping is begun, and then holds its nonce. -/
theorem beganPing_exec (h : Exec P s i effect) :
    (beganPing ⟨s, i, effect⟩ = none ∧ effect.state.pingNonce = s.pingNonce) ∨
      (beganPing ⟨s, i, effect⟩ = some s.nextPing ∧ effect.state.pingNonce = s.nextPing) := by
  cases h with
  | keepalive h =>
      cases h with
      | pingCanceled hcanceled => exact .inl ⟨if_neg (by simpa using hcanceled), rfl⟩
      | pingBegun hlive => exact .inr ⟨if_pos (by simp [hlive]), rfl⟩
      | _ => exact .inl ⟨rfl, rfl⟩
  | lifecycle h | queue h | write h | receive h =>
      exact .inl ⟨beganPing_eq_none (by rintro st rfl; cases h), by rw [h.frame]⟩

/-- No ping is begun with nonce zero. -/
theorem beganPing_ne_zero {nonce : UInt64} (h : Exec P s i effect)
    (hbegan : beganPing ⟨s, i, effect⟩ = some nonce) : nonce ≠ 0 := by
  rcases beganPing_exec h with ⟨hnone, -⟩ | ⟨hsome, -⟩
  · cases hnone.symm.trans hbegan
  · exact Option.some.inj (hsome.symm.trans hbegan) ▸ s.nextPing_ne_zero

/-- The counter holds the nonce of the last ping, and no two pings in a row share theirs. -/
theorem nonces_of_traces {session : Session} {config : ConnectionConfig}
    {pool : Pool Connection Instr}
    (h : (connectionMachine P).Traces (connectionStart session config) events pool) :
    (∀ nonce ∈ latest beganPing events, nonce = pool.state.pingNonce) ∧
      (events.filterMap beganPing).IsChain (· ≠ ·) := by
  induction h with
  | start => exact ⟨nofun, .nil⟩
  | @thread events s threads k i rest effect _ hk hexec ih =>
      obtain ⟨hlast, hchain⟩ := ih
      rcases beganPing_exec hexec with ⟨hnone, hsame⟩ | ⟨hsome, hnext⟩
      · rw [latest_concat_of_none _ hnone, List.filterMap_append, List.filterMap_cons_none hnone,
          List.filterMap_nil, List.append_nil]
        exact ⟨fun nonce hnonce => (hlast nonce hnonce).trans hsame.symm, hchain⟩
      · rw [latest_concat_of_some _ hsome, List.filterMap_append, List.filterMap_cons_some hsome,
          List.filterMap_nil]
        refine ⟨fun nonce hnonce => ?_, hchain.append (.singleton _) ?_⟩
        · exact (Option.some.inj hnonce).symm.trans hnext.symm
        · rintro previous hprevious nonce ⟨⟩
          rw [hlast previous hprevious]
          exact s.nextPing_ne_pingNonce.symm
  | @ambient events s s' threads spawned _ hambient ih =>
      have hambient : Ambient s s' spawned := hambient
      refine ⟨fun nonce hnonce => ?_, ih.2⟩
      have hold := ih.1 nonce hnonce
      cases hambient <;> exact hold

/-- The pong deadline goes by the record. -/
theorem pongExpired_exec {st : Keepalive} (h : Exec P s (.pongExpired st) effect) :
    (s.pingAcknowledged = true ∧ effect.pushed = [.maintenance ⟨0, true, false⟩]) ∨
      (s.pingAcknowledged = false ∧
        effect.pushed = shutdown Sentinel.keepaliveTimeout.bare) := by
  cases h with
  | keepalive h =>
      cases h with
      | deadlineAnswered hack => exact .inl ⟨hack, rfl⟩
      | deadlineMissed hack => exact .inr ⟨hack, rfl⟩
  | lifecycle h | queue h | write h | receive h => cases h

/-- What consumes an acknowledgement is the loop with an outstanding ping. -/
theorem consumedPong_exec (h : Exec P s i effect)
    (hconsumed : consumedPong ⟨s, i, effect⟩ = true) :
    s.pingAcknowledged = true ∧ effect.state.pingAcknowledged = false ∧
      ∃ st, (i = .consumePong st ∧ st.outstanding ≠ 0) ∨ i = .pongExpired st := by
  have hi : ∃ st, i = .consumePong st ∨ i = .pongExpired st := by
    cases i with
    | consumePong st => exact ⟨st, .inl rfl⟩
    | pongExpired st => exact ⟨st, .inr rfl⟩
    | _ => cases hconsumed
  cases h with
  | keepalive h =>
      cases h with
      | pongConsumed hne hack => exact ⟨hack, rfl, _, .inl ⟨rfl, hne⟩⟩
      | deadlineAnswered hack => exact ⟨hack, rfl, _, .inr rfl⟩
      | pongStale hzero => simp [consumedPong, hzero] at hconsumed
      | pongMissing _ hack | deadlineMissed hack => simp [consumedPong, hack] at hconsumed
      | _ => cases hconsumed
  | lifecycle h | queue h | write h | receive h => obtain ⟨st, rfl | rfl⟩ := hi <;> cases h

namespace Connection.PingAwaited

variable {nonce : UInt64}

theorem not_acknowledged (h : s.PingAwaited events nonce) (hrecord : s.pingAcknowledged = false) :
    ∀ event ∈ since beganPing events, event.instr ≠ .acknowledgePing nonce := by
  rcases h.record with ⟨-, -, hnone⟩ | ⟨-, hfull, -⟩
  · exact hnone
  · rw [hrecord] at hfull
    cases hfull

theorem acknowledged (h : s.PingAwaited events nonce) (hrecord : s.pingAcknowledged = true) :
    ∃ event ∈ since beganPing events, event.instr = .acknowledgePing nonce := by
  rcases h.record with ⟨-, hempty, -⟩ | ⟨-, -, hsome⟩
  · rw [hrecord] at hempty
    cases hempty
  · exact hsome

end Connection.PingAwaited

/-- As long as the connection is not shut down, at most one ping is outstanding, none was begun
with nonce zero, with that of the ping before it or before the last one was settled, and the
pong deadline ends the connection exactly if the outstanding nonce was not acknowledged since
its ping was begun.  An acknowledgement is consumed once, for the ping with its nonce, and one
that is recorded has a wakeup on its way. -/
theorem keepalive_exact (P : Primitives) (session : Session) (config : ConnectionConfig)
    (events : List (Executed Connection Instr)) (pool : Pool Connection Instr)
    (h : (connectionMachine P).Traces (connectionStart session config) events pool)
    (hlive : pool.state.cancelCause = none) :
    ((outstandingPings pool.threads).length ≤ 1 ∧
        (∀ nonce ∈ outstandingPings pool.threads, latest beganPing events = some nonce) ∧
        (∀ event ∈ events, ∀ nonce, beganPing event = some nonce → nonce ≠ 0) ∧
        (events.filterMap beganPing).IsChain (· ≠ ·) ∧
        ∀ st rest, (.beginPing st :: rest) ∈ pool.threads →
          outstandingPings pool.threads = [] ∧ pool.state.pingAcknowledged = false) ∧
      (∀ st rest effect, (.pongExpired st :: rest) ∈ pool.threads →
        Exec P pool.state (.pongExpired st) effect →
          latest beganPing events = some st.outstanding ∧
          (effect.pushed = shutdown Sentinel.keepaliveTimeout.bare ↔
            ∀ event ∈ since beganPing events, event.instr ≠ .acknowledgePing st.outstanding)) ∧
      (∀ i rest effect, (i :: rest) ∈ pool.threads → Exec P pool.state i effect →
        consumedPong ⟨pool.state, i, effect⟩ = true →
          effect.state.pingAcknowledged = false ∧
          ∃ nonce, i.ping = some nonce ∧ latest beganPing events = some nonce ∧
            (∃ event ∈ since beganPing events, event.instr = .acknowledgePing nonce) ∧
            ∀ event ∈ since beganPing events, consumedPong event = false) ∧
      (pool.state.pingAcknowledged = true → pool.state.pong ≠ none ∨
        ∃ st rest, st.outstanding ≠ 0 ∧ (.consumePong st :: rest) ∈ pool.threads) := by
  have hpinging := pinging_of_traces h hlive
  have hknows {i : Instr} {rest : List Instr} (hmem : (i :: rest) ∈ pool.threads)
      (hi : Loop.maintenance.side i = true) :=
    hpinging.loop.of_mem hmem List.mem_cons_self hi
  refine ⟨⟨?_, ?_, ?_, (nonces_of_traces h).2, ?_⟩, ?_, ?_, hpinging.wakeup⟩
  · rcases hpinging.loop with hnone | ⟨j, hj, -⟩
    · rw [outstandingPings_of_roster_zero hnone]
      exact Nat.zero_le 1
    · rw [outstandingPings_of_roster hj]
      exact Option.length_toList_le
  · intro nonce hnonce
    rcases hpinging.loop with hnone | ⟨j, hj, hknown⟩
    · rw [outstandingPings_of_roster_zero hnone] at hnonce
      cases hnonce
    · rw [outstandingPings_of_roster hj, Option.mem_toList] at hnonce
      exact (hknown.awaited hnonce).begun
  · exact fun event hevent nonce hbegan => beganPing_ne_zero (h.exec event hevent) hbegan
  · intro st rest hmem
    obtain ⟨hsole, hst, hzero⟩ := hknows hmem rfl
    refine ⟨?_, (hst.clear hzero).2.2⟩
    rw [outstandingPings_of_roster hsole, Instr.ping, if_pos hzero]
    rfl
  · intro st rest effect hmem hexec
    obtain ⟨-, hst, hne⟩ := hknows hmem rfl
    have hawaited := hst.awaited hne
    refine ⟨hawaited.begun, ?_⟩
    rcases pongExpired_exec hexec with ⟨hack, hpushed⟩ | ⟨hack, hpushed⟩
    · obtain ⟨event, hevent, hinstr⟩ := hawaited.acknowledged hack
      constructor
      · intro hshutdown
        cases hpushed.symm.trans hshutdown
      · exact fun hnone => absurd hinstr (hnone event hevent)
    · exact ⟨fun _ => hawaited.not_acknowledged hack, fun _ => hpushed⟩
  · intro i rest effect hmem hexec hconsumed
    obtain ⟨hack, hcleared, st, hi⟩ := consumedPong_exec hexec hconsumed
    have hside : Loop.maintenance.side i = true := by
      rcases hi with ⟨rfl, -⟩ | rfl <;> rfl
    have hknown := (hknows hmem hside).2
    have hping : i.ping = some st.outstanding := by
      rcases hi with ⟨rfl, hne⟩ | rfl
      · exact if_neg hne
      · exact if_neg hknown.2
    have hawaited := hknown.awaited hping
    exact ⟨hcleared, st.outstanding, hping, hawaited.begun, hawaited.acknowledged hack,
      hawaited.unconsumed⟩

end Runs

/-! ## A sample run -/

/-- A configuration with keepalive. -/
def keepaliveConfig : ConnectionConfig := { plainConfig with keepaliveInterval := 1 }

/-- The reply of the peer to the first ping. -/
def samplePong : Frame :=
  Packet.frame transparent
    ⟨MessageType.pingPong, sampleSecrets.sessionID, 1, PingPong.marshalBinary ⟨true, 1⟩, []⟩
    sampleSecrets.receiveKey

/-- The reply to a ping is recorded, and the select of the loop takes the deadline before
the wakeup. -/
theorem pong_before_deadline :
    (connectionMachine transparent).Leads
      (fun pool => pool.state.cancelCause = none ∧ pool.state.pingAcknowledged = true ∧
        [.pongExpired ⟨1, false, true⟩, .exit .maintenance] ∈ pool.threads)
      (connectionStart sampleSession keepaliveConfig) := by
  refine .step (.ambient (.call (.start .background))) ?_
  refine .first (.lifecycle (.startFirst rfl)) ?_
  refine .first (.lifecycle (.startLive rfl)) ?_
  refine .first (.lifecycle .storeStarted) ?_
  refine .first (.lifecycle .launchLoop) ?_
  refine .first (.lifecycle .launchLoop) ?_
  refine .first (.lifecycle .launchLoop) ?_
  -- the maintenance loop is the fourth goroutine
  refine .after [_, _, _] (.keepalive (.keepaliveTick rfl rfl)) ?_
  refine .after [_, _, _] (.keepalive (.pingBegun rfl)) ?_
  refine .after [_, _, _] (.queue (.lease rfl)) ?_
  refine .after [_, _, _] (.queue (.contextLive rfl)) ?_
  refine .after [_, _, _] (.queue (.admitted rfl)) ?_
  refine .after [_, _, _] (.queue (.accepted (show 0 < 16 by decide))) ?_
  refine .after [_, _, _] (.queue (.releaseLease rfl)) ?_
  refine .after [_, _, _] (.queue .returnEnqueue) ?_
  refine .second (.receive (.frameRead samplePong)) ?_
  refine .second (.receive (.accepted ⟨0, 0, 0⟩ rfl)) ?_
  refine .second (.receive .noteActivity) ?_
  refine .second (.receive .pong) ?_
  refine .second (.receive (.pongExpected (by decide) rfl rfl)) ?_
  refine .after [_, _, _] (.keepalive (.pongDeadline rfl)) ?_
  exact .here ⟨rfl, rfl, List.mem_of_getElem? (i := 3) rfl⟩

theorem keepalive_exact_answered :
    ∃ events pool, (connectionMachine transparent).Traces
        (connectionStart sampleSession keepaliveConfig) events pool ∧
      pool.state.cancelCause = none ∧ latest beganPing events = some 1 ∧
      [.pongExpired ⟨1, false, true⟩, .exit .maintenance] ∈ pool.threads ∧
      ∃ event ∈ since beganPing events, event.instr = .acknowledgePing 1 := by
  obtain ⟨pool, hreach, hlive, hack, hmem⟩ := pong_before_deadline
  obtain ⟨events, htrace⟩ := hreach.traces
  obtain ⟨-, -, hconsumes, -⟩ :=
    keepalive_exact transparent sampleSession keepaliveConfig events pool htrace hlive
  obtain ⟨-, nonce, hnonce, hlast, hacknowledged, -⟩ :=
    hconsumes _ _ _ hmem (.keepalive (.deadlineAnswered hack)) hack
  cases hnonce
  exact ⟨events, pool, htrace, hlive, hlast, hmem, hacknowledged⟩

end DgProto
