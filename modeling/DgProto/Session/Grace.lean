import DgProto.Session.Authenticity
import DgProto.Session.ReplayOracle

/-!
# The grace of the previous epoch

After a `RekeyInit` the key of the epoch it ended is kept for a while, for the frames
that were on their way.  Its budget is a number of frames and a period: each accepted
frame of the new epoch spends one frame, and the clock spends the period.

The budget of the specification is read off the events of the run (`GraceEnded`).  The
invariant `GraceInv` relates it to the fields of the session: while the budget lasts the
session holds the key and the window of the epoch, and once it has ended it never holds
them again.  Every call is one of the four cases of `GraceCase`.
-/

namespace DgProto

open Library Wire Crypto Replay

/-! ## What a run has spent -/

namespace Event

/-- A `RekeyInit` was accepted. -/
def acceptsRekey (event : Event) : Bool :=
  event.acceptance.any fun accepted => accepted.1.header.messageType == MessageType.rekeyInit

/-- Another frame was accepted under the current key. -/
def acceptsOrdinary (P : Primitives) (event : Event) : Bool :=
  event.acceptance.any fun accepted =>
    accepted.1.header.messageType != MessageType.rekeyInit &&
      (event.before.receive.decrypt P accepted.1).isOk

/-- The sequence number of a frame that was accepted under the previous key. -/
def previousSequence (P : Primitives) (event : Event) : Option UInt64 :=
  (event.acceptance.filter fun accepted =>
    accepted.1.header.messageType != MessageType.rekeyInit &&
      !(event.before.receive.decrypt P accepted.1).isOk).map fun accepted =>
        accepted.1.header.sequence

end Event

/-- The grace that started at `started` has ended after `events` at the time `now`: the
next epoch was left as well, the frames of the budget are spent, or the period is over. -/
def GraceEnded (P : Primitives) (limits : Session.Limits) (started : Time) (events : List Event)
    (now : Time) : Prop :=
  (∃ event ∈ events, event.acceptsRekey) ∨
    limits.graceFrames.toNat ≤ events.countP (Event.acceptsOrdinary P) ∨
    limits.gracePeriod ≤ 0 ∨ started + limits.gracePeriod ≤ now

theorem GraceEnded.mono {P : Primitives} {limits : Session.Limits} {started now later : Time}
    {events : List Event} (h : GraceEnded P limits started events now) (hle : now ≤ later)
    (more : List Event) : GraceEnded P limits started (events ++ more) later := by
  rcases h with ⟨event, hmem, hrekey⟩ | hspent | hperiod | hover
  · exact .inl ⟨event, List.mem_append_left _ hmem, hrekey⟩
  · refine .inr (.inl (hspent.trans ?_))
    rw [List.countP_append]
    exact Nat.le_add_right _ _
  · exact .inr (.inr (.inl hperiod))
  · exact .inr (.inr (.inr (hover.trans hle)))

theorem not_graceEnded_iff {P : Primitives} {limits : Session.Limits} {started now : Time}
    {events : List Event} :
    ¬ GraceEnded P limits started events now ↔
      (∀ event ∈ events, event.acceptsRekey = false) ∧
        events.countP (Event.acceptsOrdinary P) < limits.graceFrames.toNat ∧
        0 < limits.gracePeriod ∧ now < started + limits.gracePeriod := by
  simp only [GraceEnded, not_or, not_exists, not_and, not_le, Bool.not_eq_true]

/-- Record a sequence number that the window lets pass. -/
def Replay.ReplayWindow.record (window : ReplayWindow) (sequence : UInt64) : ReplayWindow :=
  match window.check sequence with
  | .ok token => (window.commit token).1
  | .error _ => window

theorem Replay.Records.record_eq {window window' : ReplayWindow} {sequence : UInt64}
    (h : Records window sequence window') : window.record sequence = window' := by
  obtain ⟨token, hcheck, hcommit⟩ := h
  simp only [ReplayWindow.record, hcheck, hcommit]

/-- The window of the previous epoch after `events`: the window that its `RekeyInit`
left, with the numbers accepted since. -/
def previousWindow (P : Primitives) (window : ReplayWindow) (events : List Event) :
    ReplayWindow :=
  (events.filterMap (Event.previousSequence P)).foldl ReplayWindow.record window

theorem previousWindow_append_one (P : Primitives) (window : ReplayWindow)
    (events : List Event) (event : Event) :
    previousWindow P window (events ++ [event]) =
      match event.previousSequence P with
      | none => previousWindow P window events
      | some sequence => (previousWindow P window events).record sequence := by
  unfold previousWindow
  cases hsequence : event.previousSequence P with
  | none | some sequence => simp [hsequence]

/-- Recording never forgets. -/
theorem Replay.Refines.foldl_record {window : ReplayWindow} {seen : Finset Nat}
    (h : Refines window seen) (sequences : List UInt64) :
    ∃ seen', seen ⊆ seen' ∧ Refines (sequences.foldl ReplayWindow.record window) seen' := by
  induction sequences generalizing window seen with
  | nil => exact ⟨seen, Finset.Subset.refl _, h⟩
  | cons sequence sequences ih =>
      cases hcheck : window.check sequence with
      | error err =>
          have hsame : window.record sequence = window := by
            simp only [ReplayWindow.record, hcheck]
          rw [List.foldl_cons, hsame]
          exact ih h
      | ok token =>
          have hrecords := records_of_check hcheck
          obtain ⟨seen', hsubset, hrefines⟩ := ih (hrecords.refines h).2
          rw [List.foldl_cons, hrecords.record_eq]
          exact ⟨seen', (Finset.subset_insert _ _).trans hsubset, hrefines⟩

/-- A recorded number does not pass again. -/
theorem Replay.Refines.check_of_mem {window : ReplayWindow} {seen : Finset Nat}
    (h : Refines window seen) {sequence : UInt64} (hmem : sequence.toNat ∈ seen) :
    ∃ err, window.check sequence = .error err := by
  cases hcheck : window.check sequence with
  | error err => exact ⟨err, rfl⟩
  | ok token => exact absurd hmem ((records_of_check hcheck).refines h).1

/-- The clock readings that a call may take while it receives. -/
def SessionCall.readings : SessionCall → List Time
  | .receivePayload _ clock => [clock.available, clock.graceStart, clock.expire]
  | _ => []

/-- The clock never goes back. -/
def MonotoneClock (calls : List SessionCall) : Prop :=
  (calls.flatMap SessionCall.readings).Pairwise (· ≤ ·)

instance (calls : List SessionCall) : Decidable (MonotoneClock calls) :=
  inferInstanceAs (Decidable ((calls.flatMap SessionCall.readings).Pairwise (· ≤ ·)))

/-- From one receive to another: the readings after the first, all before the second. -/
theorem MonotoneClock.between {calls : List SessionCall} {first last : Frame}
    {clock₀ clock : ReceiveClock}
    (h : MonotoneClock (.receivePayload first clock₀ :: calls ++ [.receivePayload last clock])) :
    (clock₀.expire :: calls.flatMap SessionCall.readings).Pairwise (· ≤ ·) ∧
      ∀ reading ∈ clock₀.expire :: calls.flatMap SessionCall.readings,
        reading ≤ clock.available := by
  have hall : (clock₀.available :: clock₀.graceStart :: ((clock₀.expire ::
      calls.flatMap SessionCall.readings) ++
        [clock.available, clock.graceStart, clock.expire])).Pairwise (· ≤ ·) := by
    simpa [MonotoneClock, SessionCall.readings] using h
  obtain ⟨hfirst, -, hacross⟩ := List.pairwise_append.mp
    (List.pairwise_cons.mp (List.pairwise_cons.mp hall).2).2
  exact ⟨hfirst, fun reading hmem => hacross reading hmem _ List.mem_cons_self⟩

/-- A structurally valid frame to the session, other than a `RekeyInit`, that was sealed
under the session's receive key. -/
structure SealedFor (P : Primitives) (s : Session) (frame : Frame) (plaintext : List UInt8) :
    Prop where
  receivable : Receivable frame
  sessionID : frame.header.sessionID = s.sessionID
  notRekey : frame.header.messageType ≠ MessageType.rekeyInit
  sealed : frame.payload ++ frame.tag.val =
    P.sealText s.receiveKey (nonce frame.header.sequence) plaintext
      (frame.header.octets ++ frame.padding)

namespace Session

/-! ## One call -/

/-- The budget of the previous key. -/
structure GraceBudget where
  remaining : UInt64
  expires : Time
  frames : UInt64
  period : Duration

def graceBudget (s : Session) : GraceBudget :=
  ⟨s.graceRemaining, s.graceUntil, s.graceFrames, s.gracePeriod⟩

section Cases

variable (P : Primitives) (clock : ReceiveClock) {s : Session} {frame : Frame}

/-- An accepted frame, by the key that opened it. -/
theorem receivePayload_accepted_cases {plaintext : List UInt8} {after : Session}
    (h : s.receivePayload P clock frame = (after, .ok plaintext)) :
    (s.receive.decrypt P frame = .ok plaintext ∧
      ((frame.header.messageType = MessageType.rekeyInit ∧
          ∃ init nextKey nextCodec window, Records s.replay frame.header.sequence window ∧
            s.prepareRekeyLocked P init = .ok (nextKey, nextCodec) ∧
            after = s.commitRekey clock window nextKey nextCodec init.epoch) ∨
        (frame.header.messageType ≠ MessageType.rekeyInit ∧
          ∃ window, Records s.replay frame.header.sequence window ∧
            after = s.commitCurrent clock window))) ∨
    ((∃ err, s.receive.decrypt P frame = .error err) ∧
      frame.header.messageType ≠ MessageType.rekeyInit ∧
      ∃ codec window, s.previousReceive = some codec ∧
        Records s.previousReplay frame.header.sequence window ∧
        after = { s with previousReplay := window }) := by
  have hcase := receivePayload_cases P clock s frame
  rw [h] at hcase
  cases hcase with
  | rekey _ init nextKey nextCodec window _ htype hopen hrecords _ hprepare =>
      exact .inl ⟨hopen, .inl ⟨htype, init, nextKey, nextCodec, window, hrecords, hprepare, rfl⟩⟩
  | current _ window _ htype hopen hrecords =>
      exact .inl ⟨hopen, .inr ⟨htype, window, hrecords, rfl⟩⟩
  | previous _ codec window hadmits htype havailable hopen hrecords =>
      cases hcurrent : s.receive.decrypt P frame with
      | error err =>
          exact .inr ⟨⟨err, rfl⟩, htype, codec, window, previousReceive_of_available havailable,
            hrecords, rfl⟩
      | ok plaintext' =>
          -- the current key has precedence, so this was a frame of the current epoch
          cases hcheck : s.replay.check frame.header.sequence with
          | error err =>
              have hrefused : s.receivePayload P clock frame = (s, .error err) :=
                receivePayload_of_decrypt_error hadmits
                  (by simp [decryptEpochLocked, hadmits.sequence, hcurrent, hcheck])
              rw [hrefused] at h
              cases (Prod.mk.inj h).2
          | ok token =>
              rw [receivePayload_of_current P clock s hadmits hcurrent hcheck htype] at h
              obtain ⟨hafter, hplaintext⟩ := Prod.mk.inj h
              rw [Except.ok.inj hplaintext]
              exact .inl ⟨rfl, .inr ⟨htype, _, records_of_check hcheck, hafter.symm⟩⟩

end Cases

/-- What a call does to the two receive keys. -/
inductive GraceCase (P : Primitives) (s : Session) (call : SessionCall) (event : Event) : Prop
  /-- Nothing was received. -/
  | idle (hrekey : event.acceptsRekey = false) (hordinary : event.acceptsOrdinary P = false)
      (hprevious : event.previousSequence P = none)
      (hside : event.after.receiveSide = s.receiveSide)
      (hbudget : event.after.graceBudget = s.graceBudget)
  /-- A transition to the next epoch. -/
  | rekey (frame : Frame) (clock : ReceiveClock) (init : RekeyInit) (nextKey : Key)
      (nextCodec : Codec) (window : ReplayWindow) (hcall : call = .receivePayload frame clock)
      (hrekey : event.acceptsRekey = true) (hordinary : event.acceptsOrdinary P = false)
      (hprevious : event.previousSequence P = none)
      (hrecords : Records s.replay frame.header.sequence window)
      (hprepare : s.prepareRekeyLocked P init = .ok (nextKey, nextCodec))
      (hafter : event.after = s.commitRekey clock window nextKey nextCodec init.epoch)
  /-- A frame that spends the budget. -/
  | ordinary (frame : Frame) (clock : ReceiveClock) (window : ReplayWindow)
      (hcall : call = .receivePayload frame clock)
      (hrekey : event.acceptsRekey = false) (hordinary : event.acceptsOrdinary P = true)
      (hprevious : event.previousSequence P = none)
      (hrecords : Records s.replay frame.header.sequence window)
      (hafter : event.after = s.commitCurrent clock window)
  /-- A frame of the previous epoch. -/
  | previous (frame : Frame) (clock : ReceiveClock) (codec : Codec) (window : ReplayWindow)
      (hcall : call = .receivePayload frame clock)
      (hrekey : event.acceptsRekey = false) (hordinary : event.acceptsOrdinary P = false)
      (hprevious : event.previousSequence P = some frame.header.sequence)
      (hcodec : s.previousReceive = some codec)
      (hrecords : Records s.previousReplay frame.header.sequence window)
      (hafter : event.after = { s with previousReplay := window })

/-- Only a receive touches the budget. -/
theorem step_graceBudget (P : Primitives) (s : Session) {call : SessionCall}
    (h : ∀ frame clock, call ≠ .receivePayload frame clock) :
    (s.step P call).after.graceBudget = s.graceBudget := by
  have hcase := step_cases P s call
  generalize s.step P call = event at hcase ⊢
  cases hcase with
  | received frame clock _ _ hcall => exact absurd hcall (h frame clock)
  | rejected | closed | data | rekey | rekeyLost | marked => rfl

theorem step_acceptance_of_not_receive (P : Primitives) (s : Session) {call : SessionCall}
    (h : ∀ frame clock, call ≠ .receivePayload frame clock) :
    (s.step P call).acceptance = none := by
  cases call with
  | receivePayload frame clock => exact absurd rfl (h frame clock)
  | send | sendPayload | markRekeySent | close => rfl

/-- A call that accepts nothing spends nothing. -/
theorem GraceCase.of_acceptance_none {P : Primitives} {s : Session} {call : SessionCall}
    {event : Event} (h : event.acceptance = none)
    (hside : event.after.receiveSide = s.receiveSide)
    (hbudget : event.after.graceBudget = s.graceBudget) : GraceCase P s call event :=
  .idle (by simp [Event.acceptsRekey, h]) (by simp [Event.acceptsOrdinary, h])
    (by simp [Event.previousSequence, h]) hside hbudget

theorem step_graceCase (P : Primitives) (s : Session) (call : SessionCall) :
    GraceCase P s call (s.step P call) := by
  by_cases hreceive : ∀ frame clock, call ≠ .receivePayload frame clock
  · exact .of_acceptance_none (step_acceptance_of_not_receive P s hreceive)
      (step_receiveSide P s hreceive) (step_graceBudget P s hreceive)
  push Not at hreceive
  obtain ⟨frame, clock, rfl⟩ := hreceive
  cases hreceived : s.receivePayload P clock frame with
  | mk after result =>
      have hstep : s.step P (.receivePayload frame clock) =
          ⟨s, .receivePayload frame clock, after, [], result.map .payload⟩ := by
        simp only [step, hreceived]
      rw [hstep]
      cases result with
      | error err =>
          have hsame : after = s := by
            have hcase := receivePayload_cases P clock s frame
            rw [hreceived] at hcase
            cases hcase with
            | rejected => rfl
          rw [hsame]
          exact .of_acceptance_none rfl rfl rfl
      | ok plaintext =>
          rcases receivePayload_accepted_cases P clock hreceived with
            ⟨hopen, ⟨htype, init, nextKey, nextCodec, window, hrecords, hprepare, hafter⟩ |
              ⟨htype, window, hrecords, hafter⟩⟩ |
            ⟨⟨err, hopen⟩, htype, codec, window, hcodec, hrecords, hafter⟩
          · exact .rekey frame clock init nextKey nextCodec window rfl
              (by simp [Event.acceptsRekey, Event.acceptance, Except.map, htype])
              (by simp [Event.acceptsOrdinary, Event.acceptance, Except.map, htype])
              (by simp [Event.previousSequence, Event.acceptance, Except.map, htype])
              hrecords hprepare hafter
          · exact .ordinary frame clock window rfl
              (by simp [Event.acceptsRekey, Event.acceptance, Except.map, htype])
              (by simp [Event.acceptsOrdinary, Event.acceptance, Except.map, htype, hopen,
                Except.isOk, Except.toBool])
              (by simp [Event.previousSequence, Event.acceptance, Except.map, hopen,
                Except.isOk, Except.toBool])
              hrecords hafter
          · exact .previous frame clock codec window rfl
              (by simp [Event.acceptsRekey, Event.acceptance, Except.map, htype])
              (by simp [Event.acceptsOrdinary, Event.acceptance, Except.map, hopen,
                Except.isOk, Except.toBool])
              (by simp [Event.previousSequence, Event.acceptance, Except.map, htype, hopen,
                Except.isOk, Except.toBool])
              hcodec hrecords hafter

/-! ## Expiry -/

section Expiry

variable {P : Primitives} {limits : Limits} {started : Time} {window : ReplayWindow}
  {events : List Event}

/-- The previous key within its budget. -/
structure Graced (P : Primitives) (limits : Limits) (started : Time) (window : ReplayWindow)
    (events : List Event) (s : Session) : Prop where
  retained : s.previousReceive ≠ none
  remaining : s.graceRemaining.toNat + events.countP (Event.acceptsOrdinary P) =
    limits.graceFrames.toNat
  spendable : 0 < s.graceRemaining
  period : 0 < limits.gracePeriod
  expires : s.graceUntil = started + limits.gracePeriod
  previousReplay : s.previousReplay = previousWindow P window events

/-- The budget lasts while the previous key is available. -/
theorem Graced.not_ended {s : Session} {now : Time} {codec : Codec}
    (h : Graced P limits started window events s)
    (hall : ∀ event ∈ events, event.acceptsRekey = false)
    (havailable : s.previousAvailable now = some codec) :
    ¬ GraceEnded P limits started events now := by
  have hbefore : now < s.graceUntil := by
    unfold previousAvailable at havailable
    split_ifs at havailable with hlasts
    exact hlasts.2.2
  have hspendable := UInt64.lt_iff_toNat_lt.mp h.spendable
  have hremaining := h.remaining
  rw [UInt64.toNat_zero] at hspendable
  rw [h.expires] at hbefore
  exact not_graceEnded_iff.mpr ⟨hall, by omega, h.period, hbefore⟩

theorem expireGraceLocked_limits (s : Session) (now : Time) :
    (s.expireGraceLocked now).graceFrames = s.graceFrames ∧
      (s.expireGraceLocked now).gracePeriod = s.gracePeriod := by
  rcases expireGraceLocked_cases s now with heq | heq
  · rw [heq]
    exact ⟨rfl, rfl⟩
  · rw [heq]
    exact ⟨rfl, rfl⟩

/-- Expiry decides between the two states of the budget. -/
theorem graced_or_ended {s : Session} (now : Time) (hretained : s.previousReceive ≠ none)
    (hremaining : s.graceRemaining.toNat + events.countP (Event.acceptsOrdinary P) =
      limits.graceFrames.toNat)
    (hperiod : s.gracePeriod = limits.gracePeriod)
    (hexpires : s.graceUntil = started + limits.gracePeriod)
    (hwindow : s.previousReplay = previousWindow P window events) :
    Graced P limits started window events (s.expireGraceLocked now) ∨
      ((s.expireGraceLocked now).previousReceive = none ∧
        GraceEnded P limits started events now) := by
  unfold expireGraceLocked
  rw [if_neg hretained]
  by_cases hover : s.graceRemaining = 0 ∨ s.gracePeriod ≤ 0 ∨ ¬ now < s.graceUntil
  · rw [if_pos hover]
    refine .inr ⟨rfl, ?_⟩
    rcases hover with hzero | hnone | hlate
    · rw [hzero] at hremaining
      exact .inr (.inl (by simpa using hremaining.ge))
    · exact .inr (.inr (.inl (hperiod ▸ hnone)))
    · rw [hexpires, not_lt] at hlate
      exact .inr (.inr (.inr hlate))
  · rw [if_neg hover]
    obtain ⟨hzero, hpositive, -⟩ := by simpa only [not_or] using hover
    rw [hperiod, not_le] at hpositive
    exact .inl ⟨hretained, hremaining, UInt64.pos_iff_ne_zero.mpr hzero, hpositive, hexpires,
      hwindow⟩

end Expiry

/-! ## Whole runs -/

section Runs

variable {P : Primitives} {key : Key} {limits : Limits} {s : Session}

/-- The receive keys stay on their chain. -/
theorem ReceiveKeys.step (h : ReceiveKeys P key s.receiveSide) (call : SessionCall) :
    ReceiveKeys P key (s.step P call).after.receiveSide := by
  have hcase := step_graceCase P s call
  generalize s.step P call = event at hcase ⊢
  cases hcase with
  | idle _ _ _ hside =>
      rw [hside]
      exact h
  | rekey frame clock init nextKey nextCodec window _ _ _ _ _ hprepare hafter =>
      obtain ⟨hlast, hepoch, rfl, rfl, -⟩ := prepareRekeyLocked_eq_ok hprepare
      rw [hafter, hepoch]
      have hnext := h.next hlast window
      rcases s.commitRekey_receiveSide clock window (deriveNextTrafficKey P s.receiveKey)
        ⟨deriveNextTrafficKey P s.receiveKey⟩ (s.receiveEpoch + 1) with heq | heq
      · rw [heq]
        exact hnext
      · rw [heq]
        exact hnext.forget _ _
  | ordinary frame clock window _ _ _ _ _ hafter =>
      rw [hafter]
      rcases s.commitCurrent_receiveSide clock window with heq | heq
      · rw [heq]
        exact h.withWindows _ _
      · rw [heq]
        exact h.forget _ _
  | previous frame clock codec window _ _ _ _ _ _ hafter =>
      rw [hafter]
      exact h.withWindows _ _

/-- No call changes the limits of the budget. -/
theorem step_graceLimits (P : Primitives) (s : Session) (call : SessionCall) :
    (s.step P call).after.graceFrames = s.graceFrames ∧
      (s.step P call).after.gracePeriod = s.gracePeriod := by
  have hcase := step_graceCase P s call
  generalize s.step P call = event at hcase ⊢
  cases hcase with
  | idle _ _ _ _ hbudget =>
      exact ⟨congrArg GraceBudget.frames hbudget, congrArg GraceBudget.period hbudget⟩
  | rekey _ clock _ _ _ _ _ _ _ _ _ _ hafter =>
      rw [hafter]
      exact expireGraceLocked_limits _ clock.expire
  | ordinary _ clock _ _ _ _ _ _ hafter =>
      rw [hafter]
      unfold commitCurrent
      by_cases hnone : s.previousReceive = none
      · rw [if_pos hnone]
        exact ⟨rfl, rfl⟩
      · rw [if_neg hnone]
        exact expireGraceLocked_limits _ clock.expire
  | previous _ _ _ _ _ _ _ _ _ _ hafter =>
      rw [hafter]
      exact ⟨rfl, rfl⟩

/-- The current window refines some set of numbers. -/
theorem step_windowed (h : ∃ seen, Refines s.replay seen) (call : SessionCall) :
    ∃ seen, Refines (s.step P call).after.replay seen := by
  obtain ⟨seen, hseen⟩ := h
  have hcase := step_graceCase P s call
  generalize s.step P call = event at hcase ⊢
  cases hcase with
  | idle _ _ _ hside =>
      have hreplay : event.after.replay = s.replay := congrArg ReceiveSide.replay hside
      rw [hreplay]
      exact ⟨seen, hseen⟩
  | rekey _ clock _ nextKey nextCodec window _ _ _ _ _ _ hafter =>
      obtain ⟨-, -, -, -, -, -, hreplay⟩ :=
        s.commitRekey_current clock window nextKey nextCodec _
      rw [hafter, hreplay]
      exact ⟨∅, refines_zero⟩
  | ordinary _ clock window _ _ _ _ hrecords hafter =>
      obtain ⟨-, -, -, -, -, -, hreplay⟩ := s.commitCurrent_current clock window
      rw [hafter, hreplay]
      exact ⟨_, (hrecords.refines hseen).2⟩
  | previous _ _ _ _ _ _ _ _ _ _ hafter =>
      rw [hafter]
      exact ⟨seen, hseen⟩

/-- The session after a transition from `epoch`: while the next epoch lasts, the key of
`epoch` is held within its budget or dropped for good. -/
structure GraceInv (P : Primitives) (key : Key) (limits : Limits) (epoch : Nat)
    (started : Time) (window : ReplayWindow) (events : List Event) (now : Time) (s : Session) :
    Prop where
  frames : s.graceFrames = limits.graceFrames
  period : s.gracePeriod = limits.gracePeriod
  keys : ReceiveKeys P key s.receiveSide
  left : (∃ event ∈ events, event.acceptsRekey) → epoch + 1 < s.receiveEpoch.toNat
  held : (∀ event ∈ events, event.acceptsRekey = false) →
    s.receiveEpoch.toNat = epoch + 1 ∧
      (Graced P limits started window events s ∨
        (s.previousReceive = none ∧ GraceEnded P limits started events now))

variable {epoch : Nat} {started now : Time} {window : ReplayWindow} {events : List Event}

/-- The events so far with one more that accepts no `RekeyInit`. -/
theorem forall_append_one {event : Event}
    (h : ∀ e ∈ events ++ [event], e.acceptsRekey = false) :
    (∀ e ∈ events, e.acceptsRekey = false) ∧ event.acceptsRekey = false :=
  ⟨fun e he => h e (List.mem_append_left _ he), h event (by simp)⟩

theorem exists_append_one {event : Event} (h : event.acceptsRekey = false) :
    (∃ e ∈ events ++ [event], e.acceptsRekey) ↔ ∃ e ∈ events, e.acceptsRekey := by
  simp [or_and_right, exists_or, h]

/-- One call after a transition, at a clock that does not go back. -/
theorem GraceInv.step (h : GraceInv P key limits epoch started window events now s)
    (call : SessionCall) (hclock : (now :: call.readings).Pairwise (· ≤ ·)) :
    ∃ latest ∈ now :: call.readings,
      GraceInv P key limits epoch started window (events ++ [s.step P call]) latest
        (s.step P call).after := by
  have hkeys := h.keys.step call
  obtain ⟨hframes, hperiod⟩ := step_graceLimits P s call
  have hcase := step_graceCase P s call
  generalize s.step P call = event at hcase hkeys hframes hperiod ⊢
  rw [h.frames] at hframes
  rw [h.period] at hperiod
  cases hcase with
  | idle hrekey hordinary hprevious hside hbudget =>
      have hepoch : event.after.receiveEpoch = s.receiveEpoch :=
        congrArg ReceiveSide.receiveEpoch hside
      have hcodec : event.after.previousReceive = s.previousReceive :=
        congrArg ReceiveSide.previousReceive hside
      have hreplay : event.after.previousReplay = s.previousReplay :=
        congrArg ReceiveSide.previousReplay hside
      have hremaining : event.after.graceRemaining = s.graceRemaining :=
        congrArg GraceBudget.remaining hbudget
      have hexpires : event.after.graceUntil = s.graceUntil :=
        congrArg GraceBudget.expires hbudget
      refine ⟨now, List.mem_cons_self, hframes, hperiod, hkeys, fun hleft => ?_, fun hall => ?_⟩
      · rw [hepoch]
        exact h.left ((exists_append_one hrekey).mp hleft)
      · obtain ⟨hsame, hheld⟩ := h.held (forall_append_one hall).1
        rw [hepoch, hcodec]
        refine ⟨hsame, ?_⟩
        rcases hheld with hgraced | ⟨hnone, hended⟩
        · left
          refine ⟨hcodec ▸ hgraced.retained, ?_, hremaining ▸ hgraced.spendable,
            hgraced.period, hexpires ▸ hgraced.expires, ?_⟩
          · rw [hremaining, List.countP_append, List.countP_singleton, hordinary]
            exact hgraced.remaining
          · rw [hreplay, previousWindow_append_one, hprevious]
            exact hgraced.previousReplay
        · exact .inr ⟨hnone, hended.mono le_rfl _⟩
  | rekey frame clock init nextKey nextCodec recorded _ hrekey _ _ _ hprepare hafter =>
      obtain ⟨hlast, hepoch, -⟩ := prepareRekeyLocked_eq_ok hprepare
      have hnext : event.after.receiveEpoch.toNat = s.receiveEpoch.toNat + 1 := by
        obtain ⟨-, -, -, hnew, -⟩ := s.commitRekey_current clock recorded nextKey nextCodec
          init.epoch
        rw [hafter, hnew, hepoch, toNat_epoch_succ hlast]
      refine ⟨now, List.mem_cons_self, hframes, hperiod, hkeys, fun _ => ?_, fun hall => ?_⟩
      · rw [hnext]
        by_cases hleft : ∃ e ∈ events, e.acceptsRekey
        · exact (h.left hleft).trans (Nat.lt_succ_self _)
        · have hall : ∀ e ∈ events, e.acceptsRekey = false := by
            intro e he
            exact Bool.eq_false_iff.mpr fun hrekey => hleft ⟨e, he, hrekey⟩
          rw [(h.held hall).1]
          omega
      · rw [(forall_append_one hall).2] at hrekey
        cases hrekey
  | ordinary frame clock recorded hcall hrekey hordinary hprevious _ hafter =>
      obtain ⟨-, -, -, hepoch, -⟩ := s.commitCurrent_current clock recorded
      rw [← hafter] at hepoch
      have hexpire : clock.expire ∈ now :: call.readings := by simp [hcall, SessionCall.readings]
      have hlater : now ≤ clock.expire := by
        rw [hcall] at hclock
        exact (List.pairwise_cons.mp hclock).1 _ (by simp [SessionCall.readings])
      refine ⟨clock.expire, hexpire, hframes, hperiod, hkeys, fun hleft => ?_, fun hall => ?_⟩
      · rw [hepoch]
        exact h.left ((exists_append_one hrekey).mp hleft)
      · obtain ⟨hsame, hheld⟩ := h.held (forall_append_one hall).1
        rw [hepoch]
        refine ⟨hsame, ?_⟩
        rcases hheld with hgraced | ⟨hnone, hended⟩
        · -- one frame of the budget is spent before the expiry is decided
          rw [hafter, commitCurrent, if_neg hgraced.retained, if_pos hgraced.spendable]
          apply graced_or_ended
          · exact hgraced.retained
          · have hpos := UInt64.lt_iff_toNat_lt.mp hgraced.spendable
            have hspent := UInt64.toNat_sub_of_le s.graceRemaining 1
              (UInt64.le_iff_toNat_le.mpr hpos)
            have hremaining := hgraced.remaining
            rw [List.countP_append, List.countP_singleton, hordinary]
            simp only [hspent, if_true] at hpos ⊢
            simp only [UInt64.toNat_zero, UInt64.toNat_one] at hpos ⊢
            omega
          · exact h.period
          · exact hgraced.expires
          · rw [previousWindow_append_one, hprevious]
            exact hgraced.previousReplay
        · rw [hafter, commitCurrent, if_pos hnone]
          exact .inr ⟨hnone, hended.mono hlater _⟩
  | previous frame clock codec recorded _ hrekey hordinary hprevious hcodec hrecords hafter =>
      refine ⟨now, List.mem_cons_self, hframes, hperiod, hkeys, fun hleft => ?_, fun hall => ?_⟩
      · rw [hafter]
        exact h.left ((exists_append_one hrekey).mp hleft)
      · obtain ⟨hsame, hheld⟩ := h.held (forall_append_one hall).1
        rw [hafter]
        refine ⟨hsame, ?_⟩
        rcases hheld with hgraced | ⟨hnone, -⟩
        · left
          refine ⟨hgraced.retained, ?_, hgraced.spendable, hgraced.period, hgraced.expires, ?_⟩
          · rw [List.countP_append, List.countP_singleton, hordinary]
            exact hgraced.remaining
          · rw [previousWindow_append_one, hprevious, ← hgraced.previousReplay]
            exact hrecords.record_eq.symm
        · rw [hnone] at hcodec
          cases hcodec

/-- Every run after a transition, at a clock that does not go back. -/
theorem GraceInv.run (h : GraceInv P key limits epoch started window events now s)
    (calls : List SessionCall)
    (hclock : (now :: calls.flatMap SessionCall.readings).Pairwise (· ≤ ·)) :
    ∃ latest ∈ now :: calls.flatMap SessionCall.readings,
      GraceInv P key limits epoch started window (events ++ s.events P calls) latest
        (s.run P calls) := by
  induction calls generalizing events now s with
  | nil => exact ⟨now, List.mem_cons_self, by simpa [Session.events, Session.run] using h⟩
  | cons call calls ih =>
      rw [List.flatMap_cons, ← List.cons_append] at hclock
      obtain ⟨hfirst, hrest, hacross⟩ := List.pairwise_append.mp hclock
      obtain ⟨middle, hmiddle, hnext⟩ := h.step call hfirst
      obtain ⟨latest, hlatest, hrun⟩ := ih hnext
        (List.pairwise_cons.mpr ⟨fun later hlater => hacross middle hmiddle later hlater, hrest⟩)
      refine ⟨latest, ?_, by simpa [Session.events, Session.run] using hrun⟩
      rw [List.flatMap_cons, ← List.cons_append, List.mem_append]
      rcases List.mem_cons.mp hlatest with rfl | hlate
      · exact .inl hmiddle
      · exact .inr hlate

/-- The transition itself. -/
theorem GraceInv.start (hkeys : ReceiveKeys P key s.receiveSide)
    (hframes : s.graceFrames = limits.graceFrames)
    (hperiod : s.gracePeriod = limits.gracePeriod) {frame : Frame} {clock : ReceiveClock}
    (h : (s.step P (.receivePayload frame clock)).acceptsRekey) :
    Records s.replay frame.header.sequence (s.replay.record frame.header.sequence) ∧
      GraceInv P key limits s.receiveEpoch.toNat clock.graceStart
        (s.replay.record frame.header.sequence) [] clock.expire
        (s.step P (.receivePayload frame clock)).after := by
  have hkeys' := hkeys.step (.receivePayload frame clock)
  obtain ⟨hframes', hperiod'⟩ := step_graceLimits P s (.receivePayload frame clock)
  have hcase := step_graceCase P s (.receivePayload frame clock)
  generalize s.step P (.receivePayload frame clock) = event at h hcase hkeys' hframes' hperiod' ⊢
  cases hcase with
  | idle hrekey | ordinary _ _ _ _ hrekey | previous _ _ _ _ _ hrekey =>
      rw [hrekey] at h
      cases h
  | rekey _ _ init nextKey nextCodec window hcall _ _ _ hrecords hprepare hafter =>
      obtain ⟨rfl, rfl⟩ := SessionCall.receivePayload.inj hcall
      obtain ⟨hlast, hepoch, -⟩ := prepareRekeyLocked_eq_ok hprepare
      obtain ⟨-, -, -, hnew, -⟩ := s.commitRekey_current clock window nextKey nextCodec init.epoch
      rw [hrecords.record_eq]
      refine ⟨hrecords, hframes'.trans hframes, hperiod'.trans hperiod, hkeys',
        fun hleft => ?_, fun _ => ⟨?_, ?_⟩⟩
      · obtain ⟨_, hmem, -⟩ := hleft
        cases hmem
      · rw [hafter, hnew, hepoch, toNat_epoch_succ hlast]
      · rw [hafter]
        apply graced_or_ended
        · exact Option.some_ne_none _
        · simp [hframes]
        · exact hperiod
        · simp [hperiod]
        · rfl

end Runs

/-! ## One delivery -/

section Delivery

variable {P : Primitives} {key : Key} {limits : Limits} {epoch : Nat} {started now : Time}
  {window : ReplayWindow} {events : List Event} {s t : Session} {frame : Frame}
  {plaintext : List UInt8} {clock : ReceiveClock}

theorem receivePayload_of_unauthenticated (hadmits : t.Admits frame)
    (hreceivable : Receivable frame) (h : t.Unauthenticated P clock frame) :
    t.receivePayload P clock frame = (t, .error Sentinel.authentication.bare) := by
  obtain ⟨err, herr, hauth⟩ := decryptEpochLocked_of_unauthenticated P clock hadmits.sequence h
  have hrefused := receivePayload_of_decrypt_error hadmits (herr t.replay t.previousReplay)
  rw [hauth hreceivable] at hrefused
  exact hrefused

theorem admits_of_sealedFor (h : SealedFor P s frame plaintext)
    (hsession : t.sessionID = s.sessionID) (hopen : t.closed = false) : t.Admits frame := by
  obtain ⟨htype, hsequence, -⟩ := validateEncryptedHeader_eq_ok_iff.mp h.receivable.header
  simp only [not_or, UInt8.not_lt] at htype
  obtain ⟨hlow, hhigh, hticket⟩ := htype
  exact ⟨hopen, h.sessionID.trans hsession.symm, hticket,
    by simp [validSessionMessageType, hlow, hhigh], hsequence⟩

/-- A key opens what it has sealed. -/
theorem decrypt_of_sealedFor (hopens : P.OpenInvertsSeal) (h : SealedFor P s frame plaintext) :
    Codec.decrypt P ⟨s.receiveKey⟩ frame = .ok plaintext := by
  rw [Codec.decrypt_eq_openInput, h.receivable.openInput_eq]
  simp only [OpenInput.opened, h.sealed, hopens s.receiveKey]

/-- No other key of the chain opens it. -/
theorem not_authenticates_of_sealedFor (hfresh : ChainFresh P key)
    (hideal : ChainSeparated P key) (h : SealedFor P s frame plaintext) {i j : Nat}
    (hi : i < epochCount) (hj : j < epochCount) (hkey : s.receiveKey = keyChain P key i)
    (hne : i ≠ j) : ¬ Codec.Authenticates P ⟨keyChain P key j⟩ frame := by
  rintro ⟨opened, hopen⟩
  have hother : keyChain P key i ≠ keyChain P key j := fun heq => hne (hfresh i j hi hj heq)
  rw [Codec.decrypt_eq_openInput, h.receivable.openInput_eq] at hopen
  simp only [OpenInput.opened, h.sealed, hkey, hideal i j hi hj hother] at hopen
  cases hopen

/-- What becomes of a frame of the previous epoch: the budget decides first, and the
window of the epoch after it. -/
structure GraceOutcome (P : Primitives) (limits : Limits) (started : Time)
    (window : ReplayWindow) (events : List Event) (now : Time) (t : Session)
    (sequence : UInt64) (plaintext : List UInt8)
    (outcome : Session × Except Error (List UInt8)) : Prop where
  ended : GraceEnded P limits started events now →
    outcome = (t, .error Sentinel.authentication.bare)
  lasts : ¬ GraceEnded P limits started events now →
    outcome =
      match window.check sequence with
      | .ok token => ({ t with previousReplay := (window.commit token).1 }, .ok plaintext)
      | .error err => (t, .error err)

theorem GraceOutcome.accepted_iff {sequence : UInt64}
    {outcome : Session × Except Error (List UInt8)}
    (h : GraceOutcome P limits started window events now t sequence plaintext outcome)
    (received : List UInt8) :
    outcome.2 = .ok received ↔
      ¬ GraceEnded P limits started events now ∧ received = plaintext ∧
        ∃ token, window.check sequence = .ok token := by
  by_cases hended : GraceEnded P limits started events now
  · rw [h.ended hended]
    simp [hended]
  · rw [h.lasts hended]
    cases hcheck : window.check sequence with
    | error err => simp
    | ok token => simp [hended, eq_comm]

/-- The delivery of a frame of the epoch that the transition ended. -/
theorem GraceInv.deliver (h : GraceInv P key limits epoch started window events now t)
    (hopens : P.OpenInvertsSeal) (hfresh : ChainFresh P key) (hideal : ChainSeparated P key)
    (hepoch : 1 ≤ epoch) (hkey : s.receiveKey = keyChain P key (epoch - 1))
    (hsealed : SealedFor P s frame plaintext) (hsession : t.sessionID = s.sessionID)
    (hopen : t.closed = false) (hnow : now ≤ clock.available) :
    GraceOutcome P limits started (previousWindow P window events) events clock.available t
      frame.header.sequence plaintext (t.receivePayload P clock frame) := by
  have hadmits := admits_of_sealedFor hsealed hsession hopen
  have hlt := t.receiveEpoch.toNat_lt
  have hcurrentKey : t.receive = ⟨keyChain P key (t.receiveEpoch.toNat - 1)⟩ := by
    rw [show t.receive = ⟨t.receiveKey⟩ from h.keys.codec,
      show t.receiveKey = keyChain P key (t.receiveEpoch.toNat - 1) from h.keys.receiveKey]
  have hnotLeft (hleft : ¬ ∃ event ∈ events, event.acceptsRekey) :
      ∀ event ∈ events, event.acceptsRekey = false := by
    intro event hmem
    exact Bool.eq_false_iff.mpr fun hrekey => hleft ⟨event, hmem, hrekey⟩
  have hepochs : epoch + 1 ≤ t.receiveEpoch.toNat := by
    by_cases hleft : ∃ event ∈ events, event.acceptsRekey
    · exact (h.left hleft).le
    · exact (h.held (hnotLeft hleft)).1.ge
  have hindex : epoch - 1 < epochCount := by
    simp only [epochCount]
    omega
  have hcurrent : ¬ t.receive.Authenticates P frame := by
    rw [hcurrentKey]
    exact not_authenticates_of_sealedFor hfresh hideal hsealed hindex
      (by simp only [epochCount]; omega) hkey (by omega)
  constructor
  · intro hended
    apply receivePayload_of_unauthenticated hadmits hsealed.receivable
    refine ⟨hcurrent, fun codec havailable => ?_⟩
    have hcodec := previousReceive_of_available havailable
    obtain ⟨-, hchain⟩ := h.keys.previous codec hcodec
    rw [hchain]
    apply not_authenticates_of_sealedFor hfresh hideal hsealed hindex
      (show t.receiveEpoch.toNat - 2 < epochCount by simp only [epochCount]; omega) hkey
    -- the retained key is a later one, or the budget still lasts
    by_cases hleft : ∃ event ∈ events, event.acceptsRekey
    · have := h.left hleft
      omega
    · obtain ⟨-, hgraced | ⟨hnone, -⟩⟩ := h.held (hnotLeft hleft)
      · exact absurd hended (hgraced.not_ended (hnotLeft hleft) havailable)
      · rw [hnone] at hcodec
        cases hcodec
  · intro hlasts
    obtain ⟨hall, -, hperiod, hbefore⟩ := not_graceEnded_iff.mp hlasts
    obtain ⟨hnext, hgraced | ⟨-, hended⟩⟩ := h.held hall
    swap
    · exact absurd (by simpa using hended.mono hnow []) hlasts
    obtain ⟨codec, hcodec⟩ := Option.ne_none_iff_exists'.mp hgraced.retained
    have havailable : t.previousAvailable clock.available = some codec := by
      rw [previousAvailable, hgraced.expires, h.period,
        if_pos ⟨hgraced.spendable, hperiod, hbefore⟩]
      exact hcodec
    have hsame : codec = ⟨s.receiveKey⟩ := by
      obtain ⟨-, hchain⟩ := h.keys.previous codec hcodec
      rw [hchain, hkey, show t.receiveSide.receiveEpoch.toNat - 2 = epoch - 1 by
        show t.receiveEpoch.toNat - 2 = epoch - 1
        omega]
    have hcandidate := decryptEpochLocked_of_previous P clock hadmits.sequence
      (Codec.decrypt_of_not_authenticates hsealed.receivable hcurrent) havailable
      (hsame ▸ decrypt_of_sealedFor hopens hsealed)
    rw [if_neg hsealed.notRekey, hgraced.previousReplay] at hcandidate
    cases hcheck : (previousWindow P window events).check frame.header.sequence with
    | error err =>
        rw [hcheck] at hcandidate
        exact receivePayload_of_decrypt_error hadmits hcandidate
    | ok token =>
        rw [hcheck] at hcandidate
        rw [receivePayload_of_previous P clock hadmits hsealed.notRekey hcandidate
          (hgraced.previousReplay ▸ hcheck), hgraced.previousReplay]

end Delivery

end Session

open Session

/-- The receive side of every state that a new session reaches. -/
theorem reachable_receiveKeys {P : Primitives} {suite : CipherSuite}
    {secrets : HandshakeSecrets} {start : Time} {fresh : Session}
    (hnew : newSession P suite secrets start = .ok fresh) (limits : Limits)
    (calls : List SessionCall) :
    let s := (fresh.withLimits limits).run P calls
    ReceiveKeys P secrets.receiveKey s.receiveSide ∧ s.graceFrames = limits.graceFrames ∧
      s.gracePeriod = limits.gracePeriod ∧ ∃ seen, Refines s.replay seen := by
  obtain ⟨rfl, -, rfl⟩ := newSession_eq_ok hnew
  apply run_induction (I := fun s => ReceiveKeys P secrets.receiveKey s.receiveSide ∧
    s.graceFrames = limits.graceFrames ∧ s.gracePeriod = limits.gracePeriod ∧
      ∃ seen, Refines s.replay seen)
  · rintro s call ⟨hkeys, hframes, hperiod, hseen⟩
    obtain ⟨hframes', hperiod'⟩ := step_graceLimits P s call
    exact ⟨hkeys.step call, hframes'.trans hframes, hperiod'.trans hperiod,
      step_windowed hseen call⟩
  · refine ⟨⟨rfl, le_rfl, rfl, rfl, fun _ hnone => ?_⟩, rfl, rfl, ∅, refines_zero⟩
    cases hnone

/-- **The grace budget of the previous epoch.**  In a run from a new session, with any
limits, let a `RekeyInit` be accepted, and let a structurally valid frame of the epoch it
ended, sealed under that epoch's key, be delivered later to the open session, at a clock
that did not go back since.  The frame is accepted exactly when no later `RekeyInit` has
been accepted, fewer than `graceFrames` ordinary frames of the new epoch have been
accepted, the period is positive and not over, and the number passes the window of the old
epoch, which holds the number of the `RekeyInit`.  Once the grace has ended the frame fails
its authentication, and so does every later frame of that epoch.  No other call spends the
budget. -/
theorem previous_epoch_grace {P : Primitives} (hopens : P.OpenInvertsSeal)
    {suite : CipherSuite} {secrets : HandshakeSecrets} {start : Time} {fresh : Session}
    (hnew : newSession P suite secrets start = .ok fresh)
    (hdistinct : ChainFresh P secrets.receiveKey) (hideal : ChainSeparated P secrets.receiveKey)
    (limits : Limits) (before : List SessionCall) (rekey : Frame) (clock₀ : ReceiveClock) :
    let s := (fresh.withLimits limits).run P before
    let s' := (s.step P (.receivePayload rekey clock₀)).after
    (s.step P (.receivePayload rekey clock₀)).acceptsRekey →
    (∀ (between : List SessionCall) (frame : Frame) (plaintext : List UInt8)
        (clock : ReceiveClock),
      SealedFor P s frame plaintext → (s'.run P between).closed = false →
      MonotoneClock (.receivePayload rekey clock₀ :: between ++ [.receivePayload frame clock]) →
      let t := s'.run P between
      let events := s'.events P between
      let window := previousWindow P (s.replay.record rekey.header.sequence) events
      let ended := GraceEnded P limits clock₀.graceStart events clock.available
      ((∃ received, (t.receivePayload P clock frame).2 = .ok received) ↔
        (∀ event ∈ events, event.acceptsRekey = false) ∧
          events.countP (Event.acceptsOrdinary P) < limits.graceFrames.toNat ∧
          0 < limits.gracePeriod ∧
          clock.available < clock₀.graceStart + limits.gracePeriod ∧
          ∃ token, window.check frame.header.sequence = .ok token) ∧
      (∀ received, (t.receivePayload P clock frame).2 = .ok received → received = plaintext) ∧
      (∃ err, window.check rekey.header.sequence = .error err) ∧
      (ended →
        t.receivePayload P clock frame = (t, .error Sentinel.authentication.bare) ∧
        ∀ (later : List SessionCall) (frame' : Frame) (plaintext' : List UInt8)
            (clock' : ReceiveClock),
          SealedFor P s frame' plaintext' →
          (s'.run P (between ++ .receivePayload frame clock :: later)).closed = false →
          MonotoneClock (.receivePayload rekey clock₀ ::
            (between ++ .receivePayload frame clock :: later) ++
              [.receivePayload frame' clock']) →
          ((s'.run P (between ++ .receivePayload frame clock :: later)).receivePayload P clock'
            frame').2 = .error Sentinel.authentication.bare)) ∧
    ∀ (t : Session) (call : SessionCall), (t.step P call).acceptsRekey = false →
      (t.step P call).acceptsOrdinary P = false →
      (t.step P call).after.graceBudget = t.graceBudget ∧
        (t.step P call).after.previousReceive = t.previousReceive := by
  intro s s' hrekey
  obtain ⟨hkeys, hframes, hperiod, seen, hseen⟩ := reachable_receiveKeys hnew limits before
  obtain ⟨hrecords, hstart⟩ := GraceInv.start hkeys hframes hperiod hrekey
  have hdeliver (between : List SessionCall) (frame : Frame) (plaintext : List UInt8)
      (clock : ReceiveClock) (hsealed : SealedFor P s frame plaintext)
      (hopen : (s'.run P between).closed = false)
      (hclock : MonotoneClock (.receivePayload rekey clock₀ :: between ++
        [.receivePayload frame clock])) :
      GraceOutcome P limits clock₀.graceStart
        (previousWindow P (s.replay.record rekey.header.sequence) (s'.events P between))
        (s'.events P between) clock.available (s'.run P between) frame.header.sequence plaintext
        ((s'.run P between).receivePayload P clock frame) := by
    obtain ⟨hmonotone, hbound⟩ := hclock.between
    obtain ⟨latest, hlatest, hinv⟩ := hstart.run between hmonotone
    rw [List.nil_append] at hinv
    exact hinv.deliver hopens hdistinct hideal hkeys.epoch_pos hkeys.receiveKey hsealed
      ((run_sessionID s' between).trans (step_sessionID s _)) hopen (hbound latest hlatest)
  constructor
  · intro between frame plaintext clock hsealed hopen hclock t events window ended
    have houtcome := hdeliver between frame plaintext clock hsealed hopen hclock
    refine ⟨?_, fun received hok => ((houtcome.accepted_iff received).mp hok).2.1, ?_,
      fun hended => ⟨houtcome.ended hended, ?_⟩⟩
    · constructor
      · rintro ⟨received, hok⟩
        obtain ⟨hlasts, -, hpasses⟩ := (houtcome.accepted_iff received).mp hok
        obtain ⟨hall, hspent, hpositive, hbefore⟩ := not_graceEnded_iff.mp hlasts
        exact ⟨hall, hspent, hpositive, hbefore, hpasses⟩
      · rintro ⟨hall, hspent, hpositive, hbefore, hpasses⟩
        have hlasts := not_graceEnded_iff.mpr ⟨hall, hspent, hpositive, hbefore⟩
        exact ⟨plaintext, (houtcome.accepted_iff plaintext).mpr ⟨hlasts, rfl, hpasses⟩⟩
    · obtain ⟨_, hrefines⟩ := hrecords.refines hseen
      obtain ⟨seen', hsubset, hwindow⟩ := hrefines.foldl_record
        (events.filterMap (Event.previousSequence P))
      exact hwindow.check_of_mem (hsubset (Finset.mem_insert_self _ _))
    · intro later frame' plaintext' clock' hsealed' hopen' hclock'
      have hlater := hdeliver _ frame' plaintext' clock' hsealed' hopen' hclock'
      have hle : clock.available ≤ clock'.available :=
        hclock'.between.2 _ (by simp [SessionCall.readings])
      rw [hlater.ended]
      rw [events_append]
      exact hended.mono hle _
  · intro t call hrekey hordinary
    have hcase := step_graceCase P t call
    cases hcase with
    | idle _ _ _ hside hbudget => exact ⟨hbudget, congrArg ReceiveSide.previousReceive hside⟩
    | rekey _ _ _ _ _ _ _ h =>
        rw [hrekey] at h
        cases h
    | ordinary _ _ _ _ _ h =>
        rw [hordinary] at h
        cases h
    | previous _ _ _ _ _ _ _ _ _ _ hafter =>
        rw [hafter]
        exact ⟨rfl, rfl⟩

/-- The session of the sample run, with one frame and ten units of grace. -/
def graceStart : Session :=
  (initialSession cipherChaCha20Poly1305 sampleSecrets ⟨sampleSecrets.sendKey⟩
    ⟨sampleSecrets.receiveKey⟩ 0).withLimits ⟨0, 0, 1, 10⟩

/-- The peer's announcement of the second epoch. -/
def graceRekey : Frame :=
  Packet.frame transparent ⟨MessageType.rekeyInit, sampleSecrets.sessionID, 1,
    putUint32 2 ++ (confirmation transparent sampleSecrets.receiveKey.val 2).val, []⟩
    sampleSecrets.receiveKey

/-- A frame of the first epoch that was overtaken by the announcement. -/
def gracePacket : Packet := ⟨MessageType.pingPong, sampleSecrets.sessionID, 2, [1], []⟩

/-- The announcement was accepted at time zero: the overtaken frame is accepted before the
period is over, and fails its authentication at the end of the period. -/
theorem previous_epoch_grace_overtaken :
    let s' := (graceStart.step transparent (.receivePayload graceRekey ⟨0, 0, 0⟩)).after
    let frame := gracePacket.frame transparent sampleSecrets.receiveKey
    (∃ received, (s'.receivePayload transparent ⟨9, 9, 9⟩ frame).2 = .ok received) ∧
      s'.receivePayload transparent ⟨10, 10, 10⟩ frame =
        (s', .error Sentinel.authentication.bare) := by
  intro s' frame
  have hsealed : SealedFor transparent graceStart frame [1] := by
    have hsendable : gracePacket.Sendable := ⟨rfl, by decide, by decide⟩
    exact ⟨Packet.frame_receivable hsendable, rfl, by decide, Packet.frame_payload_append_tag⟩
  obtain ⟨hgrace, -⟩ := previous_epoch_grace transparent_openInvertsSeal newSession_sample
    (chainFresh_counterKey (n := 2 ^ 32) (by decide))
    (chainSeparated_counterKey (n := 2 ^ 32) (by decide)) ⟨0, 0, 1, 10⟩ [] graceRekey ⟨0, 0, 0⟩
    (by decide +kernel)
  constructor
  · obtain ⟨haccepted, -⟩ := hgrace [] frame [1] ⟨9, 9, 9⟩ hsealed rfl (by decide)
    exact haccepted.mpr ⟨by simp [events], by decide, by decide, by decide, _, rfl⟩
  · obtain ⟨-, -, -, hended⟩ := hgrace [] frame [1] ⟨10, 10, 10⟩ hsealed rfl (by decide)
    exact (hended (.inr (.inr (.inr (by decide))))).1

end DgProto
