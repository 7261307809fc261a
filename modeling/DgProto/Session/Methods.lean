import DgProto.Library.TwoPhase
import DgProto.Session.Run

/-!
# The methods of a session, access by access

`sendMu` guards the send fields and `receiveMu` the receive fields; `closed` is written with both
and read with either.  The methods are written here as they access the fields, one field at a time
and in the order of the source, with the locks that they take.  What they read from outside, the
clock and the random source, is part of the call, as everywhere.

* `sendPayload_alone`, `markRekeySent_alone`, `receivePayload_alone`: a method that is left alone
  does what the function of the same name says.
* `sessionObject`: no method touches a field without its mutex.
-/

namespace DgProto

open Library Wire Crypto Replay

/-! ## Fields -/

/-- The mutexes of a session. -/
inductive Mutex where
  | sendMu
  | receiveMu
  deriving DecidableEq

/-- The fields that methods write.  The others are set by `NewSession` alone. -/
inductive Field where
  | send
  | sendKey
  | sendEpoch
  | nextSequence
  | sentInEpoch
  | epochStarted
  | pendingRekey
  | closed
  | receive
  | receiveKey
  | receiveEpoch
  | replay
  | previousReceive
  | previousReplay
  | graceRemaining
  | graceUntil
  deriving DecidableEq

namespace Field

/-- The type of a field. -/
abbrev Value : Field → Type
  | send => Codec
  | sendKey => Key
  | sendEpoch => UInt32
  | nextSequence => UInt64
  | sentInEpoch => UInt64
  | epochStarted => Time
  | pendingRekey => Option PendingSendRekey
  | closed => Bool
  | receive => Codec
  | receiveKey => Key
  | receiveEpoch => UInt32
  | replay => ReplayWindow
  | previousReceive => Option Codec
  | previousReplay => ReplayWindow
  | graceRemaining => UInt64
  | graceUntil => Time

/-- The mutexes of a field. -/
def mutexes : Field → List Mutex
  | send | sendKey | sendEpoch | nextSequence | sentInEpoch | epochStarted | pendingRekey =>
      [.sendMu]
  | closed => [.sendMu, .receiveMu]
  | receive | receiveKey | receiveEpoch | replay | previousReceive | previousReplay
  | graceRemaining | graceUntil => [.receiveMu]

end Field

namespace Session

/-- The written fields of a session. -/
abbrev fields (s : Session) : ∀ f : Field, f.Value
  | .send => s.send
  | .sendKey => s.sendKey
  | .sendEpoch => s.sendEpoch
  | .nextSequence => s.nextSequence
  | .sentInEpoch => s.sentInEpoch
  | .epochStarted => s.epochStarted
  | .pendingRekey => s.pendingRekey
  | .closed => s.closed
  | .receive => s.receive
  | .receiveKey => s.receiveKey
  | .receiveEpoch => s.receiveEpoch
  | .replay => s.replay
  | .previousReceive => s.previousReceive
  | .previousReplay => s.previousReplay
  | .graceRemaining => s.graceRemaining
  | .graceUntil => s.graceUntil

/-- The session with another value in one field. -/
def setField (s : Session) : ∀ f : Field, f.Value → Session
  | .send, value => { s with send := value }
  | .sendKey, value => { s with sendKey := value }
  | .sendEpoch, value => { s with sendEpoch := value }
  | .nextSequence, value => { s with nextSequence := value }
  | .sentInEpoch, value => { s with sentInEpoch := value }
  | .epochStarted, value => { s with epochStarted := value }
  | .pendingRekey, value => { s with pendingRekey := value }
  | .closed, value => { s with closed := value }
  | .receive, value => { s with receive := value }
  | .receiveKey, value => { s with receiveKey := value }
  | .receiveEpoch, value => { s with receiveEpoch := value }
  | .replay, value => { s with replay := value }
  | .previousReceive, value => { s with previousReceive := value }
  | .previousReplay, value => { s with previousReplay := value }
  | .graceRemaining, value => { s with graceRemaining := value }
  | .graceUntil, value => { s with graceUntil := value }

theorem update_fields (s : Session) (f : Field) (value : f.Value) :
    Function.update s.fields f value = (s.setField f value).fields := by
  funext g
  by_cases hg : g = f
  · subst hg
    rw [Function.update_self]
    cases g <;> rfl
  · rw [Function.update_of_ne hg]
    cases f <;> cases g <;> first | rfl | exact absurd rfl hg

/-- The constants of a session. -/
structure Constants where
  sessionID : Octets 16
  suite : CipherSuite
  rekeyFrameLimit : UInt64
  rekeyInterval : Duration
  graceFrames : UInt64
  gracePeriod : Duration

abbrev constants (s : Session) : Constants :=
  ⟨s.sessionID, s.suite, s.rekeyFrameLimit, s.rekeyInterval, s.graceFrames, s.gracePeriod⟩

end Session

/-! ## Bodies

A field that is read several times in a row is read once. -/

/-- A computation over the fields of a session. -/
abbrev Access := Body Field.Value

namespace Access

open Body

/-- Read a field. -/
abbrev get (f : Field) : Access f.Value := load f

/-- Write a field. -/
abbrev set (f : Field) (value : f.Value) : Access Unit := store f value

variable (P : Primitives) (k : Session.Constants)

/-- `encryptLocked`. -/
def encryptLocked (env : SendEnv) (messageType : MessageType) (plaintext : List UInt8)
    (padLength : UInt8) : Access (List SealCall × Except Error Frame) := do
  let sequence : UInt64 ← get .nextSequence
  if sequence = 0 then
    return ([], .error Sentinel.sequenceExhausted.bare)
  else
    let send : Codec ← get .send
    let (calls, result) := send.encrypt P env.random messageType k.sessionID sequence plaintext
      padLength
    match result with
    | .error err => return (calls, .error err)
    | .ok frame =>
        set .nextSequence (succSequence sequence)
        let sentInEpoch : UInt64 ← get .sentInEpoch
        set .sentInEpoch (sentInEpoch + 1)
        return (calls, .ok frame)

/-- `rekeyDueLocked`, which stops at the first reason. -/
def rekeyDueLocked (now : Time) : Access Bool := do
  if k.rekeyFrameLimit ≠ 0 then
    let sentInEpoch : UInt64 ← get .sentInEpoch
    if k.rekeyFrameLimit ≤ sentInEpoch then
      return true
    else
      overdue
  else
    overdue
where
  /-- The interval has passed. -/
  overdue : Access Bool := do
    if 0 < k.rekeyInterval then
      let epochStarted : Time ← get .epochStarted
      return ¬ now < epochStarted + k.rekeyInterval
    else
      return false

/-- `startRekeyLocked`. -/
def startRekeyLocked (env : SendEnv) (padLength : UInt8) :
    Access (List SealCall × Except Error Frame) := do
  let sendEpoch : UInt32 ← get .sendEpoch
  if sendEpoch = 0xFFFFFFFF then
    return ([], .error Sentinel.epochExhausted.bare)
  else
    let nextEpoch := sendEpoch + 1
    let sendKey : Key ← get .sendKey
    match RekeyState.computeKeyConfirm P ⟨sendEpoch⟩ sendKey.val nextEpoch with
    | .error err => return ([], .error err)
    | .ok confirm =>
        match RekeyInit.marshalBinary ⟨nextEpoch, confirm⟩ with
        | .error err => return ([], .error err)
        | .ok payload =>
            let sent ← encryptLocked P k env MessageType.rekeyInit payload padLength
            match sent.2 with
            | .error err => return (sent.1, .error err)
            | .ok frame =>
                let sendKey : Key ← get .sendKey
                let nextKey := deriveNextTrafficKey P sendKey
                match newCodec P k.suite nextKey.val with
                | .error err => return (sent.1, .error err)
                | .ok nextCodec =>
                    set .pendingRekey (some ⟨frame, nextKey, nextCodec, nextEpoch⟩)
                    return (sent.1, .ok frame)

/-- `sendPayload` with its mutex. -/
def sendPayload (env : SendEnv) (messageType : MessageType) (plaintext : List UInt8)
    (padLength : UInt8) : Access (List SealCall × Except Error Frame) := do
  let closed : Bool ← get .closed
  if closed then
    return ([], .error Sentinel.sessionClosed.bare)
  else
    let pendingRekey : Option PendingSendRekey ← get .pendingRekey
    if pendingRekey.isSome then
      return ([], .error Sentinel.rekeyPending.bare)
    else
      let due ← rekeyDueLocked k env.now
      if due then
        startRekeyLocked P k env padLength
      else
        encryptLocked P k env messageType plaintext padLength

/-- `MarkRekeySent` with its mutex. -/
def markRekeySent (now : Time) (frame : Frame) : Access (Except Error Unit) := do
  let closed : Bool ← get .closed
  if closed then
    return .error Sentinel.sessionClosed.bare
  else
    let pendingRekey : Option PendingSendRekey ← get .pendingRekey
    match pendingRekey with
    | none => return .error Sentinel.rekeyPending.bare
    | some pending =>
        if pending.frame ≠ frame then
          return .error Sentinel.rekeyPending.bare
        else
          set .sendKey pending.key
          set .send pending.codec
          set .sendEpoch pending.epoch
          set .nextSequence 1
          set .sentInEpoch 0
          set .epochStarted now
          set .pendingRekey none
          return .ok ()

/-- `decryptEpochLocked`. -/
def decryptEpochLocked (clock : ReceiveClock) (frame : Frame) :
    Access (Except Error ReceiveCandidate) := do
  if frame.header.sequence = 0 then
    return .error Sentinel.replayZero.bare
  else
    let receive : Codec ← get .receive
    match receive.decrypt P frame with
    | .ok plaintext =>
        let replay : ReplayWindow ← get .replay
        match replay.check frame.header.sequence with
        | .error err => return .error err
        | .ok token => return .ok ⟨plaintext, true, token⟩
    | .error err =>
        if ¬ err.is .authentication then
          return .error err
        else
          let previousReceive : Option Codec ← get .previousReceive
          match previousReceive with
          | none => return .error Sentinel.authentication.bare
          | some previous =>
              let graceRemaining : UInt64 ← get .graceRemaining
              let graceUntil : Time ← get .graceUntil
              if 0 < graceRemaining ∧ 0 < k.gracePeriod ∧ clock.available < graceUntil then
                match previous.decrypt P frame with
                | .ok plaintext =>
                    if frame.header.messageType = MessageType.rekeyInit then
                      return .ok ⟨plaintext, false, ReplayToken.zero⟩
                    else
                      let previousReplay : ReplayWindow ← get .previousReplay
                      match previousReplay.check frame.header.sequence with
                      | .error err => return .error err
                      | .ok token => return .ok ⟨plaintext, false, token⟩
                | .error err =>
                    if ¬ err.is .authentication then return .error err
                    else return .error Sentinel.authentication.bare
              else
                return .error Sentinel.authentication.bare

/-- `prepareRekeyLocked`. -/
def prepareRekeyLocked (init : RekeyInit) : Access (Except Error (Key × Codec)) := do
  let receiveEpoch : UInt32 ← get .receiveEpoch
  if receiveEpoch = 0xFFFFFFFF then
    return .error Sentinel.epochExhausted.bare
  else if init.epoch ≠ receiveEpoch + 1 then
    return .error (Sentinel.invalidEpoch.wrap s!"got {init.epoch}, want {receiveEpoch + 1}")
  else
    let receiveKey : Key ← get .receiveKey
    match RekeyState.computeKeyConfirm P ⟨receiveEpoch⟩ receiveKey.val init.epoch with
    | .error err => return .error err
    | .ok expected =>
        if expected ≠ init.keyConfirm then
          return .error Sentinel.keyConfirmFailed.bare
        else
          let nextKey := deriveNextTrafficKey P receiveKey
          match newCodec P k.suite nextKey.val with
          | .error err => return .error err
          | .ok nextCodec => return .ok (nextKey, nextCodec)

/-- `expireGraceLocked`. -/
def expireGraceLocked (now : Time) : Access Unit := do
  let previousReceive : Option Codec ← get .previousReceive
  if previousReceive = none then
    return ()
  else
    let graceRemaining : UInt64 ← get .graceRemaining
    let graceUntil : Time ← get .graceUntil
    if graceRemaining = 0 ∨ k.gracePeriod ≤ 0 ∨ ¬ now < graceUntil then
      set .previousReceive none
      set .previousReplay ReplayWindow.zero
      set .graceRemaining 0
      set .graceUntil zeroTime
    else
      return ()

/-- The commit of a `RekeyInit`. -/
def commitRekey (clock : ReceiveClock) (committedReplay : ReplayWindow) (nextKey : Key)
    (nextCodec : Codec) (epoch : UInt32) : Access Unit := do
  let receive : Codec ← get .receive
  set .previousReceive (some receive)
  set .previousReplay committedReplay
  set .receive nextCodec
  set .receiveKey nextKey
  set .receiveEpoch epoch
  set .replay ReplayWindow.zero
  set .graceRemaining k.graceFrames
  set .graceUntil (clock.graceStart + k.gracePeriod)
  expireGraceLocked k clock.expire

/-- The commit of another frame of the current epoch. -/
def commitCurrent (clock : ReceiveClock) (committedReplay : ReplayWindow) : Access Unit := do
  set .replay committedReplay
  let previousReceive : Option Codec ← get .previousReceive
  if previousReceive = none then
    return ()
  else
    let graceRemaining : UInt64 ← get .graceRemaining
    if 0 < graceRemaining then
      set .graceRemaining (graceRemaining - 1)
      expireGraceLocked k clock.expire
    else
      expireGraceLocked k clock.expire

/-- `ReceivePayload` with an authenticated candidate. -/
def settle (clock : ReceiveClock) (frame : Frame) (candidate : ReceiveCandidate) :
    Access (Except Error (List UInt8)) := do
  if ¬ candidate.current ∧ frame.header.messageType = MessageType.rekeyInit then
    return .error (Sentinel.invalidEpoch.wrap "rekey from previous epoch")
  else if candidate.current ∧ frame.header.messageType = MessageType.rekeyInit then
    match RekeyInit.unmarshalBinary candidate.plaintext with
    | .error err => return .error err
    | .ok init =>
        let prepared ← prepareRekeyLocked P k init
        match prepared with
        | .error err => return .error err
        | .ok (nextKey, nextCodec) =>
            let replay : ReplayWindow ← get .replay
            match replay.commit candidate.token with
            | (_, .error err) => return .error err
            | (committedReplay, .ok ()) =>
                commitRekey k clock committedReplay nextKey nextCodec init.epoch
                return .ok candidate.plaintext
  else if candidate.current then
    let replay : ReplayWindow ← get .replay
    match replay.commit candidate.token with
    | (_, .error err) => return .error err
    | (committedReplay, .ok ()) =>
        commitCurrent k clock committedReplay
        return .ok candidate.plaintext
  else
    let previousReplay : ReplayWindow ← get .previousReplay
    match previousReplay.commit candidate.token with
    | (_, .error err) => return .error err
    | (committedReplay, .ok ()) =>
        set .previousReplay committedReplay
        return .ok candidate.plaintext

/-- `ReceivePayload` with its mutex. -/
def receivePayload (clock : ReceiveClock) (frame : Frame) :
    Access (Except Error (List UInt8)) := do
  let closed : Bool ← get .closed
  if closed then
    return .error Sentinel.sessionClosed.bare
  else
    let candidate ← decryptEpochLocked P k clock frame
    match candidate with
    | .error err => return .error err
    | .ok candidate => settle P k clock frame candidate

/-! ## Left alone -/

section Alone

variable {P} {s : Session} {α : Type}

theorem run_get_bind (f : Field) (next : f.Value → Access α) :
    (get f >>= next).run s.fields = (next (s.fields f)).run s.fields := rfl

theorem run_set_bind (f : Field) (value : f.Value) (next : Unit → Access α) :
    (set f value >>= next).run s.fields = (next ()).run (s.setField f value).fields := by
  rw [← Session.update_fields]
  rfl

theorem run_set (f : Field) (value : f.Value) :
    (set f value).run s.fields = ((s.setField f value).fields, ()) := by
  rw [← Session.update_fields]
  rfl

/-- A test of a method and of the function that it follows. -/
theorem run_ite {β : Type} {c : Prop} [Decidable c] {a b : Access α} {x y : β}
    {g : β → (∀ f : Field, f.Value) × α} (ha : c → a.run s.fields = g x)
    (hb : ¬ c → b.run s.fields = g y) :
    (if c then a else b).run s.fields = g (if c then x else y) := by
  split_ifs with h
  · exact ha h
  · exact hb h

/-- The fields and the results that a send leaves. -/
def sent (o : SendOutcome) : (∀ f : Field, f.Value) × List SealCall × Except Error Frame :=
  (o.session.fields, o.calls, o.result)

/-- The fields and the result that another method leaves. -/
def left (o : Session × α) : (∀ f : Field, f.Value) × α := (o.1.fields, o.2)

theorem encryptLocked_alone (env : SendEnv) (messageType : MessageType) (plaintext : List UInt8)
    (padLength : UInt8) :
    (encryptLocked P s.constants env messageType plaintext padLength).run s.fields =
      sent (s.encryptLocked P env messageType plaintext padLength) := by
  unfold Session.encryptLocked encryptLocked
  rw [run_get_bind]
  refine run_ite (fun _ => rfl) fun _ => ?_
  rw [run_get_bind]
  dsimp only
  cases hresult : (s.send.encrypt P env.random messageType s.sessionID s.nextSequence plaintext
    padLength).2 with
  | error err => rfl
  | ok frame =>
      dsimp only
      rw [run_set_bind, run_get_bind, run_set_bind]
      rfl

theorem rekeyDueLocked_alone (now : Time) :
    (rekeyDueLocked s.constants now).run s.fields = (s.fields, s.rekeyDueLocked now) := by
  have hoverdue : (rekeyDueLocked.overdue s.constants now).run s.fields =
      (s.fields,
        decide (0 < s.rekeyInterval) && decide (¬ now < s.epochStarted + s.rekeyInterval)) := by
    unfold rekeyDueLocked.overdue
    by_cases hinterval : 0 < s.rekeyInterval
    · rw [if_pos hinterval, run_get_bind, decide_eq_true hinterval]
      rfl
    · rw [if_neg hinterval, decide_eq_false hinterval]
      rfl
  unfold rekeyDueLocked Session.rekeyDueLocked
  by_cases hlimit : s.rekeyFrameLimit ≠ 0
  · rw [if_pos hlimit, run_get_bind]
    by_cases hfull : s.rekeyFrameLimit ≤ s.sentInEpoch
    · rw [if_pos hfull]
      simp [hlimit, hfull]
    · rw [if_neg hfull, hoverdue]
      simp [hfull]
  · rw [if_neg hlimit, hoverdue]
    simp [hlimit]

theorem encryptLocked_sendKey (env : SendEnv) (messageType : MessageType) (plaintext : List UInt8)
    (padLength : UInt8) :
    (s.encryptLocked P env messageType plaintext padLength).session.sendKey = s.sendKey := by
  unfold Session.encryptLocked
  split_ifs
  · rfl
  · dsimp only
    split
    · rfl
    · rfl

theorem startRekeyLocked_alone (env : SendEnv) (padLength : UInt8) :
    (startRekeyLocked P s.constants env padLength).run s.fields =
      sent (s.startRekeyLocked P env padLength) := by
  unfold startRekeyLocked Session.startRekeyLocked
  rw [run_get_bind]
  refine run_ite (fun _ => rfl) fun _ => ?_
  rw [run_get_bind]
  dsimp only
  cases RekeyState.computeKeyConfirm P ⟨s.sendEpoch⟩ s.sendKey.val (s.sendEpoch + 1) with
  | error err => rfl
  | ok confirm =>
  dsimp only
  cases RekeyInit.marshalBinary ⟨s.sendEpoch + 1, confirm⟩ with
  | error err => rfl
  | ok payload =>
  dsimp only
  rw [run_bind, encryptLocked_alone]
  have hkey := encryptLocked_sendKey (P := P) (s := s) env MessageType.rekeyInit payload padLength
  generalize s.encryptLocked P env MessageType.rekeyInit payload padLength = made at hkey ⊢
  obtain ⟨session, calls, result⟩ := made
  cases result with
  | error err => rfl
  | ok frame =>
  dsimp only [sent] at hkey ⊢
  rw [run_get_bind, ← hkey]
  cases newCodec P s.suite (deriveNextTrafficKey P session.sendKey).val with
  | error err => rfl
  | ok nextCodec =>
  dsimp only
  rw [run_set_bind]
  rfl

theorem sendPayload_alone (env : SendEnv) {messageType : MessageType}
    (hvalid : validSessionMessageType messageType = true) (plaintext : List UInt8)
    (padLength : UInt8) :
    (sendPayload P s.constants env messageType plaintext padLength).run s.fields =
      sent (s.sendPayload P env messageType plaintext padLength) := by
  unfold sendPayload Session.sendPayload
  rw [if_neg (not_not.mpr hvalid), run_get_bind]
  refine run_ite (fun _ => rfl) fun _ => ?_
  rw [run_get_bind]
  refine run_ite (fun _ => rfl) fun _ => ?_
  rw [run_bind, rekeyDueLocked_alone]
  exact run_ite (fun _ => startRekeyLocked_alone env padLength)
    fun _ => encryptLocked_alone env messageType plaintext padLength

theorem markRekeySent_alone (now : Time) (frame : Frame) :
    (markRekeySent now frame).run s.fields = left (s.markRekeySent now frame) := by
  unfold markRekeySent Session.markRekeySent
  rw [run_get_bind]
  refine run_ite (fun _ => rfl) fun _ => ?_
  rw [run_get_bind]
  dsimp only [Session.fields]
  cases hpending : s.pendingRekey with
  | none => rfl
  | some pending =>
      refine run_ite (fun _ => rfl) fun _ => ?_
      simp only [run_set_bind]
      rfl

theorem decryptEpochLocked_alone (clock : ReceiveClock) (frame : Frame) :
    (decryptEpochLocked P s.constants clock frame).run s.fields =
      (s.fields, s.decryptEpochLocked P clock frame) := by
  unfold decryptEpochLocked Session.decryptEpochLocked
  refine run_ite (g := Prod.mk s.fields) (fun _ => rfl) fun _ => ?_
  rw [run_get_bind]
  dsimp only
  cases s.receive.decrypt P frame with
  | ok plaintext =>
      dsimp only
      rw [run_get_bind]
      cases s.replay.check frame.header.sequence with
      | error err | ok token => rfl
  | error err =>
  refine run_ite (g := Prod.mk s.fields) (fun _ => rfl) fun _ => ?_
  rw [run_get_bind]
  unfold Session.previousAvailable
  dsimp only [Session.fields]
  cases hprevious : s.previousReceive with
  | none =>
      rw [ite_self]
      rfl
  | some previous =>
  dsimp only
  rw [run_get_bind, run_get_bind]
  by_cases havailable : 0 < s.graceRemaining ∧ 0 < s.gracePeriod ∧ clock.available < s.graceUntil
  · rw [if_pos havailable, if_pos havailable]
    dsimp only
    cases previous.decrypt P frame with
    | error err' => exact run_ite (g := Prod.mk s.fields) (fun _ => rfl) fun _ => rfl
    | ok plaintext =>
        refine run_ite (g := Prod.mk s.fields) (fun _ => rfl) fun _ => ?_
        rw [run_get_bind]
        cases s.previousReplay.check frame.header.sequence with
        | error err | ok token => rfl
  · rw [if_neg havailable, if_neg havailable]
    rfl

theorem prepareRekeyLocked_alone (init : RekeyInit) :
    (prepareRekeyLocked P s.constants init).run s.fields =
      (s.fields, s.prepareRekeyLocked P init) := by
  unfold prepareRekeyLocked Session.prepareRekeyLocked
  rw [run_get_bind]
  refine run_ite (g := Prod.mk s.fields) (fun _ => rfl) fun _ => ?_
  refine run_ite (g := Prod.mk s.fields) (fun _ => rfl) fun _ => ?_
  rw [run_get_bind]
  dsimp only
  cases RekeyState.computeKeyConfirm P ⟨s.receiveEpoch⟩ s.receiveKey.val init.epoch with
  | error err => rfl
  | ok expected =>
  refine run_ite (g := Prod.mk s.fields) (fun _ => rfl) fun _ => ?_
  cases newCodec P s.suite (deriveNextTrafficKey P s.receiveKey).val with
  | error err | ok nextCodec => rfl

theorem expireGraceLocked_alone (now : Time) :
    (expireGraceLocked s.constants now).run s.fields = left (s.expireGraceLocked now, ()) := by
  unfold expireGraceLocked Session.expireGraceLocked
  rw [run_get_bind]
  refine run_ite (g := fun s => left (s, ())) (fun _ => rfl) fun _ => ?_
  rw [run_get_bind, run_get_bind]
  refine run_ite (g := fun s => left (s, ())) (fun _ => ?_) fun _ => rfl
  rw [run_set_bind, run_set_bind, run_set_bind, run_set]
  rfl

theorem commitRekey_alone (clock : ReceiveClock) (committedReplay : ReplayWindow) (nextKey : Key)
    (nextCodec : Codec) (epoch : UInt32) :
    (commitRekey s.constants clock committedReplay nextKey nextCodec epoch).run s.fields =
      left (s.commitRekey clock committedReplay nextKey nextCodec epoch, ()) := by
  unfold commitRekey Session.commitRekey
  rw [run_get_bind]
  simp only [run_set_bind, Session.setField]
  exact expireGraceLocked_alone clock.expire

theorem commitCurrent_alone (clock : ReceiveClock) (committedReplay : ReplayWindow) :
    (commitCurrent s.constants clock committedReplay).run s.fields =
      left (s.commitCurrent clock committedReplay, ()) := by
  unfold commitCurrent Session.commitCurrent
  rw [run_set_bind, run_get_bind]
  refine run_ite (g := fun s => left (s, ())) (fun _ => rfl) fun _ => ?_
  rw [run_get_bind, ← expireGraceLocked_alone]
  by_cases hgrace : 0 < s.graceRemaining
  · rw [if_pos hgrace, if_pos (show 0 < (s.setField .replay committedReplay).graceRemaining
      from hgrace), run_set_bind]
    rfl
  · rw [if_neg hgrace, if_neg (show ¬ 0 < (s.setField .replay committedReplay).graceRemaining
      from hgrace)]
    rfl

theorem settle_alone (clock : ReceiveClock) (frame : Frame) (candidate : ReceiveCandidate) :
    (settle P s.constants clock frame candidate).run s.fields =
      left (s.settle P clock frame candidate) := by
  unfold settle Session.settle
  refine run_ite (fun _ => rfl) fun _ => run_ite (fun _ => ?_) fun _ => ?_
  · cases RekeyInit.unmarshalBinary candidate.plaintext with
    | error err => rfl
    | ok init =>
    dsimp only
    rw [run_bind, prepareRekeyLocked_alone]
    dsimp only
    cases s.prepareRekeyLocked P init with
    | error err => rfl
    | ok prepared =>
    dsimp only
    rw [run_get_bind]
    cases s.replay.commit candidate.token with
    | mk committedReplay result =>
    cases result with
    | error err => rfl
    | ok =>
    dsimp only
    rw [run_bind, commitRekey_alone]
    rfl
  refine run_ite (fun _ => ?_) fun _ => ?_
  · rw [run_get_bind]
    cases s.replay.commit candidate.token with
    | mk committedReplay result =>
    cases result with
    | error err => rfl
    | ok =>
    dsimp only
    rw [run_bind, commitCurrent_alone]
    rfl
  · rw [run_get_bind]
    cases s.previousReplay.commit candidate.token with
    | mk committedReplay result =>
    cases result with
    | error err => rfl
    | ok =>
    dsimp only
    rw [run_set_bind]
    rfl

/-- The hypotheses are the checks that `ReceivePayload` makes before it takes its mutex. -/
theorem receivePayload_alone (clock : ReceiveClock) {frame : Frame}
    (hticket : frame.header.messageType ≠ MessageType.resumptionTicket)
    (hsession : frame.header.sessionID = s.sessionID)
    (hvalid : validSessionMessageType frame.header.messageType = true) :
    (receivePayload P s.constants clock frame).run s.fields =
      left (s.receivePayload P clock frame) := by
  unfold receivePayload Session.receivePayload
  rw [if_neg hticket, if_neg (not_not.mpr hsession), if_neg (not_not.mpr hvalid), run_get_bind]
  refine run_ite (fun _ => rfl) fun _ => ?_
  rw [run_bind, decryptEpochLocked_alone]
  dsimp only
  cases s.decryptEpochLocked P clock frame with
  | error err => rfl
  | ok candidate => exact settle_alone clock frame candidate

end Alone

/-! ## Mutexes -/

section Mutexes

/-- The body touches no field without its mutex. -/
abbrev Safe {α : Type} (held : List Mutex) (body : Access α) : Prop :=
  body.Obeys Field.mutexes held

variable {P k} {α : Type} {held : List Mutex}

theorem safe_get {f : Field} {next : f.Value → Access α} (hf : MayRead Field.mutexes held f)
    (hnext : ∀ value, Safe held (next value)) : Safe held (get f >>= next) :=
  (obeys_load hf).bind hnext

theorem safe_set {f : Field} {value : f.Value} {next : Unit → Access α}
    (hf : MayWrite Field.mutexes held f) (hnext : Safe held (next ())) :
    Safe held (set f value >>= next) :=
  (obeys_store hf).bind fun _ => hnext

theorem safe_ite {c : Prop} [Decidable c] {a b : Access α} (ha : Safe held a) (hb : Safe held b) :
    Safe held (if c then a else b) := by
  split_ifs
  · exact ha
  · exact hb

theorem encryptLocked_safe (env : SendEnv) (messageType : MessageType) (plaintext : List UInt8)
    (padLength : UInt8) :
    Safe [.sendMu] (encryptLocked P k env messageType plaintext padLength) := by
  refine safe_get (by decide) fun sequence => safe_ite trivial ?_
  refine safe_get (by decide) fun send => ?_
  dsimp only
  split
  · exact trivial
  · refine safe_set (by decide) (safe_get (by decide) fun sentInEpoch => ?_)
    exact safe_set (by decide) trivial

theorem rekeyDueLocked_safe (now : Time) : Safe [.sendMu] (rekeyDueLocked k now) := by
  have hoverdue : Safe [.sendMu] (rekeyDueLocked.overdue k now) :=
    safe_ite (safe_get (by decide) fun _ => trivial) trivial
  refine safe_ite ?_ hoverdue
  exact safe_get (by decide) fun sentInEpoch => safe_ite trivial hoverdue

theorem startRekeyLocked_safe (env : SendEnv) (padLength : UInt8) :
    Safe [.sendMu] (startRekeyLocked P k env padLength) := by
  refine safe_get (by decide) fun sendEpoch => safe_ite trivial ?_
  refine safe_get (by decide) fun sendKey => ?_
  dsimp only
  split
  · exact trivial
  split
  · exact trivial
  refine (encryptLocked_safe env MessageType.rekeyInit _ padLength).bind fun sent => ?_
  split
  · exact trivial
  refine safe_get (by decide) fun sendKey => ?_
  split
  · exact trivial
  · exact safe_set (by decide) trivial

theorem sendPayload_safe (env : SendEnv) (messageType : MessageType) (plaintext : List UInt8)
    (padLength : UInt8) :
    Safe [.sendMu] (sendPayload P k env messageType plaintext padLength) := by
  refine safe_get (by decide) fun closed => safe_ite trivial ?_
  refine safe_get (by decide) fun pendingRekey => safe_ite trivial ?_
  refine (rekeyDueLocked_safe env.now).bind fun due => ?_
  exact safe_ite (startRekeyLocked_safe env padLength)
    (encryptLocked_safe env messageType plaintext padLength)

theorem markRekeySent_safe (now : Time) (frame : Frame) :
    Safe [.sendMu] (markRekeySent now frame) := by
  refine safe_get (by decide) fun closed => safe_ite trivial ?_
  refine safe_get (by decide) fun pendingRekey => ?_
  split
  · exact trivial
  refine safe_ite trivial ?_
  refine safe_set (by decide) (safe_set (by decide) (safe_set (by decide) ?_))
  refine safe_set (by decide) (safe_set (by decide) (safe_set (by decide) ?_))
  exact safe_set (by decide) trivial

theorem decryptEpochLocked_safe (clock : ReceiveClock) (frame : Frame) :
    Safe [.receiveMu] (decryptEpochLocked P k clock frame) := by
  refine safe_ite trivial (safe_get (by decide) fun receive => ?_)
  split
  · refine safe_get (by decide) fun replay => ?_
    split
    · exact trivial
    · exact trivial
  refine safe_ite trivial (safe_get (by decide) fun previousReceive => ?_)
  split
  · exact trivial
  refine safe_get (by decide) fun graceRemaining => safe_get (by decide) fun graceUntil => ?_
  refine safe_ite ?_ trivial
  split
  · refine safe_ite trivial (safe_get (by decide) fun previousReplay => ?_)
    split
    · exact trivial
    · exact trivial
  · exact safe_ite trivial trivial

theorem prepareRekeyLocked_safe (init : RekeyInit) :
    Safe [.receiveMu] (prepareRekeyLocked P k init) := by
  refine safe_get (by decide) fun receiveEpoch => safe_ite trivial (safe_ite trivial ?_)
  refine safe_get (by decide) fun receiveKey => ?_
  dsimp only
  split
  · exact trivial
  refine safe_ite trivial ?_
  split
  · exact trivial
  · exact trivial

theorem expireGraceLocked_safe (now : Time) : Safe [.receiveMu] (expireGraceLocked k now) := by
  refine safe_get (by decide) fun previousReceive => safe_ite trivial ?_
  refine safe_get (by decide) fun graceRemaining => safe_get (by decide) fun graceUntil => ?_
  refine safe_ite ?_ trivial
  refine safe_set (by decide) (safe_set (by decide) (safe_set (by decide) ?_))
  exact obeys_store (by decide)

theorem settle_safe (clock : ReceiveClock) (frame : Frame) (candidate : ReceiveCandidate) :
    Safe [.receiveMu] (settle P k clock frame candidate) := by
  have hrekey : ∀ window nextKey nextCodec epoch,
      Safe [.receiveMu] (commitRekey k clock window nextKey nextCodec epoch) := by
    intro window nextKey nextCodec epoch
    refine safe_get (by decide) fun receive => ?_
    refine safe_set (by decide) (safe_set (by decide) (safe_set (by decide) ?_))
    refine safe_set (by decide) (safe_set (by decide) (safe_set (by decide) ?_))
    exact safe_set (by decide) (safe_set (by decide) (expireGraceLocked_safe clock.expire))
  have hcurrent : ∀ window, Safe [.receiveMu] (commitCurrent k clock window) := by
    intro window
    refine safe_set (by decide) (safe_get (by decide) fun previousReceive => safe_ite trivial ?_)
    refine safe_get (by decide) fun graceRemaining => ?_
    exact safe_ite (safe_set (by decide) (expireGraceLocked_safe clock.expire))
      (expireGraceLocked_safe clock.expire)
  refine safe_ite trivial (safe_ite ?_ (safe_ite ?_ ?_))
  · split
    · exact trivial
    refine (prepareRekeyLocked_safe _).bind fun prepared => ?_
    split
    · exact trivial
    refine safe_get (by decide) fun replay => ?_
    split
    · exact trivial
    · exact (hrekey _ _ _ _).bind fun _ => trivial
  · refine safe_get (by decide) fun replay => ?_
    split
    · exact trivial
    · exact (hcurrent _).bind fun _ => trivial
  · refine safe_get (by decide) fun previousReplay => ?_
    split
    · exact trivial
    · exact safe_set (by decide) trivial

theorem receivePayload_safe (clock : ReceiveClock) (frame : Frame) :
    Safe [.receiveMu] (receivePayload P k clock frame) := by
  refine safe_get (by decide) fun closed => safe_ite trivial ?_
  refine (decryptEpochLocked_safe clock frame).bind fun candidate => ?_
  split
  · exact trivial
  · exact settle_safe clock frame _

end Mutexes

end Access

/-! ## The table of methods -/

/-- A call of an exported method. -/
inductive SessionMethod where
  | call (call : SessionCall)
  | receive (frame : Frame) (clock : ReceiveClock)
  | closed

/-- What a method returns, with the calls of `Seal` it made. -/
inductive Answer where
  | reply (calls : List SealCall) (result : Except Error Reply)
  | message (result : Except Error Message)
  | closed (value : Bool)

/-- A method: the mutexes that it takes, in this order, and what it does with them. -/
structure Method where
  locks : List Mutex
  body : Access Answer

/-- A call that returns before it takes a mutex. -/
def Method.early (answer : Answer) : Method := ⟨[], pure answer⟩

/-- `Receive` decodes what `ReceivePayload` returned, without a mutex. -/
def decodeReceived (frame : Frame) : Except Error (List UInt8) → Except Error Message
  | .error err => .error err
  | .ok plaintext =>
      match newInboundMessage frame.header.messageType with
      | .error err => .error err
      | .ok kind => kind.unmarshalBinary plaintext

namespace Session.Constants

variable (P : Primitives) (k : Session.Constants)

/-- The unexported `sendPayload`. -/
def sendPayload (env : SendEnv) (messageType : MessageType) (plaintext : List UInt8)
    (padLength : UInt8) : Method :=
  if ¬ validSessionMessageType messageType then
    .early (.reply [] (.error (Sentinel.messageType.wrap ("0x" ++ hex02 messageType.toNat))))
  else
    ⟨[.sendMu], do
      let sent ← Access.sendPayload P k env messageType plaintext padLength
      return .reply sent.1 (sent.2.map .frame)⟩

/-- `ReceivePayload`, with what is then made of its result. -/
def receivePayload (clock : ReceiveClock) (frame : Frame)
    (answer : Except Error (List UInt8) → Answer) : Method :=
  if frame.header.messageType = MessageType.resumptionTicket then
    .early (answer (.error (Sentinel.messageType.wrap
      ("0x" ++ hex02 frame.header.messageType.toNat ++ " is post-MVP"))))
  else if frame.header.sessionID ≠ k.sessionID then
    .early (answer (.error Sentinel.wrongSession.bare))
  else if ¬ validSessionMessageType frame.header.messageType then
    .early (answer (.error (Sentinel.messageType.wrap
      ("0x" ++ hex02 frame.header.messageType.toNat))))
  else
    ⟨[.receiveMu], do
      let result ← Access.receivePayload P k clock frame
      return answer result⟩

/-- The exported methods. -/
def method : SessionMethod → Method
  | .call (.send message padLength env) =>
      match outboundMessage message with
      | .error err => .early (.reply [] (.error err))
      | .ok (messageType, marshaler) =>
          match marshaler.marshalBinary with
          | .error err => .early (.reply [] (.error err))
          | .ok plaintext => k.sendPayload P env messageType plaintext padLength
  | .call (.sendPayload messageType plaintext padLength env) =>
      if messageType = MessageType.resumptionTicket then
        .early (.reply [] (.error (Sentinel.messageType.wrap
          ("0x" ++ hex02 messageType.toNat ++ " is post-MVP"))))
      else if messageType = MessageType.rekeyInit then
        .early (.reply [] (.error (Sentinel.messageType.wrap
          ("0x" ++ hex02 messageType.toNat ++ " is generated by the session"))))
      else
        k.sendPayload P env messageType plaintext padLength
  | .call (.markRekeySent frame now) =>
      ⟨[.sendMu], do
        let result ← Access.markRekeySent now frame
        return .reply [] (result.map fun _ => .done)⟩
  | .call (.receivePayload frame clock) =>
      k.receivePayload P clock frame fun result => .reply [] (result.map .payload)
  | .call .close =>
      ⟨[.sendMu, .receiveMu], do
        Access.set .closed true
        return .reply [] (.ok .done)⟩
  | .receive frame clock =>
      k.receivePayload P clock frame fun result => .message (decodeReceived frame result)
  | .closed =>
      ⟨[.sendMu], do
        let closed ← Access.get .closed
        return .closed closed⟩

variable {P k}

/-! ### What the table keeps to -/

/-- The mutexes are taken along one order, and no field is touched without its own. -/
structure Method.Sound (m : Method) : Prop where
  locks : m.locks = [] ∨ m.locks = [.sendMu] ∨ m.locks = [.receiveMu] ∨
    m.locks = [.sendMu, .receiveMu]
  body : Access.Safe m.locks m.body

theorem sound_early (answer : Answer) : Method.Sound (.early answer) := ⟨.inl rfl, trivial⟩

theorem sound_sendPayload (env : SendEnv) (messageType : MessageType) (plaintext : List UInt8)
    (padLength : UInt8) : Method.Sound (k.sendPayload P env messageType plaintext padLength) := by
  unfold sendPayload
  by_cases hvalid : validSessionMessageType messageType = true
  · rw [if_neg (not_not.mpr hvalid)]
    refine ⟨.inr (.inl rfl), ?_⟩
    exact (Access.sendPayload_safe env messageType plaintext padLength).bind fun _ => trivial
  · rw [if_pos hvalid]
    exact sound_early _

theorem sound_receivePayload (clock : ReceiveClock) (frame : Frame)
    (answer : Except Error (List UInt8) → Answer) :
    Method.Sound (k.receivePayload P clock frame answer) := by
  unfold receivePayload
  by_cases hticket : frame.header.messageType = MessageType.resumptionTicket
  · rw [if_pos hticket]
    exact sound_early _
  by_cases hsession : frame.header.sessionID ≠ k.sessionID
  · rw [if_neg hticket, if_pos hsession]
    exact sound_early _
  by_cases hvalid : ¬ validSessionMessageType frame.header.messageType
  · rw [if_neg hticket, if_neg hsession, if_pos hvalid]
    exact sound_early _
  · rw [if_neg hticket, if_neg hsession, if_neg hvalid]
    refine ⟨.inr (.inr (.inl rfl)), ?_⟩
    exact (Access.receivePayload_safe clock frame).bind fun _ => trivial

theorem sound_method (m : SessionMethod) : Method.Sound (k.method P m) := by
  cases m with
  | receive frame clock => exact sound_receivePayload clock frame _
  | closed =>
      have hread : Body.MayRead Field.mutexes [.sendMu] .closed := by decide
      exact ⟨.inr (.inl rfl), Access.safe_get hread fun _ => trivial⟩
  | call c =>
  cases c with
  | send message padLength env =>
      dsimp only [method]
      split
      · exact sound_early _
      split
      · exact sound_early _
      · exact sound_sendPayload env _ _ padLength
  | sendPayload messageType plaintext padLength env =>
      dsimp only [method]
      split_ifs
      · exact sound_early _
      · exact sound_early _
      · exact sound_sendPayload env messageType plaintext padLength
  | markRekeySent frame now =>
      exact ⟨.inr (.inl rfl), (Access.markRekeySent_safe now frame).bind fun _ => trivial⟩
  | receivePayload frame clock => exact sound_receivePayload clock frame _
  | close =>
      have hwrite : Body.MayWrite Field.mutexes [.sendMu, .receiveMu] .closed := by decide
      exact ⟨.inr (.inr (.inr rfl)), Access.safe_set hwrite trivial⟩

end Session.Constants

/-- A session as an object whose methods lock what they touch. -/
def sessionObject (P : Primitives) (k : Session.Constants) :
    LockedObject Mutex Field SessionMethod Field.Value Answer where
  guards := Field.mutexes
  guarded := by
    intro f
    cases f <;> exact List.cons_ne_nil _ _
  locks m := (k.method P m).locks
  nodup := by
    intro m
    rcases (Session.Constants.sound_method m).locks with h | h | h | h <;> rw [h] <;> decide
  body m := (k.method P m).body
  obeys m := (Session.Constants.sound_method m).body

end DgProto
