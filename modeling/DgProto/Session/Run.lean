import DgProto.Session.Receive
import DgProto.Session.Send

/-!
# Runs of a session

A run is a finite sequence of method calls in any order.  Every call leaves an
event with the state on either side of it, the calls to `Seal` it made and its
result.  `step_cases` says once what a call can do to the send side; invariants
over runs follow from it through `events_induction`.
-/

namespace DgProto

open Library Wire Crypto Replay

/-- One method call with everything it reads from outside the session. -/
inductive SessionCall where
  | send (message : AnyValue) (padLength : UInt8) (env : SendEnv)
  | sendPayload (messageType : MessageType) (plaintext : List UInt8) (padLength : UInt8)
      (env : SendEnv)
  | markRekeySent (frame : Frame) (now : Time)
  | receivePayload (frame : Frame) (clock : ReceiveClock)
  | close

/-- The call asks the session to send this payload under this type. -/
def SessionCall.Asks (call : SessionCall) (messageType : MessageType)
    (plaintext : List UInt8) : Prop :=
  match call with
  | .send message _ _ =>
      ∃ m, (message = .value m ∨ message = .pointer m) ∧ m.kind.type = messageType ∧
        m.marshalBinary = .ok plaintext
  | .sendPayload requested payload _ _ => requested = messageType ∧ payload = plaintext
  | _ => False

/-- What a successful call returns. -/
inductive Reply where
  | frame (frame : Frame)
  | payload (plaintext : List UInt8)
  | done

/-- One call of a run. -/
structure Event where
  before : Session
  call : SessionCall
  after : Session
  /-- The calls to `Seal` that were made. -/
  calls : List SealCall
  result : Except Error Reply

/-- The call is a mark that succeeded. -/
def Event.Marks (event : Event) : Prop :=
  (∃ frame now, event.call = .markRekeySent frame now) ∧ event.result = .ok .done

/-- An emitted frame with the epoch it was sealed in and its plaintext. -/
structure Emission where
  epoch : UInt32
  frame : Frame
  plaintext : List UInt8

/-- The emission carries a `RekeyInit`. -/
def Emission.isRekey (e : Emission) : Bool :=
  e.frame.header.messageType == MessageType.rekeyInit

/-- What a call emitted. -/
def Event.emission (event : Event) : Option Emission :=
  match event.result with
  | .ok (.frame frame) =>
      some ⟨event.before.sendEpoch, frame, event.calls.flatMap SealCall.plaintext⟩
  | _ => none

namespace Session

/-- Run one call. -/
def step (P : Primitives) (s : Session) (call : SessionCall) : Event :=
  match call with
  | .send message padLength env =>
      let outcome := s.sendMessage P env message padLength
      ⟨s, call, outcome.session, outcome.calls, outcome.result.map .frame⟩
  | .sendPayload messageType plaintext padLength env =>
      let outcome := s.sendPayloadChecked P env messageType plaintext padLength
      ⟨s, call, outcome.session, outcome.calls, outcome.result.map .frame⟩
  | .markRekeySent frame now =>
      let outcome := s.markRekeySent now frame
      ⟨s, call, outcome.1, [], outcome.2.map fun _ => .done⟩
  | .receivePayload frame clock =>
      let outcome := s.receivePayload P clock frame
      ⟨s, call, outcome.1, [], outcome.2.map .payload⟩
  | .close => ⟨s, call, s.close, [], .ok .done⟩

/-- The events of a run. -/
def events (P : Primitives) : Session → List SessionCall → List Event
  | _, [] => []
  | s, call :: calls => s.step P call :: events P (s.step P call).after calls

/-- The state after a run. -/
def run (P : Primitives) (s : Session) (calls : List SessionCall) : Session :=
  calls.foldl (fun s call => (s.step P call).after) s

/-! ## The send side -/

/-- The fields guarded by the send mutex, and those both sides read. -/
structure SendSide where
  sessionID : Octets 16
  suite : CipherSuite
  send : Codec
  sendKey : Key
  sendEpoch : UInt32
  nextSequence : UInt64
  sentInEpoch : UInt64
  rekeyFrameLimit : UInt64
  pendingRekey : Option PendingSendRekey
  closed : Bool

def sendSide (s : Session) : SendSide :=
  ⟨s.sessionID, s.suite, s.send, s.sendKey, s.sendEpoch, s.nextSequence, s.sentInEpoch,
    s.rekeyFrameLimit, s.pendingRekey, s.closed⟩

@[simp] theorem expireGraceLocked_sendSide (s : Session) (now : Time) :
    (s.expireGraceLocked now).sendSide = s.sendSide := by
  unfold expireGraceLocked
  split_ifs <;> rfl

@[simp] theorem commitRekey_sendSide (s : Session) (clock : ReceiveClock)
    (window : ReplayWindow) (nextKey : Key) (nextCodec : Codec) (epoch : UInt32) :
    (s.commitRekey clock window nextKey nextCodec epoch).sendSide = s.sendSide :=
  expireGraceLocked_sendSide _ _

@[simp] theorem commitCurrent_sendSide (s : Session) (clock : ReceiveClock)
    (window : ReplayWindow) : (s.commitCurrent clock window).sendSide = s.sendSide := by
  unfold commitCurrent
  by_cases hnone : s.previousReceive = none
  · rw [if_pos hnone]
    rfl
  · rw [if_neg hnone]
    exact expireGraceLocked_sendSide _ _

/-- Receiving never touches the send side. -/
theorem receivePayload_sendSide (P : Primitives) (clock : ReceiveClock) (s : Session)
    (frame : Frame) : (s.receivePayload P clock frame).1.sendSide = s.sendSide := by
  have hcase := receivePayload_cases P clock s frame
  generalize s.receivePayload P clock frame = outcome at hcase ⊢
  cases hcase with
  | rejected err => rfl
  | rekey => exact commitRekey_sendSide s clock _ _ _ _
  | current => exact commitCurrent_sendSide s clock _
  | previous => rfl

end Session

open Session

/-- What one call can do to the send side. -/
inductive StepCase (P : Primitives) (s : Session) (call : SessionCall) : Event → Prop where
  /-- A send or a mark failed; nothing was sealed and nothing changed. -/
  | rejected (err : Error)
      (hexhausted : err.is .sequenceExhausted →
        s.pendingRekey = none ∧ s.nextSequence = 0) :
      StepCase P s call ⟨s, call, s, [], .error err⟩
  /-- A frame was received, or rejected. -/
  | received (frame : Frame) (clock : ReceiveClock) (after : Session)
      (result : Except Error (List UInt8)) (hcall : call = .receivePayload frame clock)
      (houtcome : s.receivePayload P clock frame = (after, result))
      (hside : after.sendSide = s.sendSide) :
      StepCase P s call ⟨s, call, after, [], result.map .payload⟩
  | closed (hcall : call = .close) : StepCase P s call ⟨s, call, s.close, [], .ok .done⟩
  /-- The requested message was sealed. -/
  | data (p : Packet) (hemits : s.Emits p)
      (hcount : s.rekeyFrameLimit = 0 ∨ s.sentInEpoch < s.rekeyFrameLimit)
      (htype : p.messageType ≠ MessageType.rekeyInit)
      (hasks : call.Asks p.messageType p.plaintext) :
      StepCase P s call
        ⟨s, call, s.advance, [p.sealCall s.send.key], .ok (.frame (p.frame P s.send.key))⟩
  /-- The announcement of the next epoch was sealed. -/
  | rekey (p : Packet) (hemits : s.Emits p)
      (hfirst : s.sendEpoch ≠ 0) (hlast : s.sendEpoch ≠ 0xFFFFFFFF)
      (htype : p.messageType = MessageType.rekeyInit)
      (hplaintext : (s.rekeyInit P).marshalBinary = .ok p.plaintext)
      (hcodec : newCodec P s.suite (deriveNextTrafficKey P s.sendKey).val =
        .ok ⟨deriveNextTrafficKey P s.sendKey⟩) :
      StepCase P s call
        ⟨s, call, { s.advance with pendingRekey := some (s.pendingAfter P p) },
          [p.sealCall s.send.key], .ok (.frame (p.frame P s.send.key))⟩
  /-- The announcement was sealed, but no codec could be made for its key. -/
  | rekeyLost (p : Packet) (hemits : s.Emits p) (err : Error)
      (htype : p.messageType = MessageType.rekeyInit)
      (hcodec : newCodec P s.suite (deriveNextTrafficKey P s.sendKey).val = .error err) :
      StepCase P s call ⟨s, call, s.advance, [p.sealCall s.send.key], .error err⟩
  /-- The pending transition was committed. -/
  | marked (pending : PendingSendRekey) (now : Time)
      (hcall : call = .markRekeySent pending.frame now) (hopen : s.closed = false)
      (hpending : s.pendingRekey = some pending) :
      StepCase P s call
        ⟨s, call,
          { s with
            sendKey := pending.key
            send := pending.codec
            sendEpoch := pending.epoch
            nextSequence := 1
            sentInEpoch := 0
            epochStarted := now
            pendingRekey := none }, [], .ok .done⟩

namespace Session

variable {P : Primitives} {s : Session}

/-- A send outcome as the event of its call. -/
theorem stepCase_of_sendCase {call : SessionCall} {messageType : MessageType}
    {plaintext : List UInt8} {outcome : SendOutcome}
    (htype : messageType ≠ MessageType.rekeyInit) (hasks : call.Asks messageType plaintext)
    (h : SendCase P s messageType plaintext outcome) :
    StepCase P s call
      ⟨s, call, outcome.session, outcome.calls, outcome.result.map .frame⟩ := by
  cases h with
  | rejected err hexhausted => exact .rejected err hexhausted
  | data p hemits hcount hpType hpText =>
      subst hpType hpText
      exact .data p hemits hcount htype hasks
  | rekey p hemits hfirst hlast hpType hpText hcodec =>
      exact .rekey p hemits hfirst hlast hpType hpText hcodec
  | rekeyLost p hemits err hpType hcodec => exact .rekeyLost p hemits err hpType hcodec

theorem kind_type_ne_rekeyInit {kind : MessageKind} (h : kind ≠ .rekeyInit) :
    kind.type ≠ MessageType.rekeyInit := by
  cases kind <;> first | exact absurd rfl h | decide

/-- The event of a call is one of the listed cases. -/
theorem step_cases (P : Primitives) (s : Session) (call : SessionCall) :
    StepCase P s call (s.step P call) := by
  cases call with
  | send message padLength env =>
      rcases sendMessage_cases P env (s := s) message padLength with
        ⟨err, herr, heq⟩ | ⟨m, plaintext, hvalue, hkind, hmarshal, heq⟩
      · simp only [step, heq]
        exact .rejected err fun h => absurd h herr
      · simp only [step, heq]
        exact stepCase_of_sendCase (kind_type_ne_rekeyInit hkind) ⟨m, hvalue, rfl, hmarshal⟩
          (sendPayload_cases P env m.kind.type plaintext padLength)
  | sendPayload messageType plaintext padLength env =>
      rcases sendPayloadChecked_cases P env (s := s) messageType plaintext padLength with
        ⟨err, herr, heq⟩ | ⟨htype, heq⟩
      · simp only [step, heq]
        exact .rejected err fun h => absurd h herr
      · simp only [step, heq]
        exact stepCase_of_sendCase htype ⟨rfl, rfl⟩
          (sendPayload_cases P env messageType plaintext padLength)
  | markRekeySent frame now =>
      rcases markRekeySent_cases (s := s) now frame with
        ⟨err, herr, heq⟩ | ⟨pending, hopen, hpending, rfl, heq⟩
      · simp only [step, heq]
        exact .rejected err fun h => absurd h herr
      · simp only [step, heq]
        exact .marked pending now rfl hopen hpending
  | receivePayload frame clock =>
      exact .received frame clock _ _ rfl rfl (receivePayload_sendSide P clock s frame)
  | close => exact .closed rfl

theorem step_sessionID (s : Session) (call : SessionCall) :
    (s.step P call).after.sessionID = s.sessionID := by
  have hcase := step_cases P s call
  generalize s.step P call = event at hcase ⊢
  cases hcase with
  | received _ _ _ _ _ _ hside => exact congrArg SendSide.sessionID hside
  | rejected | closed | data | rekey | rekeyLost | marked => rfl

/-- An invariant of a state together with the events so far holds after every run,
if it holds before the first event and every event keeps it. -/
theorem events_induction {I : List Event → Session → Prop}
    (hstep : ∀ past s call, I past s → I (past ++ [s.step P call]) (s.step P call).after)
    {past : List Event} (s : Session) (calls : List SessionCall) (hstart : I past s) :
    I (past ++ s.events P calls) (s.run P calls) := by
  induction calls generalizing past s with
  | nil => simpa [events, run] using hstart
  | cons call calls ih =>
      have hnext := ih (s.step P call).after (hstep past s call hstart)
      simpa [events, run] using hnext

theorem events_append (s : Session) (calls more : List SessionCall) :
    s.events P (calls ++ more) = s.events P calls ++ (s.run P calls).events P more := by
  induction calls generalizing s with
  | nil => rfl
  | cons call calls ih => exact congrArg (s.step P call :: ·) (ih _)

/-- What every call preserves, a run preserves. -/
theorem run_induction {I : Session → Prop} (hstep : ∀ s call, I s → I (s.step P call).after)
    (s : Session) (calls : List SessionCall) (hstart : I s) : I (s.run P calls) := by
  induction calls generalizing s with
  | nil => exact hstart
  | cons call calls ih => exact ih _ (hstep s call hstart)

theorem run_sessionID (s : Session) (calls : List SessionCall) :
    (s.run P calls).sessionID = s.sessionID :=
  run_induction (I := fun t => t.sessionID = s.sessionID)
    (fun t call h => (step_sessionID t call).trans h) s calls rfl

/-- Every event of a run is a step from a state that the run reached. -/
theorem exists_step_of_mem_events {P : Primitives} {I : Session → Prop}
    (hstep : ∀ s call, I s → I (s.step P call).after) {s : Session}
    {calls : List SessionCall} (hstart : I s) {event : Event}
    (hevent : event ∈ s.events P calls) :
    ∃ reached call, I reached ∧ event = reached.step P call := by
  induction calls generalizing s with
  | nil => simp [events] at hevent
  | cons call calls ih =>
      simp only [events, List.mem_cons] at hevent
      rcases hevent with rfl | hlater
      · exact ⟨s, call, hstart, rfl⟩
      · exact ih (hstep s call hstart) hlater

@[simp] theorem step_before (P : Primitives) (s : Session) (call : SessionCall) :
    (s.step P call).before = s := by
  cases call <;> rfl

/-! ## The chain of send keys -/

/-- The send key of epoch `e` is entry `e - 1` of the chain, and a pending
transition holds the entry after it. -/
structure SendKeys (P : Primitives) (key : Key) (s : Session) : Prop where
  suite : s.suite = cipherChaCha20Poly1305
  epoch_pos : 1 ≤ s.sendEpoch.toNat
  sendKey : s.sendKey = keyChain P key (s.sendEpoch.toNat - 1)
  codec : s.send = ⟨s.sendKey⟩
  pending : ∀ pending, s.pendingRekey = some pending →
    pending.key = keyChain P key s.sendEpoch.toNat ∧ pending.codec = ⟨pending.key⟩ ∧
      pending.epoch.toNat = s.sendEpoch.toNat + 1

theorem toNat_epoch_succ {epoch : UInt32} (h : epoch ≠ 0xFFFFFFFF) :
    (epoch + 1).toNat = epoch.toNat + 1 := by
  have hlt := epoch.toNat_lt
  have hne : epoch.toNat ≠ 4294967295 := by
    intro heq
    exact h (UInt32.toNat_inj.mp (by simpa using heq))
  rw [UInt32.toNat_add]
  simp
  omega

/-- The pending transition made at a rekey holds the next key of the chain. -/
theorem SendKeys.pendingAfter {key : Key} (h : SendKeys P key s) (p : Packet)
    (hlast : s.sendEpoch ≠ 0xFFFFFFFF) :
    (s.pendingAfter P p).key = keyChain P key s.sendEpoch.toNat ∧
      (s.pendingAfter P p).codec = ⟨(s.pendingAfter P p).key⟩ ∧
      (s.pendingAfter P p).epoch.toNat = s.sendEpoch.toNat + 1 := by
  refine ⟨?_, rfl, toNat_epoch_succ hlast⟩
  have hpos := h.epoch_pos
  simp only [Session.pendingAfter, h.sendKey]
  rw [show s.sendEpoch.toNat = (s.sendEpoch.toNat - 1) + 1 by omega]
  rfl

/-- Every call keeps the send keys on the chain. -/
theorem SendKeys.step {key : Key} (h : SendKeys P key s) (call : SessionCall) :
    SendKeys P key (s.step P call).after := by
  have hcase := step_cases P s call
  generalize s.step P call = event at hcase ⊢
  cases hcase with
  | rejected => exact h
  | received frame clock after result _ _ hside =>
      simp only [sendSide, SendSide.mk.injEq] at hside
      obtain ⟨-, hsuite, hsend, hkey, hepoch, -, -, -, hpending, -⟩ := hside
      exact ⟨hsuite ▸ h.suite, hepoch ▸ h.epoch_pos, by rw [hkey, hepoch]; exact h.sendKey,
        by rw [hsend, hkey]; exact h.codec, by rw [hpending, hepoch]; exact h.pending⟩
  | closed | data | rekeyLost =>
      exact ⟨h.suite, h.epoch_pos, h.sendKey, h.codec, h.pending⟩
  | rekey p hemits hfirst hlast =>
      refine ⟨h.suite, h.epoch_pos, h.sendKey, h.codec, fun pending hpending => ?_⟩
      obtain rfl := Option.some.inj hpending
      exact h.pendingAfter p hlast
  | marked pending now hcall hopen hpending =>
      obtain ⟨hkey, hcodec, hepoch⟩ := h.pending pending hpending
      refine ⟨h.suite, by simp only [hepoch]; omega, ?_, hcodec, fun _ hnone => by cases hnone⟩
      simp only [hkey, hepoch, Nat.add_sub_cancel]

/-- Both directions of a new session start at their handshake key. -/
theorem sendKeys_newSession {P : Primitives} {suite : CipherSuite} {secrets : HandshakeSecrets}
    {now : Time} {s : Session} (h : newSession P suite secrets now = .ok s) (limits : Limits) :
    SendKeys P secrets.sendKey (s.withLimits limits) := by
  obtain ⟨rfl, -, rfl⟩ := newSession_eq_ok h
  exact ⟨rfl, Nat.le_refl 1, rfl, rfl, fun _ hnone => by cases hnone⟩

end Session

/-- A call that sends one octet. -/
def samplePing (octet : UInt8) : SessionCall :=
  .sendPayload MessageType.pingPong [octet] 0 ⟨0, ⟨[], none⟩⟩

end DgProto
