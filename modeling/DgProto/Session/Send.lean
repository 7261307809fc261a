import DgProto.Session.State

/-!
# Sending

`Send`, `SendPayload` and `MarkRekeySent`.  At a rekey boundary a send returns a
`RekeyInit` frame of the old epoch in place of the caller's message and keeps the
next key aside; `MarkRekeySent` makes that key current.

`sendPayload_cases` and `markRekeySent_cases` list everything these methods can
do to the state.  Every invariant of the send side is derived from the two lists.
-/

namespace DgProto

open Library Wire Crypto

/-- What one send call reads from outside: the clock and the random source. -/
structure SendEnv where
  now : Time
  random : Reader

/-- The state after a send call, the calls to `Seal` it made, and its result. -/
structure SendOutcome where
  session : Session
  calls : List SealCall
  result : Except Error Frame

/-- The sequence number after `n`, or zero after the last one. -/
def succSequence (n : UInt64) : UInt64 :=
  if n = 0xFFFFFFFFFFFFFFFF then 0 else n + 1

namespace Session

/-- The counters after one successful encryption. -/
def advance (s : Session) : Session :=
  { s with
    nextSequence := succSequence s.nextSequence
    sentInEpoch := s.sentInEpoch + 1 }

/-- `encryptLocked`. -/
def encryptLocked (P : Primitives) (env : SendEnv) (s : Session) (messageType : MessageType)
    (plaintext : List UInt8) (padLength : UInt8) : SendOutcome :=
  if s.nextSequence = 0 then
    ⟨s, [], .error Sentinel.sequenceExhausted.bare⟩
  else
    let (calls, result) := s.send.encrypt P env.random messageType s.sessionID s.nextSequence
      plaintext padLength
    match result with
    | .error err => ⟨s, calls, .error err⟩
    | .ok frame => ⟨s.advance, calls, .ok frame⟩

/-- `rekeyDueLocked`. -/
def rekeyDueLocked (s : Session) (now : Time) : Bool :=
  (s.rekeyFrameLimit ≠ 0 && s.rekeyFrameLimit ≤ s.sentInEpoch) ||
    (0 < s.rekeyInterval && ¬ now < s.epochStarted + s.rekeyInterval)

/-- `startRekeyLocked`. -/
def startRekeyLocked (P : Primitives) (env : SendEnv) (s : Session) (padLength : UInt8) :
    SendOutcome :=
  if s.sendEpoch = 0xFFFFFFFF then
    ⟨s, [], .error Sentinel.epochExhausted.bare⟩
  else
    let nextEpoch := s.sendEpoch + 1
    match RekeyState.computeKeyConfirm P ⟨s.sendEpoch⟩ s.sendKey.val nextEpoch with
    | .error err => ⟨s, [], .error err⟩
    | .ok confirm =>
        match RekeyInit.marshalBinary ⟨nextEpoch, confirm⟩ with
        | .error err => ⟨s, [], .error err⟩
        | .ok payload =>
            let sent := encryptLocked P env s MessageType.rekeyInit payload padLength
            match sent.result with
            | .error err => ⟨sent.session, sent.calls, .error err⟩
            | .ok frame =>
                let nextKey := deriveNextTrafficKey P s.sendKey
                match newCodec P s.suite nextKey.val with
                -- the sequence number stays consumed on this path
                | .error err => ⟨sent.session, sent.calls, .error err⟩
                | .ok nextCodec =>
                    ⟨{ sent.session with
                        pendingRekey := some ⟨frame, nextKey, nextCodec, nextEpoch⟩ },
                      sent.calls, .ok frame⟩

/-- The unexported `sendPayload`. -/
def sendPayload (P : Primitives) (env : SendEnv) (s : Session) (messageType : MessageType)
    (plaintext : List UInt8) (padLength : UInt8) : SendOutcome :=
  if ¬ validSessionMessageType messageType then
    ⟨s, [], .error (Sentinel.messageType.wrap ("0x" ++ hex02 messageType.toNat))⟩
  else if s.closed then
    ⟨s, [], .error Sentinel.sessionClosed.bare⟩
  else if s.pendingRekey.isSome then
    ⟨s, [], .error Sentinel.rekeyPending.bare⟩
  else if s.rekeyDueLocked env.now then
    s.startRekeyLocked P env padLength
  else
    s.encryptLocked P env messageType plaintext padLength

/-- The exported `SendPayload`. -/
def sendPayloadChecked (P : Primitives) (env : SendEnv) (s : Session)
    (messageType : MessageType) (plaintext : List UInt8) (padLength : UInt8) : SendOutcome :=
  if messageType = MessageType.resumptionTicket then
    ⟨s, [], .error (Sentinel.messageType.wrap
      ("0x" ++ hex02 messageType.toNat ++ " is post-MVP"))⟩
  else if messageType = MessageType.rekeyInit then
    ⟨s, [], .error (Sentinel.messageType.wrap
      ("0x" ++ hex02 messageType.toNat ++ " is generated by the session"))⟩
  else
    s.sendPayload P env messageType plaintext padLength

/-- `Send`. -/
def sendMessage (P : Primitives) (env : SendEnv) (s : Session) (message : AnyValue)
    (padLength : UInt8) : SendOutcome :=
  match outboundMessage message with
  | .error err => ⟨s, [], .error err⟩
  | .ok (messageType, marshaler) =>
      match marshaler.marshalBinary with
      | .error err => ⟨s, [], .error err⟩
      | .ok plaintext => s.sendPayload P env messageType plaintext padLength

/-- `MarkRekeySent`.  `sameRekeyFrame` compares every field of the frames. -/
def markRekeySent (s : Session) (now : Time) (frame : Frame) : Session × Except Error Unit :=
  if s.closed then
    (s, .error Sentinel.sessionClosed.bare)
  else
    match s.pendingRekey with
    | none => (s, .error Sentinel.rekeyPending.bare)
    | some pending =>
        if pending.frame ≠ frame then
          (s, .error Sentinel.rekeyPending.bare)
        else
          ({ s with
              sendKey := pending.key
              send := pending.codec
              sendEpoch := pending.epoch
              nextSequence := 1
              sentInEpoch := 0
              epochStarted := now
              pendingRekey := none }, .ok ())

end Session

/-! ## What a send can do -/

@[simp] theorem Session.advance_nextSequence (s : Session) :
    s.advance.nextSequence = succSequence s.nextSequence := rfl

theorem succSequence_eq_zero_or {n : UInt64} :
    succSequence n = 0 ∨ (succSequence n).toNat = n.toNat + 1 := by
  unfold succSequence
  by_cases hmax : n = 0xFFFFFFFFFFFFFFFF
  · exact .inl (if_pos hmax)
  · right
    have hlt := n.toNat_lt
    have hne : n.toNat ≠ 18446744073709551615 := by
      intro heq
      exact hmax (UInt64.toNat_inj.mp (by simpa using heq))
    rw [if_neg hmax, UInt64.toNat_add]
    simp
    omega

theorem succSequence_ne {n : UInt64} (h : n ≠ 0) : succSequence n ≠ n := by
  rcases succSequence_eq_zero_or (n := n) with hzero | hsucc
  · rw [hzero]
    exact h.symm
  · intro heq
    rw [heq] at hsucc
    omega

/-- A packet that the session can put into its next frame. -/
structure Session.Emits (s : Session) (p : Packet) : Prop where
  isOpen : s.closed = false
  notPending : s.pendingRekey = none
  sendable : p.Sendable
  sequence : p.sequence = s.nextSequence
  sessionID : p.sessionID = s.sessionID

theorem Session.Emits.nextSequence_ne_zero {s : Session} {p : Packet} (h : s.Emits p) :
    s.nextSequence ≠ 0 :=
  h.sequence ▸ (validateEncryptedHeader_eq_ok_iff.mp h.sendable.header).2.1

/-- The announcement of the epoch after the session's own. -/
def Session.rekeyInit (P : Primitives) (s : Session) : RekeyInit :=
  ⟨s.sendEpoch + 1, confirmation P s.sendKey.val (s.sendEpoch + 1)⟩

/-- The pending transition once packet `p` has announced it. -/
def Session.pendingAfter (P : Primitives) (s : Session) (p : Packet) : PendingSendRekey :=
  ⟨p.frame P s.send.key, deriveNextTrafficKey P s.sendKey,
    ⟨deriveNextTrafficKey P s.sendKey⟩, s.sendEpoch + 1⟩

/-- The possible outcomes of sending `plaintext` under `messageType`. -/
inductive SendCase (P : Primitives) (s : Session) (messageType : MessageType)
    (plaintext : List UInt8) : SendOutcome → Prop where
  /-- Nothing was sealed and nothing changed. -/
  | rejected (err : Error)
      (hexhausted : err.is .sequenceExhausted →
        s.pendingRekey = none ∧ s.nextSequence = 0) :
      SendCase P s messageType plaintext ⟨s, [], .error err⟩
  /-- The message itself was sealed. -/
  | data (p : Packet) (hemits : s.Emits p)
      (hcount : s.rekeyFrameLimit = 0 ∨ s.sentInEpoch < s.rekeyFrameLimit)
      (htype : p.messageType = messageType) (hplaintext : p.plaintext = plaintext) :
      SendCase P s messageType plaintext
        ⟨s.advance, [p.sealCall s.send.key], .ok (p.frame P s.send.key)⟩
  /-- The announcement of the next epoch was sealed instead. -/
  | rekey (p : Packet) (hemits : s.Emits p)
      (hfirst : s.sendEpoch ≠ 0) (hlast : s.sendEpoch ≠ 0xFFFFFFFF)
      (htype : p.messageType = MessageType.rekeyInit)
      (hplaintext : (s.rekeyInit P).marshalBinary = .ok p.plaintext)
      (hcodec : newCodec P s.suite (deriveNextTrafficKey P s.sendKey).val =
        .ok ⟨deriveNextTrafficKey P s.sendKey⟩) :
      SendCase P s messageType plaintext
        ⟨{ s.advance with pendingRekey := some (s.pendingAfter P p) },
          [p.sealCall s.send.key], .ok (p.frame P s.send.key)⟩
  /-- The announcement was sealed, but no codec could be made for its key. -/
  | rekeyLost (p : Packet) (hemits : s.Emits p) (err : Error)
      (htype : p.messageType = MessageType.rekeyInit)
      (hcodec : newCodec P s.suite (deriveNextTrafficKey P s.sendKey).val = .error err) :
      SendCase P s messageType plaintext
        ⟨s.advance, [p.sealCall s.send.key], .error err⟩

namespace Session

variable (P : Primitives) (env : SendEnv) {s : Session}

theorem encryptLocked_cases (messageType : MessageType) (plaintext : List UInt8)
    (padLength : UInt8) (hclosed : s.closed = false) (hpending : s.pendingRekey = none) :
    (∃ err, s.encryptLocked P env messageType plaintext padLength = ⟨s, [], .error err⟩ ∧
        (err.is .sequenceExhausted → s.nextSequence = 0)) ∨
      ∃ p, s.Emits p ∧ p.messageType = messageType ∧ p.plaintext = plaintext ∧
        s.encryptLocked P env messageType plaintext padLength =
          ⟨s.advance, [p.sealCall s.send.key], .ok (p.frame P s.send.key)⟩ := by
  unfold encryptLocked
  by_cases hzero : s.nextSequence = 0
  · exact .inl ⟨_, by rw [if_pos hzero], fun _ => hzero⟩
  · rw [if_neg hzero]
    rcases Codec.encrypt_cases P env.random s.send messageType s.sessionID s.nextSequence
        plaintext padLength with ⟨err, hencrypt, herr⟩ | ⟨p, hsend, htype, hsession, hsequence,
        hplaintext, -, hencrypt⟩
    · exact .inl ⟨err, by rw [hencrypt],
        fun h => absurd h (Error.not_is_of_subset herr (by decide))⟩
    · exact .inr ⟨p, ⟨hclosed, hpending, hsend, hsequence, hsession⟩, htype, hplaintext,
        by rw [hencrypt]⟩

theorem startRekeyLocked_cases (messageType : MessageType) (plaintext : List UInt8)
    (padLength : UInt8) (hclosed : s.closed = false) (hpending : s.pendingRekey = none) :
    SendCase P s messageType plaintext (s.startRekeyLocked P env padLength) := by
  unfold startRekeyLocked
  by_cases hlast : s.sendEpoch = 0xFFFFFFFF
  · rw [if_pos hlast]
    exact .rejected _ (by simp)
  rw [if_neg hlast]
  by_cases hfirst : s.sendEpoch = 0
  · have hconfirm : RekeyState.computeKeyConfirm P ⟨s.sendEpoch⟩ s.sendKey.val
        (s.sendEpoch + 1) = .error (Sentinel.invalidEpoch.wrap "current epoch is zero") := by
      simp [RekeyState.computeKeyConfirm, hfirst]
    simp only [hconfirm]
    exact .rejected _ (by simp)
  simp only [RekeyState.computeKeyConfirm_succ P hfirst hlast]
  cases hmarshal : (s.rekeyInit P).marshalBinary with
  | error err =>
      have hepoch : err = Sentinel.invalidEpoch.bare := by
        unfold RekeyInit.marshalBinary at hmarshal
        split_ifs at hmarshal
        exact (Except.error.inj hmarshal).symm
      simp only [rekeyInit] at hmarshal
      simp only [hmarshal]
      exact .rejected _ (by simp [hepoch])
  | ok payload =>
      have hpayload := hmarshal
      simp only [rekeyInit] at hmarshal
      simp only [hmarshal]
      rcases encryptLocked_cases P env MessageType.rekeyInit payload padLength hclosed hpending with
        ⟨err, heq, herr⟩ | ⟨p, hemits, htype, hplaintext, heq⟩
      · simp only [heq]
        exact .rejected err fun h => ⟨hpending, herr h⟩
      · simp only [heq]
        cases hcodec : newCodec P s.suite (deriveNextTrafficKey P s.sendKey).val with
        | error err => exact .rekeyLost p hemits err htype hcodec
        | ok nextCodec =>
            obtain ⟨-, rfl⟩ := newCodec_eq_ok hcodec
            exact .rekey p hemits hfirst hlast htype (hplaintext ▸ hpayload) hcodec

/-- The outcome of a send is one of the listed cases. -/
theorem sendPayload_cases (messageType : MessageType) (plaintext : List UInt8)
    (padLength : UInt8) :
    SendCase P s messageType plaintext (s.sendPayload P env messageType plaintext padLength) := by
  unfold sendPayload
  by_cases hvalid : validSessionMessageType messageType = true
  swap
  · rw [if_pos hvalid]
    exact .rejected _ (by simp)
  rw [if_neg (not_not.mpr hvalid)]
  by_cases hclosed : s.closed = true
  · rw [if_pos hclosed]
    exact .rejected _ (by simp)
  rw [if_neg hclosed]
  rw [Bool.not_eq_true] at hclosed
  by_cases hpending : s.pendingRekey.isSome = true
  · rw [if_pos hpending]
    exact .rejected _ (by simp)
  rw [if_neg hpending]
  rw [Option.isSome_iff_ne_none, not_not] at hpending
  by_cases hdue : s.rekeyDueLocked env.now = true
  · rw [if_pos hdue]
    exact startRekeyLocked_cases P env messageType plaintext padLength hclosed hpending
  rw [if_neg hdue]
  rcases encryptLocked_cases P env messageType plaintext padLength hclosed hpending with
    ⟨err, heq, herr⟩ | ⟨p, hemits, htype, hplaintext, heq⟩
  · rw [heq]
    exact .rejected err fun h => ⟨hpending, herr h⟩
  · rw [heq]
    refine .data p hemits ?_ htype hplaintext
    simp only [rekeyDueLocked, Bool.or_eq_true, not_or, Bool.and_eq_true, not_and,
      decide_eq_true_eq, UInt64.not_le] at hdue
    by_cases hlimit : s.rekeyFrameLimit = 0
    · exact .inl hlimit
    · exact .inr (hdue.1 hlimit)

/-- The exported entry point adds rejections only; it never carries a `RekeyInit`
of the caller. -/
theorem sendPayloadChecked_cases (messageType : MessageType) (plaintext : List UInt8)
    (padLength : UInt8) :
    (∃ err, ¬ err.is .sequenceExhausted ∧
        s.sendPayloadChecked P env messageType plaintext padLength = ⟨s, [], .error err⟩) ∨
      messageType ≠ MessageType.rekeyInit ∧
        s.sendPayloadChecked P env messageType plaintext padLength =
          s.sendPayload P env messageType plaintext padLength := by
  unfold sendPayloadChecked
  by_cases hticket : messageType = MessageType.resumptionTicket
  · rw [if_pos hticket]
    exact .inl ⟨_, by simp, rfl⟩
  rw [if_neg hticket]
  by_cases hrekey : messageType = MessageType.rekeyInit
  · rw [if_pos hrekey]
    exact .inl ⟨_, by simp, rfl⟩
  · rw [if_neg hrekey]
    exact .inr ⟨hrekey, rfl⟩

/-- `Send` adds rejections only, and sends the payload under the type of its message. -/
theorem sendMessage_cases (message : AnyValue) (padLength : UInt8) :
    (∃ err, ¬ err.is .sequenceExhausted ∧
        s.sendMessage P env message padLength = ⟨s, [], .error err⟩) ∨
      ∃ m plaintext, (message = .value m ∨ message = .pointer m) ∧ m.kind ≠ .rekeyInit ∧
        m.marshalBinary = .ok plaintext ∧
        s.sendMessage P env message padLength =
          s.sendPayload P env m.kind.type plaintext padLength := by
  unfold sendMessage
  cases houtbound : outboundMessage message with
  | error err =>
      exact .inl ⟨err, by simp [Error.is, outboundMessage_error houtbound], rfl⟩
  | ok typed =>
      obtain ⟨messageType, m⟩ := typed
      obtain ⟨rfl, hkind, hvalue⟩ := outboundMessage_eq_ok houtbound
      cases hmarshal : m.marshalBinary with
      | error err =>
          exact .inl ⟨err, Error.not_is_of_subset (Message.marshalBinary_error hmarshal)
            (by decide), by simp only [hmarshal]⟩
      | ok plaintext =>
          exact .inr ⟨m, plaintext, hvalue, hkind, hmarshal, by simp only [hmarshal]⟩

/-- `MarkRekeySent` either changes nothing or commits the pending transition for
exactly the pending frame. -/
theorem markRekeySent_cases (now : Time) (frame : Frame) :
    (∃ err, ¬ err.is .sequenceExhausted ∧ s.markRekeySent now frame = (s, .error err)) ∨
      ∃ pending, s.closed = false ∧ s.pendingRekey = some pending ∧ pending.frame = frame ∧
        s.markRekeySent now frame =
          ({ s with
              sendKey := pending.key
              send := pending.codec
              sendEpoch := pending.epoch
              nextSequence := 1
              sentInEpoch := 0
              epochStarted := now
              pendingRekey := none }, .ok ()) := by
  unfold markRekeySent
  by_cases hclosed : s.closed = true
  · rw [if_pos hclosed]
    exact .inl ⟨_, by simp, rfl⟩
  rw [if_neg hclosed]
  rw [Bool.not_eq_true] at hclosed
  cases hpending : s.pendingRekey with
  | none => exact .inl ⟨_, by simp, rfl⟩
  | some pending =>
      by_cases hframe : pending.frame = frame
      · exact .inr ⟨pending, hclosed, rfl, hframe, by simp only [hframe, ne_eq,
          not_true_eq_false, if_false]⟩
      · exact .inl ⟨Sentinel.rekeyPending.bare, by simp, by simp only [ne_eq, hframe,
          not_false_eq_true, if_true]⟩

end Session

end DgProto
