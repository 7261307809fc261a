import DgProto.Wire.Header
import DgProto.Wire.Tlv

/-!
# Typed messages

The payload formats carried by encrypted frames: application data, ping/pong,
session close, acknowledgement, rekey announcement and error report.  Each
format has its own validation order on either side.  The result used by the
layers above is that decoding the payload of a marshalled message gives that
message back (`Message.unmarshalBinary_marshalBinary`).

A Go string is the list of its octets.
-/

namespace DgProto
namespace Wire

open Library

/-- `MaxEncryptedPayloadSize`. -/
def maxEncryptedPayloadSize : Nat := maxFrameSize - headerSize - aeadTagSize
/-- `MaxReasonSize`. -/
def maxReasonSize : Nat := maxEncryptedPayloadSize - 2 - tlvHeaderSize - 1
/-- `MaxErrorContextSize`. -/
def maxErrorContextSize : Nat := maxEncryptedPayloadSize - 2
/-- `PingPongSize`. -/
def pingPongSize : Nat := 9
/-- `RekeyInitSize`. -/
def rekeyInitSize : Nat := 36
/-- `MaxAckSequences`. -/
def maxAckSequences : Nat := 255
/-- `textTLVType`. -/
def textTLVType : UInt8 := 1

/-- An octet between two bounds. -/
def within (low high octet : UInt8) : Bool :=
  low ≤ octet && octet ≤ high

/-- `utf8.Valid`: shortest form, no surrogates, at most U+10FFFF. -/
def utf8Valid : List UInt8 → Bool
  | [] => true
  | first :: rest =>
      if first < 0x80 then
        utf8Valid rest
      else if first < 0xC2 then
        false
      else if first < 0xE0 then
        match rest with
        | second :: rest => within 0x80 0xBF second && utf8Valid rest
        | _ => false
      else if first < 0xF0 then
        match rest with
        | second :: third :: rest =>
            within (if first = 0xE0 then 0xA0 else 0x80) (if first = 0xED then 0x9F else 0xBF)
              second && within 0x80 0xBF third && utf8Valid rest
        | _ => false
      else if first < 0xF5 then
        match rest with
        | second :: third :: fourth :: rest =>
            within (if first = 0xF0 then 0x90 else 0x80) (if first = 0xF4 then 0x8F else 0xBF)
              second && within 0x80 0xBF third && within 0x80 0xBF fourth && utf8Valid rest
        | _ => false
      else
        false

/-! ## EncryptedData -/

/-- The application envelope. -/
structure EncryptedData where
  streamID : UInt16
  appMessageType : UInt8
  fields : List TLV
  deriving DecidableEq, Repr

/-- The loop of `rejectDuplicateTLVs` with its `seen` table. -/
def rejectDuplicateLoop (seen : UInt8 → Bool) : List TLV → Except Error Unit
  | [] => .ok ()
  | field :: fields =>
      if seen field.type then
        .error (Sentinel.duplicateMessageTLV.wrap ("0x" ++ hex02 field.type.toNat))
      else
        rejectDuplicateLoop (fun typ => typ = field.type || seen typ) fields

/-- `rejectDuplicateTLVs`. -/
def rejectDuplicateTLVs (fields : List TLV) : Except Error Unit :=
  rejectDuplicateLoop (fun _ => false) fields

namespace EncryptedData

/-- `EncryptedData.EncodedLen`. -/
def encodedLen (m : EncryptedData) : Except Error Nat :=
  match rejectDuplicateTLVs m.fields with
  | .error err => .error err
  | .ok () =>
      match encodedTLVsLen m.fields with
      | .error err => .error err
      | .ok fieldsLen =>
          if maxEncryptedPayloadSize - 4 < fieldsLen then
            .error (Sentinel.messageLength.wrap
              s!"got {4 + fieldsLen}, limit {maxEncryptedPayloadSize}")
          else
            .ok (4 + fieldsLen)

/-- `EncryptedData.ValidateFrameSize`. -/
def validateFrameSize (m : EncryptedData) (padLength : UInt8) : Except Error Unit :=
  match m.encodedLen with
  | .error err => .error err
  | .ok n =>
      if maxFrameSize < headerSize + n + aeadTagSize + padLength.toNat then
        .error (Sentinel.payloadTooLarge.wrap s!"{n} bytes")
      else
        .ok ()

/-- `EncryptedData.MarshalBinary`. -/
def marshalBinary (m : EncryptedData) : Except Error (List UInt8) :=
  match rejectDuplicateTLVs m.fields with
  | .error err => .error err
  | .ok () =>
      match encodeTLVs m.fields with
      | .error err => .error err
      | .ok fields =>
          if maxEncryptedPayloadSize - 4 < fields.length then
            .error (Sentinel.messageLength.wrap
              s!"got {4 + fields.length}, limit {maxEncryptedPayloadSize}")
          else
            .ok (putUint16 m.streamID ++ [m.appMessageType, 0] ++ fields)

/-- `EncryptedData.UnmarshalBinary`. -/
def unmarshalBinary (data : List UInt8) : Except Error EncryptedData :=
  if data.length < 4 then
    .error (Sentinel.messageTooShort.wrap s!"got {data.length}, want at least 4")
  else if data.getD 3 0 ≠ 0 then
    .error Sentinel.messageReserved.bare
  else
    match decodeTLVs (data.drop 4) (maxEncryptedPayloadSize - 4 : Nat) with
    | .error err => .error err
    | .ok fields =>
        match rejectDuplicateTLVs fields with
        | .error err => .error err
        | .ok () => .ok ⟨readUint16 (slice data 0 2), data.getD 2 0, fields⟩

end EncryptedData

/-- `NewEncryptedData`; the copies it makes of the fields and values are equal to them. -/
def newEncryptedData (streamID : UInt16) (appMessageType : UInt8) (fields : List TLV) :
    Except Error EncryptedData :=
  let message : EncryptedData := ⟨streamID, appMessageType, fields⟩
  match message.encodedLen with
  | .error err => .error err
  | .ok _ => .ok message

/-! ## PingPong -/

/-- A keepalive nonce, as a ping or as its response. -/
structure PingPong where
  isResponse : Bool
  nonce : UInt64
  deriving DecidableEq, Repr

namespace PingPong

/-- `PingPong.MarshalBinary`; it never fails. -/
def marshalBinary (m : PingPong) : List UInt8 :=
  (if m.isResponse then 1 else 0) :: putUint64 m.nonce

/-- `PingPong.UnmarshalBinary`. -/
def unmarshalBinary (data : List UInt8) : Except Error PingPong :=
  if data.length ≠ pingPongSize then
    .error (Sentinel.messageLength.wrap s!"got {data.length}, want {pingPongSize}")
  else if 1 < data.getD 0 0 then
    .error (Sentinel.invalidPingResponse.wrap ("0x" ++ hex02 (data.getD 0 0).toNat))
  else
    .ok ⟨data.getD 0 0 = 1, readUint64 (data.drop 1)⟩

end PingPong

/-! ## SessionClose -/

/-- A request for graceful termination. -/
structure SessionClose where
  code : UInt16
  reason : List UInt8
  deriving DecidableEq, Repr

/-- `marshalTextMessage`. -/
def marshalTextMessage (code : UInt16) (text : List UInt8) : Except Error (List UInt8) :=
  if ¬ utf8Valid text then
    .error Sentinel.invalidUTF8.bare
  else if maxReasonSize < text.length then
    .error (Sentinel.reasonTooLong.wrap s!"got {text.length}")
  else if text = [] then
    .ok (putUint16 code)
  else
    -- the error of `NewTLV` is dropped; with one, the field would be the zero value
    let field := (newTLV textTLVType text).toOption.getD ⟨0, []⟩
    match field.marshalBinary with
    | .error err => .error err
    | .ok encoded => .ok (putUint16 code ++ encoded)

/-- `unmarshalTextMessage`. -/
def unmarshalTextMessage (data : List UInt8) : Except Error (UInt16 × List UInt8) :=
  if data.length < 2 then
    .error Sentinel.messageTooShort.bare
  else
    let code := readUint16 (slice data 0 2)
    if data.length = 2 then
      .ok (code, [])
    else
      match decodeTLVs (data.drop 2) (align4 (tlvHeaderSize + maxReasonSize) : Nat) with
      | .error err => .error err
      | .ok fields =>
          match rejectDuplicateTLVs fields with
          | .error err => .error err
          | .ok () =>
              match fields with
              | [field] =>
                  if field.type ≠ textTLVType then
                    .error (Sentinel.unknownMessageTLV.wrap ("0x" ++ hex02 field.type.toNat))
                  else if ¬ utf8Valid field.value then
                    .error Sentinel.invalidUTF8.bare
                  else
                    .ok (code, field.value)
              | _ => .error Sentinel.unknownMessageTLV.bare

namespace SessionClose

/-- `SessionClose.MarshalBinary`. -/
def marshalBinary (m : SessionClose) : Except Error (List UInt8) :=
  if 3 < m.code then
    .error (Sentinel.invalidCloseCode.wrap ("0x" ++ hex04 m.code.toNat))
  else
    marshalTextMessage m.code m.reason

/-- `SessionClose.UnmarshalBinary`. -/
def unmarshalBinary (data : List UInt8) : Except Error SessionClose :=
  match unmarshalTextMessage data with
  | .error err => .error err
  | .ok (code, text) =>
      if 3 < code then
        .error (Sentinel.invalidCloseCode.wrap ("0x" ++ hex04 code.toNat))
      else
        .ok ⟨code, text⟩

end SessionClose

/-! ## Ack -/

/-- One to 255 acknowledged sequence numbers. -/
structure Ack where
  sequences : List UInt64
  deriving DecidableEq, Repr

/-- `AckSize`. -/
def ackSize (count : Nat) : Nat := 1 + 8 * count

namespace Ack

/-- `Ack.MarshalBinary`. -/
def marshalBinary (m : Ack) : Except Error (List UInt8) :=
  if m.sequences.length < 1 ∨ maxAckSequences < m.sequences.length then
    .error (Sentinel.ackCount.wrap s!"got {m.sequences.length}")
  else
    .ok (UInt8.ofNat m.sequences.length :: m.sequences.flatMap putUint64)

/-- `ReadAck`. -/
def readAck (data : List UInt8) (count : Nat) : List UInt64 :=
  (List.range count).map fun i => readUint64 (data.drop (1 + 8 * i))

/-- `Ack.UnmarshalBinary`. -/
def unmarshalBinary (data : List UInt8) : Except Error Ack :=
  if data.length < 1 then
    .error Sentinel.messageTooShort.bare
  else
    let count := (data.getD 0 0).toNat
    if count < 1 ∨ maxAckSequences < count then
      .error (Sentinel.ackCount.wrap s!"got {count}")
    else if data.length ≠ ackSize count then
      .error (Sentinel.messageLength.wrap s!"got {data.length}, want {ackSize count}")
    else
      .ok ⟨readAck data count⟩

end Ack

/-! ## RekeyInit -/

/-- The announcement of a new epoch with its key confirmation. -/
structure RekeyInit where
  epoch : UInt32
  keyConfirm : Octets 32
  deriving DecidableEq, Repr

namespace RekeyInit

/-- `RekeyInit.MarshalBinary`. -/
def marshalBinary (m : RekeyInit) : Except Error (List UInt8) :=
  if m.epoch = 0 then .error Sentinel.invalidEpoch.bare
  else .ok (putUint32 m.epoch ++ m.keyConfirm.val)

/-- `RekeyInit.UnmarshalBinary`. -/
def unmarshalBinary (data : List UInt8) : Except Error RekeyInit :=
  if data.length ≠ rekeyInitSize then
    .error (Sentinel.messageLength.wrap s!"got {data.length}, want {rekeyInitSize}")
  else
    let epoch := readUint32 (slice data 0 4)
    if epoch = 0 then .error Sentinel.invalidEpoch.bare
    else .ok ⟨epoch, Octets.copy 32 (slice data 4 rekeyInitSize)⟩

end RekeyInit

/-! ## ErrorMessage -/

/-- A recoverable protocol condition with raw UTF-8 context. -/
structure ErrorMessage where
  code : UInt16
  context : List UInt8
  deriving DecidableEq, Repr

namespace ErrorMessage

/-- `ErrorMessage.MarshalBinary`. -/
def marshalBinary (m : ErrorMessage) : Except Error (List UInt8) :=
  if ¬ utf8Valid m.context then
    .error Sentinel.invalidUTF8.bare
  else if maxErrorContextSize < m.context.length then
    .error (Sentinel.reasonTooLong.wrap s!"got {m.context.length}")
  else
    .ok (putUint16 m.code ++ m.context)

/-- `ErrorMessage.UnmarshalBinary`. -/
def unmarshalBinary (data : List UInt8) : Except Error ErrorMessage :=
  if data.length < 2 then
    .error Sentinel.messageTooShort.bare
  else if maxEncryptedPayloadSize < data.length then
    .error Sentinel.messageLength.bare
  else if ¬ utf8Valid (data.drop 2) then
    .error Sentinel.invalidUTF8.bare
  else
    .ok ⟨readUint16 (slice data 0 2), data.drop 2⟩

end ErrorMessage

/-! ## Dispatch -/

/-- The Go types of the messages that a session carries. -/
inductive MessageKind where
  | encryptedData
  | pingPong
  | sessionClose
  | ack
  | rekeyInit
  | error
  deriving DecidableEq, Repr

/-- The type octet of a kind. -/
def MessageKind.type : MessageKind → MessageType
  | .encryptedData => MessageType.encryptedData
  | .pingPong => MessageType.pingPong
  | .sessionClose => MessageType.sessionClose
  | .ack => MessageType.ack
  | .rekeyInit => MessageType.rekeyInit
  | .error => MessageType.error

/-- The name that the `%T` verb prints. -/
def MessageKind.goName : MessageKind → String
  | .encryptedData => "dgproto.EncryptedData"
  | .pingPong => "dgproto.PingPong"
  | .sessionClose => "dgproto.SessionClose"
  | .ack => "dgproto.Ack"
  | .rekeyInit => "dgproto.RekeyInit"
  | .error => "dgproto.ErrorMessage"

/-- A typed message. -/
inductive Message where
  | encryptedData (m : EncryptedData)
  | pingPong (m : PingPong)
  | sessionClose (m : SessionClose)
  | ack (m : Ack)
  | rekeyInit (m : RekeyInit)
  | error (m : ErrorMessage)
  deriving DecidableEq, Repr

namespace Message

def kind : Message → MessageKind
  | .encryptedData _ => .encryptedData
  | .pingPong _ => .pingPong
  | .sessionClose _ => .sessionClose
  | .ack _ => .ack
  | .rekeyInit _ => .rekeyInit
  | .error _ => .error

/-- The `MarshalBinary` method of the message's type. -/
def marshalBinary : Message → Except Error (List UInt8)
  | .encryptedData m => m.marshalBinary
  | .pingPong m => .ok m.marshalBinary
  | .sessionClose m => m.marshalBinary
  | .ack m => m.marshalBinary
  | .rekeyInit m => m.marshalBinary
  | .error m => m.marshalBinary

end Message

/-- The `UnmarshalBinary` method of a kind. -/
def MessageKind.unmarshalBinary (data : List UInt8) : MessageKind → Except Error Message
  | .encryptedData => (EncryptedData.unmarshalBinary data).map .encryptedData
  | .pingPong => (PingPong.unmarshalBinary data).map .pingPong
  | .sessionClose => (SessionClose.unmarshalBinary data).map .sessionClose
  | .ack => (Ack.unmarshalBinary data).map .ack
  | .rekeyInit => (RekeyInit.unmarshalBinary data).map .rekeyInit
  | .error => (ErrorMessage.unmarshalBinary data).map .error

/-- A dynamically typed argument of `Send`. -/
inductive AnyValue where
  | value (m : Message)
  | pointer (m : Message)
  | nilPointer (kind : MessageKind)
  | other (typeName : String)
  deriving DecidableEq, Repr

/-- `outboundMessage`: the five types that callers may send, as values or as
non-nil pointers.  A `RekeyInit` falls into the default branch. -/
def outboundMessage : AnyValue → Except Error (MessageType × Message)
  | .value m =>
      if m.kind = .rekeyInit then .error (Sentinel.messageType.wrap m.kind.goName)
      else .ok (m.kind.type, m)
  | .pointer m =>
      if m.kind = .rekeyInit then .error (Sentinel.messageType.wrap ("*" ++ m.kind.goName))
      else .ok (m.kind.type, m)
  | .nilPointer kind =>
      if kind = .rekeyInit then .error (Sentinel.messageType.wrap ("*" ++ kind.goName))
      else .error Sentinel.messageType.bare
  | .other typeName => .error (Sentinel.messageType.wrap typeName)

/-- `newInboundMessage`: the kind of value that a payload is decoded into. -/
def newInboundMessage (messageType : MessageType) : Except Error MessageKind :=
  if messageType = MessageType.encryptedData then .ok .encryptedData
  else if messageType = MessageType.pingPong then .ok .pingPong
  else if messageType = MessageType.sessionClose then .ok .sessionClose
  else if messageType = MessageType.ack then .ok .ack
  else if messageType = MessageType.rekeyInit then .ok .rekeyInit
  else if messageType = MessageType.error then .ok .error
  else .error (Sentinel.messageType.wrap ("0x" ++ hex02 messageType.toNat))

@[simp] theorem newInboundMessage_type (kind : MessageKind) :
    newInboundMessage kind.type = .ok kind := by
  cases kind <;> rfl

/-! ## Round trips -/

namespace EncryptedData

theorem unmarshalBinary_marshalBinary {m : EncryptedData} {data : List UInt8}
    (h : m.marshalBinary = .ok data) : unmarshalBinary data = .ok m := by
  unfold marshalBinary at h
  cases hunique : rejectDuplicateTLVs m.fields with
  | error err => simp [hunique] at h
  | ok _ =>
      cases hencode : encodeTLVs m.fields with
      | error err => simp [hunique, hencode] at h
      | ok fields =>
          simp only [hunique, hencode] at h
          split_ifs at h with hsize
          obtain rfl := Except.ok.inj h
          have hdecode : decodeTLVs fields (maxEncryptedPayloadSize - 4 : Nat) = .ok m.fields :=
            decodeTLVs_encodeTLVs hencode (.inr (by omega))
          have hstream : slice (putUint16 m.streamID ++ [m.appMessageType, 0] ++ fields) 0 2 =
              putUint16 m.streamID :=
            slice_of_eq_append [] (by simp; rfl) rfl (by simp)
          have htype : (putUint16 m.streamID ++ [m.appMessageType, 0] ++ fields).getD 2 0 =
              m.appMessageType :=
            getD_of_eq_append (putUint16 m.streamID) (by simp; rfl) (by simp)
          have hreserved : (putUint16 m.streamID ++ [m.appMessageType, 0] ++ fields).getD 3 0 = 0 :=
            getD_of_eq_append (putUint16 m.streamID ++ [m.appMessageType]) (by simp; rfl) (by simp)
          have hfields : (putUint16 m.streamID ++ [m.appMessageType, 0] ++ fields).drop 4 =
              fields :=
            drop_of_eq_append (putUint16 m.streamID ++ [m.appMessageType, 0]) rfl (by simp)
          unfold unmarshalBinary
          rw [if_neg (by simp; omega), if_neg (not_not.mpr hreserved), hfields, hdecode,
            hstream, htype]
          simp [hunique]

end EncryptedData

namespace PingPong

theorem unmarshalBinary_marshalBinary (m : PingPong) :
    unmarshalBinary m.marshalBinary = .ok m := by
  obtain ⟨isResponse, nonce⟩ := m
  cases isResponse <;> simp [unmarshalBinary, marshalBinary, pingPongSize]

end PingPong

/-- One field marshalled on its own is the sequence of that field. -/
theorem TLV.marshalBinary_eq_ok {t : TLV} {encoded : List UInt8}
    (h : t.marshalBinary = .ok encoded) (hsize : t.size ≤ maxTLVSequenceSize) :
    encodeTLVs [t] = .ok encoded := by
  have hvalue := t.value_length_lt_size
  rw [TLV.marshalBinary_of_le (by simp only [maxTLVValueSize, maxTLVSequenceSize] at *; omega),
    Except.ok.injEq] at h
  rw [encodeTLVs_eq_ok_iff, ← h]
  simpa using hsize

/-- `NewTLV` only rejects values beyond 65535 octets, which the limit for a reason excludes. -/
theorem textField_eq {text : List UInt8} (h : ¬ maxReasonSize < text.length) :
    (newTLV textTLVType text).toOption.getD ⟨0, []⟩ = ⟨textTLVType, text⟩ := by
  rw [newTLV_of_le ((Nat.not_lt.mp h).trans (by decide))]
  rfl

/-- A nonempty text survives its single field. -/
theorem unmarshalTextMessage_field {code : UInt16} {text encoded : List UInt8}
    (hutf8 : utf8Valid text = true) (hsize : text.length ≤ maxReasonSize)
    (h : TLV.marshalBinary ⟨textTLVType, text⟩ = .ok encoded) :
    unmarshalTextMessage (putUint16 code ++ encoded) = .ok (code, text) := by
  have hroom : TLV.size ⟨textTLVType, text⟩ ≤ align4 (tlvHeaderSize + maxReasonSize) := by
    simp only [TLV.size, align4]
    omega
  have hlimit : align4 (tlvHeaderSize + maxReasonSize) = 65476 := rfl
  have hencode : encodeTLVs [⟨textTLVType, text⟩] = .ok encoded :=
    TLV.marshalBinary_eq_ok h (by simp only [maxTLVSequenceSize]; omega)
  obtain ⟨hencoded, -⟩ := encodeTLVs_eq_ok_iff.mp hencode
  have hlength : encoded.length = TLV.size ⟨textTLVType, text⟩ := by simp [hencoded]
  have hdecode : decodeTLVs encoded (align4 (tlvHeaderSize + maxReasonSize) : Nat) =
      .ok [⟨textTLVType, text⟩] :=
    decodeTLVs_encodeTLVs hencode (.inr (by omega))
  have hnonempty := TLV.four_le_size ⟨textTLVType, text⟩
  have hcode : slice (putUint16 code ++ encoded) 0 2 = putUint16 code :=
    slice_of_eq_append [] rfl rfl (by simp)
  have hfield : (putUint16 code ++ encoded).drop 2 = encoded :=
    drop_of_eq_append (putUint16 code) rfl (by simp)
  unfold unmarshalTextMessage
  rw [if_neg (by rw [List.length_append, putUint16_length]; omega),
    if_neg (by rw [List.length_append, putUint16_length]; omega), hfield, hdecode, hcode]
  simp [rejectDuplicateTLVs, rejectDuplicateLoop, hutf8]

namespace SessionClose

theorem unmarshalBinary_marshalBinary {m : SessionClose} {data : List UInt8}
    (h : m.marshalBinary = .ok data) : unmarshalBinary data = .ok m := by
  unfold marshalBinary marshalTextMessage at h
  split_ifs at h with hcode hutf8 hsize hempty
  · obtain rfl := Except.ok.inj h
    obtain ⟨code, reason⟩ := m
    simp only at hempty hcode
    subst hempty
    have htext : unmarshalTextMessage (putUint16 code) = .ok (code, []) := by
      have hslice : slice (putUint16 code) 0 2 = putUint16 code := slice_all (by simp)
      unfold unmarshalTextMessage
      simp [hslice]
    simp only [unmarshalBinary, htext, if_neg hcode]
  · rw [textField_eq hsize] at h
    cases hfield : TLV.marshalBinary ⟨textTLVType, m.reason⟩ with
    | error err => simp [hfield] at h
    | ok encoded =>
        simp only [hfield, Except.ok.injEq] at h
        subst h
        rw [unmarshalBinary, unmarshalTextMessage_field hutf8 (Nat.not_lt.mp hsize) hfield]
        simp only [if_neg hcode]

end SessionClose

namespace Ack

/-- Sequence `i` starts at octet `8 * i` of the concatenation. -/
theorem readUint64_flatMap (sequences : List UInt64) (i : Nat) (hi : i < sequences.length) :
    readUint64 ((sequences.flatMap putUint64).drop (8 * i)) = sequences[i] := by
  induction sequences generalizing i with
  | nil => simp at hi
  | cons sequence sequences ih =>
      cases i with
      | zero => simp [readUint64_putUint64_append]
      | succ i =>
          have hskip : (8 * (i + 1)) = (putUint64 sequence).length + 8 * i := by
            rw [putUint64_length]
            omega
          rw [List.flatMap_cons, hskip, List.drop_length_add_append,
            ih i (by simpa using hi)]
          rfl

theorem unmarshalBinary_marshalBinary {m : Ack} {data : List UInt8}
    (h : m.marshalBinary = .ok data) : unmarshalBinary data = .ok m := by
  unfold marshalBinary at h
  split_ifs at h with hcount
  obtain rfl := Except.ok.inj h
  have hbyte : (UInt8.ofNat m.sequences.length).toNat = m.sequences.length := by
    simp only [maxAckSequences] at hcount
    rw [UInt8.toNat_ofNat', Nat.mod_eq_of_lt (by omega)]
  have hlength : (m.sequences.flatMap putUint64).length = 8 * m.sequences.length := by
    simp [List.length_flatMap, List.map_const', Nat.mul_comm]
  have hread : readAck (UInt8.ofNat m.sequences.length :: m.sequences.flatMap putUint64)
      m.sequences.length = m.sequences := by
    apply List.ext_getElem
    · simp [readAck]
    · intro i hleft hright
      simp only [readAck, List.getElem_map, List.getElem_range]
      rw [Nat.add_comm, List.drop_succ_cons, readUint64_flatMap m.sequences i hright]
  unfold unmarshalBinary
  simp only [List.length_cons, List.getD_cons_zero, hbyte, hlength, if_neg hcount, hread]
  rw [if_neg (by omega), if_neg (by simp only [ackSize]; omega)]

end Ack

namespace RekeyInit

theorem unmarshalBinary_marshalBinary {m : RekeyInit} {data : List UInt8}
    (h : m.marshalBinary = .ok data) : unmarshalBinary data = .ok m := by
  unfold marshalBinary at h
  split_ifs at h with hepoch
  obtain rfl := Except.ok.inj h
  have hconfirm := m.keyConfirm.property
  have hfirst : slice (putUint32 m.epoch ++ m.keyConfirm.val) 0 4 = putUint32 m.epoch :=
    slice_of_eq_append [] rfl rfl (by simp)
  have hrest : slice (putUint32 m.epoch ++ m.keyConfirm.val) 4 rekeyInitSize =
      m.keyConfirm.val :=
    slice_of_eq_append (putUint32 m.epoch) (by rw [List.append_nil]) (by simp)
      (by simp [hconfirm, rekeyInitSize])
  unfold unmarshalBinary
  rw [if_neg (by simp [hconfirm, rekeyInitSize])]
  simp only [hfirst, hrest, readUint32_putUint32, if_neg hepoch, Octets.copy_self]

end RekeyInit

namespace ErrorMessage

theorem unmarshalBinary_marshalBinary {m : ErrorMessage} {data : List UInt8}
    (h : m.marshalBinary = .ok data) : unmarshalBinary data = .ok m := by
  unfold marshalBinary at h
  split_ifs at h with hutf8 hsize
  obtain rfl := Except.ok.inj h
  have hcode : slice (putUint16 m.code ++ m.context) 0 2 = putUint16 m.code :=
    slice_of_eq_append [] rfl rfl (by simp)
  have hcontext : (putUint16 m.code ++ m.context).drop 2 = m.context :=
    drop_of_eq_append (putUint16 m.code) rfl (by simp)
  unfold unmarshalBinary
  rw [if_neg (by rw [List.length_append, putUint16_length]; omega), if_neg (by
    simp only [maxErrorContextSize, maxEncryptedPayloadSize, maxFrameSize, headerSize,
      aeadTagSize] at *
    simp
    omega), hcontext, if_neg (not_not.mpr hutf8), hcode]
  simp

end ErrorMessage

/-- The payload of a marshalled message decodes, under the message's own kind,
to that message. -/
theorem Message.unmarshalBinary_marshalBinary {m : Message} {data : List UInt8}
    (h : m.marshalBinary = .ok data) : m.kind.unmarshalBinary data = .ok m := by
  cases m with
  | encryptedData m =>
      simp [kind, MessageKind.unmarshalBinary, EncryptedData.unmarshalBinary_marshalBinary h,
        Except.map]
  | pingPong m =>
      obtain rfl := Except.ok.inj h
      simp [kind, MessageKind.unmarshalBinary, PingPong.unmarshalBinary_marshalBinary,
        Except.map]
  | sessionClose m =>
      simp [kind, MessageKind.unmarshalBinary, SessionClose.unmarshalBinary_marshalBinary h,
        Except.map]
  | ack m =>
      simp [kind, MessageKind.unmarshalBinary, Ack.unmarshalBinary_marshalBinary h, Except.map]
  | rekeyInit m =>
      simp [kind, MessageKind.unmarshalBinary, RekeyInit.unmarshalBinary_marshalBinary h,
        Except.map]
  | error m =>
      simp [kind, MessageKind.unmarshalBinary, ErrorMessage.unmarshalBinary_marshalBinary h,
        Except.map]

/-! ## Errors of the encoders -/

/-- The sentinels of the TLV encoder. -/
def tlvSentinels : List Sentinel :=
  [.tlvTooShort, .tlvTruncated, .tlvValueTooLarge, .tlvDecodeLimit, .tlvSequenceLimit,
    .tlvElementLimit]

/-- The sentinels of the message encoders. -/
def encoderSentinels : List Sentinel :=
  tlvSentinels ++ [.duplicateMessageTLV, .messageLength, .invalidUTF8, .reasonTooLong,
    .invalidCloseCode, .ackCount, .invalidEpoch]

theorem tlvError_kinds (failure : TlvFailure) : (tlvError failure).kinds ⊆ tlvSentinels := by
  cases failure <;> simp [tlvError, tlvSentinels, Sentinel.wrap]

theorem tlvError_kinds_encoder (failure : TlvFailure) :
    (tlvError failure).kinds ⊆ encoderSentinels :=
  List.subset_append_of_subset_left _ (tlvError_kinds failure)

theorem encodeTLVs_error {fields : List TLV} {err : Error} (h : encodeTLVs fields = .error err) :
    err.kinds ⊆ encoderSentinels := by
  unfold encodeTLVs encodedTLVsLen at h
  cases hcount : checkCount fields.length with
  | error failure =>
      obtain rfl : tlvError failure = err := by simpa [hcount] using h
      exact tlvError_kinds_encoder failure
  | ok _ =>
      cases hloop : addLenLoop 0 fields with
      | error failure =>
          obtain rfl : tlvError failure = err := by simpa [hcount, hloop] using h
          exact tlvError_kinds_encoder failure
      | ok total => simp [hcount, hloop] at h

theorem rejectDuplicateLoop_error {seen : UInt8 → Bool} {fields : List TLV} {err : Error}
    (h : rejectDuplicateLoop seen fields = .error err) : err.kinds ⊆ encoderSentinels := by
  induction fields generalizing seen with
  | nil => simp [rejectDuplicateLoop] at h
  | cons field fields ih =>
      unfold rejectDuplicateLoop at h
      split_ifs at h
      · obtain rfl := Except.error.inj h
        exact wrap_kinds_subset (by decide)
      · exact ih h

theorem EncryptedData.marshalBinary_error {m : EncryptedData} {err : Error}
    (h : m.marshalBinary = .error err) : err.kinds ⊆ encoderSentinels := by
  unfold marshalBinary at h
  cases hunique : rejectDuplicateTLVs m.fields with
  | error duplicate =>
      obtain rfl : duplicate = err := by simpa [hunique] using h
      exact rejectDuplicateLoop_error hunique
  | ok _ =>
      cases hencode : encodeTLVs m.fields with
      | error tooLong =>
          obtain rfl : tooLong = err := by simpa [hunique, hencode] using h
          exact encodeTLVs_error hencode
      | ok fields =>
          simp only [hunique, hencode] at h
          split_ifs at h
          obtain rfl := Except.error.inj h
          exact wrap_kinds_subset (by decide)

theorem SessionClose.marshalBinary_error {m : SessionClose} {err : Error}
    (h : m.marshalBinary = .error err) : err.kinds ⊆ encoderSentinels := by
  unfold marshalBinary marshalTextMessage at h
  split_ifs at h with hcode hutf8 hsize hempty
  · obtain rfl := Except.error.inj h
    exact wrap_kinds_subset (by decide)
  · obtain rfl := Except.error.inj h
    exact wrap_kinds_subset (by decide)
  · rw [textField_eq hsize] at h
    unfold TLV.marshalBinary at h
    cases hfield : tlvMarshal textTLVType m.reason with
    | error failure =>
        obtain rfl : tlvError failure = err := by simpa [hfield] using h
        exact tlvError_kinds_encoder failure
    | ok encoded => simp [hfield] at h
  · obtain rfl := Except.error.inj h
    exact bare_kinds_subset (by decide)

/-- What the encoders report: never a condition of a session. -/
theorem Message.marshalBinary_error {m : Message} {err : Error}
    (h : m.marshalBinary = .error err) : err.kinds ⊆ encoderSentinels := by
  cases m with
  | encryptedData m => exact EncryptedData.marshalBinary_error h
  | pingPong m => simp [Message.marshalBinary] at h
  | sessionClose m => exact SessionClose.marshalBinary_error h
  | ack m =>
      simp only [Message.marshalBinary, Ack.marshalBinary] at h
      split_ifs at h
      obtain rfl := Except.error.inj h
      exact wrap_kinds_subset (by decide)
  | rekeyInit m =>
      simp only [Message.marshalBinary, RekeyInit.marshalBinary] at h
      split_ifs at h
      obtain rfl := Except.error.inj h
      exact bare_kinds_subset (by decide)
  | error m =>
      simp only [Message.marshalBinary, ErrorMessage.marshalBinary] at h
      split_ifs at h
      · obtain rfl := Except.error.inj h
        exact wrap_kinds_subset (by decide)
      · obtain rfl := Except.error.inj h
        exact bare_kinds_subset (by decide)

theorem outboundMessage_error {value : AnyValue} {err : Error}
    (h : outboundMessage value = .error err) : err.kinds = [.messageType] := by
  cases value with
  | value m | pointer m =>
      simp only [outboundMessage] at h
      split_ifs at h
      obtain rfl := Except.error.inj h
      rfl
  | nilPointer kind =>
      simp only [outboundMessage] at h
      split_ifs at h
      · obtain rfl := Except.error.inj h
        rfl
      · obtain rfl := Except.error.inj h
        rfl
  | other typeName =>
      obtain rfl := Except.error.inj h
      rfl

/-- What callers may send: never a `RekeyInit`, and under the type of its kind. -/
theorem outboundMessage_eq_ok {value : AnyValue} {messageType : MessageType} {m : Message}
    (h : outboundMessage value = .ok (messageType, m)) :
    messageType = m.kind.type ∧ m.kind ≠ .rekeyInit ∧
      (value = .value m ∨ value = .pointer m) := by
  unfold outboundMessage at h
  split at h
  · split_ifs at h with hkind
    obtain ⟨rfl, rfl⟩ := Prod.mk.inj (Except.ok.inj h)
    exact ⟨rfl, hkind, .inl rfl⟩
  · split_ifs at h with hkind
    obtain ⟨rfl, rfl⟩ := Prod.mk.inj (Except.ok.inj h)
    exact ⟨rfl, hkind, .inr rfl⟩
  · split_ifs at h
  · cases h

end Wire
end DgProto
