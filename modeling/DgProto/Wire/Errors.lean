import Mathlib.Tactic.Common

/-!
# Error values

The library's errors are package-level sentinels, returned bare or wrapped with
`fmt.Errorf`.  An `Error` keeps what a caller can observe of one: the sentinels
that `errors.Is` finds in it and its message text.
-/

namespace DgProto

/-- The sentinel error variables, and the standard library's own sentinels that
the modelled code returns or wraps. -/
inductive Sentinel where
  | frameTooShort
  | frameLengthMismatch
  | payloadTooLarge
  | tagLength
  | paddingLength
  | headerTooShort
  | invalidMagic
  | unsupportedVersion
  | reservedFlags
  | paddingFlag
  | frameTooLarge
  | messageTooShort
  | messageLength
  | messageReserved
  | invalidNoisePattern
  | handshakeAlignment
  | unexpectedNoiseData
  | invalidPingResponse
  | ackCount
  | invalidUTF8
  | reasonTooLong
  | unknownMessageTLV
  | duplicateMessageTLV
  | invalidCloseCode
  | tlvTooShort
  | tlvTruncated
  | tlvValueTooLarge
  | tlvDecodeLimit
  | tlvSequenceLimit
  | tlvElementLimit
  | invalidKeySize
  | unsupportedCipher
  | unencryptedType
  | invalidSequence
  | invalidSessionID
  | authentication
  | invalidEpoch
  | epochExhausted
  | keyConfirmFailed
  | replayZero
  | replayDuplicate
  | replayTooOld
  | replayStale
  | sessionClosed
  | wrongSession
  | sequenceExhausted
  | messageType
  | rekeyPending
  | transportFrameTooShort
  | transportFrameTooLarge
  | transportClosed
  | connectionClosed
  | idleTimeout
  | keepaliveTimeout
  | outboundQueueFull
  | handlerQueueFull
  | handlerPanic
  | invalidStaticKey
  | handshake
  | handshakeFailed
  | clientNotPermitted
  | invalidClientConfig
  | serverClosed
  | contextCanceled
  | contextDeadlineExceeded
  | ioEOF
  | ioUnexpectedEOF
  | ioShortWrite
  deriving DecidableEq, Repr

/-- The message of each sentinel. -/
def Sentinel.text : Sentinel → String
  | .frameTooShort => "dgproto: frame too short"
  | .frameLengthMismatch => "dgproto: frame length does not match header"
  | .payloadTooLarge => "dgproto: payload exceeds maximum frame size"
  | .tagLength => "dgproto: AEAD tag must be 16 bytes"
  | .paddingLength => "dgproto: padding length exceeds 255 bytes"
  | .headerTooShort => "dgproto: header too short"
  | .invalidMagic => "dgproto: invalid magic"
  | .unsupportedVersion => "dgproto: unsupported version"
  | .reservedFlags => "dgproto: reserved flag bits set"
  | .paddingFlag => "dgproto: padding flag does not match pad length"
  | .frameTooLarge => "dgproto: frame exceeds maximum size"
  | .messageTooShort => "dgproto: message payload too short"
  | .messageLength => "dgproto: invalid message payload length"
  | .messageReserved => "dgproto: reserved message field must be zero"
  | .invalidNoisePattern => "dgproto: invalid Noise pattern"
  | .handshakeAlignment => "dgproto: handshake payload must be 4-byte aligned"
  | .unexpectedNoiseData => "dgproto: Noise XX initial payload must be empty"
  | .invalidPingResponse => "dgproto: invalid ping response flag"
  | .ackCount => "dgproto: acknowledgement count must be between 1 and 255"
  | .invalidUTF8 => "dgproto: text is not valid UTF-8"
  | .reasonTooLong => "dgproto: reason exceeds maximum length"
  | .unknownMessageTLV => "dgproto: unknown message TLV"
  | .duplicateMessageTLV => "dgproto: duplicate message TLV"
  | .invalidCloseCode => "dgproto: invalid close code"
  | .tlvTooShort => "dgproto: TLV too short"
  | .tlvTruncated => "dgproto: truncated TLV"
  | .tlvValueTooLarge => "dgproto: TLV value exceeds uint16 length"
  | .tlvDecodeLimit => "dgproto: TLV input exceeds decode limit"
  | .tlvSequenceLimit => "dgproto: TLV sequence exceeds size limit"
  | .tlvElementLimit => "dgproto: TLV sequence exceeds element limit"
  | .invalidKeySize => "dgproto: invalid key size"
  | .unsupportedCipher => "dgproto: unsupported cipher suite"
  | .unencryptedType => "dgproto: message type is not encrypted data"
  | .invalidSequence => "dgproto: encrypted frame sequence must be nonzero"
  | .invalidSessionID => "dgproto: encrypted frame session ID must be nonzero"
  | .authentication => "dgproto: authentication failed"
  | .invalidEpoch => "dgproto: invalid rekey epoch"
  | .epochExhausted => "dgproto: rekey epoch exhausted"
  | .keyConfirmFailed => "dgproto: rekey confirmation failed"
  | .replayZero => "dgproto: sequence number is zero"
  | .replayDuplicate => "dgproto: duplicate sequence number"
  | .replayTooOld => "dgproto: sequence number is outside replay window"
  | .replayStale => "dgproto: stale replay commit token"
  | .sessionClosed => "dgproto: session is closed"
  | .wrongSession => "dgproto: frame belongs to another session"
  | .sequenceExhausted => "dgproto: send sequence exhausted"
  | .messageType => "dgproto: message does not match encrypted frame type"
  | .rekeyPending => "dgproto: rekey frame has not been marked sent"
  | .transportFrameTooShort => "dgproto: transport frame too short"
  | .transportFrameTooLarge => "dgproto: transport frame too large"
  | .transportClosed => "dgproto: transport closed"
  | .connectionClosed => "dgproto: connection closed"
  | .idleTimeout => "dgproto: connection idle timeout"
  | .keepaliveTimeout => "dgproto: keepalive timeout"
  | .outboundQueueFull => "dgproto: outbound queue full"
  | .handlerQueueFull => "dgproto: handler queue full"
  | .handlerPanic => "dgproto: handler panic"
  | .invalidStaticKey => "dgproto: invalid static key"
  | .handshake => "dgproto: handshake failed"
  | .handshakeFailed => "dgproto: handshake failed"
  | .clientNotPermitted => "dgproto: client static key not permitted"
  | .invalidClientConfig => "dgproto: invalid client config"
  | .serverClosed => "dgproto: server closed"
  | .contextCanceled => "context canceled"
  | .contextDeadlineExceeded => "context deadline exceeded"
  | .ioEOF => "EOF"
  | .ioUnexpectedEOF => "unexpected EOF"
  | .ioShortWrite => "short write"

/-- What a caller observes of an error value. -/
structure Error where
  /-- The sentinels that `errors.Is` reports. -/
  kinds : List Sentinel
  /-- The result of the value's `Error` method. -/
  text : String
  deriving DecidableEq, Repr

namespace Sentinel

/-- The sentinel returned as it is. -/
def bare (sentinel : Sentinel) : Error :=
  ⟨[sentinel], sentinel.text⟩

/-- `fmt.Errorf("%w: ...", sentinel, ...)`. -/
def wrap (sentinel : Sentinel) (detail : String) : Error :=
  ⟨[sentinel], sentinel.text ++ ": " ++ detail⟩

/-- `fmt.Errorf("%w: %w", sentinel, err)`. -/
def wrapBoth (sentinel : Sentinel) (err : Error) : Error :=
  ⟨sentinel :: err.kinds, sentinel.text ++ ": " ++ err.text⟩

end Sentinel

/-- An error value of another package, which wraps none of the sentinels. -/
def Error.foreign (text : String) : Error :=
  ⟨[], text⟩

/-- `errors.Is`. -/
def Error.is (err : Error) (sentinel : Sentinel) : Prop :=
  sentinel ∈ err.kinds

instance (err : Error) (sentinel : Sentinel) : Decidable (err.is sentinel) :=
  inferInstanceAs (Decidable (sentinel ∈ err.kinds))

@[simp] theorem bare_inj (s t : Sentinel) : s.bare = t.bare ↔ s = t := by
  constructor
  · intro h
    have hkinds := congrArg Error.kinds h
    exact List.head_eq_of_cons_eq hkinds
  · rintro rfl
    rfl

@[simp] theorem bare_is (s t : Sentinel) : s.bare.is t ↔ t = s := by
  simp [Sentinel.bare, Error.is]

@[simp] theorem wrap_is (s t : Sentinel) (detail : String) :
    (s.wrap detail).is t ↔ t = s := by
  simp [Sentinel.wrap, Error.is]

@[simp] theorem wrapBoth_is (s t : Sentinel) (err : Error) :
    (s.wrapBoth err).is t ↔ t = s ∨ err.is t := by
  simp [Sentinel.wrapBoth, Error.is]

theorem bare_kinds_subset {sentinel : Sentinel} {kinds : List Sentinel} (h : sentinel ∈ kinds) :
    sentinel.bare.kinds ⊆ kinds :=
  List.forall_mem_singleton.mpr h

theorem wrap_kinds_subset {sentinel : Sentinel} {kinds : List Sentinel} {detail : String}
    (h : sentinel ∈ kinds) : (sentinel.wrap detail).kinds ⊆ kinds :=
  List.forall_mem_singleton.mpr h

/-- An error that reports only sentinels of a list reports no other one. -/
theorem Error.not_is_of_subset {err : Error} {kinds : List Sentinel} (h : err.kinds ⊆ kinds)
    {sentinel : Sentinel} (hnot : sentinel ∉ kinds) : ¬ err.is sentinel :=
  fun his => hnot (h his)

/-- The `%02x` verb. -/
def hex02 (n : Nat) : String :=
  let digits := String.ofList (Nat.toDigits 16 n)
  if digits.length < 2 then "0" ++ digits else digits

/-- The `%04x` verb. -/
def hex04 (n : Nat) : String :=
  let digits := Nat.toDigits 16 n
  String.ofList (List.replicate (4 - digits.length) '0' ++ digits)

end DgProto
