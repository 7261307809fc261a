import DgProto.Crypto.Codec
import DgProto.Replay.Refinement
import DgProto.Wire.Messages

/-!
# Session state

A session owns a codec, a sequence counter and a key epoch for each direction,
the replay window of the receive epoch, and for a grace period the codec and
window of the previous receive epoch.

The send fields are guarded by one mutex and the receive fields by another;
`closed` is written with both held and read with either.  A method holds its
mutex from its first access to its last, and the two groups of fields are
disjoint, so concurrent calls are equivalent to running them one after another.
A method is therefore a function from the state to the next state and a result.
-/

namespace DgProto

open Library Wire Crypto Replay

/-- A clock reading, in nanoseconds. -/
abbrev Time := Int

/-- A duration, in nanoseconds. -/
abbrev Duration := Int

/-- `DefaultRekeyFrameLimit`. -/
def defaultRekeyFrameLimit : UInt64 := 4294967296
/-- `DefaultRekeyInterval`, ten minutes. -/
def defaultRekeyInterval : Duration := 600 * 1000000000
/-- `DefaultRekeyGraceFrames`. -/
def defaultRekeyGraceFrames : UInt64 := 2048
/-- `DefaultRekeyGracePeriod`, thirty seconds. -/
def defaultRekeyGracePeriod : Duration := 30 * 1000000000

/-- The zero `time.Time`. -/
def zeroTime : Time := 0

/-- `HandshakeSecrets`. -/
structure HandshakeSecrets where
  sessionID : Octets 16
  sendKey : Key
  receiveKey : Key
  deriving DecidableEq

/-- `pendingSendRekey`: an emitted `RekeyInit` and the key it announces. -/
structure PendingSendRekey where
  frame : Frame
  key : Key
  codec : Codec
  epoch : UInt32
  deriving DecidableEq

/-- `Session` without its mutexes.  The clock is not part of the state: every
call is given the readings it takes. -/
structure Session where
  sessionID : Octets 16
  suite : CipherSuite
  send : Codec
  sendKey : Key
  sendEpoch : UInt32
  nextSequence : UInt64
  sentInEpoch : UInt64
  epochStarted : Time
  rekeyFrameLimit : UInt64
  rekeyInterval : Duration
  pendingRekey : Option PendingSendRekey
  closed : Bool
  receive : Codec
  receiveKey : Key
  receiveEpoch : UInt32
  replay : ReplayWindow
  previousReceive : Option Codec
  previousReplay : ReplayWindow
  graceRemaining : UInt64
  graceUntil : Time
  graceFrames : UInt64
  gracePeriod : Duration
  deriving DecidableEq

/-- The state that `NewSession` builds around its two codecs. -/
def initialSession (suite : CipherSuite) (secrets : HandshakeSecrets) (send receive : Codec)
    (now : Time) : Session where
  sessionID := secrets.sessionID
  suite := suite
  send := send
  sendKey := secrets.sendKey
  sendEpoch := 1
  nextSequence := 1
  sentInEpoch := 0
  epochStarted := now
  rekeyFrameLimit := defaultRekeyFrameLimit
  rekeyInterval := defaultRekeyInterval
  pendingRekey := none
  closed := false
  receive := receive
  receiveKey := secrets.receiveKey
  receiveEpoch := 1
  replay := ReplayWindow.zero
  previousReceive := none
  previousReplay := ReplayWindow.zero
  graceRemaining := 0
  graceUntil := zeroTime
  graceFrames := defaultRekeyGraceFrames
  gracePeriod := defaultRekeyGracePeriod

/-- `NewSession`. -/
def newSession (P : Primitives) (suite : CipherSuite) (secrets : HandshakeSecrets)
    (now : Time) : Except Error Session :=
  if suite ≠ cipherChaCha20Poly1305 then
    .error (Sentinel.unsupportedCipher.wrap "DGProto v1 requires ChaCha20-Poly1305")
  else if secrets.sessionID = Octets.zero 16 then
    .error Sentinel.invalidSessionID.bare
  else
    match newCodec P suite secrets.sendKey.val with
    | .error err => .error err
    | .ok send =>
        match newCodec P suite secrets.receiveKey.val with
        | .error err => .error err
        | .ok receive => .ok (initialSession suite secrets send receive now)

namespace Session

/-- `Close`. -/
def close (s : Session) : Session := { s with closed := true }

/-- The fields that hold limits.  Only the package itself sets them, and no method
writes them; results are stated for all of their values. -/
structure Limits where
  rekeyFrameLimit : UInt64
  rekeyInterval : Duration
  graceFrames : UInt64
  gracePeriod : Duration

/-- The session with other limits. -/
def withLimits (s : Session) (limits : Limits) : Session :=
  { s with
    rekeyFrameLimit := limits.rekeyFrameLimit
    rekeyInterval := limits.rekeyInterval
    graceFrames := limits.graceFrames
    gracePeriod := limits.gracePeriod }

end Session

/-- `validSessionMessageType`. -/
def validSessionMessageType (messageType : MessageType) : Bool :=
  MessageType.encryptedData ≤ messageType && messageType ≤ MessageType.error

/-- A new session starts both directions at the first key of their chain. -/
theorem newSession_eq_ok {P : Primitives} {suite : CipherSuite} {secrets : HandshakeSecrets}
    {now : Time} {s : Session} (h : newSession P suite secrets now = .ok s) :
    suite = cipherChaCha20Poly1305 ∧ secrets.sessionID ≠ Octets.zero 16 ∧
      s = initialSession suite secrets ⟨secrets.sendKey⟩ ⟨secrets.receiveKey⟩ now := by
  unfold newSession at h
  split_ifs at h with hsuite hsession
  split at h
  · cases h
  · rename_i send hsend
    split at h
    · cases h
    · rename_i receive hreceive
      obtain ⟨-, rfl⟩ := newCodec_eq_ok hsend
      obtain ⟨-, rfl⟩ := newCodec_eq_ok hreceive
      exact ⟨not_not.mp hsuite, hsession, (Except.ok.inj h).symm⟩

/-- Any secrets with a nonzero session ID open a session. -/
theorem newSession_of_new {P : Primitives} (hnew : P.NewSucceeds) {secrets : HandshakeSecrets}
    (hsession : secrets.sessionID ≠ Octets.zero 16) (now : Time) :
    newSession P cipherChaCha20Poly1305 secrets now =
      .ok (initialSession cipherChaCha20Poly1305 secrets ⟨secrets.sendKey⟩
        ⟨secrets.receiveKey⟩ now) := by
  simp [newSession, hsession, newCodec_of_new hnew]

/-- Secrets for runs over the transparent primitives. -/
def sampleSecrets : HandshakeSecrets :=
  ⟨⟨List.replicate 16 1, rfl⟩, counterKey 0, counterKey (2 ^ 32)⟩

theorem newSession_sample :
    newSession transparent cipherChaCha20Poly1305 sampleSecrets 0 =
      .ok (initialSession cipherChaCha20Poly1305 sampleSecrets ⟨sampleSecrets.sendKey⟩
        ⟨sampleSecrets.receiveKey⟩ 0) :=
  newSession_of_new transparent_newSucceeds (by decide) 0

end DgProto
