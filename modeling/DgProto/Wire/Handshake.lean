import DgProto.Wire.Frame

/-!
# Handshake wrappers

The outer wrappers around the three messages of a Noise XX handshake.  The first
names the pattern and reserves three octets in front of the 32-octet ephemeral key;
the second is an ephemeral key and 64 octets; the third is 64 octets as they are.
Each wrapper gives back the octets that were put in it.
-/

namespace DgProto
namespace Wire

open Library

/-- The octet that identifies a Noise pattern; every value can arrive. -/
abbrev NoisePattern := UInt8

/-- `NoisePatternXX`. -/
def noisePatternXX : NoisePattern := 1

/-- `HandshakeInitFixedSize`. -/
def handshakeInitFixedSize : Nat := 36
/-- `HandshakeResponseFixedSize`, the size of the ephemeral key. -/
def handshakeResponseFixedSize : Nat := 32
/-- `HandshakeFinishFixedSize`. -/
def handshakeFinishFixedSize : Nat := 64
/-- `MaxHandshakePayloadSize`: a handshake frame has no tag. -/
def maxHandshakePayloadSize : Nat := maxFrameSize - headerSize

/-- `HandshakeInit`, the wrapper of Noise message 1. -/
structure HandshakeInit where
  pattern : NoisePattern
  clientEphemeral : Octets 32
  noisePayload : List UInt8
  deriving DecidableEq

/-- `HandshakeResponse`, the wrapper of Noise message 2. -/
structure HandshakeResponse where
  serverEphemeral : Octets 32
  noisePayload : List UInt8
  deriving DecidableEq

/-- `HandshakeFinish`, the wrapper of Noise message 3. -/
structure HandshakeFinish where
  noisePayload : List UInt8
  deriving DecidableEq

/-! ## HandshakeInit -/

namespace HandshakeInit

/-- The error for every pattern but XX. -/
def patternError (pattern : NoisePattern) : Error :=
  Sentinel.invalidNoisePattern.wrap
    ("DGProto v1 MVP requires Noise XX, got 0x" ++ hex02 pattern.toNat)

/-- `HandshakeInit.MarshalBinary`. -/
def marshalBinary (m : HandshakeInit) : Except Error (List UInt8) :=
  let total := handshakeInitFixedSize + m.noisePayload.length
  if m.pattern ≠ noisePatternXX then
    .error (patternError m.pattern)
  else if m.noisePayload.length ≠ 0 then
    .error Sentinel.unexpectedNoiseData.bare
  else if maxHandshakePayloadSize < total then
    .error (Sentinel.messageLength.wrap s!"got {total}, limit {maxHandshakePayloadSize}")
  else if total % 4 ≠ 0 then
    .error Sentinel.handshakeAlignment.bare
  else
    .ok ([m.pattern, 0, 0, 0] ++ (m.clientEphemeral.val ++ m.noisePayload))

/-- `HandshakeInit.UnmarshalBinary`. -/
def unmarshalBinary (data : List UInt8) : Except Error HandshakeInit :=
  let got := data.length
  if data.length < handshakeInitFixedSize then
    .error (Sentinel.messageTooShort.wrap s!"got {got}, want at least {handshakeInitFixedSize}")
  else if maxHandshakePayloadSize < data.length then
    .error (Sentinel.messageLength.wrap s!"got {got}, limit {maxHandshakePayloadSize}")
  else if data.length % 4 ≠ 0 then
    .error Sentinel.handshakeAlignment.bare
  else
    let pattern := data.getD 0 0
    if pattern ≠ noisePatternXX then
      .error (patternError pattern)
    else if data.getD 1 0 ≠ 0 ∨ data.getD 2 0 ≠ 0 ∨ data.getD 3 0 ≠ 0 then
      .error Sentinel.messageReserved.bare
    else if data.length ≠ handshakeInitFixedSize then
      .error Sentinel.unexpectedNoiseData.bare
    else
      .ok
        { pattern := pattern
          clientEphemeral := Octets.copy 32 (slice data 4 36)
          noisePayload := data.drop 36 }

/-- The layout of the wrapper of an ephemeral key. -/
theorem marshalBinary_ephemeral (ephemeral : Octets 32) :
    marshalBinary ⟨noisePatternXX, ephemeral, []⟩ =
      .ok ([noisePatternXX, 0, 0, 0] ++ ephemeral.val) := by
  have hroom : ¬ maxHandshakePayloadSize < handshakeInitFixedSize + 0 := by decide
  have haligned : (handshakeInitFixedSize + 0) % 4 = 0 := by decide
  simp only [marshalBinary, List.length_nil, ne_eq, not_true_eq_false, if_false, hroom, haligned,
    List.append_nil]

/-- The wrapper of an ephemeral key is decoded to that key. -/
theorem unmarshalBinary_ephemeral (ephemeral : Octets 32) :
    unmarshalBinary ([noisePatternXX, 0, 0, 0] ++ ephemeral.val) =
      .ok ⟨noisePatternXX, ephemeral, []⟩ := by
  have hlength : ([noisePatternXX, 0, 0, 0] ++ ephemeral.val).length = 36 := by
    simp [ephemeral.property]
  have hlayout : [noisePatternXX, 0, 0, 0] ++ ephemeral.val =
      [noisePatternXX, 0, 0, 0] ++ (ephemeral.val ++ []) := by
    rw [List.append_nil]
  have hephemeral : slice ([noisePatternXX, 0, 0, 0] ++ ephemeral.val) 4 36 = ephemeral.val :=
    slice_of_eq_append _ hlayout rfl (by simp [ephemeral.property])
  have hrest : ([noisePatternXX, 0, 0, 0] ++ ephemeral.val).drop 36 = [] :=
    List.drop_of_length_le (by omega)
  unfold unmarshalBinary
  simp only [hlength, hephemeral, hrest, Octets.copy_self]
  rfl

end HandshakeInit

/-! ## HandshakeResponse -/

namespace HandshakeResponse

/-- The error for every size but 96. -/
def sizeError (got : Nat) : Error :=
  Sentinel.messageLength.wrap s!"got {got}, want {handshakeResponseFixedSize + 64}"

/-- `HandshakeResponse.MarshalBinary`. -/
def marshalBinary (m : HandshakeResponse) : Except Error (List UInt8) :=
  let total := handshakeResponseFixedSize + m.noisePayload.length
  if total ≠ handshakeResponseFixedSize + 64 then
    .error (sizeError total)
  else
    .ok (m.serverEphemeral.val ++ m.noisePayload)

/-- `HandshakeResponse.UnmarshalBinary`. -/
def unmarshalBinary (data : List UInt8) : Except Error HandshakeResponse :=
  if data.length ≠ handshakeResponseFixedSize + 64 then
    .error (sizeError data.length)
  else
    .ok
      { serverEphemeral := Octets.copy 32 (slice data 0 32)
        noisePayload := data.drop 32 }

theorem marshalBinary_of_length {m : HandshakeResponse} (h : m.noisePayload.length = 64) :
    m.marshalBinary = .ok (m.serverEphemeral.val ++ m.noisePayload) := by
  simp [marshalBinary, h]

theorem unmarshalBinary_append {m : HandshakeResponse} (h : m.noisePayload.length = 64) :
    unmarshalBinary (m.serverEphemeral.val ++ m.noisePayload) = .ok m := by
  have hephemeral := m.serverEphemeral.property
  have hslice : slice (m.serverEphemeral.val ++ m.noisePayload) 0 32 = m.serverEphemeral.val :=
    slice_of_eq_append [] rfl rfl (by simp [hephemeral])
  have hdrop : (m.serverEphemeral.val ++ m.noisePayload).drop 32 = m.noisePayload :=
    drop_of_eq_append m.serverEphemeral.val rfl hephemeral
  unfold unmarshalBinary
  rw [if_neg (by simp [hephemeral, h, handshakeResponseFixedSize]), hslice, hdrop,
    Octets.copy_self]

end HandshakeResponse

/-! ## HandshakeFinish -/

namespace HandshakeFinish

/-- The error for every size but 64. -/
def sizeError (got : Nat) : Error :=
  Sentinel.messageLength.wrap s!"got {got}, want {handshakeFinishFixedSize}"

/-- `HandshakeFinish.MarshalBinary`. -/
def marshalBinary (m : HandshakeFinish) : Except Error (List UInt8) :=
  if m.noisePayload.length ≠ handshakeFinishFixedSize then
    .error (sizeError m.noisePayload.length)
  else
    .ok m.noisePayload

/-- `HandshakeFinish.UnmarshalBinary`. -/
def unmarshalBinary (data : List UInt8) : Except Error HandshakeFinish :=
  if data.length ≠ handshakeFinishFixedSize then
    .error (sizeError data.length)
  else
    .ok ⟨data⟩

theorem marshalBinary_of_length {m : HandshakeFinish}
    (h : m.noisePayload.length = handshakeFinishFixedSize) :
    m.marshalBinary = .ok m.noisePayload := by
  simp [marshalBinary, h]

theorem unmarshalBinary_of_length {data : List UInt8}
    (h : data.length = handshakeFinishFixedSize) : unmarshalBinary data = .ok ⟨data⟩ := by
  simp [unmarshalBinary, h]

end HandshakeFinish

end Wire
end DgProto
