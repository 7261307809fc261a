import Mathlib.Data.List.GetD
import DgProto.Library.Octets
import DgProto.Wire.Errors

/-!
# The 40-byte frame header

The fixed DGProto v1 header, its two validation modes and its wire codec.
`putHeader` and `readHeader` are the primitive octet codecs; `marshalBinary`
and `unmarshalBinary` add the protocol checks around them.

The main results say that the octet codec is lossless in both directions
(`readHeader_putHeader`, `putHeader_readHeader`), so re-encoding a received
header reproduces the received octets, reserved ones included.
-/

namespace DgProto
namespace Wire

open Library

/-- `wire.HeaderSize`. -/
def headerSize : Nat := 40
/-- `wire.Version`. -/
def version : UInt8 := 1
/-- `wire.AEADTagSize`. -/
def aeadTagSize : Nat := 16
/-- `wire.MaxFrameSize`. -/
def maxFrameSize : Nat := 65535

/-- The fixed plaintext prefix `DGP1`. -/
def magic : Octets 4 := ⟨[0x44, 0x47, 0x50, 0x31], rfl⟩

/-- `FlagPadding`, the only flag of the MVP profile. -/
def flagPadding : UInt8 := 2

/-- The octet that identifies the payload of a frame; every value can arrive. -/
abbrev MessageType := UInt8

namespace MessageType

def handshakeInit : MessageType := 0x01
def handshakeResponse : MessageType := 0x02
def encryptedData : MessageType := 0x03
def pingPong : MessageType := 0x04
def sessionClose : MessageType := 0x05
def ack : MessageType := 0x06
def resumptionTicket : MessageType := 0x07
def rekeyInit : MessageType := 0x08
def error : MessageType := 0x09

end MessageType

/-- A frame header.  `reserved` keeps the received octets 7 and 37..39. -/
structure Header where
  version : UInt8
  flags : UInt8
  messageType : MessageType
  reserved : Octets 4
  sessionID : Octets 16
  sequence : UInt64
  payloadLength : UInt32
  padLength : UInt8
  deriving DecidableEq

/-- `NewHeader`. -/
def newHeader (messageType : MessageType) (sessionID : Octets 16)
    (sequence : UInt64) (payloadLength : UInt32) (padLength : UInt8) : Header where
  version := version
  flags := if padLength ≠ 0 then flagPadding else 0
  messageType := messageType
  reserved := Octets.zero 4
  sessionID := sessionID
  sequence := sequence
  payloadLength := payloadLength
  padLength := padLength

/-! ## Primitive octet codec -/

/-- `wire.Header`: the transient octet view, with the magic as a field. -/
structure RawHeader where
  magic : Octets 4
  version : UInt8
  flags : UInt8
  messageType : UInt8
  reserved : Octets 4
  sessionID : Octets 16
  sequence : UInt64
  payloadLength : UInt32
  padLength : UInt8
  deriving DecidableEq

/-- `wire.PutHeader`: overwrite the first 40 octets of `dst`. -/
def putHeader (dst : List UInt8) (h : RawHeader) : List UInt8 :=
  h.magic.val ++ ([h.version, h.flags, h.messageType] ++ (h.reserved.val.take 1 ++
    (h.sessionID.val ++ (putUint64 h.sequence ++ (putUint32 h.payloadLength ++
      ([h.padLength] ++ (h.reserved.val.drop 1 ++ dst.drop headerSize)))))))

/-- `wire.ReadHeader`: read the first 40 octets of `src`. -/
def readHeader (src : List UInt8) : RawHeader where
  magic := Octets.copy 4 (slice src 0 4)
  version := src.getD 4 0
  flags := src.getD 5 0
  messageType := src.getD 6 0
  reserved := Octets.copy 4 [src.getD 7 0, src.getD 37 0, src.getD 38 0, src.getD 39 0]
  sequence := readUint64 (slice src 24 32)
  payloadLength := readUint32 (slice src 32 36)
  padLength := src.getD 36 0
  sessionID := Octets.copy 16 (slice src 8 24)

@[simp] theorem putHeader_length {dst : List UInt8} (h : RawHeader)
    (hdst : dst.length = headerSize) : (putHeader dst h).length = headerSize := by
  have h1 := h.magic.property
  have h2 := h.reserved.property
  have h3 := h.sessionID.property
  simp [putHeader, h1, h2, h3, hdst, headerSize]

private theorem octets_four_eq (o : Octets 4) :
    ∃ a b c d, o = ⟨[a, b, c, d], rfl⟩ := by
  obtain ⟨l, hl⟩ := o
  match l, hl with
  | [a, b, c, d], _ => exact ⟨a, b, c, d, rfl⟩

/-- Reading back a written header recovers every field. -/
theorem readHeader_putHeader (dst : List UInt8) (h : RawHeader) :
    readHeader (putHeader dst h) = h := by
  obtain ⟨mag, ver, flg, typ, res, sid, sqn, pay, pad⟩ := h
  obtain ⟨m0, m1, m2, m3, rfl⟩ := octets_four_eq mag
  obtain ⟨r0, r1, r2, r3, rfl⟩ := octets_four_eq res
  have hsid : sid.val.length = 16 := sid.property
  let front := [m0, m1, m2, m3, ver, flg, typ, r0] ++ sid.val
  let lengths := putUint64 sqn ++ putUint32 pay
  let rest := dst.drop headerSize
  generalize hsource : putHeader dst _ = source
  have hfull : source = front ++ (lengths ++ (pad :: r1 :: r2 :: r3 :: rest)) := by
    simp [← hsource, putHeader, front, lengths, rest]
  have hfront : front.length = 24 := by simp [front, hsid]
  have hlengths : (front ++ lengths).length = 36 := by simp [hfront, lengths]
  have hmagic : slice source 0 4 = [m0, m1, m2, m3] :=
    slice_of_eq_append [] hfull rfl rfl
  have hsession : slice source 8 24 = sid.val :=
    slice_of_eq_append [m0, m1, m2, m3, ver, flg, typ, r0] hfull rfl
      (by simp [hsid])
  have hsequence : slice source 24 32 = putUint64 sqn :=
    slice_of_eq_append front (by simpa [lengths] using hfull) hfront
      (by simp [hfront])
  have hpayload : slice source 32 36 = putUint32 pay :=
    slice_of_eq_append (front ++ putUint64 sqn)
      (by simpa [lengths] using hfull) (by simp [hfront]) (by simp [hfront])
  have hpad : source.getD 36 0 = pad :=
    getD_of_eq_append (front ++ lengths) (by simpa using hfull) hlengths
  have hr1 : source.getD 37 0 = r1 :=
    getD_of_eq_append (front ++ lengths ++ [pad]) (by simpa using hfull)
      (by simp only [List.length_append, hlengths, List.length_singleton])
  have hr2 : source.getD 38 0 = r2 :=
    getD_of_eq_append (front ++ lengths ++ [pad, r1]) (by simpa using hfull)
      (by rw [List.length_append, hlengths]; rfl)
  have hr3 : source.getD 39 0 = r3 :=
    getD_of_eq_append (front ++ lengths ++ [pad, r1, r2])
      (by simpa using hfull) (by rw [List.length_append, hlengths]; rfl)
  have hhead : source.getD 4 0 = ver ∧ source.getD 5 0 = flg ∧
      source.getD 6 0 = typ ∧ source.getD 7 0 = r0 := by
    rw [hfull]
    exact ⟨rfl, rfl, rfl, rfl⟩
  obtain ⟨hver, hflg, htyp, hr0⟩ := hhead
  simp only [readHeader, hmagic, hsession, hsequence, hpayload, hpad, hr1, hr2, hr3,
    hver, hflg, htyp, hr0, readUint64_putUint64, readUint32_putUint32,
    Octets.copy_self, RawHeader.mk.injEq, true_and, and_true]
  exact ⟨rfl, rfl⟩

private theorem slice_four (source : List UInt8) (i : Nat) (h : i + 4 ≤ source.length) :
    slice source i (i + 4) = [source.getD i 0, source.getD (i + 1) 0,
      source.getD (i + 2) 0, source.getD (i + 3) 0] := by
  rw [List.getD_eq_getElem _ _ (by omega), List.getD_eq_getElem _ _ (by omega),
    List.getD_eq_getElem _ _ (by omega), List.getD_eq_getElem _ _ (by omega)]
  apply List.ext_getElem
  · simp [slice_length h]
  · intro k hk _
    rw [slice_length h] at hk
    obtain rfl | rfl | rfl | rfl : k = 0 ∨ k = 1 ∨ k = 2 ∨ k = 3 := by omega
    all_goals simp [slice]

/-- Writing a read header reproduces the 40 octets it was read from. -/
theorem putHeader_readHeader {dst src : List UInt8} (hdst : dst.length = headerSize)
    (hsrc : src.length = headerSize) : putHeader dst (readHeader src) = src := by
  have hlen : src.length = 40 := hsrc
  have hfront : [(readHeader src).version, (readHeader src).flags,
      (readHeader src).messageType] ++ (readHeader src).reserved.val.take 1 =
      slice src 4 8 := (slice_four src 4 (by omega)).symm
  have hback : [(readHeader src).padLength] ++ (readHeader src).reserved.val.drop 1 =
      slice src 36 40 := (slice_four src 36 (by omega)).symm
  have hmagic : (readHeader src).magic.val = slice src 0 4 :=
    Octets.copy_val (slice_length (by omega))
  have hsession : (readHeader src).sessionID.val = slice src 8 24 :=
    Octets.copy_val (slice_length (by omega))
  have hsequence : putUint64 (readHeader src).sequence = slice src 24 32 :=
    putUint64_readUint64 (slice_length (by omega))
  have hpayload : putUint32 (readHeader src).payloadLength = slice src 32 36 :=
    putUint32_readUint32 (slice_length (by omega))
  calc putHeader dst (readHeader src)
      = slice src 0 4 ++ (slice src 4 8 ++ (slice src 8 24 ++ (slice src 24 32 ++
          (slice src 32 36 ++ slice src 36 40)))) := by
        have hroom : dst.drop headerSize = [] := List.drop_of_length_le (by omega)
        rw [← hfront, ← hback, ← hmagic, ← hsession, ← hsequence, ← hpayload]
        simp [putHeader, hroom]
    _ = slice src 0 40 := by
        rw [slice_append_slice src (by omega) (by omega),
          slice_append_slice src (by omega) (by omega),
          slice_append_slice src (by omega) (by omega),
          slice_append_slice src (by omega) (by omega),
          slice_append_slice src (by omega) (by omega)]
    _ = src := slice_all (by omega)

/-! ## Validation and the header codec -/

namespace Header

/-- `hasAEADTag`: every type but the two handshake types carries a tag. -/
def hasAEADTag (h : Header) : Bool :=
  h.messageType != MessageType.handshakeInit &&
    h.messageType != MessageType.handshakeResponse

/-- `FrameSize`.  The `uint64` sum of the source cannot overflow. -/
def frameSize (h : Header) : Nat :=
  headerSize + h.payloadLength.toNat + h.padLength.toNat +
    (if h.hasAEADTag then aeadTagSize else 0)

/-- `validateCommon`. -/
def validateCommon (h : Header) : Except Error Unit :=
  if h.version ≠ Wire.version then
    let got := h.version
    let want := Wire.version
    .error (Sentinel.unsupportedVersion.wrap s!"got {got}, want {want}")
  else if (h.flags &&& flagPadding != 0) ≠ (h.padLength != 0) then
    .error Sentinel.paddingFlag.bare
  else if maxFrameSize < h.frameSize then
    let size := h.frameSize
    .error (Sentinel.frameTooLarge.wrap s!"{size} bytes")
  else
    .ok ()

/-- `Validate`: the canonical form senders must use. -/
def validate (h : Header) : Except Error Unit :=
  match h.validateCommon with
  | .error err => .error err
  | .ok () =>
      if h.flags &&& ~~~flagPadding ≠ 0 then
        let bits := hex02 (h.flags &&& ~~~flagPadding).toNat
        .error (Sentinel.reservedFlags.wrap s!"0x{bits}")
      else if h.reserved ≠ Octets.zero 4 then
        .error (Sentinel.reservedFlags.wrap "reserved header bytes are nonzero")
      else
        .ok ()

/-- `ValidateReceive`: unknown flag bits and reserved octets are tolerated. -/
def validateReceive (h : Header) : Except Error Unit :=
  h.validateCommon

/-- The octet view that `marshalBinary` hands to `wire.PutHeader`. -/
def raw (h : Header) : RawHeader where
  magic := magic
  version := h.version
  flags := h.flags
  messageType := h.messageType
  reserved := h.reserved
  sessionID := h.sessionID
  sequence := h.sequence
  payloadLength := h.payloadLength
  padLength := h.padLength

/-- The 40 octets of a header. -/
def octets (h : Header) : List UInt8 :=
  putHeader (List.replicate headerSize 0) h.raw

/-- `marshalBinary`. -/
def marshalBinary (h : Header) (validateSend : Bool) : Except Error (List UInt8) :=
  match (if validateSend then h.validate else h.validateReceive) with
  | .error err => .error err
  | .ok () => .ok h.octets

/-- `UnmarshalBinary`. -/
def unmarshalBinary (data : List UInt8) : Except Error Header :=
  if data.length < headerSize then
    let got := data.length
    .error (Sentinel.headerTooShort.wrap s!"got {got} bytes, want {headerSize}")
  else if slice data 0 4 ≠ magic.val then
    .error Sentinel.invalidMagic.bare
  else if data.getD 4 0 ≠ Wire.version then
    let got := data.getD 4 0
    let want := Wire.version
    .error (Sentinel.unsupportedVersion.wrap s!"got {got}, want {want}")
  else
    let raw := readHeader data
    let decoded : Header :=
      { version := raw.version
        flags := raw.flags
        messageType := raw.messageType
        reserved := raw.reserved
        sessionID := raw.sessionID
        sequence := raw.sequence
        payloadLength := raw.payloadLength
        padLength := raw.padLength }
    match decoded.validateReceive with
    | .error err => .error err
    | .ok () => .ok decoded

/-- The checks both validation modes share, as one proposition. -/
structure Common (h : Header) : Prop where
  version : h.version = Wire.version
  padding : (h.flags &&& flagPadding != 0) = (h.padLength != 0)
  size : h.frameSize ≤ maxFrameSize

theorem validateCommon_eq_ok_iff (h : Header) :
    h.validateCommon = .ok () ↔ h.Common := by
  unfold validateCommon
  constructor
  · intro hok
    split at hok
    · cases hok
    · split at hok
      · cases hok
      · split at hok
        · cases hok
        · exact ⟨by simp_all, by simp_all, by omega⟩
  · rintro ⟨hversion, hpadding, hsize⟩
    rw [if_neg (by simp [hversion]), if_neg (by simp [hpadding]), if_neg (by omega)]

theorem validateReceive_eq_ok_iff (h : Header) :
    h.validateReceive = .ok () ↔ h.Common :=
  validateCommon_eq_ok_iff h

/-- Sender form: the shared checks, no flag but padding, no reserved octet. -/
theorem validate_eq_ok_iff (h : Header) :
    h.validate = .ok () ↔
      h.Common ∧ h.flags &&& ~~~flagPadding = 0 ∧ h.reserved = Octets.zero 4 := by
  rw [← validateCommon_eq_ok_iff]
  unfold validate
  cases hcommon : h.validateCommon with
  | error err => simp
  | ok _ =>
      by_cases hflags : h.flags &&& ~~~flagPadding = 0
      · by_cases hreserved : h.reserved = Octets.zero 4
        · simp [hflags, hreserved]
        · simp [hflags, hreserved]
      · simp [hflags]

theorem validateReceive_of_validate {h : Header} (hvalid : h.validate = .ok ()) :
    h.validateReceive = .ok () :=
  (validateReceive_eq_ok_iff h).mpr ((validate_eq_ok_iff h).mp hvalid).1

@[simp] theorem octets_length (h : Header) : h.octets.length = headerSize :=
  putHeader_length h.raw (by simp)

theorem readHeader_octets_append (h : Header) (rest : List UInt8) :
    readHeader (h.octets ++ rest) = h.raw := by
  have happend : h.octets ++ rest =
      putHeader (List.replicate headerSize 0 ++ rest) h.raw := by
    simp [octets, putHeader]
  rw [happend, readHeader_putHeader]

/-- Distinct headers have distinct octets. -/
theorem octets_injective : Function.Injective octets := by
  intro h h' heq
  have hraw : h.raw = h'.raw := by
    rw [← readHeader_octets_append h [], ← readHeader_octets_append h' [], heq]
  cases h
  cases h'
  simp only [raw, RawHeader.mk.injEq] at hraw
  simp only [Header.mk.injEq]
  tauto

theorem marshalBinary_eq_ok {h : Header} {validateSend : Bool} {data : List UInt8}
    (hok : h.marshalBinary validateSend = .ok data) : data = h.octets := by
  unfold marshalBinary at hok
  split at hok
  · cases hok
  · exact (Except.ok.inj hok).symm

theorem marshalBinary_receive {h : Header} (hvalid : h.validateReceive = .ok ()) :
    h.marshalBinary false = .ok h.octets := by
  simp [marshalBinary, hvalid]

theorem marshalBinary_send {h : Header} (hvalid : h.validate = .ok ()) :
    h.marshalBinary true = .ok h.octets := by
  simp [marshalBinary, hvalid]

/-- A receive-valid header is decoded from its own octets. -/
theorem unmarshalBinary_octets_append {h : Header} (rest : List UInt8)
    (hvalid : h.validateReceive = .ok ()) :
    unmarshalBinary (h.octets ++ rest) = .ok h := by
  have hread := readHeader_octets_append h rest
  have hlength : ¬ (h.octets ++ rest).length < headerSize := by simp
  have hmagic : slice (h.octets ++ rest) 0 4 = magic.val := by
    simp [octets, putHeader, raw, slice, magic]
  have hversion : (h.octets ++ rest).getD 4 0 = h.version := by
    have := congrArg RawHeader.version hread
    exact this
  have hcommon := (validateReceive_eq_ok_iff h).mp hvalid
  unfold unmarshalBinary
  rw [if_neg hlength, if_neg (by simp [hmagic]), hversion,
    if_neg (by simp [hcommon.version]), hread]
  simp only [raw]
  rw [hvalid]

/-- Decoding 40 octets accepts only the octets of the header it returns. -/
theorem unmarshalBinary_eq_ok {data : List UInt8} {h : Header}
    (hlength : data.length = headerSize) (hok : unmarshalBinary data = .ok h) :
    data = h.octets ∧ h.validateReceive = .ok () := by
  unfold unmarshalBinary at hok
  rw [if_neg (by omega)] at hok
  split at hok
  · cases hok
  · rename_i hmagic
    split at hok
    · cases hok
    · simp only at hok
      split at hok
      · cases hok
      · rename_i hvalid
        have heq := Except.ok.inj hok
        subst heq
        refine ⟨?_, hvalid⟩
        have hraw : (readHeader data).magic = magic := by
          apply Subtype.ext
          rw [show (readHeader data).magic.val = slice data 0 4 from
            Octets.copy_val (slice_length (by rw [hlength]; decide))]
          exact not_not.mp hmagic
        have hround := putHeader_readHeader
          (List.length_replicate : (List.replicate headerSize (0 : UInt8)).length = _) hlength
        refine hround.symm.trans ?_
        unfold octets raw
        rw [← hraw]

end Header

end Wire
end DgProto
