import DgProto.Wire.Header

/-!
# Frames

A complete frame is its header followed by the payload, the 16-octet AEAD tag
(absent for the two handshake types) and the cleartext padding.  The codec is
exact: `unmarshalBinary_octets` and `unmarshalBinary_eq_ok` together say that
the decoder accepts precisely the layouts of receive-valid frames and returns
the frame laid out, so a frame and its octets determine each other.
-/

namespace DgProto
namespace Wire

open Library

/-- A plaintext-header frame.  `payload` is the ciphertext without its tag. -/
structure Frame where
  header : Header
  payload : List UInt8
  tag : Octets 16
  padding : List UInt8
  deriving DecidableEq

/-- `allZero`. -/
def allZero (data : List UInt8) : Bool :=
  data.all fun value => value == 0

/-- `NewFrame`. -/
def newFrame (messageType : MessageType) (sessionID : Octets 16) (sequence : UInt64)
    (payload tag padding : List UInt8) : Except Error Frame :=
  if 255 < padding.length then
    let got := padding.length
    .error (Sentinel.paddingLength.wrap s!"got {got}")
  else if 2 ^ 32 - 1 < payload.length then
    let got := payload.length
    .error (Sentinel.payloadTooLarge.wrap s!"{got} bytes")
  else
    let header := newHeader messageType sessionID sequence
      (UInt32.ofNat payload.length) (UInt8.ofNat padding.length)
    if header.hasAEADTag ∧ tag.length ≠ aeadTagSize then
      let got := tag.length
      .error (Sentinel.tagLength.wrap s!"got {got}")
    else if ¬ header.hasAEADTag ∧ tag.length ≠ 0 ∧
        (tag.length ≠ aeadTagSize ∨ ¬ allZero tag) then
      .error (Sentinel.tagLength.wrap "handshake frames have no AEAD tag")
    else if maxFrameSize < header.frameSize then
      let got := payload.length
      .error (Sentinel.payloadTooLarge.wrap s!"{got} bytes")
    else
      .ok
        { header := header
          payload := payload
          tag := if header.hasAEADTag then Octets.copy 16 tag else Octets.zero 16
          padding := padding }

namespace Frame

/-- `validateLengths`. -/
def validateLengths (f : Frame) : Except Error Unit :=
  let payloadGot := f.payload.length
  let payloadWant := f.header.payloadLength
  let paddingGot := f.padding.length
  let paddingWant := f.header.padLength
  if f.payload.length ≠ f.header.payloadLength.toNat then
    .error (Sentinel.frameLengthMismatch.wrap
      s!"payload has {payloadGot} bytes, header declares {payloadWant}")
  else if f.padding.length ≠ f.header.padLength.toNat then
    .error (Sentinel.frameLengthMismatch.wrap
      s!"padding has {paddingGot} bytes, header declares {paddingWant}")
  else
    .ok ()

/-- `Validate`. -/
def validate (f : Frame) : Except Error Unit :=
  match f.header.validate with
  | .error err => .error err
  | .ok () => f.validateLengths

/-- `ValidateReceive`. -/
def validateReceive (f : Frame) : Except Error Unit :=
  match f.header.validateReceive with
  | .error err => .error err
  | .ok () => f.validateLengths

/-- The wire layout of a frame. -/
def octets (f : Frame) : List UInt8 :=
  f.header.octets ++ (f.payload ++
    ((if f.header.hasAEADTag then f.tag.val else []) ++ f.padding))

/-- `MarshalBinary`. -/
def marshalBinary (f : Frame) : Except Error (List UInt8) :=
  match f.validate with
  | .error err => .error err
  | .ok () =>
      match f.header.marshalBinary true with
      | .error err => .error err
      | .ok header =>
          .ok (header ++ (f.payload ++
            ((if f.header.hasAEADTag then f.tag.val else []) ++ f.padding)))

/-- `UnmarshalBinary`. -/
def unmarshalBinary (data : List UInt8) : Except Error Frame :=
  if data.length < headerSize then
    let got := data.length
    .error (Sentinel.frameTooShort.wrap s!"got {got} bytes, want at least {headerSize}")
  else
    match Header.unmarshalBinary (data.take headerSize) with
    | .error err => .error err
    | .ok header =>
        let want := header.frameSize
        if data.length ≠ want then
          let got := data.length
          .error (Sentinel.frameLengthMismatch.wrap
            s!"got {got} bytes, header declares {want}")
        else
          let payloadEnd := headerSize + header.payloadLength.toNat
          let tagEnd := if header.hasAEADTag then payloadEnd + aeadTagSize else payloadEnd
          .ok
            { header := header
              payload := slice data headerSize payloadEnd
              tag := if header.hasAEADTag then Octets.copy 16 (slice data payloadEnd tagEnd)
                else Octets.zero 16
              padding := data.drop tagEnd }

/-! ## Lengths and validity -/

theorem validateLengths_eq_ok_iff (f : Frame) :
    f.validateLengths = .ok () ↔
      f.payload.length = f.header.payloadLength.toNat ∧
        f.padding.length = f.header.padLength.toNat := by
  unfold validateLengths
  by_cases hpayload : f.payload.length = f.header.payloadLength.toNat
  · by_cases hpadding : f.padding.length = f.header.padLength.toNat
    · simp [hpayload, hpadding]
    · simp [hpayload, hpadding]
  · simp [hpayload]

theorem validateReceive_eq_ok_iff (f : Frame) :
    f.validateReceive = .ok () ↔
      f.header.Common ∧ f.payload.length = f.header.payloadLength.toNat ∧
        f.padding.length = f.header.padLength.toNat := by
  rw [← validateLengths_eq_ok_iff, ← Header.validateReceive_eq_ok_iff]
  unfold validateReceive
  cases f.header.validateReceive with
  | error err | ok _ => simp

theorem validate_eq_ok_iff (f : Frame) :
    f.validate = .ok () ↔ f.header.validate = .ok () ∧ f.validateLengths = .ok () := by
  unfold validate
  cases f.header.validate with
  | error err | ok _ => simp

theorem validateReceive_of_validate {f : Frame} (h : f.validate = .ok ()) :
    f.validateReceive = .ok () := by
  obtain ⟨hheader, hlengths⟩ := (validate_eq_ok_iff f).mp h
  unfold validateReceive
  rw [Header.validateReceive_of_validate hheader]
  exact hlengths

/-- The layout has exactly the size that the header announces. -/
theorem octets_length {f : Frame} (h : f.validateLengths = .ok ()) :
    f.octets.length = f.header.frameSize := by
  obtain ⟨hpayload, hpadding⟩ := (validateLengths_eq_ok_iff f).mp h
  have htag := f.tag.property
  unfold octets Header.frameSize
  cases f.header.hasAEADTag with
  | true => simp [hpayload, hpadding, htag, aeadTagSize]; omega
  | false => simp [hpayload, hpadding]; omega

/-- The layout begins with the header. -/
theorem take_headerSize_octets (f : Frame) : f.octets.take headerSize = f.header.octets := by
  unfold octets
  rw [List.take_append_of_le_length (by simp), List.take_of_length_le (by simp)]

/-- `MarshalBinary` succeeds exactly on sender-valid frames, with the layout. -/
theorem marshalBinary_of_validate {f : Frame} (h : f.validate = .ok ()) :
    f.marshalBinary = .ok f.octets := by
  have hheader := ((validate_eq_ok_iff f).mp h).1
  simp [marshalBinary, h, Header.marshalBinary_send hheader, octets]

theorem marshalBinary_eq_ok {f : Frame} {data : List UInt8}
    (h : f.marshalBinary = .ok data) : f.validate = .ok () ∧ data = f.octets := by
  cases hvalid : f.validate with
  | error err => simp [marshalBinary, hvalid] at h
  | ok _ =>
      have hmarshal := marshalBinary_of_validate hvalid
      rw [h] at hmarshal
      exact ⟨rfl, Except.ok.inj hmarshal⟩

/-! ## Exactness of the frame codec -/

/-- Handshake frames have no tag on the wire; the decoder leaves it zero. -/
def TagCanonical (f : Frame) : Prop :=
  f.header.hasAEADTag = false → f.tag = Octets.zero 16

/-- The decoder recovers every receive-valid frame from its layout. -/
theorem unmarshalBinary_octets {f : Frame} (hvalid : f.validateReceive = .ok ())
    (htag : f.TagCanonical) : unmarshalBinary f.octets = .ok f := by
  obtain ⟨hcommon, hpayload, hpadding⟩ := (validateReceive_eq_ok_iff f).mp hvalid
  have hlengths := (validateLengths_eq_ok_iff f).mpr ⟨hpayload, hpadding⟩
  have hsize := octets_length hlengths
  have hheader : Header.unmarshalBinary (f.octets.take headerSize) = .ok f.header := by
    have := Header.unmarshalBinary_octets_append []
      ((Header.validateReceive_eq_ok_iff f.header).mpr hcommon)
    simpa [octets, List.take_append] using this
  have hpayloadSlice : slice f.octets headerSize
      (headerSize + f.header.payloadLength.toNat) = f.payload :=
    slice_of_eq_append f.header.octets rfl (by simp) (by simp [hpayload])
  have htagLength := f.tag.property
  unfold unmarshalBinary
  rw [if_neg (by rw [hsize]; unfold Header.frameSize; omega), hheader]
  simp only [hsize, ne_eq, not_true_eq_false, if_false, hpayloadSlice]
  cases hhas : f.header.hasAEADTag with
  | true =>
      have hsplit : f.octets = (f.header.octets ++ f.payload) ++ (f.tag.val ++ f.padding) := by
        simp [octets, hhas]
      have htagSlice : slice f.octets (headerSize + f.header.payloadLength.toNat)
          (headerSize + f.header.payloadLength.toNat + aeadTagSize) = f.tag.val :=
        slice_of_eq_append (f.header.octets ++ f.payload) hsplit (by simp [hpayload])
          (by simp [hpayload, htagLength, aeadTagSize])
      have hpaddingSlice : f.octets.drop
          (headerSize + f.header.payloadLength.toNat + aeadTagSize) = f.padding :=
        drop_of_eq_append (f.header.octets ++ f.payload ++ f.tag.val) (by simp [hsplit])
          (by simp [hpayload, htagLength, aeadTagSize, Nat.add_assoc])
      simp only [if_true, htagSlice, hpaddingSlice, Octets.copy_self]
  | false =>
      have hsplit : f.octets = (f.header.octets ++ f.payload) ++ f.padding := by
        simp [octets, hhas]
      have hpaddingSlice : f.octets.drop
          (headerSize + f.header.payloadLength.toNat) = f.padding :=
        drop_of_eq_append (f.header.octets ++ f.payload) hsplit (by simp [hpayload])
      simp only [Bool.false_eq_true, if_false, hpaddingSlice, ← htag hhas]

/-- The decoder accepts only layouts of receive-valid frames, and returns the
frame that was laid out. -/
theorem unmarshalBinary_eq_ok {data : List UInt8} {f : Frame}
    (hok : unmarshalBinary data = .ok f) :
    data = f.octets ∧ f.validateReceive = .ok () ∧ f.TagCanonical := by
  unfold unmarshalBinary at hok
  split at hok
  · cases hok
  · rename_i hlong
    cases hheader : Header.unmarshalBinary (data.take headerSize) with
    | error err => simp [hheader] at hok
    | ok header =>
        obtain ⟨hoctets, hvalid⟩ := Header.unmarshalBinary_eq_ok
          (by rw [List.length_take]; omega) hheader
        have hcommon := (Header.validateReceive_eq_ok_iff header).mp hvalid
        simp only [hheader] at hok
        split at hok
        · cases hok
        · rename_i hsize
          have hlength : data.length = header.frameSize := not_not.mp hsize
          have hdata : header.octets ++ data.drop headerSize = data := by
            rw [← hoctets, List.take_append_drop]
          have hf := Except.ok.inj hok
          unfold Header.frameSize at hlength
          cases hhas : header.hasAEADTag with
          | true =>
              simp only [hhas, if_true] at hf hlength
              have htag : (slice data (headerSize + header.payloadLength.toNat)
                  (headerSize + header.payloadLength.toNat + aeadTagSize)).length = 16 := by
                rw [slice_length (by omega)]
                simp [aeadTagSize]
              subst hf
              refine ⟨?_, ?_, ?_⟩
              · simp only [octets, hhas, if_true, Octets.copy_val htag]
                rw [slice_append_drop, slice_append_drop, hdata]
                · omega
                · omega
              · rw [validateReceive_eq_ok_iff]
                refine ⟨hcommon, ?_, ?_⟩
                · simp only
                  rw [slice_length (by omega)]
                  omega
                · simp only [List.length_drop]
                  omega
              · intro hnone
                simp [hhas] at hnone
          | false =>
              simp only [hhas, Bool.false_eq_true, if_false] at hf hlength
              subst hf
              refine ⟨?_, ?_, ?_⟩
              · simp only [octets, hhas, Bool.false_eq_true, if_false, List.nil_append]
                rw [slice_append_drop, hdata]
                omega
              · rw [validateReceive_eq_ok_iff]
                refine ⟨hcommon, ?_, ?_⟩
                · simp only
                  rw [slice_length (by omega)]
                  omega
                · simp only [List.length_drop]
                  omega
              · intro _
                rfl

end Frame

end Wire
end DgProto
