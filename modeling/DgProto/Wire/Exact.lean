import DgProto.Wire.Frame

/-!
# The frame codec is exact

The decoder accepts exactly the layouts of receive-valid frames, and a frame and its
octets determine each other.

The decoders and encoders of headers and frames are given here once more with checked
accesses, index by index as in the source.  They never panic, and they compute what the
total ones do (`unmarshalChecked_eq`, `marshalChecked_eq`).
-/

namespace DgProto
namespace Wire

open Library

/-! ## Checked codecs -/

/-- `wire.ReadHeader`. -/
def readHeaderChecked (src : List UInt8) : Option RawHeader := do
  let _ ← checkedGet src (headerSize - 1)
  let magic ← checkedSlice src 0 4
  let version ← checkedGet src 4
  let flags ← checkedGet src 5
  let messageType ← checkedGet src 6
  let reserved0 ← checkedGet src 7
  let reserved1 ← checkedGet src 37
  let reserved2 ← checkedGet src 38
  let reserved3 ← checkedGet src 39
  let sequence ← checkedSlice src 24 32
  let payloadLength ← checkedSlice src 32 36
  let padLength ← checkedGet src 36
  let sessionID ← checkedSlice src 8 24
  return {
    magic := Octets.copy 4 magic
    version := version
    flags := flags
    messageType := messageType
    reserved := Octets.copy 4 [reserved0, reserved1, reserved2, reserved3]
    sequence := readUint64 sequence
    payloadLength := readUint32 payloadLength
    padLength := padLength
    sessionID := Octets.copy 16 sessionID }

/-- `wire.PutHeader`: every part of the buffer that it writes is there. -/
def putHeaderChecked (dst : List UInt8) (h : RawHeader) : Option (List UInt8) := do
  let _ ← checkedGet dst (headerSize - 1)
  let _ ← checkedSlice dst 0 4
  let _ ← checkedGet dst 4
  let _ ← checkedGet dst 5
  let _ ← checkedGet dst 6
  let _ ← checkedGet dst 7
  let _ ← checkedSlice dst 8 24
  let _ ← checkedSlice dst 24 32
  let _ ← checkedSlice dst 32 36
  let _ ← checkedGet dst 36
  let _ ← checkedSlice dst 37 40
  let _ ← checkedSlice h.reserved.val 1 4
  return putHeader dst h

/-- `Header.UnmarshalBinary`. -/
def Header.unmarshalChecked (data : List UInt8) : Option (Except Error Header) :=
  if data.length < headerSize then
    let got := data.length
    some (.error (Sentinel.headerTooShort.wrap s!"got {got} bytes, want {headerSize}"))
  else do
    let front ← checkedSlice data 0 4
    if front ≠ magic.val then
      return .error Sentinel.invalidMagic.bare
    else
      let got ← checkedGet data 4
      if got ≠ Wire.version then
        let want := Wire.version
        return .error (Sentinel.unsupportedVersion.wrap s!"got {got}, want {want}")
      else
        let raw ← readHeaderChecked data
        let decoded : Header :=
          { version := raw.version
            flags := raw.flags
            messageType := raw.messageType
            reserved := raw.reserved
            sessionID := raw.sessionID
            sequence := raw.sequence
            payloadLength := raw.payloadLength
            padLength := raw.padLength }
        match decoded.validateReceive with
        | .error err => return .error err
        | .ok () => return .ok decoded

/-- `Header.marshalBinary`. -/
def Header.marshalChecked (h : Header) (validateSend : Bool) :
    Option (Except Error (List UInt8)) :=
  match (if validateSend then h.validate else h.validateReceive) with
  | .error err => some (.error err)
  | .ok () => do
      let buf ← putHeaderChecked (List.replicate headerSize 0) h.raw
      return .ok buf

namespace Frame

/-- `Frame.UnmarshalBinary`. -/
def unmarshalChecked (data : List UInt8) : Option (Except Error Frame) :=
  if data.length < headerSize then
    let got := data.length
    some (.error (Sentinel.frameTooShort.wrap s!"got {got} bytes, want at least {headerSize}"))
  else do
    let headerWire ← checkedSlice data 0 headerSize
    match ← Header.unmarshalChecked headerWire with
    | .error err => return .error err
    | .ok header =>
        let want := header.frameSize
        if data.length ≠ want then
          let got := data.length
          return .error (Sentinel.frameLengthMismatch.wrap
            s!"got {got} bytes, header declares {want}")
        else
          let payloadEnd := headerSize + header.payloadLength.toNat
          let tagEnd := if header.hasAEADTag then payloadEnd + aeadTagSize else payloadEnd
          let payload ← checkedSlice data headerSize payloadEnd
          let padding ← checkedSlice data tagEnd data.length
          if header.hasAEADTag then
            let tag ← checkedSlice data payloadEnd tagEnd
            return .ok ⟨header, payload, Octets.copy 16 tag, padding⟩
          else
            return .ok ⟨header, payload, Octets.zero 16, padding⟩

/-- `Frame.MarshalBinary`. -/
def marshalChecked (f : Frame) : Option (Except Error (List UInt8)) :=
  match f.validate with
  | .error err => some (.error err)
  | .ok () => do
      match ← f.header.marshalChecked true with
      | .error err => return .error err
      | .ok header =>
          return .ok (header ++ (f.payload ++
            ((if f.header.hasAEADTag then f.tag.val else []) ++ f.padding)))

end Frame

/-! ## No access is out of range -/

section Bounds

variable {src : List UInt8}

private theorem checkedGet_header (h : headerSize ≤ src.length) {i : Nat} (hi : i < 40) :
    checkedGet src i = some (src.getD i 0) := by
  apply checkedGet_of_lt
  exact Nat.lt_of_lt_of_le hi h

private theorem checkedSlice_header (h : headerSize ≤ src.length) {low high : Nat}
    (hlow : low ≤ high) (hhigh : high ≤ 40) :
    checkedSlice src low high = some (slice src low high) :=
  checkedSlice_of_le hlow (hhigh.trans h)

/-- Every read of a header is in range. -/
theorem readHeaderChecked_eq (h : headerSize ≤ src.length) :
    readHeaderChecked src = some (readHeader src) := by
  unfold readHeaderChecked
  rw [checkedGet_header h (by decide), checkedSlice_header h (by decide) (by decide),
    checkedGet_header h (by decide), checkedGet_header h (by decide),
    checkedGet_header h (by decide), checkedGet_header h (by decide),
    checkedGet_header h (by decide), checkedGet_header h (by decide),
    checkedGet_header h (by decide), checkedSlice_header h (by decide) (by decide),
    checkedSlice_header h (by decide) (by decide), checkedGet_header h (by decide),
    checkedSlice_header h (by decide) (by decide)]
  rfl

/-- Every write of a header is in range. -/
theorem putHeaderChecked_eq (h : headerSize ≤ src.length) (raw : RawHeader) :
    putHeaderChecked src raw = some (putHeader src raw) := by
  have hreserved : checkedSlice raw.reserved.val 1 4 = some (slice raw.reserved.val 1 4) :=
    checkedSlice_of_le (by decide) (by rw [raw.reserved.property])
  unfold putHeaderChecked
  rw [checkedGet_header h (by decide), checkedSlice_header h (by decide) (by decide),
    checkedGet_header h (by decide), checkedGet_header h (by decide),
    checkedGet_header h (by decide), checkedGet_header h (by decide),
    checkedSlice_header h (by decide) (by decide), checkedSlice_header h (by decide) (by decide),
    checkedSlice_header h (by decide) (by decide), checkedGet_header h (by decide),
    checkedSlice_header h (by decide) (by decide), hreserved]
  rfl

theorem Header.unmarshalChecked_eq (data : List UInt8) :
    Header.unmarshalChecked data = some (Header.unmarshalBinary data) := by
  unfold Header.unmarshalChecked Header.unmarshalBinary
  by_cases hshort : data.length < headerSize
  · rw [if_pos hshort, if_pos hshort]
  · have hlong : headerSize ≤ data.length := Nat.not_lt.mp hshort
    rw [if_neg hshort, if_neg hshort, checkedSlice_header hlong (by decide) (by decide),
      checkedGet_header hlong (by decide), readHeaderChecked_eq hlong]
    simp only [Option.bind_eq_bind, Option.bind_some, Option.pure_def]
    by_cases hmagic : slice data 0 4 ≠ magic.val
    · rw [if_pos hmagic, if_pos hmagic]
    · rw [if_neg hmagic, if_neg hmagic]
      by_cases hversion : data.getD 4 0 ≠ Wire.version
      · rw [if_pos hversion, if_pos hversion]
      · rw [if_neg hversion, if_neg hversion]
        generalize Header.validateReceive _ = outcome
        cases outcome with
        | error err | ok _ => rfl

theorem Header.marshalChecked_eq (h : Header) (validateSend : Bool) :
    h.marshalChecked validateSend = some (h.marshalBinary validateSend) := by
  unfold Header.marshalChecked Header.marshalBinary
  rw [putHeaderChecked_eq (by rw [List.length_replicate])]
  cases (if validateSend = true then h.validate else h.validateReceive) with
  | error err | ok _ => rfl

/-- The frame decoder stays in range on every input. -/
theorem Frame.unmarshalChecked_eq (data : List UInt8) :
    Frame.unmarshalChecked data = some (Frame.unmarshalBinary data) := by
  unfold Frame.unmarshalChecked Frame.unmarshalBinary
  by_cases hshort : data.length < headerSize
  · rw [if_pos hshort, if_pos hshort]
  · have hlong : headerSize ≤ data.length := Nat.not_lt.mp hshort
    have hfront : slice data 0 headerSize = data.take headerSize := rfl
    rw [if_neg hshort, if_neg hshort, checkedSlice_of_le (Nat.zero_le _) hlong, hfront]
    simp only [Option.bind_eq_bind, Option.bind_some, Header.unmarshalChecked_eq, Option.pure_def]
    cases Header.unmarshalBinary (data.take headerSize) with
    | error err => rfl
    | ok header =>
        dsimp only
        by_cases hsize : data.length ≠ header.frameSize
        · rw [if_pos hsize, if_pos hsize]
        · rw [if_neg hsize, if_neg hsize]
          -- the announced size bounds the three parts
          have hlength : data.length = header.frameSize := not_not.mp hsize
          unfold Header.frameSize at hlength
          rw [checkedSlice_of_le (Nat.le_add_right _ _) (by omega), Option.bind_some]
          cases htag : header.hasAEADTag with
          | true =>
              rw [htag] at hlength
              simp only [if_true] at hlength ⊢
              rw [checkedSlice_length (by omega), checkedSlice_of_le (by omega) (by omega)]
              rfl
          | false =>
              rw [htag] at hlength
              simp only [Bool.false_eq_true, if_false] at hlength ⊢
              rw [checkedSlice_length (by omega)]
              rfl

/-- The frame encoder stays in range on every frame. -/
theorem Frame.marshalChecked_eq (f : Frame) : f.marshalChecked = some f.marshalBinary := by
  unfold Frame.marshalChecked Frame.marshalBinary
  rw [Header.marshalChecked_eq]
  cases f.validate with
  | error err => rfl
  | ok _ =>
      cases f.header.marshalBinary true with
      | error err | ok header => rfl

end Bounds

/-! ## The bijection -/

namespace Frame

/-- A layout is decoded to one frame. -/
theorem unmarshalBinary_eq_ok_iff (data : List UInt8) (f : Frame) :
    unmarshalBinary data = .ok f ↔
      data = f.octets ∧ f.validateReceive = .ok () ∧ f.TagCanonical := by
  constructor
  · exact unmarshalBinary_eq_ok
  · rintro ⟨rfl, hvalid, htag⟩
    exact unmarshalBinary_octets hvalid htag

/-- Two receive-valid frames with one layout are equal. -/
theorem octets_injOn {f g : Frame} (hf : f.validateReceive = .ok ()) (hftag : f.TagCanonical)
    (hg : g.validateReceive = .ok ()) (hgtag : g.TagCanonical) (h : f.octets = g.octets) :
    f = g := by
  have hleft := unmarshalBinary_octets hf hftag
  rw [h, unmarshalBinary_octets hg hgtag] at hleft
  exact (Except.ok.inj hleft).symm

end Frame

/-- The frame codec is exact.

* The decoder accepts the layouts of receive-valid frames and nothing else, returns the
  frame laid out, and no other frame has that layout.
* The header it returns is written back as the 40 octets received.
* A sender-valid frame is marshalled to its layout, of the size its header announces, and
  read back.
* No access of the codec is out of range, for any input. -/
theorem frame_codec_exact :
    (∀ (data : List UInt8) (f : Frame), Frame.unmarshalBinary data = .ok f ↔
      data = f.octets ∧ f.validateReceive = .ok () ∧ f.TagCanonical) ∧
    (∀ f g : Frame, f.validateReceive = .ok () → f.TagCanonical →
      g.validateReceive = .ok () → g.TagCanonical → f.octets = g.octets → f = g) ∧
    (∀ (data : List UInt8) (f : Frame), Frame.unmarshalBinary data = .ok f →
      f.header.marshalBinary false = .ok (data.take headerSize)) ∧
    (∀ f : Frame, f.validate = .ok () → f.TagCanonical →
      ∃ data, f.marshalBinary = .ok data ∧ data.length = f.header.frameSize ∧
        f.header.frameSize ≤ 65535 ∧ Frame.unmarshalBinary data = .ok f) ∧
    (∀ data, Frame.unmarshalChecked data = some (Frame.unmarshalBinary data)) ∧
    ∀ f : Frame, f.marshalChecked = some f.marshalBinary := by
  refine ⟨Frame.unmarshalBinary_eq_ok_iff, fun f g => Frame.octets_injOn, ?_, ?_,
    Frame.unmarshalChecked_eq, Frame.marshalChecked_eq⟩
  · intro data f hok
    obtain ⟨rfl, hvalid, -⟩ := Frame.unmarshalBinary_eq_ok hok
    obtain ⟨hcommon, -, -⟩ := (Frame.validateReceive_eq_ok_iff f).mp hvalid
    rw [Frame.take_headerSize_octets]
    exact Header.marshalBinary_receive ((Header.validateReceive_eq_ok_iff f.header).mpr hcommon)
  · intro f hvalid htag
    have hreceive := Frame.validateReceive_of_validate hvalid
    obtain ⟨hcommon, -, -⟩ := (Frame.validateReceive_eq_ok_iff f).mp hreceive
    exact ⟨f.octets, Frame.marshalBinary_of_validate hvalid,
      Frame.octets_length ((Frame.validate_eq_ok_iff f).mp hvalid).2, hcommon.size,
      Frame.unmarshalBinary_octets hreceive htag⟩

end Wire
end DgProto
