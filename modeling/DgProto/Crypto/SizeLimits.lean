import DgProto.Crypto.Sealing
import DgProto.Wire.Canonical

/-!
# Message sizes

A message is limited by what an encrypted frame can carry: 65535 octets less the
header and the tag.  The encoders enforce this limit on the way to the bytes, and
`EncodedLen` and `ValidateFrameSize` decide it from the lengths alone.

Two results.  The length-only path agrees with the path that makes the bytes: it
succeeds on the same messages, with their length, and fails with the same error
(`encodedLen_eq`).  And the limits of the encoders are the limit of the frame: what
marshals always fits a frame without padding, and what fits always marshals.
-/

namespace DgProto

open Library Wire Crypto

namespace Wire

/-! ## The two paths of `EncryptedData` -/

theorem encodedTLVsLen_eq (fields : List TLV) :
    encodedTLVsLen fields = (encodeTLVs fields).map List.length := by
  unfold encodeTLVs
  cases hlen : encodedTLVsLen fields with
  | error err => rfl
  | ok total =>
      obtain ⟨htotal, hle⟩ := encodedTLVsLen_eq_ok_iff.mp hlen
      have hencode : encodeTLVs fields = .ok (tlvOctets fields) :=
        encodeTLVs_eq_ok_iff.mpr ⟨rfl, htotal ▸ hle⟩
      simp only [encodeTLVs, hlen, Except.ok.injEq] at hencode
      show Except.ok total = Except.ok (writeLoop (List.replicate total 0) 0 fields).length
      rw [hencode, htotal]

namespace EncryptedData

/-- The length-only path computes the length of what the other path produces. -/
theorem encodedLen_eq (m : EncryptedData) : m.encodedLen = m.marshalBinary.map List.length := by
  unfold encodedLen marshalBinary
  cases rejectDuplicateTLVs m.fields with
  | error err => rfl
  | ok _ =>
      simp only [encodedTLVsLen_eq]
      cases encodeTLVs m.fields with
      | error err => rfl
      | ok fields =>
          simp only [Except.map]
          by_cases hlong : maxEncryptedPayloadSize - 4 < fields.length
          · simp only [hlong, if_true]
          · simp only [hlong, if_false, List.length_append, putUint16_length, List.length_cons,
              List.length_nil]

theorem newEncryptedData_eq (m : EncryptedData) :
    newEncryptedData m.streamID m.appMessageType m.fields = m.marshalBinary.map fun _ => m := by
  have hlength : (EncryptedData.mk m.streamID m.appMessageType m.fields).encodedLen = _ :=
    m.encodedLen_eq
  simp only [newEncryptedData, hlength]
  cases m.marshalBinary <;> rfl

/-- What a marshalled envelope is made of. -/
theorem marshalBinary_eq_ok {m : EncryptedData} {data : List UInt8}
    (h : m.marshalBinary = .ok data) :
    rejectDuplicateTLVs m.fields = .ok () ∧
      data = putUint16 m.streamID ++ [m.appMessageType, 0] ++ tlvOctets m.fields ∧
      (tlvOctets m.fields).length ≤ maxEncryptedPayloadSize - 4 := by
  unfold marshalBinary at h
  cases hunique : rejectDuplicateTLVs m.fields with
  | error err => simp [hunique] at h
  | ok _ =>
      cases hencode : encodeTLVs m.fields with
      | error err => simp [hunique, hencode] at h
      | ok fields =>
          obtain ⟨rfl, -⟩ := encodeTLVs_eq_ok_iff.mp hencode
          simp only [hunique, hencode] at h
          split_ifs at h with hlong
          exact ⟨rfl, (Except.ok.inj h).symm, Nat.not_lt.mp hlong⟩

end EncryptedData

theorem four_dvd_tlvOctets_length (fields : List TLV) : 4 ∣ (tlvOctets fields).length := by
  induction fields with
  | nil => exact Nat.dvd_zero 4
  | cons field fields ih =>
      rw [tlvOctets_cons, List.length_append, TLV.octets_length]
      have hfield : 4 ∣ field.size := Nat.dvd_mul_left 4 _
      exact Nat.dvd_add hfield ih

end Wire

namespace Crypto

/-! ## The size check of `Codec.Encrypt` -/

namespace Codec

variable (P : Primitives) (random : Reader) (c : Codec) {messageType : MessageType}
  {sessionID : Octets 16} {sequence : UInt64} (data : List UInt8) (padLength : UInt8)

/-- Behind a valid header the size is checked first, before the padding is read. -/
theorem encrypt_too_large
    (hvalid : validateEncryptedHeader messageType sessionID sequence = .ok ())
    (hsize : maxFrameSize < headerSize + data.length + aeadTagSize + padLength.toNat) :
    (c.encrypt P random messageType sessionID sequence data padLength).2 =
      .error (Sentinel.payloadTooLarge.wrap s!"{data.length} bytes") := by
  simp only [encrypt, hvalid, hsize, if_true]

/-- `ErrPayloadTooLarge` means exactly that payload and padding exceed the frame. -/
theorem encrypt_payloadTooLarge_iff
    (hvalid : validateEncryptedHeader messageType sessionID sequence = .ok ()) :
    (∃ err, (c.encrypt P random messageType sessionID sequence data padLength).2 = .error err ∧
        err.is .payloadTooLarge) ↔
      maxEncryptedPayloadSize < data.length + padLength.toNat := by
  have hlimit : maxEncryptedPayloadSize < data.length + padLength.toNat ↔
      maxFrameSize < headerSize + data.length + aeadTagSize + padLength.toNat := by
    simp only [maxEncryptedPayloadSize, maxFrameSize, headerSize, aeadTagSize]
    omega
  rw [hlimit]
  constructor
  · rintro ⟨err, herr, hkind⟩
    by_contra hfits
    rw [encrypt_eq P random c messageType sessionID sequence data padLength hvalid
      (Nat.not_lt.mp hfits)] at herr
    -- behind the size check only the random source can fail
    cases hrandom : randomBytes random padLength.toNat with
    | error cause =>
        rw [hrandom] at herr
        obtain rfl := Except.error.inj herr
        have hsource : Sentinel.payloadTooLarge ∈ cause.kinds := hkind
        exact absurd (randomBytes_error hrandom hsource) (by decide)
    | ok padding =>
        rw [hrandom] at herr
        cases herr
  · intro hlarge
    exact ⟨_, encrypt_too_large P random c data padLength hvalid hlarge, by simp⟩

end Codec

theorem validateEncryptedHeader_kind (kind : MessageKind) {sessionID : Octets 16}
    {sequence : UInt64} (hsession : sessionID ≠ Octets.zero 16) (hsequence : sequence ≠ 0) :
    validateEncryptedHeader kind.type sessionID sequence = .ok () := by
  rw [validateEncryptedHeader_eq_ok_iff]
  refine ⟨?_, hsequence, hsession⟩
  cases kind <;> decide

end Crypto

/-- `ValidateFrameSize` is the encoder followed by `Codec.Encrypt`, as far as success and
the error of the first failing step are concerned. -/
theorem validateFrameSize_eq (m : EncryptedData) (padLength : UInt8) (P : Primitives)
    (c : Codec) {random : Reader} {sessionID : Octets 16} {sequence : UInt64}
    (hsession : sessionID ≠ Octets.zero 16) (hsequence : sequence ≠ 0)
    (hrandom : random.Yields padLength.toNat) :
    m.validateFrameSize padLength =
      match m.marshalBinary with
      | .error err => .error err
      | .ok data =>
          (c.encrypt P random MessageType.encryptedData sessionID sequence data padLength).2.map
            fun _ => () := by
  have hvalid := validateEncryptedHeader_kind .encryptedData hsession hsequence
  unfold EncryptedData.validateFrameSize
  rw [EncryptedData.encodedLen_eq]
  cases m.marshalBinary with
  | error err => rfl
  | ok data =>
      simp only [Except.map]
      by_cases hsize : maxFrameSize <
          headerSize + data.length + aeadTagSize + padLength.toNat
      · have hlarge := Codec.encrypt_too_large P random c data padLength hvalid hsize
        rw [if_pos hsize]
        simp only [MessageKind.type] at hlarge
        rw [hlarge]
      · have hfits := Codec.encrypt_eq P random c _ sessionID sequence data padLength hvalid
          (Nat.not_lt.mp hsize)
        rw [randomBytes_of_yields hrandom] at hfits
        simp only [MessageKind.type] at hfits
        rw [if_neg hsize, hfits]

/-- **The preflight agrees with encoding and encryption.**  `EncodedLen`, `MarshalBinary`
and `NewEncryptedData` succeed on the same envelopes and otherwise report the same error;
the length is that of the bytes and a multiple of four.  `ValidateFrameSize` succeeds iff
the envelope marshals and its bytes encrypt with this padding, and otherwise reports the
error of the first of the two steps that fails. -/
theorem encryptedData_preflight (m : EncryptedData) (padLength : UInt8) :
    (∀ err, (m.encodedLen = .error err ↔ m.marshalBinary = .error err) ∧
      (newEncryptedData m.streamID m.appMessageType m.fields = .error err ↔
        m.marshalBinary = .error err)) ∧
    ((∃ n, m.encodedLen = .ok n) ↔ ∃ data, m.marshalBinary = .ok data) ∧
    (newEncryptedData m.streamID m.appMessageType m.fields = .ok m ↔
      ∃ data, m.marshalBinary = .ok data) ∧
    (∀ n data, m.encodedLen = .ok n → m.marshalBinary = .ok data →
      n = data.length ∧ 4 ∣ n) ∧
    ∀ (P : Primitives) (c : Codec) (random : Reader) (sessionID : Octets 16)
      (sequence : UInt64), sessionID ≠ Octets.zero 16 → sequence ≠ 0 →
      random.Yields padLength.toNat →
      (m.validateFrameSize padLength = .ok () ↔
        ∃ data frame, m.marshalBinary = .ok data ∧
          (c.encrypt P random MessageType.encryptedData sessionID sequence data padLength).2 =
            .ok frame) ∧
      ∀ err, m.validateFrameSize padLength = .error err ↔
        m.marshalBinary = .error err ∨
          ∃ data, m.marshalBinary = .ok data ∧
            (c.encrypt P random MessageType.encryptedData sessionID sequence data
              padLength).2 = .error err := by
  have hlen := m.encodedLen_eq
  have hnew := m.newEncryptedData_eq
  refine ⟨fun err => ?_, ?_, ?_, ?_, ?_⟩
  · rw [hlen, hnew]
    cases m.marshalBinary <;> simp [Except.map]
  · rw [hlen]
    cases m.marshalBinary <;> simp [Except.map]
  · rw [hnew]
    cases m.marshalBinary <;> simp [Except.map]
  · intro n data hn hdata
    rw [hlen, hdata] at hn
    obtain rfl := Except.ok.inj hn
    obtain ⟨-, rfl, -⟩ := EncryptedData.marshalBinary_eq_ok hdata
    refine ⟨rfl, ?_⟩
    have hfields := four_dvd_tlvOctets_length m.fields
    simp only [List.length_append, putUint16_length, List.length_cons, List.length_nil]
    exact Nat.dvd_add (Nat.dvd_refl 4) hfields
  · intro P c random sessionID sequence hsession hsequence hrandom
    have hsucceeds (result : Except Error Frame) :
        (result.map fun _ => ()) = .ok () ↔ ∃ frame, result = .ok frame := by
      cases result <;> simp [Except.map]
    have hfails (result : Except Error Frame) (err : Error) :
        (result.map fun _ => ()) = .error err ↔ result = .error err := by
      cases result <;> simp [Except.map]
    rw [validateFrameSize_eq m padLength P c hsession hsequence hrandom]
    cases m.marshalBinary with
    | error err =>
        constructor
        · simp
        · simp
    | ok data =>
        constructor
        · simp [hsucceeds]
        · intro err
          simp [hfails]

/-- An envelope with one field of two octets, in a frame with three octets of padding. -/
theorem encryptedData_preflight_field :
    EncryptedData.validateFrameSize ⟨7, 1, [⟨2, [104, 105]⟩]⟩ 3 = .ok () ∧
      ∃ data frame, EncryptedData.marshalBinary ⟨7, 1, [⟨2, [104, 105]⟩]⟩ = .ok data ∧
        (Codec.encrypt transparent ⟨[7, 8, 9, 10], none⟩ ⟨counterKey 5⟩
          MessageType.encryptedData (Octets.copy 16 [1]) 1 data 3).2 = .ok frame := by
  have hvalid : EncryptedData.validateFrameSize ⟨7, 1, [⟨2, [104, 105]⟩]⟩ 3 = .ok () := by
    decide
  have hpreflight := (encryptedData_preflight ⟨7, 1, [⟨2, [104, 105]⟩]⟩ 3).2.2.2.2 transparent
    ⟨counterKey 5⟩ ⟨[7, 8, 9, 10], none⟩ (Octets.copy 16 [1]) 1 (by decide) (by decide)
    (by show (3 : UInt8).toNat ≤ 4; decide)
  exact ⟨hvalid, hpreflight.1.mp hvalid⟩

namespace Wire

/-! ## The limits of the encoders -/

/-- The loop of `rejectDuplicateTLVs` passes iff the types are new and distinct. -/
theorem rejectDuplicateLoop_eq_ok_iff {seen : UInt8 → Bool} {fields : List TLV} :
    rejectDuplicateLoop seen fields = .ok () ↔
      (fields.map TLV.type).Nodup ∧ ∀ field ∈ fields, seen field.type = false := by
  induction fields generalizing seen with
  | nil => simp [rejectDuplicateLoop]
  | cons field fields ih =>
      unfold rejectDuplicateLoop
      by_cases hseen : seen field.type = true
      · simp [hseen]
      · rw [if_neg hseen, ih]
        simp only [Bool.not_eq_true] at hseen
        simp only [List.map_cons, List.nodup_cons, List.mem_map, not_exists, not_and,
          List.mem_cons, forall_eq_or_imp, Bool.or_eq_false_iff, decide_eq_false_iff_not, hseen,
          true_and]
        constructor
        · rintro ⟨hnodup, hnew⟩
          exact ⟨⟨fun other hother => (hnew other hother).1, hnodup⟩,
            fun other hother => (hnew other hother).2⟩
        · rintro ⟨⟨hnew, hnodup⟩, hold⟩
          exact ⟨hnodup, fun other hother => ⟨hnew other hother, hold other hother⟩⟩

theorem rejectDuplicateTLVs_eq_ok_iff {fields : List TLV} :
    rejectDuplicateTLVs fields = .ok () ↔ (fields.map TLV.type).Nodup := by
  unfold rejectDuplicateTLVs
  rw [rejectDuplicateLoop_eq_ok_iff]
  simp

theorem EncryptedData.marshals_iff {m : EncryptedData} (hdistinct : (m.fields.map TLV.type).Nodup) :
    (∃ data, m.marshalBinary = .ok data) ↔
      4 + (m.fields.map fun field => align4 (3 + field.value.length)).sum ≤
        maxEncryptedPayloadSize := by
  rw [← tlvOctets_length]
  constructor
  · rintro ⟨data, hdata⟩
    obtain ⟨-, -, hle⟩ := marshalBinary_eq_ok hdata
    simp only [maxEncryptedPayloadSize, maxFrameSize, headerSize, aeadTagSize] at *
    omega
  · intro hle
    have hlimit : 4 + (tlvOctets m.fields).length ≤ 65479 := hle
    have hencode : encodeTLVs m.fields = .ok (tlvOctets m.fields) :=
      encodeTLVs_eq_ok_iff.mpr ⟨rfl, by simp only [maxTLVSequenceSize]; omega⟩
    have hroom : ¬ maxEncryptedPayloadSize - 4 < (tlvOctets m.fields).length := by
      show ¬ 65475 < _
      omega
    simp only [marshalBinary, rejectDuplicateTLVs_eq_ok_iff.mpr hdistinct, hencode, hroom, if_false]
    exact ⟨_, rfl⟩

theorem SessionClose.marshals_iff {m : SessionClose} (hcode : m.code ≤ 3)
    (hutf8 : utf8Valid m.reason = true) (hne : m.reason ≠ []) :
    (∃ data, m.marshalBinary = .ok data) ↔
      2 + align4 (3 + m.reason.length) ≤ maxEncryptedPayloadSize := by
  -- alignment makes the limit a step function: 65473 octets are the last that fit
  have hlimit : 2 + align4 (3 + m.reason.length) ≤ maxEncryptedPayloadSize ↔
      m.reason.length ≤ maxReasonSize := by
    show 2 + (3 + m.reason.length + 3) / 4 * 4 ≤ 65479 ↔ m.reason.length ≤ 65473
    omega
  rw [hlimit]
  unfold marshalBinary
  rw [if_neg (UInt16.not_lt.mpr hcode)]
  constructor
  · rintro ⟨data, hdata⟩
    by_contra hlong
    simp [marshalTextMessage, hutf8, Nat.not_le.mp hlong] at hdata
  · intro hle
    exact ⟨_, marshalTextMessage_of_ne_nil hutf8 hle hne⟩

theorem ErrorMessage.marshals_iff {m : ErrorMessage} (hutf8 : utf8Valid m.context = true) :
    (∃ data, m.marshalBinary = .ok data) ↔ 2 + m.context.length ≤ maxEncryptedPayloadSize := by
  have hlimit : 2 + m.context.length ≤ maxEncryptedPayloadSize ↔
      ¬ maxErrorContextSize < m.context.length := by
    show 2 + m.context.length ≤ 65479 ↔ ¬ 65477 < m.context.length
    omega
  rw [hlimit]
  by_cases hlong : maxErrorContextSize < m.context.length
  · simp [marshalBinary, hutf8, hlong]
  · simp [marshalBinary, hutf8, hlong]

theorem Ack.marshals_iff {m : Ack} :
    (∃ data, m.marshalBinary = .ok data) ↔
      1 ≤ m.sequences.length ∧ m.sequences.length ≤ maxAckSequences := by
  unfold marshalBinary
  by_cases hcount : m.sequences.length < 1 ∨ maxAckSequences < m.sequences.length
  · simp only [hcount, if_true, reduceCtorEq, exists_false, false_iff]
    omega
  · simp only [hcount, if_false, Except.ok.injEq, exists_eq', true_iff]
    omega

/-! ## What marshals fits a frame -/

theorem SessionClose.marshalBinary_length_le {m : SessionClose} {data : List UInt8}
    (h : m.marshalBinary = .ok data) : data.length ≤ maxEncryptedPayloadSize := by
  unfold marshalBinary marshalTextMessage at h
  split_ifs at h with hcode hutf8 hlong hempty
  · obtain rfl := Except.ok.inj h
    rw [putUint16_length]
    decide
  · have hvalue : m.reason.length ≤ maxTLVValueSize := (Nat.not_lt.mp hlong).trans (by decide)
    rw [textField_eq hlong] at h
    simp only [TLV.marshalBinary_of_le (t := ⟨textTLVType, m.reason⟩) hvalue] at h
    obtain rfl := Except.ok.inj h
    rw [List.length_append, putUint16_length, TLV.octets_length]
    have hreason : m.reason.length ≤ 65473 := Nat.not_lt.mp hlong
    show 2 + (3 + m.reason.length + 3) / 4 * 4 ≤ 65479
    omega

theorem length_flatMap_putUint64 (sequences : List UInt64) :
    (sequences.flatMap putUint64).length = 8 * sequences.length := by
  induction sequences with
  | nil => rfl
  | cons sequence sequences ih =>
      rw [List.flatMap_cons, List.length_append, putUint64_length, ih, List.length_cons]
      omega

/-- Every encoder keeps to the payload limit of an encrypted frame. -/
theorem Message.marshalBinary_length_le {m : Message} {data : List UInt8}
    (h : m.marshalBinary = .ok data) : data.length ≤ maxEncryptedPayloadSize := by
  cases m with
  | encryptedData m =>
      obtain ⟨-, rfl, hle⟩ := EncryptedData.marshalBinary_eq_ok h
      have hfields : (tlvOctets m.fields).length ≤ 65475 := hle
      show _ ≤ 65479
      simp only [List.length_append, putUint16_length, List.length_cons, List.length_nil]
      omega
  | pingPong m =>
      obtain rfl := Except.ok.inj h
      simp only [PingPong.marshalBinary, List.length_cons, putUint64_length]
      decide
  | sessionClose m => exact SessionClose.marshalBinary_length_le h
  | ack m =>
      simp only [Message.marshalBinary, Ack.marshalBinary] at h
      split_ifs at h with hcount
      obtain rfl := Except.ok.inj h
      rw [List.length_cons, length_flatMap_putUint64]
      simp only [maxAckSequences] at hcount
      show _ ≤ 65479
      omega
  | rekeyInit m =>
      simp only [Message.marshalBinary, RekeyInit.marshalBinary] at h
      split_ifs at h
      obtain rfl := Except.ok.inj h
      rw [List.length_append, putUint32_length, m.keyConfirm.property]
      decide
  | error m =>
      simp only [Message.marshalBinary, ErrorMessage.marshalBinary] at h
      split_ifs at h with hutf8 hlong
      obtain rfl := Except.ok.inj h
      have hcontext : m.context.length ≤ 65477 := Nat.not_lt.mp hlong
      rw [List.length_append, putUint16_length]
      show _ ≤ 65479
      omega

end Wire

/-- **Message limits are exactly the frame limit.**  Whatever `Send` accepts and
marshals has at most 65479 octets, so that `Codec.Encrypt` reports `ErrPayloadTooLarge` for
it iff the padding takes it beyond that number, and never without padding.  Conversely
nothing that fits is refused: distinct fields, a valid reason, a valid context and a list
of sequences marshal exactly up to the limit. -/
theorem message_limits_tight :
    (∀ value messageType m data, outboundMessage value = .ok (messageType, m) →
      m.marshalBinary = .ok data →
      data.length ≤ 65479 ∧
      ∀ (P : Primitives) (c : Codec) (random : Reader) (sessionID : Octets 16)
        (sequence : UInt64) (padLength : UInt8),
        sessionID ≠ Octets.zero 16 → sequence ≠ 0 →
        ((∃ err, (c.encrypt P random messageType sessionID sequence data padLength).2 =
            .error err ∧ err.is .payloadTooLarge) ↔
          65479 < data.length + padLength.toNat) ∧
        ¬ ∃ err, (c.encrypt P random messageType sessionID sequence data 0).2 = .error err ∧
          err.is .payloadTooLarge) ∧
    (∀ m : EncryptedData, (m.fields.map TLV.type).Nodup →
      ((∃ data, m.marshalBinary = .ok data) ↔
        4 + (m.fields.map fun field => align4 (3 + field.value.length)).sum ≤ 65479)) ∧
    (∀ m : SessionClose, m.code ≤ 3 → m.reason ≠ [] → utf8Valid m.reason = true →
      ((∃ data, m.marshalBinary = .ok data) ↔ 2 + align4 (3 + m.reason.length) ≤ 65479)) ∧
    (∀ m : ErrorMessage, utf8Valid m.context = true →
      ((∃ data, m.marshalBinary = .ok data) ↔ 2 + m.context.length ≤ 65479)) ∧
    ∀ m : Ack, (∃ data, m.marshalBinary = .ok data) ↔
      1 ≤ m.sequences.length ∧ m.sequences.length ≤ 255 := by
  refine ⟨?_, fun m => EncryptedData.marshals_iff,
    fun m hcode hne hutf8 => SessionClose.marshals_iff hcode hutf8 hne,
    fun m => ErrorMessage.marshals_iff, fun m => Ack.marshals_iff⟩
  intro value messageType m data hvalue hdata
  obtain ⟨rfl, -, -⟩ := outboundMessage_eq_ok hvalue
  have hlength : data.length ≤ 65479 := Message.marshalBinary_length_le hdata
  refine ⟨hlength, ?_⟩
  intro P c random sessionID sequence padLength hsession hsequence
  have hheader := validateEncryptedHeader_kind m.kind hsession hsequence
  constructor
  · exact Codec.encrypt_payloadTooLarge_iff P random c data padLength hheader
  · rw [Codec.encrypt_payloadTooLarge_iff P random c data 0 hheader]
    exact Nat.not_lt.mpr hlength

/-- A ping of nine octets fits with every padding. -/
theorem message_limits_tight_ping :
    ¬ ∃ err, (Codec.encrypt transparent ⟨[], none⟩ ⟨counterKey 5⟩ MessageType.pingPong
      (Octets.copy 16 [1]) 1 (PingPong.marshalBinary ⟨false, 1⟩) 255).2 = .error err ∧
        err.is .payloadTooLarge := by
  have hlimits := (message_limits_tight.1 (.value (.pingPong ⟨false, 1⟩)) MessageType.pingPong
    (.pingPong ⟨false, 1⟩) _ rfl rfl).2 transparent ⟨counterKey 5⟩ ⟨[], none⟩
    (Octets.copy 16 [1]) 1 255 (by decide) (by decide)
  rw [hlimits.1]
  decide

end DgProto
