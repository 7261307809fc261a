import DgProto.Crypto.Primitives
import DgProto.Wire.Frame

/-!
# The data-frame codec

`Codec.Encrypt` and `Codec.Decrypt`: authenticated encryption of one frame, with
the header and the cleartext padding as associated data and the sequence number
as nonce.  Encryption also reports the calls to `Seal` that it made, so that
results can speak about every use of a key, including one on a path that
returned an error.

`encrypt_cases` says what an encryption can do and `decrypt_frame` that
decryption recovers what was sealed.
-/

namespace DgProto
namespace Crypto

open Library Wire

/-- The values of `CipherSuite`. -/
abbrev CipherSuite := UInt8

/-- `CipherChaCha20Poly1305`. -/
def cipherChaCha20Poly1305 : CipherSuite := 1

/-- A codec is its AEAD instance, which is given by the key. -/
structure Codec where
  key : Key
  deriving DecidableEq

/-- `NewCodec`. -/
def newCodec (P : Primitives) (suite : CipherSuite) (key : List UInt8) : Except Error Codec :=
  if suite ≠ cipherChaCha20Poly1305 then
    .error (Sentinel.unsupportedCipher.wrap s!"{suite}")
  else if key.length ≠ keySize then
    .error (Sentinel.invalidKeySize.wrap s!"got {key.length}, want {keySize}")
  else
    match P.aeadNew key with
    | some text => .error (Error.foreign text)
    | none => .ok ⟨Octets.copy 32 key⟩

/-- A source of random octets: what it yields, and how it then fails. -/
structure Reader where
  octets : List UInt8
  /-- The error after the octets; `none` is `io.EOF`. -/
  failure : Option String

/-- `io.ReadFull`. -/
def Reader.readFull (reader : Reader) (length : Nat) : Except Error (List UInt8) :=
  if length ≤ reader.octets.length then
    .ok (reader.octets.take length)
  else
    match reader.failure with
    | some text => .error (Error.foreign text)
    | none =>
        if reader.octets = [] then .error Sentinel.ioEOF.bare
        else .error Sentinel.ioUnexpectedEOF.bare

/-- `randomBytes`; a length is never negative here. -/
def randomBytes (reader : Reader) (length : Nat) : Except Error (List UInt8) :=
  if 255 < length then .error Sentinel.paddingLength.bare
  else reader.readFull length

/-- `nonce`: four zero octets and the sequence number. -/
def nonce (sequence : UInt64) : List UInt8 :=
  List.replicate 4 0 ++ putUint64 sequence

/-- Distinct sequence numbers give distinct nonces. -/
theorem nonce_injective : Function.Injective nonce := by
  intro a b h
  have hwords := congrArg readUint64 (List.append_cancel_left h)
  simpa using hwords

/-- `validateEncryptedHeader`. -/
def validateEncryptedHeader (messageType : MessageType) (sessionID : Octets 16)
    (sequence : UInt64) : Except Error Unit :=
  if messageType < MessageType.encryptedData ∨ MessageType.error < messageType ∨
      messageType = MessageType.resumptionTicket then
    .error (Sentinel.unencryptedType.wrap ("0x" ++ hex02 messageType.toNat))
  else if sequence = 0 then
    .error Sentinel.invalidSequence.bare
  else if sessionID = Octets.zero 16 then
    .error Sentinel.invalidSessionID.bare
  else
    .ok ()

/-- One call to `Seal`: the key and sequence number it runs under and its input. -/
structure SealCall where
  key : Key
  sequence : UInt64
  plaintext : List UInt8
  aad : List UInt8
  deriving DecidableEq

/-- The sealed text that the call returns. -/
def SealCall.output (P : Primitives) (call : SealCall) : List UInt8 :=
  P.sealText call.key (nonce call.sequence) call.plaintext call.aad

namespace Codec

/-- `Codec.Encrypt`: the calls to `Seal` that were made, and the result. -/
def encrypt (P : Primitives) (random : Reader) (c : Codec) (messageType : MessageType)
    (sessionID : Octets 16) (sequence : UInt64) (plaintext : List UInt8) (padLength : UInt8) :
    List SealCall × Except Error Frame :=
  match validateEncryptedHeader messageType sessionID sequence with
  | .error err => ([], .error err)
  | .ok () =>
      if maxFrameSize < headerSize + plaintext.length + aeadTagSize + padLength.toNat then
        ([], .error (Sentinel.payloadTooLarge.wrap s!"{plaintext.length} bytes"))
      else
        let header := newHeader messageType sessionID sequence
          (UInt32.ofNat plaintext.length) padLength
        match header.marshalBinary true with
        | .error err => ([], .error err)
        | .ok headerBytes =>
            match randomBytes random padLength.toNat with
            | .error err =>
                ([], .error ⟨err.kinds, "dgproto: generate padding: " ++ err.text⟩)
            | .ok padding =>
                let call : SealCall := ⟨c.key, sequence, plaintext, headerBytes ++ padding⟩
                let sealed := call.output P
                ([call], newFrame messageType sessionID sequence
                  (sealed.take plaintext.length) (sealed.drop plaintext.length) padding)

/-- `Codec.Decrypt`. -/
def decrypt (P : Primitives) (c : Codec) (frame : Frame) : Except Error (List UInt8) :=
  match frame.validateReceive with
  | .error err => .error err
  | .ok () =>
      match validateEncryptedHeader frame.header.messageType frame.header.sessionID
          frame.header.sequence with
      | .error err => .error err
      | .ok () =>
          match frame.header.marshalBinary false with
          | .error err => .error err
          | .ok headerBytes =>
              match P.openText c.key (nonce frame.header.sequence)
                  (frame.payload ++ frame.tag.val) (headerBytes ++ frame.padding) with
              | none => .error Sentinel.authentication.bare
              | some plaintext => .ok plaintext

end Codec

/-! ## What an encryption can do -/

theorem validateEncryptedHeader_eq_ok_iff {messageType : MessageType} {sessionID : Octets 16}
    {sequence : UInt64} :
    validateEncryptedHeader messageType sessionID sequence = .ok () ↔
      ¬ (messageType < MessageType.encryptedData ∨ MessageType.error < messageType ∨
          messageType = MessageType.resumptionTicket) ∧
        sequence ≠ 0 ∧ sessionID ≠ Octets.zero 16 := by
  unfold validateEncryptedHeader
  split_ifs <;> simp_all

/-- Header and padding are separated by the header's size, payload and tag by the
tag's: the associated data and the sealed text determine the frame. -/
theorem frame_eq_of_parts {f g : Frame}
    (hsealed : f.payload ++ f.tag.val = g.payload ++ g.tag.val)
    (haad : f.header.octets ++ f.padding = g.header.octets ++ g.padding) : f = g := by
  obtain ⟨hoctets, hpadding⟩ := List.append_inj haad (by simp)
  obtain ⟨hpayload, htag⟩ := List.append_inj' hsealed
    (f.tag.property.trans g.tag.property.symm)
  have hheader := Header.octets_injective hoctets
  have htag' := Subtype.ext htag
  cases f
  cases g
  simp_all

/-- What one encryption puts into a frame. -/
structure Packet where
  messageType : MessageType
  sessionID : Octets 16
  sequence : UInt64
  plaintext : List UInt8
  padding : List UInt8
  deriving DecidableEq

namespace Packet

/-- The packet passes every check in front of `Seal`. -/
structure Sendable (p : Packet) : Prop where
  header : validateEncryptedHeader p.messageType p.sessionID p.sequence = .ok ()
  padding : p.padding.length ≤ 255
  size : headerSize + p.plaintext.length + aeadTagSize + p.padding.length ≤ maxFrameSize

def header (p : Packet) : Header :=
  newHeader p.messageType p.sessionID p.sequence (UInt32.ofNat p.plaintext.length)
    (UInt8.ofNat p.padding.length)

@[simp] theorem header_messageType (p : Packet) : p.header.messageType = p.messageType := rfl

@[simp] theorem header_sequence (p : Packet) : p.header.sequence = p.sequence := rfl

@[simp] theorem header_sessionID (p : Packet) : p.header.sessionID = p.sessionID := rfl

/-- The call to `Seal` for the packet under a key. -/
def sealCall (p : Packet) (key : Key) : SealCall :=
  ⟨key, p.sequence, p.plaintext, p.header.octets ++ p.padding⟩

/-- The frame that carries the packet under a key. -/
def frame (P : Primitives) (p : Packet) (key : Key) : Frame where
  header := p.header
  payload := ((p.sealCall key).output P).take p.plaintext.length
  tag := Octets.copy 16 (((p.sealCall key).output P).drop p.plaintext.length)
  padding := p.padding

variable {P : Primitives} {p : Packet} {key : Key}

@[simp] theorem frame_header : (p.frame P key).header = p.header := rfl

@[simp] theorem frame_padding : (p.frame P key).padding = p.padding := rfl

theorem output_length : ((p.sealCall key).output P).length = p.plaintext.length + 16 :=
  P.seal_length _ _ _ _

theorem frame_tag_val :
    (p.frame P key).tag.val = ((p.sealCall key).output P).drop p.plaintext.length :=
  Octets.copy_val (by simp [output_length])

@[simp] theorem frame_payload_append_tag :
    (p.frame P key).payload ++ (p.frame P key).tag.val = (p.sealCall key).output P := by
  rw [frame_tag_val]
  exact List.take_append_drop _ _

/-- Associated data and sealed text determine the frame. -/
theorem eq_frame_of_sealed {f : Frame}
    (haad : (p.sealCall key).aad = f.header.octets ++ f.padding)
    (hsealed : (p.sealCall key).output P = f.payload ++ f.tag.val) : f = p.frame P key := by
  rw [← frame_payload_append_tag] at hsealed
  exact frame_eq_of_parts hsealed.symm haad.symm

theorem payloadLength_toNat (h : p.Sendable) :
    p.header.payloadLength.toNat = p.plaintext.length := by
  have hsize := h.size
  simp only [maxFrameSize] at hsize
  exact UInt32.toNat_ofNat_of_lt' (by simp [UInt32.size]; omega)

theorem padLength_toNat (h : p.Sendable) : p.header.padLength.toNat = p.padding.length := by
  have hpadding := h.padding
  exact UInt8.toNat_ofNat_of_lt' (by simp [UInt8.size]; omega)

theorem header_hasAEADTag (h : p.Sendable) : p.header.hasAEADTag = true := by
  have htype := (validateEncryptedHeader_eq_ok_iff.mp h.header).1
  have hne (other : MessageType) (hother : other < MessageType.encryptedData) :
      p.messageType ≠ other := by
    rintro heq
    exact htype (.inl (heq ▸ hother))
  simp only [Header.hasAEADTag, Bool.and_eq_true, bne_iff_ne]
  exact ⟨hne _ (by decide), hne _ (by decide)⟩

theorem header_frameSize (h : p.Sendable) :
    p.header.frameSize =
      headerSize + p.plaintext.length + aeadTagSize + p.padding.length := by
  simp only [Header.frameSize, payloadLength_toNat h, padLength_toNat h, header_hasAEADTag h,
    if_true]
  omega

end Packet

/-- A header made by `NewHeader` is canonical as soon as its frame fits. -/
theorem newHeader_validate {messageType : MessageType} {sessionID : Octets 16}
    {sequence : UInt64} {payloadLength : UInt32} {padLength : UInt8}
    (hsize : (newHeader messageType sessionID sequence payloadLength padLength).frameSize ≤
      maxFrameSize) :
    (newHeader messageType sessionID sequence payloadLength padLength).validate = .ok () := by
  rw [Header.validate_eq_ok_iff]
  refine ⟨⟨rfl, ?_, hsize⟩, ?_, rfl⟩
  · by_cases hpad : padLength = 0
    · simp [newHeader, hpad]
    · simp [newHeader, hpad, flagPadding]
  · by_cases hpad : padLength = 0
    · simp [newHeader, hpad]
    · simp [newHeader, hpad, flagPadding]

namespace Packet

variable {p : Packet}

theorem header_validate (h : p.Sendable) : p.header.validate = .ok () :=
  newHeader_validate (by
    have hsize := h.size
    rw [← header_frameSize h] at hsize
    exact hsize)

/-- The frame of a sendable packet is in canonical sender form. -/
theorem frame_validate (P : Primitives) (key : Key) (h : p.Sendable) :
    (p.frame P key).validate = .ok () := by
  rw [Frame.validate_eq_ok_iff, Frame.validateLengths_eq_ok_iff]
  refine ⟨header_validate h, ?_, ?_⟩
  · rw [frame_header, payloadLength_toNat h]
    simp [frame, output_length]
  · rw [frame_header, padLength_toNat h, frame_padding]

theorem newFrame_sealed (P : Primitives) (key : Key) (h : p.Sendable) :
    newFrame p.messageType p.sessionID p.sequence
      (((p.sealCall key).output P).take p.plaintext.length)
      (((p.sealCall key).output P).drop p.plaintext.length) p.padding =
      .ok (p.frame P key) := by
  have hsize := h.size
  have hframe := header_frameSize h
  have htag := header_hasAEADTag h
  have hlength : (((p.sealCall key).output P).take p.plaintext.length).length =
      p.plaintext.length := by simp [output_length]
  have hrest : (((p.sealCall key).output P).drop p.plaintext.length).length = aeadTagSize := by
    simp [output_length, aeadTagSize]
  unfold newFrame
  rw [if_neg (Nat.not_lt.mpr h.padding), hlength,
    if_neg (by simp only [maxFrameSize] at hsize; omega)]
  simp only [show newHeader p.messageType p.sessionID p.sequence
    (UInt32.ofNat p.plaintext.length) (UInt8.ofNat p.padding.length) = p.header from rfl,
    htag, hrest, hframe, if_neg (Nat.not_lt.mpr hsize), ne_eq, not_true_eq_false, and_false,
    false_and, if_false, if_true]
  rfl

end Packet

theorem randomBytes_length {reader : Reader} {length : Nat} {padding : List UInt8}
    (h : randomBytes reader length = .ok padding) :
    padding.length = length ∧ padding.length ≤ 255 := by
  unfold randomBytes Reader.readFull at h
  by_cases hlong : 255 < length
  · simp [hlong] at h
  · by_cases hfull : length ≤ reader.octets.length
    · simp only [hlong, hfull, if_false, if_true, Except.ok.injEq] at h
      rw [← h, List.length_take]
      omega
    · simp only [hlong, hfull, if_false] at h
      split at h
      · cases h
      · split at h <;> cases h

theorem randomBytes_error {reader : Reader} {length : Nat} {err : Error}
    (h : randomBytes reader length = .error err) :
    err.kinds ⊆ [.paddingLength, .ioEOF, .ioUnexpectedEOF] := by
  unfold randomBytes Reader.readFull at h
  by_cases hlong : 255 < length
  · obtain rfl : Sentinel.paddingLength.bare = err := by simpa [hlong] using h
    decide
  · by_cases hfull : length ≤ reader.octets.length
    · simp [hlong, hfull] at h
    · simp only [hlong, hfull, if_false] at h
      split at h
      · obtain rfl := Except.error.inj h
        exact List.nil_subset _
      · split at h
        · obtain rfl := Except.error.inj h
          decide
        · obtain rfl := Except.error.inj h
          decide

theorem validateEncryptedHeader_error {messageType : MessageType} {sessionID : Octets 16}
    {sequence : UInt64} {err : Error}
    (h : validateEncryptedHeader messageType sessionID sequence = .error err) :
    err.kinds ⊆ [.unencryptedType, .invalidSequence, .invalidSessionID] := by
  unfold validateEncryptedHeader at h
  split_ifs at h
  · obtain rfl := Except.error.inj h
    exact wrap_kinds_subset (by decide)
  · obtain rfl := Except.error.inj h
    exact bare_kinds_subset (by decide)
  · obtain rfl := Except.error.inj h
    exact bare_kinds_subset (by decide)

/-- The sentinels of `Codec.Encrypt`. -/
def encryptSentinels : List Sentinel :=
  [.unencryptedType, .invalidSequence, .invalidSessionID, .payloadTooLarge, .paddingLength,
    .ioEOF, .ioUnexpectedEOF]

namespace Codec

variable (P : Primitives) (random : Reader) (c : Codec) (messageType : MessageType)
  (sessionID : Octets 16) (sequence : UInt64) (plaintext : List UInt8) (padLength : UInt8)

/-- Behind the checks only the random source can fail, and then before `Seal`. -/
theorem encrypt_eq (hvalid : validateEncryptedHeader messageType sessionID sequence = .ok ())
    (hsize : headerSize + plaintext.length + aeadTagSize + padLength.toNat ≤ maxFrameSize) :
    c.encrypt P random messageType sessionID sequence plaintext padLength =
      match randomBytes random padLength.toNat with
      | .error err => ([], .error ⟨err.kinds, "dgproto: generate padding: " ++ err.text⟩)
      | .ok padding =>
          ([Packet.sealCall ⟨messageType, sessionID, sequence, plaintext, padding⟩ c.key],
            .ok (Packet.frame P ⟨messageType, sessionID, sequence, plaintext, padding⟩
              c.key)) := by
  -- the header depends on the length of the padding only, so any padding of the
  -- requested length shows that it marshals
  have hpacket (padding : List UInt8) (hlength : padding.length = padLength.toNat) :
      Packet.Sendable ⟨messageType, sessionID, sequence, plaintext, padding⟩ :=
    ⟨hvalid, by have := padLength.toNat_lt; simp only [hlength]; omega,
      by simp only [hlength]; omega⟩
  have hheader (padding : List UInt8) (hlength : padding.length = padLength.toNat) :
      Packet.header ⟨messageType, sessionID, sequence, plaintext, padding⟩ =
        newHeader messageType sessionID sequence (UInt32.ofNat plaintext.length)
          padLength := by
    simp [Packet.header, hlength]
  have hmarshal := Header.marshalBinary_send (Packet.header_validate
    (hpacket (List.replicate padLength.toNat 0) List.length_replicate))
  rw [hheader _ List.length_replicate] at hmarshal
  unfold encrypt
  cases hrandom : randomBytes random padLength.toNat with
  | error err => simp only [hvalid, Nat.not_lt.mpr hsize, if_false, hmarshal]
  | ok padding =>
      have hlength := (randomBytes_length hrandom).1
      have hframe := Packet.newFrame_sealed P c.key (hpacket padding hlength)
      simp only [Packet.sealCall, hheader padding hlength] at hframe
      simp only [hvalid, Nat.not_lt.mpr hsize, if_false, hmarshal, Packet.sealCall,
        hheader padding hlength, hframe]

/-- Either some check in front of `Seal` fails, or `Seal` is called once and the
frame with its output is returned: no error follows a call to `Seal`. -/
theorem encrypt_cases :
    (∃ err, c.encrypt P random messageType sessionID sequence plaintext padLength =
        ([], .error err) ∧ err.kinds ⊆ encryptSentinels) ∨
      ∃ p : Packet, p.Sendable ∧ p.messageType = messageType ∧ p.sessionID = sessionID ∧
        p.sequence = sequence ∧ p.plaintext = plaintext ∧
        randomBytes random padLength.toNat = .ok p.padding ∧
        c.encrypt P random messageType sessionID sequence plaintext padLength =
          ([p.sealCall c.key], .ok (p.frame P c.key)) := by
  cases hvalid : validateEncryptedHeader messageType sessionID sequence with
  | error err =>
      left
      refine ⟨err, ?_, List.Subset.trans (validateEncryptedHeader_error hvalid) (by decide)⟩
      simp only [encrypt, hvalid]
  | ok _ =>
      by_cases hsize : maxFrameSize <
          headerSize + plaintext.length + aeadTagSize + padLength.toNat
      · left
        refine ⟨Sentinel.payloadTooLarge.wrap s!"{plaintext.length} bytes", ?_,
          wrap_kinds_subset (by decide)⟩
        simp only [encrypt, hvalid, hsize, if_true]
      · rw [encrypt_eq P random c messageType sessionID sequence plaintext padLength hvalid
          (Nat.not_lt.mp hsize)]
        cases hrandom : randomBytes random padLength.toNat with
        | error err =>
            have hkinds : err.kinds ⊆ encryptSentinels :=
              List.Subset.trans (randomBytes_error hrandom) (by decide)
            exact .inl ⟨_, rfl, hkinds⟩
        | ok padding =>
            obtain ⟨hlength, hpadding⟩ := randomBytes_length hrandom
            refine .inr ⟨⟨messageType, sessionID, sequence, plaintext, padding⟩,
              ⟨hvalid, hpadding, ?_⟩, rfl, rfl, rfl, rfl, rfl, rfl⟩
            show headerSize + plaintext.length + aeadTagSize + padding.length ≤ maxFrameSize
            omega

end Codec

/-! ## Decryption -/

namespace Codec

variable {P : Primitives} {c : Codec} {frame : Frame} {plaintext : List UInt8}

/-- What a successful decryption checked. -/
theorem decrypt_eq_ok (h : c.decrypt P frame = .ok plaintext) :
    frame.validateReceive = .ok () ∧
      P.openText c.key (nonce frame.header.sequence) (frame.payload ++ frame.tag.val)
        (frame.header.octets ++ frame.padding) = some plaintext := by
  unfold decrypt at h
  split at h
  · cases h
  · rename_i hvalid
    split at h
    · cases h
    · split at h
      · cases h
      · rename_i headerBytes hmarshal
        rw [Header.marshalBinary_eq_ok hmarshal] at h
        split at h
        · cases h
        · rename_i opened hopen
          obtain rfl := Except.ok.inj h
          exact ⟨hvalid, hopen⟩

/-- Decryption recovers the plaintext of every packet sealed under the key. -/
theorem decrypt_frame (hopen : P.OpenInvertsSeal) {p : Packet} {key : Key} (h : p.Sendable) :
    Codec.decrypt P ⟨key⟩ (p.frame P key) = .ok p.plaintext := by
  have hreceive := Frame.validateReceive_of_validate (Packet.frame_validate P key h)
  have hmarshal := Header.marshalBinary_receive
    (Header.validateReceive_of_validate (Packet.header_validate h))
  have hheader : validateEncryptedHeader p.header.messageType p.header.sessionID
      p.header.sequence = .ok () := h.header
  have htext : P.openText key (nonce p.header.sequence) ((p.sealCall key).output P)
      (p.header.octets ++ p.padding) = some p.plaintext :=
    hopen key (nonce p.sequence) p.plaintext (p.header.octets ++ p.padding)
  simp only [decrypt, hreceive, Packet.frame_header, hheader, hmarshal,
    Packet.frame_payload_append_tag, Packet.frame_padding, htext]

end Codec

theorem newCodec_eq_ok {P : Primitives} {suite : CipherSuite} {key : Key} {c : Codec}
    (h : newCodec P suite key.val = .ok c) :
    suite = cipherChaCha20Poly1305 ∧ c = ⟨key⟩ := by
  unfold newCodec at h
  split_ifs at h with hsuite hlength
  split at h
  · cases h
  · exact ⟨not_not.mp hsuite, by simpa using (Except.ok.inj h).symm⟩

theorem newCodec_of_new {P : Primitives} (hnew : P.NewSucceeds) (key : Key) :
    newCodec P cipherChaCha20Poly1305 key.val = .ok ⟨key⟩ := by
  have hkey : key.val.length = keySize := key.property
  simp [newCodec, hkey, hnew key.val hkey]

end Crypto
end DgProto
