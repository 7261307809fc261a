import DgProto.Wire.Messages
import DgProto.Wire.TlvGrammar

/-!
# Typed messages through the dispatch tables

The two type switches of a session agree: what `outboundMessage` accepts is decoded,
under the message type it was given, by a value of its own Go type and comes back as it
was.

In the other direction, decoding and encoding again is a canonicalisation.  Whatever a
decoder accepts its encoder accepts too, at no larger a size, and decodes to the same
value.  The formats without alignment are reproduced octet by octet; the two with TLVs
lose their alignment octets, and a session close loses an empty text, which the encoder
leaves out.
-/

namespace DgProto
namespace Wire

open Library

/-! ## The round trip through the dispatch tables -/

/-- What `outboundMessage` accepts: values and non-nil pointers of the five types, under
the message type of their kind. -/
theorem outboundMessage_eq_ok_iff {value : AnyValue} {messageType : MessageType} {m : Message} :
    outboundMessage value = .ok (messageType, m) ↔
      (value = .value m ∨ value = .pointer m) ∧ m.kind ≠ .rekeyInit ∧
        messageType = m.kind.type := by
  constructor
  · intro h
    obtain ⟨htype, hkind, hvalue⟩ := outboundMessage_eq_ok h
    exact ⟨hvalue, hkind, htype⟩
  · rintro ⟨rfl | rfl, hkind, rfl⟩
    · exact if_neg hkind
    · exact if_neg hkind

/-- Two messages of one kind with the same encoding are equal. -/
theorem Message.marshalBinary_inj {m m' : Message} {data : List UInt8} (hkind : m.kind = m'.kind)
    (h : m.marshalBinary = .ok data) (h' : m'.marshalBinary = .ok data) : m = m' := by
  have hdecode := Message.unmarshalBinary_marshalBinary h
  have hdecode' := Message.unmarshalBinary_marshalBinary h'
  rw [hkind, hdecode'] at hdecode
  exact (Except.ok.inj hdecode).symm

/-- Every accepted message that marshals is decoded, under the assigned message type, by
a value of its own type to an equal message; distinct messages of one type have distinct
encodings. -/
theorem message_round_trip :
    (∀ value messageType m, outboundMessage value = .ok (messageType, m) ↔
      (value = .value m ∨ value = .pointer m) ∧ m.kind ≠ .rekeyInit ∧
        messageType = m.kind.type) ∧
    (∀ value messageType m data, outboundMessage value = .ok (messageType, m) →
      m.marshalBinary = .ok data →
      newInboundMessage messageType = .ok m.kind ∧ m.kind.unmarshalBinary data = .ok m) ∧
    ∀ value value' messageType m m' data, outboundMessage value = .ok (messageType, m) →
      outboundMessage value' = .ok (messageType, m') → m.marshalBinary = .ok data →
      m'.marshalBinary = .ok data → m = m' := by
  refine ⟨fun _ _ _ => outboundMessage_eq_ok_iff, ?_, ?_⟩
  · intro value messageType m data hout hmarshal
    obtain ⟨_, _, rfl⟩ := outboundMessage_eq_ok_iff.mp hout
    exact ⟨newInboundMessage_type m.kind, Message.unmarshalBinary_marshalBinary hmarshal⟩
  · intro value value' messageType m m' data hout hout' hmarshal hmarshal'
    obtain ⟨_, _, rfl⟩ := outboundMessage_eq_ok_iff.mp hout
    obtain ⟨_, _, htype⟩ := outboundMessage_eq_ok_iff.mp hout'
    -- the message type determines the kind
    have hkind := newInboundMessage_type m.kind
    rw [htype, newInboundMessage_type] at hkind
    exact Message.marshalBinary_inj (Except.ok.inj hkind).symm hmarshal hmarshal'

/-- A pong, sent by pointer. -/
theorem message_round_trip_pong :
    newInboundMessage MessageType.pingPong = .ok .pingPong ∧
      MessageKind.pingPong.unmarshalBinary (1 :: putUint64 7) =
        .ok (.pingPong ⟨true, 7⟩) :=
  message_round_trip.2.1 (.pointer (.pingPong ⟨true, 7⟩)) _ _ _ rfl rfl

/-! ## Formats without alignment -/

namespace PingPong

theorem marshalBinary_unmarshalBinary {p : List UInt8} {m : PingPong}
    (h : unmarshalBinary p = .ok m) : m.marshalBinary = p ∧ p.length = pingPongSize := by
  unfold unmarshalBinary at h
  split_ifs at h with hlength hresponse
  obtain rfl := Except.ok.inj h
  have hsize : p.length = pingPongSize := not_not.mp hlength
  refine ⟨?_, hsize⟩
  cases p with
  | nil => cases hsize
  | cons first rest =>
      have hrest : rest.length = 8 := by simpa [pingPongSize] using hsize
      have hflag : (if decide (first = 1) = true then 1 else 0) = first := by
        have hbit : first.toNat ≤ 1 := UInt8.le_iff_toNat_le.mp (UInt8.not_lt.mp hresponse)
        by_cases hone : first = 1
        · simp [hone]
        · have hzero : first.toNat ≠ 1 := fun h => hone (UInt8.toNat_inj.mp h)
          have : first = 0 := UInt8.toNat_inj.mp (by show first.toNat = 0; omega)
          simp [this]
      simp only [marshalBinary, List.getD_cons_zero, List.drop_one, List.tail_cons,
        putUint64_readUint64 hrest, hflag]

end PingPong

namespace Ack

/-- Reading the sequence numbers and writing them again gives the octets back. -/
theorem flatMap_putUint64_readAck (rest : List UInt8) (count : Nat)
    (h : rest.length = 8 * count) :
    ((List.range count).map fun i => readUint64 (rest.drop (8 * i))).flatMap putUint64 =
      rest := by
  induction count generalizing rest with
  | zero =>
      rw [List.eq_nil_of_length_eq_zero h]
      rfl
  | succ count ih =>
      have hfirst : putUint64 (readUint64 rest) = rest.take 8 := by
        have hlength : (rest.take 8).length = 8 := by
          rw [List.length_take]
          omega
        have htake : readUint64 (rest.take 8) = readUint64 rest := by
          simp only [readUint64, List.take_take, Nat.min_self]
        rw [← htake, putUint64_readUint64 hlength]
      have hrest := ih (rest.drop 8) (by rw [List.length_drop]; omega)
      have hshift (i : Nat) : (rest.drop 8).drop (8 * i) = rest.drop (8 * (i + 1)) := by
        rw [List.drop_drop]
        congr 1
        omega
      simp only [hshift] at hrest
      rw [List.range_succ_eq_map, List.map_cons, List.flatMap_cons, List.map_map, Nat.mul_zero,
        List.drop_zero, hfirst]
      show rest.take 8 ++ ((List.range count).map fun i =>
        readUint64 (rest.drop (8 * (i + 1)))).flatMap putUint64 = rest
      rw [hrest, List.take_append_drop]

theorem marshalBinary_unmarshalBinary {p : List UInt8} {m : Ack}
    (h : unmarshalBinary p = .ok m) :
    m.marshalBinary = .ok p ∧ p.length ≤ ackSize maxAckSequences := by
  unfold unmarshalBinary at h
  dsimp only at h
  split_ifs at h with hempty hcount hlength
  obtain rfl := Except.ok.inj h
  have hsize : p.length = ackSize (p.getD 0 0).toNat := not_not.mp hlength
  cases p with
  | nil => simp at hempty
  | cons first rest =>
      simp only [List.getD_cons_zero] at hcount hsize ⊢
      have hrest : rest.length = 8 * first.toNat := by
        simp only [List.length_cons, ackSize] at hsize
        omega
      have hsequences : (readAck (first :: rest) first.toNat).flatMap putUint64 = rest := by
        have hread := flatMap_putUint64_readAck rest first.toNat hrest
        simpa only [readAck, Nat.add_comm 1, List.drop_succ_cons] using hread
      have hnumber : (readAck (first :: rest) first.toNat).length = first.toNat := by
        simp [readAck]
      constructor
      · rw [marshalBinary, if_neg (by rw [hnumber]; exact hcount)]
        simp only [hnumber, hsequences, UInt8.ofNat_toNat]
      · rw [hsize]
        simp only [ackSize, maxAckSequences] at *
        omega

end Ack

namespace RekeyInit

theorem marshalBinary_unmarshalBinary {p : List UInt8} {m : RekeyInit}
    (h : unmarshalBinary p = .ok m) :
    m.marshalBinary = .ok p ∧ p.length = rekeyInitSize := by
  unfold unmarshalBinary at h
  dsimp only at h
  split_ifs at h with hlength hepoch
  obtain rfl := Except.ok.inj h
  have hsize : p.length = rekeyInitSize := not_not.mp hlength
  have hfirst : (slice p 0 4).length = 4 := slice_length (by rw [hsize]; decide)
  have hrest : (slice p 4 rekeyInitSize).length = 32 := slice_length (by rw [hsize])
  refine ⟨?_, hsize⟩
  rw [marshalBinary, if_neg hepoch]
  simp only [putUint32_readUint32 hfirst, Octets.copy_val hrest]
  rw [slice_append_slice p (by decide) (by decide), slice_all (by rw [hsize])]

end RekeyInit

namespace ErrorMessage

theorem marshalBinary_unmarshalBinary {p : List UInt8} {m : ErrorMessage}
    (h : unmarshalBinary p = .ok m) :
    m.marshalBinary = .ok p ∧ p.length ≤ maxEncryptedPayloadSize := by
  unfold unmarshalBinary at h
  split_ifs at h with hshort hlong hutf8
  obtain rfl := Except.ok.inj h
  have hcode : (slice p 0 2).length = 2 := slice_length (by omega)
  refine ⟨?_, Nat.not_lt.mp hlong⟩
  rw [marshalBinary, if_neg (not_not.mpr hutf8), if_neg (by
    simp only [maxErrorContextSize, List.length_drop]
    omega)]
  rw [putUint16_readUint16 hcode, slice_append_drop p (by omega), List.drop_zero]

end ErrorMessage

/-! ## Formats with TLVs -/

/-- Behind `front` octets both inputs carry the same elements; the second has zero
alignment. -/
def SameButAlignment (front : Nat) (p q : List UInt8) : Prop :=
  ∃ elements, p = p.take front ++ tlvSequence elements ∧
    q = p.take front ++ tlvSequence (elements.map TlvElement.zeroed)

/-- The first input is the second with one empty text behind it. -/
def DropsEmptyText (p q : List UInt8) : Prop :=
  ∃ e : TlvElement, e.field = ⟨textTLVType, []⟩ ∧ p = q ++ e.octets

theorem SameButAlignment.length_eq {front : Nat} {p q : List UInt8}
    (h : SameButAlignment front p q) : q.length = p.length := by
  obtain ⟨elements, hp, hq⟩ := h
  have hlength := tlvSequence_length elements
  rw [← tlvSequence_zeroed] at hlength
  rw [hq, congrArg List.length hp, List.length_append, List.length_append, hlength]

/-- A code of two octets is reproduced. -/
theorem putUint16_readUint16_slice {p : List UInt8} (h : 2 ≤ p.length) :
    putUint16 (readUint16 (slice p 0 2)) = p.take 2 := by
  rw [putUint16_readUint16 (slice_length h), slice, List.drop_zero]

namespace EncryptedData

/-- The envelope in front of the fields is reproduced. -/
theorem envelope_eq_take {p : List UInt8} (h : 4 ≤ p.length) (hreserved : p.getD 3 0 = 0) :
    putUint16 (readUint16 (slice p 0 2)) ++ [p.getD 2 0, 0] = p.take 4 := by
  rw [putUint16_readUint16_slice (by omega)]
  match p, h, hreserved with
  | a :: b :: c :: d :: rest, _, hreserved =>
      obtain rfl : d = 0 := hreserved
      rfl

theorem marshalBinary_unmarshalBinary {p : List UInt8} {m : EncryptedData}
    (h : unmarshalBinary p = .ok m) :
    ∃ q, m.marshalBinary = .ok q ∧ SameButAlignment 4 p q ∧
      p.length ≤ maxEncryptedPayloadSize := by
  unfold unmarshalBinary at h
  split_ifs at h with hshort hreserved
  cases hdecode : decodeTLVs (p.drop 4) (maxEncryptedPayloadSize - 4 : Nat) with
  | error err => simp [hdecode] at h
  | ok fields =>
      cases hunique : rejectDuplicateTLVs fields with
      | error err => simp [hdecode, hunique] at h
      | ok _ =>
          simp only [hdecode, hunique, Except.ok.injEq] at h
          subst h
          obtain ⟨hsize, hlimit, elements, hrest, rfl⟩ := decodeTLVs_eq_ok hdecode
          have hlength := tlvSequence_length elements
          rw [← hrest] at hlength
          have hfits : (p.drop 4).length ≤ maxEncryptedPayloadSize - 4 := by
            have hpositive : 0 < maxEncryptedPayloadSize - 4 := by decide
            omega
          have hencode : encodeTLVs (elements.map TlvElement.field) =
              .ok (tlvOctets (elements.map TlvElement.field)) :=
            encodeTLVs_eq_ok_iff.mpr ⟨rfl, hlength ▸ hsize⟩
          have hmarshal : marshalBinary ⟨readUint16 (slice p 0 2), p.getD 2 0,
              elements.map TlvElement.field⟩ =
                .ok (p.take 4 ++ tlvOctets (elements.map TlvElement.field)) := by
            rw [← envelope_eq_take (Nat.not_lt.mp hshort) (not_not.mp hreserved)]
            simp only [marshalBinary, hunique, hencode]
            exact if_neg (by omega)
          refine ⟨_, hmarshal, ⟨elements, ?_, ?_⟩, ?_⟩
          · rw [← hrest, List.take_append_drop]
          · rw [tlvSequence_zeroed]
          · rw [List.length_drop] at hfits
            have hroom : 4 ≤ maxEncryptedPayloadSize := by decide
            omega

end EncryptedData

/-- A decoded text comes from the code alone, or from one element behind it. -/
theorem unmarshalTextMessage_eq_ok {p text : List UInt8} {code : UInt16}
    (h : unmarshalTextMessage p = .ok (code, text)) :
    2 ≤ p.length ∧ code = readUint16 (slice p 0 2) ∧
      ((p.length = 2 ∧ text = []) ∨
        ∃ e : TlvElement, e.field = ⟨textTLVType, text⟩ ∧ utf8Valid text = true ∧
          p.drop 2 = e.octets ∧ e.octets.length ≤ align4 (tlvHeaderSize + maxReasonSize)) := by
  unfold unmarshalTextMessage at h
  dsimp only at h
  split_ifs at h with hshort hcode
  · obtain ⟨rfl, rfl⟩ := Prod.mk.inj (Except.ok.inj h)
    exact ⟨Nat.not_lt.mp hshort, rfl, .inl ⟨hcode, rfl⟩⟩
  cases hdecode : decodeTLVs (p.drop 2) (align4 (tlvHeaderSize + maxReasonSize) : Nat) with
  | error err => simp [hdecode] at h
  | ok fields =>
      obtain ⟨_, hlimit, elements, hrest, rfl⟩ := decodeTLVs_eq_ok hdecode
      cases hunique : rejectDuplicateTLVs (elements.map TlvElement.field) with
      | error err => simp [hdecode, hunique] at h
      | ok _ =>
          simp only [hdecode, hunique] at h
          -- exactly one element, of the text type
          match elements with
          | [] => simp at h
          | [e] =>
              simp only [List.map_cons, List.map_nil] at h
              split_ifs at h with htype hutf8
              obtain ⟨rfl, rfl⟩ := Prod.mk.inj (Except.ok.inj h)
              have hone : p.drop 2 = e.octets := by simpa using hrest
              refine ⟨Nat.not_lt.mp hshort, rfl, .inr ⟨e, ?_, hutf8, hone, ?_⟩⟩
              · exact congrArg (TLV.mk · e.value) (not_not.mp htype)
              · rw [hone] at hlimit
                have hpositive : 0 < align4 (tlvHeaderSize + maxReasonSize) := by decide
                omega
          | e :: e' :: rest => simp at h

theorem marshalTextMessage_nil (code : UInt16) :
    marshalTextMessage code [] = .ok (putUint16 code) := by
  simp [marshalTextMessage, utf8Valid]

theorem marshalTextMessage_of_ne_nil {code : UInt16} {text : List UInt8}
    (hutf8 : utf8Valid text = true) (hsize : text.length ≤ maxReasonSize) (hne : text ≠ []) :
    marshalTextMessage code text = .ok (putUint16 code ++ TLV.octets ⟨textTLVType, text⟩) := by
  have hvalue : text.length ≤ maxTLVValueSize := hsize.trans (by decide)
  have hfield := TLV.marshalBinary_of_le (t := ⟨textTLVType, text⟩) hvalue
  simp only [marshalTextMessage, hutf8, Nat.not_lt.mpr hsize, hne, not_true_eq_false, if_false]
  rw [textField_eq (Nat.not_lt.mpr hsize), hfield]

namespace SessionClose

theorem marshalBinary_unmarshalBinary {p : List UInt8} {m : SessionClose}
    (h : unmarshalBinary p = .ok m) :
    ∃ q, m.marshalBinary = .ok q ∧ (SameButAlignment 2 p q ∨ DropsEmptyText p q) ∧
      p.length ≤ maxEncryptedPayloadSize := by
  unfold unmarshalBinary at h
  cases htext : unmarshalTextMessage p with
  | error err => simp [htext] at h
  | ok result =>
      obtain ⟨code, text⟩ := result
      simp only [htext] at h
      split_ifs at h with hcode
      obtain rfl := Except.ok.inj h
      obtain ⟨hshort, rfl, hparts⟩ := unmarshalTextMessage_eq_ok htext
      have hfront := putUint16_readUint16_slice hshort
      simp only [marshalBinary, if_neg hcode]
      rcases hparts with ⟨hlength, rfl⟩ | ⟨e, hfield, hutf8, hrest, hsize⟩
      · -- the code alone
        have hwhole : p.take 2 = p := List.take_of_length_le (by omega)
        refine ⟨p, ?_, .inl ⟨[], ?_, ?_⟩, ?_⟩
        · rw [marshalTextMessage_nil, hfront, hwhole]
        · simp [hwhole]
        · simp [hwhole]
        · rw [hlength]
          decide
      have hp : p = p.take 2 ++ e.octets := by rw [← hrest, List.take_append_drop]
      have hbound : p.length ≤ maxEncryptedPayloadSize := by
        have hlimit : 2 + align4 (tlvHeaderSize + maxReasonSize) ≤ maxEncryptedPayloadSize := by
          decide
        rw [← hrest, List.length_drop] at hsize
        omega
      have hvalue : e.value = text := congrArg TLV.value hfield
      by_cases hempty : text = []
      · -- the encoder leaves an empty text out
        subst hempty
        exact ⟨p.take 2, by rw [marshalTextMessage_nil, hfront], .inr ⟨e, hfield, hp⟩, hbound⟩
      · have hreason : text.length ≤ maxReasonSize := by
          rw [TlvElement.octets_length, hfield] at hsize
          simp only [TLV.size, align4, tlvHeaderSize, maxReasonSize, maxEncryptedPayloadSize,
            maxFrameSize, headerSize, aeadTagSize] at *
          omega
        refine ⟨p.take 2 ++ e.field.octets, ?_, .inl ⟨[e], ?_, ?_⟩, hbound⟩
        · rw [marshalTextMessage_of_ne_nil hutf8 hreason hempty, hfront, hfield]
        · simpa using hp
        · simp [TlvElement.zeroed_octets]

end SessionClose

/-! ## The canonicalisation -/

/-- How the encoding `q` of a decoded message may differ from the input `p`. -/
def MessageKind.Canonicalises (p q : List UInt8) : MessageKind → Prop
  | .encryptedData => SameButAlignment 4 p q
  | .sessionClose => SameButAlignment 2 p q ∨ DropsEmptyText p q
  | .pingPong => q = p
  | .ack => q = p
  | .rekeyInit => q = p
  | .error => q = p

theorem MessageKind.Canonicalises.length_le {kind : MessageKind} {p q : List UInt8}
    (h : kind.Canonicalises p q) : q.length ≤ p.length := by
  cases kind with
  | encryptedData => exact h.length_eq.le
  | sessionClose =>
      rcases h with h | ⟨e, _, hp⟩
      · exact h.length_eq.le
      · rw [hp, List.length_append]
        omega
  | pingPong | ack | rekeyInit | error => exact (congrArg List.length h).le

theorem exists_of_map_eq_ok {α β : Type} {result : Except Error α} {f : α → β} {b : β}
    (h : result.map f = .ok b) : ∃ a, result = .ok a ∧ f a = b := by
  cases result with
  | error err => cases h
  | ok a => exact ⟨a, rfl, Except.ok.inj h⟩

/-- A decoded message is of the decoder's kind, can be encoded, and its encoding differs
from the input as its kind allows. -/
theorem MessageKind.unmarshalBinary_canonicalises {kind : MessageKind} {p : List UInt8}
    {m : Message} (h : kind.unmarshalBinary p = .ok m) :
    m.kind = kind ∧ p.length ≤ maxEncryptedPayloadSize ∧
      ∃ q, m.marshalBinary = .ok q ∧ kind.Canonicalises p q := by
  cases kind with
  | encryptedData =>
      obtain ⟨inner, hdecode, rfl⟩ := exists_of_map_eq_ok h
      obtain ⟨q, hmarshal, hsame, hbound⟩ := EncryptedData.marshalBinary_unmarshalBinary hdecode
      exact ⟨rfl, hbound, q, hmarshal, hsame⟩
  | pingPong =>
      obtain ⟨inner, hdecode, rfl⟩ := exists_of_map_eq_ok h
      obtain ⟨hmarshal, hlength⟩ := PingPong.marshalBinary_unmarshalBinary hdecode
      exact ⟨rfl, hlength.le.trans (by decide), p, congrArg Except.ok hmarshal, rfl⟩
  | sessionClose =>
      obtain ⟨inner, hdecode, rfl⟩ := exists_of_map_eq_ok h
      obtain ⟨q, hmarshal, hsame, hbound⟩ := SessionClose.marshalBinary_unmarshalBinary hdecode
      exact ⟨rfl, hbound, q, hmarshal, hsame⟩
  | ack =>
      obtain ⟨inner, hdecode, rfl⟩ := exists_of_map_eq_ok h
      obtain ⟨hmarshal, hlength⟩ := Ack.marshalBinary_unmarshalBinary hdecode
      exact ⟨rfl, hlength.trans (by decide), p, hmarshal, rfl⟩
  | rekeyInit =>
      obtain ⟨inner, hdecode, rfl⟩ := exists_of_map_eq_ok h
      obtain ⟨hmarshal, hlength⟩ := RekeyInit.marshalBinary_unmarshalBinary hdecode
      exact ⟨rfl, hlength.le.trans (by decide), p, hmarshal, rfl⟩
  | error =>
      obtain ⟨inner, hdecode, rfl⟩ := exists_of_map_eq_ok h
      obtain ⟨hmarshal, hbound⟩ := ErrorMessage.marshalBinary_unmarshalBinary hdecode
      exact ⟨rfl, hbound, p, hmarshal, rfl⟩

/-- Decoding and encoding again is a canonicalisation: every accepted payload is within
the payload limit, its message can be encoded, at no larger a size and to a payload with
the same meaning, and only alignment octets and an empty text are lost. -/
theorem decode_encode_canonical (kind : MessageKind) (p : List UInt8) (m : Message)
    (h : kind.unmarshalBinary p = .ok m) :
    ∃ q, m.marshalBinary = .ok q ∧ q.length ≤ p.length ∧
      p.length ≤ maxEncryptedPayloadSize ∧ kind.unmarshalBinary q = .ok m ∧
      kind.Canonicalises p q := by
  obtain ⟨hkind, hbound, q, hmarshal, hcanonical⟩ :=
    MessageKind.unmarshalBinary_canonicalises h
  have hdecode := Message.unmarshalBinary_marshalBinary hmarshal
  rw [hkind] at hdecode
  exact ⟨q, hmarshal, hcanonical.length_le, hbound, hdecode, hcanonical⟩

/-- An empty text whose alignment octet is not zero. -/
def emptyText : TlvElement := ⟨textTLVType, [], [9], by decide, by decide⟩

/-- A session close with an empty text is accepted, and encoded without it. -/
theorem decode_encode_canonical_close :
    ∃ q, Message.marshalBinary (.sessionClose ⟨2, []⟩) = .ok q ∧ q.length ≤ 6 ∧
      MessageKind.sessionClose.Canonicalises [2, 0, 1, 0, 0, 9] q := by
  have hfield : decodeTLVs (tlvSequence [emptyText])
      (align4 (tlvHeaderSize + maxReasonSize) : Nat) = .ok [emptyText.field] :=
    decodeTLVs_sequence (by decide) (.inr (by decide))
  have htext : unmarshalTextMessage [2, 0, 1, 0, 0, 9] = .ok (2, []) := by
    have hrest : List.drop 2 [2, 0, 1, 0, 0, 9] = tlvSequence [emptyText] := rfl
    unfold unmarshalTextMessage
    rw [if_neg (by decide), hrest, hfield]
    rfl
  have hdecode : MessageKind.sessionClose.unmarshalBinary [2, 0, 1, 0, 0, 9] =
      .ok (.sessionClose ⟨2, []⟩) := by
    simp only [MessageKind.unmarshalBinary, SessionClose.unmarshalBinary, htext]
    rfl
  obtain ⟨q, hmarshal, hlength, _, _, hcanonical⟩ :=
    decode_encode_canonical .sessionClose [2, 0, 1, 0, 0, 9] (.sessionClose ⟨2, []⟩) hdecode
  exact ⟨q, hmarshal, hlength, hcanonical⟩

end Wire
end DgProto
