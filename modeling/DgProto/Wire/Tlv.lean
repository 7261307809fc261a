import DgProto.Library.Octets
import DgProto.Wire.Errors

/-!
# TLV sequences

A field is encoded as its type, a little-endian 16-bit length, the value, and
zero octets up to a multiple of four.  Encoding runs a length pass and then
writes each field into a zeroed buffer at the offset where the previous one
ended; decoding validates the whole input and then reads it in a second pass.

Both passes are loops over offsets.  Their invariants are stated relative to
the part of the buffer that is already behind the offset, and give that the
encoder produces the concatenation of the single encodings
(`encodeTLVs_eq_ok_iff`) and that the decoder inverts it (`decodeTLVs_encodeTLVs`).
The decoder is followed over every sequence of the grammar, with any octets for the
alignment, of which the encoder's output is one.
-/

namespace DgProto
namespace Wire

open Library

/-- `tlv.HeaderSize`. -/
def tlvHeaderSize : Nat := 3
/-- `tlv.MaxValueSize`. -/
def maxTLVValueSize : Nat := 65535
/-- `tlv.MaxSequenceSize`. -/
def maxTLVSequenceSize : Nat := 65535
/-- `tlv.MaxElements`. -/
def maxTLVElements : Nat := maxTLVSequenceSize / 4

/-- `tlv.Failure`: the kind of a failure with the numbers it reports. -/
inductive TlvFailure where
  | tooShort (offset got : Nat)
  | truncatedValue (offset need got : Nat)
  | truncatedPadding (offset need got : Nat)
  | valueTooLarge (got : Nat)
  | decodeLimit (got : Nat) (limit : Int)
  | sequenceTooLarge (got limit : Nat)
  | sequenceFull (limit : Nat)
  | tooManyElements (got limit : Nat)
  | elementsFull (limit : Nat)
  deriving DecidableEq, Repr

/-- `tlvError` around `Failure.Wrap`. -/
def tlvError : TlvFailure → Error
  | .tooShort offset got =>
      ⟨[.tlvTooShort], Sentinel.tlvTooShort.text ++
        s!" at offset {offset}: got {got} header bytes"⟩
  | .truncatedValue offset need got =>
      ⟨[.tlvTruncated], Sentinel.tlvTruncated.text ++
        s!" at offset {offset}: value needs {need} bytes, got {got}"⟩
  | .truncatedPadding offset need got =>
      ⟨[.tlvTruncated], Sentinel.tlvTruncated.text ++
        s!" at offset {offset}: padding needs {need} bytes, got {got}"⟩
  | .valueTooLarge got => Sentinel.tlvValueTooLarge.wrap s!"got {got} bytes"
  | .decodeLimit got limit => Sentinel.tlvDecodeLimit.wrap s!"got {got} bytes, limit {limit}"
  | .sequenceTooLarge got limit =>
      Sentinel.tlvSequenceLimit.wrap s!"got {got} bytes, limit {limit}"
  | .sequenceFull limit => Sentinel.tlvSequenceLimit.wrap s!"limit {limit}"
  | .tooManyElements got limit => Sentinel.tlvElementLimit.wrap s!"got {got}, limit {limit}"
  | .elementsFull limit => Sentinel.tlvElementLimit.wrap s!"limit {limit}"

/-! ## The internal codec -/

/-- `Align4`: clear the two low bits of `n + 3`. -/
def align4 (n : Nat) : Nat := (n + 3) / 4 * 4

/-- `tlv.EncodedLen`. -/
def tlvEncodedLen (valueLen : Nat) : Except TlvFailure Nat :=
  if maxTLVValueSize < valueLen then .error (.valueTooLarge valueLen)
  else .ok (align4 (tlvHeaderSize + valueLen))

/-- `CheckCount`. -/
def checkCount (count : Nat) : Except TlvFailure Unit :=
  if maxTLVElements < count then .error (.tooManyElements count maxTLVElements)
  else .ok ()

/-- `AddLen`.  The failure carries the numbers its only caller reports. -/
def addLen (total valueLen : Nat) : Except TlvFailure Nat :=
  if maxTLVValueSize < valueLen then
    .error (.valueTooLarge valueLen)
  else
    let n := align4 (tlvHeaderSize + valueLen)
    if maxTLVSequenceSize - total < n then .error (.sequenceFull maxTLVSequenceSize)
    else .ok (total + n)

/-- The loop of `Validate`: count the elements from `offset` on. -/
def validateLoop (data : List UInt8) (offset count : Nat) : Except TlvFailure Nat :=
  if offset < data.length then
    if count = maxTLVElements then
      .error (.elementsFull maxTLVElements)
    else
      let remaining := data.length - offset
      if remaining < tlvHeaderSize then
        .error (.tooShort offset remaining)
      else
        let valueLen := (readUint16 (slice data (offset + 1) (offset + tlvHeaderSize))).toNat
        if remaining - tlvHeaderSize < valueLen then
          .error (.truncatedValue offset valueLen (remaining - tlvHeaderSize))
        else
          let unpadded := tlvHeaderSize + valueLen
          let paddingLen := (4 - unpadded % 4) % 4
          if remaining - unpadded < paddingLen then
            .error (.truncatedPadding offset paddingLen (remaining - unpadded))
          else
            validateLoop data (offset + (unpadded + paddingLen)) (count + 1)
  else
    .ok count
termination_by data.length - offset
decreasing_by
  simp only [tlvHeaderSize] at *
  omega

/-- `Validate`. -/
def tlvValidate (data : List UInt8) (maxBytes : Int) : Except TlvFailure Nat :=
  if maxTLVSequenceSize < data.length then
    .error (.sequenceTooLarge data.length maxTLVSequenceSize)
  else if 0 < maxBytes ∧ maxBytes < data.length then
    .error (.decodeLimit data.length maxBytes)
  else
    validateLoop data 0 0

/-- `Read`: type, value and next offset of the field at `offset`. -/
def tlvRead (data : List UInt8) (offset : Nat) : UInt8 × List UInt8 × Nat :=
  let valueLen := (readUint16 (slice data (offset + 1) (offset + tlvHeaderSize))).toNat
  let stop := offset + tlvHeaderSize + valueLen
  (data.getD offset 0, slice data (offset + tlvHeaderSize) stop,
    offset + align4 (tlvHeaderSize + valueLen))

/-- `Write`: the buffer after writing one field and the next offset. -/
def tlvWrite (data : List UInt8) (offset : Nat) (typ : UInt8) (value : List UInt8) :
    List UInt8 × Nat :=
  let data := copyAt data offset [typ]
  let data := copyAt data (offset + 1) (putUint16 (UInt16.ofNat value.length))
  let data := copyAt data (offset + tlvHeaderSize) value
  (data, offset + align4 (tlvHeaderSize + value.length))

/-- `Marshal`. -/
def tlvMarshal (typ : UInt8) (value : List UInt8) : Except TlvFailure (List UInt8) :=
  match tlvEncodedLen value.length with
  | .error failure => .error failure
  | .ok n => .ok (tlvWrite (List.replicate n 0) 0 typ value).1

/-! ## The public codec -/

/-- One application field. -/
structure TLV where
  type : UInt8
  value : List UInt8
  deriving DecidableEq, Repr

/-- `NewTLV`. -/
def newTLV (typ : UInt8) (value : List UInt8) : Except Error TLV :=
  match tlvEncodedLen value.length with
  | .error failure => .error (tlvError failure)
  | .ok _ => .ok ⟨typ, value⟩

/-- `TLV.MarshalBinary`. -/
def TLV.marshalBinary (t : TLV) : Except Error (List UInt8) :=
  match tlvMarshal t.type t.value with
  | .error failure => .error (tlvError failure)
  | .ok buf => .ok buf

/-- The reading loop of `DecodeTLVs`: `count` fields from `offset` on. -/
def readLoop (data : List UInt8) : Nat → Nat → List TLV
  | 0, _ => []
  | count + 1, offset =>
      let (typ, value, next) := tlvRead data offset
      ⟨typ, value⟩ :: readLoop data count next

/-- `DecodeTLVs`. -/
def decodeTLVs (data : List UInt8) (maxBytes : Int) : Except Error (List TLV) :=
  match tlvValidate data maxBytes with
  | .error failure => .error (tlvError failure)
  | .ok count => .ok (readLoop data count 0)

/-- The loop of `encodedTLVsLen`. -/
def addLenLoop (total : Nat) : List TLV → Except TlvFailure Nat
  | [] => .ok total
  | field :: fields =>
      match addLen total field.value.length with
      | .error failure => .error failure
      | .ok next => addLenLoop next fields

/-- `encodedTLVsLen`. -/
def encodedTLVsLen (fields : List TLV) : Except Error Nat :=
  match checkCount fields.length with
  | .error failure => .error (tlvError failure)
  | .ok () =>
      match addLenLoop 0 fields with
      | .error failure => .error (tlvError failure)
      | .ok total => .ok total

/-- The writing loop of `EncodeTLVs`. -/
def writeLoop (buf : List UInt8) (offset : Nat) : List TLV → List UInt8
  | [] => buf
  | field :: fields =>
      let (buf, next) := tlvWrite buf offset field.type field.value
      writeLoop buf next fields

/-- `EncodeTLVs`. -/
def encodeTLVs (fields : List TLV) : Except Error (List UInt8) :=
  match encodedTLVsLen fields with
  | .error err => .error err
  | .ok total => .ok (writeLoop (List.replicate total 0) 0 fields)

/-! ## What the encoder produces -/

theorem le_align4 (n : Nat) : n ≤ align4 n := by
  unfold align4
  omega

theorem align4_sub (n : Nat) : align4 n - n = (4 - n % 4) % 4 := by
  unfold align4
  omega

namespace TLV

/-- The room one field takes. -/
def size (t : TLV) : Nat := align4 (tlvHeaderSize + t.value.length)

/-- The encoding of one field. -/
def octets (t : TLV) : List UInt8 :=
  t.type :: (putUint16 (UInt16.ofNat t.value.length) ++
    (t.value ++ List.replicate (t.size - (tlvHeaderSize + t.value.length)) 0))

@[simp] theorem octets_length (t : TLV) : t.octets.length = t.size := by
  have h := le_align4 (tlvHeaderSize + t.value.length)
  simp only [octets, size, List.length_cons, List.length_append, List.length_replicate,
    putUint16_length]
  simp only [tlvHeaderSize] at *
  omega

theorem four_le_size (t : TLV) : 4 ≤ t.size := by
  unfold size align4 tlvHeaderSize
  omega

theorem value_length_lt_size (t : TLV) : t.value.length < t.size := by
  have h := le_align4 (tlvHeaderSize + t.value.length)
  simp only [size, tlvHeaderSize] at *
  omega

end TLV

/-- The encoding of a sequence of fields. -/
def tlvOctets (fields : List TLV) : List UInt8 := fields.flatMap TLV.octets

@[simp] theorem tlvOctets_nil : tlvOctets [] = [] := rfl

@[simp] theorem tlvOctets_cons (field : TLV) (fields : List TLV) :
    tlvOctets (field :: fields) = field.octets ++ tlvOctets fields := rfl

theorem four_mul_length_le (fields : List TLV) :
    4 * fields.length ≤ (tlvOctets fields).length := by
  induction fields with
  | nil => simp
  | cons field fields ih =>
      have hfield := field.four_le_size
      simp only [tlvOctets_cons, List.length_append, TLV.octets_length, List.length_cons]
      omega

/-- Writing a field into zeroed room appends its encoding. -/
theorem tlvWrite_zeroed (done : List UInt8) {room : Nat} (t : TLV) (h : t.size ≤ room) :
    tlvWrite (done ++ List.replicate room 0) done.length t.type t.value =
      ((done ++ t.octets) ++ List.replicate (room - t.size) 0, (done ++ t.octets).length) := by
  have hroom : 3 + t.value.length ≤ t.size := le_align4 _
  have hpad : List.replicate (room - (3 + t.value.length)) (0 : UInt8) =
      List.replicate (t.size - (3 + t.value.length)) 0 ++ List.replicate (room - t.size) 0 := by
    rw [List.replicate_append_replicate]
    congr 1
    omega
  simp only [tlvWrite, tlvHeaderSize]
  rw [copyAt_zeroed done rfl rfl (by simp only [List.length_singleton]; omega),
    copyAt_zeroed (done ++ [t.type]) rfl (by simp) (by simp; omega),
    copyAt_zeroed (done ++ [t.type] ++ putUint16 (UInt16.ofNat t.value.length)) rfl
      (by simp) (by simp; omega)]
  simp only [List.length_singleton, putUint16_length, Nat.sub_sub]
  rw [hpad, List.length_append, TLV.octets_length]
  simp [TLV.octets, TLV.size, tlvHeaderSize]

/-- Each round of the writing loop extends the written part by one encoding. -/
theorem writeLoop_zeroed (fields : List TLV) (done : List UInt8) {room : Nat}
    (h : (tlvOctets fields).length ≤ room) :
    writeLoop (done ++ List.replicate room 0) done.length fields =
      (done ++ tlvOctets fields) ++ List.replicate (room - (tlvOctets fields).length) 0 := by
  induction fields generalizing done room with
  | nil => simp [writeLoop]
  | cons field fields ih =>
      simp only [tlvOctets_cons, List.length_append, TLV.octets_length] at h
      simp only [writeLoop, tlvWrite_zeroed done field (Nat.le_of_add_right_le h)]
      rw [ih (done ++ field.octets) (by omega)]
      simp [Nat.sub_sub]

theorem addLen_eq_ok_iff {total next : Nat} (t : TLV) (htotal : total ≤ maxTLVSequenceSize) :
    addLen total t.value.length = .ok next ↔
      next = total + t.size ∧ next ≤ maxTLVSequenceSize := by
  have hvalue := t.value_length_lt_size
  unfold addLen
  dsimp only
  rw [show align4 (tlvHeaderSize + t.value.length) = t.size from rfl]
  split_ifs with hlong hfull
  · simp only [maxTLVValueSize, maxTLVSequenceSize] at *
    simp only [false_iff]
    omega
  · simp only [maxTLVSequenceSize] at *
    simp only [false_iff]
    omega
  · simp only [Except.ok.injEq]
    omega

theorem addLenLoop_eq_ok_iff (fields : List TLV) {total n : Nat}
    (htotal : total ≤ maxTLVSequenceSize) :
    addLenLoop total fields = .ok n ↔
      n = total + (tlvOctets fields).length ∧ n ≤ maxTLVSequenceSize := by
  induction fields generalizing total with
  | nil =>
      simp only [addLenLoop, Except.ok.injEq, tlvOctets_nil, List.length_nil]
      omega
  | cons field fields ih =>
      simp only [addLenLoop, tlvOctets_cons, List.length_append, TLV.octets_length]
      cases hstep : addLen total field.value.length with
      | error failure =>
          have hroom : addLen total field.value.length = .ok (total + field.size) ↔ _ :=
            addLen_eq_ok_iff field htotal
          simp only [hstep, reduceCtorEq, false_iff, true_and] at hroom ⊢
          omega
      | ok next =>
          obtain ⟨rfl, hnext⟩ := (addLen_eq_ok_iff field htotal).mp hstep
          simp only [ih hnext]
          omega

theorem encodedTLVsLen_eq_ok_iff {fields : List TLV} {n : Nat} :
    encodedTLVsLen fields = .ok n ↔
      n = (tlvOctets fields).length ∧ n ≤ maxTLVSequenceSize := by
  have hcount := four_mul_length_le fields
  have hloop : addLenLoop 0 fields = .ok n ↔ _ := addLenLoop_eq_ok_iff fields (Nat.zero_le _)
  rw [Nat.zero_add] at hloop
  rw [← hloop]
  unfold encodedTLVsLen checkCount
  by_cases hmany : maxTLVElements < fields.length
  · have hlong : ¬ (tlvOctets fields).length ≤ maxTLVSequenceSize := by
      simp only [maxTLVElements, maxTLVSequenceSize] at *
      omega
    have hloopFails : addLenLoop 0 fields ≠ .ok n := by
      rw [Ne, hloop]
      rintro ⟨rfl, hle⟩
      exact hlong hle
    simp [hmany, hloopFails]
  · simp only [hmany, if_false]
    cases addLenLoop 0 fields <;> simp

/-- Encoding succeeds exactly when the encodings fit the sequence limit, and
yields their concatenation: the element limit and the value limit are implied. -/
theorem encodeTLVs_eq_ok_iff {fields : List TLV} {bytes : List UInt8} :
    encodeTLVs fields = .ok bytes ↔
      bytes = tlvOctets fields ∧ bytes.length ≤ maxTLVSequenceSize := by
  unfold encodeTLVs
  cases hlen : encodedTLVsLen fields with
  | error err =>
      have hlong : ¬ (tlvOctets fields).length ≤ maxTLVSequenceSize := by
        intro hle
        have hok := encodedTLVsLen_eq_ok_iff.mpr ⟨rfl, hle⟩
        simp [hok] at hlen
      simp only [reduceCtorEq, false_iff, not_and]
      rintro rfl
      exact hlong
  | ok total =>
      obtain ⟨rfl, hle⟩ := encodedTLVsLen_eq_ok_iff.mp hlen
      have hwrite := writeLoop_zeroed fields [] (Nat.le_refl _)
      simp only [List.nil_append, List.length_nil, Nat.sub_self, List.replicate_zero,
        List.append_nil] at hwrite
      simp only [hwrite, Except.ok.injEq]
      constructor
      · rintro rfl
        exact ⟨rfl, hle⟩
      · rintro ⟨rfl, -⟩
        rfl

theorem newTLV_of_le {typ : UInt8} {value : List UInt8} (h : value.length ≤ maxTLVValueSize) :
    newTLV typ value = .ok ⟨typ, value⟩ := by
  have hlen : tlvEncodedLen value.length = .ok (align4 (tlvHeaderSize + value.length)) :=
    if_neg (Nat.not_lt.mpr h)
  simp only [newTLV, hlen]

/-- One field marshalled on its own. -/
theorem TLV.marshalBinary_of_le {t : TLV} (h : t.value.length ≤ maxTLVValueSize) :
    t.marshalBinary = .ok t.octets := by
  have hlen : tlvEncodedLen t.value.length = .ok t.size := if_neg (Nat.not_lt.mpr h)
  have hwrite := tlvWrite_zeroed [] t (Nat.le_refl t.size)
  simp only [List.nil_append, List.length_nil, Nat.sub_self, List.replicate_zero,
    List.append_nil] at hwrite
  simp only [TLV.marshalBinary, tlvMarshal, hlen, hwrite]

/-! ## The grammar of a sequence -/

/-- One element on the wire: a field, and the octets up to a multiple of four, which
the decoder does not look at. -/
structure TlvElement where
  type : UInt8
  value : List UInt8
  alignment : List UInt8
  value_length : value.length ≤ maxTLVValueSize
  alignment_length :
    alignment.length = align4 (tlvHeaderSize + value.length) - (tlvHeaderSize + value.length)

namespace TlvElement

/-- The field that the element carries. -/
def field (e : TlvElement) : TLV := ⟨e.type, e.value⟩

/-- The octets of the element: type, length, value, alignment. -/
def octets (e : TlvElement) : List UInt8 :=
  e.type :: (putUint16 (UInt16.ofNat e.value.length) ++ (e.value ++ e.alignment))

/-- The element with every alignment octet zero. -/
def zeroed (e : TlvElement) : TlvElement :=
  { e with
    alignment := List.replicate e.alignment.length 0
    alignment_length := by rw [List.length_replicate, e.alignment_length] }

/-- The encoder writes zero alignment. -/
theorem zeroed_octets (e : TlvElement) : e.zeroed.octets = e.field.octets := by
  simp only [octets, zeroed, TLV.octets, field, TLV.size, e.alignment_length]

@[simp] theorem octets_length (e : TlvElement) : e.octets.length = e.field.size := by
  have hroom : tlvHeaderSize + e.value.length ≤ e.field.size := le_align4 _
  have halignment : e.alignment.length = e.field.size - (tlvHeaderSize + e.value.length) :=
    e.alignment_length
  simp only [octets, List.length_cons, List.length_append, putUint16_length, halignment]
  simp only [tlvHeaderSize] at *
  omega

end TlvElement

/-- A sequence on the wire. -/
def tlvSequence (elements : List TlvElement) : List UInt8 :=
  elements.flatMap TlvElement.octets

@[simp] theorem tlvSequence_nil : tlvSequence [] = [] := rfl

@[simp] theorem tlvSequence_cons (e : TlvElement) (elements : List TlvElement) :
    tlvSequence (e :: elements) = e.octets ++ tlvSequence elements := rfl

/-- Encoding the fields of a sequence zeroes its alignment. -/
theorem tlvSequence_zeroed (elements : List TlvElement) :
    tlvSequence (elements.map TlvElement.zeroed) = tlvOctets (elements.map TlvElement.field) := by
  induction elements with
  | nil => rfl
  | cons e elements ih =>
      simp only [List.map_cons, tlvSequence_cons, tlvOctets_cons, ih, TlvElement.zeroed_octets]

theorem tlvSequence_length (elements : List TlvElement) :
    (tlvSequence elements).length = (tlvOctets (elements.map TlvElement.field)).length := by
  induction elements with
  | nil => rfl
  | cons e elements ih =>
      simp only [List.map_cons, tlvSequence_cons, tlvOctets_cons, List.length_append, ih,
        TlvElement.octets_length, TLV.octets_length]

/-- An element takes at least four octets, so the element limit follows from the size
limit. -/
theorem tlvSequence_elements_le {elements : List TlvElement}
    (h : (tlvSequence elements).length ≤ maxTLVSequenceSize) :
    elements.length ≤ maxTLVElements := by
  have hcount := four_mul_length_le (elements.map TlvElement.field)
  rw [← tlvSequence_length, List.length_map] at hcount
  simp only [maxTLVElements, maxTLVSequenceSize] at *
  omega

/-- Every encoding that fits is a sequence. -/
theorem exists_tlvSequence (fields : List TLV)
    (h : (tlvOctets fields).length ≤ maxTLVSequenceSize) :
    ∃ elements : List TlvElement, elements.map TlvElement.field = fields ∧
      tlvSequence elements = tlvOctets fields := by
  induction fields with
  | nil => exact ⟨[], rfl, rfl⟩
  | cons field fields ih =>
      rw [tlvOctets_cons, List.length_append, TLV.octets_length] at h
      obtain ⟨elements, hfields, hsequence⟩ := ih (by omega)
      have hvalue := field.value_length_lt_size
      let e : TlvElement :=
        { type := field.type
          value := field.value
          alignment := List.replicate (field.size - (tlvHeaderSize + field.value.length)) 0
          value_length := by
            simp only [maxTLVValueSize, maxTLVSequenceSize] at *
            omega
          alignment_length := List.length_replicate }
      refine ⟨e :: elements, ?_, ?_⟩
      · rw [List.map_cons, hfields]
        rfl
      · rw [tlvSequence_cons, hsequence]
        rfl

/-! ## The decoder on a sequence -/

section Decode

variable {data done rest : List UInt8} {e : TlvElement}

theorem tlv_length_at (hdata : data = done ++ (e.octets ++ rest)) :
    (readUint16 (slice data (done.length + 1) (done.length + tlvHeaderSize))).toNat =
      e.value.length := by
  have hvalue := e.value_length
  have hslice : slice data (done.length + 1) (done.length + tlvHeaderSize) =
      putUint16 (UInt16.ofNat e.value.length) :=
    slice_of_eq_append (done ++ [e.type]) (by simp [hdata, TlvElement.octets]; rfl) (by simp)
      (by simp [tlvHeaderSize])
  simp only [maxTLVValueSize] at hvalue
  rw [hslice, readUint16_putUint16, UInt16.toNat_ofNat', Nat.mod_eq_of_lt (by omega)]

theorem tlvRead_at (hdata : data = done ++ (e.octets ++ rest)) :
    tlvRead data done.length = (e.type, e.value, (done ++ e.octets).length) := by
  have htype : data.getD done.length 0 = e.type :=
    getD_of_eq_append done (by simp [hdata, TlvElement.octets]; rfl) rfl
  have hvalue : slice data (done.length + tlvHeaderSize)
      (done.length + tlvHeaderSize + e.value.length) = e.value :=
    slice_of_eq_append (done ++ e.type :: putUint16 (UInt16.ofNat e.value.length))
      (by simp [hdata, TlvElement.octets]; rfl) (by simp [tlvHeaderSize])
      (by simp [tlvHeaderSize])
  simp only [tlvRead, tlv_length_at hdata, htype, hvalue]
  simp [TLV.size, TlvElement.field]

/-- One round of the validation loop passes over one element. -/
theorem validateLoop_at {count : Nat} (hdata : data = done ++ (e.octets ++ rest))
    (hcount : count ≠ maxTLVElements) :
    validateLoop data done.length count =
      validateLoop data (done ++ e.octets).length (count + 1) := by
  have hroom : tlvHeaderSize + e.value.length ≤ e.field.size := le_align4 _
  have hpad : e.field.size - (tlvHeaderSize + e.value.length) =
      (4 - (tlvHeaderSize + e.value.length) % 4) % 4 := align4_sub _
  have hlength : data.length = done.length + (e.field.size + rest.length) := by simp [hdata]
  have hremaining : data.length - done.length = e.field.size + rest.length := by omega
  have hnext : done.length + (tlvHeaderSize + e.value.length +
      (4 - (tlvHeaderSize + e.value.length) % 4) % 4) = (done ++ e.octets).length := by
    rw [List.length_append, TlvElement.octets_length]
    omega
  have hlt : done.length < data.length := by
    have := e.field.four_le_size
    omega
  rw [validateLoop, if_pos hlt, if_neg hcount]
  dsimp only
  rw [tlv_length_at hdata, hremaining, hnext, if_neg (by omega), if_neg (by omega),
    if_neg (by omega)]

theorem validateLoop_append (done : List UInt8) (elements : List TlvElement) {count : Nat}
    (hdata : data = done ++ tlvSequence elements)
    (hcount : count + elements.length ≤ maxTLVElements) :
    validateLoop data done.length count = .ok (count + elements.length) := by
  induction elements generalizing done count with
  | nil =>
      rw [validateLoop, if_neg (by simp [hdata])]
      simp
  | cons e elements ih =>
      simp only [tlvSequence_cons, List.length_cons] at *
      rw [validateLoop_at hdata (by omega),
        ih (done ++ e.octets) (by simpa using hdata) (by omega)]
      congr 1
      omega

theorem readLoop_append (done : List UInt8) (elements : List TlvElement)
    (hdata : data = done ++ tlvSequence elements) :
    readLoop data elements.length done.length = elements.map TlvElement.field := by
  induction elements generalizing done with
  | nil => rfl
  | cons e elements ih =>
      simp only [tlvSequence_cons] at hdata
      simp only [List.length_cons, readLoop, tlvRead_at hdata]
      rw [ih (done ++ e.octets) (by simpa using hdata)]
      rfl

end Decode

theorem tlvValidate_sequence {elements : List TlvElement} {maxBytes : Int}
    (hsize : (tlvSequence elements).length ≤ maxTLVSequenceSize)
    (hlimit : maxBytes ≤ 0 ∨ ((tlvSequence elements).length : Int) ≤ maxBytes) :
    tlvValidate (tlvSequence elements) maxBytes = .ok elements.length := by
  have hcount := tlvSequence_elements_le hsize
  have hvalidate : validateLoop (tlvSequence elements) 0 0 = .ok (0 + elements.length) :=
    validateLoop_append [] elements rfl (by omega)
  have hwithin : ¬ (0 < maxBytes ∧ maxBytes < (tlvSequence elements).length) := by omega
  rw [tlvValidate, if_neg (Nat.not_lt.mpr hsize), if_neg hwithin, hvalidate, Nat.zero_add]

/-- Every sequence within the limits decodes to its fields. -/
theorem decodeTLVs_sequence {elements : List TlvElement} {maxBytes : Int}
    (hsize : (tlvSequence elements).length ≤ maxTLVSequenceSize)
    (hlimit : maxBytes ≤ 0 ∨ ((tlvSequence elements).length : Int) ≤ maxBytes) :
    decodeTLVs (tlvSequence elements) maxBytes = .ok (elements.map TlvElement.field) := by
  have hread : readLoop (tlvSequence elements) elements.length 0 =
      elements.map TlvElement.field := readLoop_append [] elements rfl
  simp only [decodeTLVs, tlvValidate_sequence hsize hlimit, hread]

/-- Every encoded sequence decodes to the fields it was made from. -/
theorem decodeTLVs_encodeTLVs {fields : List TLV} {bytes : List UInt8} {maxBytes : Int}
    (hencode : encodeTLVs fields = .ok bytes)
    (hlimit : maxBytes ≤ 0 ∨ (bytes.length : Int) ≤ maxBytes) :
    decodeTLVs bytes maxBytes = .ok fields := by
  obtain ⟨rfl, hsize⟩ := encodeTLVs_eq_ok_iff.mp hencode
  obtain ⟨elements, hfields, hsequence⟩ := exists_tlvSequence fields hsize
  rw [← hsequence] at hsize hlimit ⊢
  rw [decodeTLVs_sequence hsize hlimit, hfields]

end Wire
end DgProto
