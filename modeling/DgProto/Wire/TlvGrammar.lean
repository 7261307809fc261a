import DgProto.Wire.Tlv

/-!
# The TLV decoder accepts its grammar

`DecodeTLVs` makes two passes over the input, with two formulas for the step from one
element to the next.  The first pass accepts exactly the sequences of the grammar; on
those the second stays within the input and ends where the input ends.  What was
decoded can be encoded again, to the same octets with the alignment zeroed.

The three limits of the encoder collapse into one: a list of fields is encoded exactly
when its encodings fit into a sequence.
-/

namespace DgProto
namespace Wire

open Library

/-! ## The first pass -/

section Validate

variable {data : List UInt8} {offset : Nat}

/-- The checks of one round have found an element at `offset`. -/
theorem exists_element_at {valueLen : Nat}
    (hheader : offset + tlvHeaderSize ≤ data.length)
    (hlength : (readUint16 (slice data (offset + 1) (offset + tlvHeaderSize))).toNat = valueLen)
    (hfits : offset + align4 (tlvHeaderSize + valueLen) ≤ data.length) :
    ∃ e : TlvElement, e.value.length = valueLen ∧
      data.drop offset =
        e.octets ++ data.drop (offset + align4 (tlvHeaderSize + valueLen)) := by
  have hroom := le_align4 (tlvHeaderSize + valueLen)
  have hbound : valueLen ≤ maxTLVValueSize := by
    have := (readUint16 (slice data (offset + 1) (offset + tlvHeaderSize))).toNat_lt
    simp only [maxTLVValueSize]
    omega
  let e : TlvElement :=
    { type := data.getD offset 0
      value := slice data (offset + tlvHeaderSize) (offset + tlvHeaderSize + valueLen)
      alignment := slice data (offset + tlvHeaderSize + valueLen)
        (offset + align4 (tlvHeaderSize + valueLen))
      value_length := by
        rw [slice_length (by omega)]
        omega
      alignment_length := by
        rw [slice_length (by omega), slice_length (by omega)]
        simp only [Nat.add_sub_cancel_left]
        omega }
  have hvalue : e.value.length = valueLen := by
    show (slice data _ _).length = valueLen
    rw [slice_length (by omega)]
    omega
  have hlen : slice data (offset + 1) (offset + tlvHeaderSize) =
      putUint16 (UInt16.ofNat e.value.length) := by
    rw [hvalue, ← hlength, UInt16.ofNat_toNat, putUint16_readUint16 (by
      rw [slice_length hheader]
      simp only [tlvHeaderSize]
      omega)]
  refine ⟨e, hvalue, ?_⟩
  calc data.drop offset
      = data.getD offset 0 :: data.drop (offset + 1) := by
        have hlt : offset < data.length := by
          simp only [tlvHeaderSize] at hheader
          omega
        rw [List.drop_eq_getElem_cons hlt, List.getD_eq_getElem?_getD,
          List.getElem?_eq_getElem hlt, Option.getD_some]
    _ = data.getD offset 0 :: (slice data (offset + 1) (offset + tlvHeaderSize) ++
          (slice data (offset + tlvHeaderSize) (offset + tlvHeaderSize + valueLen) ++
            (slice data (offset + tlvHeaderSize + valueLen)
                (offset + align4 (tlvHeaderSize + valueLen)) ++
              data.drop (offset + align4 (tlvHeaderSize + valueLen))))) := by
        rw [slice_append_drop data (by omega), slice_append_drop data (by omega),
          slice_append_drop data (by simp only [tlvHeaderSize]; omega)]
    _ = e.octets ++ data.drop (offset + align4 (tlvHeaderSize + valueLen)) := by
        rw [hlen]
        simp only [TlvElement.octets, List.cons_append, List.append_assoc]
        rfl

/-- What the loop accepts from `offset` on is a sequence, and it counts its elements. -/
theorem validateLoop_eq_ok {count n : Nat} (h : validateLoop data offset count = .ok n)
    (hoffset : offset ≤ data.length) :
    ∃ elements : List TlvElement, data.drop offset = tlvSequence elements ∧
      n = count + elements.length := by
  -- strong induction on what is left of the input
  induction hleft : data.length - offset using Nat.strong_induction_on
    generalizing offset count with
  | _ left ih =>
      rw [validateLoop] at h
      by_cases hlt : offset < data.length
      swap
      · rw [if_neg hlt, Except.ok.injEq] at h
        refine ⟨[], ?_, by simpa using h.symm⟩
        exact List.drop_of_length_le (by omega)
      rw [if_pos hlt] at h
      dsimp only at h
      split_ifs at h with hfull hshort hvalue hpadding
      generalize hlength :
        (readUint16 (slice data (offset + 1) (offset + tlvHeaderSize))).toNat = valueLen at *
      have hroom := le_align4 (tlvHeaderSize + valueLen)
      have hpad := align4_sub (tlvHeaderSize + valueLen)
      have hnext : offset + (tlvHeaderSize + valueLen +
          (4 - (tlvHeaderSize + valueLen) % 4) % 4) =
            offset + align4 (tlvHeaderSize + valueLen) := by omega
      rw [hnext] at h
      obtain ⟨e, _, hfront⟩ := exists_element_at (by omega) hlength (by omega)
      obtain ⟨elements, hrest, hcount⟩ :=
        ih _ (by simp only [tlvHeaderSize] at *; omega) h (by omega) rfl
      refine ⟨e :: elements, ?_, ?_⟩
      · rw [hfront, hrest, tlvSequence_cons]
      · rw [hcount, List.length_cons]
        omega

end Validate

theorem tlvValidate_eq_ok {data : List UInt8} {maxBytes : Int} {count : Nat}
    (h : tlvValidate data maxBytes = .ok count) :
    data.length ≤ maxTLVSequenceSize ∧ (maxBytes ≤ 0 ∨ (data.length : Int) ≤ maxBytes) ∧
      ∃ elements : List TlvElement, data = tlvSequence elements ∧ count = elements.length := by
  unfold tlvValidate at h
  split_ifs at h with hlong hlimit
  obtain ⟨elements, hdata, hcount⟩ := validateLoop_eq_ok h (Nat.zero_le _)
  refine ⟨Nat.not_lt.mp hlong, ?_, elements, hdata, ?_⟩
  · omega
  · rw [hcount, Nat.zero_add]

/-- The decoder accepts sequences within the limits only, and returns their fields. -/
theorem decodeTLVs_eq_ok {data : List UInt8} {maxBytes : Int} {fields : List TLV}
    (h : decodeTLVs data maxBytes = .ok fields) :
    data.length ≤ maxTLVSequenceSize ∧ (maxBytes ≤ 0 ∨ (data.length : Int) ≤ maxBytes) ∧
      ∃ elements : List TlvElement, data = tlvSequence elements ∧
        fields = elements.map TlvElement.field := by
  cases hvalidate : tlvValidate data maxBytes with
  | error failure => simp [decodeTLVs, hvalidate] at h
  | ok count =>
      obtain ⟨hsize, hlimit, elements, rfl, _⟩ := tlvValidate_eq_ok hvalidate
      rw [decodeTLVs_sequence hsize hlimit] at h
      exact ⟨hsize, hlimit, elements, rfl, (Except.ok.inj h).symm⟩

/-! ## The second pass with checked accesses -/

/-- `Read`. -/
def tlvReadChecked (data : List UInt8) (offset : Nat) : Option (UInt8 × List UInt8 × Nat) := do
  let length ← checkedSlice data (offset + 1) (offset + tlvHeaderSize)
  let valueLen := (readUint16 length).toNat
  let stop := offset + tlvHeaderSize + valueLen
  let typ ← checkedGet data offset
  let value ← checkedSlice data (offset + tlvHeaderSize) stop
  return (typ, value, offset + align4 (tlvHeaderSize + valueLen))

/-- The reading loop of `DecodeTLVs`: the fields, and the offset where it ends. -/
def readLoopChecked (data : List UInt8) : Nat → Nat → Option (List TLV × Nat)
  | 0, offset => some ([], offset)
  | count + 1, offset => do
      let (typ, value, next) ← tlvReadChecked data offset
      let (fields, stop) ← readLoopChecked data count next
      return (⟨typ, value⟩ :: fields, stop)

/-- `DecodeTLVs` with both of its results: the fields and the error. -/
def decodeTLVsChecked (data : List UInt8) (maxBytes : Int) :
    Option (List TLV × Option Error) :=
  match tlvValidate data maxBytes with
  | .error failure => some ([], some (tlvError failure))
  | .ok count =>
      match readLoopChecked data count 0 with
      | none => none
      | some (out, _) => some (out, none)

section Read

variable {data done rest : List UInt8} {e : TlvElement}

/-- Every access to an element is in range. -/
theorem tlvReadChecked_at (hdata : data = done ++ (e.octets ++ rest)) :
    tlvReadChecked data done.length = some (e.type, e.value, (done ++ e.octets).length) := by
  have hroom : tlvHeaderSize + e.value.length ≤ e.field.size := le_align4 _
  have hlength : data.length = done.length + (e.field.size + rest.length) := by simp [hdata]
  have hread := tlvRead_at hdata
  simp only [tlvRead, tlv_length_at hdata] at hread
  simp only [tlvReadChecked]
  rw [checkedSlice_of_le (by simp only [tlvHeaderSize]; omega) (by omega),
    checkedGet_of_lt 0 (by simp only [tlvHeaderSize] at *; omega)]
  simp only [Option.bind_eq_bind, Option.bind_some, tlv_length_at hdata]
  rw [checkedSlice_of_le (by omega) (by omega)]
  simp only [Option.bind_some]
  exact congrArg some hread

/-- The second pass ends at the end of a sequence. -/
theorem readLoopChecked_append (done : List UInt8) (elements : List TlvElement)
    (hdata : data = done ++ tlvSequence elements) :
    readLoopChecked data elements.length done.length =
      some (elements.map TlvElement.field, data.length) := by
  induction elements generalizing done with
  | nil => simp [readLoopChecked, hdata]
  | cons e elements ih =>
      rw [tlvSequence_cons] at hdata
      have hrest := ih (done ++ e.octets) (by simpa using hdata)
      simp only [List.length_cons, readLoopChecked, tlvReadChecked_at hdata, hrest,
        Option.bind_eq_bind, Option.bind_some]
      rfl

end Read

theorem decodeTLVsChecked_of_error {data : List UInt8} {maxBytes : Int} {err : Error}
    (h : decodeTLVs data maxBytes = .error err) :
    decodeTLVsChecked data maxBytes = some ([], some err) := by
  cases hvalidate : tlvValidate data maxBytes with
  | error failure =>
      obtain rfl : tlvError failure = err := by simpa [decodeTLVs, hvalidate] using h
      simp only [decodeTLVsChecked, hvalidate]
  | ok count => simp [decodeTLVs, hvalidate] at h

/-! ## The main results -/

/-- The room that the fields take. -/
theorem tlvOctets_length (fields : List TLV) :
    (tlvOctets fields).length =
      (fields.map fun field => align4 (3 + field.value.length)).sum := by
  induction fields with
  | nil => rfl
  | cons field fields ih =>
      rw [tlvOctets_cons, List.length_append, TLV.octets_length, ih, List.map_cons,
        List.sum_cons]
      rfl

/-- Encoding succeeds exactly when the aligned sizes add up to at most 65535; then it
yields as many octets, the concatenation of the single encodings, and they decode to the
fields in order. -/
theorem encodeTLVs_exact (fields : List TLV) :
    ((∃ bytes, encodeTLVs fields = .ok bytes) ↔
      (fields.map fun field => align4 (3 + field.value.length)).sum ≤ 65535) ∧
    ∀ bytes, encodeTLVs fields = .ok bytes →
      bytes.length = (fields.map fun field => align4 (3 + field.value.length)).sum ∧
      (∃ parts : List (List UInt8),
        fields.map TLV.marshalBinary = parts.map Except.ok ∧ bytes = parts.flatten) ∧
      ∀ maxBytes : Int, maxBytes ≤ 0 ∨ (bytes.length : Int) ≤ maxBytes →
        decodeTLVs bytes maxBytes = .ok fields := by
  constructor
  · rw [← tlvOctets_length]
    constructor
    · rintro ⟨bytes, hencode⟩
      obtain ⟨rfl, hsize⟩ := encodeTLVs_eq_ok_iff.mp hencode
      exact hsize
    · intro hsize
      exact ⟨_, encodeTLVs_eq_ok_iff.mpr ⟨rfl, hsize⟩⟩
  · intro bytes hencode
    obtain ⟨rfl, hsize⟩ := encodeTLVs_eq_ok_iff.mp hencode
    refine ⟨tlvOctets_length fields, ⟨fields.map TLV.octets, ?_, ?_⟩, fun maxBytes hlimit => ?_⟩
    · obtain ⟨elements, rfl, _⟩ := exists_tlvSequence fields hsize
      simp only [List.map_map]
      apply List.map_congr_left
      intro e _
      exact TLV.marshalBinary_of_le e.value_length
    · exact List.flatMap_def
    · exact decodeTLVs_encodeTLVs hencode hlimit

/-- A field of two octets and an empty one. -/
theorem encodeTLVs_exact_pair :
    ∃ bytes, encodeTLVs [⟨1, [104, 105]⟩, ⟨2, []⟩] = .ok bytes ∧ bytes.length = 12 ∧
      decodeTLVs bytes 12 = .ok [⟨1, [104, 105]⟩, ⟨2, []⟩] := by
  obtain ⟨hfits, hexact⟩ := encodeTLVs_exact [⟨1, [104, 105]⟩, ⟨2, []⟩]
  obtain ⟨bytes, hbytes⟩ := hfits.mpr (by decide)
  obtain ⟨hlength, _, hdecode⟩ := hexact bytes hbytes
  exact ⟨bytes, hbytes, hlength, hdecode 12 (.inr (by rw [hlength]; decide))⟩

/-- Decoding accepts exactly the sequences of the grammar within the size limits, on
which the element limit is not reached.  Then the second pass stays in range and ends at
the end of the input after as many elements as the first pass counted, and encoding the
fields gives the input back with its alignment zeroed.  A failure returns no fields. -/
theorem decodeTLVs_exact (data : List UInt8) (maxBytes : Int) :
    ((∃ fields, decodeTLVs data maxBytes = .ok fields) ↔
      data.length ≤ 65535 ∧ (maxBytes ≤ 0 ∨ (data.length : Int) ≤ maxBytes) ∧
        ∃ elements, data = tlvSequence elements) ∧
    (∀ elements, data = tlvSequence elements → data.length ≤ 65535 →
      elements.length ≤ maxTLVElements) ∧
    (∀ fields, decodeTLVs data maxBytes = .ok fields →
      ∃ elements, data = tlvSequence elements ∧ fields = elements.map TlvElement.field ∧
        tlvValidate data maxBytes = .ok elements.length ∧
        readLoopChecked data elements.length 0 = some (fields, data.length) ∧
        decodeTLVsChecked data maxBytes = some (fields, none) ∧
        ∃ bytes, encodeTLVs fields = .ok bytes ∧ bytes.length = data.length ∧
          bytes = tlvSequence (elements.map TlvElement.zeroed)) ∧
    ∀ err, decodeTLVs data maxBytes = .error err →
      decodeTLVsChecked data maxBytes = some ([], some err) := by
  refine ⟨⟨?_, ?_⟩, ?_, ?_, fun err => decodeTLVsChecked_of_error⟩
  · rintro ⟨fields, hdecode⟩
    obtain ⟨hsize, hlimit, elements, hdata, _⟩ := decodeTLVs_eq_ok hdecode
    exact ⟨hsize, hlimit, elements, hdata⟩
  · rintro ⟨hsize, hlimit, elements, rfl⟩
    exact ⟨_, decodeTLVs_sequence hsize hlimit⟩
  · rintro elements rfl hsize
    exact tlvSequence_elements_le hsize
  · intro fields hdecode
    obtain ⟨hsize, hlimit, elements, rfl, rfl⟩ := decodeTLVs_eq_ok hdecode
    have hvalidate := tlvValidate_sequence hsize hlimit
    have hread : readLoopChecked (tlvSequence elements) elements.length 0 =
        some (elements.map TlvElement.field, (tlvSequence elements).length) :=
      readLoopChecked_append [] elements rfl
    have hlength := tlvSequence_length elements
    refine ⟨elements, rfl, rfl, hvalidate, hread, ?_, tlvOctets (elements.map TlvElement.field),
      ?_, hlength.symm, (tlvSequence_zeroed elements).symm⟩
    · simp only [decodeTLVsChecked, hvalidate, hread]
    · rw [encodeTLVs_eq_ok_iff]
      exact ⟨rfl, hlength ▸ hsize⟩

/-- An empty field with a nonzero alignment octet is accepted. -/
theorem decodeTLVs_exact_alignment :
    ∃ fields, decodeTLVs [1, 0, 0, 9] 0 = .ok fields ∧
      decodeTLVsChecked [1, 0, 0, 9] 0 = some (fields, none) := by
  obtain ⟨haccepts, _, hdecoded, _⟩ := decodeTLVs_exact [1, 0, 0, 9] 0
  obtain ⟨fields, hfields⟩ := haccepts.mpr
    ⟨by decide, .inl (Int.le_refl 0), [⟨1, [], [9], by decide, by decide⟩], by decide⟩
  obtain ⟨_, _, _, _, _, hchecked, _⟩ := hdecoded fields hfields
  exact ⟨fields, hfields, hchecked⟩

end Wire
end DgProto
